import Mathlib

/-!
# Programs of atomic actions, alone and interleaved

A program is a tree of atomic actions on a shared state, branching on their answers. It runs alone from beginning to end,
or its actions are interleaved with those of any number of other programs.
-/

namespace Threads

open List

variable {A : Type → Type} {α β γ : Type}

inductive Prog (A : Type → Type) (α : Type) : Type 1 where
  | done (result : α)
  | act {β : Type} (action : A β) (next : β → Prog A α)

variable {p : Prog A α}

namespace Prog

def bind : Prog A α → (α → Prog A γ) → Prog A γ
  | done r, f => f r
  | act a k, f => act a fun r => (k r).bind f

instance : Monad (Prog A) where
  pure := done
  bind := bind

/-- The program of one action. -/
def perform (a : A β) : Prog A β := act a done

@[simp] theorem pure_eq (r : α) : (pure r : Prog A α) = done r := rfl

@[simp] theorem done_bind (r : α) (f : α → Prog A γ) : (done r >>= f) = f r := rfl

@[simp] theorem act_bind (a : A β) (k : β → Prog A α) (f : α → Prog A γ) :
    (act a k >>= f) = act a fun r => k r >>= f := rfl

@[simp] theorem perform_bind (a : A β) (f : β → Prog A γ) : (perform a >>= f) = act a f := rfl

@[simp] theorem map_eq (f : α → γ) (p : Prog A α) : f <$> p = p >>= fun r => done (f r) := rfl

/-- Every action replaced by a program. -/
def interpret {B : Type → Type} (f : {β : Type} → A β → Prog B β) : Prog A α → Prog B α
  | done r => done r
  | act a k => (f a).bind fun r => (k r).interpret f

theorem bind_assoc (p : Prog A α) (f : α → Prog A β) (g : β → Prog A γ) :
    (p >>= f) >>= g = p >>= fun r => f r >>= g := by
  induction p with
  | done r => rfl
  | act a k ih => exact congrArg (act a) (funext ih)

theorem interpret_bind {B : Type → Type} (f : {β : Type} → A β → Prog B β) (p : Prog A α) (g : α → Prog A γ) :
    (p >>= g).interpret f = p.interpret f >>= fun r => (g r).interpret f := by
  induction p with
  | done r => rfl
  | act a k ih =>
    show (f a >>= fun r => (k r >>= g).interpret f) = (f a >>= fun r => (k r).interpret f) >>= _
    rw [bind_assoc]
    exact congrArg (f a >>= ·) (funext ih)

theorem interpret_interpret {B C : Type → Type} (f : {β : Type} → A β → Prog B β) (g : {β : Type} → B β → Prog C β)
    (p : Prog A α) : (p.interpret f).interpret g = p.interpret fun a => (f a).interpret g := by
  induction p with
  | done r => rfl
  | act a k ih =>
    show (f a >>= fun r => (k r).interpret f).interpret g = _
    rw [interpret_bind]
    exact congrArg ((f a).interpret g >>= ·) (funext ih)

/-- There is nothing left to do. -/
def isDone : Prog A α → Bool
  | done _ => true
  | act _ _ => false

/-- The result, if there is nothing left to do. -/
def result : Prog A α → Option α
  | done r => some r
  | act _ _ => none

theorem eq_done_of_result {r : α} (h : p.result = some r) : p = done r := by
  cases p with
  | done r' => rw [show r' = r from Option.some.inj h]
  | act a k => cases h

theorem eq_done_of_isDone (h : p.isDone) : ∃ r, p = done r := by
  cases p with
  | done r => exact ⟨r, rfl⟩
  | act a k => cases h

end Prog

structure Machine (A : Type → Type) (L E S : Type) where
  exec : {β : Type} → A β → L → E → S → Option (β × S)

section Run

variable {L E S : Type} (M : Machine A L E S) (l : L) (e : E)

def Prog.run : Prog A α → S → Option (α × S)
  | .done r, s => some (r, s)
  | .act a k, s => (M.exec a l e s).bind fun x => (k x.1).run x.2

variable {M l e}

theorem Prog.run_act {a : A β} {k : β → Prog A α} {s s' : S} {r : β} (h : M.exec a l e s = some (r, s')) :
    (Prog.act a k).run M l e s = (k r).run M l e s' := by
  rw [Prog.run, h]
  rfl

theorem Prog.run_bind {f : α → Prog A γ} {s s' : S} {r : α} (h : p.run M l e s = some (r, s')) :
    (p >>= f).run M l e s = (f r).run M l e s' := by
  induction p generalizing s with
  | done r' =>
    cases h
    rfl
  | act a k ih =>
    rw [Prog.run] at h
    obtain ⟨⟨x, s₁⟩, hx, h⟩ := Option.bind_eq_some_iff.1 h
    rw [Prog.act_bind, Prog.run_act hx]
    exact ih x h

variable (M l) in
inductive Prog.Exec : Prog A α → S → α → S → Prop where
  | done (r : α) (s : S) : Exec (.done r) s r s
  | act {β : Type} {a : A β} {k : β → Prog A α} {s s₁ s' : S} {x : β} {r : α} (e : E) :
      M.exec a l e s = some (x, s₁) → Exec (k x) s₁ r s' → Exec (.act a k) s r s'

theorem Prog.Exec.of_run {e : E} {s s' : S} {r : α} (h : p.run M l e s = some (r, s')) :
    p.Exec M l s r s' := by
  induction p generalizing s with
  | done x =>
    cases h
    exact .done _ _
  | act a k ih =>
    rw [Prog.run] at h
    obtain ⟨⟨x, s₁⟩, hexec, h⟩ := Option.bind_eq_some_iff.1 h
    exact .act e hexec (ih x h)

theorem Prog.Exec.of_bind {f : α → Prog A γ} {s s' : S} {r : γ} (h : (p >>= f).Exec M l s r s') :
    ∃ x s₁, p.Exec M l s x s₁ ∧ (f x).Exec M l s₁ r s' := by
  induction p generalizing s with
  | done x => exact ⟨x, s, .done x s, h⟩
  | act a k ih =>
    cases h with
    | act e hexec h =>
      obtain ⟨x, s₁, hk, hf⟩ := ih _ h
      exact ⟨x, s₁, .act e hexec hk, hf⟩

end Run

def Machine.restrict {L E S : Type} (M : Machine A L E S) (C : {β : Type} → A β → L → E → S → Prop)
    [∀ (β : Type) (a : A β) l e s, Decidable (C a l e s)] : Machine A L E S where
  exec a l e s := if C a l e s then M.exec a l e s else none

theorem Machine.restrict_exec {L E S : Type} {M : Machine A L E S} {C : {β : Type} → A β → L → E → S → Prop}
    [∀ (β : Type) (a : A β) l e s, Decidable (C a l e s)] {a : A β} {l : L} {e : E} {s : S} {x : β × S}
    (h : (M.restrict C).exec a l e s = some x) : C a l e s ∧ M.exec a l e s = some x := by
  unfold Machine.restrict at h
  dsimp only at h
  split at h
  · exact ⟨‹_›, h⟩
  · cases h

/-! ## Programs that nobody disturbs, and functions -/

section Refines

variable {L E S T : Type}

def Prog.Refines (M : Machine A L E S) (l : L) (e : E) (R : S → T → Prop) (p : Prog A α) (f : T → α × T) : Prop :=
  ∀ s t, R s t → ∃ s', p.run M l e s = some ((f t).1, s') ∧ R s' (f t).2

variable {M : Machine A L E S} {l : L} {e : E} {R : S → T → Prop}

theorem Prog.refines_done (r : α) : (Prog.done r : Prog A α).Refines M l e R fun t => (r, t) :=
  fun s _ hR => ⟨s, rfl, hR⟩

theorem Prog.Refines.bind {k : α → Prog A γ} {f : T → α × T} {g : α → T → γ × T}
    (hp : p.Refines M l e R f) (hk : ∀ r, (k r).Refines M l e R (g r)) :
    (p >>= k).Refines M l e R fun t => g (f t).1 (f t).2 := by
  intro s t hR
  obtain ⟨s₁, hrun₁, hR₁⟩ := hp s t hR
  obtain ⟨s₂, hrun₂, hR₂⟩ := hk _ s₁ _ hR₁
  exact ⟨s₂, (Prog.run_bind hrun₁).trans hrun₂, hR₂⟩

theorem Prog.Refines.map {f : T → α × T} (hp : p.Refines M l e R f) (g : α → γ) :
    (g <$> p).Refines M l e R fun t => Prod.map g id (f t) :=
  hp.bind fun r => refines_done (g r)

theorem Prog.Refines.congr {f g : T → α × T} (hp : p.Refines M l e R f) (h : ∀ t, f t = g t) :
    p.Refines M l e R g :=
  funext h ▸ hp

end Refines

/-! ## Threads -/

section Step

variable {L E S : Type}

structure Config (A : Type → Type) (L S α : Type) : Type 1 where
  shared : S
  threads : List (L × Prog A α)

variable (M : Machine A L E S) (starts : S → L → Prog A α → Prop)

/-- A thread starts, or a thread performs its next action. -/
inductive Step : Config A L S α → Config A L S α → Prop where
  | start {s : S} {ts : List (L × Prog A α)} {l : L} {p : Prog A α} : starts s l p → Step ⟨s, ts⟩ ⟨s, ts ++ [(l, p)]⟩
  | act {s s' : S} (pre post : List (L × Prog A α)) {l : L} (e : E) {β : Type} {a : A β} {k : β → Prog A α} {r : β} :
      M.exec a l e s = some (r, s') → Step ⟨s, pre ++ (l, .act a k) :: post⟩ ⟨s', pre ++ (l, k r) :: post⟩

abbrev Run : Config A L S α → Config A L S α → Prop := Relation.ReflTransGen (Step M starts)

def Config.act (c : Config A L S α) (i : ℕ) (e : E) : Option (Config A L S α) :=
  match c.threads[i]? with
  | some (l, .act a k) => (M.exec a l e c.shared).map fun x => ⟨x.2, c.threads.set i (l, k x.1)⟩
  | _ => none

/-- The threads act in the given order. -/
def Config.perform : List (ℕ × E) → Config A L S α → Option (Config A L S α)
  | [], c => some c
  | (i, e) :: schedule, c => (c.act M i e).bind (perform schedule)

variable {M}

theorem Config.act_step {c c' : Config A L S α} {i : ℕ} {e : E} (h : c.act M i e = some c') : Step M starts c c' := by
  unfold Config.act at h
  split at h
  · rename_i l β a k hget
    obtain ⟨⟨r, s'⟩, hexec, rfl⟩ := Option.map_eq_some_iff.1 h
    obtain ⟨hi, hthread⟩ := List.getElem?_eq_some_iff.1 hget
    obtain ⟨s, ts⟩ := c
    have hsplit : ts = ts.take i ++ (l, .act a k) :: ts.drop (i + 1) := by
      rw [← hthread, ← drop_eq_getElem_cons, take_append_drop]
    dsimp only
    rw [set_eq_take_append_cons_drop, if_pos hi]
    conv_lhs => rw [hsplit]
    exact .act _ _ e hexec
  · cases h

theorem Config.perform_run {schedule : List (ℕ × E)} {c c' : Config A L S α} (h : c.perform M schedule = some c') :
    Run M starts c c' := by
  induction schedule generalizing c with
  | nil =>
    cases h
    exact .refl
  | cons x schedule ih =>
    obtain ⟨c₁, hact, h⟩ := Option.bind_eq_some_iff.1 h
    exact .head (act_step starts hact) (ih h)

variable {starts}

theorem Run.exists_perform {P : Config A L S α → Prop} [DecidablePred P] {c₀ c : Config A L S α}
    (hrun : Run M starts c₀ c) (schedule : List (ℕ × E))
    (h : (c.perform M schedule).any (fun c' => decide (P c')) = true) : ∃ c', Run M starts c₀ c' ∧ P c' := by
  obtain ⟨c', hc', hP⟩ := (Option.any_eq_true _ _).1 h
  exact ⟨c', hrun.trans (Config.perform_run starts hc'), of_decide_eq_true hP⟩

/-! ## Invariants with owned resources -/

section Keeps

variable {R : Type} [AddCommMonoid R]

variable (M) in
def Prog.Keeps (I : S → R → Prop) (l : L) : Prog A α → R → (α → R → Prop) → Prop
  | .done r, d, Q => Q r d
  | .act a k, d, Q => ∀ e s r s' m, M.exec a l e s = some (r, s') → I s (d + m) →
      ∃ d', I s' (d' + m) ∧ (k r).Keeps I l d' Q

variable {I : S → R → Prop} {l : L}

theorem Prog.Keeps.imp {d : R} {Q Q' : α → R → Prop} (h : p.Keeps M I l d Q)
    (hQ : ∀ r d, Q r d → Q' r d) : p.Keeps M I l d Q' := by
  induction p generalizing d with
  | done r => exact hQ r d h
  | act a k ih =>
    intro e s r s' m hexec hI
    obtain ⟨d', hI', hk⟩ := h e s r s' m hexec hI
    exact ⟨d', hI', ih r hk⟩

theorem Prog.Keeps.bind {f : α → Prog A γ} {d : R} {Q : γ → R → Prop}
    (h : p.Keeps M I l d fun r d' => (f r).Keeps M I l d' Q) : (p >>= f).Keeps M I l d Q := by
  induction p generalizing d with
  | done r => exact h
  | act a k ih =>
    intro e s r s' m hexec hI
    obtain ⟨d', hI', hk⟩ := h e s r s' m hexec hI
    exact ⟨d', hI', ih r hk⟩

theorem Prog.keeps_interpret {B : Type → Type} {f : {β : Type} → B β → Prog A β} {D : R → Prop}
    (hf : ∀ {β : Type} (b : B β) d, D d → (f b).Keeps M I l d fun _ d' => D d') (p : Prog B α) {d : R} (hd : D d) :
    (p.interpret f).Keeps M I l d fun _ d' => D d' := by
  induction p generalizing d with
  | done r => exact hd
  | act b k ih => exact Keeps.bind ((hf b d hd).imp fun r _ hd' => ih r hd')

theorem forall₂_middle {X Y : Type*} {P : X → Y → Prop} {pre post : List X} {x : X} {ys : List Y}
    (h : List.Forall₂ P (pre ++ x :: post) ys) :
    ∃ ys₁ y ys₂, ys = ys₁ ++ y :: ys₂ ∧ List.Forall₂ P pre ys₁ ∧ P x y ∧ List.Forall₂ P post ys₂ := by
  induction pre generalizing ys with
  | nil =>
    cases h with
    | cons hx hpost => exact ⟨[], _, _, rfl, .nil, hx, hpost⟩
  | cons z pre ih =>
    cases h with
    | cons hz hrest =>
      obtain ⟨ys₁, y, ys₂, rfl, hpre, hx, hpost⟩ := ih hrest
      exact ⟨_ :: ys₁, y, ys₂, rfl, .cons hz hpre, hx, hpost⟩

/-- The threads own the resource between them. -/
def Owned (M : Machine A L E S) (I : S → R → Prop) (Q : α → R → Prop) (c : Config A L S α) (ds : List R) : Prop :=
  List.Forall₂ (fun t d => t.2.Keeps M I t.1 d Q) c.threads ds ∧ I c.shared ds.sum

variable {Q : α → R → Prop} {c c' : Config A L S α}

theorem Owned.step (hstart : ∀ s l p, starts s l p → p.Keeps M I l 0 Q) {ds : List R} (h : Owned M I Q c ds)
    (hstep : Step M starts c c') : ∃ ds', Owned M I Q c' ds' := by
  obtain ⟨hkeeps, hI⟩ := h
  cases hstep with
  | start hs =>
    refine ⟨ds ++ [0], rel_append hkeeps (.cons (hstart _ _ _ hs) .nil), ?_⟩
    rw [sum_append, sum_singleton, add_zero]
    exact hI
  | act pre post e hexec =>
    obtain ⟨ds₁, d, ds₂, rfl, hpre, hact, hpost⟩ := forall₂_middle hkeeps
    -- what the thread that acts does not own is the others' part
    have hsum : ∀ d, (ds₁ ++ d :: ds₂).sum = d + (ds₁.sum + ds₂.sum) := by
      intro d
      rw [sum_append, sum_cons, add_left_comm]
    rw [hsum] at hI
    obtain ⟨d', hI', hk⟩ := hact e _ _ _ _ hexec hI
    refine ⟨ds₁ ++ d' :: ds₂, rel_append hpre (.cons hk hpost), ?_⟩
    rw [hsum]
    exact hI'

/-- **Every run.** -/
theorem Owned.run (hstart : ∀ s l p, starts s l p → p.Keeps M I l 0 Q) {ds : List R} (h : Owned M I Q c ds)
    (hrun : Run M starts c c') : ∃ ds', Owned M I Q c' ds' := by
  induction hrun with
  | refl => exact ⟨ds, h⟩
  | tail _ hstep ih =>
    obtain ⟨ds', h'⟩ := ih
    exact h'.step hstart hstep

theorem Owned.finished {ds : List R} (h : Owned M I Q c ds) (hdone : ∀ t ∈ c.threads, ∃ r, t.2 = .done r)
    (hQ : ∀ r d, Q r d → d = 0) : I c.shared 0 := by
  obtain ⟨hkeeps, hI⟩ := h
  have hzero : ∀ d ∈ ds, d = 0 := by
    clear hI
    generalize c.threads = ts at hkeeps hdone
    induction hkeeps with
    | nil => exact nofun
    | @cons t d ts ds hk _ ih =>
      intro d' hd'
      rcases mem_cons.1 hd' with rfl | hd'
      · obtain ⟨r, hr⟩ := hdone t (mem_cons_self ..)
        rw [hr] at hk
        exact hQ r _ hk
      · exact ih (fun t ht => hdone t (mem_cons_of_mem _ ht)) d' hd'
  rw [sum_eq_zero hzero] at hI
  exact hI

end Keeps

end Step

/-! ## Properties of all actions -/

section All

variable {L E S : Type} {M : Machine A L E S} {starts : S → L → Prog A α → Prop}

def Prog.All (P : ∀ {β : Type}, A β → Prop) : Prog A α → Prop
  | .done _ => True
  | .act a k => P a ∧ ∀ r, (k r).All P

variable {P : ∀ {β : Type}, A β → Prop}

theorem Prog.All.imp {P' : ∀ {β : Type}, A β → Prop} (h : ∀ {β : Type} (a : A β), P a → P' a) {p : Prog A α}
    (hp : p.All P) : p.All P' := by
  induction p with
  | done r => trivial
  | act a k ih => exact ⟨h a hp.1, fun r => ih r (hp.2 r)⟩

theorem Prog.All.bind {f : α → Prog A γ} (h : p.All P) (hf : ∀ r, (f r).All P) : (p >>= f).All P := by
  induction p with
  | done r => exact hf r
  | act a k ih => exact ⟨h.1, fun r => ih r (h.2 r)⟩

theorem Prog.All.exec (I : S → Prop) {l : L} {p : Prog A α} {s s' : S} {r : α} (hp : p.All P)
    (hkeeps : ∀ {β : Type} (a : A β) e s r s', P a → M.exec a l e s = some (r, s') → I s → I s')
    (h : p.Exec M l s r s') (hI : I s) : I s' := by
  induction h with
  | done r s => exact hI
  | act e hexec _ ih => exact ih (hp.2 _) (hkeeps _ e _ _ _ hp.1 hexec hI)

theorem Prog.All.keeps {R : Type} [AddCommMonoid R] {I : S → R → Prop} {l : L} {p : Prog A α} (hp : p.All P)
    (hkeeps : ∀ {β : Type} (a : A β) e s r s' d, P a → M.exec a l e s = some (r, s') → I s d → I s' d) (d : R) :
    p.Keeps M I l d fun _ d' => d' = d := by
  induction p with
  | done r => rfl
  | act a k ih => exact fun e s r s' m hexec hI => ⟨d, hkeeps a e s r s' _ hp.1 hexec hI, ih r (hp.2 r)⟩

variable {c c' : Config A L S α}

theorem threads_step (Q : L → Prog A α → Prop) (hstart : ∀ s l p, starts s l p → Q l p)
    (hact : ∀ {β : Type} l (a : A β) k r, Q l (.act a k) → Q l (k r)) (hall : ∀ t ∈ c.threads, Q t.1 t.2)
    (hstep : Step M starts c c') : ∀ t ∈ c'.threads, Q t.1 t.2 := by
  intro t ht
  cases hstep with
  | start hs =>
    rcases mem_append.1 ht with ht | ht
    · exact hall t ht
    · rw [mem_singleton.1 ht]
      exact hstart _ _ _ hs
  | act pre post e hexec =>
    rcases mem_append.1 ht with ht | ht
    · exact hall t (mem_append_left _ ht)
    · rcases mem_cons.1 ht with rfl | ht
      · exact hact _ _ _ _ (hall _ (mem_append_right _ (mem_cons_self ..)))
      · exact hall t (mem_append_right _ (mem_cons_of_mem _ ht))

theorem threads_run (Q : L → Prog A α → Prop) (hstart : ∀ s l p, starts s l p → Q l p)
    (hact : ∀ {β : Type} l (a : A β) k r, Q l (.act a k) → Q l (k r)) (hall : ∀ t ∈ c.threads, Q t.1 t.2)
    (hrun : Run M starts c c') : ∀ t ∈ c'.threads, Q t.1 t.2 := by
  induction hrun with
  | refl => exact hall
  | tail _ hstep ih => exact threads_step Q hstart hact ih hstep

theorem shared_run (I : S → Prop)
    (hkeeps : ∀ {β : Type} (a : A β) l e s r s', M.exec a l e s = some (r, s') → I s → I s')
    (hI : I c.shared) (hrun : Run M starts c c') : I c'.shared := by
  induction hrun with
  | refl => exact hI
  | tail _ hstep ih =>
    cases hstep with
    | start _ => exact ih
    | act pre post e hexec => exact hkeeps _ _ e _ _ _ hexec ih

theorem all_run (I : S → Prop) (hstart : ∀ s l p, starts s l p → p.All P)
    (hkeeps : ∀ {β : Type} (a : A β) l e s r s', P a → M.exec a l e s = some (r, s') → I s → I s')
    (hall : ∀ t ∈ c.threads, t.2.All P) (hI : I c.shared) (hrun : Run M starts c c') : I c'.shared := by
  have hthreads : ∀ c', Run M starts c c' → ∀ t ∈ c'.threads, t.2.All P := fun c' hrun =>
    threads_run (fun _ p => p.All P) hstart (fun _ _ _ r h => h.2 r) hall hrun
  induction hrun with
  | refl => exact hI
  | tail hrun hstep ih =>
    cases hstep with
    | start _ => exact ih
    | act pre post e hexec =>
      exact hkeeps _ _ e _ _ _ (hthreads _ hrun _ (mem_append_right _ (mem_cons_self ..))).1 hexec ih

end All

end Threads
