import Mathlib

/-!
# Waiting for a condition

A state changes by calls, each of which is one step. After its step a call notifies whoever waits on certain channels, one
channel after the other and not at once. A loop waits for a condition: it takes the number of notifications of its
channel, tests the condition, and if that does not hold, parks until the number is another one.

Main result: **`loop_returns`**.
-/

namespace Notify

structure System (S Call Condition Channel : Type) where
  effect : Call → S → S × List Channel
  holds : Condition → S → Bool
  channel : Condition → Channel

/-- Where a thread is: in a loop, or behind the step of a call. -/
inductive Point (Condition Channel : Type) where
  | turn (condition : Condition)
  | took (condition : Condition) (seen : ℕ)
  | parked (condition : Condition) (seen : ℕ)
  | returned (condition : Condition)
  | notifying (channels : List Channel)

structure State (S Condition Channel : Type) where
  shared : S
  notified : Channel → ℕ
  threads : Multiset (Point Condition Channel)

variable {S Call Condition Channel : Type} (sys : System S Call Condition Channel)

/-- A call that makes a condition true notifies those who wait for it. -/
def System.Announced : Prop :=
  ∀ call s k, sys.holds k (sys.effect call s).1 = true →
    sys.holds k s = true ∨ sys.channel k ∈ (sys.effect call s).2

inductive Step [DecidableEq Channel] : State S Condition Channel → State S Condition Channel → Prop where
  | call {s n ts} (c : Call) : Step ⟨s, n, ts⟩ ⟨(sys.effect c s).1, n, .notifying (sys.effect c s).2 ::ₘ ts⟩
  | wait {s n ts} (k : Condition) : Step ⟨s, n, ts⟩ ⟨s, n, .turn k ::ₘ ts⟩
  | take {s n k ts} : Step ⟨s, n, .turn k ::ₘ ts⟩ ⟨s, n, .took k (n (sys.channel k)) ::ₘ ts⟩
  | finish {s n k seen ts} : sys.holds k s = true → Step ⟨s, n, .took k seen ::ₘ ts⟩ ⟨s, n, .returned k ::ₘ ts⟩
  | park {s n k seen ts} : sys.holds k s = false → Step ⟨s, n, .took k seen ::ₘ ts⟩ ⟨s, n, .parked k seen ::ₘ ts⟩
  | wake {s n k seen ts} : seen ≠ n (sys.channel k) → Step ⟨s, n, .parked k seen ::ₘ ts⟩ ⟨s, n, .turn k ::ₘ ts⟩
  | notify {s n ch chs ts} : Step ⟨s, n, .notifying (ch :: chs) ::ₘ ts⟩
      ⟨s, Function.update n ch (n ch + 1), .notifying chs ::ₘ ts⟩

/-- A notification of the channel is still to come. -/
def State.Owes (st : State S Condition Channel) (ch : Channel) : Prop := ∃ chs, .notifying chs ∈ st.threads ∧ ch ∈ chs

/-- There is nothing to return for, or a notification will come. -/
def State.Waits (st : State S Condition Channel) (k : Condition) : Prop :=
  sys.holds k st.shared = false ∨ st.Owes (sys.channel k)

def State.Tracks (st : State S Condition Channel) : Point Condition Channel → Prop
  | .took k seen => seen ≤ st.notified (sys.channel k)
  | .parked k seen => seen ≤ st.notified (sys.channel k) ∧ (seen = st.notified (sys.channel k) → st.Waits sys k)
  | _ => True

def State.Inv (st : State S Condition Channel) : Prop := ∀ p ∈ st.threads, st.Tracks sys p

variable {sys} {st st' : State S Condition Channel} {p : Point Condition Channel} {ts : Multiset (Point Condition Channel)}

/-- A thread went on to `p`, the others are `ts`: what waits stays so, but where a notification came. -/
theorem State.Inv.move (h : st.Inv sys) (hts : ts ⊆ st.threads) (hnew : st'.threads = p ::ₘ ts)
    (hle : ∀ ch, st.notified ch ≤ st'.notified ch) (hp : st'.Tracks sys p)
    (hwaits : ∀ k, st'.notified (sys.channel k) = st.notified (sys.channel k) → st.Waits sys k → st'.Waits sys k) :
    st'.Inv sys := by
  intro q hq
  rw [hnew, Multiset.mem_cons] at hq
  rcases hq with rfl | hq
  · exact hp
  · have hold := h q (hts hq)
    cases q with
    | turn | returned | notifying => trivial
    | took k seen => exact le_trans hold (hle _)
    | parked k seen =>
      refine ⟨hold.1.trans (hle _), fun hseen => ?_⟩
      have hsame : st'.notified (sys.channel k) = st.notified (sys.channel k) := le_antisymm (hseen ▸ hold.1) (hle _)
      exact hwaits k hsame (hold.2 (hseen.trans hsame))

theorem State.Inv.step [DecidableEq Channel] (hsys : sys.Announced) (h : st.Inv sys) (hstep : Step sys st st') :
    st'.Inv sys := by
  cases hstep with
  | @call s n ts c =>
    refine h.move (Multiset.Subset.refl _) rfl (fun _ => le_rfl) trivial fun k _ hk => ?_
    cases hnow : sys.holds k (sys.effect c s).1 with
    | false => exact .inl hnow
    | true =>
      refine .inr ?_
      rcases hk with hk | ⟨chs, hmem, hch⟩
      · exact ⟨_, Multiset.mem_cons_self .., (hsys c s k hnow).resolve_left (hk ▸ Bool.false_ne_true)⟩
      · exact ⟨chs, Multiset.mem_cons_of_mem hmem, hch⟩
  | wait k =>
    refine h.move (Multiset.Subset.refl _) rfl (fun _ => le_rfl) trivial fun k _ => Or.imp_right ?_
    exact fun ⟨chs, hmem, hch⟩ => ⟨chs, Multiset.mem_cons_of_mem hmem, hch⟩
  | take | finish | park | wake =>
    refine h.move (Multiset.subset_cons _ _) rfl (fun _ => le_rfl) ?_ fun k _ => Or.imp_right ?_
    · first
        | trivial
        | exact le_rfl
        | exact ⟨h _ (Multiset.mem_cons_self ..), fun _ => .inl ‹_›⟩
    · rintro ⟨chs, hmem, hch⟩
      exact ⟨chs, Multiset.mem_cons_of_mem ((Multiset.mem_cons.1 hmem).resolve_left nofun), hch⟩
  | @notify s n ch chs ts =>
    refine h.move (Multiset.subset_cons _ _) rfl (fun ch' => ?_) trivial fun k hsame => Or.imp_right ?_
    · dsimp only
      rw [Function.update_apply]
      split <;> simp [*]
    · rintro ⟨chs', hmem, hch⟩
      rcases Multiset.mem_cons.1 hmem with heq | hmem
      · cases heq
        refine ⟨chs, Multiset.mem_cons_self .., (List.mem_cons.1 hch).resolve_left fun heq => ?_⟩
        rw [heq] at hsame
        simp at hsame
      · exact ⟨chs', Multiset.mem_cons_of_mem hmem, hch⟩

variable [DecidableEq Channel] {st₀ : State S Condition Channel} {k : Condition}

/-- A parked loop that was not notified has nothing to return for, or the notification is still to come. -/
theorem no_lost_wakeup (hsys : sys.Announced) (h₀ : st₀.threads = 0) (hrun : Relation.ReflTransGen (Step sys) st₀ st)
    (hparked : .parked k (st.notified (sys.channel k)) ∈ st.threads) : st.Waits sys k := by
  have hinv : st.Inv sys := by
    clear hparked
    induction hrun with
    | refl => exact fun p hp => absurd (h₀ ▸ hp) (Multiset.notMem_zero p)
    | tail _ hstep ih => exact ih.step hsys hstep
  exact (hinv _ hparked).2 rfl

def Point.InLoop (k : Condition) (p : Point Condition Channel) : Prop :=
  p = .turn k ∨ ∃ seen, p = .took k seen ∨ p = .parked k seen

theorem loop_returns (hsys : sys.Announced) (h₀ : st₀.threads = 0) (hrun : Relation.ReflTransGen (Step sys) st₀ st)
    (hready : ¬ st.Waits sys k) (hp : p.InLoop k) (hthreads : st.threads = p ::ₘ ts) :
    Relation.ReflTransGen (Step sys) st { st with threads := .returned k ::ₘ ts } := by
  have hparked := no_lost_wakeup hsys h₀ hrun (k := k)
  obtain ⟨s, n, ts'⟩ := st
  dsimp only at hthreads
  subst hthreads
  have htook : ∀ seen, Relation.ReflTransGen (Step sys) ⟨s, n, .took k seen ::ₘ ts⟩ ⟨s, n, .returned k ::ₘ ts⟩ :=
    fun seen => .single (.finish (Bool.eq_true_of_not_eq_false fun hfalse => hready (.inl hfalse)))
  rcases hp with rfl | ⟨seen, rfl | rfl⟩
  · exact .head .take (htook _)
  · exact htook seen
  · -- a loop that stays parked would have missed a notification
    refine .head (.wake fun hseen => hready (hparked ?_)) (.head .take (htook _))
    rw [hseen]
    exact Multiset.mem_cons_self ..

end Notify
