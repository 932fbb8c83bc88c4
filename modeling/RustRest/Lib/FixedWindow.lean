import Mathlib

/-!
# Fixed windows

Arrivals, given by their instants, are counted in windows of a fixed size: a window starts with the first arrival after
the last one has ended.
-/

namespace FixedWindow

open List

/-- A window: its start, and the arrivals it has counted. -/
structure Window where
  start : ℕ
  count : ℕ
  deriving DecidableEq

variable {size : ℕ}

def Window.Ended (size now : ℕ) (w : Window) : Prop := size ≤ now - w.start

instance (size now : ℕ) (w : Window) : Decidable (w.Ended size now) := inferInstanceAs (Decidable (_ ≤ _))

/-- The window of an arrival, from the one before it. -/
def advance (size : ℕ) (w : Option Window) (now : ℕ) : Window :=
  match w with
  | none => ⟨now, 1⟩
  | some w => if w.Ended size now then ⟨now, 1⟩ else ⟨w.start, w.count + 1⟩

/-- The window that a list of arrivals leaves open. -/
def window (size : ℕ) (instants : List ℕ) : Option Window :=
  instants.foldl (fun w now => some (advance size w now)) none

theorem window_concat (instants : List ℕ) (now : ℕ) :
    window size (instants ++ [now]) = some (advance size (window size instants) now) := by
  rw [window, foldl_append]
  rfl

theorem Window.Ended.mono {w : Window} {now now' : ℕ} (h : w.Ended size now) (hle : now ≤ now') : w.Ended size now' :=
  Nat.le_trans h (Nat.sub_le_sub_right hle _)

/-- A window that has ended is as good as none. -/
theorem advance_of_ended {w : Option Window} {now : ℕ} (h : ∀ x, w = some x → x.Ended size now) :
    advance size w now = ⟨now, 1⟩ := by
  cases w with
  | none => rfl
  | some w => exact if_pos (h w rfl)

theorem advance_of_not_ended {w : Window} {now : ℕ} (h : ¬ w.Ended size now) :
    advance size (some w) now = ⟨w.start, w.count + 1⟩ := if_neg h

/-- Only an arrival in a window that has not ended is not the first of its window. -/
theorem start_advance {w : Window} {now : ℕ} (h : 1 < (advance size (some w) now).count) :
    (advance size (some w) now).start = w.start := by
  by_cases hended : w.Ended size now
  · have hfirst : advance size (some w) now = ⟨now, 1⟩ := if_pos hended
    rw [hfirst] at h
    exact absurd h (Nat.lt_irrefl 1)
  · rw [advance_of_not_ended hended]

/-- A window starts with an arrival. -/
theorem start_mem {instants : List ℕ} {w : Window} (h : window size instants = some w) : w.start ∈ instants := by
  induction instants using List.reverseRecOn generalizing w with
  | nil => cases h
  | append_singleton instants now ih =>
    rw [window_concat] at h
    obtain rfl := Option.some.inj h
    cases hwindow : window size instants with
    | none => exact mem_append_right _ (mem_singleton.2 rfl)
    | some w =>
      unfold advance
      dsimp only
      split
      · exact mem_append_right _ (mem_singleton.2 rfl)
      · have hmem := ih hwindow
        exact mem_append_left _ hmem

/-- The window of an arrival has started and not ended. -/
theorem window_current (hsize : 0 < size) {instants : List ℕ} {now : ℕ} (hlast : ∀ t ∈ instants, t ≤ now) :
    (advance size (window size instants) now).start ≤ now ∧
      now - (advance size (window size instants) now).start < size := by
  cases hwindow : window size instants with
  | none => exact ⟨Nat.le_refl now, by rw [advance, Nat.sub_self]; exact hsize⟩
  | some w =>
    unfold advance
    dsimp only
    split
    · exact ⟨Nat.le_refl now, by rw [Nat.sub_self]; exact hsize⟩
    · next hended =>
      have hmem := start_mem hwindow
      exact ⟨hlast _ hmem, Nat.lt_of_not_le hended⟩

/-- A window counts arrivals since its start. -/
theorem count_le {instants : List ℕ} (hsorted : instants.Pairwise (· ≤ ·)) {w : Window}
    (h : window size instants = some w) : w.count ≤ instants.countP fun t => w.start ≤ t := by
  induction instants using List.reverseRecOn generalizing w with
  | nil => cases h
  | append_singleton instants now ih =>
    obtain ⟨hinstants, -, hlast⟩ := pairwise_append.1 hsorted
    rw [window_concat] at h
    obtain rfl := Option.some.inj h
    have hfirst : (⟨now, 1⟩ : Window).count ≤ (instants ++ [now]).countP fun t => now ≤ t := by
      rw [countP_append, countP_singleton, if_pos (by simp)]
      exact Nat.le_add_left _ _
    cases hwindow : window size instants with
    | none => exact hfirst
    | some w =>
      unfold advance
      dsimp only
      split
      · exact hfirst
      · have hstart : w.start ≤ now := hlast _ (start_mem hwindow) _ (mem_singleton.2 rfl)
        rw [countP_append, countP_singleton, if_pos (by simpa using hstart)]
        exact Nat.add_le_add_right (ih hinstants hwindow) 1

/-! ## Windows that refuse -/

/-- An arrival: its instant, the start of its window, and whether it was accepted. -/
structure Arrival where
  instant : ℕ
  start : ℕ
  accepted : Bool
  deriving DecidableEq

/-- An arrival was accepted in the window with this start. -/
def Arrival.acceptedIn (start : ℕ) (e : Arrival) : Bool := e.accepted && e.start == start

def Arrival.within (a b : ℕ) (e : Arrival) : Bool := a ≤ e.instant && e.instant ≤ b

/-- The window that an arrival falls into. -/
def current (size : ℕ) (w : Window) (now : ℕ) : Window := if w.Ended size now then ⟨now, 0⟩ else w

/-- An arrival is accepted when its window has accepted fewer than `limit`. -/
def offer (size limit : ℕ) (w : Window) (now : ℕ) : Bool × Window :=
  if (current size w now).count ≥ limit then (false, current size w now)
  else (true, ⟨(current size w now).start, (current size w now).count + 1⟩)

def record (size limit : ℕ) (s : Window × List Arrival) (now : ℕ) : Window × List Arrival :=
  ((offer size limit s.1 now).2, s.2 ++ [⟨now, (offer size limit s.1 now).2.start, (offer size limit s.1 now).1⟩])

/-- Arrivals one after the other, from a window that starts at an instant. -/
def offers (size limit opened : ℕ) (instants : List ℕ) : Window × List Arrival :=
  instants.foldl (record size limit) (⟨opened, 0⟩, [])

theorem offers_concat (size limit opened : ℕ) (instants : List ℕ) (now : ℕ) :
    offers size limit opened (instants ++ [now]) = record size limit (offers size limit opened instants) now :=
  foldl_concat ..

/-- An arrival is in the window of an earlier one, or in a window that has started after both. -/
def Arrival.Follows (size : ℕ) (e e' : Arrival) : Prop :=
  e'.start = e.start ∨ e.instant < e'.start ∧ e.start + size ≤ e'.start ∧ e'.start ≤ e'.instant

/-- What holds of the window and of the arrivals so far. -/
structure Kept (size limit opened : ℕ) (s : Window × List Arrival) : Prop where
  count : s.1.count = s.2.countP (Arrival.acceptedIn s.1.start)
  limited : ∀ start, s.2.countP (Arrival.acceptedIn start) ≤ limit
  refused : ∀ e ∈ s.2, e.accepted = false → limit < s.2.countP fun e' => e'.start == e.start
  follows : s.2.Pairwise (Arrival.Follows size)
  inWindow : ∀ e ∈ s.2, e.instant < e.start + size
  since : ∀ e ∈ s.2, e.start = opened ∨ e.start ≤ e.instant
  before : ∀ e ∈ s.2, e.start = s.1.start ∨
    e.instant < s.1.start ∧ e.start + size ≤ s.1.start ∧ ∃ e' ∈ s.2, s.1.start ≤ e'.instant
  started : s.1.start = opened ∨ ∃ e ∈ s.2, s.1.start ≤ e.instant

section Step

variable {limit opened now : ℕ} {s : Window × List Arrival}

/-- The window that one arrival more falls into. -/
theorem Kept.current (hsize : 0 < size) (h : Kept size limit opened s) (hlast : ∀ e ∈ s.2, e.instant ≤ now) :
    let w := current size s.1 now
    w.count = s.2.countP (Arrival.acceptedIn w.start) ∧ now < w.start + size ∧ (w.start = opened ∨ w.start ≤ now) ∧
      ∀ e ∈ s.2, ∀ accepted, Arrival.Follows size e ⟨now, w.start, accepted⟩ := by
  intro w
  by_cases hended : s.1.Ended size now
  · obtain hw : w = ⟨now, 0⟩ := if_pos hended
    have hlate : size ≤ now - s.1.start := hended
    have hbefore : ∀ e ∈ s.2, e.instant < now ∧ e.start + size ≤ now := by
      intro e he
      have hin := h.inWindow e he
      rcases h.before e he with heq | ⟨hlt, hle, -⟩ <;> omega
    rw [hw]
    refine ⟨?_, Nat.lt_add_of_pos_right hsize, .inr le_rfl, fun e he _ => ?_⟩
    · -- no arrival so far is in the new window
      refine (countP_eq_zero.2 fun e he hin => ?_).symm
      have hstart : e.start = now := by simpa using (Bool.and_eq_true_iff.1 hin).2
      have hle := (hbefore e he).2
      omega
    · exact .inr ⟨(hbefore e he).1, (hbefore e he).2, le_rfl⟩
  · obtain hw : w = s.1 := if_neg hended
    have hearly : ¬ size ≤ now - s.1.start := hended
    rw [hw]
    refine ⟨h.count, by omega, ?_, fun e he _ => ?_⟩
    · rcases h.started with heq | ⟨e, he, hle⟩
      · exact .inl heq
      · exact .inr (hle.trans (hlast e he))
    · rcases h.before e he with heq | ⟨hlt, hle, e', he', hstart⟩
      · exact .inl heq.symm
      · exact .inr ⟨hlt, hle, hstart.trans (hlast e' he')⟩

theorem countP_accepted_le (es : List Arrival) (start : ℕ) :
    es.countP (Arrival.acceptedIn start) ≤ es.countP fun e => e.start == start :=
  countP_mono_left fun _ _ hin => (Bool.and_eq_true_iff.1 hin).2

/-- What one arrival more keeps, whether it is accepted or not. -/
theorem Kept.concat (h : Kept size limit opened s) {w : Window} {new : Arrival} (hstart : new.start = w.start)
    (hcount : w.count = (s.2 ++ [new]).countP (Arrival.acceptedIn w.start)) (hlimit : w.count ≤ limit)
    (hrefused : new.accepted = false → limit ≤ s.2.countP (Arrival.acceptedIn w.start))
    (hin : new.instant < w.start + size) (hopened : w.start = opened ∨ w.start ≤ new.instant)
    (hfollows : ∀ e ∈ s.2, Arrival.Follows size e new) : Kept size limit opened (w, s.2 ++ [new]) := by
  have hnew : new ∈ s.2 ++ [new] := mem_concat_self
  have hsplit : ∀ e ∈ s.2 ++ [new], e ∈ s.2 ∨ e = new :=
    fun e he => (mem_append.1 he).imp_right mem_singleton.1
  constructor
  case count => exact hcount
  case limited =>
    intro start
    by_cases heq : start = w.start
    · rw [heq]
      exact hcount ▸ hlimit
    · rw [countP_append, countP_singleton, if_neg, Nat.add_zero]
      · exact h.limited start
      · exact fun hacc => heq ((beq_iff_eq.1 (Bool.and_eq_true_iff.1 hacc).2).symm.trans hstart)
  case refused =>
    intro e he hacc
    rw [countP_append]
    rcases hsplit e he with he | rfl
    · exact Nat.lt_add_right _ (h.refused e he hacc)
    · rw [countP_singleton, if_pos (beq_self_eq_true _), hstart]
      exact Nat.lt_succ_of_le ((hrefused hacc).trans (countP_accepted_le s.2 w.start))
  case follows =>
    refine pairwise_append.2 ⟨h.follows, pairwise_singleton _ _, fun e he e' he' => ?_⟩
    rw [mem_singleton.1 he']
    exact hfollows e he
  case inWindow =>
    intro e he
    rcases hsplit e he with he | rfl
    · exact h.inWindow e he
    · exact hstart ▸ hin
  case since =>
    intro e he
    rcases hsplit e he with he | rfl
    · exact h.since e he
    · exact hstart ▸ hopened
  case before =>
    intro e he
    rcases hsplit e he with he | rfl
    · rcases hfollows e he with heq | ⟨hlt, hle, hstarted⟩
      · exact .inl (heq.symm.trans hstart)
      · exact .inr ⟨hstart ▸ hlt, hstart ▸ hle, new, hnew, hstart ▸ hstarted⟩
    · exact .inl hstart
  case started => exact hopened.imp_right fun hle => ⟨new, hnew, hle⟩

/-- **One arrival more.** -/
theorem Kept.record (hsize : 0 < size) (h : Kept size limit opened s) (hlast : ∀ e ∈ s.2, e.instant ≤ now) :
    Kept size limit opened (record size limit s now) := by
  obtain ⟨hcount, hin, hopened, hfollows⟩ := h.current hsize hlast
  unfold FixedWindow.record offer
  split
  · next hfull =>
    refine h.concat rfl ?_ (hcount ▸ h.limited _) (fun _ => hcount ▸ hfull) hin hopened fun e he => hfollows e he false
    rw [countP_append, countP_singleton, if_neg (by simp [Arrival.acceptedIn])]
    exact hcount
  · next hfree =>
    refine h.concat rfl ?_ (Nat.lt_of_not_ge hfree) nofun hin hopened fun e he => hfollows e he true
    rw [countP_append, countP_singleton, if_pos (by simp [Arrival.acceptedIn])]
    exact congrArg (· + 1) hcount

end Step

section Run

variable {limit opened : ℕ} {instants : List ℕ}

theorem map_instant_offers (size limit opened : ℕ) (instants : List ℕ) :
    (offers size limit opened instants).2.map Arrival.instant = instants := by
  induction instants using List.reverseRecOn with
  | nil => rfl
  | append_singleton instants now ih =>
    rw [offers_concat, record, map_append, ih]
    rfl

/-- **All arrivals.** -/
theorem kept_offers (hsize : 0 < size) (limit opened : ℕ) (hsorted : instants.Pairwise (· ≤ ·)) :
    Kept size limit opened (offers size limit opened instants) := by
  induction instants using List.reverseRecOn with
  | nil =>
    exact ⟨rfl, fun _ => Nat.zero_le _, nofun, List.Pairwise.nil, nofun, nofun, nofun, .inl rfl⟩
  | append_singleton instants now ih =>
    obtain ⟨hinstants, -, hlast⟩ := pairwise_append.1 hsorted
    rw [offers_concat]
    refine (ih hinstants).record hsize fun e he => hlast _ ?_ now (mem_singleton.2 rfl)
    have hmem : e.instant ∈ (offers size limit opened instants).2.map Arrival.instant := mem_map_of_mem he
    rwa [map_instant_offers] at hmem

/-- Arrivals within a span shorter than a window are in at most two windows. -/
theorem two_windows {es : List Arrival} {a b : ℕ} (hfollows : es.Pairwise (Arrival.Follows size))
    (hwithin : ∀ e ∈ es, e.within a b = true) (hspan : b < a + size) :
    ∃ x y, ∀ e ∈ es, e.start = x ∨ e.start = y := by
  cases es with
  | nil => exact ⟨0, 0, nofun⟩
  | cons first es =>
    obtain ⟨hfirst, hes⟩ := pairwise_cons.1 hfollows
    cases hothers : es.filter fun e => e.start != first.start with
    | nil =>
      refine ⟨first.start, first.start, fun e he => .inl ?_⟩
      rcases mem_cons.1 he with rfl | he
      · rfl
      · simpa using filter_eq_nil_iff.1 hothers e he
    | cons second others =>
      have hmem : ∀ e, e ∈ second :: others ↔ e ∈ es ∧ e.start ≠ first.start := fun e => by
        rw [← hothers, mem_filter, bne_iff_ne]
      refine ⟨first.start, second.start, fun e he => ?_⟩
      by_cases heq : e.start = first.start
      · exact .inl heq
      refine .inr ?_
      rcases mem_cons.1 he with rfl | he
      · exact absurd rfl heq
      rcases mem_cons.1 ((hmem e).2 ⟨he, heq⟩) with rfl | hother
      · rfl
      -- a third window would start after the span
      have hsorted : (second :: others).Pairwise (Arrival.Follows size) := hothers ▸ hes.filter _
      rcases (pairwise_cons.1 hsorted).1 e hother with hsame | ⟨-, hthird, hthirdStarted⟩
      · exact hsame
      · obtain ⟨hsecond, hne⟩ := (hmem second).1 mem_cons_self
        rcases hfirst second hsecond with hsame | ⟨hlater, -, -⟩
        · exact absurd hsame hne
        · have ha := hwithin first mem_cons_self
          have hb := hwithin e (mem_cons_of_mem _ he)
          simp only [Arrival.within, Bool.and_eq_true, decide_eq_true_eq] at ha hb
          omega

theorem countP_le_add {α : Type} {p q r : α → Bool} {l : List α} (h : ∀ x ∈ l, p x = true → q x = true ∨ r x = true) :
    l.countP p ≤ l.countP q + l.countP r := by
  induction l with
  | nil => exact Nat.zero_le _
  | cons x l ih =>
    have hl := ih fun y hy => h y (mem_cons_of_mem _ hy)
    have hx := h x mem_cons_self
    simp only [countP_cons]
    cases hp : p x <;> cases hq : q x <;> cases hr : r x <;> simp_all <;> omega

/-- **Spans.** In a span shorter than a window no more are accepted than twice the limit. -/
theorem Kept.countP_span_le {s : Window × List Arrival} (h : Kept size limit opened s) {a b : ℕ} (hspan : b < a + size) :
    s.2.countP (fun e => e.accepted && e.within a b) ≤ 2 * limit := by
  obtain ⟨x, y, hxy⟩ := two_windows (h.follows.filter (Arrival.within a b)) (fun e he => (mem_filter.1 he).2) hspan
  have hle : s.2.countP (fun e => e.accepted && e.within a b) ≤
      s.2.countP (Arrival.acceptedIn x) + s.2.countP (Arrival.acceptedIn y) := by
    refine countP_le_add fun e he hin => ?_
    obtain ⟨hacc, hwithin⟩ := Bool.and_eq_true_iff.1 hin
    refine (hxy e (mem_filter.2 ⟨he, hwithin⟩)).imp (fun heq => ?_) fun heq => ?_
    · exact Bool.and_eq_true_iff.2 ⟨hacc, beq_iff_eq.2 heq⟩
    · exact Bool.and_eq_true_iff.2 ⟨hacc, beq_iff_eq.2 heq⟩
  have hx := h.limited x
  have hy := h.limited y
  omega

/-- **Who keeps the limit.** When no span shorter than a window has more arrivals than the limit, all are accepted: those
of the window of a refused one would be too many. -/
theorem Kept.accepted_of_spans (hsize : 0 < size) {s : Window × List Arrival} (h : Kept size limit opened s)
    (hopened : ∀ e ∈ s.2, opened ≤ e.instant)
    (hspans : ∀ a b, b < a + size → s.2.countP (Arrival.within a b) ≤ limit) : ∀ e ∈ s.2, e.accepted = true := by
  intro e he
  by_contra hacc
  have hmany := h.refused e he (Bool.eq_false_iff.2 hacc)
  have hfew := hspans e.start (e.start + size - 1) (by omega)
  have hle : s.2.countP (fun e' => e'.start == e.start) ≤ s.2.countP (Arrival.within e.start (e.start + size - 1)) := by
    refine countP_mono_left fun e' he' hstart => ?_
    have heq := beq_iff_eq.1 hstart
    have hin := h.inWindow e' he'
    have hsince : e'.start ≤ e'.instant := (h.since e' he').elim (fun heq => heq ▸ hopened e' he') id
    simp only [Arrival.within, Bool.and_eq_true, decide_eq_true_eq]
    omega
  omega

end Run

end FixedWindow
