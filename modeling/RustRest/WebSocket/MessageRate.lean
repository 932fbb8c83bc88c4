import RustRest.Lib.FixedWindow
import RustRest.WebSocket.Link

/-!
# The rate of incoming messages

`message_rate_exceeded` counts the messages of a peer in windows of a fixed size, the first of which starts when the
connection opens. A message beyond the limit of its window is refused, and the connection is closed.

Main result: **`message_rate`**.
-/

namespace RustRest

open FixedWindow

def DriverState.messageWindow (state : DriverState) : Window := ⟨state.messageWindowStarted, state.messageCount⟩

def receiveMessage (config : DriverConfig) (run : DriverState × List Arrival) (now : ℕ) : DriverState × List Arrival :=
  let exceeded := run.1.messageRateExceeded config now
  (exceeded.2, run.2 ++ [⟨now, exceeded.2.messageWindowStarted, !exceeded.1⟩])

def receiveMessages (config : DriverConfig) (opened : ℕ) (arrivals : List ℕ) : DriverState × List Arrival :=
  arrivals.foldl (receiveMessage config) (DriverState.new opened, [])

section Windows

variable {config : DriverConfig} {limit : MessageRateLimit}

theorem messageRateExceeded_window (hlimit : config.messageRateLimit = some limit) (state : DriverState) (now : ℕ) :
    ((state.messageRateExceeded config now).1, (state.messageRateExceeded config now).2.messageWindow) =
      (!(offer limit.interval limit.maxMessages state.messageWindow now).1,
        (offer limit.interval limit.maxMessages state.messageWindow now).2) := by
  have hcurrent : current limit.interval state.messageWindow now =
      (if now - state.messageWindowStarted ≥ limit.interval then
        { state with messageWindowStarted := now, messageCount := 0 } else state).messageWindow := by
    unfold current
    split
    · next hended => rw [if_pos (show now - state.messageWindowStarted ≥ limit.interval from hended)]; rfl
    · next hended => rw [if_neg (show ¬ now - state.messageWindowStarted ≥ limit.interval from hended)]
  unfold DriverState.messageRateExceeded offer
  rw [hlimit, hcurrent]
  dsimp only
  generalize (if now - state.messageWindowStarted ≥ limit.interval then
    { state with messageWindowStarted := now, messageCount := 0 } else state) = counted
  by_cases hfull : counted.messageCount ≥ limit.maxMessages
  · rw [if_pos hfull, if_pos (show counted.messageWindow.count ≥ limit.maxMessages from hfull)]
    rfl
  · rw [if_neg hfull, if_neg (show ¬ counted.messageWindow.count ≥ limit.maxMessages from hfull)]
    rfl

/-- **The windows of a connection.** -/
theorem receiveMessages_window (hlimit : config.messageRateLimit = some limit) (opened : ℕ) (arrivals : List ℕ) :
    ((receiveMessages config opened arrivals).1.messageWindow, (receiveMessages config opened arrivals).2) =
      offers limit.interval limit.maxMessages opened arrivals := by
  induction arrivals using List.reverseRecOn with
  | nil => rfl
  | append_singleton arrivals now ih =>
    have hconcat : receiveMessages config opened (arrivals ++ [now]) =
        receiveMessage config (receiveMessages config opened arrivals) now := List.foldl_concat ..
    rw [offers_concat, ← ih, hconcat]
    generalize receiveMessages config opened arrivals = run
    obtain ⟨hrefused, hwindow⟩ := Prod.mk.inj (messageRateExceeded_window hlimit run.1 now)
    unfold receiveMessage record
    dsimp only
    rw [← hwindow, hrefused, Bool.not_not]
    rfl

end Windows

/-- **The rate of messages.** For arrivals in any order of time that does not go back, and windows that are not empty:
each window admits at most the limit, so that a span shorter than a window admits at most twice the limit; the counter
is within the limit; and a peer that sends no more than the limit in any such span is never refused. -/
theorem message_rate (config : DriverConfig) (limit : MessageRateLimit) (hlimit : config.messageRateLimit = some limit)
    (hinterval : 0 < limit.interval) (opened : ℕ) (arrivals : List ℕ) (hsorted : arrivals.Pairwise (· ≤ ·)) :
    let run := receiveMessages config opened arrivals
    run.2.map Arrival.instant = arrivals ∧
    (∀ message ∈ run.2, message.instant < message.start + limit.interval) ∧
    (∀ start, run.2.countP (fun message => message.accepted && message.start == start) ≤ limit.maxMessages) ∧
    (∀ a b, b < a + limit.interval →
      run.2.countP (fun message => message.accepted && (a ≤ message.instant && message.instant ≤ b)) ≤
        2 * limit.maxMessages) ∧
    run.1.messageCount ≤ limit.maxMessages ∧
    ((∀ now ∈ arrivals, opened ≤ now) →
      (∀ a b, b < a + limit.interval → arrivals.countP (fun now => a ≤ now && now ≤ b) ≤ limit.maxMessages) →
      ∀ message ∈ run.2, message.accepted = true) := by
  intro run
  have hrun : (run.1.messageWindow, run.2) = offers limit.interval limit.maxMessages opened arrivals :=
    receiveMessages_window hlimit opened arrivals
  have hkept : Kept limit.interval limit.maxMessages opened (run.1.messageWindow, run.2) :=
    hrun ▸ kept_offers hinterval limit.maxMessages opened hsorted
  have hinstants : run.2.map Arrival.instant = arrivals := by
    have hmap := map_instant_offers limit.interval limit.maxMessages opened arrivals
    rwa [← hrun] at hmap
  refine ⟨hinstants, hkept.inWindow, hkept.limited, fun a b hspan => hkept.countP_span_le hspan,
    hkept.count.trans_le (hkept.limited _), fun hopened hspans => ?_⟩
  refine hkept.accepted_of_spans hinterval (fun e he => ?_) fun a b hspan => ?_
  · have hmem : e.instant ∈ run.2.map Arrival.instant := List.mem_map_of_mem he
    rw [hinstants] at hmem
    exact hopened _ hmem
  · have hle := hspans a b hspan
    rw [← hinstants, List.countP_map] at hle
    exact hle

/-- At most two messages every ten. The peer sends two at once, and the third when the window has ended. -/
theorem message_rate_two :
    (receiveMessages ⟨10, 10, 10, none, none, none, some ⟨2, 10⟩, 1000⟩ 5 [9, 9, 20]).2.all Arrival.accepted = true := by
  refine List.all_eq_true.2 <| (message_rate ⟨10, 10, 10, none, none, none, some ⟨2, 10⟩, 1000⟩ ⟨2, 10⟩ rfl
    (by decide) 5 [9, 9, 20] (by decide)).2.2.2.2.2 (by decide) fun a b hspan => ?_
  -- a span with all three would be eleven long
  replace hspan : b < a + 10 := hspan
  simp only [List.countP_cons, List.countP_nil, Bool.and_eq_true, decide_eq_true_eq]
  split <;> split <;> omega

end RustRest
