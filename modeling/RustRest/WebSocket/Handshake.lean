import RustRest.WebSocket.Closing

/-!
# Runs of a driver

What holds in every run of a driver, in any order of its events, with any number of senders at work at the same time.

Main results: **`closes_once`**, **`written_before_close_iff`**.
-/

namespace RustRest

open Threads Threads.Prog List

/-! ## Runs -/

def DriverLog.new : DriverLog := (Link.new 0).log

theorem ready_new (now : ℕ) : DriverReady ⟨.new now, true, true, false, false⟩ .new :=
  .opened ⟨rfl, rfl, nofun, rfl, rfl, rfl, rfl, rfl, nofun⟩ ⟨rfl, rfl, nofun, nofun, nofun⟩

theorem drive_drives (config : DriverConfig) (fuel : ℕ) : Drives (drive config fuel) .new fun r log' =>
    ∀ outcome, r = some outcome → Reported outcome log' :=
  drives_now.same fun now => loop_drives fuel (ready_new now)

theorem tied_new (capacity : ℕ) : (Link.new capacity).Tied .new where
  log_eq := rfl
  wf := Nat.zero_le _
  messages := rfl
  application := nofun
  commands := nofun
  counted := nofun
  outboundClosed := nofun
  controlClosed := nofun
  outboundEnded := nofun
  controlEnded := nofun
  dropped := nofun
  handler := nofun
  noSender := nofun
  marks := nofun
  closeMarked := nofun
  completionMarked := nofun
  sound := ⟨fun pre _ _ heq => absurd heq.symm (append_ne_nil_of_right_ne_nil pre (cons_ne_nil _ _)),
    prefix_rfl, nofun, rfl⟩

def driverConfig (config : DriverConfig) (capacity fuel : ℕ) : Config LinkAction Unit Link (Option DriverOutcome) :=
  ⟨.new capacity, [((), drive config fuel)]⟩

def Outcome (r : Option DriverOutcome) (d : Multiset DriverLog × Multiset (ℕ × ℕ)) : Prop :=
  ∀ outcome, r = some outcome → ∃ log, d = ({log}, 0) ∧ Reported outcome log

variable {c : Config LinkAction Unit Link (Option DriverOutcome)} {config : DriverConfig} {shared : SocketShared}

theorem drive_run {capacity fuel : ℕ}
    (hrun : Run linkMachine (Environment shared) (driverConfig config capacity fuel) c) :
    ∃ ds, Owned linkMachine Link.Held Outcome c ds := by
  have hothers : ∀ s l p, Environment shared s l p → p.Keeps linkMachine Link.Held l 0 Outcome := fun s l p hp =>
    (environment_keeps hp).imp fun r d hnone outcome hsome => absurd (hnone.symm.trans hsome) nofun
  have hdriver : (drive config fuel).Keeps linkMachine Link.Held () ({.new}, 0) Outcome :=
    Keeps.imp (drive_drives config fuel) fun r d ⟨log, hd, hlog⟩ outcome hr => ⟨log, hd, hlog outcome hr⟩
  have hnew : Owned linkMachine Link.Held Outcome (driverConfig config capacity fuel) [({.new}, 0)] := by
    refine ⟨.cons hdriver .nil, ⟨.new, ?_, tied_new capacity⟩, ?_⟩
    · rfl
    · exact tracked_new
  exact hnew.run hothers hrun

theorem link_invariant {capacity fuel : ℕ}
    (hrun : Run linkMachine (Environment shared) (driverConfig config capacity fuel) c) : c.shared.Tied c.shared.log := by
  obtain ⟨ds, -, ⟨log, -, htied⟩, -⟩ := drive_run hrun
  exact htied.log_eq ▸ htied

theorem outcome_reported {capacity fuel : ℕ}
    (hrun : Run linkMachine (Environment shared) (driverConfig config capacity fuel) c) {l : Unit}
    {outcome : DriverOutcome} (hdone : (l, .done (some outcome)) ∈ c.threads) : Reported outcome c.shared.log := by
  obtain ⟨ds, hkeeps, ⟨log, hlog, htied⟩, -⟩ := drive_run hrun
  obtain ⟨pre, post, hthreads⟩ := append_of_mem hdone
  rw [hthreads] at hkeeps
  obtain ⟨ds₁, d, ds₂, rfl, -, hfinished, -⟩ := forall₂_middle hkeeps
  obtain ⟨log', rfl, hreported⟩ := hfinished outcome rfl
  -- there is one log only
  have hmem : log' ∈ ({log} : Multiset DriverLog) := by
    rw [← hlog, sum_append, sum_cons, add_left_comm]
    exact Multiset.mem_add.2 (Or.inl (Multiset.mem_singleton_self log'))
  rw [Multiset.mem_singleton.1 hmem] at hreported
  exact htied.log_eq ▸ hreported

/-- **The closing handshake.** In every run of a driver, in any order of events and with anyone else at work: it writes at
most one Close frame and nothing after it; and if it ends, then after an error of the transport with the outcome of that
error, and otherwise with the code, reason and initiator of the first cause (or of a peer that is gone, if there was
none), and clean exactly if a Close was sent and received. -/
theorem closes_once {config : DriverConfig} {capacity fuel : ℕ} {shared : SocketShared}
    {c : Config LinkAction Unit Link (Option DriverOutcome)}
    (hrun : Run linkMachine (Environment shared) (driverConfig config capacity fuel) c) :
    let log := c.shared.log
    (∀ pre frame post, log.written = pre ++ .close frame :: post → post = [] ∧ ∀ other, .close other ∉ pre) ∧
    ∀ l outcome, (l, .done (some outcome)) ∈ c.threads →
      (∀ error, log.failed = some error → outcome = protocolOutcome error) ∧
      (log.failed = none → outcome.closeInfo.code = log.firstInfo.code ∧
        outcome.closeInfo.reason = log.firstInfo.reason ∧ outcome.closeInfo.initiator = log.firstInfo.initiator ∧
        (outcome.closeInfo.clean = true ↔ log.CloseSent ∧ log.closeReceived = true)) := by
  intro log
  have hsound : log.Sound := (link_invariant hrun).sound
  refine ⟨fun pre frame post hwritten => ⟨hsound.once pre frame post hwritten, fun other hother => ?_⟩,
    fun l outcome hdone => ?_⟩
  · obtain ⟨pre₁, pre₂, rfl⟩ := append_of_mem hother
    rw [append_assoc, cons_append] at hwritten
    have hnil := hsound.once pre₁ other _ hwritten
    exact absurd hnil (append_ne_nil_of_right_ne_nil _ (cons_ne_nil _ _))
  · have hreported : Reported outcome log := outcome_reported hrun hdone
    unfold Reported at hreported
    constructor
    · intro error hfailed
      rw [hfailed] at hreported
      exact hreported
    · intro hnone
      rw [hnone] at hreported
      obtain ⟨⟨clean, hinfo⟩, hclean⟩ := hreported
      refine ⟨?_, ?_, ?_, hclean⟩
      · rw [hinfo]
      · rw [hinfo]
      · rw [hinfo]

/-! ### A run -/

def plainConfig : DriverConfig := ⟨10, 10, 10, none, none, none, none, 1000⟩

def plainShared : SocketShared := ⟨.wait, 10⟩

/-- The transport answers at once. -/
def choose (branch : Branch) : LinkInput := ⟨0, branch, .ok (), 0, false⟩

def messageAndClose : Config LinkAction Unit Link (Option DriverOutcome) :=
  ⟨.new 4, [((), drive plainConfig 3), ((), background (WebSocketSender.send plainShared (.text "hola"))),
    ((), background (WebSocketSender.send plainShared (.close (some ⟨1000, "fin"⟩))))]⟩

theorem messageAndClose_start :
    Run linkMachine (Environment plainShared) (driverConfig plainConfig 4 3) messageAndClose :=
  .head (.start (.send _)) (.single (.start (.send _)))

def handshakeSchedule : List (ℕ × LinkInput) :=
  List.replicate 2 (1, choose .control) ++ List.replicate 2 (2, choose .control) ++
    List.replicate 13 (0, choose .control) ++ List.replicate 6 (0, choose (.incoming (some (.ok (.close none)))))

def seen (c : Config LinkAction Unit Link (Option DriverOutcome)) :
    List WebSocketMessage × Option (Option DriverOutcome) :=
  (c.shared.log.written, c.threads.head?.bind fun t => t.2.result)

theorem closes_once_handshake : ∃ c outcome,
    Run linkMachine (Environment plainShared) (driverConfig plainConfig 4 3) c ∧
    c.shared.log.written = [.text "hola", .close (some ⟨1000, "fin"⟩)] ∧ ((), .done (some outcome)) ∈ c.threads ∧
    outcome.closeInfo.code = c.shared.log.firstInfo.code ∧ outcome.closeInfo.clean = true := by
  obtain ⟨c, hrun, hseen, hfailed⟩ := messageAndClose_start.exists_perform (P := fun c => seen c =
      ([.text "hola", .close (some ⟨1000, "fin"⟩)], some (some ⟨⟨1000, "fin", .ofLocal, true⟩, false⟩)) ∧
        c.shared.log.failed = none) handshakeSchedule (by decide +kernel)
  obtain ⟨hwritten, hresult⟩ := Prod.mk.inj hseen
  obtain ⟨⟨l, p⟩, hhead, hp⟩ := Option.bind_eq_some_iff.1 hresult
  have hmem : ((), .done (some ⟨⟨1000, "fin", .ofLocal, true⟩, false⟩)) ∈ c.threads := by
    rw [← eq_done_of_result hp]
    exact mem_of_mem_head? hhead
  have hclosed := (closes_once hrun).2 () _ hmem
  exact ⟨c, _, hrun, hwritten, hmem, (hclosed.2 hfailed).1, rfl⟩

/-! ## Messages before a Close -/

theorem take_prefix_take_iff {T : Type} {xs : List T} {k n : ℕ} (hk : k ≤ xs.length) :
    xs.take k <+: xs.take n ↔ k ≤ n := by
  constructor
  · intro h
    have hlength := h.length_le
    rw [length_take_of_le hk, length_take] at hlength
    exact hlength.trans (min_le_left _ _)
  · exact fun h => take_prefix_take_left h

/-- **Messages before a Close.** In every run of a driver and its senders: what is written of the messages is written once
and in the order in which they were enqueued, and before a Close the driver always listens to a queue that is not empty.
When a Close frame was written because of a Close of the application or because the handler has completed and no sender
is left, and the transport has not failed, the messages written are those enqueued until the driver counted them. So of
the messages enqueued before such a Close or such an end, all are written if and only if none of them was enqueued after
the count; and none was after the first such event. -/
theorem written_before_close_iff {config : DriverConfig} {capacity fuel : ℕ} {shared : SocketShared}
    {c : Config LinkAction Unit Link (Option DriverOutcome)}
    (hrun : Run linkMachine (Environment shared) (driverConfig config capacity fuel) c) :
    let s := c.shared
    s.log.application <+: s.outbound.sent ∧ s.log.deaf = false ∧
    ∀ frame cause rest, .close frame ∈ s.log.written → s.log.causes = cause :: rest → cause.drains = true →
      s.log.failed = none → ∃ counted, s.log.counted = some counted ∧
        s.log.application = s.outbound.sent.take counted ∧
        (∃ first, s.marks.head? = some first ∧ first ≤ counted) ∧
        ∀ k ∈ s.marks, (s.outbound.sent.take k <+: s.log.application ↔ k ≤ counted) := by
  intro s
  have htied : s.Tied s.log := link_invariant hrun
  have htaken : s.log.messages <+: s.outbound.sent := by
    rw [htied.messages]
    exact take_prefix _ _
  refine ⟨htied.sound.fifo.trans htaken, htied.sound.listens, ?_⟩
  intro frame cause rest hclose hcauses hdrains hfailed
  obtain ⟨hwritten, hcounted⟩ := htied.sound.emptied frame cause rest hclose hcauses hdrains hfailed
  have hsent : s.log.application = s.outbound.sent.take s.log.messages.length := by
    rw [hwritten]
    exact prefix_iff_eq_take.1 htaken
  refine ⟨s.log.messages.length, hcounted, hsent, (htied.counted _ hcounted).2, fun k hk => ?_⟩
  rw [hsent]
  exact take_prefix_take_iff (htied.marks k hk)

theorem written_before_close_handshake : ∃ c,
    Run linkMachine (Environment plainShared) (driverConfig plainConfig 4 3) c ∧ c.shared.marks = [1] ∧
    c.shared.outbound.sent.take 1 <+: c.shared.log.application := by
  obtain ⟨c, hrun, hmarks, hwritten, hcauses, hfailed, hcounted⟩ := messageAndClose_start.exists_perform
    (P := fun c => c.shared.marks = [1] ∧ c.shared.log.written = [.text "hola", .close (some ⟨1000, "fin"⟩)] ∧
      c.shared.log.causes = [.command (some ⟨1000, "fin"⟩), .peer none] ∧ c.shared.log.failed = none ∧
      c.shared.log.counted = some 1) handshakeSchedule (by decide +kernel)
  have hclose : .close (some ⟨1000, "fin"⟩) ∈ c.shared.log.written := by
    rw [hwritten]
    exact mem_cons_of_mem _ (mem_singleton_self _)
  obtain ⟨counted, hcounted', -, -, hiff⟩ := (written_before_close_iff hrun).2.2 _ _ _ hclose hcauses rfl hfailed
  have hone : 1 ≤ counted := (Option.some.inj (hcounted.symm.trans hcounted')).le
  exact ⟨c, hrun, hmarks, (hiff 1 (by rw [hmarks]; exact mem_singleton_self 1)).2 hone⟩

def closeAndLateMessage : Config LinkAction Unit Link (Option DriverOutcome) :=
  ⟨.new 4, [((), drive plainConfig 3), ((), background (WebSocketSender.send plainShared (.close none))),
    ((), background (WebSocketSender.send plainShared (.text "tarde"))),
    ((), background (WebSocketSender.drop.interpret fun a => perform (SenderAction.onLink a))),
    ((), background (perform (.resolve .completed)))]⟩

theorem closeAndLateMessage_start :
    Run linkMachine (Environment plainShared) (driverConfig plainConfig 4 3) closeAndLateMessage :=
  .head (.start (.send _)) (.head (.start (.send _)) (.head (.start .drop) (.single (.start (.resolve _)))))

def lateSchedule : List (ℕ × LinkInput) :=
  List.replicate 2 (1, choose .control) ++ [(2, choose .control)] ++ List.replicate 10 (0, choose .control) ++
    [(2, choose .control), (3, choose .control), (3, choose .control), (4, choose .control)]

/-- The message was enqueued before the handler had completed and the last sender was gone, and it is not written. -/
theorem accepted_message_lost : ∃ c,
    Run linkMachine (Environment plainShared) (driverConfig plainConfig 4 3) c ∧
    c.shared.log.written = [.close none] ∧ c.shared.log.causes = [.command none] ∧ c.shared.log.failed = none ∧
    c.shared.shutdown = false ∧ c.shared.outbound.sent = [.text "tarde"] ∧ c.shared.handler = some .completed ∧
    c.shared.senders.publicSenders = 0 ∧ c.shared.marks = [0, 1] ∧ c.shared.log.application = [] := by
  refine closeAndLateMessage_start.exists_perform lateSchedule ?_
  decide +kernel

end RustRest
