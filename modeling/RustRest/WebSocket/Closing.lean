import RustRest.WebSocket.Shared

/-!
# The parts of the closing handshake

What each part of the driver makes of its log, from the single branches to the loop, whatever others do at the same time.
-/

namespace RustRest

open Threads Threads.Prog List

/-! ## Before and after a Close -/

def DriverLog.CloseSent (log : DriverLog) : Prop := (∃ frame, .close frame ∈ log.written) ∨ log.closeReplied = true

def DriverLog.firstInfo (log : DriverLog) : WebSocketCloseInfo :=
  (log.causes.head?.map fun cause => closeInfo cause.frame cause.initiator false).getD peerDisconnectInfo

/-- No Close was sent or received so far. -/
structure Unclosed (d : Driver) (log : DriverLog) : Prop where
  failed : log.failed = none
  written : log.application = log.messages
  noClose : log.NoClose
  received : log.closeReceived = false
  replied : log.closeReplied = false
  stateSent : d.state.closeSent = false
  stateReceived : d.state.closeReceived = false
  stateInfo : d.state.closeInfo = none
  tracking : d.senderTrackingClosed = true → log.noSender = true

structure Listening (d : Driver) (log : DriverLog) : Prop where
  causes : log.causes = []
  notClosed : log.closed = false
  control : d.controlOpen = false → log.controlEnded = true
  outbound : d.outboundOpen = false → log.outboundEnded = true
  handler : d.handlerCompleted = true → log.handlerResult = some .completed

structure Closed (d : Driver) (log : DriverLog) : Prop where
  failed : log.failed = none
  written : log.application = log.messages
  received : log.closeReceived = false
  stateSent : d.state.closeSent = true
  stateReceived : d.state.closeReceived = false
  sent : log.CloseSent
  causes : log.causes ≠ []
  info : ∃ clean, d.state.closeInfo = some { log.firstInfo with clean := clean }

/-- The driver between two turns. -/
inductive DriverReady (d : Driver) (log : DriverLog) : Prop where
  | opened (hunclosed : Unclosed d log) (hlistening : Listening d log)
  | closed (hclosed : Closed d log)

def Reported (outcome : DriverOutcome) (log : DriverLog) : Prop :=
  match log.failed with
  | some error => outcome = protocolOutcome error
  | none => (∃ clean, outcome.closeInfo = { log.firstInfo with clean := clean }) ∧
    (outcome.closeInfo.clean = true ↔ log.CloseSent ∧ log.closeReceived = true)

theorem reported_outcome {d : Driver} {log : DriverLog} (hfailed : log.failed = none)
    (hinfo : ∃ clean, d.state.closeInfo.getD peerDisconnectInfo = { log.firstInfo with clean := clean })
    (hclean : d.state.closeSent = true ∧ d.state.closeReceived = true ↔ log.CloseSent ∧ log.closeReceived = true) :
    Reported d.outcome log := by
  unfold Reported
  rw [hfailed]
  obtain ⟨clean, hinfo⟩ := hinfo
  refine ⟨⟨d.state.closeSent && d.state.closeReceived, ?_⟩, ?_⟩
  · show ({ d.state.closeInfo.getD peerDisconnectInfo with clean := _ } : WebSocketCloseInfo) = _
    rw [hinfo]
  · rw [← hclean]
    exact Bool.and_eq_true_iff

theorem DriverReady.reported {d : Driver} {log : DriverLog} (h : DriverReady d log) : Reported d.outcome log := by
  cases h with
  | opened h hlistening =>
    refine reported_outcome h.failed ⟨false, ?_⟩ ?_
    · unfold DriverLog.firstInfo
      rw [h.stateInfo, hlistening.causes]
      rfl
    · rw [h.stateSent, h.received]
      simp
  | closed h =>
    obtain ⟨clean, hinfo⟩ := h.info
    refine reported_outcome h.failed ⟨clean, ?_⟩ ?_
    · rw [hinfo]
      rfl
    · rw [h.stateReceived, h.received]
      simp

/-! ## Closing -/

section Closing

variable {d : Driver} {log : DriverLog} {config : DriverConfig}

theorem drives_closeCommandChannels : Drives (closeCommandChannels d) log fun d' log' =>
    d' = { d with controlOpen := false, outboundOpen := false } ∧ log' = { log with closed := true } := by
  refine drives_closeControl.bind fun _ log₁ hlog₁ => ?_
  subst hlog₁
  refine drives_closeOutbound.bind fun _ log₂ hlog₂ => ?_
  subst hlog₂
  exact Drives.done ⟨rfl, rfl⟩

variable {message : WebSocketMessage}

theorem mayWrite_control (hnoClose : log.NoClose)
    (hmessage : message.isApplication = false) (hclose : ∀ frame, message ≠ .close frame) : log.MayWrite message where
  noClose := hnoClose
  inOrder h := absurd (hmessage.symm.trans h) Bool.false_ne_true
  emptied frame _ _ h := absurd h (hclose frame)

theorem DriverLog.application_control (log : DriverLog)
    (hmessage : message.isApplication = false) :
    DriverLog.application { log with written := log.written ++ [message] } = log.application := by
  rw [DriverLog.application_append, hmessage]
  rfl

theorem DriverLog.NoClose.write (h : log.NoClose) (hclose : ∀ frame, message ≠ .close frame) :
    DriverLog.NoClose { log with written := log.written ++ [message] } := by
  intro frame hmem
  rcases mem_append.1 hmem with hmem | hmem
  · exact h frame hmem
  · exact hclose frame (mem_singleton.1 hmem).symm

variable {cause : CloseCause}

theorem closeWith_drives (h : Unclosed d log) (hcauses : log.causes = [cause])
    (hcounted : cause.drains = true → log.counted = some log.messages.length) :
    Drives (d.closeWith config cause) log (Concludes DriverReady) := by
  have hmay : log.MayWrite (.close cause.frame) := by
    refine ⟨h.noClose, nofun, fun frame first rest _ hfirst hdrains => ?_⟩
    rw [hcauses] at hfirst
    obtain ⟨rfl, -⟩ := List.cons.inj hfirst
    exact ⟨h.written, hcounted hdrains⟩
  unfold Driver.closeWith initiateClose
  rw [h.stateSent]
  refine Drives.attempt (P := fun state log' => DriverReady { d with state := state } log') ?_
    fun state log' hready => Drives.done hready
  refine (drives_record _).same fun _ => ?_
  refine drives_now.same fun now => ?_
  refine (drives_sendWithTimeout _ hmay).attempt fun _ log₁ hlog₁ => ?_
  subst hlog₁
  refine Drives.done (DriverReady.closed ?_)
  exact {
    failed := h.failed
    written := (DriverLog.application_control _ rfl).trans h.written
    received := h.received
    stateSent := rfl
    stateReceived := h.stateReceived
    sent := Or.inl ⟨cause.frame, mem_append_right _ (mem_singleton_self _)⟩
    causes := hcauses ▸ cons_ne_nil _ _
    info := ⟨false, by unfold DriverLog.firstInfo; dsimp only; rw [hcauses]; rfl⟩ }

theorem DriverLog.firstInfo_append (h : log.causes ≠ []) :
    DriverLog.firstInfo { log with causes := log.causes ++ [cause] } = log.firstInfo := by
  unfold DriverLog.firstInfo
  dsimp only
  rw [List.head?_append_of_ne_nil _ h]

/-- The first cause. -/
theorem drives_firstCause (cause : CloseCause) (h : Unclosed d log) (hcauses : log.causes = []) :
    Drives (perform (.note cause)) log fun _ log₁ =>
      Unclosed d log₁ ∧ log₁.causes = [cause] ∧ (log.MayDrain → log₁.MayDrain) := by
  refine (drives_note cause fun _ => h.noClose).imp ?_
  rintro _ _ rfl
  exact ⟨{ h with }, by rw [hcauses]; rfl, id⟩

theorem closeBecause_unclosed (h : Unclosed d log) (hcauses : log.causes = [])
    (hdrains : cause.drains = false) : Drives (d.closeBecause config cause) log (Concludes DriverReady) := by
  refine (drives_firstCause cause h hcauses).bind fun _ log₁ ⟨h₁, hcauses₁, _⟩ => ?_
  refine drives_closeCommandChannels.bind ?_
  rintro _ _ ⟨rfl, rfl⟩
  exact closeWith_drives { h₁ with } hcauses₁ fun hdrains' => absurd (hdrains.symm.trans hdrains') Bool.false_ne_true

theorem closeBecause_drives (h : DriverReady d log) (hdrains : cause.drains = false) :
    Drives (d.closeBecause config cause) log (Concludes DriverReady) := by
  cases h with
  | opened h hlistening => exact closeBecause_unclosed h hlistening.causes hdrains
  | closed h =>
    refine (drives_note cause fun hnil => absurd hnil h.causes).bind ?_
    rintro _ _ rfl
    refine drives_closeCommandChannels.bind ?_
    rintro _ _ ⟨rfl, rfl⟩
    unfold Driver.closeWith initiateClose
    dsimp only
    rw [h.stateSent]
    refine Drives.done (DriverReady.closed ?_)
    exact { h with
      causes := append_ne_nil_of_left_ne_nil h.causes _
      info := (DriverLog.firstInfo_append h.causes).symm ▸ h.info }

/-! ## Emptying the queue -/

theorem takeQueued_drives {n k : ℕ} (hcounted : log.counted = some n) (hlength : log.messages.length + k = n)
    (hnoClose : log.NoClose) : Drives (takeQueued k) log fun messages log' => messages.length = k ∧
      (∀ message ∈ messages, message.isApplication = true) ∧
      log' = { log with messages := log.messages ++ messages } := by
  induction k generalizing log with
  | zero =>
    refine Drives.done ⟨rfl, nofun, ?_⟩
    rw [append_nil]
  | succ k ih =>
    refine (drives_tryRecvOutbound hcounted (by omega) hnoClose).bind ?_
    rintro _ _ ⟨message, rfl, hmessage, rfl⟩
    have hrest := @ih { log with messages := log.messages ++ [message] } hcounted
      (by rw [length_append, length_singleton]; omega) hnoClose
    refine hrest.bind ?_
    rintro messages _ ⟨rfl, hmessages, rfl⟩
    refine Drives.done ⟨rfl, ?_, ?_⟩
    · intro m hm
      rcases mem_cons.1 hm with rfl | hm
      · exact hmessage
      · exact hmessages m hm
    · rw [append_assoc, singleton_append]

theorem sendMessages_drives {messages : List WebSocketMessage}
    (hmessages : ∀ message ∈ messages, message.isApplication = true) (hnoClose : log.NoClose)
    (hwritten : log.application ++ messages = log.messages) :
    Drives (sendMessages config messages) log
      (Concludes fun _ log' => log' = { log with written := log.written ++ messages }) := by
  induction messages generalizing log with
  | nil =>
    refine Drives.done ?_
    show log = _
    rw [append_nil]
  | cons message messages ih =>
    have hmessage := hmessages message (mem_cons_self ..)
    have hnotClose : ∀ frame, message ≠ .close frame := by
      rintro frame rfl
      cases hmessage
    have hmay : log.MayWrite message := by
      refine ⟨hnoClose, fun _ => ?_, fun frame _ _ hclose => absurd hclose (hnotClose frame)⟩
      exact ⟨messages, by rw [append_assoc, singleton_append, hwritten]⟩
    unfold sendMessages
    refine (drives_sendWithTimeout _ hmay).attempt fun _ log₁ hlog₁ => ?_
    subst hlog₁
    refine (drives_record _).same fun _ => ?_
    have hrest := @ih { log with written := log.written ++ [message] }
      (fun m hm => hmessages m (mem_cons_of_mem _ hm)) (hnoClose.write hnotClose) ?_
    · refine hrest.concludes_imp fun _ log' hlog' => ?_
      rw [hlog', append_assoc, singleton_append]
    · rw [DriverLog.application_append, if_pos hmessage, append_assoc, singleton_append]
      exact hwritten

/-- All that is queued is taken and written. -/
theorem sendQueuedOutbound_drives (h : Unclosed d log) (hdrain : log.MayDrain) :
    Drives (sendQueuedOutbound config) log (Concludes fun _ log' => Unclosed d log' ∧ log'.causes = log.causes ∧
      log'.counted = some log'.messages.length) := by
  refine Drives.bind (P := fun messages log' => (∀ message ∈ messages, message.isApplication = true) ∧
    log' = { log with counted := some (log.messages.length + messages.length), messages := log.messages ++ messages })
    ?_ ?_
  · refine (drives_outboundLen hdrain h.noClose).bind fun queued log₁ hlog₁ => ?_
    have hcounted : log₁.counted = some (log.messages.length + queued) := by rw [hlog₁]
    have hlength : log₁.messages.length + queued = log.messages.length + queued := by rw [hlog₁]
    have hnoClose : log₁.NoClose := hlog₁ ▸ h.noClose
    refine (takeQueued_drives hcounted hlength hnoClose).imp ?_
    rintro messages log' ⟨rfl, hmessages, rfl⟩
    subst hlog₁
    exact ⟨hmessages, rfl⟩
  · rintro messages log₁ ⟨hmessages, hlog₁⟩
    have hnoClose : log₁.NoClose := hlog₁ ▸ h.noClose
    have hwritten : log₁.application ++ messages = log₁.messages := by
      rw [hlog₁]
      exact congrArg (· ++ messages) h.written
    refine (sendMessages_drives hmessages hnoClose hwritten).concludes_imp ?_
    rintro _ log' rfl
    subst hlog₁
    refine ⟨{ h with written := ?_, noClose := ?_ }, rfl, ?_⟩
    · show (log.written ++ messages).filter _ = _
      rw [filter_append, filter_eq_self.2 hmessages]
      exact hwritten
    · intro frame hframe
      rcases mem_append.1 hframe with hframe | hframe
      · exact h.noClose frame hframe
      · cases hmessages _ hframe
    · exact congrArg some (length_append).symm

theorem drainAndClose_drives (h : Unclosed d log) (hcauses : log.causes = [cause])
    (hdrain : log.MayDrain) : Drives (d.drainAndClose config cause) log (Concludes DriverReady) := by
  refine (sendQueuedOutbound_drives h hdrain).attempt ?_
  rintro _ log' ⟨h', hcauses', hcounted⟩
  exact closeWith_drives h' (hcauses'.trans hcauses) fun _ => hcounted

theorem noteDrainAndClose_drives (h : Unclosed d log) (hcauses : log.causes = [])
    (hdrain : log.MayDrain) :
    Drives (perform (.note cause) >>= fun _ => d.drainAndClose config cause) log (Concludes DriverReady) := by
  refine (drives_firstCause cause h hcauses).bind fun _ log₁ ⟨h₁, hcauses₁, hdrain₁⟩ => ?_
  exact drainAndClose_drives h₁ hcauses₁ (hdrain₁ hdrain)

theorem writeControl_drives {command : ControlCommand} (h : Unclosed d log)
    (happ : command.message.isApplication = false) (hclose : ∀ frame, command.message ≠ .close frame) :
    Drives (writeControl command config.sendTimeout) log (Concludes fun _ log' =>
      Unclosed d log' ∧ log' = { log with written := log.written ++ [command.message] }) := by
  refine (drives_sendWithTimeout _ (mayWrite_control h.noClose happ hclose)).concludes_imp ?_
  rintro _ log' rfl
  refine ⟨?_, rfl⟩
  exact { h with written := (DriverLog.application_control _ happ).trans h.written, noClose := h.noClose.write hclose }

theorem drainControl_drives (fuel : ℕ) (h : Unclosed d log) (hcauses : log.causes = [])
    (hcompleted : log.handlerResult = some .completed ∧ log.noSender = true) :
    Drives (drainControl config fuel d) log (Concludes DriverReady) := by
  induction fuel generalizing log with
  | zero => exact Drives.done trivial
  | succ fuel ih =>
    refine drives_tryRecvControl.bind fun command log₁ hlog₁ => ?_
    have h₁ : Unclosed d log₁ := hlog₁ ▸ { h with }
    have hcauses₁ : log₁.causes = [] := by rw [hlog₁, hcauses]
    have hcompleted₁ : log₁.handlerResult = some .completed ∧ log₁.noSender = true := hlog₁ ▸ hcompleted
    have hcontrol : ∀ {command}, (ControlCommand.message command).isApplication = false →
        (∀ frame, command.message ≠ .close frame) → Drives (attempt (writeControl command config.sendTimeout) fun _ =>
          drainControl config fuel d) log₁ (Concludes DriverReady) := by
      intro command happ hclose
      refine (writeControl_drives h₁ happ hclose).attempt ?_
      rintro _ log₂ ⟨h₂, hlog₂⟩
      exact ih h₂ (by rw [hlog₂]; exact hcauses₁) (hlog₂ ▸ hcompleted₁)
    match command with
    | some (.close frame) => exact noteDrainAndClose_drives h₁ hcauses₁ (Or.inr hcompleted₁)
    | some (.disconnect frame) =>
      refine (drives_firstCause _ h₁ hcauses₁).bind fun _ log₂ ⟨h₂, hcauses₂, _⟩ => ?_
      exact closeWith_drives h₂ hcauses₂ nofun
    | some (.ping _) | some (.pong _) => exact hcontrol rfl nofun
    | none => exact noteDrainAndClose_drives h₁ hcauses₁ (Or.inr hcompleted₁)

theorem initiateHandlerCompletion_drives (fuel : ℕ) (h : Unclosed d log) (hcauses : log.causes = [])
    (hcompleted : log.handlerResult = some .completed ∧ log.noSender = true) :
    Drives (initiateHandlerCompletion config fuel d) log (Concludes DriverReady) := by
  refine drives_closeCommandChannels.bind ?_
  rintro _ _ ⟨rfl, rfl⟩
  exact drainControl_drives fuel { h with } hcauses hcompleted

end Closing

/-! ## Waiting -/

section Select

variable {d : Driver} {log : DriverLog} {s : Link}

theorem DriverReady.waiting_eq (h : DriverReady d log) (htied : s.Tied log) : s.waiting d = s := by
  have hfalse : (!d.state.closeSent &&
      (!d.controlOpen && !s.control.queued.isEmpty || !d.outboundOpen && !s.outbound.queued.isEmpty)) = false := by
    cases h with
    | opened h hlistening =>
      have hcontrol : (!d.controlOpen && !s.control.queued.isEmpty) = false := by
        cases hopen : d.controlOpen with
        | true => rfl
        | false => rw [(htied.controlEnded (hlistening.control hopen) hlistening.notClosed).2]; rfl
      have houtbound : (!d.outboundOpen && !s.outbound.queued.isEmpty) = false := by
        cases hopen : d.outboundOpen with
        | true => rfl
        | false => rw [(htied.outboundEnded (hlistening.outbound hopen) hlistening.notClosed).2]; rfl
      rw [hcontrol, houtbound, Bool.or_false, Bool.and_false]
    | closed h => rw [h.stateSent]; rfl
  unfold Link.waiting
  rw [hfalse, Bool.or_false]

/-- How the `select!` can end, and with which log. -/
inductive Selected (d : Driver) (log : DriverLog) : DriverEvent → DriverLog → Prop where
  | shutdown : d.state.closeSent = false → Selected d log .shutdown log
  | command (command) : Selected d log (.control (some command)) { log with commands := log.commands ++ [command] }
  | controlEnd : Selected d log (.control none) { log with controlEnded := true }
  | closeDeadline : Selected d log .closeDeadline log
  | pongDeadline : Selected d log .pongDeadline log
  | lifetimeDeadline : Selected d log .lifetimeDeadline log
  | idleDeadline : Selected d log .idleDeadline log
  | message (message) : d.state.closeSent = false → message.isApplication = true →
      Selected d log (.outbound (some message)) { log with messages := log.messages ++ [message] }
  | outboundEnd : d.state.closeSent = false → Selected d log (.outbound none) { log with outboundEnded := true }
  | incoming (item) : Selected d log (.incoming item) (log.heard item d.state.closeSent)
  | pingDeadline : d.state.closeSent = false → Selected d log .pingDeadline log
  | handlerDone (result) : Selected d log (.handlerDone result) { log with handlerResult := some result }
  | changed : Selected d log (.senderCount true) log
  | noSender : Selected d log (.senderCount false) { log with noSender := true }

theorem DriverLog.Sound.heard (h : log.Sound) (item : Option (Except TungsteniteError WebSocketMessage))
    (closeSent : Bool) : (log.heard item closeSent).Sound := by
  unfold DriverLog.heard
  split
  · exact { h with }
  · split_ifs
    · exact h.answered (.error _)
    · exact { h with }
    · exact h
  · exact h

theorem DriverReady.unclosed (h : DriverReady d log) (hsent : d.state.closeSent = false) :
    Unclosed d log ∧ Listening d log := by
  cases h with
  | opened h hlistening => exact ⟨h, hlistening⟩
  | closed h => exact absurd (hsent.symm.trans h.stateSent) Bool.false_ne_true

theorem Link.Tied.recvControl (htied : s.Tied log) {r : Option ControlCommand} {c : Channel ControlCommand}
    (hrecv : s.control.recv s.dropped = some (r, c)) : ∃ log', Link.Tied { s with
        control := c
        log := { log with commands := log.commands ++ r.toList, controlEnded := log.controlEnded || r.isNone } } log' ∧
      Selected d log (.control r) log' := by
  obtain ⟨command, rfl, hnext⟩ | ⟨rfl, rfl, hqueued, hend⟩ := Channel.recv_cases hrecv
  · rw [hnext.after]
    simp only [Option.toList_some, Option.isNone_some, Bool.or_false]
    exact ⟨_, { htied with
      log_eq := rfl
      commands := fun c hc => (mem_append.1 hc).elim (htied.commands c) fun h => mem_singleton.1 h ▸ hnext.mem
      controlEnded := fun hended hopen => absurd (htied.controlEnded hended hopen).2 hnext.queued
      sound := { htied.sound with } }, .command command⟩
  · simp only [Option.toList_none, Option.isNone_none, Bool.or_true, append_nil]
    exact ⟨_, { htied with
      log_eq := rfl
      controlEnded := fun _ hopen => by
        refine ⟨hend.resolve_right fun hclosed => ?_, hqueued⟩
        exact absurd (hopen.symm.trans (htied.controlClosed hclosed)) Bool.false_ne_true
      sound := { htied.sound with } }, .controlEnd⟩

theorem Link.Tied.recvOutbound (htied : s.Tied log) (h : Unclosed d log) {r : Option WebSocketMessage}
    {c : Channel WebSocketMessage} (hrecv : s.outbound.recv s.dropped = some (r, c)) : ∃ log', Link.Tied { s with
        outbound := c
        log := { log with messages := log.messages ++ r.toList, outboundEnded := log.outboundEnded || r.isNone } } log' ∧
      Selected d log (.outbound r) log' := by
  obtain ⟨message, rfl, hnext⟩ | ⟨rfl, rfl, hqueued, hend⟩ := Channel.recv_cases hrecv
  · simp only [Option.toList_some, Option.isNone_some, Bool.or_false]
    exact ⟨_, htied.take h.noClose hnext, .message message h.stateSent (htied.application message hnext.mem)⟩
  · simp only [Option.toList_none, Option.isNone_none, Bool.or_true, append_nil]
    exact ⟨_, { htied with
      log_eq := rfl
      outboundEnded := fun _ hopen => by
        refine ⟨hend.resolve_right fun hclosed => ?_, hqueued⟩
        exact absurd (hopen.symm.trans (htied.outboundClosed hclosed)) Bool.false_ne_true
      sound := { htied.sound with } }, .outboundEnd h.stateSent⟩

theorem Link.Tied.heard (htied : s.Tied log) (item : Option (Except TungsteniteError WebSocketMessage))
    (closeSent : Bool) : Link.Tied { s with log := log.heard item closeSent } (log.heard item closeSent) := by
  have hsound := htied.sound.heard item closeSent
  unfold DriverLog.heard at hsound ⊢
  split at hsound
  · exact { htied with log_eq := rfl, sound := hsound }
  · split_ifs at hsound ⊢
    · exact { htied with log_eq := rfl, sound := hsound }
    · exact { htied with log_eq := rfl, sound := hsound }
    · exact { htied with log_eq := rfl }
  · exact { htied with log_eq := rfl }

/-- How the `select!` can end. -/
theorem drives_select {config : DriverConfig} (h : DriverReady d log) :
    Drives (perform (.select config d)) log (Selected d log) := by
  refine drives_perform fun i s event s' _ hexec htied _ => ?_
  replace hexec : (s.waiting d).branch config d i = some (event, s') := hexec
  rw [h.waiting_eq htied] at hexec
  obtain rfl := htied.log_eq
  have hsent : ∀ {b : Bool}, (!d.state.closeSent && b) = true → d.state.closeSent = false := fun hcond =>
    Bool.not_eq_true' _ ▸ (Bool.and_eq_true_iff.1 hcond).1
  unfold Link.branch at hexec
  split at hexec
  case h_1 =>
    split_ifs at hexec with hcond
    cases hexec
    exact ⟨rfl, _, htied, .shutdown (hsent hcond)⟩
  case h_2 =>
    split_ifs at hexec with hcond
    obtain ⟨⟨r, c⟩, hrecv, heq⟩ := Option.map_eq_some_iff.1 hexec
    cases heq
    exact ⟨rfl, htied.recvControl hrecv⟩
  case h_3 | h_4 | h_5 | h_6 =>
    -- the four deadlines
    split_ifs at hexec
    cases hexec
    exact ⟨rfl, _, htied, by constructor⟩
  case h_7 =>
    split_ifs at hexec with hcond
    obtain ⟨⟨r, c⟩, hrecv, heq⟩ := Option.map_eq_some_iff.1 hexec
    cases heq
    exact ⟨rfl, htied.recvOutbound (h.unclosed (hsent ((Bool.and_comm _ _).trans hcond))).1 hrecv⟩
  case h_8 =>
    cases hexec
    exact ⟨rfl, _, htied.heard _ _, .incoming _⟩
  case h_9 =>
    split_ifs at hexec with hcond
    cases hexec
    exact ⟨rfl, _, htied, .pingDeadline (hsent hcond)⟩
  case h_10 =>
    split_ifs at hexec with hcond
    obtain ⟨result, hresult, heq⟩ := Option.map_eq_some_iff.1 hexec
    cases heq
    refine ⟨rfl, _, ?_, .handlerDone result⟩
    exact { htied with
      log_eq := rfl
      handler := fun r hr => hresult.trans hr
      sound := { htied.sound with } }
  case h_11 =>
    split_ifs at hexec with hcond hchanged hdropped
    · cases hexec
      exact ⟨rfl, _, { htied with }, .changed⟩
    · cases hexec
      refine ⟨rfl, _, ?_, .noSender⟩
      exact { htied with
        log_eq := rfl
        noSender := fun _ => (htied.dropped hdropped).1
        sound := { htied.sound with } }

end Select

/-! ## The branches -/

def TurnDone : Turn → DriverLog → Prop
  | .continues d, log => DriverReady d log
  | .returns outcome, log => Reported outcome log

section Branches

variable {d : Driver} {log : DriverLog} {config : DriverConfig}

theorem continueWith_drives {p : Prog LinkAction (Except Exit Driver)} (h : Drives p log (Concludes DriverReady)) :
    Drives (continueWith p) log (Concludes TurnDone) :=
  h.attempt fun _ _ hready => Drives.done hready

theorem DriverReady.ofState (h : DriverReady d log) {state : DriverState} (hsent : state.closeSent = d.state.closeSent)
    (hreceived : state.closeReceived = d.state.closeReceived) (hinfo : state.closeInfo = d.state.closeInfo) :
    DriverReady { d with state := state } log := by
  cases h with
  | opened h hlistening =>
    exact .opened { h with
      stateSent := hsent.trans h.stateSent
      stateReceived := hreceived.trans h.stateReceived
      stateInfo := hinfo.trans h.stateInfo } { hlistening with }
  | closed h =>
    exact .closed { h with
      stateSent := hsent.trans h.stateSent
      stateReceived := hreceived.trans h.stateReceived
      info := hinfo.symm ▸ h.info }

theorem DriverReady.notReceived (h : DriverReady d log) : d.state.closeReceived = false := by
  cases h with
  | opened h _ | closed h => exact h.stateReceived

theorem onControl_drives {command : Option ControlCommand} {log₁ : DriverLog} (h : DriverReady d log)
    (hselected : Selected d log (.control command) log₁) :
    Drives (d.onControl config command) log₁ (Concludes TurnDone) := by
  cases hselected with
  | controlEnd =>
    refine Drives.done ?_
    cases h with
    | opened h hlistening => exact .opened { h with } { hlistening with control := fun _ => rfl }
    | closed h => exact .closed { h with }
  | command command =>
    unfold Driver.onControl
    cases h with
    | closed h =>
      rw [h.stateSent]
      exact Drives.done (.closed { h with })
    | opened h hlistening =>
      rw [h.stateSent]
      have h₁ : Unclosed d { log with commands := log.commands ++ [command] } := { h with }
      have hlistening₁ : Listening d { log with commands := log.commands ++ [command] } := { hlistening with }
      generalize hlog₁ : { log with commands := log.commands ++ [command] } = log₁ at h₁ hlistening₁
      have hmem : command ∈ log₁.commands := by
        rw [← hlog₁]
        exact mem_append_right _ (mem_singleton_self _)
      have hcontrol : ∀ {command}, (ControlCommand.message command).isApplication = false →
          (∀ frame, command.message ≠ .close frame) → Drives (attempt (writeControl command config.sendTimeout) fun _ =>
            pure (.ok (.continues d))) log₁ (Concludes TurnDone) := by
        intro command happ hclose
        refine (writeControl_drives h₁ happ hclose).attempt ?_
        rintro _ log₂ ⟨h₂, rfl⟩
        exact Drives.done (.opened h₂ { hlistening₁ with })
      match command with
      | .close frame =>
        refine (drives_firstCause _ h₁ hlistening₁.causes).bind fun _ log₂ ⟨h₂, hcauses₂, hdrain₂⟩ => ?_
        refine drives_closeCommandChannels.bind ?_
        rintro _ _ ⟨rfl, rfl⟩
        exact continueWith_drives (drainAndClose_drives { h₂ with } hcauses₂ (hdrain₂ (Or.inl ⟨frame, hmem⟩)))
      | .disconnect frame => exact continueWith_drives (closeBecause_unclosed h₁ hlistening₁.causes rfl)
      | .ping _ | .pong _ => exact hcontrol rfl nofun

theorem onOutbound_drives {message : Option WebSocketMessage} {log₁ : DriverLog} (h : DriverReady d log)
    (hselected : Selected d log (.outbound message) log₁) :
    Drives (d.onOutbound config message) log₁ (Concludes TurnDone) := by
  cases hselected with
  | outboundEnd hsent =>
    obtain ⟨h, hlistening⟩ := h.unclosed hsent
    exact Drives.done (.opened { h with } { hlistening with outbound := fun _ => rfl })
  | message message hsent happ =>
    obtain ⟨h, hlistening⟩ := h.unclosed hsent
    have hclose : ∀ frame, message ≠ .close frame := by
      rintro frame rfl
      cases happ
    have hmay : DriverLog.MayWrite { log with messages := log.messages ++ [message] } message := by
      refine ⟨h.noClose, fun _ => ?_, fun frame _ _ heq => absurd heq (hclose frame)⟩
      exact (congrArg (· ++ [message]) h.written) ▸ prefix_rfl
    refine (drives_sendWithTimeout _ hmay).attempt ?_
    rintro _ _ rfl
    refine (drives_record _).same fun _ => ?_
    refine Drives.done (.opened ?_ { hlistening with })
    exact { h with
      written := by
        rw [DriverLog.application_append, if_pos happ]
        exact congrArg (· ++ [message]) h.written
      noClose := h.noClose.write hclose }

variable {message : WebSocketMessage}

theorem deliver_drives (h : DriverReady d log) :
    Drives (d.deliver config message) log (Concludes TurnDone) := by
  refine (drives_deliver _ _).same fun delivery => ?_
  refine Drives.attempt (P := DriverReady) ?_ fun d' log' hready => ?_
  · split
    · refine (drives_record _).same fun _ => ?_
      exact closeBecause_drives h rfl
    · exact Drives.done h
  · rw [hready.notReceived]
    exact Drives.done hready

theorem onAccepted_close_drives {frame : Option CloseFrame} (h : DriverReady d log) :
    Drives (d.onAccepted config (.close frame)) { log with closeReceived := true } (Concludes TurnDone) := by
  have hnoClose : log.causes = [] → log.NoClose := by
    intro hnil
    cases h with
    | opened h _ => exact h.noClose
    | closed h => exact absurd hnil h.causes
  refine (drives_flushWithTimeout _).attempt fun _ log₀ hlog₀ => ?_
  refine (drives_record _).same fun _ => ?_
  have hnoClose₀ : log₀.causes = [] → log₀.NoClose := hlog₀ ▸ hnoClose
  refine (drives_note (.peer frame) hnoClose₀).bind fun _ log₁ hlog₁ => ?_
  rw [hlog₀] at hlog₁
  refine (drives_deliver _ _).same fun delivery => ?_
  have hnot : ¬(delivery = .timedOut ∧ (d.state.receiveClose frame).closeSent = false) := fun hand => nomatch hand.2
  rw [if_neg hnot]
  refine Drives.done ?_
  have hclean : (d.state.receiveClose frame).closeSent = true ∧ (d.state.receiveClose frame).closeReceived = true ↔
      log₁.CloseSent ∧ log₁.closeReceived = true := by
    rw [hlog₁]
    exact iff_of_true ⟨rfl, rfl⟩ ⟨Or.inr (Bool.or_true _), rfl⟩
  cases h with
  | opened h hlistening =>
    refine reported_outcome (by rw [hlog₁]; exact h.failed) ⟨true, ?_⟩ hclean
    show (some (d.state.closeInfo.getD _)).getD _ = _
    rw [h.stateInfo, hlog₁]
    unfold DriverLog.firstInfo
    dsimp only
    rw [hlistening.causes]
    rfl
  | closed h =>
    obtain ⟨clean, hinfo⟩ := h.info
    refine reported_outcome (by rw [hlog₁]; exact h.failed) ⟨clean, ?_⟩ hclean
    show (some (d.state.closeInfo.getD _)).getD _ = _
    rw [hinfo, hlog₁]
    have hfirst : DriverLog.firstInfo { log with causes := log.causes ++ [.peer frame] } = log.firstInfo :=
      DriverLog.firstInfo_append h.causes
    exact congrArg (fun info : WebSocketCloseInfo => { info with clean := clean }) hfirst.symm

theorem onAccepted_drives (h : DriverReady d log) (hclose : ∀ frame, message ≠ .close frame) :
    Drives (d.onAccepted config message) log (Concludes TurnDone) := by
  have hpong : DriverReady { d with state := d.state.receivePong message } log := by
    unfold DriverState.receivePong
    split
    · split
      · exact h.ofState rfl rfl rfl
      · exact h
    · exact h
  cases message with
  | close frame => exact absurd rfl (hclose frame)
  | ping payload =>
    have hreplied : (log.closeReplied || log.closeReceived) = log.closeReplied := by
      cases h with
      | opened h _ | closed h => rw [h.received, Bool.or_false]
    refine (drives_flushWithTimeout _).attempt ?_
    rintro _ _ rfl
    rw [hreplied]
    exact deliver_drives h
  | _ => exact deliver_drives hpong

theorem messageRateExceeded_fields (state : DriverState) (now : ℕ) :
    (state.messageRateExceeded config now).2.closeSent = state.closeSent ∧
    (state.messageRateExceeded config now).2.closeReceived = state.closeReceived ∧
    (state.messageRateExceeded config now).2.closeInfo = state.closeInfo := by
  unfold DriverState.messageRateExceeded
  split
  · exact ⟨rfl, rfl, rfl⟩
  · dsimp only
    split_ifs <;> exact ⟨rfl, rfl, rfl⟩

theorem onMessage_drives (h : DriverReady d log) :
    Drives (d.onMessage config message) (log.heard (some (.ok message)) d.state.closeSent) (Concludes TurnDone) := by
  refine drives_now.same fun now => ?_
  dsimp only
  split
  · rename_i hdata
    have hclose : ∀ frame, message ≠ .close frame := by
      rintro frame rfl
      cases hdata
    have hheard : log.heard (some (.ok message)) d.state.closeSent = log := by
      cases message with
      | close frame => cases hdata
      | _ => rfl
    rw [hheard]
    obtain ⟨hsent, hreceived, hinfo⟩ :=
      @messageRateExceeded_fields config { d.state with lastInboundFrame := now } now
    split
    · exact continueWith_drives (closeBecause_drives (h.ofState hsent hreceived hinfo) rfl)
    · refine (drives_record _).same fun _ => ?_
      exact onAccepted_drives (h.ofState hsent hreceived hinfo) hclose
  · cases message with
    | close frame => exact onAccepted_close_drives (h.ofState rfl rfl rfl)
    | _ => exact onAccepted_drives (h.ofState rfl rfl rfl) nofun

theorem onIncoming_drives {item : Option (Except TungsteniteError WebSocketMessage)} (h : DriverReady d log) :
    Drives (d.onIncoming config item) (log.heard item d.state.closeSent) (Concludes TurnDone) := by
  match item with
  | none => exact Drives.done h.reported
  | some (.ok message) => exact onMessage_drives h
  | some (.error error) =>
    unfold Driver.onIncoming DriverLog.heard TungsteniteError.isFatal
    dsimp only
    cases hkind : error.kind with
    | connectionClosed =>
      cases h with
      | opened h hlistening =>
        rw [h.stateSent]
        exact Drives.done rfl
      | closed h =>
        rw [h.stateSent]
        refine Drives.done ?_
        obtain ⟨clean, hinfo⟩ := h.info
        refine reported_outcome h.failed ⟨clean, ?_⟩ (iff_of_true ⟨rfl, rfl⟩ ⟨h.sent, rfl⟩)
        show d.state.closeInfo.getD _ = _
        rw [hinfo]
        rfl
    | messageTooLong => exact continueWith_drives (closeBecause_drives h rfl)
    | timedOut | other => exact Drives.done rfl

theorem ping_drives (h : Unclosed d log) (hlistening : Listening d log) :
    Drives (d.ping config) log (Concludes TurnDone) := by
  have hmay : log.MayWrite (.ping (toBeBytes d.state.nextPingToken)) := mayWrite_control h.noClose rfl nofun
  refine (drives_sendWithTimeout _ hmay).attempt ?_
  rintro _ _ rfl
  refine drives_now.same fun now => ?_
  refine Drives.done (.opened ?_ { hlistening with })
  exact { h with
    written := (DriverLog.application_control log rfl).trans h.written
    noClose := h.noClose.write nofun }

theorem onHandlerDone_drives {result : HandlerResult} (h : DriverReady d log) :
    Drives (d.onHandlerDone config result) { log with handlerResult := some result } (Concludes TurnDone) := by
  cases result with
  | completed =>
    refine Drives.done ?_
    cases h with
    | opened h hlistening => exact .opened { h with } { hlistening with handler := fun _ => rfl }
    | closed h => exact .closed { h with }
  | failed =>
    refine (drives_record _).same fun _ => ?_
    cases h with
    | opened h hlistening =>
      have h₁ : Unclosed { d with handlerCompleted := true } { log with handlerResult := some .failed } := { h with }
      dsimp only
      rw [h.stateSent]
      exact continueWith_drives (closeBecause_unclosed h₁ hlistening.causes rfl)
    | closed h =>
      dsimp only
      rw [h.stateSent]
      exact Drives.done (.closed { h with })

/-- **One branch.** -/
theorem handle_drives {event : DriverEvent} {log₁ : DriverLog} (h : DriverReady d log)
    (hselected : Selected d log event log₁) :
    Drives (event.handle config d) log₁ (Concludes TurnDone) := by
  cases event with
  | control command => exact onControl_drives h hselected
  | outbound message => exact onOutbound_drives h hselected
  | shutdown | lifetimeDeadline | idleDeadline =>
    cases hselected
    exact continueWith_drives (closeBecause_drives h rfl)
  | closeDeadline =>
    cases hselected
    exact Drives.done h.reported
  | pongDeadline =>
    cases hselected
    refine (drives_record _).same fun _ => ?_
    exact continueWith_drives (closeBecause_drives (h.ofState rfl rfl rfl) rfl)
  | incoming item =>
    cases hselected
    exact onIncoming_drives h
  | pingDeadline =>
    cases hselected with
    | pingDeadline hsent =>
      obtain ⟨h, hlistening⟩ := h.unclosed hsent
      exact ping_drives h hlistening
  | handlerDone result =>
    cases hselected
    exact onHandlerDone_drives h
  | senderCount changed =>
    cases hselected with
    | changed =>
      refine drives_senderCount.bind ?_
      rintro count _ rfl
      refine Drives.done ?_
      cases h with
      | opened h hlistening =>
        refine .opened { h with tracking := fun htracking => ?_ } { hlistening with }
        exact Bool.or_eq_true_iff.2 (Or.inl (h.tracking htracking))
      | closed h => exact .closed { h with }
    | noSender =>
      refine Drives.done ?_
      cases h with
      | opened h hlistening => exact .opened { h with tracking := fun _ => rfl } { hlistening with }
      | closed h => exact .closed { h with }

theorem preflight_drives (h : DriverReady d log) : Drives d.preflight log fun r log' => DriverReady d log' ∧
    (r = .completion → Unclosed d log' ∧ log'.causes = [] ∧ log'.handlerResult = some .completed ∧
      log'.noSender = true) := by
  unfold Driver.preflight
  split
  · exact Drives.done ⟨h, nofun⟩
  rename_i hsent
  obtain ⟨hunclosed, hlistening⟩ := h.unclosed (eq_false_of_ne_true hsent)
  refine drives_shutdownRequested.same fun shutdown => ?_
  split
  · exact Drives.done ⟨h, nofun⟩
  split
  · rename_i hcompleted
    split
    · rename_i htracking
      exact Drives.done ⟨h, fun _ =>
        ⟨hunclosed, hlistening.causes, hlistening.handler hcompleted, hunclosed.tracking htracking⟩⟩
    · refine drives_senderCount.bind ?_
      rintro count _ rfl
      have h₁ : Unclosed d { log with noSender := log.noSender || decide (count = 0) } := { hunclosed with
        tracking := fun htracking => Bool.or_eq_true_iff.2 (Or.inl (hunclosed.tracking htracking)) }
      refine Drives.done ⟨.opened h₁ { hlistening with }, fun hzero => ?_⟩
      refine ⟨h₁, hlistening.causes, hlistening.handler hcompleted, ?_⟩
      split at hzero
      · rename_i hcount
        exact Bool.or_eq_true_iff.2 (Or.inr (decide_eq_true hcount))
      · cases hzero
  · exact Drives.done ⟨h, nofun⟩

/-- **One turn.** -/
theorem turn_drives (fuel : ℕ) (h : DriverReady d log) : Drives (d.turn config fuel) log (Concludes TurnDone) := by
  refine (preflight_drives h).bind ?_
  rintro r log₁ ⟨h₁, hcompletion⟩
  cases r with
  | shutdown => exact continueWith_drives (closeBecause_drives h₁ rfl)
  | completion =>
    obtain ⟨hunclosed, hcauses, hcompleted⟩ := hcompletion rfl
    exact continueWith_drives (initiateHandlerCompletion_drives fuel hunclosed hcauses hcompleted)
  | select => exact (drives_select h₁).bind fun event log₂ hselected => handle_drives h₁ hselected

/-- **The loop.** -/
theorem loop_drives (fuel : ℕ) (h : DriverReady d log) : Drives (Driver.loop config fuel d) log fun r log' =>
    ∀ outcome, r = some outcome → Reported outcome log' := by
  induction fuel generalizing d log with
  | zero => exact Drives.done nofun
  | succ fuel ih =>
    refine (turn_drives fuel h).bind fun r log₁ hr => ?_
    match r, hr with
    | .ok (.continues d), hr => exact ih hr
    | .ok (.returns outcome), hr =>
      refine Drives.done fun _ heq => ?_
      cases heq
      exact hr
    | .error (.failed error), hr =>
      refine Drives.done fun _ heq => ?_
      cases heq
      unfold Reported
      rw [show log₁.failed = some error from hr]
    | .error .exhausted, _ => exact Drives.done nofun

end Branches

end RustRest
