import RustRest.WebSocket.Driver

/-!
# What the driver may rely on

The invariant of a link, in which the driver owns its log and the senders own what they have still to publish, and what
each action of the driver does to its log, whatever others do before and after it.
-/

namespace RustRest

open Threads Threads.Prog List

/-! ## The invariant -/

namespace DriverLog

variable (log : DriverLog)

def application : List WebSocketMessage := log.written.filter WebSocketMessage.isApplication

/-- No Close frame was written. -/
def NoClose : Prop := ∀ frame, .close frame ∉ log.written

def MayDrain : Prop :=
  (∃ frame, .close frame ∈ log.commands) ∨ log.handlerResult = some .completed ∧ log.noSender = true

structure Sound : Prop where
  once : ∀ pre frame post, log.written = pre ++ .close frame :: post → post = []
  fifo : log.application <+: log.messages
  emptied : ∀ frame cause rest, .close frame ∈ log.written → log.causes = cause :: rest → cause.drains = true →
    log.failed = none → log.application = log.messages ∧ log.counted = some log.messages.length
  listens : log.deaf = false

end DriverLog

structure Link.Tied (s : Link) (log : DriverLog) : Prop where
  log_eq : s.log = log
  wf : s.outbound.Wf
  messages : log.messages = s.outbound.taken
  application : ∀ message ∈ s.outbound.sent, message.isApplication = true
  commands : ∀ command ∈ log.commands, command ∈ s.control.sent
  counted : ∀ n, log.counted = some n → n ≤ s.outbound.sent.length ∧ ∃ k, s.marks.head? = some k ∧ k ≤ n
  outboundClosed : s.outbound.closed = true → log.closed = true
  controlClosed : s.control.closed = true → log.closed = true
  outboundEnded : log.outboundEnded = true → log.closed = false → s.dropped = true ∧ s.outbound.queued = []
  controlEnded : log.controlEnded = true → log.closed = false → s.dropped = true ∧ s.control.queued = []
  dropped : s.dropped = true → s.senders.publicSenders = 0 ∧ s.outbound.permits = 0 ∧ s.control.permits = 0
  handler : ∀ result, log.handlerResult = some result → s.handler = some result
  noSender : log.noSender = true → s.senders.publicSenders = 0
  marks : ∀ k ∈ s.marks, k ≤ s.outbound.sent.length
  closeMarked : ∀ frame, .close frame ∈ s.control.sent → s.marks ≠ []
  completionMarked : s.handler = some .completed → s.senders.publicSenders = 0 → s.marks ≠ []
  sound : log.Sound

def Link.Held (s : Link) (d : Multiset DriverLog × Multiset (ℕ × ℕ)) : Prop :=
  (∃ log, d.1 = {log} ∧ s.Tied log) ∧ s.senders.Tracked d.2

theorem SenderCount.Tracked.none_left {s : SenderCount} {pending : Multiset (ℕ × ℕ)} (h : s.Tracked pending)
    (hzero : s.published = 0) : s.publicSenders = 0 := by
  obtain ⟨hle, hlast, hearlier⟩ := h.published
  rcases Nat.lt_or_eq_of_le hle with hlt | heq
  · exact absurd hzero (hearlier hlt)
  · rw [← hlast heq, hzero]

/-! ## Parts of the driver -/

def Drives {α : Type} (p : Prog LinkAction α) (log : DriverLog) (Q : α → DriverLog → Prop) : Prop :=
  p.Keeps linkMachine Link.Held () ({log}, 0) fun r d => ∃ log', d = ({log'}, 0) ∧ Q r log'

section Rules

variable {α β : Type} {log : DriverLog}

theorem Drives.done {r : α} {Q : α → DriverLog → Prop} (h : Q r log) : Drives (.done r) log Q := ⟨log, rfl, h⟩

variable {p : Prog LinkAction α}

theorem Drives.imp {Q Q' : α → DriverLog → Prop} (h : Drives p log Q)
    (hQ : ∀ r log', Q r log' → Q' r log') : Drives p log Q' :=
  Keeps.imp h fun r _ ⟨log', heq, hr⟩ => ⟨log', heq, hQ r log' hr⟩

theorem Drives.bind {f : α → Prog LinkAction β} {P : α → DriverLog → Prop}
    {Q : β → DriverLog → Prop} (h : Drives p log P) (hf : ∀ r log', P r log' → Drives (f r) log' Q) :
    Drives (p >>= f) log Q := by
  refine Keeps.bind (Keeps.imp h ?_)
  rintro r _ ⟨log', rfl, hr⟩
  exact hf r log' hr

theorem Drives.same {f : α → Prog LinkAction β} {Q : β → DriverLog → Prop}
    (h : Drives p log fun _ log' => log' = log) (hf : ∀ r, Drives (f r) log Q) : Drives (p >>= f) log Q :=
  h.bind fun r _ hlog => hlog ▸ hf r

theorem drives_perform {a : LinkAction α} {Q : α → DriverLog → Prop}
    (h : ∀ i s r s' pending, Link.exec a i s = some (r, s') → s.Tied log → s.senders.Tracked pending →
      s'.senders = s.senders ∧ ∃ log', s'.Tied log' ∧ Q r log') : Drives (perform a) log Q := by
  intro i s r s' m hexec hheld
  obtain ⟨⟨log₁, hlog, htied⟩, htracked⟩ := hheld
  -- there is one log, so it is the driver's, and nobody else has one
  obtain ⟨rfl, hm⟩ : log₁ = log ∧ m.1 = 0 := by
    have hcard := congrArg Multiset.card hlog
    simp only [Prod.fst_add, Multiset.card_add, Multiset.card_singleton] at hcard
    have hm : m.1 = 0 := Multiset.card_eq_zero.1 (by omega)
    rw [Prod.fst_add, hm, add_zero] at hlog
    exact ⟨(Multiset.singleton_inj.1 hlog).symm, hm⟩
  obtain ⟨hsenders, log', htied', hr⟩ := h i s r s' _ hexec htied htracked
  refine ⟨({log'}, 0), ⟨⟨log', ?_, htied'⟩, ?_⟩, log', rfl, hr⟩
  · rw [Prod.fst_add, hm, add_zero]
  · rw [hsenders]
    exact htracked

theorem drives_update {a : LinkAction α} {f : α → DriverLog}
    (h : ∀ i s r s' pending, Link.exec a i s = some (r, s') → s.Tied log → s.senders.Tracked pending →
      s'.senders = s.senders ∧ s'.Tied (f r)) : Drives (perform a) log fun r log' => log' = f r :=
  drives_perform fun i s r s' _ hexec htied htracked =>
    have ⟨hsenders, htied'⟩ := h i s r s' _ hexec htied htracked
    ⟨hsenders, f r, htied', rfl⟩

end Rules

/-! ## Actions of the driver -/

section Actions

variable {log : DriverLog}

theorem drives_now : Drives (perform .now) log fun _ log' => log' = log := by
  refine drives_update fun i s r s' _ hexec htied _ => ?_
  cases hexec
  exact ⟨rfl, htied⟩

theorem drives_shutdownRequested : Drives (perform .shutdownRequested) log fun _ log' => log' = log := by
  refine drives_update fun i s r s' _ hexec htied _ => ?_
  cases hexec
  exact ⟨rfl, htied⟩

theorem drives_deliver (message : WebSocketMessage) (timeout : ℕ) :
    Drives (perform (.deliver message timeout)) log fun _ log' => log' = log := by
  refine drives_update fun i s r s' _ hexec htied _ => ?_
  cases hexec
  exact ⟨rfl, htied⟩

theorem drives_record (record : RuntimeRecord) : Drives (perform (.record record)) log fun _ log' => log' = log := by
  refine drives_update fun i s r s' _ hexec htied _ => ?_
  cases hexec
  exact ⟨rfl, { htied with }⟩

theorem drives_senderCount :
    Drives (perform .senderCount) log fun r log' => log' = { log with noSender := log.noSender || decide (r = 0) } := by
  refine drives_update fun i s r s' _ hexec htied htracked => ?_
  cases hexec
  obtain rfl := htied.log_eq
  exact ⟨rfl, { htied with
    log_eq := rfl
    noSender := fun h => (Bool.or_eq_true_iff.1 h).elim htied.noSender fun hzero =>
      htracked.none_left (of_decide_eq_true hzero)
    sound := { htied.sound with } }⟩

theorem Link.Tied.closed {s : Link} (h : s.Tied log) :
    Link.Tied { s with log := { log with closed := true } } { log with closed := true } where
  __ := h
  log_eq := rfl
  outboundClosed _ := rfl
  controlClosed _ := rfl
  outboundEnded _ hopen := nomatch hopen
  controlEnded _ hopen := nomatch hopen
  sound := { h.sound with }

theorem drives_closeControl : Drives (perform .closeControl) log fun _ log' => log' = { log with closed := true } := by
  refine drives_update fun i s r s' _ hexec htied _ => ?_
  cases hexec
  obtain rfl := htied.log_eq
  exact ⟨rfl, { htied.closed with controlClosed := fun _ => rfl }⟩

theorem drives_closeOutbound : Drives (perform .closeOutbound) log fun _ log' => log' = { log with closed := true } := by
  refine drives_update fun i s r s' _ hexec htied _ => ?_
  cases hexec
  obtain rfl := htied.log_eq
  exact ⟨rfl, { htied.closed with outboundClosed := fun _ => rfl }⟩

theorem DriverLog.Sound.note (h : log.Sound) (hopen : log.causes = [] → log.NoClose) (cause : CloseCause) :
    DriverLog.Sound { log with causes := log.causes ++ [cause] } where
  once := h.once
  fifo := h.fifo
  emptied frame first rest hclose hcauses hdrains hfailed := by
    dsimp only at hclose hcauses hfailed ⊢
    cases hlog : log.causes with
    | nil => exact absurd hclose (hopen hlog frame)
    | cons c cs =>
      rw [hlog, cons_append] at hcauses
      obtain ⟨rfl, -⟩ := List.cons.inj hcauses
      exact h.emptied frame c cs hclose hlog hdrains hfailed
  listens := h.listens

theorem drives_note (cause : CloseCause) (hopen : log.causes = [] → log.NoClose) :
    Drives (perform (.note cause)) log fun _ log' => log' = { log with causes := log.causes ++ [cause] } := by
  refine drives_update fun i s r s' _ hexec htied _ => ?_
  cases hexec
  obtain rfl := htied.log_eq
  exact ⟨rfl, { htied with log_eq := rfl, sound := htied.sound.note hopen cause }⟩

theorem drives_tryRecvControl :
    Drives (perform .tryRecvControl) log fun r log' => log' = { log with commands := log.commands ++ r.toList } := by
  refine drives_update fun i s r s' _ hexec htied _ => ?_
  cases hexec
  obtain rfl := htied.log_eq
  refine ⟨rfl, ?_⟩
  obtain ⟨command, hr, hnext⟩ | ⟨heq, -⟩ := s.control.tryRecv_cases
  · rw [hr, hnext.after]
    exact { htied with
      log_eq := rfl
      commands := fun c hc => (mem_append.1 hc).elim (htied.commands c) fun h => mem_singleton.1 h ▸ hnext.mem
      controlEnded := fun hended hopen => absurd (htied.controlEnded hended hopen).2 hnext.queued
      sound := { htied.sound with } }
  · rw [heq]
    exact { htied with
      log_eq := rfl
      commands := fun c hc => htied.commands c (by simpa using hc)
      sound := { htied.sound with } }

theorem Link.Tied.marked {s : Link} (h : s.Tied log) (hdrain : log.MayDrain) :
    ∃ k, s.marks.head? = some k ∧ k ≤ s.outbound.sent.length := by
  have hne : s.marks ≠ [] := by
    rcases hdrain with ⟨frame, hframe⟩ | ⟨hcompleted, hnoSender⟩
    · exact h.closeMarked frame (h.commands _ hframe)
    · exact h.completionMarked (h.handler _ hcompleted) (h.noSender hnoSender)
  obtain ⟨k, rest, hmarks⟩ := exists_cons_of_ne_nil hne
  exact ⟨k, by rw [hmarks]; rfl, h.marks k (by rw [hmarks]; exact mem_cons_self ..)⟩

theorem drives_outboundLen (hdrain : log.MayDrain) (hopen : log.NoClose) :
    Drives (perform .outboundLen) log fun r log' =>
      log' = { log with counted := some (log.messages.length + r) } := by
  refine drives_update fun i s r s' _ hexec htied _ => ?_
  cases hexec
  obtain rfl := htied.log_eq
  have hlength : s.log.messages.length + s.outbound.queued.length = s.outbound.sent.length := by
    rw [htied.messages, htied.wf.length_taken, Channel.length_queued]
    exact Nat.add_sub_of_le htied.wf
  refine ⟨rfl, ?_⟩
  rw [hlength]
  exact { htied with
    log_eq := rfl
    counted := fun n hn => by
      cases hn
      exact ⟨le_rfl, htied.marked hdrain⟩
    sound := { htied.sound with emptied := fun frame _ _ hclose => absurd hclose (hopen frame) } }

variable {message : WebSocketMessage}

theorem Link.Tied.take {s : Link} (h : s.Tied log) (hopen : log.NoClose)
    {c : Channel WebSocketMessage} (hnext : s.outbound.Next message c) :
    Link.Tied { s with outbound := c, log := { log with messages := log.messages ++ [message] } }
      { log with messages := log.messages ++ [message] } := by
  rw [hnext.after]
  exact { h with
    log_eq := rfl
    wf := hnext.lt
    messages := by
      show log.messages ++ [message] = s.outbound.sent.take (s.outbound.received + 1)
      rw [hnext.take, h.messages]
    outboundEnded := fun hended hnotClosed => absurd (h.outboundEnded hended hnotClosed).2 hnext.queued
    sound := { h.sound with
      fifo := h.sound.fifo.trans (prefix_append _ _)
      emptied := fun frame _ _ hclose => absurd hclose (hopen frame) } }

theorem drives_tryRecvOutbound {n : ℕ} (hcounted : log.counted = some n) (hlt : log.messages.length < n)
    (hopen : log.NoClose) : Drives (perform .tryRecvOutbound) log fun r log' => ∃ message, r = some message ∧
      message.isApplication = true ∧ log' = { log with messages := log.messages ++ [message] } := by
  refine drives_perform fun i s r s' _ hexec htied _ => ?_
  cases hexec
  obtain rfl := htied.log_eq
  obtain ⟨message, hr, hnext⟩ | ⟨-, hqueued⟩ := s.outbound.tryRecv_cases
  · rw [hr]
    exact ⟨rfl, _, htied.take hopen hnext, message, rfl, htied.application message hnext.mem, rfl⟩
  · rw [htied.messages, htied.wf.length_taken] at hlt
    have hlength := Channel.length_queued (c := s.outbound)
    have hle := (htied.counted n hcounted).1
    rw [hqueued, length_nil] at hlength
    omega

/-! ### The transport -/

theorem eq_nil_of_append_singleton {T : Type} {xs pre post : List T} {x a : T} (hnot : a ∉ xs)
    (heq : xs ++ [x] = pre ++ a :: post) : post = [] := by
  rcases eq_nil_or_concat post with hnil | ⟨init, last, rfl⟩
  · exact hnil
  · rw [concat_eq_append, ← cons_append, ← append_assoc] at heq
    obtain ⟨rfl, -⟩ := append_inj' heq rfl
    exact absurd (mem_append_right _ (mem_cons_self ..)) hnot

structure DriverLog.MayWrite (log : DriverLog) (message : WebSocketMessage) : Prop where
  noClose : log.NoClose
  inOrder : message.isApplication = true → log.application ++ [message] <+: log.messages
  emptied : ∀ frame cause rest, message = .close frame → log.causes = cause :: rest → cause.drains = true →
    log.application = log.messages ∧ log.counted = some log.messages.length

theorem DriverLog.application_append (log : DriverLog) (message : WebSocketMessage) :
    DriverLog.application { log with written := log.written ++ [message] } =
      if message.isApplication then log.application ++ [message] else log.application := by
  unfold DriverLog.application
  rw [filter_append, filter_singleton]
  cases message.isApplication
  · exact append_nil _
  · rfl

theorem DriverLog.Sound.write (h : log.Sound) (hmay : log.MayWrite message) :
    DriverLog.Sound { log with written := log.written ++ [message] } where
  once pre frame post heq := eq_nil_of_append_singleton (hmay.noClose frame) heq
  fifo := by
    rw [DriverLog.application_append]
    split
    · exact hmay.inOrder ‹_›
    · exact h.fifo
  emptied frame cause rest hclose hcauses hdrains _ := by
    rw [DriverLog.application_append]
    rcases mem_append.1 hclose with hclose | hclose
    · exact absurd hclose (hmay.noClose frame)
    · obtain rfl := mem_singleton.1 hclose
      exact hmay.emptied frame cause rest rfl hcauses hdrains
  listens := h.listens

theorem DriverLog.Sound.answered (h : log.Sound) (result : Except TungsteniteError Unit) :
    (log.answered result).Sound := by
  cases result with
  | ok _ => exact h
  | error error => exact { h with emptied := fun _ _ _ _ _ _ hfailed => nomatch hfailed }

def Concludes {α : Type} (P : α → DriverLog → Prop) : Except Exit α → DriverLog → Prop
  | .ok a, log => P a log
  | .error (.failed error), log => log.failed = some error
  | .error .exhausted, _ => True

theorem Drives.concludes_imp {α : Type} {p : Prog LinkAction (Except Exit α)} {P P' : α → DriverLog → Prop}
    (h : Drives p log (Concludes P)) (hP : ∀ a log', P a log' → P' a log') : Drives p log (Concludes P') := by
  refine h.imp fun r log' hr => ?_
  match r, hr with
  | .ok a, hr => exact hP a log' hr
  | .error (.failed _), hr => exact hr
  | .error .exhausted, _ => trivial

theorem Drives.attempt {α β : Type} {p : Prog LinkAction (Except Exit α)} {k : α → Prog LinkAction (Except Exit β)}
    {P : α → DriverLog → Prop} {Q : β → DriverLog → Prop} (h : Drives p log (Concludes P))
    (hk : ∀ a log', P a log' → Drives (k a) log' (Concludes Q)) : Drives (attempt p k) log (Concludes Q) := by
  refine h.bind fun r log' hr => ?_
  match r, hr with
  | .ok a, hr => exact hk a log' hr
  | .error (.failed error), hr => exact Drives.done hr
  | .error .exhausted, _ => exact Drives.done trivial

theorem Link.Tied.answered {s : Link} (h : Link.Tied { s with log := log } log) (result : Except TungsteniteError Unit) :
    Link.Tied { s with log := log.answered result } (log.answered result) := by
  cases result with
  | ok _ => exact h
  | error error => exact { h with log_eq := rfl, sound := h.sound.answered (.error error) }

theorem Drives.answered {a : LinkAction (Except TungsteniteError Unit)} {log₁ : DriverLog}
    (h : Drives (perform a) log fun result log' => log' = log₁.answered result) :
    Drives (perform a >>= fun result => pure (result.mapError Exit.failed)) log
      (Concludes fun _ log' => log' = log₁) := by
  refine h.bind fun result log' hlog => ?_
  subst hlog
  cases result with
  | ok _ | error error => exact Drives.done rfl

theorem drives_sendWithTimeout (timeout : ℕ) (hmay : log.MayWrite message) :
    Drives (sendWithTimeout message timeout) log
      (Concludes fun _ log' => log' = { log with written := log.written ++ [message] }) := by
  refine Drives.answered (drives_update fun i s r s' _ hexec htied _ => ?_)
  cases hexec
  obtain rfl := htied.log_eq
  refine ⟨rfl, Link.Tied.answered ?_ _⟩
  exact { htied with log_eq := rfl, sound := htied.sound.write hmay }

theorem drives_flushWithTimeout (timeout : ℕ) :
    Drives (flushWithTimeout timeout) log
      (Concludes fun _ log' => log' = { log with closeReplied := log.closeReplied || log.closeReceived }) := by
  refine Drives.answered (drives_update fun i s r s' _ hexec htied _ => ?_)
  cases hexec
  obtain rfl := htied.log_eq
  refine ⟨rfl, Link.Tied.answered ?_ _⟩
  exact { htied with log_eq := rfl, sound := { htied.sound with } }

end Actions

/-! ## Everyone else -/

section Environment

variable {s : Link} {log : DriverLog}

theorem Waiting.reserve_cases {T : Type} {waiting : Waiting} {i : LinkInput} {c c' : Channel T} {r : Channel.Reservation}
    (h : waiting.reserve i c = some (r, c')) : c' = c ∨ c' = { c with permits := c.permits + 1 } := by
  have hreserve : c.reserve.2 = c ∨ c.reserve.2 = { c with permits := c.permits + 1 } := by
    unfold Channel.reserve
    split_ifs
    · exact Or.inl rfl
    · exact Or.inl rfl
    · exact Or.inr rfl
  have hc' : c' = c.reserve.2 := by
    unfold Waiting.reserve at h
    split at h
    · rename_i heq
      cases h
      rw [heq]
    · rename_i heq
      split at h
      · cases h
        rw [heq]
      · cases h
    · cases h
    · exact (congrArg Prod.snd (Option.some.inj h)).symm
  rw [hc']
  exact hreserve

theorem reserve_exec {T β : Type} {waiting : Waiting} {i : LinkInput} {c : Channel T} {dropped : Bool}
    {f : Channel.Reservation × Channel T → β} {b : β}
    (h : (if dropped then none else (waiting.reserve i c).map f) = some b) : ¬dropped = true ∧
      ∃ r c', f (r, c') = b ∧ (c' = c ∨ c' = { c with permits := c.permits + 1 }) := by
  obtain ⟨hopen, h⟩ := Option.ite_none_left_eq_some.1 h
  obtain ⟨⟨r, c'⟩, hreserve, heq⟩ := Option.map_eq_some_iff.1 h
  exact ⟨hopen, r, c', heq, Waiting.reserve_cases hreserve⟩

theorem Channel.push_eq_some {T : Type} {c c' : Channel T} {x : T} (h : c.push x = some c') :
    c.permits ≠ 0 ∧ c' = { c with sent := c.sent ++ [x], permits := c.permits - 1 } := by
  obtain ⟨hpermit, heq⟩ := Option.ite_none_left_eq_some.1 h
  exact ⟨hpermit, (Option.some.inj heq).symm⟩

variable {message : WebSocketMessage}

theorem Link.Tied.pushOutbound (h : s.Tied log) (hmessage : message.isApplication = true)
    (hpermit : s.outbound.permits ≠ 0) :
    Link.Tied { s with outbound :=
      { s.outbound with sent := s.outbound.sent ++ [message], permits := s.outbound.permits - 1 } } log := by
  have hlength : (s.outbound.sent ++ [message]).length = s.outbound.sent.length + 1 := length_append
  exact { h with
    wf := by
      show s.outbound.received ≤ _
      rw [hlength]
      exact Nat.le_succ_of_le h.wf
    messages := by
      show log.messages = (s.outbound.sent ++ [message]).take s.outbound.received
      rw [take_append_of_le_length h.wf]
      exact h.messages
    application := fun m hm => (mem_append.1 hm).elim (h.application m) fun hm => mem_singleton.1 hm ▸ hmessage
    counted := fun n hn => by
      obtain ⟨hle, hmark⟩ := h.counted n hn
      exact ⟨by rw [hlength]; exact Nat.le_succ_of_le hle, hmark⟩
    outboundEnded := fun hended hclosed => absurd (h.dropped (h.outboundEnded hended hclosed).1).2.1 hpermit
    dropped := fun hdropped => absurd (h.dropped hdropped).2.1 hpermit
    marks := fun k hk => by
      rw [hlength]
      exact Nat.le_succ_of_le (h.marks k hk) }

theorem Link.Tied.mark (h : s.Tied log) : Link.Tied { s with marks := s.marks ++ [s.outbound.sent.length] } log where
  __ := h
  counted n hn := by
    obtain ⟨hle, k, hhead, hk⟩ := h.counted n hn
    obtain ⟨rest, hmarks⟩ := List.head?_eq_some_iff.1 hhead
    refine ⟨hle, k, ?_, hk⟩
    dsimp only
    rw [hmarks]
    rfl
  marks k hk := (mem_append.1 hk).elim (h.marks k) fun hk => (mem_singleton.1 hk).le
  closeMarked _ _ := concat_ne_nil _ _
  completionMarked _ _ := concat_ne_nil _ _

theorem Link.Tied.pushControl (h : s.Tied log) {command : ControlCommand} (hpermit : s.control.permits ≠ 0)
    (hmarked : ∀ frame, command = .close frame → s.marks ≠ []) :
    Link.Tied { s with control :=
      { s.control with sent := s.control.sent ++ [command], permits := s.control.permits - 1 } } log :=
  { h with
    commands := fun c hc => mem_append_left _ (h.commands c hc)
    controlEnded := fun hended hclosed => absurd (h.dropped (h.controlEnded hended hclosed).1).2.2 hpermit
    dropped := fun hdropped => absurd (h.dropped hdropped).2.2 hpermit
    closeMarked := fun frame hframe => (mem_append.1 hframe).elim (h.closeMarked frame) fun hframe =>
      hmarked frame (mem_singleton.1 hframe).symm }

theorem Link.markCompletion_senders (s : Link) : s.markCompletion.senders = s.senders := by
  unfold Link.markCompletion
  split
  · rfl
  · rfl

theorem Link.Tied.resolve (h : s.Tied log) (hnone : s.handler = none) (result : HandlerResult) :
    Link.Tied { s with handler := some result }.markCompletion log := by
  have hhandler : ∀ r, log.handlerResult = some r → some result = some r := fun r hr =>
    absurd ((h.handler r hr).symm.trans hnone) (Option.some_ne_none r)
  unfold Link.markCompletion
  split
  · exact { h.mark with
      handler := hhandler
      completionMarked := fun _ _ => concat_ne_nil _ _ }
  · rename_i hnot
    exact { h with handler := hhandler, completionMarked := fun hcompleted hzero => absurd ⟨hcompleted, hzero⟩ hnot }

theorem Link.Tied.fetchAdd (h : s.Tied log) {senders : SenderCount} (hsome : s.senders.publicSenders ≠ 0)
    (hsenders : senders.publicSenders ≠ 0) : Link.Tied { s with senders := senders } log :=
  { h with
    dropped := fun hdropped => absurd (h.dropped hdropped).1 hsome
    noSender := fun hnone => absurd (h.noSender hnone) hsome
    completionMarked := fun _ hzero => absurd hzero hsenders }

theorem Link.Tied.fetchSub (h : s.Tied log) (senders : SenderCount) (hsome : s.senders.publicSenders ≠ 0) :
    Link.Tied { s with senders := senders }.markCompletion log := by
  unfold Link.markCompletion
  split
  · exact { h.mark with
      dropped := fun hdropped => absurd (h.dropped hdropped).1 hsome
      noSender := fun hnone => absurd (h.noSender hnone) hsome
      completionMarked := fun _ _ => concat_ne_nil _ _ }
  · rename_i hnot
    exact { h with
      dropped := fun hdropped => absurd (h.dropped hdropped).1 hsome
      noSender := fun hnone => absurd (h.noSender hnone) hsome
      completionMarked := fun hcompleted hzero => absurd ⟨hcompleted, hzero⟩ hnot }

def LinkAction.ByOthers : {β : Type} → LinkAction β → Prop
  | _, .record _ | _, .reserveOutbound _ | _, .reserveControl _ | _, .pushControl _ | _, .beginShutdown
  | _, .resolve _ | _, .dropShared => True
  | _, .pushOutbound message => message.isApplication = true
  | _, _ => False

theorem LinkAction.ByOthers.tied {β : Type} {a : LinkAction β} (ha : a.ByOthers) {i : LinkInput} {r : β} {s' : Link}
    (hexec : Link.exec a i s = some (r, s')) (h : s.Tied log) : s'.Tied log ∧ s'.senders = s.senders := by
  cases a with
  | record | beginShutdown =>
    cases hexec
    exact ⟨{ h with }, rfl⟩
  | reserveOutbound waiting | reserveControl waiting =>
    obtain ⟨hopen, r, c, heq, hc⟩ := reserve_exec hexec
    cases heq
    rcases hc with rfl | rfl
    · exact ⟨h, rfl⟩
    · exact ⟨{ h with dropped := fun hdropped => absurd hdropped hopen }, rfl⟩
  | pushOutbound message =>
    obtain ⟨c, hpush, heq⟩ := Option.map_eq_some_iff.1 hexec
    cases heq
    obtain ⟨hpermit, rfl⟩ := Channel.push_eq_some hpush
    exact ⟨h.pushOutbound ha hpermit, rfl⟩
  | pushControl command =>
    obtain ⟨c, hpush, heq⟩ := Option.map_eq_some_iff.1 hexec
    cases heq
    obtain ⟨hpermit, rfl⟩ := Channel.push_eq_some hpush
    cases command with
    | close frame => exact ⟨h.mark.pushControl hpermit fun _ _ => concat_ne_nil _ _, rfl⟩
    | _ => exact ⟨h.pushControl hpermit nofun, rfl⟩
  | resolve result =>
    obtain ⟨hnone, hexec⟩ := Option.ite_none_left_eq_some.1 hexec
    cases hexec
    exact ⟨h.resolve (Option.not_isSome_iff_eq_none.1 hnone) result, Link.markCompletion_senders _⟩
  | dropShared =>
    obtain ⟨hgone, hexec⟩ := Option.ite_none_right_eq_some.1 hexec
    cases hexec
    exact ⟨{ h with
      outboundEnded := fun hended hclosed => ⟨rfl, (h.outboundEnded hended hclosed).2⟩
      controlEnded := fun hended hclosed => ⟨rfl, (h.controlEnded hended hclosed).2⟩
      dropped := fun _ => hgone }, rfl⟩
  | _ => cases ha

theorem LinkAction.ByOthers.held {β : Type} (a : LinkAction β) (i : LinkInput) (s : Link) (r : β) (s' : Link)
    (d : Multiset DriverLog × Multiset (ℕ × ℕ)) (ha : a.ByOthers) (hexec : Link.exec a i s = some (r, s'))
    (h : s.Held d) : s'.Held d := by
  obtain ⟨⟨log, hlog, htied⟩, htracked⟩ := h
  obtain ⟨htied', hsenders⟩ := ha.tied hexec htied
  exact ⟨⟨log, hlog, htied'⟩, hsenders ▸ htracked⟩

/-! ### The programs of others -/

theorem byOthers_trySendApplication (hmessage : message.isApplication = true) :
    (SocketShared.trySendApplication message).All LinkAction.ByOthers := by
  refine ⟨trivial, fun r => ?_⟩
  cases r with
  | permit => exact ⟨hmessage, fun _ => trivial⟩
  | full => exact ⟨trivial, fun _ => trivial⟩
  | closed => trivial

theorem byOthers_trySendControl (command : ControlCommand) : (trySendControl command).All LinkAction.ByOthers := by
  refine ⟨trivial, fun r => ?_⟩
  cases r with
  | permit | full => exact ⟨trivial, fun _ => trivial⟩
  | closed => trivial

theorem byOthers_command (command : ControlCommand) :
    (InternalWebSocketSender.command command).All LinkAction.ByOthers := by
  refine ⟨trivial, fun r => ?_⟩
  cases r with
  | permit => exact ⟨trivial, fun _ => trivial⟩
  | full | closed => trivial

variable {shared : SocketShared}

theorem byOthers_sendControl (command : ControlCommand) : (shared.sendControl command).All LinkAction.ByOthers := by
  refine ⟨trivial, fun r => ?_⟩
  cases r with
  | permit | full => exact ⟨trivial, fun _ => trivial⟩
  | closed => trivial

theorem byOthers_sendApplication (hmessage : message.isApplication = true) :
    (shared.sendApplication message).All LinkAction.ByOthers := by
  unfold SocketShared.sendApplication
  split
  · refine ⟨trivial, fun r => ?_⟩
    cases r with
    | permit => exact ⟨hmessage, fun _ => trivial⟩
    | full => exact ⟨trivial, fun _ => trivial⟩
    | closed => trivial
  · exact byOthers_trySendApplication hmessage
  · refine (byOthers_trySendApplication hmessage).bind fun r => ?_
    split
    · refine (byOthers_sendControl _).bind fun r => ?_
      split
      · trivial
      · trivial
    · trivial

theorem byOthers_trySend (message : WebSocketMessage) :
    (WebSocketSender.trySend message).All LinkAction.ByOthers := by
  cases message with
  | ping payload | pong payload | close frame => exact byOthers_trySendControl _
  | _ => exact byOthers_trySendApplication rfl

theorem byOthers_send (message : WebSocketMessage) :
    (WebSocketSender.send shared message).All LinkAction.ByOthers := by
  cases message with
  | ping payload | pong payload | close frame => exact byOthers_sendControl _
  | _ => exact byOthers_sendApplication rfl

theorem byOthers_internalSend (message : WebSocketMessage) :
    (InternalWebSocketSender.send shared message).All LinkAction.ByOthers := by
  cases message with
  | ping payload | pong payload | close frame => exact byOthers_command _
  | _ => exact byOthers_sendApplication rfl

theorem byOthers_enqueue (hdata : (brokerPayload message).isSome) :
    (InternalWebSocketSender.enqueue shared message).All LinkAction.ByOthers := by
  have hmessage : message.isApplication = true := by
    cases message with
    | text _ | binary _ => rfl
    | _ => cases hdata
  refine (byOthers_sendApplication hmessage).bind fun r => ?_
  split <;> trivial

theorem keeps_background {α : Type} {p : Prog LinkAction α} (hp : p.All LinkAction.ByOthers) :
    (background p).Keeps linkMachine Link.Held () 0 fun r _ => r = none :=
  Keeps.bind ((hp.keeps LinkAction.ByOthers.held 0).imp fun _ _ _ => rfl)

theorem keeps_publish (count ordinal : ℕ) :
    (background (perform (.publish count ordinal))).Keeps linkMachine Link.Held () (0, {(count, ordinal)})
      fun r _ => r = none := by
  intro i s _ s' m hexec hheld
  cases hexec
  obtain ⟨⟨log, hlog, htied⟩, htracked⟩ := hheld
  refine ⟨0, ⟨⟨log, hlog, { htied with }⟩, ?_⟩, rfl⟩
  rw [zero_add]
  exact htracked.send

theorem keeps_update {p : Prog SenderAction Unit} (hp : p = WebSocketSender.clone ∨ p = WebSocketSender.drop) :
    (background (p.interpret fun a => perform (SenderAction.onLink a))).Keeps linkMachine Link.Held () 0
      fun r _ => r = none := by
  rcases hp with rfl | rfl
  all_goals
    intro i s update s' m hexec ⟨⟨log, hlog, htied⟩, htracked⟩
    obtain ⟨⟨fetched, senders⟩, hfetch, heq⟩ := Option.map_eq_some_iff.1 hexec
    cases heq
    obtain ⟨hsome, hfetch⟩ := Option.ite_none_left_eq_some.1 hfetch
    cases hfetch
    rw [zero_add] at htracked
    refine ⟨(0, {(_, s.senders.updates + 1)}), ⟨⟨log, hlog, ?_⟩, ?_⟩, keeps_publish _ _⟩
  · exact htied.fetchAdd hsome (Nat.succ_ne_zero _)
  · exact htracked.update hsome
  · exact htied.fetchSub _ hsome
  · rw [Link.markCompletion_senders]
    exact htracked.update hsome

theorem environment_keeps {s : Link} {l : Unit} {p : Prog LinkAction (Option DriverOutcome)}
    (h : Environment shared s l p) : p.Keeps linkMachine Link.Held l 0 fun r _ => r = none := by
  cases h with
  | trySend message => exact keeps_background (byOthers_trySend message)
  | send message => exact keeps_background (byOthers_send message)
  | internalSend message => exact keeps_background (byOthers_internalSend message)
  | enqueue message hdata => exact keeps_background (byOthers_enqueue hdata)
  | disconnect code reason => exact keeps_background (byOthers_command _)
  | clone => exact keeps_update (.inl rfl)
  | drop => exact keeps_update (.inr rfl)
  | beginShutdown | resolve result | dropShared => exact keeps_background ⟨trivial, fun _ => trivial⟩

end Environment

end RustRest
