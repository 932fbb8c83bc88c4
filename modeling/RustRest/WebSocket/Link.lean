import RustRest.Lib.Channel
import RustRest.WebSocket.Hub
import RustRest.WebSocket.Senders

/-!
# What a driver and its senders share

The driver of a connection and the handles to it run at the same time. They share two bounded channels, of application
messages and of control commands, the watched number of senders, the watched shutdown flag and the result of the handler.
Each access is one atomic action, so that what others do can come between any two of them.
-/

namespace RustRest

open Threads Threads.Prog

/-! ## Commands and close causes -/

inductive WebSocketCloseInitiator where
  | ofLocal
  | peer
  | runtime
  | timeout
  | protocolError
  | handler
  deriving DecidableEq

structure WebSocketCloseInfo where
  code : ℕ
  reason : String
  initiator : WebSocketCloseInitiator
  clean : Bool
  deriving DecidableEq

def closeInfo (frame : Option CloseFrame) (initiator : WebSocketCloseInitiator) (clean : Bool) : WebSocketCloseInfo where
  code := frame.elim 1005 CloseFrame.code
  reason := frame.elim "" CloseFrame.reason
  initiator := initiator
  clean := clean

def peerDisconnectInfo : WebSocketCloseInfo := ⟨1006, "", .peer, false⟩

/-- What the application asks of the driver. -/
inductive ControlCommand where
  | ping (payload : List UInt8)
  | pong (payload : List UInt8)
  | close (frame : Option CloseFrame)
  | disconnect (frame : Option CloseFrame)
  deriving DecidableEq

inductive HandlerResult where
  | completed
  | failed
  deriving DecidableEq

/-- Why the driver closes a connection. -/
inductive CloseCause where
  | command (frame : Option CloseFrame)
  | disconnect (frame : Option CloseFrame)
  | shutdown
  | pongTimeout
  | lifetimeEnded
  | idle
  | rateLimit
  | slowHandler
  | messageTooLong
  | handlerFailed
  | completed
  | peer (frame : Option CloseFrame)
  deriving DecidableEq

namespace CloseCause

def frame : CloseCause → Option CloseFrame
  | command frame => frame
  | disconnect frame => frame
  | shutdown => some ⟨1001, "apagado del servidor"⟩
  | pongTimeout => some ⟨1001, "Tiempo de espera de Pong agotado"⟩
  | lifetimeEnded => some ⟨1001, "Duracion maxima de conexion agotada"⟩
  | idle => some ⟨1001, "Tiempo de inactividad agotado"⟩
  | rateLimit => some ⟨1008, "Limite de mensajes WebSocket excedido"⟩
  | slowHandler => some ⟨1013, "El handler WebSocket no consume mensajes a tiempo"⟩
  | messageTooLong => some ⟨1009, "Mensaje WebSocket demasiado grande"⟩
  | handlerFailed => some ⟨1011, "El handler WebSocket fallo"⟩
  | completed => some ⟨1000, ""⟩
  | peer frame => frame

/-- Who closes. -/
def initiator : CloseCause → WebSocketCloseInitiator
  | command _ => .ofLocal
  | disconnect _ | shutdown | rateLimit | slowHandler => .runtime
  | pongTimeout | lifetimeEnded | idle => .timeout
  | messageTooLong => .protocolError
  | handlerFailed | completed => .handler
  | peer _ => .peer

def drains : CloseCause → Bool
  | command _ | completed => true
  | _ => false

end CloseCause

/-! ## Errors of the transport -/

inductive ErrorKind where
  | timedOut
  | connectionClosed
  | messageTooLong
  | other
  deriving DecidableEq

/-- An error of the transport, with its text. -/
structure TungsteniteError where
  kind : ErrorKind
  text : String
  deriving DecidableEq

/-- The error of a write that took too long. -/
def transportWriteTimeout : TungsteniteError :=
  ⟨.timedOut, "IO error: tiempo limite de escritura WebSocket agotado"⟩

inductive InboundDelivery where
  | delivered
  | receiverClosed
  | timedOut
  deriving DecidableEq

/-! ## Messages -/

namespace WebSocketMessage

def len : WebSocketMessage → ℕ
  | .text value => (utf8 value).length
  | .binary bytes => bytes.length
  | .ping payload => payload.length
  | .pong payload => payload.length
  | .close closing => (closing.elim [] fun closing => utf8 closing.reason).length
  | .frame raw => raw.length

def isApplication : WebSocketMessage → Bool
  | text _ | binary _ | frame _ => true
  | _ => false

def isData : WebSocketMessage → Bool
  | text _ | binary _ => true
  | _ => false

def applicationMessageType : WebSocketMessage → String
  | text _ => "text"
  | _ => "binary"

end WebSocketMessage

/-- What is reported to the runtime. -/
inductive RuntimeRecord where
  | closing
  | heartbeatTimeout
  | message (outbound : Bool) (bytes : ℕ) (type : String)
  | saturatedSend (outbound : Bool)
  | handlerFailed
  deriving DecidableEq

/-! ## The variables of the driver -/

structure MessageRateLimit where
  maxMessages : ℕ
  interval : ℕ
  deriving DecidableEq

structure DriverConfig where
  sendTimeout : ℕ
  closeTimeout : ℕ
  pongTimeout : ℕ
  pingInterval : Option ℕ
  idleTimeout : Option ℕ
  maxConnectionLifetime : Option ℕ
  messageRateLimit : Option MessageRateLimit
  lastInstant : ℕ
  deriving DecidableEq

/-- The variables of the driver. -/
structure DriverState where
  closeSent : Bool
  closeReceived : Bool
  closeInfo : Option WebSocketCloseInfo
  closeDeadline : Option ℕ
  pendingPing : Option (List UInt8 × ℕ)
  lastInboundFrame : ℕ
  lastApplicationMessage : ℕ
  openedAt : ℕ
  nextPingToken : ℕ
  messageWindowStarted : ℕ
  messageCount : ℕ
  deriving DecidableEq

def DriverState.new (now : ℕ) : DriverState := ⟨false, false, none, none, none, now, now, now, 1, now, 0⟩

/-- The variables of `drive`. -/
structure Driver where
  state : DriverState
  controlOpen : Bool
  outboundOpen : Bool
  handlerCompleted : Bool
  senderTrackingClosed : Bool
  deriving DecidableEq

/-- How a connection ended. -/
structure DriverOutcome where
  closeInfo : WebSocketCloseInfo
  handlerCompleted : Bool
  deriving DecidableEq

namespace DriverState

variable (state : DriverState) (config : DriverConfig)

def checkedAdd (config : DriverConfig) (instant duration : ℕ) : Option ℕ :=
  if instant + duration ≤ config.lastInstant then some (instant + duration) else none

def pingDeadline : Option ℕ :=
  if state.pendingPing.isSome then none else config.pingInterval.bind (checkedAdd config state.lastInboundFrame)

def pongDeadline : Option ℕ := state.pendingPing.bind fun ping => checkedAdd config ping.2 config.pongTimeout

def idleDeadline : Option ℕ := config.idleTimeout.bind (checkedAdd config state.lastApplicationMessage)

def lifetimeDeadline : Option ℕ := config.maxConnectionLifetime.bind (checkedAdd config state.openedAt)

/-- `message_rate_exceeded`, a fixed window. -/
def messageRateExceeded (now : ℕ) : Bool × DriverState :=
  match config.messageRateLimit with
  | none => (false, state)
  | some limit =>
    let state := if now - state.messageWindowStarted ≥ limit.interval then
      { state with messageWindowStarted := now, messageCount := 0 } else state
    if state.messageCount ≥ limit.maxMessages then (true, state)
    else (false, { state with messageCount := state.messageCount + 1 })

/-- The cause noted first; clean if both sides closed. -/
def outcome (handlerCompleted : Bool) : DriverOutcome where
  closeInfo := { state.closeInfo.getD peerDisconnectInfo with clean := state.closeSent && state.closeReceived }
  handlerCompleted := handlerCompleted

end DriverState

/-! ## The shared state -/

structure DriverLog where
  /-- What it has written to the transport, or tried to. -/
  written : List WebSocketMessage
  /-- The application messages and the commands it has taken from the channels. -/
  messages : List WebSocketMessage
  commands : List ControlCommand
  /-- Why it closes, in the order in which it found the causes. -/
  causes : List CloseCause
  /-- How many messages had been enqueued when it counted those it would still write. -/
  counted : Option ℕ
  /-- A Close was received, and the transport has sent the reply to it. -/
  closeReceived : Bool
  closeReplied : Bool
  /-- The error of the transport that ended the run. -/
  failed : Option TungsteniteError
  /-- The result of the handler it has seen, and that it has seen no sender left. -/
  handlerResult : Option HandlerResult
  noSender : Bool
  /-- It has closed the channels, or found the end of one. -/
  closed : Bool
  controlEnded : Bool
  outboundEnded : Bool
  /-- Before a Close, it once waited without listening to a channel that was not empty. -/
  deaf : Bool

/-- The state that a driver shares with its senders. -/
structure Link where
  outbound : Channel WebSocketMessage
  control : Channel ControlCommand
  senders : SenderCount
  /-- The number of senders was published and not yet looked at. -/
  countChanged : Bool
  /-- All handles are gone. -/
  dropped : Bool
  shutdown : Bool
  handler : Option HandlerResult
  records : List RuntimeRecord
  /-- How many messages had been enqueued at each Close of the application, and when the handler had completed and no
  sender was left. -/
  marks : List ℕ
  log : DriverLog

/-- `channel_pair`, and a driver that has done nothing. -/
def Link.new (outboundCapacity : ℕ) : Link where
  outbound := .new (max outboundCapacity 1)
  control := .new 8
  senders := .new
  countChanged := false
  dropped := false
  shutdown := false
  handler := none
  records := []
  marks := []
  log := ⟨[], [], [], [], none, false, false, none, none, false, false, false, false, false⟩

/-! ## Actions -/

inductive Branch where
  | shutdown
  | control
  | closeDeadline
  | pongDeadline
  | lifetimeDeadline
  | idleDeadline
  | outbound
  | incoming (item : Option (Except TungsteniteError WebSocketMessage))
  | pingDeadline
  | handlerDone
  | senderCount

/-- How a branch of the `select!` ends. -/
inductive DriverEvent where
  | shutdown
  | control (command : Option ControlCommand)
  | closeDeadline
  | pongDeadline
  | lifetimeDeadline
  | idleDeadline
  | outbound (message : Option WebSocketMessage)
  | incoming (item : Option (Except TungsteniteError WebSocketMessage))
  | pingDeadline
  | handlerDone (result : HandlerResult)
  | senderCount (changed : Bool)

/-- How long a sender waits for room. -/
inductive Waiting where
  | no
  | upTo (timeout : ℕ)
  | forever

/-- The atomic actions: first those of the driver, then those of others. -/
inductive LinkAction : Type → Type where
  | now : LinkAction ℕ
  | shutdownRequested : LinkAction Bool
  | senderCount : LinkAction ℕ
  | select (config : DriverConfig) (d : Driver) : LinkAction DriverEvent
  | closeControl : LinkAction Unit
  | closeOutbound : LinkAction Unit
  | tryRecvControl : LinkAction (Option ControlCommand)
  | outboundLen : LinkAction ℕ
  | tryRecvOutbound : LinkAction (Option WebSocketMessage)
  | send (message : WebSocketMessage) (timeout : ℕ) : LinkAction (Except TungsteniteError Unit)
  | flush (timeout : ℕ) : LinkAction (Except TungsteniteError Unit)
  | deliver (message : WebSocketMessage) (timeout : ℕ) : LinkAction InboundDelivery
  | note (cause : CloseCause) : LinkAction Unit
  | record (record : RuntimeRecord) : LinkAction Unit
  | reserveOutbound (waiting : Waiting) : LinkAction Channel.Reservation
  | pushOutbound (message : WebSocketMessage) : LinkAction Unit
  | reserveControl (waiting : Waiting) : LinkAction Channel.Reservation
  | pushControl (command : ControlCommand) : LinkAction Unit
  | fetchAdd : LinkAction SenderUpdate
  | fetchSub : LinkAction SenderUpdate
  | publish (count ordinal : ℕ) : LinkAction Unit
  | beginShutdown : LinkAction Unit
  | resolve (result : HandlerResult) : LinkAction Unit
  | dropShared : LinkAction Unit

structure LinkInput where
  now : ℕ
  branch : Branch
  transport : Except TungsteniteError Unit
  elapsed : ℕ
  receiverClosed : Bool

/-- How the transport ends within a timeout. -/
def LinkInput.result (i : LinkInput) (timeout : ℕ) : Except TungsteniteError Unit :=
  if timeout ≤ i.elapsed then .error transportWriteTimeout else i.transport

/-- `deliver_inbound`. -/
def LinkInput.delivery (i : LinkInput) (timeout : ℕ) : InboundDelivery :=
  if i.receiverClosed then .receiverClosed else if timeout ≤ i.elapsed then .timedOut else .delivered

/-- A deadline that has passed. -/
def LinkInput.due (i : LinkInput) (deadline : Option ℕ) : Bool := deadline.any (· ≤ i.now)

def Waiting.reserve {T : Type} (waiting : Waiting) (i : LinkInput) (c : Channel T) :
    Option (Channel.Reservation × Channel T) :=
  match c.reserve, waiting with
  | (.full, c), .no => some (.full, c)
  | (.full, c), .upTo timeout => if timeout ≤ i.elapsed then some (.full, c) else none
  | (.full, _), .forever => none
  | r, _ => some r

def TungsteniteError.isFatal (error : TungsteniteError) (closeSent : Bool) : Bool :=
  match error.kind with
  | .messageTooLong => false
  | .connectionClosed => !closeSent
  | _ => true

namespace DriverLog

variable (log : DriverLog)

/-- After the transport has answered. -/
def answered (result : Except TungsteniteError Unit) : DriverLog :=
  match result with
  | .ok _ => log
  | .error error => { log with failed := some error }

/-- After something came from the transport. -/
def heard (item : Option (Except TungsteniteError WebSocketMessage)) (closeSent : Bool) : DriverLog :=
  match item with
  | some (.ok (.close _)) => { log with closeReceived := true }
  | some (.error error) =>
    if error.isFatal closeSent then { log with failed := some error }
    else if error.kind = .connectionClosed then { log with closeReceived := true }
    else log
  | _ => log

end DriverLog

namespace Link

variable (s : Link)

def waiting (d : Driver) : Link :=
  { s with log := { s.log with
    deaf := s.log.deaf || !d.state.closeSent &&
      (!d.controlOpen && !s.control.queued.isEmpty || !d.outboundOpen && !s.outbound.queued.isEmpty) } }

def branch (config : DriverConfig) (d : Driver) (i : LinkInput) : Option (DriverEvent × Link) :=
  match i.branch with
  | .shutdown => if !d.state.closeSent && s.shutdown then some (.shutdown, s) else none
  | .control =>
    if d.controlOpen then
      (s.control.recv s.dropped).map fun x => (.control x.1,
        { s with
          control := x.2
          log := { s.log with
            commands := s.log.commands ++ x.1.toList
            controlEnded := s.log.controlEnded || x.1.isNone } })
    else none
  | .closeDeadline => if d.state.closeSent && i.due d.state.closeDeadline then some (.closeDeadline, s) else none
  | .pongDeadline =>
    if !d.state.closeSent && i.due (d.state.pongDeadline config) then some (.pongDeadline, s) else none
  | .lifetimeDeadline =>
    if !d.state.closeSent && i.due (d.state.lifetimeDeadline config) then some (.lifetimeDeadline, s) else none
  | .idleDeadline =>
    if !d.state.closeSent && i.due (d.state.idleDeadline config) then some (.idleDeadline, s) else none
  | .outbound =>
    if d.outboundOpen && !d.state.closeSent then
      (s.outbound.recv s.dropped).map fun x => (.outbound x.1,
        { s with
          outbound := x.2
          log := { s.log with
            messages := s.log.messages ++ x.1.toList
            outboundEnded := s.log.outboundEnded || x.1.isNone } })
    else none
  | .incoming item => some (.incoming item, { s with log := s.log.heard item d.state.closeSent })
  | .pingDeadline =>
    if !d.state.closeSent && i.due (d.state.pingDeadline config) then some (.pingDeadline, s) else none
  | .handlerDone =>
    if !d.handlerCompleted then
      s.handler.map fun result => (.handlerDone result, { s with log := { s.log with handlerResult := some result } })
    else none
  | .senderCount =>
    if d.handlerCompleted && !d.state.closeSent then
      if s.countChanged then some (.senderCount true, { s with countChanged := false })
      else if s.dropped then some (.senderCount false, { s with log := { s.log with noSender := true } })
      else none
    else none

def markCompletion : Link :=
  if s.handler = some .completed ∧ s.senders.publicSenders = 0 then
    { s with marks := s.marks ++ [s.outbound.sent.length] }
  else s

def exec : {β : Type} → LinkAction β → LinkInput → Link → Option (β × Link)
  | _, .now, i, s => some (i.now, s)
  | _, .shutdownRequested, _, s => some (s.shutdown, s)
  | _, .senderCount, _, s => some (s.senders.published,
      { s with
        countChanged := false
        log := { s.log with noSender := s.log.noSender || s.senders.published = 0 } })
  | _, .select config d, i, s => (s.waiting d).branch config d i
  | _, .closeControl, _, s => some ((), { s with control := s.control.close, log := { s.log with closed := true } })
  | _, .closeOutbound, _, s => some ((), { s with outbound := s.outbound.close, log := { s.log with closed := true } })
  | _, .tryRecvControl, _, s =>
    let x := s.control.tryRecv
    some (x.1, { s with control := x.2, log := { s.log with commands := s.log.commands ++ x.1.toList } })
  | _, .outboundLen, _, s => some (s.outbound.queued.length,
      { s with log := { s.log with counted := some s.outbound.sent.length } })
  | _, .tryRecvOutbound, _, s =>
    let x := s.outbound.tryRecv
    some (x.1, { s with outbound := x.2, log := { s.log with messages := s.log.messages ++ x.1.toList } })
  | _, .send message timeout, i, s =>
    some (i.result timeout,
      { s with log := { s.log with written := s.log.written ++ [message] }.answered (i.result timeout) })
  | _, .flush timeout, i, s =>
    some (i.result timeout,
      { s with log :=
        { s.log with closeReplied := s.log.closeReplied || s.log.closeReceived }.answered (i.result timeout) })
  | _, .deliver _ timeout, i, s => some (i.delivery timeout, s)
  | _, .note cause, _, s => some ((), { s with log := { s.log with causes := s.log.causes ++ [cause] } })
  | _, .record record, _, s => some ((), { s with records := s.records ++ [record] })
  | _, .reserveOutbound waiting, i, s =>
    if s.dropped then none else (waiting.reserve i s.outbound).map fun x => (x.1, { s with outbound := x.2 })
  | _, .pushOutbound message, _, s => (s.outbound.push message).map fun c => ((), { s with outbound := c })
  | _, .reserveControl waiting, i, s =>
    if s.dropped then none else (waiting.reserve i s.control).map fun x => (x.1, { s with control := x.2 })
  | _, .pushControl command, _, s =>
    (s.control.push command).map fun c => ((),
      { s with
        control := c
        marks := match command with
          | .close _ => s.marks ++ [s.outbound.sent.length]
          | _ => s.marks })
  | _, .fetchAdd, _, s => (SenderAction.fetchAdd.exec s.senders).map fun x => (x.1, { s with senders := x.2 })
  | _, .fetchSub, _, s =>
    (SenderAction.fetchSub.exec s.senders).map fun x => (x.1, { s with senders := x.2 }.markCompletion)
  | _, .publish count ordinal, _, s =>
    ((SenderAction.send count ordinal).exec s.senders).map fun x =>
      (x.1, { s with senders := x.2, countChanged := true })
  | _, .beginShutdown, _, s => some ((), { s with shutdown := true })
  | _, .resolve result, _, s =>
    if s.handler.isSome then none else some ((), { s with handler := some result }.markCompletion)
  | _, .dropShared, _, s =>
    if s.senders.publicSenders = 0 ∧ s.outbound.permits = 0 ∧ s.control.permits = 0 then
      some ((), { s with dropped := true })
    else none

end Link

def linkMachine : Machine LinkAction Unit LinkInput Link where
  exec a _ i s := Link.exec a i s

/-! ## Senders -/

inductive BackpressurePolicy where
  | wait
  | reject
  | disconnect
  deriving DecidableEq

/-- What `SocketShared` has of the configuration. -/
structure SocketShared where
  backpressurePolicy : BackpressurePolicy
  sendTimeout : ℕ

/-- `WsError`, as far as a send returns it. -/
inductive SendError where
  | capacity
  | closed
  | timeout
  deriving DecidableEq

namespace SocketShared

variable (shared : SocketShared)

/-- `try_send_application`: without waiting. -/
def trySendApplication (message : WebSocketMessage) : Prog LinkAction (Except SendError Unit) := do
  match ← perform (.reserveOutbound .no) with
  | .full => do
    perform (.record (.saturatedSend true))
    pure (.error .capacity)
  | .closed => pure (.error .closed)
  | .permit => do
    perform (.pushOutbound message)
    pure (.ok ())

/-- A control command is queued. -/
def sendControl (command : ControlCommand) : Prog LinkAction (Except SendError Unit) := do
  match ← perform (.reserveControl (.upTo shared.sendTimeout)) with
  | .full => do
    perform (.record (.saturatedSend true))
    pure (.error .timeout)
  | .closed => pure (.error .closed)
  | .permit => do
    perform (.pushControl command)
    pure (.ok ())

def disconnectSlowConsumer : Prog LinkAction (Except SendError Unit) :=
  shared.sendControl (.disconnect (some ⟨1013, "Cliente WebSocket demasiado lento"⟩))

/-- `send_application`: waits as the policy says. -/
def sendApplication (message : WebSocketMessage) : Prog LinkAction (Except SendError Unit) :=
  match shared.backpressurePolicy with
  | .wait => do
    match ← perform (.reserveOutbound (.upTo shared.sendTimeout)) with
    | .full => do
      perform (.record (.saturatedSend true))
      pure (.error .timeout)
    | .closed => pure (.error .closed)
    | .permit => do
      perform (.pushOutbound message)
      pure (.ok ())
  | .reject => trySendApplication message
  | .disconnect => do
    match ← trySendApplication message with
    | .error .capacity => do
      match ← shared.disconnectSlowConsumer with
      | .error error => pure (.error error)
      | .ok _ => pure (.error .capacity)
    | result => pure result

end SocketShared

def trySendControl (command : ControlCommand) : Prog LinkAction (Except SendError Unit) := do
  match ← perform (.reserveControl .no) with
  | .full => do
    perform (.record (.saturatedSend true))
    pure (.error .capacity)
  | .closed => pure (.error .closed)
  | .permit => do
    perform (.pushControl command)
    pure (.ok ())

/-- `WebSocketSender::try_send`. -/
def WebSocketSender.trySend : WebSocketMessage → Prog LinkAction (Except SendError Unit)
  | .ping payload => trySendControl (.ping payload)
  | .pong payload => trySendControl (.pong payload)
  | .close frame => trySendControl (.close frame)
  | message => SocketShared.trySendApplication message

/-- `WebSocketSender::send`. -/
def WebSocketSender.send (shared : SocketShared) : WebSocketMessage → Prog LinkAction (Except SendError Unit)
  | .ping payload => shared.sendControl (.ping payload)
  | .pong payload => shared.sendControl (.pong payload)
  | .close frame => shared.sendControl (.close frame)
  | message => shared.sendApplication message

namespace InternalWebSocketSender

def command (command : ControlCommand) : Prog LinkAction (Except SendError Unit) := do
  match ← perform (.reserveControl .forever) with
  | .permit => do
    perform (.pushControl command)
    pure (.ok ())
  | _ => pure (.error .closed)

def send (shared : SocketShared) : WebSocketMessage → Prog LinkAction (Except SendError Unit)
  | .ping payload => command (.ping payload)
  | .pong payload => command (.pong payload)
  | .close frame => command (.disconnect frame)
  | message => shared.sendApplication message

/-- A broadcast to one connection. -/
def enqueue (shared : SocketShared) (message : WebSocketMessage) : Prog LinkAction LocalEnqueueOutcome := do
  match ← shared.sendApplication message with
  | .ok _ => pure .enqueued
  | .error .closed => pure .disconnected
  | .error .capacity => pure (if shared.backpressurePolicy = .disconnect then .disconnected else .rejected)
  | .error _ => pure .rejected

def disconnect (code : ℕ) (reason : String) : Prog LinkAction (Except SendError Unit) :=
  command (.disconnect (some ⟨code, reason⟩))

end InternalWebSocketSender

def SenderAction.onLink : {β : Type} → SenderAction β → LinkAction β
  | _, .fetchAdd => .fetchAdd
  | _, .fetchSub => .fetchSub
  | _, .send count ordinal => .publish count ordinal

/-- A program whose result nobody waits for. -/
def background {α : Type} (p : Prog LinkAction α) : Prog LinkAction (Option DriverOutcome) := p >>= fun _ => pure none

inductive Environment (shared : SocketShared) : Link → Unit → Prog LinkAction (Option DriverOutcome) → Prop where
  | trySend {s l} (message) : Environment shared s l (background (WebSocketSender.trySend message))
  | send {s l} (message) : Environment shared s l (background (WebSocketSender.send shared message))
  | internalSend {s l} (message) : Environment shared s l (background (InternalWebSocketSender.send shared message))
  | enqueue {s l} (message) : (brokerPayload message).isSome →
      Environment shared s l (background (InternalWebSocketSender.enqueue shared message))
  | disconnect {s l} (code reason) : Environment shared s l (background (InternalWebSocketSender.disconnect code reason))
  | clone {s l} :
      Environment shared s l (background (WebSocketSender.clone.interpret fun a => perform (SenderAction.onLink a)))
  | drop {s l} :
      Environment shared s l (background (WebSocketSender.drop.interpret fun a => perform (SenderAction.onLink a)))
  | beginShutdown {s l} : Environment shared s l (background (perform .beginShutdown))
  | resolve {s l} (result) : Environment shared s l (background (perform (.resolve result)))
  | dropShared {s l} : Environment shared s l (background (perform .dropShared))

end RustRest
