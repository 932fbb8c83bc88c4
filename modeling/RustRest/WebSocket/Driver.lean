import RustRest.WebSocket.Link

/-!
# The driver of a connection

`websocket/driver.rs`: one task reads and writes the transport of a connection. It waits for whatever comes first, a
command, a message, a frame, a deadline or the end of the handler, and closes the connection for the first cause that
comes up. The loop runs as long as it is given steps.
-/

namespace RustRest

open Threads Threads.Prog

/-! ## The transport -/

inductive Exit where
  | failed (error : TungsteniteError)
  | exhausted

/-- The operator `?`. -/
def attempt {α β : Type} (p : Prog LinkAction (Except Exit α)) (k : α → Prog LinkAction (Except Exit β)) :
    Prog LinkAction (Except Exit β) := do
  match ← p with
  | .ok a => k a
  | .error exit => pure (.error exit)

/-- What an error of the transport means. -/
def protocolOutcome (error : TungsteniteError) : DriverOutcome where
  closeInfo := ⟨1006, error.text, if error.kind = .timedOut then .timeout else .protocolError, false⟩
  handlerCompleted := false

/-- A frame, or the connection ends. -/
def sendWithTimeout (message : WebSocketMessage) (timeout : ℕ) : Prog LinkAction (Except Exit Unit) := do
  let result ← perform (.send message timeout)
  pure (result.mapError .failed)

/-- The same for a flush. -/
def flushWithTimeout (timeout : ℕ) : Prog LinkAction (Except Exit Unit) := do
  let result ← perform (.flush timeout)
  pure (result.mapError .failed)

def ControlCommand.message : ControlCommand → WebSocketMessage
  | .ping payload => .ping payload
  | .pong payload => .pong payload
  | .close frame | .disconnect frame => .close frame

/-- A control command, as a frame. -/
def writeControl (command : ControlCommand) (timeout : ℕ) : Prog LinkAction (Except Exit Unit) :=
  sendWithTimeout command.message timeout

/-! ## Closing -/

/-- Nothing more is accepted from the application. -/
def closeCommandChannels (d : Driver) : Prog LinkAction Driver := do
  perform .closeControl
  perform .closeOutbound
  pure { d with controlOpen := false, outboundOpen := false }

/-- A Close frame is written, unless one was. -/
def initiateClose (config : DriverConfig) (state : DriverState) (frame : Option CloseFrame)
    (initiator : WebSocketCloseInitiator) : Prog LinkAction (Except Exit DriverState) :=
  if state.closeSent then pure (.ok state)
  else do
    perform (.record .closing)
    let now ← perform .now
    attempt (sendWithTimeout (.close frame) (min config.sendTimeout config.closeTimeout)) fun _ =>
      pure (.ok { state with
        closeInfo := some (closeInfo frame initiator false)
        closeSent := true
        closeDeadline := DriverState.checkedAdd config now config.closeTimeout })

/-- `initiate_close` for a cause. -/
def Driver.closeWith (config : DriverConfig) (d : Driver) (cause : CloseCause) : Prog LinkAction (Except Exit Driver) :=
  attempt (initiateClose config d.state cause.frame cause.initiator) fun state => pure (.ok { d with state := state })

def Driver.closeBecause (config : DriverConfig) (d : Driver) (cause : CloseCause) :
    Prog LinkAction (Except Exit Driver) := do
  perform (.note cause)
  let d ← closeCommandChannels d
  d.closeWith config cause

/-- The server shuts down. -/
def initiateRuntimeShutdown (config : DriverConfig) (d : Driver) : Prog LinkAction (Except Exit Driver) :=
  d.closeBecause config .shutdown

/-- The loop of `take_queued_before_close`. -/
def takeQueued : ℕ → Prog LinkAction (List WebSocketMessage)
  | 0 => pure []
  | queued + 1 => do
    match ← perform .tryRecvOutbound with
    | none => pure []
    | some message => do
      let messages ← takeQueued queued
      pure (message :: messages)

/-- The messages that are queued before the Close. -/
def takeQueuedBeforeClose : Prog LinkAction (List WebSocketMessage) := do
  let queued ← perform .outboundLen
  takeQueued queued

/-- The loop of `send_queued_outbound`. -/
def sendMessages (config : DriverConfig) : List WebSocketMessage → Prog LinkAction (Except Exit Unit)
  | [] => pure (.ok ())
  | message :: messages =>
    attempt (sendWithTimeout message config.sendTimeout) fun _ => do
      perform (.record (.message true message.len message.applicationMessageType))
      sendMessages config messages

/-- The messages queued before the Close are written. -/
def sendQueuedOutbound (config : DriverConfig) : Prog LinkAction (Except Exit Unit) := do
  let messages ← takeQueuedBeforeClose
  sendMessages config messages

/-- The queue is emptied before the Close frame. -/
def Driver.drainAndClose (config : DriverConfig) (d : Driver) (cause : CloseCause) :
    Prog LinkAction (Except Exit Driver) :=
  attempt (sendQueuedOutbound config) fun _ => d.closeWith config cause

def drainControl (config : DriverConfig) : ℕ → Driver → Prog LinkAction (Except Exit Driver)
  | 0, _ => pure (.error .exhausted)
  | fuel + 1, d => do
    match ← perform .tryRecvControl with
    | some (.close frame) => do
      perform (.note (.command frame))
      d.drainAndClose config (.command frame)
    | some (.disconnect frame) => do
      perform (.note (.disconnect frame))
      d.closeWith config (.disconnect frame)
    | some command => attempt (writeControl command config.sendTimeout) fun _ => drainControl config fuel d
    | none => do
      perform (.note .completed)
      d.drainAndClose config .completed

/-- The handler is done: queued commands are still carried out. -/
def initiateHandlerCompletion (config : DriverConfig) (fuel : ℕ) (d : Driver) : Prog LinkAction (Except Exit Driver) := do
  let d ← closeCommandChannels d
  drainControl config fuel d

/-! ## The loop -/

inductive Turn where
  | continues (d : Driver)
  | returns (outcome : DriverOutcome)

def continueWith (p : Prog LinkAction (Except Exit Driver)) : Prog LinkAction (Except Exit Turn) :=
  attempt p fun d => pure (.ok (.continues d))

def Driver.outcome (d : Driver) : DriverOutcome := d.state.outcome d.handlerCompleted

def Driver.onControl (config : DriverConfig) (d : Driver) : Option ControlCommand → Prog LinkAction (Except Exit Turn)
  | none => pure (.ok (.continues { d with controlOpen := false }))
  | some command =>
    if d.state.closeSent then pure (.ok (.continues d))
    else match command with
      | .close frame => do
        perform (.note (.command frame))
        let d ← closeCommandChannels d
        continueWith (d.drainAndClose config (.command frame))
      | .disconnect frame => continueWith (d.closeBecause config (.disconnect frame))
      | command => attempt (writeControl command config.sendTimeout) fun _ => pure (.ok (.continues d))

/-- The branch of an application message. -/
def Driver.onOutbound (config : DriverConfig) (d : Driver) : Option WebSocketMessage → Prog LinkAction (Except Exit Turn)
  | none => pure (.ok (.continues { d with outboundOpen := false }))
  | some message =>
    attempt (sendWithTimeout message config.sendTimeout) fun _ => do
      perform (.record (.message true message.len message.applicationMessageType))
      pure (.ok (.continues d))

def DriverState.receiveClose (state : DriverState) (frame : Option CloseFrame) : DriverState :=
  { state with
    closeReceived := true
    closeInfo := some (state.closeInfo.getD (RustRest.closeInfo frame .peer true))
    closeSent := true }

/-- A Pong with the payload that is waited for. -/
def DriverState.receivePong (state : DriverState) : WebSocketMessage → DriverState
  | .pong payload => if state.pendingPing.any (·.1 = payload) then { state with pendingPing := none } else state
  | _ => state

def Driver.deliver (config : DriverConfig) (d : Driver) (message : WebSocketMessage) :
    Prog LinkAction (Except Exit Turn) := do
  let delivery ← perform (.deliver message config.sendTimeout)
  attempt
    (if delivery = .timedOut ∧ d.state.closeSent = false then do
      perform (.record (.saturatedSend false))
      d.closeBecause config .slowHandler
    else pure (.ok d))
    fun d => pure (.ok (if d.state.closeReceived then .returns d.outcome else .continues d))

def Driver.onAccepted (config : DriverConfig) (d : Driver) (message : WebSocketMessage) :
    Prog LinkAction (Except Exit Turn) :=
  match message with
  | .close frame =>
    attempt (flushWithTimeout config.sendTimeout) fun _ => do
      perform (.record .closing)
      perform (.note (.peer frame))
      Driver.deliver config { d with state := d.state.receiveClose frame } message
  | .ping _ => attempt (flushWithTimeout config.sendTimeout) fun _ => d.deliver config message
  | _ => Driver.deliver config { d with state := d.state.receivePong message } message

def Driver.onMessage (config : DriverConfig) (d : Driver) (message : WebSocketMessage) :
    Prog LinkAction (Except Exit Turn) := do
  let receivedAt ← perform .now
  let state := { d.state with lastInboundFrame := receivedAt }
  if message.isData then
    let (exceeded, state) := state.messageRateExceeded config receivedAt
    if exceeded then continueWith (Driver.closeBecause config { d with state := state } .rateLimit)
    else do
      perform (.record (.message false message.len message.applicationMessageType))
      Driver.onAccepted config { d with state := { state with lastApplicationMessage := receivedAt } } message
  else Driver.onAccepted config { d with state := state } message

def Driver.onIncoming (config : DriverConfig) (d : Driver) :
    Option (Except TungsteniteError WebSocketMessage) → Prog LinkAction (Except Exit Turn)
  | some (.ok message) => d.onMessage config message
  | some (.error error) =>
    match error.kind with
    | .connectionClosed =>
      if d.state.closeSent then
        pure (.ok (.returns (Driver.outcome { d with state := { d.state with closeReceived := true } })))
      else pure (.error (.failed error))
    | .messageTooLong => continueWith (d.closeBecause config .messageTooLong)
    | _ => pure (.error (.failed error))
  | none => pure (.ok (.returns d.outcome))

def toBeBytes (n : ℕ) : List UInt8 := (List.range 8).map fun i => UInt8.ofNat (n / 256 ^ (7 - i))

def Driver.ping (config : DriverConfig) (d : Driver) : Prog LinkAction (Except Exit Turn) :=
  let payload := toBeBytes d.state.nextPingToken
  attempt (sendWithTimeout (.ping payload) config.sendTimeout) fun _ => do
    let now ← perform .now
    pure (.ok (.continues { d with state :=
      { d.state with nextPingToken := (d.state.nextPingToken + 1) % 2 ^ 64, pendingPing := some (payload, now) } }))

def Driver.onHandlerDone (config : DriverConfig) (d : Driver) (result : HandlerResult) :
    Prog LinkAction (Except Exit Turn) :=
  let d := { d with handlerCompleted := true }
  match result with
  | .completed => pure (.ok (.continues d))
  | .failed => do
    perform (.record .handlerFailed)
    if d.state.closeSent then pure (.ok (.continues d)) else continueWith (d.closeBecause config .handlerFailed)

/-- The branches of the `select!`. -/
def DriverEvent.handle (config : DriverConfig) (d : Driver) : DriverEvent → Prog LinkAction (Except Exit Turn)
  | .shutdown => continueWith (initiateRuntimeShutdown config d)
  | .control command => d.onControl config command
  | .closeDeadline => pure (.ok (.returns d.outcome))
  | .pongDeadline => do
    perform (.record .heartbeatTimeout)
    continueWith (Driver.closeBecause config { d with state := { d.state with pendingPing := none } } .pongTimeout)
  | .lifetimeDeadline => continueWith (d.closeBecause config .lifetimeEnded)
  | .idleDeadline => continueWith (d.closeBecause config .idle)
  | .outbound message => d.onOutbound config message
  | .incoming item => d.onIncoming config item
  | .pingDeadline => d.ping config
  | .handlerDone result => d.onHandlerDone config result
  | .senderCount false => pure (.ok (.continues { d with senderTrackingClosed := true }))
  | .senderCount true => do
    let _ ← perform .senderCount
    pure (.ok (.continues d))

/-- What comes before the `select!`. -/
inductive Preflight where
  | shutdown
  | completion
  | select

/-- The conditions before the `select!`. -/
def Driver.preflight (d : Driver) : Prog LinkAction Preflight :=
  if d.state.closeSent then pure .select
  else do
    if ← perform .shutdownRequested then pure .shutdown
    else if d.handlerCompleted then
      if d.senderTrackingClosed then pure .completion
      else do
        let count ← perform .senderCount
        pure (if count = 0 then .completion else .select)
    else pure .select

def Driver.turn (config : DriverConfig) (fuel : ℕ) (d : Driver) : Prog LinkAction (Except Exit Turn) := do
  match ← d.preflight with
  | .shutdown => continueWith (initiateRuntimeShutdown config d)
  | .completion => continueWith (initiateHandlerCompletion config fuel d)
  | .select => do
    let event ← perform (.select config d)
    event.handle config d

def Driver.loop (config : DriverConfig) : ℕ → Driver → Prog LinkAction (Option DriverOutcome)
  | 0, _ => pure none
  | fuel + 1, d => do
    match ← d.turn config fuel with
    | .ok (.continues d) => loop config fuel d
    | .ok (.returns outcome) => pure (some outcome)
    | .error (.failed error) => pure (some (protocolOutcome error))
    | .error .exhausted => pure none

/-- The loop of the driver, with fuel. -/
def drive (config : DriverConfig) (fuel : ℕ) : Prog LinkAction (Option DriverOutcome) := do
  let now ← perform .now
  Driver.loop config fuel ⟨.new now, true, true, false, false⟩

end RustRest
