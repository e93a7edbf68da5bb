import Mathlib.Logic.Relation
import RemoteControl.Foundations.Transition
import RemoteControl.Server.FileHandlers

/-!
The select loop of `run_connection` as a transition system. One label is one iteration of
the loop, run to its end while the other parties of the PC act on the shared stores.
-/

namespace RemoteControl.Server.Loop

open RemoteControl.Foundations.ByteStrings
open RemoteControl.Foundations.Interference
open RemoteControl.Foundations.Transition
open RemoteControl.Wire.Protocol
open RemoteControl.Server.Stores
open RemoteControl.Server.Connection
open RemoteControl.Server.FileHandlers

/-! ### Other parties -/

/-- One section of another connection, of the HTTP server or of the tray, or the passage of
time. Files are left out here: what other parties do to them is the subject of other modules. -/
inductive OtherStep (owner : Nat) : World → World → Prop
  | tick (w : World) (elapsed : Nat) (unixMs : UInt64) :
      OtherStep owner w { w with now := w.now + elapsed, unixMs }
  | rotate (w : World) (code : String) (key : Bytes) :
      OtherStep owner w { w with pairing := w.pairing.rotate w.now code key }
  | verifyAndConsume (w : World) (candidate : String) :
      OtherStep owner w
        { w with pairing := (w.pairing.verifyAndConsume w.now candidate).2 }
  | push (w : World) (device : TrustedDevice) :
      OtherStep owner w { w with trusted := w.trusted.push device }
  | check (w : World) (deviceId tokenHash : String) :
      OtherStep owner w
        { w with trusted := (w.trusted.check deviceId tokenHash w.unixMs).2 }
  | save (w : World) (fault : Option SaveFault) :
      OtherStep owner w { w with trusted := (w.trusted.save fault).2 }
  | fetchAddInstance (w : World) :
      OtherStep owner w { w with bridge := w.bridge.fetchAddInstance.2 }
  | claim (w : World) (instanceId : UInt64) (other : Nat) :
      other ≠ owner → OtherStep owner w { w with bridge := w.bridge.claim instanceId other }
  | deregister (w : World) (reg : BridgeRegistration) :
      OtherStep owner w { w with bridge := w.bridge.deregister reg }
  | dispatch (w : World) (alive : Nat → Bool) (cmd : FileSendCmd) :
      OtherStep owner w { w with bridge := (w.bridge.dispatch alive cmd).2 }
  | transferId (w : World) (next : UInt32) :
      OtherStep owner w { w with bridge := { w.bridge with nextTransferId := next } }

/-- Any number of sections of other parties. -/
def Others (s s' : St) : Prop :=
  ∃ world, Relation.ReflTransGen (OtherStep s.conn.connId) s.world world ∧
    s' = { s with world }

/-! ### The arms of the select -/

def idleTimeoutSecs : Nat := 45

def idleTimeout : Nat := idleTimeoutSecs * nanosPerSec

inductive TrySend where
  | ok
  | full
  | closed
deriving DecidableEq, Repr

/-- The branch of the select that is taken. `inbox none` is the closed inbox and
`packet none` the end of the stream worker. -/
inductive Event where
  | idle
  | inbox (msg : Option Message)
  | packet (frame : Option Bytes) (sent : TrySend)
  | command
deriving DecidableEq

/-- How a branch ends: by reaching the code after the select, by `continue`, or by `break`. -/
inductive Flow where
  | fallThrough
  | restart
  | stop
deriving DecidableEq, Repr

def Flow.ofBool (cont : Bool) : Flow :=
  if cont then .fallThrough else .stop

def handleText (crates : Crates) (cfg : Config) (os : Answers) (text : String) :
    Handler Flow := do
  match crates.parseClientMsg text with
  | none =>
      sendError .malformed "cannot parse message"
      return .stop
  | some (.fileTransferBegin id name size) =>
      let conn ← .read St.conn
      if !conn.authenticated then
        failTransfer id "not authenticated"
        return .restart
      handleFileBegin os id name size
      return .fallThrough
  | some (.fileTransferAbort id _) =>
      handleFileAbort os id
      return .fallThrough
  | some (.fileSendAccepted id destPath) =>
      handleFileSendAccepted id destPath
      return .fallThrough
  | some (.fileSendComplete id _) =>
      handleFileSendComplete os id
      return .fallThrough
  | some (.fileSendFailed id _) =>
      abandonSend os id
      return .fallThrough
  | some other =>
      let cont ← handleClientMsg crates cfg os other
      return .ofBool cont

def handleBinary (os : Answers) (bytes : Bytes) : Handler Flow := do
  let conn ← .read St.conn
  if !conn.authenticated then return .restart
  match peekFrameHeader bytes with
  | some (frameType, _) =>
      if frameType = FrameType.file then
        handleFileChunk os bytes
        return .fallThrough
      else return .fallThrough
  | none => return .fallThrough

def handleInbox (crates : Crates) (cfg : Config) (os : Answers) :
    Option Message → Handler Flow
  | none => return .stop
  | some (.text text) => handleText crates cfg os text
  | some (.binary bytes) => handleBinary os bytes
  | some .close => return .stop
  | some (.ping payload) => do
      push (.pong payload)
      return .fallThrough
  | some (.pong _) => return .fallThrough

def handlePacket : Option Bytes → TrySend → Handler Flow
  | none, _ => do
      let conn ← .read St.conn
      match conn.activeStream with
      | some handle =>
          onConn fun c => { c with activeStream := none }
          send (.streamStopped handle.streamId .encoderError "stream worker exited")
          perform [.stopStream handle.streamId]
          return .restart
      | none => return .restart
  | some frame, .ok => do
      onConn fun c => { c with outboxVideo := c.outboxVideo ++ [frame] }
      return .fallThrough
  | some _, .full => return .fallThrough
  | some _, .closed => return .stop

/-- `file_send_rx.recv()`. -/
def recvCommand : Handler (Option FileSendCmd) :=
  .critical fun s =>
    let queue := s.world.bridge.commands s.conn.connId
    (queue.head?,
      { s with
        world :=
          { s.world with
            bridge :=
              { s.world.bridge with
                commands := Function.update s.world.bridge.commands s.conn.connId
                  queue.tail } } })

def handleCommand (os : Answers) : Handler Flow := do
  match ← recvCommand with
  | none => return .restart
  | some cmd =>
      let conn ← .read St.conn
      if !conn.authenticated then
        match cmd with
        | .send _ _ _ tempPath =>
            removeFile os tempPath
            return .restart
        | .cancel _ => return .restart
      else
        match cmd with
        | .send id name size tempPath =>
            dispatchFileSendCmd id name size tempPath
            return .fallThrough
        | .cancel id =>
            abandonSend os id
            return .fallThrough

def handleEvent (crates : Crates) (cfg : Config) (os : Answers) : Event → Handler Flow
  | .idle => return .stop
  | .inbox msg => handleInbox crates cfg os msg
  | .packet frame sent => handlePacket frame sent
  | .command => handleCommand os

/-- The lazy bridge registration after the select. -/
def registerBridgeOnce : Handler PUnit := do
  let conn ← .read St.conn
  if conn.authenticated && conn.bridgeRegistration.isNone then
    let instanceId ← .critical fun s =>
      let (instanceId, bridge) := s.world.bridge.fetchAddInstance
      (instanceId, { s with world := { s.world with bridge } })
    .modify fun s =>
      { world :=
          { s.world with bridge := s.world.bridge.claim instanceId s.conn.connId }
        conn :=
          { s.conn with
            bridgeRegistration := some ⟨instanceId⟩
            effects := s.conn.effects ++ [.registerBridge] } }
  else return

/-- What follows a branch: the result tells whether there is another pass. -/
def afterSelect : Flow → Handler Bool
  | .stop => return false
  | .restart => return true
  | .fallThrough => do
      registerBridgeOnce
      return true

/-- One pass through the loop. -/
def iteration (crates : Crates) (cfg : Config) (os : Answers) (event : Event) :
    Handler Bool := do
  let flow ← handleEvent crates cfg os event
  afterSelect flow

/-! ### The code after the loop -/

def stopActiveStream : Handler PUnit := do
  let conn ← .read St.conn
  match conn.activeStream with
  | some handle =>
      onConn fun c => { c with activeStream := none }
      perform [.stopStream handle.streamId]
  | none => return

def drainTransfers (os : Answers) : Handler PUnit := do
  let conn ← .read St.conn
  onConn fun c => { c with fileTransfers := ∅ }
  conn.fileTransfers.entries.forM fun entry => removeFile os entry.2.destPath

def drainSends (os : Answers) : Handler PUnit := do
  let conn ← .read St.conn
  onConn fun c => { c with fileSends := ∅ }
  conn.fileSends.entries.forM fun entry => do
    cancelSender entry.2.cancel
    removeFile os entry.2.tempPath

def deregisterBridge : Handler PUnit := do
  let conn ← .read St.conn
  match conn.bridgeRegistration with
  | some reg =>
      .modify fun s =>
        { world := { s.world with bridge := s.world.bridge.deregister reg }
          conn := { s.conn with bridgeRegistration := none } }
  | none => return

def teardown (os : Answers) : Handler PUnit := do
  stopActiveStream
  drainTransfers os
  drainSends os
  deregisterBridge

/-! ### The transition system -/

/-- A connection between two iterations. `deadline` is when the sleep created at the top of
the loop fires, `lastInbound` when the last inbound message arrived (or the start). -/
structure Session where
  st : St
  running : Bool
  deadline : Nat
  lastInbound : Nat

/-- A step: other parties act, or one branch of the select is taken with these answers and
this trace of sections. -/
inductive Label where
  | others
  | taken (event : Event) (os : Answers) (trace : List (St × St))

def Event.isInbound : Event → Bool
  | .inbox (some _) => true
  | _ => false

/-- A text or binary message. -/
def Event.isData : Event → Bool
  | .inbox (some (.text _)) | .inbox (some (.binary _)) => true
  | _ => false

/-- The control message an iteration handles, if it handles one. -/
def Event.handles (crates : Crates) : Event → Option ClientMsg
  | .inbox (some (.text text)) => crates.parseClientMsg text
  | _ => none

def Label.handles (crates : Crates) : Label → Option ClientMsg
  | .taken event _ _ => event.handles crates
  | .others => none

def Label.isData : Label → Bool
  | .taken event _ _ => event.isData
  | .others => true

def Label.trace : Label → List (St × St)
  | .taken _ _ trace => trace
  | .others => []

/-- The future of this branch is ready. -/
def Ready (s : Session) : Event → Prop
  | .idle => s.deadline ≤ s.st.world.now
  | .inbox _ => True
  | .packet _ _ => s.st.conn.activeStream.isSome
  | .command => s.st.world.bridge.commands s.st.conn.connId ≠ []

/-- When the last inbound message arrived, after a branch taken at `now`. -/
def Session.arrival (s : Session) (event : Event) : Nat :=
  if event.isInbound then s.st.world.now else s.lastInbound

inductive Step (crates : Crates) (cfg : Config) : Session → Label → Session → Prop
  | others {s : Session} {st : St} : Others s.st st → Step crates cfg s .others { s with st }
  | again {s : Session} {event : Event} {os : Answers} {trace : List (St × St)} {st : St} :
      s.running = true → Ready s event →
      Task.Exec Others (iteration crates cfg os event) s.st trace true st →
      Step crates cfg s (.taken event os trace)
        { st, running := true, deadline := st.world.now + idleTimeout
          lastInbound := s.arrival event }
  | finish {s : Session} {event : Event} {os : Answers} {trace rest : List (St × St)}
      {mid st : St} :
      s.running = true → Ready s event →
      Task.Exec Others (iteration crates cfg os event) s.st trace false mid →
      Task.Exec Others (teardown os) mid rest PUnit.unit st →
      Step crates cfg s (.taken event os trace)
        { s with st, running := false, lastInbound := s.arrival event }

/-- The start of `run_connection` and of its first sleep. -/
def Session.start (connId : Nat) (peerLabel : String) (world : World) : Session where
  st := { world, conn := { connId, peerLabel } }
  running := true
  deadline := world.now + idleTimeout
  lastInbound := world.now

def Starts (s : Session) : Prop :=
  ∃ connId peerLabel world, s = Session.start connId peerLabel world

def connection (crates : Crates) (cfg : Config) : System Session Label where
  init := Starts
  step := Step crates cfg

end RemoteControl.Server.Loop
