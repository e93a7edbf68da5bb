import Mathlib.Data.List.DropRight
import RemoteControl.Foundations.Interference
import RemoteControl.Server.Stores

/-!
The state of one `run_connection` and the handlers it calls (`server-pc/src/connection.rs`,
Windows build). A handler is a task whose sections are the lock sections and awaited file
operations of the source, so that other connections may act between them. What the
operating system and the random generator answer during one iteration is an `Answers`.
-/

namespace RemoteControl.Server.Connection

open RemoteControl.Foundations.ByteStrings
open RemoteControl.Foundations.Interference
open RemoteControl.Wire.Protocol
open RemoteControl.Server.Stores

abbrev HashMap (κ ν : Type) := AList fun _ : κ => ν

/-! ### State -/

/-- A call of `SendInput`. -/
inductive Input where
  | moveTo (x y : UInt32)
  | button (button : MouseButton) (down : Bool)
  | wheel (data : UInt32)
  | hwheel (data : UInt32)
  | unicode (unit : UInt16) (keyUp : Bool)
  | vkey (vk : UInt16) (keyUp : Bool)
deriving DecidableEq

inductive RequestedCodec where
  | h264
  | hevc
deriving DecidableEq, Repr

structure StreamRequestParams where
  codec : RequestedCodec
  maxBitrateKbps : Option UInt32
  maxFps : Option UInt32
  keyframeIntervalMs : Option UInt32
deriving DecidableEq, Repr

/-- What a connection does to the PC besides replying to its peer. -/
inductive Effect where
  | sendInput (input : Input)
  | clipboardRead
  | clipboardWrite (text : String)
  | startStream (params : StreamRequestParams)
  | stopStream (streamId : String)
  | forceKeyframe (streamId : String)
  | saveTrusted
  | createDir
  | createFile (path : PathBuf)
  | writeFile (path : PathBuf)
  | removeFile (path : PathBuf)
  | registerBridge
  | spawnSender (id : UInt32)
deriving DecidableEq

structure StreamHandle where
  streamId : String
  width : UInt32
  height : UInt32
  fps : UInt32
  bitrateKbps : UInt32
  keyframeIntervalFrames : UInt32
  profile : String
  codecWireName : String
  startedAtUnixMs : UInt64
  audioMetadata : Option AudioMetadata
deriving DecidableEq, Repr

/-- An open file: where it is and the offset of the next write. -/
structure OpenFile where
  path : PathBuf
  position : Nat
deriving DecidableEq

structure FileTransferState where
  destPath : PathBuf
  file : OpenFile
  expectedSize : UInt64
  bytesWritten : Nat
  nextExpectedSeq : UInt32
deriving DecidableEq

/-- `cancel` names the flag the streamer task shares. -/
structure FileSendState where
  name : String
  tempPath : PathBuf
  expectedSize : UInt64
  destPath : Option String
  cancel : Nat
deriving DecidableEq

/-- A message pushed to the control outbox. -/
inductive Outgoing where
  | msg (msg : ServerMsg)
  | pong (payload : Bytes)
deriving DecidableEq

/-- The locals of one `run_connection`, with the messages it has pushed to its control
outbox, the frames it offered to the bounded A/V outbox, and the effects it has had. -/
structure Conn where
  connId : Nat
  peerLabel : String
  authenticated : Bool := false
  activeStream : Option StreamHandle := none
  fileTransfers : HashMap UInt32 FileTransferState := ∅
  fileSends : HashMap UInt32 FileSendState := ∅
  bridgeRegistration : Option BridgeRegistration := none
  cancelFlags : List Bool := []
  outbox : List Outgoing := []
  outboxVideo : List Bytes := []
  effects : List Effect := []

/-- What connections share: the clocks, the stores and the file system. -/
structure World where
  now : Nat
  unixMs : UInt64
  pairing : PairingStore
  trusted : TrustedDevicesStore
  bridge : FileSendBridge
  files : PathBuf → Option Bytes

structure St where
  world : World
  conn : Conn

structure Config where
  serverName : String
  os : String
  serverVersion : String

/-- The answers of the operating system and the random generator during one iteration. The
`Option String` faults are the error an operation reports. -/
structure Answers where
  session : String
  tokenBytes : Bytes
  deviceId : String
  saveFault : Option SaveFault
  startStream : Except String StreamHandle
  inputsBeforeFault : Option Nat
  clipboard : Option String
  downloadsDir : Except String PathBuf
  metadataFault : PathBuf → Bool
  createFault : Option String
  writeFault : Option (Nat × String)
  flushFault : Option String
  removeFault : PathBuf → Bool

abbrev Handler (α : Type) := Task St α

/-! ### Sections -/

def onConn (f : Conn → Conn) : Handler PUnit :=
  .modify fun s => { s with conn := f s.conn }

def onFiles (f : (PathBuf → Option Bytes) → PathBuf → Option Bytes) (effect : Effect) :
    Handler PUnit :=
  .modify fun s =>
    { world := { s.world with files := f s.world.files }
      conn := { s.conn with effects := s.conn.effects ++ [effect] } }

def push (out : Outgoing) : Handler PUnit :=
  onConn fun c => { c with outbox := c.outbox ++ [out] }

def send (msg : ServerMsg) : Handler PUnit :=
  push (.msg msg)

def sendError (code : ErrorCode) (m : String) : Handler PUnit :=
  send (.error code m)

def perform (effects : List Effect) : Handler PUnit :=
  onConn fun c => { c with effects := c.effects ++ effects }

def verifyAndConsume (candidate : String) : Handler VerifyResult :=
  .critical fun s =>
    let (result, pairing) := s.world.pairing.verifyAndConsume s.world.now candidate
    (result, { s with world := { s.world with pairing } })

def pairingKey : Handler Bytes :=
  .read fun s => s.world.pairing.key

def saveTrusted (os : Answers) : Handler (Except SaveFault Unit) :=
  .critical fun s =>
    let (result, trusted) := s.world.trusted.save os.saveFault
    (result,
      { world := { s.world with trusted }
        conn := { s.conn with effects := s.conn.effects ++ [.saveTrusted] } })

def mint (crates : Crates) (os : Answers) (deviceName : String) :
    Handler (Except SaveFault (String × String)) := do
  let token := crates.base64UrlEncode os.tokenBytes
  let tokenHash := sha256Hex crates (utf8 token)
  .modify fun s =>
    let dev : TrustedDevice :=
      { deviceId := os.deviceId
        tokenHash
        deviceName
        createdUnixMs := s.world.unixMs
        lastSeenUnixMs := s.world.unixMs }
    { s with world := { s.world with trusted := s.world.trusted.push dev } }
  match ← saveTrusted os with
  | .ok _ => return .ok (os.deviceId, token)
  | .error fault => return .error fault

def verify (crates : Crates) (os : Answers) (deviceId token : String) :
    Handler (Except String VerifyOutcome) := do
  let tokenHash := sha256Hex crates (utf8 token)
  let outcome ← .critical fun s =>
    let (outcome, trusted) := s.world.trusted.check deviceId tokenHash s.world.unixMs
    (outcome, { s with world := { s.world with trusted } })
  match outcome with
  | .ok deviceName =>
      let _ ← saveTrusted os
      return .ok (.ok deviceName)
  | .unknownDevice => return .ok .unknownDevice
  | .badToken => return .ok .badToken

/-- `tokio::fs::remove_file`, whose error is at most logged. -/
def removeFile (os : Answers) (path : PathBuf) : Handler PUnit :=
  onFiles (fun files => if os.removeFault path then files else Function.update files path none)
    (.removeFile path)

/-! ### Synchronous messages -/

def protocolVersion : UInt32 := 6

def minSupportedVersion : UInt32 := 1

def supportedVersion (v : UInt32) : Bool :=
  minSupportedVersion ≤ v && v ≤ protocolVersion

def versionMismatch (v : UInt32) : String :=
  s!"server accepts v={minSupportedVersion}..={protocolVersion}, got v={v}"

def serverInfo (cfg : Config) : ServerInfo :=
  { name := cfg.serverName, os := cfg.os, version := cfg.serverVersion }

def setAuthenticated : Handler PUnit :=
  onConn fun c => { c with authenticated := true }

def handleHello (crates : Crates) (cfg : Config) (os : Answers) (v : UInt32)
    (c nonce : String) (client : ClientInfo) : Handler Bool := do
  if !supportedVersion v then
    sendError .versionMismatch (versionMismatch v)
    return false
  match ← verifyAndConsume c with
  | .ok =>
      match crates.base64UrlDecode nonce with
      | none =>
          sendError .malformed "nonce not base64url"
          return false
      | some nonceBytes =>
          let key ← pairingKey
          let hmac := hexEncode (crates.hmacSha256 key nonceBytes)
          let minted ← mint crates os client.name
          let trustToken := minted.toOption.map Prod.snd
          let deviceId := minted.toOption.map Prod.fst
          send (.welcome os.session (serverInfo cfg) hmac trustToken deviceId)
          setAuthenticated
          return true
  | .badCode =>
      sendError .badPairingCode "wrong code"
      return false
  | .expired =>
      sendError .codeExpired "code expired"
      return false
  | .used =>
      sendError .codeUsed "code already used"
      return false

def handleTrustedHello (crates : Crates) (cfg : Config) (os : Answers) (v : UInt32)
    (deviceId token : String) : Handler Bool := do
  if !supportedVersion v then
    sendError .versionMismatch (versionMismatch v)
    return false
  match ← verify crates os deviceId token with
  | .ok (.ok _) =>
      send (.welcome os.session (serverInfo cfg) "" none none)
      setAuthenticated
      return true
  | .ok .unknownDevice =>
      sendError .unknownDevice "device not trusted; please re-pair via QR"
      return false
  | .ok .badToken =>
      sendError .badTrustToken "trust token mismatch"
      return false
  | .error _ =>
      sendError .malformed "internal trust check failed"
      return false

def onRelay (peerLabel : String) : Bool :=
  "relay/".toList.isPrefixOf peerLabel.toList

def streamParams (peerLabel : String) (codec : RequestedCodec)
    (maxBitrateKbps maxFps preferKeyframeIntervalMs : Option UInt32) : StreamRequestParams :=
  { codec
    maxBitrateKbps :=
      if onRelay peerLabel then some (min (maxBitrateKbps.getD 30000) 3000)
      else maxBitrateKbps
    maxFps
    keyframeIntervalMs :=
      if onRelay peerLabel then some (max (preferKeyframeIntervalMs.getD 1000) 2000)
      else preferKeyframeIntervalMs }

def startedMsg (handle : StreamHandle) : ServerMsg :=
  .streamStarted
    { streamId := handle.streamId
      codec := handle.codecWireName
      profile := handle.profile
      level := "4.2"
      width := handle.width
      height := handle.height
      fps := handle.fps
      bitrateKbps := handle.bitrateKbps
      keyframeIntervalFrames := handle.keyframeIntervalFrames
      pixelFormat := "yuv420p"
      startedAtUnixMs := handle.startedAtUnixMs
      audio := handle.audioMetadata }

def toAsciiLowercase (s : String) : String :=
  String.ofList (s.toList.map Char.toLower)

def requestedCodec (codec : String) : Option RequestedCodec :=
  match toAsciiLowercase codec with
  | "h264" => some .h264
  | "hevc" => some .hevc
  | "h265" => some .hevc
  | _ => none

def handleStreamRequest (os : Answers) (codec : String)
    (maxBitrateKbps maxFps preferKeyframeIntervalMs : Option UInt32) : Handler Bool := do
  let conn ← .read St.conn
  if !conn.authenticated then
    sendError .notAuthenticated "hello first"
    return false
  match requestedCodec codec with
  | none =>
      sendError .streamUnavailable s!"only h264/hevc supported, got {codec}"
      return true
  | some requested =>
      if conn.activeStream.isSome then
        sendError .streamAlreadyRunning "stop the current stream first"
        return true
      let params := streamParams conn.peerLabel requested maxBitrateKbps maxFps
        preferKeyframeIntervalMs
      perform [.startStream params]
      match os.startStream with
      | .ok handle =>
          send (startedMsg handle)
          onConn fun c => { c with activeStream := some handle }
          return true
      | .error e =>
          sendError .streamUnavailable s!"could not start stream: {e}"
          return true

/-- The `SendInput` calls made before `?` returns at the first that fails. -/
def attempted (os : Answers) (inputs : List Input) : List Effect :=
  match os.inputsBeforeFault with
  | none => inputs.map .sendInput
  | some n => (inputs.take (n + 1)).map .sendInput

def wheelDelta : Int := 120

/-- `saturating_mul(WHEEL_DELTA) as u32`. -/
def wheelData (notches : Int32) : UInt32 :=
  (Int32.ofInt (max Int32.minValue.toInt
    (min Int32.maxValue.toInt (notches.toInt * wheelDelta)))).toUInt32

def scroll (dx dy : Int32) : List Input :=
  (if dy ≠ 0 then [.wheel (wheelData dy)] else []) ++
    (if dx ≠ 0 then [.hwheel (wheelData dx)] else [])

/-- The UTF-16 code units of a character. -/
def encodeUtf16 (ch : Char) : List UInt16 :=
  if ch.toNat < 0x10000 then [UInt16.ofNat ch.toNat]
  else
    let rest := ch.toNat - 0x10000
    [UInt16.ofNat (0xD800 + rest / 0x400), UInt16.ofNat (0xDC00 + rest % 0x400)]

def typeUnicode (text : String) : List Input :=
  text.toList.flatMap fun ch =>
    (encodeUtf16 ch).flatMap fun unit => [.unicode unit false, .unicode unit true]

def vkey (vk : UInt32) (down : Bool) : List Input :=
  if vk = 0 || vk > 0xFF then [] else [.vkey vk.toUInt16 (!down)]

/-- `handle_client_msg`; the result tells whether the connection goes on. -/
def handleClientMsg (crates : Crates) (cfg : Config) (os : Answers) :
    ClientMsg → Handler Bool
  | .hello v c nonce client => handleHello crates cfg os v c nonce client
  | .trustedHello v deviceId token _ => handleTrustedHello crates cfg os v deviceId token
  | .ping ts => do
      let conn ← .read St.conn
      if !conn.authenticated then
        sendError .notAuthenticated "hello first"
        return false
      send (.pong ts)
      return true
  | .streamRequest codec maxBitrateKbps maxFps preferKeyframeIntervalMs =>
      handleStreamRequest os codec maxBitrateKbps maxFps preferKeyframeIntervalMs
  | .streamStop _ => do
      -- A mismatched id still closes the active stream.
      let conn ← .read St.conn
      match conn.activeStream with
      | some handle =>
          onConn fun c => { c with activeStream := none }
          perform [.stopStream handle.streamId]
          send (.streamStopped handle.streamId .clientRequested "")
          return true
      | none => return true
  | .keyframeRequest _ => do
      let conn ← .read St.conn
      match conn.activeStream with
      | some handle =>
          perform [.forceKeyframe handle.streamId]
          return true
      | none => return true
  | .mouseMove x y => do
      perform (attempted os [.moveTo x y])
      return true
  | .mouseButton button down => do
      perform (attempted os [.button button down])
      return true
  | .mouseScroll dx dy => do
      perform (attempted os (scroll dx dy))
      return true
  | .keyText text => do
      perform (attempted os (typeUnicode text))
      return true
  | .keyEvent vk down => do
      perform (attempted os (vkey vk down))
      return true
  | .clipboardSet text => do
      perform [.clipboardWrite text]
      return true
  | .clipboardGet => do
      perform [.clipboardRead]
      send (.clipboardText (os.clipboard.getD ""))
      return true
  | .fileTransferBegin .. | .fileTransferAbort .. | .fileSendAccepted ..
  | .fileSendComplete .. | .fileSendFailed .. => return true

end RemoteControl.Server.Connection
