import Mathlib.Data.List.AList
import RemoteControl.Foundations.Transition
import RemoteControl.Phone.Downloads
import RemoteControl.Phone.QrCode

/-!
`ConnectionClient` of the phone (`app/net/ConnectionClient.kt`): its fields, the calls of the
user interface, and the callbacks of the WebSockets it has dialled.
-/

namespace RemoteControl.Phone.Client

open RemoteControl.Foundations.ByteStrings
open RemoteControl.Foundations.Transition
open RemoteControl.Phone.Messages
open RemoteControl.Phone.Downloads
open RemoteControl.Phone.QrCode

/-- The libraries the client calls: kotlinx.serialization, `android.util.Base64` with the
URL-safe and the default flags, `javax.crypto.Mac`, and the check of `Request.Builder.url`. -/
structure Platform where
  decodeServerMsg : String → Option ServerMsg
  base64UrlEncode : Bytes → String
  base64UrlDecode : String → Option Bytes
  base64Decode : String → Option Bytes
  hmacSha256 : Bytes → Bytes → Bytes
  validUrl : String → Bool
  sdkInt : Nat

/-! ### State -/

structure AudioStreamInfo where
  codec : String
  sampleRate : Int32
  channels : Int32
  csd0 : Bytes
  csd1 : Bytes
  csd2 : Bytes
deriving DecidableEq

structure ActiveStream where
  streamId : String
  codec : String
  width : Int32
  height : Int32
  fps : Int32
  bitrateKbps : Int32
  audio : Option AudioStreamInfo
deriving DecidableEq

structure Connected where
  serverName : String
  serverOs : String
  serverVersion : String
  session : String
  stream : Option ActiveStream := none
deriving DecidableEq

inductive ConnectionState where
  | idle
  | connecting
  | connected (connected : Connected)
  | failed (reason : String)
deriving DecidableEq

structure TrustedServer where
  deviceId : String
  token : String
  wsUrl : String
  serverName : String
  lastConnectedMs : Int64
deriving DecidableEq

inductive HelloPayload where
  | qr (code : String) (nonce : Bytes) (deviceName : String)
  | trusted (server : TrustedServer) (deviceName : String)
deriving DecidableEq

structure IncomingFile where
  id : Int32
  name : String
  totalBytes : Int64
  dest : String
  out : OutStream
  bytesWritten : Int64 := 0
  nextSeq : Int32 := 0
deriving DecidableEq

/-- The transfer of a file that has just been opened. -/
def IncomingFile.begun (fileBegin : FileSendBegin) (dest : String) (file : Nat) : IncomingFile :=
  { id := fileBegin.id, name := fileBegin.name, totalBytes := fileBegin.size, dest
    out := { file } }

/-- The transfer after one more chunk, which its stream has taken. -/
def IncomingFile.wrote (st : IncomingFile) (out : OutStream) (payload : Bytes) : IncomingFile :=
  { st with
    out
    bytesWritten := st.bytesWritten + Int64.ofNat payload.length
    nextSeq := st.nextSeq + 1 }

inductive FileTransferEvent where
  | accepted (id : Int32) (destPath : String)
  | incoming (id : Int32) (name : String) (totalBytes : Int64) (destPath : String)
  | progress (id : Int32) (bytesSent totalBytes : Int64)
  | complete (id : Int32) (destPath : String)
  | failed (id : Int32) (reason : String)
deriving DecidableEq

/-- What the client emits on its flows. -/
inductive Emitted where
  | frame (frame : VideoFrame)
  | audioFrame (frame : AudioFrame)
  | clipboardFromPc (text : String)
  | fileEvent (event : FileTransferEvent)
  | forgetDeviceId (deviceId : String)
deriving DecidableEq

inductive SocketPhase where
  | dialing
  | opened
  | failing
  | peerClosing
  | ended
deriving DecidableEq, Repr

/-- A WebSocket of OkHttp: `closed` once `close` was called on it or it has ended, after
which `send` does nothing. -/
structure Socket where
  url : String
  phase : SocketPhase := .dialing
  closed : Bool := false
  sent : List ClientMsg := []
deriving DecidableEq

abbrev HashMap (ν : Type) := AList fun _ : Int32 => ν

/-- The fields of the client, the output streams that it has open, by the files under them, the
sockets it has dialled in this order, and what it has emitted. -/
structure ConnectionClient where
  hasDownloadsDir : Bool
  directory : Directory
  state : ConnectionState := .idle
  webSocket : Option Nat := none
  pendingNonce : Bytes := []
  pendingKey : Bytes := []
  pendingWsUrl : String := ""
  pendingHello : Option HelloPayload := none
  pendingFallback : Option QrPayload := none
  pendingFallbackDeviceName : String := ""
  newlyTrustedServer : Option TrustedServer := none
  lastRttMs : Int64 := -1
  incomingFiles : HashMap IncomingFile := ∅
  openStreams : List Nat := []
  sockets : List Socket := []
  emitted : List Emitted := []

namespace ConnectionClient

def onSocket (f : Socket → Socket) (ws : Nat) (c : ConnectionClient) : ConnectionClient :=
  { c with sockets := c.sockets.modify ws f }

/-- `ws.send`. -/
def send (ws : Nat) (msg : ClientMsg) (c : ConnectionClient) : ConnectionClient :=
  c.onSocket (fun s => if s.closed then s else { s with sent := s.sent ++ [msg] }) ws

/-- `webSocket?.send`. -/
def sendCurrent (msg : ClientMsg) (c : ConnectionClient) : ConnectionClient :=
  match c.webSocket with
  | some ws => c.send ws msg
  | none => c

/-- `ws.close`. -/
def close (ws : Nat) (c : ConnectionClient) : ConnectionClient :=
  c.onSocket (fun s => { s with closed := true }) ws

/-- A callback that throws: OkHttp fails the socket. -/
def fail (ws : Nat) (c : ConnectionClient) : ConnectionClient :=
  c.onSocket (fun s => { s with phase := .failing, closed := true }) ws

def emit (e : Emitted) (c : ConnectionClient) : ConnectionClient :=
  { c with emitted := c.emitted ++ [e] }

def setState (state : ConnectionState) (c : ConnectionClient) : ConnectionClient :=
  { c with state }

/-! ### Files from the PC -/

/-- `out.close()`, after which the stream is not open any more, also when it throws. -/
def closeOut (os : Answers) (out : OutStream) (c : ConnectionClient) :
    ConnectionClient × OutStream × Except String Unit :=
  let closing := Downloads.close os c.directory out
  ({ c with
      directory := closing.1
      openStreams := if out.closed then c.openStreams else c.openStreams.erase out.file },
    closing.2)

/-- `abortAllIncomingFiles` for one entry. -/
def abortIncoming (os : Answers) (reason : String) (st : IncomingFile) (c : ConnectionClient) :
    ConnectionClient :=
  let c := (c.closeOut os st.out).1
  let directory :=
    if c.directory.exists_ st.dest && st.bytesWritten < st.totalBytes then
      c.directory.delete os st.dest
    else c.directory
  { c with directory }.emit (.fileEvent (.failed st.id reason))

def abortAllIncomingFiles (os : Answers) (reason : String) (c : ConnectionClient) :
    ConnectionClient :=
  let c := c.incomingFiles.entries.foldl (fun c entry => c.abortIncoming os reason entry.2) c
  { c with incomingFiles := ∅ }

def failIncoming (os : Answers) (st : IncomingFile) (reason : String) (c : ConnectionClient) :
    ConnectionClient :=
  let c := (c.closeOut os st.out).1
  let directory := c.directory.delete os st.dest
  let c := { c with directory, incomingFiles := c.incomingFiles.erase st.id }
  let c := c.sendCurrent (.fileSendFailed st.id reason)
  c.emit (.fileEvent (.failed st.id reason))

def cancelDownload (os : Answers) (id : Int32) (c : ConnectionClient) : ConnectionClient :=
  match c.incomingFiles.lookup id with
  | none => c
  | some st => c.failIncoming os st "user cancelled"

def handleFileSendBegin (os : Answers) (fileBegin : FileSendBegin) (c : ConnectionClient) :
    ConnectionClient :=
  match c.webSocket with
  | none => c
  | some ws =>
      if !c.hasDownloadsDir then
        c.send ws (.fileSendFailed fileBegin.id "phone has no downloads dir")
      else
        let dest := uniqueDestFile os c.directory fileBegin.name
        match os.openFault with
        | some e => c.send ws (.fileSendFailed fileBegin.id s!"open: {e}")
        | none =>
            let (file, directory) := c.directory.openOutput dest
            let st := IncomingFile.begun fileBegin dest file
            let c :=
              { c with
                directory
                incomingFiles := c.incomingFiles.insert st.id st
                openStreams := file :: c.openStreams }
            let destPath := directory.absolutePath dest
            let c := c.send ws (.fileSendAccepted fileBegin.id destPath)
            c.emit (.fileEvent (.incoming fileBegin.id fileBegin.name fileBegin.size destPath))

/-- The last chunk: `flush` and `close`, then the reply. -/
def finishIncoming (os : Answers) (st : IncomingFile) (c : ConnectionClient) :
    ConnectionClient :=
  match flushBuffer os c.directory st.out with
  | (directory, out, .error e) =>
      { c with directory }.failIncoming os { st with out } s!"close: {e}"
  | (directory, out, .ok _) =>
      let closing := { c with directory }.closeOut os out
      match closing.2 with
      | (out, .error e) => closing.1.failIncoming os { st with out } s!"close: {e}"
      | (_, .ok _) =>
          let c := closing.1
          let destPath := c.directory.absolutePath st.dest
          let c := { c with incomingFiles := c.incomingFiles.erase st.id }
          let c := c.sendCurrent (.fileSendComplete st.id destPath)
          c.emit (.fileEvent (.complete st.id destPath))

def handleIncomingFileChunk (os : Answers) (frame : VideoFrame) (c : ConnectionClient) :
    ConnectionClient :=
  match c.incomingFiles.lookup frame.transferId with
  | none => c
  | some st =>
      if frame.chunkSeq ≠ st.nextSeq then
        c.failIncoming os st s!"out-of-order chunk {frame.chunkSeq}"
      else
        let (directory, out, result) :=
          if frame.payload = [] then (c.directory, st.out, .ok ())
          else write os c.directory st.out frame.payload
        let c := { c with directory }
        match result with
        | .error e => c.failIncoming os { st with out } s!"write: {e}"
        | .ok _ =>
            let st := st.wrote out frame.payload
            let c := { c with incomingFiles := c.incomingFiles.insert st.id st }
            let c := c.emit (.fileEvent (.progress st.id st.bytesWritten st.totalBytes))
            -- FILE frames carry their last-chunk flag in the bit of a keyframe.
            if frame.isKeyframe then c.finishIncoming os st else c

/-! ### Calls of the user interface -/

def disconnect (os : Answers) (c : ConnectionClient) : ConnectionClient :=
  let c :=
    match c.webSocket with
    | some ws => c.close ws
    | none => c
  let c := { c with webSocket := none, state := .idle }
  c.abortAllIncomingFiles os "disconnected"

/-- `http.newWebSocket`, which throws at a URL it cannot parse. -/
def dial (platform : Platform) (url : String) (c : ConnectionClient) : Option ConnectionClient :=
  if platform.validUrl url then
    some { c with sockets := c.sockets ++ [{ url }], webSocket := some c.sockets.length }
  else none

/-- An exception here ends the app. -/
def connect (platform : Platform) (os : Answers) (payload : QrPayload) (deviceName : String)
    (c : ConnectionClient) : Option ConnectionClient := do
  let c := (c.disconnect os).setState .connecting
  let key ← platform.base64UrlDecode payload.keyB64Url
  let nonce := os.secureRandom
  let c :=
    { c with
      pendingKey := key
      pendingNonce := nonce
      pendingWsUrl := payload.wsUrl
      pendingHello := some (.qr payload.code nonce deviceName)
      pendingFallback := payload.fallback
      pendingFallbackDeviceName := deviceName }
  c.dial platform payload.wsUrl

def connectTrusted (platform : Platform) (os : Answers) (server : TrustedServer)
    (deviceName : String) (c : ConnectionClient) : Option ConnectionClient :=
  let c := (c.disconnect os).setState .connecting
  let c :=
    { c with
      pendingKey := []
      pendingNonce := []
      pendingWsUrl := server.wsUrl
      pendingHello := some (.trusted server deviceName) }
  c.dial platform server.wsUrl

/-! ### The handshake -/

def hexDigit (n : Nat) : Char :=
  if n < 10 then Char.ofNat ('0'.toNat + n) else Char.ofNat ('a'.toNat + (n - 10))

/-- `"%02x".format(b)`. -/
def format02x (b : UInt8) : List Char :=
  [hexDigit (b.toNat / 16), hexDigit (b.toNat % 16)]

/-- `SecretKeySpec` throws at an empty key. -/
def hmacSha256Hex (platform : Platform) (key data : Bytes) : Option String :=
  if key = [] then none
  else some (String.ofList ((platform.hmacSha256 key data).flatMap format02x))

def constantTimeEquals (a b : String) : Bool :=
  if a.length ≠ b.length then false
  else (a.toList.zip b.toList).foldl (fun diff p => diff ||| (p.1.toNat ^^^ p.2.toNat)) 0 = 0

def isTrustedReconnect (c : ConnectionClient) : Bool :=
  c.pendingKey = [] && c.pendingNonce = []

/-- The connection that a welcome announces. -/
def connectedBy (welcome : Welcome) : Connected :=
  { serverName := welcome.server.name
    serverOs := welcome.server.os
    serverVersion := welcome.server.version
    session := welcome.session }

/-- What `handleWelcome` does once the server has proved itself. -/
def acceptWelcome (os : Answers) (welcome : Welcome) (c : ConnectionClient) :
    ConnectionClient :=
  let c :=
    match welcome.trustToken, welcome.deviceId with
    | some token, some deviceId =>
        { c with
          newlyTrustedServer :=
            some
              { deviceId, token, wsUrl := c.pendingWsUrl, serverName := welcome.server.name
                lastConnectedMs := os.currentTimeMillis } }
    | _, _ => c
  c.setState (.connected (connectedBy welcome))

def hmacMismatch : String := "服务器身份验证失败（HMAC 不匹配）"

def handleWelcome (platform : Platform) (os : Answers) (welcome : Welcome) (ws : Nat)
    (c : ConnectionClient) : ConnectionClient :=
  if c.isTrustedReconnect then c.acceptWelcome os welcome
  else
    match hmacSha256Hex platform c.pendingKey c.pendingNonce with
    | none => c.fail ws
    | some expected =>
        if constantTimeEquals expected welcome.hmac then c.acceptWelcome os welcome
        else (c.setState (.failed hmacMismatch)).close ws

/-- The stream a message announces; `Base64.decode` throws at a codec configuration that is
no Base64. -/
def activeStream (platform : Platform) (msg : StreamStarted) : Option ActiveStream := do
  let audio ←
    match msg.audio with
    | none => some none
    | some dto => do
        let csd0 ← platform.base64Decode dto.csd0B64
        let csd1 ← platform.base64Decode dto.csd1B64
        let csd2 ← platform.base64Decode dto.csd2B64
        some
          (some
            { codec := dto.codec, sampleRate := dto.sampleRate, channels := dto.channels
              csd0, csd1, csd2 })
  some
    { streamId := msg.streamId, codec := msg.codec, width := msg.width, height := msg.height
      fps := msg.fps, bitrateKbps := msg.bitrateKbps, audio }

def handleStreamStarted (platform : Platform) (msg : StreamStarted) (ws : Nat)
    (c : ConnectionClient) : ConnectionClient :=
  match c.state, activeStream platform msg with
  | .connected cur, some stream => c.setState (.connected { cur with stream := some stream })
  | .connected _, none => c.fail ws
  | _, _ => c

def handleStreamStopped (c : ConnectionClient) : ConnectionClient :=
  match c.state with
  | .connected cur => c.setState (.connected { cur with stream := none })
  | _ => c

def mapErrorCode (code msg : String) : String :=
  match code with
  | "bad_pairing_code" => "配对码错误"
  | "code_expired" => "配对码已过期，请重新扫码"
  | "code_used" => "该二维码已被使用过"
  | "version_mismatch" => s!"协议版本不匹配：{msg}"
  | "malformed" => s!"消息格式错误：{msg}"
  | "stream_unavailable" => s!"屏幕串流不可用：{msg}"
  | "stream_already_running" => "已有活跃的串流"
  | "not_authenticated" => "未握手，请先重新连接"
  | "unknown_device" => "服务器不认识本设备，请重新扫码配对"
  | "bad_trust_token" => "信任凭证已失效，请重新扫码配对"
  | _ => s!"{code}: {msg}"

/-! ### Callbacks -/

def clientInfo (platform : Platform) (deviceName : String) : ClientInfo :=
  { name := deviceName
    os := s!"HarmonyOS/Android API {platform.sdkInt}"
    appVersion := "0.1.0" }

def onOpen (platform : Platform) (ws : Nat) (c : ConnectionClient) : ConnectionClient :=
  match c.pendingHello with
  | some (.qr code nonce deviceName) =>
      c.send ws
        (.hello protocolVersion code (platform.base64UrlEncode nonce)
          (clientInfo platform deviceName))
  | some (.trusted server deviceName) =>
      c.send ws
        (.trustedHello protocolVersion server.deviceId server.token
          (clientInfo platform deviceName))
  | none => c.close ws

def unparsable : String := "服务器返回的消息无法解析"

def forgetDevice (code : String) (c : ConnectionClient) : ConnectionClient :=
  if code = "bad_trust_token" || code = "unknown_device" then
    match c.pendingHello with
    | some (.trusted server _) => c.emit (.forgetDeviceId server.deviceId)
    | _ => c
  else c

def handlePong (os : Answers) (ts : Int64) (c : ConnectionClient) : ConnectionClient :=
  let rtt := os.currentTimeMillis - ts
  if 0 ≤ rtt && rtt ≤ 10000 then { c with lastRttMs := rtt } else c

def handleServerMsg (platform : Platform) (os : Answers) (ws : Nat) (c : ConnectionClient) :
    ServerMsg → ConnectionClient
  | .welcome welcome => c.handleWelcome platform os welcome ws
  | .serverError code msg =>
      ((c.forgetDevice code).setState (.failed (mapErrorCode code msg))).close ws
  | .pong ts => c.handlePong os ts
  | .streamStarted started => c.handleStreamStarted platform started ws
  | .streamStopped _ _ _ => c.handleStreamStopped
  | .clipboardText text => c.emit (.clipboardFromPc text)
  | .fileTransferAccepted id destPath => c.emit (.fileEvent (.accepted id destPath))
  | .fileTransferComplete id destPath => c.emit (.fileEvent (.complete id destPath))
  | .fileTransferFailed id reason => c.emit (.fileEvent (.failed id reason))
  | .fileSendBegin fileBegin => c.handleFileSendBegin os fileBegin

def onText (platform : Platform) (os : Answers) (ws : Nat) (text : String)
    (c : ConnectionClient) : ConnectionClient :=
  match platform.decodeServerMsg text with
  | none => (c.setState (.failed unparsable)).close ws
  | some msg => c.handleServerMsg platform os ws msg

def onBinary (os : Answers) (bytes : Bytes) (c : ConnectionClient) : ConnectionClient :=
  match parseFrame bytes with
  | none => c
  | some frame =>
      if frame.type = FrameType.video then c.emit (.frame frame)
      else if frame.type = FrameType.audio then
        c.emit (.audioFrame { payload := frame.payload, ptsUs := frame.ptsUs })
      else if frame.type = FrameType.file then c.handleIncomingFileChunk os frame
      else c

def wsFailed (message : Option String) : String :=
  let cause := message.getD "?"
  s!"ws failed: {cause}"

def onFailure (platform : Platform) (os : Answers) (ws : Nat) (message : Option String)
    (c : ConnectionClient) : Option ConnectionClient :=
  if c.webSocket ≠ some ws then some c
  else
    let c := c.abortAllIncomingFiles os (wsFailed message)
    match c.pendingFallback with
    | some fb =>
        { c with pendingFallback := none, webSocket := none }.connect platform os fb
          c.pendingFallbackDeviceName
    | none => some { c.setState (.failed (message.getD "连接失败")) with webSocket := none }

def onClosed (os : Answers) (ws : Nat) (reason : String) (c : ConnectionClient) :
    ConnectionClient :=
  if c.webSocket ≠ some ws then c
  else
    let c := { c with webSocket := none }
    let c :=
      match c.state with
      | .connected _ => c.setState .idle
      | _ => c
    c.abortAllIncomingFiles os s!"ws closed: {reason}"

end ConnectionClient

/-! ### The transition system -/

inductive Callback where
  | onOpen
  | onText (text : String)
  | onBinary (bytes : Bytes)
  | onClosing
  | onClosed (reason : String)
  | onFailure (message : Option String)
deriving DecidableEq

/-- OkHttp opens a socket once, delivers messages until the peer closes or the socket fails,
and ends it with one `onClosed` or `onFailure`. -/
def SocketPhase.after : SocketPhase → Callback → Option SocketPhase
  | .dialing, .onOpen => some .opened
  | .opened, .onText _ => some .opened
  | .opened, .onBinary _ => some .opened
  | .opened, .onClosing => some .peerClosing
  | .peerClosing, .onClosed _ => some .ended
  | .dialing, .onFailure _ => some .ended
  | .opened, .onFailure _ => some .ended
  | .failing, .onFailure _ => some .ended
  | .peerClosing, .onFailure _ => some .ended
  | _, _ => none

/-- A call of the user interface, or a callback of one of the sockets. -/
inductive Action where
  | connect (payload : QrPayload) (deviceName : String)
  | connectTrusted (server : TrustedServer) (deviceName : String)
  | disconnect
  | cancelDownload (id : Int32)
  | callback (ws : Nat) (callback : Callback)

namespace ConnectionClient

def handleCallback (platform : Platform) (os : Answers) (ws : Nat) (c : ConnectionClient) :
    Callback → Option ConnectionClient
  | .onOpen => some (c.onOpen platform ws)
  | .onText text => some (c.onText platform os ws text)
  | .onBinary bytes => some (c.onBinary os bytes)
  | .onClosing => some (c.close ws)
  | .onClosed reason => some (c.onClosed os ws reason)
  | .onFailure message => c.onFailure platform os ws message

/-- The socket after a callback; one that has ended sends nothing more. -/
def advance (ws : Nat) (phase : SocketPhase) (c : ConnectionClient) : ConnectionClient :=
  c.onSocket (fun s => { s with phase, closed := s.closed || phase = .ended }) ws

def deliver (platform : Platform) (os : Answers) (ws : Nat) (callback : Callback)
    (c : ConnectionClient) : Option ConnectionClient := do
  let socket ← c.sockets[ws]?
  let phase ← socket.phase.after callback
  (c.advance ws phase).handleCallback platform os ws callback

def act (platform : Platform) (os : Answers) (c : ConnectionClient) :
    Action → Option ConnectionClient
  | .connect payload deviceName => c.connect platform os payload deviceName
  | .connectTrusted server deviceName => c.connectTrusted platform os server deviceName
  | .disconnect => some (c.disconnect os)
  | .cancelDownload id => some (c.cancelDownload os id)
  | .callback ws callback => c.deliver platform os ws callback

end ConnectionClient

/-- The client as it is created. -/
def Fresh (c : ConnectionClient) : Prop :=
  ∃ hasDownloadsDir directory, c = { hasDownloadsDir, directory }

/-- Calls and callbacks in any order, each run to its end; there is no step after an
exception that ends the app. -/
def client (platform : Platform) : System ConnectionClient (Action × Answers) where
  init := Fresh
  step c label c' := c.act platform label.2 label.1 = some c'

end RemoteControl.Phone.Client
