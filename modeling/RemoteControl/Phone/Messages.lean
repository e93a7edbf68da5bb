import RemoteControl.Foundations.ByteStrings

/-!
The phone's side of the protocol (`app/net/Protocol.kt`): the messages it sends and reads, and
the frames it parses. A Kotlin `Int` is an `Int32` and a `Long` an `Int64`.
-/

namespace RemoteControl.Phone.Messages

open RemoteControl.Foundations.ByteStrings

structure ClientInfo where
  name : String
  os : String
  appVersion : String
deriving DecidableEq, Repr

/-- The messages the phone sends. A `Float` is kept as its bit pattern. -/
inductive ClientMsg where
  | hello (v : Int32) (c nonce : String) (client : ClientInfo)
  | trustedHello (v : Int32) (deviceId token : String) (client : ClientInfo)
  | ping (ts : Int64)
  | streamRequest (codec : String)
      (maxBitrateKbps maxFps preferKeyframeIntervalMs : Option Int32)
  | streamStop (streamId : Option String)
  | keyframeRequest (streamId : Option String)
  | mouseMove (x y : UInt32)
  | mouseButton (button : String) (down : Bool)
  | mouseScroll (dx dy : Int32)
  | keyText (text : String)
  | keyEvent (vk : Int32) (down : Bool)
  | clipboardSet (text : String)
  | clipboardGet
  | fileTransferBegin (id : Int32) (name : String) (size : Int64)
  | fileTransferAbort (id : Int32) (reason : String)
  | fileSendAccepted (id : Int32) (destPath : String)
  | fileSendComplete (id : Int32) (destPath : String)
  | fileSendFailed (id : Int32) (reason : String)
deriving DecidableEq

def ClientMsg.isHandshake : ClientMsg → Bool
  | .hello .. | .trustedHello .. => true
  | _ => false

structure ServerInfo where
  name : String
  os : String
  version : String
deriving DecidableEq, Repr

structure Welcome where
  session : String
  server : ServerInfo
  hmac : String
  trustToken : Option String
  deviceId : Option String
deriving DecidableEq, Repr

structure AudioMetadataDto where
  codec : String
  sampleRate : Int32
  channels : Int32
  frameSizeMs : Int32
  bitrateKbps : Int32
  csd0B64 : String
  csd1B64 : String
  csd2B64 : String
deriving DecidableEq

structure StreamStarted where
  streamId : String
  codec : String
  profile : String
  level : String
  width : Int32
  height : Int32
  fps : Int32
  bitrateKbps : Int32
  keyframeIntervalFrames : Int32
  pixelFormat : String
  startedAtUnixMs : Int64
  audio : Option AudioMetadataDto
deriving DecidableEq

structure FileSendBegin where
  id : Int32
  name : String
  size : Int64
deriving DecidableEq

/-- The messages the phone reads. -/
inductive ServerMsg where
  | welcome (welcome : Welcome)
  | serverError (code msg : String)
  | pong (ts : Int64)
  | streamStarted (started : StreamStarted)
  | streamStopped (streamId reason msg : String)
  | clipboardText (text : String)
  | fileTransferAccepted (id : Int32) (destPath : String)
  | fileTransferComplete (id : Int32) (destPath : String)
  | fileTransferFailed (id : Int32) (reason : String)
  | fileSendBegin (fileBegin : FileSendBegin)
deriving DecidableEq

def protocolVersion : Int32 := 6

/-! ### Binary frames -/

def frameHeaderLen : Nat := 12

namespace FrameType

def video : UInt8 := 0x01
def audio : UInt8 := 0x02
def file : UInt8 := 0x03

end FrameType

namespace FrameFlags

def keyframe : UInt8 := 0x01
def config : UInt8 := 0x02

end FrameFlags

structure AudioFrame where
  payload : Bytes
  ptsUs : Int64
deriving DecidableEq

structure VideoFrame where
  type : UInt8
  isKeyframe : Bool
  hasConfig : Bool
  ptsUs : Int64
  payload : Bytes
deriving DecidableEq

/-- `readLongLe` at offset 4. -/
def readLongLe (bytes : Bytes) : Int64 :=
  (UInt64.ofNat (ofLeBytes ((bytes.drop 4).take 8))).toInt64

/-- `FrameParser.parse`. -/
def parseFrame (bytes : Bytes) : Option VideoFrame :=
  if bytes.length < frameHeaderLen then none
  else
    let flags := bytes.getD 1 0
    some
      { type := bytes.getD 0 0
        isKeyframe := flags &&& FrameFlags.keyframe != 0
        hasConfig := flags &&& FrameFlags.config != 0
        ptsUs := readLongLe bytes
        payload := bytes.drop frameHeaderLen }

/-- The low half of the timestamp of a FILE frame. -/
def VideoFrame.transferId (frame : VideoFrame) : Int32 :=
  frame.ptsUs.toUInt64.toUInt32.toInt32

/-- The high half. -/
def VideoFrame.chunkSeq (frame : VideoFrame) : Int32 :=
  (frame.ptsUs.toUInt64 >>> 32).toUInt32.toInt32

end RemoteControl.Phone.Messages
