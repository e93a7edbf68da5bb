import RemoteControl.Foundations.ByteStrings

/-!
The messages of the control plane and the binary frames of the data plane
(`server-pc/src/protocol.rs`).
-/

namespace RemoteControl.Wire.Protocol

open RemoteControl.Foundations.ByteStrings

inductive MouseButton where
  | left
  | right
  | middle
deriving DecidableEq, Repr

structure ClientInfo where
  name : String := ""
  os : String := ""
  appVersion : String := ""
deriving DecidableEq, Repr

/-- The messages a phone sends. The `f32` coordinates of `mouse_move` are kept as their bit
patterns. -/
inductive ClientMsg where
  | hello (v : UInt32) (c nonce : String) (client : ClientInfo)
  | trustedHello (v : UInt32) (deviceId token : String) (client : ClientInfo)
  | ping (ts : UInt64)
  | streamRequest (codec : String)
      (maxBitrateKbps maxFps preferKeyframeIntervalMs : Option UInt32)
  | streamStop (streamId : Option String)
  | keyframeRequest (streamId : Option String)
  | mouseMove (x y : UInt32)
  | mouseButton (button : MouseButton) (down : Bool)
  | mouseScroll (dx dy : Int32)
  | keyText (text : String)
  | keyEvent (vk : UInt32) (down : Bool)
  | clipboardSet (text : String)
  | clipboardGet
  | fileTransferBegin (id : UInt32) (name : String) (size : UInt64)
  | fileTransferAbort (id : UInt32) (reason : String)
  | fileSendAccepted (id : UInt32) (destPath : String)
  | fileSendComplete (id : UInt32) (destPath : String)
  | fileSendFailed (id : UInt32) (reason : String)
deriving DecidableEq

def ClientMsg.isHandshake : ClientMsg → Bool
  | .hello .. | .trustedHello .. => true
  | _ => false

structure ServerInfo where
  name : String
  os : String
  version : String
deriving DecidableEq, Repr

structure AudioMetadata where
  codec : String
  sampleRate : UInt32
  channels : UInt32
  frameSizeMs : UInt32
  bitrateKbps : UInt32
  csd0B64 : String
  csd1B64 : String
  csd2B64 : String
deriving DecidableEq, Repr

inductive ErrorCode where
  | badPairingCode
  | codeExpired
  | codeUsed
  | versionMismatch
  | malformed
  | unknownDevice
  | badTrustToken
  | streamUnavailable
  | streamAlreadyRunning
  | notAuthenticated
  | inputUnavailable
  | keyEventInvalid
deriving DecidableEq, Repr

inductive StreamStopReason where
  | clientRequested
  | encoderError
  | captureError
  | serverShutdown
deriving DecidableEq, Repr

/-- The fields of `stream_started`. -/
structure StreamStarted where
  streamId : String
  codec : String
  profile : String
  level : String
  width : UInt32
  height : UInt32
  fps : UInt32
  bitrateKbps : UInt32
  keyframeIntervalFrames : UInt32
  pixelFormat : String
  startedAtUnixMs : UInt64
  audio : Option AudioMetadata
deriving DecidableEq, Repr

/-- The messages the PC sends. -/
inductive ServerMsg where
  | welcome (session : String) (server : ServerInfo) (hmac : String)
      (trustToken deviceId : Option String)
  | error (code : ErrorCode) (msg : String)
  | pong (ts : UInt64)
  | streamStarted (started : StreamStarted)
  | streamStopped (streamId : String) (reason : StreamStopReason) (msg : String)
  | clipboardText (text : String)
  | fileTransferAccepted (id : UInt32) (destPath : String)
  | fileTransferComplete (id : UInt32) (destPath : String)
  | fileTransferFailed (id : UInt32) (reason : String)
  | fileSendBegin (id : UInt32) (name : String) (size : UInt64)
deriving DecidableEq

/-- A WebSocket message as both transports hand it over. -/
inductive Message where
  | text (text : String)
  | binary (bytes : Bytes)
  | ping (payload : Bytes)
  | pong (payload : Bytes)
  | close
deriving DecidableEq

def frameHeaderLen : Nat := 12

namespace FrameType

def video : UInt8 := 0x01
def audio : UInt8 := 0x02
def file : UInt8 := 0x03

end FrameType

namespace FrameFlags

def keyframe : UInt8 := (1 : UInt8) <<< 0
def config : UInt8 := (1 : UInt8) <<< 1
def lastChunk : UInt8 := (1 : UInt8) <<< 0

end FrameFlags

def buildVideoFrame (payload : Bytes) (ptsUs : UInt64) (keyframe hasConfig : Bool) : Bytes :=
  let flags : UInt8 := 0
  let flags := if keyframe then flags ||| FrameFlags.keyframe else flags
  let flags := if hasConfig then flags ||| FrameFlags.config else flags
  [FrameType.video, flags, 0, 0] ++ leBytes 8 ptsUs.toNat ++ payload

def buildAudioFrame (payload : Bytes) (ptsUs : UInt64) : Bytes :=
  [FrameType.audio, 0, 0, 0] ++ leBytes 8 ptsUs.toNat ++ payload

def peekFrameHeader : Bytes → Option (UInt8 × UInt8)
  | buf@(frameType :: flags :: _) =>
      if buf.length < frameHeaderLen then none else some (frameType, flags)
  | _ => none

def buildFileChunkFrame (transferId chunkSeq : UInt32) (lastChunk : Bool)
    (payload : Bytes) : Bytes :=
  [FrameType.file, if lastChunk then FrameFlags.lastChunk else 0, 0, 0] ++
    leBytes 4 transferId.toNat ++ leBytes 4 chunkSeq.toNat ++ payload

/-- What `parse_file_chunk` reads from a frame. -/
structure FileChunk where
  id : UInt32
  seq : UInt32
  isLast : Bool
  payload : Bytes
deriving DecidableEq

def parseFileChunk (buf : Bytes) : Option FileChunk :=
  if buf.length < frameHeaderLen then none
  else
    some
      { id := UInt32.ofNat (ofLeBytes ((buf.drop 4).take 4))
        seq := UInt32.ofNat (ofLeBytes ((buf.drop 8).take 4))
        isLast := (buf.getD 1 0) &&& FrameFlags.lastChunk != 0
        payload := buf.drop frameHeaderLen }

theorem buildFileChunkFrame_length (id seq : UInt32) (last : Bool) (payload : Bytes) :
    (buildFileChunkFrame id seq last payload).length = frameHeaderLen + payload.length := by
  simp [buildFileChunkFrame, frameHeaderLen]
  omega

/-- The parser reads back every chunk frame the builder can produce. -/
theorem parseFileChunk_buildFileChunkFrame (id seq : UInt32) (last : Bool) (payload : Bytes) :
    parseFileChunk (buildFileChunkFrame id seq last payload) = some ⟨id, seq, last, payload⟩ := by
  have hlen := buildFileChunkFrame_length id seq last payload
  have hid : UInt32.ofNat (ofLeBytes (leBytes 4 id.toNat)) = id := by
    rw [ofLeBytes_leBytes, Nat.mod_eq_of_lt (by simpa using id.toNat_lt), UInt32.ofNat_toNat]
  have hseq : UInt32.ofNat (ofLeBytes (leBytes 4 seq.toNat)) = seq := by
    rw [ofLeBytes_leBytes, Nat.mod_eq_of_lt (by simpa using seq.toNat_lt), UInt32.ofNat_toNat]
  have hidBytes : ((buildFileChunkFrame id seq last payload).drop 4).take 4 =
      leBytes 4 id.toNat := by
    simp [buildFileChunkFrame]
  have hseqBytes : ((buildFileChunkFrame id seq last payload).drop 8).take 4 =
      leBytes 4 seq.toNat := by
    simp [buildFileChunkFrame]
  have hlast : ((buildFileChunkFrame id seq last payload).getD 1 0 &&&
      FrameFlags.lastChunk != 0) = last := by
    cases last <;> simp [buildFileChunkFrame, FrameFlags.lastChunk]
  have hpayload : (buildFileChunkFrame id seq last payload).drop frameHeaderLen = payload := by
    simp [buildFileChunkFrame, frameHeaderLen, List.drop_append]
  rw [parseFileChunk, if_neg (by omega), hidBytes, hseqBytes, hid, hseq, hlast, hpayload]

end RemoteControl.Wire.Protocol
