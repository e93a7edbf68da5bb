import RemoteControl.Wire.Protocol

/-!
JSON values, and the messages of the control plane as `serde` reads and writes them
(`server-pc/src/protocol.rs`). The text of a value is the business of the libraries.
-/

namespace RemoteControl.Wire.Serde

open RemoteControl.Wire.Protocol

/-- A number with a fraction or an exponent: `mantissa` times ten to the `exponent`. -/
structure Decimal where
  mantissa : Int
  exponent : Int
deriving DecidableEq, Repr

inductive Json where
  | null
  | bool (b : Bool)
  | num (n : Int)
  | real (d : Decimal)
  | str (s : String)
  | arr (elements : List Json)
  | obj (fields : List (String × Json))

namespace Json

def field (name : String) : Json → Option Json
  | .obj fields => fields.lookup name
  | _ => none

def asStr : Json → Option String
  | .str s => some s
  | _ => none

def asU32 : Json → Option UInt32
  | .num n => if 0 ≤ n ∧ n < 2 ^ 32 then some (UInt32.ofNat n.toNat) else none
  | _ => none

def asU64 : Json → Option UInt64
  | .num n => if 0 ≤ n ∧ n < 2 ^ 64 then some (UInt64.ofNat n.toNat) else none
  | _ => none

def asI32 : Json → Option Int32
  | .num n => if -2 ^ 31 ≤ n ∧ n < 2 ^ 31 then some (Int32.ofInt n) else none
  | _ => none

def asBool : Json → Option Bool
  | .bool b => some b
  | _ => none

/-- An `f32`, as its bit pattern. `readF32` is the number parser of the library. -/
def asF32 (readF32 : Decimal → Option UInt32) : Json → Option UInt32
  | .num n => readF32 ⟨n, 0⟩
  | .real d => readF32 d
  | _ => none

end Json

/-- A field with `#[serde(default)]`. -/
def defaulted {α : Type} (default : α) (read : Json → Option α) : Option Json → Option α
  | none => some default
  | some j => read j

/-- A field of type `Option` with `#[serde(default)]`. -/
def optionOf {α : Type} (read : Json → Option α) : Option Json → Option (Option α)
  | none => some none
  | some .null => some none
  | some j => (read j).map some

def clientInfoOfJson (j : Json) : Option ClientInfo := do
  let .obj _ := j | none
  let name ← defaulted "" Json.asStr (j.field "name")
  let os ← defaulted "" Json.asStr (j.field "os")
  let appVersion ← defaulted "" Json.asStr (j.field "app_version")
  return { name, os, appVersion }

/-- `ClientMsg::Hello`. -/
def helloOfJson (j : Json) : Option ClientMsg := do
  let v ← (← j.field "v").asU32
  let c ← (← j.field "c").asStr
  let nonce ← (← j.field "nonce").asStr
  let client ← defaulted {} clientInfoOfJson (j.field "client")
  return .hello v c nonce client

/-- `MouseButton`, with `rename_all = "lowercase"`. -/
def mouseButtonOfJson : Json → Option MouseButton
  | .str "left" => some .left
  | .str "right" => some .right
  | .str "middle" => some .middle
  | _ => none

/-- `ClientMsg`, with its internal tag. -/
def clientMsgOfJson (readF32 : Decimal → Option UInt32) (j : Json) : Option ClientMsg := do
  match ← (← j.field "type").asStr with
  | "hello" => helloOfJson j
  | "trusted_hello" =>
      let v ← (← j.field "v").asU32
      let deviceId ← (← j.field "device_id").asStr
      let token ← (← j.field "token").asStr
      let client ← defaulted {} clientInfoOfJson (j.field "client")
      return .trustedHello v deviceId token client
  | "ping" => return .ping (← defaulted 0 Json.asU64 (j.field "ts"))
  | "stream_request" =>
      let codec ← defaulted "h264" Json.asStr (j.field "codec")
      let maxBitrateKbps ← optionOf Json.asU32 (j.field "max_bitrate_kbps")
      let maxFps ← optionOf Json.asU32 (j.field "max_fps")
      let preferKeyframeIntervalMs ← optionOf Json.asU32 (j.field "prefer_keyframe_interval_ms")
      return .streamRequest codec maxBitrateKbps maxFps preferKeyframeIntervalMs
  | "stream_stop" => return .streamStop (← optionOf Json.asStr (j.field "stream_id"))
  | "keyframe_request" => return .keyframeRequest (← optionOf Json.asStr (j.field "stream_id"))
  | "mouse_move" =>
      return .mouseMove (← (← j.field "x").asF32 readF32) (← (← j.field "y").asF32 readF32)
  | "mouse_button" =>
      return .mouseButton (← mouseButtonOfJson (← j.field "button"))
        (← (← j.field "down").asBool)
  | "mouse_scroll" =>
      return .mouseScroll (← defaulted 0 Json.asI32 (j.field "dx"))
        (← defaulted 0 Json.asI32 (j.field "dy"))
  | "key_text" => return .keyText (← (← j.field "text").asStr)
  | "key_event" => return .keyEvent (← (← j.field "vk").asU32) (← (← j.field "down").asBool)
  | "clipboard_set" => return .clipboardSet (← (← j.field "text").asStr)
  | "clipboard_get" => return .clipboardGet
  | "file_transfer_begin" =>
      return .fileTransferBegin (← (← j.field "id").asU32) (← (← j.field "name").asStr)
        (← (← j.field "size").asU64)
  | "file_transfer_abort" =>
      return .fileTransferAbort (← (← j.field "id").asU32)
        (← defaulted "" Json.asStr (j.field "reason"))
  | "file_send_accepted" =>
      return .fileSendAccepted (← (← j.field "id").asU32) (← (← j.field "dest_path").asStr)
  | "file_send_complete" =>
      return .fileSendComplete (← (← j.field "id").asU32) (← (← j.field "dest_path").asStr)
  | "file_send_failed" =>
      return .fileSendFailed (← (← j.field "id").asU32) (← (← j.field "reason").asStr)
  | _ => none

/-- A field with `skip_serializing_if = "Option::is_none"`. -/
def optional (name : String) : Option String → List (String × Json)
  | none => []
  | some s => [(name, .str s)]

def serverInfoToJson (server : ServerInfo) : Json :=
  .obj [("name", .str server.name), ("os", .str server.os), ("version", .str server.version)]

/-- `ServerMsg::Welcome`. -/
def welcomeToJson (session : String) (server : ServerInfo) (hmac : String)
    (trustToken deviceId : Option String) : Json :=
  .obj
    ([("type", .str "welcome"), ("session", .str session), ("server", serverInfoToJson server),
        ("hmac", .str hmac)] ++
      optional "trust_token" trustToken ++ optional "device_id" deviceId)

/-- The variants of `ErrorCode` under `rename_all = "snake_case"`. -/
def errorCodeName : ErrorCode → String
  | .badPairingCode => "bad_pairing_code"
  | .codeExpired => "code_expired"
  | .codeUsed => "code_used"
  | .versionMismatch => "version_mismatch"
  | .malformed => "malformed"
  | .unknownDevice => "unknown_device"
  | .badTrustToken => "bad_trust_token"
  | .streamUnavailable => "stream_unavailable"
  | .streamAlreadyRunning => "stream_already_running"
  | .notAuthenticated => "not_authenticated"
  | .inputUnavailable => "input_unavailable"
  | .keyEventInvalid => "key_event_invalid"

/-- The variants of `StreamStopReason` under `rename_all = "snake_case"`. -/
def streamStopReasonName : StreamStopReason → String
  | .clientRequested => "client_requested"
  | .encoderError => "encoder_error"
  | .captureError => "capture_error"
  | .serverShutdown => "server_shutdown"

def u32ToJson (n : UInt32) : Json := .num n.toNat

def u64ToJson (n : UInt64) : Json := .num n.toNat

def audioMetadataToJson (audio : AudioMetadata) : Json :=
  .obj
    [("codec", .str audio.codec), ("sample_rate", u32ToJson audio.sampleRate),
      ("channels", u32ToJson audio.channels), ("frame_size_ms", u32ToJson audio.frameSizeMs),
      ("bitrate_kbps", u32ToJson audio.bitrateKbps), ("csd_0_b64", .str audio.csd0B64),
      ("csd_1_b64", .str audio.csd1B64), ("csd_2_b64", .str audio.csd2B64)]

/-- `ServerMsg::StreamStarted`. -/
def streamStartedToJson (started : StreamStarted) : Json :=
  .obj
    ([("type", .str "stream_started"), ("stream_id", .str started.streamId),
        ("codec", .str started.codec), ("profile", .str started.profile),
        ("level", .str started.level), ("width", u32ToJson started.width),
        ("height", u32ToJson started.height), ("fps", u32ToJson started.fps),
        ("bitrate_kbps", u32ToJson started.bitrateKbps),
        ("keyframe_interval_frames", u32ToJson started.keyframeIntervalFrames),
        ("pixel_format", .str started.pixelFormat),
        ("started_at_unix_ms", u64ToJson started.startedAtUnixMs)] ++
      (started.audio.map fun audio => ("audio", audioMetadataToJson audio)).toList)

/-- The three replies that carry an id and a text. -/
def transferToJson (tag : String) (id : UInt32) (name text : String) : Json :=
  .obj [("type", .str tag), ("id", u32ToJson id), (name, .str text)]

def serverMsgToJson : ServerMsg → Json
  | .welcome session server hmac trustToken deviceId =>
      welcomeToJson session server hmac trustToken deviceId
  | .error code msg =>
      .obj [("type", .str "error"), ("code", .str (errorCodeName code)), ("msg", .str msg)]
  | .pong ts => .obj [("type", .str "pong"), ("ts", u64ToJson ts)]
  | .streamStarted started => streamStartedToJson started
  | .streamStopped streamId reason msg =>
      .obj
        [("type", .str "stream_stopped"), ("stream_id", .str streamId),
          ("reason", .str (streamStopReasonName reason)), ("msg", .str msg)]
  | .clipboardText text => .obj [("type", .str "clipboard_text"), ("text", .str text)]
  | .fileTransferAccepted id destPath =>
      transferToJson "file_transfer_accepted" id "dest_path" destPath
  | .fileTransferComplete id destPath =>
      transferToJson "file_transfer_complete" id "dest_path" destPath
  | .fileTransferFailed id reason => transferToJson "file_transfer_failed" id "reason" reason
  | .fileSendBegin id name size =>
      .obj
        [("type", .str "file_send_begin"), ("id", u32ToJson id), ("name", .str name),
          ("size", u64ToJson size)]

end RemoteControl.Wire.Serde
