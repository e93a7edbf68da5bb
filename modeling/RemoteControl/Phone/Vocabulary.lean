import RemoteControl.Phone.Handshake

/-!
The messages of the control plane as kotlinx.serialization writes and reads them
(`app/net/Protocol.kt`), against what `serde` reads and writes.
-/

namespace RemoteControl.Phone.Vocabulary

open RemoteControl.Wire.Serde
open RemoteControl.Phone.Messages
open RemoteControl.Phone.Downloads
open RemoteControl.Phone.Client
open RemoteControl.Phone.Client.ConnectionClient
open RemoteControl.Phone.Handshake

/-! ### What the phone writes -/

def i32ToJson (n : Int32) : Json := .num n.toInt

def i64ToJson (n : Int64) : Json := .num n.toInt

/-- A nullable field: `encodeDefaults` writes it also when it is null. -/
def orNull {α : Type} (write : α → Json) : Option α → Json
  | none => .null
  | some a => write a

/-- `Float.isFinite`, of a bit pattern. -/
def isFinite (bits : UInt32) : Bool := (bits >>> 23) &&& 0xff != 0xff

/-- A `Float`: one that is not finite is refused. `floatToString` is what the library prints. -/
def floatToJson (floatToString : UInt32 → Decimal) (bits : UInt32) : Option Json :=
  if isFinite bits then some (.real (floatToString bits)) else none

/-- A message with its class discriminator. -/
def tagged (serialName : String) (fields : List (String × Json)) : Json :=
  .obj (("type", .str serialName) :: fields)

def clientMsgToJson (floatToString : UInt32 → Decimal) : ClientMsg → Option Json
  | .hello v c nonce client => some (helloToJson v c nonce client)
  | .trustedHello v deviceId token client =>
      some (tagged "trusted_hello"
        [("v", i32ToJson v), ("device_id", .str deviceId), ("token", .str token),
          ("client", clientInfoToJson client)])
  | .ping ts => some (tagged "ping" [("ts", i64ToJson ts)])
  | .streamRequest codec maxBitrateKbps maxFps preferKeyframeIntervalMs =>
      some (tagged "stream_request"
        [("codec", .str codec), ("max_bitrate_kbps", orNull i32ToJson maxBitrateKbps),
          ("max_fps", orNull i32ToJson maxFps),
          ("prefer_keyframe_interval_ms", orNull i32ToJson preferKeyframeIntervalMs)])
  | .streamStop streamId => some (tagged "stream_stop" [("stream_id", orNull .str streamId)])
  | .keyframeRequest streamId =>
      some (tagged "keyframe_request" [("stream_id", orNull .str streamId)])
  | .mouseMove x y => do
      let x ← floatToJson floatToString x
      let y ← floatToJson floatToString y
      return tagged "mouse_move" [("x", x), ("y", y)]
  | .mouseButton button down =>
      some (tagged "mouse_button" [("button", .str button), ("down", .bool down)])
  | .mouseScroll dx dy =>
      some (tagged "mouse_scroll" [("dx", i32ToJson dx), ("dy", i32ToJson dy)])
  | .keyText text => some (tagged "key_text" [("text", .str text)])
  | .keyEvent vk down => some (tagged "key_event" [("vk", i32ToJson vk), ("down", .bool down)])
  | .clipboardSet text => some (tagged "clipboard_set" [("text", .str text)])
  | .clipboardGet => some (tagged "clipboard_get" [])
  | .fileTransferBegin id name size =>
      some (tagged "file_transfer_begin"
        [("id", i32ToJson id), ("name", .str name), ("size", i64ToJson size)])
  | .fileTransferAbort id reason =>
      some (tagged "file_transfer_abort" [("id", i32ToJson id), ("reason", .str reason)])
  | .fileSendAccepted id destPath =>
      some (tagged "file_send_accepted" [("id", i32ToJson id), ("dest_path", .str destPath)])
  | .fileSendComplete id destPath =>
      some (tagged "file_send_complete" [("id", i32ToJson id), ("dest_path", .str destPath)])
  | .fileSendFailed id reason =>
      some (tagged "file_send_failed" [("id", i32ToJson id), ("reason", .str reason)])

/-! ### What the phone reads -/

def asInt : Json → Option Int32
  | .num n => if -2 ^ 31 ≤ n ∧ n < 2 ^ 31 then some (Int32.ofInt n) else none
  | _ => none

def asLong : Json → Option Int64
  | .num n => if -2 ^ 63 ≤ n ∧ n < 2 ^ 63 then some (Int64.ofInt n) else none
  | _ => none

def audioMetadataOfJson (j : Json) : Option AudioMetadataDto := do
  let codec ← (← j.field "codec").asStr
  let sampleRate ← asInt (← j.field "sample_rate")
  let channels ← asInt (← j.field "channels")
  let frameSizeMs ← asInt (← j.field "frame_size_ms")
  let bitrateKbps ← asInt (← j.field "bitrate_kbps")
  let csd0B64 ← (← j.field "csd_0_b64").asStr
  let csd1B64 ← (← j.field "csd_1_b64").asStr
  let csd2B64 ← (← j.field "csd_2_b64").asStr
  return { codec, sampleRate, channels, frameSizeMs, bitrateKbps, csd0B64, csd1B64, csd2B64 }

def streamStartedOfJson (j : Json) : Option StreamStarted := do
  let streamId ← (← j.field "stream_id").asStr
  let codec ← (← j.field "codec").asStr
  let profile ← (← j.field "profile").asStr
  let level ← (← j.field "level").asStr
  let width ← asInt (← j.field "width")
  let height ← asInt (← j.field "height")
  let fps ← asInt (← j.field "fps")
  let bitrateKbps ← asInt (← j.field "bitrate_kbps")
  let keyframeIntervalFrames ← asInt (← j.field "keyframe_interval_frames")
  let pixelFormat ← (← j.field "pixel_format").asStr
  let startedAtUnixMs ← asLong (← j.field "started_at_unix_ms")
  let audio ← optionOf audioMetadataOfJson (j.field "audio")
  return { streamId, codec, profile, level, width, height, fps, bitrateKbps,
           keyframeIntervalFrames, pixelFormat, startedAtUnixMs, audio }

def serverMsgOfJson (j : Json) : Option ServerMsg := do
  match ← (← j.field "type").asStr with
  | "welcome" => return .welcome (← welcomeOfJson j)
  | "error" => return .serverError (← (← j.field "code").asStr) (← (← j.field "msg").asStr)
  | "pong" => return .pong (← asLong (← j.field "ts"))
  | "stream_started" => return .streamStarted (← streamStartedOfJson j)
  | "stream_stopped" =>
      return .streamStopped (← (← j.field "stream_id").asStr) (← (← j.field "reason").asStr)
        (← defaulted "" Json.asStr (j.field "msg"))
  | "clipboard_text" => return .clipboardText (← (← j.field "text").asStr)
  | "file_transfer_accepted" =>
      return .fileTransferAccepted (← asInt (← j.field "id")) (← (← j.field "dest_path").asStr)
  | "file_transfer_complete" =>
      return .fileTransferComplete (← asInt (← j.field "id")) (← (← j.field "dest_path").asStr)
  | "file_transfer_failed" =>
      return .fileTransferFailed (← asInt (← j.field "id")) (← (← j.field "reason").asStr)
  | "file_send_begin" =>
      return .fileSendBegin
        { id := ← asInt (← j.field "id")
          name := ← (← j.field "name").asStr
          size := ← asLong (← j.field "size") }
  | _ => none

/-! ### The same message on both sides -/

def SameInt (n : UInt32) (read : Int32) : Prop := read.toInt = n.toNat

def SameLong (n : UInt64) (read : Int64) : Prop := read.toInt = n.toNat

def SameAudio (audio : Wire.Protocol.AudioMetadata) (dto : AudioMetadataDto) : Prop :=
  dto.codec = audio.codec ∧ SameInt audio.sampleRate dto.sampleRate ∧
    SameInt audio.channels dto.channels ∧
    SameInt audio.frameSizeMs dto.frameSizeMs ∧
    SameInt audio.bitrateKbps dto.bitrateKbps ∧ dto.csd0B64 = audio.csd0B64 ∧
    dto.csd1B64 = audio.csd1B64 ∧ dto.csd2B64 = audio.csd2B64

def SameStream (started : Wire.Protocol.StreamStarted) (read : StreamStarted) : Prop :=
  read.streamId = started.streamId ∧ read.codec = started.codec ∧
    read.profile = started.profile ∧ read.level = started.level ∧
    SameInt started.width read.width ∧ SameInt started.height read.height ∧
    SameInt started.fps read.fps ∧ SameInt started.bitrateKbps read.bitrateKbps ∧
    SameInt started.keyframeIntervalFrames read.keyframeIntervalFrames ∧
    read.pixelFormat = started.pixelFormat ∧
    SameLong started.startedAtUnixMs read.startedAtUnixMs ∧
    Option.Rel SameAudio started.audio read.audio

/-- The PC's message and the phone's are of one kind and have the same field values. An enum
of the PC is a string on the phone. -/
inductive SameServerMsg : Wire.Protocol.ServerMsg → ServerMsg → Prop
  | welcome (session name os version hmac : String) (trustToken deviceId : Option String) :
      SameServerMsg (.welcome session ⟨name, os, version⟩ hmac trustToken deviceId)
        (.welcome ⟨session, ⟨name, os, version⟩, hmac, trustToken, deviceId⟩)
  | error (code : Wire.Protocol.ErrorCode) (msg : String) :
      SameServerMsg (.error code msg) (.serverError (errorCodeName code) msg)
  | pong {ts : UInt64} {ts' : Int64} : SameLong ts ts' → SameServerMsg (.pong ts) (.pong ts')
  | streamStarted {started : Wire.Protocol.StreamStarted} {read : StreamStarted} :
      SameStream started read → SameServerMsg (.streamStarted started) (.streamStarted read)
  | streamStopped (streamId : String) (reason : Wire.Protocol.StreamStopReason) (msg : String) :
      SameServerMsg (.streamStopped streamId reason msg)
        (.streamStopped streamId (streamStopReasonName reason) msg)
  | clipboardText (text : String) : SameServerMsg (.clipboardText text) (.clipboardText text)
  | fileTransferAccepted {id : UInt32} {id' : Int32} (destPath : String) :
      SameInt id id' →
      SameServerMsg (.fileTransferAccepted id destPath) (.fileTransferAccepted id' destPath)
  | fileTransferComplete {id : UInt32} {id' : Int32} (destPath : String) :
      SameInt id id' →
      SameServerMsg (.fileTransferComplete id destPath) (.fileTransferComplete id' destPath)
  | fileTransferFailed {id : UInt32} {id' : Int32} (reason : String) :
      SameInt id id' →
      SameServerMsg (.fileTransferFailed id reason) (.fileTransferFailed id' reason)
  | fileSendBegin {id : UInt32} {id' : Int32} {size : UInt64} {size' : Int64} (name : String) :
      SameInt id id' → SameLong size size' →
      SameServerMsg (.fileSendBegin id name size) (.fileSendBegin ⟨id', name, size'⟩)

/-- A button of the PC is a string on the phone. -/
def buttonName : Wire.Protocol.MouseButton → String
  | .left => "left"
  | .right => "right"
  | .middle => "middle"

def SameU32 (n : Int32) (read : UInt32) : Prop := (read.toNat : Int) = n.toInt

def SameU64 (n : Int64) (read : UInt64) : Prop := (read.toNat : Int) = n.toInt

/-- The phone's message and the PC's, likewise. -/
inductive SameClientMsg : ClientMsg → Wire.Protocol.ClientMsg → Prop
  | hello {v : Int32} {v' : UInt32} (c nonce name os appVersion : String) : SameU32 v v' →
      SameClientMsg (.hello v c nonce ⟨name, os, appVersion⟩)
        (.hello v' c nonce ⟨name, os, appVersion⟩)
  | trustedHello {v : Int32} {v' : UInt32} (deviceId token name os appVersion : String) :
      SameU32 v v' →
      SameClientMsg (.trustedHello v deviceId token ⟨name, os, appVersion⟩)
        (.trustedHello v' deviceId token ⟨name, os, appVersion⟩)
  | ping {ts : Int64} {ts' : UInt64} : SameU64 ts ts' → SameClientMsg (.ping ts) (.ping ts')
  | streamRequest {bitrate fps interval : Option Int32} {bitrate' fps' interval' : Option UInt32}
      (codec : String) : Option.Rel SameU32 bitrate bitrate' → Option.Rel SameU32 fps fps' →
      Option.Rel SameU32 interval interval' →
      SameClientMsg (.streamRequest codec bitrate fps interval)
        (.streamRequest codec bitrate' fps' interval')
  | streamStop (streamId : Option String) : SameClientMsg (.streamStop streamId)
      (.streamStop streamId)
  | keyframeRequest (streamId : Option String) : SameClientMsg (.keyframeRequest streamId)
      (.keyframeRequest streamId)
  | mouseMove (x y : UInt32) : SameClientMsg (.mouseMove x y) (.mouseMove x y)
  | mouseButton (button : Wire.Protocol.MouseButton) (down : Bool) :
      SameClientMsg (.mouseButton (buttonName button) down) (.mouseButton button down)
  | mouseScroll (dx dy : Int32) : SameClientMsg (.mouseScroll dx dy) (.mouseScroll dx dy)
  | keyText (text : String) : SameClientMsg (.keyText text) (.keyText text)
  | keyEvent {vk : Int32} {vk' : UInt32} (down : Bool) : SameU32 vk vk' →
      SameClientMsg (.keyEvent vk down) (.keyEvent vk' down)
  | clipboardSet (text : String) : SameClientMsg (.clipboardSet text) (.clipboardSet text)
  | clipboardGet : SameClientMsg .clipboardGet .clipboardGet
  | fileTransferBegin {id : Int32} {id' : UInt32} {size : Int64} {size' : UInt64}
      (name : String) : SameU32 id id' → SameU64 size size' →
      SameClientMsg (.fileTransferBegin id name size) (.fileTransferBegin id' name size')
  | fileTransferAbort {id : Int32} {id' : UInt32} (reason : String) : SameU32 id id' →
      SameClientMsg (.fileTransferAbort id reason) (.fileTransferAbort id' reason)
  | fileSendAccepted {id : Int32} {id' : UInt32} (destPath : String) : SameU32 id id' →
      SameClientMsg (.fileSendAccepted id destPath) (.fileSendAccepted id' destPath)
  | fileSendComplete {id : Int32} {id' : UInt32} (destPath : String) : SameU32 id id' →
      SameClientMsg (.fileSendComplete id destPath) (.fileSendComplete id' destPath)
  | fileSendFailed {id : Int32} {id' : UInt32} (reason : String) : SameU32 id id' →
      SameClientMsg (.fileSendFailed id reason) (.fileSendFailed id' reason)

/-- What the libraries do with a `Float`: `floatToString` on the phone, the number parser on
the PC. -/
structure FloatText where
  floatToString : UInt32 → Decimal
  readF32 : Decimal → Option UInt32

/-- The digits of a finite `Float` tell it apart from every other. -/
def FloatText.Documented (floats : FloatText) : Prop :=
  ∀ bits, isFinite bits = true → floats.readF32 (floats.floatToString bits) = some bits

/-- The phone decodes this message of the PC, and to the same one. -/
def PhoneReads (msg : Wire.Protocol.ServerMsg) : Prop :=
  ∃ read, serverMsgOfJson (serverMsgToJson msg) = some read ∧ SameServerMsg msg read

/-- The phone can write this message, and the PC decodes it to the same one. -/
def PcReads (floats : FloatText) (msg : ClientMsg) : Prop :=
  ∃ j read, clientMsgToJson floats.floatToString msg = some j ∧
    clientMsgOfJson floats.readF32 j = some read ∧ SameClientMsg msg read

/-! ### What fits on the other side -/

def FitsInt (n : UInt32) : Prop := n.toNat < 2 ^ 31

def FitsLong (n : UInt64) : Prop := n.toNat < 2 ^ 63

def FitsPhone : Wire.Protocol.ServerMsg → Prop
  | .pong ts => FitsLong ts
  | .streamStarted started =>
      (FitsInt started.width ∧ FitsInt started.height ∧ FitsInt started.fps ∧
        FitsInt started.bitrateKbps ∧ FitsInt started.keyframeIntervalFrames) ∧
      FitsLong started.startedAtUnixMs ∧
      ∀ audio ∈ started.audio, FitsInt audio.sampleRate ∧ FitsInt audio.channels ∧
        FitsInt audio.frameSizeMs ∧ FitsInt audio.bitrateKbps
  | .fileTransferAccepted id _ | .fileTransferComplete id _ | .fileTransferFailed id _ =>
      FitsInt id
  | .fileSendBegin id _ size => FitsInt id ∧ FitsLong size
  | .welcome .. | .error .. | .streamStopped .. | .clipboardText .. => True

def FitsPc : ClientMsg → Prop
  | .hello v .. | .trustedHello v .. => 0 ≤ v.toInt
  | .ping ts => 0 ≤ ts.toInt
  | .streamRequest _ bitrate fps interval =>
      (∀ n ∈ bitrate, 0 ≤ n.toInt) ∧ (∀ n ∈ fps, 0 ≤ n.toInt) ∧ ∀ n ∈ interval, 0 ≤ n.toInt
  | .mouseMove x y => isFinite x = true ∧ isFinite y = true
  | .mouseButton button _ => button = "left" ∨ button = "right" ∨ button = "middle"
  | .keyEvent vk _ => 0 ≤ vk.toInt
  | .fileTransferBegin id _ size => 0 ≤ id.toInt ∧ 0 ≤ size.toInt
  | .fileTransferAbort id _ | .fileSendAccepted id _ | .fileSendComplete id _
  | .fileSendFailed id _ => 0 ≤ id.toInt
  | .streamStop _ | .keyframeRequest _ | .mouseScroll .. | .keyText _ | .clipboardSet _
  | .clipboardGet => True

/-! ### One number -/

theorem checked_eq_some_iff {α : Type} (toInt : α → Int) (ofInt : Int → α) {low high n : Int}
    {k : α} (hinverse : ∀ a, ofInt (toInt a) = a)
    (hofInt : low ≤ n → n < high → toInt (ofInt n) = n)
    (hrange : ∀ a, low ≤ toInt a ∧ toInt a < high) :
    (if low ≤ n ∧ n < high then some (ofInt n) else none) = some k ↔ toInt k = n := by
  constructor
  · intro h
    split at h
    next hn =>
      obtain rfl := Option.some.inj h
      exact hofInt hn.1 hn.2
    next => cases h
  · rintro rfl
    rw [if_pos (hrange k), hinverse]

@[simp] theorem asInt_num {n : Int} {k : Int32} : asInt (.num n) = some k ↔ k.toInt = n :=
  checked_eq_some_iff Int32.toInt Int32.ofInt Int32.ofInt_toInt Int32.toInt_ofInt_of_le
    fun k => ⟨k.le_toInt, k.toInt_lt⟩

@[simp] theorem asLong_num {n : Int} {k : Int64} : asLong (.num n) = some k ↔ k.toInt = n :=
  checked_eq_some_iff Int64.toInt Int64.ofInt Int64.ofInt_toInt Int64.toInt_ofInt_of_le
    fun k => ⟨k.le_toInt, k.toInt_lt⟩

@[simp] theorem asI32_num {n : Int} {k : Int32} : (Json.num n).asI32 = some k ↔ k.toInt = n :=
  asInt_num

@[simp] theorem asU32_num {n : Int} {k : UInt32} :
    (Json.num n).asU32 = some k ↔ (k.toNat : Int) = n := by
  have hofInt (hlow : 0 ≤ n) (hhigh : n < 2 ^ 32) : ((UInt32.ofNat n.toNat).toNat : Int) = n := by
    rw [UInt32.toNat_ofNat_of_lt' (by simp only [UInt32.size]; omega)]
    omega
  refine checked_eq_some_iff (fun k : UInt32 => (k.toNat : Int)) (fun n => .ofNat n.toNat)
    (fun k => ?_) hofInt fun k => ?_
  · exact UInt32.ofNat_toNat
  · have hlt := k.toNat_lt
    omega

@[simp] theorem asU64_num {n : Int} {k : UInt64} :
    (Json.num n).asU64 = some k ↔ (k.toNat : Int) = n := by
  have hofInt (hlow : 0 ≤ n) (hhigh : n < 2 ^ 64) : ((UInt64.ofNat n.toNat).toNat : Int) = n := by
    rw [UInt64.toNat_ofNat_of_lt' (by simp only [UInt64.size]; omega)]
    omega
  refine checked_eq_some_iff (fun k : UInt64 => (k.toNat : Int)) (fun n => .ofNat n.toNat)
    (fun k => ?_) hofInt fun k => ?_
  · exact UInt64.ofNat_toNat
  · have hlt := k.toNat_lt
    omega

theorem asInt_u32ToJson {n : UInt32} {k : Int32} :
    asInt (u32ToJson n) = some k ↔ SameInt n k :=
  asInt_num

theorem asLong_u64ToJson {n : UInt64} {k : Int64} :
    asLong (u64ToJson n) = some k ↔ SameLong n k :=
  asLong_num

theorem asU32_i32ToJson {n : Int32} {k : UInt32} :
    (i32ToJson n).asU32 = some k ↔ SameU32 n k :=
  asU32_num

theorem asU64_i64ToJson {n : Int64} {k : UInt64} :
    (i64ToJson n).asU64 = some k ↔ SameU64 n k :=
  asU64_num

theorem asI32_i32ToJson {n k : Int32} : (i32ToJson n).asI32 = some k ↔ k = n :=
  asI32_num.trans Int32.toInt_inj

theorem fitsInt_iff {n : UInt32} : FitsInt n ↔ ∃ k, SameInt n k := by
  constructor
  · intro h
    exact ⟨.ofInt n.toNat, Int32.toInt_ofInt_of_le (le_trans (by decide) (Int.natCast_nonneg _))
      (by exact_mod_cast h)⟩
  · rintro ⟨k, hk⟩
    have hhigh := k.toInt_lt
    rw [hk] at hhigh
    exact_mod_cast hhigh

theorem fitsLong_iff {n : UInt64} : FitsLong n ↔ ∃ k, SameLong n k := by
  constructor
  · intro h
    exact ⟨.ofInt n.toNat, Int64.toInt_ofInt_of_le (le_trans (by decide) (Int.natCast_nonneg _))
      (by exact_mod_cast h)⟩
  · rintro ⟨k, hk⟩
    have hhigh := k.toInt_lt
    rw [hk] at hhigh
    exact_mod_cast hhigh

theorem nonneg_iff_sameU32 {n : Int32} : 0 ≤ n.toInt ↔ ∃ k, SameU32 n k := by
  constructor
  · intro h
    have hhigh := n.toInt_lt
    refine ⟨.ofNat n.toInt.toNat, ?_⟩
    rw [SameU32, UInt32.toNat_ofNat_of_lt' (by simp only [UInt32.size]; omega)]
    omega
  · rintro ⟨k, hk⟩
    rw [SameU32] at hk
    omega

theorem nonneg_iff_sameU64 {n : Int64} : 0 ≤ n.toInt ↔ ∃ k, SameU64 n k := by
  constructor
  · intro h
    have hhigh := n.toInt_lt
    refine ⟨.ofNat n.toInt.toNat, ?_⟩
    rw [SameU64, UInt64.toNat_ofNat_of_lt' (by simp only [UInt64.size]; omega)]
    omega
  · rintro ⟨k, hk⟩
    rw [SameU64] at hk
    omega

/-! ### The PC's messages -/

theorem field_cons (name key : String) (j : Json) (fields : List (String × Json)) :
    (Json.obj ((key, j) :: fields)).field name =
      if name = key then some j else (Json.obj fields).field name := by
  by_cases h : name = key
  · rw [if_pos h, h]
    exact List.lookup_cons_self
  · have hne : (name == key) = false := by simpa using h
    rw [if_neg h]
    show (match name == key with | true => some j | false => List.lookup name fields) = _
    rw [hne]
    rfl

theorem field_nil (name : String) : (Json.obj []).field name = none :=
  rfl

theorem asStr_str (s : String) : (Json.str s).asStr = some s := by
  simp only [Json.asStr]

theorem asBool_bool (b : Bool) : (Json.bool b).asBool = some b := by
  simp only [Json.asBool]

theorem some_bind {α β : Type} (a : α) (f : α → Option β) : (some a >>= f) = f a := by
  simp only [Option.bind_eq_bind, Option.bind_some]

theorem bind_eq_some {α β : Type} {a : Option α} {f : α → Option β} {b : β} :
    (a >>= f) = some b ↔ ∃ x, a = some x ∧ f x = some b :=
  Option.bind_eq_some_iff

theorem pure_eq_some {α : Type} {a b : α} : (pure a : Option α) = some b ↔ a = b :=
  Option.some_inj

theorem audioMetadataOfJson_iff {audio : Wire.Protocol.AudioMetadata} {dto : AudioMetadataDto} :
    audioMetadataOfJson (audioMetadataToJson audio) = some dto ↔ SameAudio audio dto := by
  simp only [audioMetadataOfJson, audioMetadataToJson, field_cons, String.reduceEq, if_true,
    if_false, some_bind, asStr_str]
  simp only [bind_eq_some, asInt_u32ToJson, pure_eq_some]
  constructor
  · rintro ⟨_, hrate, _, hchannels, _, hframe, _, hbitrate, rfl⟩
    exact ⟨rfl, hrate, hchannels, hframe, hbitrate, rfl, rfl, rfl⟩
  · obtain ⟨⟩ := dto
    rintro ⟨rfl, hrate, hchannels, hframe, hbitrate, rfl, rfl, rfl⟩
    exact ⟨_, hrate, _, hchannels, _, hframe, _, hbitrate, rfl⟩

theorem optionalAudio_iff {audio : Option Wire.Protocol.AudioMetadata}
    {dto : Option AudioMetadataDto} :
    optionOf audioMetadataOfJson
        ((Json.obj (audio.map fun audio => ("audio", audioMetadataToJson audio)).toList).field
          "audio") = some dto ↔ Option.Rel SameAudio audio dto := by
  cases audio with
  | none =>
      constructor
      · intro h
        obtain rfl := Option.some.inj h
        exact .none
      · rintro ⟨⟩
        rfl
  | some audio =>
      have hread : optionOf audioMetadataOfJson
          ((Json.obj [("audio", audioMetadataToJson audio)]).field "audio") =
            (audioMetadataOfJson (audioMetadataToJson audio)).map some := by
        simp only [field_cons, if_true]
        rfl
      refine (Eq.congr_left hread).trans ?_
      rw [Option.map_eq_some_iff]
      constructor
      · rintro ⟨read, hsome, rfl⟩
        exact .some (audioMetadataOfJson_iff.mp hsome)
      · rintro ⟨hsame⟩
        exact ⟨_, audioMetadataOfJson_iff.mpr hsame, rfl⟩

theorem streamStartedOfJson_iff {started : Wire.Protocol.StreamStarted} {read : StreamStarted} :
    streamStartedOfJson (streamStartedToJson started) = some read ↔ SameStream started read := by
  simp only [streamStartedOfJson, streamStartedToJson, List.cons_append, List.nil_append,
    field_cons, String.reduceEq, if_true, if_false, some_bind, asStr_str]
  simp only [bind_eq_some, asInt_u32ToJson, asLong_u64ToJson, pure_eq_some, optionalAudio_iff]
  constructor
  · rintro ⟨_, hwidth, _, hheight, _, hfps, _, hbitrate, _, hinterval, _, hstart, _, haudio, rfl⟩
    exact ⟨rfl, rfl, rfl, rfl, hwidth, hheight, hfps, hbitrate, hinterval, rfl, hstart, haudio⟩
  · obtain ⟨⟩ := read
    rintro ⟨rfl, rfl, rfl, rfl, hwidth, hheight, hfps, hbitrate, hinterval, rfl, hstart, haudio⟩
    exact ⟨_, hwidth, _, hheight, _, hfps, _, hbitrate, _, hinterval, _, hstart, _, haudio, rfl⟩

theorem serverMsgOfJson_iff {msg : Wire.Protocol.ServerMsg} {read : ServerMsg} :
    serverMsgOfJson (serverMsgToJson msg) = some read ↔ SameServerMsg msg read := by
  cases msg with
  | welcome session server hmac trustToken deviceId =>
      have htype : (welcomeToJson session server hmac trustToken deviceId).field "type" =
          some (.str "welcome") := rfl
      simp only [serverMsgOfJson, serverMsgToJson, htype, some_bind, asStr_str,
        welcomeOfJson_welcomeToJson, pure_eq_some]
      constructor
      · rintro rfl
        exact .welcome session server.name server.os server.version hmac trustToken deviceId
      · rintro ⟨⟩
        rfl
  | error code msg =>
      simp only [serverMsgOfJson, serverMsgToJson, field_cons, String.reduceEq, if_true, if_false,
        some_bind, asStr_str, pure_eq_some]
      constructor
      · rintro rfl
        exact .error code msg
      · rintro ⟨⟩
        rfl
  | pong ts =>
      simp only [serverMsgOfJson, serverMsgToJson, field_cons, String.reduceEq, if_true, if_false,
        some_bind, asStr_str, bind_eq_some, asLong_u64ToJson, pure_eq_some]
      constructor
      · rintro ⟨_, hts, rfl⟩
        exact .pong hts
      · intro h
        cases h with
        | pong hts => exact ⟨_, hts, rfl⟩
  | streamStarted started =>
      have htype : (streamStartedToJson started).field "type" = some (.str "stream_started") := rfl
      simp only [serverMsgOfJson, serverMsgToJson, htype, some_bind, asStr_str, bind_eq_some,
        streamStartedOfJson_iff, pure_eq_some]
      constructor
      · rintro ⟨_, hsame, rfl⟩
        exact .streamStarted hsame
      · intro h
        cases h with
        | streamStarted hsame => exact ⟨_, hsame, rfl⟩
  | streamStopped streamId reason msg =>
      simp only [serverMsgOfJson, serverMsgToJson, field_cons, String.reduceEq, if_true, if_false,
        some_bind, asStr_str, defaulted, pure_eq_some]
      constructor
      · rintro rfl
        exact .streamStopped streamId reason msg
      · rintro ⟨⟩
        rfl
  | clipboardText text =>
      simp only [serverMsgOfJson, serverMsgToJson, field_cons, String.reduceEq, if_true, if_false,
        some_bind, asStr_str, pure_eq_some]
      constructor
      · rintro rfl
        exact .clipboardText text
      · rintro ⟨⟩
        rfl
  | fileTransferAccepted id destPath =>
      simp only [serverMsgOfJson, serverMsgToJson, transferToJson, field_cons, String.reduceEq,
        if_true, if_false, some_bind, asStr_str, bind_eq_some, asInt_u32ToJson, pure_eq_some]
      constructor
      · rintro ⟨_, hid, rfl⟩
        exact .fileTransferAccepted destPath hid
      · intro h
        cases h with
        | fileTransferAccepted _ hid => exact ⟨_, hid, rfl⟩
  | fileTransferComplete id destPath =>
      simp only [serverMsgOfJson, serverMsgToJson, transferToJson, field_cons, String.reduceEq,
        if_true, if_false, some_bind, asStr_str, bind_eq_some, asInt_u32ToJson, pure_eq_some]
      constructor
      · rintro ⟨_, hid, rfl⟩
        exact .fileTransferComplete destPath hid
      · intro h
        cases h with
        | fileTransferComplete _ hid => exact ⟨_, hid, rfl⟩
  | fileTransferFailed id reason =>
      simp only [serverMsgOfJson, serverMsgToJson, transferToJson, field_cons, String.reduceEq,
        if_true, if_false, some_bind, asStr_str, bind_eq_some, asInt_u32ToJson, pure_eq_some]
      constructor
      · rintro ⟨_, hid, rfl⟩
        exact .fileTransferFailed reason hid
      · intro h
        cases h with
        | fileTransferFailed _ hid => exact ⟨_, hid, rfl⟩
  | fileSendBegin id name size =>
      simp only [serverMsgOfJson, serverMsgToJson, field_cons, String.reduceEq, if_true, if_false,
        some_bind, asStr_str, bind_eq_some, asInt_u32ToJson, asLong_u64ToJson, pure_eq_some]
      constructor
      · rintro ⟨_, hid, _, hsize, rfl⟩
        exact .fileSendBegin name hid hsize
      · intro h
        cases h with
        | fileSendBegin _ hid hsize => exact ⟨_, hid, _, hsize, rfl⟩

theorem fits_of_sameStream {started : Wire.Protocol.StreamStarted} {read : StreamStarted}
    (h : SameStream started read) : FitsPhone (.streamStarted started) := by
  obtain ⟨-, -, -, -, hwidth, hheight, hfps, hbitrate, hinterval, -, hstart, haudio⟩ := h
  have hint {n : UInt32} {k : Int32} (h : SameInt n k) : FitsInt n := fitsInt_iff.mpr ⟨k, h⟩
  refine ⟨⟨hint hwidth, hint hheight, hint hfps, hint hbitrate, hint hinterval⟩,
    fitsLong_iff.mpr ⟨_, hstart⟩, fun audio hmem => ?_⟩
  rw [Option.mem_def.mp hmem] at haudio
  generalize read.audio = dto at haudio
  cases haudio with
  | some hsame =>
      obtain ⟨-, hrate, hchannels, hframe, haudioBitrate, -⟩ := hsame
      exact ⟨hint hrate, hint hchannels, hint hframe, hint haudioBitrate⟩

theorem exists_sameAudio {audio : Option Wire.Protocol.AudioMetadata}
    (h : ∀ a ∈ audio, FitsInt a.sampleRate ∧ FitsInt a.channels ∧ FitsInt a.frameSizeMs ∧
      FitsInt a.bitrateKbps) : ∃ dto, Option.Rel SameAudio audio dto := by
  cases audio with
  | none => exact ⟨none, .none⟩
  | some audio =>
      obtain ⟨hrate, hchannels, hframe, hbitrate⟩ := h audio rfl
      obtain ⟨sampleRate, hrate⟩ := fitsInt_iff.mp hrate
      obtain ⟨channels, hchannels⟩ := fitsInt_iff.mp hchannels
      obtain ⟨frameSizeMs, hframe⟩ := fitsInt_iff.mp hframe
      obtain ⟨bitrateKbps, hbitrate⟩ := fitsInt_iff.mp hbitrate
      exact ⟨some ⟨audio.codec, sampleRate, channels, frameSizeMs, bitrateKbps, audio.csd0B64,
        audio.csd1B64, audio.csd2B64⟩,
        .some ⟨rfl, hrate, hchannels, hframe, hbitrate, rfl, rfl, rfl⟩⟩

theorem exists_sameStream {started : Wire.Protocol.StreamStarted}
    (h : FitsPhone (.streamStarted started)) : ∃ read, SameStream started read := by
  obtain ⟨⟨hwidth, hheight, hfps, hbitrate, hinterval⟩, hstart, haudio⟩ := h
  obtain ⟨width, hwidth⟩ := fitsInt_iff.mp hwidth
  obtain ⟨height, hheight⟩ := fitsInt_iff.mp hheight
  obtain ⟨fps, hfps⟩ := fitsInt_iff.mp hfps
  obtain ⟨bitrateKbps, hbitrate⟩ := fitsInt_iff.mp hbitrate
  obtain ⟨interval, hinterval⟩ := fitsInt_iff.mp hinterval
  obtain ⟨startedAtUnixMs, hstart⟩ := fitsLong_iff.mp hstart
  obtain ⟨audio, haudio⟩ := exists_sameAudio haudio
  exact ⟨⟨started.streamId, started.codec, started.profile, started.level, width, height, fps,
    bitrateKbps, interval, started.pixelFormat, startedAtUnixMs, audio⟩, rfl, rfl, rfl, rfl,
    hwidth, hheight, hfps, hbitrate, hinterval, rfl, hstart, haudio⟩

theorem exists_sameServerMsg_iff {msg : Wire.Protocol.ServerMsg} :
    (∃ read, SameServerMsg msg read) ↔ FitsPhone msg := by
  constructor
  · rintro ⟨_, h⟩
    cases h with
    | pong hts => exact fitsLong_iff.mpr ⟨_, hts⟩
    | streamStarted hsame => exact fits_of_sameStream hsame
    | fileTransferAccepted _ hid => exact fitsInt_iff.mpr ⟨_, hid⟩
    | fileTransferComplete _ hid => exact fitsInt_iff.mpr ⟨_, hid⟩
    | fileTransferFailed _ hid => exact fitsInt_iff.mpr ⟨_, hid⟩
    | fileSendBegin _ hid hsize => exact ⟨fitsInt_iff.mpr ⟨_, hid⟩, fitsLong_iff.mpr ⟨_, hsize⟩⟩
    | _ => trivial
  · intro h
    cases msg with
    | welcome session server hmac trustToken deviceId => exact ⟨_, .welcome _ _ _ _ _ _ _⟩
    | error code msg => exact ⟨_, .error code msg⟩
    | pong ts =>
        obtain ⟨_, hts⟩ := fitsLong_iff.mp h
        exact ⟨_, .pong hts⟩
    | streamStarted started =>
        obtain ⟨_, hsame⟩ := exists_sameStream h
        exact ⟨_, .streamStarted hsame⟩
    | streamStopped streamId reason msg => exact ⟨_, .streamStopped streamId reason msg⟩
    | clipboardText text => exact ⟨_, .clipboardText text⟩
    | fileTransferAccepted id destPath =>
        obtain ⟨_, hid⟩ := fitsInt_iff.mp h
        exact ⟨_, .fileTransferAccepted destPath hid⟩
    | fileTransferComplete id destPath =>
        obtain ⟨_, hid⟩ := fitsInt_iff.mp h
        exact ⟨_, .fileTransferComplete destPath hid⟩
    | fileTransferFailed id reason =>
        obtain ⟨_, hid⟩ := fitsInt_iff.mp h
        exact ⟨_, .fileTransferFailed reason hid⟩
    | fileSendBegin id name size =>
        obtain ⟨_, hid⟩ := fitsInt_iff.mp h.1
        obtain ⟨_, hsize⟩ := fitsLong_iff.mp h.2
        exact ⟨_, .fileSendBegin name hid hsize⟩

/-! ### The phone's messages -/

theorem defaulted_some {α : Type} (default : α) (read : Json → Option α) (j : Json) :
    defaulted default read (some j) = read j := by
  simp only [defaulted]

theorem clientInfoOfJson_toJson (client : ClientInfo) :
    clientInfoOfJson (clientInfoToJson client) =
      some ⟨client.name, client.os, client.appVersion⟩ := by
  rfl

theorem optionOf_i32 {n : Option Int32} {read : Option UInt32} :
    optionOf Json.asU32 (some (orNull i32ToJson n)) = some read ↔ Option.Rel SameU32 n read := by
  cases n with
  | none =>
      constructor
      · intro h
        obtain rfl := Option.some.inj h
        exact .none
      · rintro ⟨⟩
        rfl
  | some n =>
      show (i32ToJson n).asU32.map some = some read ↔ _
      rw [Option.map_eq_some_iff]
      constructor
      · rintro ⟨k, hk, rfl⟩
        exact .some (asU32_i32ToJson.mp hk)
      · rintro ⟨hk⟩
        exact ⟨_, asU32_i32ToJson.mpr hk, rfl⟩

theorem optionOf_str {text read : Option String} :
    optionOf Json.asStr (some (orNull .str text)) = some read ↔ read = text := by
  cases text with
  | none => exact Option.some_inj.trans eq_comm
  | some text => exact Option.some_inj.trans eq_comm

theorem mouseButtonOfJson_iff {button : String} {read : Wire.Protocol.MouseButton} :
    mouseButtonOfJson (.str button) = some read ↔ buttonName read = button := by
  constructor
  · intro h
    unfold mouseButtonOfJson at h
    split at h
    case h_4 => cases h
    all_goals
      obtain rfl := Option.some.inj h
      simp_all [buttonName]
  · rintro rfl
    cases read <;> rfl

theorem floatToJson_eq_some {floatToString : UInt32 → Decimal} {bits : UInt32} {j : Json} :
    floatToJson floatToString bits = some j ↔
      isFinite bits = true ∧ Json.real (floatToString bits) = j := by
  rw [floatToJson]
  split
  next h => exact Option.some_inj.trans (and_iff_right h).symm
  next h => exact iff_of_false (by simp) fun h' => h h'.1

theorem mouseMove_json {floatToString : UInt32 → Decimal} {x y : UInt32} {j : Json}
    (h : clientMsgToJson floatToString (.mouseMove x y) = some j) :
    isFinite x = true ∧ isFinite y = true ∧
      tagged "mouse_move" [("x", .real (floatToString x)), ("y", .real (floatToString y))] = j := by
  simp only [clientMsgToJson, bind_eq_some, floatToJson_eq_some, pure_eq_some] at h
  obtain ⟨_, ⟨hx, rfl⟩, _, ⟨hy, rfl⟩, rfl⟩ := h
  exact ⟨hx, hy, rfl⟩

theorem asF32_real (readF32 : Decimal → Option UInt32) (d : Decimal) :
    (Json.real d).asF32 readF32 = readF32 d := by
  simp only [Json.asF32]

theorem clientMsgOfJson_iff {floats : FloatText} (hfloats : floats.Documented) {msg : ClientMsg}
    {j : Json} (hj : clientMsgToJson floats.floatToString msg = some j)
    {read : Wire.Protocol.ClientMsg} :
    clientMsgOfJson floats.readF32 j = some read ↔ SameClientMsg msg read := by
  cases msg with
  | hello v c nonce client =>
      obtain rfl := Option.some.inj hj
      simp only [clientMsgOfJson, helloOfJson, helloToJson, field_cons, String.reduceEq, if_true,
        if_false, some_bind, asStr_str, defaulted_some, bind_eq_some, asU32_num,
        clientInfoOfJson_toJson, pure_eq_some]
      constructor
      · rintro ⟨_, hv, rfl⟩
        exact .hello c nonce client.name client.os client.appVersion hv
      · intro h
        cases h with
        | hello _ _ _ _ _ hv => exact ⟨_, hv, rfl⟩
  | trustedHello v deviceId token client =>
      obtain rfl := Option.some.inj hj
      simp only [clientMsgOfJson, tagged, field_cons, String.reduceEq, if_true, if_false,
        some_bind, asStr_str, defaulted_some, bind_eq_some, asU32_i32ToJson,
        clientInfoOfJson_toJson, pure_eq_some]
      constructor
      · rintro ⟨_, hv, rfl⟩
        exact .trustedHello deviceId token client.name client.os client.appVersion hv
      · intro h
        cases h with
        | trustedHello _ _ _ _ _ hv => exact ⟨_, hv, rfl⟩
  | ping ts =>
      obtain rfl := Option.some.inj hj
      simp only [clientMsgOfJson, tagged, field_cons, String.reduceEq, if_true, if_false,
        some_bind, asStr_str, defaulted_some, bind_eq_some, asU64_i64ToJson, pure_eq_some]
      constructor
      · rintro ⟨_, hts, rfl⟩
        exact .ping hts
      · intro h
        cases h with
        | ping hts => exact ⟨_, hts, rfl⟩
  | streamRequest codec bitrate fps interval =>
      obtain rfl := Option.some.inj hj
      simp only [clientMsgOfJson, tagged, field_cons, String.reduceEq, if_true, if_false,
        some_bind, asStr_str, defaulted_some, bind_eq_some, optionOf_i32, pure_eq_some]
      constructor
      · rintro ⟨_, hbitrate, _, hfps, _, hinterval, rfl⟩
        exact .streamRequest codec hbitrate hfps hinterval
      · intro h
        cases h with
        | streamRequest _ hbitrate hfps hinterval =>
            exact ⟨_, hbitrate, _, hfps, _, hinterval, rfl⟩
  | streamStop streamId =>
      obtain rfl := Option.some.inj hj
      simp only [clientMsgOfJson, tagged, field_cons, String.reduceEq, if_true, if_false,
        some_bind, asStr_str, bind_eq_some, optionOf_str, pure_eq_some]
      constructor
      · rintro ⟨_, rfl, rfl⟩
        exact .streamStop _
      · rintro ⟨⟩
        exact ⟨_, rfl, rfl⟩
  | keyframeRequest streamId =>
      obtain rfl := Option.some.inj hj
      simp only [clientMsgOfJson, tagged, field_cons, String.reduceEq, if_true, if_false,
        some_bind, asStr_str, bind_eq_some, optionOf_str, pure_eq_some]
      constructor
      · rintro ⟨_, rfl, rfl⟩
        exact .keyframeRequest _
      · rintro ⟨⟩
        exact ⟨_, rfl, rfl⟩
  | mouseMove x y =>
      obtain ⟨hx, hy, rfl⟩ := mouseMove_json hj
      simp only [clientMsgOfJson, tagged, field_cons, String.reduceEq, if_true, if_false,
        some_bind, asStr_str, asF32_real, hfloats x hx, hfloats y hy, pure_eq_some]
      constructor
      · rintro rfl
        exact .mouseMove x y
      · rintro ⟨⟩
        rfl
  | mouseButton button down =>
      obtain rfl := Option.some.inj hj
      simp only [clientMsgOfJson, tagged, field_cons, String.reduceEq, if_true, if_false,
        some_bind, asStr_str, asBool_bool, bind_eq_some, mouseButtonOfJson_iff, pure_eq_some]
      constructor
      · rintro ⟨button, rfl, rfl⟩
        exact .mouseButton button down
      · intro h
        cases h with
        | mouseButton button => exact ⟨button, rfl, rfl⟩
  | mouseScroll dx dy =>
      obtain rfl := Option.some.inj hj
      simp only [clientMsgOfJson, tagged, field_cons, String.reduceEq, if_true, if_false,
        some_bind, asStr_str, defaulted_some, bind_eq_some, asI32_i32ToJson, pure_eq_some]
      constructor
      · rintro ⟨_, rfl, _, rfl, rfl⟩
        exact .mouseScroll _ _
      · rintro ⟨⟩
        exact ⟨_, rfl, _, rfl, rfl⟩
  | keyText text =>
      obtain rfl := Option.some.inj hj
      simp only [clientMsgOfJson, tagged, field_cons, field_nil, String.reduceEq, if_true, if_false,
        some_bind, asStr_str, pure_eq_some]
      constructor
      · rintro rfl
        exact .keyText text
      · rintro ⟨⟩
        rfl
  | keyEvent vk down =>
      obtain rfl := Option.some.inj hj
      simp only [clientMsgOfJson, tagged, field_cons, String.reduceEq, if_true, if_false,
        some_bind, asStr_str, asBool_bool, bind_eq_some, asU32_i32ToJson, pure_eq_some]
      constructor
      · rintro ⟨_, hvk, rfl⟩
        exact .keyEvent down hvk
      · intro h
        cases h with
        | keyEvent _ hvk => exact ⟨_, hvk, rfl⟩
  | clipboardSet text =>
      obtain rfl := Option.some.inj hj
      simp only [clientMsgOfJson, tagged, field_cons, field_nil, String.reduceEq, if_true, if_false,
        some_bind, asStr_str, pure_eq_some]
      constructor
      · rintro rfl
        exact .clipboardSet text
      · rintro ⟨⟩
        rfl
  | clipboardGet =>
      obtain rfl := Option.some.inj hj
      simp only [clientMsgOfJson, tagged, field_cons, field_nil, String.reduceEq, if_true, if_false,
        some_bind, asStr_str, pure_eq_some]
      constructor
      · rintro rfl
        exact .clipboardGet
      · rintro ⟨⟩
        rfl
  | fileTransferBegin id name size =>
      obtain rfl := Option.some.inj hj
      simp only [clientMsgOfJson, tagged, field_cons, String.reduceEq, if_true, if_false,
        some_bind, asStr_str, bind_eq_some, asU32_i32ToJson, asU64_i64ToJson, pure_eq_some]
      constructor
      · rintro ⟨_, hid, _, hsize, rfl⟩
        exact .fileTransferBegin name hid hsize
      · intro h
        cases h with
        | fileTransferBegin _ hid hsize => exact ⟨_, hid, _, hsize, rfl⟩
  | fileTransferAbort id reason =>
      obtain rfl := Option.some.inj hj
      simp only [clientMsgOfJson, tagged, field_cons, String.reduceEq, if_true, if_false,
        some_bind, asStr_str, defaulted_some, bind_eq_some, asU32_i32ToJson, pure_eq_some]
      constructor
      · rintro ⟨_, hid, rfl⟩
        exact .fileTransferAbort reason hid
      · intro h
        cases h with
        | fileTransferAbort _ hid => exact ⟨_, hid, rfl⟩
  | fileSendAccepted id destPath =>
      obtain rfl := Option.some.inj hj
      simp only [clientMsgOfJson, tagged, field_cons, String.reduceEq, if_true, if_false,
        some_bind, asStr_str, bind_eq_some, asU32_i32ToJson, pure_eq_some]
      constructor
      · rintro ⟨_, hid, rfl⟩
        exact .fileSendAccepted destPath hid
      · intro h
        cases h with
        | fileSendAccepted _ hid => exact ⟨_, hid, rfl⟩
  | fileSendComplete id destPath =>
      obtain rfl := Option.some.inj hj
      simp only [clientMsgOfJson, tagged, field_cons, String.reduceEq, if_true, if_false,
        some_bind, asStr_str, bind_eq_some, asU32_i32ToJson, pure_eq_some]
      constructor
      · rintro ⟨_, hid, rfl⟩
        exact .fileSendComplete destPath hid
      · intro h
        cases h with
        | fileSendComplete _ hid => exact ⟨_, hid, rfl⟩
  | fileSendFailed id reason =>
      obtain rfl := Option.some.inj hj
      simp only [clientMsgOfJson, tagged, field_cons, String.reduceEq, if_true, if_false,
        some_bind, asStr_str, bind_eq_some, asU32_i32ToJson, pure_eq_some]
      constructor
      · rintro ⟨_, hid, rfl⟩
        exact .fileSendFailed reason hid
      · intro h
        cases h with
        | fileSendFailed _ hid => exact ⟨_, hid, rfl⟩

theorem exists_json (floatToString : UInt32 → Decimal) {msg : ClientMsg} (h : FitsPc msg) :
    ∃ j, clientMsgToJson floatToString msg = some j := by
  cases msg with
  | mouseMove x y =>
      refine ⟨tagged "mouse_move" [("x", .real (floatToString x)), ("y", .real (floatToString y))],
        ?_⟩
      simp only [clientMsgToJson, bind_eq_some, floatToJson_eq_some, pure_eq_some]
      exact ⟨_, ⟨h.1, rfl⟩, _, ⟨h.2, rfl⟩, rfl⟩
  | _ => exact ⟨_, rfl⟩

theorem exists_sameOption {n : Option Int32} (h : ∀ k ∈ n, 0 ≤ k.toInt) :
    ∃ read, Option.Rel SameU32 n read := by
  cases n with
  | none => exact ⟨none, .none⟩
  | some n =>
      obtain ⟨k, hk⟩ := nonneg_iff_sameU32.mp (h n rfl)
      exact ⟨some k, .some hk⟩

theorem nonneg_of_sameOption {n : Option Int32} {read : Option UInt32}
    (h : Option.Rel SameU32 n read) : ∀ k ∈ n, 0 ≤ k.toInt := by
  rintro k hk
  rw [Option.mem_def.mp hk] at h
  cases h with
  | some hsame => exact nonneg_iff_sameU32.mpr ⟨_, hsame⟩

theorem exists_sameClientMsg {msg : ClientMsg} (h : FitsPc msg) :
    ∃ read, SameClientMsg msg read := by
  cases msg with
  | hello v c nonce client =>
      obtain ⟨_, hv⟩ := nonneg_iff_sameU32.mp h
      exact ⟨_, .hello c nonce client.name client.os client.appVersion hv⟩
  | trustedHello v deviceId token client =>
      obtain ⟨_, hv⟩ := nonneg_iff_sameU32.mp h
      exact ⟨_, .trustedHello deviceId token client.name client.os client.appVersion hv⟩
  | ping ts =>
      obtain ⟨_, hts⟩ := nonneg_iff_sameU64.mp h
      exact ⟨_, .ping hts⟩
  | streamRequest codec bitrate fps interval =>
      obtain ⟨_, hbitrate⟩ := exists_sameOption h.1
      obtain ⟨_, hfps⟩ := exists_sameOption h.2.1
      obtain ⟨_, hinterval⟩ := exists_sameOption h.2.2
      exact ⟨_, .streamRequest codec hbitrate hfps hinterval⟩
  | streamStop streamId => exact ⟨_, .streamStop streamId⟩
  | keyframeRequest streamId => exact ⟨_, .keyframeRequest streamId⟩
  | mouseMove x y => exact ⟨_, .mouseMove x y⟩
  | mouseButton button down =>
      obtain rfl | rfl | rfl := h
      · exact ⟨_, .mouseButton .left down⟩
      · exact ⟨_, .mouseButton .right down⟩
      · exact ⟨_, .mouseButton .middle down⟩
  | mouseScroll dx dy => exact ⟨_, .mouseScroll dx dy⟩
  | keyText text => exact ⟨_, .keyText text⟩
  | keyEvent vk down =>
      obtain ⟨_, hvk⟩ := nonneg_iff_sameU32.mp h
      exact ⟨_, .keyEvent down hvk⟩
  | clipboardSet text => exact ⟨_, .clipboardSet text⟩
  | clipboardGet => exact ⟨_, .clipboardGet⟩
  | fileTransferBegin id name size =>
      obtain ⟨_, hid⟩ := nonneg_iff_sameU32.mp h.1
      obtain ⟨_, hsize⟩ := nonneg_iff_sameU64.mp h.2
      exact ⟨_, .fileTransferBegin name hid hsize⟩
  | fileTransferAbort id reason =>
      obtain ⟨_, hid⟩ := nonneg_iff_sameU32.mp h
      exact ⟨_, .fileTransferAbort reason hid⟩
  | fileSendAccepted id destPath =>
      obtain ⟨_, hid⟩ := nonneg_iff_sameU32.mp h
      exact ⟨_, .fileSendAccepted destPath hid⟩
  | fileSendComplete id destPath =>
      obtain ⟨_, hid⟩ := nonneg_iff_sameU32.mp h
      exact ⟨_, .fileSendComplete destPath hid⟩
  | fileSendFailed id reason =>
      obtain ⟨_, hid⟩ := nonneg_iff_sameU32.mp h
      exact ⟨_, .fileSendFailed reason hid⟩

theorem fitsPc_of_same {floatToString : UInt32 → Decimal} {msg : ClientMsg} {j : Json}
    {read : Wire.Protocol.ClientMsg} (hj : clientMsgToJson floatToString msg = some j)
    (h : SameClientMsg msg read) : FitsPc msg := by
  cases h with
  | hello _ _ _ _ _ hv => exact nonneg_iff_sameU32.mpr ⟨_, hv⟩
  | trustedHello _ _ _ _ _ hv => exact nonneg_iff_sameU32.mpr ⟨_, hv⟩
  | ping hts => exact nonneg_iff_sameU64.mpr ⟨_, hts⟩
  | streamRequest _ hbitrate hfps hinterval =>
      exact ⟨nonneg_of_sameOption hbitrate, nonneg_of_sameOption hfps,
        nonneg_of_sameOption hinterval⟩
  | mouseMove x y =>
      obtain ⟨hx, hy, -⟩ := mouseMove_json hj
      exact ⟨hx, hy⟩
  | mouseButton button => cases button <;> simp [FitsPc, buttonName]
  | keyEvent _ hvk => exact nonneg_iff_sameU32.mpr ⟨_, hvk⟩
  | fileTransferBegin _ hid hsize =>
      exact ⟨nonneg_iff_sameU32.mpr ⟨_, hid⟩, nonneg_iff_sameU64.mpr ⟨_, hsize⟩⟩
  | fileTransferAbort _ hid => exact nonneg_iff_sameU32.mpr ⟨_, hid⟩
  | fileSendAccepted _ hid => exact nonneg_iff_sameU32.mpr ⟨_, hid⟩
  | fileSendComplete _ hid => exact nonneg_iff_sameU32.mpr ⟨_, hid⟩
  | fileSendFailed _ hid => exact nonneg_iff_sameU32.mpr ⟨_, hid⟩
  | _ => trivial

/-! ### Where the vocabularies agree -/

theorem phoneReads_iff {msg : Wire.Protocol.ServerMsg} : PhoneReads msg ↔ FitsPhone msg := by
  rw [← exists_sameServerMsg_iff]
  constructor
  · rintro ⟨read, -, hsame⟩
    exact ⟨read, hsame⟩
  · rintro ⟨read, hsame⟩
    exact ⟨read, serverMsgOfJson_iff.mpr hsame, hsame⟩

theorem pcReads_iff {floats : FloatText} (hfloats : floats.Documented) {msg : ClientMsg} :
    PcReads floats msg ↔ FitsPc msg := by
  constructor
  · rintro ⟨j, read, hj, -, hsame⟩
    exact fitsPc_of_same hj hsame
  · intro h
    obtain ⟨j, hj⟩ := exists_json floats.floatToString h
    obtain ⟨read, hsame⟩ := exists_sameClientMsg h
    exact ⟨j, read, hj, (clientMsgOfJson_iff hfloats hj).mpr hsame, hsame⟩

theorem onText_of_not_fits {platform : Platform} {msg : Wire.Protocol.ServerMsg} {text : String}
    (hreads : platform.decodeServerMsg text = serverMsgOfJson (serverMsgToJson msg))
    (h : ¬FitsPhone msg) (os : Answers) (ws : Nat) (c : ConnectionClient) :
    c.onText platform os ws text = (c.setState (.failed unparsable)).close ws := by
  have hnone : platform.decodeServerMsg text = none := by
    rw [hreads, Option.eq_none_iff_forall_not_mem]
    intro read hread
    exact h (exists_sameServerMsg_iff.mp ⟨read, serverMsgOfJson_iff.mp hread⟩)
  simp only [onText, hnone]

/-- The two sides understand each other exactly as far as the numbers of one fit in the types
of the other. -/
theorem vocabularies_agree_iff (floats : FloatText) (hfloats : floats.Documented) :
    (∀ msg, PhoneReads msg ↔ FitsPhone msg) ∧ ∀ msg, PcReads floats msg ↔ FitsPc msg :=
  ⟨fun _ => phoneReads_iff, fun _ => pcReads_iff hfloats⟩

/-- The bit pattern of 0.5. -/
def half : UInt32 := 0x3f000000

/-- Numbers that print 0.5 as it is. -/
def sampleFloats : FloatText where
  floatToString bits := if bits = half then ⟨5, -1⟩ else ⟨bits.toNat, 1⟩
  readF32 d := if d = ⟨5, -1⟩ then some half else some (.ofNat d.mantissa.toNat)

theorem sampleFloats_documented : sampleFloats.Documented := by
  intro bits _
  by_cases h : bits = half
  · simp [sampleFloats, h]
  · simp [sampleFloats, h]

/-- The last id that the phone can read, and the middle of the screen. -/
theorem vocabularies_agree_iff_sample :
    PhoneReads (.fileSendBegin 2147483647 "a.txt" 5) ∧
      PcReads sampleFloats (.mouseMove half half) := by
  obtain ⟨hphone, hpc⟩ := vocabularies_agree_iff sampleFloats sampleFloats_documented
  refine ⟨(hphone _).mpr ⟨?_, ?_⟩, (hpc _).mpr ⟨?_, ?_⟩⟩
  · show (2147483647 : UInt32).toNat < 2 ^ 31
    decide
  · show (5 : UInt64).toNat < 2 ^ 63
    decide
  · decide
  · decide

/-- The next id of the bridge is a parse error on the phone. -/
theorem next_transferId_unreadable :
    ¬((∀ msg, PhoneReads msg) ∧ ∀ floats : FloatText, floats.Documented → ∀ msg,
      PcReads floats msg) := by
  rintro ⟨hphone, -⟩
  obtain ⟨hid, -⟩ : FitsPhone (.fileSendBegin 2147483648 "a.txt" 5) :=
    phoneReads_iff.mp (hphone _)
  revert hid
  show ¬(2147483648 : UInt32).toNat < 2 ^ 31
  decide

end RemoteControl.Phone.Vocabulary
