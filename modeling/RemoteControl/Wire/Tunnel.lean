import RemoteControl.Wire.Protocol

/-!
The binary frames between the relay and a PC, each about one phone (`TunnelFrame` of
`relay/src/main.rs` and of `server-pc/src/relay_client.rs`, which agree).
-/

namespace RemoteControl.Wire.Tunnel

open RemoteControl.Foundations.ByteStrings
open RemoteControl.Wire.Protocol

inductive TunnelFrame where
  | clientOpen (clientId : String)
  | clientClose (clientId : String)
  | data (clientId : String) (text : Bool) (payload : Bytes)
deriving DecidableEq

def TunnelFrame.clientId : TunnelFrame → String
  | .clientOpen clientId | .clientClose clientId | .data clientId .. => clientId

def tunnelHeaderLen : Nat := 38

def tfOpen : UInt8 := 1
def tfClose : UInt8 := 2
def tfData : UInt8 := 3

/-- `push_uuid`: always 36 bytes, cut off or filled up with the digit zero. -/
def uuidBytes (uuid : String) : Bytes :=
  let src := (utf8 uuid).take 36
  src ++ List.replicate (36 - src.length) 0x30

def encode : TunnelFrame → Bytes
  | .clientOpen clientId => tfOpen :: uuidBytes clientId ++ [0]
  | .clientClose clientId => tfClose :: uuidBytes clientId ++ [0]
  | .data clientId text payload =>
      tfData :: uuidBytes clientId ++ [if text then 1 else 0] ++ payload

def decode (bytes : Bytes) : Option TunnelFrame :=
  if bytes.length < tunnelHeaderLen then none
  else
    let mty := bytes.getD 0 0
    let flag := bytes.getD 37 0
    match ofUtf8? ((bytes.drop 1).take 36) with
    | none => none
    | some clientId =>
        if mty = tfOpen then some (.clientOpen clientId)
        else if mty = tfClose then some (.clientClose clientId)
        else if mty = tfData then
          some (.data clientId (flag != 0) (bytes.drop tunnelHeaderLen))
        else none

/-- The client ids the relay hands out: 36 characters of ASCII. -/
def IsClientId (clientId : String) : Prop :=
  clientId.toList.length = 36 ∧ ∀ c ∈ clientId.toList, c.toNat ≤ 0x7F

instance (clientId : String) : Decidable (IsClientId clientId) :=
  have : Decidable (∀ c ∈ clientId.toList, c.toNat ≤ 0x7F) :=
    List.decidableBAll _ _
  inferInstanceAs (Decidable (_ ∧ _))

theorem IsClientId.utf8_length {clientId : String} (h : IsClientId clientId) :
    (utf8 clientId).length = 36 := by
  obtain ⟨hlen, hascii⟩ := h
  have hone : ∀ c ∈ clientId.toList, (String.utf8EncodeChar c).length = 1 := by
    intro c hc
    have hle : c.val ≤ 0x7F := UInt32.le_iff_toNat_le.mpr (hascii c hc)
    rw [String.length_utf8EncodeChar, Char.utf8Size]
    exact if_pos hle
  have hbytes : utf8 clientId = clientId.toList.flatMap String.utf8EncodeChar := by
    rw [← utf8_ofList, String.ofList_toList]
  rw [hbytes, List.length_flatMap, List.map_congr_left hone]
  simpa using hlen

theorem IsClientId.uuidBytes_eq {clientId : String} (h : IsClientId clientId) :
    uuidBytes clientId = utf8 clientId := by
  have hlen := h.utf8_length
  rw [uuidBytes, List.take_of_length_le hlen.le]
  simp [hlen]

theorem decode_layout (mty flag : UInt8) (payload : Bytes) {clientId : String}
    (h : IsClientId clientId) :
    decode (mty :: uuidBytes clientId ++ [flag] ++ payload) =
      if mty = tfOpen then some (.clientOpen clientId)
      else if mty = tfClose then some (.clientClose clientId)
      else if mty = tfData then some (.data clientId (flag != 0) payload)
      else none := by
  have hid : (uuidBytes clientId).length = 36 := by
    rw [h.uuidBytes_eq]
    exact h.utf8_length
  have hlong : ¬ (mty :: uuidBytes clientId ++ [flag] ++ payload).length < tunnelHeaderLen := by
    simp [hid, tunnelHeaderLen]
    omega
  have hclient : ((mty :: uuidBytes clientId ++ [flag] ++ payload).drop 1).take 36 =
      uuidBytes clientId := by
    simp [← hid]
  have hflag : (mty :: uuidBytes clientId ++ [flag] ++ payload).getD 37 0 = flag := by
    simp [hid]
  have hpayload : (mty :: uuidBytes clientId ++ [flag] ++ payload).drop tunnelHeaderLen =
      payload := by
    simp [tunnelHeaderLen, hid, List.drop_append]
  rw [decode, if_neg hlong, hclient, hflag, hpayload, h.uuidBytes_eq, ofUtf8?_utf8]
  rfl

/-- Every frame about a phone with a proper id is read back as it was written. -/
theorem decode_encode {frame : TunnelFrame} (h : IsClientId frame.clientId) :
    decode (encode frame) = some frame := by
  rcases frame with clientId | clientId | ⟨clientId, text, payload⟩
  · have hid : IsClientId clientId := h
    have hread := decode_layout tfOpen 0 [] hid
    rw [List.append_nil] at hread
    exact hread
  · have hid : IsClientId clientId := h
    have hread := decode_layout tfClose 0 [] hid
    rw [List.append_nil] at hread
    exact hread
  · have hid : IsClientId clientId := h
    rw [encode, decode_layout tfData _ payload hid]
    cases text <;> rfl

/-- A WebSocket message as the tunnel carries it; pings, pongs and closes are not carried. -/
def Message.toData? (clientId : String) : Message → Option TunnelFrame
  | .text text => some (.data clientId true (utf8 text))
  | .binary bytes => some (.data clientId false bytes)
  | _ => none

/-- The WebSocket message a data frame is turned back into, unless its text is no UTF-8. -/
def toMessage? (text : Bool) (payload : Bytes) : Option Message :=
  if text then (ofUtf8? payload).map .text else some (.binary payload)

/-- The tunnel frames among the messages of a host's WebSocket. -/
def tunnelFrames (messages : List Message) : List TunnelFrame :=
  messages.filterMap fun
    | .binary bytes => decode bytes
    | _ => none

/-- The payloads for one phone among tunnel frames, each with its text flag. -/
def payloadsFor (c : String) (frames : List TunnelFrame) : List (Bool × Bytes) :=
  frames.filterMap fun
    | .data clientId text payload => if clientId = c then some (text, payload) else none
    | _ => none

end RemoteControl.Wire.Tunnel
