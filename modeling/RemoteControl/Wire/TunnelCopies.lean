import RemoteControl.Wire.Tunnel

/-!
The two copies of the tunnel codec, in `relay/src/main.rs` and in `server-pc/src/relay_client.rs`,
with the accesses that would panic out of bounds.
-/

namespace RemoteControl.Wire.TunnelCopies

open RemoteControl.Foundations.ByteStrings
open RemoteControl.Wire.Tunnel

/-- `bytes[i]`; `none` is a panic. -/
def index (bytes : Bytes) (i : Nat) : Option UInt8 :=
  bytes[i]?

/-- `bytes[lo..hi]`; `none` is a panic. -/
def slice (bytes : Bytes) (lo hi : Nat) : Option Bytes :=
  if lo ≤ hi ∧ hi ≤ bytes.length then some ((bytes.drop lo).take (hi - lo)) else none

/-! ### The relay -/

namespace Relay

def pushUuid (buf : Bytes) (uuid : String) : Bytes :=
  let src := utf8 uuid
  let n := min src.length 36
  buf ++ (src.take n ++ List.replicate (36 - n) 0x30)

def encode : TunnelFrame → Bytes
  | .clientOpen clientId => pushUuid [tfOpen] clientId ++ [0]
  | .clientClose clientId => pushUuid [tfClose] clientId ++ [0]
  | .data clientId text payload =>
      pushUuid [tfData] clientId ++ [if text then 1 else 0] ++ payload

/-- The outer option is `none` where the code panics. -/
def decode (bytes : Bytes) : Option (Option TunnelFrame) := do
  if bytes.length < tunnelHeaderLen then return none
  let mty ← index bytes 0
  match ofUtf8? (← slice bytes 1 37) with
  | none => return none
  | some clientId =>
      let flag ← index bytes 37
      if mty = tfOpen then return some (.clientOpen clientId)
      else if mty = tfClose then return some (.clientClose clientId)
      else if mty = tfData then
        return some (.data clientId (flag != 0) (← slice bytes tunnelHeaderLen bytes.length))
      else return none

end Relay

/-! ### The PC -/

namespace Pc

def pushUuid (buf : Bytes) (uuid : String) : Bytes :=
  let src := utf8 uuid
  let n := min src.length 36
  buf ++ (src.take n ++ List.replicate (36 - n) 0x30)

def encode : TunnelFrame → Bytes
  | .clientOpen clientId => pushUuid [tfOpen] clientId ++ [0]
  | .clientClose clientId => pushUuid [tfClose] clientId ++ [0]
  | .data clientId text payload =>
      pushUuid [tfData] clientId ++ [if text then 1 else 0] ++ payload

def decode (bytes : Bytes) : Option (Option TunnelFrame) := do
  if bytes.length < tunnelHeaderLen then return none
  let mty ← index bytes 0
  match ofUtf8? (← slice bytes 1 37) with
  | none => return none
  | some clientId =>
      let flag ← index bytes 37
      if mty = tfOpen then return some (.clientOpen clientId)
      else if mty = tfClose then return some (.clientClose clientId)
      else if mty = tfData then
        return some (.data clientId (flag != 0) (← slice bytes tunnelHeaderLen bytes.length))
      else return none

end Pc

/-- The copies of the codec. -/
inductive Copy where
  | relay
  | pc

def Copy.encode : Copy → TunnelFrame → Bytes
  | .relay => Relay.encode
  | .pc => Pc.encode

def Copy.decode : Copy → Bytes → Option (Option TunnelFrame)
  | .relay => Relay.decode
  | .pc => Pc.decode

/-! ### The format -/

/-- The bytes that a decoder accepts: a whole header, with a known type and an id in UTF-8. -/
def WellFormed (bytes : Bytes) : Prop :=
  tunnelHeaderLen ≤ bytes.length ∧ bytes.getD 0 0 ∈ [tfOpen, tfClose, tfData] ∧
    (ofUtf8? ((bytes.drop 1).take 36)).isSome = true

/-- The text flag as 0 or 1; without a payload and a flag in an `Open` and a `Close`. -/
def normalise (bytes : Bytes) : Bytes :=
  if bytes.getD 0 0 = tfData then bytes.set 37 (if bytes.getD 37 0 = 0 then 0 else 1)
  else (bytes.take tunnelHeaderLen).set 37 0

theorem utf8_of_ofUtf8? {bytes : Bytes} {s : String} (h : ofUtf8? bytes = some s) :
    utf8 s = bytes := by
  rw [ofUtf8?, String.fromUTF8?] at h
  split at h
  · obtain rfl := Option.some.inj h
    simp [utf8, String.fromUTF8]
  · cases h

theorem pushUuid_eq (buf : Bytes) {uuid : String} (h : (utf8 uuid).length = 36) :
    Relay.pushUuid buf uuid = buf ++ utf8 uuid := by
  simp [Relay.pushUuid, h, List.take_of_length_le]

theorem exists_layout {bytes : Bytes} (h : tunnelHeaderLen ≤ bytes.length) :
    ∃ mty id flag payload, id.length = 36 ∧ bytes = mty :: (id ++ flag :: payload) := by
  rw [tunnelHeaderLen] at h
  rcases bytes with _ | ⟨mty, rest⟩
  · simp at h
  · have hdrop : (rest.drop 36).length ≠ 0 := by
      simp at h ⊢
      omega
    obtain ⟨flag, payload, hflag⟩ := List.exists_cons_of_length_pos (Nat.pos_of_ne_zero hdrop)
    refine ⟨mty, rest.take 36, flag, payload, ?_, ?_⟩
    · simp at h ⊢
      omega
    · rw [← hflag, List.take_append_drop]

section

variable (mty flag : UInt8) {id : Bytes} (payload : Bytes) (hid : id.length = 36)

include hid

theorem layout_length : tunnelHeaderLen ≤ (mty :: (id ++ flag :: payload)).length := by
  simp only [tunnelHeaderLen, List.length_cons, List.length_append, hid]
  omega

theorem layout_slice : slice (mty :: (id ++ flag :: payload)) 1 37 = some id := by
  have hin : 1 ≤ 37 ∧ 37 ≤ (mty :: (id ++ flag :: payload)).length := by simp [hid]
  rw [slice, if_pos hin]
  simp [← hid]

theorem layout_flag : index (mty :: (id ++ flag :: payload)) 37 = some flag := by
  rw [index, List.getElem?_cons_succ, List.getElem?_append_right hid.le, hid]
  rfl

theorem layout_drop : (mty :: (id ++ flag :: payload)).drop tunnelHeaderLen = payload := by
  have hsplit : mty :: (id ++ flag :: payload) = (mty :: id ++ [flag]) ++ payload := by simp
  have hlen : (mty :: id ++ [flag]).length = tunnelHeaderLen := by simp [tunnelHeaderLen, hid]
  rw [hsplit, ← hlen, List.drop_left]

theorem layout_take :
    (mty :: (id ++ flag :: payload)).take tunnelHeaderLen = mty :: (id ++ [flag]) := by
  have hsplit : mty :: (id ++ flag :: payload) = (mty :: id ++ [flag]) ++ payload := by simp
  have hlen : (mty :: id ++ [flag]).length = tunnelHeaderLen := by simp [tunnelHeaderLen, hid]
  rw [hsplit, ← hlen, List.take_left]
  rfl

theorem layout_getD : (mty :: (id ++ flag :: payload)).getD 37 0 = flag := by
  rw [List.getD_eq_getElem?_getD, ← index, layout_flag mty flag payload hid]
  rfl

theorem layout_payload :
    slice (mty :: (id ++ flag :: payload)) tunnelHeaderLen
      (mty :: (id ++ flag :: payload)).length = some payload := by
  have hdrop : (mty :: (id ++ flag :: payload)).drop tunnelHeaderLen = payload :=
    layout_drop mty flag payload hid
  rw [slice, if_pos ⟨layout_length mty flag payload hid, le_refl _⟩, hdrop]
  refine congrArg some (List.take_of_length_le ?_)
  simp only [tunnelHeaderLen, List.length_cons, List.length_append, hid]
  omega

theorem decode_layout :
    Relay.decode (mty :: (id ++ flag :: payload)) = some (
      match ofUtf8? id with
      | none => none
      | some clientId =>
          if mty = tfOpen then some (.clientOpen clientId)
          else if mty = tfClose then some (.clientClose clientId)
          else if mty = tfData then some (.data clientId (flag != 0) payload)
          else none) := by
  have hmty : index (mty :: (id ++ flag :: payload)) 0 = some mty := rfl
  simp only [Relay.decode, Nat.not_lt.mpr (layout_length mty flag payload hid), if_false, hmty,
    layout_slice mty flag payload hid, layout_flag mty flag payload hid,
    layout_payload mty flag payload hid, bind, Option.bind]
  cases ofUtf8? id with
  | none => rfl
  | some clientId =>
      dsimp only
      split_ifs <;> rfl

theorem wellFormed_layout : WellFormed (mty :: (id ++ flag :: payload)) ↔
    mty ∈ [tfOpen, tfClose, tfData] ∧ (ofUtf8? id).isSome = true := by
  have hclient : ((mty :: (id ++ flag :: payload)).drop 1).take 36 = id := by simp [← hid]
  rw [WellFormed, hclient]
  exact and_iff_right (layout_length mty flag payload hid)

theorem normalise_data :
    normalise (tfData :: (id ++ flag :: payload)) =
      tfData :: (id ++ (if flag = 0 then 0 else 1) :: payload) := by
  have hhead : (tfData :: (id ++ flag :: payload)).getD 0 0 = tfData := rfl
  rw [normalise, if_pos hhead, layout_getD tfData flag payload hid, List.set_cons_succ,
    List.set_append_right _ _ hid.le, hid]
  rfl

theorem normalise_open_close (hne : mty ≠ tfData) :
    normalise (mty :: (id ++ flag :: payload)) = mty :: (id ++ [0]) := by
  have hhead : (mty :: (id ++ flag :: payload)).getD 0 0 ≠ tfData := hne
  rw [normalise, if_neg hhead, layout_take mty flag payload hid, List.set_cons_succ,
    List.set_append_right _ _ hid.le, hid]
  rfl

end

/-- The two copies are the same. -/
theorem copy_eq (copy : Copy) : copy.encode = Relay.encode ∧ copy.decode = Relay.decode := by
  cases copy with
  | relay => exact ⟨rfl, rfl⟩
  | pc => exact ⟨rfl, rfl⟩

theorem decode_of_short {bytes : Bytes} (h : bytes.length < tunnelHeaderLen) :
    Relay.decode bytes = some none := by
  rw [Relay.decode, if_pos h]
  rfl

/-- Neither copy panics, and each is the codec that the tunnel is modelled with. -/
theorem decode_eq (bytes : Bytes) : Relay.decode bytes = some (Tunnel.decode bytes) := by
  rcases Nat.lt_or_ge bytes.length tunnelHeaderLen with hshort | hlong
  · rw [decode_of_short hshort, Tunnel.decode, if_pos hshort]
  · obtain ⟨mty, id, flag, payload, hid, rfl⟩ := exists_layout hlong
    have hmty : (mty :: (id ++ flag :: payload)).getD 0 0 = mty := rfl
    have hclient : ((mty :: (id ++ flag :: payload)).drop 1).take 36 = id := by simp [← hid]
    rcases hutf8 : ofUtf8? id with _ | clientId
    all_goals
      simp only [decode_layout mty flag payload hid, Tunnel.decode, Nat.not_lt.mpr hlong,
        if_false, hmty, hclient, hutf8, layout_getD mty flag payload hid,
        layout_drop mty flag payload hid]

theorem decode_encode {frame : TunnelFrame} (h : (utf8 frame.clientId).length = 36) :
    Relay.decode (Relay.encode frame) = some (some frame) := by
  rcases frame with clientId | clientId | ⟨clientId, text, payload⟩
  · have hid : (utf8 clientId).length = 36 := h
    have hread := decode_layout tfOpen 0 [] hid
    rw [ofUtf8?_utf8] at hread
    rw [Relay.encode, pushUuid_eq _ hid]
    exact hread
  · have hid : (utf8 clientId).length = 36 := h
    have hread := decode_layout tfClose 0 [] hid
    rw [ofUtf8?_utf8] at hread
    rw [Relay.encode, pushUuid_eq _ hid]
    exact hread
  · have hid : (utf8 clientId).length = 36 := h
    have hread := decode_layout tfData (if text then 1 else 0) payload hid
    rw [ofUtf8?_utf8] at hread
    rw [Relay.encode, pushUuid_eq _ hid, List.append_assoc]
    refine hread.trans ?_
    cases text <;> rfl

theorem encode_of_decode {bytes : Bytes} {frame : TunnelFrame}
    (h : Relay.decode bytes = some (some frame)) :
    tunnelHeaderLen ≤ (Relay.encode frame).length ∧ Relay.encode frame = normalise bytes := by
  rcases Nat.lt_or_ge bytes.length tunnelHeaderLen with hshort | hlong
  · rw [decode_of_short hshort] at h
    cases h
  obtain ⟨mty, id, flag, payload, hid, rfl⟩ := exists_layout hlong
  rw [decode_layout mty flag payload hid] at h
  rcases hclient : ofUtf8? id with _ | clientId
  · simp [hclient] at h
  obtain rfl := utf8_of_ofUtf8? hclient
  simp only [hclient, Option.some.injEq] at h
  split_ifs at h with hopen hclose hdata
  · obtain rfl := Option.some.inj h
    rw [hopen, normalise_open_close tfOpen flag payload hid (by decide), Relay.encode,
      pushUuid_eq _ hid]
    exact ⟨by simp [tunnelHeaderLen, hid], rfl⟩
  · obtain rfl := Option.some.inj h
    rw [hclose, normalise_open_close tfClose flag payload hid (by decide), Relay.encode,
      pushUuid_eq _ hid]
    exact ⟨by simp [tunnelHeaderLen, hid], rfl⟩
  · obtain rfl := Option.some.inj h
    rw [hdata, normalise_data flag payload hid, Relay.encode, pushUuid_eq _ hid]
    refine ⟨by simp [tunnelHeaderLen, hid]; omega, ?_⟩
    rcases eq_or_ne flag 0 with rfl | hne
    · simp
    · simp [hne]

theorem decode_of_not_wellFormed {bytes : Bytes} (h : ¬WellFormed bytes) :
    Relay.decode bytes = some none := by
  rcases Nat.lt_or_ge bytes.length tunnelHeaderLen with hshort | hlong
  · exact decode_of_short hshort
  obtain ⟨mty, id, flag, payload, hid, rfl⟩ := exists_layout hlong
  rw [wellFormed_layout mty flag payload hid] at h
  rw [decode_layout mty flag payload hid]
  rcases hclient : ofUtf8? id with _ | clientId
  · rfl
  have hunknown : mty ∉ [tfOpen, tfClose, tfData] := fun hmem => h ⟨hmem, by rw [hclient]; rfl⟩
  simp only [List.mem_cons, List.not_mem_nil, or_false, not_or] at hunknown
  obtain ⟨hopen, hclose, hdata⟩ := hunknown
  simp only [hopen, hclose, hdata, if_false]

/-- Each copy reads what the other writes; what a copy accepts, a copy writes in its normal form,
over at least a header; and what is no frame is refused without a panic. -/
theorem copies_lossless (reader writer : Copy) :
    (∀ frame : TunnelFrame, (utf8 frame.clientId).length = 36 →
        reader.decode (writer.encode frame) = some (some frame)) ∧
      (∀ bytes frame, reader.decode bytes = some (some frame) →
        tunnelHeaderLen ≤ (writer.encode frame).length ∧
          writer.encode frame = normalise bytes) ∧
      ∀ bytes, ¬WellFormed bytes → reader.decode bytes = some none := by
  rw [(copy_eq reader).2, (copy_eq writer).1]
  exact ⟨fun _ => decode_encode, fun _ _ => encode_of_decode, fun _ => decode_of_not_wellFormed⟩

theorem copies_lossless_text :
    Copy.pc.decode (Copy.relay.encode
        (.data "67e55044-10b1-426f-9247-bb680e5fe0c8" true [104, 105])) =
      some (some (.data "67e55044-10b1-426f-9247-bb680e5fe0c8" true [104, 105])) :=
  (copies_lossless .pc .relay).1 _ (by decide +kernel)

end RemoteControl.Wire.TunnelCopies
