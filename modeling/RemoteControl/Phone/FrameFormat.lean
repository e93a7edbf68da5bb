import RemoteControl.Phone.Messages
import RemoteControl.Relay.Loops

/-!
The 12-byte header of binary frames, as the PC, the phone (`Protocol.kt`) and the relay read and
write it.
-/

namespace RemoteControl.Phone.FrameFormat

open RemoteControl.Foundations.ByteStrings
open RemoteControl.Phone.Messages
open RemoteControl.Relay.Loops

/-! ### The phone -/

/-- `b.toLong() and 0xFFL`, where `b` is signed. -/
def byteToLong (b : UInt8) : UInt64 :=
  b.toInt8.toInt64.toUInt64 &&& 0xFF

/-- `readLongLe`, the bits of the `Long`. -/
def readLongLe (b : Bytes) (off : Nat) : UInt64 :=
  (List.range' 0 8).foldl
    (fun v i => v ||| byteToLong (b.getD (off + i) 0) <<< UInt64.ofNat (i * 8)) 0

/-- `FrameParser.parse`. -/
def parse (bytes : Bytes) : Option VideoFrame :=
  if bytes.length < frameHeaderLen then none
  else
    let type := bytes.getD 0 0
    let flags := bytes.getD 1 0
    let ptsUs := (readLongLe bytes 4).toInt64
    let payload := bytes.drop frameHeaderLen
    some
      { type
        isKeyframe := flags &&& FrameFlags.keyframe != 0
        hasConfig := flags &&& FrameFlags.config != 0
        ptsUs
        payload }

/-- The id and the sequence number that `handleIncomingFileChunk` takes from a timestamp. -/
def splitPts (ptsUs : Int64) : Int32 × Int32 :=
  let transferId := (ptsUs.toUInt64 &&& 0xFFFFFFFF).toUInt32.toInt32
  let chunkSeq := ((ptsUs.toUInt64 >>> 32) &&& 0xFFFFFFFF).toUInt32.toInt32
  (transferId, chunkSeq)

/-- `((n ushr shift) and 0xFF).toByte()`. -/
def byteAt (n : Int32) (shift : UInt32) : UInt8 :=
  (n.toUInt32 >>> shift &&& 0xFF).toUInt8

/-- `FrameFlags.LAST_CHUNK`. -/
def lastChunk : UInt8 := 0x01

/-- `buildFileChunkFrame` of the phone. -/
def buildFileChunkFrame (transferId chunkSeq : Int32) (last : Bool) (payload : Bytes) : Bytes :=
  [FrameType.file, if last then lastChunk else 0, 0, 0,
    byteAt transferId 0, byteAt transferId 8, byteAt transferId 16, byteAt transferId 24,
    byteAt chunkSeq 0, byteAt chunkSeq 8, byteAt chunkSeq 16, byteAt chunkSeq 24] ++ payload

/-! ### Integers -/

theorem signExtend_and : ∀ x : BitVec 8, x.signExtend 64 &&& 0xFF#64 = x.setWidth 64 := by
  decide +kernel

theorem byteToLong_eq (b : UInt8) : byteToLong b = b.toUInt64 := by
  apply UInt64.toBitVec_inj.mp
  exact signExtend_and b.toBitVec

theorem or_shift {v : UInt64} {i : Nat} (hi : i < 8) (hv : v.toNat < 256 ^ i) (b : UInt8) :
    (v ||| b.toUInt64 <<< UInt64.ofNat (i * 8)).toNat = v.toNat + 256 ^ i * b.toNat := by
  have hpow : 256 ^ i = 2 ^ (i * 8) := by
    rw [mul_comm, pow_mul]
    rfl
  have hshift : (UInt64.ofNat (i * 8)).toNat % 64 = i * 8 := by
    have hsize : i * 8 < UInt64.size := by
      rw [UInt64.size]
      omega
    rw [UInt64.toNat_ofNat_of_lt' hsize]
    omega
  have hbyte : b.toNat < 256 := b.toNat_lt
  have hfits : b.toNat <<< (i * 8) < 2 ^ 64 := by
    rw [Nat.shiftLeft_eq]
    calc
      b.toNat * 2 ^ (i * 8) < 2 ^ 8 * 2 ^ (i * 8) :=
        Nat.mul_lt_mul_of_pos_right hbyte (Nat.two_pow_pos _)
      _ = 2 ^ (8 + i * 8) := (pow_add ..).symm
      _ ≤ 2 ^ 64 := Nat.pow_le_pow_right (by omega) (by omega)
  rw [hpow] at hv
  rw [UInt64.toNat_or, UInt64.toNat_shiftLeft, hshift, UInt8.toNat_toUInt64,
    Nat.mod_eq_of_lt hfits, Nat.or_comm, ← Nat.shiftLeft_add_eq_or_of_lt hv, Nat.shiftLeft_eq,
    hpow]
  ring

theorem foldl_bytes (b : Bytes) (off n : Nat) {i : Nat} {v : UInt64} (hi : i + n ≤ 8)
    (hlen : off + i + n ≤ b.length) (hv : v.toNat < 256 ^ i) :
    ((List.range' i n).foldl
        (fun v i => v ||| byteToLong (b.getD (off + i) 0) <<< UInt64.ofNat (i * 8)) v).toNat =
      v.toNat + 256 ^ i * ofLeBytes ((b.drop (off + i)).take n) := by
  induction n generalizing i v with
  | zero => simp [ofLeBytes]
  | succ n ih =>
      have hin : off + i < b.length := by omega
      have hhead : (b.drop (off + i)).take (n + 1) =
          b[off + i] :: (b.drop (off + (i + 1))).take n := by
        rw [List.drop_eq_getElem_cons hin, List.take_succ_cons]
        rfl
      have hbyte : b.getD (off + i) 0 = b[off + i] := by
        rw [List.getD_eq_getElem?_getD, List.getElem?_eq_getElem hin]
        rfl
      have hor := or_shift (v := v) (by omega : i < 8) hv b[off + i]
      have hlt : (v ||| b[off + i].toUInt64 <<< UInt64.ofNat (i * 8)).toNat < 256 ^ (i + 1) := by
        have hb : b[off + i].toNat < 256 := b[off + i].toNat_lt
        rw [hor, pow_succ]
        calc
          v.toNat + 256 ^ i * b[off + i].toNat < 256 ^ i + 256 ^ i * b[off + i].toNat := by omega
          _ = 256 ^ i * (b[off + i].toNat + 1) := by ring
          _ ≤ 256 ^ i * 256 := Nat.mul_le_mul_left _ hb
      rw [List.range'_succ, List.foldl_cons, hbyte, byteToLong_eq,
        ih (by omega) (by omega) hlt, hor, hhead, ofLeBytes, pow_succ]
      ring

theorem ofLeBytes_append (xs ys : Bytes) :
    ofLeBytes (xs ++ ys) = ofLeBytes xs + 256 ^ xs.length * ofLeBytes ys := by
  induction xs with
  | nil => simp [ofLeBytes]
  | cons b rest ih =>
      rw [List.cons_append, ofLeBytes, ofLeBytes, ih, List.length_cons, pow_succ]
      ring

theorem readLongLe_eq {b : Bytes} {off : Nat} (h : off + 8 ≤ b.length) :
    (readLongLe b off).toNat = ofLeBytes ((b.drop off).take 8) := by
  have hloop := foldl_bytes b off 8 (i := 0) (v := 0) (by omega) (by omega) (by decide)
  rw [Nat.pow_zero, Nat.one_mul, UInt64.toNat_zero, Nat.zero_add, Nat.add_zero] at hloop
  exact hloop

theorem parse_eq (bytes : Bytes) : parse bytes = parseFrame bytes := by
  unfold parse parseFrame
  split
  · rfl
  · next hlong =>
      have hread : (readLongLe bytes 4).toInt64 = Messages.readLongLe bytes := by
        rw [Messages.readLongLe, ← readLongLe_eq (by rw [frameHeaderLen] at hlong; omega),
          UInt64.ofNat_toNat]
      rw [hread]

/-! ### Round trips -/

theorem parse_layout (type flags : UInt8) {pts : Bytes} (payload : Bytes) (hpts : pts.length = 8) :
    ∃ frame, parse ([type, flags, 0, 0] ++ pts ++ payload) = some frame ∧ frame.type = type ∧
      frame.isKeyframe = (flags &&& FrameFlags.keyframe != 0) ∧
      frame.hasConfig = (flags &&& FrameFlags.config != 0) ∧
      frame.ptsUs.toUInt64.toNat = ofLeBytes pts ∧ frame.payload = payload := by
  have hlong : ¬([type, flags, 0, 0] ++ pts ++ payload).length < frameHeaderLen := by
    simp [frameHeaderLen, hpts]
  have hread : (readLongLe ([type, flags, 0, 0] ++ pts ++ payload) 4).toNat = ofLeBytes pts := by
    rw [readLongLe_eq (by simp [hpts])]
    simp [← hpts]
  have hpayload : ([type, flags, 0, 0] ++ pts ++ payload).drop frameHeaderLen = payload := by
    simp [frameHeaderLen, hpts]
  rw [parse, if_neg hlong]
  refine ⟨_, rfl, rfl, rfl, rfl, ?_, hpayload⟩
  exact hread

theorem ofLeBytes_pts (pts : UInt64) : ofLeBytes (leBytes 8 pts.toNat) = pts.toNat := by
  rw [ofLeBytes_leBytes]
  exact Nat.mod_eq_of_lt pts.toNat_lt

theorem ofLeBytes_u32 (n : UInt32) : ofLeBytes (leBytes 4 n.toNat) = n.toNat := by
  rw [ofLeBytes_leBytes]
  exact Nat.mod_eq_of_lt n.toNat_lt

theorem toInt_of_lt {ptsUs : Int64} {n : Nat} (h : ptsUs.toUInt64.toNat = n) (hn : n < 2 ^ 63) :
    ptsUs.toInt = n := by
  rw [← Int64.toInt_toBitVec, BitVec.toInt_eq_toNat_of_lt]
  · exact congrArg Nat.cast h
  · have : ptsUs.toBitVec.toNat = n := h
    omega

theorem toUInt32_mask (n : UInt64) : (n &&& 0xFFFFFFFF).toUInt32 = n.toUInt32 := by
  have hand := Nat.and_two_pow_sub_one_eq_mod n.toNat 32
  apply UInt32.toNat_inj.mp
  rw [UInt64.toNat_toUInt32, UInt64.toNat_toUInt32, UInt64.toNat_and]
  show (n.toNat &&& 2 ^ 32 - 1) % 2 ^ 32 = n.toNat % 2 ^ 32
  rw [hand, Nat.mod_mod]

theorem splitPts_eq_halves (frame : VideoFrame) :
    splitPts frame.ptsUs = (frame.transferId, frame.chunkSeq) := by
  rw [splitPts, toUInt32_mask, toUInt32_mask]
  rfl

theorem splitPts_eq {ptsUs : Int64} {id seq : UInt32}
    (h : ptsUs.toUInt64.toNat = id.toNat + 2 ^ 32 * seq.toNat) :
    splitPts ptsUs = (id.toInt32, seq.toInt32) := by
  have hid : id.toNat < 2 ^ 32 := id.toNat_lt
  have hseq : seq.toNat < 2 ^ 32 := seq.toNat_lt
  have hlow : ptsUs.toUInt64.toUInt32 = id := by
    apply UInt32.toNat_inj.mp
    rw [UInt64.toNat_toUInt32, h]
    omega
  have hhigh : (ptsUs.toUInt64 >>> 32).toUInt32 = seq := by
    apply UInt32.toNat_inj.mp
    rw [UInt64.toNat_toUInt32, UInt64.toNat_shiftRight]
    show ptsUs.toUInt64.toNat >>> 32 % 2 ^ 32 = seq.toNat
    rw [Nat.shiftRight_eq_div_pow, h]
    omega
  rw [splitPts, toUInt32_mask, toUInt32_mask, hlow, hhigh]

theorem byteAt_eq (n : Int32) {k : Nat} (hk : k < 4) :
    byteAt n (UInt32.ofNat (8 * k)) = UInt8.ofNat (n.toUInt32.toNat / 256 ^ k) := by
  have hshift : (UInt32.ofNat (8 * k)).toNat % 32 = 8 * k := by
    have hsize : 8 * k < UInt32.size := by
      rw [UInt32.size]
      omega
    rw [UInt32.toNat_ofNat_of_lt' hsize]
    omega
  have hpow : 256 ^ k = 2 ^ (8 * k) := by
    rw [pow_mul]
    rfl
  have hand := Nat.and_two_pow_sub_one_eq_mod (n.toUInt32.toNat / 256 ^ k) 8
  apply UInt8.toNat_inj.mp
  rw [byteAt, UInt32.toNat_toUInt8, UInt32.toNat_and, UInt32.toNat_shiftRight, hshift,
    Nat.shiftRight_eq_div_pow, ← hpow, UInt8.toNat_ofNat']
  show (n.toUInt32.toNat / 256 ^ k &&& 2 ^ 8 - 1) % 2 ^ 8 = _
  rw [hand, Nat.mod_mod]

theorem byteAt_leBytes (n : Int32) :
    [byteAt n 0, byteAt n 8, byteAt n 16, byteAt n 24] = leBytes 4 n.toUInt32.toNat := by
  have hfirst := byteAt_eq n (k := 0) (by omega)
  have hsecond := byteAt_eq n (k := 1) (by omega)
  have hthird := byteAt_eq n (k := 2) (by omega)
  have hfourth := byteAt_eq n (k := 3) (by omega)
  have hdiv (k : Nat) : n.toUInt32.toNat / 256 ^ (k + 1) = n.toUInt32.toNat / 256 ^ k / 256 := by
    rw [pow_succ, Nat.div_div_eq_div_mul]
  rw [hdiv, pow_zero, Nat.div_one] at hsecond
  rw [hdiv, hdiv, pow_zero, Nat.div_one] at hthird
  rw [hdiv, hdiv, hdiv, pow_zero, Nat.div_one] at hfourth
  rw [pow_zero, Nat.div_one] at hfirst
  simp only [leBytes]
  exact congrArg₂ _ hfirst (congrArg₂ _ hsecond (congrArg₂ _ hthird (congrArg₂ _ hfourth rfl)))

theorem buildFileChunkFrame_eq (transferId chunkSeq : Int32) (last : Bool) (payload : Bytes) :
    buildFileChunkFrame transferId chunkSeq last payload =
      Wire.Protocol.buildFileChunkFrame transferId.toUInt32 chunkSeq.toUInt32 last payload := by
  rw [Wire.Protocol.buildFileChunkFrame, ← byteAt_leBytes, ← byteAt_leBytes]
  rfl

/-- What the PC's builders make: a frame of each type. -/
inductive Built : UInt8 → Bytes → Prop
  | video (payload : Bytes) (ptsUs : UInt64) (keyframe hasConfig : Bool) :
      Built FrameType.video (Wire.Protocol.buildVideoFrame payload ptsUs keyframe hasConfig)
  | audio (payload : Bytes) (ptsUs : UInt64) :
      Built FrameType.audio (Wire.Protocol.buildAudioFrame payload ptsUs)
  | file (transferId chunkSeq : UInt32) (last : Bool) (payload : Bytes) :
      Built FrameType.file (Wire.Protocol.buildFileChunkFrame transferId chunkSeq last payload)

/-- Every frame is read back as it was built: a video and an audio frame and a chunk by the phone,
and the phone's chunk by the PC; and the relay must deliver exactly the FILE frames. -/
theorem frames_read_back :
    (∀ (payload : Bytes) (ptsUs : UInt64) (keyframe hasConfig : Bool), ptsUs.toNat < 2 ^ 63 →
        ∃ frame, parse (Wire.Protocol.buildVideoFrame payload ptsUs keyframe hasConfig) =
            some frame ∧
          frame.type = FrameType.video ∧ frame.isKeyframe = keyframe ∧
          frame.hasConfig = hasConfig ∧ frame.ptsUs.toInt = ptsUs.toNat ∧
          frame.payload = payload) ∧
      (∀ (payload : Bytes) (ptsUs : UInt64), ptsUs.toNat < 2 ^ 63 →
        ∃ frame, parse (Wire.Protocol.buildAudioFrame payload ptsUs) = some frame ∧
          frame.type = FrameType.audio ∧ frame.isKeyframe = false ∧ frame.hasConfig = false ∧
          frame.ptsUs.toInt = ptsUs.toNat ∧ frame.payload = payload) ∧
      (∀ (transferId chunkSeq : UInt32) (last : Bool) (payload : Bytes),
        ∃ frame, parse (Wire.Protocol.buildFileChunkFrame transferId chunkSeq last payload) =
            some frame ∧
          frame.type = FrameType.file ∧
          splitPts frame.ptsUs = (transferId.toInt32, chunkSeq.toInt32) ∧
          frame.isKeyframe = last ∧ frame.payload = payload) ∧
      (∀ (transferId chunkSeq : Int32) (last : Bool) (payload : Bytes),
        Wire.Protocol.parseFileChunk (buildFileChunkFrame transferId chunkSeq last payload) =
          some ⟨transferId.toUInt32, chunkSeq.toUInt32, last, payload⟩) ∧
      ∀ type bytes index, Built type bytes →
        (PhoneOut.mustDeliver { bytes, text := false, index } = true ↔ type = FrameType.file) := by
  refine ⟨?_, ?_, ?_, ?_, ?_⟩
  · intro payload ptsUs keyframe hasConfig hpts
    obtain ⟨frame, hframe, htype, hkey, hconfig, hread, hpayload⟩ := parse_layout
      FrameType.video
      (if hasConfig then (if keyframe then 0 ||| FrameFlags.keyframe else 0) ||| FrameFlags.config
        else if keyframe then 0 ||| FrameFlags.keyframe else 0)
      payload (leBytes_length 8 ptsUs.toNat)
    rw [ofLeBytes_pts] at hread
    refine ⟨frame, hframe, htype, hkey.trans ?_, hconfig.trans ?_, toInt_of_lt hread hpts,
      hpayload⟩
    · cases keyframe <;> cases hasConfig <;> rfl
    · cases keyframe <;> cases hasConfig <;> rfl
  · intro payload ptsUs hpts
    obtain ⟨frame, hframe, htype, hkey, hconfig, hread, hpayload⟩ := parse_layout
      FrameType.audio 0 payload (leBytes_length 8 ptsUs.toNat)
    rw [ofLeBytes_pts] at hread
    exact ⟨frame, hframe, htype, hkey, hconfig, toInt_of_lt hread hpts, hpayload⟩
  · intro transferId chunkSeq last payload
    have hpts : (leBytes 4 transferId.toNat ++ leBytes 4 chunkSeq.toNat).length = 8 := by simp
    obtain ⟨frame, hframe, htype, hkey, -, hread, hpayload⟩ := parse_layout
      FrameType.file (if last then lastChunk else 0) payload hpts
    rw [ofLeBytes_append, ofLeBytes_u32, ofLeBytes_u32, leBytes_length] at hread
    rw [← List.append_assoc] at hframe
    refine ⟨frame, hframe, htype, splitPts_eq hread, hkey.trans ?_, hpayload⟩
    cases last <;> rfl
  · intro transferId chunkSeq last payload
    rw [buildFileChunkFrame_eq]
    exact Wire.Protocol.parseFileChunk_buildFileChunkFrame _ _ _ _
  · intro type bytes index hbuilt
    cases hbuilt with
    | video => exact iff_of_false Bool.false_ne_true (by decide)
    | audio => exact iff_of_false Bool.false_ne_true (by decide)
    | file => exact iff_of_true rfl rfl

theorem frames_read_back_video :
    ∃ frame, parse (Wire.Protocol.buildVideoFrame [0, 0, 0, 1] 40000 true true) = some frame ∧
      frame.ptsUs.toInt = 40000 := by
  obtain ⟨frame, hframe, -, -, -, hpts, -⟩ :=
    frames_read_back.1 [0, 0, 0, 1] 40000 true true (by decide)
  exact ⟨frame, hframe, hpts⟩

end RemoteControl.Phone.FrameFormat
