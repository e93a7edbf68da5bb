import Mathlib.Data.List.Basic
import Mathlib.Tactic.Ring

/-!
Byte strings: little-endian integers, UTF-8, and writes at a position of a file.
-/

namespace RemoteControl.Foundations.ByteStrings

abbrev Bytes := List UInt8

/-- The `width` low bytes of a number, least significant first. -/
def leBytes : Nat → Nat → Bytes
  | 0, _ => []
  | width + 1, n => UInt8.ofNat n :: leBytes width (n / 256)

/-- The number whose little-endian bytes are given. -/
def ofLeBytes : Bytes → Nat
  | [] => 0
  | b :: bs => b.toNat + 256 * ofLeBytes bs

@[simp] theorem leBytes_length (width n : Nat) : (leBytes width n).length = width := by
  induction width generalizing n with
  | zero => rfl
  | succ width ih => simp [leBytes, ih]

theorem ofLeBytes_leBytes (width n : Nat) :
    ofLeBytes (leBytes width n) = n % 256 ^ width := by
  induction width generalizing n with
  | zero => simp [leBytes, ofLeBytes, Nat.mod_one]
  | succ width ih =>
      have hlow : (UInt8.ofNat n).toNat = n % 256 := by simp
      rw [leBytes, ofLeBytes, ih, hlow, pow_succ', Nat.mod_mul]

/-- The bytes of a string. -/
def utf8 (s : String) : Bytes :=
  s.toByteArray.data.toList

/-- The string with the given bytes, if they are well-formed UTF-8. -/
def ofUtf8? (bytes : Bytes) : Option String :=
  String.fromUTF8? ⟨bytes.toArray⟩

@[simp] theorem ofUtf8?_utf8 (s : String) : ofUtf8? (utf8 s) = some s := by
  have hvalid : ByteArray.IsValidUTF8 ⟨(utf8 s).toArray⟩ := by
    simpa [utf8] using s.isValidUTF8
  rw [ofUtf8?, String.fromUTF8?, dif_pos hvalid]
  simp [String.fromUTF8, utf8]

theorem utf8_ofList (chars : List Char) :
    utf8 (String.ofList chars) = chars.flatMap String.utf8EncodeChar := by
  simp [utf8, String.toByteArray_ofList, List.utf8Encode]

/-- The file content after `data` is written at offset `pos`: a gap before the offset is
filled with zeros, and bytes after the written range stay. -/
def writeAt (content : Bytes) (pos : Nat) (data : Bytes) : Bytes :=
  content.take pos ++ List.replicate (pos - content.length) 0 ++ data ++
    content.drop (pos + data.length)

@[simp] theorem writeAt_end (content data : Bytes) :
    writeAt content content.length data = content ++ data := by
  simp [writeAt]

end RemoteControl.Foundations.ByteStrings
