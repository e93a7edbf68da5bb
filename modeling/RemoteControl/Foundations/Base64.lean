import RemoteControl.Foundations.ByteStrings

/-!
Base64 with the alphabet that is safe in URLs and file names, without padding.
-/

namespace RemoteControl.Foundations.Base64

open RemoteControl.Foundations.ByteStrings

/-- The character of a number below 64. -/
def digit (n : Nat) : Char :=
  if n < 26 then Char.ofNat (65 + n)
  else if n < 52 then Char.ofNat (71 + n)
  else if n < 62 then Char.ofNat (n - 4)
  else if n = 62 then '-'
  else '_'

def value (c : Char) : Option Nat :=
  if 'A' ≤ c ∧ c ≤ 'Z' then some (c.toNat - 65)
  else if 'a' ≤ c ∧ c ≤ 'z' then some (c.toNat - 71)
  else if '0' ≤ c ∧ c ≤ '9' then some (c.toNat + 4)
  else if c = '-' then some 62
  else if c = '_' then some 63
  else none

/-- The characters of the alphabet. -/
def isUrlSafe (c : Char) : Bool :=
  c.isAlphanum || c = '-' || c = '_'

def encodeChars : Bytes → List Char
  | a :: b :: c :: rest =>
      let n := a.toNat * 65536 + b.toNat * 256 + c.toNat
      digit (n / 262144) :: digit (n / 4096 % 64) :: digit (n / 64 % 64) :: digit (n % 64) ::
        encodeChars rest
  | [a, b] =>
      let n := a.toNat * 1024 + b.toNat * 4
      [digit (n / 4096), digit (n / 64 % 64), digit (n % 64)]
  | [a] =>
      let n := a.toNat * 16
      [digit (n / 64), digit (n % 64)]
  | [] => []

def encode (bytes : Bytes) : String :=
  String.ofList (encodeChars bytes)

/-- Bits that are left over are dropped. -/
def decodeChars : List Char → Option Bytes
  | w :: x :: y :: z :: rest => do
      let n := (← value w) * 262144 + (← value x) * 4096 + (← value y) * 64 + (← value z)
      let bytes ← decodeChars rest
      return UInt8.ofNat (n / 65536) :: UInt8.ofNat (n / 256) :: UInt8.ofNat n :: bytes
  | [w, x, y] => do
      let n := (← value w) * 4096 + (← value x) * 64 + (← value y)
      return [UInt8.ofNat (n / 1024), UInt8.ofNat (n / 4)]
  | [w, x] => do
      let n := (← value w) * 64 + (← value x)
      return [UInt8.ofNat (n / 16)]
  | [_] => none
  | [] => some []

def decode (text : String) : Option Bytes :=
  decodeChars text.toList

theorem value_digit {n : Nat} (h : n < 64) : value (digit n) = some n := by
  have hall : ∀ n : Fin 64, value (digit n) = some n.val := by decide
  exact hall ⟨n, h⟩

theorem isUrlSafe_digit {n : Nat} (h : n < 64) : isUrlSafe (digit n) = true := by
  have hall : ∀ n : Fin 64, isUrlSafe (digit n) = true := by decide
  exact hall ⟨n, h⟩

theorem ofNat_eq_of_mod {n : Nat} {a : UInt8} (h : n % 256 = a.toNat) : UInt8.ofNat n = a := by
  apply UInt8.toNat_inj.mp
  rw [UInt8.toNat_ofNat', h]

theorem decodeChars_encodeChars (bytes : Bytes) :
    decodeChars (encodeChars bytes) = some bytes := by
  induction bytes using encodeChars.induct with
  | case1 a b c rest ih =>
      have ha := a.toNat_lt
      have hb := b.toNat_lt
      have hc := c.toNat_lt
      obtain ⟨n, hn⟩ : ∃ n, n = a.toNat * 65536 + b.toNat * 256 + c.toNat := ⟨_, rfl⟩
      have hsum : n / 262144 * 262144 + n / 4096 % 64 * 4096 + n / 64 % 64 * 64 + n % 64 = n := by
        omega
      have hfirst : UInt8.ofNat (n / 65536) = a := ofNat_eq_of_mod (by omega)
      have hsecond : UInt8.ofNat (n / 256) = b := ofNat_eq_of_mod (by omega)
      have hthird : UInt8.ofNat n = c := ofNat_eq_of_mod (by omega)
      simp only [encodeChars, ← hn, decodeChars, ih]
      rw [value_digit (by omega), value_digit (by omega), value_digit (by omega),
        value_digit (by omega)]
      simp only [Option.bind_eq_bind, Option.bind_some, hsum, hfirst, hsecond, hthird]
      rfl
  | case2 a b =>
      have ha := a.toNat_lt
      have hb := b.toNat_lt
      obtain ⟨n, hn⟩ : ∃ n, n = a.toNat * 1024 + b.toNat * 4 := ⟨_, rfl⟩
      have hsum : n / 4096 * 4096 + n / 64 % 64 * 64 + n % 64 = n := by omega
      have hfirst : UInt8.ofNat (n / 1024) = a := ofNat_eq_of_mod (by omega)
      have hsecond : UInt8.ofNat (n / 4) = b := ofNat_eq_of_mod (by omega)
      simp only [encodeChars, ← hn, decodeChars]
      rw [value_digit (by omega), value_digit (by omega), value_digit (by omega)]
      simp only [Option.bind_eq_bind, Option.bind_some, hsum, hfirst, hsecond]
      rfl
  | case3 a =>
      have ha := a.toNat_lt
      obtain ⟨n, hn⟩ : ∃ n, n = a.toNat * 16 := ⟨_, rfl⟩
      have hsum : n / 64 * 64 + n % 64 = n := by omega
      have hfirst : UInt8.ofNat (n / 16) = a := ofNat_eq_of_mod (by omega)
      simp only [encodeChars, ← hn, decodeChars]
      rw [value_digit (by omega), value_digit (by omega)]
      simp only [Option.bind_eq_bind, Option.bind_some, hsum, hfirst]
      rfl
  | case4 => rfl

@[simp] theorem decode_encode (bytes : Bytes) : decode (encode bytes) = some bytes := by
  simp [decode, encode, decodeChars_encodeChars]

theorem isUrlSafe_of_mem_encodeChars {bytes : Bytes} {c : Char} (h : c ∈ encodeChars bytes) :
    isUrlSafe c = true := by
  induction bytes using encodeChars.induct with
  | case1 a b d rest ih =>
      have ha := a.toNat_lt
      simp only [encodeChars, List.mem_cons] at h
      rcases h with rfl | rfl | rfl | rfl | h
      · exact isUrlSafe_digit (by have := b.toNat_lt; have := d.toNat_lt; omega)
      · exact isUrlSafe_digit (by omega)
      · exact isUrlSafe_digit (by omega)
      · exact isUrlSafe_digit (by omega)
      · exact ih h
  | case2 a b =>
      have ha := a.toNat_lt
      have hb := b.toNat_lt
      simp only [encodeChars, List.mem_cons, List.not_mem_nil, or_false] at h
      rcases h with rfl | rfl | rfl <;> exact isUrlSafe_digit (by omega)
  | case3 a =>
      have ha := a.toNat_lt
      simp only [encodeChars, List.mem_cons, List.not_mem_nil, or_false] at h
      rcases h with rfl | rfl <;> exact isUrlSafe_digit (by omega)
  | case4 => simp [encodeChars] at h

theorem encode_ne_empty {bytes : Bytes} (h : bytes ≠ []) : encode bytes ≠ "" := by
  intro hempty
  have hdecoded := decode_encode bytes
  rw [hempty] at hdecoded
  exact h (Option.some.inj hdecoded).symm

end RemoteControl.Foundations.Base64
