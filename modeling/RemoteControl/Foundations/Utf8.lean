import RemoteControl.Foundations.ByteStrings

/-!
UTF-8 with replacement: the text of bytes that may be ill-formed.
-/

namespace RemoteControl.Foundations.Utf8

open RemoteControl.Foundations.ByteStrings

/-! ### The decoder -/

/-- A character whose first bytes were read: the range of the next byte, how many come after it,
and the value of the bits so far. -/
structure Pending where
  lower : Nat
  upper : Nat
  further : Nat
  value : Nat

def replacement : Char := '\uFFFD'

/-- A byte where a character begins: what is decoded, and what is pending then. -/
def start (b : UInt8) : List Char × Option Pending :=
  let n := b.toNat
  if n < 0x80 then ([Char.ofNat n], none)
  else if n < 0xC2 then ([replacement], none)
  else if n < 0xE0 then ([], some ⟨0x80, 0xBF, 0, n - 0xC0⟩)
  else if n < 0xF0 then
    ([], some ⟨if n = 0xE0 then 0xA0 else 0x80, if n = 0xED then 0x9F else 0xBF, 1, n - 0xE0⟩)
  else if n < 0xF5 then
    ([], some ⟨if n = 0xF0 then 0x90 else 0x80, if n = 0xF4 then 0x8F else 0xBF, 2, n - 0xF0⟩)
  else ([replacement], none)

/-- The value of the bits after one more byte. -/
def push (value : Nat) (b : UInt8) : Nat :=
  value * 64 + (b.toNat - 0x80)

def step : Option Pending → UInt8 → List Char × Option Pending
  | none, b => start b
  | some p, b =>
      if p.lower ≤ b.toNat ∧ b.toNat ≤ p.upper then
        match p.further with
        | 0 => ([Char.ofNat (push p.value b)], none)
        | k + 1 => ([], some ⟨0x80, 0xBF, k, push p.value b⟩)
      else (replacement :: (start b).1, (start b).2)

def decodeFrom : Option Pending → Bytes → List Char
  | none, [] => []
  | some _, [] => [replacement]
  | pending, b :: rest => (step pending b).1 ++ decodeFrom (step pending b).2 rest

/-- The text of bytes, with one U+FFFD for each maximal part of an ill-formed sequence. -/
def ofUtf8Lossy (bytes : Bytes) : String :=
  String.ofList (decodeFrom none bytes)

/-! ### Well-formed bytes -/

variable {p : Pending} {b : UInt8} {rest : Bytes}

theorem decodeFrom_cons (pending : Option Pending) (b : UInt8) (rest : Bytes) :
    decodeFrom pending (b :: rest) = (step pending b).1 ++ decodeFrom (step pending b).2 rest := by
  cases pending <;> rfl

theorem decodeFrom_ascii (h : b.toNat < 0x80) :
    decodeFrom none (b :: rest) = Char.ofNat b.toNat :: decodeFrom none rest := by
  simp [decodeFrom_cons, step, start, h]

theorem decodeFrom_two (h : 0xC2 ≤ b.toNat) (h' : b.toNat < 0xE0) :
    decodeFrom none (b :: rest) = decodeFrom (some ⟨0x80, 0xBF, 0, b.toNat - 0xC0⟩) rest := by
  rw [decodeFrom_cons, step, start]
  rw [if_neg (by omega), if_neg (by omega), if_pos h']
  rfl

theorem decodeFrom_three (h : 0xE0 ≤ b.toNat) (h' : b.toNat < 0xF0) :
    decodeFrom none (b :: rest) =
      decodeFrom (some ⟨if b.toNat = 0xE0 then 0xA0 else 0x80,
        if b.toNat = 0xED then 0x9F else 0xBF, 1, b.toNat - 0xE0⟩) rest := by
  rw [decodeFrom_cons, step, start]
  rw [if_neg (by omega), if_neg (by omega), if_neg (by omega), if_pos h']
  rfl

theorem decodeFrom_four (h : 0xF0 ≤ b.toNat) (h' : b.toNat < 0xF5) :
    decodeFrom none (b :: rest) =
      decodeFrom (some ⟨if b.toNat = 0xF0 then 0x90 else 0x80,
        if b.toNat = 0xF4 then 0x8F else 0xBF, 2, b.toNat - 0xF0⟩) rest := by
  rw [decodeFrom_cons, step, start]
  rw [if_neg (by omega), if_neg (by omega), if_neg (by omega), if_neg (by omega), if_pos h']
  rfl

theorem decodeFrom_next {k : Nat} (hmore : p.further = k + 1) (hlower : p.lower ≤ b.toNat)
    (hupper : b.toNat ≤ p.upper) :
    decodeFrom (some p) (b :: rest) = decodeFrom (some ⟨0x80, 0xBF, k, push p.value b⟩) rest := by
  rw [decodeFrom_cons, step, if_pos ⟨hlower, hupper⟩, hmore]
  rfl

theorem decodeFrom_last (hlast : p.further = 0) (hlower : p.lower ≤ b.toNat)
    (hupper : b.toNat ≤ p.upper) :
    decodeFrom (some p) (b :: rest) = Char.ofNat (push p.value b) :: decodeFrom none rest := by
  rw [decodeFrom_cons, step, if_pos ⟨hlower, hupper⟩, hlast]
  rfl

theorem toNat_ofNat_of_lt {n : Nat} (h : n < 256) : (UInt8.ofNat n).toNat = n := by
  rw [UInt8.toNat_ofNat']
  exact Nat.mod_eq_of_lt h

theorem toNat_tail (n : Nat) : (UInt8.ofNat (n % 0x40 + 0x80)).toNat = n % 0x40 + 0x80 :=
  toNat_ofNat_of_lt (by omega)

theorem utf8EncodeChar_one {c : Char} (h : c.toNat ≤ 0x7F) :
    ∃ b₀, String.utf8EncodeChar c = [b₀] ∧ b₀.toNat = c.toNat :=
  ⟨UInt8.ofNat c.toNat, if_pos h, toNat_ofNat_of_lt (by omega)⟩

theorem utf8EncodeChar_two {c : Char} (h : ¬c.toNat ≤ 0x7F) (h' : c.toNat ≤ 0x7FF) :
    ∃ b₀ b₁, String.utf8EncodeChar c = [b₀, b₁] ∧ b₀.toNat = c.toNat / 64 % 0x20 + 0xC0 ∧
      b₁.toNat = c.toNat % 0x40 + 0x80 :=
  ⟨UInt8.ofNat (c.toNat / 64 % 0x20 + 0xC0), UInt8.ofNat (c.toNat % 0x40 + 0x80),
    (if_neg h).trans (if_pos h'), toNat_ofNat_of_lt (by omega), toNat_tail _⟩

theorem utf8EncodeChar_three {c : Char} (h : ¬c.toNat ≤ 0x7FF) (h' : c.toNat ≤ 0xFFFF) :
    ∃ b₀ b₁ b₂, String.utf8EncodeChar c = [b₀, b₁, b₂] ∧
      b₀.toNat = c.toNat / 4096 % 0x10 + 0xE0 ∧ b₁.toNat = c.toNat / 64 % 0x40 + 0x80 ∧
      b₂.toNat = c.toNat % 0x40 + 0x80 := by
  have hone : ¬c.toNat ≤ 0x7F := fun hone => h (Nat.le_trans hone (by decide))
  exact ⟨UInt8.ofNat (c.toNat / 4096 % 0x10 + 0xE0), UInt8.ofNat (c.toNat / 64 % 0x40 + 0x80),
    UInt8.ofNat (c.toNat % 0x40 + 0x80), (if_neg hone).trans ((if_neg h).trans (if_pos h')),
    toNat_ofNat_of_lt (by omega), toNat_tail _, toNat_tail _⟩

theorem utf8EncodeChar_four {c : Char} (h : ¬c.toNat ≤ 0xFFFF) :
    ∃ b₀ b₁ b₂ b₃, String.utf8EncodeChar c = [b₀, b₁, b₂, b₃] ∧
      b₀.toNat = c.toNat / 262144 % 0x08 + 0xF0 ∧ b₁.toNat = c.toNat / 4096 % 0x40 + 0x80 ∧
      b₂.toNat = c.toNat / 64 % 0x40 + 0x80 ∧ b₃.toNat = c.toNat % 0x40 + 0x80 := by
  have hone : ¬c.toNat ≤ 0x7F := fun hone => h (Nat.le_trans hone (by decide))
  have htwo : ¬c.toNat ≤ 0x7FF := fun htwo => h (Nat.le_trans htwo (by decide))
  exact ⟨UInt8.ofNat (c.toNat / 262144 % 0x08 + 0xF0), UInt8.ofNat (c.toNat / 4096 % 0x40 + 0x80),
    UInt8.ofNat (c.toNat / 64 % 0x40 + 0x80), UInt8.ofNat (c.toNat % 0x40 + 0x80),
    (if_neg hone).trans ((if_neg htwo).trans (if_neg h)), toNat_ofNat_of_lt (by omega),
    toNat_tail _, toNat_tail _, toNat_tail _⟩

section

variable {v n₀ n₁ n₂ n₃ : Nat}

theorem value_two (hv : v ≤ 0x7FF) (h₀ : n₀ = v / 64 % 0x20 + 0xC0)
    (h₁ : n₁ = v % 0x40 + 0x80) : (n₀ - 0xC0) * 64 + (n₁ - 0x80) = v := by
  omega

theorem value_three (hv : v ≤ 0xFFFF) (h₀ : n₀ = v / 4096 % 0x10 + 0xE0)
    (h₁ : n₁ = v / 64 % 0x40 + 0x80) (h₂ : n₂ = v % 0x40 + 0x80) :
    ((n₀ - 0xE0) * 64 + (n₁ - 0x80)) * 64 + (n₂ - 0x80) = v := by
  omega

theorem value_four (hv : v < 0x110000) (h₀ : n₀ = v / 262144 % 0x08 + 0xF0)
    (h₁ : n₁ = v / 4096 % 0x40 + 0x80) (h₂ : n₂ = v / 64 % 0x40 + 0x80)
    (h₃ : n₃ = v % 0x40 + 0x80) :
    (((n₀ - 0xF0) * 64 + (n₁ - 0x80)) * 64 + (n₂ - 0x80)) * 64 + (n₃ - 0x80) = v := by
  omega

end

theorem toNat_ofNat {n : Nat} (h : n.isValidChar) : (Char.ofNat n).toNat = n := by
  rw [Char.ofNat, dif_pos h]
  rfl

theorem utf8EncodeChar_ascii {c : Char} (h : c.toNat < 0x80) :
    String.utf8EncodeChar c = [UInt8.ofNat c.toNat] :=
  if_pos (Nat.le_of_lt_succ h)

theorem ofUtf8?_ascii {bytes : Bytes} (h : ∀ b ∈ bytes, b.toNat < 0x80) :
    (ofUtf8? bytes).isSome = true := by
  have hbytes : utf8 (String.ofList (bytes.map fun b => Char.ofNat b.toNat)) = bytes := by
    rw [utf8_ofList]
    induction bytes with
    | nil => rfl
    | cons b bytes ih =>
        have hascii := h b List.mem_cons_self
        have hvalue : (Char.ofNat b.toNat).toNat = b.toNat := toNat_ofNat (.inl (by omega))
        rw [List.map_cons, List.flatMap_cons, ih fun x hx => h x (List.mem_cons_of_mem _ hx),
          utf8EncodeChar_ascii (by omega), hvalue, UInt8.ofNat_toNat, List.singleton_append]
  rw [← hbytes, ofUtf8?_utf8]
  rfl

theorem decodeFrom_utf8EncodeChar (c : Char) (rest : Bytes) :
    decodeFrom none (String.utf8EncodeChar c ++ rest) = c :: decodeFrom none rest := by
  have hscalar : c.toNat < 0xD800 ∨ 0xDFFF < c.toNat ∧ c.toNat < 0x110000 := c.valid
  by_cases hone : c.toNat ≤ 0x7F
  · obtain ⟨b₀, hbytes, hb₀⟩ := utf8EncodeChar_one hone
    rw [hbytes, List.singleton_append, decodeFrom_ascii (by omega), hb₀, Char.ofNat_toNat]
  by_cases htwo : c.toNat ≤ 0x7FF
  · obtain ⟨b₀, b₁, hbytes, hb₀, hb₁⟩ := utf8EncodeChar_two hone htwo
    have hfirst : 0xC2 ≤ b₀.toNat ∧ b₀.toNat < 0xE0 := by omega
    have hlast : 0x80 ≤ b₁.toNat ∧ b₁.toNat ≤ 0xBF := by omega
    have hvalue : push (b₀.toNat - 0xC0) b₁ = c.toNat := value_two htwo hb₀ hb₁
    simp only [hbytes, List.cons_append, List.nil_append]
    rw [decodeFrom_two hfirst.1 hfirst.2, decodeFrom_last rfl hlast.1 hlast.2, hvalue,
      Char.ofNat_toNat]
  by_cases hthree : c.toNat ≤ 0xFFFF
  · obtain ⟨b₀, b₁, b₂, hbytes, hb₀, hb₁, hb₂⟩ := utf8EncodeChar_three htwo hthree
    have hfirst : 0xE0 ≤ b₀.toNat ∧ b₀.toNat < 0xF0 := by omega
    have hlower : (if b₀.toNat = 0xE0 then 0xA0 else 0x80) ≤ b₁.toNat := by split <;> omega
    have hupper : b₁.toNat ≤ if b₀.toNat = 0xED then 0x9F else 0xBF := by split <;> omega
    have hlast : 0x80 ≤ b₂.toNat ∧ b₂.toNat ≤ 0xBF := by omega
    have hvalue : push (push (b₀.toNat - 0xE0) b₁) b₂ = c.toNat :=
      value_three hthree hb₀ hb₁ hb₂
    simp only [hbytes, List.cons_append, List.nil_append]
    rw [decodeFrom_three hfirst.1 hfirst.2, decodeFrom_next rfl hlower hupper,
      decodeFrom_last rfl hlast.1 hlast.2, hvalue, Char.ofNat_toNat]
  · obtain ⟨b₀, b₁, b₂, b₃, hbytes, hb₀, hb₁, hb₂, hb₃⟩ := utf8EncodeChar_four hthree
    have hfirst : 0xF0 ≤ b₀.toNat ∧ b₀.toNat < 0xF5 := by omega
    have hlower : (if b₀.toNat = 0xF0 then 0x90 else 0x80) ≤ b₁.toNat := by split <;> omega
    have hupper : b₁.toNat ≤ if b₀.toNat = 0xF4 then 0x8F else 0xBF := by split <;> omega
    have hthird : 0x80 ≤ b₂.toNat ∧ b₂.toNat ≤ 0xBF := by omega
    have hlast : 0x80 ≤ b₃.toNat ∧ b₃.toNat ≤ 0xBF := by omega
    have hvalue : push (push (push (b₀.toNat - 0xF0) b₁) b₂) b₃ = c.toNat :=
      value_four (by omega) hb₀ hb₁ hb₂ hb₃
    simp only [hbytes, List.cons_append, List.nil_append]
    rw [decodeFrom_four hfirst.1 hfirst.2, decodeFrom_next rfl hlower hupper,
      decodeFrom_next rfl hthird.1 hthird.2, decodeFrom_last rfl hlast.1 hlast.2, hvalue,
      Char.ofNat_toNat]

@[simp] theorem ofUtf8Lossy_utf8 (s : String) : ofUtf8Lossy (utf8 s) = s := by
  have hchars (chars : List Char) :
      decodeFrom none (chars.flatMap String.utf8EncodeChar) = chars := by
    induction chars with
    | nil => rfl
    | cons c chars ih => rw [List.flatMap_cons, decodeFrom_utf8EncodeChar, ih]
  have hbytes : utf8 s = s.toList.flatMap String.utf8EncodeChar := by
    rw [← utf8_ofList, String.ofList_toList]
  rw [ofUtf8Lossy, hbytes, hchars, String.ofList_toList]

theorem utf8_of_ofUtf8? {bytes : Bytes} {s : String} (h : ofUtf8? bytes = some s) :
    utf8 s = bytes := by
  unfold ofUtf8? String.fromUTF8? at h
  split at h
  next hvalid =>
    obtain rfl := Option.some.inj h
    simp [utf8, String.fromUTF8]
  next => cases h

theorem length_decodeFrom_le (pending : Option Pending) (bytes : Bytes) :
    (decodeFrom pending bytes).length ≤ bytes.length + pending.toList.length := by
  have hstart (b : UInt8) : (start b).1.length + (start b).2.toList.length ≤ 1 := by
    unfold start
    dsimp only
    split
    · simp
    split
    · simp
    split
    · simp
    split
    · simp
    split
    · simp
    · simp
  have hstep (pending : Option Pending) (b : UInt8) :
      (step pending b).1.length + (step pending b).2.toList.length ≤
        1 + pending.toList.length := by
    have hb := hstart b
    cases pending with
    | none => exact hb
    | some p =>
        rw [step]
        split
        · split
          · simp
          · simp
        · simp only [List.length_cons, Option.toList_some, List.length_nil]
          omega
  induction bytes generalizing pending with
  | nil => cases pending <;> simp [decodeFrom]
  | cons b bytes ih =>
      have hb := hstep pending b
      have hrest := ih (step pending b).2
      rw [decodeFrom_cons, List.length_append, List.length_cons]
      omega

/-! ### ASCII characters -/

/-- The bits of a pending character make it at least U+0080. -/
def Pending.Long (p : Pending) : Prop :=
  0x80 ≤ p.lower ∧ 0x80 ≤ (p.value * 64 + (p.lower - 0x80)) * 64 ^ p.further

theorem start_long (h : (start b).2 = some p) : p.Long := by
  unfold start at h
  dsimp only at h
  split at h
  · cases h
  split at h
  · cases h
  split at h
  · obtain rfl := Option.some.inj h
    constructor
    all_goals dsimp only
    all_goals omega
  split at h
  · obtain rfl := Option.some.inj h
    constructor
    all_goals dsimp only
    all_goals split
    all_goals omega
  split at h
  · obtain rfl := Option.some.inj h
    constructor
    all_goals dsimp only
    all_goals split
    all_goals omega
  · cases h

theorem Pending.Long.next {k : Nat} (hp : p.Long) (hmore : p.further = k + 1)
    (hlower : p.lower ≤ b.toNat) : Pending.Long ⟨0x80, 0xBF, k, push p.value b⟩ := by
  obtain ⟨hrange, hlong⟩ := hp
  refine ⟨le_refl _, ?_⟩
  have hvalue : p.value * 64 + (p.lower - 0x80) ≤ push p.value b := by
    unfold push
    omega
  calc 0x80 ≤ (p.value * 64 + (p.lower - 0x80)) * 64 ^ p.further := hlong
    _ ≤ push p.value b * 64 ^ p.further := Nat.mul_le_mul_right _ hvalue
    _ = (push p.value b * 64 + (0x80 - 0x80)) * 64 ^ k := by rw [hmore, pow_succ']; ring

theorem Pending.Long.last (hp : p.Long) (hlast : p.further = 0)
    (hlower : p.lower ≤ b.toNat) : 0x80 ≤ push p.value b := by
  obtain ⟨hrange, hlong⟩ := hp
  rw [hlast] at hlong
  unfold push
  omega

section

variable {c : Char} (hascii : c.toNat < 0x80) (hc : c ≠ '\x00')

include hascii

theorem ofNat_toNat_eq_iff : Char.ofNat b.toNat = c ↔ b = UInt8.ofNat c.toNat := by
  constructor
  · intro h
    have hbyte := b.toNat_lt
    rw [← h, toNat_ofNat (.inl (by omega)), UInt8.ofNat_toNat]
  · intro h
    rw [h, toNat_ofNat_of_lt (by omega), Char.ofNat_toNat]

theorem ofNat_not_mem (h : 0x80 ≤ b.toNat) : UInt8.ofNat c.toNat ∉ [b] := by
  intro hmem
  have hbyte := congrArg UInt8.toNat (List.mem_singleton.mp hmem)
  rw [toNat_ofNat_of_lt (by omega)] at hbyte
  omega

theorem ne_replacement : replacement ≠ c := by
  rintro rfl
  exact absurd hascii (by decide)

theorem count_start : (start b).1.count c = [b].count (UInt8.ofNat c.toNat) := by
  by_cases hone : b.toNat < 0x80
  · have hstart : (start b).1 = [Char.ofNat b.toNat] := by simp [start, hone]
    rw [hstart]
    by_cases hsame : b = UInt8.ofNat c.toNat
    · rw [(ofNat_toNat_eq_iff hascii).mpr hsame, ← hsame, List.count_singleton_self,
        List.count_singleton_self]
    · have hother : Char.ofNat b.toNat ≠ c := fun h => hsame ((ofNat_toNat_eq_iff hascii).mp h)
      rw [List.count_eq_zero_of_not_mem (by simpa using hother.symm),
        List.count_eq_zero_of_not_mem (by simpa using Ne.symm hsame)]
  · have hreplaced : ∀ x ∈ (start b).1, x = replacement := by
      unfold start
      dsimp only
      rw [if_neg hone]
      split
      · simp
      split
      · simp
      split
      · simp
      split
      · simp
      · simp
    have hother : c ∉ (start b).1 := fun hmem => ne_replacement hascii (hreplaced c hmem).symm
    rw [List.count_eq_zero_of_not_mem hother,
      List.count_eq_zero_of_not_mem (ofNat_not_mem hascii (by omega))]

include hc

theorem ofNat_ne {n : Nat} (hn : 0x80 ≤ n) : Char.ofNat n ≠ c := by
  intro h
  by_cases hvalid : n.isValidChar
  · have hvalue := toNat_ofNat hvalid
    rw [h] at hvalue
    omega
  · rw [Char.ofNat, dif_neg hvalid] at h
    exact hc h.symm

theorem count_step {pending : Option Pending} (hpending : ∀ p ∈ pending, p.Long) :
    (step pending b).1.count c = [b].count (UInt8.ofNat c.toNat) := by
  cases pending with
  | none => exact count_start hascii
  | some p =>
      have hlong := hpending p rfl
      rw [step]
      split
      next hrange =>
        have hbyte : 0x80 ≤ b.toNat := hlong.1.trans hrange.1
        rw [List.count_eq_zero_of_not_mem (ofNat_not_mem hascii hbyte)]
        split
        next hlast =>
          have hvalue := hlong.last hlast hrange.1
          have hother := ofNat_ne hascii hc hvalue
          exact List.count_eq_zero_of_not_mem (by simpa using hother.symm)
        next => rfl
      next => rw [List.count_cons_of_ne (ne_replacement hascii), count_start hascii]

omit hascii hc in
theorem step_long {pending : Option Pending} (hpending : ∀ p ∈ pending, p.Long) :
    ∀ p ∈ (step pending b).2, p.Long := by
  intro next hnext
  cases pending with
  | none => exact start_long hnext
  | some p =>
      have hlong := hpending p rfl
      rw [step] at hnext
      split at hnext
      next hrange =>
        split at hnext
        next => cases hnext
        next k hmore =>
          obtain rfl := Option.some.inj hnext
          exact hlong.next hmore hrange.1
      next => exact start_long hnext

theorem count_decodeFrom (bytes : Bytes) {pending : Option Pending}
    (hpending : ∀ p ∈ pending, p.Long) :
    (decodeFrom pending bytes).count c = bytes.count (UInt8.ofNat c.toNat) := by
  induction bytes generalizing pending with
  | nil =>
      cases pending with
      | none => rfl
      | some p =>
          have hother : c ∉ [replacement] := by simpa using (ne_replacement hascii).symm
          exact List.count_eq_zero_of_not_mem hother
  | cons b bytes ih =>
      rw [decodeFrom_cons, List.count_append, count_step hascii hc hpending,
        ih (step_long hpending), ← List.count_append, List.singleton_append]

theorem count_ofUtf8Lossy (bytes : Bytes) :
    (ofUtf8Lossy bytes).toList.count c = bytes.count (UInt8.ofNat c.toNat) := by
  rw [ofUtf8Lossy, String.toList_ofList]
  exact count_decodeFrom hascii hc bytes nofun

end

end RemoteControl.Foundations.Utf8
