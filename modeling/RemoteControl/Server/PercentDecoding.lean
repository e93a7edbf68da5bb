import Mathlib.Data.Bool.AllAny
import Mathlib.Data.List.Infix
import RemoteControl.Foundations.Utf8

/-!
The percent decoder of `X-File-Name` (`server-pc/src/qr_server.rs`) against a reference decoder and
against the `encodeURIComponent` of the page that sends the header.
-/

namespace RemoteControl.Server.PercentDecoding

open RemoteControl.Foundations.ByteStrings
open RemoteControl.Foundations.Utf8

def percent : UInt8 := 0x25

def plus : UInt8 := 0x2B

def minus : UInt8 := 0x2D

/-! ### The decoder -/

/-- `char::to_digit(16)`. -/
def toDigit (b : UInt8) : Option Nat :=
  let n := b.toNat
  if 0x30 ≤ n ∧ n ≤ 0x39 then some (n - 0x30)
  else if 0x41 ≤ n ∧ n ≤ 0x46 then some (n - 0x37)
  else if 0x61 ≤ n ∧ n ≤ 0x66 then some (n - 0x57)
  else none

/-- One more digit of a `u8`. -/
def pushDigit (value : Nat) (b : UInt8) : Option Nat :=
  (toDigit b).bind fun digit =>
    if value * 16 + digit < 256 then some (value * 16 + digit) else none

def ofDigits (digits : Bytes) : Option UInt8 :=
  (digits.foldlM pushDigit 0).map UInt8.ofNat

/-- `u8::from_str_radix(src, 16)`. -/
def fromStrRadix16 : Bytes → Option UInt8
  | [] => none
  | [b] => if b = plus ∨ b = minus then none else ofDigits [b]
  | b :: rest => if b = plus then ofDigits rest else ofDigits (b :: rest)

def hexByte (digits : Bytes) : Option UInt8 :=
  (ofUtf8? digits).bind fun hex => fromStrRadix16 (utf8 hex)

def percentDecodeLoop (bytes : Bytes) (i : Nat) (out : Bytes) : Bytes :=
  if h : i < bytes.length then
    if bytes[i] = percent ∧ i + 2 < bytes.length then
      match hexByte ((bytes.drop (i + 1)).take 2) with
      | some b => percentDecodeLoop bytes (i + 3) (out ++ [b])
      | none => percentDecodeLoop bytes (i + 1) (out ++ [bytes[i]])
    else percentDecodeLoop bytes (i + 1) (out ++ [bytes[i]])
  else out
termination_by bytes.length - i

def percentDecode (s : String) : String :=
  let out := percentDecodeLoop (utf8 s) 0 []
  (ofUtf8? out).getD (ofUtf8Lossy out)

/-! ### The reference -/

/-- Replaces triplets of bytes from left to right. -/
def decodeTriplets (value : UInt8 → UInt8 → UInt8 → Option UInt8) : Bytes → Bytes
  | [] => []
  | b :: x :: y :: rest =>
      match value b x y with
      | some decoded => decoded :: decodeTriplets value rest
      | none => b :: decodeTriplets value (x :: y :: rest)
  | b :: rest => b :: decodeTriplets value rest

/-- A percent sign and two hexadecimal digits. -/
def triplet (b x y : UInt8) : Option UInt8 :=
  if b = percent then
    match toDigit x, toDigit y with
    | some high, some low => some (UInt8.ofNat (high * 16 + low))
    | _, _ => none
  else none

def reference (s : String) : String :=
  ofUtf8Lossy (decodeTriplets triplet (utf8 s))

/-! ### The page -/

def isUnreserved (c : Char) : Bool :=
  c.isAlphanum || "-_.!~*'()".toList.contains c

def hexDigit (n : Nat) : Char :=
  Char.ofNat (if n < 10 then 0x30 + n else 0x37 + n)

def encodeByte (b : UInt8) : List Char :=
  ['%', hexDigit (b.toNat / 16), hexDigit (b.toNat % 16)]

def encodeChar (c : Char) : List Char :=
  if isUnreserved c then [c] else (String.utf8EncodeChar c).flatMap encodeByte

def encodeURIComponent (name : String) : String :=
  String.ofList (name.toList.flatMap encodeChar)

/-! ### The loop -/

/-- What the loop takes for a triplet. -/
def signedTriplet (b x y : UInt8) : Option UInt8 :=
  if b = percent then hexByte [x, y] else none

theorem decodeTriplets_cons {value : UInt8 → UInt8 → UInt8 → Option UInt8} {b : UInt8}
    {rest : Bytes} (h : ∀ x y tail, rest = x :: y :: tail → value b x y = none) :
    decodeTriplets value (b :: rest) = b :: decodeTriplets value rest := by
  match rest with
  | [] => rfl
  | [x] => rfl
  | x :: y :: tail => rw [decodeTriplets, h x y tail rfl]

theorem percentDecodeLoop_eq (bytes : Bytes) (i : Nat) (out : Bytes) :
    percentDecodeLoop bytes i out = out ++ decodeTriplets signedTriplet (bytes.drop i) := by
  have hlooks {i : Nat} (h : i + 2 < bytes.length) : ∃ x y,
      bytes.drop (i + 1) = x :: y :: bytes.drop (i + 3) ∧
        (bytes.drop (i + 1)).take 2 = [x, y] := by
    rw [List.drop_eq_getElem_cons (by omega : i + 1 < bytes.length),
      List.drop_eq_getElem_cons (by omega : i + 2 < bytes.length)]
    exact ⟨_, _, rfl, rfl⟩
  fun_induction percentDecodeLoop bytes i out with
  | case1 i out h hpercent b hhex ih =>
      obtain ⟨x, y, hdrop, hdigits⟩ := hlooks hpercent.2
      rw [hdigits] at hhex
      rw [ih, List.drop_eq_getElem_cons h, hdrop, decodeTriplets, signedTriplet,
        if_pos hpercent.1, hhex, List.append_assoc]
      rfl
  | case2 i out h hpercent hhex ih =>
      obtain ⟨x, y, hdrop, hdigits⟩ := hlooks hpercent.2
      rw [hdigits] at hhex
      rw [ih, List.drop_eq_getElem_cons h, hdrop, decodeTriplets, signedTriplet,
        if_pos hpercent.1, hhex, List.append_assoc]
      rfl
  | case3 i out h hplain ih =>
      have hnone : ∀ x y tail, bytes.drop (i + 1) = x :: y :: tail →
          signedTriplet bytes[i] x y = none := by
        intro x y tail hdrop
        have hlength := congrArg List.length hdrop
        simp only [List.length_drop, List.length_cons] at hlength
        exact if_neg fun hpercent => hplain ⟨hpercent, by omega⟩
      rw [ih, List.drop_eq_getElem_cons h, decodeTriplets_cons hnone, List.append_assoc]
      rfl
  | case4 i out h =>
      rw [List.drop_eq_nil_of_le (by omega), decodeTriplets, List.append_nil]

theorem percentDecode_eq (s : String) :
    percentDecode s = ofUtf8Lossy (decodeTriplets signedTriplet (utf8 s)) := by
  unfold percentDecode
  rw [percentDecodeLoop_eq, List.nil_append, List.drop_zero]
  dsimp only
  cases hvalid : ofUtf8? (decodeTriplets signedTriplet (utf8 s)) with
  | none => rfl
  | some decoded =>
      rw [← utf8_of_ofUtf8? hvalid, ofUtf8Lossy_utf8]
      rfl

/-! ### Two digits -/

theorem toDigit_lt {b : UInt8} {n : Nat} (h : toDigit b = some n) : n < 16 ∧ b.toNat < 0x80 := by
  unfold toDigit at h
  dsimp only at h
  split at h
  · obtain rfl := Option.some.inj h
    omega
  split at h
  · obtain rfl := Option.some.inj h
    omega
  split at h
  · obtain rfl := Option.some.inj h
    omega
  · cases h

theorem pushDigit_eq {value : Nat} {b : UInt8} (h : value < 16) :
    pushDigit value b = (toDigit b).map (value * 16 + ·) := by
  unfold pushDigit
  cases hdigit : toDigit b with
  | none => rfl
  | some digit =>
      have hlt := (toDigit_lt hdigit).1
      rw [Option.bind_some, if_pos (by omega)]
      rfl

theorem ofDigits_one (b : UInt8) : ofDigits [b] = (toDigit b).map UInt8.ofNat := by
  rw [ofDigits, List.foldlM_cons, pushDigit_eq (by decide)]
  cases toDigit b with
  | none => rfl
  | some digit => simp

theorem ofDigits_two (x y : UInt8) : ofDigits [x, y] =
    (toDigit x).bind fun high => (toDigit y).map fun low => UInt8.ofNat (high * 16 + low) := by
  rw [ofDigits, List.foldlM_cons, pushDigit_eq (by decide)]
  cases hhigh : toDigit x with
  | none => rfl
  | some high =>
      have hlt := (toDigit_lt hhigh).1
      simp only [Option.map_some, Nat.zero_mul, Nat.zero_add, Option.bind_eq_bind,
        Option.bind_some, List.foldlM_cons, List.foldlM_nil, pushDigit_eq hlt]
      cases toDigit y <;> rfl

theorem hexByte_eq (x y : UInt8) : hexByte [x, y] =
    if x = plus then (toDigit y).map UInt8.ofNat else ofDigits [x, y] := by
  have hread : fromStrRadix16 [x, y] =
      if x = plus then (toDigit y).map UInt8.ofNat else ofDigits [x, y] := by
    rw [fromStrRadix16, ofDigits_one]
    nofun
  cases hvalid : ofUtf8? [x, y] with
  | some hex => rw [hexByte, hvalid, Option.bind_some, utf8_of_ofUtf8? hvalid, hread]
  | none =>
      have hforeign : ¬(x.toNat < 0x80 ∧ y.toNat < 0x80) := by
        intro hascii
        have hsome : (ofUtf8? [x, y]).isSome = true := ofUtf8?_ascii (by simpa using hascii)
        rw [hvalid] at hsome
        cases hsome
      rw [hexByte, hvalid, Option.bind_none]
      symm
      split
      next hplus =>
        subst hplus
        cases hdigit : toDigit y with
        | none => rfl
        | some low => exact absurd ⟨by decide, (toDigit_lt hdigit).2⟩ hforeign
      next =>
        rw [ofDigits_two]
        cases hhigh : toDigit x with
        | none => rfl
        | some high =>
            cases hlow : toDigit y with
            | none => rfl
            | some low => exact absurd ⟨(toDigit_lt hhigh).2, (toDigit_lt hlow).2⟩ hforeign

theorem toDigit_plus : toDigit plus = none := by
  decide

theorem signedTriplet_eq (b x y : UInt8) : signedTriplet b x y =
    if b = percent ∧ x = plus then (toDigit y).map UInt8.ofNat else triplet b x y := by
  unfold signedTriplet triplet
  by_cases hpercent : b = percent
  · by_cases hplus : x = plus
    · rw [if_pos hpercent, if_pos ⟨hpercent, hplus⟩, hexByte_eq, if_pos hplus]
    · rw [if_pos hpercent, if_neg (fun h => hplus h.2), if_pos hpercent, hexByte_eq,
        if_neg hplus, ofDigits_two]
      cases toDigit x with
      | none => rfl
      | some high => cases toDigit y <;> rfl
  · rw [if_neg hpercent, if_neg (fun h => hpercent h.1), if_neg hpercent]

/-! ### Signed triplets -/

/-- The bytes have a percent sign, a plus sign and a hexadecimal digit in a row. -/
def Signed (bytes : Bytes) : Prop :=
  ∃ digit, (toDigit digit).isSome = true ∧ [percent, plus, digit] <:+: bytes

theorem Signed.mono {bytes rest : Bytes} (h : Signed rest) (hrest : rest <:+: bytes) :
    Signed bytes := by
  obtain ⟨digit, hdigit, hinfix⟩ := h
  exact ⟨digit, hdigit, hinfix.trans hrest⟩

theorem signed_cons {b : UInt8} {rest : Bytes} (h : Signed (b :: rest)) :
    (∃ digit tail, (toDigit digit).isSome = true ∧ b = percent ∧ rest = plus :: digit :: tail) ∨
      Signed rest := by
  obtain ⟨digit, hdigit, hinfix⟩ := h
  rcases List.infix_cons_iff.mp hinfix with hprefix | hlater
  · obtain ⟨tail, htail⟩ := hprefix
    simp only [List.cons_append, List.nil_append, List.cons.injEq] at htail
    exact .inl ⟨digit, tail, hdigit, htail.1.symm, htail.2.symm⟩
  · exact .inr ⟨digit, hdigit, hlater⟩

theorem triplet_some {b x y decoded : UInt8} (h : triplet b x y = some decoded) :
    b = percent ∧ (toDigit x).isSome = true ∧ (toDigit y).isSome = true := by
  unfold triplet at h
  split at h
  next hpercent =>
    split at h
    next high low hhigh hlow => exact ⟨hpercent, by simp [hhigh], by simp [hlow]⟩
    next => cases h
  next => cases h

/-! ### The loop against the reference -/

theorem decodeTriplets_eq {bytes : Bytes} (h : ¬Signed bytes) :
    decodeTriplets signedTriplet bytes = decodeTriplets triplet bytes := by
  have hsame {b x y : UInt8} {rest : Bytes} (h : ¬Signed (b :: x :: y :: rest)) :
      signedTriplet b x y = triplet b x y := by
    rw [signedTriplet_eq]
    split
    next hsigned =>
      obtain ⟨rfl, rfl⟩ := hsigned
      cases hdigit : toDigit y with
      | none => rfl
      | some digit => exact absurd ⟨y, by simp [hdigit], List.infix_append [] _ rest⟩ h
    next => rfl
  fun_induction decodeTriplets signedTriplet bytes with
  | case1 => rfl
  | case2 b x y rest decoded hvalue ih =>
      have hrest : rest <:+: b :: x :: y :: rest := (List.suffix_append [b, x, y] rest).isInfix
      rw [ih fun hsigned => h (hsigned.mono hrest), decodeTriplets, ← hsame h, hvalue]
  | case3 b x y rest hvalue ih =>
      have hrest : x :: y :: rest <:+: b :: x :: y :: rest := (List.suffix_cons ..).isInfix
      rw [ih fun hsigned => h (hsigned.mono hrest), decodeTriplets.eq_2, ← hsame h, hvalue]
  | case4 b rest hshort ih =>
      have hrest : rest <:+: b :: rest := (List.suffix_cons ..).isInfix
      rw [ih fun hsigned => h (hsigned.mono hrest), decodeTriplets_cons]
      exact fun x y tail htail => absurd htail (hshort x y tail)

theorem ne_of_toDigit {b c : UInt8} (h : (toDigit b).isSome = true) (hc : toDigit c = none) :
    b ≠ c := by
  rintro rfl
  simp [hc] at h

theorem toDigit_percent : toDigit percent = none := by
  decide

theorem decodeTriplets_signed {y : UInt8} {rest : Bytes} (hy : (toDigit y).isSome = true) :
    decodeTriplets triplet (percent :: plus :: y :: rest) =
      percent :: plus :: y :: decodeTriplets triplet rest := by
  have hnone : triplet percent plus y = none := by
    rw [triplet, if_pos rfl, toDigit_plus]
  have hother {b : UInt8} (hb : b ≠ percent) (x y : UInt8) : triplet b x y = none :=
    if_neg hb
  rw [decodeTriplets_cons, decodeTriplets_cons, decodeTriplets_cons]
  · exact fun x' y' _ _ => hother (ne_of_toDigit hy toDigit_percent) x' y'
  · exact fun x' y' _ _ => hother (by decide) x' y'
  · intro x' y' tail htail
    cases htail
    exact hnone

theorem count_plus (bytes : Bytes) :
    (decodeTriplets signedTriplet bytes).count plus ≤
        (decodeTriplets triplet bytes).count plus ∧
      (Signed bytes → (decodeTriplets signedTriplet bytes).count plus <
        (decodeTriplets triplet bytes).count plus) := by
  fun_induction decodeTriplets signedTriplet bytes with
  | case1 =>
      refine ⟨le_refl _, ?_⟩
      rintro ⟨digit, -, hinfix⟩
      simp at hinfix
  | case2 b x y rest decoded hvalue ih =>
      rw [signedTriplet_eq] at hvalue
      split at hvalue
      next hsigned =>
        obtain ⟨rfl, rfl⟩ := hsigned
        obtain ⟨low, hlow, rfl⟩ := Option.map_eq_some_iff.mp hvalue
        have hlt := (toDigit_lt hlow).1
        have hdecoded : UInt8.ofNat low ≠ plus := by
          intro h
          have hnat := congrArg UInt8.toNat h
          rw [toNat_ofNat_of_lt (by omega)] at hnat
          revert hnat
          show low ≠ 0x2B
          omega
        have hy : (toDigit y).isSome = true := by simp [hlow]
        rw [decodeTriplets_signed hy, List.count_cons_of_ne hdecoded,
          List.count_cons_of_ne (by decide), List.count_cons_self,
          List.count_cons_of_ne (ne_of_toDigit hy toDigit_plus)]
        have hle := ih.1
        constructor
        · omega
        · omega
      next =>
        obtain ⟨rfl, hx, hy⟩ := triplet_some hvalue
        rw [decodeTriplets, hvalue, List.count_cons, List.count_cons]
        refine ⟨Nat.add_le_add_right ih.1 _, fun hsigned => Nat.add_lt_add_right (ih.2 ?_) _⟩
        -- No signed triplet begins at the percent sign or at one of the digits.
        rcases signed_cons hsigned with ⟨_, _, _, _, htail⟩ | hsigned
        · exact absurd (List.cons.inj htail).1 (ne_of_toDigit hx toDigit_plus)
        rcases signed_cons hsigned with ⟨_, _, _, hpercent, _⟩ | hsigned
        · exact absurd hpercent (ne_of_toDigit hx toDigit_percent)
        rcases signed_cons hsigned with ⟨_, _, _, hpercent, _⟩ | hsigned
        · exact absurd hpercent (ne_of_toDigit hy toDigit_percent)
        · exact hsigned
  | case3 b x y rest hvalue ih =>
      rw [signedTriplet_eq] at hvalue
      have hnone : triplet b x y = none ∧
          ¬(b = percent ∧ x = plus ∧ (toDigit y).isSome = true) := by
        split at hvalue
        next hsigned =>
          obtain ⟨rfl, rfl⟩ := hsigned
          rw [Option.map_eq_none_iff] at hvalue
          exact ⟨by rw [triplet, if_pos rfl, toDigit_plus], fun h => by simp [hvalue] at h⟩
        next hplain => exact ⟨hvalue, fun h => hplain ⟨h.1, h.2.1⟩⟩
      rw [decodeTriplets.eq_2 triplet, hnone.1, List.count_cons, List.count_cons]
      refine ⟨Nat.add_le_add_right ih.1 _, fun hsigned => Nat.add_lt_add_right (ih.2 ?_) _⟩
      rcases signed_cons hsigned with ⟨digit, tail, hdigit, hpercent, htail⟩ | hsigned
      · obtain ⟨hplus, htail⟩ := List.cons.inj htail
        obtain ⟨rfl, -⟩ := List.cons.inj htail
        exact absurd ⟨hpercent, hplus, hdigit⟩ hnone.2
      · exact hsigned
  | case4 b rest hshort ih =>
      rw [decodeTriplets_cons fun x y tail htail => absurd htail (hshort x y tail),
        List.count_cons, List.count_cons]
      refine ⟨Nat.add_le_add_right ih.1 _, fun hsigned => Nat.add_lt_add_right (ih.2 ?_) _⟩
      rcases signed_cons hsigned with ⟨digit, tail, _, _, htail⟩ | hsigned
      · exact absurd htail (hshort plus digit tail)
      · exact hsigned

theorem percentDecode_eq_reference_iff (s : String) :
    percentDecode s = reference s ↔ ¬Signed (utf8 s) := by
  constructor
  · intro h hsigned
    have hcount := congrArg (fun text : String => text.toList.count '+') h
    have hascii : '+'.toNat < 0x80 := by decide
    have hplus : UInt8.ofNat '+'.toNat = plus := by decide
    simp only [percentDecode_eq, reference] at hcount
    rw [count_ofUtf8Lossy hascii (by decide), count_ofUtf8Lossy hascii (by decide), hplus]
      at hcount
    exact absurd hcount (Nat.ne_of_lt ((count_plus _).2 hsigned))
  · intro h
    rw [percentDecode_eq, reference, decodeTriplets_eq h]

/-! ### What the page sends -/

/-- The bytes of ASCII text. -/
def asciiBytes (chars : List Char) : Bytes :=
  chars.map fun c => UInt8.ofNat c.toNat

theorem utf8_ofList_ascii {chars : List Char} (h : ∀ c ∈ chars, c.toNat < 0x80) :
    utf8 (String.ofList chars) = asciiBytes chars := by
  rw [utf8_ofList]
  induction chars with
  | nil => rfl
  | cons c chars ih =>
      rw [List.flatMap_cons, utf8EncodeChar_ascii (h c List.mem_cons_self),
        ih fun c hc => h c (List.mem_cons_of_mem _ hc)]
      rfl

theorem hexDigit_facts {n : Nat} (h : n < 16) :
    (hexDigit n).toNat < 0x80 ∧ toDigit (UInt8.ofNat (hexDigit n).toNat) = some n := by
  have hall : ∀ n < 16,
      (hexDigit n).toNat < 0x80 ∧ toDigit (UInt8.ofNat (hexDigit n).toNat) = some n := by decide
  exact hall n h

theorem isUnreserved_facts {c : Char} (h : isUnreserved c = true) :
    c.toNat < 0x80 ∧ c ≠ '%' ∧ c ≠ '+' := by
  have hother : isUnreserved '%' = false ∧ isUnreserved '+' = false := by decide
  refine ⟨?_, fun heq => ?_, fun heq => ?_⟩
  · rcases Bool.or_eq_true_iff.mp h with halnum | hmark
    · have hbounds : (decide (65 ≤ c.val ∧ c.val ≤ 90) ||
          (decide (97 ≤ c.val) && decide (c.val ≤ 122)) ||
          (decide (48 ≤ c.val) && decide (c.val ≤ 57))) = true := halnum
      simp only [Bool.or_eq_true, Bool.and_eq_true, decide_eq_true_eq, UInt32.le_iff_toNat_le,
        UInt32.reduceToNat] at hbounds
      show c.val.toNat < 0x80
      omega
    · have hall : ∀ x ∈ "-_.!~*'()".toList, x.toNat < 0x80 :=
        List.all_iff_forall_prop.mp (by decide)
      exact hall c (List.contains_iff_mem.mp hmark)
  · rw [heq, hother.1] at h
    cases h
  · rw [heq, hother.2] at h
    cases h

theorem asciiBytes_append (xs ys : List Char) :
    asciiBytes (xs ++ ys) = asciiBytes xs ++ asciiBytes ys :=
  List.map_append

theorem asciiBytes_encodeByte (b : UInt8) : ∃ x y, asciiBytes (encodeByte b) = [percent, x, y] ∧
    toDigit x = some (b.toNat / 16) ∧ toDigit y = some (b.toNat % 16) := by
  have hbyte := b.toNat_lt
  exact ⟨_, _, rfl, (hexDigit_facts (by omega)).2, (hexDigit_facts (by omega)).2⟩

theorem encodeByte_ascii (b : UInt8) : ∀ c ∈ encodeByte b, c.toNat < 0x80 := by
  have hbyte := b.toNat_lt
  have hhigh := (@hexDigit_facts (b.toNat / 16) (by omega)).1
  have hlow := (@hexDigit_facts (b.toNat % 16) (by omega)).1
  intro c hc
  simp only [encodeByte, List.mem_cons, List.not_mem_nil, or_false] at hc
  rcases hc with rfl | rfl | rfl
  · decide
  · exact hhigh
  · exact hlow

theorem encodeChar_ascii (c : Char) : ∀ x ∈ encodeChar c, x.toNat < 0x80 := by
  intro x hx
  unfold encodeChar at hx
  split at hx
  next hunreserved =>
    obtain rfl := List.mem_singleton.mp hx
    exact (isUnreserved_facts hunreserved).1
  next =>
    obtain ⟨b, -, hmem⟩ := List.mem_flatMap.mp hx
    exact encodeByte_ascii b x hmem

theorem plus_not_mem_encodeByte (b : UInt8) : plus ∉ asciiBytes (encodeByte b) := by
  obtain ⟨x, y, hbytes, hx, hy⟩ := asciiBytes_encodeByte b
  rw [hbytes]
  intro hmem
  simp only [List.mem_cons, List.not_mem_nil, or_false] at hmem
  rcases hmem with hpercent | rfl | rfl
  · exact absurd hpercent (by decide)
  · simp [toDigit_plus] at hx
  · simp [toDigit_plus] at hy

theorem plus_not_mem_encodeChar (c : Char) : plus ∉ asciiBytes (encodeChar c) := by
  intro hmem
  obtain ⟨x, hx, hplus⟩ := List.mem_map.mp hmem
  unfold encodeChar at hx
  split at hx
  next hunreserved =>
    obtain rfl := List.mem_singleton.mp hx
    obtain ⟨hascii, -, hother⟩ := isUnreserved_facts hunreserved
    have hvalue := congrArg UInt8.toNat hplus
    rw [toNat_ofNat_of_lt (by omega)] at hvalue
    exact hother (Char.toNat_inj.mp hvalue)
  next =>
    obtain ⟨b, -, hencoded⟩ := List.mem_flatMap.mp hx
    exact plus_not_mem_encodeByte b (hplus ▸ List.mem_map_of_mem hencoded)

theorem decodeTriplets_encodeByte (b : UInt8) (rest : Bytes) :
    decodeTriplets triplet (asciiBytes (encodeByte b) ++ rest) =
      b :: decodeTriplets triplet rest := by
  obtain ⟨x, y, hbytes, hx, hy⟩ := asciiBytes_encodeByte b
  have hvalue : triplet percent x y = some b := by
    have hsplit : b.toNat / 16 * 16 + b.toNat % 16 = b.toNat := by omega
    rw [triplet, if_pos rfl, hx, hy]
    dsimp only
    rw [hsplit, UInt8.ofNat_toNat]
  rw [hbytes]
  simp only [List.cons_append, List.nil_append]
  rw [decodeTriplets, hvalue]

theorem decodeTriplets_encodeChar (c : Char) (rest : Bytes) :
    decodeTriplets triplet (asciiBytes (encodeChar c) ++ rest) =
      String.utf8EncodeChar c ++ decodeTriplets triplet rest := by
  have hencoded (bytes : Bytes) :
      decodeTriplets triplet (asciiBytes (bytes.flatMap encodeByte) ++ rest) =
        bytes ++ decodeTriplets triplet rest := by
    induction bytes with
    | nil => rfl
    | cons b bytes ih =>
        rw [List.flatMap_cons, asciiBytes_append, List.append_assoc, decodeTriplets_encodeByte, ih]
        rfl
  unfold encodeChar
  split
  next hunreserved =>
    obtain ⟨hascii, hpercent, -⟩ := isUnreserved_facts hunreserved
    have hother : UInt8.ofNat c.toNat ≠ percent := by
      intro h
      have hvalue := congrArg UInt8.toNat h
      rw [toNat_ofNat_of_lt (by omega)] at hvalue
      exact hpercent (Char.toNat_inj.mp hvalue)
    rw [utf8EncodeChar_ascii hascii]
    exact decodeTriplets_cons fun _ _ _ _ => if_neg hother
  next => exact hencoded _

/-- The decoder gives back the name that the page encodes. -/
theorem percentDecode_encodeURIComponent (name : String) :
    percentDecode (encodeURIComponent name) = name := by
  have hbytes : utf8 (encodeURIComponent name) = asciiBytes (name.toList.flatMap encodeChar) := by
    apply utf8_ofList_ascii
    intro x hx
    obtain ⟨c, -, hmem⟩ := List.mem_flatMap.mp hx
    exact encodeChar_ascii c x hmem
  have hunsigned : ¬Signed (utf8 (encodeURIComponent name)) := by
    rintro ⟨digit, -, hinfix⟩
    have hmem : plus ∈ utf8 (encodeURIComponent name) :=
      hinfix.subset (List.mem_cons_of_mem _ List.mem_cons_self)
    rw [hbytes] at hmem
    obtain ⟨x, hx, hplus⟩ := List.mem_map.mp hmem
    obtain ⟨c, -, hencoded⟩ := List.mem_flatMap.mp hx
    exact plus_not_mem_encodeChar c (hplus ▸ List.mem_map_of_mem hencoded)
  have hdecoded (chars : List Char) :
      decodeTriplets triplet (asciiBytes (chars.flatMap encodeChar)) =
        chars.flatMap String.utf8EncodeChar := by
    induction chars with
    | nil => rfl
    | cons c chars ih =>
        rw [List.flatMap_cons, asciiBytes_append, decodeTriplets_encodeChar, ih, List.flatMap_cons]
  rw [percentDecode_eq, decodeTriplets_eq hunsigned, hbytes, hdecoded, ← utf8_ofList,
    String.ofList_toList, ofUtf8Lossy_utf8]

/-- The decoder is the reference on exactly the headers without a signed triplet, and it inverts
`encodeURIComponent`. -/
theorem percentDecode_exact (s name : String) :
    (percentDecode s = reference s ↔ ¬Signed (utf8 s)) ∧
      percentDecode (encodeURIComponent name) = name :=
  ⟨percentDecode_eq_reference_iff s, percentDecode_encodeURIComponent name⟩

/-- The header `%+F` is decoded to the byte 15. -/
theorem percentDecode_signed :
    percentDecode "%+F" = "\x0F" ∧ ¬∀ s, percentDecode s = reference s := by
  have hbytes : utf8 "%+F" = [percent, plus, 0x46] := by decide
  have hdecoded : decodeTriplets signedTriplet (utf8 "%+F") = utf8 "\x0F" := by
    rw [hbytes, decodeTriplets, signedTriplet_eq]
    decide
  have hvalue : percentDecode "%+F" = "\x0F" := by
    rw [percentDecode_eq, hdecoded, ofUtf8Lossy_utf8]
  refine ⟨hvalue, fun hclaim => ?_⟩
  have hreference : reference "%+F" = "%+F" := by
    have hkept : decodeTriplets triplet (utf8 "%+F") = utf8 "%+F" := by
      rw [hbytes]
      decide
    rw [reference, hkept, ofUtf8Lossy_utf8]
  have hsame := (hvalue.symm.trans (hclaim "%+F")).trans hreference
  exact absurd hsame (by decide)

end RemoteControl.Server.PercentDecoding
