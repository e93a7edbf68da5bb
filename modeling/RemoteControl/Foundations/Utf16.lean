import Mathlib.Data.List.Basic

/-!
UTF-16: the code units of a text, and the text of code units that may be ill-formed.
-/

namespace RemoteControl.Foundations.Utf16

abbrev Units := List UInt16

def isHighSurrogate (unit : UInt16) : Bool :=
  0xD800 ≤ unit.toNat && decide (unit.toNat < 0xDC00)

def isLowSurrogate (unit : UInt16) : Bool :=
  0xDC00 ≤ unit.toNat && decide (unit.toNat < 0xE000)

/-- A scalar value of the Basic Multilingual Plane is one unit, any other one a pair. -/
def unitsOf (c : Char) : Units :=
  if c.toNat < 0x10000 then [UInt16.ofNat c.toNat]
  else [UInt16.ofNat (0xD800 + (c.toNat - 0x10000) / 0x400),
    UInt16.ofNat (0xDC00 + (c.toNat - 0x10000) % 0x400)]

def utf16 (text : List Char) : Units :=
  text.flatMap unitsOf

/-- The text of code units, with a question mark for each surrogate that has no partner. -/
def ofUtf16 : Units → List Char
  | [] => []
  | [unit] =>
      if isHighSurrogate unit || isLowSurrogate unit then ['?'] else [Char.ofNat unit.toNat]
  | unit :: next :: rest =>
      if isHighSurrogate unit && isLowSurrogate next then
        Char.ofNat (0x10000 + (unit.toNat - 0xD800) * 0x400 + (next.toNat - 0xDC00)) ::
          ofUtf16 rest
      else if isHighSurrogate unit || isLowSurrogate unit then '?' :: ofUtf16 (next :: rest)
      else Char.ofNat unit.toNat :: ofUtf16 (next :: rest)

@[simp] theorem utf16_nil : utf16 [] = [] := rfl

@[simp] theorem utf16_cons (c : Char) (text : List Char) :
    utf16 (c :: text) = unitsOf c ++ utf16 text := rfl

@[simp] theorem utf16_append (text rest : List Char) :
    utf16 (text ++ rest) = utf16 text ++ utf16 rest :=
  List.flatMap_append

theorem scalar_bounds (c : Char) :
    c.toNat < 0xD800 ∨ 0xDFFF < c.toNat ∧ c.toNat < 0x110000 :=
  c.valid

theorem toNat_ofNat_of_lt {n : Nat} (h : n < 0x10000) : (UInt16.ofNat n).toNat = n := by
  rw [UInt16.toNat_ofNat']
  exact Nat.mod_eq_of_lt h

theorem unitsOf_bmp {c : Char} (h : c.toNat < 0x10000) :
    ∃ unit, unitsOf c = [unit] ∧ unit.toNat = c.toNat ∧ isHighSurrogate unit = false ∧
      isLowSurrogate unit = false := by
  have hunit := toNat_ofNat_of_lt h
  have hscalar := scalar_bounds c
  refine ⟨UInt16.ofNat c.toNat, if_pos h, hunit, ?_, ?_⟩
  · simp only [isHighSurrogate, hunit, Bool.and_eq_false_iff, decide_eq_false_iff_not]
    omega
  · simp only [isLowSurrogate, hunit, Bool.and_eq_false_iff, decide_eq_false_iff_not]
    omega

theorem unitsOf_supplementary {c : Char} (h : ¬c.toNat < 0x10000) :
    ∃ high low, unitsOf c = [high, low] ∧ isHighSurrogate high = true ∧
      isLowSurrogate low = true ∧
      c.toNat = 0x10000 + (high.toNat - 0xD800) * 0x400 + (low.toNat - 0xDC00) := by
  have hscalar := scalar_bounds c
  have hhigh : (UInt16.ofNat (0xD800 + (c.toNat - 0x10000) / 0x400)).toNat =
      0xD800 + (c.toNat - 0x10000) / 0x400 := toNat_ofNat_of_lt (by omega)
  have hlow : (UInt16.ofNat (0xDC00 + (c.toNat - 0x10000) % 0x400)).toNat =
      0xDC00 + (c.toNat - 0x10000) % 0x400 := toNat_ofNat_of_lt (by omega)
  refine ⟨_, _, if_neg h, ?_, ?_, ?_⟩
  · simp only [isHighSurrogate, hhigh, Bool.and_eq_true, decide_eq_true_eq]
    omega
  · simp only [isLowSurrogate, hlow, Bool.and_eq_true, decide_eq_true_eq]
    omega
  · rw [hhigh, hlow]
    omega

theorem ofUtf16_unitsOf_append (c : Char) (rest : Units) :
    ofUtf16 (unitsOf c ++ rest) = c :: ofUtf16 rest := by
  by_cases hbmp : c.toNat < 0x10000
  · obtain ⟨unit, hunits, hvalue, hhigh, hlow⟩ := unitsOf_bmp hbmp
    rw [hunits]
    cases rest with
    | nil => simp [ofUtf16, hhigh, hlow, hvalue, Char.ofNat_toNat]
    | cons next rest => simp [ofUtf16, hhigh, hlow, hvalue, Char.ofNat_toNat]
  · obtain ⟨high, low, hunits, hhigh, hlow, hvalue⟩ := unitsOf_supplementary hbmp
    rw [hunits]
    simp [ofUtf16, hhigh, hlow, ← hvalue, Char.ofNat_toNat]

@[simp] theorem ofUtf16_utf16 (text : List Char) : ofUtf16 (utf16 text) = text := by
  induction text with
  | nil => rfl
  | cons c text ih => rw [utf16_cons, ofUtf16_unitsOf_append, ih]

theorem utf16_injective {text text' : List Char} (h : utf16 text = utf16 text') :
    text = text' := by
  rw [← ofUtf16_utf16 text, h, ofUtf16_utf16]

/-! ### Common prefixes -/

/-- How many units two texts have in common at the front. -/
def commonLength : Units → Units → Nat
  | a :: as, b :: bs => if a = b then commonLength as bs + 1 else 0
  | _, _ => 0

/-- There is a surrogate pair at this index. -/
def hasSurrogatePairAt (units : Units) (i : Nat) : Bool :=
  match units[i]?, units[i + 1]? with
  | some high, some low => isHighSurrogate high && isLowSurrogate low
  | _, _ => false

/-- The longest common prefix that does not end within a surrogate pair. -/
def commonPrefixWith (a b : Units) : Units :=
  let i := commonLength a b
  if 0 < i && (hasSurrogatePairAt a (i - 1) || hasSurrogatePairAt b (i - 1)) then a.take (i - 1)
  else a.take i

theorem commonLength_append (front a b : Units) :
    commonLength (front ++ a) (front ++ b) = front.length + commonLength a b := by
  induction front with
  | nil => simp
  | cons unit front ih =>
      rw [List.cons_append, List.cons_append, commonLength, if_pos rfl, ih, List.length_cons]
      omega

theorem commonLength_of_prefix {a b : Units} (h : a <+: b) : commonLength a b = a.length := by
  obtain ⟨rest, rfl⟩ := h
  have happend := commonLength_append a [] rest
  rw [List.append_nil] at happend
  rw [happend]
  unfold commonLength
  rfl

/-- Two texts that do not start with the same character. -/
def Apart (text text' : List Char) : Prop :=
  ∀ c ∈ text.head?, ∀ d ∈ text'.head?, c ≠ d

theorem exists_apart (text text' : List Char) :
    ∃ front rest rest', text = front ++ rest ∧ text' = front ++ rest' ∧ Apart rest rest' := by
  induction text generalizing text' with
  | nil => exact ⟨[], [], text', rfl, rfl, fun _ hc => by contradiction⟩
  | cons c text ih =>
      rcases text' with _ | ⟨d, text'⟩
      · exact ⟨[], c :: text, [], rfl, rfl, fun _ _ _ hd => by contradiction⟩
      · by_cases hcd : c = d
        · obtain ⟨front, rest, rest', rfl, rfl, hapart⟩ := ih text'
          exact ⟨c :: front, rest, rest', rfl, by rw [hcd, List.cons_append], hapart⟩
        · refine ⟨[], c :: text, d :: text', rfl, rfl, ?_⟩
          rintro _ ⟨⟩ _ ⟨⟩
          exact hcd

theorem Apart.symm {text text' : List Char} (h : Apart text text') : Apart text' text :=
  fun d hd c hc heq => h c hc d hd heq.symm

theorem not_high_of_low {unit : UInt16} (h : isLowSurrogate unit = true) :
    isHighSurrogate unit = false := by
  simp only [isLowSurrogate, Bool.and_eq_true, decide_eq_true_eq] at h
  simp only [isHighSurrogate, Bool.and_eq_false_iff, decide_eq_false_iff_not]
  omega

theorem commonLength_apart {rest rest' : List Char} (h : Apart rest rest') :
    commonLength (utf16 rest) (utf16 rest') = 0 ∨
      commonLength (utf16 rest) (utf16 rest') = 1 ∧
        hasSurrogatePairAt (utf16 rest) 0 = true := by
  rcases rest with _ | ⟨c, rest⟩
  · left
    unfold commonLength
    rfl
  rcases rest' with _ | ⟨d, rest'⟩
  · left
    rw [utf16_nil]
    unfold commonLength
    split
    next hnil => contradiction
    next => rfl
  have hne : c ≠ d := h c rfl d rfl
  have hvalue : c.toNat ≠ d.toNat := fun heq => hne (Char.toNat_inj.mp heq)
  by_cases hc : c.toNat < 0x10000
  · obtain ⟨unit, hunits, hunit, hhigh, -⟩ := unitsOf_bmp hc
    left
    by_cases hd : d.toNat < 0x10000
    · obtain ⟨unit', hunits', hunit', -⟩ := unitsOf_bmp hd
      have hne' : unit ≠ unit' := by
        rintro rfl
        exact hvalue (hunit.symm.trans hunit')
      simp [hunits, hunits', commonLength, hne']
    · obtain ⟨high, low, hunits', hhigh', -⟩ := unitsOf_supplementary hd
      have hne' : unit ≠ high := by
        rintro rfl
        exact Bool.false_ne_true (hhigh.symm.trans hhigh')
      simp [hunits, hunits', commonLength, hne']
  · obtain ⟨high, low, hunits, hhigh, hlow, hpair⟩ := unitsOf_supplementary hc
    by_cases hd : d.toNat < 0x10000
    · obtain ⟨unit', hunits', -, hhigh', -⟩ := unitsOf_bmp hd
      have hne' : high ≠ unit' := by
        rintro rfl
        exact Bool.false_ne_true (hhigh'.symm.trans hhigh)
      left
      simp [hunits, hunits', commonLength, hne']
    · obtain ⟨high', low', hunits', -, -, hpair'⟩ := unitsOf_supplementary hd
      by_cases hhighs : high = high'
      · subst hhighs
        have hlows : low ≠ low' := by
          rintro rfl
          exact hvalue (hpair.trans hpair'.symm)
        right
        simp [hunits, hunits', commonLength, hlows, hasSurrogatePairAt, hhigh, hlow]
      · left
        simp [hunits, hunits', commonLength, hhighs]

theorem not_high_last {text : List Char} {unit : UInt16} (h : unit ∈ (utf16 text).getLast?) :
    isHighSurrogate unit = false := by
  rcases List.eq_nil_or_concat text with rfl | ⟨front, c, rfl⟩
  · contradiction
  rw [List.concat_eq_append, utf16_append, utf16_cons, utf16_nil, List.append_nil] at h
  by_cases hc : c.toNat < 0x10000
  · obtain ⟨last, hunits, -, hhigh, -⟩ := unitsOf_bmp hc
    rw [hunits, List.getLast?_append_of_ne_nil _ (List.cons_ne_nil _ _)] at h
    obtain rfl := Option.some.inj h
    exact hhigh
  · obtain ⟨high, low, hunits, -, hlow, -⟩ := unitsOf_supplementary hc
    rw [hunits, List.getLast?_append_of_ne_nil _ (List.cons_ne_nil _ _)] at h
    obtain rfl := Option.some.inj h
    exact not_high_of_low hlow

theorem hasSurrogatePairAt_append (front units : Units) :
    hasSurrogatePairAt (front ++ units) front.length = hasSurrogatePairAt units 0 := by
  unfold hasSurrogatePairAt
  rw [List.getElem?_append_right (Nat.le_refl _), List.getElem?_append_right (Nat.le_succ _),
    Nat.sub_self, show front.length + 1 - front.length = 0 + 1 by omega]

theorem hasSurrogatePairAt_end {text : List Char} {rest : Units} (h : 0 < (utf16 text).length) :
    hasSurrogatePairAt (utf16 text ++ rest) ((utf16 text).length - 1) = false := by
  unfold hasSurrogatePairAt
  rw [List.getElem?_append_left (by omega), ← List.getLast?_eq_getElem?]
  split
  next high low hhigh hlow =>
    rw [not_high_last hhigh]
    rfl
  next => rfl

/-- On texts the common prefix is the one of their characters. -/
theorem commonPrefixWith_utf16 {front rest rest' : List Char} (h : Apart rest rest') :
    commonPrefixWith (utf16 (front ++ rest)) (utf16 (front ++ rest')) = utf16 front := by
  rw [utf16_append, utf16_append, commonPrefixWith, commonLength_append]
  rcases commonLength_apart h with hnone | ⟨hone, hpair⟩
  · rw [hnone, Nat.add_zero]
    by_cases hpos : 0 < (utf16 front).length
    · rw [hasSurrogatePairAt_end hpos, hasSurrogatePairAt_end hpos, Bool.or_false,
        Bool.and_false, if_neg Bool.false_ne_true, List.take_left]
    · rw [decide_eq_false hpos, Bool.false_and, if_neg Bool.false_ne_true, List.take_left]
  · rw [hone, Nat.add_sub_cancel, hasSurrogatePairAt_append, hpair, Bool.true_or, Bool.and_true,
      if_pos (decide_eq_true (Nat.succ_pos _)), List.take_left]

theorem unitsOf_ne_nil (c : Char) : unitsOf c ≠ [] := by
  unfold unitsOf
  split
  · exact List.cons_ne_nil _ _
  · exact List.cons_ne_nil _ _

theorem utf16_eq_nil_iff {text : List Char} : utf16 text = [] ↔ text = [] := by
  constructor
  · intro h
    rcases text with _ | ⟨c, text⟩
    · rfl
    · rw [utf16_cons] at h
      exact absurd (List.append_eq_nil_iff.mp h).1 (unitsOf_ne_nil c)
  · rintro rfl
    rfl

theorem prefix_iff_of_apart {front rest rest' : List Char} (h : Apart rest rest') :
    utf16 (front ++ rest) <+: utf16 (front ++ rest') ↔ rest = [] := by
  constructor
  · intro hfront
    have hlength := commonLength_of_prefix hfront
    rw [utf16_append, utf16_append, commonLength_append, List.length_append] at hlength
    rcases commonLength_apart h with hnone | ⟨hone, hpair⟩
    · have hempty : (utf16 rest).length = 0 := by omega
      exact utf16_eq_nil_iff.mp (List.length_eq_zero_iff.mp hempty)
    · have hshort : (utf16 rest).length = 1 := by omega
      obtain ⟨unit, hunit⟩ := List.length_eq_one_iff.mp hshort
      rw [hunit] at hpair
      contradiction
  · rintro rfl
    rw [List.append_nil, utf16_append]
    exact List.prefix_append _ _

/-! ### Decoding -/

/-- The characters of code units, with `none` for each surrogate that has no partner. -/
def decode : Units → List (Option Char)
  | [] => []
  | [unit] =>
      [if isHighSurrogate unit || isLowSurrogate unit then none
        else some (Char.ofNat unit.toNat)]
  | unit :: next :: rest =>
      if isHighSurrogate unit && isLowSurrogate next then
        some (Char.ofNat (0x10000 + (unit.toNat - 0xD800) * 0x400 + (next.toNat - 0xDC00))) ::
          decode rest
      else if isHighSurrogate unit || isLowSurrogate unit then none :: decode (next :: rest)
      else some (Char.ofNat unit.toNat) :: decode (next :: rest)

theorem decode_unitsOf_append (c : Char) (rest : Units) :
    decode (unitsOf c ++ rest) = some c :: decode rest := by
  by_cases hbmp : c.toNat < 0x10000
  · obtain ⟨unit, hunits, hvalue, hhigh, hlow⟩ := unitsOf_bmp hbmp
    rw [hunits]
    cases rest with
    | nil => simp [decode, hhigh, hlow, hvalue, Char.ofNat_toNat]
    | cons next rest => simp [decode, hhigh, hlow, hvalue, Char.ofNat_toNat]
  · obtain ⟨high, low, hunits, hhigh, hlow, hvalue⟩ := unitsOf_supplementary hbmp
    rw [hunits]
    simp [decode, hhigh, hlow, ← hvalue, Char.ofNat_toNat]

@[simp] theorem decode_utf16 (text : List Char) : decode (utf16 text) = text.map some := by
  induction text with
  | nil => rfl
  | cons c text ih => rw [utf16_cons, decode_unitsOf_append, ih, List.map_cons]

/-- The text of code units, with U+FFFD for what is no character. -/
def ofUtf16Lossy (units : Units) : List Char :=
  (decode units).map fun c => c.getD '\uFFFD'

@[simp] theorem ofUtf16Lossy_utf16 (text : List Char) : ofUtf16Lossy (utf16 text) = text := by
  rw [ofUtf16Lossy, decode_utf16, List.map_map]
  exact List.map_id _

theorem zero_mem_unitsOf {c : Char} : 0 ∈ unitsOf c ↔ c = '\x00' := by
  constructor
  · intro hmem
    by_cases hbmp : c.toNat < 0x10000
    · obtain ⟨unit, hunits, hvalue, -, -⟩ := unitsOf_bmp hbmp
      rw [hunits, List.mem_singleton] at hmem
      rw [← hmem] at hvalue
      exact Char.toNat_inj.mp hvalue.symm
    · obtain ⟨high, low, hunits, hhigh, hlow, -⟩ := unitsOf_supplementary hbmp
      rw [hunits] at hmem
      rcases List.mem_pair.mp hmem with rfl | rfl
      · exact absurd hhigh (by decide)
      · exact absurd hlow (by decide)
  · rintro rfl
    decide

theorem zero_mem_utf16 {text : List Char} : 0 ∈ utf16 text ↔ '\x00' ∈ text := by
  rw [utf16, List.mem_flatMap]
  constructor
  · rintro ⟨c, hc, hzero⟩
    exact zero_mem_unitsOf.mp hzero ▸ hc
  · exact fun hmem => ⟨_, hmem, zero_mem_unitsOf.mpr rfl⟩

end RemoteControl.Foundations.Utf16
