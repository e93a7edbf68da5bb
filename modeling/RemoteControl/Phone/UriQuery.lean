import RemoteControl.Foundations.Utf8

/-!
The query parameters of a URI, as `android.net.Uri` reads them.
-/

namespace RemoteControl.Phone.UriQuery

open RemoteControl.Foundations.ByteStrings
open RemoteControl.Foundations.Utf8

/-! ### Decoding -/

def hexValue (c : Char) : Option Nat :=
  if c.isDigit then some (c.toNat - '0'.toNat)
  else if 'a' ≤ c ∧ c ≤ 'f' then some (c.toNat - 'a'.toNat + 10)
  else if 'A' ≤ c ∧ c ≤ 'F' then some (c.toNat - 'A'.toNat + 10)
  else none

/-- The byte of a percent sign and two hexadecimal digits. -/
def escape (c x y : Char) : Option UInt8 :=
  if c = '%' then do
    let high ← hexValue x
    let low ← hexValue y
    return UInt8.ofNat (high * 16 + low)
  else none

/-- A character that is not part of an escape. -/
def plain (c : Char) : Char :=
  if c = '%' then replacement else if c = '+' then ' ' else c

/-- The text of a run of escaped bytes. -/
def flush (bytes : Bytes) : List Char :=
  (ofUtf8Lossy bytes).toList

def decodeAfter (bytes : Bytes) : List Char → List Char
  | [] => flush bytes
  | c :: x :: y :: rest =>
      match escape c x y with
      | some b => decodeAfter (bytes ++ [b]) rest
      | none => flush bytes ++ plain c :: decodeAfter [] (x :: y :: rest)
  | c :: rest => flush bytes ++ plain c :: decodeAfter [] rest

/-- The value of a parameter: a plus sign is a blank, and an escape is a byte of UTF-8. -/
def decode (value : List Char) : List Char :=
  decodeAfter [] value

/-! ### Parameters -/

/-- The names and the encoded values of the parameters. -/
def queryPairs (query : List Char) : List (List Char × List Char) :=
  (query.splitOn '&').map fun part =>
    (part.takeWhile (· != '='), (part.dropWhile (· != '=')).tail)

/-- `getQueryParameter`: the value of the first parameter with the name. -/
def queryParameter (query name : String) : Option String :=
  ((queryPairs query.toList).lookup name.toList).map fun value => String.ofList (decode value)

/-! ### What decoding keeps -/

theorem flush_nil : flush [] = [] :=
  rfl

theorem length_flush_le (bytes : Bytes) : (flush bytes).length ≤ bytes.length := by
  rw [flush, ofUtf8Lossy, String.toList_ofList]
  exact length_decodeFrom_le none bytes

theorem decodeAfter_cons {bytes : Bytes} {c : Char} {rest : List Char}
    (h : ∀ x y tail, rest = x :: y :: tail → escape c x y = none) :
    decodeAfter bytes (c :: rest) = flush bytes ++ plain c :: decodeAfter [] rest := by
  match rest with
  | [] => rfl
  | [x] => rfl
  | x :: y :: tail => rw [decodeAfter, h x y tail rfl]

theorem escape_of_ne {c : Char} (h : c ≠ '%') (x y : Char) : escape c x y = none :=
  if_neg h

theorem plain_of_ne {c : Char} (h : c ≠ '%') (h' : c ≠ '+') : plain c = c := by
  rw [plain, if_neg h, if_neg h']

theorem plain_eq_self_iff {c : Char} : plain c = c ↔ c ≠ '%' ∧ c ≠ '+' := by
  constructor
  · intro h
    constructor
    · rintro rfl
      exact absurd h (by decide)
    · rintro rfl
      exact absurd h (by decide)
  · exact fun h => plain_of_ne h.1 h.2

theorem length_decodeAfter (bytes : Bytes) (value : List Char) :
    (decodeAfter bytes value).length ≤ bytes.length + value.length ∧
      ((decodeAfter bytes value).length = bytes.length + value.length →
        decodeAfter bytes value = flush bytes ++ value.map plain) := by
  have hnone {bytes : Bytes} {c : Char} {rest : List Char}
      (ih : (decodeAfter [] rest).length ≤ ([] : Bytes).length + rest.length ∧
        ((decodeAfter [] rest).length = ([] : Bytes).length + rest.length →
          decodeAfter [] rest = flush [] ++ rest.map plain)) :
      (flush bytes ++ plain c :: decodeAfter [] rest).length ≤
          bytes.length + (c :: rest).length ∧
        ((flush bytes ++ plain c :: decodeAfter [] rest).length =
            bytes.length + (c :: rest).length →
          flush bytes ++ plain c :: decodeAfter [] rest =
            flush bytes ++ (c :: rest).map plain) := by
    have hflush := length_flush_le bytes
    obtain ⟨hle, hsame⟩ := ih
    simp only [List.length_append, List.length_cons, List.length_nil, Nat.zero_add] at hle hsame ⊢
    refine ⟨by omega, fun heq => ?_⟩
    rw [hsame (by omega), flush_nil, List.nil_append, List.map_cons]
  fun_induction decodeAfter bytes value with
  | case1 bytes =>
      have hflush := length_flush_le bytes
      simpa using hflush
  | case2 bytes c x y rest b hescape ih =>
      have hle := ih.1
      simp only [List.length_append, List.length_cons, List.length_nil] at hle ⊢
      constructor
      · omega
      · intro heq
        omega
  | case3 bytes c x y rest hescape ih => exact hnone ih
  | case4 bytes c rest hshort ih => exact hnone ih

theorem escape_of_hexValue {c x y : Char} (h : hexValue x = none ∨ hexValue y = none) :
    escape c x y = none := by
  unfold escape
  split
  · rcases h with hx | hy
    · rw [hx]
      rfl
    · rw [hy]
      cases hexValue x <;> rfl
  · rfl

theorem decodeAfter_append {c : Char} (hhex : hexValue c = none) (hplain : plain c = c)
    (bytes : Bytes) (before after : List Char) :
    decodeAfter bytes (before ++ c :: after) =
      decodeAfter bytes before ++ c :: decodeAfter [] after := by
  obtain ⟨hpercent, -⟩ := plain_eq_self_iff.mp hplain
  fun_induction decodeAfter bytes before with
  | case1 bytes =>
      rw [List.nil_append, decodeAfter_cons fun x y _ _ => escape_of_ne hpercent x y, hplain]
  | case2 bytes d x y rest b hescape ih =>
      simp only [List.cons_append]
      rw [decodeAfter, hescape]
      exact ih
  | case3 bytes d x y rest hescape ih =>
      simp only [List.cons_append] at ih ⊢
      rw [decodeAfter.eq_2, hescape]
      simp only [ih, List.append_assoc, List.cons_append]
  | case4 bytes d rest hshort ih =>
      have hnone : ∀ x y tail, rest ++ c :: after = x :: y :: tail → escape d x y = none := by
        intro x y tail h
        match rest, hshort with
        | [], _ =>
            obtain ⟨rfl, -⟩ := List.cons.inj h
            exact escape_of_hexValue (.inl hhex)
        | [z], _ =>
            obtain ⟨-, h⟩ := List.cons.inj h
            obtain ⟨rfl, -⟩ := List.cons.inj h
            exact escape_of_hexValue (.inr hhex)
        | z :: w :: more, hshort => exact absurd rfl (hshort z w more)
      rw [List.cons_append, decodeAfter_cons hnone, ih, List.append_assoc, List.cons_append]

theorem decode_append {c : Char} (hhex : hexValue c = none) (hplain : plain c = c)
    (before after : List Char) :
    decode (before ++ c :: after) = decode before ++ c :: decode after :=
  decodeAfter_append hhex hplain [] before after

theorem length_decode_le (value : List Char) : (decode value).length ≤ value.length := by
  have hle := (length_decodeAfter [] value).1
  rwa [List.length_nil, Nat.zero_add] at hle

theorem decode_eq_map {value : List Char} (h : (decode value).length = value.length) :
    decode value = value.map plain := by
  have hsame := (length_decodeAfter [] value).2
  rw [List.length_nil, Nat.zero_add] at hsame
  exact hsame h

/-- The text has no percent sign and no plus sign. -/
def Clean (value : List Char) : Prop :=
  ∀ c ∈ value, c ≠ '%' ∧ c ≠ '+'

theorem decode_clean {value : List Char} (h : Clean value) : decode value = value := by
  induction value with
  | nil => rfl
  | cons c rest ih =>
      obtain ⟨hpercent, hplus⟩ := h c List.mem_cons_self
      rw [decode, decodeAfter_cons fun x y _ _ => escape_of_ne hpercent x y, flush_nil,
        plain_of_ne hpercent hplus]
      exact congrArg (c :: ·) (ih fun d hd => h d (List.mem_cons_of_mem _ hd))

theorem clean_of_decode_eq {value : List Char} (h : decode value = value) : Clean value := by
  have hmap := (decode_eq_map (congrArg List.length h)).symm.trans h
  intro c hc
  have hplain : plain c = id c :=
    List.map_inj_left.mp (hmap.trans (List.map_id value).symm) c hc
  exact plain_eq_self_iff.mp hplain

/-! ### What the parameters are -/

theorem queryPairs_append (query rest : List Char) :
    queryPairs (query ++ '&' :: rest) = queryPairs query ++ queryPairs rest := by
  rw [queryPairs, List.splitOn_append_cons_self, List.map_append]
  rfl

theorem queryPairs_pair {name value : List Char} (hname : ∀ c ∈ name, c ≠ '=' ∧ c ≠ '&')
    (hvalue : '&' ∉ value) : queryPairs (name ++ '=' :: value) = [(name, value)] := by
  have hseparator : '&' ∉ name ++ '=' :: value := by
    simp only [List.mem_append, List.mem_cons, not_or]
    exact ⟨fun h => (hname _ h).2 rfl, by decide, hvalue⟩
  have hname' : ∀ c ∈ name, (c != '=') = true := fun c hc => by simp [(hname c hc).1]
  rw [queryPairs, List.splitOn_eq_singleton hseparator, List.map_singleton,
    List.takeWhile_append_of_pos hname', List.dropWhile_append_of_pos hname']
  simp

end RemoteControl.Phone.UriQuery
