import Mathlib.Data.Bool.AllAny
import RemoteControl.Server.FileHandlers

/-!
What `sanitize_filename` promises of the names that it returns, and which announced names it keeps
the promise for.
-/

namespace RemoteControl.Server.FileNames

open RemoteControl.Server.FileHandlers

/-! ### The steps of `sanitize_filename` -/

/-- The announced name without forbidden characters and outer whitespace. -/
def trimmed (raw : String) : List Char :=
  trim (raw.toList.filter fun c => !forbidden.contains c)

/-- The stem and the extension of a name that has to be cut, with the dot. -/
def cutParts (name : List Char) : List Char × List Char :=
  match rsplitOnce '.' name with
  | some (s, e) => if byteLen e < 32 then (s, '.' :: e) else (name, [])
  | none => (name, [])

/-- The name of at most 200 characters. -/
def cut (name : List Char) : List Char :=
  (cutParts name).1.take (200 - (cutParts name).2.length) ++ (cutParts name).2

theorem sanitizeFilename_eq (raw : String) :
    sanitizeFilename raw =
      if trimmed raw = [] ∨ trimmed raw = ['.'] ∨ trimmed raw = ['.', '.'] then "received.bin"
      else if 200 < (trimmed raw).length then String.ofList (cut (trimmed raw))
      else String.ofList (trimmed raw) := by
  unfold sanitizeFilename cut cutParts trimmed
  rfl

/-! ### Trimmed names -/

/-- Neither the first nor the last character is whitespace. -/
def Tight (name : List Char) : Prop :=
  (∀ c ∈ name.head?, isWhitespace c = false) ∧ ∀ c ∈ name.getLast?, isWhitespace c = false

def Allowed (name : List Char) : Prop :=
  ∀ c ∈ name, c ∉ forbidden

theorem trim_sublist (name : List Char) : (trim name).Sublist name :=
  (List.rdropWhile_prefix _ _).sublist.trans (List.dropWhile_sublist _)

theorem trim_tight (name : List Char) : Tight (trim name) := by
  constructor
  · intro c hc
    obtain ⟨rest, hrest⟩ := List.head?_eq_some_iff.mp hc
    obtain ⟨behind, hbehind⟩ := List.rdropWhile_prefix isWhitespace (name.dropWhile isWhitespace)
    rw [← trim, hrest] at hbehind
    have hfirst := List.head?_dropWhile_not isWhitespace name
    rw [← hbehind] at hfirst
    exact hfirst
  · intro c hc
    have hne : (name.dropWhile isWhitespace).rdropWhile isWhitespace ≠ [] := by
      rintro hnil
      rw [trim, hnil] at hc
      cases hc
    have hlast := List.rdropWhile_last_not isWhitespace _ hne
    rw [Option.mem_def, trim, List.getLast?_eq_some_getLast hne] at hc
    rw [Option.some.inj hc] at hlast
    exact Bool.eq_false_iff.mpr hlast

theorem trim_of_tight {name : List Char} (h : Tight name) : trim name = name := by
  have hdrop : name.dropWhile isWhitespace = name := by
    cases name with
    | nil => rfl
    | cons c rest => exact List.dropWhile_cons_of_neg (by simp [h.1 c rfl])
  rw [trim, hdrop, List.rdropWhile_eq_self_iff]
  intro hne
  rw [h.2 _ (List.getLast?_eq_some_getLast hne)]
  exact Bool.false_ne_true

theorem trimmed_tight (raw : String) : Tight (trimmed raw) :=
  trim_tight _

theorem trimmed_allowed (raw : String) : Allowed (trimmed raw) := by
  intro c hc
  have hmem := (trim_sublist _).mem hc
  have hkept := (List.mem_filter.mp hmem).2
  simpa using hkept

theorem trimmed_ofList {name : List Char} (hallowed : Allowed name) (htight : Tight name) :
    trimmed (String.ofList name) = name := by
  rw [trimmed, String.toList_ofList, List.filter_eq_self.mpr, trim_of_tight htight]
  intro c hc
  simpa using hallowed c hc

/-! ### The cut -/

theorem eq_of_rsplitOnce {sep : Char} {name before after : List Char}
    (h : rsplitOnce sep name = some (before, after)) : name = before ++ sep :: after := by
  induction name generalizing before with
  | nil => cases h
  | cons c rest ih =>
      rw [rsplitOnce] at h
      split at h
      · next split hsplit =>
          cases h
          rw [ih hsplit]
          rfl
      · split at h
        · next hsep =>
            cases h
            rw [hsep]
            rfl
        · cases h

theorem length_le_byteLen (name : List Char) : name.length ≤ byteLen name := by
  induction name with
  | nil => exact le_rfl
  | cons c rest ih =>
      have hpos := Char.utf8Size_pos c
      rw [byteLen, List.map_cons, List.sum_cons, List.length_cons]
      rw [byteLen] at ih
      omega

theorem cutParts_append (name : List Char) : (cutParts name).1 ++ (cutParts name).2 = name := by
  unfold cutParts
  split
  · next s e hsplit =>
      split
      · exact (eq_of_rsplitOnce hsplit).symm
      · exact List.append_nil name
  · exact List.append_nil name

theorem length_extension_le (name : List Char) : (cutParts name).2.length ≤ 32 := by
  unfold cutParts
  split
  · next s e hsplit =>
      split
      · next hshort =>
          have hchars := length_le_byteLen e
          rw [List.length_cons]
          omega
      · exact Nat.zero_le _
  · exact Nat.zero_le _

theorem length_cut {name : List Char} (h : 200 < name.length) : (cut name).length = 200 := by
  have hparts := congrArg List.length (cutParts_append name)
  have hext := length_extension_le name
  rw [List.length_append] at hparts
  rw [cut, List.length_append, List.length_take]
  omega

theorem cut_allowed {name : List Char} (h : Allowed name) : Allowed (cut name) := by
  intro c hc
  refine h c ?_
  rw [← cutParts_append name]
  exact ((List.take_sublist _ _).append_right _).mem hc

/-- Without an extension the cut may fall behind whitespace. -/
def CutAtBlank (name : List Char) : Prop :=
  200 < name.length ∧ (cutParts name).2 = [] ∧ ∃ c ∈ name[199]?, isWhitespace c = true

theorem head?_cut {name : List Char} (h : 200 < name.length) : (cut name).head? = name.head? := by
  have hext := length_extension_le name
  have hparts := cutParts_append name
  have hlength := congrArg List.length hparts
  rw [List.length_append] at hlength
  conv_rhs => rw [← hparts]
  rcases hstem : (cutParts name).1 with _ | ⟨c, stem⟩
  · rw [hstem, List.length_nil] at hlength
    omega
  · obtain ⟨n, hn⟩ : ∃ n, 200 - (cutParts name).2.length = n + 1 :=
      ⟨199 - (cutParts name).2.length, by omega⟩
    rw [cut, hstem, hn]
    rfl

theorem getLast?_cut {name : List Char} (h : (cutParts name).2 ≠ []) :
    (cut name).getLast? = name.getLast? := by
  have hlast (front : List Char) :
      (front ++ (cutParts name).2).getLast? = (cutParts name).2.getLast? :=
    List.getLast?_append_of_ne_nil _ h
  rw [cut, hlast, ← hlast (cutParts name).1, cutParts_append]

theorem getLast?_cut_of_none {name : List Char} (hlong : 200 < name.length)
    (h : (cutParts name).2 = []) : (cut name).getLast? = name[199]? := by
  have hstem : (cutParts name).1 = name := by
    have hparts := cutParts_append name
    rwa [h, List.append_nil] at hparts
  have hsome : name[199]? = some name[199] := List.getElem?_eq_getElem _
  rw [cut, h, hstem, List.append_nil, List.length_nil, List.getLast?_take, hsome]
  rfl

theorem cut_tight_iff {name : List Char} (htight : Tight name) (hlong : 200 < name.length) :
    Tight (cut name) ↔ ¬CutAtBlank name := by
  have hhead : ∀ c ∈ (cut name).head?, isWhitespace c = false := by
    rw [head?_cut hlong]
    exact htight.1
  by_cases hext : (cutParts name).2 = []
  · have hlast := getLast?_cut_of_none hlong hext
    constructor
    · rintro ⟨-, h⟩ ⟨-, -, c, hc, hblank⟩
      rw [hlast] at h
      rw [h c hc] at hblank
      cases hblank
    · intro h
      refine ⟨hhead, fun c hc => ?_⟩
      rw [hlast] at hc
      exact Bool.eq_false_iff.mpr fun hblank => h ⟨hlong, hext, c, hc, hblank⟩
  · refine iff_of_true ⟨hhead, ?_⟩ fun h => hext h.2.1
    rw [getLast?_cut hext]
    exact htight.2

/-! ### The contract -/

/-- What a returned name is. -/
structure Safe (name : String) : Prop where
  nonempty : name ≠ ""
  short : name.length ≤ 200
  allowed : Allowed name.toList
  notDots : name ≠ "." ∧ name ≠ ".."
  tight : Tight name.toList
  stable : sanitizeFilename name = name

/-- The contract of `sanitize_filename` for one announced name. When the name has to be cut, a
short extension is kept, and the number of characters that are left for the stem does not
underflow. -/
structure Contract (raw : String) : Prop extends Safe (sanitizeFilename raw) where
  extension : ∀ stem ext, 200 < (trimmed raw).length →
    rsplitOnce '.' (trimmed raw) = some (stem, ext) → byteLen ext < 31 →
    '.' :: ext <:+ (sanitizeFilename raw).toList
  noUnderflow : 200 < (trimmed raw).length → (cutParts (trimmed raw)).2.length ≤ 200

theorem safe_ofList {name : List Char} (hne : name ≠ []) (hdots : name ≠ ['.'] ∧ name ≠ ['.', '.'])
    (hshort : name.length ≤ 200) (hallowed : Allowed name) (htight : Tight name) :
    Safe (String.ofList name) := by
  have hstable : sanitizeFilename (String.ofList name) = String.ofList name := by
    rw [sanitizeFilename_eq, trimmed_ofList hallowed htight, if_neg (by simp [hne, hdots]),
      if_neg (Nat.not_lt.mpr hshort)]
  have hinj (other : String) (h : String.ofList name = other) : name = other.toList := by
    rw [← h, String.toList_ofList]
  refine ⟨fun h => hne (hinj "" h), ?_, ?_, ?_, ?_, hstable⟩
  · rwa [String.length_ofList]
  · rwa [String.toList_ofList]
  · exact ⟨fun h => hdots.1 (hinj "." h), fun h => hdots.2 (hinj ".." h)⟩
  · rwa [String.toList_ofList]

theorem safe_received : Safe "received.bin" := by
  have hallowed : Allowed "received.bin".toList :=
    List.all_iff_forall_prop.mp (by decide)
  have htight : Tight "received.bin".toList := by
    constructor
    · rintro _ ⟨⟩
      decide
    · rintro _ ⟨⟩
      decide
  exact safe_ofList (by decide) (by decide) (by decide) hallowed htight

theorem extension_of_cut {name stem ext : List Char}
    (hsplit : rsplitOnce '.' name = some (stem, ext)) (hext : byteLen ext < 31) :
    '.' :: ext <:+ cut name := by
  have hparts : (cutParts name).2 = '.' :: ext := by
    rw [cutParts, hsplit]
    exact congrArg Prod.snd (if_pos (hext.trans (by decide)))
  rw [cut, hparts]
  exact List.suffix_append _ _

theorem sanitizeFilename_of_long {raw : String} (h : 200 < (trimmed raw).length) :
    sanitizeFilename raw = String.ofList (cut (trimmed raw)) := by
  rw [sanitizeFilename_eq, if_neg, if_pos h]
  rintro (hbad | hbad | hbad)
  all_goals
    rw [hbad] at h
    exact absurd h (by decide)

theorem not_cutAtBlank_of_tight {raw : String} (h : Tight (sanitizeFilename raw).toList) :
    ¬CutAtBlank (trimmed raw) := by
  intro hcut
  rw [sanitizeFilename_of_long hcut.1, String.toList_ofList] at h
  exact (cut_tight_iff (trimmed_tight raw) hcut.1).mp h hcut

/-- The contract holds of every name but those that are cut behind whitespace. -/
theorem contract_iff_not_cutAtBlank (raw : String) :
    Contract raw ↔ ¬CutAtBlank (trimmed raw) := by
  refine ⟨fun h => not_cutAtBlank_of_tight h.tight, fun hcut => ?_⟩
  have htight := trimmed_tight raw
  have hallowed := trimmed_allowed raw
  have hunderflow (_ : 200 < (trimmed raw).length) : (cutParts (trimmed raw)).2.length ≤ 200 :=
    (length_extension_le _).trans (by decide)
  by_cases hlong : 200 < (trimmed raw).length
  · have heq := sanitizeFilename_of_long hlong
    have hlength := length_cut hlong
    refine ⟨?_, fun stem ext _ hsplit hext => ?_, hunderflow⟩
    · rw [heq]
      refine safe_ofList ?_ ?_ hlength.le (cut_allowed hallowed)
        ((cut_tight_iff htight hlong).mpr hcut)
      · rintro hnil
        rw [hnil] at hlength
        cases hlength
      · constructor
        all_goals
          rintro hdot
          rw [hdot] at hlength
          cases hlength
    · rw [heq, String.toList_ofList]
      exact extension_of_cut hsplit hext
  · refine ⟨?_, fun _ _ h => absurd h hlong, hunderflow⟩
    rw [sanitizeFilename_eq, if_neg hlong]
    split
    · exact safe_received
    · next hgood =>
        push Not at hgood
        exact safe_ofList hgood.1 hgood.2 (Nat.not_lt.mp hlong) hallowed htight

/-- A name of 199 letters, a blank and another letter. -/
def blankAt200 : List Char :=
  List.replicate 199 'a' ++ [' ', 'b']

theorem cutAtBlank_blankAt200 : CutAtBlank blankAt200 := by
  refine ⟨?_, ?_, ' ', ?_, ?_⟩
  all_goals decide +kernel

theorem blankAt200_not_contract : ¬∀ raw, Contract raw := by
  intro h
  have hallowed : Allowed blankAt200 :=
    List.all_iff_forall_prop.mp (by decide +kernel)
  have hends : blankAt200.head? = some 'a' ∧ blankAt200.getLast? = some 'b' := by
    decide +kernel
  have htight : Tight blankAt200 := by
    rw [Tight, hends.1, hends.2]
    constructor
    · rintro _ ⟨⟩
      decide
    · rintro _ ⟨⟩
      decide
  have htrimmed := trimmed_ofList hallowed htight
  refine not_cutAtBlank_of_tight (h (String.ofList blankAt200)).tight ?_
  rw [htrimmed]
  exact cutAtBlank_blankAt200

end RemoteControl.Server.FileNames
