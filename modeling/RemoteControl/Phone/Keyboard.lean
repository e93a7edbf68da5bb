import Mathlib.Data.List.Induction
import RemoteControl.Foundations.Histories
import RemoteControl.Foundations.Utf16

/-!
Typing on the phone (`KeyboardOverlay.kt`): what each change of the text field sends, and what a
text field of the PC makes of it, where one Backspace deletes one scalar value.
-/

namespace RemoteControl.Phone.Keyboard

open RemoteControl.Foundations.Histories
open RemoteControl.Foundations.Utf16

/-! ### The overlay -/

/-- The text of the field in code units, with the range that the IME composes. -/
structure TextFieldValue where
  text : Units
  composition : Option (Nat × Nat) := none
  inRange : ∀ range ∈ composition, range.1 ≤ range.2 ∧ range.2 ≤ text.length := by simp

/-- What `onKeyText` and `onBackspace` send. -/
inductive Key where
  | text (units : Units)
  | backspace
deriving DecidableEq

def stableTextOf (v : TextFieldValue) : Units :=
  match v.composition with
  | none => v.text
  | some (start, stop) => v.text.take start ++ v.text.drop stop

def syncDiff (old new : Units) : List Key :=
  if old = new then []
  else if old.isPrefixOf new then [.text (new.drop old.length)]
  else if new.isPrefixOf old then List.replicate (old.length - new.length) .backspace
  else
    let prefixLen := (commonPrefixWith old new).length
    let tail := new.drop prefixLen
    List.replicate (old.length - prefixLen) .backspace ++ if tail = [] then [] else [.text tail]

/-- The field of the PC. A text goes over the wire in UTF-8. -/
def press (field : List Char) : Key → List Char
  | .text units => field ++ ofUtf16 units
  | .backspace => field.dropLast

/-- The committed text of the overlay and the field of the PC. -/
structure Typing where
  committed : Units := []
  field : List Char := []
deriving DecidableEq

/-- `onFieldChange`, and the keys on the PC. -/
def Typing.onFieldChange (s : Typing) (new : TextFieldValue) : Typing :=
  let newCommitted := stableTextOf new
  { committed := newCommitted, field := (syncDiff s.committed newCommitted).foldl press s.field }

def typed (values : List TextFieldValue) : Typing :=
  values.foldl Typing.onFieldChange {}

def Mirrored (s : Typing) : Prop :=
  utf16 s.field = s.committed

/-- The committed text after these values. -/
def lastCommitted (values : List TextFieldValue) : Units :=
  (values.getLast?.map stableTextOf).getD []

/-- The new text is well-formed, and behind what it keeps of the old one, unless it keeps
nothing, no surrogate pair is removed. -/
def Clean (old new : Units) : Prop :=
  (∃ text, new = utf16 text) ∧
    (commonPrefixWith old new = [] ∨
      ∀ unit ∈ old.drop (commonPrefixWith old new).length, isHighSurrogate unit = false)

/-! ### One change -/

theorem press_backspaces (n : Nat) (field : List Char) :
    (List.replicate n Key.backspace).foldl press field = field.take (field.length - n) := by
  induction n generalizing field with
  | zero => simp
  | succ n ih =>
      rw [List.replicate_succ, List.foldl_cons, ih, press, List.dropLast_eq_take,
        List.take_take, List.length_take]
      congr 1
      omega

theorem length_utf16 (text : List Char) :
    text.length ≤ (utf16 text).length ∧
      ((utf16 text).length ≤ text.length ↔
        ∀ unit ∈ utf16 text, isHighSurrogate unit = false) := by
  induction text with
  | nil => simp
  | cons c text ih =>
      obtain ⟨hle, hiff⟩ := ih
      rw [utf16_cons, List.length_append, List.length_cons, List.forall_mem_append, ← hiff]
      by_cases hc : c.toNat < 0x10000
      · obtain ⟨unit, hunits, -, hhigh, -⟩ := unitsOf_bmp hc
        rw [hunits, List.forall_mem_singleton, List.length_singleton]
        constructor
        · omega
        · rw [hhigh]
          simp only [true_and]
          omega
      · obtain ⟨high, low, hunits, hhigh, -⟩ := unitsOf_supplementary hc
        have hpair : [high, low].length = 2 := rfl
        rw [hunits, hpair]
        constructor
        · omega
        · constructor
          · omega
          · rintro ⟨hnone, -⟩
            exact absurd (hnone high List.mem_cons_self) (by simp [hhigh])

/-- What is sent for a change between two texts. -/
theorem syncDiff_utf16 {front rest rest' : List Char} (h : Apart rest rest') :
    syncDiff (utf16 (front ++ rest)) (utf16 (front ++ rest')) =
      List.replicate (utf16 rest).length .backspace ++
        if rest' = [] then [] else [.text (utf16 rest')] := by
  have hfront : (utf16 (front ++ rest)).isPrefixOf (utf16 (front ++ rest')) = true ↔ rest = [] :=
    List.isPrefixOf_iff_prefix.trans (prefix_iff_of_apart h)
  have hfront' : (utf16 (front ++ rest')).isPrefixOf (utf16 (front ++ rest)) = true ↔
      rest' = [] :=
    List.isPrefixOf_iff_prefix.trans (prefix_iff_of_apart h.symm)
  have htail : (utf16 (front ++ rest')).drop (utf16 front).length = utf16 rest' := by
    rw [utf16_append, List.drop_left]
  have hremoved : (utf16 (front ++ rest)).length - (utf16 front).length =
      (utf16 rest).length := by
    rw [utf16_append, List.length_append]
    omega
  by_cases hrest : rest = []
  · subst hrest
    by_cases hrest' : rest' = []
    · subst hrest'
      exact if_pos rfl
    · have hne : utf16 (front ++ []) ≠ utf16 (front ++ rest') := by
        intro heq
        exact hrest' (List.append_cancel_left (utf16_injective heq)).symm
      rw [syncDiff, if_neg hne, if_pos (hfront.mpr rfl), if_neg hrest', List.append_nil, htail]
      rfl
  · have hne : utf16 (front ++ rest) ≠ utf16 (front ++ rest') := by
      intro heq
      have hsame : utf16 (front ++ rest) <+: utf16 (front ++ rest') := heq ▸ List.prefix_rfl
      exact hrest ((prefix_iff_of_apart h).mp hsame)
    rw [syncDiff, if_neg hne, if_neg (mt hfront.mp hrest)]
    by_cases hrest' : rest' = []
    · subst hrest'
      rw [if_pos (hfront'.mpr rfl), if_pos rfl, List.append_nil, List.append_nil, hremoved]
    · rw [if_neg (mt hfront'.mp hrest'), commonPrefixWith_utf16 h, if_neg hrest']
      dsimp only
      rw [htail, hremoved, if_neg (mt utf16_eq_nil_iff.mp hrest')]

/-- What the PC makes of it: one Backspace too many for each surrogate pair that goes. -/
theorem press_syncDiff {front rest rest' : List Char} (h : Apart rest rest') :
    (syncDiff (utf16 (front ++ rest)) (utf16 (front ++ rest'))).foldl press (front ++ rest) =
      front.take (front.length + rest.length - (utf16 rest).length) ++ rest' := by
  have hshort : front.length + rest.length - (utf16 rest).length ≤ front.length := by
    have hle := (length_utf16 rest).1
    omega
  rw [syncDiff_utf16 h, List.foldl_append, press_backspaces, List.length_append,
    List.take_append_of_le_length hshort]
  by_cases hrest' : rest' = []
  · rw [if_pos hrest', hrest', List.append_nil]
    rfl
  · rw [if_neg hrest']
    show _ ++ ofUtf16 (utf16 rest') = _
    rw [ofUtf16_utf16]

theorem step_mirrored_iff {s : Typing} (h : Mirrored s) (new : TextFieldValue) :
    Mirrored (s.onFieldChange new) ↔ Clean s.committed (stableTextOf new) := by
  by_cases hwell : ∃ text, stableTextOf new = utf16 text
  · obtain ⟨text, htext⟩ := hwell
    obtain ⟨front, rest, rest', hfield, rfl, hapart⟩ := exists_apart s.field text
    have hcommitted : s.committed = utf16 (front ++ rest) := by
      rw [← hfield]
      exact h.symm
    have hkept : (utf16 (front ++ rest)).drop (utf16 front).length = utf16 rest := by
      rw [utf16_append, List.drop_left]
    rw [Mirrored, Typing.onFieldChange, Clean, htext, hcommitted, hfield,
      commonPrefixWith_utf16 hapart, hkept, utf16_eq_nil_iff, and_iff_right ⟨_, rfl⟩]
    dsimp only
    rw [press_syncDiff hapart, ← (length_utf16 rest).2]
    constructor
    · intro heq
      have hfront := List.append_cancel_right (utf16_injective heq)
      have hlength := congrArg List.length hfront
      rw [List.length_take] at hlength
      rcases front with _ | ⟨c, front⟩
      · exact .inl rfl
      · right
        rw [List.length_cons] at hlength
        omega
    · rintro (rfl | hone)
      · rw [List.take_nil]
      · rw [List.take_of_length_le (by omega)]
  · constructor
    · intro hmirrored
      exact absurd ⟨_, hmirrored.symm⟩ hwell
    · rintro ⟨htext, -⟩
      exact absurd htext hwell

/-! ### Whole runs -/

theorem typed_concat (values : List TextFieldValue) (new : TextFieldValue) :
    typed (values ++ [new]) = (typed values).onFieldChange new :=
  List.foldl_append

theorem committed_typed (values : List TextFieldValue) :
    (typed values).committed = lastCommitted values := by
  rcases List.eq_nil_or_concat values with rfl | ⟨front, last, rfl⟩
  · rfl
  · rw [List.concat_eq_append, typed_concat, lastCommitted, List.getLast?_concat]
    rfl

/-- The field of the PC has the committed text after every change if and only if every change
keeps to the condition. -/
theorem mirrored_iff_clean (values : List TextFieldValue) :
    (∀ before, before <+: values → Mirrored (typed before)) ↔
      Each (fun before new => Clean (lastCommitted before) (stableTextOf new)) values := by
  induction values using List.reverseRecOn with
  | nil =>
      refine iff_of_true ?_ (each_nil _)
      intro before hbefore
      rw [List.prefix_nil.mp hbefore]
      rfl
  | append_singleton values new ih =>
      have hnow (h : Mirrored (typed values)) : Mirrored (typed (values ++ [new])) ↔
          Clean (lastCommitted values) (stableTextOf new) := by
        rw [typed_concat, step_mirrored_iff h, committed_typed]
      rw [each_concat_iff, ← ih]
      constructor
      · intro h
        have hbefore : ∀ before, before <+: values → Mirrored (typed before) :=
          fun before hfront => h before (hfront.trans (List.prefix_append _ _))
        exact ⟨hbefore, (hnow (hbefore values List.prefix_rfl)).mp (h _ List.prefix_rfl)⟩
      · rintro ⟨h, hclean⟩ before hfront
        rcases List.prefix_concat_iff.mp hfront with rfl | hshorter
        · exact (hnow (h values List.prefix_rfl)).mpr hclean
        · exact h before hshorter

/-- The field holds "a" and an emoji, then the emoji is deleted. -/
def emojiDeleted : List TextFieldValue :=
  [{ text := utf16 ['a', '😀'] }, { text := utf16 ['a'] }]

theorem emoji_deletes_letter :
    ¬∀ values before, before <+: values → Mirrored (typed before) := by
  intro h
  have hmirrored := h emojiDeleted emojiDeleted List.prefix_rfl
  revert hmirrored
  unfold Mirrored
  decide +kernel

end RemoteControl.Phone.Keyboard
