import RemoteControl.Foundations.Utf16
import RemoteControl.Server.Frame

/-!
The clipboard of the PC as a block of UTF-16 units (`server-pc/src/clipboard.rs`), and what the
phone gets back of a text that it has set.
-/

namespace RemoteControl.Server.Clipboard

open RemoteControl.Foundations.Interference
open RemoteControl.Foundations.Utf16
open RemoteControl.Wire.Protocol
open RemoteControl.Server.Stores
open RemoteControl.Server.Connection
open RemoteControl.Server.Frame

/-! ### Win32 -/

/-- The CF_UNICODETEXT block that the clipboard holds, if it holds one. -/
abbrev Block := Option Units

/-- The call of `write_text` that fails. -/
inductive WriteFault where
  | openClipboard
  | emptyClipboard
  | globalAlloc
  | globalLock
  | setClipboardData
deriving DecidableEq

/-- The call of `read_text` that fails; `noText` is a null handle. -/
inductive ReadFault where
  | openClipboard
  | getClipboardData
  | noText
  | globalLock
deriving DecidableEq

def writeText (fault : Option WriteFault) (text : String) (clipboard : Block) :
    Except String Unit × Block :=
  let utf16 := utf16 text.toList ++ [0]
  match fault with
  | none => (.ok (), some utf16)
  | some .openClipboard => (.error "OpenClipboard", clipboard)
  | some .emptyClipboard => (.error "EmptyClipboard", clipboard)
  | some .globalAlloc => (.error "GlobalAlloc", none)
  | some .globalLock => (.error "GlobalLock(write) returned null", none)
  | some .setClipboardData => (.error "SetClipboardData", none)

def maxLen : Nat := 16 * 1024 * 1024

/-- The loop that looks for the terminator, `len` units behind the start. A block has a
terminator, so its end is not reached. -/
def scan : Units → Nat → Except String Nat
  | [], len => .ok len
  | unit :: rest, len =>
      if unit = 0 then .ok len
      else if len + 1 > maxLen then .error "clipboard text larger than 16 MiB"
      else scan rest (len + 1)

def readText (fault : Option ReadFault) (clipboard : Block) : Except String String :=
  match fault, clipboard with
  | some .openClipboard, _ => .error "OpenClipboard"
  | some .getClipboardData, _ => .error "GetClipboardData"
  | some .noText, _ => .error "clipboard has no CF_UNICODETEXT"
  | some .globalLock, _ => .error "GlobalLock returned null"
  | none, none => .error "GetClipboardData"
  | none, some block => do
      let len ← scan block 0
      return String.ofList (ofUtf16Lossy (block.take len))

/-! ### The terminator -/

theorem scan_eq {front rest : Units} {len : Nat} (hfront : 0 ∉ front) (hlen : len ≤ maxLen) :
    scan (front ++ 0 :: rest) len =
      if len + front.length ≤ maxLen then .ok (len + front.length)
      else .error "clipboard text larger than 16 MiB" := by
  induction front generalizing len with
  | nil => exact (if_pos hlen).symm
  | cons unit front ih =>
      obtain ⟨hunit, hfront⟩ := not_or.mp (mt List.mem_cons.mpr hfront)
      rw [List.cons_append, scan, if_neg (Ne.symm hunit), List.length_cons]
      by_cases hnext : len + 1 > maxLen
      · rw [if_pos hnext, if_neg (by omega)]
      · rw [if_neg hnext, ih hfront (Nat.not_lt.mp hnext), Nat.add_right_comm, Nat.add_assoc]

theorem readText_of_clean {text : List Char} (htext : '\x00' ∉ text) (rest : Units) :
    readText none (some (utf16 text ++ 0 :: rest)) =
      if (utf16 text).length ≤ maxLen then .ok (String.ofList text)
      else .error "clipboard text larger than 16 MiB" := by
  have hclean : 0 ∉ utf16 text := mt zero_mem_utf16.mp htext
  rw [readText, scan_eq hclean (Nat.zero_le _), Nat.zero_add]
  split
  · change Except.ok _ = _
    rw [List.take_left, ofUtf16Lossy_utf16]
  · rfl

/-- The characters before the first NUL. -/
def visible (text : String) : List Char :=
  text.toList.takeWhile (· != '\x00')

theorem visible_clean (text : String) : '\x00' ∉ visible text := by
  intro hmem
  have := List.mem_takeWhile_imp hmem
  simp at this

theorem utf16_eq_visible (text : String) :
    ∃ rest, utf16 text.toList ++ [0] = utf16 (visible text) ++ 0 :: rest := by
  have hsplit := List.takeWhile_append_dropWhile (p := (· != '\x00')) (l := text.toList)
  have hzero : unitsOf '\x00' = [0] := by decide
  rcases htail : text.toList.dropWhile (· != '\x00') with _ | ⟨c, tail⟩
  · rw [htail, List.append_nil] at hsplit
    exact ⟨[], by rw [visible, hsplit]⟩
  · have hc : c = '\x00' := by
      have hfirst := List.head?_dropWhile_not (· != '\x00') text.toList
      rw [htail] at hfirst
      simpa using hfirst
    refine ⟨utf16 tail ++ [0], ?_⟩
    rw [htail] at hsplit
    rw [← hsplit, utf16_append, utf16_cons, hc, hzero, visible]
    simp

theorem readText_writeText (text : String) :
    readText none (some (utf16 text.toList ++ [0])) =
      if (utf16 (visible text)).length ≤ maxLen then .ok (String.ofList (visible text))
      else .error "clipboard text larger than 16 MiB" := by
  obtain ⟨rest, hblock⟩ := utf16_eq_visible text
  rw [hblock]
  exact readText_of_clean (visible_clean text) rest

theorem visible_eq_iff {text : String} :
    String.ofList (visible text) = text ↔ '\x00' ∉ text.toList := by
  constructor
  · intro h
    rw [← h, String.toList_ofList]
    exact visible_clean text
  · intro h
    have hall : visible text = text.toList :=
      List.takeWhile_eq_self_iff.mpr fun c hc => bne_iff_ne.mpr fun hnul => h (hnul ▸ hc)
    rw [hall, String.ofList_toList]

/-- A write that succeeds leaves the text and its terminator. -/
theorem writeText_ok {fault : Option WriteFault} {text : String} {before : Block}
    (h : (writeText fault text before).1 = .ok ()) :
    (writeText fault text before).2 = some (utf16 text.toList ++ [0]) := by
  rcases fault with _ | _ | _ | _ | _ | _
  · rfl
  all_goals cases h

/-! ### The answer to the phone -/

/-- The text in the answer to `clipboard_get`. -/
def answer (fault : Option ReadFault) (clipboard : Block) : String :=
  (readText fault clipboard).toOption.getD ""

theorem handleClipboardGet_outbox {crates : Crates} {cfg : Config} {os : Answers} {s : St}
    {fault : Option ReadFault} {clipboard : Block}
    (hos : os.clipboard = (readText fault clipboard).toOption) :
    ((handleClientMsg crates cfg os .clipboardGet).run s).2.conn.outbox =
      s.conn.outbox ++ [.msg (.clipboardText (answer fault clipboard))] := by
  rw [answer, ← hos]
  rfl

theorem answer_eq_iff (text : String) :
    answer none (some (utf16 text.toList ++ [0])) = text ↔
      '\x00' ∉ text.toList ∧ (utf16 text.toList).length ≤ maxLen := by
  rw [answer, readText_writeText]
  constructor
  · intro h
    split at h
    · next hlen =>
        have hclean := visible_eq_iff.mp h
        refine ⟨hclean, ?_⟩
        have hvisible : visible text = text.toList := by
          rw [← String.toList_ofList (l := visible text)]
          exact congrArg String.toList h
        rwa [hvisible] at hlen
    · next hlong =>
        rw [← show "" = text from h] at hlong
        exact absurd (Nat.zero_le _) hlong
  · rintro ⟨hclean, hlen⟩
    have hvisible := visible_eq_iff.mpr hclean
    have hlength : (utf16 (visible text)).length ≤ maxLen := by
      rw [← String.toList_ofList (l := visible text), hvisible]
      exact hlen
    rw [if_pos hlength]
    exact hvisible

theorem answer_of_fault (fault : ReadFault) (clipboard : Block) :
    answer (some fault) clipboard = "" := by
  cases fault <;> rfl

/-- After a write that succeeds `clipboard_get` answers with exactly the text if and only if it is
empty, or the read succeeds and the text has no NUL and at most 16 Mi units. -/
theorem clipboardGet_exact_iff {text : String} {writeFault : Option WriteFault} {before : Block}
    (hwrite : (writeText writeFault text before).1 = .ok ()) {readFault : Option ReadFault}
    {os : Answers}
    (hos : os.clipboard = (readText readFault (writeText writeFault text before).2).toOption)
    (crates : Crates) (cfg : Config) (s : St) :
    ((handleClientMsg crates cfg os .clipboardGet).run s).2.conn.outbox =
        s.conn.outbox ++ [.msg (.clipboardText text)] ↔
      text = "" ∨ readFault = none ∧ '\x00' ∉ text.toList ∧
        (utf16 text.toList).length ≤ maxLen := by
  rw [handleClipboardGet_outbox hos, writeText_ok hwrite]
  have hanswer : answer readFault (some (utf16 text.toList ++ [0])) = text ↔
      text = "" ∨ readFault = none ∧ '\x00' ∉ text.toList ∧
        (utf16 text.toList).length ≤ maxLen := by
    cases readFault with
    | none =>
        rw [answer_eq_iff]
        refine ⟨fun h => .inr ⟨rfl, h⟩, ?_⟩
        rintro (rfl | ⟨-, h⟩)
        · exact ⟨List.not_mem_nil, Nat.zero_le _⟩
        · exact h
    | some fault =>
        rw [answer_of_fault]
        simp [eq_comm]
  rw [← hanswer]
  simp

def emoji : String :=
  "a\n😀"

theorem clipboardGet_exact_iff_emoji :
    ((handleClientMsg (parsesTo .clipboardGet) bareConfig
          { smoothAnswers with clipboard := some emoji } .clipboardGet).run
        ⟨bareWorld, { connId := 0, peerLabel := "" }⟩).2.conn.outbox =
      [.msg (.clipboardText emoji)] := by
  have hwrite : (writeText none emoji none).1 = .ok () := rfl
  have hread : (readText none (writeText none emoji none).2).toOption = some emoji := by
    decide +kernel
  exact (clipboardGet_exact_iff hwrite hread.symm _ _ _).mpr (by decide +kernel)

def letters (n : Nat) : String :=
  String.ofList (List.replicate n 'a')

theorem length_utf16_letters (n : Nat) : (utf16 (letters n).toList).length = n := by
  rw [letters, String.toList_ofList]
  induction n with
  | zero => rfl
  | succ n ih =>
      rw [List.replicate_succ, utf16_cons, List.length_append, ih, Nat.add_comm]
      rfl

/-- A text with a NUL, one that is too long, and one that another program keeps from being
read. -/
theorem clipboardGet_not_exact :
    answer none (writeText none "a\x00b" none).2 ≠ "a\x00b" ∧
      answer none (writeText none (letters (maxLen + 1)) none).2 ≠ letters (maxLen + 1) ∧
        answer (some .openClipboard) (writeText none "a" none).2 ≠ "a" := by
  refine ⟨fun h => ?_, fun h => ?_, by decide⟩
  · exact absurd ((answer_eq_iff "a\x00b").mp h).1 (by decide)
  · have hlong := ((answer_eq_iff (letters (maxLen + 1))).mp h).2
    rw [length_utf16_letters] at hlong
    exact absurd hlong (Nat.not_succ_le_self _)

end RemoteControl.Server.Clipboard
