import Mathlib.Data.List.AList
import RemoteControl.Foundations.ByteStrings

/-!
The JSON text of the relay's hosts file: what `serde_json` promises about it, and the pretty
text it writes for this type with a reader of such texts.
-/

namespace RemoteControl.Relay.HostsFile

open RemoteControl.Foundations.ByteStrings

structure HostRecord where
  tokenHash : String
  name : String
deriving DecidableEq, Repr

abbrev Hosts := AList fun _ : String => HostRecord

/-- `serde_json` on the registry. What is written is read back as the same map. -/
structure HostsJson where
  toVecPretty : Hosts → Bytes
  fromSlice : Bytes → Option Hosts
  fromSlice_toVecPretty : ∀ hosts, ∃ read, fromSlice (toVecPretty hosts) = some read ∧
    ∀ hostId, read.lookup hostId = hosts.lookup hostId

/-! ### Readers -/

/-- The reader takes exactly this text off its input and returns `a`. -/
def Reads {α : Type} (read : List Char → Option (α × List Char)) (text : List Char) (a : α) :
    Prop :=
  ∀ rest, read (text ++ rest) = some (a, rest)

def literal (text : List Char) (input : List Char) : Option (List Char) :=
  if text.isPrefixOf input then some (input.drop text.length) else none

@[simp] theorem literal_append (text rest : List Char) :
    literal text (text ++ rest) = some rest := by
  simp [literal, List.isPrefixOf_iff_prefix]

/-! ### Strings -/

def hexDigit (n : Nat) : Char :=
  if n < 10 then Char.ofNat (48 + n) else Char.ofNat (87 + n)

def hexValue (c : Char) : Nat :=
  if c.toNat < 58 then c.toNat - 48 else c.toNat - 87

/-- A character between the quotes of a JSON string. -/
def escape (c : Char) : List Char :=
  if c = '"' then ['\\', '"']
  else if c = '\\' then ['\\', '\\']
  else if c = '\x08' then ['\\', 'b']
  else if c = '\x0c' then ['\\', 'f']
  else if c = '\n' then ['\\', 'n']
  else if c = '\r' then ['\\', 'r']
  else if c = '\t' then ['\\', 't']
  else if c.toNat < 0x20 then
    ['\\', 'u', '0', '0', hexDigit (c.toNat / 16), hexDigit (c.toNat % 16)]
  else [c]

def quote (s : String) : List Char :=
  '"' :: (s.toList.flatMap escape ++ ['"'])

def unescape (c : Char) : Char :=
  if c = 'b' then '\x08'
  else if c = 'f' then '\x0c'
  else if c = 'n' then '\n'
  else if c = 'r' then '\r'
  else if c = 't' then '\t'
  else c

def cons (c : Char) (read : List Char × List Char) : List Char × List Char :=
  (c :: read.1, read.2)

/-- The characters up to the closing quote. -/
def readChars : List Char → Option (List Char × List Char)
  | '"' :: rest => some ([], rest)
  | '\\' :: 'u' :: '0' :: '0' :: high :: low :: rest =>
      (readChars rest).map (cons (Char.ofNat (16 * hexValue high + hexValue low)))
  | '\\' :: c :: rest => (readChars rest).map (cons (unescape c))
  | c :: rest => (readChars rest).map (cons c)
  | [] => none

def readString : List Char → Option (String × List Char)
  | '"' :: rest => (readChars rest).map fun read => (String.ofList read.1, read.2)
  | _ => none

theorem hexValue_hexDigit {n : Nat} (h : n < 16) : hexValue (hexDigit n) = n := by
  have hall : ∀ n < 16, hexValue (hexDigit n) = n := by decide
  exact hall n h

theorem readChars_escape (c : Char) (rest : List Char) :
    readChars (escape c ++ rest) = (readChars rest).map (cons c) := by
  unfold escape
  split
  · subst_vars
    rfl
  split
  · subst_vars
    rfl
  split
  · subst_vars
    rfl
  split
  · subst_vars
    rfl
  split
  · subst_vars
    rfl
  split
  · subst_vars
    rfl
  split
  · subst_vars
    rfl
  split
  · rename_i hcontrol
    have hhigh := hexValue_hexDigit (show c.toNat / 16 < 16 by omega)
    have hlow := hexValue_hexDigit (show c.toNat % 16 < 16 by omega)
    have hsum : 16 * (c.toNat / 16) + c.toNat % 16 = c.toNat := Nat.div_add_mod ..
    have hchar : Char.ofNat (16 * hexValue (hexDigit (c.toNat / 16)) +
        hexValue (hexDigit (c.toNat % 16))) = c := by
      rw [hhigh, hlow, hsum, Char.ofNat_toNat]
    simp only [List.cons_append, List.nil_append, readChars, hchar]
  · rename_i hquote hbackslash _ _ _ _ _ _
    rw [List.singleton_append, readChars.eq_def]
    split <;> simp_all

theorem readChars_quoted (chars rest : List Char) :
    readChars (chars.flatMap escape ++ '"' :: rest) = some (chars, rest) := by
  induction chars with
  | nil => rfl
  | cons c chars ih =>
      rw [List.flatMap_cons, List.append_assoc, readChars_escape, ih]
      rfl

theorem readString_quote (s : String) : Reads readString (quote s) s := by
  intro rest
  have happend : quote s ++ rest = '"' :: (s.toList.flatMap escape ++ '"' :: rest) := by
    simp [quote]
  rw [happend, readString, readChars_quoted]
  simp

/-! ### The registry -/

abbrev Entry := Σ _ : String, HostRecord

def beforeId : List Char := "\n  ".toList

def beforeHash : List Char := ": \x7b\n    \"token_hash\": ".toList

def beforeName : List Char := ",\n    \"name\": ".toList

def afterName : List Char := "\n  \x7d".toList

def renderEntry (entry : Entry) : List Char :=
  beforeId ++ quote entry.1 ++ beforeHash ++ quote entry.2.tokenHash ++ beforeName ++
    quote entry.2.name ++ afterName

def readEntry (input : List Char) : Option (Entry × List Char) := do
  let (hostId, input) ← readString (← literal beforeId input)
  let (tokenHash, input) ← readString (← literal beforeHash input)
  let (name, input) ← readString (← literal beforeName input)
  let input ← literal afterName input
  return (⟨hostId, { tokenHash, name }⟩, input)

theorem readEntry_render (entry : Entry) : Reads readEntry (renderEntry entry) entry := by
  intro rest
  have hid := readString_quote entry.1
  have hhash := readString_quote entry.2.tokenHash
  have hname := readString_quote entry.2.name
  rw [Reads] at hid hhash hname
  rw [readEntry, renderEntry]
  simp only [List.append_assoc, literal_append, hid, hhash, hname, Option.bind_eq_bind,
    Option.bind_some]
  rfl

/-- The entries after the first, each behind a comma, and the closing brace. -/
def renderTail (entries : List Entry) : List Char :=
  entries.flatMap (fun entry => ',' :: renderEntry entry) ++ "\n\x7d".toList

def readTail : Nat → List Char → Option (List Entry)
  | fuel + 1, ',' :: rest => do
      let (entry, rest) ← readEntry rest
      let entries ← readTail fuel rest
      return entry :: entries
  | _, input => if input = "\n\x7d".toList then some [] else none

def render : List Entry → List Char
  | [] => "\x7b\x7d".toList
  | entry :: entries => '\x7b' :: (renderEntry entry ++ renderTail entries)

def read (input : List Char) : Option (List Entry) :=
  if input = "\x7b\x7d".toList then some []
  else
    match input with
    | '\x7b' :: rest => do
        let (entry, rest) ← readEntry rest
        let entries ← readTail rest.length rest
        return entry :: entries
    | _ => none

theorem renderTail_cons (entry : Entry) (entries : List Entry) :
    renderTail (entry :: entries) = ',' :: (renderEntry entry ++ renderTail entries) := by
  rw [renderTail, List.flatMap_cons, List.append_assoc]
  rfl

theorem readTail_render (entries : List Entry) {fuel : Nat} (h : entries.length ≤ fuel) :
    readTail fuel (renderTail entries) = some entries := by
  induction entries generalizing fuel with
  | nil => cases fuel <;> rfl
  | cons entry entries ih =>
      obtain ⟨fuel, rfl⟩ : ∃ n, fuel = n + 1 := ⟨fuel - 1, by simp at h; omega⟩
      have hentries := @ih fuel (by simpa using h)
      rw [renderTail_cons, readTail, readEntry_render]
      simp only [Option.bind_eq_bind, Option.bind_some, hentries]
      rfl

theorem length_le_renderTail (entries : List Entry) :
    entries.length ≤ (renderTail entries).length := by
  induction entries with
  | nil => simp
  | cons entry entries ih =>
      rw [renderTail_cons]
      simp only [List.length_cons, List.length_append]
      omega

theorem read_render (entries : List Entry) : read (render entries) = some entries := by
  rcases entries with _ | ⟨entry, entries⟩
  · rfl
  · have hne : render (entry :: entries) ≠ "\x7b\x7d".toList := by
      intro heq
      have hsecond : (render (entry :: entries))[1]? = some '\n' := rfl
      rw [heq] at hsecond
      exact absurd hsecond (by decide)
    have hread : read (render (entry :: entries)) = (do
        let (entry, rest) ← readEntry (renderEntry entry ++ renderTail entries)
        let entries ← readTail rest.length rest
        return entry :: entries) := by
      unfold read
      exact if_neg hne
    rw [hread, readEntry_render]
    simp only [Option.bind_eq_bind, Option.bind_some,
      readTail_render entries (length_le_renderTail entries)]
    rfl

def prettyBytes (hosts : Hosts) : Bytes :=
  utf8 (String.ofList (render hosts.entries))

def readBytes (bytes : Bytes) : Option Hosts := do
  let text ← ofUtf8? bytes
  let entries ← read text.toList
  return entries.toAList

theorem readBytes_prettyBytes (hosts : Hosts) :
    readBytes (prettyBytes hosts) = some hosts.entries.toAList := by
  simp only [readBytes, prettyBytes, ofUtf8?_utf8, Option.bind_eq_bind, Option.bind_some,
    String.toList_ofList, read_render]
  rfl

theorem prettyBytes_ne_nil (hosts : Hosts) : prettyBytes hosts ≠ [] := by
  obtain ⟨rest, hrest⟩ : ∃ rest, render hosts.entries = '\x7b' :: rest := by
    cases hosts.entries with
    | nil => exact ⟨_, rfl⟩
    | cons => exact ⟨_, rfl⟩
  rw [prettyBytes, hrest, utf8_ofList, List.flatMap_cons, ne_eq, List.append_eq_nil_iff]
  exact fun h => absurd h.1 (by decide)

/-- The pretty text and its reader as an instance of what the relay relies on. -/
def prettyJson : HostsJson where
  toVecPretty := prettyBytes
  fromSlice := readBytes
  fromSlice_toVecPretty hosts :=
    ⟨_, readBytes_prettyBytes hosts, fun _ => AList.lookup_to_alist _⟩

end RemoteControl.Relay.HostsFile
