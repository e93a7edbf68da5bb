import Mathlib.Data.List.DropRight
import Mathlib.Logic.Function.Basic
import RemoteControl.Phone.Messages

/-!
The downloads directory of the phone and the streams that write its files (`java.io`), with
the choice of a destination in `app/net/ConnectionClient.kt`.
-/

namespace RemoteControl.Phone.Downloads

open RemoteControl.Foundations.ByteStrings
open RemoteControl.Phone.Messages

/-- What the operating system answers during one call. A write fault lets the first bytes
through and then throws. -/
structure Answers where
  openFault : Option String := none
  writeFault : Option (Nat × String) := none
  closeFault : Option String := none
  deleteFault : String → Bool := fun _ => false
  randomUuid : String := ""
  secureRandom : Bytes := []
  currentTimeMillis : Int64 := 0

/-! ### The directory -/

/-- The files of the directory by name, and the bytes of every file that was ever open. -/
structure Directory where
  path : String
  entry : String → Option Nat := fun _ => none
  content : Nat → Bytes := fun _ => []
  next : Nat := 0

namespace Directory

/-- The bytes of the file with this name. -/
def read (d : Directory) (name : String) : Option Bytes :=
  (d.entry name).map d.content

/-- The path of a file of the directory. -/
def absolutePath (d : Directory) (name : String) : String :=
  d.path ++ "/" ++ name

/-- `File.exists`; the names of the directory itself and of its parent are taken. -/
def exists_ (d : Directory) (name : String) : Bool :=
  name = "" || name = "." || name = ".." || (d.entry name).isSome

def delete (os : Answers) (d : Directory) (name : String) : Directory :=
  if os.deleteFault name then d else { d with entry := Function.update d.entry name none }

/-- `FileOutputStream(dest)`, which creates the file or truncates it. -/
def openOutput (d : Directory) (name : String) : Nat × Directory :=
  match d.entry name with
  | some file => (file, { d with content := Function.update d.content file [] })
  | none =>
      (d.next,
        { d with
          entry := Function.update d.entry name (some d.next)
          content := Function.update d.content d.next []
          next := d.next + 1 })

def append (d : Directory) (file : Nat) (bytes : Bytes) : Directory :=
  { d with content := Function.update d.content file (d.content file ++ bytes) }

end Directory

/-! ### Names -/

def forbidden : List Char :=
  ['\\', '/', ':', '*', '?', '"', '<', '>', '|']

def sanitized (name : String) : String :=
  String.ofList (name.toList.map fun c => if forbidden.contains c then '_' else c)

/-- The name up to its last dot and from there on, unless the dot is the first character. -/
def baseAndExtension (name : String) : String × String :=
  let ext := name.toList.reverse.takeWhile (· != '.')
  let base := name.toList.take (name.length - ext.length - 1)
  if base = [] then (name, "")
  else (String.ofList base, String.ofList ('.' :: ext.reverse))

def firstFree (d : Directory) (base ext fallback : String) : List Nat → String
  | [] => fallback
  | i :: rest =>
      let alt := s!"{base} ({i}){ext}"
      if d.exists_ alt then firstFree d base ext fallback rest else alt

def uniqueDestFile (os : Answers) (d : Directory) (name : String) : String :=
  let candidate := sanitized name
  if d.exists_ candidate then
    let (base, ext) := baseAndExtension candidate
    firstFree d base ext s!"{base}-{os.randomUuid}{ext}" (List.range' 2 998)
  else candidate

/-! ### Streams -/

/-- A `BufferedOutputStream` over a `FileOutputStream`. -/
structure OutStream where
  file : Nat
  buffer : Bytes := []
  closed : Bool := false
deriving DecidableEq

def bufferSize : Nat := 8192

/-- `FileOutputStream.write`. -/
def writeThrough (os : Answers) (d : Directory) (out : OutStream) (bytes : Bytes) :
    Directory × Except String Unit :=
  if out.closed then (d, .error "Stream Closed")
  else
    match os.writeFault with
    | none => (d.append out.file bytes, .ok ())
    | some (n, e) => (d.append out.file (bytes.take n), .error e)

/-- `flushBuffer`; a buffer that could not be written stays. -/
def flushBuffer (os : Answers) (d : Directory) (out : OutStream) :
    Directory × OutStream × Except String Unit :=
  if out.buffer = [] then (d, out, .ok ())
  else
    match writeThrough os d out out.buffer with
    | (d, .ok _) => (d, { out with buffer := [] }, .ok ())
    | (d, .error e) => (d, out, .error e)

/-- `write` of a whole array. -/
def write (os : Answers) (d : Directory) (out : OutStream) (bytes : Bytes) :
    Directory × OutStream × Except String Unit :=
  if bufferSize ≤ bytes.length then
    match flushBuffer os d out with
    | (d, out, .error e) => (d, out, .error e)
    | (d, out, .ok _) =>
        let (d, result) := writeThrough os d out bytes
        (d, out, result)
  else if bufferSize - out.buffer.length < bytes.length then
    match flushBuffer os d out with
    | (d, out, .error e) => (d, out, .error e)
    | (d, out, .ok _) => (d, { out with buffer := out.buffer ++ bytes }, .ok ())
  else (d, { out with buffer := out.buffer ++ bytes }, .ok ())

/-- `close`: the stream beneath is closed also when the flush throws. -/
def close (os : Answers) (d : Directory) (out : OutStream) :
    Directory × OutStream × Except String Unit :=
  if out.closed then (d, out, .ok ())
  else
    match flushBuffer os d out with
    | (d, out, .error e) => (d, { out with closed := true }, .error e)
    | (d, out, .ok _) =>
        (d, { out with closed := true },
          match os.closeFault with
          | none => .ok ()
          | some e => .error e)

end RemoteControl.Phone.Downloads
