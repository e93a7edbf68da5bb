import RemoteControl.Server.Connection

/-!
File transfer in both directions (`server-pc/src/connection.rs`): the phone's uploads with
their destination names, and the bookkeeping of sends to the phone.
-/

namespace RemoteControl.Server.FileHandlers

open RemoteControl.Foundations.ByteStrings
open RemoteControl.Foundations.Interference
open RemoteControl.Wire.Protocol
open RemoteControl.Server.Stores
open RemoteControl.Server.Connection

/-! ### File names -/

/-- `char::is_whitespace`. -/
def isWhitespace (c : Char) : Bool :=
  let n := c.toNat
  (0x9 ≤ n && n ≤ 0xD) || n == 0x20 || n == 0x85 || n == 0xA0 || n == 0x1680 ||
    (0x2000 ≤ n && n ≤ 0x200A) || n == 0x2028 || n == 0x2029 || n == 0x202F ||
    n == 0x205F || n == 0x3000

def trim (s : List Char) : List Char :=
  (s.dropWhile isWhitespace).rdropWhile isWhitespace

/-- `str::rsplit_once`: the parts before and after the last separator. -/
def rsplitOnce (sep : Char) : List Char → Option (List Char × List Char)
  | [] => none
  | c :: rest =>
      match rsplitOnce sep rest with
      | some (before, after) => some (c :: before, after)
      | none => if c = sep then some ([], rest) else none

/-- `str::len`, which counts bytes. -/
def byteLen (s : List Char) : Nat :=
  (s.map Char.utf8Size).sum

def forbidden : List Char :=
  ['/', '\\', '\x00', ':', '*', '?', '"', '<', '>', '|']

def sanitizeFilename (raw : String) : String :=
  let cleaned := raw.toList.filter fun c => !forbidden.contains c
  let trimmed := trim cleaned
  if trimmed = [] ∨ trimmed = ['.'] ∨ trimmed = ['.', '.'] then "received.bin"
  else if trimmed.length > 200 then
    let (stem, ext) :=
      match rsplitOnce '.' trimmed with
      | some (s, e) => if byteLen e < 32 then (s, '.' :: e) else (trimmed, [])
      | none => (trimmed, [])
    let take := 200 - ext.length
    String.ofList (stem.take take ++ ext)
  else String.ofList trimmed

/-- The stem and the extension that `unique_dest_path` puts its counter between. -/
def stemAndExtension (name : String) : String × String :=
  match rsplitOnce '.' name.toList with
  | some (s, e) =>
      if s ≠ [] then (String.ofList s, String.ofList ('.' :: e)) else (name, "")
  | none => (name, "")

/-- `tokio::fs::metadata(path).is_err()`. -/
def metadataIsErr (os : Answers) (path : PathBuf) : Handler Bool :=
  .read fun s => (s.world.files path).isNone || os.metadataFault path

def probeCandidates (os : Answers) (dir : PathBuf) (name stem ext : String) :
    List Nat → Handler (Except String PathBuf)
  | [] => return .error s!"no unique path under {dir.display} for {name}"
  | n :: rest => do
      let candidate := dir.join s!"{stem} ({n}){ext}"
      if ← metadataIsErr os candidate then return .ok candidate
      else probeCandidates os dir name stem ext rest

def uniqueDestPath (os : Answers) (dir : PathBuf) (name : String) :
    Handler (Except String PathBuf) := do
  let initial := dir.join name
  if ← metadataIsErr os initial then return .ok initial
  else
    let (stem, ext) := stemAndExtension name
    probeCandidates os dir name stem ext (List.range' 1 999)

/-! ### Uploads from the phone -/

def failTransfer (id : UInt32) (reason : String) : Handler PUnit :=
  send (.fileTransferFailed id reason)

def maxFileSize : Nat := 16 * 1024 * 1024 * 1024

/-- `tokio::fs::File::create`, which truncates a file that exists. -/
def createFile (os : Answers) (path : PathBuf) : Handler PUnit :=
  onFiles
    (fun files =>
      if os.createFault.isSome then files else Function.update files path (some []))
    (.createFile path)

def insertTransfer (id : UInt32) (state : FileTransferState) : Handler PUnit :=
  onConn fun c => { c with fileTransfers := c.fileTransfers.insert id state }

/-- `transfers.remove(&id)`. -/
def takeTransfer (id : UInt32) : Handler (Option FileTransferState) :=
  .critical fun s =>
    (s.conn.fileTransfers.lookup id,
      { s with
        conn := { s.conn with fileTransfers := s.conn.fileTransfers.erase id } })

def handleFileBegin (os : Answers) (id : UInt32) (name : String) (size : UInt64) :
    Handler PUnit := do
  let conn ← .read St.conn
  if (conn.fileTransfers.lookup id).isSome then
    failTransfer id "duplicate transfer id"
  else if size.toNat > maxFileSize then
    failTransfer id "file too large (>16 GiB)"
  else
    perform [.createDir]
    match os.downloadsDir with
    | .error e => failTransfer id s!"downloads dir: {e}"
    | .ok destDir =>
        let safeName := sanitizeFilename name
        match ← uniqueDestPath os destDir safeName with
        | .error e => failTransfer id s!"dest path: {e}"
        | .ok destPath =>
            createFile os destPath
            match os.createFault with
            | some e => failTransfer id s!"open {destPath.display}: {e}"
            | none =>
                insertTransfer id
                  { destPath
                    file := { path := destPath, position := 0 }
                    expectedSize := size
                    bytesWritten := 0
                    nextExpectedSeq := 0 }
                send (.fileTransferAccepted id destPath.display)

def handleFileAbort (os : Answers) (id : UInt32) : Handler PUnit := do
  match ← takeTransfer id with
  | some state => removeFile os state.destPath
  | none => return

/-- The files after `write_all` at the handle's offset. A fault may leave a prefix of the
data written; a handle whose file is gone writes to nothing. -/
def writeAll (os : Answers) (file : OpenFile) (payload : Bytes) : Handler PUnit :=
  let written :=
    match os.writeFault with
    | some (n, _) => payload.take n
    | none => payload
  onFiles
    (fun files =>
      match files file.path with
      | some content =>
          Function.update files file.path (some (writeAt content file.position written))
      | none => files)
    (.writeFile file.path)

def failChunk (os : Answers) (id : UInt32) (dest : PathBuf) (reason : String) :
    Handler PUnit := do
  removeFile os dest
  failTransfer id reason

def handleFileChunk (os : Answers) (bytes : Bytes) : Handler PUnit := do
  match parseFileChunk bytes with
  | none => return
  | some chunk =>
      match ← takeTransfer chunk.id with
      | none => return
      | some state =>
          if chunk.seq ≠ state.nextExpectedSeq then
            failChunk os chunk.id state.destPath s!"chunk out of order: got {chunk.seq}"
          else
            writeAll os state.file chunk.payload
            match os.writeFault with
            | some (_, e) => failChunk os chunk.id state.destPath s!"write: {e}"
            | none =>
                let state :=
                  { state with
                    file :=
                      { state.file with
                        position := state.file.position + chunk.payload.length }
                    bytesWritten := state.bytesWritten + chunk.payload.length
                    nextExpectedSeq := state.nextExpectedSeq + 1 }
                if chunk.isLast then
                  -- A flush error and a size mismatch are only logged.
                  send (.fileTransferComplete chunk.id state.destPath.display)
                else insertTransfer chunk.id state

/-! ### Sends to the phone -/

def takeSend (id : UInt32) : Handler (Option FileSendState) :=
  .critical fun s =>
    (s.conn.fileSends.lookup id,
      { s with conn := { s.conn with fileSends := s.conn.fileSends.erase id } })

def cancelSender (cancel : Nat) : Handler PUnit :=
  onConn fun c => { c with cancelFlags := c.cancelFlags.set cancel true }

def handleFileSendAccepted (id : UInt32) (destPath : String) : Handler PUnit :=
  onConn fun c =>
    match c.fileSends.lookup id with
    | some st =>
        { c with fileSends := c.fileSends.insert id { st with destPath := some destPath } }
    | none => c

def handleFileSendComplete (os : Answers) (id : UInt32) : Handler PUnit := do
  match ← takeSend id with
  | some st => removeFile os st.tempPath
  | none => return

/-- The phone's `file_send_failed` and the browser's cancel are handled alike. -/
def abandonSend (os : Answers) (id : UInt32) : Handler PUnit := do
  match ← takeSend id with
  | some st =>
      cancelSender st.cancel
      removeFile os st.tempPath
  | none => return

/-- The streamer task is spawned with the flag allocated here. -/
def dispatchFileSendCmd (id : UInt32) (name : String) (size : UInt64)
    (tempPath : PathBuf) : Handler PUnit := do
  onConn fun c =>
    { c with
      cancelFlags := c.cancelFlags ++ [false]
      fileSends :=
        c.fileSends.insert id
          { name, tempPath, expectedSize := size, destPath := none
            cancel := c.cancelFlags.length } }
  send (.fileSendBegin id name size)
  perform [.spawnSender id]

end RemoteControl.Server.FileHandlers
