import Mathlib.Tactic.DeriveCountable
import RemoteControl.Foundations.Texts
import RemoteControl.Phone.FrameFormat
import RemoteControl.Phone.Vocabulary
import RemoteControl.Server.Transfers
import RemoteControl.Server.Upload

/-!
Uploads from end to end: the threads that `uploadFile` starts, the socket they send to, and the
connection of the PC that hears them. Other messages of the phone and the packets of a stream
come in between.
-/

namespace RemoteControl.Phone.Uploads

open RemoteControl.Foundations.ByteStrings
open RemoteControl.Foundations.Interference
open RemoteControl.Foundations.Interference.Task
open RemoteControl.Foundations.Texts
open RemoteControl.Foundations.Transition
open RemoteControl.Phone.Messages
open RemoteControl.Phone.FrameFormat
open RemoteControl.Phone.Vocabulary
open RemoteControl.Server.Stores
open RemoteControl.Server.Connection
open RemoteControl.Server.Loop
open RemoteControl.Server.Frame
open RemoteControl.Server.Transfers
open RemoteControl.Server.Upload
open RemoteControl.Wire.Protocol (Message FileChunk)
open RemoteControl.Wire.Serde

/-! ### Upload threads -/

/-- What OkHttp has yet to hand over. Once a close is enqueued nothing else is. -/
structure WebSocket where
  queue : List Message := []
  closing : Bool := false

/-- `WebSocket.send`, with its answer. -/
def WebSocket.send (ws : WebSocket) (msg : Message) : Bool × WebSocket :=
  if ws.closing then (false, ws) else (true, { ws with queue := ws.queue ++ [msg] })

def chunkBytes : Nat := 256 * 1024

/-- Where a thread is: before `open`, before the look at its cancel flag, before the next
`read`, before it sends what `read` gave (nothing at the end of the file), or at its end. -/
inductive UploadPhase where
  | opening
  | top
  | reading
  | sending (chunk : Bytes)
  | ended (failed : Bool)
deriving DecidableEq

/-- `rest` is what the stream has still to give of `content`. -/
structure Upload where
  id : Int32
  content : Bytes
  rest : Bytes
  seq : Int32 := 0
  cancelFlag : Bool := false
  phase : UploadPhase := .opening
deriving DecidableEq

def Upload.start (id : Int32) (content : Bytes) : Upload where
  id := id
  content := content
  rest := content

/-- What happens to a thread. `thrown` is an exception of `open` or of `read`. -/
inductive ThreadEvent where
  | opened
  | thrown (reason : String)
  | checked
  | read (n : Nat)
  | sent

namespace Upload

/-- The `catch` of the thread. What `send` answers is ignored. -/
def caught (encodeToString : ClientMsg → String) (reason : String) (ws : WebSocket)
    (u : Upload) : WebSocket × Upload :=
  ((ws.send (.text (encodeToString (.fileTransferAbort u.id reason)))).2,
    { u with phase := .ended true })

def sendChunk (encodeToString : ClientMsg → String) (chunk : Bytes) (ws : WebSocket)
    (u : Upload) : WebSocket × Upload :=
  match chunk with
  | [] =>
      match ws.send (.binary (buildFileChunkFrame u.id u.seq true [])) with
      | (true, ws) => (ws, { u with phase := .ended false })
      | (false, ws) =>
          u.caught encodeToString "WebSocket.send rejected last chunk (buffer/closed)" ws
  | chunk =>
      match ws.send (.binary (buildFileChunkFrame u.id u.seq false chunk)) with
      | (true, ws) => (ws, { u with phase := .top, seq := u.seq + 1 })
      | (false, ws) =>
          u.caught encodeToString s!"WebSocket.send rejected (buffer/closed) at seq={u.seq}" ws

/-- The thread after a step. The `close` of `use` does not throw. -/
def act (encodeToString : ClientMsg → String) (ws : WebSocket) (u : Upload) :
    ThreadEvent → Option (WebSocket × Upload)
  | .opened => if u.phase = .opening then some (ws, { u with phase := .top }) else none
  | .thrown reason =>
      if u.phase = .opening ∨ u.phase = .reading then some (u.caught encodeToString reason ws)
      else none
  | .checked =>
      if u.phase = .top then
        if u.cancelFlag then some (u.caught encodeToString "user cancelled" ws)
        else some (ws, { u with phase := .reading })
      else none
  | .read n =>
      -- `read` gives at least one byte, except at the end of the file.
      if u.phase = .reading ∧ n ≤ chunkBytes ∧ n ≤ u.rest.length ∧ (n = 0 → u.rest = []) then
        some (ws, { u with phase := .sending (u.rest.take n), rest := u.rest.drop n })
      else none
  | .sent =>
      match u.phase with
      | .sending chunk => some (u.sendChunk encodeToString chunk ws)
      | _ => none

end Upload

/-! ### The whole path -/

structure Path where
  socket : WebSocket := {}
  nextTransferId : Int32 := 1
  uploads : List Upload := []
  pc : Session

/-- A message that is not about a file. -/
def IsAside : ClientMsg → Prop
  | .fileTransferBegin .. | .fileTransferAbort .. | .fileSendAccepted .. | .fileSendComplete ..
  | .fileSendFailed .. => False
  | _ => True

/-- The libraries: the phone's text of a message is read by the PC as the JSON it was written
from. -/
def ReadsText (crates : Crates) (floats : FloatText) (encodeToString : ClientMsg → String) :
    Prop :=
  ∀ msg j, clientMsgToJson floats.floatToString msg = some j →
    crates.parseClientMsg (encodeToString msg) = clientMsgOfJson floats.readF32 j

inductive Act where
  | uploadFile (name : String) (size : Int64) (content : Bytes)
  | cancelUpload (id : Int32)
  | thread (i : Nat) (event : ThreadEvent)
  | say (msg : ClientMsg)
  | closing
  | pc (label : Label)

section

variable (crates : Crates) (cfg : Config) (floats : FloatText)
  (encodeToString : ClientMsg → String)

/-- `uploadFile` on an open socket, up to the start of the thread. -/
def Path.uploadFile (name : String) (size : Int64) (content : Bytes) (s : Path) : Path :=
  { s with
    socket :=
      (s.socket.send
        (.text (encodeToString (.fileTransferBegin s.nextTransferId name size)))).2
    nextTransferId := s.nextTransferId + 1
    uploads := s.uploads ++ [.start s.nextTransferId content] }

def Path.cancelUpload (id : Int32) (s : Path) : Path :=
  { s with
    uploads := s.uploads.map fun u => if u.id = id then { u with cancelFlag := true } else u }

/-- A step, under these conditions: the counter of ids has not run out and no size is negative, or
the PC could not read the begin; what else the phone sends is not about files; in the PC every
file operation succeeds, and its loop goes on behind each message and packet. -/
inductive PathStep : Path → Act → Path → Prop
  | uploadFile {s : Path} {name : String} {size : Int64} (content : Bytes) :
      s.nextTransferId.toInt < 2 ^ 31 - 1 → 0 ≤ size.toInt →
      PathStep s (.uploadFile name size content) (s.uploadFile encodeToString name size content)
  | cancelUpload {s : Path} (id : Int32) : PathStep s (.cancelUpload id) (s.cancelUpload id)
  | thread {s : Path} {i : Nat} {event : ThreadEvent} {u u' : Upload} {socket : WebSocket} :
      s.uploads[i]? = some u → u.act encodeToString s.socket event = some (socket, u') →
      PathStep s (.thread i event) { s with socket, uploads := s.uploads.set i u' }
  | say {s : Path} {msg : ClientMsg} :
      IsAside msg → (clientMsgToJson floats.floatToString msg).isSome →
      PathStep s (.say msg) { s with socket := (s.socket.send (.text (encodeToString msg))).2 }
  | closing {s : Path} :
      PathStep s .closing { s with socket := { s.socket with closing := true } }
  | others {s : Path} {pc : Session} : Server.Loop.Step crates cfg s.pc .others pc →
      PathStep s (.pc .others) { s with pc }
  | packet {s : Path} {frame : Option Bytes} {sent : TrySend} {os : Answers}
      {trace : List (St × St)} {pc : Session} :
      Server.Loop.Step crates cfg s.pc (.taken (.packet frame sent) os trace) pc →
      pc.running = true → PathStep s (.pc (.taken (.packet frame sent) os trace)) { s with pc }
  | hear {s : Path} {msg : Message} {rest : List Message} {os : Answers}
      {trace : List (St × St)} {pc : Session} :
      s.socket.queue = msg :: rest → Smooth os →
      Server.Loop.Step crates cfg s.pc (.taken (.inbox (some msg)) os trace) pc →
      pc.running = true →
      PathStep s (.pc (.taken (.inbox (some msg)) os trace))
        { s with socket := { s.socket with queue := rest }, pc }

/-- From when the connection is authenticated and has had no transfer. -/
def path : System Path Act where
  init s :=
    s.socket = {} ∧ 0 ≤ s.nextTransferId.toInt ∧ s.uploads = [] ∧
      s.pc.st.conn.authenticated = true ∧ s.pc.st.conn.fileTransfers = ∅ ∧
      ∀ out ∈ s.pc.st.conn.outbox, isMilestone out = false
  step := PathStep crates cfg floats encodeToString

end

/-! ### What a message says about an upload -/

section

variable {crates : Crates} {cfg : Config} {floats : FloatText}
  {encodeToString : ClientMsg → String}

def said (crates : Crates) : Message → Option UploadMsg
  | .binary bytes => (fileChunk bytes).map .chunk
  | .text text =>
      match crates.parseClientMsg text with
      | some (.fileTransferBegin id _ size) => some (.start id size)
      | some (.fileTransferAbort id _) => some (.abort id)
      | _ => none
  | _ => none

theorem isUpload_of_said {msg : Message} {m : UploadMsg} (h : said crates msg = some m) :
    IsUpload crates (.inbox (some msg)) := by
  cases msg with
  | text text =>
      dsimp only [said] at h
      split at h
      · next hread => exact .inl ⟨_, _, _, hread⟩
      · next hread => exact .inr ⟨_, _, hread⟩
      · cases h
  | binary => trivial
  | close | ping | pong => cases h

theorem messageOf_hear (msg : Message) (os : Answers) (trace : List (St × St)) :
    messageOf crates (.taken (.inbox (some msg)) os trace) = said crates msg := by
  cases msg <;> rfl

def Upload.key (u : Upload) : UInt32 := u.id.toUInt32

theorem said_chunk (u : Upload) (last : Bool) (payload : Bytes) :
    said crates (.binary (buildFileChunkFrame u.id u.seq last payload)) =
      some (.chunk ⟨u.key, u.seq.toUInt32, last, payload⟩) := by
  have hparse := Wire.Protocol.parseFileChunk_buildFileChunkFrame u.id.toUInt32 u.seq.toUInt32
    last payload
  have hpeek : ∃ flags, Wire.Protocol.peekFrameHeader
      (Wire.Protocol.buildFileChunkFrame u.id.toUInt32 u.seq.toUInt32 last payload) =
        some (Wire.Protocol.FrameType.file, flags) := by
    simp only [Wire.Protocol.buildFileChunkFrame, Wire.Protocol.peekFrameHeader,
      List.cons_append]
    refine ⟨_, if_neg (Nat.not_lt.mpr ?_)⟩
    simp only [Wire.Protocol.frameHeaderLen, List.length_cons, List.length_append,
      leBytes_length]
    omega
  obtain ⟨flags, hpeek⟩ := hpeek
  rw [buildFileChunkFrame_eq, said, fileChunk, hpeek]
  dsimp only
  rw [if_pos rfl, hparse]
  rfl

theorem sameU32_toUInt32 {n : Int32} {k : UInt32} (h : SameU32 n k) : n.toUInt32 = k := by
  rw [← UInt32.toNat_inj]
  have hnat : n.toUInt32.toNat = n.toBitVec.toNat := rfl
  have hint : n.toInt = n.toBitVec.toInt := rfl
  have hlt := k.toNat_lt
  rw [SameU32, hint, BitVec.toInt_eq_toNat_cond] at h
  rw [hnat]
  split at h <;> omega

theorem sameU64_toUInt64 {n : Int64} {k : UInt64} (h : SameU64 n k) : n.toUInt64 = k := by
  rw [← UInt64.toNat_inj]
  have hnat : n.toUInt64.toNat = n.toBitVec.toNat := rfl
  have hint : n.toInt = n.toBitVec.toInt := rfl
  have hlt := k.toNat_lt
  rw [SameU64, hint, BitVec.toInt_eq_toNat_cond] at h
  rw [hnat]
  split at h <;> omega

theorem parse_begin (hfloats : floats.Documented)
    (htexts : ReadsText crates floats encodeToString) {id : Int32} {size : Int64} (name : String)
    (hid : 0 ≤ id.toInt) (hsize : 0 ≤ size.toInt) :
    crates.parseClientMsg (encodeToString (.fileTransferBegin id name size)) =
      some (.fileTransferBegin id.toUInt32 name size.toUInt64) := by
  obtain ⟨j, read, hj, hread, hsame⟩ := (pcReads_iff hfloats).mpr
    (show FitsPc (.fileTransferBegin id name size) from ⟨hid, hsize⟩)
  rw [htexts _ _ hj, hread]
  cases hsame with
  | fileTransferBegin _ hid hsize => rw [sameU32_toUInt32 hid, sameU64_toUInt64 hsize]

theorem said_begin (hfloats : floats.Documented) (htexts : ReadsText crates floats encodeToString)
    {id : Int32} {size : Int64} (name : String) (hid : 0 ≤ id.toInt) (hsize : 0 ≤ size.toInt) :
    said crates (.text (encodeToString (.fileTransferBegin id name size))) =
      some (.start id.toUInt32 size.toUInt64) := by
  rw [said, parse_begin hfloats htexts name hid hsize]

theorem said_abort (hfloats : floats.Documented) (htexts : ReadsText crates floats encodeToString)
    {id : Int32} (reason : String) (hid : 0 ≤ id.toInt) :
    said crates (.text (encodeToString (.fileTransferAbort id reason))) =
      some (.abort id.toUInt32) := by
  obtain ⟨j, read, hj, hread, hsame⟩ := (pcReads_iff hfloats).mpr
    (show FitsPc (.fileTransferAbort id reason) from hid)
  rw [said, htexts _ _ hj, hread]
  cases hsame with
  | fileTransferAbort _ hid => rw [sameU32_toUInt32 hid]

/-- A message of the PC's that is not about a file. -/
def isAside : Wire.Protocol.ClientMsg → Bool
  | .fileTransferBegin .. | .fileTransferAbort .. | .fileSendAccepted .. | .fileSendComplete ..
  | .fileSendFailed .. => false
  | _ => true

theorem isAside_of_same {msg : ClientMsg} {read : Wire.Protocol.ClientMsg} (h : IsAside msg)
    (hsame : SameClientMsg msg read) : isAside read = true := by
  cases hsame <;> first | rfl | exact h.elim

end

/-! ### What is in flight -/

/-- The bytes read and not yet sent. -/
def UploadPhase.holding : UploadPhase → Bytes
  | .sending chunk => chunk
  | _ => []

/-- The thread goes on, and `content` with the bytes it has still to send is its file. -/
structure Running (u : Upload) (content : Bytes) : Prop where
  unfinished : ∀ failed, u.phase ≠ .ended failed
  split : content ++ u.phase.holding ++ u.rest = u.content
  atEnd : u.phase = .sending [] → u.rest = []

/-- What these messages in flight about an upload add to the bytes `content` and the next number
`seq` leads to where its thread is. -/
inductive Residue (closing : Bool) (u : Upload) : Bytes → UInt32 → List UploadMsg → Prop
  | running {content : Bytes} :
      Running u content → Residue closing u content u.seq.toUInt32 []
  | cut {content : Bytes} {seq : UInt32} :
      closing = true → u.phase = .ended true → Residue closing u content seq []
  | finished {seq : UInt32} :
      u.phase = .ended false →
      Residue closing u u.content seq [.chunk ⟨u.key, seq, true, []⟩]
  | aborted {content : Bytes} {seq : UInt32} :
      u.phase = .ended true → Residue closing u content seq [.abort u.key]
  | chunk {content payload : Bytes} {seq : UInt32} {rest : List UploadMsg} :
      Residue closing u (content ++ payload) (seq + 1) rest →
      Residue closing u content seq (.chunk ⟨u.key, seq, false, payload⟩ :: rest)

theorem Residue.extend {closing closing' : Bool} {u u' : Upload} {content : Bytes}
    {seq : UInt32} {msgs extra : List UploadMsg} (hkey : u'.key = u.key)
    (hrunning : ∀ failed, u.phase ≠ .ended failed)
    (hstep : ∀ content, Running u content → Residue closing' u' content u.seq.toUInt32 extra)
    (h : Residue closing u content seq msgs) :
    Residue closing' u' content seq (msgs ++ extra) := by
  induction h with
  | running h => exact hstep _ h
  | cut _ hended => exact absurd hended (hrunning _)
  | finished hended => exact absurd hended (hrunning _)
  | aborted hended => exact absurd hended (hrunning _)
  | @chunk content payload seq rest _ ih =>
      rw [← hkey]
      exact .chunk ih

theorem Residue.mono {closing closing' : Bool} {u u' : Upload} {content : Bytes} {seq : UInt32}
    {msgs : List UploadMsg} (hclosing : closing = true → closing' = true)
    (hu : u' = u ∨ u' = { u with cancelFlag := true })
    (h : Residue closing u content seq msgs) : Residue closing' u' content seq msgs := by
  have hkey : u'.key = u.key := by rcases hu with rfl | rfl <;> rfl
  have hphase : u'.phase = u.phase := by rcases hu with rfl | rfl <;> rfl
  have hcontent : u'.content = u.content := by rcases hu with rfl | rfl <;> rfl
  induction h with
  | running h =>
      rcases hu with rfl | rfl
      · exact .running h
      · exact .running (u := { u with cancelFlag := true }) ⟨h.unfinished, h.split, h.atEnd⟩
  | cut hclosed hended => exact .cut (hclosing hclosed) (hphase.trans hended)
  | finished hended =>
      rw [← hcontent, ← hkey]
      exact .finished (hphase.trans hended)
  | aborted hended =>
      rw [← hkey]
      exact .aborted (hphase.trans hended)
  | chunk _ ih =>
      rw [← hkey]
      exact .chunk ih

/-- What a step of a thread sends, and what is then in flight. -/
structure Advances (crates : Crates) (ws ws' : WebSocket) (u u' : Upload) : Prop where
  id : u'.id = u.id
  content : u'.content = u.content
  closing : ws'.closing = ws.closing
  unfinished : ∀ failed, u.phase ≠ .ended failed
  sends : ∃ sent extra, ws'.queue = ws.queue ++ sent ∧
    sent.map (said crates) = extra.map some ∧
    (∀ m ∈ extra, m.request.id = u.key ∧ ∀ id size, m ≠ .start id size) ∧
    (ws.closing = true → sent = [] ∧ u'.phase ≠ .ended false) ∧
    ∀ content, Running u content →
      Residue ws.closing u' content u.seq.toUInt32 extra

section

variable {crates : Crates} {floats : FloatText} {encodeToString : ClientMsg → String}

theorem send_eq (ws : WebSocket) (msg : Message) :
    (ws.closing = true ∧ ws.send msg = (false, ws)) ∨
      ws.closing = false ∧ ws.send msg = (true, { ws with queue := ws.queue ++ [msg] }) := by
  unfold WebSocket.send
  cases ws.closing <;> simp

theorem advances_silent {ws : WebSocket} {u u' : Upload} (hid : u'.id = u.id)
    (hcontent : u'.content = u.content) (hrunning : ∀ failed, u.phase ≠ .ended failed)
    (hended : u'.phase ≠ .ended false)
    (h : ∀ content, Running u content → Residue ws.closing u' content u.seq.toUInt32 []) :
    Advances crates ws ws u u' where
  id := hid
  content := hcontent
  closing := rfl
  unfinished := hrunning
  sends := ⟨[], [], by simp, rfl, by simp, fun _ => ⟨rfl, hended⟩, h⟩

theorem caught_advances (hfloats : floats.Documented)
    (htexts : ReadsText crates floats encodeToString) (ws : WebSocket) {u : Upload}
    (hid : 0 ≤ u.id.toInt) (hrunning : ∀ failed, u.phase ≠ .ended failed) (reason : String) :
    Advances crates ws (u.caught encodeToString reason ws).1 u
      (u.caught encodeToString reason ws).2 := by
  unfold Upload.caught
  rcases send_eq ws (.text (encodeToString (.fileTransferAbort u.id reason))) with
    ⟨hclosing, hsend⟩ | ⟨hclosing, hsend⟩
  · rw [hsend]
    exact advances_silent rfl rfl hrunning (by simp) fun _ _ => .cut hclosing rfl
  · rw [hsend]
    refine ⟨rfl, rfl, rfl, hrunning, [_], [.abort u.key], rfl, ?_, ?_, ?_, fun _ _ => ?_⟩
    · exact congrArg (fun m => [m]) (said_abort hfloats htexts reason hid)
    · rintro m hm
      rw [List.mem_singleton.mp hm]
      exact ⟨rfl, by simp⟩
    · simp [hclosing]
    · exact .aborted (u := { u with phase := .ended true }) rfl

theorem sendChunk_advances (hfloats : floats.Documented)
    (htexts : ReadsText crates floats encodeToString) (ws : WebSocket) {u : Upload}
    {chunk : Bytes} (hid : 0 ≤ u.id.toInt) (hphase : u.phase = .sending chunk) :
    Advances crates ws (u.sendChunk encodeToString chunk ws).1 u
      (u.sendChunk encodeToString chunk ws).2 := by
  have hrunning (failed : Bool) : u.phase ≠ .ended failed := by simp [hphase]
  have hcaught := caught_advances hfloats htexts ws hid hrunning
  rcases chunk with _ | ⟨b, chunk⟩
  · rcases send_eq ws (.binary (buildFileChunkFrame u.id u.seq true [])) with
      ⟨-, hsend⟩ | ⟨hclosing, hsend⟩
    · simp only [Upload.sendChunk, hsend]
      exact hcaught _
    · simp only [Upload.sendChunk, hsend]
      refine ⟨rfl, rfl, rfl, hrunning, [_], [.chunk ⟨u.key, u.seq.toUInt32, true, []⟩], rfl, ?_,
        ?_, ?_, fun content h => ?_⟩
      · exact congrArg (fun m => [m]) (said_chunk u _ _)
      · rintro m hm
        rw [List.mem_singleton.mp hm]
        exact ⟨rfl, by simp⟩
      · simp [hclosing]
      · have hall : content = u.content := by
          have hsplit := h.split
          rw [hphase, h.atEnd hphase] at hsplit
          simpa [UploadPhase.holding] using hsplit
        rw [hall]
        exact .finished (u := { u with phase := .ended false }) rfl
  · rcases send_eq ws (.binary (buildFileChunkFrame u.id u.seq false (b :: chunk))) with
      ⟨-, hsend⟩ | ⟨hclosing, hsend⟩
    · simp only [Upload.sendChunk, hsend]
      exact hcaught _
    · simp only [Upload.sendChunk, hsend]
      refine ⟨rfl, rfl, rfl, hrunning, [_],
        [.chunk ⟨u.key, u.seq.toUInt32, false, b :: chunk⟩], rfl, ?_, ?_, ?_, fun content h => ?_⟩
      · exact congrArg (fun m => [m]) (said_chunk u _ _)
      · rintro m hm
        rw [List.mem_singleton.mp hm]
        exact ⟨rfl, by simp⟩
      · simp [hclosing]
      · have hnext : Running { u with phase := .top, seq := u.seq + 1 }
            (content ++ (b :: chunk)) := by
          refine ⟨by simp, ?_, by simp⟩
          have hsplit := h.split
          rw [hphase] at hsplit
          simpa [UploadPhase.holding] using hsplit
        exact .chunk (u := { u with phase := .top, seq := u.seq + 1 }) (.running hnext)

theorem act_advances (hfloats : floats.Documented)
    (htexts : ReadsText crates floats encodeToString) {ws ws' : WebSocket} {u u' : Upload}
    {event : ThreadEvent} (hid : 0 ≤ u.id.toInt)
    (h : u.act encodeToString ws event = some (ws', u')) : Advances crates ws ws' u u' := by
  cases event with
  | opened =>
      obtain ⟨hphase, heq⟩ := Option.ite_none_right_eq_some.mp h
      obtain ⟨rfl, rfl⟩ := Prod.mk.inj (Option.some.inj heq)
      refine advances_silent rfl rfl (by simp [hphase]) (by simp) fun content hrun => ?_
      have hsplit := hrun.split
      rw [hphase] at hsplit
      exact .running (u := { u with phase := .top }) ⟨by simp, hsplit, by simp⟩
  | thrown reason =>
      obtain ⟨hphase, heq⟩ := Option.ite_none_right_eq_some.mp h
      have hrunning (failed : Bool) : u.phase ≠ .ended failed := by
        rcases hphase with hphase | hphase <;> simp [hphase]
      have hcaught := caught_advances hfloats htexts ws hid hrunning reason
      rw [Option.some.inj heq] at hcaught
      exact hcaught
  | checked =>
      obtain ⟨hphase, heq⟩ := Option.ite_none_right_eq_some.mp h
      have hrunning (failed : Bool) : u.phase ≠ .ended failed := by simp [hphase]
      split at heq
      · have hcaught := caught_advances hfloats htexts ws hid hrunning "user cancelled"
        rw [Option.some.inj heq] at hcaught
        exact hcaught
      · obtain ⟨rfl, rfl⟩ := Prod.mk.inj (Option.some.inj heq)
        refine advances_silent rfl rfl hrunning (by simp) fun content hrun => ?_
        have hsplit := hrun.split
        rw [hphase] at hsplit
        exact .running (u := { u with phase := .reading }) ⟨by simp, hsplit, by simp⟩
  | read n =>
      obtain ⟨⟨hphase, -, hlength, hzero⟩, heq⟩ := Option.ite_none_right_eq_some.mp h
      obtain ⟨rfl, rfl⟩ := Prod.mk.inj (Option.some.inj heq)
      refine advances_silent rfl rfl (by simp [hphase]) (by simp) fun content hrun => ?_
      have hsplit := hrun.split
      rw [hphase] at hsplit
      refine .running
        (u := { u with phase := .sending (u.rest.take n), rest := u.rest.drop n }) ⟨by simp, ?_, ?_⟩
      · simpa [UploadPhase.holding] using hsplit
      · intro hempty
        have htake : u.rest.take n = [] := by simpa using hempty
        rcases List.take_eq_nil_iff.mp htake with hn | hrest
        · simp [hzero hn]
        · simp [hrest]
  | sent =>
      simp only [Upload.act] at h
      split at h
      · next chunk hphase =>
          have hsent := sendChunk_advances hfloats htexts ws hid hphase
          rw [Option.some.inj h] at hsent
          exact hsent
      · cases h

end

/-! ### What the PC does with a message -/

section

variable {crates : Crates} {cfg : Config}

/-- A message or a packet that is not about a file. -/
def Quiet (crates : Crates) : Event → Prop
  | .packet _ _ => True
  | .inbox (some (.text text)) => ∀ read, crates.parseClientMsg text = some read → isAside read
  | _ => False

theorem handleText_aside {os : Answers} {text : String}
    (h : ∀ read, crates.parseClientMsg text = some read → isAside read) :
    Guarantees Aside (handleText crates cfg os text) := by
  unfold handleText
  split
  · exact (push_aside rfl).bind fun _ => guarantees_pure _
  · next hread => cases h _ hread
  · next hread => cases h _ hread
  · next hread => cases h _ hread
  · next hread => cases h _ hread
  · next hread => cases h _ hread
  · exact (handleClientMsg_aside crates cfg os _).bind fun _ => guarantees_pure _

theorem iteration_aside {os : Answers} {event : Event} (h : Quiet crates event) :
    Guarantees Aside (iteration crates cfg os event) := by
  refine Guarantees.bind ?_ afterSelect_aside
  rcases event with _ | (_ | (text | _ | _ | _ | _)) | ⟨frame, sent⟩ | _
  · cases h
  · cases h
  · exact handleText_aside h
  · cases h
  · cases h
  · cases h
  · cases h
  · exact handlePacket_aside frame sent
  · cases h

/-- The uploads are as before, and no completion has been announced. -/
structure Apart (s s' : St) : Prop where
  view : view s' = view s
  authenticated : s.conn.authenticated = true → s'.conn.authenticated = true
  announced : announced s'.conn = announced s.conn

theorem Apart.refl (s : St) : Apart s s :=
  ⟨rfl, id, rfl⟩

theorem Apart.trans {s t u : St} (hst : Apart s t) (htu : Apart t u) : Apart s u :=
  ⟨htu.view.trans hst.view, fun h => htu.authenticated (hst.authenticated h),
    htu.announced.trans hst.announced⟩

theorem aside_apart {s s' : St} (h : Aside s s') : Apart s s' :=
  ⟨by rw [view, view, h.fileTransfers, h.files], h.authenticated, h.announced⟩

theorem others_apart {s s' : St} (h : Others s s') : Apart s s' := by
  have hconn := others_conn h
  exact ⟨by rw [view, view, hconn, (others_frame h).1], by rw [hconn]; exact id, by rw [hconn]⟩

theorem messageOf_quiet {event : Event} (h : Quiet crates event) (os : Answers)
    (trace : List (St × St)) : messageOf crates (.taken event os trace) = none := by
  rcases event with _ | (_ | (text | _ | _ | _ | _)) | ⟨frame, sent⟩ | _
  · rfl
  · rfl
  · dsimp only [messageOf]
    split
    · next hread => cases h _ hread
    · next hread => cases h _ hread
    · rfl
  · cases h
  · rfl
  · rfl
  · rfl
  · rfl
  · rfl

theorem pc_step {s s' : Session} {label : Label} (hstep : Server.Loop.Step crates cfg s label s')
    (hlabel : Uploading crates label ∨
      ∃ event os trace, label = .taken event os trace ∧ Quiet crates event)
    (hauth : s.st.conn.authenticated = true) (hrunning : s'.running = true ∨ label = .others) :
    ∃ replies, s'.st.conn.outbox = s.st.conn.outbox ++ replies ∧
      s'.st.conn.authenticated = true ∧
      ((messageOf crates label = none ∧ view s'.st = view s.st ∧
          ∀ out ∈ replies, completedPath out = none) ∨
        Outcome (view s.st) (messageOf crates label) (view s'.st) replies) := by
  have hafter := (step_extends hstep).authenticated hauth
  rcases hlabel with hlabel | ⟨event, os, trace, rfl, hquiet⟩
  · obtain ⟨replies, hreplies, houtcome⟩ := step_outcome hstep hlabel hauth
    exact ⟨replies, hreplies, hafter, .inr houtcome⟩
  · obtain ⟨replies, hreplies⟩ := (step_extends hstep).outbox
    have hapart : Apart s.st s'.st := by
      cases hstep with
      | again _ _ hexec =>
          exact Guarantees.rel Apart.refl Apart.trans others_apart
            ((iteration_aside hquiet).mono fun _ _ => aside_apart) hexec
      | finish => simp at hrunning
    refine ⟨replies, hreplies.symm, hafter,
      .inl ⟨messageOf_quiet hquiet os trace, hapart.view, fun out hout => ?_⟩⟩
    have hannounced := hapart.announced
    rw [announced, announced, ← hreplies, List.filterMap_append] at hannounced
    have hnil := List.append_right_eq_self.mp hannounced
    exact List.filterMap_eq_nil_iff.mp hnil out hout

end

/-! ### Where an upload is -/

/-- `true` for the report that the transfer is complete. -/
def completes (id : UInt32) : Outgoing → Bool
  | .msg (.fileTransferComplete id' _) => id' = id
  | _ => false

/-- Where an upload is between its begin and its end, `msgs` being in flight about it. -/
inductive Stage (chunks : UInt32 → List FileChunk) (closing : Bool) (v : View)
    (outbox : List Outgoing) (u : Upload) (msgs : List UploadMsg) : Prop
  | unsent :
      closing = true → u.phase ≠ .ended false → msgs = [] →
      v.transfers.lookup u.key = none → outbox.filter (completes u.key) = [] →
      Stage chunks closing v outbox u msgs
  | announced {size : UInt64} {rest : List UploadMsg} :
      msgs = .start u.key size :: rest → Residue closing u [] 0 rest →
      v.transfers.lookup u.key = none → outbox.filter (completes u.key) = [] →
      Stage chunks closing v outbox u msgs
  | live {state : FileTransferState} :
      v.transfers.lookup u.key = some state →
      Residue closing u (contentOf (chunks u.key)) state.nextExpectedSeq msgs →
      outbox.filter (completes u.key) = [] → Stage chunks closing v outbox u msgs
  | refused {reason : String} :
      .msg (.fileTransferFailed u.key reason) ∈ outbox →
      (∀ m ∈ msgs, ∀ id size, m ≠ .start id size) →
      v.transfers.lookup u.key = none → outbox.filter (completes u.key) = [] →
      Stage chunks closing v outbox u msgs
  | aborted :
      u.phase = .ended true → msgs = [] → v.transfers.lookup u.key = none →
      outbox.filter (completes u.key) = [] → Stage chunks closing v outbox u msgs
  | delivered {path : PathBuf} :
      u.phase = .ended false → msgs = [] → v.transfers.lookup u.key = none →
      outbox.filter (completes u.key) = [.msg (.fileTransferComplete u.key path.display)] →
      v.files path = some u.content →
      (∀ id state, v.transfers.lookup id = some state → state.destPath ≠ path) →
      Stage chunks closing v outbox u msgs

theorem Residue.no_start {closing : Bool} {u : Upload} {content : Bytes} {seq : UInt32}
    {msgs : List UploadMsg} (h : Residue closing u content seq msgs) :
    ∀ m ∈ msgs, ∀ id size, m ≠ .start id size := by
  induction h with
  | running => simp
  | cut => simp
  | finished => simp
  | aborted => simp
  | chunk _ ih => simpa using ih

theorem Stage.mono {chunks : UInt32 → List FileChunk} {closing closing' : Bool} {v : View}
    {outbox : List Outgoing} {u u' : Upload} {msgs : List UploadMsg}
    (h : Stage chunks closing v outbox u msgs) (hclosing : closing = true → closing' = true)
    (hu : u' = u ∨ u' = { u with cancelFlag := true }) :
    Stage chunks closing' v outbox u' msgs := by
  have hkey : u'.key = u.key := by rcases hu with rfl | rfl <;> rfl
  have hphase : u'.phase = u.phase := by rcases hu with rfl | rfl <;> rfl
  have hcontent : u'.content = u.content := by rcases hu with rfl | rfl <;> rfl
  cases h with
  | unsent hclosed hended hmsgs hdead hquiet =>
      exact .unsent (hclosing hclosed) (hphase ▸ hended) hmsgs (hkey ▸ hdead) (hkey ▸ hquiet)
  | announced hmsgs hresidue hdead hquiet =>
      exact .announced (hkey ▸ hmsgs) (hresidue.mono hclosing hu) (hkey ▸ hdead) (hkey ▸ hquiet)
  | live hlive hresidue hquiet =>
      refine .live (hkey ▸ hlive) ?_ (hkey ▸ hquiet)
      rw [hkey]
      exact hresidue.mono hclosing hu
  | refused hreason hstart hdead hquiet =>
      exact .refused (hkey ▸ hreason) hstart (hkey ▸ hdead) (hkey ▸ hquiet)
  | aborted hended hmsgs hdead hquiet =>
      exact .aborted (hphase.trans hended) hmsgs (hkey ▸ hdead) (hkey ▸ hquiet)
  | delivered hended hmsgs hdead hreport hfile hapart =>
      exact .delivered (hphase.trans hended) hmsgs (hkey ▸ hdead) (hkey ▸ hreport)
        (hcontent ▸ hfile) hapart

section

variable {chunks : UInt32 → List FileChunk} {closing : Bool} {v v' : View}
  {outbox replies : List Outgoing} {u : Upload} {message : Option UploadMsg}

theorem quiet_replies (h : ∀ out ∈ replies, completedPath out = none) (id : UInt32) :
    replies.filter (completes id) = [] := by
  refine List.filter_eq_nil_iff.mpr fun out hout hreport => ?_
  have hnone := h out hout
  unfold completes at hreport
  split at hreport
  · cases hnone
  · cases hreport

theorem lookup_other (h : Outcome v message v' replies) {id : UInt32}
    (hid : ∀ m, message = some m → m.request.id ≠ id) :
    v'.transfers.lookup id = v.transfers.lookup id := by
  cases h with
  | silent hlookup => exact hlookup id
  | refused => rfl
  | accepted => exact AList.lookup_insert_ne (hid _ rfl).symm
  | aborted => exact AList.lookup_erase_ne (hid _ rfl).symm
  | failed => exact AList.lookup_erase_ne (hid _ rfl).symm
  | appended =>
      exact (AList.lookup_insert_ne (hid _ rfl).symm).trans
        (AList.lookup_erase_ne (hid _ rfl).symm)
  | completed => exact AList.lookup_erase_ne (hid _ rfl).symm

theorem lookup_known (h : Outcome v message v' replies) {id : UInt32} {state : FileTransferState}
    (hstate : v'.transfers.lookup id = some state) :
    (∃ m, message = some m ∧ m.request.id = id) ∨ ∃ state, v.transfers.lookup id = some state := by
  by_cases hid : ∃ m, message = some m ∧ m.request.id = id
  · exact .inl hid
  · refine .inr ⟨state, ?_⟩
    rw [← lookup_other h fun m hm heq => hid ⟨m, hm, heq⟩]
    exact hstate

theorem completes_other (h : Outcome v message v' replies) {id : UInt32}
    (hid : ∀ m, message = some m → m.request.id ≠ id) : replies.filter (completes id) = [] := by
  cases h with
  | completed => simpa [completes, UploadMsg.request, Request.id] using hid _ rfl
  | silent | refused | accepted | aborted | failed | appended => rfl

theorem delivered_kept (htracked : Tracked chunks v) (h : Outcome v message v' replies)
    {path : PathBuf} {content : Bytes} (hfile : v.files path = some content)
    (hapart : ∀ id state, v.transfers.lookup id = some state → state.destPath ≠ path) :
    v'.files path = some content ∧
      ∀ id state, v'.transfers.lookup id = some state → state.destPath ≠ path := by
  have hdropped {id : UInt32} {state : FileTransferState}
      (hlive : v.transfers.lookup id = some state) {updated : Option Bytes} :
      Function.update v.files state.destPath updated path = some content := by
    rw [Function.update_of_ne (hapart _ _ hlive).symm, hfile]
  cases h with
  | silent hlookup hfiles _ =>
      rw [hfiles]
      exact ⟨hfile, fun id state h => hapart id state ((hlookup id).symm.trans h)⟩
  | refused => exact ⟨hfile, hapart⟩
  | @accepted id' path' size hnew hfree _ =>
      have hne : path ≠ path' := by
        rintro rfl
        rw [hfree] at hfile
        cases hfile
      refine ⟨(Function.update_of_ne hne _ _).trans hfile, fun id state h => ?_⟩
      rcases eq_or_ne id id' with rfl | hid
      · rw [AList.lookup_insert] at h
        obtain rfl := Option.some.inj h
        exact hne.symm
      · exact hapart id state ((AList.lookup_insert_ne hid).symm.trans h)
  | aborted hlive =>
      exact ⟨hdropped hlive, fun id state h => hapart id state (lookup_of_erase h).2⟩
  | failed hlive =>
      exact ⟨hdropped hlive, fun id state h => hapart id state (lookup_of_erase h).2⟩
  | @appended chunk state' hlive _ _ =>
      refine ⟨by rw [(htracked.holds _ _ hlive).written]; exact hdropped hlive,
        fun id state h => ?_⟩
      rcases eq_or_ne id chunk.id with rfl | hid
      · rw [AList.lookup_insert] at h
        obtain rfl := Option.some.inj h
        exact (hapart _ state' hlive :)
      · exact hapart id state (lookup_of_erase ((AList.lookup_insert_ne hid).symm.trans h)).2
  | completed hlive =>
      exact ⟨by rw [(htracked.holds _ _ hlive).written]; exact hdropped hlive,
        fun id state h => hapart id state (lookup_of_erase h).2⟩

theorem Stage.quiet {msgs : List UploadMsg} (h : Stage chunks closing v outbox u msgs)
    (hreplies : ∀ out ∈ replies, completedPath out = none) :
    Stage chunks closing v (outbox ++ replies) u msgs := by
  have hsame : (outbox ++ replies).filter (completes u.key) = outbox.filter (completes u.key) := by
    rw [List.filter_append, quiet_replies hreplies, List.append_nil]
  cases h with
  | unsent hclosing hended hmsgs hdead hquiet =>
      exact .unsent hclosing hended hmsgs hdead (hsame.trans hquiet)
  | announced hmsgs hresidue hdead hquiet =>
      exact .announced hmsgs hresidue hdead (hsame.trans hquiet)
  | live hlive hresidue hquiet => exact .live hlive hresidue (hsame.trans hquiet)
  | refused hreason hstart hdead hquiet =>
      exact .refused (List.mem_append_left _ hreason) hstart hdead (hsame.trans hquiet)
  | aborted hended hmsgs hdead hquiet => exact .aborted hended hmsgs hdead (hsame.trans hquiet)
  | delivered hended hmsgs hdead hreport hfile hapart =>
      exact .delivered hended hmsgs hdead (hsame.trans hreport) hfile hapart

theorem Stage.other {msgs : List UploadMsg} (h : Stage chunks closing v outbox u msgs)
    (htracked : Tracked chunks v) (houtcome : Outcome v message v' replies)
    (hother : ∀ m, message = some m → m.request.id ≠ u.key) :
    Stage (fun id => collect id (message.map UploadMsg.request) replies (chunks id)) closing v'
      (outbox ++ replies) u msgs := by
  have hlookup := lookup_other houtcome hother
  have hreplies := completes_other houtcome hother
  have hnone (hnone : outbox.filter (completes u.key) = []) :
      (outbox ++ replies).filter (completes u.key) = [] := by
    rw [List.filter_append, hnone, hreplies]
    rfl
  cases h with
  | unsent hclosing hphase hmsgs hdead hquiet =>
      exact .unsent hclosing hphase hmsgs (hlookup.trans hdead) (hnone hquiet)
  | announced hmsgs hresidue hdead hquiet =>
      exact .announced hmsgs hresidue (hlookup.trans hdead) (hnone hquiet)
  | live hlive hresidue hquiet =>
      refine .live (hlookup.trans hlive) ?_ (hnone hquiet)
      rw [collect_other houtcome.reaction]
      · exact hresidue
      · rintro ⟨r, hr, hid⟩
        obtain ⟨m, rfl, rfl⟩ := Option.map_eq_some_iff.mp hr
        exact hother m rfl hid
  | refused hreason hstart hdead hquiet =>
      exact .refused (List.mem_append_left _ hreason) hstart (hlookup.trans hdead) (hnone hquiet)
  | aborted hphase hmsgs hdead hquiet =>
      exact .aborted hphase hmsgs (hlookup.trans hdead) (hnone hquiet)
  | delivered hphase hmsgs hdead hreport hfile hapart =>
      obtain ⟨hfile, hapart⟩ := delivered_kept htracked houtcome hfile hapart
      refine .delivered hphase hmsgs (hlookup.trans hdead) ?_ hfile hapart
      rw [List.filter_append, hreport, hreplies]
      rfl

theorem stage_last {state : FileTransferState} (htracked : Tracked chunks v)
    (hlive : v.transfers.lookup u.key = some state)
    (hcontent : contentOf (chunks u.key) = u.content) (hended : u.phase = .ended false)
    (hquiet : outbox.filter (completes u.key) = [])
    (houtcome : Outcome v (some (.chunk ⟨u.key, state.nextExpectedSeq, true, []⟩)) v' replies)
    (chunks' : UInt32 → List FileChunk) :
    Stage chunks' closing v' (outbox ++ replies) u [] := by
  have hfound {state' : FileTransferState} (h : v.transfers.lookup u.key = some state') :
      state' = state := Option.some.inj (h.symm.trans hlive)
  cases houtcome with
  | silent _ _ hdead =>
      have hnone : v.transfers.lookup u.key = none := (hdead _ rfl).1
      rw [hnone] at hlive
      cases hlive
  | failed hlive' hseq =>
      obtain rfl := hfound hlive'
      exact absurd rfl hseq
  | appended _ _ hlast => cases hlast
  | @completed _ state' hlive' =>
      obtain rfl := hfound hlive'
      have hreport : (outbox ++
          [Outgoing.msg (.fileTransferComplete u.key state'.destPath.display)]).filter
            (completes u.key) =
              [.msg (.fileTransferComplete u.key state'.destPath.display)] := by
        rw [List.filter_append, hquiet]
        simp [completes]
      refine .delivered hended rfl (AList.lookup_erase _ _) hreport ?_ fun id other hother => ?_
      · rw [(htracked.holds _ _ hlive).written, contentOf_append, hcontent]
        simp
      · obtain ⟨hne, hother⟩ := lookup_of_erase hother
        exact htracked.distinct _ _ _ _ hne hother hlive

theorem stage_chunk {state : FileTransferState} {payload : Bytes} {msgs : List UploadMsg}
    (hlive : v.transfers.lookup u.key = some state)
    (hresidue : Residue closing u (contentOf (chunks u.key) ++ payload)
      (state.nextExpectedSeq + 1) msgs)
    (hquiet : outbox.filter (completes u.key) = [])
    (houtcome : Outcome v (some (.chunk ⟨u.key, state.nextExpectedSeq, false, payload⟩)) v'
      replies) :
    Stage (fun id => collect id
        (some (.chunk ⟨u.key, state.nextExpectedSeq, false, payload⟩)) replies (chunks id))
      closing v' (outbox ++ replies) u msgs := by
  have hfound {state' : FileTransferState} (h : v.transfers.lookup u.key = some state') :
      state' = state := Option.some.inj (h.symm.trans hlive)
  cases houtcome with
  | silent _ _ hdead =>
      have hnone : v.transfers.lookup u.key = none := (hdead _ rfl).1
      rw [hnone] at hlive
      cases hlive
  | failed hlive' hseq =>
      obtain rfl := hfound hlive'
      exact absurd rfl hseq
  | completed _ _ hlast => cases hlast
  | @appended _ state' hlive' =>
      obtain rfl := hfound hlive'
      refine .live (AList.lookup_insert _) ?_ (by rw [List.append_nil, hquiet])
      have hcollect : collect u.key
          (some (.chunk ⟨u.key, state'.nextExpectedSeq, false, payload⟩)) [] (chunks u.key) =
            chunks u.key ++ [⟨u.key, state'.nextExpectedSeq, false, payload⟩] := by
        simp [collect]
      rw [hcollect, contentOf_append]
      exact hresidue

theorem Stage.next {m : UploadMsg} {msgs : List UploadMsg}
    (h : Stage chunks closing v outbox u (m :: msgs)) (htracked : Tracked chunks v)
    (houtcome : Outcome v (some m) v' replies) (hid : m.request.id = u.key) :
    Stage (fun id => collect id (some m.request) replies (chunks id)) closing v'
      (outbox ++ replies) u msgs := by
  cases h with
  | unsent _ _ hmsgs => cases hmsgs
  | aborted _ hmsgs => cases hmsgs
  | delivered _ hmsgs => cases hmsgs
  | @announced size rest hmsgs hresidue hdead hquiet =>
      obtain ⟨rfl, rfl⟩ := List.cons.inj hmsgs
      cases houtcome with
      | silent _ _ hstart => exact absurd rfl ((hstart _ rfl).2 _ _)
      | @refused _ _ reason =>
          exact .refused (List.mem_append_right _ List.mem_cons_self) hresidue.no_start hdead
            (by rw [List.filter_append, hquiet]; rfl)
      | @accepted _ path _ hnew hfree =>
          have hlookup : (v.transfers.insert u.key (freshTransfer path size)).lookup u.key =
              some (freshTransfer path size) := AList.lookup_insert v.transfers
          refine .live hlookup ?_ (by rw [List.filter_append, hquiet]; rfl)
          have hcollect : collect u.key (some (.start u.key))
              [.msg (.fileTransferAccepted u.key path.display)] (chunks u.key) = [] := by
            simp [collect, acceptsId]
          rw [show (UploadMsg.start u.key size).request = .start u.key from rfl, hcollect]
          exact hresidue
  | @live state hlive hresidue hquiet =>
      generalize hcontent : contentOf (chunks u.key) = content at hresidue
      generalize hseq : state.nextExpectedSeq = seq at hresidue
      cases hresidue with
      | finished hended =>
          subst hseq
          exact stage_last htracked hlive hcontent hended hquiet houtcome _
      | aborted hended =>
          cases houtcome with
          | silent _ _ hdead =>
              have hnone : v.transfers.lookup u.key = none := (hdead _ rfl).1
              rw [hnone] at hlive
              cases hlive
          | aborted =>
              exact .aborted hended rfl (AList.lookup_erase _ _)
                (by rw [List.filter_append, hquiet]; rfl)
      | chunk hrest =>
          subst hseq hcontent
          exact stage_chunk hlive hrest hquiet houtcome
  | @refused reason hreason hstart hdead hquiet =>
      have hgone {state : FileTransferState}
          (h : v.transfers.lookup m.request.id = some state) : False := by
        rw [hid, hdead] at h
        cases h
      cases houtcome with
      | silent hlookup _ _ =>
          exact .refused (List.mem_append_left _ hreason)
            (fun m hm => hstart m (List.mem_cons_of_mem _ hm)) ((hlookup _).trans hdead)
            (by rw [List.filter_append, hquiet]; rfl)
      | refused => exact absurd rfl (hstart _ List.mem_cons_self _ _)
      | accepted => exact absurd rfl (hstart _ List.mem_cons_self _ _)
      | aborted hlive => exact (hgone hlive).elim
      | failed hlive => exact (hgone hlive).elim
      | appended hlive => exact (hgone hlive).elim
      | completed hlive => exact (hgone hlive).elim

end

/-! ### Every reachable state -/

/-- What is in flight about the upload with this id. -/
def about (crates : Crates) (id : UInt32) (queue : List Message) : List UploadMsg :=
  (queue.filterMap (said crates)).filter fun m => m.request.id = id

/-- What every reachable state satisfies. -/
structure Inv (crates : Crates) (s : Path) : Prop where
  authenticated : s.pc.st.conn.authenticated = true
  ids : ∀ u ∈ s.uploads, 0 ≤ u.id.toInt ∧ u.id.toInt < s.nextTransferId.toInt
  next : 0 ≤ s.nextTransferId.toInt
  nodup : (s.uploads.map Upload.id).Nodup
  heard : ∀ msg ∈ s.socket.queue,
    IsUpload crates (.inbox (some msg)) ∨ Quiet crates (.inbox (some msg))
  owned : ∀ m ∈ s.socket.queue.filterMap (said crates), ∃ u ∈ s.uploads, u.key = m.request.id
  known : ∀ id state, s.pc.st.conn.fileTransfers.lookup id = some state →
    ∃ u ∈ s.uploads, u.key = id
  reported : ∀ id, s.pc.st.conn.outbox.filter (completes id) ≠ [] →
    ∃ u ∈ s.uploads, u.key = id
  stages : ∃ chunks, Tracked chunks (view s.pc.st) ∧ ∀ u ∈ s.uploads,
    Stage chunks s.socket.closing (view s.pc.st) s.pc.st.conn.outbox u
      (about crates u.key s.socket.queue)

section

variable {crates : Crates} {cfg : Config} {floats : FloatText}
  {encodeToString : ClientMsg → String}

theorem key_inj {u u' : Upload} : u.key = u'.key ↔ u.id = u'.id :=
  ⟨fun h => by simpa [Upload.key] using congrArg UInt32.toInt32 h, congrArg Int32.toUInt32⟩

theorem about_append (id : UInt32) (queue sent : List Message) :
    about crates id (queue ++ sent) = about crates id queue ++ about crates id sent := by
  rw [about, List.filterMap_append, List.filter_append]
  rfl

theorem about_said {msg : Message} {m : UploadMsg} (h : said crates msg = some m)
    (id : UInt32) : about crates id [msg] = if m.request.id = id then [m] else [] := by
  by_cases hid : m.request.id = id <;> simp [about, h, hid]

theorem said_quiet {msg : Message} (h : Quiet crates (.inbox (some msg))) :
    said crates msg = none := by
  rw [← messageOf_hear msg smoothAnswers []]
  exact messageOf_quiet h _ _

theorem about_quiet {msg : Message} (h : Quiet crates (.inbox (some msg))) (id : UInt32)
    (queue : List Message) : about crates id (queue ++ [msg]) = about crates id queue := by
  rw [about_append, about, about, List.filterMap_cons, said_quiet h]
  exact List.append_nil _

theorem quiet_encoded (hfloats : floats.Documented)
    (htexts : ReadsText crates floats encodeToString) {msg : ClientMsg} (h : IsAside msg)
    (hj : (clientMsgToJson floats.floatToString msg).isSome) :
    Quiet crates (.inbox (some (.text (encodeToString msg)))) := by
  obtain ⟨j, hj⟩ := Option.isSome_iff_exists.mp hj
  intro read hread
  rw [htexts _ _ hj] at hread
  exact isAside_of_same h ((clientMsgOfJson_iff hfloats hj).mp hread)

theorem Inv.fresh {s : Path} (h : Inv crates s) {id : UInt32}
    (hid : ∀ u ∈ s.uploads, u.key ≠ id) :
    about crates id s.socket.queue = [] ∧ s.pc.st.conn.fileTransfers.lookup id = none ∧
      s.pc.st.conn.outbox.filter (completes id) = [] := by
  refine ⟨?_, ?_, ?_⟩
  · refine List.filter_eq_nil_iff.mpr fun m hm heq => ?_
    obtain ⟨u, hu, hkey⟩ := h.owned m hm
    exact hid u hu (hkey.trans (of_decide_eq_true heq))
  · rw [Option.eq_none_iff_forall_ne_some]
    intro state hstate
    obtain ⟨u, hu, hkey⟩ := h.known id state hstate
    exact hid u hu hkey
  · by_contra hne
    obtain ⟨u, hu, hkey⟩ := h.reported id hne
    exact hid u hu hkey

theorem toInt_succ {n : Int32} (h0 : 0 ≤ n.toInt) (h : n.toInt < 2 ^ 31 - 1) :
    (n + 1).toInt = n.toInt + 1 := by
  rw [Int32.toInt_add]
  exact Int.bmod_eq_of_le (by simp; omega) (by simp; omega)

theorem Inv.uploadFile (hfloats : floats.Documented)
    (htexts : ReadsText crates floats encodeToString) {s : Path} (h : Inv crates s)
    {name : String} {size : Int64} (content : Bytes)
    (hnext : s.nextTransferId.toInt < 2 ^ 31 - 1) (hsize : 0 ≤ size.toInt) :
    Inv crates (s.uploadFile encodeToString name size content) := by
  obtain ⟨chunks, htracked, hstages⟩ := h.stages
  have hsucc := toInt_succ h.next hnext
  have hold : ∀ u ∈ s.uploads, u.id ≠ s.nextTransferId := by
    intro u hu heq
    have hlt := (h.ids u hu).2
    rw [heq] at hlt
    exact absurd hlt (lt_irrefl _)
  have hnew : ∀ u ∈ s.uploads, u.key ≠ (Upload.start s.nextTransferId content).key :=
    fun u hu heq => hold u hu (key_inj.mp heq)
  obtain ⟨habout, hdead, hquiet⟩ := h.fresh hnew
  have hids : ∀ u ∈ s.uploads ++ [Upload.start s.nextTransferId content],
      0 ≤ u.id.toInt ∧ u.id.toInt < (s.nextTransferId + 1).toInt := by
    intro u hu
    have hnext := h.next
    rcases List.mem_append.mp hu with hu | hu
    · have hbounds := h.ids u hu
      omega
    · rw [List.mem_singleton.mp hu, Upload.start]
      dsimp only
      omega
  have hnodup :
      ((s.uploads ++ [Upload.start s.nextTransferId content]).map Upload.id).Nodup := by
    rw [List.map_append, List.map_singleton, List.nodup_append]
    refine ⟨h.nodup, List.nodup_singleton _, ?_⟩
    rintro a ha b hb rfl
    obtain ⟨u, hu, rfl⟩ := List.mem_map.mp ha
    exact hold u hu (List.mem_singleton.mp hb)
  have hmore {id : UInt32} (hu : ∃ u ∈ s.uploads, u.key = id) :
      ∃ u ∈ s.uploads ++ [Upload.start s.nextTransferId content], u.key = id := by
    obtain ⟨u, hu, hkey⟩ := hu
    exact ⟨u, List.mem_append_left _ hu, hkey⟩
  have hafter : 0 ≤ (s.nextTransferId + 1).toInt := by
    have hnext := h.next
    omega
  have hsaid := said_begin hfloats htexts name h.next hsize
  unfold Path.uploadFile
  rcases send_eq s.socket (.text (encodeToString (.fileTransferBegin s.nextTransferId name size)))
    with ⟨hclosing, hsend⟩ | ⟨-, hsend⟩
  · rw [hsend]
    refine
      { h with
        ids := hids
        next := hafter
        nodup := hnodup
        owned := fun m hm => hmore (h.owned m hm)
        known := fun id state hstate => hmore (h.known id state hstate)
        reported := fun id hid => hmore (h.reported id hid)
        stages := ⟨chunks, htracked, fun u hu => ?_⟩ }
    rcases List.mem_append.mp hu with hu | hu
    · exact hstages u hu
    · rw [List.mem_singleton.mp hu]
      exact .unsent hclosing (by simp [Upload.start]) habout hdead hquiet
  · rw [hsend]
    refine
      { h with
        ids := hids
        next := hafter
        nodup := hnodup
        heard := ?_
        owned := ?_
        known := fun id state hstate => hmore (h.known id state hstate)
        reported := fun id hid => hmore (h.reported id hid)
        stages := ⟨chunks, htracked, fun u hu => ?_⟩ }
    · intro msg hmsg
      rcases List.mem_append.mp hmsg with hmsg | hmsg
      · exact h.heard msg hmsg
      · rw [List.mem_singleton.mp hmsg]
        exact .inl (isUpload_of_said hsaid)
    · intro m hm
      rw [List.filterMap_append, List.filterMap_cons, hsaid] at hm
      rcases List.mem_append.mp hm with hm | hm
      · exact hmore (h.owned m hm)
      · rw [List.mem_singleton.mp hm]
        exact ⟨_, List.mem_append_right _ List.mem_cons_self, rfl⟩
    · have hid : (UploadMsg.start s.nextTransferId.toUInt32 size.toUInt64).request.id =
          (Upload.start s.nextTransferId content).key := rfl
      dsimp only
      rw [about_append, about_said hsaid, hid]
      rcases List.mem_append.mp hu with hu | hu
      · rw [if_neg (hnew u hu).symm, List.append_nil]
        exact hstages u hu
      · rw [List.mem_singleton.mp hu, habout, if_pos rfl]
        exact .announced rfl (.running ⟨by simp [Upload.start], rfl, by simp [Upload.start]⟩)
          hdead hquiet

theorem Inv.cancelUpload {s : Path} (h : Inv crates s) (id : Int32) :
    Inv crates (s.cancelUpload id) := by
  obtain ⟨chunks, htracked, hstages⟩ := h.stages
  let flag : Upload → Upload := fun u => if u.id = id then { u with cancelFlag := true } else u
  have hflag (u : Upload) : flag u = u ∨ flag u = { u with cancelFlag := true } := by
    by_cases hid : u.id = id <;> simp [flag, hid]
  have hid (u : Upload) : (flag u).id = u.id := by
    rcases hflag u with heq | heq <;> rw [heq]
  have hkey (u : Upload) : (flag u).key = u.key := key_inj.mpr (hid u)
  have hmore {id : UInt32} (hu : ∃ u ∈ s.uploads, u.key = id) :
      ∃ u ∈ s.uploads.map flag, u.key = id := by
    obtain ⟨u, hu, rfl⟩ := hu
    exact ⟨flag u, List.mem_map_of_mem hu, hkey u⟩
  refine
    { h with
      ids := ?_
      nodup := ?_
      owned := fun m hm => hmore (h.owned m hm)
      known := fun id state hstate => hmore (h.known id state hstate)
      reported := fun id hid => hmore (h.reported id hid)
      stages := ⟨chunks, htracked, ?_⟩ }
  · intro w hw
    obtain ⟨u, hu, rfl⟩ := List.mem_map.mp hw
    have hbounds := h.ids u hu
    rw [← hid u] at hbounds
    exact hbounds
  · have hsame : (s.uploads.map flag).map Upload.id = s.uploads.map Upload.id := by
      rw [List.map_map]
      exact List.map_congr_left fun u _ => hid u
    exact hsame ▸ h.nodup
  · intro w hw
    obtain ⟨u, hu, rfl⟩ := List.mem_map.mp hw
    have hstage := (hstages u hu).mono (fun hclosed => hclosed) (hflag u)
    rw [← hkey] at hstage
    exact hstage

theorem Stage.thread {chunks : UInt32 → List FileChunk} {v : View} {outbox : List Outgoing}
    {u u' : Upload} {ws ws' : WebSocket} {msgs extra : List UploadMsg} {sent : List Message}
    (h : Stage chunks ws.closing v outbox u msgs) (hadv : Advances crates ws ws' u u')
    (hsent : sent = [] → extra = [])
    (hextra : ∀ m ∈ extra, m.request.id = u.key ∧ ∀ id size, m ≠ .start id size)
    (hclosing : ws.closing = true → sent = [] ∧ u'.phase ≠ .ended false)
    (hnext : ∀ content, Running u content → Residue ws.closing u' content u.seq.toUInt32 extra) :
    Stage chunks ws.closing v outbox u' (msgs ++ extra) := by
  have hkey : u'.key = u.key := key_inj.mpr hadv.id
  cases h with
  | unsent hclosed hended hmsgs hdead hquiet =>
      obtain ⟨hnone, hended⟩ := hclosing hclosed
      exact .unsent hclosed hended (by rw [hmsgs, hsent hnone]; rfl) (hkey ▸ hdead)
        (hkey ▸ hquiet)
  | @announced size rest hmsgs hresidue hdead hquiet =>
      have hmsgs' : msgs ++ extra = .start u'.key size :: (rest ++ extra) := by
        rw [hmsgs, hkey]
        rfl
      refine .announced hmsgs' ?_ (hkey ▸ hdead) (hkey ▸ hquiet)
      exact hresidue.extend hkey hadv.unfinished hnext
  | live hlive hresidue hquiet =>
      refine .live (hkey ▸ hlive) ?_ (hkey ▸ hquiet)
      rw [hkey]
      exact hresidue.extend hkey hadv.unfinished hnext
  | refused hreason hstart hdead hquiet =>
      refine .refused (hkey ▸ hreason) (fun m hm => ?_) (hkey ▸ hdead) (hkey ▸ hquiet)
      rcases List.mem_append.mp hm with hm | hm
      · exact hstart m hm
      · exact (hextra m hm).2
  | aborted hended => exact absurd hended (hadv.unfinished _)
  | delivered hended => exact absurd hended (hadv.unfinished _)

theorem filterMap_of_map {sent : List Message} {extra : List UploadMsg}
    (h : sent.map (said crates) = extra.map some) : sent.filterMap (said crates) = extra := by
  have hboth : (sent.map (said crates)).filterMap id = (extra.map some).filterMap id := by rw [h]
  simpa [List.filterMap_map] using hboth

theorem Inv.thread (hfloats : floats.Documented)
    (htexts : ReadsText crates floats encodeToString) {s : Path} (h : Inv crates s) {i : Nat}
    {event : ThreadEvent} {u u' : Upload} {socket : WebSocket} (hu : s.uploads[i]? = some u)
    (hact : u.act encodeToString s.socket event = some (socket, u')) :
    Inv crates { s with socket, uploads := s.uploads.set i u' } := by
  obtain ⟨chunks, htracked, hstages⟩ := h.stages
  have hmem : u ∈ s.uploads := List.mem_of_getElem? hu
  have hadv := act_advances hfloats htexts (h.ids u hmem).1 hact
  obtain ⟨sent, extra, hqueue, hsaid, hextra, hclosing, hnext⟩ := hadv.sends
  have hextras := filterMap_of_map hsaid
  have hids : (s.uploads.set i u').map Upload.id = s.uploads.map Upload.id := by
    refine List.ext_getElem? fun k => ?_
    rw [List.getElem?_map, List.getElem?_map, List.getElem?_set]
    split
    · next heq =>
        subst heq
        rw [if_pos (List.getElem?_eq_some_iff.mp hu).1, hu]
        exact congrArg some hadv.id
    · rfl
  have hnodup : ((s.uploads.set i u').map Upload.id).Nodup := hids ▸ h.nodup
  have hkey : u'.key = u.key := key_inj.mpr hadv.id
  have hthere : u' ∈ s.uploads.set i u' :=
    List.mem_set (List.getElem?_eq_some_iff.mp hu).1 _
  have hmore {id : UInt32} (hw : ∃ w ∈ s.uploads, w.key = id) :
      ∃ w ∈ s.uploads.set i u', w.key = id := by
    obtain ⟨w, hw, rfl⟩ := hw
    have hid : w.id ∈ (s.uploads.set i u').map Upload.id := by
      rw [hids]
      exact List.mem_map_of_mem hw
    obtain ⟨w', hw', heq⟩ := List.mem_map.mp hid
    exact ⟨w', hw', key_inj.mpr heq⟩
  -- An upload of the new list is the one that stepped or one of the others.
  have hcases {w : Upload} (hw : w ∈ s.uploads.set i u') :
      w = u' ∨ w ∈ s.uploads ∧ w.key ≠ u.key := by
    rcases List.mem_or_eq_of_mem_set hw with hold | rfl
    · by_cases heq : w.key = u.key
      · exact .inl (List.inj_on_of_nodup_map hnodup hw hthere
          (key_inj.mp (heq.trans hkey.symm)))
      · exact .inr ⟨hold, heq⟩
    · exact .inl rfl
  refine
    { h with
      ids := fun w hw => ?_
      nodup := hnodup
      heard := fun msg hmsg => ?_
      owned := fun m hm => hmore ?_
      known := fun id state hstate => hmore (h.known id state hstate)
      reported := fun id hid => hmore (h.reported id hid)
      stages := ⟨chunks, htracked, fun w hw => ?_⟩ }
  · rcases hcases hw with rfl | ⟨hold, -⟩
    · exact hadv.id ▸ h.ids u hmem
    · exact h.ids w hold
  · dsimp only at hmsg
    rw [hqueue] at hmsg
    rcases List.mem_append.mp hmsg with hmsg | hmsg
    · exact h.heard msg hmsg
    · have hsome : said crates msg ∈ extra.map some := hsaid ▸ List.mem_map_of_mem hmsg
      obtain ⟨m, -, hm⟩ := List.mem_map.mp hsome
      exact .inl (isUpload_of_said hm.symm)
  · dsimp only at hm
    rw [hqueue, List.filterMap_append, hextras] at hm
    rcases List.mem_append.mp hm with hm | hm
    · exact h.owned m hm
    · exact ⟨u, hmem, (hextra m hm).1.symm⟩
  · have habout : about crates w.key socket.queue =
        about crates w.key s.socket.queue ++ extra.filter fun m => m.request.id = w.key := by
      rw [hqueue, about_append]
      exact congrArg _ (congrArg _ hextras)
    dsimp only
    rw [habout, hadv.closing]
    rcases hcases hw with rfl | ⟨hold, hne⟩
    · have hall : (extra.filter fun m => m.request.id = w.key) = extra :=
        List.filter_eq_self.mpr fun m hm => by
          rw [hkey]
          exact decide_eq_true (hextra m hm).1
      rw [hall, hkey]
      have hsilent : sent = [] → extra = [] := by
        rintro rfl
        exact hextras.symm
      exact (hstages u hmem).thread hadv hsilent hextra hclosing hnext
    · have hnone : (extra.filter fun m => m.request.id = w.key) = [] :=
        List.filter_eq_nil_iff.mpr fun m hm heq =>
          hne (((hextra m hm).1.symm.trans (of_decide_eq_true heq)).symm)
      rw [hnone, List.append_nil]
      exact hstages w hold

theorem Inv.say {s : Path} (h : Inv crates s) {msg : Message}
    (hmsg : Quiet crates (.inbox (some msg))) :
    Inv crates { s with socket := (s.socket.send msg).2 } := by
  rcases send_eq s.socket msg with ⟨-, hsend⟩ | ⟨-, hsend⟩
  · rw [hsend]
    exact h
  · rw [hsend]
    have hsaid : (s.socket.queue ++ [msg]).filterMap (said crates) =
        s.socket.queue.filterMap (said crates) := by
      rw [List.filterMap_append, List.filterMap_cons, said_quiet hmsg]
      exact List.append_nil _
    obtain ⟨chunks, htracked, hstages⟩ := h.stages
    refine { h with heard := ?_, owned := ?_, stages := ⟨chunks, htracked, fun u hu => ?_⟩ }
    · intro other hother
      rcases List.mem_append.mp hother with hold | hnew
      · exact h.heard other hold
      · rw [List.mem_singleton.mp hnew]
        exact .inr hmsg
    · dsimp only
      rw [hsaid]
      exact h.owned
    · dsimp only
      rw [about_quiet hmsg]
      exact hstages u hu

theorem Inv.closing {s : Path} (h : Inv crates s) :
    Inv crates { s with socket := { s.socket with closing := true } } := by
  obtain ⟨chunks, htracked, hstages⟩ := h.stages
  exact { h with
    stages := ⟨chunks, htracked, fun u hu => (hstages u hu).mono (fun _ => rfl) (.inl rfl)⟩ }

theorem Inv.pc {s : Path} (h : Inv crates s) (taken : List Message) {rest : List Message}
    {pc : Session} {replies : List Outgoing} {message : Option UploadMsg}
    (hqueue : s.socket.queue = taken ++ rest)
    (htaken : taken.filterMap (said crates) = message.toList)
    (houtbox : pc.st.conn.outbox = s.pc.st.conn.outbox ++ replies)
    (hauth : pc.st.conn.authenticated = true)
    (houtcome : (message = none ∧ view pc.st = view s.pc.st ∧
          ∀ out ∈ replies, completedPath out = none) ∨
        Outcome (view s.pc.st) message (view pc.st) replies) :
    Inv crates { s with socket := { s.socket with queue := rest }, pc } := by
  obtain ⟨chunks, htracked, hstages⟩ := h.stages
  have hqueued {msg : Message} (hmsg : msg ∈ rest) : msg ∈ s.socket.queue := by
    rw [hqueue]
    exact List.mem_append_right _ hmsg
  have hsaid : s.socket.queue.filterMap (said crates) =
      message.toList ++ rest.filterMap (said crates) := by
    rw [hqueue, List.filterMap_append, htaken]
  have howner {id : UInt32} (hid : ∃ m, message = some m ∧ m.request.id = id) :
      ∃ u ∈ s.uploads, u.key = id := by
    obtain ⟨m, rfl, rfl⟩ := hid
    exact h.owned m (by rw [hsaid]; exact List.mem_append_left _ List.mem_cons_self)
  have habout (id : UInt32) : about crates id s.socket.queue =
      (message.toList.filter fun m => m.request.id = id) ++ about crates id rest := by
    rw [about, hsaid, List.filter_append]
    rfl
  have howned : ∀ m ∈ rest.filterMap (said crates), ∃ u ∈ s.uploads, u.key = m.request.id :=
    fun m hm => h.owned m (by rw [hsaid]; exact List.mem_append_right _ hm)
  rcases houtcome with ⟨rfl, hview, hreplies⟩ | houtcome
  · refine
      { h with
        authenticated := hauth
        heard := fun msg hmsg => h.heard msg (hqueued hmsg)
        owned := howned
        known := fun id state hstate => ?_
        reported := fun id hid => h.reported id ?_
        stages := ⟨chunks, hview ▸ htracked, fun u hu => ?_⟩ }
    · have htransfers := congrArg View.transfers hview
      exact h.known id state ((congrArg (AList.lookup id) htransfers).symm.trans hstate)
    · dsimp only at hid
      rwa [houtbox, List.filter_append, quiet_replies hreplies, List.append_nil] at hid
    · have hstage := hstages u hu
      rw [habout] at hstage
      dsimp only
      rw [hview, houtbox]
      exact hstage.quiet hreplies
  · refine
      { h with
        authenticated := hauth
        heard := fun msg hmsg => h.heard msg (hqueued hmsg)
        owned := howned
        known := fun id state hstate => ?_
        reported := fun id hid => ?_
        stages := ⟨fun id => collect id (message.map UploadMsg.request) replies (chunks id),
          houtcome.reaction.tracked htracked, fun u hu => ?_⟩ }
    · rcases lookup_known houtcome hstate with hid | ⟨state, hbefore⟩
      · exact howner hid
      · exact h.known id state hbefore
    · by_cases hmessage : ∃ m, message = some m ∧ m.request.id = id
      · exact howner hmessage
      · dsimp only at hid
        rw [houtbox, List.filter_append, completes_other houtcome
          fun m hm heq => hmessage ⟨m, hm, heq⟩, List.append_nil] at hid
        exact h.reported id hid
    · have hstage := hstages u hu
      rw [habout] at hstage
      dsimp only
      rw [houtbox]
      by_cases hmessage : ∃ m, message = some m ∧ m.request.id = u.key
      · obtain ⟨m, rfl, hid⟩ := hmessage
        have hone : ([m].filter fun m => m.request.id = u.key) = [m] := by simp [hid]
        rw [Option.toList_some, hone] at hstage
        exact hstage.next htracked houtcome hid
      · have hother (m : UploadMsg) (hm : message = some m) : m.request.id ≠ u.key :=
          fun heq => hmessage ⟨m, hm, heq⟩
        have hnone : (message.toList.filter fun m => m.request.id = u.key) = [] :=
          List.filter_eq_nil_iff.mpr fun m hm heq =>
            hother m (Option.mem_toList.mp hm) (of_decide_eq_true heq)
        rw [hnone, List.nil_append] at hstage
        exact hstage.other htracked houtcome hother

theorem inv_step (hfloats : floats.Documented)
    (htexts : ReadsText crates floats encodeToString) {s t : Path} {label : Act}
    (h : Inv crates s) (hstep : PathStep crates cfg floats encodeToString s label t) :
    Inv crates t := by
  cases hstep with
  | uploadFile content hnext hsize => exact h.uploadFile hfloats htexts content hnext hsize
  | cancelUpload id => exact h.cancelUpload id
  | thread hu hact => exact h.thread hfloats htexts hu hact
  | say haside hj => exact h.say (quiet_encoded hfloats htexts haside hj)
  | closing => exact h.closing
  | others hpc =>
      obtain ⟨replies, houtbox, hauth, houtcome⟩ :=
        pc_step hpc (.inl trivial) h.authenticated (.inr rfl)
      exact h.pc [] rfl rfl houtbox hauth houtcome
  | packet hpc hrunning =>
      obtain ⟨replies, houtbox, hauth, houtcome⟩ :=
        pc_step hpc (.inr ⟨_, _, _, rfl, trivial⟩) h.authenticated (.inl hrunning)
      exact h.pc [] rfl rfl houtbox hauth houtcome
  | @hear msg rest os trace _ hqueue hsmooth hpc hrunning =>
      have hlabel := (h.heard msg (by rw [hqueue]; exact List.mem_cons_self)).imp
        (fun hup => (⟨hsmooth, hup⟩ : Uploading crates (.taken (.inbox (some msg)) os trace)))
        fun hquiet => (⟨_, _, _, rfl, hquiet⟩ : ∃ event os' trace',
          Label.taken (.inbox (some msg)) os trace = .taken event os' trace' ∧
            Quiet crates event)
      obtain ⟨replies, houtbox, hauth, houtcome⟩ :=
        pc_step hpc hlabel h.authenticated (.inl hrunning)
      rw [messageOf_hear] at houtcome
      refine h.pc [msg] hqueue ?_ houtbox hauth houtcome
      rw [List.filterMap_cons]
      cases said crates msg <;> rfl

theorem inv_init {s : Path} (h : (path crates cfg floats encodeToString).init s) :
    Inv crates s := by
  obtain ⟨hsocket, hnext, huploads, hauth, htransfers, houtbox⟩ := h
  have hnone (id : UInt32) : s.pc.st.conn.fileTransfers.lookup id = none := by
    rw [htransfers]
    rfl
  have hquiet (id : UInt32) : s.pc.st.conn.outbox.filter (completes id) = [] := by
    refine List.filter_eq_nil_iff.mpr fun out hout hreport => ?_
    have hmilestone := houtbox out hout
    unfold completes at hreport
    split at hreport
    · cases hmilestone
    · cases hreport
  refine ⟨hauth, ?_, hnext, ?_, ?_, ?_, ?_, ?_, fun _ => [], ⟨?_, ?_⟩, ?_⟩
  · simp [huploads]
  · simp [huploads]
  · simp [hsocket]
  · simp [hsocket]
  · intro id state hstate
    rw [hnone] at hstate
    cases hstate
  · exact fun id hid => absurd (hquiet id) hid
  · intro id state hstate
    rw [view, hnone] at hstate
    cases hstate
  · intro id id' state state' _ hstate
    rw [view, hnone] at hstate
    cases hstate
  · simp [huploads]

theorem reachable_inv (hfloats : floats.Documented)
    (htexts : ReadsText crates floats encodeToString) {s : Path}
    (hs : (path crates cfg floats encodeToString).Reachable s) : Inv crates s :=
  hs.invariant (fun _ => inv_init) fun _ _ _ _ h hstep => inv_step hfloats htexts h hstep

theorem Stage.reports {chunks : UInt32 → List FileChunk} {closing : Bool} {v : View}
    {outbox : List Outgoing} {u : Upload} {msgs : List UploadMsg}
    (h : Stage chunks closing v outbox u msgs) :
    outbox.filter (completes u.key) = [] ∨
      u.phase = .ended false ∧ ∃ path, v.files path = some u.content ∧
        outbox.filter (completes u.key) =
          [.msg (.fileTransferComplete u.key path.display)] := by
  cases h with
  | unsent _ _ _ _ hquiet => exact .inl hquiet
  | announced _ _ _ hquiet => exact .inl hquiet
  | live _ _ hquiet => exact .inl hquiet
  | refused _ _ _ hquiet => exact .inl hquiet
  | aborted _ _ _ hquiet => exact .inl hquiet
  | delivered hended _ _ hreport hfile => exact .inr ⟨hended, _, hfile, hreport⟩

theorem Stage.settled {chunks : UInt32 → List FileChunk} {v : View} {outbox : List Outgoing}
    {u : Upload} {failed : Bool} (h : Stage chunks false v outbox u [])
    (hended : u.phase = .ended failed) :
    v.transfers.lookup u.key = none ∧ (failed = false →
      outbox.filter (completes u.key) ≠ [] ∨
        ∃ reason, .msg (.fileTransferFailed u.key reason) ∈ outbox) := by
  cases h with
  | unsent hclosing => cases hclosing
  | announced hmsgs => cases hmsgs
  | live _ hresidue =>
      generalize contentOf (chunks u.key) = content at hresidue
      generalize FileTransferState.nextExpectedSeq _ = seq at hresidue
      cases hresidue with
      | running hrunning => exact absurd hended (hrunning.unfinished _)
      | cut hclosing => cases hclosing
  | refused hreason _ hdead => exact ⟨hdead, fun _ => .inr ⟨_, hreason⟩⟩
  | aborted hended' _ hdead =>
      rw [hended'] at hended
      cases hended
      exact ⟨hdead, fun h => by cases h⟩
  | delivered _ _ hdead hreport =>
      refine ⟨hdead, fun _ => .inl ?_⟩
      rw [hreport]
      exact List.cons_ne_nil _ _

/-- Uploads arrive from end to end while the PC's file operations succeed and its loop goes on. In
every reachable state a transfer that the PC has reported complete is an upload whose thread has
sent it to the end, the PC has reported it once, and its file holds exactly what the thread read;
and when the socket is open and has handed everything over, the PC is done with every ended
upload, and has reported each that was sent to the end as complete unless it has refused it. -/
theorem uploads_delivered (hfloats : floats.Documented)
    (htexts : ReadsText crates floats encodeToString) {s : Path}
    (hs : (path crates cfg floats encodeToString).Reachable s) :
    (∀ id dest, .msg (.fileTransferComplete id dest) ∈ s.pc.st.conn.outbox →
      (s.pc.st.conn.outbox.filter (completes id)).length = 1 ∧
        ∃ u ∈ s.uploads, u.key = id ∧ u.phase = .ended false ∧
          ∃ path : PathBuf, path.display = dest ∧ s.pc.st.world.files path = some u.content) ∧
      (s.socket.closing = false → s.socket.queue = [] → ∀ u ∈ s.uploads, ∀ failed,
        u.phase = .ended failed →
          s.pc.st.conn.fileTransfers.lookup u.key = none ∧ (failed = false →
            s.pc.st.conn.outbox.filter (completes u.key) ≠ [] ∨
              ∃ reason, .msg (.fileTransferFailed u.key reason) ∈ s.pc.st.conn.outbox)) := by
  have hinv := reachable_inv hfloats htexts hs
  obtain ⟨chunks, -, hstages⟩ := hinv.stages
  constructor
  · intro id dest hsent
    have hmem : Outgoing.msg (.fileTransferComplete id dest) ∈
        s.pc.st.conn.outbox.filter (completes id) :=
      List.mem_filter.mpr ⟨hsent, decide_eq_true rfl⟩
    obtain ⟨u, hu, rfl⟩ := hinv.reported id (List.ne_nil_of_mem hmem)
    rcases (hstages u hu).reports with hnone | ⟨hended, path, hfile, hreport⟩
    · rw [hnone] at hmem
      cases hmem
    · rw [hreport] at hmem
      have hdest : dest = path.display := by simpa using hmem
      exact ⟨by rw [hreport]; rfl, u, hu, rfl, hended, path, hdest.symm, hfile⟩
  · intro hclosing hqueue u hu failed hended
    have hstage := hstages u hu
    rw [hclosing, hqueue] at hstage
    exact hstage.settled hended

end

/-! ### One upload -/

section

deriving instance Countable for ClientInfo, ClientMsg

theorem exists_texts : ∃ (encodeToString : ClientMsg → String)
    (parse : String → Option Wire.Protocol.ClientMsg), ∀ msg j,
      clientMsgToJson sampleFloats.floatToString msg = some j →
        parse (encodeToString msg) = clientMsgOfJson sampleFloats.readF32 j := by
  obtain ⟨encodeToString, read, hread⟩ := exists_text ClientMsg
  refine ⟨encodeToString, fun text => do
    let msg ← read text
    let j ← clientMsgToJson sampleFloats.floatToString msg
    clientMsgOfJson sampleFloats.readF32 j, fun msg j hj => ?_⟩
  simp only [Option.bind_eq_bind]
  rw [hread, Option.bind_some, hj, Option.bind_some]

def plainCrates : Crates := parsesTo (.fileTransferBegin 1 "a.txt" 2)

/-- The PC after a message, which is this begin if it is a text. -/
def heard (msg : Message) (pc : Session) : Session :=
  undisturbed plainCrates bareConfig (.inbox (some msg)) smoothAnswers pc

def Goes (msg : Message) (pc : Session) : Prop :=
  ((iteration plainCrates bareConfig smoothAnswers (.inbox (some msg))).run pc.st).1 = true

/-- A file of two bytes. The texts are any that can be told apart. -/
theorem uploads_delivered_two_bytes :
    ∃ (s : Path) (path : PathBuf), path.display = "Downloads\\a.txt" ∧
      s.pc.st.world.files path = some [104, 105] := by
  obtain ⟨encodeToString, parse, hparse⟩ := exists_texts
  let crates : Crates := { parsesTo .clipboardGet with parseClientMsg := parse }
  have htexts : ReadsText crates sampleFloats encodeToString := hparse
  have hbegun := parse_begin sampleFloats_documented htexts "a.txt"
    (show 0 ≤ (1 : Int32).toInt by decide) (show 0 ≤ (2 : Int64).toInt by decide)
  let system := path crates bareConfig sampleFloats encodeToString
  have thread {s : Path} {u u' : Upload} {socket : WebSocket} (event : ThreadEvent)
      (hs : system.Reachable s) (hu : s.uploads[0]? = some u)
      (hact : u.act encodeToString s.socket event = some (socket, u')) :
      system.Reachable { s with socket, uploads := s.uploads.set 0 u' } :=
    .step hs (.thread hu hact)
  have hear {s : Path} {msg : Message} {rest : List Message} (msg' : Message) (pc : Session)
      (hs : system.Reachable s) (hqueue : s.socket.queue = msg :: rest) (hpc : s.pc = pc)
      (hiteration : iteration crates bareConfig smoothAnswers (.inbox (some msg)) =
        iteration plainCrates bareConfig smoothAnswers (.inbox (some msg')))
      (hrunning : pc.running = true) (hgoes : Goes msg' pc) :
      system.Reachable
        { s with socket := { s.socket with queue := rest }, pc := heard msg' pc } := by
    subst hpc
    rw [Goes, ← hiteration] at hgoes
    obtain ⟨trace, hstep⟩ : ∃ trace, Server.Loop.Step crates bareConfig s.pc
        (.taken (.inbox (some msg)) smoothAnswers trace) _ :=
      exists_undisturbed hrunning trivial hgoes
    have hsame : undisturbed crates bareConfig (.inbox (some msg)) smoothAnswers s.pc =
        heard msg' s.pc := by
      unfold heard undisturbed
      rw [hiteration]
      rfl
    rw [hsame] at hstep
    exact .step hs (.hear hqueue ⟨⟨_, rfl⟩, fun _ => rfl, rfl, rfl, rfl, fun _ => rfl⟩ hstep rfl)
  have hstart : system.Reachable { pc := uploadStart } :=
    .init ⟨rfl, by decide, rfl, rfl, rfl, by decide⟩
  have hcalled := hstart.step
    (show PathStep crates bareConfig sampleFloats encodeToString _
        (.uploadFile "a.txt" 2 [104, 105]) _ from .uploadFile _ (by decide) (by decide))
  have hopened := thread .opened hcalled rfl rfl
  have hchecked := thread .checked hopened rfl rfl
  have hread := thread (.read 2) hchecked rfl rfl
  have hsent := thread .sent hread rfl rfl
  have hrechecked := thread .checked hsent rfl rfl
  have hatEnd := thread (.read 0) hrechecked rfl rfl
  have hended := thread .sent hatEnd rfl rfl
  let text : Message := .text ""
  let chunk : Message := .binary (buildFileChunkFrame 1 0 false [104, 105])
  let last : Message := .binary (buildFileChunkFrame 1 1 true [])
  have hfirst := hear text uploadStart hended rfl rfl
    (by simp only [iteration, handleEvent, handleInbox, handleText, hbegun]; rfl) rfl rfl
  have hsecond := hear chunk (heard text uploadStart) hfirst rfl rfl rfl rfl
    (by unfold Goes; decide +kernel)
  have hthird := hear last (heard chunk (heard text uploadStart)) hsecond rfl rfl rfl rfl
    (by unfold Goes; decide +kernel)
  obtain ⟨-, u, hu, -, -, path, hdest, hfile⟩ :=
    (uploads_delivered sampleFloats_documented htexts hthird).1 1 "Downloads\\a.txt"
      (by
        show Outgoing.msg (.fileTransferComplete 1 "Downloads\\a.txt") ∈
          (heard last (heard chunk (heard text uploadStart))).st.conn.outbox
        decide +kernel)
  rw [List.mem_singleton.mp hu] at hfile
  exact ⟨_, path, hdest, hfile⟩

end

end RemoteControl.Phone.Uploads
