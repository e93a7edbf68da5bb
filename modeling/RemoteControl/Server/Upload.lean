import RemoteControl.Server.Frame

/-!
Uploads from the phone: what one frame does to the transfers of a connection, and that a
completed transfer holds exactly the chunks received since it was accepted.
-/

namespace RemoteControl.Server.Upload

open RemoteControl.Foundations.ByteStrings
open RemoteControl.Foundations.Interference
open RemoteControl.Foundations.Interference.Task
open RemoteControl.Foundations.Transition
open RemoteControl.Wire.Protocol
open RemoteControl.Server.Stores
open RemoteControl.Server.Connection
open RemoteControl.Server.FileHandlers
open RemoteControl.Server.Loop
open RemoteControl.Server.Frame

/-! ### Uploading -/

/-- Every file operation of the iteration succeeds. -/
structure Smooth (os : Answers) : Prop where
  downloadsDir : ∃ dir, os.downloadsDir = .ok dir
  metadataFault : ∀ path, os.metadataFault path = false
  createFault : os.createFault = none
  writeFault : os.writeFault = none
  flushFault : os.flushFault = none
  removeFault : ∀ path, os.removeFault path = false

/-- The event is a begin or an abort of an upload, or a binary frame. -/
def IsUpload (crates : Crates) : Event → Prop
  | .inbox (some (.binary _)) => True
  | .inbox (some (.text text)) =>
      (∃ id name size, crates.parseClientMsg text = some (.fileTransferBegin id name size)) ∨
        ∃ id reason, crates.parseClientMsg text = some (.fileTransferAbort id reason)
  | _ => False

def Uploading (crates : Crates) : Label → Prop
  | .others => True
  | .taken event os _ => Smooth os ∧ IsUpload crates event

/-- The chunk that a FILE frame carries. -/
def fileChunk (bytes : Bytes) : Option FileChunk :=
  match peekFrameHeader bytes with
  | some (frameType, _) => if frameType = FrameType.file then parseFileChunk bytes else none
  | none => none

/-- What a message asks of the uploads. -/
inductive Request where
  | start (id : UInt32)
  | abort (id : UInt32)
  | chunk (chunk : FileChunk)

def Request.id : Request → UInt32
  | .start id | .abort id => id
  | .chunk c => c.id

def requestOf (crates : Crates) : Label → Option Request
  | .taken (.inbox (some (.binary bytes))) _ _ => (fileChunk bytes).map .chunk
  | .taken (.inbox (some (.text text))) _ _ =>
      match crates.parseClientMsg text with
      | some (.fileTransferBegin id _ _) => some (.start id)
      | some (.fileTransferAbort id _) => some (.abort id)
      | _ => none
  | _ => none

/-- The transfers of a connection and the files they write to. -/
structure View where
  transfers : HashMap UInt32 FileTransferState
  files : PathBuf → Option Bytes

def view (s : St) : View :=
  ⟨s.conn.fileTransfers, s.world.files⟩

/-- `true` for the two replies that start and end a transfer. -/
def isMilestone : Outgoing → Bool
  | .msg (.fileTransferAccepted _ _) | .msg (.fileTransferComplete _ _) => true
  | _ => false

/-- A transfer at the moment it is accepted. -/
def freshTransfer (path : PathBuf) (size : UInt64) : FileTransferState where
  destPath := path
  file := { path, position := 0 }
  expectedSize := size
  bytesWritten := 0
  nextExpectedSeq := 0

/-- A transfer after one more chunk. -/
def advance (state : FileTransferState) (chunk : FileChunk) : FileTransferState :=
  { state with
    file := { state.file with position := state.file.position + chunk.payload.length }
    bytesWritten := state.bytesWritten + chunk.payload.length
    nextExpectedSeq := state.nextExpectedSeq + 1 }

/-- The files after a chunk is written at the handle's offset. -/
def written (state : FileTransferState) (chunk : FileChunk)
    (files : PathBuf → Option Bytes) : PathBuf → Option Bytes :=
  match files state.file.path with
  | some content =>
      Function.update files state.file.path
        (some (writeAt content state.file.position chunk.payload))
  | none => files

/-- What handling one message can do to the uploads, and what it replies. -/
inductive Reaction (v : View) : Option Request → View → List Outgoing → Prop
  | ignored {request : Option Request} {v' : View} {replies : List Outgoing} :
      (∀ id, v'.transfers.lookup id = v.transfers.lookup id) → v'.files = v.files →
      (∀ out ∈ replies, isMilestone out = false) →
      (∀ chunk, request = some (.chunk chunk) → v.transfers.lookup chunk.id = none) →
      Reaction v request v' replies
  | accepted {id : UInt32} {path : PathBuf} {size : UInt64} :
      v.transfers.lookup id = none → v.files path = none →
      Reaction v (some (.start id))
        ⟨v.transfers.insert id (freshTransfer path size),
          Function.update v.files path (some [])⟩
        [.msg (.fileTransferAccepted id path.display)]
  | dropped {request : Request} {state : FileTransferState} {replies : List Outgoing} :
      v.transfers.lookup request.id = some state →
      (∀ out ∈ replies, isMilestone out = false) →
      Reaction v (some request)
        ⟨v.transfers.erase request.id, Function.update v.files state.destPath none⟩ replies
  | appended {chunk : FileChunk} {state : FileTransferState} :
      v.transfers.lookup chunk.id = some state → chunk.seq = state.nextExpectedSeq →
      chunk.isLast = false →
      Reaction v (some (.chunk chunk))
        ⟨(v.transfers.erase chunk.id).insert chunk.id (advance state chunk),
          written state chunk v.files⟩ []
  | completed {chunk : FileChunk} {state : FileTransferState} :
      v.transfers.lookup chunk.id = some state → chunk.seq = state.nextExpectedSeq →
      chunk.isLast = true →
      Reaction v (some (.chunk chunk))
        ⟨v.transfers.erase chunk.id, written state chunk v.files⟩
        [.msg (.fileTransferComplete chunk.id state.destPath.display)]

/-- A message about an upload. -/
inductive UploadMsg where
  | start (id : UInt32) (size : UInt64)
  | abort (id : UInt32)
  | chunk (chunk : FileChunk)

def UploadMsg.request : UploadMsg → Request
  | .start id _ => .start id
  | .abort id => .abort id
  | .chunk c => .chunk c

def messageOf (crates : Crates) : Label → Option UploadMsg
  | .taken (.inbox (some (.binary bytes))) _ _ => (fileChunk bytes).map .chunk
  | .taken (.inbox (some (.text text))) _ _ =>
      match crates.parseClientMsg text with
      | some (.fileTransferBegin id _ size) => some (.start id size)
      | some (.fileTransferAbort id _) => some (.abort id)
      | _ => none
  | _ => none

/-- What handling one message does to the uploads and what it replies, one way of ending at a
time. A reaction forgets which one it was. -/
inductive Outcome (v : View) : Option UploadMsg → View → List Outgoing → Prop
  | silent {message : Option UploadMsg} {v' : View} :
      (∀ id, v'.transfers.lookup id = v.transfers.lookup id) → v'.files = v.files →
      (∀ m, message = some m → v.transfers.lookup m.request.id = none ∧
        ∀ id size, m ≠ .start id size) →
      Outcome v message v' []
  | refused {id : UInt32} {size : UInt64} {reason : String} :
      Outcome v (some (.start id size)) v [.msg (.fileTransferFailed id reason)]
  | accepted {id : UInt32} {path : PathBuf} {size : UInt64} :
      v.transfers.lookup id = none → v.files path = none → size.toNat ≤ maxFileSize →
      Outcome v (some (.start id size))
        ⟨v.transfers.insert id (freshTransfer path size),
          Function.update v.files path (some [])⟩
        [.msg (.fileTransferAccepted id path.display)]
  | aborted {id : UInt32} {state : FileTransferState} :
      v.transfers.lookup id = some state →
      Outcome v (some (.abort id))
        ⟨v.transfers.erase id, Function.update v.files state.destPath none⟩ []
  | failed {chunk : FileChunk} {state : FileTransferState} {reason : String} :
      v.transfers.lookup chunk.id = some state → chunk.seq ≠ state.nextExpectedSeq →
      Outcome v (some (.chunk chunk))
        ⟨v.transfers.erase chunk.id, Function.update v.files state.destPath none⟩
        [.msg (.fileTransferFailed chunk.id reason)]
  | appended {chunk : FileChunk} {state : FileTransferState} :
      v.transfers.lookup chunk.id = some state → chunk.seq = state.nextExpectedSeq →
      chunk.isLast = false →
      Outcome v (some (.chunk chunk))
        ⟨(v.transfers.erase chunk.id).insert chunk.id (advance state chunk),
          written state chunk v.files⟩ []
  | completed {chunk : FileChunk} {state : FileTransferState} :
      v.transfers.lookup chunk.id = some state → chunk.seq = state.nextExpectedSeq →
      chunk.isLast = true →
      Outcome v (some (.chunk chunk))
        ⟨v.transfers.erase chunk.id, written state chunk v.files⟩
        [.msg (.fileTransferComplete chunk.id state.destPath.display)]

theorem requestOf_eq (crates : Crates) (label : Label) :
    requestOf crates label = (messageOf crates label).map UploadMsg.request := by
  unfold requestOf messageOf
  split
  · rw [Option.map_map]
    rfl
  · split <;> rfl
  · rfl

theorem Outcome.reaction {v v' : View} {message : Option UploadMsg} {replies : List Outgoing}
    (h : Outcome v message v' replies) :
    Reaction v (message.map UploadMsg.request) v' replies := by
  cases h with
  | silent htransfers hfiles hunknown =>
      refine .ignored htransfers hfiles (by simp) fun chunk hchunk => ?_
      obtain ⟨m, hm, hrequest⟩ := Option.map_eq_some_iff.mp hchunk
      have hnone := (hunknown m hm).1
      rwa [hrequest] at hnone
  | refused =>
      exact .ignored (fun _ => rfl) rfl (by simp [isMilestone]) (by simp [UploadMsg.request])
  | accepted hnew hfree => exact .accepted hnew hfree
  | @aborted id _ hlive => exact @Reaction.dropped v (.abort id) _ [] hlive (by simp)
  | @failed chunk _ _ hlive =>
      exact @Reaction.dropped v (.chunk chunk) _ _ hlive (by simp [isMilestone])
  | appended hlive hseq hlast => exact .appended hlive hseq hlast
  | completed hlive hseq hlast => exact .completed hlive hseq hlast

/-! ### Forward rules on views -/

/-- An authenticated connection with these uploads and this outbox. -/
def Shows (v : View) (outbox : List Outgoing) (s : St) : Prop :=
  s.conn.authenticated = true ∧ view s = v ∧ s.conn.outbox = outbox

variable {v v' : View} {outbox outbox' : List Outgoing}

theorem shows_stable : Stable Others (Shows v outbox) := by
  intro s s' hs hothers
  have hconn := others_conn hothers
  have hfiles := (others_frame hothers).1
  rw [Shows, view, hconn, hfiles]
  exact hs

theorem shows_read {α : Type} {k : Conn → Handler α} {Q : α → St → Prop}
    (h : ∀ c : Conn, c.authenticated = true → c.fileTransfers = v.transfers →
      Triple Others (Shows v outbox) (k c) Q) :
    Triple Others (Shows v outbox) (.read St.conn >>= k) Q := by
  refine Triple.bind
    (M := fun c s => c.authenticated = true ∧ c.fileTransfers = v.transfers ∧ Shows v outbox s)
    (triple_read shows_stable ?_) fun c => ?_
  · rintro s ⟨hauth, rfl, hs⟩
    exact ⟨hauth, rfl, hauth, rfl, hs⟩
  · rintro s trace a s' ⟨hauth, htransfers, hs⟩ hexec
    exact h c hauth htransfers hs hexec

theorem shows_modify {α : Type} {f : St → St} {k : PUnit → Handler α} {Q : α → St → Prop}
    (hf : ∀ s, Shows v outbox s → Shows v' outbox' (f s))
    (hk : Triple Others (Shows v' outbox') (k PUnit.unit) Q) :
    Triple Others (Shows v outbox) (.modify f >>= k) Q :=
  Triple.bind (M := fun _ => Shows v' outbox') (triple_modify shows_stable hf) fun _ => hk

theorem shows_last {f : St → St} (hf : ∀ s, Shows v outbox s → Shows v' outbox' (f s)) :
    Triple Others (Shows v outbox) (.modify f : Handler PUnit) fun _ => Shows v' outbox' :=
  triple_modify shows_stable hf

theorem shows_takeTransfer {α : Type} {id : UInt32}
    {k : Option FileTransferState → Handler α} {Q : α → St → Prop}
    (h : Triple Others (Shows ⟨v.transfers.erase id, v.files⟩ outbox)
      (k (v.transfers.lookup id)) Q) :
    Triple Others (Shows v outbox) (takeTransfer id >>= k) Q := by
  refine Triple.bind
    (M := fun found s => found = v.transfers.lookup id ∧
      Shows ⟨v.transfers.erase id, v.files⟩ outbox s)
    (triple_critical shows_stable ?_) fun found => ?_
  · rintro s ⟨hauth, rfl, hs⟩
    exact ⟨rfl, hauth, rfl, hs⟩
  · rintro s trace a s' ⟨rfl, hs⟩ hexec
    exact h hs hexec

theorem push_shows (out : Outgoing) :
    Triple Others (Shows v outbox) (push out) fun _ => Shows v (outbox ++ [out]) := by
  refine shows_last ?_
  rintro s ⟨hauth, hview, houtbox⟩
  exact ⟨hauth, hview, congrArg (· ++ [out]) houtbox⟩

theorem onFiles_shows (f : (PathBuf → Option Bytes) → PathBuf → Option Bytes)
    (effect : Effect) :
    Triple Others (Shows v outbox) (onFiles f effect)
      fun _ => Shows ⟨v.transfers, f v.files⟩ outbox := by
  refine shows_last ?_
  rintro s ⟨hauth, rfl, houtbox⟩
  exact ⟨hauth, rfl, houtbox⟩

theorem insertTransfer_shows (id : UInt32) (state : FileTransferState) :
    Triple Others (Shows v outbox) (insertTransfer id state)
      fun _ => Shows ⟨v.transfers.insert id state, v.files⟩ outbox := by
  refine shows_last ?_
  rintro s ⟨hauth, rfl, houtbox⟩
  exact ⟨hauth, rfl, houtbox⟩

/-- Since the uploads were `v₀`, an outcome of the message. -/
def Concluded (v₀ : View) (outbox₀ : List Outgoing) (message : Option UploadMsg) (s : St) :
    Prop :=
  ∃ v replies, Shows v (outbox₀ ++ replies) s ∧ Outcome v₀ message v replies

theorem concluded {α : Type} {t : Handler α} {P : St → Prop} {v₀ : View}
    {outbox₀ replies : List Outgoing} {message : Option UploadMsg}
    (h : Triple Others P t fun _ => Shows v (outbox₀ ++ replies))
    (houtcome : Outcome v₀ message v replies) :
    Triple Others P t fun _ => Concluded v₀ outbox₀ message :=
  h.consequence (fun _ hs => hs) fun _ _ hs => ⟨v, replies, hs, houtcome⟩

theorem unreplied {α : Type} {t : Handler α} {P : St → Prop} {v₀ : View}
    {outbox₀ : List Outgoing} {message : Option UploadMsg}
    (h : Triple Others P t fun _ => Shows v outbox₀) (houtcome : Outcome v₀ message v []) :
    Triple Others P t fun _ => Concluded v₀ outbox₀ message := by
  refine concluded ?_ houtcome
  rw [List.append_nil]
  exact h

/-! ### Begin and abort -/

theorem metadataIsErr_shows {os : Answers} (hos : Smooth os) (path : PathBuf) :
    Triple Others (Shows v outbox) (metadataIsErr os path)
      fun isErr s => isErr = (v.files path).isNone ∧ Shows v outbox s := by
  refine triple_read shows_stable ?_
  rintro s ⟨hauth, rfl, hs⟩
  simp only [hos.metadataFault, Bool.or_false]
  exact ⟨rfl, hauth, rfl, hs⟩

theorem probeCandidates_shows {os : Answers} (hos : Smooth os) (dir : PathBuf)
    (name stem ext : String) (ns : List Nat) :
    Triple Others (Shows v outbox) (probeCandidates os dir name stem ext ns)
      fun result s =>
        (∀ path, result = .ok path → v.files path = none) ∧ Shows v outbox s := by
  induction ns with
  | nil => exact triple_pure fun s hs => ⟨by simp, hs⟩
  | cons n rest ih =>
      refine (metadataIsErr_shows hos _).bind fun isErr => ?_
      split
      · refine triple_pure ?_
        rintro s ⟨hfree, hs⟩
        refine ⟨fun path hpath => ?_, hs⟩
        cases hpath
        simp_all
      · exact ih.consequence (fun s hs => hs.2) fun _ _ h => h

theorem uniqueDestPath_shows {os : Answers} (hos : Smooth os) (dir : PathBuf)
    (name : String) :
    Triple Others (Shows v outbox) (uniqueDestPath os dir name)
      fun result s =>
        (∀ path, result = .ok path → v.files path = none) ∧ Shows v outbox s := by
  refine (metadataIsErr_shows hos _).bind fun isErr => ?_
  split
  · refine triple_pure ?_
    rintro s ⟨hfree, hs⟩
    refine ⟨fun path hpath => ?_, hs⟩
    cases hpath
    simp_all
  · exact (probeCandidates_shows hos ..).consequence (fun s hs => hs.2) fun _ _ h => h

theorem failTransfer_refused {id : UInt32} {size : UInt64} (reason : String) :
    Triple Others (Shows v outbox) (failTransfer id reason)
      fun _ => Concluded v outbox (some (.start id size)) :=
  concluded (push_shows _) .refused

theorem handleFileBegin_concludes {os : Answers} (hos : Smooth os) (id : UInt32) (name : String)
    (size : UInt64) :
    Triple Others (Shows v outbox) (handleFileBegin os id name size)
      fun _ => Concluded v outbox (some (.start id size)) := by
  obtain ⟨dir, hdir⟩ := hos.downloadsDir
  refine shows_read fun c _ htransfers => ?_
  rw [htransfers]
  split
  · exact failTransfer_refused _
  rename_i hnew
  split
  · exact failTransfer_refused _
  rename_i hsize
  have hcreateDir (s : St) (hs : Shows v outbox s) : Shows v outbox
      { s with conn := { s.conn with effects := s.conn.effects ++ [.createDir] } } := hs
  refine shows_modify hcreateDir ?_
  rw [hdir]
  refine (uniqueDestPath_shows hos _ _).bind fun result => ?_
  rcases result with e | path
  · exact (failTransfer_refused _).consequence (fun s hs => hs.2) fun _ _ h => h
  refine triple_fact fun hfree => ?_
  refine Triple.bind (onFiles_shows _ _) fun _ => ?_
  simp only [hos.createFault, Option.isSome_none]
  refine Triple.bind (insertTransfer_shows _ _) fun _ => concluded (push_shows _) ?_
  exact .accepted (by simpa using hnew) (hfree path rfl) (Nat.le_of_not_gt hsize)

theorem removeFile_shows {os : Answers} (hos : Smooth os) (path : PathBuf) :
    Triple Others (Shows v outbox) (removeFile os path)
      fun _ => Shows ⟨v.transfers, Function.update v.files path none⟩ outbox := by
  unfold removeFile
  simp only [hos.removeFault]
  exact onFiles_shows _ _

theorem lookup_erase_unknown {transfers : HashMap UInt32 FileTransferState} {id : UInt32}
    (h : transfers.lookup id = none) (other : UInt32) :
    (transfers.erase id).lookup other = transfers.lookup other := by
  rcases eq_or_ne other id with rfl | hne
  · rw [AList.lookup_erase, h]
  · exact AList.lookup_erase_ne hne

theorem handleFileAbort_concludes {os : Answers} (hos : Smooth os) (id : UInt32) :
    Triple Others (Shows v outbox) (handleFileAbort os id)
      fun _ => Concluded v outbox (some (.abort id)) := by
  refine shows_takeTransfer ?_
  rcases hlookup : v.transfers.lookup id with _ | state
  · refine unreplied (triple_pure fun _ hs => hs) (.silent (lookup_erase_unknown hlookup) rfl ?_)
    rintro m ⟨⟩
    exact ⟨hlookup, by simp⟩
  · exact unreplied (removeFile_shows hos _) (.aborted hlookup)

/-! ### Chunks -/

theorem failChunk_concludes {os : Answers} (hos : Smooth os) {chunk : FileChunk}
    {state : FileTransferState} (hlookup : v.transfers.lookup chunk.id = some state)
    (hseq : chunk.seq ≠ state.nextExpectedSeq) (reason : String) :
    Triple Others (Shows ⟨v.transfers.erase chunk.id, v.files⟩ outbox)
      (failChunk os chunk.id state.destPath reason)
      fun _ => Concluded v outbox (some (.chunk chunk)) :=
  Triple.bind (removeFile_shows hos _) fun _ => concluded (push_shows _) (.failed hlookup hseq)

theorem writeAll_shows {os : Answers} (hos : Smooth os) (state : FileTransferState)
    (chunk : FileChunk) :
    Triple Others (Shows v outbox) (writeAll os state.file chunk.payload)
      fun _ => Shows ⟨v.transfers, written state chunk v.files⟩ outbox := by
  unfold writeAll
  simp only [hos.writeFault]
  exact onFiles_shows _ _

theorem handleFileChunk_concludes {os : Answers} (hos : Smooth os) (bytes : Bytes) :
    Triple Others (Shows v outbox) (handleFileChunk os bytes)
      fun _ => Concluded v outbox ((parseFileChunk bytes).map .chunk) := by
  unfold handleFileChunk
  rcases hparse : parseFileChunk bytes with _ | chunk
  · exact unreplied (triple_pure fun _ hs => hs) (.silent (fun _ => rfl) rfl (by simp))
  refine shows_takeTransfer ?_
  rcases hlookup : v.transfers.lookup chunk.id with _ | state
  · refine unreplied (triple_pure fun _ hs => hs) (.silent (lookup_erase_unknown hlookup) rfl ?_)
    rintro m ⟨⟩
    exact ⟨hlookup, by simp⟩
  dsimp only
  split
  · rename_i hseq
    exact failChunk_concludes hos hlookup hseq _
  rename_i hseq
  rw [ne_eq, not_not] at hseq
  refine Triple.bind (writeAll_shows hos _ _) fun _ => ?_
  simp only [hos.writeFault]
  split
  · rename_i hlast
    exact concluded (push_shows _) (.completed hlookup hseq hlast)
  · rename_i hlast
    exact unreplied (insertTransfer_shows _ _)
      (.appended hlookup hseq (by simpa using hlast))

/-! ### One iteration -/

theorem registerBridgeOnce_shows :
    Triple Others (Shows v outbox) registerBridgeOnce fun _ => Shows v outbox := by
  refine shows_read fun c _ _ => ?_
  split
  · refine Triple.bind (M := fun _ => Shows v outbox)
      (triple_critical shows_stable fun s hs => hs) fun instanceId => ?_
    exact shows_last fun s hs => hs
  · exact triple_pure fun _ hs => hs

theorem handleBinary_concludes {os : Answers} (hos : Smooth os) (bytes : Bytes) :
    Triple Others (Shows v outbox) (handleBinary os bytes)
      fun flow s => flow = .fallThrough ∧ Concluded v outbox ((fileChunk bytes).map .chunk) s := by
  have hskip (h : fileChunk bytes = none) :
      Triple Others (Shows v outbox) (pure Flow.fallThrough)
        fun flow s =>
          flow = .fallThrough ∧ Concluded v outbox ((fileChunk bytes).map .chunk) s := by
    refine triple_pure fun s hs => ⟨rfl, v, [], by simpa using hs, ?_⟩
    exact .silent (fun _ => rfl) rfl (by simp [h])
  refine shows_read fun c hauth _ => ?_
  rw [hauth]
  rcases hpeek : peekFrameHeader bytes with _ | ⟨frameType, flags⟩
  · exact hskip (by simp [fileChunk, hpeek])
  · by_cases htype : frameType = FrameType.file
    · have hchunk : fileChunk bytes = parseFileChunk bytes := by simp [fileChunk, hpeek, htype]
      simp only [htype, if_true, hchunk]
      exact (handleFileChunk_concludes hos bytes).bind fun _ => triple_pure fun _ hs => ⟨rfl, hs⟩
    · simp only [htype, if_false]
      exact hskip (by simp [fileChunk, hpeek, htype])

theorem handleEvent_concludes {crates : Crates} {cfg : Config} {os : Answers} {event : Event}
    (hos : Smooth os) (hupload : IsUpload crates event) (trace : List (St × St)) :
    Triple Others (Shows v outbox) (handleEvent crates cfg os event)
      fun flow s => flow = .fallThrough ∧
        Concluded v outbox (messageOf crates (.taken event os trace)) s := by
  unfold IsUpload at hupload
  split at hupload
  · exact handleBinary_concludes hos _
  · have hreturn (message : Option UploadMsg) (_ : PUnit) :
        Triple Others (Concluded v outbox message) (pure Flow.fallThrough)
          fun flow s => flow = .fallThrough ∧ Concluded v outbox message s :=
      triple_pure fun _ hs => ⟨rfl, hs⟩
    rcases hupload with ⟨id, name, size, hparse⟩ | ⟨id, reason, hparse⟩
    · simp only [handleEvent, handleInbox, handleText, hparse, messageOf]
      refine shows_read fun c hauth _ => ?_
      rw [hauth]
      exact (handleFileBegin_concludes hos id name size).bind (hreturn _)
    · simp only [handleEvent, handleInbox, handleText, hparse, messageOf]
      exact (handleFileAbort_concludes hos id).bind (hreturn _)
  · contradiction

theorem iteration_concludes {crates : Crates} {cfg : Config} {os : Answers} {event : Event}
    (hos : Smooth os) (hupload : IsUpload crates event) (trace : List (St × St)) :
    Triple Others (Shows v outbox) (iteration crates cfg os event)
      fun cont s =>
        cont = true ∧ Concluded v outbox (messageOf crates (.taken event os trace)) s := by
  refine (handleEvent_concludes hos hupload trace).bind fun flow => triple_fact ?_
  rintro rfl s found cont s' ⟨v', replies, hshows, houtcome⟩ hexec
  refine Triple.bind (Q := fun cont s =>
      cont = true ∧ Concluded v outbox (messageOf crates (.taken event os trace)) s)
    (M := fun _ => Shows v' (outbox ++ replies)) registerBridgeOnce_shows
    (fun _ => triple_pure fun _ hs => ⟨rfl, v', replies, hs, houtcome⟩) hshows hexec

theorem step_outcome {crates : Crates} {cfg : Config} {s s' : Session} {label : Label}
    (hstep : Step crates cfg s label s') (hlabel : Uploading crates label)
    (hauth : s.st.conn.authenticated = true) :
    ∃ replies, s'.st.conn.outbox = s.st.conn.outbox ++ replies ∧
      Outcome (view s.st) (messageOf crates label) (view s'.st) replies := by
  have hshows : Shows (view s.st) s.st.conn.outbox s.st := ⟨hauth, rfl, rfl⟩
  cases hstep with
  | others hothers =>
      obtain ⟨-, hview, houtbox⟩ := shows_stable hshows hothers
      refine ⟨[], by simpa using houtbox, .silent ?_ ?_ (by simp [messageOf])⟩
      · intro id
        rw [← hview]
      · rw [← hview]
  | @again _ _ trace _ _ _ hiter =>
      obtain ⟨-, v', replies, ⟨-, rfl, houtbox⟩, houtcome⟩ :=
        iteration_concludes hlabel.1 hlabel.2 trace hshows hiter
      exact ⟨replies, houtbox, houtcome⟩
  | @finish _ _ trace _ _ _ _ _ hiter =>
      have hcont := (iteration_concludes hlabel.1 hlabel.2 trace hshows hiter).1
      contradiction

/-! ### What a live transfer holds -/

def acceptsId (id : UInt32) : Outgoing → Bool
  | .msg (.fileTransferAccepted accepted _) => accepted = id
  | _ => false

/-- The chunks received for `id` since it was last accepted, after one more message. -/
def collect (id : UInt32) (request : Option Request) (replies : List Outgoing)
    (chunks : List FileChunk) : List FileChunk :=
  if replies.any (acceptsId id) then []
  else
    match request with
    | some (.chunk chunk) => if chunk.id = id then chunks ++ [chunk] else chunks
    | _ => chunks

def Concerns (id : UInt32) (request : Option Request) : Prop :=
  ∃ r ∈ request, r.id = id

def contentOf (chunks : List FileChunk) : Bytes :=
  chunks.flatMap FileChunk.payload

theorem contentOf_append (chunks : List FileChunk) (chunk : FileChunk) :
    contentOf (chunks ++ [chunk]) = contentOf chunks ++ chunk.payload := by
  simp [contentOf]

/-- The chunks carry the sequence numbers from 0 on, modulo the width of the field. -/
def Numbered (chunks : List FileChunk) : Prop :=
  ∀ i chunk, chunks[i]? = some chunk → chunk.seq = UInt32.ofNat i

theorem numbered_append {chunks : List FileChunk} {chunk : FileChunk} (h : Numbered chunks)
    (hseq : chunk.seq = UInt32.ofNat chunks.length) : Numbered (chunks ++ [chunk]) := by
  intro i other hi
  rcases Nat.lt_or_ge i chunks.length with hlt | hge
  · rw [List.getElem?_append_left hlt] at hi
    exact h i other hi
  · rw [List.getElem?_append_right hge, List.getElem?_singleton] at hi
    split at hi
    · rename_i hzero
      cases hi
      rw [hseq, show i = chunks.length by omega]
    · cases hi

/-- A transfer in progress and its file hold exactly these chunks. -/
structure Holds (state : FileTransferState) (chunks : List FileChunk)
    (files : PathBuf → Option Bytes) : Prop where
  path : state.file.path = state.destPath
  content : files state.destPath = some (contentOf chunks)
  position : state.file.position = (contentOf chunks).length
  nextExpectedSeq : state.nextExpectedSeq = UInt32.ofNat chunks.length
  numbered : Numbered chunks
  unfinished : ∀ chunk ∈ chunks, chunk.isLast = false

theorem Holds.written {state : FileTransferState} {chunks : List FileChunk}
    {files : PathBuf → Option Bytes} (h : Holds state chunks files) (chunk : FileChunk) :
    written state chunk files =
      Function.update files state.destPath (some (contentOf (chunks ++ [chunk]))) := by
  rw [Upload.written, h.path, h.content, h.position, contentOf_append]
  dsimp only
  rw [writeAt_end]

/-- The uploads hold the chunks collected for each live transfer, each in a file of its
own. -/
structure Tracked (chunks : UInt32 → List FileChunk) (v : View) : Prop where
  holds : ∀ id state, v.transfers.lookup id = some state → Holds state (chunks id) v.files
  distinct : ∀ id id' state state', id ≠ id' → v.transfers.lookup id = some state →
    v.transfers.lookup id' = some state' → state.destPath ≠ state'.destPath

theorem Reaction.frame {chunks : UInt32 → List FileChunk} {request : Option Request}
    {replies : List Outgoing} (h : Reaction v request v' replies) (htracked : Tracked chunks v)
    {id : UInt32} {state : FileTransferState} (hid : ¬Concerns id request)
    (hlookup : v.transfers.lookup id = some state) :
    v'.transfers.lookup id = some state ∧ v'.files state.destPath = v.files state.destPath := by
  have hother {r : Request} (hr : request = some r) : id ≠ r.id :=
    fun heq => hid ⟨r, hr, heq.symm⟩
  cases h with
  | ignored htransfers hfiles => exact ⟨(htransfers id).trans hlookup, by rw [hfiles]⟩
  | @accepted id' path size hnew hfree =>
      have hne : id ≠ id' := hother rfl
      refine ⟨(AList.lookup_insert_ne hne).trans hlookup, Function.update_of_ne ?_ _ _⟩
      rintro rfl
      have hcontent := (htracked.holds id state hlookup).content
      rw [hfree] at hcontent
      cases hcontent
  | @dropped r state' _ hlive =>
      have hne : id ≠ r.id := hother rfl
      refine ⟨(AList.lookup_erase_ne hne).trans hlookup, Function.update_of_ne ?_ _ _⟩
      exact htracked.distinct id r.id state state' hne hlookup hlive
  | @appended chunk state' hlive hseq hlast =>
      have hne : id ≠ chunk.id := hother rfl
      refine ⟨(AList.lookup_insert_ne hne).trans ((AList.lookup_erase_ne hne).trans hlookup), ?_⟩
      rw [(htracked.holds _ _ hlive).written]
      exact Function.update_of_ne (htracked.distinct _ _ _ _ hne hlookup hlive) _ _
  | @completed chunk state' hlive hseq hlast =>
      have hne : id ≠ chunk.id := hother rfl
      refine ⟨(AList.lookup_erase_ne hne).trans hlookup, ?_⟩
      rw [(htracked.holds _ _ hlive).written]
      exact Function.update_of_ne (htracked.distinct _ _ _ _ hne hlookup hlive) _ _

theorem any_acceptsId {replies : List Outgoing} (h : ∀ out ∈ replies, isMilestone out = false)
    (id : UInt32) : replies.any (acceptsId id) = false := by
  rw [List.any_eq_false]
  intro out hout haccepts
  have hmilestone := h out hout
  unfold acceptsId at haccepts
  split at haccepts
  · cases hmilestone
  · cases haccepts

theorem collect_same {request : Option Request} {replies : List Outgoing} {id : UInt32}
    (hreplies : replies.any (acceptsId id) = false)
    (hchunk : ∀ chunk, request = some (.chunk chunk) → chunk.id ≠ id)
    (chunks : List FileChunk) : collect id request replies chunks = chunks := by
  unfold collect
  rw [hreplies]
  rcases request with _ | (id' | id' | chunk)
  · rfl
  · rfl
  · rfl
  · exact if_neg (hchunk chunk rfl)

theorem collect_other {request : Option Request} {replies : List Outgoing}
    (h : Reaction v request v' replies) {id : UInt32} (hid : ¬Concerns id request)
    (chunks : List FileChunk) : collect id request replies chunks = chunks := by
  refine collect_same ?_ (fun chunk hchunk heq => hid ⟨_, hchunk, heq⟩) chunks
  cases h with
  | ignored _ _ hreplies _ => exact any_acceptsId hreplies id
  | @accepted id' =>
      have hne : id' ≠ id := fun heq => hid ⟨_, rfl, heq⟩
      simpa [acceptsId] using hne
  | dropped _ hreplies => exact any_acceptsId hreplies id
  | appended => rfl
  | completed => rfl

theorem Tracked.distinct_of {chunks : UInt32 → List FileChunk} (htracked : Tracked chunks v)
    (h : ∀ id state', v'.transfers.lookup id = some state' →
      ∃ state, v.transfers.lookup id = some state ∧ state.destPath = state'.destPath)
    {id id' : UInt32} {state state' : FileTransferState} (hne : id ≠ id')
    (hlookup : v'.transfers.lookup id = some state)
    (hlookup' : v'.transfers.lookup id' = some state') : state.destPath ≠ state'.destPath := by
  obtain ⟨before, hbefore, hpath⟩ := h id state hlookup
  obtain ⟨before', hbefore', hpath'⟩ := h id' state' hlookup'
  rw [← hpath, ← hpath']
  exact htracked.distinct id id' _ _ hne hbefore hbefore'

theorem lookup_of_erase {transfers : HashMap UInt32 FileTransferState} {id id' : UInt32}
    {state : FileTransferState} (h : (transfers.erase id').lookup id = some state) :
    id ≠ id' ∧ transfers.lookup id = some state := by
  rcases eq_or_ne id id' with rfl | hne
  · rw [AList.lookup_erase] at h
    cases h
  · exact ⟨hne, (AList.lookup_erase_ne hne).symm.trans h⟩

theorem Holds.fresh (path : PathBuf) (size : UInt64) (files : PathBuf → Option Bytes) :
    Holds (freshTransfer path size) [] (Function.update files path (some [])) where
  path := rfl
  content := Function.update_self ..
  position := rfl
  nextExpectedSeq := rfl
  numbered := by simp [Numbered]
  unfinished := by simp

theorem Holds.advance {state : FileTransferState} {chunks : List FileChunk}
    {files : PathBuf → Option Bytes} (h : Holds state chunks files) {chunk : FileChunk}
    (hseq : chunk.seq = state.nextExpectedSeq) (hlast : chunk.isLast = false) :
    Holds (advance state chunk) (chunks ++ [chunk]) (Upload.written state chunk files) where
  path := h.path
  content := by
    rw [h.written]
    exact Function.update_self ..
  position := by
    rw [contentOf_append, List.length_append, ← h.position]
    rfl
  nextExpectedSeq := by
    rw [Upload.advance, h.nextExpectedSeq, List.length_append, List.length_singleton,
      UInt32.ofNat_add]
    rfl
  numbered := numbered_append h.numbered (hseq.trans h.nextExpectedSeq)
  unfinished := by
    intro other hother
    rcases List.mem_append.mp hother with hold | hnew
    · exact h.unfinished other hold
    · rw [List.mem_singleton.mp hnew]
      exact hlast

theorem Reaction.tracked {chunks : UInt32 → List FileChunk} {request : Option Request}
    {replies : List Outgoing} (h : Reaction v request v' replies)
    (htracked : Tracked chunks v) :
    Tracked (fun id => collect id request replies (chunks id)) v' := by
  have hother {id : UInt32} {state : FileTransferState} (hid : ¬Concerns id request)
      (hlookup : v.transfers.lookup id = some state) :
      Holds state (collect id request replies (chunks id)) v'.files := by
    obtain ⟨-, hfile⟩ := h.frame htracked hid hlookup
    have hholds := htracked.holds id state hlookup
    rw [collect_other h hid]
    exact { hholds with content := hfile.trans hholds.content }
  have hconcerns {id : UInt32} {r : Request} (hne : id ≠ r.id) : ¬Concerns id (some r) := by
    rintro ⟨r', hr', rfl⟩
    exact hne (congrArg Request.id (Option.some.inj hr').symm)
  cases h with
  | ignored htransfers hfiles hreplies hchunk =>
      refine ⟨fun id state hlookup => ?_, fun _ _ _ _ => htracked.distinct_of ?_⟩
      · rw [htransfers] at hlookup
        rw [hfiles, collect_same (any_acceptsId hreplies id)]
        · exact htracked.holds id state hlookup
        · rintro chunk hrequest rfl
          rw [hchunk chunk hrequest] at hlookup
          cases hlookup
      · exact fun id state h => ⟨state, (htransfers id).symm.trans h, rfl⟩
  | @accepted id' path size hnew hfree =>
      have hlive {id : UInt32} {state : FileTransferState} (hne : id ≠ id')
          (h : (v.transfers.insert id' (freshTransfer path size)).lookup id = some state) :
          v.transfers.lookup id = some state :=
        (AList.lookup_insert_ne hne).symm.trans h
      have hpath {id : UInt32} {state : FileTransferState}
          (h : v.transfers.lookup id = some state) : state.destPath ≠ path := by
        rintro rfl
        have hcontent := (htracked.holds id state h).content
        rw [hfree] at hcontent
        cases hcontent
      have hfresh {state : FileTransferState}
          (h : (v.transfers.insert id' (freshTransfer path size)).lookup id' = some state) :
          state = freshTransfer path size := by
        rw [AList.lookup_insert] at h
        exact (Option.some.inj h).symm
      refine ⟨fun id state hlookup => ?_, fun id other state state' hne hlookup hlookup' => ?_⟩
      · rcases eq_or_ne id id' with rfl | hne
        · have hcollect : collect id (some (.start id))
              [.msg (.fileTransferAccepted id path.display)] (chunks id) = [] := by
            simp [collect, acceptsId]
          rw [hcollect, hfresh hlookup]
          exact Holds.fresh path size v.files
        · exact hother (hconcerns hne) (hlive hne hlookup)
      · rcases eq_or_ne id id' with rfl | hid
        · rw [hfresh hlookup]
          exact (hpath (hlive hne.symm hlookup')).symm
        · rcases eq_or_ne other id' with rfl | hid'
          · rw [hfresh hlookup']
            exact hpath (hlive hid hlookup)
          · exact htracked.distinct _ _ _ _ hne (hlive hid hlookup) (hlive hid' hlookup')
  | @dropped r state' _ hlive =>
      refine ⟨fun id state hlookup => ?_, fun _ _ _ _ => htracked.distinct_of ?_⟩
      · obtain ⟨hne, hbefore⟩ := lookup_of_erase hlookup
        exact hother (hconcerns hne) hbefore
      · exact fun id state h => ⟨state, (lookup_of_erase h).2, rfl⟩
  | @appended chunk state' hlive hseq hlast =>
      have hkept {id : UInt32} {state : FileTransferState} (hne : id ≠ chunk.id)
          (h : ((v.transfers.erase chunk.id).insert chunk.id (advance state' chunk)).lookup id =
            some state) : v.transfers.lookup id = some state :=
        (lookup_of_erase ((AList.lookup_insert_ne hne).symm.trans h)).2
      have hadvanced {state : FileTransferState}
          (h : ((v.transfers.erase chunk.id).insert chunk.id (advance state' chunk)).lookup
            chunk.id = some state) : state = advance state' chunk := by
        rw [AList.lookup_insert] at h
        exact (Option.some.inj h).symm
      refine ⟨fun id state hlookup => ?_, fun _ _ _ _ => htracked.distinct_of ?_⟩
      · rcases eq_or_ne id chunk.id with rfl | hne
        · have hcollect : collect chunk.id (some (.chunk chunk)) [] (chunks chunk.id) =
              chunks chunk.id ++ [chunk] := by
            simp [collect]
          rw [hcollect, hadvanced hlookup]
          exact (htracked.holds _ _ hlive).advance hseq hlast
        · exact hother (hconcerns hne) (hkept hne hlookup)
      · intro id state hlookup
        rcases eq_or_ne id chunk.id with rfl | hne
        · exact ⟨state', hlive, by rw [hadvanced hlookup]; rfl⟩
        · exact ⟨state, hkept hne hlookup, rfl⟩
  | @completed chunk state' hlive hseq hlast =>
      refine ⟨fun id state hlookup => ?_, fun _ _ _ _ => htracked.distinct_of ?_⟩
      · obtain ⟨hne, hbefore⟩ := lookup_of_erase hlookup
        exact hother (hconcerns hne) hbefore
      · exact fun id state h => ⟨state, (lookup_of_erase h).2, rfl⟩

/-! ### Runs -/

/-- An authenticated connection that receives only begins, aborts and binary frames, its file
operations succeeding, from when it has no transfer on. A label also lists the replies. -/
def uploads (crates : Crates) (cfg : Config) : System Session (Label × List Outgoing) where
  init s := s.st.conn.authenticated = true ∧ s.st.conn.fileTransfers = ∅
  step s entry t :=
    (connection crates cfg).step s entry.1 t ∧ Uploading crates entry.1 ∧
      t.st.conn.outbox = s.st.conn.outbox ++ entry.2

/-- The chunks received for `id` in a history since `id` was last accepted, in arrival
order. -/
def chunksSince (crates : Crates) (history : List (Label × List Outgoing)) (id : UInt32) :
    List FileChunk :=
  history.foldl (fun chunks entry => collect id (requestOf crates entry.1) entry.2 chunks) []

theorem chunksSince_snoc (crates : Crates) (history : List (Label × List Outgoing))
    (entry : Label × List Outgoing) (id : UInt32) :
    chunksSince crates (history ++ [entry]) id =
      collect id (requestOf crates entry.1) entry.2 (chunksSince crates history id) := by
  simp [chunksSince]

theorem uploads_outcome {crates : Crates} {cfg : Config} {s s' : Session}
    {entry : Label × List Outgoing} (hstep : (uploads crates cfg).step s entry s')
    (hauth : s.st.conn.authenticated = true) :
    Outcome (view s.st) (messageOf crates entry.1) (view s'.st) entry.2 := by
  obtain ⟨hconn, hlabel, houtbox⟩ := hstep
  obtain ⟨replies, hreplies, houtcome⟩ := step_outcome hconn hlabel hauth
  rw [houtbox] at hreplies
  rw [List.append_cancel_left hreplies]
  exact houtcome

theorem uploads_reaction {crates : Crates} {cfg : Config} {s s' : Session}
    {entry : Label × List Outgoing} (hstep : (uploads crates cfg).step s entry s')
    (hauth : s.st.conn.authenticated = true) :
    Reaction (view s.st) (requestOf crates entry.1) (view s'.st) entry.2 := by
  rw [requestOf_eq]
  exact (uploads_outcome hstep hauth).reaction

theorem uploads_tracked {crates : Crates} {cfg : Config} {s₀ s : Session}
    {history : List (Label × List Outgoing)} (hinit : (uploads crates cfg).init s₀)
    (hrun : (uploads crates cfg).Run s₀ history s) :
    s.st.conn.authenticated = true ∧ Tracked (chunksSince crates history) (view s.st) := by
  induction hrun with
  | nil =>
      refine ⟨hinit.1, fun id state h => ?_, fun id id' state state' _ h _ => ?_⟩
      · rw [view, hinit.2] at h
        cases h
      · rw [view, hinit.2] at h
        cases h
  | @snoc s t history entry _ hstep ih =>
      obtain ⟨hauth, htracked⟩ := ih
      refine ⟨(step_extends hstep.1).authenticated hauth, ?_⟩
      have hnext := (uploads_reaction hstep hauth).tracked htracked
      rw [show chunksSince crates (history ++ [entry]) = _ from
        funext (chunksSince_snoc crates history entry)]
      exact hnext

/-- Of these chunks the last, which is there, is flagged and no other is. -/
def LastFlagged (chunks : List FileChunk) : Prop :=
  chunks ≠ [] ∧
    ∀ i chunk, chunks[i]? = some chunk → (chunk.isLast = true ↔ i + 1 = chunks.length)

theorem lastFlagged_append {chunks : List FileChunk} {chunk : FileChunk}
    (h : ∀ other ∈ chunks, other.isLast = false) (hlast : chunk.isLast = true) :
    LastFlagged (chunks ++ [chunk]) := by
  refine ⟨by simp, fun i other hi => ?_⟩
  rw [List.length_append, List.length_singleton]
  rcases Nat.lt_or_ge i chunks.length with hlt | hge
  · rw [List.getElem?_append_left hlt] at hi
    rw [h other (List.mem_of_getElem? hi)]
    simp only [Bool.false_eq_true, false_iff]
    omega
  · rw [List.getElem?_append_right hge, List.getElem?_singleton] at hi
    split at hi
    · cases hi
      simp only [hlast, true_iff]
      omega
    · cases hi

theorem Reaction.completion {chunks : UInt32 → List FileChunk} {request : Option Request}
    {replies : List Outgoing} (h : Reaction v request v' replies)
    (htracked : Tracked chunks v) {id : UInt32} {dest : String}
    (hsent : .msg (.fileTransferComplete id dest) ∈ replies) :
    ∃ state, v.transfers.lookup id = some state ∧ dest = state.destPath.display ∧
      v'.files state.destPath = some (contentOf (collect id request replies (chunks id))) ∧
      Numbered (collect id request replies (chunks id)) ∧
      LastFlagged (collect id request replies (chunks id)) := by
  cases h with
  | ignored _ _ hreplies _ => cases hreplies _ hsent
  | accepted => simp at hsent
  | dropped _ hreplies => cases hreplies _ hsent
  | appended => simp at hsent
  | @completed chunk state hlive hseq hlast =>
      obtain ⟨rfl, rfl⟩ : id = chunk.id ∧ dest = state.destPath.display := by simpa using hsent
      have hholds := htracked.holds _ _ hlive
      have hcollect : collect chunk.id (some (.chunk chunk))
          [.msg (.fileTransferComplete chunk.id state.destPath.display)] (chunks chunk.id) =
          chunks chunk.id ++ [chunk] := by
        simp [collect, acceptsId]
      rw [hcollect]
      refine ⟨state, hlive, rfl, ?_, ?_, lastFlagged_append hholds.unfinished hlast⟩
      · rw [hholds.written]
        exact Function.update_self ..
      · exact numbered_append hholds.numbered (hseq.trans hholds.nextExpectedSeq)

/-- Reassembly is exact. In every run of uploads, when the PC reports a transfer complete its
file holds the payloads of the chunks received since its begin was accepted, these chunks are
numbered from 0 on and only the last is flagged; and no step that concerns another id changes
a live transfer or its file. -/
theorem upload_exact (crates : Crates) (cfg : Config) {s₀ s s' : Session}
    {history : List (Label × List Outgoing)} {entry : Label × List Outgoing}
    (hinit : (uploads crates cfg).init s₀) (hrun : (uploads crates cfg).Run s₀ history s)
    (hstep : (uploads crates cfg).step s entry s') :
    (∀ id dest, .msg (.fileTransferComplete id dest) ∈ entry.2 →
        let chunks := chunksSince crates (history ++ [entry]) id
        ∃ state, s.st.conn.fileTransfers.lookup id = some state ∧
          dest = state.destPath.display ∧
          s'.st.world.files state.destPath = some (contentOf chunks) ∧
          Numbered chunks ∧ LastFlagged chunks) ∧
      ∀ id state, s.st.conn.fileTransfers.lookup id = some state →
        ¬Concerns id (requestOf crates entry.1) →
        s'.st.conn.fileTransfers.lookup id = some state ∧
          s'.st.world.files state.destPath = s.st.world.files state.destPath := by
  obtain ⟨hauth, htracked⟩ := uploads_tracked hinit hrun
  have hreaction := uploads_reaction hstep hauth
  constructor
  · intro id dest hsent
    simp only [chunksSince_snoc]
    exact hreaction.completion htracked hsent
  · intro id state hlookup hid
    exact hreaction.frame htracked hid hlookup

def uploadStart : Session where
  st := { world := bareWorld, conn := { connId := 0, peerLabel := "p", authenticated := true } }
  running := true
  deadline := idleTimeout
  lastInbound := 0

/-- A file of two bytes, sent in one chunk. -/
theorem upload_exact_two_bytes :
    ∃ (s : Session) (state : FileTransferState),
      state.destPath.display = "Downloads\\a.txt" ∧
        s.st.world.files state.destPath = some [104, 105] := by
  let crates := parsesTo (.fileTransferBegin 7 "a.txt" 2)
  let chunk := buildFileChunkFrame 7 0 true [104, 105]
  have hsmooth : Smooth smoothAnswers :=
    ⟨⟨_, rfl⟩, fun _ => rfl, rfl, rfl, rfl, fun _ => rfl⟩
  obtain ⟨trace, hbegin⟩ : ∃ trace, Step crates bareConfig uploadStart
      (.taken (.inbox (some (.text "begin"))) smoothAnswers trace) _ :=
    exists_undisturbed rfl trivial rfl
  obtain ⟨trace', hchunk⟩ : ∃ trace', Step crates bareConfig
      (undisturbed crates bareConfig (.inbox (some (.text "begin"))) smoothAnswers uploadStart)
      (.taken (.inbox (some (.binary chunk))) smoothAnswers trace') _ := by
    refine exists_undisturbed rfl trivial ?_
    decide +kernel
  have hfirst : (uploads crates bareConfig).step uploadStart
      (_, [.msg (.fileTransferAccepted 7 "Downloads\\a.txt")]) _ :=
    ⟨hbegin, ⟨hsmooth, .inl ⟨_, _, _, rfl⟩⟩, rfl⟩
  have hsecond : (uploads crates bareConfig).step _
      (_, [.msg (.fileTransferComplete 7 "Downloads\\a.txt")]) _ :=
    ⟨hchunk, ⟨hsmooth, trivial⟩, by dsimp only; decide +kernel⟩
  obtain ⟨state, -, hdest, hcontent, -⟩ := (upload_exact crates bareConfig ⟨rfl, rfl⟩
    (.single hfirst) hsecond).1 7 _ List.mem_cons_self
  exact ⟨_, state, hdest.symm, hcontent⟩

end RemoteControl.Server.Upload
