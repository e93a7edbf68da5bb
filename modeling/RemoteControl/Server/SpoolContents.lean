import RemoteControl.Server.Spools

/-!
What is in a spool file: no connection touches it before it has taken the command for it, so that
the connection finds in it what the request has read, and nothing else.
-/

namespace RemoteControl.Server.SpoolContents

open RemoteControl.Foundations.ByteStrings
open RemoteControl.Foundations.Custody
open RemoteControl.Foundations.Interference
open RemoteControl.Foundations.Interference.Task
open RemoteControl.Foundations.Transition
open RemoteControl.Foundations.Transition.System
open RemoteControl.Wire.Protocol
open RemoteControl.Server.Stores
open RemoteControl.Server.Connection
open RemoteControl.Server.FileHandlers
open RemoteControl.Server.Loop
open RemoteControl.Server.Frame
open RemoteControl.Server.Transfers
open RemoteControl.Server.Sends
open RemoteControl.Server.Pool

/-! ### One file and one connection -/

/-- The connection neither sends the file nor receives into it. -/
structure Clear (folders : Folders) (p : PathBuf) (c : Conn) : Prop where
  sends : ∀ id st, c.fileSends.lookup id = some st → st.tempPath ≠ p
  transfers : ∀ id state, c.fileTransfers.lookup id = some state →
    Inside folders.downloads state.destPath ∧ Inside folders.downloads state.file.path

/-- A section of a connection, which has taken the command for the file or has not: until then
it leaves the file as it is, and it takes the command out of its queue only. -/
structure Apart (p : PathBuf) (taken : Bool) (s : St) (taken' : Bool) (s' : St) : Prop where
  connId : s'.conn.connId = s.conn.connId
  shrinks : ∀ j, s'.world.bridge.commands j <:+ s.world.bridge.commands j
  keeps : taken = true → taken' = true
  files : taken' = false → s'.world.files p = s.world.files p
  takes : taken = false → taken' = true → ∃ id name size,
    s.world.bridge.commands s.conn.connId =
      .send id name size p :: s'.world.bridge.commands s.conn.connId

def discipline (p : PathBuf) : Discipline St Bool where
  rely _ s s' := s'.conn = s.conn
  act := Apart p
  next _ _ := True

def Idle (folders : Folders) (p : PathBuf) (taken : Bool) (s : St) : Prop :=
  taken = false → Clear folders p s.conn

/-- A handler that takes no command, and gives what `Q` says. -/
def Quiet {α : Type} (folders : Folders) (p : PathBuf) (taken : Bool) (Q : α → Prop)
    (t : Handler α) : Prop :=
  ∀ s, Idle folders p taken s →
    Keeps (discipline p) (fun taken' a s' => taken' = taken ∧ Idle folders p taken s' ∧ Q a) t
      taken s

variable {α β : Type} {folders : Folders} {p : PathBuf} {taken : Bool} {s s' : St}
  {Q : α → Prop} {os : Answers}

theorem Apart.of_commands (hid : s'.conn.connId = s.conn.connId)
    (hcommands : s'.world.bridge.commands = s.world.bridge.commands)
    (hfiles : taken = false → s'.world.files p = s.world.files p) : Apart p taken s taken s' := by
  refine ⟨hid, fun j => ?_, id, hfiles, fun h h' => ?_⟩
  · exact hcommands ▸ List.suffix_rfl
  · rw [h] at h'
    cases h'

theorem Idle.of_conn (h : Idle folders p taken s) (hconn : s'.conn = s.conn) :
    Idle folders p taken s' := by
  rw [Idle, hconn]
  exact h

theorem quiet_pure {a : α} (h : Q a) : Quiet folders p taken Q (pure a) :=
  fun _ hidle => keeps_pure ⟨rfl, hidle, h⟩

theorem Quiet.bind {P : α → Prop} {Q : β → Prop} {t : Handler α} {f : α → Handler β}
    (ht : Quiet folders p taken P t) (hf : ∀ a, P a → Quiet folders p taken Q (f a)) :
    Quiet folders p taken Q (t >>= f) := by
  intro s hidle
  refine (ht s hidle).bind ?_
  rintro taken' a s' ⟨rfl, hidle', ha⟩
  exact hf a ha s' hidle'

theorem Quiet.mono {P : α → Prop} {t : Handler α} (ht : Quiet folders p taken P t)
    (h : ∀ a, P a → Q a) : Quiet folders p taken Q t :=
  fun s hidle => (ht s hidle).mono fun _ a _ hpost => ⟨hpost.1, hpost.2.1, h a hpost.2.2⟩

theorem quiet_critical {f : St → α × St}
    (h : ∀ s, Idle folders p taken s →
      (f s).2.conn.connId = s.conn.connId ∧
        (f s).2.world.bridge.commands = s.world.bridge.commands ∧
        (taken = false → (f s).2.world.files p = s.world.files p) ∧
        Idle folders p taken (f s).2 ∧ Q (f s).1) :
    Quiet folders p taken Q (.critical f) := by
  intro s hidle
  refine keeps_critical trivial fun found hfound => ?_
  obtain ⟨hid, hcommands, hfiles, hidle', hresult⟩ := h found (hidle.of_conn hfound)
  exact ⟨taken, Apart.of_commands hid hcommands hfiles, rfl, hidle', hresult⟩

theorem quiet_read {f : St → α} (h : ∀ s, Idle folders p taken s → Q (f s)) :
    Quiet folders p taken Q (.read f : Handler α) := by
  intro s hidle
  refine keeps_read trivial fun found hfound => ?_
  have hidle' := hidle.of_conn hfound
  exact ⟨taken, Apart.of_commands rfl rfl fun _ => rfl, rfl, hidle', h found hidle'⟩

theorem quiet_onConn {f : Conn → Conn} (hid : ∀ c, (f c).connId = c.connId)
    (hclear : taken = false → ∀ c, Clear folders p c → Clear folders p (f c)) :
    Quiet folders p taken (fun _ => True) (onConn f) :=
  quiet_critical (f := fun s => (PUnit.unit, { s with conn := f s.conn })) fun _ hidle =>
    ⟨hid _, rfl, fun _ => rfl, fun htaken => hclear htaken _ (hidle htaken), trivial⟩

theorem quiet_onFiles {f : (PathBuf → Option Bytes) → PathBuf → Option Bytes} {effect : Effect}
    (hfiles : taken = false → ∀ files, f files p = files p) :
    Quiet folders p taken (fun _ => True) (onFiles f effect) :=
  quiet_critical
    (f := fun s => (PUnit.unit,
      { world := { s.world with files := f s.world.files }
        conn := { s.conn with effects := s.conn.effects ++ [effect] } }))
    fun _ hidle => ⟨rfl, rfl, fun htaken => hfiles htaken _,
      fun htaken => ⟨(hidle htaken).sends, (hidle htaken).transfers⟩, trivial⟩

theorem quiet_detached {t : Handler α} (ht : Guarantees Detached t) (hQ : Returns Q t) :
    Quiet folders p taken Q t := by
  intro s hidle
  induction t generalizing s with
  | done a => exact keeps_pure ⟨rfl, hidle, hQ⟩
  | atomic update next ih =>
      refine ⟨trivial, fun found hfound => ?_⟩
      have hdetached := ht.1 found
      refine ⟨taken, Apart.of_commands hdetached.connId hdetached.commands fun _ => ?_, ?_⟩
      · rw [hdetached.files]
      · refine ih found (ht.2 found) (hQ found) _ fun htaken => ?_
        have hclear := hidle.of_conn hfound htaken
        refine ⟨?_, ?_⟩
        · rw [hdetached.fileSends]
          exact hclear.sends
        · rw [hdetached.fileTransfers]
          exact hclear.transfers

theorem quiet_push (out : Outgoing) : Quiet folders p taken (fun _ => True) (push out) :=
  quiet_detached (push_detached out) (returns_true _)

theorem quiet_forM {γ : Type} {body : γ → Handler PUnit} {xs : List γ}
    (h : ∀ x ∈ xs, Quiet folders p taken (fun _ => True) (body x)) :
    Quiet folders p taken (fun _ => True) (xs.forM body) := by
  induction xs with
  | nil => exact quiet_pure trivial
  | cons x xs ih =>
      change Quiet folders p taken _ (body x >>= fun _ => xs.forM body)
      exact (h x List.mem_cons_self).bind fun _ _ =>
        ih fun y hy => h y (List.mem_cons_of_mem x hy)

/-! ### Files -/

theorem quiet_removeFile {path : PathBuf} (hpath : taken = false → path ≠ p) :
    Quiet folders p taken (fun _ => True) (removeFile os path) := by
  refine quiet_onFiles fun htaken files => ?_
  split
  · rfl
  · exact Function.update_of_ne (hpath htaken).symm ..

theorem quiet_createFile {path : PathBuf} (hpath : path ≠ p) :
    Quiet folders p taken (fun _ => True) (createFile os path) := by
  refine quiet_onFiles fun _ files => ?_
  split
  · rfl
  · exact Function.update_of_ne hpath.symm ..

theorem quiet_writeAll {file : OpenFile} {payload : Bytes}
    (hpath : taken = false → file.path ≠ p) :
    Quiet folders p taken (fun _ => True) (writeAll os file payload) := by
  unfold writeAll
  refine quiet_onFiles fun htaken files => ?_
  cases files file.path with
  | none => rfl
  | some content => exact Function.update_of_ne (hpath htaken).symm ..

/-! ### Uploads from the phone -/

theorem ne_of_inside (hfolders : folders.downloads ≠ folders.temp) (hp : Inside folders.temp p)
    {path : PathBuf} (hpath : Inside folders.downloads path) : path ≠ p := by
  rintro rfl
  exact hfolders (hpath.apart hp)

/-- A transfer of the phone writes into the downloads directory. -/
def Inward (folders : Folders) (taken : Bool) (state : FileTransferState) : Prop :=
  taken = false → Inside folders.downloads state.destPath ∧ Inside folders.downloads state.file.path

theorem quiet_takeTransfer (id : UInt32) :
    Quiet folders p taken (fun found => ∀ state ∈ found, Inward folders taken state)
      (takeTransfer id) := by
  refine quiet_critical fun s hidle => ⟨rfl, rfl, fun _ => rfl, fun htaken => ⟨?_, ?_⟩, ?_⟩
  · exact (hidle htaken).sends
  · intro id' state hlookup
    rcases eq_or_ne id' id with rfl | hne
    · rw [AList.lookup_erase] at hlookup
      cases hlookup
    · rw [AList.lookup_erase_ne hne] at hlookup
      exact (hidle htaken).transfers id' state hlookup
  · exact fun state hstate htaken => (hidle htaken).transfers id state hstate

theorem quiet_insertTransfer {id : UInt32} {state : FileTransferState}
    (hstate : Inward folders taken state) :
    Quiet folders p taken (fun _ => True) (insertTransfer id state) := by
  refine quiet_onConn (fun _ => rfl) fun htaken c hclear => ⟨hclear.sends, fun id' state' h => ?_⟩
  rcases eq_or_ne id' id with rfl | hne
  · rw [AList.lookup_insert] at h
    obtain rfl := Option.some.inj h
    exact hstate htaken
  · rw [AList.lookup_insert_ne hne] at h
    exact hclear.transfers id' state' h

theorem quiet_metadataIsErr (path : PathBuf) :
    Quiet folders p taken (fun _ => True) (metadataIsErr os path) :=
  quiet_read fun _ _ => trivial

theorem quiet_probeCandidates (dir : PathBuf) (name stem ext : String) (ns : List Nat) :
    Quiet folders p taken (FoundIn dir) (probeCandidates os dir name stem ext ns) := by
  induction ns with
  | nil => exact quiet_pure fun path h => nomatch h
  | cons n rest ih =>
      refine (quiet_metadataIsErr _).bind fun isErr _ => ?_
      split
      · refine quiet_pure ?_
        rintro path ⟨⟩
        exact ⟨_, rfl⟩
      · exact ih

theorem quiet_uniqueDestPath (dir : PathBuf) (name : String) :
    Quiet folders p taken (FoundIn dir) (uniqueDestPath os dir name) := by
  refine (quiet_metadataIsErr _).bind fun isErr _ => ?_
  split
  · refine quiet_pure ?_
    rintro path ⟨⟩
    exact ⟨_, rfl⟩
  · exact quiet_probeCandidates _ _ _ _ _

section

variable (hfolders : folders.downloads ≠ folders.temp) (hp : Inside folders.temp p)
include hfolders hp

theorem quiet_handleFileBegin
    (hdir : ∀ dir, os.downloadsDir = .ok dir → dir = folders.downloads) (id : UInt32)
    (name : String) (size : UInt64) :
    Quiet folders p taken (fun _ => True) (handleFileBegin os id name size) := by
  refine (quiet_read fun _ _ => trivial).bind fun conn (_ : True) => ?_
  split
  · exact quiet_push _
  split
  · exact quiet_push _
  have hcreateDir : Quiet folders p taken (fun _ => True) (perform [.createDir]) :=
    quiet_detached (perform_detached (by simp [isDetached])) (returns_true _)
  refine hcreateDir.bind fun _ _ => ?_
  split
  · exact quiet_push _
  next dir hok =>
    obtain rfl := hdir dir hok
    refine (quiet_uniqueDestPath _ _).bind ?_
    rintro (e | path) hfound
    · exact quiet_push _
    · have hinside := hfound path rfl
      refine (quiet_createFile (ne_of_inside hfolders hp hinside)).bind fun _ _ => ?_
      split
      · exact quiet_push _
      · exact (quiet_insertTransfer fun _ => ⟨hinside, hinside⟩).bind fun _ _ => quiet_push _

theorem quiet_handleFileAbort (id : UInt32) :
    Quiet folders p taken (fun _ => True) (handleFileAbort os id) := by
  refine (quiet_takeTransfer id).bind fun found hfound => ?_
  cases found with
  | none => exact quiet_pure trivial
  | some state =>
      exact quiet_removeFile fun htaken => ne_of_inside hfolders hp (hfound state rfl htaken).1

theorem quiet_failChunk (id : UInt32) {state : FileTransferState}
    (hstate : Inward folders taken state) (reason : String) :
    Quiet folders p taken (fun _ => True) (failChunk os id state.destPath reason) :=
  (quiet_removeFile fun htaken => ne_of_inside hfolders hp (hstate htaken).1).bind fun _ _ =>
    quiet_push _

theorem quiet_handleFileChunk (bytes : Bytes) :
    Quiet folders p taken (fun _ => True) (handleFileChunk os bytes) := by
  unfold handleFileChunk
  split
  · exact quiet_pure trivial
  refine (quiet_takeTransfer _).bind fun found hfound => ?_
  cases found with
  | none => exact quiet_pure trivial
  | some state =>
      have hstate := hfound state rfl
      dsimp only
      split
      · exact quiet_failChunk hfolders hp _ hstate _
      have hpath (htaken : taken = false) : state.file.path ≠ p :=
        ne_of_inside hfolders hp (hstate htaken).2
      refine (quiet_writeAll hpath).bind fun _ _ => ?_
      split
      · exact quiet_failChunk hfolders hp _ hstate _
      split
      · exact quiet_push _
      · exact quiet_insertTransfer hstate

theorem quiet_drainTransfers : Quiet folders p taken (fun _ => True) (drainTransfers os) := by
  have hread : Quiet folders p taken (fun conn => taken = false → Clear folders p conn)
      (.read St.conn) :=
    quiet_read fun _ hidle => hidle
  refine hread.bind fun conn hconn => ?_
  have hempty : Quiet folders p taken (fun _ => True)
      (onConn fun c => { c with fileTransfers := ∅ }) :=
    quiet_onConn (fun _ => rfl) fun _ _ hclear => ⟨hclear.sends, fun _ _ h => nomatch h⟩
  refine hempty.bind fun _ _ => quiet_forM fun entry hentry => quiet_removeFile fun htaken => ?_
  have hlookup := AList.mem_lookup_iff.mpr hentry
  exact ne_of_inside hfolders hp ((hconn htaken).transfers _ _ hlookup).1

end

/-! ### Sends to the phone -/

theorem quiet_takeSend (id : UInt32) :
    Quiet folders p taken (fun found => ∀ st ∈ found, taken = false → st.tempPath ≠ p)
      (takeSend id) := by
  refine quiet_critical fun s hidle => ⟨rfl, rfl, fun _ => rfl, fun htaken => ⟨?_, ?_⟩, ?_⟩
  · intro id' st hlookup
    rcases eq_or_ne id' id with rfl | hne
    · rw [AList.lookup_erase] at hlookup
      cases hlookup
    · rw [AList.lookup_erase_ne hne] at hlookup
      exact (hidle htaken).sends id' st hlookup
  · exact (hidle htaken).transfers
  · exact fun st hst htaken => (hidle htaken).sends id st hst

theorem quiet_cancelSender (cancel : Nat) :
    Quiet folders p taken (fun _ => True) (cancelSender cancel) :=
  quiet_onConn (fun _ => rfl) fun _ _ hclear => ⟨hclear.sends, hclear.transfers⟩

theorem quiet_handleFileSendAccepted (id : UInt32) (destPath : String) :
    Quiet folders p taken (fun _ => True) (handleFileSendAccepted id destPath) := by
  refine quiet_onConn (fun c => ?_) fun _ c hclear => ?_
  · split <;> rfl
  split
  · next entry hentry =>
      refine ⟨fun id' st hlookup => ?_, hclear.transfers⟩
      rcases eq_or_ne id' id with rfl | hne
      · rw [AList.lookup_insert] at hlookup
        obtain rfl := Option.some.inj hlookup
        exact hclear.sends id' entry hentry
      · rw [AList.lookup_insert_ne hne] at hlookup
        exact hclear.sends id' st hlookup
  · exact hclear

theorem quiet_handleFileSendComplete (id : UInt32) :
    Quiet folders p taken (fun _ => True) (handleFileSendComplete os id) := by
  refine (quiet_takeSend id).bind fun found hfound => ?_
  cases found with
  | none => exact quiet_pure trivial
  | some st => exact quiet_removeFile (hfound st rfl)

theorem quiet_abandonSend (id : UInt32) :
    Quiet folders p taken (fun _ => True) (abandonSend os id) := by
  refine (quiet_takeSend id).bind fun found hfound => ?_
  cases found with
  | none => exact quiet_pure trivial
  | some st =>
      exact (quiet_cancelSender _).bind fun _ _ => quiet_removeFile (hfound st rfl)

theorem quiet_dispatchFileSendCmd (id : UInt32) (name : String) (size : UInt64) {temp : PathBuf}
    (htemp : taken = false → temp ≠ p) :
    Quiet folders p taken (fun _ => True) (dispatchFileSendCmd id name size temp) := by
  refine Quiet.bind (P := fun _ => True) (quiet_onConn (fun _ => rfl) ?_) fun _ _ => ?_
  · refine fun htaken c hclear => ⟨fun id' st hlookup => ?_, hclear.transfers⟩
    rcases eq_or_ne id' id with rfl | hne
    · rw [AList.lookup_insert] at hlookup
      obtain rfl := Option.some.inj hlookup
      exact htemp htaken
    · rw [AList.lookup_insert_ne hne] at hlookup
      exact hclear.sends id' st hlookup
  · exact (quiet_push _).bind fun _ _ =>
      quiet_onConn (fun _ => rfl) fun _ _ hclear => ⟨hclear.sends, hclear.transfers⟩

theorem quiet_drainSends : Quiet folders p taken (fun _ => True) (drainSends os) := by
  have hread : Quiet folders p taken (fun conn => taken = false → Clear folders p conn)
      (.read St.conn) :=
    quiet_read fun _ hidle => hidle
  refine hread.bind fun conn hconn => ?_
  have hempty : Quiet folders p taken (fun _ => True)
      (onConn fun c => { c with fileSends := ∅ }) :=
    quiet_onConn (fun _ => rfl) fun _ _ hclear => ⟨fun _ _ h => (nomatch h), hclear.transfers⟩
  refine hempty.bind fun _ _ => quiet_forM fun entry hentry => ?_
  refine (quiet_cancelSender _).bind fun _ _ => quiet_removeFile fun htaken => ?_
  exact (hconn htaken).sends _ _ (AList.mem_lookup_iff.mpr hentry)

/-- What a connection is in after it has taken a command. -/
def Received (p : PathBuf) (taken : Bool) (found : Option FileSendCmd) : Prop :=
  ∀ id name size temp, found = some (.send id name size temp) → taken = false → temp ≠ p

def isFor (p : PathBuf) : FileSendCmd → Bool
  | .send _ _ _ temp => temp = p
  | .cancel _ => false

theorem recvCommand_keeps (h : Idle folders p taken s) :
    Keeps (discipline p)
      (fun taken' found s' => Idle folders p taken' s' ∧ Received p taken' found) recvCommand
      taken s := by
  refine keeps_critical trivial fun found hfound => ?_
  have hidle : Idle folders p taken found := h.of_conn hfound
  have htail (j : Nat) : Function.update found.world.bridge.commands found.conn.connId
      (found.world.bridge.commands found.conn.connId).tail j <:+
        found.world.bridge.commands j := by
    rcases eq_or_ne j found.conn.connId with rfl | hne
    · rw [Function.update_self]
      exact List.tail_suffix _
    · exact Function.update_of_ne hne _ _ ▸ List.suffix_rfl
  rcases eq_or_ne (found.world.bridge.commands found.conn.connId) [] with hempty | hne
  · refine ⟨taken, ⟨rfl, htail, id, fun _ => rfl, fun h h' => ?_⟩, hidle, ?_⟩
    · rw [h] at h'
      cases h'
    · intro id name size temp hfirst
      dsimp only at hfirst
      rw [hempty] at hfirst
      cases hfirst
  obtain ⟨cmd, rest, hqueue⟩ := List.exists_cons_of_ne_nil hne
  refine ⟨taken || isFor p cmd, ⟨rfl, htail, fun h => ?_, fun _ => rfl, fun h h' => ?_⟩, ?_, ?_⟩
  · rw [h, Bool.true_or]
  · rw [h, Bool.false_or] at h'
    cases cmd with
    | send id name size temp =>
        obtain rfl := of_decide_eq_true h'
        refine ⟨id, name, size, ?_⟩
        dsimp only
        rw [Function.update_self, hqueue, List.tail_cons]
    | cancel id => cases h'
  · exact fun htaken => hidle (Bool.or_eq_false_iff.mp htaken).1
  · intro id name size temp hfirst htaken heq
    dsimp only at hfirst
    rw [hqueue] at hfirst
    cases hfirst
    exact of_decide_eq_false (Bool.or_eq_false_iff.mp htaken).2 heq

theorem Quiet.keeps {t : Handler α} (ht : Quiet folders p taken Q t)
    (h : Idle folders p taken s) :
    Keeps (discipline p) (fun taken' _ s' => Idle folders p taken' s') t taken s :=
  (ht s h).mono fun _ _ _ hpost => hpost.1 ▸ hpost.2.1

theorem Quiet.preserves {t : Handler α} (ht : ∀ taken, Quiet folders p taken Q t) :
    Preserves (discipline p) (Idle folders p) t :=
  fun taken _ hidle => (ht taken).keeps hidle

theorem handleCommand_keeps (h : Idle folders p taken s) :
    Keeps (discipline p) (fun taken' _ s' => Idle folders p taken' s') (handleCommand os) taken
      s := by
  refine (recvCommand_keeps h).bind ?_
  rintro taken' found s' ⟨hidle, hreceived⟩
  cases found with
  | none => exact keeps_pure hidle
  | some cmd =>
      have hread : Quiet folders p taken' (fun _ => True) (.read St.conn) :=
        quiet_read fun _ _ => trivial
      refine Quiet.keeps (Q := fun _ => True) (hread.bind fun conn _ => ?_) hidle
      split
      · cases cmd with
        | send id name size temp =>
            exact (quiet_removeFile (hreceived id name size temp rfl)).bind fun _ _ =>
              quiet_pure trivial
        | cancel id => exact quiet_pure trivial
      · cases cmd with
        | send id name size temp =>
            exact (quiet_dispatchFileSendCmd id name size (hreceived id name size temp rfl)).bind
              fun _ _ => quiet_pure trivial
        | cancel id => exact (quiet_abandonSend id).bind fun _ _ => quiet_pure trivial

section

variable (hfolders : folders.downloads ≠ folders.temp) (hp : Inside folders.temp p)
include hfolders hp

theorem handles (hdir : ∀ dir, os.downloadsDir = .ok dir → dir = folders.downloads) :
    Handles (discipline p) (Idle folders p) os where
  detached ht := Quiet.preserves fun _ => quiet_detached ht (returns_true _)
  onBegin id name size :=
    Quiet.preserves fun _ => quiet_handleFileBegin hfolders hp hdir id name size
  onAbort id := Quiet.preserves fun _ => quiet_handleFileAbort hfolders hp id
  onChunk bytes := Quiet.preserves fun _ => quiet_handleFileChunk hfolders hp bytes
  onAccepted id destPath := Quiet.preserves fun _ => quiet_handleFileSendAccepted id destPath
  onFailed id := Quiet.preserves fun _ => quiet_abandonSend id

theorem quiet_teardown : Quiet folders p taken (fun _ => True) (teardown os) := by
  have hdetached {t : Handler PUnit} (ht : Guarantees Aside t) :
      Quiet folders p taken (fun _ => True) t :=
    quiet_detached (detached_of_aside ht) (returns_true _)
  exact (hdetached stopActiveStream_aside).bind fun _ _ =>
    (quiet_drainTransfers hfolders hp).bind fun _ _ =>
      quiet_drainSends.bind fun _ _ => hdetached deregisterBridge_aside

end

/-- The rules about one spool file. -/
def rules (crates : Crates) (cfg : Config) (hfolders : folders.downloads ≠ folders.temp)
    (hp : Inside folders.temp p) : Rules crates cfg Bool where
  toDiscipline := discipline p
  idle := Idle folders p
  gone _ _ := True
  allowed os := ∀ dir, os.downloadsDir = .ok dir → dir = folders.downloads
  admits _ _ := True
  rely_trans h h' := h'.trans h
  idle_stable h hrely := h.of_conn hrely
  gone_stable _ _ := trivial
  iteration_keeps hos _ hidle :=
    (handles hfolders hp hos).iteration crates cfg _ (fun _ => handleCommand_keeps hidle)
      (fun id _ _ => (quiet_handleFileSendComplete id).keeps hidle) hidle
  teardown_keeps _ hidle :=
    ((quiet_teardown hfolders hp).keeps hidle).mono fun _ _ _ _ => trivial

/-! ### Requests -/

/-- The commands for the file in a queue. -/
def mentions (world : World) (p : PathBuf) (j : Nat) : List FileSendCmd :=
  (world.bridge.commands j).filter (isFor p)

/-- No command for the file is in a queue, and none has been taken. -/
structure Unsent (K : Nat → Bool) (world : World) (p : PathBuf) : Prop where
  silent : ∀ j, mentions world p j = []
  untaken : ∀ j, K j = false

/-- The command of the request is in one queue, and the file holds the whole content. -/
structure Awaited (K : Nat → Bool) (content : Bytes) (world : World) (r : SendRequest) : Prop where
  untaken : ∀ j, K j = false
  whole : world.files r.spool = some content ∧ content.length = r.len.toNat
  queued : ∃ i id, r.sentTo = some i ∧ r.sentId = some id ∧
    mentions world r.spool i = [.send id r.name r.len r.spool] ∧
    ∀ j, j ≠ i → mentions world r.spool j = []

/-- Where the spool file of a request stands, when the request has read `content`. -/
def Standing (K : Nat → Bool) (content : Bytes) (world : World) (r : SendRequest) : Prop :=
  match r.stage with
  | .probing | .creating => Unsent K world r.spool ∧ content = []
  | .spooling remaining =>
      Unsent K world r.spool ∧ world.files r.spool = some content ∧
        content.length + remaining = r.len.toNat
  | .allocating _ | .dispatching _ =>
      Unsent K world r.spool ∧ world.files r.spool = some content ∧ content.length = r.len.toNat
  | .unlinking => ∀ j, mentions world r.spool j = []
  | .ended => (∀ j, mentions world r.spool j = []) ∨ Awaited K content world r

/-- What one connection does to the queues and to the file. -/
structure Moved (p : PathBuf) (i : Nat) (taken taken' : Bool) (world world' : World) : Prop where
  shrinks : ∀ j, world'.bridge.commands j <:+ world.bridge.commands j
  files : taken' = false → world'.files p = world.files p
  takes : taken = false → taken' = true → ∃ id name size,
    world.bridge.commands i = .send id name size p :: world'.bridge.commands i

section

variable {K : Nat → Bool} {content : Bytes} {world world' : World} {r r' : SendRequest} {i : Nat}
  {taken' : Bool}

theorem Standing.congr (h : Standing K content world r)
    (hfiles : world'.files r.spool = world.files r.spool)
    (hmentions : ∀ j, mentions world' r.spool j = mentions world r.spool j) :
    Standing K content world' r := by
  have hsilent (hnone : ∀ j, mentions world r.spool j = []) (j : Nat) :
      mentions world' r.spool j = [] :=
    (hmentions j).trans (hnone j)
  have hunsent (hold : Unsent K world r.spool) : Unsent K world' r.spool :=
    ⟨hsilent hold.silent, hold.untaken⟩
  unfold Standing at h ⊢
  split at h
  · exact ⟨hunsent h.1, h.2⟩
  · exact ⟨hunsent h.1, h.2⟩
  · exact ⟨hunsent h.1, hfiles.trans h.2.1, h.2.2⟩
  · exact ⟨hunsent h.1, hfiles.trans h.2.1, h.2.2⟩
  · exact ⟨hunsent h.1, hfiles.trans h.2.1, h.2.2⟩
  · exact hsilent h
  · refine h.imp hsilent fun hawaited => ?_
    obtain ⟨i, id, hto, hid, hqueue, hothers⟩ := hawaited.queued
    exact ⟨hawaited.untaken, ⟨hfiles.trans hawaited.whole.1, hawaited.whole.2⟩, i, id, hto, hid,
      (hmentions i).trans hqueue, fun j hj => (hmentions j).trans (hothers j hj)⟩

theorem Moved.mentions (h : Moved p i taken taken' world world') (j : Nat) :
    SpoolContents.mentions world' p j <:+ SpoolContents.mentions world p j :=
  (h.shrinks j).filter _

theorem Moved.silent (h : Moved p i taken taken' world world')
    (hsilent : ∀ j, SpoolContents.mentions world p j = []) (j : Nat) :
    SpoolContents.mentions world' p j = [] := by
  have hsuffix := h.mentions j
  rw [hsilent j] at hsuffix
  exact List.suffix_nil.mp hsuffix

theorem Moved.unsent (h : Moved p i (K i) taken' world world') (hunsent : Unsent K world p) :
    Unsent (Function.update K i taken') world' p := by
  refine ⟨h.silent hunsent.silent, fun j => ?_⟩
  rcases eq_or_ne j i with rfl | hne
  · rw [Function.update_self]
    by_contra htaken
    obtain ⟨id, name, size, hqueue⟩ := h.takes (hunsent.untaken j) (Bool.not_eq_false _ ▸ htaken)
    have hnone := hunsent.silent j
    rw [SpoolContents.mentions, hqueue, List.filter_cons_of_pos (by simp [isFor])] at hnone
    cases hnone
  · rw [Function.update_of_ne hne]
    exact hunsent.untaken j

theorem Moved.awaited (h : Moved r.spool i (K i) taken' world world')
    (hawaited : Awaited K content world r) :
    (∀ j, SpoolContents.mentions world' r.spool j = []) ∨
      Awaited (Function.update K i taken') content world' r := by
  obtain ⟨j, id, hto, hid, hqueue, hothers⟩ := hawaited.queued
  have hother (j' : Nat) (hne : j' ≠ j) : SpoolContents.mentions world' r.spool j' = [] := by
    have hsuffix := h.mentions j'
    rw [hothers j' hne] at hsuffix
    exact List.suffix_nil.mp hsuffix
  cases htaken : taken' with
  | true =>
      obtain ⟨id', name, size, hfirst⟩ := h.takes (hawaited.untaken i) htaken
      have hmention : SpoolContents.mentions world r.spool i =
          .send id' name size r.spool :: SpoolContents.mentions world' r.spool i := by
        rw [SpoolContents.mentions, hfirst, List.filter_cons_of_pos (by simp [isFor])]
        rfl
      refine .inl fun j' => ?_
      rcases eq_or_ne j' j with rfl | hne
      · rcases eq_or_ne i j' with rfl | hne
        · rw [hqueue] at hmention
          exact (List.cons.inj hmention).2.symm
        · rw [hothers i hne] at hmention
          cases hmention
      · exact hother j' hne
  | false =>
      have hsuffix := h.mentions j
      rw [hqueue, List.suffix_cons_iff, List.suffix_nil] at hsuffix
      refine hsuffix.symm.imp (fun hnone j' => ?_) fun hkept => ⟨fun j' => ?_, ?_, ?_⟩
      · rcases eq_or_ne j' j with rfl | hne
        · exact hnone
        · exact hother j' hne
      · rcases eq_or_ne j' i with rfl | hne
        · rw [Function.update_self]
        · rw [Function.update_of_ne hne]
          exact hawaited.untaken j'
      · rw [h.files htaken]
        exact hawaited.whole
      · exact ⟨j, id, hto, hid, hkept, hother⟩

theorem Standing.moved (h : Standing K content world r)
    (hmoved : Moved r.spool i (K i) taken' world world') :
    Standing (Function.update K i taken') content world' r := by
  have hfiles (hunsent : Unsent K world r.spool) : world'.files r.spool = world.files r.spool := by
    refine hmoved.files ?_
    have huntaken := (hmoved.unsent hunsent).untaken i
    rwa [Function.update_self] at huntaken
  unfold Standing at h ⊢
  split at h
  · exact ⟨hmoved.unsent h.1, h.2⟩
  · exact ⟨hmoved.unsent h.1, h.2⟩
  · exact ⟨hmoved.unsent h.1, (hfiles h.1).trans h.2.1, h.2.2⟩
  · exact ⟨hmoved.unsent h.1, (hfiles h.1).trans h.2.1, h.2.2⟩
  · exact ⟨hmoved.unsent h.1, (hfiles h.1).trans h.2.1, h.2.2⟩
  · exact hmoved.silent h
  · exact h.elim (fun hsilent => .inl (hmoved.silent hsilent)) hmoved.awaited

/-- What an await of `handle_send_file` reads. -/
def bytesRead : Served → Bytes
  | .read bytes => bytes
  | _ => []

theorem dispatch_mentions {bridge : FileSendBridge} {alive : Nat → Bool} {cmd : FileSendCmd}
    (h : world.bridge.dispatch alive cmd = (.ok (), bridge)) (hcmd : isFor p cmd = false)
    (j : Nat) : mentions { world with bridge } p j = mentions world p j := by
  obtain ⟨inst, owner, -, -, rfl⟩ := dispatch_eq_ok h
  rw [mentions, mentions]
  dsimp only
  rcases eq_or_ne j owner with rfl | hne
  · rw [Function.update_self, List.filter_append, List.filter_cons_of_neg (by simp [hcmd]),
      List.filter_nil, List.append_nil]
  · rw [Function.update_of_ne hne]

theorem RequestStep.mentions {alive : Nat → Bool} {served : Served}
    (h : RequestStep alive world r served world' r') (hp : p ≠ r.spool) (j : Nat) :
    SpoolContents.mentions world' p j = SpoolContents.mentions world p j := by
  cases h with
  | dispatched hstage hdispatch =>
      exact dispatch_mentions hdispatch (decide_eq_false hp.symm) j
  | _ => rfl

theorem appendTo_self {files : PathBuf → Option Bytes} (h : files p = some content)
    (bytes : Bytes) : appendTo files p bytes p = some (content ++ bytes) := by
  rw [appendTo, h]
  exact Function.update_self ..

theorem Standing.served {alive : Nat → Bool} {served : Served} (h : Standing K content world r)
    (hstep : RequestStep alive world r served world' r') :
    Standing K (content ++ bytesRead served) world' r' := by
  cases hstep with
  | refused hstage | createFailed hstage | readFailed hstage | writeFailed hstage
  | flushFailed hstage =>
      rw [Standing, hstage] at h
      exact .inl h.1.silent
  | probed hstage =>
      rw [Standing, hstage] at h
      show Standing K (content ++ []) _ _
      rw [List.append_nil]
      exact h
  | created hstage =>
      rw [Standing, hstage] at h
      obtain ⟨hunsent, rfl⟩ := h
      refine ⟨⟨hunsent.silent, hunsent.untaken⟩, Function.update_self .., ?_⟩
      exact Nat.zero_add _
  | @read remaining bytes hstage hne hlength =>
      rw [Standing, hstage] at h
      obtain ⟨hunsent, hfile, hcount⟩ := h
      refine ⟨⟨hunsent.silent, hunsent.untaken⟩, appendTo_self hfile bytes, ?_⟩
      have hle := hlength.trans (min_le_left _ _)
      rw [bytesRead, List.length_append]
      dsimp only
      omega
  | eof hstage =>
      rw [Standing, hstage] at h
      exact h.1.silent
  | flushed hstage =>
      rw [Standing, hstage] at h
      show Standing K (content ++ []) _ _
      rw [List.append_nil]
      exact h
  | @allocated skipped hstage =>
      rw [Standing, hstage] at h
      obtain ⟨hunsent, hwhole⟩ := h
      show Standing K (content ++ []) _ _
      rw [List.append_nil]
      by_cases hskip : world.bridge.nextTransferId = 0 ∧ skipped = false
      · rw [if_pos hskip]
        exact ⟨⟨hunsent.silent, hunsent.untaken⟩, hwhole⟩
      · rw [if_neg hskip]
        exact ⟨⟨hunsent.silent, hunsent.untaken⟩, hwhole⟩
  | @dispatched id bridge hstage hdispatch =>
      rw [Standing, hstage] at h
      obtain ⟨hunsent, hfile, hlength⟩ := h
      obtain ⟨inst, owner, hslot, halive, rfl⟩ := dispatch_eq_ok hdispatch
      show Standing K (content ++ []) _ _
      rw [List.append_nil]
      refine .inr ⟨hunsent.untaken, ⟨hfile, hlength⟩, owner, id, ?_, rfl, ?_, fun j hj => ?_⟩
      · dsimp only
        rw [hslot]
        rfl
      · have hnone := hunsent.silent owner
        rw [SpoolContents.mentions] at hnone
        rw [SpoolContents.mentions]
        dsimp only
        rw [Function.update_self, List.filter_append, hnone,
          List.filter_cons_of_pos (by simp [isFor])]
        rfl
      · have hnone := hunsent.silent j
        rw [SpoolContents.mentions] at hnone ⊢
        dsimp only
        rw [Function.update_of_ne hj, hnone]
  | rejected hstage =>
      rw [Standing, hstage] at h
      exact h.1.silent
  | unlinked hstage | unlinkFailed hstage =>
      rw [Standing, hstage] at h
      exact .inl h

end

/-! ### The PC -/

/-- What the request has read in the course of a run. -/
def received (u : Nat) (labels : List Act) : Bytes :=
  labels.flatMap fun
    | .serve v served => if v = u then bytesRead served else []
    | _ => []

theorem received_concat (u : Nat) (labels : List Act) (act : Act) :
    received u (labels ++ [act]) = received u labels ++ received u [act] :=
  List.flatMap_append

/-- Every spool file is where its request has brought it. -/
structure Stocked (crates : Crates) (cfg : Config) (hfolders : folders.downloads ≠ folders.temp)
    (K : PathBuf → Nat → Bool) (labels : List Act) (pc : Pc) : Prop where
  follows : ∀ p (hp : Inside folders.temp p) i m, pc.members i = some m →
    m.Follows (rules crates cfg hfolders hp) (K p i) pc.world
  connId : ∀ i m, pc.members i = some m → m.conn.connId = i
  inside : ∀ u r, pc.requests u = some r → Inside folders.temp r.spool
  distinct : ∀ u v r r', u ≠ v → pc.requests u = some r → pc.requests v = some r' →
    r.spool ≠ r'.spool
  known : ∀ j id name size temp, .send id name size temp ∈ pc.world.bridge.commands j →
    ∃ u r, pc.requests u = some r ∧ r.spool = temp
  strange : ∀ p, (∀ u r, pc.requests u = some r → r.spool ≠ p) → ∀ j, K p j = false
  unread : ∀ u, pc.requests u = none → received u labels = []
  standing : ∀ u r, pc.requests u = some r →
    Standing (K r.spool) (received u labels) pc.world r

section

variable {crates : Crates} {cfg : Config} {hfolders : folders.downloads ≠ folders.temp}
  {K : PathBuf → Nat → Bool} {labels : List Act} {pc pc' : Pc}

theorem Stocked.start (h : Fresh pc) :
    Stocked crates cfg hfolders (fun _ _ => false) [] pc := by
  obtain ⟨hmembers, hrequests, hcommands, -⟩ := h
  have hmember {P : Prop} {i : Nat} {m : Member} (hm : pc.members i = some m) : P := by
    rw [hmembers i] at hm
    cases hm
  have hrequest {P : Prop} {u : Nat} {r : SendRequest} (hr : pc.requests u = some r) : P := by
    rw [hrequests u] at hr
    cases hr
  refine ⟨fun _ _ _ _ => hmember, fun _ _ => hmember, fun _ _ => hrequest,
    fun _ _ _ _ _ hr _ => hrequest hr, ?_, fun _ _ _ => rfl, fun _ _ => rfl, fun _ _ => hrequest⟩
  intro j id name size temp hmem
  rw [hcommands j] at hmem
  exact absurd hmem List.not_mem_nil

theorem Stocked.silent (h : Stocked crates cfg hfolders K labels pc) {p : PathBuf}
    (hp : ∀ u r, pc.requests u = some r → r.spool ≠ p) (j : Nat) :
    mentions pc.world p j = [] := by
  rw [mentions, List.filter_eq_nil_iff]
  intro cmd hcmd hfor
  cases cmd with
  | send id name size temp =>
      obtain ⟨u, r, hr, hspool⟩ := h.known j id name size temp hcmd
      exact hp u r hr (hspool.trans (of_decide_eq_true hfor))
  | cancel id => cases hfor

theorem moved_of_acts {p : PathBuf} {hp : Inside folders.temp p} {i : Nat} {m m' : Member}
    {move : Move} {taken taken' : Bool} {world world' : World} (hid : m.conn.connId = i)
    (h : m.Acts (rules crates cfg hfolders hp) taken world move taken' world' m') :
    Moved p i taken taken' world world' ∧ m'.conn.connId = i := by
  have hnever {P : Prop} (h : taken = false) (h' : taken = true) : P := by
    rw [h] at h'
    cases h'
  subst hid
  cases h with
  | acted _ hacted hconn =>
      exact ⟨⟨hacted.shrinks, hacted.files, hacted.takes⟩, by rw [hconn, hacted.connId]⟩
  | stayed _ hconn _ =>
      exact ⟨⟨fun _ => List.suffix_rfl, fun _ => rfl, hnever⟩, by rw [hconn]⟩
  | returned _ hconn _ _ =>
      refine ⟨⟨fun j => ?_, fun _ => rfl, hnever⟩, by rw [hconn]⟩
      dsimp only
      rcases eq_or_ne j m.conn.connId with rfl | hne
      · rw [Function.update_self]
        exact List.nil_suffix
      · exact Function.update_of_ne hne _ _ ▸ List.suffix_rfl

theorem Stocked.stepped (h : Stocked crates cfg hfolders K labels pc) {i : Nat} {m m' : Member}
    {move : Move} {world : World} (hm : pc.members i = some m)
    (hstep : MemberStep crates cfg pc.world m move world m')
    (hdir : ∀ event os dir, move = .select event os → os.downloadsDir = .ok dir →
      dir = folders.downloads) :
    ∃ K', Stocked crates cfg hfolders K' (labels ++ [.step i move]) (pc.put world i m') := by
  have hacts (p : PathBuf) (hp : Inside folders.temp p) :
      ∃ taken', m.Acts (rules crates cfg hfolders hp) (K p i) pc.world move taken' world m' ∧
        m'.Follows (rules crates cfg hfolders hp) taken' world :=
    (h.follows p hp i m hm).step (fun _ => rfl) hstep
      (fun event os hmove _ => ⟨fun dir => hdir event os dir hmove, trivial⟩) fun _ _ => trivial
  choose! taken' hacted hfollows using hacts
  have hmoved (p : PathBuf) (hp : Inside folders.temp p) :
      Moved p i (K p i) (taken' p) pc.world world ∧ m'.conn.connId = i :=
    moved_of_acts (h.connId i m hm) (hacted p hp)
  classical
  let K' (p : PathBuf) : Nat → Bool :=
    if Inside folders.temp p then Function.update (K p) i (taken' p) else K p
  have hK {p : PathBuf} (hp : Inside folders.temp p) :
      K' p = Function.update (K p) i (taken' p) :=
    if_pos hp
  have hsame (u : Nat) : received u (labels ++ [.step i move]) = received u labels := by
    rw [received_concat]
    exact List.append_nil _
  have hsomewhere : Inside folders.temp (folders.temp.join "") := ⟨_, rfl⟩
  obtain ⟨hshrinks, hid⟩ := (hmoved _ hsomewhere).imp_left Moved.shrinks
  refine ⟨K', ?_, ?_, h.inside, h.distinct, ?_, ?_, fun u hu => ?_, fun u r hr => ?_⟩
  · intro p hp j m₂ hm₂
    rw [hK hp]
    rcases members_put hm₂ with ⟨rfl, rfl⟩ | ⟨hne, hold⟩
    · rw [Function.update_self]
      exact hfollows p hp
    · rw [Function.update_of_ne hne]
      exact (h.follows p hp j m₂ hold).rely rfl
  · intro j m₂ hm₂
    rcases members_put hm₂ with ⟨rfl, rfl⟩ | ⟨hne, hold⟩
    · exact hid
    · exact h.connId j m₂ hold
  · exact fun j id name size temp hmem =>
      h.known j id name size temp ((hshrinks j).subset hmem)
  · intro p hp j
    by_cases hinside : Inside folders.temp p
    · rw [hK hinside]
      have hunsent : Unsent (K p) pc.world p := ⟨h.silent hp, h.strange p hp⟩
      exact ((hmoved p hinside).1.unsent hunsent).untaken j
    · rw [show K' p = K p from if_neg hinside]
      exact h.strange p hp j
  · rw [hsame]
    exact h.unread u hu
  · rw [hsame, hK (h.inside u r hr)]
    exact (h.standing u r hr).moved (hmoved _ (h.inside u r hr)).1

theorem Stocked.of_world (h : Stocked crates cfg hfolders K labels pc) {world : World}
    {streamed : Nat → List Nat} {act : Act} (hact : ∀ u, received u [act] = [])
    (hfiles : world.files = pc.world.files)
    (hmentions : ∀ p j, mentions world p j = mentions pc.world p j) :
    Stocked crates cfg hfolders K (labels ++ [act]) { pc with world, streamed } := by
  have hsame (u : Nat) : received u (labels ++ [act]) = received u labels := by
    rw [received_concat, hact, List.append_nil]
  refine ⟨fun p hp i m hm => (h.follows p hp i m hm).rely rfl, h.connId, h.inside, h.distinct, ?_,
    h.strange, fun u hu => (hsame u).trans (h.unread u hu), fun u r hr => ?_⟩
  · intro j id name size temp hmem
    have hmention : .send id name size temp ∈ mentions world temp j :=
      List.mem_filter.mpr ⟨hmem, decide_eq_true rfl⟩
    rw [hmentions] at hmention
    exact h.known j id name size temp (List.mem_filter.mp hmention).1
  · rw [hsame]
    exact (h.standing u r hr).congr (congrFun hfiles _) (hmentions _)

theorem Stocked.joined (h : Stocked crates cfg hfolders K labels pc) {i : Nat}
    (peerLabel : String) :
    Stocked crates cfg hfolders (fun p => Function.update (K p) i false)
      (labels ++ [.join i peerLabel])
      (pc.put pc.world i (.start i peerLabel pc.world.now)) := by
  have hsame (u : Nat) : received u (labels ++ [.join i peerLabel]) = received u labels := by
    rw [received_concat]
    exact List.append_nil _
  have hidle (p : PathBuf) :
      Idle folders p false ⟨pc.world, (Member.start i peerLabel pc.world.now).conn⟩ :=
    fun _ => ⟨fun _ _ h => (nomatch h), fun _ _ h => (nomatch h)⟩
  have hmoved (p : PathBuf) : Moved p i (K p i) false pc.world pc.world :=
    ⟨fun _ => List.suffix_rfl, fun _ => rfl, fun _ h => nomatch h⟩
  refine ⟨?_, ?_, h.inside, h.distinct, h.known, ?_, fun u hu => (hsame u).trans (h.unread u hu),
    fun u r hr => ?_⟩
  · intro p hp j m hm
    rcases members_put hm with ⟨rfl, rfl⟩ | ⟨hne, hold⟩
    · rw [Function.update_self]
      exact hidle p
    · rw [Function.update_of_ne hne]
      exact h.follows p hp j m hold
  · intro j m hm
    rcases members_put hm with ⟨rfl, rfl⟩ | ⟨hne, hold⟩
    · rfl
    · exact h.connId j m hold
  · intro p hp j
    rcases eq_or_ne j i with rfl | hne
    · exact Function.update_self ..
    · exact (Function.update_of_ne hne ..).trans (h.strange p hp j)
  · rw [hsame]
    exact (h.standing u r hr).moved (hmoved _)

theorem received_serve_self (u : Nat) (served : Served) :
    received u [.serve u served] = bytesRead served := by
  show (if u = u then bytesRead served else []) ++ [] = _
  rw [if_pos rfl, List.append_nil]

theorem received_serve_of_ne {u v : Nat} (h : v ≠ u) (served : Served) :
    received v [.serve u served] = [] := by
  show (if u = v then bytesRead served else []) ++ [] = _
  rw [if_neg h.symm, List.append_nil]

theorem Stocked.replace (h : Stocked crates cfg hfolders K labels pc) {u : Nat} {r : SendRequest}
    {world : World} {act : Act} (hinside : Inside folders.temp r.spool)
    (hsame : ∀ r₀, pc.requests u = some r₀ → r.spool = r₀.spool)
    (hdistinct : ∀ v r', v ≠ u → pc.requests v = some r' → r'.spool ≠ r.spool)
    (hcommands : ∀ j id name size temp, .send id name size temp ∈ world.bridge.commands j →
      .send id name size temp ∈ pc.world.bridge.commands j ∨ temp = r.spool)
    (hreceived : ∀ v, v ≠ u → received v [act] = [])
    (hfiles : ∀ p, p ≠ r.spool → world.files p = pc.world.files p)
    (hmentions : ∀ p, p ≠ r.spool → ∀ j, mentions world p j = mentions pc.world p j)
    (hstanding : Standing (K r.spool) (received u labels ++ received u [act]) world r) :
    Stocked crates cfg hfolders K (labels ++ [act])
      { pc with world, requests := Function.update pc.requests u (some r) } := by
  have hcases {v : Nat} {r' : SendRequest}
      (hr' : Function.update pc.requests u (some r) v = some r') :
      (v = u ∧ r' = r) ∨ (v ≠ u ∧ pc.requests v = some r') := by
    rcases eq_or_ne v u with rfl | hne
    · rw [Function.update_self] at hr'
      exact .inl ⟨rfl, (Option.some.inj hr').symm⟩
    · rw [Function.update_of_ne hne] at hr'
      exact .inr ⟨hne, hr'⟩
  have hkept {v : Nat} {r₀ : SendRequest} (hr₀ : pc.requests v = some r₀) :
      ∃ r', Function.update pc.requests u (some r) v = some r' ∧ r'.spool = r₀.spool := by
    rcases eq_or_ne v u with rfl | hne
    · exact ⟨r, Function.update_self .., hsame r₀ hr₀⟩
    · exact ⟨r₀, (Function.update_of_ne hne ..).trans hr₀, rfl⟩
  refine ⟨fun p hp i m hm => (h.follows p hp i m hm).rely rfl, h.connId, ?_, ?_, ?_, ?_, ?_, ?_⟩
  · intro v r' hr'
    rcases hcases hr' with ⟨-, rfl⟩ | ⟨-, hold⟩
    · exact hinside
    · exact h.inside v r' hold
  · intro v v' r₁ r₂ hne hr₁ hr₂
    rcases hcases hr₁ with ⟨rfl, rfl⟩ | ⟨hne₁, hold₁⟩
    · rcases hcases hr₂ with ⟨rfl, -⟩ | ⟨hne₂, hold₂⟩
      · exact absurd rfl hne
      · exact (hdistinct v' r₂ hne₂ hold₂).symm
    · rcases hcases hr₂ with ⟨rfl, rfl⟩ | ⟨-, hold₂⟩
      · exact hdistinct v r₁ hne₁ hold₁
      · exact h.distinct v v' r₁ r₂ hne hold₁ hold₂
  · intro j id name size temp hmem
    rcases hcommands j id name size temp hmem with hold | rfl
    · obtain ⟨v, r₀, hr₀, heq⟩ := h.known j id name size temp hold
      obtain ⟨r', hr', hspool⟩ := hkept hr₀
      exact ⟨v, r', hr', hspool.trans heq⟩
    · exact ⟨u, r, Function.update_self .., rfl⟩
  · intro p hp
    refine h.strange p fun v r₀ hr₀ => ?_
    obtain ⟨r', hr', hspool⟩ := hkept hr₀
    rw [← hspool]
    exact hp v r' hr'
  · intro v hv
    rcases eq_or_ne v u with rfl | hne
    · dsimp only at hv
      rw [Function.update_self] at hv
      cases hv
    · dsimp only at hv
      rw [Function.update_of_ne hne] at hv
      rw [received_concat, hreceived v hne, List.append_nil]
      exact h.unread v hv
  · intro v r' hr'
    rw [received_concat]
    rcases hcases hr' with ⟨rfl, rfl⟩ | ⟨hne, hold⟩
    · exact hstanding
    · have hother := hdistinct v r' hne hold
      rw [hreceived v hne, List.append_nil]
      exact (h.standing v r' hold).congr (hfiles _ hother) (hmentions _ hother)

theorem Stocked.requested (h : Stocked crates cfg hfolders K labels pc) {u : Nat}
    {r : SendRequest} {name uuid : String} {len : UInt64} (hfree : pc.requests u = none)
    (hinside : Inside folders.temp r.spool) (hstage : r.stage = .probing)
    (hnew : ∀ v r', pc.requests v = some r' → r'.spool ≠ r.spool) :
    Stocked crates cfg hfolders K (labels ++ [.request u name len uuid])
      { pc with requests := Function.update pc.requests u (some r) } := by
  refine h.replace hinside (fun r₀ hr₀ => ?_) (fun v r' _ => hnew v r')
    (fun _ _ _ _ _ => .inl) (fun _ _ => rfl) (fun _ _ => rfl) (fun _ _ _ => rfl) ?_
  · rw [hfree] at hr₀
    cases hr₀
  · rw [h.unread u hfree, Standing, hstage]
    exact ⟨⟨h.silent hnew, h.strange _ hnew⟩, rfl⟩

theorem Stocked.served (h : Stocked crates cfg hfolders K labels pc) {u : Nat}
    {r r' : SendRequest} {served : Served} {world : World} (hr : pc.requests u = some r)
    (hstep : RequestStep pc.alive pc.world r served world r') :
    Stocked crates cfg hfolders K (labels ++ [.serve u served])
      { pc with world, requests := Function.update pc.requests u (some r') } := by
  have hspool := hstep.spool
  have hother {p : PathBuf} (hp : p ≠ r'.spool) : p ≠ r.spool := by rwa [← hspool]
  refine h.replace (hspool ▸ h.inside u r hr) (fun r₀ hr₀ => ?_) (fun v r₂ hne hr₂ => ?_) ?_
    (fun v hne => received_serve_of_ne hne served) (fun p hp => hstep.files (hother hp))
    (fun p hp => RequestStep.mentions hstep (hother hp)) ?_
  · rw [hspool, Option.some.inj (hr.symm.trans hr₀)]
  · rw [hspool]
    exact h.distinct v u r₂ r hne hr₂ hr
  · intro j id name size temp hmem
    refine (hstep.commands hmem).imp_right ?_
    rintro ⟨id', hcmd⟩
    cases hcmd
    exact hspool.symm
  · rw [received_serve_self, hspool]
    exact (h.standing u r hr).served hstep

theorem Stocked.step (h : Stocked crates cfg hfolders K labels pc) {act : Act}
    (hstep : PcStep crates cfg folders pc act pc') :
    ∃ K', Stocked crates cfg hfolders K' (labels ++ [act]) pc' := by
  cases hstep with
  | join peerLabel hfree => exact ⟨_, h.joined peerLabel⟩
  | step hm hmember hdir => exact h.stepped hm hmember hdir
  | request name len uuid hfree hpos hmax hname hnew =>
      exact ⟨K, h.requested hfree ⟨_, rfl⟩ rfl hname⟩
  | serve hr hserved => exact ⟨K, h.served hr hserved⟩
  | cancel hdispatch =>
      exact ⟨K, h.of_world (fun _ => rfl) rfl fun _ => dispatch_mentions hdispatch rfl⟩
  | cancelIgnored hdispatch => exact ⟨K, h.of_world (fun _ => rfl) rfl fun _ _ => rfl⟩
  | streamerEnds hm hflag => exact ⟨K, h.of_world (fun _ => rfl) rfl fun _ _ => rfl⟩
  | tick elapsed unixMs => exact ⟨K, h.of_world (fun _ => rfl) rfl fun _ _ => rfl⟩
  | rotate code key => exact ⟨K, h.of_world (fun _ => rfl) rfl fun _ _ => rfl⟩

theorem Stocked.run (hfolders : folders.downloads ≠ folders.temp) (hfresh : Fresh pc)
    (hrun : (pool crates cfg folders).Run pc labels pc') :
    ∃ K, Stocked crates cfg hfolders K labels pc' := by
  refine hrun.invariant
    (I := fun labels pc => ∃ K, Stocked crates cfg hfolders K labels pc) ⟨_, .start hfresh⟩ ?_
  rintro labels t act u - ⟨K, h⟩ hstep
  exact h.step hstep

theorem Standing.awaited {K : Nat → Bool} {content : Bytes} {world : World} {r : SendRequest}
    {j : Nat} (h : Standing K content world r) (hmention : mentions world r.spool j ≠ []) :
    r.stage = .ended ∧ Awaited K content world r := by
  have hnever {P : Prop} (hsilent : ∀ j, mentions world r.spool j = []) : P :=
    absurd (hsilent j) hmention
  unfold Standing at h
  split at h
  · exact hnever h.1.silent
  · exact hnever h.1.silent
  · exact hnever h.1.silent
  · exact hnever h.1.silent
  · exact hnever h.1.silent
  · exact hnever h
  · next hstage => exact ⟨hstage, h.elim hnever id⟩

end

/-- In every run of a PC whose downloads are not kept in the folder of the spool files: a send in
the queue of a connection is there once, it is that of exactly one request, which has been sent to
this connection with this id, name and size, and the spool file holds exactly what the request has
read, which has that size. -/
theorem spool_exact (crates : Crates) (cfg : Config) {folders : Folders}
    (hfolders : folders.downloads ≠ folders.temp) {pc₀ pc : Pc} {labels : List Act}
    (hfresh : Fresh pc₀) (hrun : (pool crates cfg folders).Run pc₀ labels pc) {i : Nat}
    {id : UInt32} {name : String} {size : UInt64} {temp : PathBuf}
    (hqueued : .send id name size temp ∈ pc.world.bridge.commands i) :
    (∃! u, pc.requests u = some
        { name, len := size, spool := temp, stage := .ended, sentTo := some i, sentId := some id } ∧
      pc.world.files temp = some (received u labels) ∧
      (received u labels).length = size.toNat) ∧
    ∀ j, mentions pc.world temp j = if j = i then [.send id name size temp] else [] := by
  obtain ⟨K, h⟩ := Stocked.run hfolders hfresh hrun
  obtain ⟨u, r, hr, rfl⟩ := h.known i id name size temp hqueued
  have hmem : .send id name size r.spool ∈ mentions pc.world r.spool i :=
    List.mem_filter.mpr ⟨hqueued, decide_eq_true rfl⟩
  obtain ⟨hstage, hawaited⟩ := (h.standing u r hr).awaited (List.ne_nil_of_mem hmem)
  obtain ⟨i', id', hto, hid, hqueue, hothers⟩ := hawaited.queued
  have hi : i = i' := by
    by_contra hne
    rw [hothers i hne] at hmem
    exact absurd hmem List.not_mem_nil
  subst hi
  rw [hqueue, List.mem_singleton] at hmem
  cases hmem
  refine ⟨⟨u, ⟨?_, hawaited.whole⟩, ?_⟩, fun j => ?_⟩
  · rw [hr, ← hstage, ← hto, ← hid]
  · rintro v ⟨hv, -⟩
    by_contra hne
    exact h.distinct v u _ r hne hv hr rfl
  · split
    · next hj => rw [hj, hqueue]
    · next hj => exact hothers j hj

/-- The command of an upload of five bytes waits for its connection. -/
theorem spool_exact_sent : ∃ labels,
    (pool phoneCrates bareConfig usualFolders).Run pairedPc labels Spools.sent ∧
      ∃ u, Spools.sent.world.files (Spools.upload .probing none).spool = some (received u labels) ∧
        (received u labels).length = 5 := by
  obtain ⟨labels, hrun⟩ := Spools.leads_sent
  have hqueued : .send 1 "a.txt" 5 (Spools.upload .probing none).spool ∈
      Spools.sent.world.bridge.commands 0 := by decide +kernel
  obtain ⟨⟨u, ⟨-, hfile⟩, -⟩, -⟩ :=
    spool_exact _ _ usualFolders_ne fresh_paired hrun.of_restrict hqueued
  exact ⟨labels, hrun.of_restrict, u, hfile⟩

end RemoteControl.Server.SpoolContents
