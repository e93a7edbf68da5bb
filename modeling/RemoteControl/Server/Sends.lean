import RemoteControl.Server.Pool
import RemoteControl.Server.Transfers

/-!
The sends to the phone as the uploads and all other handlers see them: which handlers leave the
sends of the connection, its commands and its streamers alone.
-/

namespace RemoteControl.Server.Sends

open RemoteControl.Foundations.ByteStrings
open RemoteControl.Foundations.Interference
open RemoteControl.Foundations.Interference.Task
open RemoteControl.Wire.Protocol
open RemoteControl.Server.Stores
open RemoteControl.Server.Connection
open RemoteControl.Server.FileHandlers
open RemoteControl.Server.Loop
open RemoteControl.Server.Transfers
open RemoteControl.Server.Pool

/-- The id that an effect spawns a streamer for. -/
def spawnedId : Effect → Option UInt32
  | .spawnSender id => some id
  | _ => none

/-- The ids of the streamers, in the order of their flags. -/
def spawned (c : Conn) : List UInt32 :=
  c.effects.filterMap spawnedId

/-- A section that has nothing to do with sends. Files appear in the downloads directory only. -/
structure Aloof (folders : Folders) (s s' : St) : Prop where
  connId : s'.conn.connId = s.conn.connId
  fileSends : s'.conn.fileSends = s.conn.fileSends
  cancelFlags : s'.conn.cancelFlags = s.conn.cancelFlags
  spawned : spawned s'.conn = spawned s.conn
  commands : s'.world.bridge.commands = s.world.bridge.commands
  authenticated : s.conn.authenticated = true → s'.conn.authenticated = true
  files : ∀ p, ¬Inside folders.downloads p → s'.world.files p ≠ none → s.world.files p ≠ none

/-- The others only add to the queue. -/
structure Left (s s' : St) : Prop where
  conn : s'.conn = s.conn
  commands : ∃ appended, s'.world.bridge.commands s.conn.connId =
    s.world.bridge.commands s.conn.connId ++ appended

theorem Left.refl (s : St) : Left s s :=
  ⟨rfl, [], (List.append_nil _).symm⟩

theorem Left.trans {s s' u : St} (h : Left s s') (h' : Left s' u) : Left s u := by
  obtain ⟨hconn, appended, hcommands⟩ := h
  obtain ⟨hconn', appended', hcommands'⟩ := h'
  rw [hconn] at hconn' hcommands'
  refine ⟨hconn', appended ++ appended', ?_⟩
  rw [hcommands', hcommands, List.append_assoc]

variable {folders : Folders} {os : Answers}

theorem Aloof.refl (s : St) : Aloof folders s s :=
  ⟨rfl, rfl, rfl, rfl, rfl, id, fun _ _ => id⟩

theorem spawned_eq_deeds (c : Conn) : spawned c = (deeds c).filterMap spawnedId := by
  rw [deeds, List.filterMap_filter]
  refine List.filterMap_congr fun effect _ => ?_
  cases effect <;> rfl

theorem Aloof.of_detached {s s' : St} (h : Detached s s') : Aloof folders s s' := by
  refine ⟨h.connId, h.fileSends, h.cancelFlags, ?_, h.commands, h.authenticated, fun p _ => ?_⟩
  · rw [spawned_eq_deeds, spawned_eq_deeds, h.deeds]
  · rw [h.files]
    exact id

theorem aloof_of_detached {α : Type} {t : Handler α} (h : Guarantees Detached t) :
    Guarantees (Aloof folders) t :=
  h.mono fun _ _ => Aloof.of_detached

theorem read_aloof {α : Type} (f : St → α) :
    Guarantees (Aloof folders) (.read f : Handler α) :=
  aloof_of_detached (read_detached f)

theorem push_aloof (out : Outgoing) : Guarantees (Aloof folders) (push out) :=
  aloof_of_detached (push_detached out)

/-! ### Uploads -/

theorem setTransfers_aloof (f : Conn → HashMap UInt32 FileTransferState) :
    Guarantees (Aloof folders) (onConn fun c => { c with fileTransfers := f c }) :=
  (guarantees_modify _).mpr fun _ => ⟨rfl, rfl, rfl, rfl, rfl, id, fun _ _ => id⟩

theorem takeTransfer_aloof (id : UInt32) : Guarantees (Aloof folders) (takeTransfer id) :=
  (guarantees_critical _).mpr fun _ => ⟨rfl, rfl, rfl, rfl, rfl, (·), fun _ _ => (·)⟩

theorem insertTransfer_aloof (id : UInt32) (state : FileTransferState) :
    Guarantees (Aloof folders) (insertTransfer id state) :=
  setTransfers_aloof _

theorem onFiles_aloof {f : (PathBuf → Option Bytes) → PathBuf → Option Bytes} {effect : Effect}
    (heffect : spawnedId effect = none)
    (hfiles : ∀ files p, ¬Inside folders.downloads p → f files p ≠ none → files p ≠ none) :
    Guarantees (Aloof folders) (onFiles f effect) := by
  refine (guarantees_modify _).mpr fun s => ⟨rfl, rfl, rfl, ?_, rfl, id, hfiles s.world.files⟩
  rw [spawned, spawned, List.filterMap_append]
  simp [heffect]

theorem removeFile_aloof (path : PathBuf) : Guarantees (Aloof folders) (removeFile os path) := by
  refine onFiles_aloof ?_ fun files p _ hp => ?_
  · rfl
  rcases eq_or_ne p path with rfl | hne
  · split at hp
    · exact hp
    · exact absurd (Function.update_self ..) hp
  · split at hp
    · exact hp
    · rwa [Function.update_of_ne hne] at hp

theorem createFile_aloof {path : PathBuf} (hinside : Inside folders.downloads path) :
    Guarantees (Aloof folders) (createFile os path) := by
  refine onFiles_aloof ?_ fun files p hp hsome => ?_
  · rfl
  split at hsome
  · exact hsome
  · rwa [Function.update_of_ne (by rintro rfl; exact hp hinside)] at hsome

theorem writeAll_aloof (file : OpenFile) (payload : Bytes) :
    Guarantees (Aloof folders) (writeAll os file payload) := by
  unfold writeAll
  refine onFiles_aloof ?_ fun files p _ hp => ?_
  · rfl
  rcases hfile : files file.path with _ | content
  · rwa [hfile] at hp
  · rw [hfile] at hp
    rcases eq_or_ne p file.path with rfl | hne
    · simp [hfile]
    · exact Function.update_of_ne hne _ files ▸ hp

theorem metadataIsErr_aloof (path : PathBuf) :
    Guarantees (Aloof folders) (metadataIsErr os path) :=
  read_aloof _

theorem probeCandidates_aloof (dir : PathBuf) (name stem ext : String) (ns : List Nat) :
    Guarantees (Aloof folders) (probeCandidates os dir name stem ext ns) := by
  induction ns with
  | nil => exact guarantees_pure _
  | cons n rest ih =>
      refine (metadataIsErr_aloof _).bind fun isErr => ?_
      split
      · exact guarantees_pure _
      · exact ih

/-- The path that is found lies in the directory. -/
def FoundIn (dir : PathBuf) (result : Except String PathBuf) : Prop :=
  ∀ p, result = .ok p → Inside dir p

theorem probeCandidates_foundIn (dir : PathBuf) (name stem ext : String) (ns : List Nat) :
    Returns (FoundIn dir) (probeCandidates os dir name stem ext ns) := by
  induction ns with
  | nil => exact fun p h => nomatch h
  | cons n rest ih =>
      refine (returns_true _).bind fun isErr _ => ?_
      split
      · rintro p ⟨⟩
        exact ⟨_, rfl⟩
      · exact ih

theorem uniqueDestPath_aloof (dir : PathBuf) (name : String) :
    Guarantees (Aloof folders) (uniqueDestPath os dir name) := by
  refine (metadataIsErr_aloof _).bind fun isErr => ?_
  split
  · exact guarantees_pure _
  · exact probeCandidates_aloof ..

theorem uniqueDestPath_foundIn (dir : PathBuf) (name : String) :
    Returns (FoundIn dir) (uniqueDestPath os dir name) := by
  refine (returns_true _).bind fun isErr _ => ?_
  split
  · rintro p ⟨⟩
    exact ⟨_, rfl⟩
  · exact probeCandidates_foundIn ..

theorem handleFileBegin_aloof (hdir : ∀ dir, os.downloadsDir = .ok dir → dir = folders.downloads)
    (id : UInt32) (name : String) (size : UInt64) :
    Guarantees (Aloof folders) (handleFileBegin os id name size) := by
  refine (read_aloof St.conn).bind fun conn => ?_
  split
  · exact push_aloof _
  split
  · exact push_aloof _
  refine (aloof_of_detached (perform_detached (by simp [isDetached]))).bind fun _ => ?_
  split
  · exact push_aloof _
  next dir hok =>
    obtain rfl := hdir dir hok
    refine (uniqueDestPath_aloof _ _).bind_of_returns (uniqueDestPath_foundIn _ _) ?_
    rintro (e | path) hfound
    · exact push_aloof _
    · refine (createFile_aloof (hfound path rfl)).bind fun _ => ?_
      split
      · exact push_aloof _
      · exact (insertTransfer_aloof _ _).bind fun _ => push_aloof _

theorem handleFileAbort_aloof (id : UInt32) :
    Guarantees (Aloof folders) (handleFileAbort os id) := by
  refine (takeTransfer_aloof id).bind fun found => ?_
  cases found with
  | none => exact guarantees_pure _
  | some state => exact removeFile_aloof _

theorem failChunk_aloof (id : UInt32) (dest : PathBuf) (reason : String) :
    Guarantees (Aloof folders) (failChunk os id dest reason) :=
  (removeFile_aloof dest).bind fun _ => push_aloof _

theorem handleFileChunk_aloof (bytes : Bytes) :
    Guarantees (Aloof folders) (handleFileChunk os bytes) := by
  unfold handleFileChunk
  split
  · exact guarantees_pure _
  refine (takeTransfer_aloof _).bind fun found => ?_
  cases found with
  | none => exact guarantees_pure _
  | some state =>
      dsimp only
      split
      · exact failChunk_aloof _ _ _
      refine (writeAll_aloof _ _).bind fun _ => ?_
      split
      · exact failChunk_aloof _ _ _
      split
      · exact push_aloof _
      · exact insertTransfer_aloof _ _

theorem drainTransfers_aloof : Guarantees (Aloof folders) (drainTransfers os) :=
  (read_aloof St.conn).bind fun _ => (setTransfers_aloof _).bind fun _ =>
    Guarantees.forM fun _ _ => removeFile_aloof _

end RemoteControl.Server.Sends
