import RemoteControl.Server.Pool
import RemoteControl.Server.Transfers

/-!
Uploads of several connections at once: the name of a new file is probed in one section and the
file is created in a later one, so what keeps the files apart is who may come between the two.
-/

namespace RemoteControl.Server.Destinations

open RemoteControl.Foundations.ByteStrings
open RemoteControl.Foundations.Custody
open RemoteControl.Foundations.Interference
open RemoteControl.Foundations.Interference.Task
open RemoteControl.Foundations.Transition
open RemoteControl.Foundations.Transition.System
open RemoteControl.Wire.Protocol
open RemoteControl.Server.Stores
open RemoteControl.Server.Connection
open RemoteControl.Server.FileHandlers
open RemoteControl.Server.Loop
open RemoteControl.Server.Frame
open RemoteControl.Server.Transfers
open RemoteControl.Server.Pool

/-! ### What a connection holds -/

/-- Besides the transfers in its map: the paths of transfers that a handler has taken out of it,
and the path that a probe has found unused and that is created next. -/
structure Hold where
  inFlight : List PathBuf := []
  pending : Option PathBuf := none

/-- A live transfer of the connection writes to the path. -/
def LiveAt (c : Conn) (p : PathBuf) : Prop :=
  ∃ id state, c.fileTransfers.lookup id = some state ∧ state.destPath = p

def Held (k : Hold) (c : Conn) (p : PathBuf) : Prop :=
  p ∈ k.inFlight ∨ LiveAt c p

def SpoolCmd (folders : Folders) (cmd : FileSendCmd) : Prop :=
  ∀ id name size temp, cmd = .send id name size temp → Inside folders.temp temp

/-- A connection and its files are in order. -/
structure Sane (folders : Folders) (k : Hold) (s : St) : Prop where
  distinct : ∀ id id' state state', s.conn.fileTransfers.lookup id = some state →
    s.conn.fileTransfers.lookup id' = some state' → state.destPath = state'.destPath → id = id'
  nodup : k.inFlight.Nodup
  away : ∀ p ∈ k.inFlight, ¬LiveAt s.conn p
  handles : ∀ id state, s.conn.fileTransfers.lookup id = some state →
    state.file.path = state.destPath
  exist : ∀ p, Held k s.conn p → s.world.files p ≠ none ∧ Inside folders.downloads p
  free : ∀ p, k.pending = some p → s.world.files p = none ∧ Inside folders.downloads p
  sends : ∀ id st, s.conn.fileSends.lookup id = some st → Inside folders.temp st.tempPath
  commands : ∀ cmd ∈ s.world.bridge.commands s.conn.connId, SpoolCmd folders cmd

/-- The others leave alone what the connection holds and the name it is about to create. -/
structure Spared (folders : Folders) (k : Hold) (s s' : St) : Prop where
  conn : s'.conn = s.conn
  files : ∀ p, Held k s.conn p ∨ k.pending = some p → s'.world.files p = s.world.files p
  commands : ∀ cmd ∈ s'.world.bridge.commands s.conn.connId,
    cmd ∈ s.world.bridge.commands s.conn.connId ∨ SpoolCmd folders cmd

/-- The section calls `File::create` for the path. -/
def Created (p : PathBuf) (s s' : St) : Prop :=
  s'.conn.effects = s.conn.effects ++ [.createFile p]

/-- The connection creates only the pending path and changes only files that its handler has
taken out of the map. -/
structure Acted (folders : Folders) (k : Hold) (s : St) (k' : Hold) (s' : St) : Prop where
  sane : Sane folders k' s'
  connId : s'.conn.connId = s.conn.connId
  touched : ∀ p, s'.world.files p ≠ s.world.files p →
    p ∈ k.inFlight ∨ k.pending = some p ∨ Inside folders.temp p
  taken : ∀ p, Held k' s'.conn p → Held k s.conn p ∨ k.pending = some p
  creates : ∀ p, Created p s s' → k.pending = some p
  commands : ∀ j, j ≠ s.conn.connId →
    s'.world.bridge.commands j = s.world.bridge.commands j

/-- The section is a call of `File::create` for the path, in whatever state it runs. -/
def Creates (update : St → St) (p : PathBuf) : Prop :=
  ∀ s, Created p s (update s)

def discipline (folders : Folders) : Discipline St Hold where
  rely := Spared folders
  act := Acted folders
  next k update := ∀ p, k.pending = some p → Creates update p

variable {folders : Folders} {k : Hold} {s s' : St}

theorem Spared.trans {u : St} (h : Spared folders k s s') (h' : Spared folders k s' u) :
    Spared folders k s u := by
  obtain ⟨hconn, hfiles, hcommands⟩ := h
  obtain ⟨hconn', hfiles', hcommands'⟩ := h'
  rw [hconn] at hfiles' hcommands' hconn'
  refine ⟨hconn', fun p hp => (hfiles' p hp).trans (hfiles p hp), fun cmd hcmd => ?_⟩
  exact (hcommands' cmd hcmd).elim (hcommands cmd) .inr

theorem Sane.spared (h : Sane folders k s) (hspared : Spared folders k s s') :
    Sane folders k s' := by
  obtain ⟨hconn, hfiles, hcommands⟩ := hspared
  have hheld (p : PathBuf) (hp : Held k s'.conn p) : Held k s.conn p := hconn ▸ hp
  refine ⟨hconn ▸ h.distinct, h.nodup, hconn ▸ h.away, hconn ▸ h.handles, ?_, ?_,
    hconn ▸ h.sends, ?_⟩
  · intro p hp
    rw [hfiles p (.inl (hheld p hp))]
    exact h.exist p (hheld p hp)
  · intro p hp
    rw [hfiles p (.inr hp)]
    exact h.free p hp
  · intro cmd hcmd
    rw [hconn] at hcmd
    exact (hcommands cmd hcmd).elim (h.commands cmd) id

/-! ### Sections -/

/-- Nothing is taken out and nothing is about to be created. -/
def Idle (folders : Folders) (k : Hold) (s : St) : Prop :=
  k = {} ∧ Sane folders {} s

theorem not_created_of_deeds (h : deeds s'.conn = deeds s.conn) (p : PathBuf) :
    ¬Created p s s' := by
  intro hcreated
  rw [deeds, deeds, hcreated, List.filter_append] at h
  exact absurd (List.append_right_eq_self.mp h) (by simp [isDetached])

theorem acted_of_world_eq {k' : Hold} (hsane : Sane folders k' s')
    (hconnId : s'.conn.connId = s.conn.connId)
    (hheld : ∀ p, Held k' s'.conn p → Held k s.conn p)
    (hdeeds : deeds s'.conn = deeds s.conn) (hfiles : s'.world.files = s.world.files)
    (hcommands : s'.world.bridge.commands = s.world.bridge.commands) :
    Acted folders k s k' s' := by
  refine ⟨hsane, hconnId, ?_, fun p hp => .inl (hheld p hp), ?_, ?_⟩
  · intro p hp
    rw [hfiles] at hp
    exact absurd rfl hp
  · exact fun p hp => absurd hp (not_created_of_deeds hdeeds p)
  · intro j _
    rw [hcommands]

theorem Sane.detached (h : Sane folders k s) (hdetached : Detached s s') : Sane folders k s' := by
  have hlive (p : PathBuf) : LiveAt s'.conn p ↔ LiveAt s.conn p := by
    rw [LiveAt, LiveAt, hdetached.fileTransfers]
  refine ⟨?_, h.nodup, ?_, ?_, ?_, ?_, ?_, ?_⟩
  · rw [hdetached.fileTransfers]
    exact h.distinct
  · exact fun p hp hp' => h.away p hp ((hlive p).mp hp')
  · rw [hdetached.fileTransfers]
    exact h.handles
  · intro p hp
    rw [hdetached.files]
    exact h.exist p (hp.imp_right (hlive p).mp)
  · rw [hdetached.files]
    exact h.free
  · rw [hdetached.fileSends]
    exact h.sends
  · rw [hdetached.commands, hdetached.connId]
    exact h.commands

theorem keeps_detached {α : Type} {t : Handler α} (ht : Guarantees Detached t)
    (hpending : k.pending = none) (h : Sane folders k s) :
    Keeps (discipline folders) (fun k' _ s' => k' = k ∧ Sane folders k s') t k s := by
  refine (keeps_of_guarantees (I := Sane folders) ht ?_ Sane.spared ?_ h).mono ?_
  · intro update p hp
    cases hpending.symm.trans hp
  · intro s s' hsane hdetached
    have hsane' := hsane.detached hdetached
    refine ⟨acted_of_world_eq hsane' hdetached.connId ?_ hdetached.deeds hdetached.files
      hdetached.commands, hsane'⟩
    intro p hp
    rw [Held, LiveAt, ← hdetached.fileTransfers]
    exact hp
  · rintro k' a s' ⟨rfl, hsane⟩
    exact ⟨rfl, hsane⟩

theorem keeps_idle {α : Type} {t : Handler α} (ht : Guarantees Detached t)
    (h : Idle folders k s) :
    Keeps (discipline folders) (fun k _ s => Idle folders k s) t k s := by
  obtain ⟨rfl, hsane⟩ := h
  exact keeps_detached ht rfl hsane

theorem keeps_then {α β : Type} {mid : Hold → α → St → Prop} {t : Handler α} {f : α → Handler β}
    (ht : Keeps (discipline folders) mid t k s)
    (hmid : ∀ k a s, mid k a s → Idle folders k s) (hf : ∀ a, Guarantees Detached (f a)) :
    Keeps (discipline folders) (fun k _ s => Idle folders k s) (t >>= f) k s :=
  ht.bind fun k a s h => keeps_idle (hf a) (hmid k a s h)

/-! ### Begin -/

/-- What a probe knows: when it finds no file, the name is pending. -/
def Probed (folders : Folders) (path : PathBuf) (k : Hold) (isErr : Bool) (s : St) : Prop :=
  k = (if isErr then { pending := some path } else {}) ∧ Sane folders k s

theorem Sane.pend (h : Sane folders {} s) {path : PathBuf} (hfree : s.world.files path = none)
    (hinside : Inside folders.downloads path) : Sane folders { pending := some path } s := by
  refine { h with free := ?_ }
  rintro p ⟨⟩
  exact ⟨hfree, hinside⟩

theorem metadataIsErr_keeps {os : Answers} {path : PathBuf}
    (hfault : os.metadataFault path = false) (hinside : Inside folders.downloads path)
    (h : Idle folders k s) :
    Keeps (discipline folders) (Probed folders path) (metadataIsErr os path) k s := by
  obtain ⟨rfl, hsane⟩ := h
  refine keeps_read (by rintro p ⟨⟩) fun found hfound => ?_
  have hsane := hsane.spared hfound
  simp only [hfault, Bool.or_false]
  rcases hfile : found.world.files path with _ | content
  · have hpend := hsane.pend hfile hinside
    exact ⟨{ pending := some path }, acted_of_world_eq hpend rfl (fun _ hp => hp) rfl rfl rfl,
      rfl, hpend⟩
  · exact ⟨{}, acted_of_world_eq hsane rfl (fun _ hp => hp) rfl rfl rfl, rfl, hsane⟩

/-- What the search for a name ends in: the name it returns is pending. -/
def Found (folders : Folders) (k : Hold) (result : Except String PathBuf) (s : St) : Prop :=
  k = { pending := result.toOption } ∧ Sane folders k s

theorem probeCandidates_keeps {os : Answers} (hfault : ∀ path, os.metadataFault path = false)
    (name stem ext : String) (ns : List Nat) (h : Idle folders k s) :
    Keeps (discipline folders) (Found folders)
      (probeCandidates os folders.downloads name stem ext ns) k s := by
  induction ns generalizing k s with
  | nil => exact ⟨h.1, h.1 ▸ h.2⟩
  | cons n rest ih =>
      refine (metadataIsErr_keeps (hfault _) ⟨_, rfl⟩ h).bind ?_
      rintro k isErr s ⟨rfl, hsane⟩
      cases isErr with
      | true => exact keeps_pure ⟨rfl, hsane⟩
      | false => exact ih ⟨rfl, hsane⟩

theorem uniqueDestPath_keeps {os : Answers} (hfault : ∀ path, os.metadataFault path = false)
    (name : String) (h : Idle folders k s) :
    Keeps (discipline folders) (Found folders) (uniqueDestPath os folders.downloads name) k s := by
  refine (metadataIsErr_keeps (hfault _) ⟨_, rfl⟩ h).bind ?_
  rintro k isErr s ⟨rfl, hsane⟩
  cases isErr with
  | true => exact keeps_pure ⟨rfl, hsane⟩
  | false => exact probeCandidates_keeps hfault name _ _ _ ⟨rfl, hsane⟩

theorem createFile_keeps (os : Answers) {path : PathBuf}
    (hsane : Sane folders { pending := some path } s) :
    Keeps (discipline folders)
      (fun k _ s =>
        k = (if os.createFault.isSome then {} else { inFlight := [path] }) ∧ Sane folders k s)
      (createFile os path) { pending := some path } s := by
  refine keeps_modify ?_ fun found hfound => ?_
  · rintro p ⟨⟩ s
    rfl
  have hsane := hsane.spared hfound
  obtain ⟨hfree, hinside⟩ := hsane.free path rfl
  have hcreated (files : PathBuf → Option Bytes) (p : PathBuf)
      (hp : Created p found
        { world := { found.world with files }
          conn := { found.conn with effects := found.conn.effects ++ [.createFile path] } }) :
      ({ pending := some path } : Hold).pending = some p := by
    rw [Created, List.append_cancel_left_eq, List.singleton_inj] at hp
    rw [Effect.createFile.inj hp]
  rcases hfault : os.createFault with _ | e
  · have hnew : Sane folders { inFlight := [path] }
        { world := { found.world with files := Function.update found.world.files path (some []) }
          conn := { found.conn with effects := found.conn.effects ++ [.createFile path] } } := by
      refine { hsane with nodup := List.nodup_singleton _, away := ?_, exist := ?_, free := ?_ }
      · intro p hp hlive
        obtain rfl := List.mem_singleton.mp hp
        exact (hsane.exist p (.inr hlive)).1 hfree
      · intro p hp
        rcases eq_or_ne p path with rfl | hne
        · exact ⟨by simp, hinside⟩
        · have hlive : LiveAt found.conn p :=
            hp.resolve_left fun hmem => hne (List.mem_singleton.mp hmem)
          dsimp only
          rw [Function.update_of_ne hne]
          exact hsane.exist p (.inr hlive)
      · rintro p ⟨⟩
    refine ⟨{ inFlight := [path] }, ⟨hnew, rfl, ?_, ?_, hcreated _, fun _ _ => rfl⟩, rfl, hnew⟩
    · intro p hp
      rcases eq_or_ne p path with rfl | hne
      · exact .inr (.inl rfl)
      · exact absurd (Function.update_of_ne hne ..) hp
    · intro p hp
      exact hp.elim (fun hmem => .inr (congrArg some (List.mem_singleton.mp hmem).symm))
        fun hlive => .inl (.inr hlive)
  · have hnone : Sane folders {}
        { found with
          conn := { found.conn with effects := found.conn.effects ++ [.createFile path] } } := by
      refine { hsane with free := ?_ }
      rintro p ⟨⟩
    refine ⟨{}, ⟨hnone, rfl, ?_, fun p hp => .inl hp, hcreated _, fun _ _ => rfl⟩, rfl, hnone⟩
    exact fun p hp => absurd rfl hp

theorem lookup_insert_cases {transfers : HashMap UInt32 FileTransferState} {id id' : UInt32}
    {state state' : FileTransferState}
    (h : (transfers.insert id state).lookup id' = some state') :
    (id' = id ∧ state' = state) ∨ (id' ≠ id ∧ transfers.lookup id' = some state') := by
  rcases eq_or_ne id' id with rfl | hne
  · rw [AList.lookup_insert] at h
    exact .inl ⟨rfl, (Option.some.inj h).symm⟩
  · rw [AList.lookup_insert_ne hne] at h
    exact .inr ⟨hne, h⟩

theorem lookup_erase_cases {transfers : HashMap UInt32 FileTransferState} {id id' : UInt32}
    {state : FileTransferState} (h : (transfers.erase id).lookup id' = some state) :
    id' ≠ id ∧ transfers.lookup id' = some state := by
  rcases eq_or_ne id' id with rfl | hne
  · rw [AList.lookup_erase] at h
    cases h
  · rw [AList.lookup_erase_ne hne] at h
    exact ⟨hne, h⟩

theorem insertTransfer_keeps {id : UInt32} {state : FileTransferState}
    (hhandle : state.file.path = state.destPath)
    (hsane : Sane folders { inFlight := [state.destPath] } s) :
    Keeps (discipline folders) (fun k _ s => Idle folders k s) (insertTransfer id state)
      { inFlight := [state.destPath] } s := by
  refine keeps_modify (by rintro p ⟨⟩) fun found hfound => ?_
  have hsane := hsane.spared hfound
  have haway := hsane.away _ List.mem_cons_self
  have hheld (p : PathBuf)
      (hp : LiveAt
        { found.conn with fileTransfers := found.conn.fileTransfers.insert id state } p) :
      Held { inFlight := [state.destPath] } found.conn p := by
    obtain ⟨id', state', hlookup, rfl⟩ := hp
    rcases lookup_insert_cases hlookup with ⟨-, rfl⟩ | ⟨-, hlookup⟩
    · exact .inl List.mem_cons_self
    · exact .inr ⟨id', state', hlookup, rfl⟩
  have hnew : Sane folders {} { found with
      conn := { found.conn with fileTransfers := found.conn.fileTransfers.insert id state } } := by
    refine
      { hsane with
        distinct := ?_, nodup := List.nodup_nil, away := ?_, handles := ?_, exist := ?_ }
    · intro id₁ id₂ state₁ state₂ h₁ h₂ hpath
      rcases lookup_insert_cases h₁ with ⟨rfl, rfl⟩ | ⟨-, hold₁⟩
      · rcases lookup_insert_cases h₂ with ⟨rfl, -⟩ | ⟨-, hold₂⟩
        · rfl
        · exact absurd ⟨id₂, state₂, hold₂, hpath.symm⟩ haway
      · rcases lookup_insert_cases h₂ with ⟨rfl, rfl⟩ | ⟨-, hold₂⟩
        · exact absurd ⟨id₁, state₁, hold₁, hpath⟩ haway
        · exact hsane.distinct _ _ _ _ hold₁ hold₂ hpath
    · exact fun p hp => absurd hp List.not_mem_nil
    · intro id' state' hlookup
      rcases lookup_insert_cases hlookup with ⟨-, rfl⟩ | ⟨-, hlookup⟩
      · exact hhandle
      · exact hsane.handles id' state' hlookup
    · intro p hp
      exact hsane.exist p (hheld p (hp.resolve_left List.not_mem_nil))
  refine ⟨{}, acted_of_world_eq hnew rfl ?_ rfl rfl rfl, rfl, hnew⟩
  exact fun p hp => hheld p (hp.resolve_left List.not_mem_nil)

theorem handleFileBegin_keeps {os : Answers} (hfault : ∀ path, os.metadataFault path = false)
    (hdir : ∀ dir, os.downloadsDir = .ok dir → dir = folders.downloads) (id : UInt32)
    (name : String) (size : UInt64) (h : Idle folders k s) :
    Keeps (discipline folders) (fun k _ s => Idle folders k s)
      (handleFileBegin os id name size) k s := by
  refine (keeps_idle (read_detached St.conn) h).bind fun k conn s h => ?_
  split
  · exact keeps_idle (push_detached _) h
  split
  · exact keeps_idle (push_detached _) h
  refine (keeps_idle (perform_detached (by simp [isDetached])) h).bind fun k _ s h => ?_
  split
  · exact keeps_idle (push_detached _) h
  next dir hok =>
    obtain rfl := hdir dir hok
    refine (uniqueDestPath_keeps hfault _ h).bind ?_
    rintro k result s ⟨rfl, hsane⟩
    cases result with
    | error e => exact keeps_idle (push_detached _) ⟨rfl, hsane⟩
    | ok path =>
        refine (createFile_keeps os hsane).bind ?_
        rintro k _ s ⟨rfl, hsane⟩
        rcases hfault : os.createFault with _ | e
        · rw [hfault] at hsane
          refine keeps_then (insertTransfer_keeps rfl hsane) (fun _ _ _ h => h) fun _ => ?_
          exact push_detached _
        · rw [hfault] at hsane
          exact keeps_idle (push_detached _) ⟨rfl, hsane⟩

/-! ### Abort and chunks -/

/-- What a handler holds after it has looked for a transfer. -/
def Taken (folders : Folders) (k : Hold) (found : Option FileTransferState) (s : St) : Prop :=
  k = { inFlight := (found.map FileTransferState.destPath).toList } ∧ Sane folders k s ∧
    ∀ state, found = some state → state.file.path = state.destPath

theorem takeTransfer_keeps (id : UInt32) (h : Idle folders k s) :
    Keeps (discipline folders) (Taken folders) (takeTransfer id) k s := by
  obtain ⟨rfl, hsane⟩ := h
  refine keeps_critical (by rintro p ⟨⟩) fun found hfound => ?_
  have hsane := hsane.spared hfound
  have hheld {p : PathBuf}
      (hp : Held { inFlight := ((found.conn.fileTransfers.lookup id).map
          FileTransferState.destPath).toList }
        { found.conn with fileTransfers := found.conn.fileTransfers.erase id } p) :
      Held {} found.conn p := by
    rcases hp with hmem | ⟨id', state, hlookup, hpath⟩
    · obtain ⟨state, hlookup, hpath⟩ := Option.map_eq_some_iff.mp (Option.mem_toList.mp hmem)
      exact .inr ⟨id, state, hlookup, hpath⟩
    · exact .inr ⟨id', state, (lookup_erase_cases hlookup).2, hpath⟩
  have hnew : Sane folders
      { inFlight := ((found.conn.fileTransfers.lookup id).map
        FileTransferState.destPath).toList }
      { found with
        conn := { found.conn with fileTransfers := found.conn.fileTransfers.erase id } } := by
    refine
      { hsane with
        distinct := ?_, nodup := ?_, away := ?_, handles := ?_, exist := ?_ }
    · intro id₁ id₂ state₁ state₂ h₁ h₂ hpath
      exact hsane.distinct _ _ _ _ (lookup_erase_cases h₁).2 (lookup_erase_cases h₂).2 hpath
    · cases found.conn.fileTransfers.lookup id with
      | none => exact List.nodup_nil
      | some state => exact List.nodup_singleton _
    · rintro p hmem ⟨id', state', hlookup', hpath'⟩
      obtain ⟨state, hlookup, hpath⟩ := Option.map_eq_some_iff.mp (Option.mem_toList.mp hmem)
      obtain ⟨hne, hlookup'⟩ := lookup_erase_cases hlookup'
      exact hne (hsane.distinct _ _ _ _ hlookup' hlookup (hpath'.trans hpath.symm))
    · exact fun id' state hlookup => hsane.handles id' state (lookup_erase_cases hlookup).2
    · exact fun p hp => hsane.exist p (hheld hp)
  refine ⟨_, acted_of_world_eq hnew rfl (fun p hp => hheld hp) rfl rfl rfl, rfl, hnew, ?_⟩
  exact fun state hlookup => hsane.handles id state hlookup

theorem onFiles_keeps {f : (PathBuf → Option Bytes) → PathBuf → Option Bytes} {effect : Effect}
    {path : PathBuf} {rest left : List PathBuf}
    (hother : ∀ files p, p ≠ path → f files p = files p) (heffect : ∀ p, effect ≠ .createFile p)
    (hleft : left = rest ∨ left = path :: rest ∧ ∀ files, files path ≠ none → f files path ≠ none)
    (hsane : Sane folders { inFlight := path :: rest } s) :
    Keeps (discipline folders) (fun k _ s => k = { inFlight := left } ∧ Sane folders k s)
      (onFiles f effect) { inFlight := path :: rest } s := by
  refine keeps_modify (by rintro p ⟨⟩) fun found hfound => ?_
  have hsane := hsane.spared hfound
  obtain ⟨hpath, hrest⟩ := List.nodup_cons.mp hsane.nodup
  have hsub {p : PathBuf} (hp : p ∈ left) : p ∈ path :: rest := by
    rcases hleft with rfl | ⟨rfl, -⟩
    · exact List.mem_cons_of_mem _ hp
    · exact hp
  have hheld {p : PathBuf} (hp : Held { inFlight := left } found.conn p) :
      Held { inFlight := path :: rest } found.conn p :=
    hp.imp_left hsub
  have hexist {p : PathBuf} (hp : Held { inFlight := left } found.conn p) :
      f found.world.files p ≠ none := by
    rcases eq_or_ne p path with rfl | hne
    · rcases hleft with rfl | ⟨rfl, hkeeps⟩
      · exact (hp.elim hpath (hsane.away _ List.mem_cons_self)).elim
      · exact hkeeps _ (hsane.exist _ hp).1
    · rw [hother _ p hne]
      exact (hsane.exist p (hheld hp)).1
  have hnew : Sane folders { inFlight := left }
      { world := { found.world with files := f found.world.files }
        conn := { found.conn with effects := found.conn.effects ++ [effect] } } := by
    refine { hsane with nodup := ?_, away := ?_, exist := ?_, free := ?_ }
    · rcases hleft with rfl | ⟨rfl, -⟩
      · exact hrest
      · exact hsane.nodup
    · exact fun p hp => hsane.away p (hsub hp)
    · exact fun p hp => ⟨hexist hp, (hsane.exist p (hheld hp)).2⟩
    · rintro p ⟨⟩
  refine ⟨_, ⟨hnew, rfl, ?_, fun p hp => .inl (hheld hp), ?_, fun _ _ => rfl⟩, rfl, hnew⟩
  · intro p hp
    by_contra hnot
    refine hp (hother _ p ?_)
    rintro rfl
    exact hnot (.inl List.mem_cons_self)
  · intro p hp
    exact absurd (List.singleton_inj.mp (List.append_cancel_left hp)) (heffect p)

theorem removeFile_keeps (os : Answers) {path : PathBuf} {rest : List PathBuf}
    (hsane : Sane folders { inFlight := path :: rest } s) :
    Keeps (discipline folders) (fun k _ s => k = { inFlight := rest } ∧ Sane folders k s)
      (removeFile os path) { inFlight := path :: rest } s := by
  refine onFiles_keeps ?_ ?_ (.inl rfl) hsane
  · intro files p hne
    split
    · rfl
    · exact Function.update_of_ne hne ..
  · exact fun p h => nomatch h

theorem writeAll_keeps (os : Answers) {file : OpenFile} (payload : Bytes)
    (hsane : Sane folders { inFlight := [file.path] } s) :
    Keeps (discipline folders)
      (fun k _ s => k = { inFlight := [file.path] } ∧ Sane folders k s)
      (writeAll os file payload) { inFlight := [file.path] } s := by
  unfold writeAll
  refine onFiles_keeps ?_ ?_ (.inr ⟨rfl, ?_⟩) hsane
  · intro files p hne
    cases files file.path with
    | none => rfl
    | some content => exact Function.update_of_ne hne ..
  · exact fun p h => nomatch h
  · intro files hexist
    rcases hfile : files file.path with _ | content
    · exact absurd hfile hexist
    · simp

theorem drop_keeps (out : Outgoing) {path : PathBuf}
    (hsane : Sane folders { inFlight := [path] } s) :
    Keeps (discipline folders) (fun k _ s => Idle folders k s) (push out)
      { inFlight := [path] } s := by
  refine keeps_modify (by rintro p ⟨⟩) fun found hfound => ?_
  have hsane := hsane.spared hfound
  have hheld {p : PathBuf} (hp : Held {} found.conn p) :
      Held { inFlight := [path] } found.conn p :=
    .inr (hp.resolve_left List.not_mem_nil)
  have hnew : Sane folders {}
      { found with conn := { found.conn with outbox := found.conn.outbox ++ [out] } } := by
    refine { hsane with nodup := List.nodup_nil, away := ?_, exist := ?_ }
    · exact fun p hp => absurd hp List.not_mem_nil
    · exact fun p hp => hsane.exist p (hheld hp)
  exact ⟨{}, acted_of_world_eq hnew rfl (fun p hp => hheld hp) rfl rfl rfl, rfl, hnew⟩

theorem handleFileAbort_keeps (os : Answers) (id : UInt32) (h : Idle folders k s) :
    Keeps (discipline folders) (fun k _ s => Idle folders k s) (handleFileAbort os id) k s := by
  refine (takeTransfer_keeps id h).bind ?_
  rintro k found s ⟨rfl, hsane, -⟩
  cases found with
  | none => exact ⟨rfl, hsane⟩
  | some state => exact (removeFile_keeps os hsane).mono fun k _ s ⟨hk, hs⟩ => ⟨hk, hk ▸ hs⟩

theorem failChunk_keeps (os : Answers) (id : UInt32) {dest : PathBuf} (reason : String)
    (hsane : Sane folders { inFlight := [dest] } s) :
    Keeps (discipline folders) (fun k _ s => Idle folders k s) (failChunk os id dest reason)
      { inFlight := [dest] } s := by
  refine keeps_then (removeFile_keeps os hsane) ?_ fun _ => push_detached _
  rintro k _ s ⟨rfl, hsane⟩
  exact ⟨rfl, hsane⟩

theorem handleFileChunk_keeps (os : Answers) (bytes : Bytes) (h : Idle folders k s) :
    Keeps (discipline folders) (fun k _ s => Idle folders k s) (handleFileChunk os bytes) k s := by
  unfold handleFileChunk
  split
  · exact h
  refine (takeTransfer_keeps _ h).bind ?_
  rintro k found s ⟨rfl, hsane, hhandle⟩
  cases found with
  | none => exact ⟨rfl, hsane⟩
  | some state =>
      have hpath := hhandle state rfl
      change Sane folders { inFlight := [state.destPath] } s at hsane
      change Keeps (discipline folders) _ _ ({ inFlight := [state.destPath] } : Hold) s
      dsimp only
      split
      · exact failChunk_keeps os _ _ hsane
      rw [← hpath] at hsane ⊢
      refine (writeAll_keeps os _ hsane).bind ?_
      rintro k _ s ⟨rfl, hsane⟩
      rw [hpath] at hsane ⊢
      split
      · exact failChunk_keeps os _ _ hsane
      split
      · exact drop_keeps _ hsane
      · exact insertTransfer_keeps rfl hsane

/-! ### Sends to the phone -/

theorem onSends_keeps {α : Type} {f : St → α × St} (post : α → Prop)
    (hframe : ∀ s, (f s).2.conn.connId = s.conn.connId ∧
      (f s).2.conn.fileTransfers = s.conn.fileTransfers ∧ (∀ p, ¬Created p s (f s).2) ∧
      (f s).2.world.files = s.world.files ∧
      ∀ j ≠ s.conn.connId,
        (f s).2.world.bridge.commands j = s.world.bridge.commands j)
    (hsends : ∀ s, Sane folders {} s →
      (∀ id st, (f s).2.conn.fileSends.lookup id = some st → Inside folders.temp st.tempPath) ∧
      (∀ cmd ∈ (f s).2.world.bridge.commands s.conn.connId, SpoolCmd folders cmd) ∧
      post (f s).1) (h : Idle folders k s) :
    Keeps (discipline folders) (fun k a s => post a ∧ Idle folders k s) (.critical f) k s := by
  obtain ⟨rfl, hsane⟩ := h
  refine keeps_critical (by rintro p ⟨⟩) fun found hfound => ?_
  have hsane := hsane.spared hfound
  obtain ⟨hid, htransfers, hcreated, hfiles, hcommands⟩ := hframe found
  obtain ⟨hspools, hqueue, hpost⟩ := hsends found hsane
  have hlive {p : PathBuf} (hp : LiveAt (f found).2.conn p) : LiveAt found.conn p := by
    rw [LiveAt, htransfers] at hp
    exact hp
  have hnew : Sane folders {} (f found).2 := by
    refine ⟨?_, List.nodup_nil, ?_, ?_, ?_, by rintro p ⟨⟩, hspools, ?_⟩
    · rw [htransfers]
      exact hsane.distinct
    · exact fun p hp => absurd hp List.not_mem_nil
    · rw [htransfers]
      exact hsane.handles
    · intro p hp
      rw [hfiles]
      exact hsane.exist p (hp.imp_right hlive)
    · rw [hid]
      exact hqueue
  refine ⟨{}, ⟨hnew, hid, ?_, fun p hp => .inl (hp.imp_right hlive), ?_, hcommands⟩, hpost, rfl,
    hnew⟩
  · intro p hp
    rw [hfiles] at hp
    exact absurd rfl hp
  · exact fun p hp => absurd hp (hcreated p)

theorem removeSpool_keeps (os : Answers) {temp : PathBuf} (htemp : Inside folders.temp temp)
    (hfolders : folders.downloads ≠ folders.temp) (h : Idle folders k s) :
    Keeps (discipline folders) (fun k _ s => Idle folders k s) (removeFile os temp) k s := by
  obtain ⟨rfl, hsane⟩ := h
  refine keeps_modify (by rintro p ⟨⟩) fun found hfound => ?_
  have hsane := hsane.spared hfound
  have hother {p : PathBuf} (hne : p ≠ temp) :
      (if os.removeFault temp then found.world.files
        else Function.update found.world.files temp none) p = found.world.files p := by
    split
    · rfl
    · exact Function.update_of_ne hne ..
  have hnew : Sane folders {}
      { world :=
          { found.world with
            files := if os.removeFault temp then found.world.files
              else Function.update found.world.files temp none }
        conn := { found.conn with effects := found.conn.effects ++ [.removeFile temp] } } := by
    refine { hsane with exist := ?_, free := ?_ }
    · intro p hp
      obtain ⟨hexist, hinside⟩ := hsane.exist p hp
      dsimp only
      rw [hother]
      · exact ⟨hexist, hinside⟩
      · rintro rfl
        exact hfolders (hinside.apart htemp)
    · rintro p ⟨⟩
  refine ⟨{}, ⟨hnew, rfl, ?_, fun p hp => .inl hp, ?_, fun _ _ => rfl⟩, rfl, hnew⟩
  · intro p hp
    by_contra hnot
    refine hp (hother ?_)
    rintro rfl
    exact hnot (.inr (.inr htemp))
  · intro p hp
    have hlast := List.append_cancel_left hp
    simp at hlast

theorem not_created_of_effects (h : s'.conn.effects = s.conn.effects) (p : PathBuf) :
    ¬Created p s s' :=
  not_created_of_deeds (congrArg (List.filter _) h) p

theorem takeSend_keeps (id : UInt32) (h : Idle folders k s) :
    Keeps (discipline folders)
      (fun k found s => (∀ st, found = some st → Inside folders.temp st.tempPath) ∧
        Idle folders k s) (takeSend id) k s := by
  refine onSends_keeps (fun found : Option FileSendState => ∀ st, found = some st →
    Inside folders.temp st.tempPath)
    (fun s => ⟨rfl, rfl, not_created_of_effects rfl, rfl, fun _ _ => rfl⟩) ?_ h
  intro s hsane
  refine ⟨fun id' st hlookup => ?_, hsane.commands, fun st hlookup => hsane.sends id st hlookup⟩
  rcases eq_or_ne id' id with rfl | hne
  · rw [AList.lookup_erase] at hlookup
    cases hlookup
  · rw [AList.lookup_erase_ne hne] at hlookup
    exact hsane.sends id' st hlookup

theorem onConn_keeps {f : Conn → Conn}
    (hframe : ∀ c, (f c).connId = c.connId ∧ (f c).fileTransfers = c.fileTransfers ∧
      (f c).effects = c.effects)
    (hsends : ∀ c, (∀ id st, c.fileSends.lookup id = some st → Inside folders.temp st.tempPath) →
      ∀ id st, (f c).fileSends.lookup id = some st → Inside folders.temp st.tempPath)
    (h : Idle folders k s) :
    Keeps (discipline folders) (fun k _ s => Idle folders k s) (onConn f) k s := by
  refine Keeps.mono (onSends_keeps (f := fun s => (PUnit.unit, { s with conn := f s.conn }))
    (fun _ => True) (fun s => ?_) (fun s hsane => ?_) h) fun _ _ _ h => h.2
  · obtain ⟨hid, htransfers, heffects⟩ := hframe s.conn
    exact ⟨hid, htransfers, not_created_of_effects heffects, rfl, fun _ _ => rfl⟩
  · exact ⟨hsends s.conn hsane.sends, hsane.commands, trivial⟩

theorem cancelSender_keeps (cancel : Nat) (h : Idle folders k s) :
    Keeps (discipline folders) (fun k _ s => Idle folders k s) (cancelSender cancel) k s :=
  onConn_keeps (fun _ => ⟨rfl, rfl, rfl⟩) (fun _ h => h) h

theorem handleFileSendAccepted_keeps (id : UInt32) (destPath : String) (h : Idle folders k s) :
    Keeps (discipline folders) (fun k _ s => Idle folders k s)
      (handleFileSendAccepted id destPath) k s := by
  refine onConn_keeps (fun c => ?_) (fun c hsends id' st hlookup => ?_) h
  · split <;> exact ⟨rfl, rfl, rfl⟩
  · split at hlookup
    · next entry hentry =>
        rcases eq_or_ne id' id with rfl | hne
        · rw [AList.lookup_insert] at hlookup
          obtain rfl := Option.some.inj hlookup
          exact hsends id' entry hentry
        · rw [AList.lookup_insert_ne hne] at hlookup
          exact hsends id' st hlookup
    · exact hsends id' st hlookup

theorem dispatchFileSendCmd_keeps (id : UInt32) (name : String) (size : UInt64) {temp : PathBuf}
    (htemp : Inside folders.temp temp) (h : Idle folders k s) :
    Keeps (discipline folders) (fun k _ s => Idle folders k s)
      (dispatchFileSendCmd id name size temp) k s := by
  have hinsert : Keeps (discipline folders) (fun k _ s => Idle folders k s)
      (onConn fun c =>
        { c with
          cancelFlags := c.cancelFlags ++ [false]
          fileSends :=
            c.fileSends.insert id
              { name, tempPath := temp, expectedSize := size, destPath := none
                cancel := c.cancelFlags.length } }) k s := by
    refine onConn_keeps (fun _ => ⟨rfl, rfl, rfl⟩) (fun c hsends id' st hlookup => ?_) h
    rcases eq_or_ne id' id with rfl | hne
    · rw [AList.lookup_insert] at hlookup
      obtain rfl := Option.some.inj hlookup
      exact htemp
    · rw [AList.lookup_insert_ne hne] at hlookup
      exact hsends id' st hlookup
  refine hinsert.bind fun k _ s h => ?_
  refine (keeps_idle (push_detached _) h).bind fun k _ s h => ?_
  refine Keeps.mono (onSends_keeps
    (f := fun s => (PUnit.unit,
      { s with conn := { s.conn with effects := s.conn.effects ++ [.spawnSender id] } }))
    (fun _ => True) (fun s => ⟨rfl, rfl, fun p hp => ?_, rfl, fun _ _ => rfl⟩)
    (fun s hsane => ⟨hsane.sends, hsane.commands, trivial⟩) h) fun _ _ _ h => h.2
  have hlast := List.append_cancel_left hp
  simp at hlast

section

variable (hfolders : folders.downloads ≠ folders.temp)
include hfolders

theorem handleFileSendComplete_keeps (os : Answers) (id : UInt32) (h : Idle folders k s) :
    Keeps (discipline folders) (fun k _ s => Idle folders k s)
      (handleFileSendComplete os id) k s := by
  refine (takeSend_keeps id h).bind ?_
  rintro k found s ⟨hspool, h⟩
  cases found with
  | none => exact h
  | some st => exact removeSpool_keeps os (hspool st rfl) hfolders h

theorem abandonSend_keeps (os : Answers) (id : UInt32) (h : Idle folders k s) :
    Keeps (discipline folders) (fun k _ s => Idle folders k s) (abandonSend os id) k s := by
  refine (takeSend_keeps id h).bind ?_
  rintro k found s ⟨hspool, h⟩
  cases found with
  | none => exact h
  | some st =>
      exact (cancelSender_keeps _ h).bind fun k _ s h =>
        removeSpool_keeps os (hspool st rfl) hfolders h

theorem handleCommand_keeps (os : Answers) (h : Idle folders k s) :
    Keeps (discipline folders) (fun k _ s => Idle folders k s) (handleCommand os) k s := by
  have hrecv : Keeps (discipline folders)
      (fun k cmd s => (∀ c, cmd = some c → SpoolCmd folders c) ∧ Idle folders k s)
      recvCommand k s := by
    refine onSends_keeps (fun cmd : Option FileSendCmd => ∀ c, cmd = some c → SpoolCmd folders c)
      (fun s => ⟨rfl, rfl, not_created_of_effects rfl, rfl, fun j hj => ?_⟩) ?_ h
    · exact Function.update_of_ne hj ..
    · intro s hsane
      refine ⟨hsane.sends, fun cmd hcmd => ?_, fun c hc => ?_⟩
      · dsimp only at hcmd
        rw [Function.update_self] at hcmd
        exact hsane.commands cmd (List.mem_of_mem_tail hcmd)
      · exact hsane.commands c (List.mem_of_mem_head? hc)
  refine hrecv.bind ?_
  rintro k cmd s ⟨hspool, h⟩
  cases cmd with
  | none => exact h
  | some cmd =>
      have hspool := hspool cmd rfl
      refine (keeps_idle (read_detached St.conn) h).bind fun k conn s h => ?_
      split
      · cases cmd with
        | send id name size temp =>
            exact keeps_then (removeSpool_keeps os (hspool _ _ _ _ rfl) hfolders h)
              (fun _ _ _ h => h) fun _ => guarantees_pure _
        | cancel id => exact h
      · cases cmd with
        | send id name size temp =>
            exact keeps_then (dispatchFileSendCmd_keeps id name size (hspool _ _ _ _ rfl) h)
              (fun _ _ _ h => h) fun _ => guarantees_pure _
        | cancel id =>
            exact keeps_then (abandonSend_keeps hfolders os id h) (fun _ _ _ h => h) fun _ =>
              guarantees_pure _

/-! ### Iterations and teardown -/

/-- The metadata calls fail only for files that do not exist, and the downloads directory is the
one of the PC. -/
def Answered (folders : Folders) (os : Answers) : Prop :=
  (∀ path, os.metadataFault path = false) ∧
    ∀ dir, os.downloadsDir = .ok dir → dir = folders.downloads

theorem handles {os : Answers} (hos : Answered folders os) :
    Handles (discipline folders) (Idle folders) os where
  detached ht _ _ h := keeps_idle ht h
  onBegin id name size _ _ h := handleFileBegin_keeps hos.1 hos.2 id name size h
  onAbort id _ _ h := handleFileAbort_keeps os id h
  onChunk bytes _ _ h := handleFileChunk_keeps os bytes h
  onAccepted id destPath _ _ h := handleFileSendAccepted_keeps id destPath h
  onFailed id _ _ h := abandonSend_keeps hfolders os id h

end

theorem drainTransfers_keeps (os : Answers) (h : Idle folders k s) :
    Keeps (discipline folders) (fun k _ s => Idle folders k s) (drainTransfers os) k s := by
  let paths (transfers : HashMap UInt32 FileTransferState) : List PathBuf :=
    transfers.entries.map fun entry => entry.2.destPath
  have hread : Keeps (discipline folders)
      (fun k conn s => conn = s.conn ∧ Idle folders k s) (.read St.conn) k s := by
    obtain ⟨rfl, hsane⟩ := h
    refine keeps_read (by rintro p ⟨⟩) fun found hfound => ?_
    have hsane := hsane.spared hfound
    exact ⟨{}, acted_of_world_eq hsane rfl (fun _ hp => hp) rfl rfl rfl, rfl, rfl, hsane⟩
  refine hread.bind ?_
  rintro k conn s ⟨rfl, rfl, hsane⟩
  have hempty : Keeps (discipline folders)
      (fun k _ s' => k = { inFlight := paths s.conn.fileTransfers } ∧ Sane folders k s')
      (onConn fun c => { c with fileTransfers := ∅ }) {} s := by
    refine keeps_modify (by rintro p ⟨⟩) fun found hfound => ?_
    have hconn : found.conn = s.conn := hfound.conn
    have hsane := hsane.spared hfound
    have hpath {p : PathBuf} (hp : p ∈ paths s.conn.fileTransfers) : LiveAt found.conn p := by
      obtain ⟨⟨id, state⟩, hmem, rfl⟩ := List.mem_map.mp hp
      refine ⟨id, state, ?_, rfl⟩
      rw [hconn]
      exact AList.mem_lookup_iff.mpr hmem
    have hnone {p : PathBuf} : ¬LiveAt { found.conn with fileTransfers := ∅ } p := by
      rintro ⟨id, state, hlookup, -⟩
      cases hlookup
    have hnew : Sane folders { inFlight := paths s.conn.fileTransfers }
        { found with conn := { found.conn with fileTransfers := ∅ } } := by
      refine
        { hsane with
          distinct := ?_, nodup := ?_, away := fun _ _ => hnone, handles := ?_, exist := ?_ }
      · rintro id id' state state' ⟨⟩
      · refine List.pairwise_map.mpr (List.Pairwise.imp_of_mem ?_
          (List.nodupKeys_iff_pairwise.mp s.conn.fileTransfers.nodupKeys))
        rintro ⟨id, state⟩ ⟨id', state'⟩ hmem hmem' hne hpath
        refine hne (hsane.distinct id id' state state' ?_ ?_ hpath)
        · rw [hconn]
          exact AList.mem_lookup_iff.mpr hmem
        · rw [hconn]
          exact AList.mem_lookup_iff.mpr hmem'
      · rintro id state ⟨⟩
      · exact fun p hp => hsane.exist p (.inr (hp.elim hpath fun hlive => absurd hlive hnone))
    refine ⟨_, acted_of_world_eq hnew rfl ?_ rfl rfl rfl, rfl, hnew⟩
    exact fun p hp => .inr (hp.elim hpath fun hlive => absurd hlive hnone)
  refine hempty.bind ?_
  rintro k _ s' ⟨rfl, hsane⟩
  have hloop := keeps_forM (D := discipline folders)
    (fun entries k s => k = { inFlight := entries.map fun entry => entry.2.destPath } ∧
      Sane folders k s)
    (fun entry : Sigma fun _ : UInt32 => FileTransferState => removeFile os entry.2.destPath)
    ?_ ⟨rfl, hsane⟩
  · exact hloop.mono fun k _ s ⟨hk, hsane⟩ => ⟨hk, hk ▸ hsane⟩
  · rintro entry rest k s ⟨rfl, hsane⟩
    exact removeFile_keeps os hsane

theorem drainSends_keeps (hfolders : folders.downloads ≠ folders.temp) (os : Answers)
    (h : Idle folders k s) :
    Keeps (discipline folders) (fun k _ s => Idle folders k s) (drainSends os) k s := by
  have hread : Keeps (discipline folders)
      (fun k conn s =>
        (∀ id st, conn.fileSends.lookup id = some st → Inside folders.temp st.tempPath) ∧
          Idle folders k s) (.read St.conn) k s :=
    onSends_keeps (f := fun s => (s.conn, s))
      (fun conn : Conn => ∀ id st, conn.fileSends.lookup id = some st →
        Inside folders.temp st.tempPath)
      (fun s => ⟨rfl, rfl, not_created_of_effects rfl, rfl, fun _ _ => rfl⟩)
      (fun s hsane => ⟨hsane.sends, hsane.commands, hsane.sends⟩) h
  refine hread.bind fun k conn s ⟨hspools, h⟩ => ?_
  have hempty : Keeps (discipline folders) (fun k _ s => Idle folders k s)
      (onConn fun c => { c with fileSends := ∅ }) k s :=
    onConn_keeps (fun _ => ⟨rfl, rfl, rfl⟩) (fun c _ id st hlookup => nomatch hlookup) h
  refine hempty.bind fun k _ s h => ?_
  have hloop := keeps_forM (D := discipline folders)
    (fun entries k s =>
      (∀ entry ∈ entries, Inside folders.temp entry.2.tempPath) ∧ Idle folders k s)
    (fun entry : Sigma fun _ : UInt32 => FileSendState => do
      cancelSender entry.2.cancel
      removeFile os entry.2.tempPath) ?_
    ⟨fun entry hmem => hspools entry.1 entry.2 (AList.mem_lookup_iff.mpr hmem), h⟩
  · exact hloop.mono fun k _ s h => h.2
  · rintro entry rest k s ⟨hinside, h⟩
    refine (cancelSender_keeps _ h).bind fun k _ s h => ?_
    refine (removeSpool_keeps os (hinside entry List.mem_cons_self) hfolders h).mono ?_
    exact fun k _ s h => ⟨fun entry hmem => hinside entry (List.mem_cons_of_mem _ hmem), h⟩

theorem teardown_keeps (hfolders : folders.downloads ≠ folders.temp) (os : Answers)
    (h : Idle folders k s) :
    Keeps (discipline folders) (fun k _ s => Idle folders k s) (teardown os) k s :=
  (keeps_idle (detached_of_aside stopActiveStream_aside) h).bind fun _ _ _ h =>
    (drainTransfers_keeps os h).bind fun _ _ _ h =>
      (drainSends_keeps hfolders os h).bind fun _ _ _ h =>
        keeps_idle (detached_of_aside deregisterBridge_aside) h

/-! ### The PC -/

def rules (crates : Crates) (cfg : Config) {folders : Folders}
    (hfolders : folders.downloads ≠ folders.temp) : Rules crates cfg Hold where
  toDiscipline := discipline folders
  idle := Idle folders
  gone := Idle folders
  allowed := Answered folders
  admits _ _ := True
  rely_trans := Spared.trans
  idle_stable h hspared := by
    obtain ⟨rfl, hsane⟩ := h
    exact ⟨rfl, hsane.spared hspared⟩
  gone_stable h hspared := by
    obtain ⟨rfl, hsane⟩ := h
    exact ⟨rfl, hsane.spared hspared⟩
  iteration_keeps hos _ h :=
    (handles hfolders hos).iteration crates cfg _ (fun _ => handleCommand_keeps hfolders _ h)
      (fun id _ _ => handleFileSendComplete_keeps hfolders _ id h) h
  teardown_keeps _ h := teardown_keeps hfolders _ h

/-- The next section of the connection creates the file. -/
def AboutToCreate (m : Member) (p : PathBuf) : Prop :=
  match m.phase with
  | .handling _ (.atomic update _) => Creates update p
  | .leaving (.atomic update _) => Creates update p
  | _ => False

/-- No metadata call fails for a file that exists, and where a connection creates a file, no other
connection stands between its last probe of the same name and its own `File::create`. -/
def Undisputed (pc : Pc) : Act → Prop
  | .step _ (.select _ os) => ∀ path, os.metadataFault path = false
  | .step i (.section _ _) => ∀ m p, pc.members i = some m → AboutToCreate m p →
      ∀ j m', j ≠ i → pc.members j = some m' → ¬AboutToCreate m' p
  | _ => True

/-- The connection whose section has brought a file into existence last. -/
def authorAfter (author : PathBuf → Option Nat) (label : Act) (p : PathBuf) : Option Nat :=
  match label with
  | .step i (.section found left) =>
      if (found.world.files p).isNone ∧ (left.world.files p).isSome then some i else author p
  | _ => author p

def authors (labels : List Act) : PathBuf → Option Nat :=
  labels.foldl authorAfter fun _ => none

structure Separate (crates : Crates) (cfg : Config) {folders : Folders}
    (hfolders : folders.downloads ≠ folders.temp) (author : PathBuf → Option Nat)
    (K : Nat → Hold) (pc : Pc) : Prop where
  follows : ∀ i m, pc.members i = some m → m.Follows (rules crates cfg hfolders) (K i) pc.world
  sane : ∀ i m, pc.members i = some m → Sane folders (K i) ⟨pc.world, m.conn⟩
  connId : ∀ i m, pc.members i = some m → m.conn.connId = i
  apart : ∀ i j m m', i ≠ j → pc.members i = some m → pc.members j = some m' →
    ∀ p, Held (K i) m.conn p → ¬Held (K j) m'.conn p
  authored : ∀ i m p, pc.members i = some m → Held (K i) m.conn p → author p = some i
  spools : ∀ u r, pc.requests u = some r → Inside folders.temp r.spool
  queues : ∀ i, ∀ cmd ∈ pc.world.bridge.commands i, SpoolCmd folders cmd

section

variable {crates : Crates} {cfg : Config} {hfolders : folders.downloads ≠ folders.temp}
  {author : PathBuf → Option Nat} {K : Nat → Hold} {pc pc' : Pc}

theorem aboutToCreate_of_pending {m : Member} {world : World} {p : PathBuf}
    (h : m.Follows (rules crates cfg hfolders) k world) (hp : k.pending = some p) :
    AboutToCreate m p := by
  have hidle {s : St} (hidle : Idle folders k s) : False := by
    obtain ⟨rfl, -⟩ := hidle
    cases hp
  unfold Member.Follows at h
  unfold AboutToCreate
  split at h
  · exact (hidle h).elim
  · next os rest hphase =>
      rw [hphase]
      cases rest with
      | done cont => exact (hidle h.2).elim
      | atomic update next => exact h.2.1 p hp
  · next rest hphase =>
      rw [hphase]
      cases rest with
      | done _ => exact (hidle h).elim
      | atomic update next => exact h.1 p hp
  · exact (hidle h).elim

theorem Separate.of_world (h : Separate crates cfg hfolders author K pc) {world : World}
    {requests : Nat → Option SendRequest} {streamed : Nat → List Nat}
    (hfiles : ∀ p, world.files p ≠ pc.world.files p → Inside folders.temp p)
    (hcommands : ∀ i, ∀ cmd ∈ world.bridge.commands i,
      cmd ∈ pc.world.bridge.commands i ∨ SpoolCmd folders cmd)
    (hspools : ∀ u r, requests u = some r → Inside folders.temp r.spool) :
    Separate crates cfg hfolders author K { pc with world, requests, streamed } := by
  have hspared (i : Nat) (m : Member) (hm : pc.members i = some m) :
      Spared folders (K i) ⟨pc.world, m.conn⟩ ⟨world, m.conn⟩ := by
    refine ⟨rfl, fun p hp => ?_, fun cmd hcmd => hcommands _ cmd hcmd⟩
    have hinside : Inside folders.downloads p :=
      hp.elim (fun hheld => ((h.sane i m hm).exist p hheld).2)
        fun hpending => ((h.sane i m hm).free p hpending).2
    by_contra hne
    exact hfolders (hinside.apart (hfiles p hne))
  refine ⟨?_, ?_, h.connId, h.apart, h.authored, hspools, ?_⟩
  · exact fun i m hm => (h.follows i m hm).rely (hspared i m hm)
  · exact fun i m hm => (h.sane i m hm).spared (hspared i m hm)
  · exact fun i cmd hcmd => (hcommands i cmd hcmd).elim (h.queues i cmd) id

theorem Separate.put (h : Separate crates cfg hfolders author K pc)
    {author' : PathBuf → Option Nat} {i : Nat} {m' : Member} {k' : Hold} {world : World}
    (hfollows : m'.Follows (rules crates cfg hfolders) k' world)
    (hsane : Sane folders k' ⟨world, m'.conn⟩) (hid : m'.conn.connId = i)
    (hspared : ∀ j m, j ≠ i → pc.members j = some m →
      Spared folders (K j) ⟨pc.world, m.conn⟩ ⟨world, m.conn⟩)
    (hapart : ∀ j m, j ≠ i → pc.members j = some m →
      ∀ p, Held k' m'.conn p → ¬Held (K j) m.conn p)
    (hauthored : ∀ p, Held k' m'.conn p → author' p = some i)
    (hothers : ∀ j m p, j ≠ i → pc.members j = some m → Held (K j) m.conn p →
      author' p = author p)
    (hqueues : ∀ j, ∀ cmd ∈ world.bridge.commands j, SpoolCmd folders cmd) :
    Separate crates cfg hfolders author' (Function.update K i k') (pc.put world i m') := by
  refine ⟨?_, ?_, ?_, ?_, ?_, h.spools, hqueues⟩
  · intro j m hm
    rcases members_put hm with ⟨rfl, rfl⟩ | ⟨hne, hold⟩
    · rw [Function.update_self]
      exact hfollows
    · rw [Function.update_of_ne hne]
      exact (h.follows j m hold).rely (hspared j m hne hold)
  · intro j m hm
    rcases members_put hm with ⟨rfl, rfl⟩ | ⟨hne, hold⟩
    · rw [Function.update_self]
      exact hsane
    · rw [Function.update_of_ne hne]
      exact (h.sane j m hold).spared (hspared j m hne hold)
  · intro j m hm
    rcases members_put hm with ⟨rfl, rfl⟩ | ⟨hne, hold⟩
    · exact hid
    · exact h.connId j m hold
  · intro j j' m m₂ hjj' hm hm₂ p hp hp₂
    rcases members_put hm with ⟨rfl, rfl⟩ | ⟨hne, hold⟩
    · rcases members_put hm₂ with ⟨rfl, rfl⟩ | ⟨hne₂, hold₂⟩
      · exact hjj' rfl
      · rw [Function.update_self] at hp
        rw [Function.update_of_ne hne₂] at hp₂
        exact hapart j' m₂ hne₂ hold₂ p hp hp₂
    · rw [Function.update_of_ne hne] at hp
      rcases members_put hm₂ with ⟨rfl, rfl⟩ | ⟨hne₂, hold₂⟩
      · rw [Function.update_self] at hp₂
        exact hapart j m hne hold p hp₂ hp
      · rw [Function.update_of_ne hne₂] at hp₂
        exact h.apart j j' m m₂ hjj' hold hold₂ p hp hp₂
  · intro j m p hm hp
    rcases members_put hm with ⟨rfl, rfl⟩ | ⟨hne, hold⟩
    · rw [Function.update_self] at hp
      exact hauthored p hp
    · rw [Function.update_of_ne hne] at hp
      exact (hothers j m p hne hold hp).trans (h.authored j m p hold hp)

theorem Separate.join (h : Separate crates cfg hfolders author K pc) {i : Nat}
    (peerLabel : String) :
    Separate crates cfg hfolders author (Function.update K i {})
      (pc.put pc.world i (.start i peerLabel pc.world.now)) := by
  have hnone (p : PathBuf) : ¬Held {} (Member.start i peerLabel pc.world.now).conn p := by
    rintro (hmem | ⟨id, state, hlookup, -⟩)
    · exact absurd hmem List.not_mem_nil
    · cases hlookup
  have hnew : Sane folders {} ⟨pc.world, (Member.start i peerLabel pc.world.now).conn⟩ := by
    refine ⟨?_, List.nodup_nil, ?_, ?_, ?_, ?_, ?_, h.queues i⟩
    · rintro id id' state state' ⟨⟩
    · exact fun p hp => absurd hp List.not_mem_nil
    · rintro id state ⟨⟩
    · exact fun p hp => absurd hp (hnone p)
    · rintro p ⟨⟩
    · rintro id st ⟨⟩
  exact h.put ⟨rfl, hnew⟩ hnew rfl (fun _ _ _ _ => ⟨rfl, fun _ _ => rfl, fun _ => .inl⟩)
    (fun _ _ _ _ p hp => absurd hp (hnone p)) (fun p hp => absurd hp (hnone p))
    (fun _ _ _ _ _ _ => rfl) h.queues

theorem spared_of_acted (h : Separate crates cfg hfolders author K pc) {i j : Nat}
    {m m' : Member} (hm : pc.members i = some m) (hne : j ≠ i) (hm' : pc.members j = some m')
    {k' : Hold} {left : St} (hacted : Acted folders (K i) ⟨pc.world, m.conn⟩ k' left)
    (hundisputed : ∀ p, (K i).pending = some p → (K j).pending ≠ some p) :
    Spared folders (K j) ⟨pc.world, m'.conn⟩ ⟨left.world, m'.conn⟩ := by
  have hi := h.sane i m hm
  have hj := h.sane j m' hm'
  refine ⟨rfl, fun p hp => ?_, fun cmd hcmd => .inl ?_⟩
  · by_contra hchanged
    rcases hacted.touched p hchanged with hflight | hpending | htemp
    · rcases hp with hheld | hpending
      · exact h.apart i j m m' hne.symm hm hm' p (.inl hflight) hheld
      · exact (hi.exist p (.inl hflight)).1 (hj.free p hpending).1
    · rcases hp with hheld | hpending'
      · exact (hj.exist p hheld).1 (hi.free p hpending).1
      · exact hundisputed p hpending hpending'
    · have hinside : Inside folders.downloads p :=
        hp.elim (fun hheld => (hj.exist p hheld).2) fun hpending => (hj.free p hpending).2
      exact hfolders (hinside.apart htemp)
  · have hid : j ≠ m.conn.connId := by rwa [h.connId i m hm]
    have hid' := h.connId j m' hm'
    dsimp only at hcmd ⊢
    rw [hid'] at hcmd ⊢
    rwa [hacted.commands j hid] at hcmd

theorem Separate.acted (h : Separate crates cfg hfolders author K pc) {i : Nat} {m m' : Member}
    (hm : pc.members i = some m) {k' : Hold} {left : St}
    (hacted : Acted folders (K i) ⟨pc.world, m.conn⟩ k' left) (hconn : m'.conn = left.conn)
    (hfollows : m'.Follows (rules crates cfg hfolders) k' left.world)
    (hundisputed : ∀ p j m', j ≠ i → pc.members j = some m' → (K i).pending = some p →
      (K j).pending ≠ some p) :
    Separate crates cfg hfolders
      (authorAfter author (.step i (.section ⟨pc.world, m.conn⟩ left))) (Function.update K i k')
      (pc.put left.world i m') := by
  have hi := h.sane i m hm
  have hleft : left = ⟨left.world, m'.conn⟩ := by rw [hconn]
  have hsane : Sane folders k' ⟨left.world, m'.conn⟩ := hleft ▸ hacted.sane
  refine h.put hfollows hsane ?_ ?_ ?_ ?_ ?_ ?_
  · rw [hconn, hacted.connId]
    exact h.connId i m hm
  · exact fun j m' hne hm' => spared_of_acted h hm hne hm' hacted fun p =>
      hundisputed p j m' hne hm'
  · intro j m₂ hne hm₂ p hp hp₂
    rw [hconn] at hp
    rcases hacted.taken p hp with hheld | hpending
    · exact h.apart i j m m₂ hne.symm hm hm₂ p hheld hp₂
    · exact ((h.sane j m₂ hm₂).exist p hp₂).1 (hi.free p hpending).1
  · intro p hp
    have hexist := (hsane.exist p hp).1
    rw [hconn] at hp
    rcases hacted.taken p hp with hheld | hpending
    · rw [authorAfter, if_neg]
      · exact h.authored i m p hm hheld
      · rintro ⟨hnone, -⟩
        exact (hi.exist p hheld).1 (Option.isNone_iff_eq_none.mp hnone)
    · rw [authorAfter, if_pos]
      exact ⟨Option.isNone_iff_eq_none.mpr (hi.free p hpending).1,
        Option.isSome_iff_ne_none.mpr hexist⟩
  · intro j m₂ p hne hm₂ hp
    rw [authorAfter, if_neg]
    rintro ⟨hnone, -⟩
    exact ((h.sane j m₂ hm₂).exist p hp).1 (Option.isNone_iff_eq_none.mp hnone)
  · intro j cmd hcmd
    rcases eq_or_ne j i with rfl | hne
    · have hid : left.conn.connId = j := hacted.connId.trans (h.connId j m hm)
      refine hacted.sane.commands cmd ?_
      rwa [hid]
    · have hid : j ≠ m.conn.connId := by rwa [h.connId i m hm]
      rw [hacted.commands j hid] at hcmd
      exact h.queues j cmd hcmd

theorem Separate.pending_ne (h : Separate crates cfg hfolders author K pc) {i : Nat} {m : Member}
    {found left : St} (hm : pc.members i = some m)
    (hcondition : Undisputed pc (.step i (.section found left))) {p : PathBuf} {j : Nat}
    {m' : Member} (hne : j ≠ i) (hm' : pc.members j = some m') (hp : (K i).pending = some p) :
    (K j).pending ≠ some p := by
  intro hp'
  refine hcondition m p hm ?_ j m' hne hm' ?_
  · exact aboutToCreate_of_pending (h.follows i m hm) hp
  · exact aboutToCreate_of_pending (h.follows j m' hm') hp'

theorem spared_refl (k : Hold) (s : St) : Spared folders k s s :=
  ⟨rfl, fun _ _ => rfl, fun _ => .inl⟩

theorem answered_of_undisputed {i : Nat} {move : Move} {event : Event} {os : Answers}
    (hcondition : Undisputed pc (.step i move)) (hmove : move = .select event os)
    (hdir : ∀ event os dir, move = .select event os → os.downloadsDir = .ok dir →
      dir = folders.downloads) : Answered folders os := by
  subst hmove
  exact ⟨hcondition, fun dir => hdir event os dir rfl⟩

theorem Idle.dropped (h : Idle folders k s) :
    Idle folders k
      { s with
        world :=
          { s.world with
            bridge :=
              { s.world.bridge with
                commands := Function.update s.world.bridge.commands s.conn.connId [] } } } := by
  obtain ⟨rfl, hsane⟩ := h
  refine ⟨rfl, { hsane with commands := fun cmd hcmd => ?_ }⟩
  dsimp only at hcmd
  rw [Function.update_self] at hcmd
  exact absurd hcmd List.not_mem_nil

theorem Separate.rested (h : Separate crates cfg hfolders author K pc) {i : Nat} {m m' : Member}
    {world : World} (hm : pc.members i = some m) (hconn : m'.conn = m.conn)
    (hfollows : m'.Follows (rules crates cfg hfolders) (K i) world)
    (hfiles : world.files = pc.world.files)
    (hcommands : ∀ j, ∀ cmd ∈ world.bridge.commands j, cmd ∈ pc.world.bridge.commands j) :
    Separate crates cfg hfolders author (Function.update K i (K i)) (pc.put world i m') := by
  have hspared (k : Hold) (c : Conn) : Spared folders k ⟨pc.world, c⟩ ⟨world, c⟩ :=
    ⟨rfl, fun p _ => congrFun hfiles p, fun cmd hcmd => .inl (hcommands _ cmd hcmd)⟩
  refine h.put hfollows ?_ ?_ (fun j m _ _ => hspared (K j) m.conn) ?_ ?_ (fun _ _ _ _ _ _ => rfl)
    fun j cmd hcmd => h.queues j cmd (hcommands j cmd hcmd)
  · rw [hconn]
    exact (h.sane i m hm).spared (hspared (K i) m.conn)
  · rw [hconn]
    exact h.connId i m hm
  · rw [hconn]
    exact fun j m₂ hne hm₂ p => h.apart i j m m₂ hne.symm hm hm₂ p
  · rw [hconn]
    exact fun p => h.authored i m p hm

theorem authorAfter_of_not_section {i : Nat} {move : Move}
    (hmove : ∀ found left, move ≠ .section found left) :
    authorAfter author (.step i move) = author := by
  funext p
  cases move with
  | select event os => rfl
  | «section» found left => exact absurd rfl (hmove found left)
  | settle => rfl

theorem Separate.step (h : Separate crates cfg hfolders author K pc) {act : Act}
    (hstep : PcStep crates cfg folders pc act pc') (hcondition : Undisputed pc act) :
    ∃ K', Separate crates cfg hfolders (authorAfter author act) K' pc' := by
  cases hstep with
  | join peerLabel hfree => exact ⟨_, h.join peerLabel⟩
  | @step i m m' move world hm hmember hdir =>
      have hallowed (event : Event) (os : Answers) (hmove : move = .select event os)
          (_ : Ready (m.session pc.world) event) : Answered folders os ∧ True :=
        ⟨answered_of_undisputed hcondition hmove hdir, trivial⟩
      obtain ⟨k', hacts, hfollows⟩ :=
        (h.follows i m hm).step (spared_refl (K i)) hmember hallowed fun s => Idle.dropped
      refine ⟨Function.update K i k', ?_⟩
      cases hacts with
      | acted _ hacted hconn _ =>
          exact h.acted hm hacted hconn hfollows fun p j m' => h.pending_ne hm hcondition
      | stayed hmove hconn _ =>
          rw [authorAfter_of_not_section hmove]
          exact h.rested hm hconn hfollows rfl fun _ _ => id
      | returned hleft hconn hphase hgone =>
          refine h.rested hm hconn hfollows rfl fun j cmd hcmd => ?_
          dsimp only at hcmd
          rcases eq_or_ne j m.conn.connId with rfl | hne
          · rw [Function.update_self] at hcmd
            exact absurd hcmd List.not_mem_nil
          · rwa [Function.update_of_ne hne] at hcmd
  | @request u name len uuid hfree hpos hmax hname hnew =>
      refine ⟨K, h.of_world (fun _ hne => absurd rfl hne) (fun _ _ => .inl) ?_⟩
      intro v r hr
      rcases eq_or_ne v u with rfl | hne
      · rw [Function.update_self] at hr
        cases hr
        exact ⟨_, rfl⟩
      · rw [Function.update_of_ne hne] at hr
        exact h.spools v r hr
  | @serve u r r' served world hr hserved =>
      have hspool := h.spools u r hr
      refine ⟨K, h.of_world (fun p hne => ?_) (fun i cmd hcmd => ?_) ?_⟩
      · by_contra hinside
        exact hne (hserved.files fun hp => hinside (hp ▸ hspool))
      · refine (hserved.commands hcmd).imp_right ?_
        rintro ⟨id, rfl⟩ id' name size temp ⟨⟩
        exact hspool
      · intro v r₂ hr₂
        rcases eq_or_ne v u with rfl | hne
        · rw [Function.update_self] at hr₂
          cases hr₂
          rw [hserved.spool]
          exact hspool
        · rw [Function.update_of_ne hne] at hr₂
          exact h.spools v r₂ hr₂
  | cancel hdispatch =>
      refine ⟨K, h.of_world (fun _ hne => absurd rfl hne) (fun i cmd hcmd => ?_) h.spools⟩
      refine (dispatch_commands hdispatch hcmd).imp_right ?_
      rintro rfl id name size temp ⟨⟩
  | cancelIgnored hdispatch => exact ⟨K, h⟩
  | streamerEnds hm hflag =>
      exact ⟨K, h.of_world (fun _ hne => absurd rfl hne) (fun _ _ => .inl) h.spools⟩
  | tick elapsed unixMs =>
      exact ⟨K, h.of_world (fun _ hne => absurd rfl hne) (fun _ _ => .inl) h.spools⟩
  | rotate code key =>
      exact ⟨K, h.of_world (fun _ hne => absurd rfl hne) (fun _ _ => .inl) h.spools⟩

theorem Separate.start (h : Fresh pc) :
    Separate crates cfg hfolders (authors []) (fun _ => {}) pc := by
  obtain ⟨hmembers, hrequests, hcommands, -⟩ := h
  have hmember {P : Prop} {i : Nat} {m : Member} (hm : pc.members i = some m) : P := by
    rw [hmembers i] at hm
    cases hm
  refine ⟨fun _ _ => hmember, fun _ _ => hmember, fun _ _ => hmember, fun _ _ _ _ _ => hmember,
    fun _ _ _ => hmember, fun u r hr => ?_, fun i cmd hcmd => ?_⟩
  · rw [hrequests u] at hr
    cases hr
  · rw [hcommands i] at hcmd
    exact absurd hcmd List.not_mem_nil

/-- The PC, as long as the names it creates are undisputed. -/
def undisputed (crates : Crates) (cfg : Config) (folders : Folders) : System Pc Act :=
  (pool crates cfg folders).restrict fun pc act _ => Undisputed pc act

theorem Separate.run (hfolders : folders.downloads ≠ folders.temp) {labels : List Act}
    (hfresh : Fresh pc) (hrun : (undisputed crates cfg folders).Run pc labels pc') :
    ∃ K, Separate crates cfg hfolders (authors labels) K pc' := by
  refine hrun.invariant (I := fun labels pc => ∃ K, Separate crates cfg hfolders (authors labels)
    K pc) ⟨_, .start hfresh⟩ ?_
  rintro labels t act u - ⟨K, h⟩ ⟨hstep, hcondition⟩
  rw [authors, List.foldl_append]
  exact h.step hstep hcondition

theorem Separate.files (h : Separate crates cfg hfolders author K pc) {i : Nat} {found left : St}
    (hstep : PcStep crates cfg folders pc (.step i (.section found left)) pc')
    {p : PathBuf} :
    (Created p found left → found.world.files p = none) ∧
      (found.world.files p ≠ none → left.world.files p ≠ found.world.files p →
        Inside folders.temp p ∨
          author p = some i ∧ ∀ j m, pc.members j = some m → ¬LiveAt m.conn p) := by
  cases hstep with
  | @step _ m m' _ world hm hmember hdir =>
      obtain ⟨k', hacts, -⟩ := (h.follows i m hm).step (spared_refl (K i)) hmember
        (fun _ _ hmove => nomatch hmove) fun s => Idle.dropped
      have hsane := h.sane i m hm
      cases hacts with
      | acted _ hacted hconn _ =>
          refine ⟨fun hcreated => (hsane.free p (hacted.creates p hcreated)).1, ?_⟩
          intro hexists hchanged
          rcases hacted.touched p hchanged with hflight | hpending | htemp
          · refine .inr ⟨h.authored i m p hm (.inl hflight), fun j m₂ hm₂ hlive => ?_⟩
            rcases eq_or_ne j i with rfl | hne
            · obtain rfl : m₂ = m := Option.some_injective _ (hm₂.symm.trans hm)
              exact hsane.away p hflight hlive
            · exact h.apart i j m m₂ hne.symm hm hm₂ p (.inl hflight) (.inr hlive)
          · exact absurd (hsane.free p hpending).1 hexists
          · exact .inl htemp
      | stayed hmove _ _ => exact absurd rfl (hmove found left)

end

/-- The other connections are at their select. -/
def Alone (i : Nat) (pc : Pc) : Prop :=
  ∀ j m, j ≠ i → pc.members j = some m → m.phase = .selecting

section

variable {pc : Pc} {i : Nat}

theorem Alone.put (h : Alone i pc) (world : World) (m : Member) : Alone i (pc.put world i m) := by
  intro j m' hne hm'
  rcases members_put hm' with ⟨rfl, -⟩ | ⟨-, hold⟩
  · exact absurd rfl hne
  · exact h j m' hne hold

theorem Alone.advance (h : Alone i pc) : Alone i (pc.advance i) := by
  unfold Pc.advance
  split
  · exact h.put _ _
  · exact h.put _ _
  · exact h

theorem Alone.select (h : Alone i pc) (event : Event) (os : Answers) :
    Alone i (pc.select phoneCrates bareConfig i event os) := by
  unfold Pc.select
  split
  · exact h.put _ _
  · exact h

theorem Alone.sections {n : Nat} (h : Alone i pc) : Alone i (pc.sections n i) := by
  induction n generalizing pc with
  | zero => exact h
  | succ n ih => exact ih h.advance

theorem Alone.settle (h : Alone i pc) : Alone i (pc.settle i) := by
  unfold Pc.settle
  split
  · exact h.put _ _
  · exact h.put _ _
  · exact h.put _ _
  · exact h

theorem undisputed_of_alone {found left : St} (h : Alone i pc) :
    Undisputed pc (.step i (.section found left)) := by
  intro m p hm hcreates j m' hne hm'
  rw [AboutToCreate, h j m' hne hm']
  exact not_false

theorem leads_turn {text : String} (h : Alone i pc) (hplace : pc.place i = .selecting) :
    (undisputed phoneCrates bareConfig usualFolders).Leads pc (turn i (textEvent text) pc) :=
  (leads_receive (fun _ => Alone.advance) (fun _ _ => rfl)
    (fun _ _ _ _ => undisputed_of_alone) hplace ready_text (h.select _ _)).trans
    (leads_settle fun _ => trivial)

end

/-- Both phones are connected. -/
def connected : Pc :=
  (pairedPc.join 0 "10.0.0.2:5000").join 1 "relay/abc123"

/-- All connections are at their select. -/
def Waiting (pc : Pc) : Prop :=
  ∀ j m, pc.members j = some m → m.phase = .selecting

theorem Waiting.alone {pc : Pc} (h : Waiting pc) (i : Nat) : Alone i pc :=
  fun j m _ => h j m

theorem Waiting.join {pc : Pc} (h : Waiting pc) (i : Nat) (peerLabel : String) :
    Waiting (pc.join i peerLabel) := by
  intro j m hm
  rcases members_put hm with ⟨-, rfl⟩ | ⟨-, hold⟩
  · rfl
  · exact h j m hold

theorem Waiting.turn {pc : Pc} (h : Waiting pc) {i : Nat} {event : Event}
    (hplace : (turn i event pc).place i = .selecting) : Waiting (turn i event pc) := by
  obtain ⟨m₀, hm₀, hphase⟩ := exists_of_selecting hplace
  intro j m hm
  rcases eq_or_ne j i with rfl | hne
  · obtain rfl : m = m₀ := Option.some_injective _ (hm.symm.trans hm₀)
    exact hphase
  · exact ((h.alone i).select _ _).sections.settle j m hne hm

end RemoteControl.Server.Destinations
