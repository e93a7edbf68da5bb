import RemoteControl.Server.Destinations
import RemoteControl.Server.Upload

/-!
What becomes of every file that a connection creates: it belongs to one live transfer, or it has
been announced as complete, or it is gone.
-/

namespace RemoteControl.Server.CreatedFiles

open RemoteControl.Foundations.ByteStrings
open RemoteControl.Foundations.Interference
open RemoteControl.Foundations.Interference.Task
open RemoteControl.Foundations.Transition
open RemoteControl.Foundations.Transition.System
open RemoteControl.Wire.Protocol
open RemoteControl.Server.Stores
open RemoteControl.Server.Connection
open RemoteControl.Server.FileHandlers
open RemoteControl.Server.Loop
open RemoteControl.Server.Frame
open RemoteControl.Server.Transfers
open RemoteControl.Server.Pool
open RemoteControl.Server.Destinations
open RemoteControl.Server.Upload

/-! ### Files and their fates -/

def createdPath : Effect → Option PathBuf
  | .createFile p => some p
  | _ => none

/-- The paths of the files that the connection has created, in order. -/
def created (c : Conn) : List PathBuf :=
  c.effects.filterMap createdPath

/-- The file belongs to exactly one live transfer. -/
def InProgress (s : St) (p : PathBuf) : Prop :=
  (∃! id, ∃ state, s.conn.fileTransfers.lookup id = some state ∧ state.destPath = p) ∧
    s.world.files p ≠ none ∧ p.display ∉ announced s.conn

/-- The file has been announced as complete and is still there. -/
def Completed (s : St) (p : PathBuf) : Prop :=
  ¬LiveAt s.conn p ∧ s.world.files p ≠ none ∧ p.display ∈ announced s.conn

def Removed (s : St) (p : PathBuf) : Prop :=
  ¬LiveAt s.conn p ∧ s.world.files p = none ∧ p.display ∉ announced s.conn

structure Accounted (s : St) : Prop where
  fate : ∀ p ∈ created s.conn, InProgress s p ∨ Completed s p ∨ Removed s p
  distinct : ∀ id id' state state', s.conn.fileTransfers.lookup id = some state →
    s.conn.fileTransfers.lookup id' = some state' → state.destPath = state'.destPath → id = id'

/-- The file operations of the iteration succeed, in the downloads directory of the PC, and the
commands that it finds have spool files in the temporary directory. -/
def Orderly (folders : Folders) (_ : Session) (label : Label) (_ : Session) : Prop :=
  match label with
  | .others => True
  | .taken _ os trace =>
      Smooth os ∧ os.downloadsDir = .ok folders.downloads ∧
        ∀ sec ∈ trace, ∀ cmd ∈ sec.1.world.bridge.commands sec.1.conn.connId,
          SpoolCmd folders cmd

/-! ### The books -/

section

variable {folders : Folders} {hand rest : List PathBuf} {c c' : Conn}
  {files files' : PathBuf → Option Bytes} {p : PathBuf}

/-- The file is there and not announced. -/
def Open (c : Conn) (files : PathBuf → Option Bytes) (p : PathBuf) : Prop :=
  p ∈ created c ∧ files p ≠ none ∧ p.display ∉ announced c

/-- The files of a connection, some of them in the hand of a handler. -/
structure Kept (folders : Folders) (hand : List PathBuf) (c : Conn)
    (files : PathBuf → Option Bytes) : Prop where
  inside : ∀ p ∈ created c, Inside folders.downloads p
  live : ∀ id state, c.fileTransfers.lookup id = some state →
    state.file.path = state.destPath ∧ Open c files state.destPath
  distinct : ∀ id id' state state', c.fileTransfers.lookup id = some state →
    c.fileTransfers.lookup id' = some state' → state.destPath = state'.destPath → id = id'
  nodup : hand.Nodup
  held : ∀ p ∈ hand, Open c files p ∧ ¬LiveAt c p
  told : ∀ text ∈ announced c, ∃ p ∈ created c, p.display = text ∧ files p ≠ none
  remains : ∀ p ∈ created c, files p ≠ none →
    LiveAt c p ∨ p ∈ hand ∨ p.display ∈ announced c
  sends : ∀ id st, c.fileSends.lookup id = some st → Inside folders.temp st.tempPath

theorem display_inj {dir q : PathBuf} (hp : Inside dir p) (hq : Inside dir q)
    (h : p.display = q.display) : p = q := by
  obtain ⟨a, rfl⟩ := hp
  obtain ⟨b, rfl⟩ := hq
  rcases dir with ⟨_ | ⟨first, rest⟩⟩
  · simpa [PathBuf.join, PathBuf.display, String.intercalate_singleton] using h
  · simp only [PathBuf.display, PathBuf.join] at h
    rw [String.intercalate_append_of_ne_nil (by simp) (by simp),
      String.intercalate_append_of_ne_nil (by simp) (by simp), String.append_right_inj,
      String.intercalate_singleton, String.intercalate_singleton] at h
    rw [h]

theorem Kept.aside (h : Kept folders hand c files)
    (htransfers : ∀ id, c'.fileTransfers.lookup id = c.fileTransfers.lookup id)
    (hcreated : created c' = created c) (hannounced : announced c' = announced c)
    (hsends : ∀ id st, c'.fileSends.lookup id = some st → Inside folders.temp st.tempPath)
    (hfiles : ∀ p, Inside folders.downloads p → (files' p = none ↔ files p = none)) :
    Kept folders hand c' files' := by
  have hlive (p : PathBuf) : LiveAt c' p ↔ LiveAt c p := by
    simp only [LiveAt, htransfers]
  have hopen {p : PathBuf} (hp : Open c files p) : Open c' files' p := by
    obtain ⟨hmem, hsome, htold⟩ := hp
    refine ⟨hcreated ▸ hmem, ?_, hannounced ▸ htold⟩
    rwa [ne_eq, hfiles p (h.inside p hmem)]
  refine ⟨hcreated ▸ h.inside, ?_, ?_, h.nodup, ?_, ?_, ?_, hsends⟩
  · intro id state hlookup
    rw [htransfers] at hlookup
    exact (h.live id state hlookup).imp_right hopen
  · intro id id' state state' hlookup hlookup'
    rw [htransfers] at hlookup hlookup'
    exact h.distinct id id' state state' hlookup hlookup'
  · intro p hp
    rw [hlive]
    exact (h.held p hp).imp_left hopen
  · intro text htext
    rw [hannounced] at htext
    obtain ⟨p, hp, hdisplay, hsome⟩ := h.told text htext
    refine ⟨p, hcreated ▸ hp, hdisplay, ?_⟩
    rwa [ne_eq, hfiles p (h.inside p hp)]
  · intro p hp hsome
    rw [hcreated] at hp
    rw [hlive, hannounced]
    exact h.remains p hp (mt (hfiles p (h.inside p hp)).mpr hsome)

theorem Kept.take (h : Kept folders hand c files) {id : UInt32} {state : FileTransferState}
    (hlookup : c.fileTransfers.lookup id = some state) :
    Kept folders (state.destPath :: hand)
      { c with fileTransfers := c.fileTransfers.erase id } files := by
  have hgone : ¬LiveAt { c with fileTransfers := c.fileTransfers.erase id } state.destPath := by
    rintro ⟨id', state', hlookup', hpath⟩
    rcases lookup_erase_cases hlookup' with ⟨hne, hbefore⟩
    exact hne (h.distinct id' id state' state hbefore hlookup hpath)
  have hlive {p : PathBuf} (hp : LiveAt { c with fileTransfers := c.fileTransfers.erase id } p) :
      LiveAt c p := by
    obtain ⟨id', state', hlookup', hpath⟩ := hp
    exact ⟨id', state', (lookup_erase_cases hlookup').2, hpath⟩
  refine ⟨h.inside, ?_, ?_, ?_, ?_, h.told, ?_, h.sends⟩
  · intro id' state' hlookup'
    exact h.live id' state' (lookup_erase_cases hlookup').2
  · intro id₁ id₂ state₁ state₂ hlookup₁ hlookup₂
    exact h.distinct id₁ id₂ state₁ state₂ (lookup_erase_cases hlookup₁).2
      (lookup_erase_cases hlookup₂).2
  · refine List.nodup_cons.mpr ⟨fun hmem => ?_, h.nodup⟩
    exact (h.held _ hmem).2 ⟨id, state, hlookup, rfl⟩
  · intro p hp
    rcases List.mem_cons.mp hp with rfl | hp
    · exact ⟨(h.live id state hlookup).2, hgone⟩
    · exact (h.held p hp).imp_right (mt hlive)
  · intro p hp hsome
    rcases h.remains p hp hsome with ⟨id', state', hlookup', rfl⟩ | hhand | htold
    · rcases eq_or_ne id' id with rfl | hne
      · obtain rfl := Option.some.inj (hlookup.symm.trans hlookup')
        exact .inr (.inl List.mem_cons_self)
      · exact .inl ⟨id', state', (AList.lookup_erase_ne hne).trans hlookup', rfl⟩
    · exact .inr (.inl (List.mem_cons_of_mem _ hhand))
    · exact .inr (.inr htold)

theorem Kept.remove (h : Kept folders (p :: rest) c files) :
    Kept folders rest c (Function.update files p none) := by
  obtain ⟨hp, hrest⟩ := List.nodup_cons.mp h.nodup
  obtain ⟨⟨hmade, hsome, htold⟩, haway⟩ := h.held p List.mem_cons_self
  have hother {q : PathBuf} (hq : q ≠ p) : Function.update files p none q = files q :=
    Function.update_of_ne hq ..
  have hopen {q : PathBuf} (hq : q ≠ p) (hopen : Open c files q) :
      Open c (Function.update files p none) q :=
    ⟨hopen.1, (hother hq).symm ▸ hopen.2.1, hopen.2.2⟩
  refine ⟨h.inside, ?_, h.distinct, hrest, ?_, ?_, ?_, h.sends⟩
  · intro id state hlookup
    refine (h.live id state hlookup).imp_right (hopen ?_)
    rintro rfl
    exact haway ⟨id, state, hlookup, rfl⟩
  · intro q hq
    refine (h.held q (List.mem_cons_of_mem _ hq)).imp_left (hopen ?_)
    rintro rfl
    exact hp hq
  · intro text htext
    obtain ⟨q, hq, rfl, hqsome⟩ := h.told text htext
    refine ⟨q, hq, rfl, ?_⟩
    rwa [hother]
    rintro rfl
    exact htold htext
  · intro q hq hqsome
    have hne : q ≠ p := by
      rintro rfl
      exact hqsome (Function.update_self ..)
    rw [hother hne] at hqsome
    refine (h.remains q hq hqsome).imp_right fun hplace => hplace.imp_left fun hmem => ?_
    exact (List.mem_cons.mp hmem).resolve_left hne

theorem Kept.announce (h : Kept folders (p :: rest) c files) (id : UInt32) :
    Kept folders rest
      { c with outbox := c.outbox ++ [.msg (.fileTransferComplete id p.display)] } files := by
  obtain ⟨hp, hrest⟩ := List.nodup_cons.mp h.nodup
  obtain ⟨⟨hmade, hsome, htold⟩, haway⟩ := h.held p List.mem_cons_self
  have hnow : announced
      { c with outbox := c.outbox ++ [.msg (.fileTransferComplete id p.display)] } =
        announced c ++ [p.display] := by
    rw [announced, announced, List.filterMap_append]
    rfl
  have hopen {q : PathBuf} (hq : q ≠ p) (hopen : Open c files q) :
      Open { c with outbox := c.outbox ++ [.msg (.fileTransferComplete id p.display)] }
        files q := by
    refine ⟨hopen.1, hopen.2.1, fun hmem => ?_⟩
    rw [hnow] at hmem
    rcases List.mem_append.mp hmem with hmem | hmem
    · exact hopen.2.2 hmem
    · exact hq (display_inj (h.inside q hopen.1) (h.inside p hmade) (List.mem_singleton.mp hmem))
  refine ⟨h.inside, ?_, h.distinct, hrest, ?_, ?_, ?_, h.sends⟩
  · intro id state hlookup
    refine (h.live id state hlookup).imp_right (hopen ?_)
    rintro rfl
    exact haway ⟨id, state, hlookup, rfl⟩
  · intro q hq
    refine (h.held q (List.mem_cons_of_mem _ hq)).imp_left (hopen ?_)
    rintro rfl
    exact hp hq
  · intro text htext
    rw [hnow] at htext
    rcases List.mem_append.mp htext with htext | htext
    · exact h.told text htext
    · exact ⟨p, hmade, (List.mem_singleton.mp htext).symm, hsome⟩
  · intro q hq hqsome
    rw [hnow]
    rcases h.remains q hq hqsome with hlive | hmem | hmem
    · exact .inl hlive
    · rcases List.mem_cons.mp hmem with rfl | hmem
      · exact .inr (.inr (List.mem_append_right _ (List.mem_singleton_self _)))
      · exact .inr (.inl hmem)
    · exact .inr (.inr (List.mem_append_left _ hmem))

theorem Kept.insert (h : Kept folders (p :: rest) c files) {id : UInt32}
    {state : FileTransferState} (hnew : c.fileTransfers.lookup id = none)
    (hpath : state.destPath = p) (hfile : state.file.path = p) :
    Kept folders rest { c with fileTransfers := c.fileTransfers.insert id state } files := by
  subst hpath
  obtain ⟨hp, hrest⟩ := List.nodup_cons.mp h.nodup
  obtain ⟨hopen, haway⟩ := h.held state.destPath List.mem_cons_self
  have hlive {q : PathBuf}
      (hq : LiveAt { c with fileTransfers := c.fileTransfers.insert id state } q) :
      q = state.destPath ∨ LiveAt c q := by
    obtain ⟨id', state', hlookup, hpath⟩ := hq
    rcases lookup_insert_cases hlookup with ⟨-, rfl⟩ | ⟨-, hlookup⟩
    · exact .inl hpath.symm
    · exact .inr ⟨id', state', hlookup, hpath⟩
  refine ⟨h.inside, ?_, ?_, hrest, ?_, h.told, ?_, h.sends⟩
  · intro id' state' hlookup
    rcases lookup_insert_cases hlookup with ⟨-, rfl⟩ | ⟨-, hlookup⟩
    · exact ⟨hfile, hopen⟩
    · exact h.live id' state' hlookup
  · intro id₁ id₂ state₁ state₂ hlookup₁ hlookup₂ hsame
    rcases lookup_insert_cases hlookup₁ with ⟨rfl, rfl⟩ | ⟨-, hbefore₁⟩
    · rcases lookup_insert_cases hlookup₂ with ⟨rfl, -⟩ | ⟨-, hbefore₂⟩
      · rfl
      · exact absurd ⟨id₂, state₂, hbefore₂, hsame.symm⟩ haway
    · rcases lookup_insert_cases hlookup₂ with ⟨-, rfl⟩ | ⟨-, hbefore₂⟩
      · exact absurd ⟨id₁, state₁, hbefore₁, hsame⟩ haway
      · exact h.distinct id₁ id₂ state₁ state₂ hbefore₁ hbefore₂ hsame
  · intro q hq
    refine (h.held q (List.mem_cons_of_mem _ hq)).imp_right fun hnot hlive' => ?_
    rcases hlive hlive' with rfl | hlive'
    · exact hp hq
    · exact hnot hlive'
  · intro q hq hqsome
    rcases h.remains q hq hqsome with ⟨id', state', hlookup, hpath⟩ | hmem | hmem
    · refine .inl ⟨id', state', ?_, hpath⟩
      refine (AList.lookup_insert_ne ?_).trans hlookup
      rintro rfl
      rw [hnew] at hlookup
      contradiction
    · rcases List.mem_cons.mp hmem with rfl | hmem
      · exact .inl ⟨id, state, AList.lookup_insert .., rfl⟩
      · exact .inr (.inl hmem)
    · exact .inr (.inr hmem)

theorem Kept.create (h : Kept folders hand c files) (hfree : files p = none)
    (hinside : Inside folders.downloads p) :
    Kept folders (p :: hand) { c with effects := c.effects ++ [.createFile p] }
      (Function.update files p (some [])) := by
  have hcreated : created { c with effects := c.effects ++ [.createFile p] } =
      created c ++ [p] := by
    rw [created, created, List.filterMap_append]
    rfl
  have hother {q : PathBuf} (hq : files q ≠ none) :
      Function.update files p (some []) q = files q := by
    refine Function.update_of_ne ?_ ..
    rintro rfl
    exact hq hfree
  have hopen {q : PathBuf} (hopen : Open c files q) :
      Open { c with effects := c.effects ++ [.createFile p] }
        (Function.update files p (some [])) q := by
    refine ⟨?_, ?_, hopen.2.2⟩
    · rw [hcreated]
      exact List.mem_append_left _ hopen.1
    · rw [hother hopen.2.1]
      exact hopen.2.1
  have hnottold : p.display ∉ announced c := by
    intro hmem
    obtain ⟨q, hq, hdisplay, hsome⟩ := h.told _ hmem
    obtain rfl := display_inj (h.inside q hq) hinside hdisplay
    exact hsome hfree
  have hnotlive : ¬LiveAt c p := by
    rintro ⟨id, state, hlookup, rfl⟩
    exact (h.live id state hlookup).2.2.1 hfree
  refine ⟨?_, ?_, h.distinct, ?_, ?_, ?_, ?_, h.sends⟩
  · intro q hq
    rw [hcreated] at hq
    rcases List.mem_append.mp hq with hq | hq
    · exact h.inside q hq
    · exact List.mem_singleton.mp hq ▸ hinside
  · intro id state hlookup
    exact (h.live id state hlookup).imp_right hopen
  · exact List.nodup_cons.mpr ⟨fun hmem => (h.held p hmem).1.2.1 hfree, h.nodup⟩
  · intro q hq
    rcases List.mem_cons.mp hq with rfl | hq
    · refine ⟨⟨?_, ?_, hnottold⟩, hnotlive⟩
      · rw [hcreated]
        exact List.mem_append_right _ (List.mem_singleton_self _)
      · rw [Function.update_self]
        exact Option.some_ne_none _
    · exact (h.held q hq).imp_left hopen
  · intro text htext
    obtain ⟨q, hq, rfl, hsome⟩ := h.told text htext
    refine ⟨q, ?_, rfl, ?_⟩
    · rw [hcreated]
      exact List.mem_append_left _ hq
    · rwa [hother hsome]
  · intro q hq hqsome
    rcases eq_or_ne q p with rfl | hne
    · exact .inr (.inl List.mem_cons_self)
    · rw [hcreated] at hq
      rw [Function.update_of_ne hne] at hqsome
      have hold : q ∈ created c :=
        (List.mem_append.mp hq).resolve_right fun hmem => hne (List.mem_singleton.mp hmem)
      refine (h.remains q hold hqsome).imp_right fun hplace => hplace.imp_left ?_
      exact List.mem_cons_of_mem _

/-- The paths of a map of transfers. -/
def paths (transfers : HashMap UInt32 FileTransferState) : List PathBuf :=
  transfers.entries.map fun entry => entry.2.destPath

theorem Kept.drain (h : Kept folders [] c files) :
    Kept folders (paths c.fileTransfers) { c with fileTransfers := ∅ } files := by
  have hpath {p : PathBuf} : p ∈ paths c.fileTransfers ↔ LiveAt c p := by
    constructor
    · intro hp
      obtain ⟨⟨id, state⟩, hmem, rfl⟩ := List.mem_map.mp hp
      exact ⟨id, state, AList.mem_lookup_iff.mpr hmem, rfl⟩
    · rintro ⟨id, state, hlookup, rfl⟩
      exact List.mem_map.mpr ⟨⟨id, state⟩, AList.mem_lookup_iff.mp hlookup, rfl⟩
  have hnone (p : PathBuf) : ¬LiveAt { c with fileTransfers := ∅ } p := by
    rintro ⟨id, state, hlookup, -⟩
    cases hlookup
  refine ⟨h.inside, ?_, ?_, ?_, ?_, h.told, ?_, h.sends⟩
  · rintro id state ⟨⟩
  · rintro id id' state state' ⟨⟩
  · refine List.pairwise_map.mpr (List.Pairwise.imp_of_mem ?_
      (List.nodupKeys_iff_pairwise.mp c.fileTransfers.nodupKeys))
    rintro ⟨id, state⟩ ⟨id', state'⟩ hmem hmem' hne hsame
    exact hne (h.distinct id id' state state' (AList.mem_lookup_iff.mpr hmem)
      (AList.mem_lookup_iff.mpr hmem') hsame)
  · intro p hp
    obtain ⟨id, state, hlookup, rfl⟩ := hpath.mp hp
    exact ⟨(h.live id state hlookup).2, hnone _⟩
  · intro p hp hsome
    rcases h.remains p hp hsome with hlive | hmem | hmem
    · exact .inr (.inl (hpath.mpr hlive))
    · contradiction
    · exact .inr (.inr hmem)

end

/-! ### Sections -/

section

variable {folders : Folders} {hand rest : List PathBuf} {tr : HashMap UInt32 FileTransferState}
  {os : Answers} {s s' : St} {p : PathBuf}

/-- The books are kept, with these transfers in the map. -/
def Keeping (folders : Folders) (hand : List PathBuf) (tr : HashMap UInt32 FileTransferState)
    (s : St) : Prop :=
  s.conn.fileTransfers = tr ∧ Kept folders hand s.conn s.world.files

theorem keeping_stable : Stable Others (Keeping folders hand tr) := by
  intro s s' hs hothers
  rw [Keeping, others_conn hothers, (others_frame hothers).1]
  exact hs

theorem created_eq_deeds (c : Conn) : created c = (deeds c).filterMap createdPath := by
  rw [created, deeds, List.filterMap_filter]
  refine List.filterMap_congr fun effect _ => ?_
  cases effect <;> rfl

theorem Keeping.aside (h : Keeping folders hand tr s) (haside : Aside s s') :
    Keeping folders hand tr s' := by
  refine ⟨haside.fileTransfers.trans h.1, h.2.aside (fun id => ?_) ?_ haside.announced ?_ ?_⟩
  · rw [haside.fileTransfers]
  · rw [created_eq_deeds, created_eq_deeds, haside.deeds]
  · rw [haside.fileSends]
    exact h.2.sends
  · intro p _
    rw [haside.files]

theorem aside_keeping {α : Type} {t : Handler α} (ht : Guarantees Aside t) :
    Triple Others (Keeping folders hand tr) t fun _ => Keeping folders hand tr :=
  Guarantees.triple (P := Keeping folders hand tr) (fun _ _ => Keeping.aside) keeping_stable ht

theorem created_append {c : Conn} {effect : Effect} (h : createdPath effect = none) :
    created { c with effects := c.effects ++ [effect] } = created c := by
  rw [created, created, List.filterMap_append]
  simp [h]

theorem onFiles_keeping {f : (PathBuf → Option Bytes) → PathBuf → Option Bytes} {effect : Effect}
    (heffect : createdPath effect = none)
    (hf : ∀ files p, Inside folders.downloads p → (f files p = none ↔ files p = none)) :
    Triple Others (Keeping folders hand tr) (onFiles f effect)
      fun _ => Keeping folders hand tr := by
  refine triple_modify keeping_stable fun s h => ⟨h.1, ?_⟩
  exact h.2.aside (fun _ => rfl) (created_append heffect) rfl h.2.sends (hf s.world.files)

theorem removeFile_keeping (hos : Smooth os) :
    Triple Others (Keeping folders (p :: rest) tr) (removeFile os p)
      fun _ => Keeping folders rest tr := by
  refine triple_modify keeping_stable fun s h => ⟨h.1, ?_⟩
  have hremoved : Kept folders rest s.conn (Function.update s.world.files p none) := h.2.remove
  simp only [hos.removeFault]
  exact hremoved.aside (fun _ => rfl) (created_append rfl) rfl hremoved.sends fun _ _ => Iff.rfl

theorem removeSpool_keeping (hfolders : folders.downloads ≠ folders.temp)
    (hp : Inside folders.temp p) :
    Triple Others (Keeping folders hand tr) (removeFile os p)
      fun _ => Keeping folders hand tr := by
  refine onFiles_keeping rfl fun files q hq => ?_
  have hne : q ≠ p := by
    rintro rfl
    exact hfolders (hq.apart hp)
  split
  · rfl
  · rw [Function.update_of_ne hne]

theorem writeAll_keeping (file : OpenFile) (payload : Bytes) :
    Triple Others (Keeping folders hand tr) (writeAll os file payload)
      fun _ => Keeping folders hand tr := by
  unfold writeAll
  refine onFiles_keeping rfl fun files q _ => ?_
  rcases hfile : files file.path with _ | content
  · rfl
  · rcases eq_or_ne q file.path with rfl | hne
    · simp [hfile]
    · exact iff_of_eq (congrArg (· = none) (Function.update_of_ne hne ..))

theorem createFile_keeping (hos : Smooth os) (hinside : Inside folders.downloads p) :
    Triple Others (fun s => s.world.files p = none ∧ Keeping folders hand tr s) (createFile os p)
      fun _ => Keeping folders (p :: hand) tr := by
  refine triple_modify ?_ fun s h => ⟨h.2.1, ?_⟩
  · intro s s' hs hothers
    rw [(others_frame hothers).1]
    exact ⟨hs.1, keeping_stable hs.2 hothers⟩
  · simp only [hos.createFault, Option.isSome_none]
    exact h.2.2.create h.1 hinside

theorem insertTransfer_keeping {id : UInt32} {state : FileTransferState}
    (hnew : tr.lookup id = none) (hpath : state.destPath = p) (hfile : state.file.path = p) :
    Triple Others (Keeping folders (p :: rest) tr) (insertTransfer id state)
      fun _ => Keeping folders rest (tr.insert id state) := by
  refine triple_modify keeping_stable ?_
  rintro s ⟨rfl, h⟩
  exact ⟨rfl, h.insert hnew hpath hfile⟩

theorem complete_keeping (id : UInt32) :
    Triple Others (Keeping folders (p :: rest) tr) (send (.fileTransferComplete id p.display))
      fun _ => Keeping folders rest tr :=
  triple_modify keeping_stable fun _ h => ⟨h.1, h.2.announce id⟩

theorem takeTransfer_keeping (id : UInt32) :
    Triple Others (Keeping folders [] tr) (takeTransfer id)
      fun found s =>
        (found = tr.lookup id ∧ ∀ state, found = some state →
          state.file.path = state.destPath) ∧
          Keeping folders (found.toList.map FileTransferState.destPath) (tr.erase id) s := by
  refine triple_critical keeping_stable ?_
  rintro s ⟨rfl, h⟩
  refine ⟨⟨rfl, fun state hlookup => (h.live id state hlookup).1⟩, rfl, ?_⟩
  rcases hlookup : s.conn.fileTransfers.lookup id with _ | state
  · exact h.aside (lookup_erase_unknown hlookup) rfl rfl h.sends fun _ _ => Iff.rfl
  · exact h.take hlookup

/-! ### Uploads -/

/-- The books between two iterations. -/
def Books (folders : Folders) (s : St) : Prop :=
  Kept folders [] s.conn s.world.files

theorem books_stable : Stable Others (Books folders) := by
  intro s s' hs hothers
  rw [Books, others_conn hothers, (others_frame hothers).1]
  exact hs

theorem triple_books {α : Type} {t : Handler α}
    (h : ∀ tr, Triple Others (Keeping folders [] tr) t fun _ => Books folders) :
    Triple Others (Books folders) t fun _ => Books folders :=
  fun s _ _ _ hs hexec => h s.conn.fileTransfers ⟨rfl, hs⟩ hexec

theorem books_of_keeping {α : Type} {P : St → Prop} {t : Handler α}
    (h : Triple Others P t fun _ => Keeping folders [] tr) :
    Triple Others P t fun _ => Books folders :=
  h.consequence (fun _ hs => hs) fun _ _ hs => hs.2

theorem aside_books {α : Type} {t : Handler α} (ht : Guarantees Aside t) :
    Triple Others (Books folders) t fun _ => Books folders :=
  triple_books fun _ => books_of_keeping (aside_keeping ht)

theorem handleFileAbort_books (hos : Smooth os) (id : UInt32) :
    Triple Others (Books folders) (handleFileAbort os id) fun _ => Books folders := by
  refine triple_books fun tr => (takeTransfer_keeping id).bind fun found => triple_fact fun _ => ?_
  rcases found with _ | state
  · exact books_of_keeping (triple_pure fun _ hs => hs)
  · exact books_of_keeping (removeFile_keeping hos)

theorem failChunk_books (hos : Smooth os) (id : UInt32) (reason : String) :
    Triple Others (Keeping folders [p] tr) (failChunk os id p reason) fun _ => Books folders :=
  (removeFile_keeping hos).bind fun _ => books_of_keeping (aside_keeping (push_aside rfl))

theorem handleFileChunk_books (hos : Smooth os) (bytes : Bytes) :
    Triple Others (Books folders) (handleFileChunk os bytes) fun _ => Books folders := by
  unfold handleFileChunk
  split
  · exact triple_pure fun _ hs => hs
  next chunk _ =>
    refine triple_books fun tr => (takeTransfer_keeping chunk.id).bind fun found => ?_
    refine triple_fact fun ⟨_, hfile⟩ => ?_
    rcases found with _ | state
    · exact books_of_keeping (triple_pure fun _ hs => hs)
    · dsimp only
      split
      · exact failChunk_books hos _ _
      refine (writeAll_keeping _ _).bind fun _ => ?_
      simp only [hos.writeFault]
      split
      · exact books_of_keeping (complete_keeping _)
      · exact books_of_keeping (insertTransfer_keeping (AList.lookup_erase ..) rfl
          (hfile state rfl))

theorem metadataIsErr_keeping (hos : Smooth os) (path : PathBuf) :
    Triple Others (Keeping folders hand tr) (metadataIsErr os path)
      fun isErr s =>
        (isErr = true → s.world.files path = none) ∧ Keeping folders hand tr s := by
  refine triple_read keeping_stable fun s h => ⟨fun hnone => ?_, h⟩
  simpa [hos.metadataFault] using hnone

/-- The path that is found lies in the directory and is free. -/
def Free (dir : PathBuf) (result : Except String PathBuf) (s : St) : Prop :=
  ∀ path, result = .ok path → Inside dir path ∧ s.world.files path = none

theorem probeCandidates_keeping (hos : Smooth os) (dir : PathBuf) (name stem ext : String)
    (ns : List Nat) :
    Triple Others (Keeping folders hand tr) (probeCandidates os dir name stem ext ns)
      fun result s => Free dir result s ∧ Keeping folders hand tr s := by
  induction ns with
  | nil => exact triple_pure fun s hs => ⟨fun path h => (nomatch h), hs⟩
  | cons n rest ih =>
      refine (metadataIsErr_keeping hos _).bind fun isErr => ?_
      split
      next herr =>
        refine triple_pure fun s hs => ⟨?_, hs.2⟩
        rintro path ⟨⟩
        exact ⟨⟨_, rfl⟩, hs.1 herr⟩
      · exact ih.consequence (fun s hs => hs.2) fun _ _ h => h

theorem uniqueDestPath_keeping (hos : Smooth os) (dir : PathBuf) (name : String) :
    Triple Others (Keeping folders hand tr) (uniqueDestPath os dir name)
      fun result s => Free dir result s ∧ Keeping folders hand tr s := by
  refine (metadataIsErr_keeping hos _).bind fun isErr => ?_
  split
  next herr =>
    refine triple_pure fun s hs => ⟨?_, hs.2⟩
    rintro path ⟨⟩
    exact ⟨⟨_, rfl⟩, hs.1 herr⟩
  · exact (probeCandidates_keeping hos ..).consequence (fun s hs => hs.2) fun _ _ h => h

theorem handleFileBegin_books (hos : Smooth os) (hdir : os.downloadsDir = .ok folders.downloads)
    (id : UInt32) (name : String) (size : UInt64) :
    Triple Others (Books folders) (handleFileBegin os id name size) fun _ => Books folders := by
  have hfail (reason : String) : Guarantees Aside (failTransfer id reason) := push_aside rfl
  refine triple_books fun tr => ?_
  refine Triple.bind (M := fun conn s => conn.fileTransfers = tr ∧ Keeping folders [] tr s)
    (triple_read keeping_stable fun s hs => ⟨hs.1, hs⟩) fun conn => triple_fact ?_
  rintro rfl
  split
  · exact books_of_keeping (aside_keeping (hfail _))
  next hnew =>
    split
    · exact books_of_keeping (aside_keeping (hfail _))
    refine (aside_keeping (perform_aside (by simp [isDetached]))).bind fun _ => ?_
    simp only [hdir]
    refine (uniqueDestPath_keeping hos _ _).bind fun result => ?_
    rcases result with e | path
    · exact (books_of_keeping (aside_keeping (hfail _))).consequence (fun _ hs => hs.2)
        fun _ _ h => h
    · have hcreate : Triple Others
          (fun s => Free folders.downloads (.ok path) s ∧
            Keeping folders [] conn.fileTransfers s)
          (createFile os path) fun _ => Keeping folders [path] conn.fileTransfers := by
        intro s trace a s' hs hexec
        obtain ⟨hinside, hfree⟩ := hs.1 path rfl
        exact createFile_keeping hos hinside ⟨hfree, hs.2⟩ hexec
      refine hcreate.bind fun _ => ?_
      simp only [hos.createFault]
      have hnone : conn.fileTransfers.lookup id = none := by simpa using hnew
      refine Triple.bind (insertTransfer_keeping hnone ?_ ?_) fun _ => ?_
      · rfl
      · rfl
      · exact books_of_keeping (aside_keeping (push_aside rfl))

end

/-! ### Sends -/

section

variable {folders : Folders} {hand : List PathBuf} {tr : HashMap UInt32 FileTransferState}
  {os : Answers} (hfolders : folders.downloads ≠ folders.temp)

/-- The spool files of the sends are in the temporary directory. -/
def Spooled (folders : Folders) (c : Conn) : Prop :=
  ∀ id st, c.fileSends.lookup id = some st → Inside folders.temp st.tempPath

theorem onSends_keeping {f : Conn → Conn}
    (h : ∀ c, (f c).fileTransfers = c.fileTransfers ∧ (f c).effects = c.effects ∧
      (f c).outbox = c.outbox)
    (hsends : ∀ c, Spooled folders c → Spooled folders (f c)) :
    Triple Others (Keeping folders hand tr) (onConn f) fun _ => Keeping folders hand tr := by
  refine triple_modify keeping_stable fun s hs => ?_
  obtain ⟨htransfers, heffects, houtbox⟩ := h s.conn
  refine ⟨htransfers.trans hs.1, hs.2.aside (fun id => ?_) ?_ ?_ (hsends _ hs.2.sends)
    fun _ _ => Iff.rfl⟩
  · rw [htransfers]
  · rw [created, created, heffects]
  · rw [announced, announced, houtbox]

theorem cancelSender_keeping (cancel : Nat) :
    Triple Others (Keeping folders hand tr) (cancelSender cancel)
      fun _ => Keeping folders hand tr :=
  onSends_keeping (fun _ => ⟨rfl, rfl, rfl⟩) fun _ h => h

theorem takeSend_keeping (id : UInt32) :
    Triple Others (Keeping folders hand tr) (takeSend id)
      fun found s =>
        (∀ st, found = some st → Inside folders.temp st.tempPath) ∧
          Keeping folders hand tr s := by
  refine triple_critical keeping_stable fun s h => ⟨fun st => h.2.sends id st, h.1, ?_⟩
  refine h.2.aside (fun _ => rfl) rfl rfl (fun id' st hlookup => ?_) fun _ _ => Iff.rfl
  rcases eq_or_ne id' id with rfl | hne
  · rw [AList.lookup_erase] at hlookup
    contradiction
  · rw [AList.lookup_erase_ne hne] at hlookup
    exact h.2.sends id' st hlookup

theorem handleFileSendAccepted_books (id : UInt32) (destPath : String) :
    Triple Others (Books folders) (handleFileSendAccepted id destPath)
      fun _ => Books folders := by
  refine triple_books fun tr => books_of_keeping (onSends_keeping (fun c => ?_) fun c h => ?_)
  · split <;> exact ⟨rfl, rfl, rfl⟩
  · split
    next st hst =>
      intro id' st' hlookup
      rcases eq_or_ne id' id with rfl | hne
      · rw [AList.lookup_insert] at hlookup
        obtain rfl := Option.some.inj hlookup
        exact h id' st hst
      · rw [AList.lookup_insert_ne hne] at hlookup
        exact h id' st' hlookup
    · exact h

include hfolders

theorem handleFileSendComplete_books (id : UInt32) :
    Triple Others (Books folders) (handleFileSendComplete os id) fun _ => Books folders := by
  refine triple_books fun tr => (takeSend_keeping id).bind fun found => triple_fact fun htemp => ?_
  rcases found with _ | st
  · exact books_of_keeping (triple_pure fun _ hs => hs)
  · exact books_of_keeping (removeSpool_keeping hfolders (htemp st rfl))

theorem abandonSend_books (id : UInt32) :
    Triple Others (Books folders) (abandonSend os id) fun _ => Books folders := by
  refine triple_books fun tr => (takeSend_keeping id).bind fun found => triple_fact fun htemp => ?_
  rcases found with _ | st
  · exact books_of_keeping (triple_pure fun _ hs => hs)
  · refine (cancelSender_keeping _).bind fun _ => ?_
    exact books_of_keeping (removeSpool_keeping hfolders (htemp st rfl))

omit hfolders

theorem dispatchFileSendCmd_books (id : UInt32) (name : String) (size : UInt64) {temp : PathBuf}
    (htemp : Inside folders.temp temp) :
    Triple Others (Books folders) (dispatchFileSendCmd id name size temp)
      fun _ => Books folders := by
  refine triple_books fun tr => ?_
  refine Triple.bind (M := fun _ => Keeping folders [] tr)
    (onSends_keeping (fun _ => ⟨rfl, rfl, rfl⟩) fun c h id' st hlookup => ?_) fun _ => ?_
  · rcases eq_or_ne id' id with rfl | hne
    · rw [AList.lookup_insert] at hlookup
      obtain rfl := Option.some.inj hlookup
      exact htemp
    · rw [AList.lookup_insert_ne hne] at hlookup
      exact h id' st hlookup
  · refine (aside_keeping (push_aside rfl)).bind fun _ => ?_
    refine triple_modify keeping_stable fun s h => ?_
    exact h.2.aside (fun _ => rfl) (created_append rfl) rfl h.2.sends fun _ _ => Iff.rfl

include hfolders

theorem handleCommand_books {s s' : St} {trace : List (St × St)} {flow : Flow}
    (hspool : ∀ sec ∈ trace, ∀ cmd ∈ sec.1.world.bridge.commands sec.1.conn.connId,
      SpoolCmd folders cmd)
    (hs : Books folders s) (hexec : Exec Others (handleCommand os) s trace flow s') :
    Books folders s' := by
  obtain ⟨_, cmd, mid, _, hrecv, hrest, rfl⟩ := exec_bind_iff.mp hexec
  obtain ⟨found, hothers, rfl, hcmd, hmid⟩ := exec_critical_iff.mp hrecv
  have hbooks : Books folders mid := by
    have hfound : Books folders found := books_stable hs hothers
    rw [hmid]
    exact hfound
  rcases cmd with _ | cmd
  · obtain ⟨-, -, rfl⟩ := exec_pure_iff.mp hrest
    exact hbooks
  have hcmd : SpoolCmd folders cmd :=
    hspool _ (List.mem_append_left _ (List.mem_singleton_self _)) cmd
      (List.mem_of_mem_head? hcmd.symm)
  have hthen {α β : Type} {t : Handler α} (b : β)
      (ht : Triple Others (Books folders) t fun _ => Books folders) :
      Triple Others (Books folders) (t >>= fun _ => pure b) fun _ => Books folders :=
    ht.bind fun _ => triple_pure fun _ hs => hs
  refine Triple.bind (Q := fun _ => Books folders) (aside_books (read_aside St.conn))
    (fun conn => ?_) hbooks hrest
  split
  · cases cmd with
    | send id name size temp =>
        refine hthen _ (triple_books fun tr => ?_)
        have hkept : Triple Others (Keeping folders [] tr) (removeFile os temp)
            fun _ => Keeping folders [] tr := removeSpool_keeping hfolders (hcmd _ _ _ _ rfl)
        exact books_of_keeping hkept
    | cancel id => exact triple_pure fun _ hs => hs
  · cases cmd with
    | send id name size temp => exact hthen _ (dispatchFileSendCmd_books _ _ _ (hcmd _ _ _ _ rfl))
    | cancel id => exact hthen _ (abandonSend_books hfolders _)

end

/-! ### Iterations and teardown -/

section

variable {folders : Folders} {os : Answers} {crates : Crates} {cfg : Config}

theorem drainTransfers_keeping (hos : Smooth os) :
    Triple Others (Books folders) (drainTransfers os) fun _ => Keeping folders [] ∅ := by
  refine Triple.bind
    (M := fun (conn : Conn) s => conn.fileTransfers = s.conn.fileTransfers ∧ Books folders s)
    (triple_read books_stable fun s hs => ⟨rfl, hs⟩) fun conn => ?_
  · refine Triple.bind (M := fun _ => Keeping folders (paths conn.fileTransfers) ∅) ?_
      fun _ => ?_
    · refine triple_modify ?_ fun s hs => ⟨rfl, ?_⟩
      · intro s s' hs hothers
        rw [others_conn hothers]
        exact ⟨hs.1, books_stable hs.2 hothers⟩
      · rw [hs.1]
        exact hs.2.drain
    · exact Triple.forM
        (fun entries => Keeping folders (entries.map fun entry => entry.2.destPath) ∅) _
        (fun entry entries => removeFile_keeping hos) conn.fileTransfers.entries

theorem drainSends_keeping (hfolders : folders.downloads ≠ folders.temp)
    {tr : HashMap UInt32 FileTransferState} :
    Triple Others (Keeping folders [] tr) (drainSends os) fun _ => Keeping folders [] tr := by
  refine Triple.bind (M := fun conn s => Spooled folders conn ∧ Keeping folders [] tr s)
    (triple_read keeping_stable fun s hs => ⟨hs.2.sends, hs⟩) fun conn => triple_fact ?_
  intro hspooled
  refine Triple.bind (M := fun _ => Keeping folders [] tr)
    (onSends_keeping (fun _ => ⟨rfl, rfl, rfl⟩) fun c _ id st hlookup => nomatch hlookup)
    fun _ => ?_
  refine (Triple.forM (fun entries s =>
    (∀ entry ∈ entries, Inside folders.temp entry.2.tempPath) ∧ Keeping folders [] tr s)
      _ ?_ conn.fileSends.entries).consequence ?_ fun _ _ hs => hs.2
  · refine fun entry entries => triple_fact fun hinside => ?_
    refine (cancelSender_keeping _).bind fun _ => ?_
    refine (removeSpool_keeping hfolders (hinside entry List.mem_cons_self)).consequence
      (fun _ hs => hs) fun _ s hs => ⟨fun other hmem => ?_, hs⟩
    exact hinside other (List.mem_cons_of_mem _ hmem)
  · refine fun s hs => ⟨fun entry hmem => ?_, hs⟩
    exact hspooled entry.1 entry.2 (AList.mem_lookup_iff.mpr hmem)

theorem teardown_keeping (hfolders : folders.downloads ≠ folders.temp) (hos : Smooth os) :
    Triple Others (Books folders) (teardown os) fun _ => Keeping folders [] ∅ :=
  (aside_books stopActiveStream_aside).bind fun _ => (drainTransfers_keeping hos).bind fun _ =>
    (drainSends_keeping hfolders).bind fun _ => aside_keeping deregisterBridge_aside

theorem handleText_books (hfolders : folders.downloads ≠ folders.temp) (hos : Smooth os)
    (hdir : os.downloadsDir = .ok folders.downloads) (text : String) :
    Triple Others (Books folders) (handleText crates cfg os text) fun _ => Books folders := by
  have hthen {α β : Type} {t : Handler α} (b : α → β)
      (ht : Triple Others (Books folders) t fun _ => Books folders) :
      Triple Others (Books folders) (t >>= fun a => pure (b a)) fun _ => Books folders :=
    ht.bind fun _ => triple_pure fun _ hs => hs
  unfold handleText
  split
  · exact aside_books (reply_aside rfl _)
  · refine (aside_books (read_aside St.conn)).bind fun conn => ?_
    split
    · exact aside_books (reply_aside rfl _)
    · exact hthen _ (handleFileBegin_books hos hdir _ _ _)
  · exact hthen _ (handleFileAbort_books hos _)
  · exact hthen _ (handleFileSendAccepted_books _ _)
  · exact hthen _ (handleFileSendComplete_books hfolders _)
  · exact hthen _ (abandonSend_books hfolders _)
  · exact hthen _ (aside_books (handleClientMsg_aside crates cfg os _))

theorem handleBinary_books (hos : Smooth os) (bytes : Bytes) :
    Triple Others (Books folders) (handleBinary os bytes) fun _ => Books folders := by
  refine (aside_books (read_aside St.conn)).bind fun conn => ?_
  split
  · exact triple_pure fun _ hs => hs
  split
  · split
    · exact (handleFileChunk_books hos bytes).bind fun _ => triple_pure fun _ hs => hs
    · exact triple_pure fun _ hs => hs
  · exact triple_pure fun _ hs => hs

theorem iteration_books (hfolders : folders.downloads ≠ folders.temp) (hos : Smooth os)
    (hdir : os.downloadsDir = .ok folders.downloads) {event : Event} {s s' : St}
    {trace : List (St × St)} {cont : Bool}
    (hspool : ∀ sec ∈ trace, ∀ cmd ∈ sec.1.world.bridge.commands sec.1.conn.connId,
      SpoolCmd folders cmd)
    (hs : Books folders s) (hexec : Exec Others (iteration crates cfg os event) s trace cont s') :
    Books folders s' := by
  obtain ⟨first, flow, mid, last, hevent, hafter, rfl⟩ := exec_bind_iff.mp hexec
  refine aside_books (afterSelect_aside flow) ?_ hafter
  have hnothing {flow' : Flow} {s' : St} {trace : List (St × St)}
      (h : Exec Others (pure flow' : Handler Flow) s trace flow s') : Books folders s' := by
    obtain ⟨-, -, rfl⟩ := exec_pure_iff.mp h
    exact hs
  cases event with
  | idle => exact hnothing hevent
  | inbox msg =>
      rcases msg with _ | text | bytes | payload | payload | _
      · exact hnothing hevent
      · exact handleText_books hfolders hos hdir text hs hevent
      · exact handleBinary_books hos bytes hs hevent
      · exact aside_books (reply_aside rfl _) hs hevent
      · exact hnothing hevent
      · exact hnothing hevent
  | packet frame sent => exact aside_books (handlePacket_aside frame sent) hs hevent
  | command =>
      refine handleCommand_books hfolders (fun sec hsec => hspool sec ?_) hs hevent
      exact List.mem_append_left _ hsec

/-- The books of a connection, which has no transfers left once it has returned. -/
def Balanced (folders : Folders) (s : Session) : Prop :=
  Books folders s.st ∧ (s.running = false → s.st.conn.fileTransfers = ∅)

theorem step_balanced (hfolders : folders.downloads ≠ folders.temp) {s s' : Session}
    {label : Label} (h : Balanced folders s) (hstep : Step crates cfg s label s')
    (horderly : Orderly folders s label s') : Balanced folders s' := by
  cases hstep with
  | others hothers =>
      obtain ⟨htransfers, hbooks⟩ := keeping_stable ⟨rfl, h.1⟩ hothers
      exact ⟨hbooks, fun hover => htransfers.trans (h.2 hover)⟩
  | again _ _ hiter =>
      obtain ⟨hos, hdir, hspool⟩ := horderly
      exact ⟨iteration_books hfolders hos hdir hspool h.1 hiter, fun hover => by contradiction⟩
  | finish _ _ hiter hdown =>
      obtain ⟨hos, hdir, hspool⟩ := horderly
      have hmid := iteration_books hfolders hos hdir hspool h.1 hiter
      obtain ⟨htransfers, hbooks⟩ := teardown_keeping hfolders hos hmid hdown
      exact ⟨hbooks, fun _ => htransfers⟩

theorem balanced_start {s : Session} (h : Starts s) : Balanced folders s := by
  obtain ⟨connId, peerLabel, world, rfl⟩ := h
  refine ⟨⟨?_, ?_, ?_, List.nodup_nil, ?_, ?_, ?_, ?_⟩, fun hover => by contradiction⟩
  · exact fun p hp => absurd hp List.not_mem_nil
  · rintro id state ⟨⟩
  · rintro id id' state state' ⟨⟩
  · exact fun p hp => absurd hp List.not_mem_nil
  · exact fun text htext => absurd htext List.not_mem_nil
  · exact fun p hp => absurd hp List.not_mem_nil
  · rintro id st ⟨⟩

theorem Kept.accounted {s : St} (h : Books folders s) : Accounted s := by
  refine ⟨fun p hp => ?_, h.distinct⟩
  by_cases hlive : LiveAt s.conn p
  · obtain ⟨id, state, hlookup, rfl⟩ := hlive
    refine .inl ⟨⟨id, ⟨state, hlookup, rfl⟩, ?_⟩, (h.live id state hlookup).2.2⟩
    rintro id' ⟨state', hlookup', hsame⟩
    exact h.distinct id' id state' state hlookup' hlookup hsame
  · rcases eq_or_ne (s.world.files p) none with hgone | hsome
    · refine .inr (.inr ⟨hlive, hgone, fun htold => ?_⟩)
      obtain ⟨q, hq, hdisplay, hqsome⟩ := h.told _ htold
      obtain rfl := display_inj (h.inside q hq) (h.inside p hp) hdisplay
      exact hqsome hgone
    · have htold := ((h.remains p hp hsome).resolve_left hlive).resolve_left List.not_mem_nil
      exact .inr (.inl ⟨hlive, hsome, htold⟩)

theorem handles_text {event : Event} {msg : ClientMsg}
    (h : event.handles crates = some msg) :
    ∃ text, event = .inbox (some (.text text)) ∧ crates.parseClientMsg text = some msg := by
  rcases event with _ | (_ | text | _ | _ | _ | _) | _ | _
  any_goals contradiction
  exact ⟨text, rfl, h⟩

theorem refused_untouched {text : String} {id : UInt32} {name : String} {size : UInt64}
    {s s' : St} {trace : List (St × St)} {cont : Bool}
    (hparse : crates.parseClientMsg text = some (.fileTransferBegin id name size))
    (hrefused : (s.conn.fileTransfers.lookup id).isSome ∨ maxFileSize < size.toNat)
    (hexec : Exec Others (iteration crates cfg os (.inbox (some (.text text)))) s trace cont s') :
    cont = true ∧ created s'.conn = created s.conn ∧
      s'.conn.fileTransfers = s.conn.fileTransfers ∧ s'.world.files = s.world.files := by
  let Same (t : St) : Prop := created t.conn = created s.conn ∧
    t.conn.fileTransfers = s.conn.fileTransfers ∧ t.world.files = s.world.files
  have hstable : Stable Others Same := by
    intro t t' ht hothers
    simp only [Same, others_conn hothers, (others_frame hothers).1]
    exact ht
  have haside {α : Type} {t : Handler α} (ht : Guarantees Aside t) :
      Triple Others Same t fun _ => Same := by
    refine ht.triple (fun t t' hsame haside => ?_) hstable
    obtain ⟨hcreated, htransfers, hfiles⟩ := hsame
    refine ⟨?_, haside.fileTransfers.trans htransfers, haside.files.trans hfiles⟩
    rw [created_eq_deeds, haside.deeds, ← created_eq_deeds, hcreated]
  have hread {α : Type} {k : Conn → Handler α} {Q : α → St → Prop}
      (hk : ∀ c : Conn, c.fileTransfers = s.conn.fileTransfers → Triple Others Same (k c) Q) :
      Triple Others Same (.read St.conn >>= k) Q :=
    Triple.bind (M := fun c t => c.fileTransfers = s.conn.fileTransfers ∧ Same t)
      (triple_read hstable fun t ht => ⟨ht.2.1, ht⟩) fun c => triple_fact (hk c)
  have hreply {flow : Flow} {t : Handler PUnit} (ht : Guarantees Aside t) (hflow : flow ≠ .stop) :
      Triple Others Same (t >>= fun _ => pure flow) fun flow t => flow ≠ .stop ∧ Same t :=
    (haside ht).bind fun _ => triple_pure fun _ hs => ⟨hflow, hs⟩
  have hiteration : Triple Others Same (iteration crates cfg os (.inbox (some (.text text))))
      fun cont t => cont = true ∧ Same t := by
    refine Triple.bind (M := fun flow t => flow ≠ .stop ∧ Same t) ?_ fun flow =>
      triple_fact fun hflow => ?_
    · simp only [handleEvent, handleInbox, handleText, hparse]
      refine hread fun c _ => ?_
      split
      · exact hreply (push_aside rfl) (by decide)
      refine Triple.bind (M := fun _ => Same) (hread fun c htransfers => ?_) fun _ =>
        triple_pure fun _ hs => ⟨by decide, hs⟩
      rw [htransfers]
      split
      · exact haside (push_aside rfl)
      next hnew =>
        rw [if_pos (hrefused.resolve_left hnew)]
        exact haside (push_aside rfl)
    · cases flow with
      | stop => exact absurd rfl hflow
      | restart => exact triple_pure fun _ hs => ⟨rfl, hs⟩
      | fallThrough =>
          exact (haside registerBridgeOnce_aside).bind fun _ => triple_pure fun _ hs => ⟨rfl, hs⟩
  exact hiteration ⟨rfl, rfl, rfl⟩ hexec

end

/-- In every orderly run each file that was created belongs to exactly one transfer, is complete
and announced, or is removed; when `run_connection` has returned the complete ones remain; and a
begin with the id of a live transfer or of a file that is too large changes no transfer and no
file. -/
theorem created_files_accounted {crates : Crates} {cfg : Config} {folders : Folders}
    (hfolders : folders.downloads ≠ folders.temp) {s : Session}
    (hreach : ((connection crates cfg).restrict (Orderly folders)).Reachable s) :
    Accounted s.st ∧
      (s.running = false → ∀ p ∈ created s.st.conn,
        s.st.world.files p ≠ none ↔ p.display ∈ announced s.st.conn) ∧
      ∀ label s' id name size, (connection crates cfg).step s label s' →
        label.handles crates = some (.fileTransferBegin id name size) →
        ((s.st.conn.fileTransfers.lookup id).isSome ∨ maxFileSize < size.toNat) →
          created s'.st.conn = created s.st.conn ∧
            s'.st.conn.fileTransfers = s.st.conn.fileTransfers ∧
            s'.st.world.files = s.st.world.files := by
  have hbalanced : Balanced folders s := by
    induction hreach with
    | init hinit => exact balanced_start hinit
    | step _ hstep ih => exact step_balanced hfolders ih hstep.1 hstep.2
  have haccounted := Kept.accounted hbalanced.1
  refine ⟨haccounted, fun hover p hp => ?_, ?_⟩
  · have hnone : ¬LiveAt s.st.conn p := by
      rintro ⟨id, state, hlookup, -⟩
      rw [hbalanced.2 hover] at hlookup
      cases hlookup
    rcases haccounted.fate p hp with ⟨⟨id, ⟨state, hlookup, hpath⟩, -⟩, -⟩ | hdone | hgone
    · exact absurd ⟨id, state, hlookup, hpath⟩ hnone
    · exact iff_of_true hdone.2.1 hdone.2.2
    · exact iff_of_false (not_not.mpr hgone.2.1) hgone.2.2
  · intro label s' id name size hstep hbegin hrefused
    cases hstep with
    | others _ => contradiction
    | again _ _ hiter =>
        obtain ⟨text, rfl, hparse⟩ := handles_text hbegin
        exact (refused_untouched hparse hrefused hiter).2
    | finish _ _ hiter _ =>
        obtain ⟨text, rfl, hparse⟩ := handles_text hbegin
        have hgoesOn := (refused_untouched hparse hrefused hiter).1
        contradiction

/-! ### A file of two bytes -/

/-- A phone pairs, and then sends `a.txt`. -/
def uploadingCrates : Crates :=
  { parsesTo (.fileTransferBegin 7 "a.txt" 2) with
    parseClientMsg := fun text =>
      if text = "hello" then some (.hello 6 "123456" "bm9uY2U=" ⟨"p", "android", "1"⟩)
      else some (.fileTransferBegin 7 "a.txt" 2) }

/-- One pass that nobody disturbs. -/
def passed (event : Event) (s : Session) : Session :=
  let outcome := runUnder [] (iteration uploadingCrates bareConfig smoothAnswers event) s.st
  { st := outcome.2.2, running := true, deadline := outcome.2.2.world.now + idleTimeout
    lastInbound := s.arrival event }

/-- The sections of that pass. -/
def sections (event : Event) (s : Session) : List (St × St) :=
  (runUnder [] (iteration uploadingCrates bareConfig smoothAnswers event) s.st).1

/-- The phone closes the socket. -/
def closed (s : Session) : Session :=
  let event : Event := .inbox (some .close)
  let outcome := runUnder [] (iteration uploadingCrates bareConfig smoothAnswers event) s.st
  { s with
    st := (runUnder [] (teardown smoothAnswers) outcome.2.2).2.2
    running := false
    lastInbound := s.arrival event }

theorem orderly_sections {event : Event} {s s' : Session}
    (h : ∀ sec ∈ sections event s, sec.1.world.bridge.commands sec.1.conn.connId = []) :
    Orderly usualFolders s (.taken event smoothAnswers (sections event s)) s' := by
  refine ⟨⟨⟨_, rfl⟩, fun _ => rfl, rfl, rfl, rfl, fun _ => rfl⟩, rfl, fun sec hsec cmd hcmd => ?_⟩
  rw [h sec hsec] at hcmd
  contradiction

theorem passed_step {event : Event} {s : Session} (hrunning : s.running = true)
    (hready : Ready s event)
    (hcont : (runUnder [] (iteration uploadingCrates bareConfig smoothAnswers event)
      s.st).2.1 = true)
    (h : ∀ sec ∈ sections event s, sec.1.world.bridge.commands sec.1.conn.connId = []) :
    ((connection uploadingCrates bareConfig).restrict (Orderly usualFolders)).step s
      (.taken event smoothAnswers (sections event s)) (passed event s) := by
  refine ⟨.again hrunning hready ?_, orderly_sections h⟩
  have hexec := exec_runUnder others_refl nobody_acts
    (iteration uploadingCrates bareConfig smoothAnswers event) s.st
  rwa [hcont] at hexec

theorem closed_step {s : Session} (hrunning : s.running = true)
    (h : ∀ sec ∈ sections (.inbox (some .close)) s,
      sec.1.world.bridge.commands sec.1.conn.connId = []) :
    ((connection uploadingCrates bareConfig).restrict (Orderly usualFolders)).step s
      (.taken (.inbox (some .close)) smoothAnswers (sections (.inbox (some .close)) s))
      (closed s) :=
  ⟨.finish hrunning trivial (exec_runUnder others_refl nobody_acts _ _)
    (exec_runUnder others_refl nobody_acts _ _), orderly_sections h⟩

def paired : Session :=
  passed (.inbox (some (.text "hello"))) (.start 0 "10.0.0.2:5000" bareWorld)

def begun : Session :=
  passed (.inbox (some (.text "begin"))) paired

def uploaded : Session :=
  passed (.inbox (some (.binary (buildFileChunkFrame 7 0 true [104, 105])))) begun

theorem uploaded_reachable :
    ((connection uploadingCrates bareConfig).restrict (Orderly usualFolders)).Reachable
      uploaded := by
  have hstart : ((connection uploadingCrates bareConfig).restrict
      (Orderly usualFolders)).Reachable (.start 0 "10.0.0.2:5000" bareWorld) :=
    .init ⟨_, _, _, rfl⟩
  have hpaired : ((connection uploadingCrates bareConfig).restrict
      (Orderly usualFolders)).Reachable paired :=
    hstart.step (passed_step rfl trivial (by decide +kernel) (by decide +kernel))
  have hbegun : ((connection uploadingCrates bareConfig).restrict
      (Orderly usualFolders)).Reachable begun :=
    hpaired.step (passed_step rfl trivial (by decide +kernel) (by decide +kernel))
  exact hbegun.step (passed_step rfl trivial (by decide +kernel) (by decide +kernel))

theorem created_files_accounted_two_bytes :
    Accounted (closed uploaded).st ∧
      created (closed uploaded).st.conn = [⟨["Downloads", "a.txt"]⟩] ∧
      (closed uploaded).st.world.files ⟨["Downloads", "a.txt"]⟩ ≠ none := by
  have hcreated : created (closed uploaded).st.conn = [⟨["Downloads", "a.txt"]⟩] := by
    decide +kernel
  have hreach := uploaded_reachable.step (closed_step rfl (by decide +kernel))
  obtain ⟨haccounted, hremain, -⟩ := created_files_accounted usualFolders_ne hreach
  refine ⟨haccounted, hcreated, (hremain rfl _ ?_).mpr ?_⟩
  · rw [hcreated]
    exact List.mem_singleton_self _
  · decide +kernel

end RemoteControl.Server.CreatedFiles
