import RemoteControl.Server.Sends

/-!
Who has to remove a spool file: the request that writes it, then the queue of the connection that
its command is sent to, then a handler of that connection or its map of sends.
-/

namespace RemoteControl.Server.Spools

open RemoteControl.Foundations.ByteStrings
open RemoteControl.Foundations.Custody
open RemoteControl.Foundations.Interference
open RemoteControl.Foundations.Interference.Task
open RemoteControl.Foundations.Transition
open RemoteControl.Foundations.Transition.System
open RemoteControl.Wire.Protocol
open RemoteControl.Server.Stores
open RemoteControl.Server.Connection
open RemoteControl.Server.FileHandlers
open RemoteControl.Server.Loop
open RemoteControl.Server.Frame
open RemoteControl.Server.Transfers
open RemoteControl.Server.Sends
open RemoteControl.Server.Pool

/-! ### Custody -/

def Listed (c : Conn) (p : PathBuf) : Prop :=
  ∃ id st, c.fileSends.lookup id = some st ∧ st.tempPath = p

def Queued (s : St) (p : PathBuf) : Prop :=
  ∃ id name size, .send id name size p ∈ s.world.bridge.commands s.conn.connId

/-- The connection has to remove the spool file; `inHand` are the files that its handler has
taken out of the queue or the map. -/
def Holds (inHand : List PathBuf) (s : St) (p : PathBuf) : Prop :=
  p ∈ inHand ∨ Listed s.conn p ∨ Queued s p

/-- The connection keeps what it holds until the file is gone. -/
structure Handed (folders : Folders) (inHand : List PathBuf) (s : St) (inHand' : List PathBuf)
    (s' : St) : Prop where
  connId : s'.conn.connId = s.conn.connId
  holds : ∀ p, Holds inHand s p → s'.world.files p ≠ none → Holds inHand' s' p
  files : ∀ p, ¬Inside folders.downloads p → s'.world.files p ≠ none → s.world.files p ≠ none
  commands : ∀ j, j ≠ s.conn.connId → s'.world.bridge.commands j = s.world.bridge.commands j

def discipline (folders : Folders) : Discipline St (List PathBuf) where
  rely _ := Left
  act := Handed folders
  next _ _ := True

variable {folders : Folders} {inHand inHand' : List PathBuf} {s s' : St} {os : Answers}

theorem Holds.left {p : PathBuf} (h : Holds inHand s p) (hleft : Left s s') :
    Holds inHand s' p := by
  obtain ⟨hconn, appended, hcommands⟩ := hleft
  refine h.imp_right fun h => h.imp (fun hlisted => hconn ▸ hlisted) ?_
  rintro ⟨id, name, size, hmem⟩
  refine ⟨id, name, size, ?_⟩
  rw [hconn, hcommands]
  exact List.mem_append_left _ hmem

/-- Nothing is in hand at the select. -/
def Idle (inHand : List PathBuf) (_ : St) : Prop :=
  inHand = []

/-- Nothing is in hand and no send is left. -/
def Gone (inHand : List PathBuf) (s : St) : Prop :=
  inHand = [] ∧ s.conn.fileSends = ∅

theorem Aloof.handed (h : Aloof folders s s') : Handed folders inHand s inHand s' := by
  refine ⟨h.connId, fun p hp _ => ?_, h.files, fun j _ => congrFun h.commands j⟩
  refine hp.imp_right fun hp => hp.imp (fun hlisted => ?_) fun hqueued => ?_
  · rw [Listed, h.fileSends]
    exact hlisted
  · rw [Queued, h.commands, h.connId]
    exact hqueued

theorem keeps_aloof {α : Type} {t : Handler α} (ht : Guarantees (Aloof folders) t) :
    Keeps (discipline folders)
      (fun inHand' _ s' => inHand' = inHand ∧ s'.conn.fileSends = s.conn.fileSends) t inHand s := by
  refine keeps_of_guarantees (D := discipline folders)
    (I := fun _ s' => s'.conn.fileSends = s.conn.fileSends) ht (fun _ => trivial) ?_ ?_ rfl
  · intro t t' h hleft
    rw [hleft.conn]
    exact h
  · exact fun h haloof => ⟨Aloof.handed haloof, haloof.fileSends.trans h⟩

theorem preserves_aloof {α : Type} {t : Handler α} (ht : Guarantees (Aloof folders) t) :
    Preserves (discipline folders) Idle t := by
  rintro inHand s rfl
  exact (keeps_aloof ht).mono fun _ _ _ h => h.1

theorem preserves_gone {α : Type} {t : Handler α} (ht : Guarantees (Aloof folders) t) :
    Preserves (discipline folders) Gone t := by
  rintro inHand s ⟨rfl, hempty⟩
  exact (keeps_aloof ht).mono fun _ _ _ h => ⟨h.1, h.2.trans hempty⟩

/-! ### Sends -/

theorem handed_of_conn {f : Conn → Conn} (hid : (f s.conn).connId = s.conn.connId)
    (h : ∀ p, p ∈ inHand ∨ Listed s.conn p → p ∈ inHand' ∨ Listed (f s.conn) p) :
    Handed folders inHand s inHand' { s with conn := f s.conn } := by
  refine ⟨hid, fun p hp _ => ?_, fun _ _ => id, fun _ _ => rfl⟩
  rcases or_assoc.mpr hp with hp | ⟨id, name, size, hmem⟩
  · exact or_assoc.mp (.inl (h p hp))
  · refine .inr (.inr ⟨id, name, size, ?_⟩)
    rw [hid]
    exact hmem

theorem removeFile_keeps {path : PathBuf} (hfault : os.removeFault path = false)
    (rest : List PathBuf) :
    Keeps (discipline folders)
      (fun inHand _ s' => inHand = rest ∧ s'.conn.fileSends = s.conn.fileSends)
      (removeFile os path) (path :: rest) s := by
  refine keeps_modify trivial fun found hfound => ⟨rest, ?_, rfl, ?_⟩
  · have hremove : Guarantees (Aloof folders) (removeFile os path) := removeFile_aloof path
    have haloof := (guarantees_modify _).mp hremove found
    refine ⟨haloof.connId, fun p hp hsome => ?_, haloof.files, fun _ _ => rfl⟩
    have hkept := (Aloof.handed haloof).holds p hp hsome
    rcases hkept with hmem | hkept
    · rcases List.mem_cons.mp hmem with rfl | hmem
      · simp [hfault] at hsome
      · exact .inl hmem
    · exact .inr hkept
  · show found.conn.fileSends = s.conn.fileSends
    rw [hfound.conn]

/-- The spool file of a send that the handler has taken out of the map. -/
def spoolOf (found : Option FileSendState) : List PathBuf :=
  (found.map FileSendState.tempPath).toList

theorem takeSend_keeps (id : UInt32) :
    Keeps (discipline folders) (fun inHand found _ => inHand = spoolOf found) (takeSend id) []
      s := by
  refine keeps_critical trivial fun found _ => ⟨spoolOf (found.conn.fileSends.lookup id), ?_, rfl⟩
  refine handed_of_conn (f := fun c => { c with fileSends := c.fileSends.erase id }) rfl ?_
  rintro p (hmem | ⟨id', st, hlookup, rfl⟩)
  · exact absurd hmem List.not_mem_nil
  rcases eq_or_ne id' id with rfl | hne
  · refine .inl (Option.mem_toList.mpr ?_)
    rw [hlookup]
    rfl
  · exact .inr ⟨id', st, (AList.lookup_erase_ne hne).trans hlookup, rfl⟩

theorem onConn_keeps {f : Conn → Conn} (hid : ∀ c, (f c).connId = c.connId)
    (hlisted : ∀ c p, Listed c p → Listed (f c) p) :
    Keeps (discipline folders) (fun inHand' _ s' => inHand' = inHand ∧ s'.conn = f s.conn)
      (onConn f) inHand s := by
  refine keeps_modify trivial fun found hfound => ⟨inHand, ?_, rfl, ?_⟩
  · exact handed_of_conn (hid _) fun p hp => hp.imp_right (hlisted _ p)
  · show f found.conn = f s.conn
    rw [hfound.conn]

theorem cancelSender_keeps (cancel : Nat) :
    Keeps (discipline folders)
      (fun inHand' _ s' => inHand' = inHand ∧ s'.conn.fileSends = s.conn.fileSends)
      (cancelSender cancel) inHand s := by
  refine (onConn_keeps (f := fun c => { c with cancelFlags := c.cancelFlags.set cancel true })
    (fun _ => rfl) fun _ _ h => h).mono ?_
  rintro inHand' _ s' ⟨rfl, hconn⟩
  exact ⟨rfl, by rw [hconn]⟩

theorem handleFileSendAccepted_preserves (id : UInt32) (destPath : String) :
    Preserves (discipline folders) Idle (handleFileSendAccepted id destPath) := by
  rintro inHand s rfl
  refine (onConn_keeps (fun c => ?_) fun c p hp => ?_).mono fun _ _ _ h => h.1
  · split <;> rfl
  · obtain ⟨id', st, hlookup, rfl⟩ := hp
    split
    · next entry hentry =>
        rcases eq_or_ne id' id with rfl | hne
        · obtain rfl := Option.some.inj (hentry.symm.trans hlookup)
          exact ⟨id', _, AList.lookup_insert _, rfl⟩
        · exact ⟨id', st, (AList.lookup_insert_ne hne).trans hlookup, rfl⟩
    · exact ⟨id', st, hlookup, rfl⟩

theorem handleFileSendComplete_preserves (hfault : ∀ path, os.removeFault path = false)
    (id : UInt32) : Preserves (discipline folders) Idle (handleFileSendComplete os id) := by
  rintro inHand s rfl
  refine (takeSend_keeps id).bind ?_
  rintro inHand found s rfl
  cases found with
  | none => exact rfl
  | some st => exact (removeFile_keeps (hfault _) []).mono fun _ _ _ h => h.1

theorem abandonSend_preserves (hfault : ∀ path, os.removeFault path = false) (id : UInt32) :
    Preserves (discipline folders) Idle (abandonSend os id) := by
  rintro inHand s rfl
  refine (takeSend_keeps id).bind ?_
  rintro inHand found s rfl
  cases found with
  | none => exact rfl
  | some st =>
      refine (cancelSender_keeps _).bind ?_
      rintro inHand _ s ⟨rfl, -⟩
      exact (removeFile_keeps (hfault _) []).mono fun _ _ _ h => h.1

theorem dispatchFileSendCmd_keeps {id : UInt32} (name : String) (size : UInt64) (temp : PathBuf)
    (hfree : s.conn.fileSends.lookup id = none) :
    Keeps (discipline folders) (fun inHand _ s => Idle inHand s)
      (dispatchFileSendCmd id name size temp) [temp] s := by
  let entry (c : Conn) : FileSendState :=
    { name, tempPath := temp, expectedSize := size, destPath := none
      cancel := c.cancelFlags.length }
  have hinsert : Keeps (discipline folders) (fun inHand _ s => Idle inHand s)
      (onConn fun c =>
        { c with
          cancelFlags := c.cancelFlags ++ [false]
          fileSends := c.fileSends.insert id (entry c) }) [temp] s := by
    refine keeps_modify trivial fun found hfound => ⟨[], ?_, rfl⟩
    refine handed_of_conn (f := fun c =>
      { c with
        cancelFlags := c.cancelFlags ++ [false]
        fileSends := c.fileSends.insert id (entry c) }) rfl ?_
    rintro p (hmem | ⟨id', st, hlookup, rfl⟩)
    · obtain rfl := List.mem_singleton.mp hmem
      exact .inr ⟨id, entry found.conn, AList.lookup_insert _, rfl⟩
    · refine .inr ⟨id', st, (AList.lookup_insert_ne ?_).trans hlookup, rfl⟩
      rintro rfl
      rw [hfound.conn, hfree] at hlookup
      cases hlookup
  refine hinsert.bind fun inHand _ s h => ?_
  refine (preserves_aloof (push_aloof _) inHand s h).bind fun inHand _ s h => ?_
  refine (onConn_keeps (f := fun c => { c with effects := c.effects ++ [.spawnSender id] })
    (fun _ => rfl) fun _ _ h => h).mono ?_
  rintro inHand' _ s' ⟨rfl, -⟩
  exact h

/-- The spool files of the command that is taken from the queue. -/
def spoolIn : FileSendCmd → List PathBuf
  | .send _ _ _ tempPath => [tempPath]
  | .cancel _ => []

theorem recvCommand_keeps {cmd : FileSendCmd} {rest : List FileSendCmd}
    (hqueue : s.world.bridge.commands s.conn.connId = cmd :: rest) :
    Keeps (discipline folders)
      (fun inHand received s' => inHand = spoolIn cmd ∧ received = some cmd ∧ s'.conn = s.conn)
      recvCommand [] s := by
  refine keeps_critical trivial fun found hfound => ⟨spoolIn cmd, ?_, rfl, ?_, hfound.conn⟩
  all_goals
    obtain ⟨hconn, appended, hcommands⟩ := hfound
    rw [hqueue, ← hconn] at hcommands
  · refine ⟨rfl, fun p hp _ => ?_, fun _ _ => id, fun j hj => Function.update_of_ne hj ..⟩
    rcases hp with hmem | hlisted | ⟨id, name, size, hmem⟩
    · exact absurd hmem List.not_mem_nil
    · exact .inr (.inl hlisted)
    · rw [hcommands] at hmem
      rcases List.mem_cons.mp hmem with heq | hmem
      · exact .inl (heq ▸ List.mem_singleton_self p)
      · refine .inr (.inr ⟨id, name, size, ?_⟩)
        dsimp only
        rw [Function.update_self, hcommands]
        exact hmem
  · dsimp only
    rw [hcommands]
    rfl

theorem handleCommand_keeps (hfault : ∀ path, os.removeFault path = false) {cmd : FileSendCmd}
    {rest : List FileSendCmd} (hqueue : s.world.bridge.commands s.conn.connId = cmd :: rest)
    (hfree : ∀ id name size temp, cmd = .send id name size temp →
      s.conn.fileSends.lookup id = none) :
    Keeps (discipline folders) (fun inHand _ s => Idle inHand s) (handleCommand os) [] s := by
  have hdone {inHand : List PathBuf} {s : St} (flow : Flow) (h : Idle inHand s) :
      Keeps (discipline folders) (fun inHand _ s => Idle inHand s) (pure flow) inHand s :=
    keeps_pure h
  refine (recvCommand_keeps hqueue).bind ?_
  rintro inHand _ t ⟨rfl, rfl, hconn⟩
  have hread : Keeps (discipline folders)
      (fun inHand conn s' => inHand = spoolIn cmd ∧ s'.conn = s.conn) (.read St.conn)
      (spoolIn cmd) t := by
    refine keeps_read trivial fun found hfound => ?_
    exact ⟨spoolIn cmd, Aloof.handed (.refl found), rfl, hfound.conn.trans hconn⟩
  refine hread.bind ?_
  rintro inHand conn u ⟨rfl, hconn⟩
  split
  · cases cmd with
    | send id name size temp =>
        exact (removeFile_keeps (hfault _) []).bind fun inHand _ s h => hdone .restart h.1
    | cancel id => exact hdone .restart rfl
  · cases cmd with
    | send id name size temp =>
        have hfree := hfree id name size temp rfl
        rw [← hconn] at hfree
        exact (dispatchFileSendCmd_keeps name size temp hfree).bind fun _ _ _ h =>
          hdone .fallThrough h
    | cancel id =>
        exact (abandonSend_preserves hfault id [] u rfl).bind fun _ _ _ h => hdone .fallThrough h

theorem drainSends_keeps (hfault : ∀ path, os.removeFault path = false) :
    Keeps (discipline folders) (fun inHand _ s => Gone inHand s) (drainSends os) [] s := by
  let spools (sends : HashMap UInt32 FileSendState) : List PathBuf :=
    sends.entries.map fun entry => entry.2.tempPath
  have hread : Keeps (discipline folders) (fun inHand conn s => inHand = [] ∧ conn = s.conn)
      (.read St.conn) [] s :=
    keeps_read trivial fun found _ => ⟨[], Aloof.handed (.refl found), rfl, rfl⟩
  refine hread.bind ?_
  rintro inHand _ t ⟨rfl, rfl⟩
  have hempty : Keeps (discipline folders)
      (fun inHand _ s => inHand = spools t.conn.fileSends ∧ s.conn.fileSends = ∅)
      (onConn fun c => { c with fileSends := ∅ }) [] t := by
    refine keeps_modify trivial fun found hfound => ⟨spools t.conn.fileSends, ?_, rfl, rfl⟩
    refine handed_of_conn (f := fun c => { c with fileSends := ∅ }) rfl ?_
    rintro p (hmem | ⟨id, st, hlookup, rfl⟩)
    · exact absurd hmem List.not_mem_nil
    · rw [hfound.conn] at hlookup
      exact .inl (List.mem_map.mpr ⟨_, AList.mem_lookup_iff.mp hlookup, rfl⟩)
  refine hempty.bind ?_
  rintro inHand _ u ⟨rfl, hnone⟩
  refine keeps_forM (D := discipline folders)
    (fun entries inHand s =>
      inHand = entries.map (fun entry => entry.2.tempPath) ∧ s.conn.fileSends = ∅)
    (fun entry : Sigma fun _ : UInt32 => FileSendState => do
      cancelSender entry.2.cancel
      removeFile os entry.2.tempPath) ?_ ⟨rfl, hnone⟩
  rintro entry rest inHand s ⟨rfl, hnone⟩
  refine (cancelSender_keeps _).bind ?_
  rintro inHand _ s' ⟨rfl, hsame⟩
  refine (removeFile_keeps (hfault _) _).mono ?_
  rintro inHand _ s'' ⟨rfl, hsame'⟩
  exact ⟨rfl, hsame'.trans (hsame.trans hnone)⟩

theorem teardown_keeps (hfault : ∀ path, os.removeFault path = false) :
    Keeps (discipline folders) (fun inHand _ s => Gone inHand s) (teardown os) [] s := by
  have hstop : Guarantees (Aloof folders) stopActiveStream :=
    aloof_of_detached (detached_of_aside stopActiveStream_aside)
  refine (preserves_aloof hstop [] s rfl).bind ?_
  rintro inHand _ s rfl
  refine (preserves_aloof drainTransfers_aloof [] s rfl).bind ?_
  rintro inHand _ s rfl
  refine (drainSends_keeps hfault).bind fun inHand _ s h => ?_
  exact preserves_gone (aloof_of_detached (detached_of_aside deregisterBridge_aside)) inHand s h

/-! ### The PC -/

/-- Every unlink succeeds, and the downloads directory is the one of the PC. -/
def Answered (folders : Folders) (os : Answers) : Prop :=
  (∀ path, os.removeFault path = false) ∧
    ∀ dir, os.downloadsDir = .ok dir → dir = folders.downloads

/-- The command that is next in the queue is no send with the id of another. -/
def NextIsNew (s : St) : Prop :=
  ∀ id name size temp rest,
    s.world.bridge.commands s.conn.connId = .send id name size temp :: rest →
    s.conn.fileSends.lookup id = none

theorem handles (hos : Answered folders os) : Handles (discipline folders) Idle os where
  detached ht := preserves_aloof (aloof_of_detached ht)
  onBegin id name size := preserves_aloof (handleFileBegin_aloof hos.2 id name size)
  onAbort id := preserves_aloof (handleFileAbort_aloof id)
  onChunk bytes := preserves_aloof (handleFileChunk_aloof bytes)
  onAccepted := handleFileSendAccepted_preserves
  onFailed := abandonSend_preserves hos.1

def rules (crates : Crates) (cfg : Config) (folders : Folders) :
    Rules crates cfg (List PathBuf) where
  toDiscipline := discipline folders
  idle := Idle
  gone := Gone
  allowed := Answered folders
  admits event s :=
    event = .command → s.world.bridge.commands s.conn.connId ≠ [] ∧ NextIsNew s
  rely_trans := Left.trans
  idle_stable h _ := h
  gone_stable h hleft := ⟨h.1, hleft.conn ▸ h.2⟩
  iteration_keeps hos hadmits hidle := by
    refine (handles hos).iteration crates cfg _ (fun hevent => ?_)
      (fun id _ _ => handleFileSendComplete_preserves hos.1 id _ _ hidle) hidle
    obtain ⟨hne, hnew⟩ := hadmits hevent
    obtain ⟨cmd, rest, hqueue⟩ := List.exists_cons_of_ne_nil hne
    obtain rfl := hidle
    refine handleCommand_keeps hos.1 hqueue ?_
    rintro id name size temp rfl
    exact hnew id name size temp rest hqueue
  teardown_keeps hos hidle := by
    obtain rfl := hidle
    exact teardown_keeps hos.1

/-- The connection is about to return. -/
def Member.returning (m : Member) : Bool :=
  match m.phase with
  | .leaving (.done _) => true
  | _ => false

def UnlinksSucceed : Act → Prop
  | .step _ (.select _ os) => ∀ path, os.removeFault path = false
  | .serve _ served => served ≠ .unlinkFailed
  | _ => True

/-- Unlinks succeed, no read, write or flush of a spool file fails, no connection takes a send
whose id another of its sends has, and none returns while a send is in its queue. -/
def Orderly (pc : Pc) : Act → Prop
  | .step i (.select event os) =>
      (∀ path, os.removeFault path = false) ∧
        (event = .command → ∀ m, pc.members i = some m → NextIsNew ⟨pc.world, m.conn⟩)
  | .step i .settle =>
      ∀ m, pc.members i = some m → Member.returning m = true →
        ∀ id name size temp, .send id name size temp ∉ pc.world.bridge.commands i
  | .serve _ served =>
      match served with
      | .readFailed | .writeFailed _ | .flushFailed | .unlinkFailed => False
      | _ => True
  | _ => True

/-- Every spool file is accounted for. -/
structure Accounted (crates : Crates) (cfg : Config) (folders : Folders)
    (K : Nat → List PathBuf) (pc : Pc) : Prop where
  follows : ∀ i m, pc.members i = some m → m.Follows (rules crates cfg folders) (K i) pc.world
  connId : ∀ i m, pc.members i = some m → m.conn.connId = i
  inside : ∀ u r, pc.requests u = some r → Inside folders.temp r.spool
  distinct : ∀ u v r r', u ≠ v → pc.requests u = some r → pc.requests v = some r' →
    r.spool ≠ r'.spool
  early : ∀ u r, pc.requests u = some r → r.stage = .probing ∨ r.stage = .creating →
    pc.world.files r.spool = none
  settled : ∀ u r, pc.requests u = some r → r.stage = .ended → r.sentTo = none →
    pc.world.files r.spool = none
  sent : ∀ u r i, pc.requests u = some r → r.sentTo = some i →
    pc.world.files r.spool ≠ none →
    ∃ m, pc.members i = some m ∧ m.live = true ∧ Holds (K i) ⟨pc.world, m.conn⟩ r.spool
  unsent : ∀ u r, pc.requests u = some r → r.stage ≠ .ended → r.sentTo = none

section

variable {crates : Crates} {cfg : Config} {K : Nat → List PathBuf} {pc pc' : Pc}

theorem Accounted.start (h : Fresh pc) : Accounted crates cfg folders (fun _ => []) pc := by
  obtain ⟨hmembers, hrequests, -⟩ := h
  have hmember {P : Prop} {i : Nat} {m : Member} (hm : pc.members i = some m) : P := by
    rw [hmembers i] at hm
    cases hm
  have hrequest {P : Prop} {u : Nat} {r : SendRequest} (hr : pc.requests u = some r) : P := by
    rw [hrequests u] at hr
    cases hr
  exact ⟨fun _ _ => hmember, fun _ _ => hmember, fun _ _ => hrequest,
    fun _ _ _ _ _ hr _ => hrequest hr, fun _ _ hr _ => hrequest hr,
    fun _ _ hr _ _ => hrequest hr, fun _ _ _ hr _ _ => hrequest hr, fun _ _ hr _ => hrequest hr⟩

theorem not_inside_downloads (hfolders : folders.downloads ≠ folders.temp) {p : PathBuf}
    (h : Inside folders.temp p) : ¬Inside folders.downloads p :=
  fun h' => hfolders (h'.apart h)

theorem Accounted.put (h : Accounted crates cfg folders K pc)
    (hfolders : folders.downloads ≠ folders.temp) {i : Nat} {m' : Member} {k' : List PathBuf}
    {world : World} (hfollows : m'.Follows (rules crates cfg folders) k' world)
    (hid : m'.conn.connId = i)
    (hothers : ∀ j, j ≠ i → world.bridge.commands j = pc.world.bridge.commands j)
    (hfiles : ∀ p, ¬Inside folders.downloads p → world.files p ≠ none →
      pc.world.files p ≠ none)
    (hholds : ∀ p m, pc.members i = some m → Holds (K i) ⟨pc.world, m.conn⟩ p →
      world.files p ≠ none → m'.live = true ∧ Holds k' ⟨world, m'.conn⟩ p) :
    Accounted crates cfg folders (Function.update K i k') (pc.put world i m') := by
  have hgone {u : Nat} {r : SendRequest} (hr : pc.requests u = some r)
      (hnone : pc.world.files r.spool = none) : world.files r.spool = none := by
    by_contra hsome
    exact hfiles _ (not_inside_downloads hfolders (h.inside u r hr)) hsome hnone
  have hleft (j : Nat) (m : Member) (hne : j ≠ i) (hm : pc.members j = some m) :
      Left ⟨pc.world, m.conn⟩ ⟨world, m.conn⟩ := by
    refine ⟨rfl, [], ?_⟩
    rw [List.append_nil, h.connId j m hm]
    exact hothers j hne
  refine ⟨?_, ?_, h.inside, h.distinct, fun u r hr hstage => hgone hr (h.early u r hr hstage),
    fun u r hr hended hnone => hgone hr (h.settled u r hr hended hnone), ?_, h.unsent⟩
  · intro j m hm
    rcases members_put hm with ⟨rfl, rfl⟩ | ⟨hne, hold⟩
    · rw [Function.update_self]
      exact hfollows
    · rw [Function.update_of_ne hne]
      exact (h.follows j m hold).rely (hleft j m hne hold)
  · intro j m hm
    rcases members_put hm with ⟨rfl, rfl⟩ | ⟨hne, hold⟩
    · exact hid
    · exact h.connId j m hold
  · intro u r j hr hsent hsome
    have hbefore := hfiles _ (not_inside_downloads hfolders (h.inside u r hr)) hsome
    obtain ⟨m, hm, hlive, hm_holds⟩ := h.sent u r j hr hsent hbefore
    rcases eq_or_ne j i with rfl | hne
    · obtain ⟨hlive', hholds'⟩ := hholds _ m hm hm_holds hsome
      refine ⟨m', Function.update_self .., hlive', ?_⟩
      rw [Function.update_self]
      exact hholds'
    · refine ⟨m, (Function.update_of_ne hne ..).trans hm, hlive, ?_⟩
      rw [Function.update_of_ne hne]
      exact hm_holds.left (hleft j m hne hm)

theorem Accounted.of_world (h : Accounted crates cfg folders K pc) {world : World}
    {streamed : Nat → List Nat} (hfiles : world.files = pc.world.files)
    (hcommands : ∀ i, ∃ appended,
      world.bridge.commands i = pc.world.bridge.commands i ++ appended) :
    Accounted crates cfg folders K { pc with world, streamed } := by
  have hleft (c : Conn) : Left ⟨pc.world, c⟩ ⟨world, c⟩ :=
    ⟨rfl, hcommands c.connId⟩
  refine ⟨fun i m hm => (h.follows i m hm).rely (hleft m.conn), h.connId, h.inside, h.distinct,
    ?_, ?_, ?_, h.unsent⟩
  · exact fun u r hr hstage => hfiles ▸ h.early u r hr hstage
  · exact fun u r hr hended hnone => hfiles ▸ h.settled u r hr hended hnone
  · intro u r i hr hsent hsome
    rw [hfiles] at hsome
    obtain ⟨m, hm, hlive, hholds⟩ := h.sent u r i hr hsent hsome
    exact ⟨m, hm, hlive, hholds.left (hleft m.conn)⟩

theorem not_holds_of_gone {p : PathBuf} (hgone : Gone inHand s)
    (hqueue : ∀ id name size temp,
      .send id name size temp ∉ s.world.bridge.commands s.conn.connId) :
    ¬Holds inHand s p := by
  obtain ⟨rfl, hempty⟩ := hgone
  rintro (hmem | ⟨id, st, hlookup, -⟩ | ⟨id, name, size, hmem⟩)
  · exact absurd hmem List.not_mem_nil
  · rw [hempty] at hlookup
    cases hlookup
  · exact hqueue id name size p hmem

theorem Accounted.stepped (h : Accounted crates cfg folders K pc)
    (hfolders : folders.downloads ≠ folders.temp) {i : Nat} {m m' : Member} {move : Move}
    {world : World} (hm : pc.members i = some m)
    (hstep : MemberStep crates cfg pc.world m move world m')
    (hdir : ∀ event os dir, move = .select event os → os.downloadsDir = .ok dir →
      dir = folders.downloads) (hcondition : Orderly pc (.step i move)) :
    ∃ K', Accounted crates cfg folders K' (pc.put world i m') := by
  have hadmits (event : Event) (os : Answers) (hmove : move = .select event os)
      (hready : Ready (m.session pc.world) event) :
      (rules crates cfg folders).allowed os ∧
        (rules crates cfg folders).admits event ⟨pc.world, m.conn⟩ := by
    subst hmove
    obtain ⟨hfault, hnew⟩ := hcondition
    refine ⟨⟨hfault, fun dir => hdir event os dir rfl⟩, fun hevent => ⟨?_, hnew hevent m hm⟩⟩
    subst hevent
    exact hready
  obtain ⟨k', hacts, hfollows⟩ :=
    (h.follows i m hm).step Left.refl hstep hadmits fun s h => h
  have hsame {m₂ : Member} (hm₂ : pc.members i = some m₂) : m₂ = m :=
    Option.some_injective _ (hm₂.symm.trans hm)
  refine ⟨Function.update K i k', ?_⟩
  cases hacts with
  | @acted _ left _ hupdate hacted hconn hlive =>
      have hleft : left = ⟨left.world, m'.conn⟩ := by rw [hconn]
      refine h.put hfolders hfollows ?_ ?_ hacted.files ?_
      · rw [hconn, hacted.connId]
        exact h.connId i m hm
      · intro j hne
        refine hacted.commands j ?_
        rwa [h.connId i m hm]
      · intro p m₂ hm₂ hholds hsome
        obtain rfl := hsame hm₂
        exact ⟨hlive, hleft ▸ hacted.holds p hholds hsome⟩
  | stayed hmove hconn hlive =>
      refine h.put hfolders hfollows ?_ (fun _ _ => rfl) (fun _ _ => id) ?_
      · rw [hconn]
        exact h.connId i m hm
      · intro p m₂ hm₂ hholds _
        obtain rfl := hsame hm₂
        exact ⟨hlive, hconn ▸ hholds⟩
  | returned hleaving hconn hphase hgone =>
      refine h.put hfolders hfollows ?_ ?_ (fun _ _ => id) ?_
      · rw [hconn]
        exact h.connId i m hm
      · intro j hne
        refine Function.update_of_ne ?_ ..
        rwa [h.connId i m hm]
      · intro p m₂ hm₂ hholds _
        obtain rfl := hsame hm₂
        refine absurd hholds (not_holds_of_gone hgone ?_)
        have hreturning : Member.returning m₂ = true := by rw [Member.returning, hleaving]
        have hqueue := hcondition m₂ hm hreturning
        rw [← h.connId i m₂ hm] at hqueue
        exact hqueue

/-- What a request itself has to be in. -/
structure Booked (K : Nat → List PathBuf) (pc : Pc) (world : World) (r : SendRequest) :
    Prop where
  early : r.stage = .probing ∨ r.stage = .creating → world.files r.spool = none
  settled : r.stage = .ended → r.sentTo = none → world.files r.spool = none
  sent : ∀ i, r.sentTo = some i → world.files r.spool ≠ none →
    ∃ m, pc.members i = some m ∧ m.live = true ∧ Holds (K i) ⟨world, m.conn⟩ r.spool
  unsent : r.stage ≠ .ended → r.sentTo = none

theorem Accounted.replace (h : Accounted crates cfg folders K pc) {u : Nat} {r : SendRequest}
    {world : World} (hinside : Inside folders.temp r.spool)
    (hdistinct : ∀ v r', v ≠ u → pc.requests v = some r' → r'.spool ≠ r.spool)
    (hfiles : ∀ p, p ≠ r.spool → world.files p = pc.world.files p)
    (hcommands : ∀ i, ∃ appended,
      world.bridge.commands i = pc.world.bridge.commands i ++ appended)
    (hbooked : Booked K pc world r) :
    Accounted crates cfg folders K
      { pc with world, requests := Function.update pc.requests u (some r) } := by
  have hleft (c : Conn) : Left ⟨pc.world, c⟩ ⟨world, c⟩ :=
    ⟨rfl, hcommands c.connId⟩
  have hcases {v : Nat} {r' : SendRequest}
      (hr' : Function.update pc.requests u (some r) v = some r') :
      (v = u ∧ r' = r) ∨ (v ≠ u ∧ pc.requests v = some r' ∧
        world.files r'.spool = pc.world.files r'.spool) := by
    rcases eq_or_ne v u with rfl | hne
    · rw [Function.update_self] at hr'
      exact .inl ⟨rfl, (Option.some.inj hr').symm⟩
    · rw [Function.update_of_ne hne] at hr'
      exact .inr ⟨hne, hr', hfiles _ (hdistinct v r' hne hr')⟩
  refine ⟨fun i m hm => (h.follows i m hm).rely (hleft m.conn), h.connId, ?_, ?_, ?_, ?_, ?_, ?_⟩
  · intro v r' hr'
    rcases hcases hr' with ⟨-, rfl⟩ | ⟨-, hold, -⟩
    · exact hinside
    · exact h.inside v r' hold
  · intro v v' r₁ r₂ hne hr₁ hr₂
    rcases hcases hr₁ with ⟨rfl, rfl⟩ | ⟨hne₁, hold₁, -⟩
    · rcases hcases hr₂ with ⟨rfl, -⟩ | ⟨hne₂, hold₂, -⟩
      · exact absurd rfl hne
      · exact (hdistinct v' r₂ hne₂ hold₂).symm
    · rcases hcases hr₂ with ⟨rfl, rfl⟩ | ⟨hne₂, hold₂, -⟩
      · exact hdistinct v r₁ hne₁ hold₁
      · exact h.distinct v v' r₁ r₂ hne hold₁ hold₂
  · intro v r' hr' hstage
    rcases hcases hr' with ⟨-, rfl⟩ | ⟨-, hold, hsame⟩
    · exact hbooked.early hstage
    · exact hsame.trans (h.early v r' hold hstage)
  · intro v r' hr' hended hnone
    rcases hcases hr' with ⟨-, rfl⟩ | ⟨-, hold, hsame⟩
    · exact hbooked.settled hended hnone
    · exact hsame.trans (h.settled v r' hold hended hnone)
  · intro v r' i hr' hsent hsome
    rcases hcases hr' with ⟨-, rfl⟩ | ⟨-, hold, hsame⟩
    · exact hbooked.sent i hsent hsome
    · dsimp only at hsome
      rw [hsame] at hsome
      obtain ⟨m, hm, hlive, hholds⟩ := h.sent v r' i hold hsent hsome
      exact ⟨m, hm, hlive, hholds.left (hleft m.conn)⟩
  · intro v r' hr' hstage
    rcases hcases hr' with ⟨-, rfl⟩ | ⟨-, hold, -⟩
    · exact hbooked.unsent hstage
    · exact h.unsent v r' hold hstage

theorem exists_appended {bridge bridge' : FileSendBridge} {alive : Nat → Bool}
    {cmd : FileSendCmd} (h : bridge.dispatch alive cmd = (.ok (), bridge')) (i : Nat) :
    ∃ appended, bridge'.commands i = bridge.commands i ++ appended := by
  obtain ⟨inst, owner, -, -, rfl⟩ := dispatch_eq_ok h
  rcases eq_or_ne i owner with rfl | hne
  · exact ⟨[cmd], Function.update_self ..⟩
  · exact ⟨[], (Function.update_of_ne hne ..).trans (List.append_nil _).symm⟩

theorem RequestStep.appended {alive : Nat → Bool} {world world' : World} {r r' : SendRequest}
    {served : Served} (h : RequestStep alive world r served world' r') (i : Nat) :
    ∃ appended, world'.bridge.commands i = world.bridge.commands i ++ appended := by
  cases h with
  | dispatched hstage hdispatch => exact exists_appended hdispatch i
  | _ => exact ⟨[], (List.append_nil _).symm⟩

theorem exists_of_alive {i : Nat} (h : pc.alive i = true) :
    ∃ m, pc.members i = some m ∧ m.live = true := by
  rw [Pc.alive] at h
  rcases hm : pc.members i with _ | m
  · rw [hm] at h
    cases h
  · rw [hm] at h
    exact ⟨m, rfl, h⟩

theorem booked_of_underway {world : World} {r : SendRequest}
    (hstage : r.stage ≠ .probing ∧ r.stage ≠ .creating ∧ r.stage ≠ .ended)
    (hnone : r.sentTo = none) : Booked K pc world r := by
  obtain ⟨hprobing, hcreating, hended⟩ := hstage
  refine ⟨fun h => ?_, fun h => absurd h hended, fun i hsent => ?_, fun _ => hnone⟩
  · exact (h.elim hprobing hcreating).elim
  · rw [hnone] at hsent
    cases hsent

theorem booked_of_none {world : World} {r : SendRequest} (hfile : world.files r.spool = none)
    (hnone : r.sentTo = none) : Booked K pc world r :=
  ⟨fun _ => hfile, fun _ _ => hfile, fun _ _ hsome => absurd hfile hsome, fun _ => hnone⟩

theorem Accounted.served (h : Accounted crates cfg folders K pc) {u : Nat} {r r' : SendRequest}
    {served : Served} {world : World} (hr : pc.requests u = some r)
    (hstep : RequestStep pc.alive pc.world r served world r')
    (hcondition : Orderly pc (.serve u served)) :
    Accounted crates cfg folders K
      { pc with world, requests := Function.update pc.requests u (some r') } := by
  have hspool := hstep.spool
  have hunsent (hstage : r.stage ≠ .ended) : r.sentTo = none := h.unsent u r hr hstage
  refine h.replace (hspool ▸ h.inside u r hr) ?_ ?_ (RequestStep.appended hstep) ?_
  · intro v r₂ hne hr₂
    rw [hspool]
    exact h.distinct v u r₂ r hne hr₂ hr
  · rw [hspool]
    exact fun p => hstep.files
  cases hstep with
  | refused hstage _ =>
      exact booked_of_none (h.early u r hr (.inl hstage)) (hunsent (by simp [hstage]))
  | probed hstage _ =>
      exact booked_of_none (h.early u r hr (.inl hstage)) (hunsent (by simp [hstage]))
  | created hstage => exact booked_of_underway (by simp) (hunsent (by simp [hstage]))
  | createFailed hstage =>
      exact booked_of_none (h.early u r hr (.inr hstage)) (hunsent (by simp [hstage]))
  | read hstage _ _ => exact booked_of_underway (by simp) (hunsent (by simp [hstage]))
  | readFailed => exact hcondition.elim
  | writeFailed => exact hcondition.elim
  | eof hstage _ => exact booked_of_underway (by simp) (hunsent (by simp [hstage]))
  | flushed hstage => exact booked_of_underway (by simp) (hunsent (by simp [hstage]))
  | flushFailed => exact hcondition.elim
  | allocated hstage =>
      refine booked_of_underway ?_ (hunsent (by simp [hstage]))
      split <;> simp
  | rejected hstage _ => exact booked_of_underway (by simp) (hunsent (by simp [hstage]))
  | unlinked hstage =>
      exact booked_of_none (Function.update_self ..) (hunsent (by simp [hstage]))
  | unlinkFailed => exact hcondition.elim
  | @dispatched id bridge hstage hdispatch =>
      obtain ⟨inst, owner, hslot, halive, rfl⟩ := dispatch_eq_ok hdispatch
      obtain ⟨m, hm, hlive⟩ := exists_of_alive halive
      refine ⟨by simp, fun _ hnone => ?_, fun i hsent _ => ?_, fun hne => absurd rfl hne⟩
      · rw [hslot] at hnone
        cases hnone
      · rw [hslot] at hsent
        obtain rfl : owner = i := Option.some.inj hsent
        refine ⟨m, hm, hlive, .inr (.inr ⟨id, r.name, r.len, ?_⟩)⟩
        dsimp only
        rw [h.connId owner m hm, Function.update_self]
        exact List.mem_append_right _ (List.mem_singleton_self _)

theorem Accounted.step (h : Accounted crates cfg folders K pc)
    (hfolders : folders.downloads ≠ folders.temp) {act : Act}
    (hstep : PcStep crates cfg folders pc act pc') (hcondition : Orderly pc act) :
    ∃ K', Accounted crates cfg folders K' pc' := by
  have hsame (i : Nat) : ∃ appended, pc.world.bridge.commands i =
      pc.world.bridge.commands i ++ appended :=
    ⟨[], (List.append_nil _).symm⟩
  cases hstep with
  | @join i peerLabel hfree =>
      have hidle : (Member.start i peerLabel pc.world.now).Follows (rules crates cfg folders) []
          pc.world := rfl
      refine ⟨_, h.put hfolders hidle rfl (fun _ _ => rfl) (fun _ _ => id) fun p m hm => ?_⟩
      rw [hfree] at hm
      cases hm
  | step hm hmember hdir => exact h.stepped hfolders hm hmember hdir hcondition
  | @request u name len uuid hfree hpos hmax hname hnew =>
      exact ⟨K, h.replace ⟨_, rfl⟩ (fun v r _ => hname v r) (fun _ _ => rfl) hsame
        (booked_of_none hnew rfl)⟩
  | serve hr hserved => exact ⟨K, h.served hr hserved hcondition⟩
  | cancel hdispatch => exact ⟨K, h.of_world rfl (exists_appended hdispatch)⟩
  | cancelIgnored hdispatch => exact ⟨K, h⟩
  | streamerEnds hm hflag => exact ⟨K, h.of_world rfl hsame⟩
  | tick elapsed unixMs => exact ⟨K, h.of_world rfl hsame⟩
  | rotate code key => exact ⟨K, h.of_world rfl hsame⟩

/-- The PC, as long as its steps are orderly. -/
def orderly (crates : Crates) (cfg : Config) (folders : Folders) : System Pc Act :=
  (pool crates cfg folders).restrict fun pc act _ => Orderly pc act

theorem Accounted.run (hfolders : folders.downloads ≠ folders.temp) {labels : List Act}
    (hfresh : Fresh pc) (hrun : (orderly crates cfg folders).Run pc labels pc') :
    ∃ K, Accounted crates cfg folders K pc' := by
  refine hrun.invariant (I := fun _ pc => ∃ K, Accounted crates cfg folders K pc)
    ⟨_, .start hfresh⟩ ?_
  rintro labels t act u - ⟨K, h⟩ ⟨hstep, hcondition⟩
  exact h.step hfolders hstep hcondition

end

/-- In every orderly run: once a request has ended, and the connection that its command was sent
to has returned, if it was sent to one, the spool file of the request does not exist. -/
theorem spools_removed (crates : Crates) (cfg : Config) {folders : Folders}
    (hfolders : folders.downloads ≠ folders.temp) {pc₀ pc : Pc} {labels : List Act}
    (hfresh : Fresh pc₀) (hrun : (orderly crates cfg folders).Run pc₀ labels pc) {u : Nat}
    {r : SendRequest} (hr : pc.requests u = some r) (hended : r.stage = .ended)
    (hreturned : ∀ i m, r.sentTo = some i → pc.members i = some m → m.phase = .returned) :
    pc.world.files r.spool = none := by
  obtain ⟨K, h⟩ := Accounted.run hfolders hfresh hrun
  rcases hsent : r.sentTo with _ | i
  · exact h.settled u r hr hended hsent
  · by_contra hsome
    obtain ⟨m, hm, hlive, -⟩ := h.sent u r i hr hsent hsome
    rw [Member.live, hreturned i m hsent hm] at hlive
    cases hlive

/-! ### Two uploads -/

/-- The upload of five bytes. -/
def upload (stage : Stage) (sentTo : Option Nat) : SendRequest where
  name := "a.txt"
  len := 5
  spool := usualFolders.temp.join (tempName "67e55044-10b1-426f-9247-bb680e5fe0c8")
  stage := stage
  sentTo := sentTo
  sentId := sentTo.map fun _ => 1

@[irreducible] def onePhone : Pc :=
  turn 0 helloEvent (pairedPc.join 0 "10.0.0.2:5000")

/-- The phone is connected, and the upload has come this far. -/
def uploading (world : World) (r : SendRequest) : Pc :=
  { onePhone with world, requests := Function.update onePhone.requests 0 (some r) }

def spoolWorld (content : Bytes) : World :=
  { onePhone.world with
    files := Function.update onePhone.world.files (upload .probing none).spool (some content) }

theorem orderly_settle {pc : Pc} {i : Nat} (hqueue : pc.world.bridge.commands i = []) :
    Orderly pc (.step i .settle) := by
  intro m _ _ id name size temp
  rw [hqueue]
  exact List.not_mem_nil

theorem leads_turn {pc : Pc} {i n : Nat} {event : Event} (hevent : event ≠ .command)
    (hready : ∀ m, pc.members i = some m → Ready (m.session pc.world) event)
    (hplace : pc.place i = .selecting)
    (hqueue : (receive i n event pc).world.bridge.commands i = []) :
    (orderly phoneCrates bareConfig usualFolders).Leads pc ((receive i n event pc).settle i) :=
  (leads_receive (P := fun _ => True) (fun _ _ => trivial)
    (fun _ => ⟨fun _ => rfl, fun h => absurd h hevent⟩) (fun _ _ _ _ _ => trivial) hplace hready
    trivial).trans (leads_settle fun _ => orderly_settle hqueue)

theorem leads_onePhone :
    (orderly phoneCrates bareConfig usualFolders).Leads pairedPc onePhone := by
  have hplace : (pairedPc.join 0 "10.0.0.2:5000").place 0 = .selecting := by decide +kernel
  have hqueue : (receive 0 8 helloEvent (pairedPc.join 0 "10.0.0.2:5000")).world.bridge.commands
      0 = [] := by decide +kernel
  unfold onePhone turn
  exact (leads_join rfl fun _ => trivial).trans
    (leads_turn (by decide) (fun _ _ => trivial) hplace hqueue)

theorem onePhone_requests : onePhone.requests = fun _ => none := by
  unfold onePhone turn receive
  rw [Pc.settle_requests, Pc.sections_requests, Pc.select_requests]
  rfl

theorem leads_requested : (orderly phoneCrates bareConfig usualFolders).Leads pairedPc
    (uploading onePhone.world (upload .probing none)) := by
  have hnew : onePhone.world.files (upload .probing none).spool = none := by decide +kernel
  have hstep : PcStep phoneCrates bareConfig usualFolders onePhone _
      (uploading onePhone.world (upload .probing none)) :=
    .request "a.txt" 5 "67e55044-10b1-426f-9247-bb680e5fe0c8" (by rw [onePhone_requests])
      (by decide) (by decide) (by rw [onePhone_requests]; rintro v r ⟨⟩) hnew
  exact leads_onePhone.trans (.single ⟨hstep, trivial⟩)

theorem leads_served {condition : Pc → Act → Pc → Prop} {world world' : World}
    {r r' : SendRequest} {served : Served}
    (hstep : RequestStep onePhone.alive world r served world' r')
    (hcondition : ∀ pc pc', condition pc (.serve 0 served) pc') :
    ((pool phoneCrates bareConfig usualFolders).restrict condition).Leads (uploading world r)
      (uploading world' r') := by
  have hr : (uploading world r).requests 0 = some r := by
    simp [uploading]
  have hled : ((pool phoneCrates bareConfig usualFolders).restrict condition).Leads
      (uploading world r) _ :=
    leads_serve hr hstep (hcondition _)
  rw [uploading, Function.update_idem] at hled
  exact hled

theorem leads_spooling : (orderly phoneCrates bareConfig usualFolders).Leads pairedPc
    (uploading (spoolWorld []) (upload (.spooling 5) none)) := by
  have hslot : onePhone.world.bridge.slot.isSome = true := by decide +kernel
  refine leads_requested.trans ((leads_served (.probed rfl hslot) fun _ _ => trivial).trans ?_)
  exact leads_served (.created rfl) fun _ _ => trivial

theorem unlinksSucceed_of_orderly (pc : Pc) (act : Act) (h : Orderly pc act) :
    UnlinksSucceed act := by
  cases act with
  | step i move =>
      cases move with
      | select event os => exact h.1
      | «section» found left => exact trivial
      | settle => exact trivial
  | serve u served =>
      rintro rfl
      exact h.elim
  | _ => exact trivial

/-- The body of the upload cannot be read. -/
def abandoned : Pc :=
  uploading (spoolWorld []) (upload .ended none)

theorem leads_abandoned : ((pool phoneCrates bareConfig usualFolders).restrict
    fun _ act _ => UnlinksSucceed act).Leads pairedPc abandoned := by
  obtain ⟨labels, hrun⟩ := leads_spooling
  have hspooling := hrun.restrict_mono fun pc act _ => unlinksSucceed_of_orderly pc act
  refine Leads.trans ⟨labels, hspooling⟩ (leads_served (.readFailed rfl (by decide)) ?_)
  exact fun _ _ h => nomatch h

/-- The request returns by `?` and nobody unlinks the file that it has created. -/
theorem spool_left_behind :
    ¬∀ (crates : Crates) (cfg : Config) (folders : Folders) (pc₀ pc : Pc) (labels : List Act),
      folders.downloads ≠ folders.temp → Fresh pc₀ →
      ((pool crates cfg folders).restrict fun _ act _ => UnlinksSucceed act).Run pc₀ labels pc →
      ∀ u r, pc.requests u = some r → r.stage = .ended →
        (∀ i m, r.sentTo = some i → pc.members i = some m → m.phase = .returned) →
        pc.world.files r.spool = none := by
  intro hclaim
  obtain ⟨labels, hrun⟩ := leads_abandoned
  have hnone := hclaim _ _ _ _ _ _ usualFolders_ne fresh_paired hrun 0 (upload .ended none)
    (by simp [abandoned, uploading]) rfl fun i m hsent => nomatch hsent
  simp [abandoned, uploading, spoolWorld, upload] at hnone

theorem appendTo_spool (content bytes : Bytes) :
    { spoolWorld content with
      files := appendTo (spoolWorld content).files (upload .probing none).spool bytes } =
      spoolWorld (content ++ bytes) := by
  simp [spoolWorld, appendTo]

def bytes : Bytes :=
  [1, 2, 3, 4, 5]

/-- The world after the id of the upload is allocated. -/
def allocatedWorld : World :=
  { spoolWorld bytes with
    bridge :=
      { onePhone.world.bridge with
        nextTransferId := onePhone.world.bridge.nextTransferId + 1 } }

/-- The world in which the command of the upload has been sent. -/
def sentWorld : World :=
  { allocatedWorld with
    bridge :=
      { allocatedWorld.bridge with
        commands :=
          Function.update allocatedWorld.bridge.commands 0
            (allocatedWorld.bridge.commands 0 ++
              [.send 1 "a.txt" 5 (upload .probing none).spool]) } }

@[irreducible] def sent : Pc :=
  uploading sentWorld (upload .ended (some 0))

theorem leads_sent : (orderly phoneCrates bareConfig usualFolders).Leads pairedPc sent := by
  have hread : RequestStep onePhone.alive (spoolWorld []) (upload (.spooling 5) none)
      (.read bytes) (spoolWorld bytes) (upload (.spooling 0) none) := by
    have h : RequestStep onePhone.alive (spoolWorld []) (upload (.spooling 5) none) (.read bytes)
        _ _ := .read rfl (by decide) (by decide)
    exact appendTo_spool [] bytes ▸ h
  have hnext : onePhone.world.bridge.nextTransferId = 1 := by decide +kernel
  have hallocated : RequestStep onePhone.alive (spoolWorld bytes)
      (upload (.allocating false) none) .allocated allocatedWorld
      (upload (.dispatching 1) none) := by
    have h : RequestStep onePhone.alive (spoolWorld bytes) (upload (.allocating false) none)
        .allocated allocatedWorld _ := .allocated rfl
    have hbridge : (spoolWorld bytes).bridge = onePhone.world.bridge := rfl
    rw [hbridge, hnext] at h
    exact h
  have hslot : allocatedWorld.bridge.slot = some (0, 0) := by decide +kernel
  have halive : onePhone.alive 0 = true := by decide +kernel
  have hdispatched : RequestStep onePhone.alive allocatedWorld (upload (.dispatching 1) none)
      .dispatched sentWorld (upload .ended (some 0)) := by
    have h : RequestStep onePhone.alive allocatedWorld (upload (.dispatching 1) none)
        .dispatched sentWorld _ := .dispatched rfl (dispatch_of_slot hslot halive _)
    rw [hslot] at h
    exact h
  unfold sent
  refine leads_spooling.trans ((leads_served hread fun _ _ => trivial).trans ?_)
  refine (leads_served (.flushed rfl) fun _ _ => trivial).trans ?_
  refine (leads_served hallocated fun _ _ => trivial).trans ?_
  exact leads_served hdispatched fun _ _ => trivial

/-- The connection has taken the command. -/
def taken : Pc :=
  turn 0 .command sent

/-- The phone has gone, and its connection has left the loop. -/
def departing : Pc :=
  (receive 0 8 (.inbox none) taken).settle 0

def departed : Pc :=
  (departing.sections 12 0).settle 0

theorem leads_taken : (orderly phoneCrates bareConfig usualFolders).Leads sent taken := by
  have hplace : sent.place 0 = .selecting := by decide +kernel
  have hkeys : ((sent.members 0).map fun m => (m.conn.connId, m.conn.fileSends.keys)) =
      some (0, []) := by decide +kernel
  have hsent : sent.world.bridge.commands 0 ≠ [] := by decide +kernel
  have hqueue : (receive 0 8 .command sent).world.bridge.commands 0 = [] := by decide +kernel
  have hmember (m : Member) (hm : sent.members 0 = some m) :
      m.conn.connId = 0 ∧ m.conn.fileSends.keys = [] := by
    rw [hm] at hkeys
    exact Prod.mk.inj (Option.some.inj hkeys)
  have hcommand : (orderly phoneCrates bareConfig usualFolders).Leads sent
      (receive 0 8 .command sent) := by
    refine leads_receive (P := fun _ => True) (fun _ _ => trivial) ?_ (fun _ _ _ _ _ => trivial)
      hplace ?_ trivial
    · refine fun _ => ⟨fun _ => rfl, fun _ m hm id name size temp rest _ => ?_⟩
      refine AList.lookup_eq_none.mpr fun hmem => ?_
      have hkey : id ∈ m.conn.fileSends.keys := hmem
      rw [(hmember m hm).2] at hkey
      exact absurd hkey List.not_mem_nil
    · intro m hm
      show sent.world.bridge.commands m.conn.connId ≠ []
      rwa [(hmember m hm).1]
  exact hcommand.trans (leads_settle fun _ => orderly_settle hqueue)

theorem leads_departed : (orderly phoneCrates bareConfig usualFolders).Leads pairedPc departed := by
  have hplace : taken.place 0 = .selecting := by decide +kernel
  have hqueue : (receive 0 8 (.inbox none) taken).world.bridge.commands 0 = [] := by
    decide +kernel
  have hqueue' : (departing.sections 12 0).world.bridge.commands 0 = [] := by decide +kernel
  have hdeparting : (orderly phoneCrates bareConfig usualFolders).Leads taken departing :=
    leads_turn (by decide) (fun _ _ => trivial) hplace hqueue
  have hdrained : (orderly phoneCrates bareConfig usualFolders).Leads departing
      (departing.sections 12 0) :=
    leads_sections (P := fun _ => True) (fun _ _ => trivial) (fun _ _ _ _ _ => trivial) trivial
  exact leads_sent.trans (leads_taken.trans (hdeparting.trans (hdrained.trans
    (leads_settle fun _ => orderly_settle hqueue'))))

theorem departed_requests : departed.requests 0 = some (upload .ended (some 0)) := by
  unfold departed departing receive taken turn receive sent uploading
  simp

theorem spools_removed_departed :
    departed.world.files (upload .ended (some 0)).spool = none := by
  obtain ⟨labels, hrun⟩ := leads_departed
  refine spools_removed _ _ usualFolders_ne fresh_paired hrun departed_requests rfl ?_
  rintro i m ⟨⟩ hm
  have hplace : departed.place 0 = .returned := by decide +kernel
  exact phase_of_returned hplace hm

end RemoteControl.Server.Spools
