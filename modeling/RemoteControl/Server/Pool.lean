import RemoteControl.Foundations.Base64
import RemoteControl.Foundations.Custody
import RemoteControl.Server.Frame

/-!
All connections of the PC together with the requests of the QR page's HTTP server
(`server-pc/src/qr_server.rs`): the sections of any number of `run_connection`s interleave over
the shared stores, the file-send bridge and the file system.
-/

namespace RemoteControl.Server.Pool

open RemoteControl.Foundations
open RemoteControl.Foundations.ByteStrings
open RemoteControl.Foundations.Custody
open RemoteControl.Foundations.Interference
open RemoteControl.Foundations.Interference.Task
open RemoteControl.Foundations.Transition
open RemoteControl.Foundations.Transition.System
open RemoteControl.Wire.Protocol
open RemoteControl.Server.Stores
open RemoteControl.Server.Connection
open RemoteControl.Server.Loop
open RemoteControl.Server.Frame

/-! ### Connections -/

/-- Where a connection task stands: at the select, in an iteration, in the code after the loop,
or returned. -/
inductive Phase where
  | selecting
  | handling (os : Answers) (rest : Handler Bool)
  | leaving (rest : Handler PUnit)
  | returned

structure Member where
  conn : Conn
  phase : Phase
  deadline : Nat
  lastInbound : Nat

def Member.start (i : Nat) (peerLabel : String) (now : Nat) : Member where
  conn := { connId := i, peerLabel }
  phase := .selecting
  deadline := now + idleTimeout
  lastInbound := now

/-- The connection as the session that the select of its loop sees. -/
def Member.session (m : Member) (world : World) : Session where
  st := { world, conn := m.conn }
  running := true
  deadline := m.deadline
  lastInbound := m.lastInbound

def Member.live (m : Member) : Bool :=
  match m.phase with
  | .returned => false
  | _ => true

/-- What a connection task does next: it takes a branch of its select that is ready, runs the next
section of a handler, or comes to the end of a handler. -/
inductive Move where
  | select (event : Event) (os : Answers)
  | section (found left : St)
  | settle

/-- A step of one connection. When `run_connection` returns, the receiver of its commands is
dropped with it. -/
inductive MemberStep (crates : Crates) (cfg : Config) (world : World) (m : Member) :
    Move → World → Member → Prop
  | select {event : Event} {os : Answers} :
      m.phase = .selecting → Ready (m.session world) event →
      MemberStep crates cfg world m (.select event os) world
        { m with
          phase := .handling os (iteration crates cfg os event)
          lastInbound := (m.session world).arrival event }
  | handle {os : Answers} {update : St → St} {next : St → Handler Bool} {found left : St} :
      m.phase = .handling os (.atomic update next) → found = ⟨world, m.conn⟩ →
      left = update found →
      MemberStep crates cfg world m (.section found left) left.world
        { m with conn := left.conn, phase := .handling os (next found) }
  | goesOn {os : Answers} :
      m.phase = .handling os (.done true) →
      MemberStep crates cfg world m .settle world
        { m with phase := .selecting, deadline := world.now + idleTimeout }
  | stops {os : Answers} :
      m.phase = .handling os (.done false) →
      MemberStep crates cfg world m .settle world { m with phase := .leaving (teardown os) }
  | leave {update : St → St} {next : St → Handler PUnit} {found left : St} :
      m.phase = .leaving (.atomic update next) → found = ⟨world, m.conn⟩ →
      left = update found →
      MemberStep crates cfg world m (.section found left) left.world
        { m with conn := left.conn, phase := .leaving (next found) }
  | returns :
      m.phase = .leaving (.done PUnit.unit) →
      MemberStep crates cfg world m .settle
        { world with
          bridge :=
            { world.bridge with
              commands := Function.update world.bridge.commands m.conn.connId [] } }
        { m with phase := .returned }

/-! ### Requests -/

/-- Where `handle_send_file` stands, once it has checked the request's headers. -/
inductive Stage where
  | probing
  | creating
  | spooling (remaining : Nat)
  | allocating (skipped : Bool)
  | dispatching (id : UInt32)
  | unlinking
  | ended
deriving DecidableEq

/-- A `POST /send-file`; `sentTo` is the connection whose queue took its `Send` command, and
`sentId` the id in that command. -/
structure SendRequest where
  name : String
  len : UInt64
  spool : PathBuf
  stage : Stage
  sentTo : Option Nat
  sentId : Option UInt32

def maxSpoolBytes : Nat := 5 * 1024 * 1024 * 1024

def spoolChunk : Nat := 256 * 1024

/-- The name of a spool file with this UUID. -/
def tempName (uuid : String) : String :=
  s!"rc-send-{uuid}.bin"

/-- `write_all` at the end of the spool file. -/
def appendTo (files : PathBuf → Option Bytes) (path : PathBuf) (bytes : Bytes) :
    PathBuf → Option Bytes :=
  match files path with
  | some content => Function.update files path (some (content ++ bytes))
  | none => files

/-- What the next await of `handle_send_file` gives. -/
inductive Served where
  | refused
  | probed
  | created
  | createFailed
  | read (bytes : Bytes)
  | readFailed
  | writeFailed (written : Bytes)
  | eof
  | flushed
  | flushFailed
  | allocated
  | dispatched
  | rejected
  | unlinked
  | unlinkFailed
deriving DecidableEq

/-- A step of `handle_send_file`. The three failures of the spool loop and of the flush return by
`?`. -/
inductive RequestStep (alive : Nat → Bool) (world : World) (r : SendRequest) :
    Served → World → SendRequest → Prop
  | refused : r.stage = .probing → world.bridge.slot = none →
      RequestStep alive world r .refused world { r with stage := .ended }
  | probed : r.stage = .probing → world.bridge.slot.isSome →
      RequestStep alive world r .probed world { r with stage := .creating }
  | created : r.stage = .creating →
      RequestStep alive world r .created
        { world with files := Function.update world.files r.spool (some []) }
        { r with stage := .spooling r.len.toNat }
  | createFailed : r.stage = .creating →
      RequestStep alive world r .createFailed world { r with stage := .ended }
  | read {remaining : Nat} {bytes : Bytes} :
      r.stage = .spooling remaining → bytes ≠ [] → bytes.length ≤ min remaining spoolChunk →
      RequestStep alive world r (.read bytes)
        { world with files := appendTo world.files r.spool bytes }
        { r with stage := .spooling (remaining - bytes.length) }
  | readFailed {remaining : Nat} : r.stage = .spooling remaining → 0 < remaining →
      RequestStep alive world r .readFailed world { r with stage := .ended }
  | writeFailed {remaining : Nat} {written : Bytes} :
      r.stage = .spooling remaining → 0 < remaining →
      written.length ≤ min remaining spoolChunk →
      RequestStep alive world r (.writeFailed written)
        { world with files := appendTo world.files r.spool written } { r with stage := .ended }
  | eof {remaining : Nat} : r.stage = .spooling remaining → 0 < remaining →
      RequestStep alive world r .eof world { r with stage := .unlinking }
  | flushed : r.stage = .spooling 0 →
      RequestStep alive world r .flushed world { r with stage := .allocating false }
  | flushFailed : r.stage = .spooling 0 →
      RequestStep alive world r .flushFailed world { r with stage := .ended }
  | allocated {skipped : Bool} : r.stage = .allocating skipped →
      RequestStep alive world r .allocated
        { world with
          bridge :=
            { world.bridge with nextTransferId := world.bridge.nextTransferId + 1 } }
        { r with
          stage :=
            if world.bridge.nextTransferId = 0 ∧ skipped = false then .allocating true
            else .dispatching world.bridge.nextTransferId }
  | dispatched {id : UInt32} {bridge : FileSendBridge} :
      r.stage = .dispatching id →
      world.bridge.dispatch alive (.send id r.name r.len r.spool) = (.ok (), bridge) →
      RequestStep alive world r .dispatched { world with bridge }
        { r with stage := .ended, sentTo := world.bridge.slot.map Prod.snd, sentId := some id }
  | rejected {id : UInt32} {reason : String} {bridge : FileSendBridge} :
      r.stage = .dispatching id →
      world.bridge.dispatch alive (.send id r.name r.len r.spool) = (.error reason, bridge) →
      RequestStep alive world r .rejected world { r with stage := .unlinking }
  | unlinked : r.stage = .unlinking →
      RequestStep alive world r .unlinked
        { world with files := Function.update world.files r.spool none }
        { r with stage := .ended }
  | unlinkFailed : r.stage = .unlinking →
      RequestStep alive world r .unlinkFailed world { r with stage := .ended }

/-! ### The PC -/

/-- The PC: what all share, the connections by number, the requests by number, and the flags of
the streamer tasks that have ended, for each connection. -/
structure Pc where
  world : World
  members : Nat → Option Member
  requests : Nat → Option SendRequest
  streamed : Nat → List Nat

def Pc.alive (pc : Pc) (i : Nat) : Bool :=
  ((pc.members i).map Member.live).getD false

def Pc.put (pc : Pc) (world : World) (i : Nat) (m : Member) : Pc :=
  { pc with world, members := Function.update pc.members i (some m) }

/-- Where downloads and spool files go. -/
structure Folders where
  downloads : PathBuf
  temp : PathBuf

theorem join_inj {dir dir' : PathBuf} {a b : String} (h : dir.join a = dir'.join b) :
    dir = dir' := by
  obtain ⟨components⟩ := dir
  obtain ⟨components'⟩ := dir'
  have hcomponents : components ++ [a] = components' ++ [b] := congrArg PathBuf.components h
  exact congrArg PathBuf.mk (List.append_inj' hcomponents rfl).1

/-- A file directly in the directory. -/
def Inside (dir p : PathBuf) : Prop :=
  ∃ name, p = dir.join name

theorem Inside.apart {dir dir' p : PathBuf} (h : Inside dir p) (h' : Inside dir' p) :
    dir = dir' := by
  obtain ⟨name, rfl⟩ := h
  obtain ⟨name', hname⟩ := h'
  exact join_inj hname

inductive Act where
  | join (i : Nat) (peerLabel : String)
  | step (i : Nat) (move : Move)
  | request (u : Nat) (name : String) (len : UInt64) (uuid : String)
  | serve (u : Nat) (served : Served)
  | cancel (id : UInt32) (owner : Option Nat)
  | streamerEnds (i : Nat) (flag : Nat)
  | tick (elapsed : Nat) (unixMs : UInt64)
  | rotate (code : String) (key : Bytes)

/-- A step of the PC. The downloads directory is always the same, and every spool file has a name
of its own. -/
inductive PcStep (crates : Crates) (cfg : Config) (folders : Folders) : Pc → Act → Pc → Prop
  | join {pc : Pc} {i : Nat} (peerLabel : String) :
      pc.members i = none →
      PcStep crates cfg folders pc (.join i peerLabel)
        (pc.put pc.world i (.start i peerLabel pc.world.now))
  | step {pc : Pc} {i : Nat} {m m' : Member} {move : Move} {world : World} :
      pc.members i = some m → MemberStep crates cfg pc.world m move world m' →
      (∀ event os dir, move = .select event os → os.downloadsDir = .ok dir →
        dir = folders.downloads) →
      PcStep crates cfg folders pc (.step i move) (pc.put world i m')
  | request {pc : Pc} {u : Nat} (name : String) (len : UInt64) (uuid : String) :
      pc.requests u = none → 0 < len.toNat → len.toNat ≤ maxSpoolBytes →
      (∀ v r, pc.requests v = some r → r.spool ≠ folders.temp.join (tempName uuid)) →
      pc.world.files (folders.temp.join (tempName uuid)) = none →
      PcStep crates cfg folders pc (.request u name len uuid)
        { pc with
          requests := Function.update pc.requests u
            (some
              { name, len, spool := folders.temp.join (tempName uuid), stage := .probing
                sentTo := none, sentId := none }) }
  | serve {pc : Pc} {u : Nat} {r r' : SendRequest} {served : Served} {world : World} :
      pc.requests u = some r → RequestStep pc.alive pc.world r served world r' →
      PcStep crates cfg folders pc (.serve u served)
        { pc with world, requests := Function.update pc.requests u (some r') }
  | cancel {pc : Pc} {id : UInt32} {bridge : FileSendBridge} :
      pc.world.bridge.dispatch pc.alive (.cancel id) = (.ok (), bridge) →
      PcStep crates cfg folders pc (.cancel id (pc.world.bridge.slot.map Prod.snd))
        { pc with world := { pc.world with bridge } }
  | cancelIgnored {pc : Pc} {id : UInt32} {reason : String} {bridge : FileSendBridge} :
      pc.world.bridge.dispatch pc.alive (.cancel id) = (.error reason, bridge) →
      PcStep crates cfg folders pc (.cancel id none) pc
  | streamerEnds {pc : Pc} {i flag : Nat} {m : Member} :
      pc.members i = some m → flag < m.conn.cancelFlags.length →
      PcStep crates cfg folders pc (.streamerEnds i flag)
        { pc with streamed := Function.update pc.streamed i (flag :: pc.streamed i) }
  | tick {pc : Pc} (elapsed : Nat) (unixMs : UInt64) :
      PcStep crates cfg folders pc (.tick elapsed unixMs)
        { pc with world := { pc.world with now := pc.world.now + elapsed, unixMs } }
  | rotate {pc : Pc} (code : String) (key : Bytes) :
      PcStep crates cfg folders pc (.rotate code key)
        { pc with
          world :=
            { pc.world with
              pairing := pc.world.pairing.rotate pc.world.now code key } }

/-- No connection and no request yet. -/
def Fresh (pc : Pc) : Prop :=
  (∀ i, pc.members i = none) ∧ (∀ u, pc.requests u = none) ∧
    (∀ i, pc.world.bridge.commands i = []) ∧ ∀ i, pc.streamed i = []

def pool (crates : Crates) (cfg : Config) (folders : Folders) : System Pc Act where
  init := Fresh
  step := PcStep crates cfg folders

theorem members_put {pc : Pc} {world : World} {i j : Nat} {m m' : Member}
    (h : (pc.put world i m').members j = some m) :
    (j = i ∧ m = m') ∨ (j ≠ i ∧ pc.members j = some m) := by
  rcases eq_or_ne j i with rfl | hne
  · exact .inl ⟨rfl, by simpa [Pc.put] using h.symm⟩
  · exact .inr ⟨hne, by simpa [Pc.put, Function.update_of_ne hne] using h⟩

@[simp] theorem put_members_self (pc : Pc) (world : World) (i : Nat) (m : Member) :
    (pc.put world i m).members i = some m :=
  Function.update_self ..

theorem put_members_of_ne (pc : Pc) (world : World) {i j : Nat} (m : Member) (h : j ≠ i) :
    (pc.put world i m).members j = pc.members j :=
  Function.update_of_ne h ..

@[simp] theorem put_put (pc : Pc) (world world' : World) (i : Nat) (m m' : Member) :
    (pc.put world i m).put world' i m' = pc.put world' i m' := by
  simp [Pc.put]

theorem dispatch_eq_ok {bridge bridge' : FileSendBridge} {alive : Nat → Bool}
    {cmd : FileSendCmd} (h : bridge.dispatch alive cmd = (.ok (), bridge')) :
    ∃ inst owner, bridge.slot = some (inst, owner) ∧ alive owner = true ∧
      bridge' =
        { bridge with
          commands := Function.update bridge.commands owner (bridge.commands owner ++ [cmd]) } := by
  unfold FileSendBridge.dispatch at h
  split at h
  · cases h
  · next inst owner hslot =>
      split at h
      · next halive =>
          cases h
          exact ⟨inst, owner, hslot, halive, rfl⟩
      · cases h

theorem dispatch_commands {bridge bridge' : FileSendBridge} {alive : Nat → Bool}
    {cmd cmd' : FileSendCmd} (h : bridge.dispatch alive cmd = (.ok (), bridge')) {i : Nat}
    (hcmd : cmd' ∈ bridge'.commands i) : cmd' ∈ bridge.commands i ∨ cmd' = cmd := by
  obtain ⟨inst, owner, -, -, rfl⟩ := dispatch_eq_ok h
  dsimp only at hcmd
  rcases eq_or_ne i owner with rfl | hne
  · rw [Function.update_self, List.mem_append, List.mem_singleton] at hcmd
    exact hcmd
  · rw [Function.update_of_ne hne] at hcmd
    exact .inl hcmd

theorem dispatch_of_slot {bridge : FileSendBridge} {alive : Nat → Bool} {inst : UInt64}
    {owner : Nat} (hslot : bridge.slot = some (inst, owner)) (halive : alive owner = true)
    (cmd : FileSendCmd) :
    bridge.dispatch alive cmd =
      (.ok (),
        { bridge with
          commands :=
            Function.update bridge.commands owner (bridge.commands owner ++ [cmd]) }) := by
  rw [FileSendBridge.dispatch, hslot]
  exact if_pos halive

theorem RequestStep.files {alive : Nat → Bool} {world world' : World} {r r' : SendRequest}
    {served : Served} (h : RequestStep alive world r served world' r') {p : PathBuf}
    (hp : p ≠ r.spool) : world'.files p = world.files p := by
  have hupdate (content : Option Bytes) :
      Function.update world.files r.spool content p = world.files p :=
    Function.update_of_ne hp _ _
  have happend (bytes : Bytes) : appendTo world.files r.spool bytes p = world.files p := by
    unfold appendTo
    cases world.files r.spool with
    | some content => exact hupdate _
    | none => rfl
  cases h with
  | created => exact hupdate _
  | unlinked => exact hupdate _
  | read => exact happend _
  | writeFailed => exact happend _
  | _ => rfl

theorem RequestStep.spool {alive : Nat → Bool} {world world' : World} {r r' : SendRequest}
    {served : Served} (h : RequestStep alive world r served world' r') : r'.spool = r.spool := by
  cases h <;> rfl

theorem RequestStep.commands {alive : Nat → Bool} {world world' : World} {r r' : SendRequest}
    {served : Served} (h : RequestStep alive world r served world' r') {i : Nat}
    {cmd : FileSendCmd} (hcmd : cmd ∈ world'.bridge.commands i) :
    cmd ∈ world.bridge.commands i ∨ ∃ id, cmd = .send id r.name r.len r.spool := by
  cases h with
  | dispatched hstage hdispatch =>
      exact (dispatch_commands hdispatch hcmd).imp_right fun heq => ⟨_, heq⟩
  | _ => exact .inl hcmd

/-! ### Functional steps -/

def Pc.join (pc : Pc) (i : Nat) (peerLabel : String) : Pc :=
  pc.put pc.world i (.start i peerLabel pc.world.now)

/-- The connection takes a branch of its select. -/
def Pc.select (crates : Crates) (cfg : Config) (pc : Pc) (i : Nat) (event : Event)
    (os : Answers) : Pc :=
  match pc.members i with
  | some m =>
      pc.put pc.world i
        { m with
          phase := .handling os (iteration crates cfg os event)
          lastInbound := (m.session pc.world).arrival event }
  | none => pc

/-- The connection runs its next section. -/
def Pc.advance (pc : Pc) (i : Nat) : Pc :=
  match pc.members i with
  | some { conn, phase := .handling os (.atomic update next), deadline, lastInbound } =>
      let left := update ⟨pc.world, conn⟩
      pc.put left.world i
        { conn := left.conn, phase := .handling os (next ⟨pc.world, conn⟩), deadline, lastInbound }
  | some { conn, phase := .leaving (.atomic update next), deadline, lastInbound } =>
      let left := update ⟨pc.world, conn⟩
      pc.put left.world i
        { conn := left.conn, phase := .leaving (next ⟨pc.world, conn⟩), deadline, lastInbound }
  | _ => pc

/-- The connection runs at most this many sections. -/
def Pc.sections : Nat → Nat → Pc → Pc
  | 0, _, pc => pc
  | n + 1, i, pc => Pc.sections n i (pc.advance i)

/-- The connection comes to the end of a handler. -/
def Pc.settle (pc : Pc) (i : Nat) : Pc :=
  match pc.members i with
  | some { conn, phase := .handling _ (.done true), deadline := _, lastInbound } =>
      pc.put pc.world i
        { conn, phase := .selecting, deadline := pc.world.now + idleTimeout, lastInbound }
  | some { conn, phase := .handling os (.done false), deadline, lastInbound } =>
      pc.put pc.world i { conn, phase := .leaving (teardown os), deadline, lastInbound }
  | some { conn, phase := .leaving (.done _), deadline, lastInbound } =>
      pc.put
        { pc.world with
          bridge :=
            { pc.world.bridge with
              commands := Function.update pc.world.bridge.commands conn.connId [] } }
        i { conn, phase := .returned, deadline, lastInbound }
  | _ => pc

@[simp] theorem Pc.select_requests (crates : Crates) (cfg : Config) (pc : Pc) (i : Nat)
    (event : Event) (os : Answers) :
    (pc.select crates cfg i event os).requests = pc.requests := by
  unfold Pc.select
  split <;> rfl

@[simp] theorem Pc.advance_requests (pc : Pc) (i : Nat) :
    (pc.advance i).requests = pc.requests := by
  unfold Pc.advance
  split <;> rfl

@[simp] theorem Pc.sections_requests (n i : Nat) (pc : Pc) :
    (pc.sections n i).requests = pc.requests := by
  induction n generalizing pc with
  | zero => rfl
  | succ n ih => exact (ih _).trans (pc.advance_requests i)

@[simp] theorem Pc.settle_requests (pc : Pc) (i : Nat) :
    (pc.settle i).requests = pc.requests := by
  unfold Pc.settle
  split <;> rfl

/-- Where a connection stands, as far as concrete runs need it. -/
inductive Place where
  | absent
  | selecting
  | busy
  | returned
deriving DecidableEq

def Pc.place (pc : Pc) (i : Nat) : Place :=
  match pc.members i with
  | none => .absent
  | some { phase := .selecting, .. } => .selecting
  | some { phase := .returned, .. } => .returned
  | some _ => .busy

theorem exists_of_selecting {pc : Pc} {i : Nat} (h : pc.place i = .selecting) :
    ∃ m, pc.members i = some m ∧ m.phase = .selecting := by
  unfold Pc.place at h
  split at h
  · cases h
  · next hm => exact ⟨_, hm, rfl⟩
  · cases h
  · cases h

theorem phase_of_returned {pc : Pc} {i : Nat} {m : Member} (h : pc.place i = .returned)
    (hm : pc.members i = some m) : m.phase = .returned := by
  unfold Pc.place at h
  split at h
  · cases h
  · cases h
  · next hm' => exact Option.some.inj (hm.symm.trans hm') ▸ rfl
  · cases h

section

variable {crates : Crates} {cfg : Config} {folders : Folders}
  {condition : Pc → Act → Pc → Prop} {pc : Pc} {i : Nat}

theorem leads_join {peerLabel : String} (hfree : pc.members i = none)
    (hcondition : ∀ pc', condition pc (.join i peerLabel) pc') :
    ((pool crates cfg folders).restrict condition).Leads pc (pc.join i peerLabel) :=
  .single ⟨.join peerLabel hfree, hcondition _⟩

theorem leads_select {m : Member} {event : Event} {os : Answers} (hm : pc.members i = some m)
    (hphase : m.phase = .selecting) (hready : Ready (m.session pc.world) event)
    (hdir : ∀ dir, os.downloadsDir = .ok dir → dir = folders.downloads)
    (hcondition : ∀ pc', condition pc (.step i (.select event os)) pc') :
    ((pool crates cfg folders).restrict condition).Leads pc (pc.select crates cfg i event os) := by
  have hstep : PcStep crates cfg folders pc (.step i (.select event os))
      (pc.select crates cfg i event os) := by
    rw [Pc.select, hm]
    refine .step hm (.select hphase hready) ?_
    rintro _ _ dir ⟨rfl, rfl⟩ hos
    exact hdir dir hos
  exact .single ⟨hstep, hcondition _⟩

theorem step_of_not_select {m m' : Member} {move : Move} {world : World}
    (hm : pc.members i = some m) (hstep : MemberStep crates cfg pc.world m move world m')
    (hmove : ∀ event os, move ≠ .select event os) :
    PcStep crates cfg folders pc (.step i move) (pc.put world i m') :=
  .step hm hstep fun event os _ h => absurd h (hmove event os)

theorem leads_advance
    (hcondition : ∀ found left pc', condition pc (.step i (.section found left)) pc') :
    ((pool crates cfg folders).restrict condition).Leads pc (pc.advance i) := by
  unfold Pc.advance
  split
  · next hm =>
      exact .single ⟨step_of_not_select hm (.handle rfl rfl rfl) (by simp), hcondition _ _ _⟩
  · next hm =>
      exact .single ⟨step_of_not_select hm (.leave rfl rfl rfl) (by simp), hcondition _ _ _⟩
  · exact .refl pc

theorem leads_sections {P : Pc → Prop} (hP : ∀ pc, P pc → P (pc.advance i))
    (hcondition : ∀ pc found left pc', P pc → condition pc (.step i (.section found left)) pc')
    {n : Nat} (h : P pc) :
    ((pool crates cfg folders).restrict condition).Leads pc (pc.sections n i) := by
  induction n generalizing pc with
  | zero => exact .refl pc
  | succ n ih =>
      exact (leads_advance fun found left pc' => hcondition pc found left pc' h).trans
        (ih (hP pc h))

theorem leads_serve {u : Nat} {r r' : SendRequest} {served : Served} {world : World}
    (hr : pc.requests u = some r) (hstep : RequestStep pc.alive pc.world r served world r')
    (hcondition : ∀ pc', condition pc (.serve u served) pc') :
    ((pool crates cfg folders).restrict condition).Leads pc
      { pc with world, requests := Function.update pc.requests u (some r') } :=
  .single ⟨.serve hr hstep, hcondition _⟩

/-- The sections of a handler while nobody else acts. -/
def sectionsOf {α : Type} (i : Nat) : Handler α → St → List Act
  | .done _, _ => []
  | .atomic update next, s => .step i (.section s (update s)) :: sectionsOf i (next s) (update s)

theorem run_task {α β : Type} (place : Handler β → Phase)
    (hsection : ∀ {world : World} {m : Member} {update : St → St} {next : St → Handler β},
      m.phase = place (.atomic update next) →
      MemberStep crates cfg world m (.section ⟨world, m.conn⟩ (update ⟨world, m.conn⟩))
        (update ⟨world, m.conn⟩).world
        { m with
          conn := (update ⟨world, m.conn⟩).conn
          phase := place (next ⟨world, m.conn⟩) })
    {t : Handler α} {f : α → Handler β} {m : Member} {a : α} {left : St}
    (hm : pc.members i = some m) (hphase : m.phase = place (t >>= f))
    (hrun : t.run ⟨pc.world, m.conn⟩ = (a, left)) :
    (pool crates cfg folders).Run pc (sectionsOf i t ⟨pc.world, m.conn⟩)
      (pc.put left.world i { m with conn := left.conn, phase := place (f a) }) := by
  induction t generalizing pc m with
  | done b =>
      obtain ⟨rfl, rfl⟩ := Prod.mk.inj hrun
      have hsame : pc.put pc.world i { m with conn := m.conn, phase := place (f b) } = pc := by
        have hmember : { m with conn := m.conn, phase := place (f b) } = m := by
          rw [← show m.phase = place (f b) from hphase]
        rw [hmember, Pc.put, ← hm, Function.update_eq_self]
      rw [hsame]
      exact .nil pc
  | atomic update next ih =>
      let updated := update ⟨pc.world, m.conn⟩
      let m₁ : Member :=
        { m with conn := updated.conn, phase := place (next ⟨pc.world, m.conn⟩ >>= f) }
      have hfirst : PcStep crates cfg folders pc (.step i (.section ⟨pc.world, m.conn⟩ updated))
          (pc.put updated.world i m₁) :=
        step_of_not_select hm (hsection hphase) (by simp)
      have hafter : (pc.put updated.world i m₁).members i = some m₁ := put_members_self ..
      have hrest := ih ⟨pc.world, m.conn⟩ hafter rfl hrun
      rw [put_put] at hrest
      exact (Run.single hfirst).append hrest

theorem leads_settle (hcondition : ∀ pc', condition pc (.step i .settle) pc') :
    ((pool crates cfg folders).restrict condition).Leads pc (pc.settle i) := by
  unfold Pc.settle
  split
  · next hm => exact .single ⟨step_of_not_select hm (.goesOn rfl) (by simp), hcondition _⟩
  · next hm => exact .single ⟨step_of_not_select hm (.stops rfl) (by simp), hcondition _⟩
  · next hm => exact .single ⟨step_of_not_select hm (.returns rfl) (by simp), hcondition _⟩
  · exact .refl pc

end

/-! ### A phone that has paired before -/

def phoneInfo : ClientInfo :=
  { name := "phone", os := "Android", appVersion := "0.1.0" }

/-- SHA-256 of the token. -/
def tokenSha : Bytes :=
  [60, 70, 158, 157, 108, 88, 117, 211, 122, 67, 243, 83, 212, 248, 142, 97, 252, 248, 18, 198,
    110, 238, 52, 87, 70, 90, 64, 176, 218, 65, 83, 224]

def trustedHelloText : String :=
  "\x7b\"type\":\"trusted_hello\",\"v\":6,\"device_id\":\"device\",\"token\":\"token\"," ++
    "\"client\":\x7b\"name\":\"phone\",\"os\":\"Android\",\"app_version\":\"0.1.0\"\x7d\x7d"

def beginText : String :=
  "\x7b\"type\":\"file_transfer_begin\",\"id\":7,\"name\":\"a.txt\",\"size\":5\x7d"

def phoneCrates : Crates where
  parseClientMsg text :=
    if text = trustedHelloText then some (.trustedHello 6 "device" "token" phoneInfo)
    else if text = beginText then some (.fileTransferBegin 7 "a.txt" 5)
    else none
  base64UrlEncode := Base64.encode
  base64UrlDecode := Base64.decode
  hmacSha256 _ _ := []
  sha256 _ := tokenSha

/-- A PC that trusts the device. -/
def pairedPc : Pc where
  world :=
    { bareWorld with
      trusted :=
        .openStore
          (.parsed
            { schema := currentSchema
              devices :=
                [{ deviceId := "device", tokenHash := hexEncode tokenSha, deviceName := "phone"
                   createdUnixMs := 0, lastSeenUnixMs := 0 }] }) }
  members _ := none
  requests _ := none
  streamed _ := []

theorem fresh_paired : Fresh pairedPc :=
  ⟨fun _ => rfl, fun _ => rfl, fun _ => rfl, fun _ => rfl⟩

def usualFolders : Folders where
  downloads := ⟨["Downloads"]⟩
  temp := ⟨["Temp"]⟩

theorem usualFolders_ne : usualFolders.downloads ≠ usualFolders.temp := by decide

def textEvent (text : String) : Event :=
  .inbox (some (.text text))

theorem ready_text {pc : Pc} {i : Nat} {text : String} (m : Member)
    (_ : pc.members i = some m) : Ready (m.session pc.world) (textEvent text) :=
  trivial

def helloEvent : Event :=
  textEvent trustedHelloText

/-- A branch that a connection takes, and the first sections after it. -/
def receive (i n : Nat) (event : Event) (pc : Pc) : Pc :=
  (pc.select phoneCrates bareConfig i event smoothAnswers).sections n i

/-- An event handled to the end. -/
def turn (i : Nat) (event : Event) (pc : Pc) : Pc :=
  (receive i 8 event pc).settle i

theorem leads_receive {condition : Pc → Act → Pc → Prop} {P : Pc → Prop} {pc : Pc} {i n : Nat}
    {event : Event} (hP : ∀ pc, P pc → P (pc.advance i))
    (hselect : ∀ pc', condition pc (.step i (.select event smoothAnswers)) pc')
    (hsection : ∀ pc found left pc', P pc → condition pc (.step i (.section found left)) pc')
    (hplace : pc.place i = .selecting)
    (hready : ∀ m, pc.members i = some m → Ready (m.session pc.world) event)
    (h : P (pc.select phoneCrates bareConfig i event smoothAnswers)) :
    ((pool phoneCrates bareConfig usualFolders).restrict condition).Leads pc
      (receive i n event pc) := by
  obtain ⟨m, hm, hphase⟩ := exists_of_selecting hplace
  have hdir (dir : PathBuf) (hdir : smoothAnswers.downloadsDir = .ok dir) :
      dir = usualFolders.downloads := by
    cases hdir
    rfl
  exact (leads_select hm hphase (hready m hm) hdir hselect).trans (leads_sections hP hsection h)

/-! ### Rules for one connection -/

/-- Rules that every connection of the PC follows. `idle` holds at the select, `gone` after the
teardown. -/
structure Rules (crates : Crates) (cfg : Config) (κ : Type) extends Discipline St κ where
  idle : κ → St → Prop
  gone : κ → St → Prop
  /-- The answers of an iteration that the rules can deal with. -/
  allowed : Answers → Prop
  /-- The branches of the select that they can deal with. -/
  admits : Event → St → Prop
  rely_trans : ∀ {k s t u}, rely k s t → rely k t u → rely k s u
  idle_stable : ∀ {k s s'}, idle k s → rely k s s' → idle k s'
  gone_stable : ∀ {k s s'}, gone k s → rely k s s' → gone k s'
  iteration_keeps : ∀ {k s os event}, allowed os → admits event s → idle k s →
    Keeps toDiscipline (fun k _ s => idle k s) (iteration crates cfg os event) k s
  teardown_keeps : ∀ {k s os}, allowed os → idle k s →
    Keeps toDiscipline (fun k _ s => gone k s) (teardown os) k s

variable {crates : Crates} {cfg : Config} {κ : Type} {R : Rules crates cfg κ} {k : κ}
  {world world' : World} {m m' : Member} {move : Move}

/-- A connection that holds `k` follows the rules from where it stands. -/
def Member.Follows (R : Rules crates cfg κ) (k : κ) (world : World) (m : Member) : Prop :=
  match m.phase with
  | .selecting => R.idle k ⟨world, m.conn⟩
  | .handling os rest =>
      R.allowed os ∧ Keeps R.toDiscipline (fun k _ s => R.idle k s) rest k ⟨world, m.conn⟩
  | .leaving rest => Keeps R.toDiscipline (fun k _ s => R.gone k s) rest k ⟨world, m.conn⟩
  | .returned => R.gone k ⟨world, m.conn⟩

theorem Member.Follows.rely (h : m.Follows R k world)
    (hrely : R.rely k ⟨world, m.conn⟩ ⟨world', m.conn⟩) : m.Follows R k world' := by
  unfold Member.Follows at h ⊢
  split at h
  · exact R.idle_stable h hrely
  · refine ⟨h.1, h.2.rely R.rely_trans ?_ hrely⟩
    exact R.idle_stable
  · refine h.rely R.rely_trans ?_ hrely
    exact R.gone_stable
  · exact R.gone_stable h hrely

/-- What a step of a connection that follows the rules is: an act of a section, or a step that
changes nothing outside the connection task, or its return. -/
inductive Member.Acts (R : Rules crates cfg κ) (k : κ) (world : World) (m : Member) :
    Move → κ → World → Member → Prop
  | acted {k' : κ} {left : St} {m' : Member} :
      (∃ update, R.next k update ∧ left = update ⟨world, m.conn⟩) →
      R.act k ⟨world, m.conn⟩ k' left → m'.conn = left.conn → m'.live = true →
      Member.Acts R k world m (.section ⟨world, m.conn⟩ left) k' left.world m'
  | stayed {move : Move} {m' : Member} :
      (∀ found left, move ≠ .section found left) → m'.conn = m.conn → m'.live = true →
      Member.Acts R k world m move k world m'
  | returned {m' : Member} :
      m.phase = .leaving (.done PUnit.unit) → m'.conn = m.conn → m'.phase = .returned →
      R.gone k ⟨world, m.conn⟩ →
      Member.Acts R k world m .settle k
        { world with
          bridge :=
            { world.bridge with
              commands := Function.update world.bridge.commands m.conn.connId [] } } m'

theorem Member.Follows.step (hrefl : ∀ s, R.rely k s s) (h : m.Follows R k world)
    (hstep : MemberStep crates cfg world m move world' m')
    (hallowed : ∀ event os, move = .select event os → Ready (m.session world) event →
      R.allowed os ∧ R.admits event ⟨world, m.conn⟩)
    (hdrop : ∀ s, R.gone k s → R.gone k
      { s with
        world :=
          { s.world with
            bridge :=
              { s.world.bridge with
                commands := Function.update s.world.bridge.commands s.conn.connId [] } } }) :
    ∃ k', m.Acts R k world move k' world' m' ∧ m'.Follows R k' world' := by
  cases hstep with
  | @select event os hphase hready =>
      rw [Member.Follows, hphase] at h
      obtain ⟨hos, hadmits⟩ := hallowed _ _ rfl hready
      exact ⟨k, .stayed (by simp) rfl rfl, hos, R.iteration_keeps hos hadmits h⟩
  | handle hphase hfound hleft =>
      rw [Member.Follows, hphase] at h
      subst hfound hleft
      obtain ⟨hos, hnext, hkeeps⟩ := h
      obtain ⟨k', hact, hrest⟩ := hkeeps _ (hrefl _)
      exact ⟨k', .acted ⟨_, hnext, rfl⟩ hact rfl rfl, hos, hrest⟩
  | goesOn hphase =>
      rw [Member.Follows, hphase] at h
      exact ⟨k, .stayed (by simp) rfl rfl, h.2⟩
  | stops hphase =>
      rw [Member.Follows, hphase] at h
      exact ⟨k, .stayed (by simp) rfl rfl, R.teardown_keeps h.1 h.2⟩
  | leave hphase hfound hleft =>
      rw [Member.Follows, hphase] at h
      subst hfound hleft
      obtain ⟨hnext, hkeeps⟩ := h
      obtain ⟨k', hact, hrest⟩ := hkeeps _ (hrefl _)
      exact ⟨k', .acted ⟨_, hnext, rfl⟩ hact rfl rfl, hrest⟩
  | returns hphase =>
      rw [Member.Follows, hphase] at h
      exact ⟨k, .returned hphase rfl rfl h, hdrop _ h⟩

end RemoteControl.Server.Pool
