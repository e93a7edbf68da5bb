import RemoteControl.Server.WireOrder

/-!
One peer of the LAN listener (`bridge_lan_peer` of `server-pc/src/ws_server.rs`) once its
WebSocket is open: the reader and the writer around `run_connection`, what they wait for when
it has returned, and the counter of live peers.
-/

namespace RemoteControl.Server.LanBridge

open RemoteControl.Foundations.ByteStrings
open RemoteControl.Foundations.Fifo
open RemoteControl.Foundations.Interference.Task
open RemoteControl.Foundations.Transition
open RemoteControl.Wire.Protocol
open RemoteControl.Server.Stores
open RemoteControl.Server.Connection
open RemoteControl.Server.Loop
open RemoteControl.Server.Frame
open RemoteControl.Server.Watchdog
open RemoteControl.Server.Outbound
open RemoteControl.Server.WireOrder

/-! ### The tasks of one peer -/

/-- What `stream.next()` gives. -/
inductive Incoming where
  | message (m : Message)
  | error
  | ended
deriving DecidableEq

/-- What the peer does, or the network for it. -/
inductive PeerAct where
  | sends (m : Message)
  | breaks
  | hangsUp
deriving DecidableEq

/-- The stream ends after a close frame. -/
def PeerAct.incoming : PeerAct → List Incoming
  | .sends .close => [.message .close, .ended]
  | .sends m => [.message m]
  | .breaks => [.error]
  | .hangsUp => [.ended]

def Incoming.stops : Incoming → Bool
  | .message _ => false
  | _ => true

def PeerAct.stops (act : PeerAct) : Bool :=
  act.incoming.any Incoming.stops

/-- Where `bridge_lan_peer` is: in `run_connection`, at `reader.await`, at `writer.await`, back
in the task that the listener spawned, or past its `fetch_sub`. -/
inductive Phase where
  | serving
  | awaitsReader
  | awaitsWriter
  | returned
  | finished
deriving DecidableEq, Repr

/-- `socket` is what the reader has not taken yet and `inbox` what the connection has not
taken yet. The other peers of the listener have added `elsewhere` to its counter. -/
structure LanPeer where
  phase : Phase := .serving
  wired : Wired
  socket : List Incoming := []
  inbox : List Message := []
  reader : Bool := true
  sinkClosed : Bool := false
  peerCount : Option Nat
  elsewhere : Nat

namespace LanPeer

def running (p : LanPeer) : Bool := p.wired.session.running

/-- One pass of the reader's loop. The send fails once `run_connection` has dropped its end of
the inbox; until then the inbox is open, since `bridge_lan_peer` holds a sender itself. -/
def read (p : LanPeer) : Option LanPeer :=
  if p.reader then
    match p.socket with
    | [] => none
    | .message m :: socket =>
        if p.running then some { p with socket, inbox := p.inbox ++ [m] }
        else some { p with socket, reader := false }
    | _ :: socket => some { p with socket, reader := false }
  else none

/-- Some arm of the writer's `select!` is ready. -/
def Roused (p : LanPeer) : Prop :=
  ∃ lane, (p.wired.lanes.queue lane).waiting ≠ [] ∨ p.wired.lanes.hasSender lane = false

/-- After a step of the connection with this inbox left. -/
def after (p : LanPeer) (wired : Wired) (inbox : List Message) : LanPeer :=
  { p with
    wired, inbox
    phase := if wired.session.running then .serving else .awaitsReader }

/-- The counts of the other peers have become `n`. -/
def recount (p : LanPeer) (n : Nat) : LanPeer :=
  { p with peerCount := p.peerCount.map fun count => count + n - p.elsewhere, elsewhere := n }

end LanPeer

/-- What a step of the connection leaves of the inbox: it takes the first message. -/
def inboxAfter (inbox : List Message) : Label → Option (List Message)
  | .taken (.inbox (some m)) _ _ =>
      match inbox with
      | head :: rest => if m = head then some rest else none
      | [] => none
  | .taken (.inbox none) _ _ => none
  | _ => some inbox

inductive Move where
  | peer (act : PeerAct)
  | others (n : Nat)
  | logic (label : Label)
  | bulk (bytes : Bytes)
  | read
  | write
  | writeFails
  | closeSink
  | readerJoined
  | writerJoined
  | uncount

/-- The move is one of the reader, the writer or `bridge_lan_peer` itself. The peer and the
other parties of the PC make the rest; nobody waits for the streamers of a connection. -/
def Move.own : Move → Bool
  | .peer _ | .others _ | .logic .others | .bulk _ => false
  | _ => true

/-- A step of the peer. A write of the writer ends or fails: a sink that blocks is left out. -/
inductive LanStep (crates : Crates) (cfg : Config) (json : ServerMsg → String) :
    LanPeer → Move → LanPeer → Prop
  | peer {p : LanPeer} {act : PeerAct} :
      LanStep crates cfg json p (.peer act) { p with socket := p.socket ++ act.incoming }
  | others {p : LanPeer} {n : Nat} : LanStep crates cfg json p (.others n) (p.recount n)
  | logic {p : LanPeer} {label : Label} {wired : Wired} {inbox : List Message} :
      p.phase = .serving → inboxAfter p.inbox label = some inbox →
      WiredStep crates cfg json .lan p.wired (.connection label) wired →
      LanStep crates cfg json p (.logic label) (p.after wired inbox)
  | bulk {p : LanPeer} {bytes : Bytes} {wired : Wired} :
      WiredStep crates cfg json .lan p.wired (.bulk bytes) wired →
      LanStep crates cfg json p (.bulk bytes) { p with wired }
  | read {p p' : LanPeer} : p.read = some p' → LanStep crates cfg json p .read p'
  | write {p : LanPeer} {wired : Wired} : p.Roused →
      WiredStep crates cfg json .lan p.wired .write wired →
      LanStep crates cfg json p .write { p with wired }
  | writeFails {p : LanPeer} {wired : Wired} : p.Roused →
      WiredStep crates cfg json .lan p.wired .writeFails wired →
      LanStep crates cfg json p .writeFails { p with wired }
  | closeSink {p : LanPeer} : p.wired.writing = false → p.sinkClosed = false →
      LanStep crates cfg json p .closeSink { p with sinkClosed := true }
  | readerJoined {p : LanPeer} : p.phase = .awaitsReader → p.reader = false →
      LanStep crates cfg json p .readerJoined { p with phase := .awaitsWriter }
  | writerJoined {p : LanPeer} : p.phase = .awaitsWriter → p.sinkClosed = true →
      LanStep crates cfg json p .writerJoined { p with phase := .returned }
  | uncount {p : LanPeer} : p.phase = .returned →
      LanStep crates cfg json p .uncount
        { p with phase := .finished, peerCount := p.peerCount.map (· - 1) }

/-- The listener has counted the peer and its handshake is done. -/
def Begins (p : LanPeer) : Prop :=
  ∃ session elsewhere, ∃ counting : Bool, Starts session ∧
    p =
      { wired := { session }
        peerCount := if counting then some (elsewhere + 1) else none
        elsewhere }

def lan (crates : Crates) (cfg : Config) (json : ServerMsg → String) :
    System LanPeer Move where
  init := Begins
  step := LanStep crates cfg json

/-- None of the tasks of this peer can step. -/
def Quiescent (crates : Crates) (cfg : Config) (json : ServerMsg → String) (p : LanPeer) :
    Prop :=
  ∀ move p', move.own = true → ¬(lan crates cfg json).step p move p'

/-- `bridge_lan_peer` has returned, both halves of its socket are dropped, and the counter no
longer counts the peer. -/
structure Released (p : LanPeer) : Prop where
  finished : p.phase = .finished
  reader : p.reader = false
  sinkClosed : p.sinkClosed = true
  peerCount : ∀ count ∈ p.peerCount, count = p.elsewhere

/-- The peer has ended its stream, or the reader still gets something from it once
`run_connection` has returned: what is left in the socket then, or what the peer does later. -/
def Heard (before : List Move) (atReturn : LanPeer) (later : List Move) : Prop :=
  (∃ act, .peer act ∈ before ∧ act.stops = true) ∨ atReturn.socket ≠ [] ∨
    ∃ act, .peer act ∈ later

variable {crates : Crates} {cfg : Config} {json : ServerMsg → String}

/-! ### What every step keeps -/

def Phase.readerJoined : Phase → Bool
  | .serving | .awaitsReader => false
  | _ => true

def Phase.writerJoined : Phase → Bool
  | .returned | .finished => true
  | _ => false

def Phase.counted : Phase → Nat
  | .finished => 0
  | _ => 1

structure Kept (p : LanPeer) : Prop where
  serving : p.phase = .serving ↔ p.running = true
  hasSender : p.running = false → p.wired.lanes.hasSender .control = false
  reader : p.phase.readerJoined = true → p.reader = false
  sinkClosed : p.phase.writerJoined = true → p.sinkClosed = true
  peerCount : ∀ count ∈ p.peerCount, count = p.elsewhere + p.phase.counted

theorem read_cases {p p' : LanPeer} (h : p.read = some p') :
    ∃ incoming socket, p.reader = true ∧ p.socket = incoming :: socket ∧
      ((incoming.stops = false ∧ p.running = true ∧
          ∃ inbox, p' = { p with socket, inbox }) ∨
        ((incoming.stops = true ∨ p.running = false) ∧
          p' = { p with socket, reader := false })) := by
  unfold LanPeer.read at h
  split at h
  next hreader =>
    split at h
    next => cases h
    next m socket hsocket =>
      refine ⟨_, _, hreader, hsocket, ?_⟩
      split at h
      next hrunning =>
        obtain rfl := Option.some.inj h
        exact .inl ⟨rfl, hrunning, _, rfl⟩
      next hrunning =>
        obtain rfl := Option.some.inj h
        exact .inr ⟨.inr (Bool.eq_false_iff.mpr hrunning), rfl⟩
    next incoming socket hmessage hsocket =>
      obtain rfl := Option.some.inj h
      refine ⟨_, _, hreader, hsocket, .inr ⟨.inl ?_, rfl⟩⟩
      cases incoming with
      | message m => exact absurd rfl (hmessage m)
      | error => rfl
      | ended => rfl
  next => cases h

theorem wired_step_frame {w w' : Wired} {action : Action}
    (h : WiredStep crates cfg json .lan w action w')
    (haction : ∀ label, action ≠ .connection label) :
    w'.session = w.session ∧ w'.lanes.hasSender = w.lanes.hasSender := by
  cases h with
  | connection => exact absurd rfl (haction _)
  | bulk hsend => exact ⟨rfl, (bulk_frame hsend).2.2.1⟩
  | write => exact ⟨write_session w, write_hasSender w⟩
  | writeFails => exact ⟨rfl, rfl⟩

theorem kept_of_wired {p : LanPeer} {wired : Wired} {action : Action} (hp : Kept p)
    (h : WiredStep crates cfg json .lan p.wired action wired)
    (haction : ∀ label, action ≠ .connection label) : Kept { p with wired } := by
  obtain ⟨hsession, hsender⟩ := wired_step_frame h haction
  have hrunning : ({ p with wired } : LanPeer).running = p.running :=
    congrArg Session.running hsession
  constructor
  · rw [hrunning]
    exact hp.serving
  · rw [hrunning]
    show p.running = false → wired.lanes.hasSender .control = false
    rw [hsender]
    exact hp.hasSender
  · exact hp.reader
  · exact hp.sinkClosed
  · exact hp.peerCount

theorem Kept.over {p : LanPeer} (hp : Kept p) {phase : Phase} (h : p.phase = phase)
    (hphase : phase ≠ .serving) : p.running = false := by
  refine Bool.eq_false_iff.mpr fun hrunning => hphase ?_
  rw [← h]
  exact hp.serving.mpr hrunning

theorem kept_after {p : LanPeer} {label : Label} {wired : Wired} {inbox : List Message}
    (hp : Kept p) (hphase : p.phase = .serving)
    (h : WiredStep crates cfg json .lan p.wired (.connection label) wired) :
    Kept (p.after wired inbox) := by
  have hcount := hp.peerCount
  rw [hphase] at hcount
  cases h with
  | @connection _ session =>
      have hsender : (p.wired.after json session).lanes.hasSender .control =
          (session.running && p.wired.lanes.hasSender .control) :=
        after_hasSender _ session
      show Kept
        { p with
          wired := p.wired.after json session, inbox
          phase := if session.running then .serving else .awaitsReader }
      cases hrunning : session.running with
      | true =>
          refine ⟨iff_of_true rfl hrunning, fun hover => ?_, ?_, ?_, hcount⟩
          · exact absurd (hrunning.symm.trans hover) (by simp)
          · intro hjoined
            cases hjoined
          · intro hjoined
            cases hjoined
      | false =>
          refine ⟨iff_of_false (by simp) (Bool.eq_false_iff.mp hrunning), fun _ => ?_, ?_, ?_,
            hcount⟩
          · show (p.wired.after json session).lanes.hasSender .control = false
            rw [hsender, hrunning]
            rfl
          · intro hjoined
            cases hjoined
          · intro hjoined
            cases hjoined

theorem kept_step {p p' : LanPeer} {move : Move} (hp : Kept p)
    (h : LanStep crates cfg json p move p') : Kept p' := by
  cases h with
  | peer => exact ⟨hp.serving, hp.hasSender, hp.reader, hp.sinkClosed, hp.peerCount⟩
  | others =>
      refine ⟨hp.serving, hp.hasSender, hp.reader, hp.sinkClosed, ?_⟩
      intro count hcount
      obtain ⟨before, hbefore, rfl⟩ := Option.mem_map.mp hcount
      have hequal := hp.peerCount before hbefore
      simp only [LanPeer.recount]
      omega
  | logic hphase _ hwired => exact kept_after hp hphase hwired
  | bulk hwired => exact kept_of_wired hp hwired (by simp)
  | write _ hwired => exact kept_of_wired hp hwired (by simp)
  | writeFails _ hwired => exact kept_of_wired hp hwired (by simp)
  | read hread =>
      obtain ⟨_, _, _, _, ⟨_, _, _, rfl⟩ | ⟨_, rfl⟩⟩ := read_cases hread
      · exact ⟨hp.serving, hp.hasSender, hp.reader, hp.sinkClosed, hp.peerCount⟩
      · exact ⟨hp.serving, hp.hasSender, fun _ => rfl, hp.sinkClosed, hp.peerCount⟩
  | closeSink =>
      exact ⟨hp.serving, hp.hasSender, hp.reader, fun _ => rfl, hp.peerCount⟩
  | readerJoined hphase hreader =>
      have hover := hp.over hphase (by simp)
      have hcount := hp.peerCount
      rw [hphase] at hcount
      refine ⟨iff_of_false (by simp) (Bool.eq_false_iff.mp hover), hp.hasSender,
        fun _ => hreader, ?_, hcount⟩
      intro hjoined
      cases hjoined
  | writerJoined hphase hclosed =>
      have hover := hp.over hphase (by simp)
      have hcount := hp.peerCount
      rw [hphase] at hcount
      refine ⟨iff_of_false (by simp) (Bool.eq_false_iff.mp hover), hp.hasSender,
        fun _ => hp.reader ?_, fun _ => hclosed, hcount⟩
      rw [hphase]
      rfl
  | uncount hphase =>
      have hover := hp.over hphase (by simp)
      refine ⟨iff_of_false (by simp) (Bool.eq_false_iff.mp hover), hp.hasSender,
        fun _ => hp.reader ?_, fun _ => hp.sinkClosed ?_, ?_⟩
      · rw [hphase]
        rfl
      · rw [hphase]
        rfl
      · intro count hcount
        obtain ⟨before, hbefore, rfl⟩ := Option.mem_map.mp hcount
        have hequal := hp.peerCount before hbefore
        rw [hphase] at hequal
        exact Nat.sub_eq_of_eq_add hequal

theorem kept_of_begins {p : LanPeer} (h : Begins p) : Kept p := by
  obtain ⟨_, elsewhere, counting, ⟨connId, peerLabel, world, rfl⟩, rfl⟩ := h
  refine ⟨iff_of_true rfl rfl, ?_, ?_, ?_, ?_⟩
  · intro hover
    cases hover
  · intro hjoined
    cases hjoined
  · intro hjoined
    cases hjoined
  · intro count hcount
    cases counting with
    | false => cases hcount
    | true => exact (Option.mem_some_iff.mp hcount).symm

theorem kept_of_run {p q : LanPeer} {moves : List Move} (hp : Kept p)
    (hrun : (lan crates cfg json).Run p moves q) : Kept q := by
  induction hrun with
  | nil => exact hp
  | snoc _ hstep ih => exact kept_step ih hstep

/-! ### The reader and the peer -/

/-- The reader is at `stream.next()` and there is nothing to take. -/
def Waiting (p : LanPeer) : Prop :=
  p.reader = true ∧ p.socket = []

/-- The peer has ended its stream, and the reader has seen it or will. -/
def EndSeen (p : LanPeer) : Prop :=
  p.reader = false ∨ ∃ incoming ∈ p.socket, incoming.stops = true

theorem incoming_ne_nil (act : PeerAct) : act.incoming ≠ [] := by
  rcases act with m | _ | _
  · cases m <;> simp [PeerAct.incoming]
  · simp [PeerAct.incoming]
  · simp [PeerAct.incoming]

theorem stops_iff {act : PeerAct} :
    act.stops = true ↔ ∃ incoming ∈ act.incoming, incoming.stops = true :=
  List.any_eq_true

theorem step_socket {p p' : LanPeer} {move : Move} (h : LanStep crates cfg json p move p')
    (hpeer : ∀ act, move ≠ .peer act) (hread : move ≠ .read) :
    p'.reader = p.reader ∧ p'.socket = p.socket := by
  cases h with
  | peer => exact absurd rfl (hpeer _)
  | read => exact absurd rfl hread
  | _ => exact ⟨rfl, rfl⟩

theorem endSeen_step {p p' : LanPeer} {move : Move} (h : LanStep crates cfg json p move p')
    (hrunning : p.running = true) :
    EndSeen p' ↔ EndSeen p ∨ ∃ act, move = .peer act ∧ act.stops = true := by
  by_cases hpeer : ∃ act, move = .peer act
  · obtain ⟨act, rfl⟩ := hpeer
    cases h with
    | peer =>
        have hact : (∃ act', Move.peer act = .peer act' ∧ act'.stops = true) ↔
            act.stops = true := by simp
        rw [hact, stops_iff]
        simp only [EndSeen, List.mem_append, or_and_right, exists_or, or_assoc]
  · have hnone : ¬∃ act, move = .peer act ∧ act.stops = true :=
      fun ⟨act, hact, _⟩ => hpeer ⟨act, hact⟩
    rw [or_iff_left hnone]
    by_cases hread : move = .read
    · subst hread
      cases h with
      | read hread =>
          obtain ⟨incoming, socket, hreader, hsocket, hcase⟩ := read_cases hread
          rcases hcase with ⟨hstops, -, _, rfl⟩ | ⟨hstops | hover, rfl⟩
          · simp [EndSeen, hreader, hsocket, hstops]
          · simp [EndSeen, hsocket, hstops]
          · exact absurd (hrunning.symm.trans hover) (by simp)
    · obtain ⟨hreader, hsocket⟩ := step_socket h (fun act hact => hpeer ⟨act, hact⟩) hread
      rw [EndSeen, EndSeen, hreader, hsocket]

theorem step_running {p p' : LanPeer} {move : Move} (h : LanStep crates cfg json p move p')
    (hlogic : ∀ label, move ≠ .logic label) : p'.running = p.running := by
  have hwired {wired : Wired} {action : Action}
      (h : WiredStep crates cfg json .lan p.wired action wired)
      (haction : ∀ label, action ≠ .connection label) :
      wired.session.running = p.running :=
    congrArg Session.running (wired_step_frame h haction).1
  cases h with
  | logic => exact absurd rfl (hlogic _)
  | bulk h => exact hwired h (by simp)
  | write _ h => exact hwired h (by simp)
  | writeFails _ h => exact hwired h (by simp)
  | read hread =>
      obtain ⟨_, _, _, _, ⟨_, _, _, rfl⟩ | ⟨_, rfl⟩⟩ := read_cases hread
      · rfl
      · rfl
  | _ => rfl

theorem running_of_step {p p' : LanPeer} {move : Move} (hp : Kept p)
    (h : LanStep crates cfg json p move p') (hrunning : p'.running = true) :
    p.running = true := by
  by_cases hlogic : ∃ label, move = .logic label
  · obtain ⟨label, rfl⟩ := hlogic
    cases h with
    | logic hphase => exact hp.serving.mp hphase
  · rw [← step_running h fun label hlabel => hlogic ⟨label, hlabel⟩]
    exact hrunning

theorem running_of_run {p q : LanPeer} {moves : List Move} (hp : Kept p)
    (hrun : (lan crates cfg json).Run p moves q) (hrunning : q.running = true) :
    p.running = true := by
  induction hrun with
  | nil => exact hrunning
  | snoc hprev hstep ih => exact ih (running_of_step (kept_of_run hp hprev) hstep hrunning)

theorem endSeen_run {p q : LanPeer} {moves : List Move} (hp : Begins p)
    (hrun : (lan crates cfg json).Run p moves q) (hrunning : q.running = true) :
    EndSeen q ↔ ∃ act, .peer act ∈ moves ∧ act.stops = true := by
  induction hrun with
  | nil =>
      obtain ⟨_, _, _, _, rfl⟩ := hp
      simp [EndSeen]
  | snoc hprev hstep ih =>
      have hbefore := running_of_step (kept_of_run (kept_of_begins hp) hprev) hstep hrunning
      rw [endSeen_step hstep hbefore, ih hbefore]
      constructor
      · rintro (⟨act, hmem, hstops⟩ | ⟨act, rfl, hstops⟩)
        · exact ⟨act, List.mem_append_left _ hmem, hstops⟩
        · exact ⟨act, List.mem_append_right _ (List.mem_singleton_self _), hstops⟩
      · rintro ⟨act, hmem, hstops⟩
        rcases List.mem_append.mp hmem with hmem | hmem
        · exact .inl ⟨act, hmem, hstops⟩
        · exact .inr ⟨act, (List.mem_singleton.mp hmem).symm, hstops⟩

theorem waiting_step {p p' : LanPeer} {move : Move} (h : LanStep crates cfg json p move p')
    (hover : p.running = false) :
    Waiting p' ↔ Waiting p ∧ ∀ act, move ≠ .peer act := by
  by_cases hpeer : ∃ act, move = .peer act
  · obtain ⟨act, rfl⟩ := hpeer
    cases h with
    | peer =>
        refine iff_of_false ?_ fun ⟨_, hact⟩ => hact act rfl
        rintro ⟨-, hsocket⟩
        exact incoming_ne_nil act (List.append_eq_nil_iff.mp hsocket).2
  · have hnone : ∀ act, move ≠ .peer act := fun act hact => hpeer ⟨act, hact⟩
    rw [and_iff_left hnone]
    by_cases hread : move = .read
    · subst hread
      cases h with
      | read hread =>
          obtain ⟨incoming, socket, -, hsocket, hcase⟩ := read_cases hread
          rcases hcase with ⟨-, hrunning, -⟩ | ⟨-, rfl⟩
          · exact absurd (hrunning.symm.trans hover) (by simp)
          · simp [Waiting, hsocket]
    · obtain ⟨hreader, hsocket⟩ := step_socket h hnone hread
      rw [Waiting, Waiting, hreader, hsocket]

theorem waiting_run {p q : LanPeer} {moves : List Move} (hp : Kept p)
    (hrun : (lan crates cfg json).Run p moves q) (hover : p.running = false) :
    Waiting q ↔ Waiting p ∧ ∀ act, .peer act ∉ moves := by
  induction hrun with
  | nil => simp
  | snoc hprev hstep ih =>
      have hstill : _ = false := Bool.eq_false_iff.mpr fun hrunning =>
        absurd (hover.symm.trans (running_of_run hp hprev hrunning)) (by simp)
      rw [waiting_step hstep hstill, ih, and_assoc]
      simp only [List.mem_append, List.mem_singleton, not_or, forall_and, ne_comm, ne_eq]

/-! ### Rest -/

theorem released_iff_of_quiescent {p : LanPeer} (hp : Kept p) (hover : p.running = false)
    (hquiet : Quiescent crates cfg json p) : Released p ↔ ¬Waiting p := by
  have hwriting : p.wired.writing = false := by
    refine Bool.eq_false_iff.mpr fun hwriting => ?_
    exact hquiet .write _ rfl (.write ⟨.control, .inr (hp.hasSender hover)⟩ (.write hwriting))
  have hclosed : p.sinkClosed = true := by
    refine Bool.eq_true_of_not_eq_false fun hopen => ?_
    exact hquiet .closeSink _ rfl (.closeSink hwriting hopen)
  constructor
  · rintro ⟨-, hreader, -, -⟩ ⟨hreading, -⟩
    exact absurd (hreading.symm.trans hreader) (by simp)
  · intro hwaiting
    have hreader : p.reader = false := by
      refine Bool.eq_false_iff.mpr fun hreading => ?_
      cases hsocket : p.socket with
      | nil => exact hwaiting ⟨hreading, hsocket⟩
      | cons incoming socket =>
          obtain ⟨p', hread⟩ : ∃ p', p.read = some p' := by
            unfold LanPeer.read
            rw [if_pos hreading, hsocket]
            cases incoming <;> simp [hover]
          exact hquiet .read p' rfl (.read hread)
    have hphase : p.phase = .finished := by
      cases hphase : p.phase with
      | serving =>
          exact absurd (hover.symm.trans (hp.serving.mp hphase)) (by simp)
      | awaitsReader => exact absurd (.readerJoined hphase hreader) (hquiet .readerJoined _ rfl)
      | awaitsWriter => exact absurd (.writerJoined hphase hclosed) (hquiet .writerJoined _ rfl)
      | returned => exact absurd (.uncount hphase) (hquiet .uncount _ rfl)
      | finished => rfl
    refine ⟨hphase, hreader, hclosed, fun count hcount => ?_⟩
    have hcounted := hp.peerCount count hcount
    rw [hphase] at hcounted
    exact hcounted

/-- Whether the LAN bridge ends with its session: at rest after `run_connection` has returned,
it has released its peer exactly if the peer was heard of. -/
theorem released_iff_heard (crates : Crates) (cfg : Config) (json : ServerMsg → String)
    {start p q r : LanPeer} {before later : List Move} {move : Move} (hstart : Begins start)
    (hbefore : (lan crates cfg json).Run start before p) (hrunning : p.running = true)
    (hreturn : (lan crates cfg json).step p move q) (hover : q.running = false)
    (hlater : (lan crates cfg json).Run q later r) (hquiet : Quiescent crates cfg json r) :
    Released r ↔ Heard before q later := by
  have hp := kept_of_run (kept_of_begins hstart) hbefore
  have hq := kept_step hp hreturn
  have hlogic : ∃ label, move = .logic label := by
    by_contra hother
    have hsame := step_running hreturn fun label hlabel => hother ⟨label, hlabel⟩
    exact absurd (hrunning.symm.trans (hsame.symm.trans hover)) (by simp)
  obtain ⟨label, rfl⟩ := hlogic
  obtain ⟨hreader, hsocket⟩ := step_socket hreturn (by simp) (by simp)
  have hended := endSeen_run hstart hbefore hrunning
  have hstill : r.running = false := by
    refine Bool.eq_false_iff.mpr fun hagain => ?_
    exact absurd (hover.symm.trans (running_of_run hq hlater hagain)) (by simp)
  rw [released_iff_of_quiescent (kept_of_run hq hlater) hstill hquiet,
    waiting_run hq hlater hover, Heard, ← hended, not_and_or, Waiting, not_and_or, hsocket,
    hreader, EndSeen]
  push Not
  constructor
  · rintro ((hstopped | hleft) | hact)
    · exact .inl (.inl (Bool.eq_false_iff.mpr hstopped))
    · exact .inr (.inl hleft)
    · exact .inr (.inr hact)
  · rintro ((hstopped | ⟨incoming, hmem, -⟩) | hleft | hact)
    · exact .inl (.inl (Bool.eq_false_iff.mp hstopped))
    · exact .inl (.inr (List.ne_nil_of_mem hmem))
    · exact .inl (.inr hleft)
    · exact .inr hact

/-! ### A silent peer -/

/-- The last branch of a connection and its teardown, in which every operation succeeds. -/
def torn (event : Event) (s : Session) : Session :=
  let last := ((iteration streamingCrates bareConfig smoothAnswers event).run s.st).2
  { s with
    st := ((teardown smoothAnswers).run last).2
    running := false
    lastInbound := s.arrival event }

theorem exists_torn (event : Event) {s : Session} (hrunning : s.running = true)
    (hready : Ready s event)
    (hstop : ((iteration streamingCrates bareConfig smoothAnswers event).run s.st).1 = false) :
    ∃ trace, Step streamingCrates bareConfig s (.taken event smoothAnswers trace)
      (torn event s) := by
  obtain ⟨trace, hiter⟩ := exists_exec_run others_refl
    (iteration streamingCrates bareConfig smoothAnswers event) s.st
  obtain ⟨rest, hteardown⟩ := exists_exec_run others_refl (teardown smoothAnswers)
    ((iteration streamingCrates bareConfig smoothAnswers event).run s.st).2
  rw [hstop] at hiter
  exact ⟨trace, .finish hrunning hready hiter hteardown⟩

def accepted : LanPeer where
  wired := { session := .start 0 "10.0.0.2:5000" bareWorld }
  peerCount := some 1
  elsewhere := 0

/-- No byte has come for 45 s. -/
def idled : LanPeer :=
  accepted.after (accepted.wired.after plainJson (waited idleTimeout accepted.wired.session)) []

/-- The watchdog has fired and `run_connection` has returned. -/
def timedOut : LanPeer :=
  idled.after (idled.wired.after plainJson (torn .idle idled.wired.session)) []

/-- The writer has ended too. -/
def stuck : LanPeer :=
  { timedOut with wired := timedOut.wired.write .lan, sinkClosed := true }

/-- The peer hangs up after all. -/
def letGo : LanPeer :=
  { stuck with phase := .finished, reader := false, peerCount := some 0 }

theorem accepted_begins : Begins accepted :=
  ⟨_, 0, true, ⟨_, _, _, rfl⟩, rfl⟩

theorem idled_run :
    (lan streamingCrates bareConfig plainJson).Run accepted [.logic .others] idled :=
  .single (.logic rfl rfl (.connection (waited_step _ _ _ _) trivial))

theorem timedOut_step :
    ∃ move, (lan streamingCrates bareConfig plainJson).step idled move timedOut := by
  obtain ⟨trace, hstep⟩ := exists_torn .idle (s := idled.wired.session) rfl (le_refl _) rfl
  exact ⟨_, .logic rfl rfl (.connection hstep trivial)⟩

theorem timedOut_roused : timedOut.Roused :=
  ⟨.control, .inr rfl⟩

theorem stuck_run :
    (lan streamingCrates bareConfig plainJson).Run timedOut [.write, .closeSink] stuck := by
  have hwrite : LanStep streamingCrates bareConfig plainJson timedOut .write
      { timedOut with wired := timedOut.wired.write .lan } := .write timedOut_roused (.write rfl)
  have hclose : LanStep streamingCrates bareConfig plainJson
      { timedOut with wired := timedOut.wired.write .lan } .closeSink stuck := .closeSink rfl rfl
  exact System.Run.snoc (.single hwrite) hclose

theorem letGo_run :
    (lan streamingCrates bareConfig plainJson).Run stuck
      [.peer .hangsUp, .read, .readerJoined, .writerJoined, .uncount] letGo := by
  have hpeer : LanStep streamingCrates bareConfig plainJson stuck (.peer .hangsUp)
      { stuck with socket := [.ended] } := .peer
  have hread : LanStep streamingCrates bareConfig plainJson { stuck with socket := [.ended] }
      .read { stuck with reader := false } := .read rfl
  have hreader : LanStep streamingCrates bareConfig plainJson { stuck with reader := false }
      .readerJoined { stuck with reader := false, phase := .awaitsWriter } :=
    .readerJoined rfl rfl
  have hwriter : LanStep streamingCrates bareConfig plainJson
      { stuck with reader := false, phase := .awaitsWriter } .writerJoined
      { stuck with reader := false, phase := .returned } := .writerJoined rfl rfl
  have huncount : LanStep streamingCrates bareConfig plainJson
      { stuck with reader := false, phase := .returned } .uncount letGo := .uncount rfl
  exact System.Run.snoc (.snoc (.snoc (.snoc (.single hpeer) hread) hreader) hwriter) huncount

theorem quiescent_of_writer_done {p : LanPeer} (hwriting : p.wired.writing = false)
    (hclosed : p.sinkClosed = true) (hread : p.read = none)
    (hphase : p.phase = .finished ∨ p.phase = .awaitsReader ∧ p.reader = true) :
    Quiescent crates cfg json p := by
  intro move p' hown hstep
  cases hstep with
  | read hsome => exact absurd (hread.symm.trans hsome) (by simp)
  | write _ hwired =>
      cases hwired with
      | write h => exact absurd (hwriting.symm.trans h) (by simp)
  | writeFails _ hwired =>
      cases hwired with
      | writeFails h => exact absurd (hwriting.symm.trans h) (by simp)
  | closeSink _ hopen => exact absurd (hclosed.symm.trans hopen) (by simp)
  | logic h => simp [h] at hphase
  | readerJoined h hstopped => simp [h, hstopped] at hphase
  | writerJoined h => simp [h] at hphase
  | uncount h => simp [h] at hphase
  | _ => cases hown

theorem released_iff_heard_letGo : Released letGo := by
  obtain ⟨move, hreturn⟩ := timedOut_step
  refine (released_iff_heard _ _ _ accepted_begins idled_run rfl hreturn rfl
    (stuck_run.append letGo_run)
    (quiescent_of_writer_done rfl rfl rfl (.inl rfl))).mpr (.inr (.inr ⟨.hangsUp, ?_⟩))
  simp

/-- The reader of a peer that has fallen silent never learns that the connection is over. -/
theorem silent_peer_stuck :
    ¬∀ (crates : Crates) (cfg : Config) (json : ServerMsg → String) (p : LanPeer),
      (lan crates cfg json).Reachable p → Quiescent crates cfg json p → p.running = false →
      Released p := by
  intro hclaim
  obtain ⟨move, hreturn⟩ := timedOut_step
  have hidled := (System.Reachable.init accepted_begins).run idled_run
  have hstuck := (hidled.step hreturn).run stuck_run
  have hquiet : Quiescent streamingCrates bareConfig plainJson stuck :=
    quiescent_of_writer_done rfl rfl rfl (.inr ⟨rfl, rfl⟩)
  have hfinished := (hclaim _ _ _ _ hstuck hquiet rfl).finished
  cases hfinished

end RemoteControl.Server.LanBridge
