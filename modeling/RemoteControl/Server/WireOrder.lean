import RemoteControl.Server.StreamGrammar
import RemoteControl.Server.Outbound

/-!
A connection together with the writer that drains its outbound queues: in which order the
frames of a stream and the messages about it reach the wire.
-/

namespace RemoteControl.Server.WireOrder

open RemoteControl.Foundations.ByteStrings
open RemoteControl.Foundations.Fifo
open RemoteControl.Foundations.Transition
open RemoteControl.Wire.Protocol
open RemoteControl.Server.Stores
open RemoteControl.Server.Connection
open RemoteControl.Server.Loop
open RemoteControl.Server.Frame
open RemoteControl.Server.Watchdog
open RemoteControl.Server.StreamGrammar
open RemoteControl.Server.Outbound

/-! ### The connection and its writer -/

/-- Something the writer has written. A frame goes with the number of its stream: the streams
of a connection are counted from 1 in the order of their `stream_started`. -/
inductive Written where
  | control (out : Outgoing)
  | frame (stream : Nat) (bytes : Bytes)
  | bulk (m : Message)
deriving DecidableEq

/-- The LAN writer writes every message, the relay pump only texts and binaries. -/
inductive Writer where
  | lan
  | relayPump
deriving DecidableEq

def Writer.carries : Writer → Written → Bool
  | .relayPump, .control (.pong _) => false
  | _, _ => true

def toMessage (json : ServerMsg → String) : Outgoing → Message
  | .msg msg => .text (json msg)
  | .pong payload => .pong payload

def isStart : Milestone → Bool
  | .started _ => true
  | .stopped _ => false

/-- How many streams the milestones start. -/
def starts (ms : List Milestone) : Nat :=
  ms.countP isStart

/-- How many streams the milestones stop. -/
def stops (ms : List Milestone) : Nat :=
  ms.countP fun m => !isStart m

def enqueueAll (lanes : Lanes) (lane : Lane) (ms : List Message) : Lanes :=
  ms.foldl (fun lanes m => lanes.enqueue lane m) lanes

/-- One `run_connection` and its writer. `frames` are the frames the A/V queue has accepted,
each with its stream, and `wire` is what has been written. -/
structure Wired where
  session : Session
  lanes : Lanes := {}
  frames : List (Nat × Bytes) := []
  wire : List Written := []
  writing : Bool := true

namespace Wired

def conn (w : Wired) : Conn := w.session.st.conn

/-- What `outbox_video.try_send` gives. -/
def trySend (w : Wired) : TrySend :=
  if !w.writing then .closed
  else if (w.lanes.queue .video).waiting.length < outboundVideoCap then .ok
  else .full

/-- The number of the stream whose worker makes the frames now. -/
def stream (w : Wired) : Nat :=
  starts (milestones w.conn.outbox)

/-- The queues after a step of the connection: what it has pushed and offered is in them, and
a connection that is over has dropped its senders. -/
def after (json : ServerMsg → String) (w : Wired) (session : Session) : Wired :=
  let pushed := session.st.conn.outbox.drop w.conn.outbox.length
  let offered := session.st.conn.outboxVideo.drop w.conn.outboxVideo.length
  let lanes := enqueueAll w.lanes .control (pushed.map (toMessage json))
  let lanes := enqueueAll lanes .video (offered.map .binary)
  { w with
    session
    lanes :=
      if session.running then lanes
      else (lanes.dropSenders .control).dropSenders .video
    frames := w.frames ++ offered.map fun bytes => (w.stream, bytes) }

/-- What a message taken from the arm that is polled next is. -/
def next (w : Wired) : Option Written :=
  let n := (w.lanes.queue w.lanes.arm).taken.length
  match w.lanes.arm with
  | .control => (w.conn.outbox[n]?).map .control
  | .video => (w.frames[n]?).map fun frame => .frame frame.1 frame.2
  | .bulk => ((w.lanes.queue .bulk).waiting.head?).map .bulk

/-- One arm of the writer's `select!` is polled. -/
def write (writer : Writer) (w : Wired) : Wired :=
  match w.lanes.poll with
  | (.pending, lanes) => { w with lanes }
  | (.closed, lanes) => { w with lanes, writing := false }
  | (.message _, lanes) =>
      { w with lanes, wire := w.wire ++ w.next.toList.filter writer.carries }

end Wired

inductive Action where
  | connection (label : Label)
  | bulk (bytes : Bytes)
  | write
  | writeFails

/-- The `try_send` of a packet gave what the A/V queue gives. -/
def Fits (w : Wired) : Label → Prop
  | .taken (.packet (some _) sent) _ _ => sent = w.trySend
  | _ => True

inductive WiredStep (crates : Crates) (cfg : Config) (json : ServerMsg → String)
    (writer : Writer) : Wired → Action → Wired → Prop
  | connection {w : Wired} {label : Label} {session : Session} :
      Step crates cfg w.session label session → Fits w label →
      WiredStep crates cfg json writer w (.connection label) (w.after json session)
  | bulk {w : Wired} {bytes : Bytes} {lanes : Lanes} :
      w.lanes.send .bulk (.binary bytes) = some lanes →
      WiredStep crates cfg json writer w (.bulk bytes) { w with lanes }
  | write {w : Wired} : w.writing = true →
      WiredStep crates cfg json writer w .write (w.write writer)
  | writeFails {w : Wired} : w.writing = true →
      WiredStep crates cfg json writer w .writeFails { w with writing := false }

def wired (crates : Crates) (cfg : Config) (json : ServerMsg → String) (writer : Writer) :
    System Wired Action where
  init w := ∃ session, Starts session ∧ w = { session }
  step := WiredStep crates cfg json writer

/-! ### The order on the wire -/

def Written.milestone : Written → Option Milestone
  | .control out => Frame.milestone out
  | _ => none

/-- The `stream_started` and `stream_stopped` that have been written. -/
def told (wire : List Written) : List Milestone :=
  wire.filterMap Written.milestone

/-- Before every frame of a stream on the wire, the `stream_stopped` of that stream has not
been written, and no `stream_started` of a later one. -/
def InTime (wire : List Written) : Prop :=
  ∀ before stream bytes rest, wire = before ++ .frame stream bytes :: rest →
    stops (told before) < stream ∧ starts (told before) ≤ stream

/-- The frames that wait in the A/V queue. -/
def Wired.queued (w : Wired) : List (Nat × Bytes) :=
  w.frames.drop (w.lanes.queue .video).taken.length

/-- The writer takes a `stream_stopped` next. -/
def Wired.Stopping (w : Wired) : Prop :=
  w.lanes.arm = .control ∧
    ∃ streamId reason m, w.next = some (.control (.msg (.streamStopped streamId reason m)))

/-- When the writer takes the `stream_stopped` of a stream, no frame of that stream waits in
the A/V queue, unless the connection is over. -/
def Drained (w : Wired) : Action → Wired → Prop
  | .write, _ => w.Stopping → w.lanes.hasSender .control = true →
      ∀ frame ∈ w.queued, frame.1 ≠ stops (told w.wire) + 1
  | _, _ => True

/-! ### The queues -/

@[simp] theorem enqueueAll_arm (lanes : Lanes) (lane : Lane) (ms : List Message) :
    (enqueueAll lanes lane ms).arm = lanes.arm := by
  induction ms generalizing lanes with
  | nil => rfl
  | cons m rest ih => exact ih _

@[simp] theorem enqueueAll_hasSender (lanes : Lanes) (lane : Lane) (ms : List Message) :
    (enqueueAll lanes lane ms).hasSender = lanes.hasSender := by
  induction ms generalizing lanes with
  | nil => rfl
  | cons m rest ih => exact ih _

@[simp] theorem enqueueAll_taken (lanes : Lanes) (lane other : Lane) (ms : List Message) :
    ((enqueueAll lanes lane ms).queue other).taken = (lanes.queue other).taken := by
  induction ms generalizing lanes with
  | nil => rfl
  | cons m rest ih =>
      refine (ih _).trans ?_
      by_cases hlane : other = lane
      · subst hlane
        simp [Lanes.enqueue]
      · simp [Lanes.enqueue, Function.update_of_ne hlane]

theorem enqueueAll_waiting (lanes : Lanes) (lane : Lane) (ms : List Message) :
    ((enqueueAll lanes lane ms).queue lane).waiting = (lanes.queue lane).waiting ++ ms := by
  induction ms generalizing lanes with
  | nil => simp [enqueueAll]
  | cons m rest ih =>
      refine (ih _).trans ?_
      simp [Lanes.enqueue]

theorem enqueueAll_waiting_of_ne (lanes : Lanes) {lane other : Lane} (h : other ≠ lane)
    (ms : List Message) :
    ((enqueueAll lanes lane ms).queue other).waiting = (lanes.queue other).waiting := by
  induction ms generalizing lanes with
  | nil => rfl
  | cons m rest ih =>
      refine (ih _).trans ?_
      simp [Lanes.enqueue, Function.update_of_ne h]

theorem poll_cases (lanes : Lanes) :
    (∃ m rest, (lanes.queue lanes.arm).pop? = some (m, rest) ∧
        lanes.poll = (.message m,
          { lanes with queue := Function.update lanes.queue lanes.arm rest, arm := .control })) ∨
      ((lanes.queue lanes.arm).waiting = [] ∧ lanes.hasSender lanes.arm = true ∧
        lanes.poll = (.pending, { lanes with arm := lanes.arm.next })) ∨
      ((lanes.queue lanes.arm).waiting = [] ∧ lanes.hasSender lanes.arm = false ∧
        lanes.poll = (.closed, lanes)) := by
  unfold Lanes.poll
  cases hpop : (lanes.queue lanes.arm).pop? with
  | some popped => exact .inl ⟨popped.1, popped.2, rfl, rfl⟩
  | none =>
      have hempty := Queue.pop?_eq_none_iff.mp hpop
      cases hsender : lanes.hasSender lanes.arm with
      | true => exact .inr (.inl ⟨hempty, rfl, rfl⟩)
      | false => exact .inr (.inr ⟨hempty, rfl, rfl⟩)

/-! ### Counting streams -/

@[simp] theorem starts_append (xs ys : List Milestone) :
    starts (xs ++ ys) = starts xs + starts ys :=
  List.countP_append

@[simp] theorem stops_append (xs ys : List Milestone) :
    stops (xs ++ ys) = stops xs + stops ys :=
  List.countP_append

theorem stops_le_of_isPrefix {xs ys : List Milestone} (h : xs <+: ys) : stops xs ≤ stops ys :=
  h.sublist.countP_le

theorem starts_eq {ms : List Milestone} {active : Option String} (h : Lifecycle ms active) :
    starts ms = stops ms + active.toList.length := by
  induction h with
  | nil => rfl
  | start id _ ih => simpa [starts, stops, isStart] using ih
  | stop _ ih => simpa [starts, stops, isStart] using ih

theorem told_append (xs ys : List Written) : told (xs ++ ys) = told xs ++ told ys :=
  List.filterMap_append

theorem told_filter (writer : Writer) (wire : List Written) :
    told (wire.filter writer.carries) = told wire := by
  induction wire with
  | nil => rfl
  | cons w rest ih =>
      cases hcarries : writer.carries w with
      | true =>
          rw [List.filter_cons_of_pos hcarries, ← List.singleton_append, told_append, ih,
            ← told_append, List.singleton_append]
      | false =>
          have hpong : w.milestone = none := by
            rcases w with ⟨_ | payload⟩ | _ | _ <;>
              first | rfl | (cases writer <;> simp [Writer.carries] at hcarries)
          rw [List.filter_cons_of_neg (by simp [hcarries]), ih]
          simp [told, hpong]

/-! ### Invariants -/

variable {crates : Crates} {cfg : Config} {json : ServerMsg → String} {writer : Writer}

/-- Where the messages of the connection are: a queue has got what was pushed to it, and what
has been taken from the control queue is on the wire. -/
structure Placed (w : Wired) : Prop where
  streams : StreamInv w.session
  control : (w.lanes.queue .control).sent.length = w.conn.outbox.length
  video : (w.lanes.queue .video).sent.length = w.frames.length
  wire : told w.wire =
    milestones (w.conn.outbox.take (w.lanes.queue .control).taken.length)
  senders : w.lanes.hasSender .control = w.session.running

/-- No frame of a stream that is stopped on the wire can still be taken: once the connection
is over and the control queue is polled, the writer takes nothing else. -/
def NoneLeft (w : Wired) : Prop :=
  w.lanes.hasSender .control = true ∨ w.lanes.arm ≠ .control →
    ∀ frame ∈ w.queued, stops (told w.wire) < frame.1

/-- What one step of the connection pushes and offers. -/
structure Output (s t : Session) : Prop where
  pushed : s.st.conn.outbox <+: t.st.conn.outbox
  offered : s.st.conn.outboxVideo <+: t.st.conn.outboxVideo
  streaming : t.st.conn.outboxVideo ≠ s.st.conn.outboxVideo →
    s.running = true ∧ s.st.conn.activeStream.isSome = true
  running : t.running = true → s.running = true

theorem step_output {s t : Session} {label : Label} (h : Step crates cfg s label t) :
    Output s t := by
  have hpushed := (step_extends h).outbox
  cases h with
  | others hothers =>
      have hconn := others_conn hothers
      refine ⟨hpushed, ?_, ?_, id⟩
      · exact hconn ▸ List.prefix_rfl
      · exact fun hne => absurd (congrArg Conn.outboxVideo hconn) hne
  | again hrunning hready hiter =>
      have hmove := (iteration_moves hiter).1
      refine ⟨hpushed, hmove.offered, fun hne => ⟨hrunning, ?_⟩, fun _ => hrunning⟩
      obtain ⟨frame, rfl⟩ := hmove.offering hne
      exact hready
  | finish hrunning hready hiter hend =>
      have hmove := (iteration_moves hiter).1
      have hframes := (teardown_down hend).frames
      refine ⟨hpushed, ?_, fun hne => ⟨hrunning, ?_⟩, nofun⟩
      · exact hmove.offered.trans (hframes ▸ List.prefix_rfl)
      · obtain ⟨frame, rfl⟩ := hmove.offering fun heq => hne (hframes.trans heq)
        exact hready

section

variable (w : Wired) (session : Session)

@[simp] theorem after_session : (w.after json session).session = session := rfl

@[simp] theorem after_wire : (w.after json session).wire = w.wire := rfl

@[simp] theorem after_arm : (w.after json session).lanes.arm = w.lanes.arm := by
  dsimp only [Wired.after]
  split <;> simp [Lanes.dropSenders]

@[simp] theorem after_taken (lane : Lane) :
    ((w.after json session).lanes.queue lane).taken = (w.lanes.queue lane).taken := by
  dsimp only [Wired.after]
  split <;> simp [Lanes.dropSenders]

theorem after_waiting_control :
    ((w.after json session).lanes.queue .control).waiting =
      (w.lanes.queue .control).waiting ++
        (session.st.conn.outbox.drop w.conn.outbox.length).map (toMessage json) := by
  dsimp only [Wired.after]
  have hvideo : Lane.control ≠ .video := by decide
  split <;> simp [Lanes.dropSenders, enqueueAll_waiting_of_ne _ hvideo, enqueueAll_waiting]

theorem after_waiting_video :
    ((w.after json session).lanes.queue .video).waiting =
      (w.lanes.queue .video).waiting ++
        (session.st.conn.outboxVideo.drop w.conn.outboxVideo.length).map .binary := by
  dsimp only [Wired.after]
  have hcontrol : Lane.video ≠ .control := by decide
  split <;> simp [Lanes.dropSenders, enqueueAll_waiting_of_ne _ hcontrol, enqueueAll_waiting]

theorem after_hasSender :
    (w.after json session).lanes.hasSender .control =
      (session.running && w.lanes.hasSender .control) := by
  dsimp only [Wired.after]
  cases session.running <;> simp [Lanes.dropSenders, Function.update]

end

theorem length_append_drop {α : Type} {xs ys : List α} (h : xs <+: ys) :
    xs.length + (ys.drop xs.length).length = ys.length := by
  have := h.length_le
  simp
  omega

theorem placed_after {w : Wired} {session : Session} {label : Label} (hw : Placed w)
    (hstep : Step crates cfg w.session label session) : Placed (w.after json session) := by
  have hout := step_output hstep
  have htaken : (w.lanes.queue .control).taken.length ≤ w.conn.outbox.length := by
    have := hw.control
    simp only [Queue.sent, List.length_append] at this
    omega
  refine ⟨streamInv_step hw.streams hstep, ?_, ?_, ?_, ?_⟩
  · have hlength := length_append_drop hout.pushed
    have hbefore := hw.control
    simp only [Queue.sent, List.length_append, after_taken, after_waiting_control,
      List.length_map] at hbefore ⊢
    simp only [Wired.conn, after_session] at hbefore hlength ⊢
    omega
  · have hbefore := hw.video
    simp only [Queue.sent, List.length_append, after_taken, after_waiting_video,
      List.length_map] at hbefore ⊢
    simp only [Wired.after, List.length_append, List.length_map]
    omega
  · rw [after_wire, after_taken, hw.wire]
    obtain ⟨rest, hrest⟩ := hout.pushed
    have hconn : (w.after json session).conn.outbox = w.conn.outbox ++ rest := hrest.symm
    rw [hconn, List.take_append_of_le_length htaken]
  · rw [after_hasSender, after_session, hw.senders]
    cases hrunning : session.running with
    | false => rfl
    | true => rw [hout.running hrunning, Bool.true_and]

theorem inTime_snoc {wire : List Written} {w : Written} :
    InTime (wire ++ [w]) ↔ InTime wire ∧ ∀ stream bytes, w = .frame stream bytes →
      stops (told wire) < stream ∧ starts (told wire) ≤ stream := by
  constructor
  · refine fun h => ⟨?_, ?_⟩
    · rintro before stream bytes rest rfl
      exact h before stream bytes (rest ++ [w]) (by simp)
    · rintro stream bytes rfl
      exact h wire stream bytes [] rfl
  · rintro ⟨hwire, hlast⟩ before stream bytes rest heq
    rcases List.eq_nil_or_concat rest with rfl | ⟨rest, last, rfl⟩
    · obtain ⟨rfl, hw⟩ := List.append_inj' heq rfl
      exact hlast _ _ (List.singleton_inj.mp hw)
    · have hsplit : wire ++ [w] = (before ++ .frame stream bytes :: rest) ++ [last] := by
        rw [heq]
        simp
      exact hwire before stream bytes rest (List.append_inj' hsplit rfl).1

/-- What polling one arm does to a connection whose queues hold what was pushed. -/
inductive WriteMove (w w' : Wired) : Prop
  | control (out : Outgoing) (arm : w.lanes.arm = .control)
      (next : w.next = some (.control out)) (arm' : w'.lanes.arm = .control)
      (taken : (w'.lanes.queue .control).taken.length =
        (w.lanes.queue .control).taken.length + 1)
      (pushed : w.conn.outbox[(w.lanes.queue .control).taken.length]? = some out)
      (wire : w'.wire = w.wire ∨ w'.wire = w.wire ++ [.control out])
      (told : told w'.wire = told w.wire ++ (milestone out).toList)
      (queued : w'.queued = w.queued) (writing : w'.writing = w.writing)
  | video (stream : Nat) (bytes : Bytes) (arm : w.lanes.arm = .video)
      (arm' : w'.lanes.arm = .control)
      (queued : w.queued = (stream, bytes) :: w'.queued)
      (taken : (w'.lanes.queue .control).taken = (w.lanes.queue .control).taken)
      (wire : w'.wire = w.wire ++ [.frame stream bytes])
  | other (wire : w'.wire = w.wire ∨ ∃ m, w'.wire = w.wire ++ [.bulk m])
      (taken : (w'.lanes.queue .control).taken = (w.lanes.queue .control).taken)
      (queued : w'.queued = w.queued)
      (reaches : w.lanes.hasSender .control = true ∨ w.lanes.arm ≠ .control ∨
        w'.lanes.arm = .control)
      (idle : w.lanes.arm = .bulk ∨ (w.lanes.queue w.lanes.arm).waiting = [])

theorem write_session (w : Wired) : (w.write writer).session = w.session := by
  unfold Wired.write
  split <;> rfl

theorem write_frames (w : Wired) : (w.write writer).frames = w.frames := by
  unfold Wired.write
  split <;> rfl

theorem write_hasSender (w : Wired) :
    (w.write writer).lanes.hasSender = w.lanes.hasSender := by
  unfold Wired.write
  rcases poll_cases w.lanes with ⟨m, rest, -, hpoll⟩ | ⟨-, -, hpoll⟩ | ⟨-, -, hpoll⟩
  all_goals rw [hpoll]

theorem entry_of_pop {α β : Type} {q q' : Queue α} {a : α} {entries : List β}
    (hpop : q.pop? = some (a, q')) (hlength : q.sent.length = entries.length) :
    ∃ b, entries[q.taken.length]? = some b ∧
      entries.drop q.taken.length = b :: entries.drop q'.taken.length := by
  have hlt : q.taken.length < entries.length := by
    simp only [Queue.sent, Queue.pop?_waiting hpop, List.length_append,
      List.length_cons] at hlength
    omega
  refine ⟨entries[q.taken.length], List.getElem?_eq_getElem hlt, ?_⟩
  rw [Queue.pop?_taken hpop, List.length_append, List.length_singleton]
  exact List.drop_eq_getElem_cons hlt

theorem write_moves (writer : Writer) {w : Wired} (hw : Placed w) :
    WriteMove w (w.write writer) := by
  rcases poll_cases w.lanes with ⟨m, rest, hpop, hpoll⟩ | ⟨hempty, hsender, hpoll⟩ |
    ⟨hempty, hsender, hpoll⟩
  · have hwrite : w.write writer =
        { w with
          lanes :=
            { w.lanes with
              queue := Function.update w.lanes.queue w.lanes.arm rest, arm := .control }
          wire := w.wire ++ w.next.toList.filter writer.carries } := by
      simp only [Wired.write, hpoll]
    cases harm : w.lanes.arm with
    | control =>
        rw [harm] at hpop hwrite
        obtain ⟨out, hout, -⟩ := entry_of_pop hpop hw.control
        have hnext : w.next = some (.control out) := by
          simp [Wired.next, harm, hout]
        have hwire : (w.write writer).wire = w.wire ∨
            (w.write writer).wire = w.wire ++ [.control out] := by
          rw [hwrite, hnext]
          cases hcarries : writer.carries (.control out) with
          | true => exact .inr (by simp [hcarries])
          | false => exact .inl (by simp [hcarries])
        refine .control out harm hnext ?_ ?_ hout hwire ?_ ?_ ?_
        · rw [hwrite]
        · rw [hwrite]
          simp [Queue.pop?_taken hpop]
        · rw [hwrite, told_append, told_filter, hnext]
          rfl
        · rw [hwrite]
          simp [Wired.queued]
        · rw [hwrite]
    | video =>
        rw [harm] at hpop hwrite
        obtain ⟨⟨stream, bytes⟩, hframe, hdrop⟩ := entry_of_pop hpop hw.video
        have hnext : w.next = some (.frame stream bytes) := by
          simp [Wired.next, harm, hframe]
        have hcarries : writer.carries (.frame stream bytes) = true := by
          cases writer <;> rfl
        refine .video stream bytes harm ?_ ?_ ?_ ?_
        · rw [hwrite]
        · rw [hwrite]
          simpa [Wired.queued] using hdrop
        · rw [hwrite]
          simp
        · rw [hwrite, hnext]
          simp [hcarries]
    | bulk =>
        rw [harm] at hpop hwrite
        have hnext : w.next = some (.bulk m) := by
          simp [Wired.next, harm, Queue.pop?_waiting hpop]
        have hcarries : writer.carries (.bulk m) = true := by
          cases writer <;> rfl
        refine .other (.inr ⟨m, ?_⟩) ?_ ?_ (.inr (.inl (by simp [harm]))) (.inl harm)
        · rw [hwrite, hnext]
          simp [hcarries]
        · rw [hwrite]
          simp
        · rw [hwrite]
          simp [Wired.queued]
  · have hwrite : w.write writer =
        { w with lanes := { w.lanes with arm := w.lanes.arm.next } } := by
      simp only [Wired.write, hpoll]
    refine .other (.inl (by rw [hwrite])) (by rw [hwrite]) (by rw [hwrite]; rfl) ?_ (.inr hempty)
    by_cases harm : w.lanes.arm = .control
    · rw [harm] at hsender
      exact .inl hsender
    · exact .inr (.inl harm)
  · have hwrite : w.write writer = { w with writing := false } := by
      simp only [Wired.write, hpoll]
    refine .other (.inl (by rw [hwrite])) (by rw [hwrite]) (by rw [hwrite]; rfl) ?_ (.inr hempty)
    by_cases harm : w.lanes.arm = .control
    · exact .inr (.inr (by rw [hwrite]; exact harm))
    · exact .inr (.inl harm)

theorem sent_length_write {w : Wired} (lane : Lane) :
    ((w.write writer).lanes.queue lane).sent = (w.lanes.queue lane).sent := by
  unfold Wired.write
  rcases poll_cases w.lanes with ⟨m, rest, hpop, hpoll⟩ | ⟨-, -, hpoll⟩ | ⟨-, -, hpoll⟩
  all_goals rw [hpoll]
  by_cases hlane : lane = w.lanes.arm
  · subst hlane
    simpa using Queue.pop?_sent hpop
  · simp [Function.update_of_ne hlane]

theorem placed_write {w : Wired} (hw : Placed w) : Placed (w.write writer) := by
  have hconn : (w.write writer).conn = w.conn := congrArg (fun s => s.st.conn) (write_session w)
  refine ⟨?_, ?_, ?_, ?_, ?_⟩
  · rw [write_session]
    exact hw.streams
  · rw [sent_length_write, hconn]
    exact hw.control
  · rw [sent_length_write, write_frames]
    exact hw.video
  · rw [hconn]
    cases write_moves writer hw with
    | control out _ _ _ taken pushed _ told _ _ =>
        rw [told, hw.wire, taken, List.take_add_one, pushed, milestones_append]
        cases hout : milestone out <;> simp [milestones, hout]
    | video stream bytes _ _ _ taken wire =>
        rw [taken, ← hw.wire, wire, told_append]
        simp [told, Written.milestone]
    | other wire taken _ _ _ =>
        rw [taken, ← hw.wire]
        rcases wire with wire | ⟨m, wire⟩
        · rw [wire]
        · rw [wire, told_append]
          simp [told, Written.milestone]
  · rw [write_hasSender, write_session]
    exact hw.senders

theorem bulk_frame {lanes lanes' : Lanes} {m : Message} (h : lanes.send .bulk m = some lanes') :
    lanes'.queue .control = lanes.queue .control ∧ lanes'.queue .video = lanes.queue .video ∧
      lanes'.hasSender = lanes.hasSender ∧ lanes'.arm = lanes.arm := by
  unfold Lanes.send at h
  split at h
  · dsimp only at h
    split at h
    · cases h
      exact ⟨rfl, rfl, rfl, rfl⟩
    · cases h
  · cases h

theorem placed_step {w w' : Wired} {action : Action} (hw : Placed w)
    (hstep : WiredStep crates cfg json writer w action w') : Placed w' := by
  cases hstep with
  | connection hstep _ => exact placed_after hw hstep
  | write => exact placed_write hw
  | writeFails => exact ⟨hw.streams, hw.control, hw.video, hw.wire, hw.senders⟩
  | bulk hsend =>
      obtain ⟨hcontrol, hvideo, hsender, -⟩ := bulk_frame hsend
      obtain ⟨streams, control, video, wire, senders⟩ := hw
      refine ⟨streams, ?_, ?_, ?_, ?_⟩
      · exact (congrArg (fun q => q.sent.length) hcontrol).trans control
      · exact (congrArg (fun q => q.sent.length) hvideo).trans video
      · refine wire.trans ?_
        dsimp only
        rw [hcontrol]
        rfl
      · exact (congrFun hsender _).trans senders

theorem placed {w : Wired} (hw : (wired crates cfg json writer).Reachable w) : Placed w := by
  refine System.Reachable.invariant (I := Placed) ?_ ?_ hw
  · rintro w ⟨session, hstart, rfl⟩
    obtain ⟨connId, peerLabel, world, rfl⟩ := hstart
    exact ⟨streamInv_start ⟨_, _, _, rfl⟩, rfl, rfl, rfl, rfl⟩
  · intro w action w' _ hw hstep
    exact placed_step hw hstep

/-! ### Frames in time -/

theorem stops_told_le {w : Wired} (hw : Placed w) :
    stops (told w.wire) ≤ stops (milestones w.conn.outbox) := by
  rw [hw.wire]
  refine stops_le_of_isPrefix ?_
  exact (List.take_prefix _ _).filterMap _

theorem starts_told_le {w : Wired} (hw : Placed w) :
    starts (told w.wire) ≤ stops (told w.wire) + 1 := by
  obtain ⟨active, hgrammar⟩ := hw.streams.grammar
  have hpre : told w.wire <+: milestones w.conn.outbox := by
    rw [hw.wire]
    exact (List.take_prefix _ _).filterMap _
  obtain ⟨before, hbefore⟩ := hgrammar.of_isPrefix hpre
  have hcount := starts_eq hbefore
  have hone : before.toList.length ≤ 1 := by
    cases before <;> simp
  omega

theorem offered_noneLeft {w : Wired} {session : Session} (hw : Placed w)
    (hout : Output w.session session) :
    ∀ bytes ∈ session.st.conn.outboxVideo.drop w.conn.outboxVideo.length,
      stops (told w.wire) < w.stream := by
  intro bytes hmem
  have hnew : session.st.conn.outboxVideo ≠ w.session.st.conn.outboxVideo := by
    intro heq
    rw [heq] at hmem
    simp [Wired.conn] at hmem
  obtain ⟨hrunning, hactive⟩ := hout.streaming hnew
  have hcount := starts_eq (hw.streams.streaming hrunning).grammar
  obtain ⟨handle, hhandle⟩ := Option.isSome_iff_exists.mp hactive
  have hone : (activeId w.session.st.conn).toList.length = 1 := by
    simp [activeId, hhandle]
  have hle := stops_told_le hw
  simp only [Wired.stream, Wired.conn] at hle ⊢
  omega

theorem noneLeft_step {w w' : Wired} {action : Action} (hw : Placed w) (hleft : NoneLeft w)
    (hstep : WiredStep crates cfg json writer w action w') (hdrained : Drained w action w') :
    NoneLeft w' := by
  cases hstep with
  | @connection label session hstep _ =>
      have hout := step_output hstep
      intro hreaches frame hmem
      have hearlier : w.lanes.hasSender .control = true ∨ w.lanes.arm ≠ .control := by
        rcases hreaches with hsender | harm
        · rw [after_hasSender, Bool.and_eq_true] at hsender
          exact .inl hsender.2
        · exact .inr (by simpa using harm)
      have hmem : frame ∈ (w.frames ++ (session.st.conn.outboxVideo.drop
          w.conn.outboxVideo.length).map fun bytes => (w.stream, bytes)).drop
            (w.lanes.queue .video).taken.length := by
        rw [Wired.queued, after_taken] at hmem
        exact hmem
      have htaken : (w.lanes.queue .video).taken.length ≤ w.frames.length := by
        have := hw.video
        simp only [Queue.sent, List.length_append] at this
        omega
      rw [List.drop_append_of_le_length htaken] at hmem
      rcases List.mem_append.mp hmem with hold | hnew
      · exact hleft hearlier frame hold
      · obtain ⟨bytes, hbytes, rfl⟩ := List.mem_map.mp hnew
        exact offered_noneLeft hw hout bytes hbytes
  | bulk hsend =>
      obtain ⟨-, hvideo, hsender, harm⟩ := bulk_frame hsend
      intro hreaches frame hmem
      refine hleft ?_ frame ?_
      · rwa [← hsender, ← harm]
      · simpa [Wired.queued, hvideo] using hmem
  | write _ =>
      cases write_moves writer hw with
      | control out arm next arm' taken pushed wire told queued writing =>
          intro hreaches frame hmem
          rw [queued] at hmem
          have hsender : w.lanes.hasSender .control = true := by
            rw [write_hasSender] at hreaches
            exact hreaches.resolve_right (by simp [arm'])
          have hlater := hleft (.inl hsender) frame hmem
          have hother : (∃ streamId reason m, out = .msg (.streamStopped streamId reason m)) →
              frame.1 ≠ stops (WireOrder.told w.wire) + 1 := by
            rintro ⟨streamId, reason, m, rfl⟩
            exact hdrained ⟨arm, streamId, reason, m, next⟩ hsender frame hmem
          rw [told, stops_append]
          rcases out with ⟨_ | _ | _ | _ | _ | _ | _ | _ | _ | _⟩ | payload
          case msg.streamStopped streamId reason m =>
            have := hother ⟨streamId, reason, m, rfl⟩
            simp only [milestone, Option.toList_some, stops, isStart] at this ⊢
            simp only [stops, isStart] at hlater
            simp
            omega
          all_goals simpa [milestone, stops, isStart] using hlater
      | video stream bytes arm arm' queued taken wire =>
          intro _ frame hmem
          have htold : told (w.write writer).wire = told w.wire := by
            rw [wire, told_append]
            simp [told, Written.milestone]
          rw [htold]
          refine hleft (.inr (by simp [arm])) frame ?_
          rw [queued]
          exact List.mem_cons_of_mem _ hmem
      | other wire taken queued reaches _ =>
          intro hreaches frame hmem
          have htold : told (w.write writer).wire = told w.wire := by
            rcases wire with wire | ⟨m, wire⟩
            · rw [wire]
            · rw [wire, told_append]
              simp [told, Written.milestone]
          rw [htold]
          rw [queued] at hmem
          refine hleft ?_ frame hmem
          rw [write_hasSender] at hreaches
          rcases reaches with hsender | harm | harm'
          · exact .inl hsender
          · exact .inr harm
          · exact .inl (hreaches.resolve_right (by simp [harm']))
  | writeFails _ => exact hleft

theorem inTime_step {w w' : Wired} {action : Action} (hw : Placed w) (hleft : NoneLeft w)
    (hstep : WiredStep crates cfg json writer w action w') (htime : InTime w.wire) :
    InTime w'.wire := by
  cases hstep with
  | connection hstep _ => exact htime
  | bulk hsend => exact htime
  | writeFails _ => exact htime
  | write _ =>
      cases write_moves writer hw with
      | control out arm next arm' taken pushed wire told queued writing =>
          rcases wire with wire | wire
          · rw [wire]
            exact htime
          · rw [wire]
            exact inTime_snoc.mpr ⟨htime, nofun⟩
      | video stream bytes arm arm' queued taken wire =>
          rw [wire]
          refine inTime_snoc.mpr ⟨htime, ?_⟩
          rintro stream' bytes' heq
          cases heq
          have hlater : stops (told w.wire) < stream := by
            refine hleft (.inr (by simp [arm])) (stream, bytes) ?_
            rw [queued]
            exact List.mem_cons_self
          have hstarts := starts_told_le hw
          omega
      | other wire taken queued reaches _ =>
          rcases wire with wire | ⟨m, wire⟩
          · rw [wire]
            exact htime
          · rw [wire]
            exact inTime_snoc.mpr ⟨htime, nofun⟩

theorem inTime_of_drained {w : Wired}
    (hw : ((wired crates cfg json writer).restrict Drained).Reachable w) :
    NoneLeft w ∧ InTime w.wire := by
  induction hw with
  | init h =>
      obtain ⟨session, -, rfl⟩ := h
      refine ⟨fun _ => by simp [Wired.queued], ?_⟩
      intro before stream bytes rest heq
      simp at heq
  | step hreach h ih =>
      have hplaced := placed hreach.of_restrict
      exact ⟨noneLeft_step hplaced ih.1 h.1 h.2, inTime_step hplaced ih.1 h.1 ih.2⟩

/-! ### Frames too late -/

/-- The writer runs, is about to poll the control queue, and the connection is not over. -/
structure Poised (w : Wired) : Prop where
  writing : w.writing = true
  arm : w.lanes.arm = .control
  sender : w.lanes.hasSender .control = true

theorem poised_of_pop (writer : Writer) {w : Wired} {m : Message} {rest : Queue Message}
    (hwriting : w.writing = true) (hsender : w.lanes.hasSender .control = true)
    (hpop : (w.lanes.queue w.lanes.arm).pop? = some (m, rest)) :
    Poised (w.write writer) ∧ ((w.write writer).lanes.queue w.lanes.arm) = rest ∧
      ∀ lane, lane ≠ w.lanes.arm → (w.write writer).lanes.queue lane = w.lanes.queue lane := by
  have hpoll : w.lanes.poll = (.message m,
      { w.lanes with
        queue := Function.update w.lanes.queue w.lanes.arm rest
        arm := .control }) := by
    simp only [Lanes.poll, hpop]
  have hwrite : (w.write writer).lanes =
      { w.lanes with
        queue := Function.update w.lanes.queue w.lanes.arm rest
        arm := .control } := by
    simp only [Wired.write, hpoll]
  refine ⟨⟨?_, ?_, ?_⟩, ?_, ?_⟩
  · simp only [Wired.write, hpoll]
    exact hwriting
  · rw [hwrite]
  · rw [hwrite]
    exact hsender
  · rw [hwrite]
    simp
  · intro lane hlane
    rw [hwrite]
    simp [Function.update_of_ne hlane]

theorem run_write {w : Wired} (hwriting : w.writing = true) :
    (wired crates cfg json writer).Run w [.write] (w.write writer) :=
  .single (WiredStep.write hwriting)

theorem drain_control (crates : Crates) (cfg : Config) (json : ServerMsg → String)
    (writer : Writer) {w : Wired} (hw : Placed w) (hpoised : Poised w) :
    ∃ labels u, (wired crates cfg json writer).Run w labels u ∧ Placed u ∧ Poised u ∧
      (u.lanes.queue .control).waiting = [] ∧ u.queued = w.queued ∧
      stops (told w.wire) ≤ stops (told u.wire) := by
  induction hlen : (w.lanes.queue .control).waiting.length generalizing w with
  | zero =>
      exact ⟨[], w, .nil w, hw, hpoised, List.length_eq_zero_iff.mp hlen, rfl, le_refl _⟩
  | succ n ih =>
      obtain ⟨m, waiting, hwaiting⟩ := List.exists_cons_of_length_eq_add_one hlen
      have hsome : (w.lanes.queue .control).pop? ≠ none := by
        rw [Ne, Queue.pop?_eq_none_iff, hwaiting]
        exact List.cons_ne_nil _ _
      obtain ⟨⟨m', rest⟩, hpop⟩ := Option.ne_none_iff_exists'.mp hsome
      have hpop : (w.lanes.queue w.lanes.arm).pop? = some (m', rest) := by
        rw [hpoised.arm]
        exact hpop
      obtain ⟨hnext, hrest, -⟩ :=
        poised_of_pop writer hpoised.writing hpoised.sender hpop
      have hlen' : ((w.write writer).lanes.queue .control).waiting.length = n := by
        rw [hpoised.arm] at hrest hpop
        have hcons := Queue.pop?_waiting hpop
        rw [hrest]
        simp only [hcons, List.length_cons] at hlen
        omega
      obtain ⟨labels, u, hrun, hplaced, hu, hempty, hqueued, hstops⟩ :=
        ih (placed_write hw) hnext hlen'
      refine ⟨[.write] ++ labels, u, (run_write hpoised.writing).append hrun,
        hplaced, hu, hempty, ?_, ?_⟩
      · rw [hqueued]
        cases write_moves writer hw with
        | control _ _ _ _ _ _ _ _ queued _ => exact queued
        | video _ _ arm => simp [hpoised.arm] at arm
        | other _ _ queued _ _ => exact queued
      · refine le_trans ?_ hstops
        cases write_moves writer hw with
        | control _ _ _ _ _ _ _ told _ _ =>
            rw [told, stops_append]
            exact Nat.le_add_right _ _
        | video _ _ arm => simp [hpoised.arm] at arm
        | other wire _ _ _ _ =>
            rcases wire with wire | ⟨m, wire⟩
            · rw [wire]
            · rw [wire, told_append, stops_append]
              exact Nat.le_add_right _ _

theorem take_frame (crates : Crates) (cfg : Config) (json : ServerMsg → String)
    (writer : Writer) {w : Wired} (hw : Placed w) (hpoised : Poised w)
    (hempty : (w.lanes.queue .control).waiting = []) {stream : Nat} {bytes : Bytes}
    {queued : List (Nat × Bytes)} (hqueued : w.queued = (stream, bytes) :: queued) :
    ∃ u, (wired crates cfg json writer).Run w [.write, .write] u ∧ Placed u ∧ Poised u ∧
      (u.lanes.queue .control).waiting = [] ∧ u.queued = queued ∧
      u.wire = w.wire ++ [.frame stream bytes] := by
  have hpoll : w.lanes.poll = (.pending, { w.lanes with arm := .video }) := by
    rw [Lanes.poll, hpoised.arm, Queue.pop?_eq_none_iff.mpr hempty]
    simp only [hpoised.sender]
    rfl
  have hfirst : w.write writer = { w with lanes := { w.lanes with arm := .video } } := by
    simp only [Wired.write, hpoll]
  have hmid : Placed (w.write writer) := placed_write hw
  have hsome : (w.lanes.queue .video).pop? ≠ none := by
    intro hnone
    have hwaiting := Queue.pop?_eq_none_iff.mp hnone
    have hlength := hw.video
    rw [Queue.sent, hwaiting, List.append_nil] at hlength
    rw [Wired.queued, hlength, List.drop_length] at hqueued
    cases hqueued
  obtain ⟨⟨m, rest⟩, hpop⟩ := Option.ne_none_iff_exists'.mp hsome
  have hwriting : (w.write writer).writing = true := by
    rw [hfirst]
    exact hpoised.writing
  have hsender : (w.write writer).lanes.hasSender .control = true := by
    rw [hfirst]
    exact hpoised.sender
  have harm : (w.write writer).lanes.arm = .video := by
    rw [hfirst]
  have hpop : ((w.write writer).lanes.queue (w.write writer).lanes.arm).pop? = some (m, rest) := by
    rw [hfirst]
    exact hpop
  obtain ⟨hnext, -, hothers⟩ := poised_of_pop writer hwriting hsender hpop
  have hqueued' : (w.write writer).queued = (stream, bytes) :: queued := by
    rw [hfirst]
    exact hqueued
  refine ⟨(w.write writer).write writer, (run_write hpoised.writing).append (run_write hwriting),
    placed_write hmid, hnext, ?_, ?_, ?_⟩
  · rw [hothers .control (by simp [harm]), hfirst]
    exact hempty
  all_goals
    cases write_moves writer hmid with
    | control _ arm => simp [harm] at arm
    | video stream' bytes' _ _ queued' _ wire =>
        rw [hqueued'] at queued'
        cases queued'
        first | rfl | rw [wire, hfirst]
    | other _ _ _ _ idle =>
        rcases idle with hbulk | hwaiting
        · simp [harm] at hbulk
        · rw [Queue.pop?_eq_none_iff.mpr hwaiting] at hpop
          cases hpop

theorem written_late {w : Wired} (hw : Placed w) (hpoised : Poised w)
    (hempty : (w.lanes.queue .control).waiting = []) {frame : Nat × Bytes}
    (hmem : frame ∈ w.queued) (hlate : frame.1 ≤ stops (told w.wire)) :
    ∃ labels u, (wired crates cfg json writer).Run w labels u ∧ ¬InTime u.wire := by
  induction hqueued : w.queued generalizing w with
  | nil => simp [hqueued] at hmem
  | cons first rest ih =>
      obtain ⟨u, hrun, hplaced, hu, hempty', hqueued', hwire⟩ :=
        take_frame crates cfg json writer hw hpoised hempty hqueued
      rw [hqueued] at hmem
      rcases List.mem_cons.mp hmem with rfl | hmem
      · refine ⟨_, u, hrun, ?_⟩
        rw [hwire, inTime_snoc]
        rintro ⟨-, hlast⟩
        have := (hlast _ _ rfl).1
        omega
      · have htold : told u.wire = told w.wire := by
          rw [hwire, told_append]
          simp [told, Written.milestone]
        obtain ⟨labels, v, hrun', hv⟩ := ih hplaced hu hempty' (by rwa [hqueued'])
          (by rwa [htold]) hqueued'
        exact ⟨_, v, hrun.append hrun', hv⟩

theorem undrained_late {w w' : Wired} {action : Action} (hw : Placed w)
    (hstep : WiredStep crates cfg json writer w action w') (hdrained : ¬Drained w action w') :
    ∃ labels u, (wired crates cfg json writer).Run w' labels u ∧ ¬InTime u.wire := by
  cases hstep with
  | connection | bulk | writeFails => exact absurd trivial hdrained
  | write hwriting =>
      simp only [Drained, Classical.not_imp, not_forall, not_not] at hdrained
      obtain ⟨⟨harm, streamId, reason, m, hnext⟩, hsender, frame, hmem, hnumber⟩ := hdrained
      have hmove := write_moves writer hw
      cases hmove with
      | video _ _ arm => simp [harm] at arm
      | other _ _ _ _ idle =>
          rcases idle with hbulk | hwaiting
          · simp [harm] at hbulk
          · have hlength := hw.control
            rw [harm] at hwaiting
            rw [Queue.sent, hwaiting, List.append_nil] at hlength
            simp [Wired.next, harm, hlength] at hnext
      | control out arm next arm' taken pushed wire told queued writing =>
          cases next.symm.trans hnext
          have hpoised : Poised (w.write writer) := by
            refine ⟨writing.trans hwriting, arm', ?_⟩
            rw [write_hasSender]
            exact hsender
          obtain ⟨labels, u, hrun, hplaced, hu, hempty, hqueued, hstops⟩ :=
            drain_control crates cfg json writer (placed_write hw) hpoised
          have hlate : frame.1 ≤ stops (WireOrder.told u.wire) := by
            refine le_trans ?_ hstops
            rw [told, stops_append, hnumber]
            simp [milestone, stops, isStart]
          obtain ⟨labels', v, hrun', hv⟩ := written_late hplaced hu hempty
            (by rwa [hqueued, queued]) hlate
          exact ⟨_, v, hrun.append hrun', hv⟩

/-- The frames on the wire are in time in every run in which the writer takes a
`stream_stopped` only when no frame of its stream waits; and once it has taken one while such
a frame waits, the frame can go out late. -/
theorem inTime_iff_drained (crates : Crates) (cfg : Config) (json : ServerMsg → String)
    (writer : Writer) :
    (∀ w, ((wired crates cfg json writer).restrict Drained).Reachable w → InTime w.wire) ∧
      ∀ w action w', (wired crates cfg json writer).Reachable w →
        (wired crates cfg json writer).step w action w' → ¬Drained w action w' →
          ∃ labels u, (wired crates cfg json writer).Run w' labels u ∧ ¬InTime u.wire := by
  constructor
  · intro w hw
    exact (inTime_of_drained hw).2
  · intro w action w' hw hstep hdrained
    exact undrained_late (placed hw) hstep hdrained

/-! ### A frame that is left behind -/

def plainJson : ServerMsg → String := fun _ => "\x7b\x7d"

def firstFrame : Bytes := buildVideoFrame [0x65] 0 true true

/-- A branch of the select in which every operation succeeds. -/
def Wired.take (event : Event) (w : Wired) : Wired :=
  w.after plainJson (undisturbed streamingCrates bareConfig event smoothAnswers w.session)

def unwritten : Wired :=
  { session := .start 0 "10.0.0.2:5000" bareWorld }

/-- A phone has paired and started a stream, and both replies are written. -/
def answered : Wired :=
  (((unwritten.take (.inbox (some (.text helloText)))).take
    (.inbox (some (.text streamRequestText)))).write .lan).write .lan

/-- A frame waits in the A/V queue when the stream worker exits. -/
def leftBehind : Wired :=
  ((((answered.take (.packet (some firstFrame) .ok)).take (.packet none .ok)).write .lan).write
    .lan).write .lan

/-- The frame is written before the stream worker exits. -/
def flushed : Wired :=
  ((((answered.take (.packet (some firstFrame) .ok)).write .lan).write .lan).take
    (.packet none .ok)).write .lan

theorem take_step {w : Wired} (event : Event) (hrunning : w.session.running = true)
    (hready : Ready w.session event)
    (hcont : ((iteration streamingCrates bareConfig smoothAnswers event).run
      w.session.st).1 = true)
    (hfits : ∀ trace, Fits w (.taken event smoothAnswers trace)) :
    ∃ label, (wired streamingCrates bareConfig plainJson .lan).step w (.connection label)
      (w.take event) := by
  obtain ⟨trace, hstep⟩ := exists_undisturbed hrunning hready hcont
  exact ⟨_, .connection hstep (hfits trace)⟩

theorem write_step {w : Wired} (hwriting : w.writing = true) :
    (wired streamingCrates bareConfig plainJson .lan).step w .write (w.write .lan) :=
  .write hwriting

theorem drained_of_queued_nil {w w' : Wired} (h : w.queued = []) : Drained w .write w' := by
  intro _ _ frame hmem
  rw [h] at hmem
  cases hmem

theorem answered_reachable :
    ((wired streamingCrates bareConfig plainJson .lan).restrict Drained).Reachable answered := by
  have hstart : ((wired streamingCrates bareConfig plainJson .lan).restrict Drained).Reachable
      unwritten := .init ⟨_, ⟨_, _, _, rfl⟩, rfl⟩
  obtain ⟨_, hhello⟩ := take_step (w := unwritten) (.inbox (some (.text helloText))) rfl trivial
    (by decide +kernel) fun _ => trivial
  have hpaired := System.Reachable.step hstart ⟨hhello, trivial⟩
  obtain ⟨_, hrequest⟩ := take_step (w := unwritten.take (.inbox (some (.text helloText))))
    (.inbox (some (.text streamRequestText))) rfl trivial (by decide +kernel) fun _ => trivial
  have hstreaming := System.Reachable.step hpaired ⟨hrequest, trivial⟩
  have hwelcomed := hstreaming.step
    ⟨write_step rfl, drained_of_queued_nil (by decide +kernel)⟩
  exact hwelcomed.step
    ⟨write_step (by decide +kernel), drained_of_queued_nil (by decide +kernel)⟩

theorem offer_step :
    ∃ label, (wired streamingCrates bareConfig plainJson .lan).step answered (.connection label)
      (answered.take (.packet (some firstFrame) .ok)) :=
  take_step _ (by decide +kernel) (by decide +kernel : Option.isSome _ = true)
    (by decide +kernel) fun _ => (by decide +kernel : TrySend.ok = answered.trySend)

theorem exit_step {w : Wired} (hrunning : w.session.running = true)
    (hactive : w.conn.activeStream.isSome = true)
    (hcont : ((iteration streamingCrates bareConfig smoothAnswers (.packet none .ok)).run
      w.session.st).1 = true) :
    ∃ label, (wired streamingCrates bareConfig plainJson .lan).step w (.connection label)
      (w.take (.packet none .ok)) :=
  take_step _ hrunning hactive hcont fun _ => trivial

theorem flushed_reachable :
    ((wired streamingCrates bareConfig plainJson .lan).restrict Drained).Reachable flushed := by
  obtain ⟨_, hoffer⟩ := offer_step
  have hoffered := answered_reachable.step ⟨hoffer, trivial⟩
  have hnone : (answered.take (.packet (some firstFrame) .ok)).next = none := by
    decide +kernel
  have hidle := hoffered.step ⟨write_step (by decide +kernel), fun ⟨_, _, _, _, hnext⟩ =>
    absurd (hnone.symm.trans hnext) (by simp)⟩
  have hwritten := hidle.step
    ⟨write_step (by decide +kernel), fun ⟨harm, _⟩ => absurd harm (by decide +kernel)⟩
  obtain ⟨_, hexit⟩ := exit_step (w := ((answered.take (.packet (some firstFrame) .ok)).write
    .lan).write .lan) (by decide +kernel) (by decide +kernel) (by decide +kernel)
  have hexited := hwritten.step ⟨hexit, trivial⟩
  exact hexited.step ⟨write_step (by decide +kernel), drained_of_queued_nil (by decide +kernel)⟩

theorem inTime_iff_drained_flushed :
    flushed.wire.getLast? = some (.control (.msg (.streamStopped "s1" .encoderError
      "stream worker exited"))) ∧ InTime flushed.wire := by
  refine ⟨?_, (inTime_iff_drained _ _ _ _).1 _ flushed_reachable⟩
  decide +kernel

theorem leftBehind_reachable :
    (wired streamingCrates bareConfig plainJson .lan).Reachable leftBehind := by
  obtain ⟨_, hoffer⟩ := offer_step
  have hoffered := answered_reachable.of_restrict.step hoffer
  obtain ⟨_, hexit⟩ := exit_step (w := answered.take (.packet (some firstFrame) .ok))
    (by decide +kernel) (by decide +kernel) (by decide +kernel)
  have hexited := hoffered.step hexit
  have hstopped := hexited.step (write_step (by decide +kernel))
  have hidle := hstopped.step (write_step (by decide +kernel))
  exact hidle.step (write_step (by decide +kernel))

/-- The writer takes `stream_stopped` first and the frame of that stream after it. -/
theorem leftBehind_late :
    ¬∀ (crates : Crates) (cfg : Config) (json : ServerMsg → String) (writer : Writer) (w : Wired),
      (wired crates cfg json writer).Reachable w → InTime w.wire := by
  intro hclaim
  have htime := hclaim _ _ _ _ _ leftBehind_reachable
  have hlast : leftBehind.wire = leftBehind.wire.take 3 ++ .frame 1 firstFrame :: [] := by
    decide +kernel
  have hearlier := (htime _ _ _ _ hlast).1
  revert hearlier
  decide +kernel

end RemoteControl.Server.WireOrder
