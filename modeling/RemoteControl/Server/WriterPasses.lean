import RemoteControl.Foundations.Histories
import RemoteControl.Server.WireOrder

/-!
The passes of the writer over the three outbound queues, one poll at a time, while the connection
and the file streamers push to them and at last let go of them.
-/

namespace RemoteControl.Server.WriterPasses

open RemoteControl.Foundations.ByteStrings
open RemoteControl.Foundations.Fifo
open RemoteControl.Foundations.Histories
open RemoteControl.Foundations.Transition
open RemoteControl.Foundations.Transition.System
open RemoteControl.Wire.Protocol
open RemoteControl.Server.Connection
open RemoteControl.Server.Outbound
open RemoteControl.Server.WireOrder

/-! ### The writer -/

inductive Handling where
  | written
  | skipped
  | stopped
deriving DecidableEq

/-- What a writer does with a message that it has received. -/
def handle : Writer → Message → Handling
  | .lan, _ => .written
  | .relayPump, .text _ | .relayPump, .binary _ => .written
  | .relayPump, .close => .stopped
  | .relayPump, _ => .skipped

/-- A chunk that a streamer waits to send, with the number of control messages that had been
pushed when it began to. -/
structure Offer where
  bytes : Bytes
  pushed : Nat
deriving DecidableEq

/-- `control` is what was pushed to the control queue, and `stamps` are the numbers of control
messages that had been pushed before the pushes of what waits in the other two began. On the
`wire` a control message is told by its place among them, and anything else by its stamp.
`run_connection` drops its senders as its parameters go out of scope, the last one first:
`dropped` counts them. -/
structure Passes where
  lanes : Lanes := {}
  control : List Outgoing := []
  stamps : Lane → List Nat := fun _ => []
  offers : List Offer := []
  streamers : Nat := 0
  dropped : Nat := 0
  wire : List (Lane × Nat) := []
  writing : Bool := true
  failed : Bool := false

namespace Passes

/-- A frame or a chunk has got into its queue. -/
def enter (s : Passes) (lane : Lane) (bytes : Bytes) (stamp : Nat) : Passes :=
  { s with
    lanes := s.lanes.enqueue lane (.binary bytes)
    stamps := Function.update s.stamps lane (s.stamps lane ++ [stamp]) }

/-- The message that is taken next from the arm that is polled. -/
def next (s : Passes) : Lane × Nat :=
  match s.lanes.arm with
  | .control => (.control, (s.lanes.queue .control).taken.length)
  | lane => (lane, (s.stamps lane).headD 0)

/-- One arm of the `select!` is polled. -/
def poll (writer : Writer) (s : Passes) : Passes :=
  match s.lanes.poll with
  | (.pending, lanes) => { s with lanes }
  | (.closed, lanes) => { s with lanes, writing := false }
  | (.message m, lanes) =>
      let stamps := Function.update s.stamps s.lanes.arm (s.stamps s.lanes.arm).tail
      match handle writer m with
      | .written => { s with lanes, stamps, wire := s.wire ++ [s.next] }
      | .skipped => { s with lanes, stamps }
      | .stopped => { s with lanes, stamps, writing := false }

/-- `run_connection` drops its next sender. A streamer has a clone of the bulk one. -/
def drop (s : Passes) : Option Passes :=
  match s.dropped with
  | 0 =>
      some
        { s with
          dropped := 1
          lanes := if s.streamers = 0 then s.lanes.dropSenders .bulk else s.lanes }
  | 1 => some { s with dropped := 2, lanes := s.lanes.dropSenders .video }
  | 2 => some { s with dropped := 3, lanes := s.lanes.dropSenders .control }
  | _ => none

end Passes

/-- `push` and `offer` are the connection's sends to the control and the A/V queue, `spawn` a
new streamer; a streamer begins to send a chunk, gets it in, and ends. -/
inductive Event where
  | push (out : Outgoing)
  | offer (bytes : Bytes)
  | spawn
  | beginChunk (bytes : Bytes)
  | accept (i : Nat)
  | ended
  | drop
  | poll
  | sinkFails

namespace Passes

/-- Sends to a writer that has ended fail. -/
def act (json : ServerMsg → String) (writer : Writer) (s : Passes) : Event → Option Passes
  | .push out =>
      if s.dropped = 0 then
        if s.writing then
          some
            { s with
              lanes := s.lanes.enqueue .control (toMessage json out)
              control := s.control ++ [out] }
        else some s
      else none
  | .offer bytes =>
      if s.dropped = 0 then
        if s.writing ∧ (s.lanes.queue .video).waiting.length < outboundVideoCap then
          some (s.enter .video bytes s.control.length)
        else some s
      else none
  | .spawn => if s.dropped = 0 then some { s with streamers := s.streamers + 1 } else none
  | .beginChunk bytes =>
      if s.offers.length < s.streamers then
        some { s with offers := s.offers ++ [⟨bytes, s.control.length⟩] }
      else none
  | .accept i => do
      let o ← s.offers[i]?
      if s.writing then
        if (s.lanes.queue .bulk).waiting.length < outboundBulkCap then
          some ({ s with offers := s.offers.eraseIdx i }.enter .bulk o.bytes o.pushed)
        else none
      else some { s with offers := s.offers.eraseIdx i }
  | .ended =>
      if s.offers.length < s.streamers then
        some
          { s with
            streamers := s.streamers - 1
            lanes :=
              if s.streamers = 1 ∧ 0 < s.dropped then s.lanes.dropSenders .bulk else s.lanes }
      else none
  | .drop => s.drop
  | .poll => if s.writing then some (s.poll writer) else none
  | .sinkFails => if s.writing then some { s with writing := false, failed := true } else none

end Passes

/-- A connection with its streamers and its writer. -/
def passes (json : ServerMsg → String) (writer : Writer) : System Passes Event where
  init s := s = {}
  step s event t := s.act json writer event = some t

/-! ### Cause before effect -/

/-- The writer puts the control message with this number on the wire, if it gets to it. -/
def Carried (json : ServerMsg → String) (writer : Writer) (s : Passes) (k : Nat) : Prop :=
  ∃ out, s.control[k]? = some out ∧ handle writer (toMessage json out) = .written

/-- A frame or a chunk is on the wire behind every control message that had been pushed before
its own push began. -/
def Ordered (json : ServerMsg → String) (writer : Writer) (s : Passes) : Prop :=
  Each (fun before entry => entry.1 ≠ .control →
    ∀ k < entry.2, Carried json writer s k → (.control, k) ∈ before) s.wire

/-- The writer has polled the control queue, and polls this one before it does so again. -/
def Upcoming (lanes : Lanes) (lane : Lane) : Prop :=
  lane ≠ .control ∧
    (lanes.arm = lane ∨ lanes.arm = .video ∧ lane = .bulk ∧ (lanes.queue .video).waiting = [])

/-- The queue that a message gets into, and its stamp. -/
def entering (s : Passes) : Event → Option (Lane × Nat)
  | .offer _ =>
      if (s.lanes.queue .video).waiting.length < outboundVideoCap then
        some (.video, s.control.length)
      else none
  | .accept i => s.offers[i]?.map fun o => (.bulk, o.pushed)
  | _ => none

/-- No message gets into an empty queue that is polled before the control queue while a control
message waits that had been pushed before. -/
def Unexposed (json : ServerMsg → String) (writer : Writer) (s : Passes) (event : Event)
    (_ : Passes) : Prop :=
  ∀ lane stamp, entering s event = some (lane, stamp) → Upcoming s.lanes lane →
    (s.lanes.queue lane).waiting = [] →
      ∀ k < stamp, Carried json writer s k → k < (s.lanes.queue .control).taken.length

/-! ### What every step keeps -/

section

variable {json : ServerMsg → String} {writer : Writer}

@[simp]
theorem enqueue_self (lanes : Lanes) (lane : Lane) (m : Message) :
    (lanes.enqueue lane m).queue lane = (lanes.queue lane).push m :=
  Function.update_self ..

@[simp]
theorem enqueue_ne (lanes : Lanes) {lane other : Lane} (h : other ≠ lane) (m : Message) :
    (lanes.enqueue lane m).queue other = lanes.queue other :=
  Function.update_of_ne h ..

@[simp]
theorem enqueue_arm (lanes : Lanes) (lane : Lane) (m : Message) :
    (lanes.enqueue lane m).arm = lanes.arm :=
  rfl

@[simp]
theorem enqueue_hasSender (lanes : Lanes) (lane : Lane) (m : Message) :
    (lanes.enqueue lane m).hasSender = lanes.hasSender :=
  rfl

theorem handle_toMessage (writer : Writer) (out : Outgoing) :
    handle writer (toMessage json out) ≠ .stopped := by
  cases writer <;> cases out <;> simp [handle, toMessage]

theorem handle_binary (writer : Writer) (bytes : Bytes) :
    handle writer (.binary bytes) = .written := by
  cases writer <;> rfl

theorem handle_text (writer : Writer) (msg : ServerMsg) :
    handle writer (toMessage json (.msg msg)) = .written := by
  cases writer <;> rfl

/-- The queues and the wire fit what was pushed. -/
structure Steady (json : ServerMsg → String) (writer : Writer) (s : Passes) : Prop where
  control : (s.lanes.queue .control).sent = s.control.map (toMessage json)
  stamps : ∀ lane ≠ .control, (s.stamps lane).length = (s.lanes.queue lane).waiting.length
  binary : ∀ lane ≠ .control, ∀ m ∈ (s.lanes.queue lane).waiting, ∃ bytes, m = .binary bytes
  bounded : ∀ lane, ∀ stamp ∈ s.stamps lane, stamp ≤ s.control.length
  offered : ∀ o ∈ s.offers, o.pushed ≤ s.control.length
  wire : ∀ entry ∈ s.wire, entry.2 ≤ s.control.length
  taken : ∀ k, (.control, k) ∈ s.wire → k < (s.lanes.queue .control).taken.length
  written : ∀ k, Carried json writer s k → k < (s.lanes.queue .control).taken.length →
    (.control, k) ∈ s.wire

theorem carried_push {s : Passes} {out : Outgoing} {k : Nat} (hk : k < s.control.length)
    {lanes : Lanes} :
    Carried json writer { s with lanes, control := s.control ++ [out] } k ↔
      Carried json writer s k := by
  simp only [Carried, List.getElem?_append_left hk]

theorem Steady.push {s : Passes} (h : Steady json writer s) (out : Outgoing) :
    Steady json writer
      { s with
        lanes := s.lanes.enqueue .control (toMessage json out)
        control := s.control ++ [out] } where
  control := by simp [h.control]
  stamps lane hlane := by
    rw [enqueue_ne _ hlane]
    exact h.stamps lane hlane
  binary lane hlane := by
    rw [enqueue_ne _ hlane]
    exact h.binary lane hlane
  bounded lane stamp hstamp := by
    rw [List.length_append]
    exact Nat.le_add_right_of_le (h.bounded lane stamp hstamp)
  offered o ho := by
    rw [List.length_append]
    exact Nat.le_add_right_of_le (h.offered o ho)
  wire entry hentry := by
    rw [List.length_append]
    exact Nat.le_add_right_of_le (h.wire entry hentry)
  taken k hk := by
    rw [enqueue_self]
    exact h.taken k hk
  written k hcarried hk := by
    rw [enqueue_self] at hk
    have hlength := congrArg List.length h.control
    rw [Queue.sent, List.length_append, List.length_map] at hlength
    have hlt : k < s.control.length := by
      simp only [Queue.push_taken] at hk
      omega
    exact h.written k ((carried_push hlt).mp hcarried) hk

theorem Steady.enter {s : Passes} (h : Steady json writer s) {lane : Lane}
    (hlane : lane ≠ .control) (bytes : Bytes) {stamp : Nat} (hstamp : stamp ≤ s.control.length) :
    Steady json writer (s.enter lane bytes stamp) where
  control := by
    show ((s.lanes.enqueue lane _).queue .control).sent = _
    rw [enqueue_ne _ hlane.symm]
    exact h.control
  stamps other hother := by
    show (Function.update s.stamps lane _ other).length = _
    by_cases heq : other = lane
    · subst heq
      simp [Passes.enter, h.stamps other hother]
    · rw [Function.update_of_ne heq]
      simp [Passes.enter, heq, h.stamps other hother]
  binary other hother m hm := by
    by_cases heq : other = lane
    · subst heq
      simp only [Passes.enter, enqueue_self, Queue.push_waiting] at hm
      rcases List.mem_append.mp hm with hm | hm
      · exact h.binary other hother m hm
      · exact ⟨bytes, List.mem_singleton.mp hm⟩
    · simp only [Passes.enter, enqueue_ne _ heq] at hm
      exact h.binary other hother m hm
  bounded other st hst := by
    by_cases heq : other = lane
    · subst heq
      simp only [Passes.enter, Function.update_self] at hst
      rcases List.mem_append.mp hst with hst | hst
      · exact h.bounded other st hst
      · exact List.mem_singleton.mp hst ▸ hstamp
    · simp only [Passes.enter, Function.update_of_ne heq] at hst
      exact h.bounded other st hst
  offered := h.offered
  wire := h.wire
  taken k hk := by
    show k < ((s.lanes.enqueue lane _).queue .control).taken.length
    rw [enqueue_ne _ hlane.symm]
    exact h.taken k hk
  written k hcarried hk := by
    change k < ((s.lanes.enqueue lane _).queue .control).taken.length at hk
    rw [enqueue_ne _ hlane.symm] at hk
    exact h.written k hcarried hk

/-! ### One poll -/

/-- The queues after a message was taken. -/
def take (lanes : Lanes) (rest : Queue Message) : Lanes :=
  { lanes with queue := Function.update lanes.queue lanes.arm rest, arm := .control }

theorem next_control {s : Passes} (harm : s.lanes.arm = .control) :
    s.next = (.control, (s.lanes.queue .control).taken.length) := by
  simp only [Passes.next, harm]

theorem next_of_ne {s : Passes} (harm : s.lanes.arm ≠ .control) :
    s.next = (s.lanes.arm, (s.stamps s.lanes.arm).headD 0) := by
  unfold Passes.next
  split
  next h => exact absurd h harm
  · rfl

theorem Steady.head {s : Passes} (h : Steady json writer s) {m : Message} {rest : Queue Message}
    (hpop : (s.lanes.queue .control).pop? = some (m, rest)) :
    ∃ out, s.control[(s.lanes.queue .control).taken.length]? = some out ∧
      m = toMessage json out := by
  have hsent := h.control
  rw [Queue.sent, Queue.pop?_waiting hpop] at hsent
  have hget := congrArg (·[(s.lanes.queue .control).taken.length]?) hsent
  simp only [List.getElem?_append_right (Nat.le_refl _), Nat.sub_self, List.getElem?_cons_zero,
    List.getElem?_map] at hget
  obtain ⟨out, hout, hm⟩ := Option.map_eq_some_iff.mp hget.symm
  exact ⟨out, hout, hm.symm⟩

/-- What a poll does to the writer. -/
inductive PollMove (json : ServerMsg → String) (writer : Writer) (s : Passes) : Passes → Prop
  | control {out : Outgoing} {rest : Queue Message} (harm : s.lanes.arm = .control)
      (hpop : (s.lanes.queue .control).pop? = some (toMessage json out, rest))
      (hout : s.control[(s.lanes.queue .control).taken.length]? = some out) :
      PollMove json writer s
        { s with
          lanes := take s.lanes rest
          stamps := Function.update s.stamps .control (s.stamps .control).tail
          wire :=
            if handle writer (toMessage json out) = .written then
              s.wire ++ [(.control, (s.lanes.queue .control).taken.length)]
            else s.wire }
  | other {m : Message} {rest : Queue Message} (harm : s.lanes.arm ≠ .control)
      (hpop : (s.lanes.queue s.lanes.arm).pop? = some (m, rest)) :
      PollMove json writer s
        { s with
          lanes := take s.lanes rest
          stamps := Function.update s.stamps s.lanes.arm (s.stamps s.lanes.arm).tail
          wire := s.wire ++ [(s.lanes.arm, (s.stamps s.lanes.arm).headD 0)] }
  | pending (hempty : (s.lanes.queue s.lanes.arm).waiting = [])
      (hsender : s.lanes.hasSender s.lanes.arm = true) :
      PollMove json writer s { s with lanes := { s.lanes with arm := s.lanes.arm.next } }
  | closed (hempty : (s.lanes.queue s.lanes.arm).waiting = [])
      (hsender : s.lanes.hasSender s.lanes.arm = false) :
      PollMove json writer s { s with writing := false }

theorem Steady.pollMove {s : Passes} (h : Steady json writer s) :
    PollMove json writer s (s.poll writer) := by
  unfold Passes.poll
  rcases poll_cases s.lanes with ⟨m, rest, hpop, hpoll⟩ | ⟨hempty, hsender, hpoll⟩ |
    ⟨hempty, hsender, hpoll⟩
  · simp only [hpoll]
    by_cases harm : s.lanes.arm = .control
    · rw [harm] at hpop
      obtain ⟨out, hout, rfl⟩ := h.head hpop
      have hmove : PollMove json writer s _ := .control harm hpop hout
      rw [next_control harm]
      cases hhandle : handle writer (toMessage json out) with
      | written => simpa [hhandle, take, harm] using hmove
      | skipped => simpa [hhandle, take, harm] using hmove
      | stopped => exact absurd hhandle (handle_toMessage writer out)
    · obtain ⟨bytes, rfl⟩ := h.binary s.lanes.arm harm m (by simp [Queue.pop?_waiting hpop])
      rw [handle_binary, next_of_ne harm]
      exact .other harm hpop
  · simp only [hpoll]
    exact .pending hempty hsender
  · simp only [hpoll]
    exact .closed hempty hsender

theorem Steady.congr {s t : Passes} (h : Steady json writer s)
    (hqueue : t.lanes.queue = s.lanes.queue) (hcontrol : t.control = s.control)
    (hstamps : t.stamps = s.stamps) (hwire : t.wire = s.wire)
    (hoffers : ∀ o ∈ t.offers, o.pushed ≤ s.control.length) : Steady json writer t := by
  obtain ⟨lanes, control, stamps, offers, streamers, dropped, wire, writing, failed⟩ := t
  obtain ⟨queue, hasSender, arm⟩ := lanes
  obtain rfl : queue = s.lanes.queue := hqueue
  obtain rfl : control = s.control := hcontrol
  obtain rfl : stamps = s.stamps := hstamps
  obtain rfl : wire = s.wire := hwire
  exact ⟨h.control, h.stamps, h.binary, h.bounded, hoffers, h.wire, h.taken, h.written⟩

theorem take_self (lanes : Lanes) (rest : Queue Message) :
    (take lanes rest).queue lanes.arm = rest :=
  Function.update_self ..

theorem take_ne (lanes : Lanes) {other : Lane} (h : other ≠ lanes.arm) (rest : Queue Message) :
    (take lanes rest).queue other = lanes.queue other :=
  Function.update_of_ne h ..

theorem bounded_tail {s : Passes} {n : Nat} (h : ∀ lane, ∀ stamp ∈ s.stamps lane, stamp ≤ n)
    (lane other : Lane) :
    ∀ stamp ∈ Function.update s.stamps lane (s.stamps lane).tail other, stamp ≤ n := by
  intro stamp hstamp
  by_cases heq : other = lane
  · subst heq
    rw [Function.update_self] at hstamp
    exact h other stamp (List.mem_of_mem_tail hstamp)
  · rw [Function.update_of_ne heq] at hstamp
    exact h other stamp hstamp

theorem Steady.takeControl {s : Passes} (h : Steady json writer s) {out : Outgoing}
    {rest : Queue Message} (harm : s.lanes.arm = .control)
    (hpop : (s.lanes.queue .control).pop? = some (toMessage json out, rest))
    (hout : s.control[(s.lanes.queue .control).taken.length]? = some out) :
    Steady json writer
      { s with
        lanes := take s.lanes rest
        stamps := Function.update s.stamps .control (s.stamps .control).tail
        wire :=
          if handle writer (toMessage json out) = .written then
            s.wire ++ [(.control, (s.lanes.queue .control).taken.length)]
          else s.wire } := by
  have hself : (take s.lanes rest).queue .control = rest := by
    rw [← harm, take_self]
  have hne {lane : Lane} (hlane : lane ≠ .control) :
      (take s.lanes rest).queue lane = s.lanes.queue lane := by
    rw [take_ne s.lanes (harm ▸ hlane)]
  have hwire : ∀ entry ∈ (if handle writer (toMessage json out) = .written then
        s.wire ++ [(.control, (s.lanes.queue .control).taken.length)]
      else s.wire), entry ∈ s.wire ∨
        entry = (.control, (s.lanes.queue .control).taken.length) := by
    intro entry hentry
    split at hentry
    · exact (List.mem_append.mp hentry).imp_right List.mem_singleton.mp
    · exact .inl hentry
  constructor
  · show ((take s.lanes rest).queue .control).sent = _
    rw [hself, Queue.pop?_sent hpop]
    exact h.control
  · intro lane hlane
    show (Function.update s.stamps .control _ lane).length =
      ((take s.lanes rest).queue lane).waiting.length
    rw [hne hlane, Function.update_of_ne hlane]
    exact h.stamps lane hlane
  · intro lane hlane
    show ∀ m ∈ ((take s.lanes rest).queue lane).waiting, _
    rw [hne hlane]
    exact h.binary lane hlane
  · exact bounded_tail h.bounded .control
  · exact h.offered
  · intro entry hentry
    rcases hwire entry hentry with hentry | rfl
    · exact h.wire entry hentry
    · exact Nat.le_of_lt (List.getElem?_eq_some_iff.mp hout).1
  · intro k hk
    show k < ((take s.lanes rest).queue .control).taken.length
    rw [hself, Queue.pop?_taken hpop, List.length_append, List.length_singleton]
    rcases hwire _ hk with hk | hk
    · exact Nat.lt_succ_of_lt (h.taken k hk)
    · obtain rfl := congrArg Prod.snd hk
      exact Nat.lt_succ_self _
  · intro k hcarried hk
    change k < ((take s.lanes rest).queue .control).taken.length at hk
    rw [hself, Queue.pop?_taken hpop, List.length_append, List.length_singleton] at hk
    dsimp only
    rcases Nat.lt_succ_iff_lt_or_eq.mp hk with hk | rfl
    · have hmem := h.written k hcarried hk
      split
      · exact List.mem_append_left _ hmem
      · exact hmem
    · obtain ⟨out', hout', hhandle⟩ := hcarried
      obtain rfl := Option.some.inj (hout.symm.trans hout')
      rw [if_pos hhandle]
      exact List.mem_append_right _ (List.mem_singleton_self _)

theorem Steady.takeOther {s : Passes} (h : Steady json writer s) {m : Message}
    {rest : Queue Message} (harm : s.lanes.arm ≠ .control)
    (hpop : (s.lanes.queue s.lanes.arm).pop? = some (m, rest)) :
    Steady json writer
      { s with
        lanes := take s.lanes rest
        stamps := Function.update s.stamps s.lanes.arm (s.stamps s.lanes.arm).tail
        wire := s.wire ++ [(s.lanes.arm, (s.stamps s.lanes.arm).headD 0)] } := by
  have hcontrol : (take s.lanes rest).queue .control = s.lanes.queue .control := by
    rw [take_ne s.lanes (Ne.symm harm)]
  constructor
  · show ((take s.lanes rest).queue .control).sent = _
    rw [hcontrol]
    exact h.control
  · intro lane hlane
    show (Function.update s.stamps s.lanes.arm _ lane).length =
      ((take s.lanes rest).queue lane).waiting.length
    by_cases heq : lane = s.lanes.arm
    · subst heq
      have hlength := h.stamps s.lanes.arm hlane
      rw [Queue.pop?_waiting hpop, List.length_cons] at hlength
      rw [take_self, Function.update_self, List.length_tail, hlength, Nat.add_sub_cancel]
    · rw [take_ne s.lanes heq, Function.update_of_ne heq]
      exact h.stamps lane hlane
  · intro lane hlane
    show ∀ m ∈ ((take s.lanes rest).queue lane).waiting, _
    by_cases heq : lane = s.lanes.arm
    · subst heq
      rw [take_self]
      intro m' hm'
      refine h.binary s.lanes.arm hlane m' ?_
      rw [Queue.pop?_waiting hpop]
      exact List.mem_cons_of_mem _ hm'
    · rw [take_ne s.lanes heq]
      exact h.binary lane hlane
  · exact bounded_tail h.bounded s.lanes.arm
  · exact h.offered
  · intro entry hentry
    rcases List.mem_append.mp hentry with hentry | hentry
    · exact h.wire entry hentry
    · obtain rfl := List.mem_singleton.mp hentry
      rw [List.headD_eq_head?_getD]
      cases hstamps : (s.stamps s.lanes.arm).head? with
      | none => exact Nat.zero_le _
      | some stamp => exact h.bounded _ stamp (List.mem_of_mem_head? hstamps)
  · intro k hk
    show k < ((take s.lanes rest).queue .control).taken.length
    rw [hcontrol]
    rcases List.mem_append.mp hk with hk | hk
    · exact h.taken k hk
    · exact absurd (congrArg Prod.fst (List.mem_singleton.mp hk)).symm harm
  · intro k hcarried hk
    change k < ((take s.lanes rest).queue .control).taken.length at hk
    rw [hcontrol] at hk
    exact List.mem_append_left _ (h.written k hcarried hk)

theorem Steady.poll {s t : Passes} (h : Steady json writer s) (hmove : PollMove json writer s t) :
    Steady json writer t := by
  cases hmove with
  | control harm hpop hout => exact h.takeControl harm hpop hout
  | other harm hpop => exact h.takeOther harm hpop
  | pending _ _ => exact h.congr rfl rfl rfl rfl h.offered
  | closed _ _ => exact h.congr rfl rfl rfl rfl h.offered

theorem drop_cases {s t : Passes} (h : s.drop = some t) :
    ∃ hasSender, t = { s with dropped := s.dropped + 1, lanes := { s.lanes with hasSender } } := by
  unfold Passes.drop at h
  split at h
  next hdropped =>
    obtain rfl := Option.some.inj h
    rw [hdropped]
    split
    · exact ⟨_, rfl⟩
    · exact ⟨s.lanes.hasSender, rfl⟩
  next hdropped =>
    obtain rfl := Option.some.inj h
    rw [hdropped]
    exact ⟨_, rfl⟩
  next hdropped =>
    obtain rfl := Option.some.inj h
    rw [hdropped]
    exact ⟨_, rfl⟩
  · contradiction

theorem step_steady {s t : Passes} {event : Event} (h : Steady json writer s)
    (ht : (passes json writer).step s event t) : Steady json writer t := by
  change s.act json writer event = some t at ht
  cases event with
  | push out =>
      obtain ⟨-, ht⟩ := Option.ite_none_right_eq_some.mp ht
      split at ht
      · obtain rfl := Option.some.inj ht
        exact h.push out
      · obtain rfl := Option.some.inj ht
        exact h
  | offer bytes =>
      obtain ⟨-, ht⟩ := Option.ite_none_right_eq_some.mp ht
      split at ht
      · obtain rfl := Option.some.inj ht
        exact h.enter (by decide) bytes (Nat.le_refl _)
      · obtain rfl := Option.some.inj ht
        exact h
  | spawn =>
      obtain ⟨-, ht⟩ := Option.ite_none_right_eq_some.mp ht
      obtain rfl := Option.some.inj ht
      exact h.congr rfl rfl rfl rfl h.offered
  | beginChunk bytes =>
      obtain ⟨-, ht⟩ := Option.ite_none_right_eq_some.mp ht
      obtain rfl := Option.some.inj ht
      refine h.congr rfl rfl rfl rfl fun o ho => ?_
      rcases List.mem_append.mp ho with ho | ho
      · exact h.offered o ho
      · obtain rfl := List.mem_singleton.mp ho
        exact Nat.le_refl _
  | accept i =>
      obtain ⟨o, ho, ht⟩ := Option.bind_eq_some_iff.mp ht
      have hrest : ∀ o' ∈ s.offers.eraseIdx i, o'.pushed ≤ s.control.length := fun o' ho' =>
        h.offered o' (List.mem_of_mem_eraseIdx ho')
      split at ht
      · obtain ⟨-, ht⟩ := Option.ite_none_right_eq_some.mp ht
        obtain rfl := Option.some.inj ht
        have hsteady : Steady json writer { s with offers := s.offers.eraseIdx i } :=
          h.congr rfl rfl rfl rfl hrest
        exact hsteady.enter (by decide) o.bytes (h.offered o (List.mem_of_getElem? ho))
      · obtain rfl := Option.some.inj ht
        exact h.congr rfl rfl rfl rfl hrest
  | ended =>
      obtain ⟨-, ht⟩ := Option.ite_none_right_eq_some.mp ht
      obtain rfl := Option.some.inj ht
      refine h.congr ?_ rfl rfl rfl h.offered
      dsimp only
      split <;> rfl
  | drop =>
      obtain ⟨hasSender, rfl⟩ := drop_cases ht
      exact h.congr rfl rfl rfl rfl h.offered
  | poll =>
      obtain ⟨-, ht⟩ := Option.ite_none_right_eq_some.mp ht
      obtain rfl := Option.some.inj ht
      exact h.poll h.pollMove
  | sinkFails =>
      obtain ⟨-, ht⟩ := Option.ite_none_right_eq_some.mp ht
      obtain rfl := Option.some.inj ht
      exact h.congr rfl rfl rfl rfl h.offered

theorem steady_init : Steady json writer {} := by
  constructor <;> simp [Carried, Queue.sent]

/-! ### The order on the wire -/

/-- What the writer reaches before the next look at the control queue has nothing left to wait
for. -/
structure Causal (json : ServerMsg → String) (writer : Writer) (s : Passes) : Prop
    extends Steady json writer s where
  ordered : Ordered json writer s
  heads : ∀ lane, Upcoming s.lanes lane → ∀ stamp ∈ (s.stamps lane).head?,
    ∀ k < stamp, Carried json writer s k → k < (s.lanes.queue .control).taken.length

theorem Causal.congr {s t : Passes} (h : Causal json writer s) (ht : Steady json writer t)
    (hqueue : t.lanes.queue = s.lanes.queue) (harm : t.lanes.arm = s.lanes.arm)
    (hcontrol : t.control = s.control) (hstamps : t.stamps = s.stamps)
    (hwire : t.wire = s.wire) : Causal json writer t := by
  have hordered := h.ordered
  have hheads := h.heads
  simp only [Ordered, Carried, Upcoming, ← hqueue, ← harm, ← hcontrol, ← hstamps,
    ← hwire] at hordered hheads
  exact ⟨ht, hordered, hheads⟩

theorem Causal.push {s : Passes} (h : Causal json writer s) (out : Outgoing) :
    Causal json writer
      { s with
        lanes := s.lanes.enqueue .control (toMessage json out)
        control := s.control ++ [out] } where
  toSteady := h.toSteady.push out
  ordered before entry after hsplit hne k hk hcarried := by
    have hbound : entry.2 ≤ s.control.length := by
      refine h.wire entry ?_
      rw [show s.wire = before ++ entry :: after from hsplit]
      simp
    exact h.ordered before entry after hsplit hne k hk
      ((carried_push (Nat.lt_of_lt_of_le hk hbound)).mp hcarried)
  heads lane hupcoming stamp hstamp k hk hcarried := by
    rw [enqueue_self]
    have hbound := h.bounded lane stamp (List.mem_of_mem_head? hstamp)
    refine h.heads lane ?_ stamp hstamp k hk
      ((carried_push (Nat.lt_of_lt_of_le hk hbound)).mp hcarried)
    simpa [Upcoming] using hupcoming

theorem Causal.enter {s : Passes} (h : Causal json writer s) {lane : Lane}
    (hlane : lane ≠ .control) (bytes : Bytes) {stamp : Nat} (hstamp : stamp ≤ s.control.length)
    (hunexposed : Upcoming s.lanes lane → (s.lanes.queue lane).waiting = [] →
      ∀ k < stamp, Carried json writer s k → k < (s.lanes.queue .control).taken.length) :
    Causal json writer (s.enter lane bytes stamp) where
  toSteady := h.toSteady.enter hlane bytes hstamp
  ordered := h.ordered
  heads other hupcoming st hst := by
    have hbefore : Upcoming s.lanes other := by
      obtain ⟨hother, harm | ⟨harm, hbulk, hvideo⟩⟩ := hupcoming
      · exact ⟨hother, .inl harm⟩
      · refine ⟨hother, .inr ⟨harm, hbulk, ?_⟩⟩
        by_cases heq : .video = lane
        · subst heq
          simp [Passes.enter] at hvideo
        · simpa [Passes.enter, heq] using hvideo
    show ∀ k < st, _ → k < ((s.lanes.enqueue lane _).queue .control).taken.length
    rw [enqueue_ne _ hlane.symm]
    by_cases heq : other = lane
    · subst heq
      simp only [Passes.enter, Function.update_self] at hst
      have hlength := h.stamps other hlane
      cases hstamps : s.stamps other with
      | nil =>
          rw [hstamps] at hst hlength
          obtain rfl := Option.some.inj hst
          exact hunexposed hbefore (List.length_eq_zero_iff.mp hlength.symm)
      | cons first rest =>
          rw [hstamps] at hst
          refine h.heads other hbefore st ?_
          rwa [hstamps]
    · simp only [Passes.enter, Function.update_of_ne heq] at hst
      exact h.heads other hbefore st hst

theorem not_upcoming_control {lanes : Lanes} (harm : lanes.arm = .control) (lane : Lane) :
    ¬ Upcoming lanes lane := by
  rintro ⟨hlane, hlane' | ⟨hvideo, -⟩⟩
  · exact hlane (hlane'.symm.trans harm)
  · rw [harm] at hvideo
    contradiction

theorem Causal.poll {s t : Passes} (h : Causal json writer s)
    (hmove : PollMove json writer s t) : Causal json writer t := by
  have hsteady := h.toSteady.poll hmove
  cases hmove with
  | control harm hpop hout =>
      refine ⟨hsteady, ?_, fun lane hupcoming => absurd hupcoming (not_upcoming_control rfl lane)⟩
      unfold Ordered
      dsimp only
      split
      · exact each_concat_iff.mpr ⟨h.ordered, fun hne => absurd rfl hne⟩
      · exact h.ordered
  | other harm hpop =>
      refine ⟨hsteady, ?_, fun lane hupcoming => absurd hupcoming (not_upcoming_control rfl lane)⟩
      refine each_concat_iff.mpr ⟨h.ordered, fun _ k hk hcarried => ?_⟩
      refine h.written k hcarried (h.heads s.lanes.arm ⟨harm, .inl rfl⟩ _ ?_ k hk hcarried)
      cases hstamps : s.stamps s.lanes.arm with
      | nil =>
          rw [hstamps] at hk
          exact absurd hk (Nat.not_lt_zero k)
      | cons first rest => rfl
  | pending hempty hsender =>
      refine ⟨hsteady, h.ordered, fun lane hupcoming stamp hstamp k hk hcarried => ?_⟩
      cases harm : s.lanes.arm with
      | control =>
          -- The control queue has just been found empty.
          rw [harm] at hempty
          have hlength := congrArg List.length h.control
          rw [Queue.sent, hempty, List.append_nil, List.length_map] at hlength
          have hbound := h.bounded lane stamp (List.mem_of_mem_head? hstamp)
          show k < (s.lanes.queue .control).taken.length
          omega
      | video =>
          rw [harm] at hempty
          refine h.heads lane ?_ stamp hstamp k hk hcarried
          simp only [Upcoming, harm, Lane.next] at hupcoming
          obtain ⟨hlane, rfl | ⟨hvideo, -⟩⟩ := hupcoming
          · exact ⟨hlane, .inr ⟨harm, rfl, hempty⟩⟩
          · contradiction
      | bulk =>
          rw [harm] at hupcoming
          exact absurd hupcoming (not_upcoming_control rfl lane)
  | closed _ _ => exact h.congr hsteady rfl rfl rfl rfl rfl

theorem step_causal {s t : Passes} {event : Event} (h : Causal json writer s)
    (ht : (passes json writer).step s event t) (hunexposed : Unexposed json writer s event t) :
    Causal json writer t := by
  have hsteady := step_steady h.toSteady ht
  change s.act json writer event = some t at ht
  cases event with
  | push out =>
      obtain ⟨-, ht⟩ := Option.ite_none_right_eq_some.mp ht
      split at ht
      · obtain rfl := Option.some.inj ht
        exact h.push out
      · obtain rfl := Option.some.inj ht
        exact h
  | offer bytes =>
      obtain ⟨-, ht⟩ := Option.ite_none_right_eq_some.mp ht
      split at ht
      next hroom =>
        obtain rfl := Option.some.inj ht
        refine h.enter (by decide) bytes (Nat.le_refl _) (hunexposed .video _ ?_)
        rw [entering, if_pos hroom.2]
      · obtain rfl := Option.some.inj ht
        exact h
  | spawn =>
      obtain ⟨-, ht⟩ := Option.ite_none_right_eq_some.mp ht
      obtain rfl := Option.some.inj ht
      exact h.congr hsteady rfl rfl rfl rfl rfl
  | beginChunk bytes =>
      obtain ⟨-, ht⟩ := Option.ite_none_right_eq_some.mp ht
      obtain rfl := Option.some.inj ht
      exact h.congr hsteady rfl rfl rfl rfl rfl
  | accept i =>
      obtain ⟨o, ho, ht⟩ := Option.bind_eq_some_iff.mp ht
      have hpushed : ∀ o' ∈ s.offers.eraseIdx i, o'.pushed ≤ s.control.length := fun o' ho' =>
        h.offered o' (List.mem_of_mem_eraseIdx ho')
      have hrest : Causal json writer { s with offers := s.offers.eraseIdx i } :=
        h.congr (h.toSteady.congr rfl rfl rfl rfl hpushed) rfl rfl rfl rfl rfl
      split at ht
      · obtain ⟨-, ht⟩ := Option.ite_none_right_eq_some.mp ht
        obtain rfl := Option.some.inj ht
        refine hrest.enter (by decide) o.bytes (h.offered o (List.mem_of_getElem? ho)) ?_
        exact hunexposed .bulk o.pushed (by rw [entering, ho]; rfl)
      · obtain rfl := Option.some.inj ht
        exact hrest
  | ended =>
      obtain ⟨-, ht⟩ := Option.ite_none_right_eq_some.mp ht
      obtain rfl := Option.some.inj ht
      refine h.congr hsteady ?_ ?_ rfl rfl rfl
      · dsimp only
        split <;> rfl
      · dsimp only
        split <;> rfl
  | drop =>
      obtain ⟨hasSender, rfl⟩ := drop_cases ht
      exact h.congr hsteady rfl rfl rfl rfl rfl
  | poll =>
      obtain ⟨-, ht⟩ := Option.ite_none_right_eq_some.mp ht
      obtain rfl := Option.some.inj ht
      exact h.poll h.pollMove
  | sinkFails =>
      obtain ⟨-, ht⟩ := Option.ite_none_right_eq_some.mp ht
      obtain rfl := Option.some.inj ht
      exact h.congr hsteady rfl rfl rfl rfl rfl

end

/-- Without such a push, control messages are on the wire before what was pushed after them. -/
theorem ordered_of_unexposed {json : ServerMsg → String} {writer : Writer} {s : Passes}
    (h : ((passes json writer).restrict (Unexposed json writer)).Reachable s) :
    Ordered json writer s := by
  have hcausal : Causal json writer s := by
    induction h with
    | init hinit =>
        cases hinit
        refine ⟨steady_init, each_nil _, fun lane _ stamp hstamp => ?_⟩
        contradiction
    | step _ hstep ih => exact step_causal ih hstep.1 hstep.2
  exact hcausal.ordered

/-! ### A file that overtakes its announcement -/

/-- A PC sends a file of one byte. -/
def sending : List Event :=
  [.push (.msg (.fileSendBegin 1 "a.txt" 1)), .spawn, .beginChunk [0], .accept 0]

/-- The writer has found the control queue empty when `file_send_begin` gets in, and goes on to
the bulk queue. -/
def overtaken : Passes :=
  (follow (fun event s => s.act (fun _ => "") .lan event)
    ([.poll] ++ sending ++ [.poll, .poll]) {}).getD {}

theorem overtaken_reachable : (passes (fun _ => "") .lan).Reachable overtaken := by
  have hfollow : follow (fun event s => s.act (fun _ => "") .lan event)
      ([.poll] ++ sending ++ [.poll, .poll]) {} = some overtaken := rfl
  exact reachable_of_follow (fun h => h) (.init rfl) hfollow

theorem overtaken_not_ordered :
    (passes (fun _ => "") .lan).Reachable overtaken ∧
      ¬ Ordered (fun _ => "") .lan overtaken := by
  refine ⟨overtaken_reachable, fun hordered => ?_⟩
  have hwire : overtaken.wire = [(.bulk, 1)] := by decide +kernel
  have hbefore := hordered [] (.bulk, 1) [] hwire (by decide) 0 Nat.one_pos ⟨_, rfl, rfl⟩
  exact List.not_mem_nil hbefore

/-- A step at which the writer polls the control queue next. -/
def actBehind (event : Event) (s : Passes) : Option Passes :=
  match event with
  | .accept _ | .offer _ =>
      if s.lanes.arm = .control then s.act (fun _ => "") .lan event else none
  | _ => s.act (fun _ => "") .lan event

theorem actBehind_unexposed {event : Event} {s t : Passes} (h : actBehind event s = some t) :
    ((passes (fun _ => "") .lan).restrict (Unexposed (fun _ => "") .lan)).step s event t := by
  unfold actBehind at h
  split at h
  · obtain ⟨harm, h⟩ := Option.ite_none_right_eq_some.mp h
    exact ⟨h, fun lane _ _ hupcoming => absurd hupcoming (not_upcoming_control harm lane)⟩
  · obtain ⟨harm, h⟩ := Option.ite_none_right_eq_some.mp h
    exact ⟨h, fun lane _ _ hupcoming => absurd hupcoming (not_upcoming_control harm lane)⟩
  next haccept hoffer =>
    refine ⟨h, fun lane stamp hentering => ?_⟩
    cases event with
    | accept i => exact absurd rfl (haccept i)
    | offer bytes => exact absurd rfl (hoffer bytes)
    | _ => contradiction

/-- The writer comes to the control queue only after the chunk got in. -/
def announced : Passes :=
  (follow actBehind (sending ++ [.poll, .poll, .poll, .poll]) {}).getD {}

theorem ordered_of_unexposed_announced :
    Ordered (fun _ => "") .lan announced ∧ announced.wire = [(.control, 0), (.bulk, 1)] := by
  have hfollow : follow actBehind (sending ++ [.poll, .poll, .poll, .poll]) {} =
      some announced := rfl
  have hreach := reachable_of_follow actBehind_unexposed (.init rfl) hfollow
  exact ⟨ordered_of_unexposed hreach, by decide +kernel⟩

end RemoteControl.Server.WriterPasses
