import RemoteControl.Relay.Takeover
import RemoteControl.Relay.Teardown
import RemoteControl.Relay.TunnelEnd

/-!
Which phone sessions the two ends of a tunnel hold to be alive: the relay the phones whose
`client_loop` runs, the PC the ones in its session map.
-/

namespace RemoteControl.Relay.Agreement

open RemoteControl.Foundations.ByteStrings
open RemoteControl.Foundations.Fifo
open RemoteControl.Foundations.Transition
open RemoteControl.Foundations.Transition.System (follow reachable_of_follow)
open RemoteControl.Wire.Protocol
open RemoteControl.Wire.Tunnel
open RemoteControl.Server.PhoneSessions
open RemoteControl.Server.Outbound
open RemoteControl.Relay.Loops
open RemoteControl.Relay.Frame
open RemoteControl.Relay.Attachment
open RemoteControl.Relay.Uplink
open RemoteControl.Relay.Downlink
open RemoteControl.Relay.Takeover
open RemoteControl.Relay.Teardown
open RemoteControl.Relay.TunnelEnd

/-- A `client_loop` reads its phone's WebSocket. -/
def reads : ClientPhase → Bool
  | .reading | .forwarding .. => true
  | _ => false

/-- A `client_loop` reads its phone's WebSocket, and its writer has not closed that. -/
def Runs (l : ClientLoop) : Prop :=
  reads l.phase = true ∧ l.writer ≠ .closing ∧ l.writer ≠ .finished

/-- The phones of an instance whose `client_loop` runs are those the PC has a session for. -/
def Agree (s : RelayState) (i : Nat) : Prop :=
  ∀ c, (s.client c).host = some i ∧ Runs (s.client c) ↔ c ∈ (s.pc i).sessions

/-! ### Quiescent states -/

/-- A phone that is attached to the instance, or about to be attached to one of its host. -/
def OfTunnel (s : RelayState) (i : Nat) (c : String) : Prop :=
  (s.client c).host = some i ∨
    (s.client c).phase = .connecting ∧ (s.client c).hostId = (s.host i).hostId

/-- What the tasks of a PC do by themselves. A `run_connection` whose inbox has no sender any
more returns, and drops its own senders. -/
def GoesOn (p : RelayClient) : PcAction → Prop
  | .read | .pump _ | .pumpExits _ | .writerRecv | .writerSent => True
  | .logicEnds c => (p.session c).pump ≠ .unspawned ∧ (p.session c).logic = true ∧ c ∉ p.sessions
  | .dropSenders c lane => (p.session c).pump ≠ .unspawned ∧ (p.session c).logic = false ∧
      (p.session c).lanes.hasSender lane = true
  | _ => False

/-- The steps that the tasks of a tunnel take without new input from a phone, a failure of a
connection, the keepalive timer or a decision of `run_connection`. -/
def IsInternal (i : Nat) (s : RelayState) : Action → Prop
  | .hostConnects _ | .clientConnects .. => False
  | .host j a => j = i ∧ a ≠ .streamEnds
  | .hostWriter j a => j = i ∧ a ≠ .fails true ∧ a ≠ .fails false
  | .client _ (.phoneSends _) | .client _ .streamEnds => False
  | .client c _ => OfTunnel s i c
  | .phone c a => OfTunnel s i c ∧ a ≠ .fails true ∧ a ≠ .fails false
  | .pc j a => j = i ∧ GoesOn (s.pc i) a

/-- The tasks of one tunnel on their own. -/
def undisturbed (i : Nat) : System RelayState Action :=
  relay.restrict fun s a _ => IsInternal i s a

/-- A writer of a phone or a pump of a session finds a queue empty and asks the next one, and
nothing else changes. -/
def OnlyPolls (s t : RelayState) : Prop :=
  (∃ c arm arm', (s.client c).writer = .polling arm ∧
    t = s.setClient c { s.client c with writer := .polling arm' }) ∨
    ∃ i c arm, t = s.setPc i ((s.pc i).setSession c
      { (s.pc i).session c with lanes := { ((s.pc i).session c).lanes with arm } })

/-- No task of the tunnel can do more than ask empty queues, however long it goes on, so that no
message is on its way to a task that would take it. -/
def Quiescent (s : RelayState) (i : Nat) : Prop :=
  ∀ as t a u, (undisturbed i).Run s as t → IsInternal i t a → act a t = some u → OnlyPolls t u

/-! ### Steps that leave one end in the dark -/

/-- The frames that a PC has to read for its session map to be right: a `ClientOpen`, and the
`ClientClose` of a session that has not ended by itself. -/
def Matters (p : RelayClient) : TunnelFrame → Prop
  | .clientOpen _ => True
  | .clientClose c => (p.session c).pump ≠ .finished
  | .data .. => False

/-- In this step a frame that matters is lost: it is put on a queue that the host's writer has
left, or is on its way when that writer fails or the PC's reader ends, or is sent to a reader
that has ended. -/
def Loses (i : Nat) (s : RelayState) : Action → Prop
  | .client c .sendOpen => (s.client c).host = some i ∧ (s.host i).writer = .closing
  | .client c .sendClose => (s.client c).host = some i ∧ Matters (s.pc i) (.clientClose c) ∧
      ((s.host i).writer = .closing ∨ (s.host i).writer = .finished)
  | .hostWriter j (.fails flushed) => j = i ∧ ∃ frame, Matters (s.pc i) frame ∧
      (frame ∈ (s.host i).toHost.waiting ∨
        (s.host i).writer = .sending frame ∧ (flushed = false ∨ (s.pc i).reader = false))
  | .hostWriter j .sent => j = i ∧ (s.pc i).reader = false ∧
      ∃ frame, Matters (s.pc i) frame ∧ (s.host i).writer = .sending frame
  | .pc j .readerEnds => j = i ∧ (s.pc i).reader = true ∧
      ∃ frame, Matters (s.pc i) frame ∧ frame ∈ tunnelFrames (s.pc i).up.waiting
  | _ => False

/-- A step after which both ends of the tunnel know what they have to. A session ends by itself
and a write to a phone fails only when the phone's `client_loop` has stopped reading. -/
structure Told (i : Nat) (s : RelayState) (a : Action) : Prop where
  exits : ∀ c, a = .pc i (.pumpExits c) → (s.client c).host = some i →
    reads (s.client c).phase = false
  writes : ∀ c flushed, a = .phone c (.fails flushed) → (s.client c).host = some i →
    reads (s.client c).phase = false
  carries : ¬ Loses i s a

/-- The runs in which every step is so. -/
def told (i : Nat) : System RelayState Action :=
  relay.restrict fun s a _ => Told i s a

/-! ### The session map -/

theorem reachable_mapped {s : RelayState} (hs : relay.Reachable s) (i : Nat) (c : String) :
    Mapped c (tunnelFrames (s.pc i).up.taken) (s.pc i) := by
  induction hs with
  | init hinit =>
      cases hinit
      refine ⟨?_, ?_⟩ <;> simp [tunnelFrames, OpenIn]
  | @step s t a hreach hstep ih =>
      have honce := reachable_opensOnce hreach i
      have hchange := pcChange_of_act hstep i
      generalize t.pc i = p at hchange ⊢
      rcases hchange with _ | ⟨up, htaken⟩ | ⟨down, -⟩ | ⟨a, p', hact⟩
      · exact ih
      · rw [htaken]
        exact ih.congr Iff.rfl rfl
      · exact ih.congr Iff.rfl rfl
      · exact ih.act hact fun bytes up hpop hdecode => opensOnce_taken honce hpop hdecode

theorem mem_framesRead {s : RelayState} {i : Nat} {c : String} {frame : TunnelFrame}
    (hid : frame.clientId = c) :
    frame ∈ framesRead s i c ↔ frame ∈ tunnelFrames (s.pc i).up.taken := by
  simp [framesRead, about, hid]

theorem unspawned_of_unread {s : RelayState} (hs : relay.Reachable s) {i : Nat} {c : String}
    (h : .clientOpen c ∉ framesRead s i c) : ((s.pc i).session c).pump = .unspawned := by
  rw [mem_framesRead (c := c) rfl] at h
  exact (reachable_mapped hs i c).unopened h

/-- A session is in the map from its `ClientOpen` to its `ClientClose`, or until its pump exits. -/
theorem session_iff {s : RelayState} (hs : relay.Reachable s) (i : Nat) (c : String) :
    c ∈ (s.pc i).sessions ↔ .clientOpen c ∈ framesRead s i c ∧ .clientClose c ∉ framesRead s i c ∧
      ((s.pc i).session c).pump ≠ .finished := by
  have horder := framesRead_order (c := c) (reachable_attached hs c) (reachable_carried hs i)
  have hopen : OpenIn c (tunnelFrames (s.pc i).up.taken) ↔
      .clientOpen c ∈ framesRead s i c ∧ .clientClose c ∉ framesRead s i c := by
    rw [mem_framesRead (c := c) rfl, mem_framesRead (c := c) rfl]
    constructor
    · rintro ⟨before, after, heq, hunclosed⟩
      have hfirst : about c (.clientOpen c :: after) = .clientOpen c :: about c after := by
        simp [about, TunnelFrame.clientId]
      rw [framesRead, heq, about_append, hfirst, ← List.singleton_append,
        ← List.append_assoc] at horder
      have hbefore := (horder.of_isPrefix (List.prefix_append ..)).before_open
      rw [heq]
      refine ⟨by simp, fun hmem => ?_⟩
      rcases List.mem_append.mp hmem with hmem | hmem
      · have habout : .clientClose c ∈ about c before :=
          List.mem_filter.mpr ⟨hmem, by simp [TunnelFrame.clientId]⟩
        rw [hbefore] at habout
        exact absurd habout List.not_mem_nil
      · rcases List.mem_cons.mp hmem with hfirst | hafter
        · contradiction
        · exact hunclosed hafter
    · rintro ⟨hmem, hunclosed⟩
      obtain ⟨before, after, heq⟩ := List.append_of_mem hmem
      refine ⟨before, after, heq, fun hafter => hunclosed ?_⟩
      rw [heq]
      simp [hafter]
  rw [(reachable_mapped hs i c).member, hopen, and_assoc]

/-! ### Frames on their way -/

/-- The writer of an instance that still takes frames from its queue. -/
def Takes : HostWriter → Prop
  | .unspawned | .receiving | .sending _ => True
  | .closing | .finished => False

/-- The PC has read the frame, or is going to. -/
def Heard (s : RelayState) (i : Nat) (frame : TunnelFrame) : Prop :=
  frame ∈ tunnelFrames (s.pc i).up.taken ∨
    (s.pc i).reader = true ∧ frame ∈ tunnelFrames (s.pc i).up.waiting ∨
      (s.host i).writer = .sending frame ∨
        Takes (s.host i).writer ∧ frame ∈ (s.host i).toHost.waiting

theorem Heard.congr {s t : RelayState} {i : Nat} {frame : TunnelFrame} (h : Heard s i frame)
    (hup : (t.pc i).up = (s.pc i).up) (hreader : (t.pc i).reader = (s.pc i).reader)
    (hsending : (s.host i).writer = .sending frame → (t.host i).writer = .sending frame)
    (htakes : Takes (s.host i).writer → Takes (t.host i).writer)
    (hwaiting : frame ∈ (s.host i).toHost.waiting → frame ∈ (t.host i).toHost.waiting) :
    Heard t i frame := by
  rcases h with hread | ⟨hreads, hmem⟩ | hsent | ⟨hlive, hmem⟩
  · refine .inl ?_
    rw [hup]
    exact hread
  · refine .inr (.inl ⟨?_, ?_⟩)
    · rw [hreader]
      exact hreads
    · rw [hup]
      exact hmem
  · exact .inr (.inr (.inl (hsending hsent)))
  · exact .inr (.inr (.inr ⟨htakes hlive, hwaiting hmem⟩))

/-- The `Close` of a host's writer is the last that it puts on the WebSocket. -/
structure ClosesLast (s : RelayState) (i : Nat) : Prop where
  before : (s.host i).writer ≠ .finished → .close ∉ (s.pc i).up.sent
  after : (s.host i).writer = .finished →
    ∃ front, (s.pc i).up.sent = front ++ [.close] ∧ .close ∉ front

theorem ClosesLast.congr {s t : RelayState} {i : Nat} (h : ClosesLast s i)
    (hwriter : (t.host i).writer = .finished ↔ (s.host i).writer = .finished)
    (hup : (t.pc i).up.sent = (s.pc i).up.sent) : ClosesLast t i := by
  refine ⟨?_, ?_⟩
  · rw [hup, ne_eq, hwriter]
    exact h.before
  · rw [hup, hwriter]
    exact h.after

theorem ClosesLast.hostWriterAct {i : Nat} {a : WriterAction} {s t : RelayState}
    (hs : ClosesLast s i) (h : hostWriterAct i a s = some t) : ClosesLast t i := by
  dsimp only [Loops.hostWriterAct] at h
  split at h
  · rename_i hwriter
    have hbefore := hs.before (by simp [hwriter])
    split at h
    · cases h
      exact ⟨by simpa using hbefore, by simp⟩
    · split at h
      · contradiction
      · cases h
        exact ⟨by simpa using hbefore, by simp⟩
  · rename_i hwriter
    have hbefore := hs.before (by simp [hwriter])
    cases h
    exact ⟨by simpa using hbefore, by simp⟩
  · rename_i flushed frame hwriter
    have hbefore := hs.before (by simp [hwriter])
    cases h
    refine ⟨fun _ => ?_, by simp⟩
    cases flushed
    · simpa using hbefore
    · simpa using hbefore
  · rename_i hwriter
    have hbefore := hs.before (by simp [hwriter])
    cases h
    refine ⟨by simp, fun _ => ⟨(s.pc i).up.sent, ?_, hbefore⟩⟩
    simp
  · contradiction

theorem closesLast_step {i : Nat} {a : Action} {s t : RelayState} (hallocated : Allocated s)
    (hs : ClosesLast s i) (h : act a s = some t) : ClosesLast t i := by
  rcases a with hostId | ⟨c, hostId⟩ | ⟨j, a⟩ | ⟨j, a⟩ | ⟨c, a⟩ | ⟨c, a⟩ | ⟨j, a⟩
  case hostConnects =>
      cases h
      rcases eq_or_ne i s.nextInstance with rfl | hne
      · exact hs.congr (by simp) rfl
      · exact hs.congr (by simp [hne]) rfl
  case clientConnects =>
      dsimp only [act] at h
      split at h
      · cases h
        exact hs.congr Iff.rfl rfl
      · contradiction
  case host =>
      have hframe := hostAct_frame h
      obtain ⟨down, hpc, -⟩ := hframe.pc i
      have hup : (t.pc i).up.sent = (s.pc i).up.sent := by rw [hpc]
      rcases eq_or_ne i j with rfl | hne
      · rcases (hostAct_progress h).writer with hwriter | ⟨hswap, hwriter⟩
        · exact hs.congr (by rw [hwriter]) hup
        · refine hs.congr ?_ hup
          rw [hwriter, hallocated.unspawned i hswap]
          simp
      · exact hs.congr (by rw [(hframe.otherHost i hne).2]) hup
  case hostWriter =>
      rcases eq_or_ne i j with rfl | hne
      · exact hs.hostWriterAct h
      · obtain ⟨toHost, writer, up, rfl, -⟩ := hostWriterAct_frame h
        exact hs.congr (by simp [hne]) (by simp [hne])
  case client =>
      have hframe := clientAct_frame h
      obtain ⟨toHost, clients, hhost⟩ := hframe.host i
      exact hs.congr (by rw [hhost]) (by rw [hframe.pc])
  case phone =>
      obtain ⟨hasSender, l, -, rfl⟩ := phoneAct_eq h
      exact hs.congr Iff.rfl rfl
  case pc =>
      obtain ⟨p, hact, rfl⟩ := pcAct_eq h
      refine hs.congr Iff.rfl ?_
      rcases eq_or_ne i j with rfl | hne
      · simpa using pcAct_up_sent hact
      · simp [hne]

theorem reachable_closesLast {s : RelayState} (hs : relay.Reachable s) (i : Nat) :
    ClosesLast s i := by
  induction hs with
  | init hinit =>
      cases hinit
      exact ⟨by simp [Queue.sent], by simp⟩
  | step hreach hstep ih => exact closesLast_step (reachable_allocated hreach) ih hstep

theorem waiting_after_close {s : RelayState} (hs : relay.Reachable s) {i : Nat}
    {up : Queue Message} (hpop : (s.pc i).up.pop? = some (.close, up)) : up.waiting = [] := by
  have hlast := reachable_closesLast hs i
  have hsent : (s.pc i).up.sent = up.taken ++ up.waiting := (Queue.pop?_sent hpop).symm
  have hmem : .close ∈ up.taken := by
    rw [Queue.pop?_taken hpop]
    simp
  by_cases hfinished : (s.host i).writer = .finished
  · obtain ⟨front, hfront, hnone⟩ := hlast.after hfinished
    rw [hsent] at hfront
    rcases List.eq_nil_or_concat up.waiting with hnil | ⟨waiting, last, hwaiting⟩
    · exact hnil
    · rw [hwaiting, List.concat_eq_append, ← List.append_assoc] at hfront
      have hheld := List.append_inj_left' hfront rfl
      rw [← hheld] at hnone
      exact absurd (List.mem_append_left _ hmem) hnone
  · refine absurd ?_ (hlast.before hfinished)
    rw [hsent]
    exact List.mem_append_left _ hmem

/-! ### What a step does to the PC and the phones -/

theorem pump_step {a : Action} {s t : RelayState} (hs : relay.Reachable s) (h : act a s = some t)
    (i : Nat) (c : String) :
    ((t.pc i).session c).pump = ((s.pc i).session c).pump ∨
      ((s.pc i).session c).pump = .running ∧ ((t.pc i).session c).pump = .stopping ∨
        (a = .pc i (.pumpExits c) ∧ ((t.pc i).session c).pump = .finished) ∨
          .clientOpen c ∉ framesRead s i c ∧ ((t.pc i).session c).pump = .running := by
  have ht : relay.Reachable t := .step hs h
  rcases a with hostId | ⟨c', hostId⟩ | ⟨j, a⟩ | ⟨j, a⟩ | ⟨c', a⟩ | ⟨c', a⟩ | ⟨j, a⟩
  case hostConnects =>
      cases h
      exact .inl rfl
  case clientConnects =>
      dsimp only [act] at h
      split at h
      · cases h
        exact .inl rfl
      · contradiction
  case host =>
      obtain ⟨down, hpc, -⟩ := (hostAct_frame h).pc i
      rw [hpc]
      exact .inl rfl
  case hostWriter =>
      obtain ⟨toHost, writer, up, rfl, -⟩ := hostWriterAct_frame h
      rcases eq_or_ne i j with rfl | hne
      · exact .inl (by simp)
      · exact .inl (by simp [hne])
  case client =>
      rw [(clientAct_frame h).pc]
      exact .inl rfl
  case phone =>
      obtain ⟨hasSender, l, -, rfl⟩ := phoneAct_eq h
      exact .inl rfl
  case pc =>
      have horder := framesRead_order (c := c) (reachable_attached ht c) (reachable_carried ht i)
      obtain ⟨p, hact, rfl⟩ := pcAct_eq h
      rcases eq_or_ne i j with rfl | hne
      · rw [setPc_pc, Function.update_self]
        rcases pump_cases hact c with hsame | hstops | ⟨rfl, hexits⟩ | hopens
        · exact .inl hsame
        · exact .inr (.inl hstops)
        · exact .inr (.inr (.inl ⟨rfl, hexits⟩))
        · obtain ⟨bytes, up, hpop, hup, hdecode, hruns⟩ := hopens
          refine .inr (.inr (.inr ⟨?_, hruns⟩))
          have hone : tunnelFrames [.binary bytes] = [.clientOpen c] := by
            simp [tunnelFrames, hdecode]
          rw [framesRead, setPc_pc, Function.update_self, hup, Queue.pop?_taken hpop,
            tunnelFrames_append, hone, about_append, about_singleton (c := c) rfl] at horder
          rw [framesRead, horder.before_open]
          exact List.not_mem_nil
      · rw [setPc_pc, Function.update_of_ne hne]
        exact .inl rfl

theorem finished_step {a : Action} {s t : RelayState} (hs : relay.Reachable s)
    (h : act a s = some t) {i : Nat} {c : String}
    (hfinished : ((s.pc i).session c).pump = .finished) :
    ((t.pc i).session c).pump = .finished := by
  rcases pump_step hs h i c with hsame | ⟨hruns, -⟩ | ⟨-, hexits⟩ | ⟨hunopened, -⟩
  · rw [hsame, hfinished]
  · rw [hfinished] at hruns
    contradiction
  · exact hexits
  · have hunspawned := unspawned_of_unread hs hunopened
    rw [hfinished] at hunspawned
    contradiction

theorem Matters.before {a : Action} {s t : RelayState} (hs : relay.Reachable s)
    (h : act a s = some t) {i : Nat} {frame : TunnelFrame} (hmatters : Matters (t.pc i) frame) :
    Matters (s.pc i) frame := by
  rcases frame with c | c | ⟨c, text, payload⟩
  · trivial
  · exact fun hfinished => hmatters (finished_step hs h hfinished)
  · exact hmatters

theorem reads_of_clientAct {c : String} {a : ClientAction} {s t : RelayState}
    (h : clientAct c a s = some t) (hreads : reads (t.client c).phase = true) :
    reads (s.client c).phase = true ∨ a = .sendOpen ∧ (s.client c).phase = .inserted := by
  cases steps_of_clientAct h with
  | phoneSends => exact .inl (by simpa using hreads)
  | opens hphase => exact .inr ⟨rfl, hphase⟩
  | readText hphase | readBinary hphase | readPing hphase | readPong hphase | forwards hphase =>
      exact .inl (by simp [hphase, reads])
  | _ => simp [reads] at hreads

/-! ### What told steps keep -/

/-- The phases of a `client_loop` from its `ClientClose` on. -/
def closed : ClientPhase → Bool
  | .closed | .removed | .dropped | .returned => true
  | _ => false

/-- No frame that matters is lost, and a phone whose `client_loop` reads has its WebSocket and
its session. -/
structure Kept (i : Nat) (s : RelayState) : Prop where
  heard : ∀ frame ∈ (s.host i).toHost.sent, Matters (s.pc i) frame → Heard s i frame
  closes : ∀ c, (s.client c).host = some i → closed (s.client c).phase = true →
    .clientOpen c ∈ (s.host i).toHost.sent → Matters (s.pc i) (.clientClose c) →
      .clientClose c ∈ (s.host i).toHost.sent
  pumped : ∀ c, (s.client c).host = some i → reads (s.client c).phase = true →
    ((s.pc i).session c).pump ≠ .finished
  attended : ∀ c, (s.client c).host = some i → reads (s.client c).phase = true →
    (s.client c).writer ≠ .closing ∧ (s.client c).writer ≠ .finished

section Steps

variable {i : Nat} {a : Action} {s t : RelayState} {frame : TunnelFrame}

theorem heard_hostWriter {b : WriterAction} (hs : relay.Reachable s) (hheard : Heard s i frame)
    (hmem : frame ∈ (s.host i).toHost.sent) (hmatters : Matters (s.pc i) frame)
    (htold : ¬ Loses i s (.hostWriter i b)) (h : hostWriterAct i b s = some t) :
    Heard t i frame := by
  have hencode : tunnelFrames [.binary (encode frame)] = [frame] :=
    tunnelFrames_encode (proper_of_mem_sent (reachable_attached hs) hmem)
  dsimp only [hostWriterAct] at h
  split at h
  · rename_i hwriter
    split at h
    · rename_i next toHost hpop
      cases h
      rcases hheard with hread | ⟨hreads, hup⟩ | hsending | ⟨-, hwaiting⟩
      · exact .inl (by simpa using hread)
      · exact .inr (.inl ⟨by simpa using hreads, by simpa using hup⟩)
      · rw [hwriter] at hsending
        contradiction
      · rw [Queue.pop?_waiting hpop, List.mem_cons] at hwaiting
        rcases hwaiting with rfl | hlater
        · exact .inr (.inr (.inl (by simp)))
        · exact .inr (.inr (.inr ⟨by simp [Takes], by simpa using hlater⟩))
    · rename_i hpop
      split at h
      · contradiction
      · cases h
        rcases hheard with hread | ⟨hreads, hup⟩ | hsending | ⟨-, hwaiting⟩
        · exact .inl (by simpa using hread)
        · exact .inr (.inl ⟨by simpa using hreads, by simpa using hup⟩)
        · rw [hwriter] at hsending
          contradiction
        · rw [Queue.pop?_eq_none_iff.mp hpop] at hwaiting
          exact absurd hwaiting List.not_mem_nil
  · rename_i next hwriter
    cases h
    rcases hheard with hread | ⟨hreads, hup⟩ | hsending | ⟨-, hwaiting⟩
    · exact .inl (by simpa using hread)
    · refine .inr (.inl ⟨by simpa using hreads, ?_⟩)
      simp [hup]
    · have hreads : (s.pc i).reader = true := by
        by_contra hdeaf
        exact htold ⟨rfl, by simpa using hdeaf, frame, hmatters, hsending⟩
      rw [hwriter, HostWriter.sending.injEq] at hsending
      subst hsending
      refine .inr (.inl ⟨by simpa using hreads, ?_⟩)
      simp [hencode]
    · exact .inr (.inr (.inr ⟨by simp [Takes], by simpa using hwaiting⟩))
  · rename_i flushed next hwriter
    cases h
    rcases hheard with hread | ⟨hreads, hup⟩ | hsending | ⟨-, hwaiting⟩
    · refine .inl ?_
      cases flushed <;> simpa using hread
    · refine .inr (.inl ⟨by simpa using hreads, ?_⟩)
      cases flushed
      · simpa using hup
      · simp [hup]
    · have hkept : flushed = true ∧ (s.pc i).reader = true := by
        by_contra hlost
        refine htold ⟨rfl, frame, hmatters, .inr ⟨hsending, ?_⟩⟩
        cases flushed
        · exact .inl rfl
        · exact .inr (by simpa using hlost)
      obtain ⟨rfl, hreads⟩ := hkept
      rw [hwriter, HostWriter.sending.injEq] at hsending
      subst hsending
      refine .inr (.inl ⟨by simpa using hreads, ?_⟩)
      simp [hencode]
    · exact absurd ⟨rfl, frame, hmatters, .inl hwaiting⟩ htold
  · rename_i hwriter
    cases h
    rcases hheard with hread | ⟨hreads, hup⟩ | hsending | ⟨hlive, -⟩
    · exact .inl (by simpa using hread)
    · refine .inr (.inl ⟨by simpa using hreads, ?_⟩)
      simp [hup]
    · rw [hwriter] at hsending
      contradiction
    · rw [hwriter] at hlive
      exact hlive.elim
  · contradiction

theorem heard_pc {b : PcAction} (hs : relay.Reachable s) (hheard : Heard s i frame)
    (hmatters : Matters (s.pc i) frame) (htold : ¬ Loses i s (.pc i b))
    (h : pcAct i b s = some t) : Heard t i frame := by
  obtain ⟨p, hact, rfl⟩ := pcAct_eq h
  have hsame (hup : p.up = (s.pc i).up) (hreader : p.reader = (s.pc i).reader) :
      Heard (s.setPc i p) i frame :=
    hheard.congr (by simpa using hup) (by simpa using hreader) id id id
  by_cases hread : b = .read
  · subst hread
    obtain ⟨m, up, hpop, hup, -, hends⟩ := pcAct_read hact
    rcases hheard with hmem | ⟨-, hmem⟩ | hsending | hwaiting
    · refine .inl ?_
      rw [setPc_pc, Function.update_self, hup, Queue.pop?_taken hpop, tunnelFrames_append]
      exact List.mem_append_left _ hmem
    · rw [Queue.pop?_waiting hpop, ← List.singleton_append, tunnelFrames_append,
        List.mem_append] at hmem
      rcases hmem with hnow | hlater
      · refine .inl ?_
        rw [setPc_pc, Function.update_self, hup, Queue.pop?_taken hpop, tunnelFrames_append]
        exact List.mem_append_right _ hnow
      · by_cases hclose : m = .close
        · subst hclose
          rw [waiting_after_close hs hpop] at hlater
          exact absurd hlater List.not_mem_nil
        · have hreads : p.reader = true := by simpa [hclose] using hends
          refine .inr (.inl ⟨by simpa using hreads, ?_⟩)
          simpa [hup] using hlater
    · exact .inr (.inr (.inl hsending))
    · exact .inr (.inr (.inr hwaiting))
  · by_cases hends : b = .readerEnds
    · subst hends
      cases hact
      rcases hheard with hmem | ⟨hreads, hmem⟩ | hsending | hwaiting
      · exact .inl (by simpa using hmem)
      · exact absurd ⟨rfl, hreads, frame, hmatters, hmem⟩ htold
      · exact .inr (.inr (.inl hsending))
      · exact .inr (.inr (.inr hwaiting))
    · obtain ⟨hup, hreader⟩ := pcAct_other hact hread hends
      exact hsame hup hreader

theorem clientAct_sends {c : String} {b : ClientAction} (h : clientAct c b s = some t) :
    (∀ j, (t.host j).toHost = (s.host j).toHost) ∨
      ∃ j frame, (s.client c).host = some j ∧ (s.host j).writer ≠ .finished ∧
        (t.host j).toHost = (s.host j).toHost.push frame ∧
        (∀ k, k ≠ j → (t.host k).toHost = (s.host k).toHost) ∧
        (frame = .clientOpen c ∧ b = .sendOpen ∨ (∃ text payload, frame = .data c text payload) ∨
          frame = .clientClose c ∧ b = .sendClose) := by
  have hkeep {j : Nat} {h' : HostLoop} {l : ClientLoop} (htoHost : h'.toHost = (s.host j).toHost)
      (k : Nat) : (((s.setHost j h').setClient c l).host k).toHost = (s.host k).toHost := by
    rcases eq_or_ne k j with rfl | hne
    · simpa using htoHost
    · simp [hne]
  cases steps_of_clientAct h with
  | insert | unregister | remove => exact .inl (hkeep rfl)
  | @opens j _ hhost hlive =>
      exact .inr ⟨j, _, hhost, hlive, by simp, fun k hne => by simp [hne], .inl ⟨rfl, rfl⟩⟩
  | @forwards j text payload _ hhost hlive =>
      exact .inr ⟨j, _, hhost, hlive, by simp, fun k hne => by simp [hne],
        .inr (.inl ⟨text, payload, rfl⟩)⟩
  | @closes j _ hhost hlive =>
      exact .inr ⟨j, _, hhost, hlive, by simp, fun k hne => by simp [hne],
        .inr (.inr ⟨rfl, rfl⟩)⟩
  | _ => exact .inl fun _ => rfl

theorem heard_client {c : String} {b : ClientAction}
    (hheard : frame ∈ (s.host i).toHost.sent → Heard s i frame)
    (hmem : frame ∈ (t.host i).toHost.sent) (hmatters : Matters (s.pc i) frame)
    (htold : ¬ Loses i s (.client c b)) (h : clientAct c b s = some t) : Heard t i frame := by
  have hframe := clientAct_frame h
  have hpc : t.pc i = s.pc i := by rw [hframe.pc]
  have hwriter : (t.host i).writer = (s.host i).writer := by
    obtain ⟨toHost, clients, hhost⟩ := hframe.host i
    rw [hhost]
  have hstays (hold : Heard s i frame)
      (hwaiting : frame ∈ (s.host i).toHost.waiting → frame ∈ (t.host i).toHost.waiting) :
      Heard t i frame := by
    refine hold.congr (by rw [hpc]) (by rw [hpc]) ?_ ?_ hwaiting
    · rw [hwriter]
      exact id
    · rw [hwriter]
      exact id
  rcases clientAct_sends h with hsame | ⟨j, new, hattached, hopen, hpush, hothers, hkind⟩
  · rw [hsame] at hmem
    refine hstays (hheard hmem) ?_
    rw [hsame]
    exact id
  · rcases eq_or_ne i j with rfl | hne
    · rw [hpush, Queue.push_sent, List.mem_append, List.mem_singleton] at hmem
      rcases hmem with hold | rfl
      · refine hstays (hheard hold) ?_
        rw [hpush, Queue.push_waiting]
        exact List.mem_append_left _
      · have hlive : Takes (s.host i).writer := by
          rcases hkind with ⟨rfl, rfl⟩ | ⟨text, payload, rfl⟩ | ⟨rfl, rfl⟩
          · have hnot : (s.host i).writer ≠ .closing := fun hclosing =>
              htold ⟨hattached, hclosing⟩
            revert hopen hnot
            cases (s.host i).writer <;> simp [Takes]
          · exact hmatters.elim
          · have hnot : (s.host i).writer ≠ .closing := fun hclosing =>
              htold ⟨hattached, hmatters, .inl hclosing⟩
            revert hopen hnot
            cases (s.host i).writer <;> simp [Takes]
        refine .inr (.inr (.inr ⟨?_, ?_⟩))
        · rw [hwriter]
          exact hlive
        · rw [hpush, Queue.push_waiting]
          exact List.mem_append_right _ List.mem_cons_self
    · have hsame := hothers i hne
      rw [hsame] at hmem
      refine hstays (hheard hmem) ?_
      rw [hsame]
      exact id

theorem heard_step (hs : relay.Reachable s)
    (hheard : ∀ frame ∈ (s.host i).toHost.sent, Matters (s.pc i) frame → Heard s i frame)
    (htold : ¬ Loses i s a) (h : act a s = some t) (hmem : frame ∈ (t.host i).toHost.sent)
    (hmatters : Matters (s.pc i) frame) : Heard t i frame := by
  rcases a with hostId | ⟨c, hostId⟩ | ⟨j, b⟩ | ⟨j, b⟩ | ⟨c, b⟩ | ⟨c, b⟩ | ⟨j, b⟩
  case hostConnects =>
      cases h
      rcases eq_or_ne i s.nextInstance with rfl | hne
      · have hold : frame ∈ (s.host s.nextInstance).toHost.sent := by simpa using hmem
        exact (hheard frame hold hmatters).congr rfl rfl (by simp) (by simp) (by simp)
      · have hold : frame ∈ (s.host i).toHost.sent := by simpa [hne] using hmem
        exact (hheard frame hold hmatters).congr rfl rfl (by simp [hne]) (by simp [hne])
          (by simp [hne])
  case clientConnects =>
      dsimp only [act] at h
      split at h
      · cases h
        exact hheard frame hmem hmatters
      · contradiction
  case host =>
      have hframe := hostAct_frame h
      obtain ⟨down, hpc, -⟩ := hframe.pc i
      have hup : (t.pc i).up = (s.pc i).up := by rw [hpc]
      have hreader : (t.pc i).reader = (s.pc i).reader := by rw [hpc]
      rw [hframe.toHost] at hmem
      have hold := hheard frame hmem hmatters
      have hwaiting : frame ∈ (s.host i).toHost.waiting → frame ∈ (t.host i).toHost.waiting := by
        rw [hframe.toHost]
        exact id
      have hsame (hwriter : (t.host i).writer = (s.host i).writer) : Heard t i frame := by
        refine hold.congr hup hreader ?_ ?_ hwaiting
        · rw [hwriter]
          exact id
        · rw [hwriter]
          exact id
      rcases eq_or_ne i j with rfl | hne
      · rcases (hostAct_progress h).writer with hwriter | ⟨hswap, hwriter⟩
        · exact hsame hwriter
        · have hunspawned := (reachable_allocated hs).unspawned i hswap
          refine hold.congr hup hreader ?_ ?_ hwaiting
          · simp [hunspawned]
          · simp [hwriter, Takes]
      · exact hsame (hframe.otherHost i hne).2
  case hostWriter =>
      rcases eq_or_ne i j with rfl | hne
      · have hold : frame ∈ (s.host i).toHost.sent := by
          obtain ⟨toHost, writer, up, rfl, hsent, -⟩ := hostWriterAct_frame h
          simpa [hsent] using hmem
        exact heard_hostWriter hs (hheard frame hold hmatters) hold hmatters htold h
      · obtain ⟨toHost, writer, up, rfl, -⟩ := hostWriterAct_frame h
        have hold : frame ∈ (s.host i).toHost.sent := by simpa [hne] using hmem
        exact (hheard frame hold hmatters).congr (by simp [hne]) (by simp [hne]) (by simp [hne])
          (by simp [hne]) (by simp [hne])
  case client => exact heard_client (fun hold => hheard frame hold hmatters) hmem hmatters htold h
  case phone =>
      obtain ⟨hasSender, l, -, rfl⟩ := phoneAct_eq h
      exact hheard frame hmem hmatters
  case pc =>
      have hold : frame ∈ (s.host i).toHost.sent := by
        obtain ⟨p, -, rfl⟩ := pcAct_eq h
        exact hmem
      rcases eq_or_ne i j with rfl | hne
      · exact heard_pc hs (hheard frame hold hmatters) hmatters htold h
      · obtain ⟨p, -, rfl⟩ := pcAct_eq h
        exact (hheard frame hold hmatters).congr (by simp [hne]) (by simp [hne]) id id id

theorem client_step (h : act a s = some t) (c : String) :
    (t.client c).host = (s.client c).host ∧ (t.client c).phase = (s.client c).phase ∨
      (∃ hostId, a = .clientConnects c hostId ∧ (t.client c).phase = .connecting) ∨
        ∃ b, a = .client c b ∧ clientAct c b s = some t := by
  rcases a with hostId | ⟨c', hostId⟩ | ⟨j, b⟩ | ⟨j, b⟩ | ⟨c', b⟩ | ⟨c', b⟩ | ⟨j, b⟩
  case hostConnects =>
      cases h
      exact .inl ⟨rfl, rfl⟩
  case clientConnects =>
      dsimp only [act] at h
      split at h
      · cases h
        rcases eq_or_ne c c' with rfl | hne
        · exact .inr (.inl ⟨hostId, rfl, by simp⟩)
        · exact .inl (by simp [hne])
      · contradiction
  case host =>
      obtain ⟨fast, bulk, hclient, -⟩ := (hostAct_frame h).client c
      rw [hclient]
      exact .inl ⟨rfl, rfl⟩
  case hostWriter =>
      obtain ⟨toHost, writer, up, rfl, -⟩ := hostWriterAct_frame h
      exact .inl ⟨rfl, rfl⟩
  case client =>
      rcases eq_or_ne c c' with rfl | hne
      · exact .inr (.inr ⟨b, rfl, h⟩)
      · rw [(clientAct_frame h).client c hne]
        exact .inl ⟨rfl, rfl⟩
  case phone =>
      obtain ⟨hasSender, l, hl, rfl⟩ := phoneAct_eq h
      have hframe := writerAct_frame hl
      rcases eq_or_ne c c' with rfl | hne
      · exact .inl (by simpa using ⟨hframe.host, hframe.phase⟩)
      · exact .inl (by simp [hne])
  case pc =>
      obtain ⟨p, -, rfl⟩ := pcAct_eq h
      exact .inl ⟨rfl, rfl⟩

theorem reads_step (h : act a s = some t) {c : String}
    (hhost : (t.client c).host = some i) (hreads : reads (t.client c).phase = true) :
    (s.client c).host = some i ∧
      (reads (s.client c).phase = true ∨ a = .client c .sendOpen ∧
        (s.client c).phase = .inserted) := by
  rcases client_step h c with ⟨hsame, hphase⟩ | ⟨_, -, hphase⟩ | ⟨b, rfl, hact⟩
  · rw [← hsame, ← hphase]
    exact ⟨hhost, .inl hreads⟩
  · rw [hphase] at hreads
    contradiction
  · have hbefore := reads_of_clientAct hact hreads
    refine ⟨?_, hbefore.imp_right fun hopen => ⟨by rw [hopen.1], hopen.2⟩⟩
    rw [← (clientAct_own hact).2 ?_]
    · exact hhost
    · rintro rfl
      rcases hbefore with hbefore | ⟨hopen, -⟩
      · cases steps_of_clientAct hact with
        | snapshot hphase | offline hphase => simp [hphase, reads] at hbefore
      · contradiction

theorem pumped_step (hs : relay.Reachable s) (hk : Kept i s) (htold : Told i s a)
    (h : act a s = some t) {c : String} (hhost : (t.client c).host = some i)
    (hreads : reads (t.client c).phase = true) : ((t.pc i).session c).pump ≠ .finished := by
  obtain ⟨hhost', hbefore⟩ := reads_step h hhost hreads
  have hrunning : ((s.pc i).session c).pump ≠ .finished := by
    rcases hbefore with hbefore | ⟨-, hphase⟩
    · exact hk.pumped c hhost' hbefore
    · have hunsent := (reachable_attached hs c).attached i hhost'
      simp only [Uplinked, hphase] at hunsent
      have hread := framesRead_isPrefix (c := c) (reachable_carried hs i)
      rw [hunsent.1, List.prefix_nil] at hread
      have hunspawned := unspawned_of_unread (i := i) (c := c) hs
        (by rw [hread]; exact List.not_mem_nil)
      simp [hunspawned]
  rcases pump_step hs h i c with hsame | ⟨-, hstops⟩ | ⟨rfl, -⟩ | ⟨-, hopens⟩
  · rw [hsame]
    exact hrunning
  · simp [hstops]
  · rcases hbefore with hbefore | ⟨hopen, -⟩
    · rw [htold.exits c rfl hhost'] at hbefore
      contradiction
    · contradiction
  · simp [hopens]

theorem writer_open {l l' : ClientLoop} {b : PhoneAction} (hphase : reads l.phase = true)
    (hwriter : l.writer ≠ .closing ∧ l.writer ≠ .finished) (hfails : ∀ flushed, b ≠ .fails flushed)
    (h : l.writerAct true b = some l') : l'.writer ≠ .closing ∧ l'.writer ≠ .finished := by
  have hpong : l.phase.holdsPong = true := hphase
  unfold ClientLoop.writerAct at h
  split at h
  · split at h
    · cases h
      simp
    · rw [hpong] at h
      cases h
      simp
  · split at h
    · cases h
      simp
    · cases h
      simp
  · split at h
    · cases h
      simp
    · cases h
      simp
  · cases h
    simp
  · cases h
    simp
  · exact absurd rfl (hfails _)
  · exact absurd rfl (hfails _)
  · rename_i hclosing
    exact absurd hclosing hwriter.1
  · contradiction

theorem attended_step (hs : relay.Reachable s) (hk : Kept i s) (htold : Told i s a)
    (h : act a s = some t) {c : String} (hhost : (t.client c).host = some i)
    (hreads : reads (t.client c).phase = true) :
    (t.client c).writer ≠ .closing ∧ (t.client c).writer ≠ .finished := by
  obtain ⟨hhost', hbefore⟩ := reads_step h hhost hreads
  have hopen : (s.client c).writer ≠ .closing ∧ (s.client c).writer ≠ .finished := by
    rcases hbefore with hbefore | ⟨-, hphase⟩
    · exact hk.attended c hhost' hbefore
    · have hunspawned := reachable_unspawned hs c (by simp [hphase, beforeWriter])
      simp [hunspawned]
  rcases a with hostId | ⟨c', hostId⟩ | ⟨j, b⟩ | ⟨j, b⟩ | ⟨c', b⟩ | ⟨c', b⟩ | ⟨j, b⟩
  case hostConnects =>
      cases h
      exact hopen
  case clientConnects =>
      dsimp only [act] at h
      split at h
      · cases h
        rcases eq_or_ne c c' with rfl | hne
        · simpa using hopen
        · simpa [hne] using hopen
      · contradiction
  case host =>
      obtain ⟨fast, bulk, hclient, -⟩ := (hostAct_frame h).client c
      rw [hclient]
      exact hopen
  case hostWriter =>
      obtain ⟨toHost, writer, up, rfl, -⟩ := hostWriterAct_frame h
      exact hopen
  case client =>
      have hframe := clientAct_frame h
      rcases eq_or_ne c c' with rfl | hne
      · rcases hframe.loop.writer with hwriter | ⟨-, hwriter⟩
        · rw [hwriter]
          exact hopen
        · simp [hwriter]
      · rw [hframe.client c hne]
        exact hopen
  case phone =>
      rcases eq_or_ne c c' with rfl | hne
      · have hreading : reads (s.client c).phase = true := by
          rcases hbefore with hbefore | ⟨hopens, -⟩
          · exact hbefore
          · contradiction
        have hsender : PhoneQueuesHaveSender s c := by
          refine .inl ?_
          revert hreading
          cases (s.client c).phase <;> simp [reads, ClientPhase.holdsQueues]
        obtain ⟨l, hl, rfl⟩ := Option.map_eq_some_iff.mp h
        rw [decide_eq_true hsender] at hl
        rw [setClient_client, Function.update_self]
        refine writer_open hreading hopen ?_ hl
        rintro flushed rfl
        rw [htold.writes c flushed rfl hhost'] at hreading
        contradiction
      · obtain ⟨hasSender, l, -, rfl⟩ := phoneAct_eq h
        simpa [hne] using hopen
  case pc =>
      obtain ⟨p, -, rfl⟩ := pcAct_eq h
      exact hopen

theorem closed_of_clientAct {c : String} {b : ClientAction} (hattached : Attached c s)
    (h : clientAct c b s = some t) (hhost : (t.client c).host = some i)
    (hclosed : closed (t.client c).phase = true) (hopened : .clientOpen c ∈ (t.host i).toHost.sent)
    (hmatters : Matters (s.pc i) (.clientClose c)) (htold : ¬ Loses i s (.client c b)) :
    .clientClose c ∈ (t.host i).toHost.sent ∨ closed (s.client c).phase = true ∧
      (s.client c).host = some i := by
  cases steps_of_clientAct h with
  | phoneSends => exact .inr (by simpa using And.intro hclosed hhost)
  | offline hphase =>
      rw [setClient_client, Function.update_self] at hhost
      rw [(hattached.unattached (.inr hphase)).1] at hhost
      contradiction
  | readPing hphase | readPong hphase => simp [closed, hphase] at hclosed
  | refuse hphase =>
      rw [setClient_client, Function.update_self] at hhost
      have hunsent := hattached.attached i hhost
      simp only [Uplinked, hphase] at hunsent
      have hmem : .clientOpen c ∈ about c (s.host i).toHost.sent := by
        simpa [about, TunnelFrame.clientId] using hopened
      rw [hunsent.1] at hmem
      exact absurd hmem List.not_mem_nil
  | @closes j _ hattached' =>
      rw [setClient_client, Function.update_self] at hhost
      obtain rfl : j = i := Option.some.inj (hattached'.symm.trans hhost)
      exact .inl (by simp)
  | @closeFails j _ hattached' hfinished =>
      rw [setClient_client, Function.update_self] at hhost
      obtain rfl : j = i := Option.some.inj (hattached'.symm.trans hhost)
      exact absurd ⟨hattached', hmatters, .inr hfinished⟩ htold
  | remove hphase | dropSenders hphase | writerEnded hphase =>
      rw [setClient_client, Function.update_self] at hhost
      exact .inr ⟨by simp [hphase, closed], hhost⟩
  | _ => simp [closed] at hclosed

theorem sent_step (h : act a s = some t) (i : Nat) :
    (s.host i).toHost.sent <+: (t.host i).toHost.sent ∧
      ∀ c, a ≠ .client c .sendOpen → .clientOpen c ∈ (t.host i).toHost.sent →
        .clientOpen c ∈ (s.host i).toHost.sent := by
  have hsame (hsent : (t.host i).toHost.sent = (s.host i).toHost.sent) :
      (s.host i).toHost.sent <+: (t.host i).toHost.sent ∧
        ∀ c, a ≠ .client c .sendOpen → .clientOpen c ∈ (t.host i).toHost.sent →
          .clientOpen c ∈ (s.host i).toHost.sent := by
    rw [hsent]
    exact ⟨List.prefix_rfl, fun _ _ => id⟩
  rcases a with hostId | ⟨c', hostId⟩ | ⟨j, b⟩ | ⟨j, b⟩ | ⟨c', b⟩ | ⟨c', b⟩ | ⟨j, b⟩
  case hostConnects =>
      cases h
      refine hsame ?_
      rcases eq_or_ne i s.nextInstance with rfl | hne
      · simp
      · simp [hne]
  case clientConnects =>
      dsimp only [act] at h
      split at h
      · cases h
        exact hsame rfl
      · contradiction
  case host => exact hsame (by rw [(hostAct_frame h).toHost])
  case hostWriter =>
      obtain ⟨toHost, writer, up, rfl, hsent, -⟩ := hostWriterAct_frame h
      refine hsame ?_
      rcases eq_or_ne i j with rfl | hne
      · simpa using hsent
      · simp [hne]
  case client =>
      rcases clientAct_sends h with htoHost | ⟨j, new, -, -, hpush, hothers, hkind⟩
      · exact hsame (by rw [htoHost])
      · rcases eq_or_ne i j with rfl | hne
        · rw [hpush, Queue.push_sent]
          refine ⟨List.prefix_append .., fun c hother hmem => ?_⟩
          rcases List.mem_append.mp hmem with hold | hnew
          · exact hold
          · rw [List.mem_singleton] at hnew
            subst hnew
            rcases hkind with ⟨hopen, rfl⟩ | ⟨text, payload, hdata⟩ | ⟨hclose, -⟩
            · cases hopen
              exact absurd rfl hother
            · contradiction
            · contradiction
        · exact hsame (by rw [hothers i hne])
  case phone =>
      obtain ⟨hasSender, l, -, rfl⟩ := phoneAct_eq h
      exact hsame rfl
  case pc =>
      obtain ⟨p, -, rfl⟩ := pcAct_eq h
      exact hsame rfl

theorem closed_of_sendOpen {c : String} (h : clientAct c .sendOpen s = some t) :
    closed (t.client c).phase = false := by
  cases steps_of_clientAct h <;> simp [closed]

theorem closes_step (hs : relay.Reachable s) (hk : Kept i s) (htold : Told i s a)
    (h : act a s = some t) {c : String} (hhost : (t.client c).host = some i)
    (hclosed : closed (t.client c).phase = true) (hopened : .clientOpen c ∈ (t.host i).toHost.sent)
    (hmatters : Matters (s.pc i) (.clientClose c)) :
    .clientClose c ∈ (t.host i).toHost.sent := by
  obtain ⟨hgrows, hopen⟩ := sent_step h i
  have hother : a ≠ .client c .sendOpen := by
    rintro rfl
    rw [closed_of_sendOpen h] at hclosed
    contradiction
  have hkept (hhost' : (s.client c).host = some i) (hclosed' : closed (s.client c).phase = true) :
      .clientClose c ∈ (t.host i).toHost.sent :=
    hgrows.subset (hk.closes c hhost' hclosed' (hopen c hother hopened) hmatters)
  rcases client_step h c with ⟨hsame, hphase⟩ | ⟨hostId, -, hphase⟩ | ⟨b, rfl, hact⟩
  · rw [hsame] at hhost
    rw [hphase] at hclosed
    exact hkept hhost hclosed
  · rw [hphase] at hclosed
    contradiction
  · rcases closed_of_clientAct (reachable_attached hs c) hact hhost hclosed hopened hmatters
      htold.carries with hsent | ⟨hclosed', hhost'⟩
    · exact hsent
    · exact hkept hhost' hclosed'

theorem Kept.step (hs : relay.Reachable s) (hk : Kept i s) (htold : Told i s a)
    (h : act a s = some t) : Kept i t where
  heard _ hmem hmatters :=
    heard_step hs hk.heard htold.carries h hmem (hmatters.before hs h)
  closes _ hhost hclosed hopened hmatters :=
    closes_step hs hk htold h hhost hclosed hopened (Matters.before hs h hmatters)
  pumped _ hhost hreads := pumped_step hs hk htold h hhost hreads
  attended _ hhost hreads := attended_step hs hk htold h hhost hreads

end Steps

theorem kept_of_told {i : Nat} {s : RelayState} (hs : (told i).Reachable s) : Kept i s := by
  induction hs with
  | init hinit =>
      cases hinit
      refine ⟨?_, ?_, ?_, ?_⟩
      · simp [Queue.sent]
      · simp
      · simp
      · simp
  | step hreach hstep ih => exact ih.step hreach.of_restrict hstep.2 hstep.1

/-! ### What is left in a quiescent state -/

theorem hostAct_spawns {i : Nat} {a : HostAction} {s t : RelayState}
    (h : hostAct i a s = some t) (hswap : isSwapIn (s.host i).phase = true)
    (hwriter : (t.host i).writer = .unspawned) : isSwapIn (t.host i).phase = true := by
  cases steps_of_hostAct h with
  | displaces | notifyOld | clearOld => simp [isSwapIn]
  | claims | dropOld => simp at hwriter
  | cancelled hphase | routes hphase | skips hphase | closes hphase | streamEnds hphase
  | pushes hphase | pushFails hphase | deregisters hphase | displaced hphase
  | dropToHost hphase | writerEnded hphase | clear hphase => simp [hphase, isSwapIn] at hswap

theorem swapIn_of_unspawned {s : RelayState} (hs : relay.Reachable s) (i : Nat) :
    (s.host i).writer = .unspawned → isSwapIn (s.host i).phase = true := by
  induction hs with
  | init hinit =>
      cases hinit
      exact fun _ => rfl
  | @step s t a hreach hstep ih =>
      have hsame (hphase : (t.host i).phase = (s.host i).phase)
          (hwriter : (t.host i).writer = (s.host i).writer) :
          (t.host i).writer = .unspawned → isSwapIn (t.host i).phase = true := by
        rw [hphase, hwriter]
        exact ih
      rcases a with hostId | ⟨c, hostId⟩ | ⟨j, b⟩ | ⟨j, b⟩ | ⟨c, b⟩ | ⟨c, b⟩ | ⟨j, b⟩
      case hostConnects =>
          cases hstep
          rcases eq_or_ne i s.nextInstance with rfl | hne
          · exact fun _ => by simp [isSwapIn]
          · exact hsame (by simp [hne]) (by simp [hne])
      case clientConnects =>
          dsimp only [relay, act] at hstep
          split at hstep
          · cases hstep
            exact hsame rfl rfl
          · contradiction
      case host =>
          rcases eq_or_ne i j with rfl | hne
          · intro hunspawned
            refine hostAct_spawns hstep (ih ?_) hunspawned
            rcases (hostAct_progress hstep).writer with hwriter | ⟨-, hwriter⟩
            · rw [← hwriter]
              exact hunspawned
            · rw [hwriter] at hunspawned
              contradiction
          · obtain ⟨hphase, hwriter⟩ := (hostAct_frame hstep).otherHost i hne
            exact hsame hphase hwriter
      case hostWriter =>
          rcases eq_or_ne i j with rfl | hne
          · intro hunspawned
            dsimp only [relay, act, hostWriterAct] at hstep
            split at hstep
            · split at hstep
              · cases hstep
                simp at hunspawned
              · split at hstep
                · contradiction
                · cases hstep
                  simp at hunspawned
            all_goals first
              | contradiction
              | (cases hstep
                 simp at hunspawned)
          · obtain ⟨toHost, writer, up, rfl, -⟩ := hostWriterAct_frame hstep
            exact hsame (by simp [hne]) (by simp [hne])
      case client =>
          obtain ⟨toHost, clients, hhost⟩ := (clientAct_frame hstep).host i
          exact hsame (by rw [hhost]) (by rw [hhost])
      case phone =>
          obtain ⟨hasSender, l, -, rfl⟩ := phoneAct_eq hstep
          exact hsame rfl rfl
      case pc =>
          obtain ⟨p, -, rfl⟩ := pcAct_eq hstep
          exact hsame rfl rfl

theorem rank_of_host {s : RelayState} (hs : relay.Reachable s) {i : Nat} {c : String}
    (hhost : (s.client c).host = some i) : 0 < rank (s.host i).phase := by
  induction hs with
  | init hinit =>
      cases hinit
      contradiction
  | @step s t a hreach hstep ih =>
      have hkept (hbefore : (s.client c).host = some i) : 0 < rank (t.host i).phase :=
        (ih hbefore).trans_le (rank_step hreach hstep i)
      rcases client_step hstep c with ⟨hsame, -⟩ | ⟨hostId, rfl, -⟩ | ⟨b, rfl, hact⟩
      · rw [hsame] at hhost
        exact hkept hhost
      · dsimp only [relay, act] at hstep
        split at hstep
        · cases hstep
          exact hkept (by simpa using hhost)
        · contradiction
      · by_cases hsnap : b = .snapshot
        · subst hsnap
          cases steps_of_clientAct hact with
          | @snapshot j _ honline =>
              rw [setClient_client, Function.update_self, Option.some.injEq] at hhost
              subst hhost
              have hlisted := ((reachable_registered hreach).online _ j honline).2
              rw [setClient_host]
              revert hlisted
              cases (s.host j).phase <;> simp [isListed, rank]
          | offline => exact hkept (by simpa using hhost)
        · rw [(clientAct_own hact).2 hsnap] at hhost
          exact hkept hhost

theorem allocated_of_host {s : RelayState} (hs : relay.Reachable s) {i : Nat} {c : String}
    (hhost : (s.client c).host = some i) : (s.host i).phase ≠ .idle := by
  intro hidle
  have hrank := rank_of_host hs hhost
  rw [hidle] at hrank
  exact absurd hrank (lt_irrefl 0)

namespace OnlyPolls

variable {s t : RelayState}

theorem host (h : OnlyPolls s t) : t.host = s.host := by
  rcases h with ⟨c, arm, arm', -, rfl⟩ | ⟨i, c, arm, rfl⟩
  · rfl
  · rfl

theorem up (h : OnlyPolls s t) (i : Nat) : (t.pc i).up = (s.pc i).up := by
  rcases h with ⟨c, arm, arm', -, rfl⟩ | ⟨j, c, arm, rfl⟩
  · rfl
  · rcases eq_or_ne i j with rfl | hne
    · simp
    · simp [hne]

theorem phase (h : OnlyPolls s t) (c : String) : (t.client c).phase = (s.client c).phase := by
  rcases h with ⟨c', arm, arm', -, rfl⟩ | ⟨i, c', arm, rfl⟩
  · rcases eq_or_ne c c' with rfl | hne
    · simp
    · simp [hne]
  · rfl

end OnlyPolls

namespace Quiescent

variable {s t : RelayState} {i : Nat} {c : String} {frame : TunnelFrame}

theorem polls {a : Action} (hquiet : Quiescent s i) (ha : IsInternal i s a)
    (h : act a s = some t) : OnlyPolls s t :=
  hquiet [] s a t (.nil s) ha h

theorem swapped (hquiet : Quiescent s i) (hs : relay.Reachable s)
    (hhost : (s.client c).host = some i) : (s.host i).writer ≠ .unspawned := by
  intro hunspawned
  have hmoves {b : HostAction} {t : RelayState} (hb : b ≠ .streamEnds)
      (h : hostAct i b s = some t) (hphase : (t.host i).phase ≠ (s.host i).phase) : False :=
    hphase (by rw [(hquiet.polls (a := .host i b) ⟨rfl, hb⟩ h).host])
  have hrank := rank_of_host hs hhost
  have hswap := swapIn_of_unspawned hs i hunspawned
  rcases hphase : (s.host i).phase with _ | _ | old | old | old | _ | _ | _ | _ | _ | _ | _
  case idle => simp [hphase, rank] at hrank
  case starting =>
      rcases honline : s.online (s.host i).hostId with _ | old
      · exact hmoves (b := .swapIn) (by simp) (by simp [hostAct, hphase, honline]; rfl)
          (by simp [hphase])
      · exact hmoves (b := .swapIn) (by simp) (by simp [hostAct, hphase, honline]; rfl)
          (by simp [hphase])
  case displacing =>
      exact hmoves (b := .notifyOld) (by simp) (by simp [hostAct, hphase]; rfl) (by simp [hphase])
  case clearing =>
      exact hmoves (b := .clearOld) (by simp) (by simp [hostAct, hphase]; rfl) (by simp [hphase])
  case releasing =>
      exact hmoves (b := .dropOld) (by simp) (by simp [hostAct, hphase]; rfl) (by simp [hphase])
  all_goals simp [hphase, isSwapIn] at hswap

theorem writer (hquiet : Quiescent s i) (hs : relay.Reachable s)
    (hhost : (s.client c).host = some i) :
    (s.host i).writer = .receiving ∧ (s.host i).toHost.waiting = [] ∨
      (s.host i).writer = .finished := by
  have hmoves {b : WriterAction} {t : RelayState} (hb : b ≠ .fails true ∧ b ≠ .fails false)
      (h : hostWriterAct i b s = some t) (hwriter : (t.host i).writer ≠ (s.host i).writer) :
      False :=
    hwriter (by rw [(hquiet.polls (a := .hostWriter i b) ⟨rfl, hb⟩ h).host])
  rcases hwriter : (s.host i).writer with _ | _ | next | _ | _
  case unspawned => exact absurd hwriter (hquiet.swapped hs hhost)
  case receiving =>
      rcases hwaiting : (s.host i).toHost.waiting with _ | ⟨next, later⟩
      · exact .inl ⟨rfl, rfl⟩
      · exfalso
        rcases hpop : (s.host i).toHost.pop? with _ | ⟨first, toHost⟩
        · rw [Queue.pop?_eq_none_iff.mp hpop] at hwaiting
          contradiction
        · exact hmoves (b := .recv) (by simp) (by simp [hostWriterAct, hwriter, hpop]; rfl)
            (by simp [hwriter])
  case sending =>
      exfalso
      exact hmoves (b := .sent) (by simp) (by simp [hostWriterAct, hwriter]; rfl)
        (by simp [hwriter])
  case closing =>
      exfalso
      exact hmoves (b := .closes) (by simp) (by simp [hostWriterAct, hwriter]; rfl)
        (by simp [hwriter])
  case finished => exact .inr rfl

theorem read_enabled {p : RelayClient} {m : Message} {up : Queue Message}
    (hreader : p.reader = true) (hpop : p.up.pop? = some (m, up)) :
    ∃ p', p.act .read = some p' ∧ p'.up = up := by
  simp only [RelayClient.act, hreader, if_true, hpop]
  rcases m with text | bytes | payload | payload | _
  case binary =>
      dsimp only
      rcases hdecode : decode bytes with _ | frame
      · exact ⟨_, rfl, rfl⟩
      · exact ⟨_, rfl, handleFrame_up ..⟩
  all_goals exact ⟨_, rfl, rfl⟩

theorem drained (hquiet : Quiescent s i) (hs : relay.Reachable s)
    (hhost : (s.client c).host = some i) (hheard : Heard s i frame) :
    frame ∈ tunnelFrames (s.pc i).up.taken := by
  have hwriter := hquiet.writer hs hhost
  rcases hheard with hread | ⟨hreads, hup⟩ | hsending | ⟨htakes, hwaiting⟩
  · exact hread
  · exfalso
    rcases hpop : (s.pc i).up.pop? with _ | ⟨m, up⟩
    · rw [Queue.pop?_eq_none_iff.mp hpop] at hup
      simp [tunnelFrames] at hup
    · obtain ⟨p, hact, hleft⟩ := read_enabled hreads hpop
      have hstep : act (.pc i .read) s = some (s.setPc i p) := by
        simp [act, pcAct, allocated_of_host hs hhost, hact]
      have hsame := (hquiet.polls (a := .pc i .read) ⟨rfl, trivial⟩ hstep).up i
      rw [setPc_pc, Function.update_self, hleft] at hsame
      have htaken := Queue.pop?_taken hpop
      rw [hsame] at htaken
      simp at htaken
  · rcases hwriter with ⟨hreceiving, -⟩ | hfinished
    · rw [hreceiving] at hsending
      contradiction
    · rw [hfinished] at hsending
      contradiction
  · rcases hwriter with ⟨-, hempty⟩ | hfinished
    · rw [hempty] at hwaiting
      exact absurd hwaiting List.not_mem_nil
    · rw [hfinished] at htakes
      exact htakes.elim

theorem not_leaving (hquiet : Quiescent s i) (hs : relay.Reachable s)
    (hhost : (s.client c).host = some i) : (s.client c).phase ≠ .leaving := by
  intro hleaving
  have hinternal : IsInternal i s (.client c .sendClose) := .inl hhost
  have hsend : ∃ ok u, sendToHost i (.clientClose c) s = some (ok, u) := by
    rcases hquiet.writer hs hhost with ⟨hreceiving, hempty⟩ | hfinished
    · exact ⟨true, _, by simp [sendToHost, hreceiving, hempty, toHostQueueCap]; rfl⟩
    · exact ⟨false, s, by simp [sendToHost, hfinished]⟩
  obtain ⟨ok, u, hsend⟩ := hsend
  have hstep : act (.client c .sendClose) s =
      some (u.setClient c { s.client c with phase := .closed }) := by
    simp [act, clientAct, hleaving, hhost, hsend]
  have hphase := (hquiet.polls hinternal hstep).phase c
  rw [setClient_client, Function.update_self, hleaving] at hphase
  contradiction

end Quiescent

/-! ### Agreement -/

theorem not_closed_of_reads {s : RelayState} (hs : relay.Reachable s) {i : Nat} {c : String}
    (hhost : (s.client c).host = some i) (hreads : reads (s.client c).phase = true) :
    .clientClose c ∉ framesRead s i c := by
  intro hread
  have hsent := (framesRead_isPrefix (c := c) (reachable_carried hs i)).subset hread
  have huplinked := (reachable_attached hs c).attached i hhost
  have hopened {datas : List TunnelFrame} (hframes : about c (s.host i).toHost.sent =
      .clientOpen c :: datas) (hdatas : datas <+: datasOf c (s.client c).fromPhone.taken) :
      False := by
    rw [hframes, List.mem_cons] at hsent
    rcases hsent with heq | hmem
    · contradiction
    · obtain ⟨text, payload, hdata⟩ := data_of_mem_datasOf (hdatas.subset hmem)
      contradiction
  rcases hphase : (s.client c).phase with _ | _ | _ | _ | _ | _ | _ | ⟨text, payload⟩ | _ | _ | _ |
    _ | _
  case reading =>
      simp only [Uplinked, hphase] at huplinked
      exact hopened huplinked (List.prefix_refl _)
  case forwarding =>
      simp only [Uplinked, hphase] at huplinked
      obtain ⟨datas, hdatas, hframes⟩ := prefix_of_forwarding huplinked
      exact hopened hframes hdatas
  all_goals simp [hphase, reads] at hreads

theorem opened_of_reads {s : RelayState} (hs : relay.Reachable s) {i : Nat} {c : String}
    (hhost : (s.client c).host = some i) (hreads : reads (s.client c).phase = true) :
    .clientOpen c ∈ (s.host i).toHost.sent := by
  have huplinked := (reachable_attached hs c).attached i hhost
  have hopened {datas : List TunnelFrame} (hframes : about c (s.host i).toHost.sent =
      .clientOpen c :: datas) : .clientOpen c ∈ (s.host i).toHost.sent := by
    have hmem : .clientOpen c ∈ about c (s.host i).toHost.sent := by simp [hframes]
    exact List.mem_of_mem_filter hmem
  rcases hphase : (s.client c).phase with _ | _ | _ | _ | _ | _ | _ | ⟨text, payload⟩ | _ | _ | _ |
    _ | _
  case reading =>
      simp only [Uplinked, hphase] at huplinked
      exact hopened huplinked
  case forwarding =>
      simp only [Uplinked, hphase] at huplinked
      obtain ⟨datas, -, hframes⟩ := prefix_of_forwarding huplinked
      exact hopened hframes
  all_goals simp [hphase, reads] at hreads

theorem host_of_session {s : RelayState} (hs : relay.Reachable s) {i : Nat} {c : String}
    (hmem : c ∈ (s.pc i).sessions) : (s.client c).host = some i := by
  by_contra hhost
  have hopened := ((session_iff hs i c).mp hmem).1
  have hsent := (framesRead_isPrefix (c := c) (reachable_carried hs i)).subset hopened
  rw [(reachable_attached hs c).others i hhost] at hsent
  exact absurd hsent List.not_mem_nil

theorem reads_of_session {s : RelayState} {i : Nat} {c : String} (hs : relay.Reachable s)
    (hkept : Kept i s) (hquiet : Quiescent s i) (hmem : c ∈ (s.pc i).sessions) :
    reads (s.client c).phase = true := by
  have hhost := host_of_session hs hmem
  obtain ⟨hopened, hunclosed, hpump⟩ := (session_iff hs i c).mp hmem
  have hattached := reachable_attached hs c
  have hsent := (framesRead_isPrefix (c := c) (reachable_carried hs i)).subset hopened
  have hunsent (h : about c (s.host i).toHost.sent = []) : False := by
    rw [h] at hsent
    exact absurd hsent List.not_mem_nil
  have huplinked := hattached.attached i hhost
  have hclosed (h : closed (s.client c).phase = true) : False := by
    have hclose := hkept.closes c hhost h (List.mem_of_mem_filter hsent) hpump
    have hheard := hkept.heard _ hclose hpump
    exact hunclosed ((mem_framesRead rfl).mpr (hquiet.drained hs hhost hheard))
  rcases hphase : (s.client c).phase with _ | _ | _ | _ | _ | _ | _ | ⟨text, payload⟩ | _ | _ | _ |
    _ | _
  case reading | forwarding => rfl
  case leaving => exact absurd hphase (hquiet.not_leaving hs hhost)
  case closed | removed | dropped | returned => exact (hclosed (by simp [hphase, closed])).elim
  all_goals
    simp only [Uplinked, hphase] at huplinked
    exact (hunsent huplinked.1).elim

/-- In every quiescent state of a run whose steps all tell both ends, these agree on which phones
of the tunnel are alive. -/
theorem agree_of_told {i : Nat} {s : RelayState} (hs : (told i).Reachable s)
    (hquiet : Quiescent s i) : Agree s i := by
  have hkept := kept_of_told hs
  have hreach := hs.of_restrict
  intro c
  constructor
  · rintro ⟨hhost, hreads, -⟩
    have hsent := opened_of_reads hreach hhost hreads
    have hread := hquiet.drained hreach hhost (hkept.heard _ hsent trivial)
    exact (session_iff hreach i c).mpr ⟨(mem_framesRead rfl).mpr hread,
      not_closed_of_reads hreach hhost hreads, hkept.pumped c hhost hreads⟩
  · intro hmem
    have hhost := host_of_session hreach hmem
    have hreads := reads_of_session hreach hkept hquiet hmem
    exact ⟨hhost, hreads, hkept.attended c hhost hreads⟩

/-! ### One idle phone -/

def isPolling : PhoneWriter → Bool
  | .polling _ => true
  | _ => false

def allLanes : List Lane :=
  [.control, .video, .bulk]

theorem mem_allLanes (lane : Lane) : lane ∈ allLanes := by
  rcases lane <;> simp [allLanes]

/-- A session whose pump waits for messages. -/
def Waits (session : PhoneSession) : Prop :=
  session.pump = .running ∧ session.logic = true ∧ ∀ lane ∈ allLanes,
    (session.lanes.queue lane).waiting = [] ∧ session.lanes.hasSender lane = true

/-- A session of which nothing is left. -/
def Ended (session : PhoneSession) : Prop :=
  session.pump = .finished ∧ session.logic = false ∧
    ∀ lane ∈ allLanes, session.lanes.hasSender lane = false

/-- One tunnel with one phone, and nothing in any of their queues. -/
structure OnePhone (s : RelayState) (c : String) : Prop where
  instances : s.nextInstance = 1
  phones : s.started = {c}
  loop : (s.host 0).phase = .reading ∧ (s.host 0).cancel = false
  hostWriter : (s.host 0).writer = .receiving ∧ (s.host 0).toHost.waiting = []
  pc : (s.pc 0).up.waiting = [] ∧ (s.pc 0).down.waiting = [] ∧ (s.pc 0).hostOut.waiting = [] ∧
    (s.pc 0).writer = .receiving
  client : (s.client c).phase = .reading ∧ (s.client c).host = some 0 ∧
    (s.client c).fromPhone.waiting = []
  phoneWriter : isPolling (s.client c).writer = true ∧ (s.client c).pongs.waiting = [] ∧
    (s.client c).fast.waiting = [] ∧ (s.client c).bulk.waiting = []
  session : c ∈ (s.pc 0).sessions ∧ Waits ((s.pc 0).session c) ∨ Ended ((s.pc 0).session c)

theorem pumpOnce_waits {p : RelayClient} {c : String} (h : Waits (p.session c)) :
    ∃ arm, p.pumpOnce c = p.setSession c
      { p.session c with lanes := { (p.session c).lanes with arm } } := by
  obtain ⟨-, -, hlanes⟩ := h
  obtain ⟨hempty, hsender⟩ := hlanes (p.session c).lanes.arm (mem_allLanes _)
  have hpoll : (p.session c).lanes.poll = (.pending,
      { (p.session c).lanes with arm := (p.session c).lanes.arm.next }) := by
    simp [Lanes.poll, Queue.pop?_eq_none_iff.mpr hempty, hsender]
  refine ⟨(p.session c).lanes.arm.next, ?_⟩
  simp only [RelayClient.pumpOnce, hpoll]

namespace OnePhone

variable {s t : RelayState} {c : String}

theorem idle_phone (hs : relay.Reachable s) (h : OnePhone s c) {c' : String} (hne : c' ≠ c) :
    (s.client c').phase = .idle := by
  refine idle_of_not_started hs ?_
  rw [h.phones, Finset.mem_singleton]
  exact hne

theorem host_none (h : OnePhone s c) {a : HostAction} (ha : a ≠ .streamEnds) :
    hostAct 0 a s = none := by
  have hread := Queue.pop?_eq_none_iff.mpr h.pc.2.1
  rcases a <;> simp [hostAct, h.loop.1, h.loop.2, hread] at ha ⊢

theorem hostWriter_none (h : OnePhone s c) {a : WriterAction}
    (ha : a ≠ .fails true ∧ a ≠ .fails false) : hostWriterAct 0 a s = none := by
  have hsender : ToHostHasSender s 0 := by
    refine .inr (.inl ?_)
    rw [h.loop.1]
    rfl
  have hpop := Queue.pop?_eq_none_iff.mpr h.hostWriter.2
  rcases a with _ | _ | flushed | _
  · simp [hostWriterAct, h.hostWriter.1, hpop, hsender]
  · simp [hostWriterAct, h.hostWriter.1]
  · rcases flushed <;> simp at ha
  · simp [hostWriterAct, h.hostWriter.1]

theorem client_none (hs : relay.Reachable s) (h : OnePhone s c) {c' : String}
    {a : ClientAction} (ha : IsInternal 0 s (.client c' a)) : clientAct c' a s = none := by
  rcases eq_or_ne c' c with rfl | hne
  · have hread := Queue.pop?_eq_none_iff.mpr h.client.2.2
    rcases a <;> simp [clientAct, IsInternal, h.client.1, hread] at ha ⊢
  · rcases a <;> simp [clientAct, h.idle_phone hs hne]

theorem phone_polls (hs : relay.Reachable s) (h : OnePhone s c) {c' : String}
    {a : PhoneAction} (hact : phoneAct c' a s = some t)
    (ha : a ≠ .fails true ∧ a ≠ .fails false) : OnlyPolls s t := by
  rcases eq_or_ne c' c with rfl | hne
  · obtain ⟨hpolling, hpongs, hfast, hbulk⟩ := h.phoneWriter
    have hpong : (s.client c').phase.holdsPong = true := by
      rw [h.client.1]
      rfl
    have hsender : PhoneQueuesHaveSender s c' := by
      refine .inl ?_
      rw [h.client.1]
      rfl
    rcases hwriter : (s.client c').writer with _ | arm | _ | _ | _ | _
    case polling =>
        rcases a with _ | _ | flushed | _
        · rcases arm
          · simp only [phoneAct, ClientLoop.writerAct, hwriter, hpong, if_true,
              Queue.pop?_eq_none_iff.mpr hpongs] at hact
            cases hact
            exact .inl ⟨c', _, _, hwriter, rfl⟩
          · simp only [phoneAct, ClientLoop.writerAct, hwriter, hsender, decide_true, if_true,
              Queue.pop?_eq_none_iff.mpr hfast] at hact
            cases hact
            exact .inl ⟨c', _, _, hwriter, rfl⟩
          · simp only [phoneAct, ClientLoop.writerAct, hwriter, hsender, decide_true, if_true,
              Queue.pop?_eq_none_iff.mpr hbulk] at hact
            cases hact
            exact .inl ⟨c', _, _, hwriter, rfl⟩
        · simp [phoneAct, ClientLoop.writerAct, hwriter] at hact
        · rcases flushed <;> simp at ha
        · simp [phoneAct, ClientLoop.writerAct, hwriter] at hact
    all_goals simp [hwriter, isPolling] at hpolling
  · have hwriter := reachable_unspawned hs c' (by simp [h.idle_phone hs hne, beforeWriter])
    rcases a <;> simp [phoneAct, ClientLoop.writerAct, hwriter] at hact

theorem pump_other (hs : relay.Reachable s) (h : OnePhone s c) {c' : String} (hne : c' ≠ c) :
    ((s.pc 0).session c').pump = .unspawned := by
  refine unspawned_of_unread hs ?_
  have hhost := ((reachable_attached hs c').unattached (.inl (h.idle_phone hs hne))).1
  have hread := framesRead_isPrefix (c := c') (reachable_carried hs 0)
  rw [(reachable_attached hs c').others 0 (by simp [hhost]), List.prefix_nil] at hread
  rw [hread]
  exact List.not_mem_nil

theorem pc_polls (hs : relay.Reachable s) (h : OnePhone s c) {a : PcAction}
    (hact : pcAct 0 a s = some t) (ha : GoesOn (s.pc 0) a) : OnlyPolls s t := by
  obtain ⟨p, hp, rfl⟩ := pcAct_eq hact
  rcases a
  case read => simp [RelayClient.act, Queue.pop?_eq_none_iff.mpr h.pc.1] at hp
  case pump c' =>
      rcases eq_or_ne c' c with rfl | hne
      · rcases h.session with ⟨-, hwaits⟩ | ⟨hfinished, -⟩
        · obtain ⟨arm, hpump⟩ := pumpOnce_waits hwaits
          simp only [RelayClient.act, hwaits.1, if_true] at hp
          rw [hpump] at hp
          cases hp
          exact .inr ⟨0, c', arm, rfl⟩
        · simp [RelayClient.act, hfinished] at hp
      · simp [RelayClient.act, h.pump_other hs hne] at hp
  case pumpExits c' =>
      rcases eq_or_ne c' c with rfl | hne
      · rcases h.session with ⟨-, hrunning, -⟩ | ⟨hfinished, -⟩
        · simp [RelayClient.act, hrunning] at hp
        · simp [RelayClient.act, hfinished] at hp
      · simp [RelayClient.act, h.pump_other hs hne] at hp
  case writerRecv => simp [RelayClient.act, Queue.pop?_eq_none_iff.mpr h.pc.2.2.1] at hp
  case writerSent => simp [RelayClient.act, h.pc.2.2.2] at hp
  case logicEnds c' =>
      obtain ⟨hspawned, hlogic, hgone⟩ := ha
      rcases eq_or_ne c' c with rfl | hne
      · rcases h.session with ⟨hmem, -⟩ | ⟨-, hreturned, -⟩
        · exact absurd hmem hgone
        · rw [hreturned] at hlogic
          contradiction
      · exact absurd (h.pump_other hs hne) hspawned
  case dropSenders c' lane =>
      obtain ⟨hspawned, hreturned, hsender⟩ := ha
      rcases eq_or_ne c' c with rfl | hne
      · rcases h.session with ⟨-, -, hlogic, -⟩ | ⟨-, -, hdropped⟩
        · rw [hlogic] at hreturned
          contradiction
        · rw [hdropped lane (mem_allLanes lane)] at hsender
          contradiction
      · exact absurd (h.pump_other hs hne) hspawned
  all_goals exact ha.elim

theorem polls (hs : relay.Reachable s) (h : OnePhone s c) {a : Action} (ha : IsInternal 0 s a)
    (hact : act a s = some t) : OnlyPolls s t := by
  rcases a with hostId | ⟨c', hostId⟩ | ⟨j, a⟩ | ⟨j, a⟩ | ⟨c', a⟩ | ⟨c', a⟩ | ⟨j, a⟩
  case hostConnects | clientConnects => exact ha.elim
  case host =>
      obtain ⟨rfl, hstream⟩ := ha
      rw [show act (.host 0 a) s = none from h.host_none hstream] at hact
      contradiction
  case hostWriter =>
      obtain ⟨rfl, hfails⟩ := ha
      rw [show act (.hostWriter 0 a) s = none from h.hostWriter_none hfails] at hact
      contradiction
  case client =>
      rw [show act (.client c' a) s = none from h.client_none hs ha] at hact
      contradiction
  case phone => exact h.phone_polls hs hact ha.2
  case pc =>
      obtain ⟨rfl, hgoes⟩ := ha
      exact h.pc_polls hs hact hgoes

theorem of_onlyPolls (h : OnePhone s c) (hpolls : OnlyPolls s t) : OnePhone t c := by
  obtain ⟨hinstances, hphones, hloop, hhostWriter, hpc, hclient, hphoneWriter, hsession⟩ := h
  rcases hpolls with ⟨c', arm, arm', hwriter, rfl⟩ | ⟨i, c', arm, rfl⟩
  · rcases eq_or_ne c c' with rfl | hne
    · exact ⟨hinstances, hphones, hloop, hhostWriter, hpc, by simpa using hclient,
        by simpa [isPolling] using hphoneWriter.2, hsession⟩
    · exact ⟨hinstances, hphones, hloop, hhostWriter, hpc, by simpa [hne] using hclient,
        by simpa [hne] using hphoneWriter, hsession⟩
  · rcases eq_or_ne 0 i with rfl | hi
    · have hqueues (session : PhoneSession) :
          ((s.pc 0).setSession c' session).up.waiting = [] ∧
            ((s.pc 0).setSession c' session).down.waiting = [] ∧
              ((s.pc 0).setSession c' session).hostOut.waiting = [] ∧
                ((s.pc 0).setSession c' session).writer = .receiving := hpc
      refine ⟨hinstances, hphones, hloop, hhostWriter, ?_, hclient, hphoneWriter, ?_⟩
      · rw [setPc_pc, Function.update_self]
        exact hqueues _
      rcases eq_or_ne c c' with rfl | hne
      · simpa [Waits, Ended] using hsession
      · simpa [hne] using hsession
    · exact ⟨hinstances, hphones, hloop, hhostWriter, by simpa [hi] using hpc, hclient,
        hphoneWriter, by simpa [hi] using hsession⟩

theorem quiescent (hs : relay.Reachable s) (h : OnePhone s c) : Quiescent s 0 := by
  intro as t a u hrun hinternal hact
  have hphone : OnePhone t c := by
    induction hrun generalizing a u with
    | nil => exact h
    | snoc hprev hstep ih =>
        have hbefore := ih _ _ hstep.2 hstep.1
        exact hbefore.of_onlyPolls (hbefore.polls (hs.run hprev.of_restrict) hstep.2 hstep.1)
  exact hphone.polls (hs.run hrun.of_restrict) hinternal hact

end OnePhone

/-- `run_connection` returns, and the pump of its session comes to the end of its queues. -/
def endSession : List Action :=
  [.pc 0 (.logicEnds phoneId), .pc 0 (.dropSenders phoneId .control),
    .pc 0 (.dropSenders phoneId .video), .pc 0 (.dropSenders phoneId .bulk),
    .pc 0 (.pump phoneId), .pc 0 (.pumpExits phoneId)]

instance (session : PhoneSession) : Decidable (Waits session) :=
  inferInstanceAs (Decidable (_ ∧ _ ∧ ∀ lane ∈ allLanes, _ ∧ _))

instance (session : PhoneSession) : Decidable (Ended session) :=
  inferInstanceAs (Decidable (_ ∧ _ ∧ ∀ lane ∈ allLanes, _))

/-- What `OnePhone` asks for, in a form that is evaluated. -/
def isOnePhone (s : RelayState) (c : String) : Bool :=
  decide (s.nextInstance = 1 ∧ s.started = {c} ∧
    ((s.host 0).phase = .reading ∧ (s.host 0).cancel = false) ∧
    ((s.host 0).writer = .receiving ∧ (s.host 0).toHost.waiting = []) ∧
    ((s.pc 0).up.waiting = [] ∧ (s.pc 0).down.waiting = [] ∧ (s.pc 0).hostOut.waiting = [] ∧
      (s.pc 0).writer = .receiving) ∧
    ((s.client c).phase = .reading ∧ (s.client c).host = some 0 ∧
      (s.client c).fromPhone.waiting = []) ∧
    (isPolling (s.client c).writer = true ∧ (s.client c).pongs.waiting = [] ∧
      (s.client c).fast.waiting = [] ∧ (s.client c).bulk.waiting = []) ∧
    (c ∈ (s.pc 0).sessions ∧ Waits ((s.pc 0).session c) ∨ Ended ((s.pc 0).session c)))

theorem onePhone_of_isOnePhone {s : RelayState} {c : String} (h : isOnePhone s c = true) :
    OnePhone s c := by
  rw [isOnePhone, decide_eq_true_eq] at h
  obtain ⟨hinstances, hphones, hloop, hhostWriter, hpc, hclient, hphoneWriter, hsession⟩ := h
  exact ⟨hinstances, hphones, hloop, hhostWriter, hpc, hclient, hphoneWriter, hsession⟩

/-- A check of a step that is enough for both ends to be told. -/
def tells (s : RelayState) : Action → Bool
  | .pc _ (.pumpExits _) | .phone _ (.fails _) | .hostWriter _ (.fails _) | .pc _ .readerEnds =>
      false
  | .client _ .sendOpen | .client _ .sendClose => decide ((s.host 0).writer = .receiving)
  | .hostWriter _ .sent => (s.pc 0).reader
  | _ => true

theorem told_of_tells {s : RelayState} {a : Action} (h : tells s a = true) : Told 0 s a where
  exits := by
    rintro c rfl
    simp [tells] at h
  writes := by
    rintro c flushed rfl
    simp [tells] at h
  carries := by
    intro hloses
    unfold Loses at hloses
    split at hloses
    · simp [tells, hloses.2] at h
    · rcases hloses.2.2 with hwriter | hwriter <;> simp [tells, hwriter] at h
    · simp [tells] at h
    · simp [tells, hloses.2.1] at h
    · simp [tells] at h
    · exact hloses

def tellingAct (a : Action) (s : RelayState) : Option RelayState :=
  if tells s a then act a s else none

theorem told_of_follow {actions : List Action} {s : RelayState}
    (h : follow tellingAct actions {} = some s) : (told 0).Reachable s := by
  refine reachable_of_follow (fun {s a t} hact => ?_) (.init rfl) h
  unfold tellingAct at hact
  split at hact
  · rename_i htells
    exact ⟨hact, told_of_tells htells⟩
  · contradiction

theorem agree_of_told_open : ∃ s, (told 0).Reachable s ∧ Quiescent s 0 ∧
    phoneId ∈ (s.pc 0).sessions ∧ Agree s 0 := by
  have hrun : (follow tellingAct (attachPhone ++ openSession) {}).map (fun s =>
      (isOnePhone s phoneId, decide (phoneId ∈ (s.pc 0).sessions))) = some (true, true) := by
    decide +kernel
  obtain ⟨s, hs, houtcome⟩ := Option.map_eq_some_iff.mp hrun
  simp only [Prod.mk.injEq, decide_eq_true_eq] at houtcome
  have htold := told_of_follow hs
  have hquiet := (onePhone_of_isOnePhone houtcome.1).quiescent htold.of_restrict
  exact ⟨s, htold, hquiet, houtcome.2, agree_of_told htold hquiet⟩

/-- The PC has ended the session of a phone, and the phone's `client_loop` goes on. -/
theorem endSession_disagree :
    ¬ ∀ s, relay.Reachable s → ∀ i, Quiescent s i → Agree s i := by
  intro hall
  have hrun : (follow act (attachPhone ++ openSession ++ endSession) {}).map (fun s =>
      (isOnePhone s phoneId, decide (phoneId ∈ (s.pc 0).sessions))) = some (true, false) := by
    decide +kernel
  obtain ⟨s, hs, houtcome⟩ := Option.map_eq_some_iff.mp hrun
  simp only [Prod.mk.injEq, decide_eq_false_iff_not] at houtcome
  have hreach := reachable_of_actions hs
  have hphone := onePhone_of_isOnePhone houtcome.1
  have hagree := hall s hreach 0 (hphone.quiescent hreach) phoneId
  have hpolling := hphone.phoneWriter.1
  refine houtcome.2 (hagree.mp ⟨hphone.client.2.1, by simp [hphone.client.1, reads], ?_, ?_⟩)
  · rintro hwriter
    simp [hwriter, isPolling] at hpolling
  · rintro hwriter
    simp [hwriter, isPolling] at hpolling

end RemoteControl.Relay.Agreement
