import RemoteControl.Relay.Downlink

/-!
What is left of a tunnel when `RelayClient::run` has returned. The session map is shared by
the reader and the pumps, so a session that is still in it keeps the sender of its own inbox
alive; and the reader goes on by itself when it is not the side that died.
-/

namespace RemoteControl.Relay.TunnelEnd

open RemoteControl.Foundations.ByteStrings
open RemoteControl.Foundations.Fifo
open RemoteControl.Foundations.Transition
open RemoteControl.Foundations.Transition.System (follow)
open RemoteControl.Wire.Protocol
open RemoteControl.Wire.Tunnel
open RemoteControl.Server.PhoneSessions
open RemoteControl.Server.Outbound
open RemoteControl.Relay.Loops
open RemoteControl.Relay.Frame
open RemoteControl.Relay.Attachment
open RemoteControl.Relay.Uplink
open RemoteControl.Relay.Downlink

/-! ### One tunnel of the PC -/

/-- The final `select!` of `run` is over: the reader or the writer has ended. -/
def Returned (p : RelayClient) : Prop :=
  p.reader = false ∨ p.writer = .closed

instance (p : RelayClient) : Decidable (Returned p) :=
  inferInstanceAs (Decidable (_ ∨ _))

structure Tunnel where
  client : RelayClient := {}
  returned : Bool := false

/-- The tasks of the tunnel, its WebSocket in both directions, and the end of `run`. -/
inductive TunnelAction where
  | task (a : PcAction)
  | arrives (m : Message)
  | departs
  | returns
deriving DecidableEq

/-- A relay draws a new id for every phone: no session is opened twice. -/
def isFresh (sent : List Message) (m : Message) : Bool :=
  (tunnelFrames [m]).all fun
    | .clientOpen c => decide (.clientOpen c ∉ tunnelFrames sent)
    | _ => true

def tunnelAct (a : TunnelAction) (s : Tunnel) : Option Tunnel :=
  match a with
  | .task a => (s.client.act a).map fun client => { s with client }
  | .arrives m =>
      if isFresh s.client.up.sent m then
        some { s with client := { s.client with up := s.client.up.push m } }
      else none
  | .departs =>
      s.client.down.pop?.map fun (_, down) => { s with client := { s.client with down } }
  | .returns =>
      if s.returned = false ∧ Returned s.client then some { s with returned := true } else none

def tunnel : System Tunnel TunnelAction where
  init s := s = {}
  step s a t := tunnelAct a s = some t

/-! ### What may be left of it -/

/-- The pump of a session holds the session map until it has finished. -/
def holdsSessions : PumpPhase → Bool
  | .running | .stopping => true
  | .unspawned | .finished => false

/-- The session map is alive once `run` has returned: the reader or some pump holds it. -/
def SessionsHeld (p : RelayClient) : Prop :=
  p.reader = true ∨ ∃ c, holdsSessions (p.session c).pump = true

/-- The sender of a session's inbox is alive, in the session map. -/
def InboxHasSender (p : RelayClient) (c : String) : Prop :=
  c ∈ p.sessions ∧ SessionsHeld p

/-- What `recv` gives a `run_connection` that has taken `n` messages from its inbox. -/
inductive InboxRecv (p : RelayClient) (c : String) (n : Nat) : Polled → Prop where
  | message (m : Message) : (p.session c).inbox[n]? = some m → InboxRecv p c n (.message m)
  | pending : (p.session c).inbox[n]? = none → InboxHasSender p c → InboxRecv p c n .pending
  | closed : (p.session c).inbox[n]? = none → ¬ InboxHasSender p c → InboxRecv p c n .closed

/-- The reader takes a frame from its WebSocket and dispatches it. -/
def Dispatches (p : RelayClient) : Prop :=
  p.reader = true ∧ ∃ bytes up frame,
    p.up.pop? = some (.binary bytes, up) ∧ decode bytes = some frame

/-- Whatever the tasks and the WebSocket do from here, no frame is dispatched, no inbox has a
sender, and a `run_connection` that has taken what is in its inbox sees it closed. -/
structure LeavesNothing (s : Tunnel) : Prop where
  undispatched : ∀ as t, tunnel.Run s as t → ¬ Dispatches t.client
  inboxes : ∀ as t, tunnel.Run s as t → ∀ c, ¬ InboxHasSender t.client c
  closed : ∀ as t, tunnel.Run s as t → ∀ c,
    (t.client.session c).inbox = (s.client.session c).inbox ∧
      InboxRecv t.client c (s.client.session c).inbox.length .closed

/-! ### What has happened to it -/

/-- The stream of the reader has ended, or a `Close` has arrived and the reader has taken it or
has no frame left in front of it. -/
def StreamOver (before : List TunnelAction) (s : Tunnel) : Prop :=
  .task .readerEnds ∈ before ∨ .close ∈ s.client.up.taken ∨
    ∃ front rest, s.client.up.waiting = front ++ .close :: rest ∧ tunnelFrames front = []

/-- A session is opened and not closed later on by these frames. -/
def OpenIn (c : String) (frames : List TunnelFrame) : Prop :=
  ∃ before after, frames = before ++ .clientOpen c :: after ∧ .clientClose c ∉ after

/-! ### The pumps of the sessions in the map -/

/-- Every session in the map has its pump. -/
def Pumped (p : RelayClient) : Prop :=
  ∀ c ∈ p.sessions, holdsSessions (p.session c).pump = true

theorem Pumped.congr {p p' : RelayClient} (h : Pumped p)
    (hsessions : ∀ c ∈ p'.sessions, c ∈ p.sessions)
    (hpump : ∀ c ∈ p'.sessions, (p'.session c).pump = (p.session c).pump) : Pumped p' := by
  intro c hmem
  rw [hpump c hmem]
  exact h c (hsessions c hmem)

theorem Pumped.setSession {p : RelayClient} {c : String} {session : PhoneSession}
    (h : Pumped p)
    (hpump : holdsSessions (p.session c).pump = true →
      holdsSessions session.pump = true) : Pumped (p.setSession c session) := by
  intro c' hmem
  rcases eq_or_ne c' c with rfl | hne
  · simpa using hpump (h c' hmem)
  · simpa [hne] using h c' hmem

theorem Pumped.handleFrame {p : RelayClient} (h : Pumped p) (frame : TunnelFrame) :
    Pumped (p.handleFrame frame) := by
  rcases frame with c | c | ⟨c, text, payload⟩
  · intro c' hmem
    rcases eq_or_ne c' c with rfl | hne
    · simp [RelayClient.handleFrame, holdsSessions]
    · simp only [RelayClient.handleFrame, setSession_sessions, Finset.mem_insert] at hmem
      simpa [RelayClient.handleFrame, hne] using h c' (hmem.resolve_left hne)
  · exact h.congr (fun c' hmem => Finset.mem_of_mem_erase hmem) fun _ _ => rfl
  · simp only [RelayClient.handleFrame]
    split
    · exact h
    · split
      · exact h.setSession id
      · exact h

theorem Pumped.pumpOnce {p : RelayClient} (h : Pumped p) (c : String) :
    Pumped (p.pumpOnce c) := by
  obtain ⟨lanes, heq | heq | ⟨m, frame, -, -, heq⟩⟩ := p.pumpOnce_cases c
  · rw [heq]
    exact h.setSession id
  · rw [heq]
    exact h.setSession fun _ => rfl
  · have hsent : Pumped { p with hostOut := p.hostOut.push frame } :=
      h.congr (fun _ => id) fun _ _ => rfl
    rw [heq]
    exact hsent.setSession id

theorem Pumped.act {p p' : RelayClient} {a : PcAction} (hp : Pumped p)
    (h : p.act a = some p') : Pumped p' := by
  have hsame {q : RelayClient} (hsessions : q.sessions = p.sessions)
      (hsession : q.session = p.session) : Pumped q := by
    refine hp.congr (fun c hmem => ?_) fun c _ => ?_
    · rw [hsessions] at hmem
      exact hmem
    · rw [hsession]
  cases RelayClient.steps_of_act h with
  | @dispatches _ up frame =>
      have hread : Pumped { p with up } := hsame rfl rfl
      exact hread.handleFrame frame
  | produce | dropSenders | logicEnds => exact hp.setSession id
  | @pump c => exact hp.pumpOnce c
  | @pumpExits c =>
      intro c' hmem
      have hne : c' ≠ c := by
        rintro rfl
        simp at hmem
      have hbefore : c' ∈ p.sessions := by simpa [hne] using hmem
      simpa [hne] using hp c' hbefore
  | _ => exact hsame rfl rfl

/-! ### What one step does to the reader and a pump -/

theorem pcAct_read {p p' : RelayClient} (h : p.act .read = some p') :
    ∃ m up, p.up.pop? = some (m, up) ∧ p'.up = up ∧ p.reader = true ∧
      (p'.reader = false ↔ m = .close) := by
  cases RelayClient.steps_of_act h with
  | @dispatches bytes up frame hreads hpop =>
      obtain ⟨sessions, session, heq⟩ := RelayClient.handleFrame_eq { p with up } frame
      rw [heq]
      exact ⟨_, _, hpop, rfl, hreads, by simp [hreads]⟩
  | skips hreads hpop hclose => exact ⟨_, _, hpop, rfl, hreads, by simpa [hreads] using hclose⟩
  | closes hreads hpop => exact ⟨_, _, hpop, rfl, hreads, by simp⟩

theorem pcAct_other {p p' : RelayClient} {a : PcAction} (h : p.act a = some p') (hread : a ≠ .read)
    (hends : a ≠ .readerEnds) : p'.up = p.up ∧ p'.reader = p.reader := by
  cases RelayClient.steps_of_act h with
  | dispatches | skips | closes => exact absurd rfl hread
  | readerEnds => exact absurd rfl hends
  | @pump c =>
      obtain ⟨lanes, heq | heq | ⟨m, frame, -, -, heq⟩⟩ := p.pumpOnce_cases c <;> rw [heq] <;>
        exact ⟨rfl, rfl⟩
  | _ => exact ⟨rfl, rfl⟩

theorem pump_cases {p p' : RelayClient} {a : PcAction} (h : p.act a = some p') (c : String) :
    (p'.session c).pump = (p.session c).pump ∨
      (p.session c).pump = .running ∧ (p'.session c).pump = .stopping ∨
        (a = .pumpExits c ∧ (p'.session c).pump = .finished) ∨
          ∃ bytes up, p.up.pop? = some (.binary bytes, up) ∧ p'.up = up ∧
            decode bytes = some (.clientOpen c) ∧ (p'.session c).pump = .running := by
  have hkeep {q : RelayClient} {c' : String} {session : PhoneSession}
      (hq : q.session = p.session) (hpump : session.pump = (p.session c').pump) :
      ((q.setSession c' session).session c).pump = (p.session c).pump := by
    rcases eq_or_ne c c' with rfl | hne
    · simpa using hpump
    · simp [hne, hq]
  have hstop {c' : String} {session : PhoneSession} (hrunning : (p.session c').pump = .running)
      (hpump : session.pump = .stopping) :
      ((p.setSession c' session).session c).pump = (p.session c).pump ∨
        (p.session c).pump = .running ∧
          ((p.setSession c' session).session c).pump = .stopping := by
    rcases eq_or_ne c c' with rfl | hne
    · exact .inr ⟨hrunning, by simpa using hpump⟩
    · exact .inl (by simp [hne])
  cases RelayClient.steps_of_act h with
  | @dispatches bytes up frame _ hpop hdecode =>
      rcases frame with c' | c' | ⟨c', text, payload⟩
      · rcases eq_or_ne c c' with rfl | hne
        · exact .inr (.inr (.inr ⟨bytes, up, hpop, rfl, hdecode,
            by simp [RelayClient.handleFrame]⟩))
        · exact .inl (by simp [RelayClient.handleFrame, hne])
      · exact .inl rfl
      · refine .inl ?_
        simp only [RelayClient.handleFrame]
        split
        · rfl
        · split
          · exact hkeep rfl rfl
          · rfl
  | produce | dropSenders | logicEnds => exact .inl (hkeep rfl rfl)
  | @pump c' hrunning =>
      obtain ⟨lanes, heq | heq | ⟨m, frame, -, -, heq⟩⟩ := p.pumpOnce_cases c'
      · rw [heq]
        exact .inl (hkeep rfl rfl)
      · rw [heq]
        exact (hstop hrunning rfl).imp_right .inl
      · rw [heq]
        exact .inl (hkeep rfl rfl)
  | @pumpExits c' =>
      rcases eq_or_ne c c' with rfl | hne
      · exact .inr (.inr (.inl ⟨rfl, by simp⟩))
      · exact .inl (by simp [hne])
  | _ => exact .inl rfl

/-! ### The session map -/

theorem openIn_open (c : String) (frames : List TunnelFrame) :
    OpenIn c (frames ++ [.clientOpen c]) :=
  ⟨frames, [], rfl, List.not_mem_nil⟩

theorem not_openIn_close (c : String) (frames : List TunnelFrame) :
    ¬ OpenIn c (frames ++ [.clientClose c]) := by
  rintro ⟨before, after, heq, hunclosed⟩
  rcases List.eq_nil_or_concat after with rfl | ⟨after, last, rfl⟩
  · have hlast := (List.append_inj' heq rfl).2
    simp at hlast
  · rw [List.concat_eq_append, ← List.cons_append, ← List.append_assoc] at heq
    have hlast := (List.append_inj' heq rfl).2
    rw [List.cons.injEq] at hlast
    refine hunclosed ?_
    simp [← hlast.1]

theorem openIn_other {c : String} {frames : List TunnelFrame} {frame : TunnelFrame}
    (hopen : frame ≠ .clientOpen c) (hclose : frame ≠ .clientClose c) :
    OpenIn c (frames ++ [frame]) ↔ OpenIn c frames := by
  constructor
  · rintro ⟨before, after, heq, hunclosed⟩
    rcases List.eq_nil_or_concat after with rfl | ⟨after, last, rfl⟩
    · have hlast := (List.append_inj' heq rfl).2
      simp only [List.cons.injEq, and_true] at hlast
      exact absurd hlast hopen
    · rw [List.concat_eq_append, ← List.cons_append, ← List.append_assoc] at heq
      refine ⟨before, after, (List.append_inj' heq rfl).1, fun hmem => hunclosed ?_⟩
      simp [hmem]
  · rintro ⟨before, after, rfl, hunclosed⟩
    refine ⟨before, after ++ [frame], by simp, ?_⟩
    simp [hunclosed, hclose.symm]

theorem OpenIn.mem {c : String} {frames : List TunnelFrame} (h : OpenIn c frames) :
    .clientOpen c ∈ frames := by
  obtain ⟨before, after, rfl, -⟩ := h
  simp

/-- The map holds the sessions that were opened and not closed and whose pump goes on. -/
structure Mapped (c : String) (frames : List TunnelFrame) (p : RelayClient) : Prop where
  member : c ∈ p.sessions ↔ OpenIn c frames ∧ (p.session c).pump ≠ .finished
  unopened : .clientOpen c ∉ frames → (p.session c).pump = .unspawned

theorem Mapped.congr {c : String} {frames : List TunnelFrame} {p p' : RelayClient}
    (h : Mapped c frames p) (hsessions : c ∈ p'.sessions ↔ c ∈ p.sessions)
    (hpump : (p'.session c).pump = (p.session c).pump) : Mapped c frames p' := by
  refine ⟨?_, ?_⟩
  · rw [hsessions, hpump]
    exact h.member
  · rw [hpump]
    exact h.unopened

theorem Mapped.setSession {c c' : String} {frames : List TunnelFrame} {p : RelayClient}
    {session : PhoneSession} (h : Mapped c frames p)
    (hpump : session.pump = (p.session c').pump) : Mapped c frames (p.setSession c' session) := by
  refine h.congr Iff.rfl ?_
  rcases eq_or_ne c c' with rfl | hne
  · simpa using hpump
  · simp [hne]

theorem Mapped.stop {c c' : String} {frames : List TunnelFrame} {p : RelayClient}
    {session : PhoneSession} (h : Mapped c frames p) (hrunning : (p.session c').pump = .running)
    (hpump : session.pump = .stopping) : Mapped c frames (p.setSession c' session) := by
  rcases eq_or_ne c c' with rfl | hne
  · have hopened : .clientOpen c ∈ frames := by
      by_contra hnone
      have hunspawned := h.unopened hnone
      rw [hrunning] at hunspawned
      contradiction
    have hmember := h.member
    refine ⟨?_, fun hnone => absurd hopened hnone⟩
    simp only [setSession_sessions, setSession_session, Function.update_self]
    rw [hmember, hrunning]
    simp [hpump]
  · exact h.congr Iff.rfl (by simp [hne])

theorem Mapped.pumpOnce {c c' : String} {frames : List TunnelFrame} {p : RelayClient}
    (h : Mapped c frames p) (hrunning : (p.session c').pump = .running) :
    Mapped c frames (p.pumpOnce c') := by
  obtain ⟨lanes, heq | heq | ⟨m, frame, -, -, heq⟩⟩ := p.pumpOnce_cases c'
  · rw [heq]
    exact h.setSession rfl
  · rw [heq]
    exact h.stop hrunning rfl
  · have hsent : Mapped c frames { p with hostOut := p.hostOut.push frame } :=
      h.congr Iff.rfl rfl
    rw [heq]
    exact hsent.setSession rfl

theorem Mapped.handleFrame {c : String} {frames : List TunnelFrame} {p : RelayClient}
    {frame : TunnelFrame} (h : Mapped c frames p)
    (hfresh : frame = .clientOpen c → .clientOpen c ∉ frames) :
    Mapped c (frames ++ [frame]) (p.handleFrame frame) := by
  have hother {q : RelayClient} (hq : Mapped c frames q) (hopen : frame ≠ .clientOpen c)
      (hclose : frame ≠ .clientClose c) : Mapped c (frames ++ [frame]) q := by
    refine ⟨?_, ?_⟩
    · rw [openIn_other hopen hclose]
      exact hq.member
    · simpa [hopen.symm] using hq.unopened
  rcases frame with c' | c' | ⟨c', text, payload⟩
  · rcases eq_or_ne c' c with rfl | hne
    · refine ⟨?_, ?_⟩ <;> simp [RelayClient.handleFrame, openIn_open]
    · refine hother (h.congr ?_ ?_) (by simp [hne]) (by simp)
      · simp [RelayClient.handleFrame, hne.symm]
      · simp [RelayClient.handleFrame, hne.symm]
  · rcases eq_or_ne c' c with rfl | hne
    · refine ⟨?_, ?_⟩
      · simp [RelayClient.handleFrame, not_openIn_close]
      · simpa [RelayClient.handleFrame] using h.unopened
    · refine hother (h.congr ?_ rfl) (by simp) (by simp [hne])
      simp [RelayClient.handleFrame, hne.symm]
  · refine hother ?_ (by simp) (by simp)
    simp only [RelayClient.handleFrame]
    split
    · exact h
    · split
      · exact h.setSession rfl
      · exact h

theorem Mapped.act {c : String} {p p' : RelayClient} {a : PcAction}
    (hp : Mapped c (tunnelFrames p.up.taken) p) (h : p.act a = some p')
    (hfresh : ∀ bytes up, p.up.pop? = some (.binary bytes, up) →
      decode bytes = some (.clientOpen c) → .clientOpen c ∉ tunnelFrames p.up.taken) :
    Mapped c (tunnelFrames p'.up.taken) p' := by
  have hread {m : Message} {up : Queue Message} (hpop : p.up.pop? = some (m, up)) :
      tunnelFrames up.taken = tunnelFrames p.up.taken ++ tunnelFrames [m] := by
    rw [Queue.pop?_taken hpop, tunnelFrames_append]
  cases RelayClient.steps_of_act h with
  | @dispatches bytes up frame _ hpop hdecode =>
      have hstale : Mapped c (tunnelFrames p.up.taken) { p with up } := hp.congr Iff.rfl rfl
      have hone : tunnelFrames [.binary bytes] = [frame] := by
        simp [tunnelFrames, hdecode]
      rw [handleFrame_up, hread hpop, hone]
      refine hstale.handleFrame ?_
      rintro rfl
      exact hfresh bytes up hpop hdecode
  | skips _ hpop _ hnone =>
      rw [hread hpop, hnone, List.append_nil]
      exact hp.congr Iff.rfl rfl
  | closes _ hpop =>
      rw [hread hpop]
      exact (List.append_nil (tunnelFrames p.up.taken)).symm ▸ hp.congr Iff.rfl rfl
  | produce | dropSenders | logicEnds => exact hp.setSession rfl
  | pump hrunning =>
      rw [pumpOnce_up]
      exact hp.pumpOnce hrunning
  | @pumpExits c' hstopping =>
      rcases eq_or_ne c c' with rfl | hne
      · have hopened : .clientOpen c ∈ tunnelFrames p.up.taken := by
          by_contra hnone
          have hunspawned := hp.unopened hnone
          rw [hstopping] at hunspawned
          contradiction
        refine ⟨by simp, fun hnone => absurd hopened hnone⟩
      · refine hp.congr ?_ ?_
        · simp [hne]
        · simp [hne]
  | _ => exact hp.congr Iff.rfl rfl

/-! ### What the history of a tunnel says about its state -/

/-- No session is opened twice by these frames. -/
def OpensOnce (frames : List TunnelFrame) : Prop :=
  ∀ c before after, frames = before ++ .clientOpen c :: after → .clientOpen c ∉ before

theorem OpensOnce.push {messages : List Message} {m : Message}
    (h : OpensOnce (tunnelFrames messages)) (hfresh : isFresh messages m = true) :
    OpensOnce (tunnelFrames (messages ++ [m])) := by
  intro c before after heq
  rw [tunnelFrames_append] at heq
  have hnew : tunnelFrames [m] = [] ∨ ∃ frame, tunnelFrames [m] = [frame] := by
    unfold tunnelFrames
    rcases m with _ | bytes | _ | _ | _
    case binary =>
        rcases hdecode : decode bytes with _ | frame
        · exact .inl (by simp [hdecode])
        · exact .inr ⟨frame, by simp [hdecode]⟩
    all_goals exact .inl rfl
  rcases hnew with hnone | ⟨frame, hone⟩
  · rw [hnone, List.append_nil] at heq
    exact h c before after heq
  · rw [hone] at heq
    rcases List.eq_nil_or_concat after with rfl | ⟨after, last, rfl⟩
    · obtain ⟨hbefore, hlast⟩ := List.append_inj' heq rfl
      simp only [List.cons.injEq, and_true] at hlast
      subst hbefore hlast
      simpa [isFresh, hone] using hfresh
    · rw [List.concat_eq_append, ← List.cons_append, ← List.append_assoc] at heq
      exact h c before after (List.append_inj' heq rfl).1

theorem opensOnce_taken {q up : Queue Message} {bytes : Bytes} {c : String}
    (h : OpensOnce (tunnelFrames q.sent)) (hpop : q.pop? = some (.binary bytes, up))
    (hdecode : decode bytes = some (.clientOpen c)) :
    .clientOpen c ∉ tunnelFrames q.taken := by
  refine h c (tunnelFrames q.taken) (tunnelFrames up.waiting) ?_
  rw [← Queue.pop?_sent hpop, Queue.sent, Queue.pop?_taken hpop, tunnelFrames_append,
    tunnelFrames_append, List.append_assoc]
  simp [tunnelFrames, hdecode]

/-- What a run from the start of a tunnel leaves behind. -/
structure Followed (as : List TunnelAction) (s : Tunnel) : Prop where
  once : OpensOnce (tunnelFrames s.client.up.sent)
  ended : s.client.reader = false ↔ .task .readerEnds ∈ as ∨ .close ∈ s.client.up.taken
  exited : ∀ c, (s.client.session c).pump = .finished ↔ .task (.pumpExits c) ∈ as
  mapped : ∀ c, Mapped c (tunnelFrames s.client.up.taken) s.client
  pumped : Pumped s.client

theorem Followed.congr {as : List TunnelAction} {s t : Tunnel} {a : TunnelAction}
    (h : Followed as s) (ha : ∀ b, a ≠ .task b)
    (honce : OpensOnce (tunnelFrames t.client.up.sent))
    (htaken : t.client.up.taken = s.client.up.taken)
    (hreader : t.client.reader = s.client.reader)
    (hsessions : t.client.sessions = s.client.sessions)
    (hsession : t.client.session = s.client.session) : Followed (as ++ [a]) t where
  once := honce
  ended := by simp [hreader, htaken, h.ended, (ha _).symm]
  exited c := by simp [hsession, h.exited, (ha _).symm]
  mapped c := by
    rw [htaken]
    exact (h.mapped c).congr (by rw [hsessions]) (by rw [hsession])
  pumped := by
    refine h.pumped.congr (fun c hmem => ?_) fun c _ => by rw [hsession]
    rwa [hsessions] at hmem

theorem ended_act {p p' : RelayClient} {a : PcAction} {as : List TunnelAction}
    (hp : p.reader = false ↔ .task .readerEnds ∈ as ∨ .close ∈ p.up.taken)
    (h : p.act a = some p') :
    p'.reader = false ↔ .task .readerEnds ∈ as ++ [.task a] ∨ .close ∈ p'.up.taken := by
  by_cases hread : a = .read
  · subst hread
    obtain ⟨m, up, hpop, hup, hreads, hends⟩ := pcAct_read h
    subst hup
    have hgoes : .task .readerEnds ∉ as ∧ .close ∉ p.up.taken := by
      rw [← not_or, ← hp, hreads]
      simp
    rw [hends, Queue.pop?_taken hpop]
    simp [hgoes.1, hgoes.2, eq_comm]
  · by_cases hends : a = .readerEnds
    · subst hends
      cases h
      simp
    · obtain ⟨hup, hreader⟩ := pcAct_other h hread hends
      have hother : TunnelAction.task .readerEnds ≠ .task a := by
        simpa using fun heq : PcAction.readerEnds = a => hends heq.symm
      rw [hreader, hup, hp]
      simp [hother]

theorem exited_act {p p' : RelayClient} {a : PcAction} {as : List TunnelAction} {c : String}
    (hp : (p.session c).pump = .finished ↔ .task (.pumpExits c) ∈ as)
    (hmapped : Mapped c (tunnelFrames p.up.taken) p) (h : p.act a = some p')
    (hfresh : ∀ bytes up, p.up.pop? = some (.binary bytes, up) →
      decode bytes = some (.clientOpen c) → .clientOpen c ∉ tunnelFrames p.up.taken) :
    (p'.session c).pump = .finished ↔ .task (.pumpExits c) ∈ as ++ [.task a] := by
  by_cases ha : a = .pumpExits c
  · subst ha
    dsimp only [RelayClient.act] at h
    split at h
    · cases h
      simp
    · contradiction
  · have hother : TunnelAction.task (.pumpExits c) ≠ .task a := by
      simpa using fun heq : PcAction.pumpExits c = a => ha heq.symm
    have hsame : .task (.pumpExits c) ∈ as ++ [.task a] ↔ .task (.pumpExits c) ∈ as := by
      simp [hother]
    rw [hsame, ← hp]
    rcases pump_cases h c with hpump | ⟨hrunning, hstops⟩ | ⟨rfl, -⟩ | hopens
    · rw [hpump]
    · simp [hrunning, hstops]
    · exact absurd rfl ha
    · obtain ⟨bytes, up, hpop, -, hdecode, hruns⟩ := hopens
      have hunspawned := hmapped.unopened (hfresh bytes up hpop hdecode)
      simp [hunspawned, hruns]

theorem followed_of_run {as : List TunnelAction} {s : Tunnel} (h : tunnel.Run {} as s) :
    Followed as s := by
  induction h with
  | nil =>
      refine ⟨?_, by simp, by simp, fun c => ⟨?_, ?_⟩, ?_⟩
      · simp [OpensOnce, Queue.sent, tunnelFrames]
      · simp [OpenIn, tunnelFrames]
      · simp
      · intro c hmem
        simp at hmem
  | @snoc s t as a hprev hstep hs =>
      rcases a with b | m | _ | _ <;> dsimp only [tunnel, tunnelAct] at hstep
      case task =>
          obtain ⟨p, hact, rfl⟩ := Option.map_eq_some_iff.mp hstep
          have hfresh (c : String) (bytes : Bytes) (up : Queue Message)
              (hpop : s.client.up.pop? = some (.binary bytes, up))
              (hdecode : decode bytes = some (.clientOpen c)) :=
            opensOnce_taken hs.once hpop hdecode
          exact {
            once := by rw [pcAct_up_sent hact]; exact hs.once
            ended := ended_act hs.ended hact
            exited := fun c => exited_act (hs.exited c) (hs.mapped c) hact (hfresh c)
            mapped := fun c => (hs.mapped c).act hact (hfresh c)
            pumped := hs.pumped.act hact }
      case arrives =>
          split at hstep
          · rename_i hfresh
            cases hstep
            refine hs.congr (by simp) ?_ rfl rfl rfl rfl
            rw [Queue.push_sent]
            exact hs.once.push hfresh
          · contradiction
      case departs =>
          obtain ⟨⟨m, down⟩, -, rfl⟩ := Option.map_eq_some_iff.mp hstep
          exact hs.congr (by simp) hs.once rfl rfl rfl rfl
      case returns =>
          split at hstep
          · cases hstep
            exact hs.congr (by simp) hs.once rfl rfl rfl rfl
          · contradiction

/-- What the relay puts on the WebSocket of a PC opens no session twice. -/
theorem reachable_opensOnce {s : RelayState} (hs : relay.Reachable s) (i : Nat) :
    OpensOnce (tunnelFrames (s.pc i).up.sent) := by
  intro c before after heq hmem
  have horder : SessionOrder c (about c (tunnelFrames (s.pc i).up.sent)) := by
    have hpre : about c (tunnelFrames (s.pc i).up.sent) <+: about c (s.host i).toHost.sent :=
      about_isPrefix ((reachable_carried hs i).isPrefix.trans (Queue.taken_prefix_sent _))
    rcases eq_or_ne (s.client c).host (some i) with hhost | hhost
    · exact (uplinked_order ((reachable_attached hs c).attached i hhost)).1.of_isPrefix hpre
    · rw [(reachable_attached hs c).others i hhost, List.prefix_nil] at hpre
      exact .inl hpre
  rw [heq, about_append] at horder
  have hfirst : about c (.clientOpen c :: after) = .clientOpen c :: about c after := by
    simp [about, TunnelFrame.clientId]
  rw [hfirst, ← List.singleton_append, ← List.append_assoc] at horder
  have hbefore := (horder.of_isPrefix (List.prefix_append ..)).before_open
  have habout : .clientOpen c ∈ about c before :=
    List.mem_filter.mpr ⟨hmem, by simp [TunnelFrame.clientId]⟩
  rw [hbefore] at habout
  exact absurd habout List.not_mem_nil

/-! ### What is left when `run` returns -/

/-- The reader has ended, or comes to a `Close` before any frame. -/
def Silent (p : RelayClient) : Prop :=
  p.reader = false ∨
    ∃ front rest, p.up.waiting = front ++ .close :: rest ∧ tunnelFrames front = []

theorem silent_iff {as : List TunnelAction} {s : Tunnel} (h : Followed as s) :
    Silent s.client ↔ StreamOver as s := by
  rw [Silent, StreamOver, h.ended, or_assoc]

theorem Silent.not_dispatches {p : RelayClient} (h : Silent p) : ¬ Dispatches p := by
  rintro ⟨hreads, bytes, up, frame, hpop, hdecode⟩
  rcases h with hended | ⟨front, rest, hwaiting, hfront⟩
  · rw [hreads] at hended
    contradiction
  · rw [Queue.pop?_waiting hpop] at hwaiting
    rcases front with _ | ⟨first, front⟩
    · simp at hwaiting
    · rw [List.cons_append, List.cons.injEq] at hwaiting
      obtain ⟨rfl, -⟩ := hwaiting
      simp [tunnelFrames, hdecode] at hfront

theorem Silent.act {p p' : RelayClient} {a : PcAction} (hp : Silent p)
    (h : p.act a = some p') : Silent p' := by
  by_cases hread : a = .read
  · subst hread
    obtain ⟨m, up, hpop, hup, hreads, hends⟩ := pcAct_read h
    rcases hp with hended | ⟨front, rest, hwaiting, hfront⟩
    · rw [hreads] at hended
      contradiction
    · rw [Queue.pop?_waiting hpop] at hwaiting
      rcases front with _ | ⟨first, front⟩
      · rw [List.nil_append, List.cons.injEq] at hwaiting
        exact .inl (hends.mpr hwaiting.1)
      · rw [List.cons_append, List.cons.injEq] at hwaiting
        refine .inr ⟨front, rest, by rw [hup]; exact hwaiting.2, ?_⟩
        rw [← List.singleton_append, tunnelFrames_append, List.append_eq_nil_iff] at hfront
        exact hfront.2
  · by_cases hends : a = .readerEnds
    · subst hends
      cases h
      exact .inl rfl
    · obtain ⟨hup, hreader⟩ := pcAct_other h hread hends
      rwa [Silent, hup, hreader]

theorem act_undispatched {p p' : RelayClient} {a : PcAction} (hp : ¬ Dispatches p)
    (h : p.act a = some p') :
    p'.sessions ⊆ p.sessions ∧ ∀ c, (p'.session c).inbox = (p.session c).inbox := by
  have hsession {q : RelayClient} {c' : String} {session : PhoneSession}
      (hq : q.session = p.session) (hinbox : session.inbox = (p.session c').inbox) (c : String) :
      ((q.setSession c' session).session c).inbox = (p.session c).inbox := by
    rcases eq_or_ne c c' with rfl | hne
    · simpa using hinbox
    · simp [hne, hq]
  cases RelayClient.steps_of_act h with
  | dispatches hreads hpop hdecode => exact absurd ⟨hreads, _, _, _, hpop, hdecode⟩ hp
  | produce | dropSenders | logicEnds => exact ⟨subset_rfl, hsession rfl rfl⟩
  | @pump c' =>
      obtain ⟨lanes, heq | heq | ⟨m, frame, -, -, heq⟩⟩ := p.pumpOnce_cases c' <;> rw [heq] <;>
        exact ⟨subset_rfl, hsession rfl rfl⟩
  | pumpExits => exact ⟨Finset.erase_subset .., hsession rfl rfl⟩
  | _ => exact ⟨subset_rfl, fun _ => rfl⟩

/-- Nothing is left: no frame will be read, no session is in the map, and the inboxes are these. -/
structure Gone (inbox : String → List Message) (p : RelayClient) : Prop where
  silent : Silent p
  empty : p.sessions = ∅
  inboxes : ∀ c, (p.session c).inbox = inbox c

theorem Gone.step {inbox : String → List Message} {a : TunnelAction} {s t : Tunnel}
    (hs : Gone inbox s.client) (h : tunnelAct a s = some t) : Gone inbox t.client := by
  rcases a with a | m | _ | _ <;> dsimp only [tunnelAct] at h
  case task =>
      obtain ⟨p, hact, rfl⟩ := Option.map_eq_some_iff.mp h
      obtain ⟨hsessions, hinboxes⟩ := act_undispatched hs.silent.not_dispatches hact
      refine ⟨hs.silent.act hact, ?_, fun c => (hinboxes c).trans (hs.inboxes c)⟩
      rw [hs.empty] at hsessions
      exact Finset.subset_empty.mp hsessions
  case arrives =>
      split at h
      · cases h
        refine ⟨?_, hs.empty, hs.inboxes⟩
        rcases hs.silent with hended | ⟨front, rest, hwaiting, hfront⟩
        · exact .inl hended
        · refine .inr ⟨front, rest ++ [m], ?_, hfront⟩
          rw [Queue.push_waiting, hwaiting, List.append_assoc, List.cons_append]
      · contradiction
  case departs =>
      obtain ⟨⟨m, down⟩, -, rfl⟩ := Option.map_eq_some_iff.mp h
      exact ⟨hs.silent, hs.empty, hs.inboxes⟩
  case returns =>
      split at h
      · cases h
        exact hs
      · contradiction

theorem leavesNothing_of_silent {s : Tunnel} (hsilent : Silent s.client)
    (hempty : s.client.sessions = ∅) : LeavesNothing s := by
  have hgone {as : List TunnelAction} {t : Tunnel} (h : tunnel.Run s as t) :
      Gone (fun c => (s.client.session c).inbox) t.client := by
    induction h with
    | nil => exact ⟨hsilent, hempty, fun _ => rfl⟩
    | snoc hprev hstep ih => exact ih.step hstep
  have hsender {as : List TunnelAction} {t : Tunnel} (h : tunnel.Run s as t) (c : String) :
      ¬ InboxHasSender t.client c := by
    rintro ⟨hmem, -⟩
    rw [(hgone h).empty] at hmem
    exact absurd hmem (Finset.notMem_empty c)
  refine ⟨fun as t h => (hgone h).silent.not_dispatches, fun as t h c => hsender h c,
    fun as t h c => ⟨(hgone h).inboxes c, .closed ?_ (hsender h c)⟩⟩
  rw [(hgone h).inboxes c]
  simp

theorem skip_step {s : Tunnel} {m : Message} {up : Queue Message}
    (hreads : s.client.reader = true) (hpop : s.client.up.pop? = some (m, up))
    (hskips : tunnelFrames [m] = []) (hgoes : m ≠ .close) :
    tunnel.step s (.task .read) { s with client := { s.client with up } } := by
  have hact : s.client.act .read = some { s.client with up } := by
    simp only [RelayClient.act, hreads, if_true, hpop]
    rcases m with _ | bytes | _ | _ | _
    case binary =>
        dsimp only
        rcases hdecode : decode bytes with _ | frame
        · rfl
        · simp [tunnelFrames, hdecode] at hskips
    case close => exact absurd rfl hgoes
    all_goals rfl
  simp [tunnel, tunnelAct, hact]

theorem dispatched_of_waiting {front rest : List Message} {bytes : Bytes} {frame : TunnelFrame}
    {s : Tunnel} (hreads : s.client.reader = true)
    (hwaiting : s.client.up.waiting = front ++ .binary bytes :: rest)
    (hdecode : decode bytes = some frame) (hfront : tunnelFrames front = [])
    (hgoes : .close ∉ front) : ∃ as t, tunnel.Run s as t ∧ Dispatches t.client := by
  induction front generalizing s with
  | nil =>
      rcases hpop : s.client.up.pop? with _ | ⟨m, up⟩
      · rw [Queue.pop?_eq_none_iff.mp hpop] at hwaiting
        simp at hwaiting
      · have hhead := Queue.pop?_waiting hpop
        rw [hwaiting, List.nil_append, List.cons.injEq] at hhead
        obtain ⟨rfl, -⟩ := hhead
        exact ⟨[], s, .nil s, hreads, bytes, up, frame, hpop, hdecode⟩
  | cons first front ih =>
      rcases hpop : s.client.up.pop? with _ | ⟨m, up⟩
      · rw [Queue.pop?_eq_none_iff.mp hpop] at hwaiting
        simp at hwaiting
      · have hhead := Queue.pop?_waiting hpop
        rw [hwaiting, List.cons_append, List.cons.injEq] at hhead
        obtain ⟨rfl, hrest⟩ := hhead
        rw [← List.singleton_append, tunnelFrames_append, List.append_eq_nil_iff] at hfront
        rw [List.mem_cons, not_or] at hgoes
        have hskip := skip_step hreads hpop hfront.1 (Ne.symm hgoes.1)
        obtain ⟨as, t, hrun, hdispatches⟩ :=
          ih (s := { s with client := { s.client with up } }) hreads hrest.symm hfront.2 hgoes.2
        exact ⟨_, t, (System.Run.single hskip).append hrun, hdispatches⟩

theorem waiting_cases (waiting : List Message) :
    (∃ front bytes rest frame, waiting = front ++ .binary bytes :: rest ∧
      decode bytes = some frame ∧ tunnelFrames front = [] ∧ .close ∉ front) ∨
      (∃ front rest, waiting = front ++ .close :: rest ∧ tunnelFrames front = []) ∨
        tunnelFrames waiting = [] ∧ .close ∉ waiting := by
  induction waiting with
  | nil => exact .inr (.inr ⟨rfl, List.not_mem_nil⟩)
  | cons m waiting ih =>
      by_cases hclose : m = .close
      · subst hclose
        exact .inr (.inl ⟨[], waiting, rfl, rfl⟩)
      · by_cases hskips : tunnelFrames [m] = []
        · have hcons (front : List Message) (h : tunnelFrames front = []) :
              tunnelFrames (m :: front) = [] := by
            rw [← List.singleton_append, tunnelFrames_append, hskips, h, List.append_nil]
          rcases ih with ⟨front, bytes, rest, frame, rfl, hdecode, hfront, hgoes⟩ |
            ⟨front, rest, rfl, hfront⟩ | ⟨hnone, hgoes⟩
          · exact .inl ⟨m :: front, bytes, rest, frame, rfl, hdecode, hcons front hfront,
              by simp [hgoes, Ne.symm hclose]⟩
          · exact .inr (.inl ⟨m :: front, rest, rfl, hcons front hfront⟩)
          · exact .inr (.inr ⟨hcons waiting hnone, by simp [hgoes, Ne.symm hclose]⟩)
        · rcases m with _ | bytes | _ | _ | _
          case binary =>
              rcases hdecode : decode bytes with _ | frame
              · exact absurd (by simp [tunnelFrames, hdecode]) hskips
              · exact .inl ⟨[], bytes, waiting, frame, rfl, hdecode, rfl, List.not_mem_nil⟩
          all_goals exact absurd rfl hskips

theorem silent_of_leavesNothing {s : Tunnel} (h : LeavesNothing s) : Silent s.client := by
  by_contra hloud
  have hreads : s.client.reader = true := by
    by_contra hended
    exact hloud (.inl (by simpa using hended))
  rcases waiting_cases s.client.up.waiting with
    ⟨front, bytes, rest, frame, hwaiting, hdecode, hfront, hgoes⟩ | hclose | ⟨hnone, hgoes⟩
  · obtain ⟨as, t, hrun, hdispatches⟩ :=
      dispatched_of_waiting hreads hwaiting hdecode hfront hgoes
    exact h.undispatched as t hrun hdispatches
  · exact hloud (.inr hclose)
  · -- The relay may still send a frame.
    have hdecode : decode (encode (.clientClose phoneId)) = some (.clientClose phoneId) :=
      decode_encode (by decide +kernel)
    have harrives : tunnel.step s (.arrives (.binary (encode (.clientClose phoneId))))
        { s with client := { s.client with
            up := s.client.up.push (.binary (encode (.clientClose phoneId))) } } := by
      simp [tunnel, tunnelAct, isFresh, tunnelFrames, hdecode]
    have hwaits : (s.client.up.push (.binary (encode (.clientClose phoneId)))).waiting =
        s.client.up.waiting ++ [.binary (encode (.clientClose phoneId))] := Queue.push_waiting ..
    obtain ⟨as, t, hrun, hdispatches⟩ := dispatched_of_waiting (s := { s with client :=
        { s.client with up := s.client.up.push (.binary (encode (.clientClose phoneId))) } })
      hreads hwaits hdecode hnone hgoes
    exact h.undispatched _ t ((System.Run.single harrives).append hrun) hdispatches

/-- What `run` leaves behind when it returns: nothing, if and only if the reader's stream is over
and every session that was opened has been closed or its pump has exited. -/
theorem leavesNothing_iff {before : List TunnelAction} {s : Tunnel}
    (h : tunnel.Run {} (before ++ [.returns]) s) :
    LeavesNothing s ↔ StreamOver before s ∧
      ∀ c, OpenIn c (tunnelFrames s.client.up.taken) → .task (.pumpExits c) ∈ before := by
  have hfollowed := followed_of_run h
  have hover : StreamOver (before ++ [.returns]) s ↔ StreamOver before s := by
    simp [StreamOver]
  have hexits (c : String) : .task (.pumpExits c) ∈ before ++ [.returns] ↔
      .task (.pumpExits c) ∈ before := by simp
  have hempty : s.client.sessions = ∅ ↔
      ∀ c, OpenIn c (tunnelFrames s.client.up.taken) → .task (.pumpExits c) ∈ before := by
    rw [Finset.eq_empty_iff_forall_notMem]
    refine forall_congr' fun c => ?_
    rw [(hfollowed.mapped c).member, ← hexits, ← hfollowed.exited c, not_and, not_not]
  rw [← hover, ← silent_iff hfollowed, ← hempty]
  constructor
  · intro hnothing
    refine ⟨silent_of_leavesNothing hnothing, ?_⟩
    rw [Finset.eq_empty_iff_forall_notMem]
    intro c hmem
    exact hnothing.inboxes [] s (.nil s) c ⟨hmem, .inr ⟨c, hfollowed.pumped c hmem⟩⟩
  · rintro ⟨hsilent, hsessions⟩
    exact leavesNothing_of_silent hsilent hsessions

/-! ### A tunnel with one phone -/

/-- The session of the phone is opened and closed before the reader ends. -/
def closedTunnel : List TunnelAction :=
  [.arrives (.binary (encode (.clientOpen phoneId))), .task .read,
    .arrives (.binary (encode (.clientClose phoneId))), .task .read, .task .readerEnds]

theorem leavesNothing_iff_closed : ∃ s, tunnel.Run {} (closedTunnel ++ [.returns]) s ∧
    s.client.up.taken ≠ [] ∧ LeavesNothing s := by
  have hrun : (follow tunnelAct (closedTunnel ++ [.returns]) {}).map (fun s =>
      s.client.up.taken) = some [.binary (encode (.clientOpen phoneId)),
        .binary (encode (.clientClose phoneId))] := by
    decide +kernel
  obtain ⟨s, hs, htaken⟩ := Option.map_eq_some_iff.mp hrun
  have hreach : tunnel.Run {} (closedTunnel ++ [.returns]) s :=
    System.run_of_follow (fun h => h) hs
  have hframes : tunnelFrames s.client.up.taken = [.clientOpen phoneId, .clientClose phoneId] := by
    rw [htaken]
    decide +kernel
  refine ⟨s, hreach, by simp [htaken], (leavesNothing_iff hreach).mpr ⟨.inl ?_, fun c hopen => ?_⟩⟩
  · simp [closedTunnel]
  · exfalso
    rw [hframes] at hopen
    by_cases hc : c = phoneId
    · subst hc
      exact not_openIn_close phoneId [.clientOpen phoneId] hopen
    · have hmem := hopen.mem
      simp [hc] at hmem

/-- The writer fails while a phone session is open: `run` returns, and the reader goes on. -/
theorem writerFails_leaves : ¬ ∀ before s, tunnel.Run {} (before ++ [.returns]) s →
    LeavesNothing s := by
  intro hall
  have hrun : (follow tunnelAct ([.arrives (.binary (encode (.clientOpen phoneId))), .task .read,
      .task (.writerFails false)] ++ [.returns]) {}).map (fun s =>
        (s.client.reader, decide (phoneId ∈ s.client.sessions))) = some (true, true) := by
    decide +kernel
  obtain ⟨s, hs, houtcome⟩ := Option.map_eq_some_iff.mp hrun
  rw [Prod.mk.injEq, decide_eq_true_eq] at houtcome
  have hnothing := hall _ s (System.run_of_follow (fun h => h) hs)
  exact hnothing.inboxes [] s (.nil s) phoneId ⟨houtcome.2, .inl houtcome.1⟩

end RemoteControl.Relay.TunnelEnd
