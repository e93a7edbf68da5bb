import RemoteControl.Relay.Uplink

/-!
What the PCs emit for the phones, and what their WebSockets carry of it to the relay.
-/

namespace RemoteControl.Relay.Emission

open RemoteControl.Foundations.ByteStrings
open RemoteControl.Foundations.Fifo
open RemoteControl.Foundations.Transition
open RemoteControl.Wire.Protocol
open RemoteControl.Wire.Tunnel
open RemoteControl.Server.Outbound
open RemoteControl.Server.PhoneSessions
open RemoteControl.Relay.Loops
open RemoteControl.Relay.Frame
open RemoteControl.Relay.Attachment
open RemoteControl.Relay.Uplink

/-- A frame that a pump may have emitted: data, with a text that is UTF-8, of a session that
has been opened. -/
def Emittable (p : RelayClient) (frame : TunnelFrame) : Prop :=
  ∃ c text payload, frame = .data c text payload ∧ (toMessage? text payload).isSome = true ∧
    (p.session c).pump ≠ .unspawned

/-- A PC emits only for the sessions that it was told to open. -/
structure Emits (p : RelayClient) : Prop where
  frames : ∀ frame ∈ p.hostOut.sent, Emittable p frame
  opened : ∀ c, (p.session c).pump ≠ .unspawned → .clientOpen c ∈ tunnelFrames p.up.taken

theorem Emits.quiet {p p' : RelayClient} (h : Emits p)
    (hsent : p'.hostOut.sent = p.hostOut.sent)
    (htaken : ∀ frame ∈ tunnelFrames p.up.taken, frame ∈ tunnelFrames p'.up.taken)
    (hpump : ∀ c, (p'.session c).pump ≠ .unspawned ↔ (p.session c).pump ≠ .unspawned) :
    Emits p' := by
  refine ⟨fun frame hmem => ?_, fun c hc => htaken _ (h.opened c ((hpump c).mp hc))⟩
  obtain ⟨c, text, payload, hframe, hvalid, hspawned⟩ := h.frames frame (hsent ▸ hmem)
  exact ⟨c, text, payload, hframe, hvalid, (hpump c).mpr hspawned⟩

theorem Emits.setSession {p : RelayClient} {c : String} {session : PhoneSession} (h : Emits p)
    (hpump : session.pump ≠ .unspawned ↔ (p.session c).pump ≠ .unspawned) :
    Emits (p.setSession c session) := by
  refine h.quiet rfl (fun _ => id) fun c' => ?_
  rcases eq_or_ne c' c with rfl | hne
  · simpa using hpump
  · simp [hne]

theorem toMessage?_toData? {c : String} {m : Message} {frame : TunnelFrame}
    (h : Message.toData? c m = some frame) :
    ∃ text payload, frame = .data c text payload ∧
      (toMessage? text payload).isSome = true := by
  rcases m with text | bytes | _ | _ | _ <;> cases h
  · exact ⟨true, _, rfl, by simp [toMessage?]⟩
  · exact ⟨false, _, rfl, rfl⟩

theorem Emits.pumpOnce {p : RelayClient} {c : String} (h : Emits p)
    (hrunning : (p.session c).pump = .running) : Emits (p.pumpOnce c) := by
  obtain ⟨lanes, heq | heq | ⟨m, frame, hframe, -, heq⟩⟩ := p.pumpOnce_cases c
  · rw [heq]
    exact h.setSession Iff.rfl
  · rw [heq]
    exact h.setSession (by simp [hrunning])
  · have hsent : Emits { p with hostOut := p.hostOut.push frame } := by
      refine ⟨fun other hmem => ?_, h.opened⟩
      rw [Queue.push_sent, List.mem_append, List.mem_singleton] at hmem
      rcases hmem with hmem | rfl
      · exact h.frames other hmem
      · obtain ⟨text, payload, heq, hvalid⟩ := toMessage?_toData? hframe
        exact ⟨c, text, payload, heq, hvalid, by simp [hrunning]⟩
    rw [heq]
    exact hsent.setSession Iff.rfl

theorem Emits.handleFrame {p : RelayClient} {m : Message} {up : Queue Message}
    {frame : TunnelFrame} (h : Emits p) (hpop : p.up.pop? = some (m, up))
    (hframe : tunnelFrames [m] = [frame]) : Emits ({ p with up }.handleFrame frame) := by
  have htaken : tunnelFrames up.taken = tunnelFrames p.up.taken ++ [frame] := by
    rw [Queue.pop?_taken hpop, tunnelFrames_append, hframe]
  have hread : Emits { p with up } :=
    h.quiet rfl (fun _ hmem => by simp [htaken, hmem]) fun _ => Iff.rfl
  rcases frame with c | c | ⟨c, text, payload⟩
  · refine ⟨fun other hmem => ?_, fun c' hc' => ?_⟩
    · obtain ⟨c', text, payload, heq, hvalid, hspawned⟩ := hread.frames other hmem
      refine ⟨c', text, payload, heq, hvalid, ?_⟩
      rcases eq_or_ne c' c with rfl | hne
      · simp [RelayClient.handleFrame]
      · simpa [RelayClient.handleFrame, hne] using hspawned
    · rcases eq_or_ne c' c with rfl | hne
      · simp [RelayClient.handleFrame, htaken]
      · refine hread.opened c' ?_
        simpa [RelayClient.handleFrame, hne] using hc'
  · exact hread.quiet rfl (fun _ => id) fun _ => Iff.rfl
  · simp only [RelayClient.handleFrame]
    split
    · exact hread
    · split
      · exact hread.setSession Iff.rfl
      · exact hread

theorem Emits.act {p p' : RelayClient} {a : PcAction} (hp : Emits p)
    (h : p.act a = some p') : Emits p' := by
  have hread {m : Message} {up : Queue Message} (hpop : p.up.pop? = some (m, up)) :
      Emits { p with up } := by
    refine hp.quiet rfl (fun frame hmem => ?_) fun _ => Iff.rfl
    simp [Queue.pop?_taken hpop, hmem]
  cases RelayClient.steps_of_act h with
  | dispatches _ hpop hdecode => exact hp.handleFrame hpop (by simp [tunnelFrames, hdecode])
  | skips _ hpop => exact hread hpop
  | closes _ hpop => exact (hread hpop).quiet rfl (fun _ => id) fun _ => Iff.rfl
  | produce | dropSenders | logicEnds => exact hp.setSession Iff.rfl
  | pump hrunning => exact hp.pumpOnce hrunning
  | @pumpExits c hstopping =>
      have hclosed : Emits { p with sessions := p.sessions.erase c } :=
        hp.quiet rfl (fun _ => id) fun _ => Iff.rfl
      exact hclosed.setSession (by simp [hstopping])
  | writerRecv _ hpop => exact hp.quiet (Queue.pop?_sent hpop) (fun _ => id) fun _ => Iff.rfl
  | _ => exact hp.quiet rfl (fun _ => id) fun _ => Iff.rfl

theorem reachable_emits {s : RelayState} (hs : relay.Reachable s) (i : Nat) : Emits (s.pc i) := by
  induction hs with
  | init hinit =>
      cases hinit
      exact ⟨fun _ hmem => by simp [Queue.sent] at hmem, fun _ hspawned => absurd rfl hspawned⟩
  | @step s t a hreach hstep ih =>
      have hchange := pcChange_of_act hstep i
      generalize t.pc i = p at hchange ⊢
      rcases hchange with _ | ⟨up, htaken⟩ | ⟨down, -⟩ | ⟨a, p', hact⟩
      · exact ih
      · exact ih.quiet rfl (fun _ hmem => htaken ▸ hmem) fun _ => Iff.rfl
      · exact ih.quiet rfl (fun _ => id) fun _ => Iff.rfl
      · exact ih.act hact

/-- A PC was told to open a session only by the `client_loop` of a phone with a proper id,
which is attached to the PC's instance and registered there before. -/
structure OpenedBy (s : RelayState) (i : Nat) (c : String) : Prop where
  host : (s.client c).host = some i
  proper : IsClientId c
  sent : about c (s.host i).toHost.sent ≠ []

theorem openedBy_of_mem {s : RelayState} (hs : relay.Reachable s) {i : Nat} {c : String}
    (h : .clientOpen c ∈ tunnelFrames (s.pc i).up.taken) : OpenedBy s i c := by
  have hattached := reachable_attached hs c
  have hread : .clientOpen c ∈ framesRead s i c := by
    simpa [framesRead, about, TunnelFrame.clientId] using h
  have hmem := (framesRead_isPrefix (reachable_carried hs i)).subset hread
  have hhost : (s.client c).host = some i := by
    by_contra hother
    rw [hattached.others i hother] at hmem
    contradiction
  have hproper : IsClientId c := proper_of_mem_sent (reachable_attached hs)
    (List.mem_of_mem_filter hmem)
  exact ⟨hhost, hproper, List.ne_nil_of_mem hmem⟩

theorem openedBy_of_emitted {s : RelayState} (hs : relay.Reachable s) {i : Nat} {c : String}
    (h : payloadsFor c (s.pc i).hostOut.sent ≠ []) : OpenedBy s i c := by
  obtain ⟨payload, hmem⟩ := List.exists_mem_of_ne_nil _ h
  obtain ⟨frame, hframe, hpayload⟩ := List.mem_filterMap.mp hmem
  have hemits := reachable_emits hs i
  obtain ⟨c', text, bytes, rfl, -, hspawned⟩ := hemits.frames frame hframe
  have heq : c' = c := by
    by_contra hne
    simp [hne] at hpayload
  subst heq
  exact openedBy_of_mem hs (hemits.opened c' hspawned)

theorem proper_of_mem_hostOut {s : RelayState} (hs : relay.Reachable s) {i : Nat}
    {frame : TunnelFrame} (h : frame ∈ (s.pc i).hostOut.sent) : IsClientId frame.clientId := by
  have hemits := reachable_emits hs i
  obtain ⟨c, text, payload, rfl, -, hspawned⟩ := hemits.frames frame h
  exact (openedBy_of_mem hs (hemits.opened c hspawned)).proper

/-! ### What the WebSocket carries to the relay -/

/-- The frames that a PC has put on its WebSocket, and the one in hand, are those taken from
its queue, up to the last one once the writer has failed. -/
def CarriedDown (p : RelayClient) : Prop :=
  match p.writer with
  | .receiving => tunnelFrames p.down.sent = p.hostOut.taken
  | .sending frame => tunnelFrames p.down.sent ++ [frame] = p.hostOut.taken
  | .closed => tunnelFrames p.down.sent <+: p.hostOut.taken

theorem CarriedDown.isPrefix {p : RelayClient} (h : CarriedDown p) :
    tunnelFrames p.down.sent <+: p.hostOut.taken := by
  unfold CarriedDown at h
  split at h
  · rw [h]
  · rw [← h]
    exact List.prefix_append ..
  · exact h

theorem CarriedDown.congr {p p' : RelayClient} (h : CarriedDown p)
    (hwriter : p'.writer = p.writer) (hdown : p'.down.sent = p.down.sent)
    (htaken : p'.hostOut.taken = p.hostOut.taken) : CarriedDown p' := by
  unfold CarriedDown
  rw [hwriter, hdown, htaken]
  exact h

theorem CarriedDown.pumpOnce {p : RelayClient} {c : String} (h : CarriedDown p) :
    CarriedDown (p.pumpOnce c) := by
  obtain ⟨lanes, heq | heq | ⟨m, frame, -, -, heq⟩⟩ := p.pumpOnce_cases c <;> rw [heq] <;> exact h

theorem CarriedDown.handleFrame {p : RelayClient} {frame : TunnelFrame} (h : CarriedDown p) :
    CarriedDown (p.handleFrame frame) := by
  obtain ⟨sessions, session, heq⟩ := p.handleFrame_eq frame
  rw [heq]
  exact h

theorem CarriedDown.act {p p' : RelayClient} {a : PcAction}
    (hproper : ∀ frame ∈ p.hostOut.sent, IsClientId frame.clientId) (hp : CarriedDown p)
    (h : p.act a = some p') : CarriedDown p' := by
  have hencode {frame : TunnelFrame} (hwriter : p.writer = .sending frame) :
      tunnelFrames (p.down.push (.binary (encode frame))).sent = p.hostOut.taken := by
    simp only [CarriedDown, hwriter] at hp
    have hmem : frame ∈ p.hostOut.sent := by
      rw [Queue.sent, ← hp]
      simp
    rw [Queue.push_sent, tunnelFrames_append, tunnelFrames_encode (hproper frame hmem)]
    exact hp
  have hskip {m : Message} (down : Queue Message) (hm : tunnelFrames [m] = []) :
      tunnelFrames (down.push m).sent = tunnelFrames down.sent := by
    rw [Queue.push_sent, tunnelFrames_append, hm, List.append_nil]
  cases RelayClient.steps_of_act h with
  | dispatches => exact CarriedDown.handleFrame (p := { p with up := _ }) hp
  | pump => exact hp.pumpOnce
  | writerRecv hwriter hpop =>
      simp only [CarriedDown, hwriter] at hp
      simp [CarriedDown, hp, Queue.pop?_taken hpop]
  | writerSent hwriter => exact hencode hwriter
  | writerPings hwriter =>
      simp only [CarriedDown, hwriter] at hp ⊢
      rw [hskip _ rfl]
      exact hp
  | pingFails =>
      simp only [CarriedDown]
      rw [hskip _ rfl]
      exact hp.isPrefix
  | @sendFails flushed frame hwriter =>
      simp only [CarriedDown]
      rw [hskip _ rfl]
      cases flushed
      · exact hp.isPrefix
      · rw [if_pos rfl, hencode hwriter]
  | _ => exact hp

theorem reachable_carriedDown {s : RelayState} (hs : relay.Reachable s) (i : Nat) :
    CarriedDown (s.pc i) := by
  induction hs with
  | init hinit =>
      cases hinit
      simp [CarriedDown, tunnelFrames, Queue.sent]
  | @step s t a hreach hstep ih =>
      have hchange := pcChange_of_act hstep i
      generalize t.pc i = p at hchange ⊢
      rcases hchange with _ | ⟨up, -⟩ | ⟨down, hdown⟩ | ⟨a, p', hact⟩
      · exact ih
      · exact ih
      · exact ih.congr rfl hdown rfl
      · exact ih.act (fun _ hmem => proper_of_mem_hostOut hreach hmem) hact

theorem payloadsFor_isPrefix {c : String} {xs ys : List TunnelFrame} (h : xs <+: ys) :
    payloadsFor c xs <+: payloadsFor c ys :=
  h.filterMap _

theorem handleFrame_down (p : RelayClient) (frame : TunnelFrame) :
    (p.handleFrame frame).down = p.down := by
  obtain ⟨sessions, session, heq⟩ := p.handleFrame_eq frame
  rw [heq]

theorem pumpOnce_down (p : RelayClient) (c : String) : (p.pumpOnce c).down = p.down := by
  obtain ⟨lanes, heq | heq | ⟨m, frame, -, -, heq⟩⟩ := p.pumpOnce_cases c <;> rw [heq] <;> rfl

theorem pcAct_down_taken {p p' : RelayClient} {a : PcAction} (h : p.act a = some p') :
    p'.down.taken = p.down.taken := by
  cases RelayClient.steps_of_act h with
  | dispatches => rw [handleFrame_down]
  | pump => rw [pumpOnce_down]
  | @sendFails flushed => cases flushed <;> rfl
  | _ => rfl

/-- The frames for a phone that the relay has read from a PC. -/
def payloadsRead (s : RelayState) (i : Nat) (c : String) : List (Bool × Bytes) :=
  payloadsFor c (tunnelFrames (s.pc i).down.taken)

theorem payloadsRead_isPrefix {s : RelayState} (hs : relay.Reachable s) (i : Nat) (c : String) :
    payloadsRead s i c <+: payloadsFor c (s.pc i).hostOut.sent := by
  refine payloadsFor_isPrefix (.trans (tunnelFrames_isPrefix (Queue.taken_prefix_sent _)) ?_)
  exact (reachable_carriedDown hs i).isPrefix.trans (Queue.taken_prefix_sent _)

end RemoteControl.Relay.Emission
