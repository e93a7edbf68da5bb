import RemoteControl.Relay.Attachment

/-!
The tunnel from the phones to the PCs: what a PC hands to the session of a phone is what that
phone sent, although all phones of a host share one queue and one WebSocket.
-/

namespace RemoteControl.Relay.Uplink

open RemoteControl.Foundations.ByteStrings
open RemoteControl.Foundations.Fifo
open RemoteControl.Foundations.Transition
open RemoteControl.Foundations.Transition.System (follow reachable_of_follow)
open RemoteControl.Wire.Protocol
open RemoteControl.Wire.Tunnel
open RemoteControl.Server.PhoneSessions
open RemoteControl.Relay.Loops
open RemoteControl.Relay.Frame
open RemoteControl.Relay.Attachment

def isTextOrBinary : Message → Bool
  | .text _ | .binary _ => true
  | _ => false

/-- The text and binary messages a phone has sent. -/
def phoneSent (s : RelayState) (c : String) : List Message :=
  (s.client c).fromPhone.sent.filter isTextOrBinary

/-- The messages that have been put into the inbox of a phone's session. -/
def dispatched (s : RelayState) (i : Nat) (c : String) : List Message :=
  ((s.pc i).session c).inbox

/-- The frames about a phone that a PC has read. -/
def framesRead (s : RelayState) (i : Nat) (c : String) : List TunnelFrame :=
  about c (tunnelFrames (s.pc i).up.taken)

/-- The frames about a phone open its session first, close it last, and carry data between. -/
def SessionOrder (c : String) (frames : List TunnelFrame) : Prop :=
  frames = [] ∨ ∃ datas,
    (∀ frame ∈ datas, ∃ text payload, frame = .data c text payload) ∧
      (frames = .clientOpen c :: datas ∨ frames = .clientOpen c :: (datas ++ [.clientClose c]))

/-- The direct link that the tunnel stands for. -/
structure FaithfulUplink (s : RelayState) (i : Nat) (c : String) : Prop where
  delivered : dispatched s i c <+: phoneSent s c
  otherHost : (s.client c).host ≠ some i → dispatched s i c = []
  order : SessionOrder c (framesRead s i c)

/-! ### What the WebSocket carries of the queue -/

/-- The frames put on the WebSocket, and the one in hand, are those taken from the queue, up
to the last one once the writer has failed. -/
def Carried (s : RelayState) (i : Nat) : Prop :=
  match (s.host i).writer with
  | .unspawned | .receiving => tunnelFrames (s.pc i).up.sent = (s.host i).toHost.taken
  | .sending frame => tunnelFrames (s.pc i).up.sent ++ [frame] = (s.host i).toHost.taken
  | .closing | .finished => tunnelFrames (s.pc i).up.sent <+: (s.host i).toHost.taken

theorem Carried.isPrefix {s : RelayState} {i : Nat} (h : Carried s i) :
    tunnelFrames (s.pc i).up.sent <+: (s.host i).toHost.taken := by
  unfold Carried at h
  split at h
  · rw [h]
  · rw [h]
  · rw [← h]
    exact List.prefix_append ..
  · exact h
  · exact h

theorem Carried.congr {s t : RelayState} {i : Nat} (h : Carried s i)
    (hwriter : (t.host i).writer = (s.host i).writer)
    (hup : (t.pc i).up.sent = (s.pc i).up.sent)
    (htaken : (t.host i).toHost.taken = (s.host i).toHost.taken) : Carried t i := by
  unfold Carried
  rw [hwriter, hup, htaken]
  exact h

@[simp] theorem tunnelFrames_append (xs ys : List Message) :
    tunnelFrames (xs ++ ys) = tunnelFrames xs ++ tunnelFrames ys :=
  List.filterMap_append ..

theorem tunnelFrames_encode {frame : TunnelFrame} (h : IsClientId frame.clientId) :
    tunnelFrames [.binary (encode frame)] = [frame] := by
  simp [tunnelFrames, decode_encode h]

theorem proper_of_mem_sent {s : RelayState} (hs : ∀ c, Attached c s) {i : Nat}
    {frame : TunnelFrame} (hmem : frame ∈ (s.host i).toHost.sent) :
    IsClientId frame.clientId := by
  have habout : frame ∈ about frame.clientId (s.host i).toHost.sent := by
    simp [about, hmem]
  have hattached := hs frame.clientId
  have hhost : (s.client frame.clientId).host = some i := by
    by_contra hother
    rw [hattached.others i hother] at habout
    contradiction
  refine hattached.proper (hattached.started fun hidle => ?_)
  rw [(hattached.unattached (.inl hidle)).1] at hhost
  contradiction

theorem Carried.hostWriterAct {i : Nat} {a : WriterAction} {s t : RelayState}
    (hattached : ∀ c, Attached c s) (hs : Carried s i)
    (h : hostWriterAct i a s = some t) : Carried t i := by
  have hencode {frame : TunnelFrame} (hwriter : (s.host i).writer = .sending frame) :
      tunnelFrames ((s.pc i).up.push (.binary (encode frame))).sent =
        (s.host i).toHost.taken := by
    simp only [Carried, hwriter] at hs
    have hmem : frame ∈ (s.host i).toHost.sent := by
      rw [Queue.sent, ← hs]
      simp
    rw [Queue.push_sent, tunnelFrames_append,
      tunnelFrames_encode (proper_of_mem_sent hattached hmem)]
    exact hs
  dsimp only [Loops.hostWriterAct] at h
  split at h
  · rename_i hwriter
    simp only [Carried, hwriter] at hs
    split at h
    · rename_i frame toHost hpop
      cases h
      simp [Carried, hs, Queue.pop?_taken hpop]
    · split at h
      · contradiction
      · cases h
        simp [Carried, hs]
  · rename_i frame hwriter
    cases h
    simpa [Carried] using hencode hwriter
  · rename_i flushed frame hwriter
    cases h
    cases flushed
    · simpa [Carried] using hs.isPrefix
    · simp only [Carried, setHost_host, setHost_pc, setPc_pc, Function.update_self, if_true]
      rw [hencode hwriter]
  · rename_i hwriter
    cases h
    simp only [Carried, hwriter] at hs
    simpa [Carried, tunnelFrames] using hs
  · contradiction

theorem handleFrame_up (p : RelayClient) (frame : TunnelFrame) :
    (p.handleFrame frame).up = p.up := by
  obtain ⟨sessions, session, heq⟩ := p.handleFrame_eq frame
  rw [heq]

theorem pumpOnce_up (p : RelayClient) (c : String) : (p.pumpOnce c).up = p.up := by
  obtain ⟨lanes, heq | heq | ⟨m, frame, -, -, heq⟩⟩ := p.pumpOnce_cases c <;> rw [heq] <;> rfl

theorem pcAct_up {p p' : RelayClient} {a : PcAction} (h : p.act a = some p') :
    p'.up = p.up ∨ ∃ m up, p.up.pop? = some (m, up) ∧ p'.up = up := by
  cases RelayClient.steps_of_act h with
  | dispatches _ hpop => exact .inr ⟨_, _, hpop, handleFrame_up ..⟩
  | skips _ hpop | closes _ hpop => exact .inr ⟨_, _, hpop, rfl⟩
  | pump => exact .inl (pumpOnce_up ..)
  | _ => exact .inl rfl

theorem pcAct_up_sent {p p' : RelayClient} {a : PcAction} (h : p.act a = some p') :
    p'.up.sent = p.up.sent := by
  rcases pcAct_up h with heq | ⟨m, up, hpop, heq⟩
  · rw [heq]
  · rw [heq, Queue.pop?_sent hpop]

theorem carried_step {i : Nat} {a : Action} {s t : RelayState} (hattached : ∀ c, Attached c s)
    (hallocated : Allocated s) (hs : Carried s i) (h : act a s = some t) : Carried t i := by
  rcases a with hostId | ⟨c, hostId⟩ | ⟨j, a⟩ | ⟨j, a⟩ | ⟨c, a⟩ | ⟨c, a⟩ | ⟨j, a⟩
  case hostConnects =>
      cases h
      rcases eq_or_ne i s.nextInstance with rfl | hne
      · refine hs.congr ?_ rfl ?_ <;> simp
      · refine hs.congr ?_ rfl ?_ <;> simp [hne]
  case clientConnects =>
      dsimp only [act] at h
      split at h
      · cases h
        exact hs.congr rfl rfl rfl
      · contradiction
  case host =>
      have hframe := hostAct_frame h
      obtain ⟨down, hpc, -⟩ := hframe.pc i
      have hup : (t.pc i).up = (s.pc i).up := by rw [hpc]
      have htoHost := hframe.toHost i
      rcases eq_or_ne i j with rfl | hne
      · rcases (hostAct_progress h).writer with hwriter | ⟨hswap, hwriter⟩
        · exact hs.congr hwriter (by rw [hup]) (by rw [htoHost])
        · have hunspawned := hallocated.unspawned i hswap
          simp only [Carried, hunspawned, hwriter] at hs ⊢
          rw [hup, htoHost]
          exact hs
      · exact hs.congr (hframe.otherHost i hne).2 (by rw [hup]) (by rw [htoHost])
  case hostWriter =>
      rcases eq_or_ne i j with rfl | hne
      · exact hs.hostWriterAct hattached h
      · obtain ⟨toHost, writer, up, rfl, -⟩ := hostWriterAct_frame h
        refine hs.congr ?_ ?_ ?_ <;> simp [hne]
  case client =>
      have hframe := clientAct_frame h
      obtain ⟨toHost, clients, hhost⟩ := hframe.host i
      refine hs.congr ?_ ?_ (hframe.taken i)
      · rw [hhost]
      · rw [hframe.pc]
  case phone =>
      obtain ⟨hasSender, l, -, rfl⟩ := phoneAct_eq h
      exact hs.congr rfl rfl rfl
  case pc =>
      obtain ⟨p, hact, rfl⟩ := pcAct_eq h
      rcases eq_or_ne i j with rfl | hne
      · refine hs.congr rfl ?_ rfl
        simpa using pcAct_up_sent hact
      · refine hs.congr rfl ?_ rfl
        simp [hne]

/-! ### What the PC hands to its sessions -/

/-- The messages for one phone's session among tunnel frames. -/
def received (c : String) (frames : List TunnelFrame) : List Message :=
  (payloadsFor c frames).filterMap fun payload => toMessage? payload.1 payload.2

@[simp] theorem received_append (c : String) (xs ys : List TunnelFrame) :
    received c (xs ++ ys) = received c xs ++ received c ys := by
  simp [received, payloadsFor, List.filterMap_append]

theorem received_singleton_of_ne {c : String} {frame : TunnelFrame} (h : frame.clientId ≠ c) :
    received c [frame] = [] := by
  rcases frame with clientId | clientId | ⟨clientId, text, payload⟩
  · rfl
  · rfl
  · have hne : clientId ≠ c := h
    simp [received, payloadsFor, hne]

theorem received_data (c : String) (text : Bool) (payload : Bytes) :
    received c [.data c text payload] = (toMessage? text payload).toList := by
  cases h : toMessage? text payload <;> simp [received, payloadsFor, h]

theorem received_about (c : String) (frames : List TunnelFrame) :
    received c (about c frames) = received c frames := by
  induction frames with
  | nil => rfl
  | cons frame rest ih =>
      rw [← List.singleton_append, about_append, received_append, received_append, ih]
      congr 1
      rcases eq_or_ne frame.clientId c with heq | hne
      · rw [about_singleton heq]
      · rw [received_singleton_of_ne hne]
        simp [about, hne, received, payloadsFor]

theorem SessionOrder.of_isPrefix {c : String} {xs ys : List TunnelFrame} (h : SessionOrder c ys)
    (hpre : xs <+: ys) : SessionOrder c xs := by
  rcases xs with _ | ⟨first, rest⟩
  · exact .inl rfl
  · rcases h with rfl | ⟨datas, hdatas, rfl | rfl⟩
    · simp at hpre
    · rw [List.cons_prefix_cons] at hpre
      obtain ⟨rfl, hrest⟩ := hpre
      exact .inr ⟨rest, fun frame hmem => hdatas frame (hrest.subset hmem), .inl rfl⟩
    · rw [List.cons_prefix_cons, List.prefix_concat_iff] at hpre
      obtain ⟨rfl, rfl | hrest⟩ := hpre
      · exact .inr ⟨datas, hdatas, .inr rfl⟩
      · exact .inr ⟨rest, fun frame hmem => hdatas frame (hrest.subset hmem), .inl rfl⟩

theorem SessionOrder.before_open {c : String} {frames : List TunnelFrame}
    (h : SessionOrder c (frames ++ [.clientOpen c])) : frames = [] := by
  rcases frames with _ | ⟨first, rest⟩
  · rfl
  · have hmem : TunnelFrame.clientOpen c ∈ rest ++ [.clientOpen c] := by simp
    rcases h with hnil | ⟨datas, hdatas, heq | heq⟩
    · simp at hnil
    · rw [List.cons_append, List.cons.injEq] at heq
      rw [heq.2] at hmem
      obtain ⟨text, payload, hdata⟩ := hdatas _ hmem
      contradiction
    · rw [List.cons_append, List.cons.injEq] at heq
      rw [heq.2, List.mem_append, List.mem_singleton] at hmem
      rcases hmem with hmem | hclose
      · obtain ⟨text, payload, hdata⟩ := hdatas _ hmem
        contradiction
      · contradiction

/-- The inbox of a session holds what the frames read so far carry, all of it while the
session is open. -/
structure Demuxed (c : String) (p : RelayClient) : Prop where
  inbox : (p.session c).inbox <+: received c (tunnelFrames p.up.taken)
  live : c ∈ p.sessions → (p.session c).logic = true →
    (p.session c).inbox = received c (tunnelFrames p.up.taken)

theorem Demuxed.shrink {c : String} {p p' : RelayClient} (h : Demuxed c p)
    (hreceived : received c (tunnelFrames p'.up.taken) = received c (tunnelFrames p.up.taken))
    (hinbox : (p'.session c).inbox = (p.session c).inbox)
    (hsessions : c ∈ p'.sessions → c ∈ p.sessions)
    (hlogic : (p'.session c).logic = true → (p.session c).logic = true) : Demuxed c p' := by
  refine ⟨?_, fun hopen hlive => ?_⟩
  · rw [hinbox, hreceived]
    exact h.inbox
  · rw [hinbox, hreceived]
    exact h.live (hsessions hopen) (hlogic hlive)

@[simp] theorem setSession_session (p : RelayClient) (c : String) (session : PhoneSession) :
    (p.setSession c session).session = Function.update p.session c session := rfl

@[simp] theorem setSession_sessions (p : RelayClient) (c : String) (session : PhoneSession) :
    (p.setSession c session).sessions = p.sessions := rfl

@[simp] theorem setSession_up (p : RelayClient) (c : String) (session : PhoneSession) :
    (p.setSession c session).up = p.up := rfl

theorem Demuxed.setSession {c c' : String} {p : RelayClient} {session : PhoneSession}
    (h : Demuxed c p) (hinbox : session.inbox = (p.session c').inbox)
    (hlogic : session.logic = true → (p.session c').logic = true) :
    Demuxed c (p.setSession c' session) := by
  rcases eq_or_ne c c' with rfl | hne
  · exact h.shrink rfl (by simpa using hinbox) id (by simpa using hlogic)
  · refine h.shrink rfl ?_ id ?_ <;> simp [hne]

theorem Demuxed.handleFrame {c : String} {p : RelayClient} {m : Message} {up : Queue Message}
    {frame : TunnelFrame} (h : Demuxed c p) (hpop : p.up.pop? = some (m, up))
    (hframe : tunnelFrames [m] = [frame])
    (horder : SessionOrder c (about c (tunnelFrames up.taken))) :
    Demuxed c ({ p with up }.handleFrame frame) := by
  have htaken : tunnelFrames up.taken = tunnelFrames p.up.taken ++ [frame] := by
    rw [Queue.pop?_taken hpop, tunnelFrames_append, hframe]
  have hother (hne : frame.clientId ≠ c) :
      received c (tunnelFrames up.taken) = received c (tunnelFrames p.up.taken) := by
    rw [htaken, received_append, received_singleton_of_ne hne, List.append_nil]
  rcases frame with c' | c' | ⟨c', text, payload⟩
  · rcases eq_or_ne c' c with rfl | hne
    · have hfirst : about c' (tunnelFrames p.up.taken) = [] := by
        rw [htaken, about_append, about_singleton (c := c') rfl] at horder
        exact horder.before_open
      have hnone : received c' (tunnelFrames up.taken) = [] := by
        rw [htaken, received_append, ← received_about, hfirst]
        rfl
      refine ⟨?_, fun _ _ => ?_⟩
      · simp [RelayClient.handleFrame]
      · simp [RelayClient.handleFrame, hnone]
    · refine h.shrink (hother hne) ?_ ?_ ?_ <;> simp [RelayClient.handleFrame, hne.symm]
  · have hsame : received c (tunnelFrames up.taken) = received c (tunnelFrames p.up.taken) := by
      rw [htaken, received_append]
      simp [received, payloadsFor]
    exact h.shrink hsame rfl (fun hmem => Finset.mem_of_mem_erase hmem) id
  · rcases eq_or_ne c' c with rfl | hne
    · have hgrow : received c' (tunnelFrames up.taken) =
          received c' (tunnelFrames p.up.taken) ++ (toMessage? text payload).toList := by
        rw [htaken, received_append, received_data]
      simp only [RelayClient.handleFrame]
      split
      · rename_i hskip
        refine h.shrink ?_ rfl id id
        simp only [hgrow, hskip, Option.toList_none, List.append_nil]
      · rename_i msg hmsg
        rw [hmsg] at hgrow
        split
        · rename_i hopen
          have hall := h.live hopen.1 hopen.2
          refine ⟨?_, fun _ _ => ?_⟩ <;> simp [hgrow, hall]
        · rename_i hclosed
          refine ⟨?_, fun hopen hlive => absurd ⟨hopen, hlive⟩ hclosed⟩
          simp only [hgrow]
          exact h.inbox.trans (List.prefix_append ..)
    · have hsame := hother hne
      simp only [RelayClient.handleFrame]
      split
      · exact h.shrink hsame rfl id id
      · split
        · refine h.shrink hsame ?_ id ?_ <;> simp [hne.symm]
        · exact h.shrink hsame rfl id id

theorem Demuxed.pumpOnce {c c' : String} {p : RelayClient} (h : Demuxed c p) :
    Demuxed c (p.pumpOnce c') := by
  obtain ⟨lanes, heq | heq | ⟨m, frame, -, -, heq⟩⟩ := p.pumpOnce_cases c'
  · rw [heq]
    exact h.setSession rfl id
  · rw [heq]
    exact h.setSession rfl id
  · have hsent : Demuxed c { p with hostOut := p.hostOut.push frame } :=
      h.shrink rfl rfl id id
    rw [heq]
    exact hsent.setSession rfl id

theorem Demuxed.act {c : String} {p p' : RelayClient} {a : PcAction} (hp : Demuxed c p)
    (h : p.act a = some p') (horder : SessionOrder c (about c (tunnelFrames p'.up.taken))) :
    Demuxed c p' := by
  cases RelayClient.steps_of_act h with
  | dispatches _ hpop hdecode =>
      rw [handleFrame_up] at horder
      exact hp.handleFrame hpop (by simp [tunnelFrames, hdecode]) horder
  | skips _ hpop _ hnone =>
      refine hp.shrink ?_ rfl id id
      rw [Queue.pop?_taken hpop, tunnelFrames_append, hnone, List.append_nil]
  | closes _ hpop =>
      refine hp.shrink ?_ rfl id id
      rw [Queue.pop?_taken hpop, tunnelFrames_append]
      exact congrArg _ (List.append_nil _)
  | logicEnds => exact hp.setSession rfl (by simp)
  | produce | dropSenders => exact hp.setSession rfl id
  | pump => exact hp.pumpOnce
  | @pumpExits c' =>
      have hclosed : Demuxed c { p with sessions := p.sessions.erase c' } :=
        hp.shrink rfl rfl Finset.mem_of_mem_erase id
      exact hclosed.setSession rfl id
  | _ => exact hp.shrink rfl rfl id id

/-! ### The uplink -/

theorem about_isPrefix {c : String} {xs ys : List TunnelFrame} (h : xs <+: ys) :
    about c xs <+: about c ys :=
  h.filter _

theorem tunnelFrames_isPrefix {xs ys : List Message} (h : xs <+: ys) :
    tunnelFrames xs <+: tunnelFrames ys :=
  h.filterMap _

theorem received_isPrefix {c : String} {xs ys : List TunnelFrame} (h : xs <+: ys) :
    received c xs <+: received c ys :=
  (h.filterMap _).filterMap _

theorem framesRead_isPrefix {s : RelayState} {i : Nat} {c : String} (hcarried : Carried s i) :
    framesRead s i c <+: about c (s.host i).toHost.sent := by
  refine about_isPrefix (.trans (tunnelFrames_isPrefix (Queue.taken_prefix_sent _)) ?_)
  exact hcarried.isPrefix.trans (Queue.taken_prefix_sent _)

theorem data_of_mem_datasOf {c : String} {messages : List Message} {frame : TunnelFrame}
    (h : frame ∈ datasOf c messages) : ∃ text payload, frame = .data c text payload := by
  obtain ⟨m, -, hm⟩ := List.mem_filterMap.mp h
  rcases m with text | bytes | _ | _ | _ <;> cases hm <;> exact ⟨_, _, rfl⟩

theorem received_datasOf (c : String) (messages : List Message) :
    received c (datasOf c messages) = messages.filter isTextOrBinary := by
  induction messages with
  | nil => rfl
  | cons m rest ih =>
      have hone : received c (datasOf c [m]) = [m].filter isTextOrBinary := by
        rcases m with text | bytes | _ | _ | _ <;>
          simp [datasOf, Message.toData?, received, payloadsFor, toMessage?, isTextOrBinary,
            List.filter]
      have hsplit : datasOf c (m :: rest) = datasOf c [m] ++ datasOf c rest := by
        rw [← List.singleton_append, datasOf, List.filterMap_append]
        rfl
      rw [hsplit, received_append, ih, hone, ← List.filter_append, List.singleton_append]

theorem uplinked_order {c : String} {l : ClientLoop} {frames : List TunnelFrame}
    (h : Uplinked c l frames) :
    SessionOrder c frames ∧
      received c frames <+: l.fromPhone.taken.filter isTextOrBinary := by
  have hnil (hframes : frames = []) : SessionOrder c frames ∧
      received c frames <+: l.fromPhone.taken.filter isTextOrBinary := by
    subst hframes
    exact ⟨.inl rfl, List.nil_prefix⟩
  have hdatas {datas : List TunnelFrame} (hpre : datas <+: datasOf c l.fromPhone.taken)
      (hframes : frames = .clientOpen c :: datas ∨
        frames = .clientOpen c :: (datas ++ [.clientClose c])) :
      SessionOrder c frames ∧
        received c frames <+: l.fromPhone.taken.filter isTextOrBinary := by
    refine ⟨.inr ⟨datas, fun frame hmem => data_of_mem_datasOf (hpre.subset hmem), hframes⟩, ?_⟩
    rw [← received_datasOf c]
    have hopen : received c [.clientOpen c] = [] := rfl
    have hclose : received c [.clientClose c] = [] := rfl
    rcases hframes with rfl | rfl
    · rw [← List.singleton_append, received_append, hopen, List.nil_append]
      exact received_isPrefix hpre
    · rw [← List.singleton_append, received_append, received_append, hopen, hclose,
        List.nil_append, List.append_nil]
      exact received_isPrefix hpre
  unfold Uplinked at h
  split at h
  case h_7 => exact hdatas (List.prefix_refl _) (.inl h)
  case h_8 =>
      obtain ⟨datas, hpre, hframes⟩ := prefix_of_forwarding h
      exact hdatas hpre (.inl hframes)
  case h_9 =>
      obtain ⟨datas, hpre, hframes⟩ := h
      exact hdatas hpre (.inl hframes)
  case h_10 | h_11 | h_12 | h_13 =>
      rcases h with hframes | ⟨datas, hpre, hframes⟩
      · exact hnil hframes
      · exact hdatas hpre hframes
  all_goals exact hnil h.1

theorem framesRead_order {s : RelayState} {i : Nat} {c : String} (hattached : Attached c s)
    (hcarried : Carried s i) : SessionOrder c (framesRead s i c) := by
  have hpre := framesRead_isPrefix (c := c) hcarried
  rcases eq_or_ne (s.client c).host (some i) with hhost | hhost
  · exact (uplinked_order (hattached.attached i hhost)).1.of_isPrefix hpre
  · rw [hattached.others i hhost, List.prefix_nil] at hpre
    exact .inl hpre

theorem reachable_carried {s : RelayState} (hs : relay.Reachable s) (i : Nat) : Carried s i := by
  induction hs with
  | init hinit =>
      cases hinit
      simp [Carried, tunnelFrames, Queue.sent]
  | step hreach hstep ih =>
      exact carried_step (reachable_attached hreach) (reachable_allocated hreach) ih hstep

theorem reachable_demuxed {s : RelayState} (hs : relay.Reachable s) (i : Nat) (c : String) :
    Demuxed c (s.pc i) := by
  induction hs with
  | init hinit =>
      cases hinit
      exact ⟨List.nil_prefix, by simp⟩
  | @step s t a hreach hstep ih =>
      have ht : relay.Reachable t := .step hreach hstep
      have horder := framesRead_order (c := c) (reachable_attached ht c) (reachable_carried ht i)
      have hchange := pcChange_of_act hstep i
      rw [framesRead] at horder
      generalize t.pc i = p at hchange horder ⊢
      rcases hchange with _ | ⟨up, htaken⟩ | ⟨down, -⟩ | ⟨a, p', hact⟩
      · exact ih
      · exact ih.shrink (by rw [htaken]) rfl id id
      · exact ih.shrink rfl rfl id id
      · exact ih.act hact horder

/-- In every interleaving, the inbox of a phone's session holds a prefix of the text and
binary messages of that phone, only on the PC it is attached to, and the PC sees the session
opened before and closed after its data. -/
theorem reachable_faithfulUplink {s : RelayState} (hs : relay.Reachable s) (i : Nat)
    (c : String) : FaithfulUplink s i c := by
  have hattached := reachable_attached hs c
  have hcarried := reachable_carried hs i
  have hinbox := (reachable_demuxed hs i c).inbox
  have hread := framesRead_isPrefix (c := c) hcarried
  have hreceived : dispatched s i c <+: received c (about c (s.host i).toHost.sent) := by
    refine .trans ?_ (received_isPrefix hread)
    rw [framesRead, received_about]
    exact hinbox
  refine ⟨?_, fun hhost => ?_, framesRead_order hattached hcarried⟩
  · rcases eq_or_ne (s.client c).host (some i) with hhost | hhost
    · refine hreceived.trans ((uplinked_order (hattached.attached i hhost)).2.trans ?_)
      exact (Queue.taken_prefix_sent _).filter _
    · rw [hattached.others i hhost] at hreceived
      rw [List.prefix_nil.mp hreceived]
      exact List.nil_prefix
  · rw [hattached.others i hhost] at hreceived
    exact List.prefix_nil.mp hreceived

/-! ### One phone, one message -/

def phoneId : String := "aaaaaaaa-aaaa-4aaa-8aaa-aaaaaaaaaaaa"

/-- A host comes online and a phone attaches to it. -/
def attachPhone : List Action :=
  [.hostConnects "pc", .host 0 .swapIn, .clientConnects phoneId "pc",
    .client phoneId .snapshot, .client phoneId .insert, .client phoneId .sendOpen]

/-- The phone sends a message, and it reaches the phone's session. -/
def carryMessage (m : Message) : List Action :=
  [.client phoneId (.phoneSends m), .client phoneId .read, .client phoneId .forward,
    .hostWriter 0 .recv, .hostWriter 0 .sent, .hostWriter 0 .recv, .hostWriter 0 .sent,
    .pc 0 .read, .pc 0 .read]

theorem reachable_of_actions {actions : List Action} {s : RelayState}
    (h : follow act actions {} = some s) : relay.Reachable s :=
  reachable_of_follow (fun h => h) (.init rfl) h

theorem reachable_faithfulUplink_carryMessage : ∃ s, relay.Reachable s ∧
    dispatched s 0 phoneId = [.binary [7]] ∧ FaithfulUplink s 0 phoneId := by
  have hrun : (follow act (attachPhone ++ carryMessage (.binary [7])) {}).map
      (fun s => dispatched s 0 phoneId) = some [.binary [7]] := by
    decide +kernel
  obtain ⟨s, hs, hdispatched⟩ := Option.map_eq_some_iff.mp hrun
  have hreach := reachable_of_actions hs
  exact ⟨s, hreach, hdispatched, reachable_faithfulUplink hreach 0 phoneId⟩

end RemoteControl.Relay.Uplink
