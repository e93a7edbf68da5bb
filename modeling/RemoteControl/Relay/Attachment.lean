import RemoteControl.Relay.Frame

/-!
What a `client_loop` has put on the queue of the instance it is attached to, by the phase it
is in.
-/

namespace RemoteControl.Relay.Attachment

open RemoteControl.Foundations.ByteStrings
open RemoteControl.Foundations.Fifo
open RemoteControl.Foundations.Transition
open RemoteControl.Wire.Protocol
open RemoteControl.Wire.Tunnel
open RemoteControl.Relay.Loops
open RemoteControl.Relay.Frame

/-- The tunnel frames about one phone. -/
def about (c : String) (frames : List TunnelFrame) : List TunnelFrame :=
  frames.filter fun frame => frame.clientId = c

@[simp] theorem about_append (c : String) (xs ys : List TunnelFrame) :
    about c (xs ++ ys) = about c xs ++ about c ys :=
  List.filter_append ..

theorem about_of_clientId {c : String} {frames : List TunnelFrame}
    (h : ∀ frame ∈ frames, frame.clientId = c) : about c frames = frames := by
  rw [about, List.filter_eq_self]
  simpa using h

theorem about_of_ne {c c' : String} {frames : List TunnelFrame} (hne : c' ≠ c)
    (h : ∀ frame ∈ frames, frame.clientId = c) : about c' frames = [] := by
  rw [about, List.filter_eq_nil_iff]
  intro frame hmem
  simp [h frame hmem, hne.symm]

/-- The data frames that the messages of a phone are carried in. -/
def datasOf (c : String) (messages : List Message) : List TunnelFrame :=
  messages.filterMap (Message.toData? c)

/-- The frames that a `client_loop` has sent by the time it is in its phase. -/
def Uplinked (c : String) (l : ClientLoop) (frames : List TunnelFrame) : Prop :=
  match l.phase with
  | .idle | .connecting | .snapped | .inserted | .openFailed | .refused =>
      frames = [] ∧ l.fromPhone.taken = []
  | .reading => frames = .clientOpen c :: datasOf c l.fromPhone.taken
  | .forwarding text payload =>
      frames ++ [.data c text payload] = .clientOpen c :: datasOf c l.fromPhone.taken
  | .leaving => ∃ datas, datas <+: datasOf c l.fromPhone.taken ∧ frames = .clientOpen c :: datas
  | .closed | .removed | .dropped | .returned =>
      frames = [] ∨ ∃ datas, datas <+: datasOf c l.fromPhone.taken ∧
        (frames = .clientOpen c :: datas ∨ frames = .clientOpen c :: (datas ++ [.clientClose c]))

/-- A phone's id is proper, and what is about it was put by its `client_loop` on the queue of
the instance it is attached to. -/
structure Attached (c : String) (s : RelayState) : Prop where
  started : (s.client c).phase ≠ .idle → c ∈ s.started
  proper : c ∈ s.started → IsClientId c
  unattached : (s.client c).phase = .idle ∨ (s.client c).phase = .connecting →
    (s.client c).host = none ∧ (s.client c).fromPhone.taken = []
  attached : ∀ i, (s.client c).host = some i →
    Uplinked c (s.client c) (about c (s.host i).toHost.sent)
  others : ∀ i, (s.client c).host ≠ some i → about c (s.host i).toHost.sent = []

theorem Attached.congr {c : String} {s t : RelayState} (h : Attached c s)
    (hstarted : c ∈ t.started ↔ c ∈ s.started)
    (hphase : (t.client c).phase = (s.client c).phase)
    (hhost : (t.client c).host = (s.client c).host)
    (hfromPhone : (t.client c).fromPhone.taken = (s.client c).fromPhone.taken)
    (htoHost : ∀ i, about c (t.host i).toHost.sent = about c (s.host i).toHost.sent) :
    Attached c t := by
  have huplinked (frames : List TunnelFrame) :
      Uplinked c (t.client c) frames ↔ Uplinked c (s.client c) frames := by
    unfold Uplinked datasOf
    rw [hphase, hfromPhone]
  refine ⟨?_, ?_, ?_, ?_, ?_⟩
  · rw [hphase, hstarted]
    exact h.started
  · rw [hstarted]
    exact h.proper
  · rw [hphase, hhost, hfromPhone]
    exact h.unattached
  · intro i hi
    rw [huplinked, htoHost]
    exact h.attached i (hhost ▸ hi)
  · intro i hi
    rw [htoHost]
    exact h.others i (hhost ▸ hi)

theorem Attached.move {c : String} {s : RelayState} {l : ClientLoop} (h : Attached c s)
    (hactive : (s.client c).phase ≠ .idle) (hhost : l.host = (s.client c).host)
    (hconnected : l.phase ≠ .idle ∧ l.phase ≠ .connecting)
    (huplinked : ∀ frames, Uplinked c (s.client c) frames → Uplinked c l frames) :
    Attached c (s.setClient c l) where
  started _ := h.started hactive
  proper := h.proper
  unattached hphase := by
    simp only [setClient_client, Function.update_self] at hphase
    rcases hphase with hidle | hconnecting
    · exact absurd hidle hconnected.1
    · exact absurd hconnecting hconnected.2
  attached i hi := by
    simp only [setClient_client, Function.update_self, setClient_host] at hi ⊢
    exact huplinked _ (h.attached i (hhost ▸ hi))
  others i hi := by
    simp only [setClient_client, Function.update_self, setClient_host] at hi ⊢
    exact h.others i (hhost ▸ hi)

theorem Attached.push {c : String} {s : RelayState} {l : ClientLoop} {i : Nat} {h : HostLoop}
    {frames : List TunnelFrame} (hs : Attached c s) (hattached : (s.client c).host = some i)
    (hhost : l.host = (s.client c).host)
    (hconnected : l.phase ≠ .idle ∧ l.phase ≠ .connecting)
    (hsent : h.toHost.sent = (s.host i).toHost.sent ++ frames)
    (huplinked : ∀ before, Uplinked c (s.client c) before →
      Uplinked c l (before ++ about c frames)) :
    Attached c ((s.setHost i h).setClient c l) where
  started _ := by
    have hactive : (s.client c).phase ≠ .idle := by
      intro hidle
      rw [(hs.unattached (.inl hidle)).1] at hattached
      contradiction
    exact hs.started hactive
  proper := hs.proper
  unattached hphase := by
    simp only [setClient_client, Function.update_self] at hphase
    rcases hphase with hidle | hconnecting
    · exact absurd hidle hconnected.1
    · exact absurd hconnecting hconnected.2
  attached j hj := by
    simp only [setClient_client, Function.update_self] at hj ⊢
    have heq : i = j := by
      rw [hhost, hattached] at hj
      exact Option.some.inj hj
    subst heq
    simpa [hsent] using huplinked _ (hs.attached i hattached)
  others j hj := by
    simp only [setClient_client, Function.update_self] at hj
    have hne : j ≠ i := by
      rintro rfl
      exact hj (hhost.trans hattached)
    simpa [hne] using hs.others j (hhost ▸ hj)

theorem about_singleton {c : String} {frame : TunnelFrame} (h : frame.clientId = c) :
    about c [frame] = [frame] :=
  about_of_clientId (by simpa using h)

theorem prefix_of_forwarding {c : String} {frames datas : List TunnelFrame} {text : Bool}
    {payload : Bytes} (h : frames ++ [.data c text payload] = .clientOpen c :: datas) :
    ∃ kept, kept <+: datas ∧ frames = .clientOpen c :: kept := by
  rcases frames with _ | ⟨first, rest⟩
  · simp at h
  · rw [List.cons_append, List.cons.injEq] at h
    obtain ⟨rfl, rfl⟩ := h
    exact ⟨rest, List.prefix_append .., rfl⟩

theorem Attached.clientAct {c : String} {a : ClientAction} {s t : RelayState}
    (hs : Attached c s) (h : clientAct c a s = some t) : Attached c t := by
  cases steps_of_clientAct h with
  | phoneSends => refine hs.congr Iff.rfl ?_ ?_ ?_ fun _ => rfl <;> simp
  | snapshot hphase | offline hphase =>
      obtain ⟨hhost, htaken⟩ := hs.unattached (.inr hphase)
      have hempty (j : Nat) : about c (s.host j).toHost.sent = [] :=
        hs.others j (by simp [hhost])
      have hstarted : c ∈ s.started := hs.started (by simp [hphase])
      refine ⟨fun _ => hstarted, hs.proper, by simp, fun j hj => ?_, fun j _ => hempty j⟩
      first
        | simpa [Uplinked, htaken] using hempty j
        | simp [hhost] at hj
  | insert hphase hhost | unregister hphase hhost | remove hphase hhost =>
      refine hs.push hhost rfl (by simp) (List.append_nil _).symm fun before hbefore => ?_
      simpa only [Uplinked, hphase, about, List.filter_nil, List.append_nil] using hbefore
  | opens hphase hhost =>
      refine hs.push hhost rfl (by simp) (Queue.push_sent ..) fun before hbefore => ?_
      simp only [Uplinked, hphase] at hbefore ⊢
      rw [about_singleton (c := c) rfl, hbefore.1]
      simp [datasOf, hbefore.2]
  | openFails hphase =>
      refine hs.move (by simp [hphase]) rfl (by simp) fun frames hframes => ?_
      simpa only [Uplinked, hphase] using hframes
  | refuse hphase =>
      refine hs.move (by simp [hphase]) rfl (by simp) fun frames hframes => ?_
      simp only [Uplinked, hphase] at hframes ⊢
      exact .inl hframes.1
  | readText hphase hpop | readBinary hphase hpop | readPing hphase hpop
  | readPong hphase hpop =>
      refine hs.move (by simp [hphase]) rfl (by simp [hphase]) fun frames hframes => ?_
      simp only [Uplinked, hphase] at hframes ⊢
      simp [hframes, datasOf, Queue.pop?_taken hpop, Message.toData?]
  | readClose hphase hpop =>
      refine hs.move (by simp [hphase]) rfl (by simp) fun frames hframes => ?_
      simp only [Uplinked, hphase] at hframes ⊢
      refine ⟨_, ?_, hframes⟩
      simp [datasOf, Queue.pop?_taken hpop]
  | streamEnds hphase =>
      refine hs.move (by simp [hphase]) rfl (by simp) fun frames hframes => ?_
      simp only [Uplinked, hphase] at hframes ⊢
      exact ⟨_, List.prefix_refl _, hframes⟩
  | forwards hphase hhost =>
      refine hs.push hhost rfl (by simp) (Queue.push_sent ..) fun before hbefore => ?_
      simp only [Uplinked, hphase] at hbefore ⊢
      rw [about_singleton (c := c) rfl]
      exact hbefore
  | forwardFails hphase =>
      refine hs.move (by simp [hphase]) rfl (by simp) fun frames hframes => ?_
      simp only [Uplinked, hphase] at hframes ⊢
      exact prefix_of_forwarding hframes
  | closes hphase hhost =>
      refine hs.push hhost rfl (by simp) (Queue.push_sent ..) fun before hbefore => ?_
      simp only [Uplinked, hphase] at hbefore ⊢
      obtain ⟨datas, hdatas, rfl⟩ := hbefore
      rw [about_singleton (c := c) rfl]
      exact .inr ⟨datas, hdatas, .inr rfl⟩
  | closeFails hphase =>
      refine hs.move (by simp [hphase]) rfl (by simp) fun frames hframes => ?_
      simp only [Uplinked, hphase] at hframes ⊢
      obtain ⟨datas, hdatas, rfl⟩ := hframes
      exact .inr ⟨datas, hdatas, .inl rfl⟩
  | dropSenders hphase | writerEnded hphase =>
      refine hs.move (by simp [hphase]) rfl (by simp) fun frames hframes => ?_
      simpa only [Uplinked, hphase] using hframes

theorem attached_step {c : String} {a : Action} {s t : RelayState} (hs : Attached c s)
    (h : act a s = some t) : Attached c t := by
  rcases a with hostId | ⟨c', hostId⟩ | ⟨i, a⟩ | ⟨i, a⟩ | ⟨c', a⟩ | ⟨c', a⟩ | ⟨i, a⟩
  case hostConnects =>
      cases h
      refine hs.congr Iff.rfl rfl rfl rfl fun j => ?_
      rcases eq_or_ne j s.nextInstance with rfl | hne
      · simp
      · simp [hne]
  case clientConnects =>
      dsimp only [act] at h
      split at h
      · rename_i hfresh
        cases h
        rcases eq_or_ne c c' with rfl | hne
        · have hidle : (s.client c).phase = .idle := by
            by_contra hactive
            exact hfresh.1 (hs.started hactive)
          obtain ⟨hhost, htaken⟩ := hs.unattached (.inl hidle)
          refine ⟨by simp, fun _ => hfresh.2.1, by simp [hhost, htaken], fun j hj => ?_,
            fun j _ => hs.others j (by simp [hhost])⟩
          simp [hhost] at hj
        · refine hs.congr (by simp [hne]) ?_ ?_ ?_ fun _ => rfl <;> simp [hne]
      · contradiction
  case host =>
      have hframe := hostAct_frame h
      obtain ⟨fast, bulk, hclient, -⟩ := hframe.client c
      refine hs.congr (by rw [hframe.started]) ?_ ?_ ?_ fun j => ?_
      · rw [hclient]
      · rw [hclient]
      · rw [hclient]
      · rw [hframe.toHost]
  case hostWriter =>
      obtain ⟨toHost, writer, up, rfl, hsent, -⟩ := hostWriterAct_frame h
      refine hs.congr Iff.rfl rfl rfl rfl fun j => ?_
      rcases eq_or_ne j i with rfl | hne
      · simp [hsent]
      · simp [hne]
  case client =>
      rcases eq_or_ne c c' with rfl | hne
      · exact hs.clientAct h
      · have hframe := clientAct_frame h
        have hclient := hframe.client c hne
        refine hs.congr (by rw [hframe.started]) ?_ ?_ ?_ fun j => ?_
        · rw [hclient]
        · rw [hclient]
        · rw [hclient]
        · obtain ⟨frames, hsent, hframes⟩ := hframe.toHost j
          rw [hsent, about_append, about_of_ne hne hframes, List.append_nil]
  case phone =>
      obtain ⟨hasSender, l, hl, rfl⟩ := phoneAct_eq h
      have hframe := writerAct_frame hl
      rcases eq_or_ne c c' with rfl | hne
      · refine hs.congr Iff.rfl ?_ ?_ ?_ fun _ => rfl
        · simpa using hframe.phase
        · simpa using hframe.host
        · simp [hframe.fromPhone]
      · refine hs.congr Iff.rfl ?_ ?_ ?_ fun _ => rfl <;> simp [hne]
  case pc =>
      obtain ⟨p, -, rfl⟩ := pcAct_eq h
      exact hs.congr Iff.rfl rfl rfl rfl fun _ => rfl

theorem reachable_attached {s : RelayState} (hs : relay.Reachable s) (c : String) :
    Attached c s := by
  induction hs with
  | init hinit =>
      cases hinit
      refine ⟨?_, ?_, ?_, ?_, ?_⟩ <;> simp [about, Queue.sent]
  | step _ hstep ih => exact attached_step ih hstep

end RemoteControl.Relay.Attachment
