import RemoteControl.Relay.Downlink

/-!
The order in which a phone learns of a stream and receives its frames. The relay keeps
`stream_started` and the frames of the stream in different queues of the phone, so the order
in which they were emitted is kept in those runs only in which no frame overtakes.
-/

namespace RemoteControl.Relay.StreamOrder

open RemoteControl.Foundations.ByteStrings
open RemoteControl.Foundations.Fifo
open RemoteControl.Foundations.Transition
open RemoteControl.Foundations.Transition.System (follow run_of_follow)
open RemoteControl.Wire.Protocol
open RemoteControl.Wire.Tunnel
open RemoteControl.Server.PhoneSessions
open RemoteControl.Relay.Loops
open RemoteControl.Relay.Frame
open RemoteControl.Relay.Attachment
open RemoteControl.Relay.Uplink
open RemoteControl.Relay.Emission
open RemoteControl.Relay.Downlink

def isMedia (out : PhoneOut) : Bool :=
  !out.text &&
    (out.bytes.headD 0 == FrameType.video || out.bytes.headD 0 == FrameType.audio)

section Streams

/- How the phone parses the messages of the PC, and the stream that the frame of a given
number was produced for. -/
variable (parse : String → Option ServerMsg) (streamOf : Nat → Option String)

/-- The text is the `stream_started` of the stream. -/
def Announces (stream : String) (out : PhoneOut) : Prop :=
  ∃ text started, out.text = true ∧ ofUtf8? out.bytes = some text ∧
    parse text = some (.streamStarted started) ∧ started.streamId = stream

/-- A VIDEO or AUDIO frame of the stream. -/
def Carries (stream : String) (out : PhoneOut) : Prop :=
  isMedia out = true ∧ streamOf out.index = some stream

/-- The PC emits the `stream_started` of a stream before any frame of it. -/
def Announced (s : RelayState) (c : String) : Prop :=
  ∀ i, (s.client c).host = some i → ∀ out ∈ emitted s i c, ∀ stream,
    Carries streamOf stream out → ∃ announcement ∈ emitted s i c,
      Announces parse stream announcement ∧ announcement.index < out.index

/-- The `stream_started` of a stream stands before every frame of it. -/
def LearnsFirst (frames : List PhoneOut) : Prop :=
  ∀ before out after, frames = before ++ out :: after → ∀ stream,
    Carries streamOf stream out → ∃ announcement ∈ before, Announces parse stream announcement

/-- The phone's writer puts a frame of a stream on the WebSocket only when a `stream_started`
of the stream that was emitted before it no longer waits in the bulk queue. -/
def NotOvertaking (c : String) (s : RelayState) (a : Action) (_ : RelayState) : Prop :=
  a = .phone c .sent ∨ a = .phone c (.fails true) →
    ∀ i out stream, (s.client c).host = some i → (s.client c).writer = .sending out →
      Carries streamOf stream out → ∃ announcement ∈ emitted s i c,
        Announces parse stream announcement ∧ announcement.index < out.index ∧
          announcement ∉ (s.client c).bulk.waiting

end Streams

variable {parse : String → Option ServerMsg} {streamOf : Nat → Option String}

theorem mustDeliver_of_announces {stream : String} {out : PhoneOut}
    (h : Announces parse stream out) : out.mustDeliver = true := by
  obtain ⟨text, started, htext, -⟩ := h
  simp [PhoneOut.mustDeliver, htext]

theorem mayDrop_of_carries {stream : String} {out : PhoneOut} (h : Carries streamOf stream out) :
    out.mustDeliver = false := by
  obtain ⟨hmedia, -⟩ := h
  simp only [isMedia, Bool.and_eq_true, Bool.not_eq_true', Bool.or_eq_true, beq_iff_eq] at hmedia
  rcases hmedia with ⟨htext, hvideo | haudio⟩
  · rw [PhoneOut.mustDeliver, htext, hvideo]
    rfl
  · rw [PhoneOut.mustDeliver, htext, haudio]
    rfl

theorem LearnsFirst.of_isPrefix {xs ys : List PhoneOut} (h : LearnsFirst parse streamOf ys)
    (hpre : xs <+: ys) : LearnsFirst parse streamOf xs := by
  obtain ⟨rest, rfl⟩ := hpre
  rintro before out after rfl stream hcarries
  exact h before out (after ++ rest) (by simp) stream hcarries

theorem LearnsFirst.concat {frames : List PhoneOut} {out : PhoneOut}
    (h : LearnsFirst parse streamOf frames)
    (hlast : ∀ stream, Carries streamOf stream out →
      ∃ announcement ∈ frames, Announces parse stream announcement) :
    LearnsFirst parse streamOf (frames ++ [out]) := by
  intro before other after heq stream hcarries
  rcases List.eq_nil_or_concat after with rfl | ⟨rest, last, rfl⟩
  · obtain ⟨rfl, hother⟩ := List.append_inj' heq rfl
    cases hother
    exact hlast stream hcarries
  · rw [List.concat_eq_append, ← List.cons_append, ← List.append_assoc] at heq
    obtain ⟨rfl, -⟩ := List.append_inj' heq rfl
    exact h before other rest rfl stream hcarries

/-! ### Numbers -/

theorem numbered_pairwise (xs : List (Bool × Bytes)) :
    (numbered xs).Pairwise fun earlier later => earlier.index < later.index := by
  rw [List.pairwise_iff_getElem]
  intro i j hi hj hlt
  simpa [numbered] using hlt

theorem mem_numbered_of_lt {xs ys : List (Bool × Bytes)} {out : PhoneOut} (h : xs <+: ys)
    (hmem : out ∈ numbered ys) (hlt : out.index < xs.length) : out ∈ numbered xs := by
  obtain ⟨rest, rfl⟩ := h
  rw [numbered, List.mapIdx_append, List.mem_append] at hmem
  rcases hmem with hmem | hmem
  · exact hmem
  · obtain ⟨k, hk, rfl⟩ := List.mem_mapIdx.mp hmem
    exact absurd hlt (by simp)

/-! ### Steps -/

theorem handleFrame_hostOut (p : RelayClient) (frame : TunnelFrame) :
    (p.handleFrame frame).hostOut = p.hostOut := by
  obtain ⟨sessions, session, heq⟩ := p.handleFrame_eq frame
  rw [heq]

theorem pumpOnce_hostOut (p : RelayClient) (c : String) :
    p.hostOut.sent <+: (p.pumpOnce c).hostOut.sent := by
  obtain ⟨lanes, heq | heq | ⟨m, frame, -, -, heq⟩⟩ := p.pumpOnce_cases c
  · exact heq ▸ List.prefix_refl _
  · exact heq ▸ List.prefix_refl _
  · rw [heq]
    exact (Queue.push_sent ..) ▸ List.prefix_append ..

theorem pcAct_hostOut {p p' : RelayClient} {a : PcAction} (h : p.act a = some p') :
    p.hostOut.sent <+: p'.hostOut.sent := by
  cases RelayClient.steps_of_act h with
  | dispatches => rw [handleFrame_hostOut]
  | pump => exact pumpOnce_hostOut p _
  | writerRecv _ hpop => rw [Queue.pop?_sent hpop]
  | _ => exact List.prefix_refl _

theorem hostOut_step {a : Action} {s t : RelayState} (h : act a s = some t) (i : Nat) :
    (s.pc i).hostOut.sent <+: (t.pc i).hostOut.sent := by
  have hchange := pcChange_of_act h i
  generalize t.pc i = p at hchange ⊢
  rcases hchange with _ | ⟨up, -⟩ | ⟨down, -⟩ | ⟨a, p', hact⟩
  · exact List.prefix_refl _
  · exact List.prefix_refl _
  · exact List.prefix_refl _
  · exact pcAct_hostOut hact

theorem host_step {a : Action} {s t : RelayState} (hs : relay.Reachable s)
    (h : act a s = some t) {c : String} {i : Nat} (hhost : (s.client c).host = some i) :
    (t.client c).host = some i := by
  rcases a with hostId | ⟨c', hostId⟩ | ⟨j, a⟩ | ⟨j, a⟩ | ⟨c', a⟩ | ⟨c', a⟩ | ⟨j, a⟩
  case hostConnects =>
      cases h
      exact hhost
  case clientConnects =>
      dsimp only [act] at h
      split at h
      · cases h
        rcases eq_or_ne c c' with rfl | hne
        · simpa using hhost
        · simpa [hne] using hhost
      · contradiction
  case host =>
      obtain ⟨fast, bulk, hclient, -⟩ := (hostAct_frame h).client c
      rw [hclient]
      exact hhost
  case hostWriter =>
      obtain ⟨toHost, writer, up, rfl, -⟩ := hostWriterAct_frame h
      exact hhost
  case client =>
      rcases eq_or_ne c c' with rfl | hne
      · rcases eq_or_ne a .snapshot with rfl | hsnapshot
        · dsimp only [act, clientAct] at h
          split at h
          · rename_i hphase
            rw [((reachable_attached hs c).unattached (.inr hphase)).1] at hhost
            contradiction
          · contradiction
        · rw [(clientAct_own h).2 hsnapshot]
          exact hhost
      · rw [(clientAct_frame h).client c hne]
        exact hhost
  case phone =>
      obtain ⟨hasSender, l, hl, rfl⟩ := phoneAct_eq h
      rcases eq_or_ne c c' with rfl | hne
      · simpa [(writerAct_frame hl).host] using hhost
      · simpa [hne] using hhost
  case pc =>
      obtain ⟨p, -, rfl⟩ := pcAct_eq h
      exact hhost

theorem writerAct_outs {l l' : ClientLoop} {hasSender : Bool} {a : PhoneAction}
    (hs : Written l) (h : l.writerAct hasSender a = some l') :
    outs l'.toPhone = outs l.toPhone ∨
      ∃ out, l.writer = .sending out ∧ (a = .sent ∨ a = .fails true) ∧
        outs l'.toPhone = outs l.toPhone ++ [out] := by
  unfold ClientLoop.writerAct at h
  split at h
  · split at h
    · cases h
      exact .inl rfl
    · split at h <;> (cases h; exact .inl rfl)
  · split at h
    · cases h
      exact .inl rfl
    · split at h <;> (cases h; exact .inl rfl)
  · split at h
    · cases h
      exact .inl rfl
    · split at h <;> (cases h; exact .inl rfl)
  · cases h
    exact .inl (outs_append_pong ..)
  · rename_i out hwriter
    simp only [Written, hwriter] at hs
    cases h
    exact .inr ⟨out, hwriter, .inl rfl, outs_sendToPhone hs.1⟩
  · cases h
    left
    dsimp only
    split
    · exact outs_append_pong ..
    · rfl
  · rename_i flushed out hwriter
    simp only [Written, hwriter] at hs
    cases h
    rcases flushed with _ | _
    · exact .inl rfl
    · exact .inr ⟨out, hwriter, .inr rfl, outs_sendToPhone hs.1⟩
  · cases h
    exact .inl rfl
  · contradiction

theorem delivered_step {a : Action} {s t : RelayState} (hs : relay.Reachable s)
    (h : act a s = some t) (c : String) :
    delivered t c = delivered s c ∨
      ∃ out, (s.client c).writer = .sending out ∧
        (a = .phone c .sent ∨ a = .phone c (.fails true)) ∧
          delivered t c = delivered s c ++ [out] := by
  have hkeep (htoPhone : (t.client c).toPhone = (s.client c).toPhone) :
      delivered t c = delivered s c := by
    rw [delivered, htoPhone]
    rfl
  rcases a with hostId | ⟨c', hostId⟩ | ⟨j, a⟩ | ⟨j, a⟩ | ⟨c', a⟩ | ⟨c', a⟩ | ⟨j, a⟩
  case hostConnects =>
      cases h
      exact .inl rfl
  case clientConnects =>
      dsimp only [act] at h
      split at h
      · cases h
        refine .inl (hkeep ?_)
        rcases eq_or_ne c c' with rfl | hne
        · simp
        · simp [hne]
      · contradiction
  case host =>
      obtain ⟨fast, bulk, hclient, -⟩ := (hostAct_frame h).client c
      exact .inl (hkeep (by rw [hclient]))
  case hostWriter =>
      obtain ⟨toHost, writer, up, rfl, -⟩ := hostWriterAct_frame h
      exact .inl rfl
  case client =>
      have hframe := clientAct_frame h
      rcases eq_or_ne c c' with rfl | hne
      · exact .inl (hkeep hframe.loop.toPhone)
      · exact .inl (hkeep (by rw [hframe.client c hne]))
  case phone =>
      obtain ⟨hasSender, l, hl, rfl⟩ := phoneAct_eq h
      rcases eq_or_ne c c' with rfl | hne
      · rcases writerAct_outs (reachable_written hs c) hl with hsame | ⟨out, hwriter, ha, hgrow⟩
        · exact .inl (by simpa [delivered] using hsame)
        · exact .inr ⟨out, hwriter, by simpa using ha, by simpa [delivered] using hgrow⟩
      · exact .inl (hkeep (by simp [hne]))
  case pc =>
      obtain ⟨p, -, rfl⟩ := pcAct_eq h
      exact .inl rfl

theorem delivered_of_sends {a : Action} {s t : RelayState} (hs : relay.Reachable s)
    (h : act a s = some t) {c : String} {out : PhoneOut}
    (hwriter : (s.client c).writer = .sending out)
    (ha : a = .phone c .sent ∨ a = .phone c (.fails true)) :
    delivered t c = delivered s c ++ [out] := by
  have hwritten := reachable_written hs c
  simp only [Written, hwriter] at hwritten
  rcases ha with rfl | rfl
  · obtain ⟨hasSender, l, hl, rfl⟩ := phoneAct_eq h
    simp only [ClientLoop.writerAct, hwriter] at hl
    cases hl
    simp [delivered, outs_sendToPhone hwritten.1]
  · obtain ⟨hasSender, l, hl, rfl⟩ := phoneAct_eq h
    simp only [ClientLoop.writerAct, hwriter] at hl
    cases hl
    simp [delivered, outs_sendToPhone hwritten.1]

theorem pc_of_sends {a : Action} {s t : RelayState} (h : act a s = some t) {c : String}
    (ha : a = .phone c .sent ∨ a = .phone c (.fails true)) : t.pc = s.pc := by
  rcases ha with rfl | rfl
  all_goals
    obtain ⟨hasSender, l, hl, rfl⟩ := phoneAct_eq h
    rfl

/-- The frames for a phone that were emitted before one that its writer is sending either
wait in the bulk queue or have been delivered, if they must be. -/
theorem waits_or_delivered {s : RelayState} (hs : relay.Reachable s) {i : Nat} {c : String}
    {out earlier : PhoneOut} (hhost : (s.client c).host = some i)
    (hwriter : (s.client c).writer = .sending out) (hmay : out.mustDeliver = false)
    (hearlier : earlier ∈ emitted s i c) (hlt : earlier.index < out.index)
    (hmust : earlier.mustDeliver = true) :
    earlier ∈ (s.client c).bulk.waiting ∨ earlier ∈ delivered s c := by
  have hrouted := reachable_routed hs c
  have hwritten := reachable_written hs c
  simp only [Written, hwriter] at hwritten
  obtain ⟨-, hbulk, hfast⟩ := hwritten
  have houtSent : out ∈ (s.client c).fast.sent := by
    refine List.mem_append_left _ (hfast.subset ?_)
    simp [hmay]
  have houtRead : out ∈ routable s i c :=
    List.mem_of_mem_filter ((hrouted.fast i hhost).subset houtSent)
  have hread : earlier ∈ routable s i c :=
    mem_numbered_of_lt (payloadsRead_isPrefix hs i c) hearlier
      (hlt.trans (index_lt_of_mem_numbered out houtRead))
  have hsent := hrouted.ahead i hhost out houtSent earlier hread hmust hlt
  rw [Queue.sent, List.mem_append, ← hbulk] at hsent
  rcases hsent with htaken | hwaiting
  · rw [List.mem_filter, List.mem_append, List.mem_singleton] at htaken
    rcases htaken.1 with hdelivered | rfl
    · exact .inr hdelivered
    · rw [hmay] at hmust
      contradiction
  · exact .inl hwaiting

theorem index_lt_of_waiting {s : RelayState} (hs : relay.Reachable s) {i : Nat} {c : String}
    {done waiting : PhoneOut} (hhost : (s.client c).host = some i)
    (hdone : done ∈ delivered s c) (hmust : done.mustDeliver = true)
    (hwaiting : waiting ∈ (s.client c).bulk.waiting) : done.index < waiting.index := by
  have hrouted := reachable_routed hs c
  have htaken : done ∈ (s.client c).bulk.taken :=
    (reachable_written hs c).parts.1.subset (List.mem_filter.mpr ⟨hdone, hmust⟩)
  have hsorted : (s.client c).bulk.sent.Pairwise fun earlier later =>
      earlier.index < later.index :=
    ((numbered_pairwise _).filter _).sublist (hrouted.bulk i hhost).sublist
  rw [Queue.sent, List.pairwise_append] at hsorted
  exact hsorted.2.2 done htaken waiting hwaiting

theorem Announced.of_step {a : Action} {s t : RelayState} {c : String}
    (ht : Announced parse streamOf t c) (hs : relay.Reachable s) (h : act a s = some t) :
    Announced parse streamOf s c := by
  intro i hi out hout stream hcarries
  have hgrow : payloadsFor c (s.pc i).hostOut.sent <+: payloadsFor c (t.pc i).hostOut.sent :=
    payloadsFor_isPrefix (hostOut_step h i)
  obtain ⟨announcement, hmem, hannounces, hlt⟩ := ht i (host_step hs h hi) out
    ((numbered_isPrefix hgrow).subset hout) stream hcarries
  refine ⟨announcement, mem_numbered_of_lt hgrow hmem ?_, hannounces, hlt⟩
  exact hlt.trans (index_lt_of_mem_numbered out hout)

theorem host_of_sending {s : RelayState} (hs : relay.Reachable s) {c : String}
    {out : PhoneOut} (hwriter : (s.client c).writer = .sending out)
    (hmay : out.mustDeliver = false) : ∃ i, (s.client c).host = some i := by
  have hwritten := reachable_written hs c
  simp only [Written, hwriter] at hwritten
  rcases hhost : (s.client c).host with _ | i
  · obtain ⟨hnone, -⟩ := (reachable_routed hs c).unattached hhost
    rw [Queue.sent, List.append_eq_nil_iff] at hnone
    have hmem : out ∈ (s.client c).fast.taken := hwritten.2.2.subset (by simp [hmay])
    rw [hnone.1] at hmem
    contradiction
  · exact ⟨i, rfl⟩

theorem emitted_of_delivered {s : RelayState} (hs : relay.Reachable s) {i : Nat} {c : String}
    {out : PhoneOut} (hhost : (s.client c).host = some i) (hmem : out ∈ delivered s c) :
    out ∈ emitted s i c := by
  have hfaithful := reachable_faithfulDownlink hs c
  rcases hmust : out.mustDeliver
  · refine List.mem_of_mem_filter ((hfaithful.sublist_of_droppable i hhost).subset ?_)
    exact List.mem_filter.mpr ⟨hmem, by simp [hmust]⟩
  · refine List.mem_of_mem_filter ((hfaithful.prefix_of_mustDeliver i hhost).subset ?_)
    exact List.mem_filter.mpr ⟨hmem, hmust⟩

/-! ### Runs -/

theorem learnsFirst_of_notOvertaking {c : String} {actions : List Action} {t : RelayState}
    (hrun : (relay.restrict (NotOvertaking parse streamOf c)).Run {} actions t) :
    LearnsFirst parse streamOf (delivered t c) := by
  have hinit : (relay.restrict (NotOvertaking parse streamOf c)).Reachable {} := .init rfl
  induction hrun with
  | nil =>
      intro before out after heq
      simp [delivered, outs] at heq
  | @snoc s t labels a hprev hstep ih =>
      obtain ⟨hact, hcond⟩ := hstep
      have hs : relay.Reachable s := .of_restrict (hinit.run hprev)
      rcases delivered_step hs hact c with hsame | ⟨out, hwriter, ha, hgrow⟩
      · rw [hsame]
        exact ih
      · rw [hgrow]
        refine ih.concat fun stream hcarries => ?_
        have hmay := mayDrop_of_carries hcarries
        obtain ⟨i, hhost⟩ := host_of_sending hs hwriter hmay
        obtain ⟨announcement, hmem, hannounces, hlt, hout⟩ :=
          hcond ha i out stream hhost hwriter hcarries
        rcases waits_or_delivered hs hhost hwriter hmay hmem hlt
          (mustDeliver_of_announces hannounces) with hwaiting | hdelivered
        · exact absurd hwaiting hout
        · exact ⟨announcement, hdelivered, hannounces⟩

theorem notOvertaking_of_learnsFirst {c : String} {actions : List Action} {t : RelayState}
    (hrun : relay.Run {} actions t) (hannounced : Announced parse streamOf t c)
    (hlearns : LearnsFirst parse streamOf (delivered t c)) :
    (relay.restrict (NotOvertaking parse streamOf c)).Run {} actions t := by
  have hinit : relay.Reachable {} := .init rfl
  induction hrun with
  | nil => exact .nil _
  | @snoc s t labels a hprev hstep ih =>
      have hs : relay.Reachable s := hinit.run hprev
      have hbefore : Announced parse streamOf s c := hannounced.of_step hs hstep
      have hpre : delivered s c <+: delivered t c := by
        rcases delivered_step hs hstep c with hsame | ⟨out, -, -, hgrow⟩
        · rw [hsame]
        · rw [hgrow]
          exact List.prefix_append ..
      refine .snoc (ih hbefore (hlearns.of_isPrefix hpre)) ⟨hstep, ?_⟩
      intro ha i out stream hhost hwriter hcarries
      have hmay := mayDrop_of_carries hcarries
      have hgrow := delivered_of_sends hs hstep hwriter ha
      have hout : out ∈ emitted s i c := by
        have hsent : out ∈ delivered t c := by simp [hgrow]
        have hemitted := emitted_of_delivered (.step hs hstep) (host_step hs hstep hhost) hsent
        rwa [emitted, pc_of_sends hstep ha] at hemitted
      obtain ⟨first, hfirst, hfirstAnnounces, hlt⟩ := hbefore i hhost out hout stream hcarries
      obtain ⟨heard, hheard, hheardAnnounces⟩ :=
        hlearns (delivered s c) out [] hgrow stream hcarries
      by_cases hwaiting : first ∈ (s.client c).bulk.waiting
      · have hheardLt := index_lt_of_waiting hs hhost hheard
          (mustDeliver_of_announces hheardAnnounces) hwaiting
        refine ⟨heard, emitted_of_delivered hs hhost hheard, hheardAnnounces,
          hheardLt.trans hlt, fun hheardWaiting => ?_⟩
        exact absurd (index_lt_of_waiting hs hhost hheard
          (mustDeliver_of_announces hheardAnnounces) hheardWaiting) (lt_irrefl _)
      · exact ⟨first, hfirst, hfirstAnnounces, hlt, hwaiting⟩

/-- In a run in which the PC announces every stream before the first frame of it, the phone
learns of every stream before it receives a frame of it if and only if no frame is put on its
WebSocket while all that was emitted before and announces the stream waits in the bulk queue. -/
theorem learnsFirst_iff {c : String} {actions : List Action} {t : RelayState}
    (hrun : relay.Run {} actions t) (hannounced : Announced parse streamOf t c) :
    LearnsFirst parse streamOf (delivered t c) ↔
      (relay.restrict (NotOvertaking parse streamOf c)).Run {} actions t := by
  constructor
  · exact notOvertaking_of_learnsFirst hrun hannounced
  · exact learnsFirst_of_notOvertaking

/-! ### One stream -/

def startedText : String :=
  "\x7b\"type\":\"stream_started\",\"stream_id\":\"v1\",\"codec\":\"h264\"," ++
    "\"profile\":\"high\",\"level\":\"4.2\",\"width\":1920,\"height\":1080,\"fps\":60," ++
    "\"bitrate_kbps\":8000,\"keyframe_interval_frames\":120,\"pixel_format\":\"yuv420p\"," ++
    "\"started_at_unix_ms\":1713000000000\x7d"

def started : StreamStarted where
  streamId := "v1"
  codec := "h264"
  profile := "high"
  level := "4.2"
  width := 1920
  height := 1080
  fps := 60
  bitrateKbps := 8000
  keyframeIntervalFrames := 120
  pixelFormat := "yuv420p"
  startedAtUnixMs := 1713000000000
  audio := none

def parseStarted (text : String) : Option ServerMsg :=
  if text = startedText then some (.streamStarted started) else none

/-- The frame numbered 1 is the first of the stream. -/
def streamOfFirst (index : Nat) : Option String :=
  if index = 1 then some "v1" else none

def startedOut : PhoneOut := { bytes := utf8 startedText, text := true, index := 0 }

def videoOut : PhoneOut := { bytes := [1, 9], text := false, index := 1 }

/-- Both wait in the phone's queues, and the phone's writer asks the fast queue first. -/
def overtaking : List Action :=
  attachPhone ++ openSession ++ emitText startedText ++ emitVideo [1, 9] ++ deliverFast

/-- The text is delivered before the frame is emitted. -/
def inOrder : List Action :=
  attachPhone ++ openSession ++ emitText startedText ++ deliverBulk ++ emitVideo [1, 9] ++
    deliverFast

theorem announces_startedOut : Announces parseStarted "v1" startedOut :=
  ⟨startedText, started, rfl, ofUtf8?_utf8 startedText, if_pos rfl, rfl⟩

theorem carries_videoOut : Carries streamOfFirst "v1" videoOut :=
  ⟨rfl, rfl⟩

theorem announced_of_emitted {s : RelayState} {c : String} {i : Nat}
    (hhost : (s.client c).host = some i) (h : emitted s i c = [startedOut, videoOut]) :
    Announced parseStarted streamOfFirst s c := by
  intro j hj out hout stream hcarries
  obtain rfl : i = j := Option.some.inj (hhost.symm.trans hj)
  rw [h] at hout ⊢
  rw [List.mem_pair] at hout
  rcases hout with rfl | rfl
  · obtain ⟨hmedia, -⟩ := hcarries
    simp [isMedia, startedOut] at hmedia
  · obtain ⟨-, hstream⟩ := hcarries
    obtain rfl : "v1" = stream := by simpa [streamOfFirst, videoOut] using hstream
    exact ⟨startedOut, by simp, announces_startedOut, by decide⟩

theorem learnsFirst_inOrder :
    LearnsFirst parseStarted streamOfFirst [startedOut, videoOut] := by
  have hstart : LearnsFirst parseStarted streamOfFirst [] := by simp [LearnsFirst]
  have hfirst : LearnsFirst parseStarted streamOfFirst ([] ++ [startedOut]) := by
    refine hstart.concat ?_
    rintro stream ⟨hmedia, -⟩
    simp [isMedia, startedOut] at hmedia
  refine hfirst.concat ?_
  rintro stream ⟨-, hstream⟩
  obtain rfl : "v1" = stream := by simpa [streamOfFirst, videoOut] using hstream
  exact ⟨startedOut, by simp, announces_startedOut⟩

/-- The host, what was emitted and what was delivered at the end of a run. -/
def outcome (s : RelayState) : Option Nat × List PhoneOut × List PhoneOut :=
  ((s.client phoneId).host, emitted s 0 phoneId, delivered s phoneId)

theorem learnsFirst_iff_inOrder : ∃ t,
    (relay.restrict (NotOvertaking parseStarted streamOfFirst phoneId)).Run {} inOrder t ∧
      delivered t phoneId = [startedOut, videoOut] := by
  have hfollow : (follow act inOrder {}).map outcome =
      some (some 0, [startedOut, videoOut], [startedOut, videoOut]) := by
    decide +kernel
  obtain ⟨t, ht, houtcome⟩ := Option.map_eq_some_iff.mp hfollow
  simp only [outcome, Prod.mk.injEq] at houtcome
  obtain ⟨hhost, hemitted, hdelivered⟩ := houtcome
  have hannounced := announced_of_emitted hhost hemitted
  refine ⟨t, (learnsFirst_iff (run_of_follow (fun h => h) ht) hannounced).mp ?_, hdelivered⟩
  rw [hdelivered]
  exact learnsFirst_inOrder

/-- A video frame overtakes the text that announces its stream. -/
theorem overtaking_not_learnsFirst :
    ¬ ∀ (parse : String → Option ServerMsg) (streamOf : Nat → Option String) (c : String)
      (actions : List Action) (t : RelayState), relay.Run {} actions t →
        Announced parse streamOf t c → LearnsFirst parse streamOf (delivered t c) := by
  intro hall
  have hfollow : (follow act overtaking {}).map outcome =
      some (some 0, [startedOut, videoOut], [videoOut]) := by
    decide +kernel
  obtain ⟨t, ht, houtcome⟩ := Option.map_eq_some_iff.mp hfollow
  simp only [outcome, Prod.mk.injEq] at houtcome
  obtain ⟨hhost, hemitted, hdelivered⟩ := houtcome
  have hannounced := announced_of_emitted hhost hemitted
  have hlearns := hall _ _ _ _ _ (run_of_follow (fun h => h) ht) hannounced
  obtain ⟨announcement, hmem, -⟩ := hlearns [] videoOut [] hdelivered "v1" carries_videoOut
  exact absurd hmem List.not_mem_nil

end RemoteControl.Relay.StreamOrder
