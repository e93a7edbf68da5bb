import RemoteControl.Server.AudioLoop
import RemoteControl.Server.VideoLoop

/-!
A running stream (`start_stream` and `StreamHandle` of `server-pc/src/stream.rs`): the video and
the audio thread, the channel that they share, and the connection that holds the other end of it.
-/

namespace RemoteControl.Server.StreamWorkers

open RemoteControl.Foundations.ByteStrings
open RemoteControl.Foundations.Transition
open RemoteControl.Foundations.Transition.System
open RemoteControl.Wire.Protocol
open RemoteControl.Server.AudioLoop (Audio Sample)
open RemoteControl.Server.VideoLoop (Stream EncodedPacket headerPts)

/-! ### The stream -/

/-- What `mpsc::channel` is given. -/
def capacity : Nat := 32

/-- Both threads with the frames that wait in the channel, oldest first. `dropped` tells that the
handle is gone, and `ended` that `recv` has given `None`. Not kept by the code: what `recv` gave
before. -/
structure Workers (σ : Type) where
  video : Stream
  audio : Option (Audio σ)
  queue : List Bytes := []
  received : List Bytes := []
  dropped : Bool := false
  ended : Bool := false

inductive Event where
  | forceKeyframe
  | stop
  | drop
  | video (event : VideoLoop.Event)
  | audio (event : AudioLoop.Event)
  | recv
  | recvNone

/-- What the video thread does on its own, without the channel. -/
def videoOwn : VideoLoop.Event → Bool
  | .gate _ | .swap | .capture _ | .pace _ | .again => true
  | .forceKeyframe | .stop | .send _ _ => false

def audioOwn : AudioLoop.Event → Bool
  | .start | .check | .read _ | .encode _ | .sleep => true
  | .stop | .send _ => false

namespace Workers

variable {σ : Type}

/-- `StreamHandle::stop`: both threads read the one flag. -/
def stopped (w : Workers σ) : Workers σ :=
  { w with
    video := { w.video with stop := true }
    audio := w.audio.map fun a => { a with stop := true } }

/-- Neither thread holds a sender any more. -/
def Over (w : Workers σ) : Prop :=
  w.video.place = .returned ∧ ∀ a ∈ w.audio, a.place = .returned

/-- When `start_stream` returns; where the sound could not be set up there is no audio thread. -/
def Begun (w : Workers σ) : Prop :=
  ∃ video audio, video.Started ∧ (∀ a ∈ audio, a.Spawned ∧ a.startedAt = video.startedAt) ∧
    w = { video, audio }

end Workers

section System

variable {σ : Type} (encodeFloat : σ → List Sample → Option (Bytes × σ))

/-- `blocking_send` waits for room, and fails once the receiver is gone, with which the frames that
wait are gone too. -/
inductive Step : Workers σ → Event → Workers σ → Prop
  | forceKeyframe {w : Workers σ} : w.dropped = false →
      Step w .forceKeyframe { w with video := w.video.forceKeyframe }
  | stop {w : Workers σ} : w.dropped = false → Step w .stop w.stopped
  | drop {w : Workers σ} : w.dropped = false →
      Step w .drop { w.stopped with dropped := true, queue := [] }
  | video {w : Workers σ} {event : VideoLoop.Event} {video : Stream} : videoOwn event = true →
      w.video.act event = some video → Step w (.video event) { w with video }
  | videoSend {w : Workers σ} {now : Nat} {pkt : EncodedPacket} {rest : List EncodedPacket}
      {video : Stream} : w.dropped = false → w.queue.length < capacity →
      w.video.packets = pkt :: rest → w.video.act (.send now true) = some video →
      Step w (.video (.send now true)) { w with
        video
        queue := w.queue ++
          [buildVideoFrame pkt.data (w.video.ptsUs now) pkt.isKeyframe pkt.hasConfig] }
  | videoClosed {w : Workers σ} {now : Nat} {video : Stream} : w.dropped = true →
      w.video.act (.send now false) = some video →
      Step w (.video (.send now false)) { w with video }
  | audio {w : Workers σ} {a b : Audio σ} {event : AudioLoop.Event} : w.audio = some a →
      audioOwn event = true → a.act encodeFloat event = some b →
      Step w (.audio event) { w with audio := some b }
  | audioSend {w : Workers σ} {a b : Audio σ} {packet : Bytes} {now : Nat} : w.dropped = false →
      w.queue.length < capacity → w.audio = some a → a.place = .sending packet now →
      a.act encodeFloat (.send true) = some b →
      Step w (.audio (.send true))
        { w with audio := some b, queue := w.queue ++ [a.frame packet now] }
  | audioClosed {w : Workers σ} {a b : Audio σ} : w.dropped = true → w.audio = some a →
      a.act encodeFloat (.send false) = some b →
      Step w (.audio (.send false)) { w with audio := some b }
  | recv {w : Workers σ} {frame : Bytes} {rest : List Bytes} : w.dropped = false →
      w.queue = frame :: rest →
      Step w .recv { w with queue := rest, received := w.received ++ [frame] }
  | recvNone {w : Workers σ} : w.dropped = false → w.queue = [] → w.Over →
      Step w .recvNone { w with ended := true }

def workers : System (Workers σ) Event where
  init := Workers.Begun
  step := Step encodeFloat

end System

/-! ### What the threads do -/

/-- How far the video thread is from its end once the flag is up and the channel closed. -/
def videoRank : VideoLoop.Place → Nat
  | .returned => 0
  | .top => 1
  | .sending => 2
  | .captured _ => 3
  | .swapped _ => 4
  | .gated _ => 5

def audioRank : AudioLoop.Place → Nat
  | .returned => 0
  | .top | .sending _ _ => 1
  | .started | .draining => 2
  | .reading => 3

theorem video_own {s t : Stream} {event : VideoLoop.Event} (hown : videoOwn event = true)
    (h : s.act event = some t) :
    t.sent = s.sent ∧ t.stop = s.stop ∧ s.place ≠ .returned ∧
      (s.stop = true → videoRank t.place < videoRank s.place) := by
  have hidle : ∀ u : Stream, u.idle.sent = u.sent ∧ u.idle.stop = u.stop ∧
      u.idle.place = .top := by
    intro u
    unfold Stream.idle
    split
    · exact ⟨rfl, rfl, rfl⟩
    · exact ⟨rfl, rfl, rfl⟩
  cases VideoLoop.moves_of_act h with
  | forceKeyframe | stop | send | closed => contradiction
  | gate hplace =>
      unfold Stream.gate
      rw [hplace]
      split
      next => exact ⟨rfl, rfl, nofun, fun _ => (show 0 < 1 by decide)⟩
      next hrunning =>
        split
        next => exact ⟨rfl, rfl, nofun, fun hstop => absurd hstop hrunning⟩
        next => exact ⟨rfl, rfl, nofun, fun hstop => absurd hstop hrunning⟩
  | swap hplace =>
      rw [hplace]
      exact ⟨rfl, rfl, nofun, fun _ => Nat.lt_succ_self 4⟩
  | capture hplace hcapture =>
      rw [hplace]
      rcases VideoLoop.capture_cases hcapture with
        rfl | rfl | ⟨inputs, rfl⟩ | rfl | ⟨inputs, packets, rfl⟩
      · obtain ⟨hsent, hstop, hplace'⟩ := hidle s
        rw [hplace']
        exact ⟨hsent, hstop, nofun, fun _ => (show 1 < 4 by decide)⟩
      · exact ⟨rfl, rfl, nofun, fun _ => (show 0 < 4 by decide)⟩
      · exact ⟨rfl, rfl, nofun, fun _ => (show 0 < 4 by decide)⟩
      · obtain ⟨hsent, hstop, hplace'⟩ := hidle (s.submit 0)
        rw [hplace']
        exact ⟨hsent, hstop, nofun, fun _ => (show 1 < 4 by decide)⟩
      · exact ⟨rfl, rfl, nofun, fun _ => Nat.lt_succ_self 3⟩
  | pace hplace =>
      rw [hplace]
      exact ⟨rfl, rfl, nofun, fun _ => Nat.lt_succ_self 2⟩
  | again hplace =>
      rw [hplace]
      exact ⟨rfl, rfl, nofun, fun _ => Nat.lt_succ_self 1⟩

theorem audio_own {σ : Type} {encodeFloat : σ → List Sample → Option (Bytes × σ)} {a b : Audio σ}
    {event : AudioLoop.Event} (hown : audioOwn event = true)
    (h : a.act encodeFloat event = some b) :
    b.sent = a.sent ∧ b.startedAt = a.startedAt ∧ b.stop = a.stop ∧ a.place ≠ .returned ∧
      (a.stop = true → audioRank b.place < audioRank a.place) := by
  cases AudioLoop.moves_of_act h with
  | stop | send | closed => contradiction
  | start hplace =>
      unfold Audio.start
      rw [hplace]
      split
      · exact ⟨rfl, rfl, rfl, nofun, fun _ => (show 0 < 2 by decide)⟩
      · exact ⟨rfl, rfl, rfl, nofun, fun _ => (show 1 < 2 by decide)⟩
  | check hplace =>
      unfold Audio.check
      rw [hplace]
      split
      next => exact ⟨rfl, rfl, rfl, nofun, fun _ => (show 0 < 1 by decide)⟩
      next hrunning => exact ⟨rfl, rfl, rfl, nofun, fun hstop => absurd hstop hrunning⟩
  | read hplace hnew =>
      rw [hplace]
      rcases hnew with rfl | rfl
      · exact ⟨rfl, rfl, rfl, nofun, fun _ => (show 2 < 3 by decide)⟩
      · exact ⟨rfl, rfl, rfl, nofun, fun _ => (show 0 < 3 by decide)⟩
  | failed hplace =>
      rw [hplace]
      exact ⟨rfl, rfl, rfl, nofun, fun _ => (show 0 < 2 by decide)⟩
  | encoded hplace =>
      rw [hplace]
      exact ⟨rfl, rfl, rfl, nofun, fun _ => Nat.lt_succ_self 1⟩
  | sleep hplace =>
      rw [hplace]
      exact ⟨rfl, rfl, rfl, nofun, fun _ => (show 1 < 2 by decide)⟩

/-! ### What the connection receives -/

def isVideo (frame : Bytes) : Bool :=
  frame.head? == some FrameType.video

def isAudio (frame : Bytes) : Bool :=
  frame.head? == some FrameType.audio

/-- The frames are the video and the sound, in some interleaving. -/
structure Carries (frames video sound : List Bytes) : Prop where
  video : frames.filter isVideo = video
  sound : frames.filter isAudio = sound
  kinds : ∀ frame ∈ frames, isVideo frame = true ∨ isAudio frame = true

theorem carries_nil : Carries [] [] [] :=
  ⟨rfl, rfl, fun _ h => absurd h List.not_mem_nil⟩

theorem Carries.concat_video {frames video sound : List Bytes} (h : Carries frames video sound)
    (payload : Bytes) (ptsUs : UInt64) (keyframe hasConfig : Bool) :
    Carries (frames ++ [buildVideoFrame payload ptsUs keyframe hasConfig])
      (video ++ [buildVideoFrame payload ptsUs keyframe hasConfig]) sound := by
  constructor
  · rw [List.filter_append, h.video]
    rfl
  · rw [List.filter_append, h.sound]
    exact List.append_nil _
  · intro frame hframe
    rcases List.mem_append.mp hframe with hearlier | hlast
    · exact h.kinds frame hearlier
    · obtain rfl := List.mem_singleton.mp hlast
      exact .inl rfl

theorem Carries.concat_sound {frames video sound : List Bytes} (h : Carries frames video sound)
    (payload : Bytes) (ptsUs : UInt64) :
    Carries (frames ++ [buildAudioFrame payload ptsUs]) video
      (sound ++ [buildAudioFrame payload ptsUs]) := by
  constructor
  · rw [List.filter_append, h.video]
    exact List.append_nil _
  · rw [List.filter_append, h.sound]
    rfl
  · intro frame hframe
    rcases List.mem_append.mp hframe with hearlier | hlast
    · exact h.kinds frame hearlier
    · obtain rfl := List.mem_singleton.mp hlast
      exact .inr rfl

/-- The frames that a thread has sent. -/
def sound {σ : Type} (a : Audio σ) : List Bytes :=
  a.sent.map fun entry => a.frame entry.packet entry.now

namespace Workers

variable {σ : Type}

def videoFrames (w : Workers σ) : List Bytes :=
  w.video.sent.map (·.frame)

def audioFrames (w : Workers σ) : List Bytes :=
  w.audio.elim [] sound

/-- What is kept. `lost` are the frames that the handle took with it. -/
structure Inv (w : Workers σ) (lost : List Bytes) : Prop where
  carried : Carries (w.received ++ w.queue ++ lost) w.videoFrames w.audioFrames
  lost : w.dropped = false ∨ w.ended = true → lost = []
  room : w.queue.length ≤ capacity
  closed : w.dropped = true →
    w.queue = [] ∧ w.video.stop = true ∧ ∀ a ∈ w.audio, a.stop = true
  finished : w.ended = true → w.queue = [] ∧ w.Over

end Workers

open Workers

section Inv

variable {σ : Type} {encodeFloat : σ → List Sample → Option (Bytes × σ)}

theorem begun_inv {w : Workers σ} (h : w.Begun) : w.Inv [] := by
  obtain ⟨video, audio, ⟨frameInterval, startedAt, backend, now, -, rfl⟩, haudio, rfl⟩ := h
  constructor
  · cases audio with
    | none => exact carries_nil
    | some a =>
        obtain ⟨⟨capture, startedAt', inner, now', -, rfl⟩, -⟩ := haudio a rfl
        exact carries_nil
  · exact fun _ => rfl
  · exact Nat.zero_le _
  · intro hdropped
    contradiction
  · intro hended
    contradiction

theorem Workers.Inv.video_goes {w : Workers σ} {lost : List Bytes} (h : w.Inv lost)
    {video : Stream} (hsent : video.sent = w.video.sent)
    (hstop : w.video.stop = true → video.stop = true)
    (hplace : w.video.place = .returned → video.place = .returned) :
    ({ w with video } : Workers σ).Inv lost := by
  refine ⟨?_, h.lost, h.room, ?_, ?_⟩
  · have hcarried := h.carried
    rw [videoFrames, ← hsent] at hcarried
    exact hcarried
  · intro hdropped
    obtain ⟨hqueue, hvideo, haudio⟩ := h.closed hdropped
    exact ⟨hqueue, hstop hvideo, haudio⟩
  · intro hended
    obtain ⟨hqueue, hvideo, haudio⟩ := h.finished hended
    exact ⟨hqueue, hplace hvideo, haudio⟩

theorem Workers.Inv.audio_goes {w : Workers σ} {lost : List Bytes} (h : w.Inv lost)
    {a b : Audio σ} (haudio : w.audio = some a) (hsent : sound b = sound a)
    (hstop : a.stop = true → b.stop = true)
    (hplace : a.place = .returned → b.place = .returned) :
    ({ w with audio := some b } : Workers σ).Inv lost := by
  refine ⟨?_, h.lost, h.room, ?_, ?_⟩
  · have hcarried := h.carried
    rw [audioFrames, haudio, Option.elim_some, ← hsent] at hcarried
    exact hcarried
  · intro hdropped
    obtain ⟨hqueue, hvideo, haudios⟩ := h.closed hdropped
    refine ⟨hqueue, hvideo, ?_⟩
    rintro _ ⟨⟩
    exact hstop (haudios a haudio)
  · intro hended
    obtain ⟨hqueue, hvideo, haudios⟩ := h.finished hended
    refine ⟨hqueue, hvideo, ?_⟩
    rintro _ ⟨⟩
    exact hplace (haudios a haudio)

theorem stopped_inv {w : Workers σ} {lost : List Bytes} (h : w.Inv lost) :
    w.stopped.Inv lost := by
  have hvideo : ({ w with video := { w.video with stop := true } } : Workers σ).Inv lost :=
    h.video_goes rfl (fun _ => rfl) id
  unfold stopped
  rcases haudio : w.audio with _ | a
  · rw [Option.map_none, ← haudio]
    exact hvideo
  · rw [Option.map_some]
    exact hvideo.audio_goes haudio rfl (fun _ => rfl) id

theorem drop_inv {w : Workers σ} {lost : List Bytes} (h : w.Inv lost) :
    ({ w.stopped with dropped := true, queue := [] } : Workers σ).Inv (w.queue ++ lost) := by
  have hstopped := stopped_inv h
  constructor
  · show Carries (w.received ++ [] ++ (w.queue ++ lost)) _ _
    rw [List.append_nil, ← List.append_assoc]
    exact hstopped.carried
  · rintro (hdropped | hended)
    · contradiction
    · obtain ⟨hqueue, -⟩ := h.finished hended
      rw [hqueue, h.lost (.inr hended)]
      rfl
  · exact Nat.zero_le _
  · intro _
    refine ⟨rfl, rfl, ?_⟩
    intro a ha
    obtain ⟨b, -, rfl⟩ := Option.map_eq_some_iff.mp ha
    rfl
  · intro hended
    exact ⟨rfl, (hstopped.finished hended).2⟩

theorem video_send {s t : Stream} {now : Nat} {pkt : EncodedPacket} {rest : List EncodedPacket}
    (hpackets : s.packets = pkt :: rest) (h : s.act (.send now true) = some t) :
    s.place = .sending ∧ t.stop = s.stop ∧
      t.sent.map (·.frame) = s.sent.map (·.frame) ++
        [buildVideoFrame pkt.data (s.ptsUs now) pkt.isKeyframe pkt.hasConfig] := by
  cases VideoLoop.moves_of_act h with
  | send hplace _ hpackets' =>
      obtain ⟨rfl, -⟩ := List.cons.inj (hpackets.symm.trans hpackets')
      refine ⟨hplace, rfl, ?_⟩
      rw [List.map_append]
      rfl

theorem video_closed {s t : Stream} {now : Nat} (h : s.act (.send now false) = some t) :
    s.place = .sending ∧ t.place = .returned ∧ t.stop = s.stop ∧ t.sent = s.sent := by
  cases VideoLoop.moves_of_act h with
  | closed hplace => exact ⟨hplace, rfl, rfl, rfl⟩

theorem audio_send {a b : Audio σ} {packet : Bytes} {now : Nat}
    (hplace : a.place = .sending packet now) (h : a.act encodeFloat (.send true) = some b) :
    b.stop = a.stop ∧ sound b = sound a ++ [a.frame packet now] := by
  cases AudioLoop.moves_of_act h with
  | send hplace' =>
      obtain ⟨rfl, rfl⟩ := AudioLoop.Place.sending.inj (hplace.symm.trans hplace')
      refine ⟨rfl, ?_⟩
      rw [sound, List.map_append]
      rfl

theorem audio_closed {a b : Audio σ} (h : a.act encodeFloat (.send false) = some b) :
    (∃ packet now, a.place = .sending packet now) ∧ b.place = .returned ∧ b.stop = a.stop ∧
      sound b = sound a := by
  cases AudioLoop.moves_of_act h with
  | closed hplace => exact ⟨⟨_, _, hplace⟩, rfl, rfl, rfl⟩

theorem sound_own {a b : Audio σ} {event : AudioLoop.Event} (hown : audioOwn event = true)
    (h : a.act encodeFloat event = some b) : sound b = sound a := by
  obtain ⟨hsent, hstarted, -⟩ := audio_own hown h
  rw [sound, sound, hsent]
  apply List.map_congr_left
  intro entry _
  rw [Audio.frame, Audio.frame, Audio.ptsUs, Audio.ptsUs, hstarted]

theorem step_inv {w w' : Workers σ} {event : Event} {lost : List Bytes} (h : w.Inv lost)
    (hstep : Step encodeFloat w event w') : ∃ lost', w'.Inv lost' := by
  cases hstep with
  | forceKeyframe => exact ⟨lost, h.video_goes rfl id id⟩
  | stop => exact ⟨lost, stopped_inv h⟩
  | drop => exact ⟨_, drop_inv h⟩
  | video hown hact =>
      obtain ⟨hsent, hstop, hplace, -⟩ := video_own hown hact
      exact ⟨lost, h.video_goes hsent (hstop ▸ id) fun h' => absurd h' hplace⟩
  | videoSend hopen hroom hpackets hact =>
      obtain ⟨hplace, hstop, hsent⟩ := video_send hpackets hact
      obtain rfl := h.lost (.inl hopen)
      refine ⟨[], ?_, fun _ => rfl, ?_, ?_, ?_⟩
      · have hcarried := h.carried
        rw [List.append_nil] at hcarried
        rw [List.append_nil, videoFrames, hsent, ← List.append_assoc]
        exact hcarried.concat_video _ _ _ _
      · rw [List.length_append]
        exact hroom
      · intro hdropped
        rw [hopen] at hdropped
        contradiction
      · intro hended
        obtain ⟨-, hvideo, -⟩ := h.finished hended
        rw [hplace] at hvideo
        contradiction
  | videoClosed _ hact =>
      obtain ⟨-, hplace, hstop, hsent⟩ := video_closed hact
      exact ⟨lost, h.video_goes hsent (hstop ▸ id) fun _ => hplace⟩
  | audio haudio hown hact =>
      obtain ⟨-, -, hstop, hplace, -⟩ := audio_own hown hact
      exact ⟨lost, h.audio_goes haudio (sound_own hown hact) (hstop ▸ id)
        fun h' => absurd h' hplace⟩
  | audioSend hopen hroom haudio hplace hact =>
      obtain ⟨hstop, hsent⟩ := audio_send hplace hact
      obtain rfl := h.lost (.inl hopen)
      refine ⟨[], ?_, fun _ => rfl, ?_, ?_, ?_⟩
      · have hcarried := h.carried
        rw [List.append_nil, audioFrames, haudio] at hcarried
        rw [List.append_nil, audioFrames, Option.elim_some, hsent, ← List.append_assoc]
        exact hcarried.concat_sound _ _
      · rw [List.length_append]
        exact hroom
      · intro hdropped
        rw [hopen] at hdropped
        contradiction
      · intro hended
        obtain ⟨-, -, haudios⟩ := h.finished hended
        rw [haudios _ haudio] at hplace
        contradiction
  | audioClosed _ haudio hact =>
      obtain ⟨-, hplace, hstop, hsent⟩ := audio_closed hact
      exact ⟨lost, h.audio_goes haudio hsent (hstop ▸ id) fun _ => hplace⟩
  | recv hopen hqueue =>
      refine ⟨lost, ?_, h.lost, ?_, ?_, ?_⟩
      · have hcarried := h.carried
        rw [hqueue, List.append_cons] at hcarried
        exact hcarried
      · have hroom := h.room
        rw [hqueue] at hroom
        exact Nat.le_of_succ_le hroom
      · intro hdropped
        rw [hopen] at hdropped
        contradiction
      · intro hended
        rw [(h.finished hended).1] at hqueue
        contradiction
  | recvNone hopen hqueue hover =>
      exact ⟨lost, h.carried, fun _ => h.lost (.inl hopen), h.room, h.closed,
        fun _ => ⟨hqueue, hover⟩⟩

theorem reachable_inv {w : Workers σ} (h : (workers encodeFloat).Reachable w) :
    ∃ lost, w.Inv lost :=
  h.invariant (I := fun w => ∃ lost, w.Inv lost) (fun _ hbegun => ⟨[], begun_inv hbegun⟩)
    (fun _ _ _ _ ⟨_, hinv⟩ hstep => step_inv hinv hstep)

/-! ### Timestamps -/

theorem video_reachable {w : Workers σ} (h : (workers encodeFloat).Reachable w) :
    VideoLoop.video.Reachable w.video := by
  refine h.invariant (I := fun w => VideoLoop.video.Reachable w.video) ?_ ?_
  · rintro _ ⟨video, audio, hvideo, -, rfl⟩
    exact .init hvideo
  · intro w event w' _ hw hstep
    cases hstep with
    | forceKeyframe =>
        have hact : w.video.act .forceKeyframe = some w.video.forceKeyframe := rfl
        exact .step hw hact
    | stop | drop =>
        have hact : w.video.act .stop = some { w.video with stop := true } := rfl
        exact .step hw hact
    | video _ hact | videoSend _ _ _ hact | videoClosed _ hact => exact .step hw hact
    | audio | audioSend | audioClosed | recv | recvNone => exact hw

theorem audio_run {w : Workers σ} (h : (workers encodeFloat).Reachable w) :
    ∀ a ∈ w.audio, ∃ s events, s.Spawned ∧ (AudioLoop.audio encodeFloat).Run s events a := by
  refine h.invariant (I := fun w => ∀ a ∈ w.audio, ∃ s events, s.Spawned ∧
    (AudioLoop.audio encodeFloat).Run s events a) ?_ ?_
  · rintro _ ⟨video, audio, -, haudio, rfl⟩ a ha
    exact ⟨a, [], (haudio a ha).1, .nil a⟩
  · intro w event w' _ hw hstep
    have hstops : ∀ a ∈ w.stopped.audio, ∃ s events, s.Spawned ∧
        (AudioLoop.audio encodeFloat).Run s events a := by
      intro a ha
      obtain ⟨b, hb, rfl⟩ := Option.map_eq_some_iff.mp ha
      obtain ⟨s, events, hs, hrun⟩ := hw b hb
      have hact : b.act encodeFloat .stop = some { b with stop := true } := rfl
      exact ⟨s, _, hs, .snoc hrun hact⟩
    cases hstep with
    | forceKeyframe | video | videoSend | videoClosed | recv | recvNone => exact hw
    | stop | drop => exact hstops
    | audio haudio _ hact | audioSend _ _ haudio _ hact | audioClosed _ haudio hact =>
        rintro _ ⟨⟩
        obtain ⟨s, events, hs, hrun⟩ := hw _ haudio
        exact ⟨s, _, hs, .snoc hrun hact⟩

theorem video_sorted {s : Stream} (h : VideoLoop.video.Reachable s) :
    s.sent.Pairwise (fun a b => a.now ≤ b.now) := by
  refine h.invariant (I := fun s => s.sent.Pairwise fun a b => a.now ≤ b.now) ?_ ?_
  · rintro _ ⟨frameInterval, startedAt, backend, now, -, rfl⟩
    exact .nil
  · intro s event t hs hsorted hstep
    obtain ⟨-, hclock, ⟨hsent, -⟩ | ⟨now, pkt, rest, -, -, hnow, hsent⟩⟩ :=
      VideoLoop.moves_sent (VideoLoop.moves_of_act hstep)
    · rw [hsent]
      exact hsorted
    · rw [hsent]
      refine List.pairwise_append.mpr ⟨hsorted, List.pairwise_singleton _ _, ?_⟩
      intro entry hentry last hlast
      obtain rfl := List.mem_singleton.mp hlast
      exact ((VideoLoop.stamped hs entry hentry).2.trans hclock).trans hnow.le

theorem headerPts_buildAudioFrame (payload : Bytes) (ptsUs : UInt64) :
    headerPts (buildAudioFrame payload ptsUs) = ptsUs.toNat := by
  have hlength : (leBytes 8 ptsUs.toNat).length = 8 := leBytes_length 8 _
  have hbound : ptsUs.toNat < 256 ^ 8 := ptsUs.toNat_lt
  simp only [headerPts, buildAudioFrame, List.cons_append, List.nil_append, List.drop_succ_cons,
    List.drop_zero]
  rw [List.take_left' hlength, ofLeBytes_leBytes, Nat.mod_eq_of_lt hbound]

theorem videoFrames_sorted {w : Workers σ} (h : (workers encodeFloat).Reachable w) :
    (w.videoFrames.map headerPts).Pairwise (· ≤ ·) := by
  have hvideo := video_reachable h
  have hstamped := VideoLoop.stamped hvideo
  have heq : w.videoFrames.map headerPts =
      w.video.sent.map fun entry => w.video.elapsedUs entry.now := by
    rw [videoFrames, List.map_map]
    exact List.map_congr_left fun entry hentry => (hstamped entry hentry).1
  rw [heq, List.pairwise_map]
  exact (video_sorted hvideo).imp (VideoLoop.elapsedUs_mono w.video)

theorem audioFrames_sorted {w : Workers σ} (h : (workers encodeFloat).Reachable w) :
    (w.audioFrames.map headerPts).Pairwise (· ≤ ·) := by
  unfold audioFrames
  rcases haudio : w.audio with _ | a
  · exact .nil
  obtain ⟨s, events, hs, hrun⟩ := audio_run h a haudio
  have hsorted := (AudioLoop.kept hs hrun).sorted.sublist
    (List.prefix_append a.sent a.place.inFlight).sublist
  have heq : (sound a).map headerPts = a.sent.map fun entry => (a.ptsUs entry.now).toNat := by
    rw [sound, List.map_map]
    exact List.map_congr_left fun entry _ => headerPts_buildAudioFrame _ _
  rw [Option.elim_some, heq, List.pairwise_map]
  exact hsorted.imp (AudioLoop.ptsUs_mono a)

/-! ### Results -/

/-- The connection receives the frames of each thread whole, once and in the order in which the
thread has sent them, with timestamps that do not go back, and nothing else; no more than 32 frames
wait. When `recv` gives `None` both threads are over and everything that they sent was received. -/
theorem stream_delivered {w : Workers σ} (h : (workers encodeFloat).Reachable w) :
    (∀ frame ∈ w.received, isVideo frame = true ∨ isAudio frame = true) ∧
      (w.received.filter isVideo <+: w.videoFrames ∧
        ((w.received.filter isVideo).map headerPts).Pairwise (· ≤ ·)) ∧
      (w.received.filter isAudio <+: w.audioFrames ∧
        ((w.received.filter isAudio).map headerPts).Pairwise (· ≤ ·)) ∧
      w.queue.length ≤ 32 ∧
      (w.ended = true → w.Over ∧ w.received.filter isVideo = w.videoFrames ∧
        w.received.filter isAudio = w.audioFrames) := by
  obtain ⟨lost, hinv⟩ := reachable_inv h
  obtain ⟨hvideo, hsound, hkinds⟩ := hinv.carried
  rw [List.append_assoc, List.filter_append] at hvideo hsound
  have hvideoPrefix : w.received.filter isVideo <+: w.videoFrames := hvideo ▸ List.prefix_append _ _
  have hsoundPrefix : w.received.filter isAudio <+: w.audioFrames := hsound ▸ List.prefix_append _ _
  refine ⟨?_, ⟨hvideoPrefix, ?_⟩, ⟨hsoundPrefix, ?_⟩, hinv.room, ?_⟩
  · intro frame hframe
    exact hkinds frame (List.mem_append_left _ (List.mem_append_left _ hframe))
  · exact (videoFrames_sorted h).sublist (hvideoPrefix.map _).sublist
  · exact (audioFrames_sorted h).sublist (hsoundPrefix.map _).sublist
  · intro hended
    obtain ⟨hqueue, hover⟩ := hinv.finished hended
    rw [hqueue, hinv.lost (.inr hended), List.append_nil, List.filter_nil, List.append_nil]
      at hvideo hsound
    exact ⟨hover, hvideo, hsound⟩

/-! ### The end of a stream -/

theorem video_goes_on (s : Stream) :
    s.place = .returned ∨ (∃ event t, videoOwn event = true ∧ s.act event = some t) ∨
      ∃ pkt rest, s.packets = pkt :: rest ∧
        ∀ delivered, ∃ t, s.act (.send s.clock delivered) = some t := by
  rcases hplace : s.place with _ | now | now | now | _ | _
  · exact .inr (.inl ⟨.gate s.clock, _, rfl, if_pos ⟨hplace, le_rfl⟩⟩)
  · refine .inr (.inl ⟨.swap, s.swap now, rfl, ?_⟩)
    simp only [Stream.act, hplace]
  · refine .inr (.inl ⟨.capture .timeout, s.idle, rfl, ?_⟩)
    simp only [Stream.act, hplace]
    rfl
  · refine .inr (.inl ⟨.pace s.clock, s.pace now s.clock, rfl, ?_⟩)
    simp only [Stream.act, hplace, if_pos le_rfl]
  · rcases hpackets : s.packets with _ | ⟨pkt, rest⟩
    · exact .inr (.inl ⟨.again, _, rfl, if_pos ⟨hplace, hpackets⟩⟩)
    · refine .inr (.inr ⟨pkt, rest, rfl, ?_⟩)
      intro delivered
      have hact : s.act (.send s.clock delivered) = s.send s.clock delivered :=
        if_pos ⟨hplace, le_rfl⟩
      rw [hact, Stream.send, hpackets]
      cases delivered with
      | true => exact ⟨_, rfl⟩
      | false => exact ⟨_, rfl⟩
  · exact .inl rfl

theorem audio_goes_on (encodeFloat : σ → List Sample → Option (Bytes × σ)) (a : Audio σ) :
    a.place = .returned ∨ (∃ event b, audioOwn event = true ∧ a.act encodeFloat event = some b) ∨
      ∃ packet now, a.place = .sending packet now ∧
        ∀ delivered, ∃ b, a.act encodeFloat (.send delivered) = some b := by
  rcases hplace : a.place with _ | _ | _ | _ | ⟨packet, now⟩ | _
  · exact .inr (.inl ⟨.start, _, rfl, if_pos hplace⟩)
  · exact .inr (.inl ⟨.check, _, rfl, if_pos hplace⟩)
  · exact .inr (.inl ⟨.read [.noPacket], _, rfl, if_pos hplace⟩)
  · rcases Nat.lt_or_ge a.pending.length a.frameTotal with hless | hfull
    · exact .inr (.inl ⟨.sleep, _, rfl, if_pos ⟨hplace, hless⟩⟩)
    · have hact : a.act encodeFloat (.encode a.clock) = a.encode encodeFloat a.clock :=
        if_pos ⟨hplace, hfull⟩
      have hencode : ∃ b, a.encode encodeFloat a.clock = some b := by
        unfold Audio.encode
        dsimp only
        split
        · exact ⟨_, rfl⟩
        · exact ⟨_, if_pos le_rfl⟩
      obtain ⟨b, hb⟩ := hencode
      exact .inr (.inl ⟨.encode a.clock, b, rfl, hact.trans hb⟩)
  · refine .inr (.inr ⟨packet, now, rfl, ?_⟩)
    intro delivered
    refine ⟨a.send packet now delivered, ?_⟩
    simp only [Audio.act, hplace]
  · exact .inl rfl

/-- No thread is stuck: one that has not returned can go on unless it has a frame for a channel
that is full, whose receiver is there. -/
theorem threads_go_on (encodeFloat : σ → List Sample → Option (Bytes × σ)) (w : Workers σ) :
    (w.video.place = .returned ∨ (∃ event u, Step encodeFloat w (.video event) u) ∨
        w.dropped = false ∧ capacity ≤ w.queue.length) ∧
      ∀ a ∈ w.audio, a.place = .returned ∨ (∃ event u, Step encodeFloat w (.audio event) u) ∨
        w.dropped = false ∧ capacity ≤ w.queue.length := by
  constructor
  · rcases video_goes_on w.video with hover | ⟨event, t, hown, hact⟩ | ⟨pkt, rest, hpackets, hsend⟩
    · exact .inl hover
    · exact .inr (.inl ⟨event, _, .video hown hact⟩)
    · cases hdropped : w.dropped with
      | true =>
          obtain ⟨t, ht⟩ := hsend false
          exact .inr (.inl ⟨_, _, .videoClosed hdropped ht⟩)
      | false =>
          rcases Nat.lt_or_ge w.queue.length capacity with hroom | hfull
          · obtain ⟨t, ht⟩ := hsend true
            exact .inr (.inl ⟨_, _, .videoSend hdropped hroom hpackets ht⟩)
          · exact .inr (.inr ⟨rfl, hfull⟩)
  · intro a ha
    rcases audio_goes_on encodeFloat a with
      hover | ⟨event, t, hown, hact⟩ | ⟨packet, now, hplace, hsend⟩
    · exact .inl hover
    · exact .inr (.inl ⟨event, _, .audio ha hown hact⟩)
    · cases hdropped : w.dropped with
      | true =>
          obtain ⟨t, ht⟩ := hsend false
          exact .inr (.inl ⟨_, _, .audioClosed hdropped ha ht⟩)
      | false =>
          rcases Nat.lt_or_ge w.queue.length capacity with hroom | hfull
          · obtain ⟨t, ht⟩ := hsend true
            exact .inr (.inl ⟨_, _, .audioSend hdropped hroom ha hplace ht⟩)
          · exact .inr (.inr ⟨rfl, hfull⟩)

/-- How many steps the threads are from their ends. -/
def Workers.rank (w : Workers σ) : Nat :=
  videoRank w.video.place + w.audio.elim 0 fun a => audioRank a.place

theorem rank_le (w : Workers σ) : w.rank ≤ 8 := by
  have hvideo : videoRank w.video.place ≤ 5 := by
    cases w.video.place <;> simp [videoRank]
  have haudio : (w.audio.elim 0 fun a => audioRank a.place) ≤ 3 := by
    rcases w.audio with _ | a
    · exact Nat.zero_le 3
    · show audioRank a.place ≤ 3
      cases a.place <;> simp [audioRank]
  exact Nat.add_le_add hvideo haudio

/-- Once the handle is gone the threads go to their ends and send nothing. -/
structure Winds (w t : Workers σ) : Prop where
  dropped : t.dropped = true
  received : t.received = w.received
  video : t.videoFrames = w.videoFrames
  sound : t.audioFrames = w.audioFrames

theorem step_winds {w t : Workers σ} {event : Event} {lost : List Bytes} (hinv : w.Inv lost)
    (hdropped : w.dropped = true) (h : Step encodeFloat w event t) :
    Winds w t ∧ t.rank < w.rank := by
  obtain ⟨-, hvideoStop, haudioStop⟩ := hinv.closed hdropped
  cases h with
  | forceKeyframe hopen | stop hopen | drop hopen | videoSend hopen | audioSend hopen
  | recv hopen | recvNone hopen =>
      rw [hdropped] at hopen
      contradiction
  | video hown hact =>
      obtain ⟨hsent, -, -, hless⟩ := video_own hown hact
      exact ⟨⟨hdropped, rfl, congrArg (List.map VideoLoop.Sent.frame) hsent, rfl⟩,
        Nat.add_lt_add_right (hless hvideoStop) _⟩
  | videoClosed _ hact =>
      obtain ⟨hplace, hplace', -, hsent⟩ := video_closed hact
      refine ⟨⟨hdropped, rfl, congrArg (List.map VideoLoop.Sent.frame) hsent, rfl⟩,
        Nat.add_lt_add_right ?_ _⟩
      rw [hplace, hplace']
      exact (show 0 < 2 by decide)
  | audio haudio hown hact =>
      have hless := (audio_own hown hact).2.2.2.2 (haudioStop _ haudio)
      refine ⟨⟨hdropped, rfl, rfl, ?_⟩, Nat.add_lt_add_left ?_ _⟩
      · rw [audioFrames, audioFrames, haudio]
        exact sound_own hown hact
      · rw [haudio]
        exact hless
  | audioClosed _ haudio hact =>
      obtain ⟨⟨packet, now, hplace⟩, hplace', -, hsent⟩ := audio_closed hact
      refine ⟨⟨hdropped, rfl, rfl, ?_⟩, Nat.add_lt_add_left ?_ _⟩
      · rw [audioFrames, audioFrames, haudio]
        exact hsent
      · rw [haudio, Option.elim_some, Option.elim_some, hplace, hplace']
        exact (show 0 < 1 by decide)

/-- A stream whose handle is dropped winds down: nothing more is received or sent, and after at
most eight steps, however the two threads take them, both have returned. -/
theorem stream_ends {w t : Workers σ} {events : List Event}
    (hw : (workers encodeFloat).Reachable w) (hdropped : w.dropped = true)
    (h : (workers encodeFloat).Run w events t) :
    (t.received = w.received ∧ t.videoFrames = w.videoFrames ∧ t.audioFrames = w.audioFrames) ∧
      events.length ≤ 8 ∧ (t.Over ∨ ∃ event u, Step encodeFloat t event u) := by
  have hwinds : Winds w t ∧ events.length + t.rank ≤ w.rank := by
    refine h.invariant (I := fun events t => Winds w t ∧ events.length + t.rank ≤ w.rank) ?_ ?_
    · exact ⟨⟨hdropped, rfl, rfl, rfl⟩, (Nat.zero_add _).le⟩
    · intro labels u event v hrun ⟨hu, hrank⟩ hstep
      obtain ⟨lost, hinv⟩ := reachable_inv (hw.run hrun)
      obtain ⟨hv, hless⟩ := step_winds hinv hu.dropped hstep
      refine ⟨⟨hv.dropped, hv.received.trans hu.received, hv.video.trans hu.video,
        hv.sound.trans hu.sound⟩, ?_⟩
      rw [List.length_append, List.length_singleton]
      omega
  obtain ⟨⟨hgone, hreceived, hvideo, hsound⟩, hrank⟩ := hwinds
  refine ⟨⟨hreceived, hvideo, hsound⟩, ?_, ?_⟩
  · have hle := rank_le w
    omega
  · obtain ⟨hvideoOn, haudioOn⟩ := threads_go_on encodeFloat t
    by_cases hstuck : ∃ event u, Step encodeFloat t event u
    · exact .inr hstuck
    · refine .inl ⟨?_, ?_⟩
      · rcases hvideoOn with hover | ⟨event, u, hstep⟩ | ⟨hopen, -⟩
        · exact hover
        · exact absurd ⟨_, u, hstep⟩ hstuck
        · rw [hgone] at hopen
          contradiction
      · intro a ha
        rcases haudioOn a ha with hover | ⟨event, u, hstep⟩ | ⟨hopen, -⟩
        · exact hover
        · exact absurd ⟨_, u, hstep⟩ hstuck
        · rw [hgone] at hopen
          contradiction

end Inv

/-! ### A stream of one frame -/

/-- Both threads have been started. -/
def begun : Workers Nat :=
  { video := VideoLoop.opened, audio := some AudioLoop.spawned }

theorem begun_reachable : (workers AudioLoop.numbering).Reachable begun := by
  refine .init ⟨VideoLoop.opened, some AudioLoop.spawned, VideoLoop.opened_started, ?_, rfl⟩
  rintro _ ⟨⟩
  exact ⟨⟨⟨48000, 2⟩, 0, 1, 0, Nat.le_refl 0, rfl⟩, rfl⟩

theorem exists_first : ∃ w, (workers AudioLoop.numbering).Reachable w ∧ w.dropped = false ∧
    w.received = [buildVideoFrame [] 0 true true] ∧ w.video.place = .sending ∧
    w.video.packets = [] := by
  have hgated := begun_reachable.step (@Step.video _ _ _ (.gate 0) _ rfl rfl)
  have hswapped := hgated.step (@Step.video _ _ _ .swap _ rfl rfl)
  have hcaptured := hswapped.step
    (@Step.video _ _ _ (.capture (.encoded 1 [VideoLoop.packet 0 true])) _ rfl rfl)
  have hpaced := hcaptured.step (@Step.video _ _ _ (.pace 0) _ rfl rfl)
  have hsent := hpaced.step (@Step.videoSend _ _ _ 0 _ _ _ rfl (by decide) rfl rfl)
  have hreceived := hsent.step (.recv rfl rfl)
  exact ⟨_, hreceived, rfl, rfl, rfl, rfl⟩

theorem stream_delivered_first : ∃ w : Workers Nat,
    w.received = [buildVideoFrame [] 0 true true] ∧
      w.received.filter isVideo <+: w.videoFrames := by
  obtain ⟨w, hw, -, hreceived, -⟩ := exists_first
  exact ⟨w, hreceived, (stream_delivered hw).2.1.1⟩

/-- The handle is dropped, and the video thread goes back to the head of its loop. -/
theorem stream_ends_first : ∃ w t : Workers Nat, w.dropped = true ∧ w.video.place = .sending ∧
    t.video.place = .top ∧ t.received = w.received := by
  obtain ⟨w, hw, hopen, -, hplace, hpackets⟩ := exists_first
  let gone : Workers Nat := { w.stopped with dropped := true, queue := [] }
  have hgone : (workers AudioLoop.numbering).Reachable gone := hw.step (.drop hopen)
  have hagain : gone.video.act .again = some { gone.video with place := .top } :=
    if_pos ⟨hplace, hpackets⟩
  have hrun := Run.single (M := workers AudioLoop.numbering) (.video rfl hagain)
  exact ⟨gone, _, rfl, hplace, rfl, (stream_ends hgone rfl hrun).1.1⟩

end RemoteControl.Server.StreamWorkers
