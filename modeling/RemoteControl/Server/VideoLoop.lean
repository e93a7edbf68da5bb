import RemoteControl.Foundations.Histories
import RemoteControl.Foundations.Spacing
import RemoteControl.Foundations.Transition
import RemoteControl.Wire.Protocol

/-!
The video thread of a stream (`run_video_loop` of `server-pc/src/stream.rs`) with the part of its
encoders that decides about keyframes. Durations and clock readings are in nanoseconds.
-/

namespace RemoteControl.Server.VideoLoop

open RemoteControl.Foundations.ByteStrings
open RemoteControl.Foundations.Histories
open RemoteControl.Foundations.Spacing
open RemoteControl.Foundations.Transition
open RemoteControl.Foundations.Transition.System
open RemoteControl.Wire.Protocol

/-! ### The encoders -/

inductive Backend where
  | nvencSdk
  | nvencMft
  | mediaFoundation
deriving DecidableEq

/-- What is submitted for one frame: the flags of an `NV_ENC_PIC_PARAMS`, or a sample with its
`MFSampleExtension_CleanPoint`. -/
inductive Picture where
  | pic (forceIdr outputSpsPps : Bool)
  | sample (cleanPoint : Bool)
deriving DecidableEq

/-- The picture carries the mark that makes it a keyframe. -/
def Picture.forced : Picture → Bool
  | .pic forceIdr _ => forceIdr
  | .sample cleanPoint => cleanPoint

/-- `pending` is `pending_idr` of the SDK encoder and `pending_keyframe` of the others. Not kept
by the code: what NVENC or the transform was given so far. -/
structure Encoder where
  backend : Backend
  pending : Bool := true
  pendingInputs : List Picture := []
  processed : List Picture := []
deriving DecidableEq

namespace Encoder

def forceKeyframe (e : Encoder) : Encoder :=
  { e with pending := true }

/-- The picture that is made of the next frame. -/
def picture (e : Encoder) : Picture :=
  match e.backend with
  | .nvencSdk => .pic e.pending e.pending
  | .nvencMft | .mediaFoundation => .sample e.pending

/-- The frame is encoded as far as `ProcessInput` or `nvEncEncodePicture`. The hardware transform
takes `inputs` samples from `pending_inputs`. -/
def submit (e : Encoder) (inputs : Nat) : Encoder :=
  match e.backend with
  | .nvencMft =>
      let pending := e.pendingInputs ++ [e.picture]
      { e with
        pending := false, pendingInputs := pending.drop inputs
        processed := e.processed ++ pending.take inputs }
  | .nvencSdk | .mediaFoundation =>
      { e with pending := false, processed := e.processed ++ [e.picture] }

end Encoder

structure EncodedPacket where
  data : Bytes
  pts : Nat
  isKeyframe : Bool
  hasConfig : Bool
deriving DecidableEq

/-- What comes of `next_frame` and `encode`, or of `capture_and_encode`: no frame within 100 ms;
an error before the picture is submitted, or after; packets; or, from the SDK only, a picture
that it wants more input for. -/
inductive Capture where
  | timeout
  | refused
  | failed (inputs : Nat)
  | deferred
  | encoded (inputs : Nat) (packets : List EncodedPacket)

/-! ### The thread -/

/-- Where `run_video_loop` is: before the gate; past the gate or past the flag swap with the
reading that passed it; before `next_due` moves on; at the packets; or returned. -/
inductive Place where
  | top
  | gated (now : Nat)
  | swapped (now : Nat)
  | captured (now : Nat)
  | sending
  | returned
deriving DecidableEq

/-- What the history of a stream records. -/
inductive Entry where
  | request
  | swap
  | strike
  | submitted (picture : Picture)
deriving DecidableEq

/-- A packet that was sent, the reading it was stamped with, and its frame. -/
structure Sent where
  packet : EncodedPacket
  now : Nat
  frame : Bytes
deriving DecidableEq

/-- A stream of the PC. `clock` is the last reading. Not kept by the code: the history, the
readings that let a capture through which succeeded, and what was sent. -/
structure Stream where
  frameInterval : Nat
  startedAt : Nat
  encoder : Encoder
  nextDue : Nat
  clock : Nat
  place : Place := .top
  forceKf : Bool := false
  stop : Bool := false
  idleStrikes : Nat := 0
  packets : List EncodedPacket := []
  history : List Entry := []
  passed : List Nat := []
  sent : List Sent := []
deriving DecidableEq

inductive Event where
  | forceKeyframe
  | stop
  | gate (now : Nat)
  | swap
  | capture (outcome : Capture)
  | pace (now : Nat)
  | send (now : Nat) (delivered : Bool)
  | again

def earlyMargin : Nat := 2000000

namespace Stream

/-- `StreamHandle::force_keyframe`. -/
def forceKeyframe (s : Stream) : Stream :=
  { s with forceKf := true, history := s.history ++ [.request] }

/-- The head of the loop; the thread sleeps and comes back when it is too early. -/
def gate (s : Stream) (now : Nat) : Stream :=
  if s.stop then { s with place := .returned }
  else if now + earlyMargin < s.nextDue then { s with clock := now }
  else { s with clock := now, place := .gated now }

def swap (s : Stream) (now : Nat) : Stream :=
  { s with
    forceKf := false
    encoder := if s.forceKf then s.encoder.forceKeyframe else s.encoder
    packets := [], place := .swapped now, history := s.history ++ [.swap] }

/-- Nothing was captured; every thirtieth time a keyframe is asked for. -/
def idle (s : Stream) : Stream :=
  if 30 ≤ s.idleStrikes + 1 then
    { s with
      idleStrikes := 0, encoder := s.encoder.forceKeyframe, place := .top
      history := s.history ++ [.strike] }
  else { s with idleStrikes := s.idleStrikes + 1, place := .top }

def submit (s : Stream) (inputs : Nat) : Stream :=
  { s with
    encoder := s.encoder.submit inputs
    history := s.history ++ [.submitted s.encoder.picture] }

def capture (s : Stream) (now : Nat) : Capture → Option Stream
  | .timeout => some s.idle
  | .refused => some { s with place := .returned }
  | .failed inputs => some { s.submit inputs with place := .returned }
  | .deferred => if s.encoder.backend = .nvencSdk then some (s.submit 0).idle else none
  | .encoded inputs packets =>
      if s.encoder.backend = .nvencSdk ∧ packets.length ≠ 1 then none
      else some { s.submit inputs with idleStrikes := 0, packets, place := .captured now }

/-- `next_due` after a capture that let `passed` through the gate. -/
def pace (s : Stream) (passed now : Nat) : Stream :=
  { s with
    nextDue := max (s.nextDue + s.frameInterval) now, clock := now, place := .sending
    passed := s.passed ++ [passed] }

/-- `started_at.elapsed()` in microseconds, cut off at `u64::MAX`. -/
def ptsUs (s : Stream) (now : Nat) : UInt64 :=
  UInt64.ofNat (min ((now - s.startedAt) / 1000) (UInt64.size - 1))

/-- The first packet is stamped; a channel that is closed ends the thread. -/
def send (s : Stream) (now : Nat) (delivered : Bool) : Option Stream :=
  match s.packets with
  | [] => none
  | pkt :: rest =>
      let frame := buildVideoFrame pkt.data (s.ptsUs now) pkt.isKeyframe pkt.hasConfig
      if delivered then
        some { s with clock := now, packets := rest, sent := s.sent ++ [⟨pkt, now, frame⟩] }
      else some { s with clock := now, packets := rest, place := .returned }

def act (s : Stream) : Event → Option Stream
  | .forceKeyframe => some s.forceKeyframe
  | .stop => some { s with stop := true }
  | .gate now => if s.place = .top ∧ s.clock ≤ now then some (s.gate now) else none
  | .swap =>
      match s.place with
      | .gated now => some (s.swap now)
      | _ => none
  | .capture outcome =>
      match s.place with
      | .swapped now => s.capture now outcome
      | _ => none
  | .pace now =>
      match s.place with
      | .captured passed => if s.clock ≤ now then some (s.pace passed now) else none
      | _ => none
  | .send now delivered =>
      if s.place = .sending ∧ s.clock ≤ now then s.send now delivered else none
  | .again => if s.place = .sending ∧ s.packets = [] then some { s with place := .top } else none

end Stream

/-- A stream when its video thread starts. -/
def Stream.Started (s : Stream) : Prop :=
  ∃ frameInterval startedAt backend now, startedAt ≤ now ∧
    s = { frameInterval, startedAt, encoder := { backend }, nextDue := now, clock := now }

def video : System Stream Event where
  init := Stream.Started
  step s event t := s.act event = some t

/-! ### What a step does -/

theorem capture_cases {s t : Stream} {now : Nat} {outcome : Capture}
    (h : s.capture now outcome = some t) :
    t = s.idle ∨ t = { s with place := .returned } ∨
      (∃ inputs, t = { s.submit inputs with place := .returned }) ∨ t = (s.submit 0).idle ∨
      ∃ inputs packets, t = { s.submit inputs with
        idleStrikes := 0, packets, place := .captured now } := by
  cases outcome with
  | timeout => exact .inl (Option.some.inj h).symm
  | refused => exact .inr (.inl (Option.some.inj h).symm)
  | failed inputs => exact .inr (.inr (.inl ⟨inputs, (Option.some.inj h).symm⟩))
  | deferred =>
      obtain ⟨-, hsome⟩ := Option.ite_none_right_eq_some.mp h
      exact .inr (.inr (.inr (.inl (Option.some.inj hsome).symm)))
  | encoded inputs packets =>
      obtain ⟨-, hsome⟩ := Option.ite_none_left_eq_some.mp h
      exact .inr (.inr (.inr (.inr ⟨inputs, packets, (Option.some.inj hsome).symm⟩)))

/-- What the steps do, with what the loop has checked. -/
inductive Moves (s : Stream) : Event → Stream → Prop
  | forceKeyframe : Moves s .forceKeyframe s.forceKeyframe
  | stop : Moves s .stop { s with stop := true }
  | gate {now : Nat} : s.place = .top → s.clock ≤ now → Moves s (.gate now) (s.gate now)
  | swap {now : Nat} : s.place = .gated now → Moves s .swap (s.swap now)
  | capture {now : Nat} {outcome : Capture} {t : Stream} : s.place = .swapped now →
      s.capture now outcome = some t → Moves s (.capture outcome) t
  | pace {passed now : Nat} : s.place = .captured passed → s.clock ≤ now →
      Moves s (.pace now) (s.pace passed now)
  | send {now : Nat} {pkt : EncodedPacket} {rest : List EncodedPacket} : s.place = .sending →
      s.clock ≤ now → s.packets = pkt :: rest →
      Moves s (.send now true) { s with
        clock := now, packets := rest
        sent := s.sent ++
          [⟨pkt, now, buildVideoFrame pkt.data (s.ptsUs now) pkt.isKeyframe pkt.hasConfig⟩] }
  | closed {now : Nat} {pkt : EncodedPacket} {rest : List EncodedPacket} : s.place = .sending →
      s.clock ≤ now → s.packets = pkt :: rest →
      Moves s (.send now false) { s with clock := now, packets := rest, place := .returned }
  | again : s.place = .sending → s.packets = [] → Moves s .again { s with place := .top }

theorem moves_of_act {s t : Stream} {event : Event} (h : s.act event = some t) :
    Moves s event t := by
  cases event with
  | forceKeyframe =>
      obtain rfl := Option.some.inj h
      exact .forceKeyframe
  | stop =>
      obtain rfl := Option.some.inj h
      exact .stop
  | gate now =>
      obtain ⟨⟨hplace, hclock⟩, hsome⟩ := Option.ite_none_right_eq_some.mp h
      obtain rfl := Option.some.inj hsome
      exact .gate hplace hclock
  | swap =>
      unfold Stream.act at h
      dsimp only at h
      split at h
      next now hplace =>
        obtain rfl := Option.some.inj h
        exact .swap hplace
      next => contradiction
  | capture outcome =>
      unfold Stream.act at h
      dsimp only at h
      split at h
      next now hplace => exact .capture hplace h
      next => contradiction
  | pace now =>
      unfold Stream.act at h
      dsimp only at h
      split at h
      next passed hplace =>
        obtain ⟨hclock, hsome⟩ := Option.ite_none_right_eq_some.mp h
        obtain rfl := Option.some.inj hsome
        exact .pace hplace hclock
      next => contradiction
  | send now delivered =>
      obtain ⟨⟨hplace, hclock⟩, hsend⟩ := Option.ite_none_right_eq_some.mp h
      unfold Stream.send at hsend
      split at hsend
      next => contradiction
      next pkt rest hpackets =>
        cases delivered with
        | true =>
            obtain rfl := Option.some.inj hsend
            exact .send hplace hclock hpackets
        | false =>
            obtain rfl := Option.some.inj hsend
            exact .closed hplace hclock hpackets
  | again =>
      obtain ⟨⟨hplace, hpackets⟩, hsome⟩ := Option.ite_none_right_eq_some.mp h
      obtain rfl := Option.some.inj hsome
      exact .again hplace hpackets

/-! ### Keyframe requests -/

/-- The first picture of the iterations whose flag swap comes after a request. -/
def NoneLost (history : List Entry) : Prop :=
  ∀ before middle rest picture after,
    history = before ++ .request :: (middle ++ .swap :: (rest ++ .submitted picture :: after)) →
    .swap ∉ middle → (∀ earlier, .submitted earlier ∉ rest) → picture.forced = true

/-- After a picture no other one is forced but for a request that its iteration did not swap, or
for the idle strikes. -/
def OneMark (history : List Entry) : Prop :=
  ∀ before since first middle second after,
    history = before ++ .swap :: (since ++ .submitted first ::
      (middle ++ .submitted second :: after)) →
    second.forced = true → .request ∈ since ++ middle ∨ .strike ∈ middle

/-- What the flag of the stream and the one of the encoder become. -/
def Entry.apply : Bool × Bool → Entry → Bool × Bool
  | (_, pending), .request => (true, pending)
  | (forceKf, pending), .swap => (false, pending || forceKf)
  | (forceKf, _), .strike => (forceKf, true)
  | (forceKf, _), .submitted _ => (forceKf, false)

def replay (history : List Entry) : Bool × Bool :=
  history.foldl Entry.apply (false, true)

theorem replay_concat (history : List Entry) (entry : Entry) :
    replay (history ++ [entry]) = Entry.apply (replay history) entry := by
  rw [replay, List.foldl_append]
  rfl

/-- A picture is forced if the encoder's flag is up. -/
def Marked (before : List Entry) : Entry → Prop
  | .submitted picture => picture.forced = (replay before).2
  | _ => True

theorem flag_stays {entries : List Entry} (h : .swap ∉ entries) (pending : Bool) :
    (entries.foldl Entry.apply (true, pending)).1 = true := by
  induction entries generalizing pending with
  | nil => rfl
  | cons entry rest ih =>
      obtain ⟨hentry, hrest⟩ := not_or.mp (mt List.mem_cons.mpr h)
      cases entry with
      | swap => exact absurd rfl hentry
      | request => exact ih hrest pending
      | strike => exact ih hrest true
      | submitted => exact ih hrest false

theorem pending_stays {entries : List Entry} (h : ∀ picture, .submitted picture ∉ entries)
    (forceKf : Bool) : (entries.foldl Entry.apply (forceKf, true)).2 = true := by
  induction entries generalizing forceKf with
  | nil => rfl
  | cons entry rest ih =>
      have hrest : ∀ picture, .submitted picture ∉ rest :=
        fun picture hmem => h picture (List.mem_cons_of_mem _ hmem)
      cases entry with
      | submitted picture => exact absurd List.mem_cons_self (h picture)
      | request => exact ih hrest true
      | swap => exact ih hrest false
      | strike => exact ih hrest forceKf

theorem flag_stays_down {entries : List Entry} (h : .request ∉ entries) (pending : Bool) :
    (entries.foldl Entry.apply (false, pending)).1 = false := by
  induction entries generalizing pending with
  | nil => rfl
  | cons entry rest ih =>
      obtain ⟨hentry, hrest⟩ := not_or.mp (mt List.mem_cons.mpr h)
      cases entry with
      | request => exact absurd rfl hentry
      | swap => exact ih hrest (pending || false)
      | strike => exact ih hrest true
      | submitted => exact ih hrest false

theorem both_stay_down {entries : List Entry} (h : .request ∉ entries) (h' : .strike ∉ entries) :
    entries.foldl Entry.apply (false, false) = (false, false) := by
  induction entries with
  | nil => rfl
  | cons entry rest ih =>
      obtain ⟨hentry, hrest⟩ := not_or.mp (mt List.mem_cons.mpr h)
      obtain ⟨hentry', hrest'⟩ := not_or.mp (mt List.mem_cons.mpr h')
      cases entry with
      | request => exact absurd rfl hentry
      | strike => exact absurd rfl hentry'
      | swap => exact ih hrest hrest'
      | submitted => exact ih hrest hrest'

theorem noneLost_of_marked {history : List Entry} (h : Each Marked history) :
    NoneLost history := by
  rintro before middle rest picture after hsplit hmiddle hrest
  have hmark := h (before ++ .request :: (middle ++ .swap :: rest)) (.submitted picture) after (by
    rw [hsplit]
    simp)
  rw [Marked, replay, List.foldl_append, List.foldl_cons, List.foldl_append, List.foldl_cons]
    at hmark
  have hflag := flag_stays hmiddle (replay before).2
  rw [hmark]
  show (rest.foldl Entry.apply (Entry.apply
    (middle.foldl Entry.apply (true, (replay before).2)) .swap)).2 = true
  rw [Entry.apply, hflag, Bool.or_true]
  exact pending_stays hrest false

theorem oneMark_of_marked {history : List Entry} (h : Each Marked history) :
    OneMark history := by
  rintro before since first middle second after hsplit hforced
  by_contra hquiet
  obtain ⟨hrequest, hstrike⟩ := not_or.mp hquiet
  rw [List.mem_append, not_or] at hrequest
  have hmark := h (before ++ .swap :: (since ++ .submitted first :: middle)) (.submitted second)
    after (by
      rw [hsplit]
      simp)
  rw [Marked, replay, List.foldl_append, List.foldl_cons, List.foldl_append, List.foldl_cons,
    hforced] at hmark
  have hflag := flag_stays_down hrequest.1 ((replay before).2 || (replay before).1)
  have hdown := both_stay_down hrequest.2 hstrike
  have hsince : Entry.apply (since.foldl Entry.apply
      (Entry.apply (replay before) .swap)) (.submitted first) = (false, false) := by
    rw [Entry.apply, Entry.apply, hflag]
  rw [replay] at hsince
  rw [hsince, hdown] at hmark
  exact Bool.noConfusion hmark

/-- The pictures that were submitted. -/
def pictures (history : List Entry) : List Picture :=
  history.filterMap fun entry =>
    match entry with
    | .submitted picture => some picture
    | _ => none

theorem pictures_concat (history : List Entry) (entry : Entry) :
    pictures (history ++ [entry]) = pictures history ++ pictures [entry] :=
  List.filterMap_append

structure Recorded (s : Stream) : Prop where
  flags : replay s.history = (s.forceKf, s.encoder.pending)
  marked : Each Marked s.history
  inOrder : s.encoder.processed ++ s.encoder.pendingInputs = pictures s.history
  unqueued : s.encoder.backend ≠ .nvencMft → s.encoder.pendingInputs = []

theorem Recorded.congr {s t : Stream} (h : Recorded s) (hforceKf : t.forceKf = s.forceKf)
    (hencoder : t.encoder = s.encoder) (hhistory : t.history = s.history) : Recorded t := by
  constructor
  · rw [hhistory, hforceKf, hencoder]
    exact h.flags
  · rw [hhistory]
    exact h.marked
  · rw [hhistory, hencoder]
    exact h.inOrder
  · rw [hencoder]
    exact h.unqueued

theorem started_recorded {s : Stream} (h : s.Started) : Recorded s := by
  obtain ⟨frameInterval, startedAt, backend, now, -, rfl⟩ := h
  constructor
  · rfl
  · exact each_nil Marked
  · rfl
  · intro _
    rfl

theorem Recorded.forceKeyframe {s : Stream} (h : Recorded s) : Recorded s.forceKeyframe := by
  constructor
  · show replay (s.history ++ [.request]) = (true, s.encoder.pending)
    rw [replay_concat, h.flags, Entry.apply]
  · exact each_concat_iff.mpr ⟨h.marked, trivial⟩
  · show _ = pictures (s.history ++ [.request])
    rw [pictures_concat, ← h.inOrder]
    exact (List.append_nil _).symm
  · exact h.unqueued

theorem Recorded.swap {s : Stream} (h : Recorded s) (now : Nat) : Recorded (s.swap now) := by
  constructor
  · show replay (s.history ++ [.swap]) = _
    rw [replay_concat, h.flags, Entry.apply, Stream.swap]
    cases s.forceKf with
    | true => rw [Bool.or_true, if_pos rfl, Encoder.forceKeyframe]
    | false => rw [Bool.or_false, if_neg Bool.false_ne_true]
  · exact each_concat_iff.mpr ⟨h.marked, trivial⟩
  · show _ = pictures (s.history ++ [.swap])
    rw [pictures_concat, ← h.inOrder, Stream.swap]
    cases s.forceKf with
    | true => exact (List.append_nil _).symm
    | false => exact (List.append_nil _).symm
  · rw [Stream.swap]
    cases s.forceKf with
    | true => exact h.unqueued
    | false => exact h.unqueued

theorem Recorded.idle {s : Stream} (h : Recorded s) : Recorded s.idle := by
  unfold Stream.idle
  split
  · constructor
    · show replay (s.history ++ [.strike]) = (s.forceKf, true)
      rw [replay_concat, h.flags, Entry.apply]
    · exact each_concat_iff.mpr ⟨h.marked, trivial⟩
    · show _ = pictures (s.history ++ [.strike])
      rw [pictures_concat, ← h.inOrder]
      exact (List.append_nil _).symm
    · exact h.unqueued
  · exact h.congr rfl rfl rfl

@[simp] theorem forced_picture (e : Encoder) : e.picture.forced = e.pending := by
  unfold Encoder.picture
  split <;> rfl

@[simp] theorem pending_submit (e : Encoder) (inputs : Nat) :
    (e.submit inputs).pending = false := by
  unfold Encoder.submit
  split <;> rfl

theorem inputs_submit (e : Encoder) (inputs : Nat)
    (hempty : e.backend ≠ .nvencMft → e.pendingInputs = []) :
    (e.submit inputs).processed ++ (e.submit inputs).pendingInputs =
      e.processed ++ e.pendingInputs ++ [e.picture] := by
  by_cases hmft : e.backend = .nvencMft
  · simp only [Encoder.submit, hmft]
    rw [List.append_assoc, List.take_append_drop, List.append_assoc]
  · have hnone := hempty hmft
    cases hbackend : e.backend with
    | nvencMft => exact absurd hbackend hmft
    | nvencSdk => simp [Encoder.submit, hbackend, hnone]
    | mediaFoundation => simp [Encoder.submit, hbackend, hnone]

theorem unqueued_submit (e : Encoder) (inputs : Nat)
    (hempty : e.backend ≠ .nvencMft → e.pendingInputs = []) :
    (e.submit inputs).backend ≠ .nvencMft → (e.submit inputs).pendingInputs = [] := by
  cases hbackend : e.backend with
  | nvencMft => simp [Encoder.submit, hbackend]
  | nvencSdk => simp [Encoder.submit, hbackend, hempty]
  | mediaFoundation => simp [Encoder.submit, hbackend, hempty]

theorem Recorded.submit {s : Stream} (h : Recorded s) (inputs : Nat) :
    Recorded (s.submit inputs) := by
  constructor
  · show replay (s.history ++ [.submitted s.encoder.picture]) =
      (s.forceKf, (s.encoder.submit inputs).pending)
    rw [replay_concat, h.flags, Entry.apply, pending_submit]
  · refine each_concat_iff.mpr ⟨h.marked, ?_⟩
    rw [Marked, forced_picture, h.flags]
  · show (s.encoder.submit inputs).processed ++ (s.encoder.submit inputs).pendingInputs =
      pictures (s.history ++ [.submitted s.encoder.picture])
    rw [inputs_submit _ _ h.unqueued, pictures_concat, ← h.inOrder]
    rfl
  · exact unqueued_submit _ _ h.unqueued

theorem capture_recorded {s t : Stream} {now : Nat} {outcome : Capture} (h : Recorded s)
    (hcapture : s.capture now outcome = some t) : Recorded t := by
  rcases capture_cases hcapture with
    rfl | rfl | ⟨inputs, rfl⟩ | rfl | ⟨inputs, packets, rfl⟩
  · exact h.idle
  · exact h.congr rfl rfl rfl
  · exact (h.submit inputs).congr rfl rfl rfl
  · exact (h.submit 0).idle
  · exact (h.submit inputs).congr rfl rfl rfl

theorem gate_recorded {s : Stream} (h : Recorded s) (now : Nat) : Recorded (s.gate now) := by
  unfold Stream.gate
  split
  · exact h.congr rfl rfl rfl
  · split
    · exact h.congr rfl rfl rfl
    · exact h.congr rfl rfl rfl

theorem recorded {s : Stream} (h : video.Reachable s) : Recorded s := by
  refine h.invariant (I := Recorded) (fun _ => started_recorded) ?_
  intro s event t _ hs hstep
  cases moves_of_act hstep with
  | forceKeyframe => exact hs.forceKeyframe
  | stop => exact hs.congr rfl rfl rfl
  | gate => exact gate_recorded hs _
  | swap => exact hs.swap _
  | capture _ hcapture => exact capture_recorded hs hcapture
  | pace => exact hs.congr rfl rfl rfl
  | send => exact hs.congr rfl rfl rfl
  | closed => exact hs.congr rfl rfl rfl
  | again => exact hs.congr rfl rfl rfl

/-- No request is lost, several make one keyframe, and the encoder is given the pictures in the
order in which they were submitted. -/
theorem requests_served {s : Stream} (h : video.Reachable s) :
    NoneLost s.history ∧ OneMark s.history ∧ s.encoder.processed <+: pictures s.history := by
  have hs := recorded h
  refine ⟨noneLost_of_marked hs.marked, oneMark_of_marked hs.marked, ?_⟩
  rw [← hs.inOrder]
  exact List.prefix_append _ _

/-! ### A stream with a B picture -/

/-- The stream of the runs below, at 30 frames a second over the hardware transform. -/
def opened : Stream :=
  { frameInterval := 33333333, startedAt := 0, encoder := { backend := .nvencMft }
    nextDue := 0, clock := 0 }

def packet (pts : Nat) (isKeyframe : Bool) : EncodedPacket :=
  { data := [], pts, isKeyframe, hasConfig := isKeyframe }

/-- One iteration that captures a frame. -/
def iteration (now : Nat) (packets : List EncodedPacket) : List Event :=
  [.gate now, .swap, .capture (.encoded 1 packets), .pace now] ++
    packets.map (fun _ => .send now true) ++ [.again]

/-- Two requests come before the second frame; the B picture of it comes behind the third. -/
def requested : List Event :=
  iteration 0 [packet 0 true] ++ [.forceKeyframe, .forceKeyframe] ++ iteration 33333333 [] ++
    [.gate 66666666, .swap, .capture (.encoded 1 [packet 66666666 false, packet 33333333 false]),
      .pace 66666666, .send 66666666 true]

/-- Before the B picture is sent. -/
def served : Stream :=
  (follow (fun event s => s.act event) requested opened).getD opened

theorem opened_started : opened.Started :=
  ⟨33333333, 0, .nvencMft, 0, Nat.le_refl 0, rfl⟩

theorem requested_run : video.Run opened requested served := by
  have hfollow : follow (fun event s => s.act event) requested opened = some served := by
    decide +kernel
  exact run_of_follow (fun h => h) hfollow

theorem served_reachable : video.Reachable served :=
  (Reachable.init opened_started).run requested_run

theorem requests_served_twice : NoneLost served.history ∧
    OneMark served.history ∧
    served.encoder.processed <+: [.sample true, .sample true, .sample false] := by
  exact requests_served served_reachable

/-! ### Frame pacing -/

/-- The reading that passed the gate, until the capture behind it is over. -/
def Place.passed : Place → Option Nat
  | .gated now | .swapped now | .captured now => some now
  | _ => none

structure Paced (s : Stream) : Prop where
  spaced : Spaced s.frameInterval earlyMargin s.passed
  due : Due s.frameInterval s.passed s.nextDue
  inTime : ∀ now ∈ s.place.passed, s.nextDue ≤ now + earlyMargin ∧ now ≤ s.clock

theorem started_paced {s : Stream} (h : s.Started) : Paced s := by
  obtain ⟨frameInterval, startedAt, backend, now, -, rfl⟩ := h
  constructor
  · exact spaced_nil _ _
  · exact due_nil _ _
  · intro _ hnone
    contradiction

theorem Paced.congr {s t : Stream} (h : Paced s) (hinterval : t.frameInterval = s.frameInterval)
    (hpassed : t.passed = s.passed) (hdue : t.nextDue = s.nextDue)
    (hplace : ∀ now ∈ t.place.passed, t.nextDue ≤ now + earlyMargin ∧ now ≤ t.clock) :
    Paced t := by
  constructor
  · rw [hinterval, hpassed]
    exact h.spaced
  · rw [hinterval, hpassed, hdue]
    exact h.due
  · exact hplace

theorem Paced.over {s t : Stream} (h : Paced s) (hinterval : t.frameInterval = s.frameInterval)
    (hpassed : t.passed = s.passed) (hdue : t.nextDue = s.nextDue)
    (hplace : t.place.passed = none) : Paced t := by
  refine h.congr hinterval hpassed hdue ?_
  intro now hnow
  rw [hplace] at hnow
  contradiction

theorem gate_paced {s : Stream} (h : Paced s) {now : Nat} (htop : s.place = .top) :
    Paced (s.gate now) := by
  unfold Stream.gate
  split
  · exact h.over rfl rfl rfl rfl
  · split
    · refine h.over rfl rfl rfl ?_
      show s.place.passed = none
      rw [htop]
      rfl
    · refine h.congr rfl rfl rfl ?_
      rintro _ ⟨⟩
      dsimp only
      omega

theorem idle_paced {s : Stream} (h : Paced s) : Paced s.idle := by
  unfold Stream.idle
  split
  · exact h.over rfl rfl rfl rfl
  · exact h.over rfl rfl rfl rfl

theorem submit_paced {s : Stream} (h : Paced s) (inputs : Nat) : Paced (s.submit inputs) :=
  h.congr rfl rfl rfl h.inTime

theorem capture_paced {s t : Stream} {now : Nat} {outcome : Capture} (h : Paced s)
    (hplace : s.place = .swapped now) (hcapture : s.capture now outcome = some t) : Paced t := by
  rcases capture_cases hcapture with
    rfl | rfl | ⟨inputs, rfl⟩ | rfl | ⟨inputs, packets, rfl⟩
  · exact idle_paced h
  · exact h.over rfl rfl rfl rfl
  · exact h.over rfl rfl rfl rfl
  · exact idle_paced (submit_paced h 0)
  · refine h.congr rfl rfl rfl ?_
    have hnow := h.inTime
    rw [hplace] at hnow
    exact hnow

theorem pace_paced {s : Stream} (h : Paced s) {passed now : Nat}
    (hplace : s.place = .captured passed) (hclock : s.clock ≤ now) :
    Paced (s.pace passed now) := by
  have hpassed := h.inTime passed
  rw [hplace] at hpassed
  obtain ⟨hearly, hlate⟩ := hpassed rfl
  constructor
  · exact h.spaced.concat h.due hearly
  · apply h.due.concat
    · exact le_max_of_le_right (hlate.trans hclock)
    · exact le_max_left _ _
  · intro _ hnone
    contradiction

theorem paced {s : Stream} (h : video.Reachable s) : Paced s := by
  refine h.invariant (I := Paced) (fun _ => started_paced) ?_
  intro s event t _ hs hstep
  cases moves_of_act hstep with
  | forceKeyframe => exact hs.congr rfl rfl rfl hs.inTime
  | stop => exact hs.congr rfl rfl rfl hs.inTime
  | gate hplace => exact gate_paced hs hplace
  | swap hplace =>
      refine hs.congr rfl rfl rfl ?_
      have hnow := hs.inTime
      rw [hplace] at hnow
      exact hnow
  | capture hplace hcapture => exact capture_paced hs hplace hcapture
  | pace hplace hclock => exact pace_paced hs hplace hclock
  | send hplace =>
      refine hs.over rfl rfl rfl ?_
      show s.place.passed = none
      rw [hplace]
      rfl
  | closed => exact hs.over rfl rfl rfl rfl
  | again => exact hs.over rfl rfl rfl rfl

/-- The captures that pass the gate are an interval apart, but for the first one after a stall
and the early margin, and so is what a window of any length holds of them. -/
theorem pace_kept {s : Stream} (h : video.Reachable s) (hinterval : 0 < s.frameInterval) :
    (∀ k n t u, 1 ≤ n → s.passed[k]? = some t → s.passed[k + n]? = some u →
      t + (n - 1) * s.frameInterval ≤ u + earlyMargin) ∧
    ∀ start length,
      s.passed.countP (fun t => decide (start ≤ t ∧ t ≤ start + length)) ≤
        (length + earlyMargin) / s.frameInterval + 2 :=
  ⟨(paced h).spaced, (paced h).spaced.countP_le hinterval⟩

theorem pace_kept_served :
    served.passed.countP (fun t => decide (0 ≤ t ∧ t ≤ 0 + 66666666)) ≤
      (66666666 + earlyMargin) / 33333333 + 2 :=
  (pace_kept served_reachable (by decide)).2 0 66666666

/-! ### Wire timestamps -/

/-- `pts_us` in the header of a frame. -/
def headerPts (frame : Bytes) : Nat :=
  ofLeBytes ((frame.drop 4).take 8)

theorem headerPts_buildVideoFrame (payload : Bytes) (ptsUs : UInt64)
    (keyframe hasConfig : Bool) :
    headerPts (buildVideoFrame payload ptsUs keyframe hasConfig) = ptsUs.toNat := by
  have hlength : (leBytes 8 ptsUs.toNat).length = 8 := leBytes_length 8 _
  have hbound : ptsUs.toNat < 256 ^ 8 := ptsUs.toNat_lt
  simp only [headerPts, buildVideoFrame, List.cons_append, List.nil_append, List.drop_succ_cons,
    List.drop_zero]
  rw [List.take_left' hlength, ofLeBytes_leBytes, Nat.mod_eq_of_lt hbound]

/-- The order of the wire timestamps is the order of presentation. -/
def WireOrdered (sent : List Sent) : Prop :=
  ∀ a ∈ sent, ∀ b ∈ sent, a.packet.pts < b.packet.pts → headerPts a.frame < headerPts b.frame

/-- The reading in microseconds since the stream started, cut off at `u64::MAX`. -/
def Stream.elapsedUs (s : Stream) (now : Nat) : Nat :=
  min ((now - s.startedAt) / 1000) (UInt64.size - 1)

/-- The packet that is sent is presented no earlier than those before it, and later than one of
them only if a microsecond has begun since that one was stamped. -/
def InOrder (s : Stream) : Event → Stream → Prop
  | .send now true, _ => ∀ pkt ∈ s.packets.head?, ∀ earlier ∈ s.sent,
      earlier.packet.pts ≤ pkt.pts ∧
        (earlier.packet.pts < pkt.pts → s.elapsedUs earlier.now < s.elapsedUs now)
  | _, _ => True

theorem elapsedUs_mono (s : Stream) {now later : Nat} (h : now ≤ later) :
    s.elapsedUs now ≤ s.elapsedUs later := by
  have hdiv : (now - s.startedAt) / 1000 ≤ (later - s.startedAt) / 1000 :=
    Nat.div_le_div_right (by omega)
  unfold Stream.elapsedUs
  omega

theorem ptsUs_eq (s : Stream) (now : Nat) : (s.ptsUs now).toNat = s.elapsedUs now := by
  have hlt : min ((now - s.startedAt) / 1000) (UInt64.size - 1) < UInt64.size := by
    have hpos : 0 < UInt64.size := by decide
    omega
  rw [Stream.ptsUs, Stream.elapsedUs, UInt64.toNat_ofNat_of_lt' hlt]

/-- Every frame carries the reading it was stamped with, none of which is ahead of the clock. -/
def Stamped (s : Stream) : Prop :=
  ∀ entry ∈ s.sent, headerPts entry.frame = s.elapsedUs entry.now ∧ entry.now ≤ s.clock

theorem Stamped.congr {s t : Stream} (h : Stamped s) (hstarted : t.startedAt = s.startedAt)
    (hsent : t.sent = s.sent) (hclock : s.clock ≤ t.clock) : Stamped t := by
  intro entry hentry
  rw [hsent] at hentry
  obtain ⟨hframe, hnow⟩ := h entry hentry
  refine ⟨?_, hnow.trans hclock⟩
  rw [hframe, Stream.elapsedUs, Stream.elapsedUs, hstarted]

theorem moves_sent {s t : Stream} {event : Event} (h : Moves s event t) :
    t.startedAt = s.startedAt ∧ s.clock ≤ t.clock ∧
      ((t.sent = s.sent ∧ InOrder s event t) ∨
        ∃ now pkt rest, event = .send now true ∧ s.packets = pkt :: rest ∧ t.clock = now ∧
          t.sent = s.sent ++
            [⟨pkt, now, buildVideoFrame pkt.data (s.ptsUs now) pkt.isKeyframe pkt.hasConfig⟩]) := by
  have hidle : ∀ u : Stream, u.idle.startedAt = u.startedAt ∧ u.idle.clock = u.clock ∧
      u.idle.sent = u.sent := by
    intro u
    unfold Stream.idle
    split
    · exact ⟨rfl, rfl, rfl⟩
    · exact ⟨rfl, rfl, rfl⟩
  cases h with
  | forceKeyframe => exact ⟨rfl, le_rfl, .inl ⟨rfl, trivial⟩⟩
  | stop => exact ⟨rfl, le_rfl, .inl ⟨rfl, trivial⟩⟩
  | gate _ hclock =>
      unfold Stream.gate
      split
      · exact ⟨rfl, le_rfl, .inl ⟨rfl, trivial⟩⟩
      · split
        · exact ⟨rfl, hclock, .inl ⟨rfl, trivial⟩⟩
        · exact ⟨rfl, hclock, .inl ⟨rfl, trivial⟩⟩
  | swap => exact ⟨rfl, le_rfl, .inl ⟨rfl, trivial⟩⟩
  | capture _ hcapture =>
      rcases capture_cases hcapture with
        rfl | rfl | ⟨inputs, rfl⟩ | rfl | ⟨inputs, packets, rfl⟩
      · obtain ⟨hstarted, hclock, hsent⟩ := hidle s
        exact ⟨hstarted, hclock.ge, .inl ⟨hsent, trivial⟩⟩
      · exact ⟨rfl, le_rfl, .inl ⟨rfl, trivial⟩⟩
      · exact ⟨rfl, le_rfl, .inl ⟨rfl, trivial⟩⟩
      · obtain ⟨hstarted, hclock, hsent⟩ := hidle (s.submit 0)
        exact ⟨hstarted, hclock.ge, .inl ⟨hsent, trivial⟩⟩
      · exact ⟨rfl, le_rfl, .inl ⟨rfl, trivial⟩⟩
  | pace _ hclock => exact ⟨rfl, hclock, .inl ⟨rfl, trivial⟩⟩
  | send _ hclock hpackets =>
      exact ⟨rfl, hclock, .inr ⟨_, _, _, rfl, hpackets, rfl, rfl⟩⟩
  | closed _ hclock => exact ⟨rfl, hclock, .inl ⟨rfl, trivial⟩⟩
  | again => exact ⟨rfl, le_rfl, .inl ⟨rfl, trivial⟩⟩

theorem stamped {s : Stream} (h : video.Reachable s) : Stamped s := by
  refine h.invariant (I := Stamped) ?_ ?_
  · rintro s ⟨frameInterval, startedAt, backend, now, -, rfl⟩ entry hentry
    contradiction
  · intro s event t _ hs hstep
    obtain ⟨hstarted, hclock, ⟨hsent, -⟩ | ⟨now, pkt, rest, -, -, hnow, hsent⟩⟩ :=
      moves_sent (moves_of_act hstep)
    · exact hs.congr hstarted hsent hclock
    · intro entry hentry
      rw [hsent, List.mem_append, List.mem_singleton] at hentry
      rcases hentry with hearlier | rfl
      · obtain ⟨hframe, hbefore⟩ := hs entry hearlier
        refine ⟨?_, hbefore.trans hclock⟩
        rw [hframe, Stream.elapsedUs, Stream.elapsedUs, hstarted]
      · refine ⟨?_, hnow.ge⟩
        rw [headerPts_buildVideoFrame, ptsUs_eq, Stream.elapsedUs, Stream.elapsedUs, hstarted]

theorem step_ordered_iff {s t : Stream} {event : Event} (hs : Stamped s)
    (h : Moves s event t) :
    WireOrdered t.sent ↔ WireOrdered s.sent ∧ InOrder s event t := by
  obtain ⟨-, hnow, ⟨hsent, hother⟩ | ⟨now, pkt, rest, rfl, hpackets, rfl, hsent⟩⟩ :=
    moves_sent h
  · rw [hsent]
    exact (and_iff_left hother).symm
  have hheader : headerPts (buildVideoFrame pkt.data (s.ptsUs t.clock) pkt.isKeyframe
      pkt.hasConfig) = s.elapsedUs t.clock := by
    rw [headerPts_buildVideoFrame, ptsUs_eq]
  rw [hsent]
  let last : Sent := ⟨pkt, t.clock,
    buildVideoFrame pkt.data (s.ptsUs t.clock) pkt.isKeyframe pkt.hasConfig⟩
  constructor
  · intro hordered
    constructor
    · intro a ha b hb
      exact hordered a (List.mem_append_left _ ha) b (List.mem_append_left _ hb)
    · intro pkt' hpkt earlier hearlier
      rw [hpackets] at hpkt
      obtain rfl := Option.some.inj hpkt
      obtain ⟨hframe, hbefore⟩ := hs earlier hearlier
      have hmono := elapsedUs_mono s (hbefore.trans hnow)
      have hold := List.mem_append_left [last] hearlier
      have hnew := List.mem_append_right s.sent (List.mem_singleton_self last)
      constructor
      · by_contra hless
        have hback := hordered _ hnew _ hold (Nat.lt_of_not_le hless)
        rw [hheader, hframe] at hback
        omega
      · intro hless
        have hforth := hordered _ hold _ hnew hless
        rw [hheader, hframe] at hforth
        exact hforth
  · rintro ⟨hordered, hin⟩ a ha b hb hless
    have hinOrder : ∀ earlier ∈ s.sent, earlier.packet.pts ≤ pkt.pts ∧
        (earlier.packet.pts < pkt.pts → s.elapsedUs earlier.now < s.elapsedUs t.clock) :=
      hin pkt (by rw [hpackets]; rfl)
    rw [List.mem_append, List.mem_singleton] at ha hb
    rcases ha with ha | rfl
    · rcases hb with hb | rfl
      · exact hordered a ha b hb hless
      · rw [hheader, (hs a ha).1]
        exact (hinOrder a ha).2 hless
    · rcases hb with hb | rfl
      · exact absurd (hinOrder b hb).1 (Nat.not_le_of_lt hless)
      · exact absurd hless (Nat.lt_irrefl _)

/-- The wire timestamps are in the order of presentation as long as the encoder returns its
packets in that order and no two pictures are stamped within one microsecond. -/
theorem ordered_iff_inOrder {s t : Stream} {events : List Event} (hs : s.Started)
    (h : video.Run s events t) :
    WireOrdered t.sent ↔ (video.restrict InOrder).Run s events t := by
  constructor
  · intro hordered
    induction h with
    | nil => exact .nil s
    | snoc hrun hstep ih =>
        obtain ⟨hbefore, hin⟩ := (step_ordered_iff
          (stamped ((Reachable.init hs).run hrun)) (moves_of_act hstep)).mp hordered
        exact .snoc (ih hbefore) ⟨hstep, hin⟩
  · intro hrun
    have hstart : WireOrdered s.sent := by
      obtain ⟨frameInterval, startedAt, backend, now, -, rfl⟩ := hs
      intro a ha
      contradiction
    refine hrun.invariant (I := fun _ u => WireOrdered u.sent) hstart ?_
    intro labels u event v hrun' hordered hstep
    have hreach : video.Reachable u := (Reachable.init hs).run hrun'.of_restrict
    exact (step_ordered_iff (stamped hreach) (moves_of_act hstep.1)).mpr ⟨hordered, hstep.2⟩

theorem ordered_iff_inOrder_served :
    WireOrdered served.sent ↔ (video.restrict InOrder).Run opened requested served :=
  ordered_iff_inOrder opened_started requested_run

/-- The B picture is stamped behind the picture that it is presented before. -/
def reordered : Stream :=
  (served.send 66667000 true).getD served

theorem reordered_run :
    video.Run opened (requested ++ [.send 66667000 true]) reordered := by
  have hsend : served.act (.send 66667000 true) = some reordered := by
    decide +kernel
  exact .snoc requested_run hsend

theorem reordered_not_ordered :
    ¬∀ s t events, s.Started → video.Run s events t → WireOrdered t.sent := by
  intro h
  have hordered := h opened reordered _ opened_started reordered_run
  revert hordered
  unfold WireOrdered
  decide +kernel

end RemoteControl.Server.VideoLoop
