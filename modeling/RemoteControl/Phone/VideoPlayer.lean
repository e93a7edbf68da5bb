import RemoteControl.Foundations.Transition
import RemoteControl.Phone.Messages

/-!
The video decoder of the phone (`H264Player.kt`): which frames its codec instances are given. The
UI thread feeds, starts and stops it; `MediaCodec` calls back between `start()` and `stop()` of an
instance.
-/

namespace RemoteControl.Phone.VideoPlayer

open RemoteControl.Foundations.Transition
open RemoteControl.Foundations.Transition.System
open RemoteControl.Phone.Messages

/-! ### The player -/

/-- A frame with the number of calls of `stop` before it was fed, which the code does not keep. -/
structure Fed where
  frame : VideoFrame
  stops : Nat
deriving DecidableEq

/-- A codec instance, with the number of calls of `stop` before it was started. -/
structure MediaCodec where
  number : Nat
  stops : Nat
deriving DecidableEq

structure H264Player where
  codec : Option MediaCodec := none
  availableInputIndices : List Nat := []
  pendingFrames : List Fed := []
  sawKeyframe : Bool := false

structure Submission where
  codec : MediaCodec
  index : Nat
  fed : Fed
deriving DecidableEq

namespace H264Player

def stop (p : H264Player) : H264Player :=
  match p.codec with
  | none => p
  | some _ =>
      { codec := none, availableInputIndices := [], pendingFrames := [], sawKeyframe := false }

/-- `codec` is the instance that `configureCodec` makes, if it makes one. -/
def start (p : H264Player) (codec : Option MediaCodec) : H264Player :=
  match codec with
  | some c => { p.stop with codec := some c }
  | none => p.stop

/-- `addLast`, and `pollFirst` while more than 32 frames are pending. -/
def hold (p : H264Player) (fed : Fed) : H264Player :=
  let pending := p.pendingFrames ++ [fed]
  { p with pendingFrames := pending.drop (pending.length - 32) }

def feed (p : H264Player) (fed : Fed) : H264Player × Option Submission :=
  if !p.sawKeyframe && !fed.frame.isKeyframe then (p, none)
  else
    let p := { p with sawKeyframe := true }
    match p.codec with
    | none => (p.hold fed, none)
    | some c =>
        match p.availableInputIndices with
        | idx :: rest => ({ p with availableInputIndices := rest }, some ⟨c, idx, fed⟩)
        | [] => (p.hold fed, none)

def onInputBufferAvailable (p : H264Player) (codec : MediaCodec) (index : Nat) :
    H264Player × Option Submission :=
  match p.pendingFrames with
  | fed :: rest => ({ p with pendingFrames := rest }, some ⟨codec, index, fed⟩)
  | [] => ({ p with availableInputIndices := p.availableInputIndices ++ [index] }, none)

end H264Player

/-! ### Runs -/

/-- The player, the calls of `stop` so far, the codec instances so far, and what was submitted. -/
structure Playback where
  player : H264Player := {}
  stops : Nat := 0
  codecs : Nat := 0
  submitted : List Submission := []

inductive Event where
  | feed (frame : VideoFrame)
  | start (succeeds : Bool)
  | stop
  | onInputBufferAvailable (index : Nat)

/-- The instance that comes next. -/
def Playback.nextCodec (s : Playback) : MediaCodec :=
  { number := s.codecs, stops := s.stops }

def Playback.submit (s : Playback) (outcome : H264Player × Option Submission) : Playback :=
  { s with player := outcome.1, submitted := s.submitted ++ outcome.2.toList }

def Playback.act (s : Playback) : Event → Option Playback
  | .feed frame => some (s.submit (s.player.feed { frame, stops := s.stops }))
  | .start true =>
      some { s with player := s.player.start (some s.nextCodec), codecs := s.codecs + 1 }
  | .start false => some { s with player := s.player.start none }
  | .stop => some { s with player := s.player.stop, stops := s.stops + 1 }
  | .onInputBufferAvailable index =>
      match s.player.codec with
      | some codec => some (s.submit (s.player.onInputBufferAvailable codec index))
      | none => none

def playback : System Playback Event where
  init s := s = {}
  step s event t := s.act event = some t

/-- The first frame that is submitted to each instance is a keyframe. -/
def KeyframeFirst (submitted : List Submission) : Prop :=
  ∀ before sub after, submitted = before ++ sub :: after →
    (∀ earlier ∈ before, earlier.codec ≠ sub.codec) → sub.fed.frame.isKeyframe = true

/-- No frame that was fed before a `stop` is submitted to an instance started after it. -/
def Current (submitted : List Submission) : Prop :=
  ∀ sub ∈ submitted, sub.codec.stops ≤ sub.fed.stops

/-- The codec, if there is one, has not been given a frame yet. -/
def Unopened (s : Playback) : Prop :=
  ∀ sub ∈ s.submitted, s.player.codec ≠ some sub.codec

/-- No frame is pushed out before the first submission unless another keyframe is next, and
nothing is pending at a `stop` without a codec. -/
def Careful (s : Playback) : Event → Prop
  | .feed _ => Unopened s → s.player.pendingFrames.length = 32 →
      ∃ first second rest, s.player.pendingFrames = first :: second :: rest ∧
        second.frame.isKeyframe = true
  | .stop => s.player.codec = none → s.player.pendingFrames = []
  | _ => True

/-! ### What holds in careful runs -/

structure Sound (s : Playback) : Prop where
  started : ∀ c, s.player.codec = some c → c.number < s.codecs
  logged : ∀ sub ∈ s.submitted, sub.codec.number < s.codecs
  bounded : s.player.pendingFrames.length ≤ 32
  apart : s.player.availableInputIndices = [] ∨ s.player.pendingFrames = []
  stopped : s.player.codec = none → s.player.availableInputIndices = [] ∧
    ∀ fed ∈ s.player.pendingFrames, fed.stops = s.stops
  recent : ∀ c, s.player.codec = some c →
    c.stops ≤ s.stops ∧ ∀ fed ∈ s.player.pendingFrames, c.stops ≤ fed.stops
  latched : Unopened s → s.player.sawKeyframe = true →
    ∃ first rest, s.player.pendingFrames = first :: rest ∧ first.frame.isKeyframe = true
  waiting : Unopened s → s.player.sawKeyframe = false → s.player.pendingFrames = []
  keyframes : KeyframeFirst s.submitted
  current : Current s.submitted

theorem KeyframeFirst.append {submitted : List Submission} {sub : Submission}
    (h : KeyframeFirst submitted)
    (hkey : (∀ earlier ∈ submitted, earlier.codec ≠ sub.codec) →
      sub.fed.frame.isKeyframe = true) : KeyframeFirst (submitted ++ [sub]) := by
  intro before other after heq hfirst
  rcases List.eq_nil_or_concat after with rfl | ⟨after, last, rfl⟩
  · obtain ⟨rfl, hlast⟩ := List.append_inj' heq rfl
    obtain rfl := List.singleton_inj.mp hlast
    exact hkey hfirst
  · rw [List.concat_eq_append, ← List.cons_append, ← List.append_assoc] at heq
    obtain ⟨hbefore, -⟩ := List.append_inj' heq rfl
    exact h before other after hbefore hfirst

theorem Current.append {submitted : List Submission} {sub : Submission} (h : Current submitted)
    (hsub : sub.codec.stops ≤ sub.fed.stops) : Current (submitted ++ [sub]) := by
  intro other hother
  rcases List.mem_append.mp hother with hold | hnew
  · exact h other hold
  · rw [List.mem_singleton.mp hnew]
    exact hsub

variable {s t : Playback}

theorem Sound.start : Sound {} where
  started := by simp
  logged := by simp
  bounded := by simp
  apart := .inl rfl
  stopped := by simp
  recent := by simp
  latched := by simp
  waiting := by simp
  keyframes := by simp [KeyframeFirst]
  current := by simp [Current]

theorem unopened_of_none (h : s.player.codec = none) : Unopened s := by
  intro sub _
  rw [h]
  simp

theorem Sound.stop (h : Sound s) (stops : Nat)
    (hstops : s.player.codec = none → s.player.pendingFrames = [] ∨ stops = s.stops) :
    Sound { s with player := s.player.stop, stops } := by
  rcases hcodec : s.player.codec with _ | c
  · have hstop : s.player.stop = s.player := by rw [H264Player.stop, hcodec]
    have hunopened := unopened_of_none hcodec
    rw [hstop]
    refine ⟨h.started, h.logged, h.bounded, h.apart, fun hnone => ⟨(h.stopped hnone).1, ?_⟩,
      fun c hc => ?_, fun _ => h.latched hunopened, fun _ => h.waiting hunopened, h.keyframes,
      h.current⟩
    · intro fed hfed
      rcases hstops hcodec with hempty | rfl
      · rw [hempty] at hfed
        exact absurd hfed List.not_mem_nil
      · exact (h.stopped hnone).2 fed hfed
    · rw [hcodec] at hc
      cases hc
  · have hstop : s.player.stop = {} := by rw [H264Player.stop, hcodec]
    rw [hstop]
    exact ⟨by simp, h.logged, by simp, .inl rfl, by simp, by simp, by simp, by simp, h.keyframes,
      h.current⟩

theorem Sound.begin (h : Sound s) (hcodec : s.player.codec = none) :
    Sound
      { s with
        player := { s.player with codec := some s.nextCodec }
        codecs := s.codecs + 1 } := by
  have hunopened := unopened_of_none hcodec
  obtain ⟨hindices, hpending⟩ := h.stopped hcodec
  refine ⟨?_, fun sub hsub => Nat.lt_succ_of_lt (h.logged sub hsub), h.bounded, .inl hindices,
    by simp, ?_, fun _ => h.latched hunopened, fun _ => h.waiting hunopened, h.keyframes,
    h.current⟩
  · rintro c ⟨⟩
    exact Nat.lt_succ_self _
  · rintro c ⟨⟩
    exact ⟨le_refl _, fun fed hfed => (hpending fed hfed).ge⟩

theorem hold_pendingFrames (p : H264Player) (fed : Fed) (h : p.pendingFrames.length ≤ 32) :
    (p.hold fed).pendingFrames = p.pendingFrames ++ [fed] ∧ p.pendingFrames.length < 32 ∨
      ∃ first rest, p.pendingFrames = first :: rest ∧ p.pendingFrames.length = 32 ∧
        (p.hold fed).pendingFrames = rest ++ [fed] := by
  rcases Nat.lt_or_ge p.pendingFrames.length 32 with hlt | hge
  · refine .inl ⟨?_, hlt⟩
    rw [H264Player.hold, List.length_append, List.length_singleton,
      Nat.sub_eq_zero_of_le (by omega)]
    rfl
  · have hlen : p.pendingFrames.length = 32 := by omega
    obtain ⟨first, rest, hpending⟩ := List.exists_cons_of_length_pos (l := p.pendingFrames)
      (by omega)
    refine .inr ⟨first, rest, hpending, hlen, ?_⟩
    rw [H264Player.hold, List.length_append, hlen, hpending]
    rfl

theorem mem_of_hold {p : H264Player} {fed other : Fed}
    (h : other ∈ (p.hold fed).pendingFrames) : other ∈ p.pendingFrames ∨ other = fed := by
  have hmem := List.mem_of_mem_drop h
  rwa [List.mem_append, List.mem_singleton] at hmem

theorem length_hold_le (p : H264Player) (fed : Fed) :
    (p.hold fed).pendingFrames.length ≤ 32 := by
  rw [H264Player.hold, List.length_drop]
  omega

theorem Sound.hold (h : Sound s) {frame : VideoFrame}
    (haccepted : s.player.sawKeyframe = true ∨ frame.isKeyframe = true)
    (hindices : s.player.availableInputIndices = []) (hcareful : Careful s (.feed frame)) :
    Sound
      { s with
        player :=
          { s.player with sawKeyframe := true }.hold { frame, stops := s.stops } } := by
  refine ⟨h.started, h.logged, length_hold_le _ _, .inl hindices, fun hnone => ⟨hindices, ?_⟩,
    fun c hc => ⟨(h.recent c hc).1, ?_⟩, fun hunopened _ => ?_,
    fun _ hsaw => absurd hsaw (by simp [H264Player.hold]), h.keyframes, h.current⟩
  · intro fed hfed
    rcases mem_of_hold hfed with hold | rfl
    · exact (h.stopped hnone).2 fed hold
    · rfl
  · intro fed hfed
    rcases mem_of_hold hfed with hold | rfl
    · exact (h.recent c hc).2 fed hold
    · exact (h.recent c hc).1
  · have hbefore : Unopened s := hunopened
    rcases hold_pendingFrames { s.player with sawKeyframe := true } { frame, stops := s.stops }
      h.bounded with ⟨hpending, -⟩ | ⟨first, rest, hpending, hfull, hheld⟩
    · rcases hsaw : s.player.sawKeyframe with _ | _
      · have hempty : s.player.pendingFrames = [] := h.waiting hbefore hsaw
        refine ⟨{ frame, stops := s.stops }, [], ?_, haccepted.resolve_left (by simp [hsaw])⟩
        rw [hpending]
        exact congrArg (· ++ [_]) hempty
      · obtain ⟨first, rest, hfirst, hkey⟩ := h.latched hbefore hsaw
        refine ⟨first, rest ++ [{ frame, stops := s.stops }], ?_, hkey⟩
        rw [hpending]
        exact congrArg (· ++ [_]) hfirst
    · obtain ⟨first', second, tail, hnext, hkey⟩ := hcareful hbefore hfull
      obtain ⟨-, rfl⟩ := List.cons.inj (hpending.symm.trans hnext)
      refine ⟨second, tail ++ [{ frame, stops := s.stops }], ?_, hkey⟩
      exact hheld

theorem Sound.submitted (h : Sound s) {c : MediaCodec} {sub : Submission} {player : H264Player}
    (hcodec : s.player.codec = some c) (hplayer : player.codec = some c)
    (hsub : sub.codec = c) (hrecent : c.stops ≤ sub.fed.stops)
    (hkey : Unopened s → sub.fed.frame.isKeyframe = true)
    (hbounded : player.pendingFrames.length ≤ 32)
    (hapart : player.availableInputIndices = [] ∨ player.pendingFrames = [])
    (hpending : ∀ fed ∈ player.pendingFrames, fed ∈ s.player.pendingFrames) :
    Sound { s with player, submitted := s.submitted ++ [sub] } := by
  have hopened : ¬Unopened { s with player, submitted := s.submitted ++ [sub] } := by
    intro hunopened
    exact hunopened sub (by simp) (hsub ▸ hplayer)
  refine ⟨?_, ?_, hbounded, hapart, fun hnone => ?_, ?_, fun hunopened => absurd hunopened hopened,
    fun hunopened => absurd hunopened hopened, h.keyframes.append fun hfirst => hkey ?_,
    h.current.append (hsub ▸ hrecent)⟩
  · intro c' hc'
    obtain rfl := Option.some.inj (hplayer.symm.trans hc')
    exact h.started c hcodec
  · intro other hother
    rcases List.mem_append.mp hother with hold | hnew
    · exact h.logged other hold
    · rw [List.mem_singleton.mp hnew, hsub]
      exact h.started c hcodec
  · have hnone : player.codec = none := hnone
    rw [hplayer] at hnone
    cases hnone
  · intro c' hc'
    obtain rfl := Option.some.inj (hplayer.symm.trans hc')
    exact ⟨(h.recent c hcodec).1, fun fed hfed => (h.recent c hcodec).2 fed (hpending fed hfed)⟩
  · intro other hother heq
    rw [hcodec] at heq
    exact hfirst other hother ((Option.some.inj heq).symm.trans hsub.symm)

theorem feed_cases (p : H264Player) (fed : Fed) :
    p.feed fed = (p, none) ∨
      (p.sawKeyframe = true ∨ fed.frame.isKeyframe = true) ∧
        ((p.codec = none ∨ p.availableInputIndices = []) ∧
            p.feed fed = ({ p with sawKeyframe := true }.hold fed, none) ∨
          ∃ c idx rest, p.codec = some c ∧ p.availableInputIndices = idx :: rest ∧
            p.feed fed =
              ({ p with sawKeyframe := true, availableInputIndices := rest },
                some ⟨c, idx, fed⟩)) := by
  obtain ⟨codec, indices, pending, saw⟩ := p
  rcases hdropped : !saw && !fed.frame.isKeyframe with _ | _
  · have haccepted : saw = true ∨ fed.frame.isKeyframe = true := by
      simpa [or_iff_not_imp_left] using hdropped
    refine .inr ⟨haccepted, ?_⟩
    simp only [H264Player.feed, hdropped, Bool.false_eq_true, if_false]
    rcases codec with _ | c
    · exact .inl ⟨.inl rfl, rfl⟩
    · rcases indices with _ | ⟨idx, rest⟩
      · exact .inl ⟨.inr rfl, rfl⟩
      · exact .inr ⟨c, idx, rest, rfl, rfl, rfl⟩
  · refine .inl ?_
    simp only [H264Player.feed, hdropped, if_true]

theorem onInputBufferAvailable_cases (p : H264Player) (c : MediaCodec) (index : Nat) :
    (p.pendingFrames = [] ∧ p.onInputBufferAvailable c index =
        ({ p with availableInputIndices := p.availableInputIndices ++ [index] }, none)) ∨
      ∃ fed rest, p.pendingFrames = fed :: rest ∧ p.onInputBufferAvailable c index =
        ({ p with pendingFrames := rest }, some ⟨c, index, fed⟩) := by
  obtain ⟨codec, indices, pending, saw⟩ := p
  rcases pending with _ | ⟨fed, rest⟩
  · exact .inl ⟨rfl, rfl⟩
  · exact .inr ⟨fed, rest, rfl, rfl⟩

@[simp] theorem submit_none (s : Playback) (p : H264Player) :
    s.submit (p, none) = { s with player := p } := by
  simp [Playback.submit]

theorem Sound.feed (h : Sound s) {frame : VideoFrame} (hcareful : Careful s (.feed frame)) :
    Sound (s.submit (s.player.feed { frame, stops := s.stops })) := by
  rcases feed_cases s.player { frame, stops := s.stops } with
    hfeed | ⟨haccepted, ⟨hwaits, hfeed⟩ | ⟨c, idx, rest, hcodec, hindices, hfeed⟩⟩
  · rw [hfeed, submit_none]
    exact h
  · rw [hfeed, submit_none]
    refine h.hold haccepted ?_ hcareful
    exact hwaits.elim (fun hcodec => (h.stopped hcodec).1) id
  · have hempty : s.player.pendingFrames = [] := h.apart.resolve_left (by simp [hindices])
    rw [hfeed]
    refine h.submitted hcodec hcodec rfl (h.recent c hcodec).1 ?_ h.bounded (.inr hempty)
      fun _ hfed => hfed
    intro hunopened
    refine haccepted.resolve_left fun hsaw => ?_
    obtain ⟨first, tail, hfirst, -⟩ := h.latched hunopened hsaw
    rw [hempty] at hfirst
    cases hfirst

theorem Sound.inputBufferAvailable (h : Sound s) {c : MediaCodec} (hcodec : s.player.codec = some c)
    (index : Nat) : Sound (s.submit (s.player.onInputBufferAvailable c index)) := by
  rcases onInputBufferAvailable_cases s.player c index with
    ⟨hpending, hinput⟩ | ⟨fed, rest, hpending, hinput⟩
  · rw [hinput, submit_none]
    exact ⟨h.started, h.logged, h.bounded, .inr hpending,
      fun hnone => absurd (hcodec.symm.trans hnone) (by simp), h.recent, h.latched, h.waiting,
      h.keyframes, h.current⟩
  · have hmem : fed ∈ s.player.pendingFrames := hpending ▸ List.mem_cons_self
    have hbounded := h.bounded
    rw [hpending, List.length_cons] at hbounded
    rw [hinput]
    refine h.submitted hcodec hcodec rfl ((h.recent c hcodec).2 fed hmem) ?_
      ((Nat.le_succ _).trans hbounded) (.inl (h.apart.resolve_right (by simp [hpending]))) ?_
    · intro hunopened
      rcases hsaw : s.player.sawKeyframe with _ | _
      · rw [h.waiting hunopened hsaw] at hmem
        exact absurd hmem List.not_mem_nil
      · obtain ⟨first, tail, hfirst, hkey⟩ := h.latched hunopened hsaw
        obtain ⟨rfl, -⟩ := List.cons.inj (hpending.symm.trans hfirst)
        exact hkey
    · intro other hother
      rw [hpending]
      exact List.mem_cons_of_mem _ hother

theorem stop_codec (p : H264Player) : p.stop.codec = none := by
  unfold H264Player.stop
  split
  · next hcodec => exact hcodec
  · rfl

theorem Sound.step (h : Sound s) {event : Event} (hcareful : Careful s event)
    (hstep : playback.step s event t) : Sound t := by
  cases event with
  | feed frame =>
      obtain rfl := (Option.some.inj hstep).symm
      exact h.feed hcareful
  | start succeeds =>
      have hstopped := h.stop s.stops fun _ => .inr rfl
      cases succeeds with
      | false =>
          obtain rfl := (Option.some.inj hstep).symm
          exact hstopped
      | true =>
          obtain rfl := (Option.some.inj hstep).symm
          exact hstopped.begin (stop_codec s.player)
  | stop =>
      obtain rfl := (Option.some.inj hstep).symm
      exact h.stop (s.stops + 1) fun hcodec => .inl (hcareful hcodec)
  | onInputBufferAvailable index =>
      rcases hcodec : s.player.codec with _ | c
      · simp [playback, Playback.act, hcodec] at hstep
      · have ht : t = s.submit (s.player.onInputBufferAvailable c index) := by
          simpa [playback, Playback.act, hcodec] using hstep.symm
        rw [ht]
        exact h.inputBufferAvailable hcodec index

/-- The player, as long as the events are careful. -/
def careful : System Playback Event :=
  playback.restrict fun s event _ => Careful s event

/-- In every careful run the first frame of each instance is a keyframe, and no frame that was
fed before a `stop` goes to an instance started after it. -/
theorem decoder_starts_at_keyframe {s₀ s : Playback} {events : List Event}
    (hinit : careful.init s₀) (hrun : careful.Run s₀ events s) :
    KeyframeFirst s.submitted ∧ Current s.submitted := by
  have hsound : Sound s := by
    refine hrun.invariant (I := fun _ s => Sound s) ?_ fun _ t event u _ h hstep => ?_
    · obtain rfl : s₀ = {} := hinit
      exact .start
    · exact h.step hstep.2 hstep.1
  exact ⟨hsound.keyframes, hsound.current⟩

/-! ### Three runs -/

def keyframe : VideoFrame where
  type := FrameType.video
  isKeyframe := true
  hasConfig := true
  ptsUs := 0
  payload := [0, 0, 0, 1, 0x67]

def pFrame : VideoFrame where
  type := FrameType.video
  isKeyframe := false
  hasConfig := false
  ptsUs := 33333
  payload := [0, 0, 0, 1, 0x41]

/-- Every step of `careful` that leads somewhere, as a function. -/
theorem careful_of_act (s : Playback) (event : Event) (h : Careful s event)
    (hact : s.act event = some t) : careful.step s event t :=
  ⟨hact, h⟩

theorem decoder_starts_at_keyframe_fed : ∃ s : Playback, s.submitted ≠ [] ∧
    KeyframeFirst s.submitted ∧ Current s.submitted := by
  have hfeed := careful_of_act {} (.feed keyframe) (fun _ h => absurd h (by decide)) rfl
  have hrun := (Run.single hfeed).snoc (careful_of_act _ (.start true) trivial rfl)
  have hinput := hrun.snoc (careful_of_act _ (.onInputBufferAvailable 0) trivial rfl)
  exact ⟨_, List.cons_ne_nil _ _, decoder_starts_at_keyframe rfl hinput⟩

/-- A long time without a surface: the keyframe and 32 more frames before the start. -/
def background : List Event :=
  .feed keyframe :: List.replicate 32 (.feed pFrame) ++ [.start true, .onInputBufferAvailable 0]

/-- The submissions at the end of a run from the beginning. -/
def submissions (events : List Event) : Option (List Submission) :=
  (follow (fun event s => Playback.act s event) events {}).map Playback.submitted

theorem run_of_submissions {events : List Event} {submitted : List Submission}
    (h : submissions events = some submitted) :
    ∃ s, playback.Run {} events s ∧ s.submitted = submitted := by
  obtain ⟨s, hfollow, hs⟩ := Option.map_eq_some_iff.mp h
  exact ⟨s, run_of_follow (M := playback) (fun hact => hact) hfollow, hs⟩

/-- The keyframe has been pushed out of the ring. -/
theorem decoder_starts_at_pFrame :
    ¬∀ (s₀ s : Playback) (events : List Event), playback.init s₀ →
      playback.Run s₀ events s → KeyframeFirst s.submitted ∧ Current s.submitted := by
  intro hclaim
  have hlast : submissions background = some [⟨⟨0, 0⟩, 0, ⟨pFrame, 0⟩⟩] := by
    decide +kernel
  obtain ⟨s, hrun, hsubmitted⟩ := run_of_submissions hlast
  have hfirst := (hclaim _ s background rfl hrun).1
  rw [hsubmitted] at hfirst
  exact absurd (hfirst [] _ [] rfl (by simp)) (by decide)

/-- The other defect: a stream ends before its surface is there, and the keyframe that was fed
for it is the first frame of the next codec. -/
theorem decoder_given_stale_frame :
    ∃ s, playback.Run {}
      [.feed keyframe, .stop, .start true, .onInputBufferAvailable 0] s ∧
        ¬Current s.submitted := by
  have hlast : submissions [.feed keyframe, .stop, .start true, .onInputBufferAvailable 0] =
      some [⟨⟨0, 1⟩, 0, ⟨keyframe, 0⟩⟩] := by
    decide +kernel
  obtain ⟨s, hrun, hsubmitted⟩ := run_of_submissions hlast
  refine ⟨s, hrun, fun hcurrent => ?_⟩
  rw [hsubmitted] at hcurrent
  exact absurd (hcurrent _ (List.mem_singleton_self _)) (by decide)

end RemoteControl.Phone.VideoPlayer
