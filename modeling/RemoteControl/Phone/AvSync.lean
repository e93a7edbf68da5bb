import Mathlib.Algebra.Group.Int.Defs
import Mathlib.Algebra.Group.Nat.Defs
import Mathlib.Data.List.GetD
import RemoteControl.Foundations.Transition

/-!
The render clock of the video against the audio that is heard (`OpusPlayer.kt`,
`H264Player.kt`, `AvSyncClock.kt`). Times are in nanoseconds, PTS in microseconds. A `Long` is an
integer, but for the product that counts frames in nanoseconds: it overflows after 53 hours.
-/

namespace RemoteControl.Phone.AvSync

open RemoteControl.Foundations.Transition
open RemoteControl.Foundations.Transition.System

/-! ### The players -/

structure AvSyncClock where
  publishedWallNs : Int := -1
  publishedPtsUs : Int := -1
deriving DecidableEq

def AvSyncClock.audioReference (clock : AvSyncClock) : Option (Int × Int) :=
  if clock.publishedPtsUs < 0 then none
  else some (clock.publishedWallNs, clock.publishedPtsUs)

structure OpusPlayer where
  avSyncSeeded : Bool := false
  lastRefinedFrame0WallNs : Int := 0
  firstFramePtsUs : Int := -1
  sampleRate : Int := 48000
deriving DecidableEq

def audioTrackPrerollNs : Int := 250000000

/-- The two players as far as the clock goes, with the clock that they share. -/
structure Players where
  avSync : AvSyncClock := {}
  opus : OpusPlayer := {}
  clockOriginNs : Int := 0
deriving DecidableEq

/-- The product of two `Long`s. -/
def longMul (a b : Int) : Int := (Int64.ofInt (a * b)).toInt

namespace Players

def publishAudioStart (p : Players) (wallNs ptsUs : Int) : Players :=
  { p with avSync := { publishedWallNs := wallNs, publishedPtsUs := ptsUs } }

/-- What `OpusPlayer.onOutputBufferAvailable` does before it writes to the track. -/
def seed (p : Players) (ptsUs now : Int) : Players :=
  if p.opus.avSyncSeeded then p
  else
    { p with
      opus := { p.opus with avSyncSeeded := true, firstFramePtsUs := ptsUs } }.publishAudioStart
        (now + audioTrackPrerollNs) ptsUs

def frame0WallNs (p : Players) (framePosition nanoTime : Int) : Int :=
  nanoTime - (longMul framePosition 1000000000).tdiv p.opus.sampleRate

/-- What was published last is within 5 ms of this. -/
def isRefined (p : Players) (frame0WallNs : Int) : Bool :=
  p.opus.lastRefinedFrame0WallNs != 0 &&
    decide ((frame0WallNs - p.opus.lastRefinedFrame0WallNs).natAbs < 5000000)

/-- `tryRefineAudioRef`, with what `getTimestamp` gives. -/
def tryRefineAudioRef (p : Players) : Option (Int × Int) → Players
  | none => p
  | some (framePosition, nanoTime) =>
      if framePosition ≤ 0 then p
      else
        let frame0WallNs := p.frame0WallNs framePosition nanoTime
        if p.isRefined frame0WallNs then p
        else
          { p with
            opus := { p.opus with lastRefinedFrame0WallNs := frame0WallNs } }.publishAudioStart
              frame0WallNs p.opus.firstFramePtsUs

def standaloneStartupLatencyNs : Int := 100000000

/-- The clock in `H264Player.onOutputBufferAvailable`. -/
def anchor (p : Players) (ptsUs now : Int) : Players :=
  if p.clockOriginNs = 0 then
    match p.avSync.audioReference with
    | some (wallNs, refPtsUs) => { p with clockOriginNs := wallNs - refPtsUs * 1000 }
    | none => { p with clockOriginNs := now - ptsUs * 1000 + standaloneStartupLatencyNs }
  else
    match p.avSync.audioReference with
    | some (wallNs, refPtsUs) =>
        let newOrigin := wallNs - refPtsUs * 1000
        let driftNs := (newOrigin - p.clockOriginNs).natAbs
        if 30000000 < driftNs then { p with clockOriginNs := newOrigin } else p
    | none => p

end Players

/-! ### A session -/

def packetNs : Int := 20000000

def framesPerPacket : Nat := 960

/-- A stream on the phone. Packet `k` carries PTS `p0 + 20 ms * k`. `delivered` are the packets
whose frames were written to the track and `starts` when those that have begun to play did;
`refining` tells that the audio callback is past the write. Not kept by the code: the frame of
the timestamp that was used last, and whether a video buffer was handled since the last
publication. -/
structure Session where
  players : Players := {}
  p0 : Nat
  delivered : List Nat := []
  starts : List Int := []
  refining : Bool := false
  lastRead : Option Nat := none
  seen : Bool := false

namespace Session

def ptsUs (s : Session) (k : Nat) : Int := s.p0 + 20000 * k

/-- The number of the packet in the `j`-th place of the track. -/
def packet (s : Session) (j : Nat) : Nat := s.delivered.getD j 0

def start (s : Session) (j : Nat) : Int := s.starts.getD j 0

/-- When frame `n` of the track is heard. -/
def heardAt (s : Session) (n : Nat) : Int :=
  s.start (n / framesPerPacket) + (n % framesPerPacket : Nat) * 1000000000 / 48000

def decode (s : Session) (k : Nat) (now : Int) : Session :=
  { s with
    players := s.players.seed (s.ptsUs k) now
    delivered := s.delivered ++ [k]
    refining := true
    seen := s.seen && s.players.opus.avSyncSeeded }

def refine (s : Session) (timestamp : Option (Nat × Int)) : Session :=
  let players := s.players.tryRefineAudioRef (timestamp.map fun (n, nanoTime) => (n, nanoTime))
  { s with
    players
    refining := false
    lastRead := (timestamp.map Prod.fst).filter (0 < ·) <|> s.lastRead
    seen := s.seen && decide (players.avSync = s.players.avSync) }

def video (s : Session) (ptsUs now : Int) : Session :=
  { s with players := s.players.anchor ptsUs now, seen := true }

end Session

inductive Event where
  | decode (k : Nat) (now : Int)
  | begin (wallNs : Int)
  | refine (timestamp : Option (Nat × Int))
  | video (ptsUs now : Int)

/-- Packets reach the decoder in order, each plays when the one before it is over or later, and
a timestamp is of a frame that has been played. -/
inductive Step : Session → Event → Session → Prop
  | decode {s : Session} {k : Nat} (now : Int) : s.refining = false →
      (∀ earlier ∈ s.delivered, earlier < k) → Step s (.decode k now) (s.decode k now)
  | begin {s : Session} {wallNs : Int} : s.starts.length < s.delivered.length →
      (∀ last ∈ s.starts.getLast?, last + packetNs ≤ wallNs) →
      Step s (.begin wallNs) { s with starts := s.starts ++ [wallNs] }
  | refine {s : Session} {timestamp : Option (Nat × Int)} : s.refining = true →
      (∀ n nanoTime, timestamp = some (n, nanoTime) →
        n / framesPerPacket < s.starts.length ∧ nanoTime = s.heardAt n) →
      Step s (.refine timestamp) (s.refine timestamp)
  | video {s : Session} (ptsUs now : Int) : Step s (.video ptsUs now) (s.video ptsUs now)

def stream : System Session Event where
  init s := ∃ p0, s = { p0 }
  step := Step

/-- A refinement has been published, and a video buffer was handled since the last one. -/
structure Settled (s : Session) : Prop where
  refined : s.lastRead.isSome = true
  seen : s.seen = true

/-- The place in the track of the packet that is played now or was played last. -/
def Session.current (s : Session) : Nat := s.starts.length - 1

/-- Every PTS of that packet is rendered within 35 ms of when it is heard. -/
def Aligned (s : Session) : Prop :=
  ∀ ptsUs : Int, s.ptsUs (s.packet s.current) ≤ ptsUs →
    ptsUs < s.ptsUs (s.packet s.current) + 20000 →
    (s.players.clockOriginNs + ptsUs * 1000 -
        (s.start s.current + (ptsUs - s.ptsUs (s.packet s.current)) * 1000)).natAbs ≤ 35000000

/-- How many packets between the first decoded one and the current one were lost. -/
def Session.lost (s : Session) : Int :=
  (s.packet s.current : Int) - s.packet 0 - s.current

/-- For how long the track has had nothing to play since frame `n`. -/
def Session.stalled (s : Session) (n : Nat) : Int :=
  s.start s.current - s.start (n / framesPerPacket) -
    packetNs * ((s.current : Int) - (n / framesPerPacket : Nat))

/-- How far the reference is off. -/
def Session.drift (s : Session) (n : Nat) : Int :=
  packetNs * s.lost - s.stalled n

/-- The frames up to `n` fit in a `Long` of nanoseconds. -/
def Representable (n : Nat) : Prop := n * 1000000000 < 2 ^ 63

/-! ### What every step keeps -/

/-- The origin that the published reference gives. -/
def Session.reference (s : Session) : Int :=
  s.players.avSync.publishedWallNs - s.players.avSync.publishedPtsUs * 1000

/-- When the first frame was heard, or would have been without a stall before frame `n`. -/
def Session.frame0 (s : Session) (n : Nat) : Int :=
  s.start (n / framesPerPacket) - packetNs * (n / framesPerPacket : Nat)

structure Synced (s : Session) : Prop where
  sampleRate : s.players.opus.sampleRate = 48000
  seeded : s.players.opus.avSyncSeeded = true ↔ s.delivered ≠ []
  started : s.starts.length ≤ s.delivered.length
  first : s.delivered ≠ [] → s.players.opus.firstFramePtsUs = s.ptsUs (s.packet 0) ∧
    s.players.avSync.publishedPtsUs = s.ptsUs (s.packet 0)
  unpublished : s.delivered = [] → s.players.opus.lastRefinedFrame0WallNs = 0
  published : s.players.opus.lastRefinedFrame0WallNs ≠ 0 →
    s.players.avSync.publishedWallNs = s.players.opus.lastRefinedFrame0WallNs
  read : ∀ n ∈ s.lastRead, n / framesPerPacket < s.starts.length ∧
    (Representable n → (s.frame0 n - s.players.avSync.publishedWallNs).natAbs < 5000000)
  seen : s.seen = true → s.delivered ≠ [] →
    (s.reference - s.players.clockOriginNs).natAbs ≤ 30000000

theorem synced_init {s : Session} (h : stream.init s) : Synced s := by
  obtain ⟨p0, rfl⟩ := h
  constructor <;> simp

theorem longMul_eq {a b : Int} (h : -2 ^ 63 ≤ a * b) (h' : a * b < 2 ^ 63) :
    longMul a b = a * b :=
  Int64.toInt_ofInt_of_le h h'

theorem frame0WallNs_heardAt {s : Session} (hrate : s.players.opus.sampleRate = 48000) {n : Nat}
    (hn : Representable n) : s.players.frame0WallNs n (s.heardAt n) = s.frame0 n := by
  have hcount : n * 1000000000 < 2 ^ 63 := hn
  have hmul : longMul n 1000000000 = n * 1000000000 := by
    apply longMul_eq
    · omega
    · omega
  rw [Players.frame0WallNs, hmul, hrate, Int.tdiv_eq_ediv_of_nonneg (by omega), Session.heardAt,
    Session.frame0, framesPerPacket, packetNs]
  omega

/-! ### One step -/

theorem not_started_of_delivered_nil {s : Session} (hs : Synced s) (h : s.delivered = []) :
    s.starts = [] := by
  have hstarted := hs.started
  rw [h] at hstarted
  exact List.length_eq_zero_iff.mp (Nat.le_zero.mp hstarted)

theorem seed_cases {s : Session} (hs : Synced s) (ptsUs now : Int) :
    (s.delivered ≠ [] ∧ s.players.seed ptsUs now = s.players) ∨
      (s.delivered = [] ∧ s.players.opus.avSyncSeeded = false ∧
        s.players.seed ptsUs now =
          { s.players with
            avSync := ⟨now + audioTrackPrerollNs, ptsUs⟩
            opus := { s.players.opus with avSyncSeeded := true, firstFramePtsUs := ptsUs } }) := by
  unfold Players.seed
  split
  next hseeded => exact .inl ⟨hs.seeded.mp hseeded, rfl⟩
  next hunseeded =>
    have hnil : s.delivered = [] := by
      by_contra hne
      exact hunseeded (hs.seeded.mpr hne)
    exact .inr ⟨hnil, Bool.eq_false_iff.mpr hunseeded, rfl⟩

theorem decode_synced {s : Session} {k : Nat} {now : Int} (hs : Synced s) :
    Synced (s.decode k now) := by
  have hnonempty : s.delivered ++ [k] ≠ [] := by simp
  have hstarted : s.starts.length ≤ (s.delivered ++ [k]).length := by
    have hlength := hs.started
    simp only [List.length_append]
    omega
  rcases seed_cases hs (s.ptsUs k) now with ⟨hne, hsame⟩ | ⟨hnil, hunseeded, hseed⟩
  · have hpacket : (s.decode k now).packet 0 = s.packet 0 :=
      List.getD_append _ _ _ _ (List.length_pos_iff.mpr hne)
    have hseeded := hs.seeded.mpr hne
    have hdecode : s.decode k now =
        { s with delivered := s.delivered ++ [k], refining := true } := by
      simp only [Session.decode, hsame, hseeded, Bool.and_true]
    rw [hdecode] at hpacket ⊢
    constructor
    · exact hs.sampleRate
    · exact iff_of_true hseeded hnonempty
    · exact hstarted
    · intro _
      rw [hpacket]
      exact hs.first hne
    · intro hnil
      exact absurd hnil hnonempty
    · exact hs.published
    · exact hs.read
    · intro hseen _
      exact hs.seen hseen hne
  · have hstarts := not_started_of_delivered_nil hs hnil
    have hdecode : s.decode k now =
        { s with
          players :=
            { s.players with
              avSync := ⟨now + audioTrackPrerollNs, s.ptsUs k⟩
              opus :=
                { s.players.opus with avSyncSeeded := true, firstFramePtsUs := s.ptsUs k } }
          delivered := [k], refining := true, seen := false } := by
      simp only [Session.decode, hseed, hunseeded, Bool.and_false, hnil, List.nil_append]
    rw [hdecode]
    constructor
    · exact hs.sampleRate
    · simp
    · simp [hstarts]
    · intro _
      exact ⟨rfl, rfl⟩
    · simp
    · intro hrefined
      exact absurd (hs.unpublished hnil) hrefined
    · intro n hn
      have hplayed := (hs.read n hn).1
      simp [hstarts] at hplayed
    · simp

theorem begin_synced {s : Session} {wallNs : Int} (hs : Synced s)
    (hroom : s.starts.length < s.delivered.length) :
    Synced { s with starts := s.starts ++ [wallNs] } := by
  refine ⟨hs.sampleRate, hs.seeded, ?_, hs.first, hs.unpublished, hs.published, ?_, hs.seen⟩
  · simp only [List.length_append, List.length_singleton]
    omega
  · intro n hn
    obtain ⟨hplayed, hread⟩ := hs.read n hn
    have hframe0 : ({ s with starts := s.starts ++ [wallNs] } : Session).frame0 n = s.frame0 n := by
      simp only [Session.frame0, Session.start, List.getD_append _ _ _ _ hplayed]
    refine ⟨?_, fun hrange => ?_⟩
    · simp only [List.length_append, List.length_singleton]
      omega
    · rw [hframe0]
      exact hread hrange

theorem tryRefineAudioRef_cases (p : Players) {n : Nat} (hn : 0 < n) (nanoTime : Int)
    (hpublished : p.opus.lastRefinedFrame0WallNs ≠ 0 →
      p.avSync.publishedWallNs = p.opus.lastRefinedFrame0WallNs) :
    ((p.frame0WallNs n nanoTime - p.avSync.publishedWallNs).natAbs < 5000000 ∧
        p.tryRefineAudioRef (some (n, nanoTime)) = p) ∨
      p.tryRefineAudioRef (some (n, nanoTime)) =
        { p with
          opus := { p.opus with lastRefinedFrame0WallNs := p.frame0WallNs n nanoTime }
          avSync := ⟨p.frame0WallNs n nanoTime, p.opus.firstFramePtsUs⟩ } := by
  have hpositive : ¬(n : Int) ≤ 0 := by omega
  rw [Players.tryRefineAudioRef, if_neg hpositive]
  dsimp only
  split
  next hrefined =>
    simp only [Players.isRefined, Bool.and_eq_true, bne_iff_ne, decide_eq_true_eq] at hrefined
    rw [hpublished hrefined.1]
    exact .inl ⟨hrefined.2, rfl⟩
  next => exact .inr rfl

theorem refine_none (s : Session) : s.refine none = { s with refining := false } := by
  simp [Session.refine, Players.tryRefineAudioRef]

theorem refine_zero (s : Session) (nanoTime : Int) :
    s.refine (some (0, nanoTime)) = { s with refining := false } := by
  simp [Session.refine, Players.tryRefineAudioRef, Option.filter]

theorem refine_some (s : Session) {n : Nat} (hn : 0 < n) (nanoTime : Int) :
    s.refine (some (n, nanoTime)) =
      { s with
        players := s.players.tryRefineAudioRef (some (n, nanoTime))
        refining := false, lastRead := some n
        seen := s.seen && decide
          ((s.players.tryRefineAudioRef (some (n, nanoTime))).avSync = s.players.avSync) } := by
  simp [Session.refine, Option.filter, hn]

theorem refine_synced {s : Session} {timestamp : Option (Nat × Int)} (hs : Synced s)
    (htimestamp : ∀ n nanoTime, timestamp = some (n, nanoTime) →
      n / framesPerPacket < s.starts.length ∧ nanoTime = s.heardAt n) :
    Synced (s.refine timestamp) := by
  have hunread : Synced { s with refining := false } :=
    ⟨hs.sampleRate, hs.seeded, hs.started, hs.first, hs.unpublished, hs.published, hs.read,
      hs.seen⟩
  rcases timestamp with _ | ⟨n, nanoTime⟩
  · rw [refine_none]
    exact hunread
  obtain ⟨hplayed, rfl⟩ := htimestamp _ _ rfl
  rcases Nat.eq_zero_or_pos n with rfl | hn
  · rw [refine_zero]
    exact hunread
  have hne : s.delivered ≠ [] := by
    intro hnil
    rw [not_started_of_delivered_nil hs hnil] at hplayed
    exact Nat.not_lt_zero _ hplayed
  rw [refine_some s hn]
  rcases tryRefineAudioRef_cases s.players hn (s.heardAt n) hs.published with
    ⟨hnear, hsame⟩ | hpublish
  · simp only [hsame, decide_true, Bool.and_true]
    refine ⟨hs.sampleRate, hs.seeded, hs.started, hs.first, hs.unpublished, hs.published, ?_,
      hs.seen⟩
    rintro _ ⟨⟩
    refine ⟨hplayed, fun hrange => ?_⟩
    rw [frame0WallNs_heardAt hs.sampleRate hrange] at hnear
    exact hnear
  · rw [hpublish]
    refine ⟨hs.sampleRate, hs.seeded, hs.started, ?_, ?_, ?_, ?_, ?_⟩
    · intro _
      exact ⟨(hs.first hne).1, (hs.first hne).1⟩
    · intro hnil
      exact absurd hnil hne
    · intro _
      rfl
    · rintro _ ⟨⟩
      refine ⟨hplayed, fun hrange => ?_⟩
      have hequal := frame0WallNs_heardAt hs.sampleRate hrange
      show (s.frame0 n - s.players.frame0WallNs n (s.heardAt n)).natAbs < 5000000
      omega
    · intro hseen _
      obtain ⟨hbefore, hunmoved⟩ := Bool.and_eq_true_iff.mp hseen
      have hclose := hs.seen hbefore hne
      rw [Session.reference, ← of_decide_eq_true hunmoved] at hclose
      exact hclose

theorem anchor_close (p : Players) (ptsUs now : Int) (h : 0 ≤ p.avSync.publishedPtsUs) :
    (p.avSync.publishedWallNs - p.avSync.publishedPtsUs * 1000 -
      (p.anchor ptsUs now).clockOriginNs).natAbs ≤ 30000000 := by
  have href : p.avSync.audioReference =
      some (p.avSync.publishedWallNs, p.avSync.publishedPtsUs) := if_neg (by omega)
  simp only [Players.anchor, href]
  split
  · simp
  · split
    · simp
    · omega

theorem anchor_frame (p : Players) (ptsUs now : Int) :
    (p.anchor ptsUs now).avSync = p.avSync ∧ (p.anchor ptsUs now).opus = p.opus := by
  unfold Players.anchor
  split <;> split
  · exact ⟨rfl, rfl⟩
  · exact ⟨rfl, rfl⟩
  · dsimp only
    split
    · exact ⟨rfl, rfl⟩
    · exact ⟨rfl, rfl⟩
  · exact ⟨rfl, rfl⟩

theorem video_synced {s : Session} {ptsUs now : Int} (hs : Synced s) :
    Synced (s.video ptsUs now) := by
  obtain ⟨havSync, hopus⟩ := anchor_frame s.players ptsUs now
  refine ⟨?_, ?_, hs.started, ?_, ?_, ?_, ?_, ?_⟩
  all_goals simp only [Session.video, havSync, hopus]
  · exact hs.sampleRate
  · exact hs.seeded
  · exact hs.first
  · exact hs.unpublished
  · exact hs.published
  · exact hs.read
  · intro _ hne
    have hpts : 0 ≤ s.players.avSync.publishedPtsUs := by
      rw [(hs.first hne).2, Session.ptsUs]
      omega
    simp only [Session.reference, havSync]
    exact anchor_close s.players ptsUs now hpts

theorem synced {s : Session} (h : stream.Reachable s) : Synced s := by
  refine h.invariant (I := Synced) (fun _ => synced_init) ?_
  intro s event s' _ hs hstep
  cases hstep with
  | decode => exact decode_synced hs
  | begin hroom => exact begin_synced hs hroom
  | refine _ htimestamp => exact refine_synced hs htimestamp
  | video => exact video_synced hs

/-! ### The bound -/

theorem origin_close {s : Session} (hs : Synced s) (hsettled : Settled s) {n : Nat}
    (hn : n ∈ s.lastRead) (hrange : Representable n) :
    (s.players.clockOriginNs - (s.start s.current - s.ptsUs (s.packet s.current) * 1000) -
      s.drift n).natAbs ≤ 35000000 := by
  obtain ⟨hplayed, hread⟩ := hs.read n hn
  have hdelivered : s.delivered ≠ [] := by
    rintro hnil
    have hstarted := hs.started
    rw [hnil] at hstarted
    simp at hstarted
    simp [hstarted] at hplayed
  have hclose := hread hrange
  have hseen := hs.seen hsettled.seen hdelivered
  have hpts := (hs.first hdelivered).2
  rw [Session.reference, hpts] at hseen
  simp only [Session.drift, Session.stalled, Session.lost, Session.frame0, Session.ptsUs,
    packetNs, framesPerPacket] at *
  omega

/-- The clock is aligned as long as the packets lost so far last as long as the track has
stalled since the timestamp that was used last: as a rule, as long as there were none of
either. With more than 70 ms between the two it is not aligned. -/
theorem aligned_of_no_drift {s : Session} (hreach : stream.Reachable s) (hsettled : Settled s) :
    ((∀ n ∈ s.lastRead, Representable n ∧ s.drift n = 0) → Aligned s) ∧
      ((∀ n ∈ s.lastRead, Representable n ∧ 70000000 < (s.drift n).natAbs) → ¬Aligned s) := by
  obtain ⟨n, hn⟩ := Option.isSome_iff_exists.mp hsettled.refined
  constructor
  · intro hdrift ptsUs hlow hhigh
    obtain ⟨hrange, hzero⟩ := hdrift n hn
    have hclose := origin_close (synced hreach) hsettled hn hrange
    omega
  · intro hdrift haligned
    obtain ⟨hrange, hfar⟩ := hdrift n hn
    have hclose := origin_close (synced hreach) hsettled hn hrange
    have hfirst := haligned (s.ptsUs (s.packet s.current)) (Int.le_refl _) (by omega)
    omega

/-! ### Two lost packets -/

/-- The first packet is heard from 1 s on. -/
def audible : Session :=
  { ({ p0 := 0 } : Session).decode 0 0 with starts := [1000000000] }

/-- A timestamp has been published, and the video is anchored on it. -/
def anchored : Session :=
  (audible.refine (some (480, 1010000000))).video 0 1015000000

/-- Packets 1 and 2 are lost, and packet 3 plays right behind packet 0. -/
def skipped : Session :=
  { anchored.decode 3 1015000000 with starts := [1000000000, 1020000000] }

def late : Session :=
  (skipped.refine (some (1440, 1030000000))).video 60000 1035000000

theorem anchored_reachable : stream.Reachable anchored := by
  have hdecode : stream.Reachable (({ p0 := 0 } : Session).decode 0 0) :=
    .step (.init ⟨0, rfl⟩) (.decode 0 rfl (by simp))
  have hbegin : Step (({ p0 := 0 } : Session).decode 0 0) (.begin 1000000000) audible :=
    .begin (by decide) (by simp [Session.decode])
  have hrefine : Step audible (.refine (some (480, 1010000000)))
      (audible.refine (some (480, 1010000000))) := by
    refine .refine rfl ?_
    rintro _ _ ⟨⟩
    decide
  exact ((hdecode.step hbegin).step hrefine).step (.video 0 1015000000)

theorem late_reachable : stream.Reachable late := by
  have hdecode : Step anchored (.decode 3 1015000000) (anchored.decode 3 1015000000) :=
    .decode _ rfl (by decide)
  have hbegin : Step (anchored.decode 3 1015000000) (.begin 1020000000) skipped :=
    .begin (by decide) (by decide)
  have hrefine : Step skipped (.refine (some (1440, 1030000000)))
      (skipped.refine (some (1440, 1030000000))) := by
    refine .refine rfl ?_
    rintro _ _ ⟨⟩
    decide
  exact (((anchored_reachable.step hdecode).step hbegin).step hrefine).step
    (.video 60000 1035000000)

theorem aligned_of_no_drift_anchored : Aligned anchored := by
  refine (aligned_of_no_drift anchored_reachable ⟨rfl, rfl⟩).1 ?_
  rintro _ ⟨⟩
  constructor
  · show 480 * 1000000000 < 2 ^ 63
    decide
  · decide

/-- PTS 60 ms is heard 20 ms after PTS 0 and rendered 60 ms after it. -/
theorem lost_packets_not_aligned :
    ¬∀ s, stream.Reachable s → Settled s → Aligned s := by
  intro hclaim
  have haligned := hclaim late late_reachable ⟨rfl, rfl⟩ 60000
  revert haligned
  decide

end RemoteControl.Phone.AvSync
