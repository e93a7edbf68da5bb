import RemoteControl.Foundations.Longs
import RemoteControl.Phone.AvSync

/-!
The 64-bit arithmetic of the render clock (`OpusPlayer.tryRefineAudioRef`, `H264Player`) against
the integers it stands for.
-/

namespace RemoteControl.Phone.LongClock

open RemoteControl.Foundations.Longs
open RemoteControl.Phone.AvSync

/-! ### The expressions -/

def sampleRate : Int64 := 48000

def playedNs (framePosition : Int64) : Int64 :=
  framePosition * 1000000000 / sampleRate

def frame0WallNs (framePosition nanoTime : Int64) : Int64 :=
  nanoTime - playedNs framePosition

/-- The reference that is published before there is a timestamp. -/
def seedWallNs (now : Int64) : Int64 :=
  now + 250000000

/-- The clock origin for a reference of the audio. -/
def newOrigin (wallNs ptsUs : Int64) : Int64 :=
  wallNs - ptsUs * 1000

/-- The clock origin of a video that is ahead of the audio. -/
def standaloneOrigin (now presentationTimeUs : Int64) : Int64 :=
  now - presentationTimeUs * 1000 + 100000000

def renderTimeNs (clockOriginNs presentationTimeUs : Int64) : Int64 :=
  clockOriginNs + presentationTimeUs * 1000

/-! ### Streams of a year -/

def yearSeconds : Nat := 365 * 24 * 3600

/-- A timestamp of the audio track in a stream of at most a year, the first PTS of the audio, the
PTS of the video frame that anchored the clock and of the one that is handled. -/
structure Reading where
  framePosition : Int64
  nanoTime : Int64
  firstFramePtsUs : Int64
  anchorPtsUs : Int64
  presentationTimeUs : Int64
  heard : 1 ≤ framePosition.toInt ∧ framePosition.toInt ≤ 48000 * yearSeconds
  booted : 0 ≤ nanoTime.toInt
  first : 0 ≤ firstFramePtsUs.toInt ∧ firstFramePtsUs.toInt < 2 ^ 53
  anchor : 0 ≤ anchorPtsUs.toInt ∧
    anchorPtsUs.toInt ≤ firstFramePtsUs.toInt + 1000000 * yearSeconds
  shown : 0 ≤ presentationTimeUs.toInt ∧
    presentationTimeUs.toInt ≤ firstFramePtsUs.toInt + 1000000 * yearSeconds

namespace Reading

variable (r : Reading)

/-- The integers that the expressions stand for. -/
def played : Int := r.framePosition.toInt * 1000000000 / 48000

def frame0 : Int := r.nanoTime.toInt - r.played

def seed : Int := r.nanoTime.toInt + 250000000

def standalone : Int := r.nanoTime.toInt - r.anchorPtsUs.toInt * 1000 + 100000000

/-- The render time of the frame for a reference. -/
def renderAt (wall : Int) : Int :=
  wall - r.firstFramePtsUs.toInt * 1000 + r.presentationTimeUs.toInt * 1000

/-- The players have the reference that they published last, or only the seed. -/
def Follows (p : Players) : Prop :=
  p.opus.sampleRate = 48000 ∧
    (p.opus.lastRefinedFrame0WallNs = 0 ∨
      p.opus.lastRefinedFrame0WallNs = p.avSync.publishedWallNs)

/-- The clock computes with this reference what the integers give. -/
structure ExactFrom (wallNs : Int64) (wall : Int) : Prop where
  reference : wallNs.toInt = wall
  origin : (newOrigin wallNs r.firstFramePtsUs).toInt = wall - r.firstFramePtsUs.toInt * 1000
  render : (renderTimeNs (newOrigin wallNs r.firstFramePtsUs) r.presentationTimeUs).toInt =
    r.renderAt wall

/-- Every expression has its value over the integers, and the reference that is published stays
with the timestamp. -/
structure Exact : Prop where
  product : (r.framePosition * 1000000000).toInt = r.framePosition.toInt * 1000000000
  played : (playedNs r.framePosition).toInt = r.played
  refined : r.ExactFrom (frame0WallNs r.framePosition r.nanoTime) r.frame0
  seeded : r.ExactFrom (seedWallNs r.nanoTime) r.seed
  standalone : (standaloneOrigin r.nanoTime r.anchorPtsUs).toInt = r.standalone
  standaloneRender :
    (renderTimeNs (standaloneOrigin r.nanoTime r.anchorPtsUs) r.presentationTimeUs).toInt =
      r.standalone + r.presentationTimeUs.toInt * 1000
  published : ∀ p, Follows p →
    ((p.tryRefineAudioRef (some (r.framePosition.toInt, r.nanoTime.toInt))).avSync.publishedWallNs -
      r.frame0).natAbs < 5000000

/-- At most 53 hours are played, and the render times are within 292 years of the boot. -/
def Representable : Prop :=
  r.framePosition.toInt ≤ 9223372036 ∧ Fits r.seed ∧ Fits (r.renderAt r.seed) ∧
    Fits (r.standalone + r.presentationTimeUs.toInt * 1000)

instance : Decidable r.Representable :=
  inferInstanceAs (Decidable (_ ∧ _ ∧ _ ∧ _))

/-! ### Each expression -/

variable {r}

theorem yearSeconds_eq : yearSeconds = 31536000 :=
  rfl

theorem played_bounds : 0 ≤ r.played ∧ r.played ≤ 31536000000000000 := by
  have hheard := r.heard
  rw [yearSeconds_eq] at hheard
  unfold played
  omega

theorem product_iff :
    (r.framePosition * 1000000000).toInt = r.framePosition.toInt * 1000000000 ↔
      r.framePosition.toInt ≤ 9223372036 := by
  have hone : (1000000000 : Int64).toInt = 1000000000 := rfl
  have hheard := r.heard.1
  have hmul := @toInt_mul_iff r.framePosition 1000000000
  rw [hone] at hmul
  rw [hmul, Fits]
  omega

theorem toInt_playedNs (h : r.framePosition.toInt ≤ 9223372036) :
    (playedNs r.framePosition).toInt = r.played := by
  have hrate : sampleRate.toInt = 48000 := rfl
  have hheard := r.heard.1
  rw [playedNs, toInt_div (by rw [hrate]; decide), product_iff.mpr h, hrate,
    Int.tdiv_eq_ediv_of_nonneg (by omega), played]

theorem toInt_frame0WallNs (h : r.framePosition.toInt ≤ 9223372036) :
    (frame0WallNs r.framePosition r.nanoTime).toInt = r.frame0 := by
  have hplayed := toInt_playedNs h
  have hbounds := @played_bounds r
  have hbooted := r.booted
  have hnano := r.nanoTime.toInt_lt
  rw [frame0WallNs, frame0, ← hplayed]
  apply toInt_sub_iff.mpr
  rw [hplayed, Fits]
  omega

theorem toInt_seedWallNs_iff : (seedWallNs r.nanoTime).toInt = r.seed ↔ Fits r.seed := by
  have hpreroll : (250000000 : Int64).toInt = 250000000 := rfl
  have hadd := @toInt_add_iff r.nanoTime 250000000
  rw [hpreroll] at hadd
  exact hadd

theorem toInt_mul_thousand {pts : Int64}
    (h : 0 ≤ pts.toInt ∧ pts.toInt ≤ r.firstFramePtsUs.toInt + 1000000 * yearSeconds) :
    (pts * 1000).toInt = pts.toInt * 1000 := by
  have hthousand : (1000 : Int64).toInt = 1000 := rfl
  have hfirst := r.first
  have hmul := @toInt_mul_iff pts 1000
  rw [hthousand] at hmul
  rw [yearSeconds_eq] at h
  rw [hmul, Fits]
  omega

theorem toInt_firstFrame_mul_thousand :
    (r.firstFramePtsUs * 1000).toInt = r.firstFramePtsUs.toInt * 1000 :=
  @toInt_mul_thousand r _ ⟨r.first.1, by omega⟩

theorem renderTimeNs_iff {origin : Int64} :
    (renderTimeNs origin r.presentationTimeUs).toInt =
        origin.toInt + r.presentationTimeUs.toInt * 1000 ↔
      Fits (origin.toInt + r.presentationTimeUs.toInt * 1000) := by
  have hmul := toInt_mul_thousand r.shown
  have hadd := @toInt_add_iff origin (r.presentationTimeUs * 1000)
  rw [hmul] at hadd
  exact hadd

theorem exactFrom_iff {wallNs : Int64} {wall : Int} (hwall : wallNs.toInt = wall)
    (hyear : -31536000000000000 ≤ wall) : r.ExactFrom wallNs wall ↔ Fits (r.renderAt wall) := by
  have hfirst := r.first
  have hsub := @toInt_sub_iff wallNs (r.firstFramePtsUs * 1000)
  rw [toInt_firstFrame_mul_thousand, hwall] at hsub
  have horigin : (newOrigin wallNs r.firstFramePtsUs).toInt =
      wall - r.firstFramePtsUs.toInt * 1000 := by
    have hupper := wallNs.toInt_lt
    apply hsub.mpr
    rw [Fits]
    omega
  have hrender := @renderTimeNs_iff r (newOrigin wallNs r.firstFramePtsUs)
  rw [horigin] at hrender
  constructor
  · intro h
    exact hrender.mp h.render
  · intro h
    exact ⟨hwall, horigin, hrender.mpr h⟩

theorem toInt_standaloneOrigin (h : Fits r.seed) :
    (standaloneOrigin r.nanoTime r.anchorPtsUs).toInt = r.standalone := by
  have hlatency : (100000000 : Int64).toInt = 100000000 := rfl
  have hfirst := r.first
  have hanchor := r.anchor
  have hbooted := r.booted
  have hmul := toInt_mul_thousand hanchor
  rw [yearSeconds_eq] at hanchor
  unfold Fits seed at h
  have hsub : (r.nanoTime - r.anchorPtsUs * 1000).toInt =
      r.nanoTime.toInt - r.anchorPtsUs.toInt * 1000 := by
    rw [← hmul]
    apply toInt_sub_iff.mpr
    rw [hmul, Fits]
    omega
  rw [standaloneOrigin, standalone, ← hsub, ← hlatency]
  apply toInt_add_iff.mpr
  rw [hsub, hlatency, Fits]
  omega

/-! ### The published reference -/

theorem longMul_framePosition (h : r.framePosition.toInt ≤ 9223372036) :
    longMul r.framePosition.toInt 1000000000 = r.framePosition.toInt * 1000000000 := by
  have hheard := r.heard.1
  apply longMul_eq
  · omega
  · omega

theorem frame0WallNs_eq {p : Players} (hp : Follows p)
    (h : r.framePosition.toInt ≤ 9223372036) :
    p.frame0WallNs r.framePosition.toInt r.nanoTime.toInt = r.frame0 := by
  have hheard := r.heard.1
  rw [Players.frame0WallNs, longMul_framePosition h, hp.1,
    Int.tdiv_eq_ediv_of_nonneg (by omega), frame0, played]

theorem published_near {p : Players} (hp : Follows p)
    (h : r.framePosition.toInt ≤ 9223372036) :
    ((p.tryRefineAudioRef (some (r.framePosition.toInt, r.nanoTime.toInt))).avSync.publishedWallNs -
      r.frame0).natAbs < 5000000 := by
  have hheard := r.heard.1
  have hframe0 := frame0WallNs_eq hp h
  rw [Players.tryRefineAudioRef, if_neg (by omega), hframe0]
  dsimp only
  split
  next hrefined =>
    simp only [Players.isRefined, Bool.and_eq_true, bne_iff_ne, decide_eq_true_eq] at hrefined
    obtain ⟨hlast, hnear⟩ := hrefined
    have hsame := hp.2.resolve_left hlast
    omega
  next => simp [Players.publishAudioStart]

/-! ### All expressions -/

theorem exact_of_representable (h : r.Representable) : r.Exact := by
  obtain ⟨hplayed, hseed, hseeded, hstandalone⟩ := h
  have hbounds := @played_bounds r
  have hbooted := r.booted
  have horigin := toInt_standaloneOrigin hseed
  have hframe0 : Fits (r.renderAt r.frame0) := by
    have hfirst := r.first
    have hshown := r.shown
    simp only [Fits, renderAt, seed, frame0] at hseeded ⊢
    omega
  have hrender := @renderTimeNs_iff r (standaloneOrigin r.nanoTime r.anchorPtsUs)
  rw [horigin] at hrender
  constructor
  case product => exact product_iff.mpr hplayed
  case played => exact toInt_playedNs hplayed
  case refined =>
    refine (exactFrom_iff (toInt_frame0WallNs hplayed) ?_).mpr hframe0
    unfold frame0
    omega
  case seeded =>
    refine (exactFrom_iff (toInt_seedWallNs_iff.mpr hseed) ?_).mpr hseeded
    unfold seed
    omega
  case standalone => exact horigin
  case standaloneRender => exact hrender.mpr hstandalone
  case published => exact fun p hp => published_near hp hplayed

theorem Exact.representable (h : r.Exact) : r.Representable := by
  have hbooted := r.booted
  have hseeded := (exactFrom_iff h.seeded.reference (by unfold seed; omega)).mp h.seeded
  have hrender := @renderTimeNs_iff r (standaloneOrigin r.nanoTime r.anchorPtsUs)
  rw [h.standalone] at hrender
  exact ⟨product_iff.mp h.product, toInt_seedWallNs_iff.mp h.seeded.reference, hseeded,
    hrender.mp h.standaloneRender⟩

theorem exact_iff_representable (r : Reading) : r.Exact ↔ r.Representable :=
  ⟨Exact.representable, exact_of_representable⟩

/-! ### After 53 hours -/

/-- The first frame whose product does not fit, in a stream that began 16 ms after the boot. -/
def afterTwoDays : Reading where
  framePosition := 9223372037
  nanoTime := 192153600000000
  firstFramePtsUs := 0
  anchorPtsUs := 0
  presentationTimeUs := 192153600000
  heard := by decide
  booted := by decide
  first := by decide
  anchor := by decide
  shown := by decide

/-- The reference that was right moves by more than four days. -/
theorem afterTwoDays_not_exact :
    ¬ afterTwoDays.Exact ∧
      (({ opus := { lastRefinedFrame0WallNs := 15895834 }, avSync := ⟨15895834, 0⟩ } :
        Players).tryRefineAudioRef (some (9223372037, 192153600000000))).avSync.publishedWallNs =
          15895834 + 384307168202281 := by
  constructor
  · intro h
    have hproduct := h.product
    revert hproduct
    decide
  · decide +kernel

end Reading

end RemoteControl.Phone.LongClock
