import RemoteControl.Foundations.Timers
import RemoteControl.Phone.AvSync

/-!
When the decoded frames are shown (`H264Player.kt`): the render thread's delayed posts and the
frames that do not wait. The clock is the one of `AvSync`.
-/

namespace RemoteControl.Phone.RenderQueue

open RemoteControl.Foundations.Timers
open RemoteControl.Foundations.Transition
open RemoteControl.Foundations.Transition.System
open RemoteControl.Phone.AvSync

/-! ### The player -/

def maxRenderDelayMs : Int := 400

/-- `delayMs`, with the origin that the clock has by then. -/
def delayMs (players : Players) (ptsUs now : Int) : Int :=
  max 0 (min ((players.clockOriginNs + ptsUs * 1000 - now).tdiv 1000000) maxRenderDelayMs)

/-- `SystemClock.uptimeMillis`, which is the same clock in milliseconds. -/
def uptimeMillis (now : Int) : Int := now / 1000000

/-- The output buffers are numbered as the decoder produces them. `posts` are those that wait on
the render thread and `released` those that were shown. -/
structure Renderer where
  players : Players := {}
  clock : Int
  lastPts : Option Int := none
  outputs : Nat := 0
  posts : List (Post Nat) := []
  released : List Nat := []
deriving DecidableEq

inductive Event where
  | publish (wallNs ptsUs : Int)
  | output (ptsUs now now' now'' : Int) (handler : Bool)
  | run (now : Int)

namespace Renderer

/-- `onOutputBufferAvailable`, which reads the clock up to three times: for the origin, for the
delay and in `postDelayed`. -/
def onOutputBufferAvailable (s : Renderer) (ptsUs now now' now'' : Int) (handler : Bool) :
    Renderer :=
  let players := s.players.anchor ptsUs now
  let delay := delayMs players ptsUs now'
  let s := { s with players, clock := now'', lastPts := some ptsUs, outputs := s.outputs + 1 }
  if delay ≤ 0 ∨ handler = false then { s with released := s.released ++ [s.outputs - 1] }
  else { s with posts := s.posts ++ [⟨uptimeMillis now'' + delay, s.outputs - 1⟩] }

/-- Presentation times increase by at least a millisecond, and a post is run when it is due. -/
def act (s : Renderer) : Event → Option Renderer
  | .publish wallNs ptsUs => some { s with players := s.players.publishAudioStart wallNs ptsUs }
  | .output ptsUs now now' now'' handler =>
      if s.clock ≤ now ∧ now ≤ now' ∧ now' ≤ now'' ∧ ∀ last ∈ s.lastPts, last + 1000 ≤ ptsUs then
        some (s.onOutputBufferAvailable ptsUs now now' now'' handler)
      else none
  | .run now =>
      match pop s.posts with
      | some (p, rest) =>
          if s.clock ≤ now ∧ p.due ≤ uptimeMillis now then
            some { s with clock := now, posts := rest, released := s.released ++ [p.item] }
          else none
      | none => none

end Renderer

/-- The player when `start` has returned. -/
def renderer : System Renderer Event where
  init s := ∃ avSync opus clock, s = { players := { avSync, opus }, clock }
  step s event t := s.act event = some t

/-- What is shown is what was decoded, in that order. -/
def Shown (s : Renderer) : Prop :=
  s.released <+: List.range s.outputs

/-- A frame that is shown at once finds no other one waiting, and one that waits is due no
earlier than those that do. -/
def InTurn (s : Renderer) : Event → Renderer → Prop
  | .output ptsUs now now' now'' handler, _ =>
      if delayMs (s.players.anchor ptsUs now) ptsUs now' ≤ 0 ∨ handler = false then s.posts = []
      else ∀ p ∈ s.posts,
        p.due ≤ uptimeMillis now'' + delayMs (s.players.anchor ptsUs now) ptsUs now'
  | _, _ => True

/-! ### What a step does -/

inductive Moves (s : Renderer) : Event → Renderer → Prop
  | publish (wallNs ptsUs : Int) : Moves s (.publish wallNs ptsUs)
      { s with players := s.players.publishAudioStart wallNs ptsUs }
  | output {ptsUs now now' now'' : Int} {handler : Bool} :
      Moves s (.output ptsUs now now' now'' handler)
        (s.onOutputBufferAvailable ptsUs now now' now'' handler)
  | run {now : Int} {p : Post Nat} {rest : List (Post Nat)} : pop s.posts = some (p, rest) →
      Moves s (.run now) { s with
        clock := now, posts := rest, released := s.released ++ [p.item] }

theorem moves_of_act {s t : Renderer} {event : Event} (h : s.act event = some t) :
    Moves s event t := by
  cases event with
  | publish wallNs ptsUs =>
      obtain rfl := Option.some.inj h
      exact .publish wallNs ptsUs
  | output ptsUs now now' now'' handler =>
      obtain ⟨-, hsome⟩ := Option.ite_none_right_eq_some.mp h
      obtain rfl := Option.some.inj hsome
      exact .output
  | run now =>
      unfold Renderer.act at h
      dsimp only at h
      split at h
      next p rest hpop =>
        obtain ⟨-, hsome⟩ := Option.ite_none_right_eq_some.mp h
        obtain rfl := Option.some.inj hsome
        exact .run hpop
      next => contradiction

theorem output_cases (s : Renderer) (ptsUs now now' now'' : Int) (handler : Bool) :
    let t := s.onOutputBufferAvailable ptsUs now now' now'' handler
    t.outputs = s.outputs + 1 ∧
      ((t.posts = s.posts ∧ t.released = s.released ++ [s.outputs] ∧
          (InTurn s (.output ptsUs now now' now'' handler) t ↔ s.posts = [])) ∨
        ∃ due, t.posts = s.posts ++ [⟨due, s.outputs⟩] ∧ t.released = s.released ∧
          (InTurn s (.output ptsUs now now' now'' handler) t ↔ ∀ p ∈ s.posts, p.due ≤ due)) := by
  by_cases hnow : delayMs (s.players.anchor ptsUs now) ptsUs now' ≤ 0 ∨ handler = false
  · simp only [Renderer.onOutputBufferAvailable, InTurn, if_pos hnow, Nat.add_sub_cancel]
    exact ⟨trivial, .inl ⟨trivial, trivial, trivial⟩⟩
  · simp only [Renderer.onOutputBufferAvailable, InTurn, if_neg hnow, Nat.add_sub_cancel]
    exact ⟨trivial, .inr ⟨_, rfl, trivial, Iff.rfl⟩⟩

/-! ### In turn -/

/-- What was shown and what waits, in the order of the due times, are all frames in order. -/
structure Queued (s : Renderer) : Prop where
  inOrder : s.released ++ s.posts.map Post.item = List.range s.outputs
  sorted : s.posts.Pairwise fun p q => p.due ≤ q.due

theorem Queued.shown {s : Renderer} (h : Queued s) : Shown s := by
  rw [Shown, ← h.inOrder]
  exact List.prefix_append _ _

theorem step_queued {s t : Renderer} {event : Event} (hs : Queued s) (h : Moves s event t)
    (hturn : InTurn s event t) : Queued t := by
  cases h with
  | publish => exact ⟨hs.inOrder, hs.sorted⟩
  | output =>
      obtain ⟨houtputs, ⟨hposts, hreleased, hiff⟩ | ⟨due, hposts, hreleased, hiff⟩⟩ :=
        output_cases s _ _ _ _ _
      · have hnone := hiff.mp hturn
        have hall := hs.inOrder
        rw [hnone, List.map_nil, List.append_nil] at hall
        constructor
        · rw [hposts, hreleased, houtputs, hnone, List.map_nil, List.append_nil, hall,
            List.range_succ]
        · rw [hposts]
          exact hs.sorted
      · have hlate := hiff.mp hturn
        constructor
        · rw [hposts, hreleased, houtputs, List.map_append, ← List.append_assoc, hs.inOrder,
            List.range_succ]
          rfl
        · rw [hposts, List.pairwise_append]
          refine ⟨hs.sorted, List.pairwise_singleton _ _, ?_⟩
          intro p hp q hq
          obtain rfl := List.mem_singleton.mp hq
          exact hlate p hp
  | run hpop =>
      have hsorted := hs.sorted
      have hall := hs.inOrder
      cases hposts : s.posts with
      | nil =>
          rw [hposts] at hpop
          contradiction
      | cons first posts =>
          rw [hposts] at hsorted hpop hall
          rw [pop_of_sorted hsorted] at hpop
          obtain ⟨rfl, rfl⟩ := Prod.mk.injEq _ _ _ _ ▸ Option.some.inj hpop
          refine ⟨?_, (List.pairwise_cons.mp hsorted).2⟩
          rw [List.map_cons, List.append_cons] at hall
          exact hall

/-! ### Out of turn -/

/-- Frame `e` is or will be shown after frame `f`. -/
inductive Behind (s : Renderer) (e f : Nat) : Prop
  | shown : f ∈ s.released → e ∈ s.posts.map Post.item → Behind s e f
  | due {p q : Post Nat} : p ∈ s.posts → q ∈ s.posts → p.item = e → q.item = f →
      q.due < p.due → Behind s e f

/-- Two frames have been shown in the wrong order, or will be. -/
def Spoilt (s : Renderer) : Prop :=
  ¬s.released.Pairwise (· < ·) ∨ ∃ e f, e < f ∧ Behind s e f

/-- The frames that wait were decoded. -/
def Decoded (s : Renderer) : Prop :=
  ∀ p ∈ s.posts, p.item < s.outputs

theorem step_decoded {s t : Renderer} {event : Event} (hs : Decoded s) (h : Moves s event t) :
    Decoded t := by
  cases h with
  | publish => exact hs
  | output =>
      obtain ⟨houtputs, ⟨hposts, -, -⟩ | ⟨due, hposts, -, -⟩⟩ := output_cases s _ _ _ _ _
      · intro p hp
        rw [hposts] at hp
        rw [houtputs]
        exact Nat.lt_succ_of_lt (hs p hp)
      · intro p hp
        rw [hposts, List.mem_append, List.mem_singleton] at hp
        rw [houtputs]
        rcases hp with hp | rfl
        · exact Nat.lt_succ_of_lt (hs p hp)
        · exact Nat.lt_succ_self _
  | run hpop => exact fun q hq => hs q (((pop_spec hpop).1 q).mpr (.inr hq))

theorem spoilt_of_not_inTurn {s t : Renderer} {event : Event} (hs : Decoded s)
    (h : Moves s event t) (hturn : ¬InTurn s event t) : Spoilt t := by
  cases h with
  | publish => exact absurd trivial hturn
  | run => exact absurd trivial hturn
  | output =>
      right
      obtain ⟨-, ⟨hposts, hreleased, hiff⟩ | ⟨due, hposts, hreleased, hiff⟩⟩ :=
        output_cases s _ _ _ _ _
      · obtain ⟨p, hp⟩ := List.exists_mem_of_ne_nil _ (mt hiff.mpr hturn)
        refine ⟨p.item, s.outputs, hs p hp, .shown ?_ ?_⟩
        · rw [hreleased]
          exact List.mem_append_right _ (List.mem_singleton_self _)
        · rw [hposts]
          exact List.mem_map_of_mem hp
      · have hlater := mt hiff.mpr hturn
        simp only [not_forall, Int.not_le] at hlater
        obtain ⟨p, hp, hless⟩ := hlater
        refine ⟨p.item, s.outputs, hs p hp,
          .due (p := p) (q := ⟨due, s.outputs⟩) ?_ ?_ rfl rfl hless⟩
        · rw [hposts]
          exact List.mem_append_left _ hp
        · rw [hposts]
          exact List.mem_append_right _ (List.mem_singleton_self _)

theorem Behind.grow {s t : Renderer} {e f : Nat} (h : Behind s e f)
    (hreleased : ∀ n ∈ s.released, n ∈ t.released) (hposts : ∀ p ∈ s.posts, p ∈ t.posts) :
    Behind t e f := by
  cases h with
  | shown hf he =>
      obtain ⟨p, hp, rfl⟩ := List.mem_map.mp he
      exact .shown (hreleased f hf) (List.mem_map_of_mem (hposts p hp))
  | due hp hq he hf hless => exact .due (hposts _ hp) (hposts _ hq) he hf hless

theorem step_spoilt {s t : Renderer} {event : Event} (hs : Spoilt s) (h : Moves s event t) :
    Spoilt t := by
  cases h with
  | publish =>
      rcases hs with hshown | ⟨e, f, hless, hbehind⟩
      · exact .inl hshown
      · exact .inr ⟨e, f, hless, hbehind.grow (fun _ hn => hn) (fun _ hp => hp)⟩
  | output =>
      obtain ⟨-, ⟨hposts, hreleased, -⟩ | ⟨due, hposts, hreleased, -⟩⟩ := output_cases s _ _ _ _ _
      · rcases hs with hshown | ⟨e, f, hless, hbehind⟩
        · left
          rw [hreleased, List.pairwise_append]
          exact fun hall => hshown hall.1
        · refine .inr ⟨e, f, hless, hbehind.grow ?_ ?_⟩
          · rw [hreleased]
            exact fun _ hn => List.mem_append_left _ hn
          · rw [hposts]
            exact fun _ hp => hp
      · rcases hs with hshown | ⟨e, f, hless, hbehind⟩
        · left
          rw [hreleased]
          exact hshown
        · refine .inr ⟨e, f, hless, hbehind.grow ?_ ?_⟩
          · rw [hreleased]
            exact fun _ hn => hn
          · rw [hposts]
            exact fun _ hp => List.mem_append_left _ hp
  | run hpop =>
      obtain ⟨hmem, hmin⟩ := pop_spec hpop
      rcases hs with hshown | ⟨e, f, hless, hbehind⟩
      · left
        rw [List.pairwise_append]
        exact fun hall => hshown hall.1
      · cases hbehind with
        | shown hf he =>
            obtain ⟨p, hp, rfl⟩ := List.mem_map.mp he
            rcases (hmem p).mp hp with rfl | hrest
            · left
              rw [List.pairwise_append]
              rintro ⟨-, -, hlast⟩
              have hbefore := hlast f hf p.item (List.mem_singleton_self _)
              omega
            · exact .inr ⟨p.item, f, hless,
                .shown (List.mem_append_left _ hf) (List.mem_map_of_mem hrest)⟩
        | due hp hq he hf hdue =>
            -- the later frame is due before the earlier one, which therefore stays
            rcases (hmem _).mp hp with rfl | hprest
            · have hle := hmin _ hq
              omega
            · rcases (hmem _).mp hq with rfl | hqrest
              · refine .inr ⟨e, f, hless, .shown ?_ ?_⟩
                · rw [← hf]
                  exact List.mem_append_right _ (List.mem_singleton_self _)
                · rw [← he]
                  exact List.mem_map_of_mem hprest
              · exact .inr ⟨e, f, hless, .due hprest hqrest he hf hdue⟩

theorem not_pairwise_of_spoilt {s : Renderer} (hs : Spoilt s) (hposts : s.posts = []) :
    ¬s.released.Pairwise (· < ·) := by
  rcases hs with hshown | ⟨e, f, -, hbehind⟩
  · exact hshown
  · cases hbehind with
    | shown _ he =>
        rw [hposts] at he
        contradiction
    | due hp =>
        rw [hposts] at hp
        contradiction

/-! ### Whole runs -/

/-- A run whose outputs all come in turn shows the frames as they were decoded, at every point;
and one that shows them so and has nothing left to wait is such a run. -/
theorem shown_iff_inTurn {s t : Renderer} {events : List Event} (hs : renderer.init s)
    (h : renderer.Run s events t) :
    ((renderer.restrict InTurn).Run s events t → Shown t) ∧
      (t.posts = [] → t.released.Pairwise (· < ·) →
        (renderer.restrict InTurn).Run s events t) := by
  have hqueued : Queued s := by
    obtain ⟨avSync, opus, clock, rfl⟩ := hs
    exact ⟨rfl, .nil⟩
  have hdecoded : Decoded s := by
    obtain ⟨avSync, opus, clock, rfl⟩ := hs
    intro p hp
    contradiction
  constructor
  · intro hrun
    refine (hrun.invariant (I := fun _ u => Queued u) hqueued ?_).shown
    intro _ u event v _ hu hstep
    exact step_queued hu (moves_of_act hstep.1) hstep.2
  · intro hposts hordered
    have hboth : Decoded t ∧ ((renderer.restrict InTurn).Run s events t ∨ Spoilt t) := by
      clear hposts hordered
      induction h with
      | nil => exact ⟨hdecoded, .inl (.nil s)⟩
      | @snoc u v events event _ hstep ih =>
          obtain ⟨hu, hrun | hspoilt⟩ := ih
          · refine ⟨step_decoded hu (moves_of_act hstep), ?_⟩
            by_cases hturn : InTurn u event v
            · exact .inl (.snoc hrun ⟨hstep, hturn⟩)
            · exact .inr (spoilt_of_not_inTurn hu (moves_of_act hstep) hturn)
          · exact ⟨step_decoded hu (moves_of_act hstep),
              .inr (step_spoilt hspoilt (moves_of_act hstep))⟩
    rcases hboth.2 with hrun | hspoilt
    · exact hrun
    · exact absurd hordered (not_pairwise_of_spoilt hspoilt hposts)

/-! ### A reference that moves -/

/-- The clock is anchored on audio that starts at 1 s, as its seed says. -/
def seeded : Renderer :=
  { players := { avSync := ⟨1000000000, 0⟩ }, clock := 800000000 }

/-- The first frame waits 200 ms; the refined reference is 300 ms earlier; the second one is late
already. -/
def refined : List Event :=
  [.output 0 800000000 800000000 800000000 true, .publish 700000000 0,
    .output 33000 833000000 833000000 833000000 true]

def overtaken : Renderer :=
  (follow (fun event s => s.act event) refined seeded).getD seeded

theorem seeded_init : renderer.init seeded :=
  ⟨⟨1000000000, 0⟩, {}, 800000000, rfl⟩

theorem refined_run : renderer.Run seeded refined overtaken := by
  have hfollow : follow (fun event s => s.act event) refined seeded = some overtaken := by
    decide +kernel
  exact run_of_follow (fun h => h) hfollow

theorem overtaken_not_shown :
    ¬∀ s t events, renderer.init s → renderer.Run s events t → Shown t := by
  intro h
  have hshown := h seeded overtaken refined seeded_init refined_run
  revert hshown
  unfold Shown
  decide +kernel

/-- Without the refinement the second frame waits behind the first. -/
def steady : List Event :=
  [.output 0 800000000 800000000 800000000 true, .output 33000 833000000 833000000 833000000 true,
    .run 1000000000, .run 1033000000]

def inStep : Renderer :=
  (follow (fun event s => s.act event) steady seeded).getD seeded

theorem steady_run : renderer.Run seeded steady inStep := by
  have hfollow : follow (fun event s => s.act event) steady seeded = some inStep := by
    decide +kernel
  exact run_of_follow (fun h => h) hfollow

theorem shown_iff_inTurn_steady : (renderer.restrict InTurn).Run seeded steady inStep :=
  (shown_iff_inTurn seeded_init steady_run).2 (by decide +kernel) (by decide +kernel)

end RemoteControl.Phone.RenderQueue
