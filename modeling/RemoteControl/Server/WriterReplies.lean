import RemoteControl.Server.WriterPasses

/-!
The replies that the writer leaves in the control queue when it finds another queue closed.
-/

namespace RemoteControl.Server.WriterReplies

open RemoteControl.Foundations.ByteStrings
open RemoteControl.Foundations.Fifo
open RemoteControl.Foundations.Transition
open RemoteControl.Foundations.Transition.System
open RemoteControl.Wire.Protocol
open RemoteControl.Server.Connection
open RemoteControl.Server.Outbound
open RemoteControl.Server.WireOrder
open RemoteControl.Server.WriterPasses

/-! ### Replies before the end -/

/-- A text among the control messages. -/
def IsText (s : Passes) (k : Nat) : Prop :=
  ∃ msg, s.control[k]? = some (.msg msg)

def AllWritten (s : Passes) : Prop :=
  ∀ k, IsText s k → (.control, k) ∈ s.wire

/-- No queue loses its last sender that is empty and polled before the control queue, while a
text waits in that one. -/
def Unhurried (s : Passes) (_ : Event) (t : Passes) : Prop :=
  ∀ lane, s.lanes.hasSender lane = true → t.lanes.hasSender lane = false →
    Upcoming s.lanes lane → (s.lanes.queue lane).waiting = [] →
      ∀ k, IsText s k → k < (s.lanes.queue .control).taken.length

/-! ### Senders -/

section

variable {json : ServerMsg → String} {writer : Writer}

/-- The connection keeps its senders until it returns, and a streamer its clone. -/
structure Held (s : Passes) : Prop where
  running : s.dropped = 0 → ∀ lane, s.lanes.hasSender lane = true
  bulk : s.lanes.hasSender .bulk = false → s.streamers = 0
  offers : s.offers.length ≤ s.streamers

theorem Held.congr {s t : Passes} (h : Held s) (hsender : t.lanes.hasSender = s.lanes.hasSender)
    (hdropped : t.dropped = s.dropped) (hstreamers : t.streamers = s.streamers)
    (hoffers : t.offers.length ≤ s.offers.length) : Held t where
  running := by
    rw [hsender, hdropped]
    exact h.running
  bulk := by
    rw [hsender, hstreamers]
    exact h.bulk
  offers := by
    rw [hstreamers]
    exact hoffers.trans h.offers

theorem poll_held {s t : Passes} (h : Held s) (hmove : PollMove json writer s t) : Held t := by
  cases hmove <;> exact h.congr rfl rfl rfl (Nat.le_refl _)

theorem step_held {s t : Passes} {event : Event} (hsteady : Steady json writer s) (h : Held s)
    (ht : (passes json writer).step s event t) : Held t := by
  change s.act json writer event = some t at ht
  cases event with
  | push out =>
      obtain ⟨-, ht⟩ := Option.ite_none_right_eq_some.mp ht
      split at ht <;> obtain rfl := Option.some.inj ht
      · exact h.congr rfl rfl rfl (Nat.le_refl _)
      · exact h
  | offer bytes =>
      obtain ⟨-, ht⟩ := Option.ite_none_right_eq_some.mp ht
      split at ht <;> obtain rfl := Option.some.inj ht
      · exact h.congr rfl rfl rfl (Nat.le_refl _)
      · exact h
  | spawn =>
      obtain ⟨hdropped, ht⟩ := Option.ite_none_right_eq_some.mp ht
      obtain rfl := Option.some.inj ht
      refine ⟨h.running, fun hbulk => ?_, Nat.le_succ_of_le h.offers⟩
      have hheld := h.running hdropped .bulk
      rw [show s.lanes.hasSender .bulk = false from hbulk] at hheld
      contradiction
  | beginChunk bytes =>
      obtain ⟨hlt, ht⟩ := Option.ite_none_right_eq_some.mp ht
      obtain rfl := Option.some.inj ht
      refine ⟨h.running, h.bulk, ?_⟩
      rw [List.length_append, List.length_singleton]
      exact hlt
  | accept i =>
      obtain ⟨o, -, ht⟩ := Option.bind_eq_some_iff.mp ht
      have hlength : (s.offers.eraseIdx i).length ≤ s.offers.length :=
        (List.eraseIdx_sublist _ _).length_le
      split at ht
      · obtain ⟨-, ht⟩ := Option.ite_none_right_eq_some.mp ht
        obtain rfl := Option.some.inj ht
        exact h.congr rfl rfl rfl hlength
      · obtain rfl := Option.some.inj ht
        exact h.congr rfl rfl rfl hlength
  | ended =>
      obtain ⟨hlt, ht⟩ := Option.ite_none_right_eq_some.mp ht
      obtain rfl := Option.some.inj ht
      refine ⟨fun hdropped => ?_, fun hbulk => ?_, Nat.le_sub_one_of_lt hlt⟩
      · have hpositive : ¬(s.streamers = 1 ∧ 0 < s.dropped) := fun hlast =>
          Nat.ne_of_gt hlast.2 hdropped
        simp only [if_neg hpositive]
        exact h.running hdropped
      · dsimp only at hbulk ⊢
        split at hbulk
        next hlast => rw [hlast.1]
        · have hnone := h.bulk hbulk
          omega
  | drop =>
      change s.drop = some t at ht
      unfold Passes.drop at ht
      split at ht
      · obtain rfl := Option.some.inj ht
        refine ⟨fun hdropped => absurd hdropped (Nat.succ_ne_zero _), fun hbulk => ?_, h.offers⟩
        dsimp only at hbulk
        split at hbulk
        next hnone => exact hnone
        · exact h.bulk hbulk
      · obtain rfl := Option.some.inj ht
        exact ⟨fun hdropped => absurd hdropped (Nat.succ_ne_zero _), h.bulk, h.offers⟩
      · obtain rfl := Option.some.inj ht
        exact ⟨fun hdropped => absurd hdropped (Nat.succ_ne_zero _), h.bulk, h.offers⟩
      · contradiction
  | poll =>
      obtain ⟨-, ht⟩ := Option.ite_none_right_eq_some.mp ht
      obtain rfl := Option.some.inj ht
      exact poll_held h hsteady.pollMove
  | sinkFails =>
      obtain ⟨-, ht⟩ := Option.ite_none_right_eq_some.mp ht
      obtain rfl := Option.some.inj ht
      exact h.congr rfl rfl rfl (Nat.le_refl _)

/-! ### Replies that are written or lost -/

/-- Every text is taken. -/
def TextsTaken (s : Passes) : Prop :=
  ∀ k, IsText s k → k < (s.lanes.queue .control).taken.length

/-- The writer will find this queue closed before it looks at the control queue again. -/
def Ending (s : Passes) (lane : Lane) : Prop :=
  s.lanes.hasSender lane = false ∧ Upcoming s.lanes lane ∧ (s.lanes.queue lane).waiting = []

/-- If the writer is about to end or has ended, every text is taken. -/
structure Answered (s : Passes) : Prop where
  ending : ∀ lane, Ending s lane → TextsTaken s
  finished : s.writing = false → s.failed = true ∨ 0 < s.dropped ∧ TextsTaken s

/-- The writer is about to end or has ended, and a text is not taken. -/
def Lost (s : Passes) : Prop :=
  s.failed = true ∨
    0 < s.dropped ∧ ¬ TextsTaken s ∧ (s.writing = false ∨ ∃ lane, Ending s lane)

/-- The same texts and the same place of the writer. -/
structure SamePlace (s t : Passes) : Prop where
  queue : t.lanes.queue = s.lanes.queue
  arm : t.lanes.arm = s.lanes.arm
  control : t.control = s.control
  writing : t.writing = s.writing
  failed : t.failed = s.failed

theorem SamePlace.textsTaken {s t : Passes} (h : SamePlace s t) :
    TextsTaken t ↔ TextsTaken s := by
  simp only [TextsTaken, IsText, h.queue, h.control]

theorem SamePlace.ending {s t : Passes} (h : SamePlace s t) {lane : Lane}
    (hsender : t.lanes.hasSender lane = s.lanes.hasSender lane) :
    Ending t lane ↔ Ending s lane := by
  simp only [Ending, Upcoming, h.queue, h.arm, hsender]

theorem SamePlace.answered {s t : Passes} (h : SamePlace s t) (hs : Answered s)
    (hdropped : s.dropped ≤ t.dropped)
    (hclose : ∀ lane, s.lanes.hasSender lane = true → t.lanes.hasSender lane = false →
      Upcoming s.lanes lane → (s.lanes.queue lane).waiting = [] → TextsTaken s) :
    Answered t where
  ending lane hending := by
    rw [h.textsTaken]
    cases hsender : s.lanes.hasSender lane with
    | false =>
        refine hs.ending lane ((h.ending ?_).mp hending)
        rw [hsender, hending.1]
    | true =>
        obtain ⟨hgone, hupcoming, hempty⟩ := hending
        simp only [Upcoming, h.arm, h.queue] at hupcoming
        exact hclose lane hsender hgone hupcoming (h.queue ▸ hempty)
  finished hover := by
    rw [h.textsTaken, h.failed]
    exact (hs.finished (h.writing ▸ hover)).imp_right
      (And.imp_left fun hpositive => Nat.lt_of_lt_of_le hpositive hdropped)

theorem SamePlace.lost {s t : Passes} (h : SamePlace s t) (hs : Lost s)
    (hdropped : s.dropped ≤ t.dropped)
    (hsender : ∀ lane, s.lanes.hasSender lane = false → t.lanes.hasSender lane = false) :
    Lost t := by
  refine hs.imp (h.failed ▸ ·) ?_
  rintro ⟨hpositive, htexts, hplace⟩
  refine ⟨Nat.lt_of_lt_of_le hpositive hdropped, mt h.textsTaken.mp htexts, ?_⟩
  refine hplace.imp (h.writing ▸ ·) ?_
  rintro ⟨lane, hending⟩
  exact ⟨lane, (h.ending ((hsender lane hending.1).trans hending.1.symm)).mpr hending⟩

theorem ending_of_enter {s : Passes} {lane other : Lane} {bytes : Bytes} {stamp : Nat}
    (h : Ending (s.enter lane bytes stamp) other) : Ending s other ∧ other ≠ lane := by
  obtain ⟨hsender, ⟨hother, hplace⟩, hempty⟩ := h
  have hne : other ≠ lane := by
    rintro rfl
    simp [Passes.enter] at hempty
  simp only [Passes.enter, enqueue_ne _ hne] at hempty
  refine ⟨⟨hsender, ⟨hother, hplace.imp id ?_⟩, hempty⟩, hne⟩
  rintro ⟨harm, hbulk, hvideo⟩
  refine ⟨harm, hbulk, ?_⟩
  by_cases heq : .video = lane
  · subst heq
    simp [Passes.enter] at hvideo
  · simpa [Passes.enter, heq] using hvideo

theorem textsTaken_enter {s : Passes} {lane : Lane} (hlane : lane ≠ .control) {bytes : Bytes}
    {stamp : Nat} : TextsTaken (s.enter lane bytes stamp) ↔ TextsTaken s := by
  simp [TextsTaken, IsText, Passes.enter, hlane.symm]

theorem textsTaken_of_empty {s : Passes} (h : Steady json writer s)
    (hempty : (s.lanes.queue .control).waiting = []) : TextsTaken s := by
  rintro k ⟨msg, hmsg⟩
  have hlength := congrArg List.length h.control
  rw [Queue.sent, hempty, List.append_nil, List.length_map] at hlength
  have hlt := (List.getElem?_eq_some_iff.mp hmsg).1
  omega

theorem poll_answered {s t : Passes} (hsteady : Steady json writer s) (hheld : Held s)
    (h : Answered s) (hwriting : s.writing = true) (hmove : PollMove json writer s t) :
    Answered t := by
  cases hmove with
  | control harm hpop hout =>
      refine ⟨fun lane hending => absurd hending.2.1 (not_upcoming_control rfl lane), ?_⟩
      intro hover
      rw [show s.writing = false from hover] at hwriting
      contradiction
  | other harm hpop =>
      refine ⟨fun lane hending => absurd hending.2.1 (not_upcoming_control rfl lane), ?_⟩
      intro hover
      rw [show s.writing = false from hover] at hwriting
      contradiction
  | pending hempty hsender =>
      have htexts (harm : s.lanes.arm = .control) : TextsTaken s :=
        textsTaken_of_empty hsteady (harm ▸ hempty)
      constructor
      · rintro lane ⟨hgone, hupcoming, hlane⟩
        cases harm : s.lanes.arm with
        | control => exact htexts harm
        | video =>
            rw [harm] at hempty
            simp only [Upcoming, harm, Lane.next] at hupcoming
            obtain ⟨hne, rfl | ⟨hvideo, -⟩⟩ := hupcoming
            · exact h.ending .bulk ⟨hgone, ⟨hne, .inr ⟨harm, rfl, hempty⟩⟩, hlane⟩
            · contradiction
        | bulk =>
            rw [harm] at hupcoming
            exact absurd hupcoming (not_upcoming_control rfl lane)
      · intro hover
        rw [show s.writing = false from hover] at hwriting
        contradiction
  | closed hempty hsender =>
      have hdropped : 0 < s.dropped := by
        refine Nat.pos_of_ne_zero fun hzero => ?_
        rw [hheld.running hzero s.lanes.arm] at hsender
        contradiction
      have htexts : TextsTaken s := by
        by_cases harm : s.lanes.arm = .control
        · exact textsTaken_of_empty hsteady (harm ▸ hempty)
        · exact h.ending s.lanes.arm ⟨hsender, ⟨harm, .inl rfl⟩, hempty⟩
      exact ⟨h.ending, fun _ => .inr ⟨hdropped, htexts⟩⟩

theorem poll_lost {s t : Passes} (h : Lost s)
    (hwriting : s.writing = true) (hmove : PollMove json writer s t) : Lost t := by
  rcases h with hfailed | ⟨hdropped, htexts, hplace⟩
  · cases hmove <;> exact .inl hfailed
  · obtain ⟨lane, hgone, ⟨hlane, hnext⟩, hempty⟩ :=
      hplace.resolve_left fun hover => by rw [hwriting] at hover; contradiction
    have hempties : (s.lanes.queue s.lanes.arm).waiting = [] := by
      rcases hnext with rfl | ⟨harm, -, hvideo⟩
      · exact hempty
      · rw [harm]
        exact hvideo
    cases hmove with
    | control harm hpop hout =>
        rcases hnext with rfl | ⟨hvideo, -⟩
        · exact absurd harm hlane
        · rw [harm] at hvideo
          contradiction
    | other harm hpop =>
        rw [Queue.pop?_waiting hpop] at hempties
        contradiction
    | pending _ hsender =>
        refine .inr ⟨hdropped, htexts, .inr ⟨lane, hgone, ⟨hlane, .inl ?_⟩, hempty⟩⟩
        rcases hnext with rfl | ⟨harm, rfl, -⟩
        · rw [hsender] at hgone
          contradiction
        · show s.lanes.arm.next = .bulk
          rw [harm]
          rfl
    | closed _ _ => exact .inr ⟨hdropped, htexts, .inl rfl⟩

theorem drop_positive {s t : Passes} (h : s.drop = some t) :
    s.dropped ≤ t.dropped ∧ 0 < t.dropped ∧ SamePlace s t ∧
      ∀ lane, s.lanes.hasSender lane = false → t.lanes.hasSender lane = false := by
  have hgone {lane other : Lane} (hother : s.lanes.hasSender other = false) :
      (s.lanes.dropSenders lane).hasSender other = false := by
    show Function.update s.lanes.hasSender lane false other = false
    by_cases heq : other = lane
    · rw [heq, Function.update_self]
    · rw [Function.update_of_ne heq]
      exact hother
  unfold Passes.drop at h
  split at h
  next hdropped =>
    obtain rfl := Option.some.inj h
    refine ⟨by simp [hdropped], Nat.one_pos, ?_, fun lane hlane => ?_⟩
    · split <;> exact ⟨rfl, rfl, rfl, rfl, rfl⟩
    · dsimp only
      split
      · exact hgone hlane
      · exact hlane
  next hdropped =>
    obtain rfl := Option.some.inj h
    exact ⟨by simp [hdropped], Nat.two_pos, ⟨rfl, rfl, rfl, rfl, rfl⟩, fun _ => hgone⟩
  next hdropped =>
    obtain rfl := Option.some.inj h
    exact ⟨by simp [hdropped], Nat.succ_pos 2, ⟨rfl, rfl, rfl, rfl, rfl⟩, fun _ => hgone⟩
  · contradiction

theorem ended_samePlace {s t : Passes} (ht : s.act json writer .ended = some t) :
    SamePlace s t ∧ t.dropped = s.dropped ∧
      (∀ lane, s.lanes.hasSender lane = false → t.lanes.hasSender lane = false) ∧
      ∀ lane, s.lanes.hasSender lane = true → t.lanes.hasSender lane = false → 0 < s.dropped := by
  obtain ⟨-, ht⟩ := Option.ite_none_right_eq_some.mp ht
  obtain rfl := Option.some.inj ht
  dsimp only
  split
  next hlast =>
    refine ⟨⟨rfl, rfl, rfl, rfl, rfl⟩, rfl, fun lane hlane => ?_, fun _ _ _ => hlast.2⟩
    show Function.update s.lanes.hasSender .bulk false lane = false
    by_cases heq : lane = .bulk
    · rw [heq, Function.update_self]
    · rw [Function.update_of_ne heq]
      exact hlane
  · refine ⟨⟨rfl, rfl, rfl, rfl, rfl⟩, rfl, fun _ hlane => hlane, fun lane hheld hgone => ?_⟩
    rw [hheld] at hgone
    contradiction

theorem step_answered {s t : Passes} {event : Event} (hsteady : Steady json writer s)
    (hheld : Held s) (h : Answered s) (ht : (passes json writer).step s event t)
    (hunhurried : Unhurried s event t) : Answered t := by
  change s.act json writer event = some t at ht
  have hrunning (hdropped : s.dropped = 0) {lane : Lane}
      (hgone : s.lanes.hasSender lane = false) : False := by
    rw [hheld.running hdropped lane] at hgone
    contradiction
  have hquiet {t : Passes} (hsame : SamePlace s t) (hdropped : s.dropped ≤ t.dropped)
      (hsender : t.lanes.hasSender = s.lanes.hasSender) : Answered t := by
    refine hsame.answered h hdropped fun lane hhas hgone => ?_
    rw [hsender, hhas] at hgone
    contradiction
  cases event with
  | push out =>
      obtain ⟨hdropped, ht⟩ := Option.ite_none_right_eq_some.mp ht
      split at ht
      next hwriting =>
        obtain rfl := Option.some.inj ht
        refine ⟨fun lane hending => (hrunning hdropped hending.1).elim, fun hover => ?_⟩
        rw [show s.writing = false from hover] at hwriting
        contradiction
      · obtain rfl := Option.some.inj ht
        exact h
  | offer bytes =>
      obtain ⟨hdropped, ht⟩ := Option.ite_none_right_eq_some.mp ht
      split at ht
      next hroom =>
        obtain rfl := Option.some.inj ht
        refine ⟨fun lane hending => (hrunning hdropped hending.1).elim, fun hover => ?_⟩
        rw [show s.writing = false from hover] at hroom
        exact absurd hroom.1 (by simp)
      · obtain rfl := Option.some.inj ht
        exact h
  | spawn =>
      obtain ⟨-, ht⟩ := Option.ite_none_right_eq_some.mp ht
      obtain rfl := Option.some.inj ht
      exact hquiet ⟨rfl, rfl, rfl, rfl, rfl⟩ (Nat.le_refl _) rfl
  | beginChunk bytes =>
      obtain ⟨-, ht⟩ := Option.ite_none_right_eq_some.mp ht
      obtain rfl := Option.some.inj ht
      exact hquiet ⟨rfl, rfl, rfl, rfl, rfl⟩ (Nat.le_refl _) rfl
  | accept i =>
      obtain ⟨o, -, ht⟩ := Option.bind_eq_some_iff.mp ht
      have hrest : Answered { s with offers := s.offers.eraseIdx i } :=
        hquiet ⟨rfl, rfl, rfl, rfl, rfl⟩ (Nat.le_refl _) rfl
      split at ht
      next hwriting =>
        obtain ⟨-, ht⟩ := Option.ite_none_right_eq_some.mp ht
        obtain rfl := Option.some.inj ht
        refine ⟨fun lane hending => ?_, fun hover => ?_⟩
        · rw [textsTaken_enter (by decide)]
          exact hrest.ending lane (ending_of_enter hending).1
        · rw [show s.writing = false from hover] at hwriting
          contradiction
      · obtain rfl := Option.some.inj ht
        exact hrest
  | ended =>
      obtain ⟨hsame, hdropped, -, -⟩ := ended_samePlace ht
      exact hsame.answered h (Nat.le_of_eq hdropped.symm) hunhurried
  | drop =>
      obtain ⟨hdropped, -, hsame, -⟩ := drop_positive ht
      exact hsame.answered h hdropped hunhurried
  | poll =>
      obtain ⟨hwriting, ht⟩ := Option.ite_none_right_eq_some.mp ht
      obtain rfl := Option.some.inj ht
      exact poll_answered hsteady hheld h hwriting hsteady.pollMove
  | sinkFails =>
      obtain ⟨-, ht⟩ := Option.ite_none_right_eq_some.mp ht
      obtain rfl := Option.some.inj ht
      exact ⟨h.ending, fun _ => .inl rfl⟩

theorem step_lost {s t : Passes} {event : Event} (hsteady : Steady json writer s)
    (hheld : Held s) (h : Lost s) (ht : (passes json writer).step s event t) : Lost t := by
  change s.act json writer event = some t at ht
  have hfailed (hfailed : s.failed = true) (hkept : t.failed = s.failed) : Lost t :=
    .inl (hkept.trans hfailed)
  have hquiet {t : Passes} (hsame : SamePlace s t) (hdropped : s.dropped ≤ t.dropped)
      (hsender : t.lanes.hasSender = s.lanes.hasSender) : Lost t :=
    hsame.lost h hdropped fun lane hgone => by rw [hsender]; exact hgone
  -- A connection that may still push has not lost anything but by its sink.
  have hearly (hdropped : s.dropped = 0) : s.failed = true :=
    h.resolve_right fun hlost => Nat.ne_of_gt hlost.1 hdropped
  cases event with
  | push out =>
      obtain ⟨hdropped, ht⟩ := Option.ite_none_right_eq_some.mp ht
      split at ht <;> obtain rfl := Option.some.inj ht <;> exact hfailed (hearly hdropped) rfl
  | offer bytes =>
      obtain ⟨hdropped, ht⟩ := Option.ite_none_right_eq_some.mp ht
      split at ht <;> obtain rfl := Option.some.inj ht <;> exact hfailed (hearly hdropped) rfl
  | spawn =>
      obtain ⟨-, ht⟩ := Option.ite_none_right_eq_some.mp ht
      obtain rfl := Option.some.inj ht
      exact hquiet ⟨rfl, rfl, rfl, rfl, rfl⟩ (Nat.le_refl _) rfl
  | beginChunk bytes =>
      obtain ⟨-, ht⟩ := Option.ite_none_right_eq_some.mp ht
      obtain rfl := Option.some.inj ht
      exact hquiet ⟨rfl, rfl, rfl, rfl, rfl⟩ (Nat.le_refl _) rfl
  | accept i =>
      obtain ⟨o, ho, ht⟩ := Option.bind_eq_some_iff.mp ht
      split at ht
      next hwriting =>
        obtain ⟨-, ht⟩ := Option.ite_none_right_eq_some.mp ht
        obtain rfl := Option.some.inj ht
        rcases h with hsink | ⟨hdropped, htexts, hplace⟩
        · exact .inl hsink
        · obtain ⟨lane, hgone, ⟨hlane, hnext⟩, hempty⟩ :=
            hplace.resolve_left fun hover => by rw [hwriting] at hover; contradiction
          -- Somebody who waits to send still holds a sender of the bulk queue.
          have hne : lane ≠ .bulk := by
            rintro rfl
            have hnone := hheld.offers
            rw [hheld.bulk hgone, Nat.le_zero, List.length_eq_zero_iff] at hnone
            rw [hnone] at ho
            contradiction
          have hvideo : s.lanes.arm = lane := hnext.resolve_right fun hbulk => hne hbulk.2.1
          refine .inr ⟨hdropped, mt (textsTaken_enter (by decide)).mp htexts, .inr ⟨lane, hgone,
            ⟨hlane, .inl hvideo⟩, ?_⟩⟩
          simpa [Passes.enter, hne] using hempty
      · obtain rfl := Option.some.inj ht
        exact hquiet ⟨rfl, rfl, rfl, rfl, rfl⟩ (Nat.le_refl _) rfl
  | ended =>
      obtain ⟨hsame, hdropped, hsender, -⟩ := ended_samePlace ht
      exact hsame.lost h (Nat.le_of_eq hdropped.symm) hsender
  | drop =>
      obtain ⟨hdropped, -, hsame, hsender⟩ := drop_positive ht
      exact hsame.lost h hdropped hsender
  | poll =>
      obtain ⟨hwriting, ht⟩ := Option.ite_none_right_eq_some.mp ht
      obtain rfl := Option.some.inj ht
      exact poll_lost h hwriting hsteady.pollMove
  | sinkFails =>
      obtain ⟨-, ht⟩ := Option.ite_none_right_eq_some.mp ht
      obtain rfl := Option.some.inj ht
      exact .inl rfl

theorem lost_of_not_unhurried {s t : Passes} {event : Event}
    (ht : (passes json writer).step s event t) (hhurried : ¬ Unhurried s event t) : Lost t := by
  change s.act json writer event = some t at ht
  unfold Unhurried at hhurried
  push Not at hhurried
  obtain ⟨lane, hhas, hgone, hupcoming, hempty, k, htext, hk⟩ := hhurried
  have hlost (hsame : SamePlace s t) (hdropped : 0 < t.dropped) : Lost t := by
    refine .inr ⟨hdropped, ?_, .inr ⟨lane, hgone, ?_, ?_⟩⟩
    · rw [hsame.textsTaken]
      exact fun htexts => absurd (htexts k htext) (Nat.not_lt.mpr hk)
    · simpa only [Upcoming, hsame.arm, hsame.queue] using hupcoming
    · rw [hsame.queue]
      exact hempty
  have hkept (hsender : t.lanes.hasSender = s.lanes.hasSender) : Lost t := by
    rw [hsender, hhas] at hgone
    contradiction
  cases event with
  | push out =>
      obtain ⟨-, ht⟩ := Option.ite_none_right_eq_some.mp ht
      split at ht <;> obtain rfl := Option.some.inj ht <;> exact hkept rfl
  | offer bytes =>
      obtain ⟨-, ht⟩ := Option.ite_none_right_eq_some.mp ht
      split at ht <;> obtain rfl := Option.some.inj ht <;> exact hkept rfl
  | spawn =>
      obtain ⟨-, ht⟩ := Option.ite_none_right_eq_some.mp ht
      obtain rfl := Option.some.inj ht
      exact hkept rfl
  | beginChunk bytes =>
      obtain ⟨-, ht⟩ := Option.ite_none_right_eq_some.mp ht
      obtain rfl := Option.some.inj ht
      exact hkept rfl
  | accept i =>
      obtain ⟨o, -, ht⟩ := Option.bind_eq_some_iff.mp ht
      split at ht
      · obtain ⟨-, ht⟩ := Option.ite_none_right_eq_some.mp ht
        obtain rfl := Option.some.inj ht
        exact hkept rfl
      · obtain rfl := Option.some.inj ht
        exact hkept rfl
  | ended =>
      obtain ⟨hsame, hdropped, -, hpositive⟩ := ended_samePlace ht
      exact hlost hsame (hdropped ▸ hpositive lane hhas hgone)
  | drop =>
      obtain ⟨-, hpositive, hsame, -⟩ := drop_positive ht
      exact hlost hsame hpositive
  | poll =>
      obtain ⟨-, ht⟩ := Option.ite_none_right_eq_some.mp ht
      obtain rfl := Option.some.inj ht
      refine hkept ?_
      unfold Passes.poll
      rcases poll_cases s.lanes with ⟨m, rest, -, hpoll⟩ | ⟨-, -, hpoll⟩ | ⟨-, -, hpoll⟩
      · simp only [hpoll]
        cases handle writer m <;> rfl
      · simp only [hpoll]
      · simp only [hpoll]
  | sinkFails =>
      obtain ⟨-, ht⟩ := Option.ite_none_right_eq_some.mp ht
      obtain rfl := Option.some.inj ht
      exact hkept rfl

theorem answered_init : Answered {} where
  ending lane hending := absurd hending.1 (by simp)
  finished hover := by contradiction

theorem held_init : Held {} :=
  ⟨fun _ _ => rfl, fun _ => rfl, Nat.le_refl _⟩

theorem run_held {t : Passes} {events : List Event} (hrun : (passes json writer).Run {} events t) :
    Steady json writer t ∧ Held t := by
  apply hrun.invariant (I := fun _ t => Steady json writer t ∧ Held t)
  · exact ⟨steady_init, held_init⟩
  · intro _ s event u _ ⟨hsteady, hheld⟩ hstep
    exact ⟨step_steady hsteady hstep, step_held hsteady hheld hstep⟩

theorem answered_of_run {t : Passes} {events : List Event}
    (hrun : ((passes json writer).restrict Unhurried).Run {} events t) : Answered t := by
  apply hrun.invariant (I := fun _ t => Answered t)
  · exact answered_init
  · intro _ s event u hprev hanswered hstep
    obtain ⟨hsteady, hheld⟩ := run_held hprev.of_restrict
    exact step_answered hsteady hheld hanswered hstep.1 hstep.2

theorem unhurried_or_lost {t : Passes} {events : List Event}
    (hrun : (passes json writer).Run {} events t) :
    ((passes json writer).restrict Unhurried).Run {} events t ∨ Lost t := by
  apply hrun.invariant
    (I := fun events t => ((passes json writer).restrict Unhurried).Run {} events t ∨ Lost t)
  · exact .inl (.nil _)
  · intro _ s event u hprev hplace hstep
    obtain ⟨hsteady, hheld⟩ := run_held hprev
    rcases hplace with hkept | hlost
    · by_cases hunhurried : Unhurried s event u
      · exact .inl (.snoc hkept ⟨hstep, hunhurried⟩)
      · exact .inr (lost_of_not_unhurried hstep hunhurried)
    · exact .inr (step_lost hsteady hheld hlost hstep)

theorem allWritten_iff {s : Passes} (h : Steady json writer s) : AllWritten s ↔ TextsTaken s := by
  constructor
  · intro hwritten k htext
    exact h.taken k (hwritten k htext)
  · intro htaken k htext
    obtain ⟨msg, hmsg⟩ := htext
    exact h.written k ⟨.msg msg, hmsg, handle_text writer msg⟩ (htaken k ⟨msg, hmsg⟩)

end

/-- A run that the writer has ended has written every text exactly if no queue was closed too
early. -/
theorem written_iff_unhurried {json : ServerMsg → String} {writer : Writer} {t : Passes}
    {events : List Event} (hrun : (passes json writer).Run {} events t)
    (hended : t.writing = false) (hsink : t.failed = false) :
    AllWritten t ↔ ((passes json writer).restrict Unhurried).Run {} events t := by
  have hfailed : t.failed ≠ true := by simp [hsink]
  rw [allWritten_iff (run_held hrun).1]
  constructor
  · intro htaken
    apply (unhurried_or_lost hrun).resolve_right
    rintro (hsink | ⟨-, hlost, -⟩)
    · exact hfailed hsink
    · exact hlost htaken
  · intro hunhurried
    exact (((answered_of_run hunhurried).finished hended).resolve_left hfailed).2

/-! ### A phone that is rejected -/

/-- `run_connection` rejects the phone and returns. -/
def rejecting : List Event :=
  [.push (.msg (.error .badPairingCode "bad pairing code")), .drop, .drop]

/-- The writer has found the control queue empty just before, and finds the A/V queue closed. -/
def unheard : Passes :=
  (follow (fun event s => s.act (fun _ => "") .lan event)
    ([.poll] ++ rejecting ++ [.poll]) {}).getD {}

theorem unheard_run :
    (passes (fun _ => "") .lan).Run {} ([.poll] ++ rejecting ++ [.poll]) unheard :=
  run_of_follow (fun h => h) rfl

theorem unheard_not_written :
    (passes (fun _ => "") .lan).Run {} ([.poll] ++ rejecting ++ [.poll]) unheard ∧
      unheard.writing = false ∧ unheard.failed = false ∧ ¬ AllWritten unheard := by
  refine ⟨unheard_run, by decide +kernel, by decide +kernel, fun hwritten => ?_⟩
  have hwire : unheard.wire = [] := by decide +kernel
  have hmem := hwritten 0 ⟨_, rfl⟩
  rw [hwire] at hmem
  exact List.not_mem_nil hmem

/-- The writer comes to the control queue after the phone is rejected. -/
def heard : Passes :=
  (follow (fun event s => s.act (fun _ => "") .lan event)
    (rejecting ++ [.poll, .poll, .poll]) {}).getD {}

theorem written_iff_unhurried_heard :
    ((passes (fun _ => "") .lan).restrict Unhurried).Run {} (rejecting ++ [.poll, .poll, .poll])
      heard := by
  have hrun : (passes (fun _ => "") .lan).Run {} (rejecting ++ [.poll, .poll, .poll]) heard :=
    run_of_follow (fun h => h) rfl
  refine (written_iff_unhurried hrun (by decide +kernel) (by decide +kernel)).mp ?_
  have hwire : heard.wire = [(.control, 0)] := by decide +kernel
  have hcontrol : heard.control = [.msg (.error .badPairingCode "bad pairing code")] := by rfl
  rintro k ⟨msg, hmsg⟩
  rw [hcontrol] at hmsg
  obtain rfl : k = 0 := Nat.lt_one_iff.mp (List.getElem?_eq_some_iff.mp hmsg).1
  rw [hwire]
  exact List.mem_singleton_self _

end RemoteControl.Server.WriterReplies
