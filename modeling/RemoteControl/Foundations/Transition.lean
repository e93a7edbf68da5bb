import Mathlib.Data.List.Basic

/-!
Labelled transition systems, their runs and reachable states, and the rules by which a fact
about one step becomes a fact about every run.
-/

namespace RemoteControl.Foundations.Transition

universe u v w

/-- A labelled transition system with a set of initial states. -/
structure System (State : Type u) (Label : Type v) where
  init : State → Prop
  step : State → Label → State → Prop

namespace System

variable {State : Type u} {Label : Type v} (M : System State Label)

/-- `M.Run s labels t`: the labels, in order, lead from `s` to `t`. -/
inductive Run : State → List Label → State → Prop
  | nil (s : State) : Run s [] s
  | snoc {s t u : State} {labels : List Label} {label : Label} :
      Run s labels t → M.step t label u → Run s (labels ++ [label]) u

/-- The states some run from an initial state ends in. -/
inductive Reachable : State → Prop
  | init {s : State} : M.init s → Reachable s
  | step {s t : State} {label : Label} : Reachable s → M.step s label t → Reachable t

/-- The system that only takes those steps of `M` which meet a condition. Its runs are the
runs of `M` whose steps all meet the condition. -/
def restrict (condition : State → Label → State → Prop) : System State Label where
  init := M.init
  step s label t := M.step s label t ∧ condition s label t

variable {M}

theorem Run.single {s t : State} {label : Label} (h : M.step s label t) : M.Run s [label] t :=
  .snoc (.nil s) h

theorem Run.append {s t u : State} {xs ys : List Label}
    (hxs : M.Run s xs t) (hys : M.Run t ys u) : M.Run s (xs ++ ys) u := by
  induction hys with
  | nil => simpa using hxs
  | snoc _ hstep ih =>
      rw [← List.append_assoc]
      exact .snoc ih hstep

theorem run_nil_iff {s t : State} : M.Run s [] t ↔ t = s := by
  constructor
  · generalize hlabels : ([] : List Label) = labels
    intro h
    cases h with
    | nil => rfl
    | snoc => simp at hlabels
  · rintro rfl
    exact .nil _

theorem run_concat_iff {s u : State} {labels : List Label} {label : Label} :
    M.Run s (labels ++ [label]) u ↔ ∃ t, M.Run s labels t ∧ M.step t label u := by
  constructor
  · generalize hall : labels ++ [label] = all
    intro h
    cases h with
    | nil => simp at hall
    | snoc hrun hstep =>
        obtain ⟨rfl, hlast⟩ := List.append_inj' hall rfl
        obtain rfl := List.singleton_inj.mp hlast
        exact ⟨_, hrun, hstep⟩
  · rintro ⟨t, hrun, hstep⟩
    exact .snoc hrun hstep

theorem run_append_iff {s u : State} {xs ys : List Label} :
    M.Run s (xs ++ ys) u ↔ ∃ t, M.Run s xs t ∧ M.Run t ys u := by
  constructor
  · intro h
    induction ys generalizing xs with
    | nil =>
        rw [List.append_nil] at h
        exact ⟨u, h, .nil u⟩
    | cons y ys ih =>
        rw [List.append_cons] at h
        obtain ⟨mid, hmid, hrest⟩ := ih h
        obtain ⟨t, hxs, hstep⟩ := run_concat_iff.mp hmid
        exact ⟨t, hxs, (Run.single hstep).append hrest⟩
  · rintro ⟨t, hxs, hys⟩
    exact hxs.append hys

theorem run_cons_iff {s u : State} {labels : List Label} {label : Label} :
    M.Run s (label :: labels) u ↔ ∃ t, M.step s label t ∧ M.Run t labels u := by
  rw [← List.singleton_append, run_append_iff]
  constructor
  · rintro ⟨t, hfirst, hrest⟩
    obtain ⟨mid, hmid, hstep⟩ := run_concat_iff.mp (List.nil_append [label] ▸ hfirst)
    obtain rfl := run_nil_iff.mp hmid
    exact ⟨t, hstep, hrest⟩
  · rintro ⟨t, hstep, hrest⟩
    exact ⟨t, .single hstep, hrest⟩

theorem Reachable.run {s t : State} {labels : List Label} (hs : M.Reachable s)
    (hrun : M.Run s labels t) : M.Reachable t := by
  induction hrun with
  | nil => exact hs
  | snoc _ hstep ih => exact .step ih hstep

/-- The invariant rule: what holds initially and is kept by every step of a reachable state
holds in every reachable state. -/
theorem Reachable.invariant {I : State → Prop} (hinit : ∀ s, M.init s → I s)
    (hstep : ∀ s label t, M.Reachable s → I s → M.step s label t → I t)
    {s : State} (hs : M.Reachable s) : I s := by
  induction hs with
  | init h => exact hinit _ h
  | step hreach h ih => exact hstep _ _ _ hreach ih h

/-- The invariant rule for one run from a fixed state, where the invariant may mention the
labels seen so far. -/
theorem Run.invariant {I : List Label → State → Prop} {s : State} (hnil : I [] s)
    (hsnoc : ∀ labels t label u, M.Run s labels t → I labels t → M.step t label u →
      I (labels ++ [label]) u)
    {labels : List Label} {t : State} (hrun : M.Run s labels t) : I labels t := by
  induction hrun with
  | nil => exact hnil
  | snoc hprev h ih => exact hsnoc _ _ _ _ hprev ih h

theorem Reachable.of_restrict {condition : State → Label → State → Prop} {s : State}
    (hs : (M.restrict condition).Reachable s) : M.Reachable s := by
  induction hs with
  | init h => exact .init h
  | step _ h ih => exact .step ih h.1

theorem Run.of_restrict {condition : State → Label → State → Prop} {s t : State}
    {labels : List Label} (h : (M.restrict condition).Run s labels t) : M.Run s labels t := by
  induction h with
  | nil => exact .nil _
  | snoc _ hstep ih => exact .snoc ih hstep.1

theorem Run.restrict_mono {condition condition' : State → Label → State → Prop}
    (himp : ∀ s label t, condition s label t → condition' s label t) {s t : State}
    {labels : List Label} (h : (M.restrict condition).Run s labels t) :
    (M.restrict condition').Run s labels t := by
  induction h with
  | nil => exact .nil _
  | snoc _ hstep ih => exact .snoc ih ⟨hstep.1, himp _ _ _ hstep.2⟩

/-- Some run leads from `s` to `t`. -/
def Leads (M : System State Label) (s t : State) : Prop :=
  ∃ labels, M.Run s labels t

theorem Leads.refl (s : State) : M.Leads s s :=
  ⟨[], .nil s⟩

theorem Leads.single {s t : State} {label : Label} (h : M.step s label t) : M.Leads s t :=
  ⟨[label], .single h⟩

theorem Leads.trans {s t u : State} (h : M.Leads s t) (h' : M.Leads t u) : M.Leads s u := by
  obtain ⟨xs, hxs⟩ := h
  obtain ⟨ys, hys⟩ := h'
  exact ⟨xs ++ ys, hxs.append hys⟩

/-- The state that a list of labels leads to, where a partial function gives the steps. -/
def follow (act : Label → State → Option State) : List Label → State → Option State
  | [], s => some s
  | label :: rest, s => (act label s).bind (follow act rest)

theorem run_of_follow {act : Label → State → Option State}
    (hact : ∀ {s label t}, act label s = some t → M.step s label t) {labels : List Label}
    {s t : State} (h : follow act labels s = some t) : M.Run s labels t := by
  induction labels generalizing s with
  | nil =>
      cases h
      exact .nil _
  | cons label rest ih =>
      obtain ⟨mid, hmid, hrest⟩ := Option.bind_eq_some_iff.mp h
      exact (Run.single (hact hmid)).append (ih hrest)

theorem reachable_of_follow {act : Label → State → Option State}
    (hact : ∀ {s label t}, act label s = some t → M.step s label t) {labels : List Label}
    {s t : State} (hs : M.Reachable s) (h : follow act labels s = some t) : M.Reachable t :=
  hs.run (run_of_follow hact h)

/-- `f` is a functional simulation of `M` by `N`: every step of a reachable state is a step
of `N` between the images, or leaves the image where it was. -/
structure Refines (M : System State Label) {Abs : Type w} {AbsLabel : Type*}
    (N : System Abs AbsLabel) (f : State → Abs) : Prop where
  init : ∀ s, M.init s → N.init (f s)
  step : ∀ s label t, M.Reachable s → M.step s label t →
    f t = f s ∨ ∃ absLabel, N.step (f s) absLabel (f t)

theorem Refines.reachable {Abs : Type w} {AbsLabel : Type*} {N : System Abs AbsLabel}
    {f : State → Abs} (h : M.Refines N f) {s : State} (hs : M.Reachable s) :
    N.Reachable (f s) := by
  induction hs with
  | init hinit => exact .init (h.init _ hinit)
  | step hreach hstep ih =>
      rcases h.step _ _ _ hreach hstep with heq | ⟨absLabel, habs⟩
      · rw [heq]
        exact ih
      · exact .step ih habs

end System

end RemoteControl.Foundations.Transition
