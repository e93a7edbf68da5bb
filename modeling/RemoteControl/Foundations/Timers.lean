import Mathlib.Data.List.Basic

/-!
A queue of delayed posts, run in the order of their due times, first posted first among equals.
-/

namespace RemoteControl.Foundations.Timers

universe u

structure Post (α : Type u) where
  due : Int
  item : α
deriving DecidableEq

variable {α : Type u}

/-- The post that is run next, and the others. -/
def pop : List (Post α) → Option (Post α × List (Post α))
  | [] => none
  | p :: posts =>
      match pop posts with
      | none => some (p, posts)
      | some (q, rest) => if q.due < p.due then some (q, p :: rest) else some (p, posts)

theorem pop_eq_none {posts : List (Post α)} (h : pop posts = none) : posts = [] := by
  cases posts with
  | nil => rfl
  | cons p posts =>
      unfold pop at h
      split at h
      · contradiction
      · split at h
        · contradiction
        · contradiction

theorem pop_spec {posts rest : List (Post α)} {p : Post α} (h : pop posts = some (p, rest)) :
    (∀ q, q ∈ posts ↔ q = p ∨ q ∈ rest) ∧ ∀ q ∈ posts, p.due ≤ q.due := by
  induction posts generalizing p rest with
  | nil => contradiction
  | cons first posts ih =>
      unfold pop at h
      split at h
      next hnone =>
        obtain ⟨rfl, rfl⟩ := Prod.mk.injEq _ _ _ _ ▸ Option.some.inj h
        refine ⟨fun q => List.mem_cons, ?_⟩
        rw [pop_eq_none hnone]
        exact List.forall_mem_singleton.mpr (Int.le_refl _)
      next q others hsome =>
        obtain ⟨hmem, hmin⟩ := ih hsome
        split at h
        next hless =>
          obtain ⟨rfl, rfl⟩ := Prod.mk.injEq _ _ _ _ ▸ Option.some.inj h
          constructor
          · intro r
            rw [List.mem_cons, List.mem_cons, hmem r]
            tauto
          · rw [List.forall_mem_cons]
            exact ⟨Int.le_of_lt hless, hmin⟩
        next hless =>
          obtain ⟨rfl, rfl⟩ := Prod.mk.injEq _ _ _ _ ▸ Option.some.inj h
          refine ⟨fun r => List.mem_cons, ?_⟩
          rw [List.forall_mem_cons]
          refine ⟨Int.le_refl _, fun r hr => ?_⟩
          have hq := hmin r hr
          omega

/-- Posts whose due times never decrease are run in the order in which they were posted. -/
theorem pop_of_sorted {p : Post α} {posts : List (Post α)}
    (h : (p :: posts).Pairwise fun a b => a.due ≤ b.due) : pop (p :: posts) = some (p, posts) := by
  unfold pop
  split
  · rfl
  next q rest hsome =>
    have hq : q ∈ posts := ((pop_spec hsome).1 q).mpr (.inl rfl)
    have hle := (List.pairwise_cons.mp h).1 q hq
    exact if_neg (by omega)

end RemoteControl.Foundations.Timers
