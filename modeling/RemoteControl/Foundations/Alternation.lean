import Mathlib.Data.List.Chain

/-!
Sequences of presses and releases: when they alternate, and what is still pressed after them.
-/

namespace RemoteControl.Foundations.Alternation

/-- Presses (`true`) and releases alternate, and the first is a press. -/
def Alternates (edges : List Bool) : Prop :=
  edges.IsChain (· ≠ ·) ∧ edges.head? ≠ some false

/-- The last press is not released. -/
def held (edges : List Bool) : Bool :=
  edges.getLast?.getD false

theorem alternates_nil : Alternates [] :=
  ⟨.nil, nofun⟩

@[simp] theorem held_nil : held [] = false :=
  rfl

@[simp] theorem held_concat (edges : List Bool) (edge : Bool) : held (edges ++ [edge]) = edge := by
  simp [held]

theorem alternates_concat_iff {edges : List Bool} {edge : Bool} :
    Alternates (edges ++ [edge]) ↔ Alternates edges ∧ edge = !held edges := by
  cases hlast : edges.getLast? with
  | none =>
      obtain rfl := List.getLast?_eq_none_iff.mp hlast
      cases edge <;> simp [Alternates]
  | some last =>
      have hne : edges ≠ [] := by
        rintro rfl
        cases hlast
      have hhead : (edges ++ [edge]).head? = edges.head? := List.head?_append_of_ne_nil _ hne
      rw [Alternates, Alternates, List.isChain_append, hhead, held, hlast]
      cases edge <;> cases last <;> simp

/-- Every press but the one that is held has its release. -/
theorem count_of_alternates {edges : List Bool} (h : Alternates edges) :
    edges.count true = edges.count false + (held edges).toNat := by
  induction edges using List.reverseRecOn with
  | nil => rfl
  | append_singleton edges edge ih =>
      obtain ⟨hedges, hedge⟩ := alternates_concat_iff.mp h
      have hcount := ih hedges
      rw [List.count_append, List.count_append, held_concat]
      subst hedge
      cases hheld : held edges
      · rw [hheld] at hcount
        simp at hcount ⊢
        omega
      · rw [hheld] at hcount
        simp at hcount ⊢
        omega

end RemoteControl.Foundations.Alternation
