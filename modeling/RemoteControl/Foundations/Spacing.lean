import Mathlib.Data.List.NodupEquivFin
import Mathlib.Order.Monotone.Basic

/-!
Times at which something happened, in the order in which it did, and how close they may be.
-/

namespace RemoteControl.Foundations.Spacing

/-- From one time to the `n`-th after it at least `n - 1` intervals pass, but for the slack. -/
def Spaced (interval slack : Nat) (times : List Nat) : Prop :=
  ∀ k n t u, 0 < n → times[k]? = some t → times[k + n]? = some u →
    t + (n - 1) * interval ≤ u + slack

theorem spaced_nil (interval slack : Nat) : Spaced interval slack [] := by
  intro k n t u _ ht
  simp at ht

/-- A due time that is an interval ahead for each time since `t`, for every `t` of the list. -/
def Due (interval : Nat) (times : List Nat) (due : Nat) : Prop :=
  ∀ k t, times[k]? = some t → t + (times.length - 1 - k) * interval ≤ due

theorem due_nil (interval due : Nat) : Due interval [] due := by
  intro k t ht
  simp at ht

theorem Spaced.concat {interval slack due now : Nat} {times : List Nat}
    (h : Spaced interval slack times) (hdue : Due interval times due) (hnow : due ≤ now + slack) :
    Spaced interval slack (times ++ [now]) := by
  intro k n t u hn ht hu
  by_cases hlast : k + n < times.length
  · rw [List.getElem?_append_left (by omega)] at ht
    rw [List.getElem?_append_left hlast] at hu
    exact h k n t u hn ht hu
  · have hend : k + n < (times ++ [now]).length := (List.getElem?_eq_some_iff.mp hu).1
    rw [List.length_append, List.length_singleton] at hend
    rw [List.getElem?_append_left (by omega)] at ht
    rw [List.getElem?_append_right (by omega), show k + n - times.length = 0 by omega] at hu
    obtain rfl : now = u := by simpa using hu
    have hahead := hdue k t ht
    rw [show times.length - 1 - k = n - 1 by omega] at hahead
    omega

theorem Due.concat {interval due now due' : Nat} {times : List Nat} (h : Due interval times due)
    (hnow : now ≤ due') (hdue : due + interval ≤ due') :
    Due interval (times ++ [now]) due' := by
  intro k t ht
  rw [List.length_append, List.length_singleton]
  by_cases hk : k < times.length
  · rw [List.getElem?_append_left hk] at ht
    have hahead := h k t ht
    rw [show times.length + 1 - 1 - k = times.length - 1 - k + 1 by omega, Nat.succ_mul]
    omega
  · rw [List.getElem?_append_right (by omega)] at ht
    obtain ⟨hlt, heq⟩ := List.getElem?_eq_some_iff.mp ht
    rw [List.length_singleton] at hlt
    obtain rfl : now = t := by simpa [show k - times.length = 0 by omega] using heq
    rw [show times.length + 1 - 1 - k = 0 by omega]
    omega

theorem Spaced.sublist {interval slack : Nat} {times kept : List Nat}
    (h : Spaced interval slack times) (hsub : kept.Sublist times) :
    Spaced interval slack kept := by
  obtain ⟨f, hf⟩ := List.sublist_iff_exists_orderEmbedding_getElem?_eq.mp hsub
  intro k n t u hn ht hu
  rw [hf] at ht hu
  have hfar : n + f k ≤ f (k + n) := by
    rw [Nat.add_comm k n]
    exact StrictMono.add_le_nat f.strictMono n k
  have hspaced := h (f k) (f (k + n) - f k) t u (by omega) ht (by
    rw [Nat.add_sub_cancel' (by omega)]
    exact hu)
  have hmul : (n - 1) * interval ≤ (f (k + n) - f k - 1) * interval :=
    Nat.mul_le_mul_right _ (by omega)
  omega

theorem Spaced.countP_le {interval slack : Nat} {times : List Nat}
    (h : Spaced interval slack times) (hinterval : 0 < interval) (start length : Nat) :
    times.countP (fun t => decide (start ≤ t ∧ t ≤ start + length)) ≤
      (length + slack) / interval + 2 := by
  rw [List.countP_eq_length_filter]
  generalize hwindow : times.filter (fun t => decide (start ≤ t ∧ t ≤ start + length)) = window
  have hinside : ∀ t ∈ window, start ≤ t ∧ t ≤ start + length := by
    intro t ht
    rw [← hwindow] at ht
    exact of_decide_eq_true (List.mem_filter.mp ht).2
  have hspaced : Spaced interval slack window := by
    rw [← hwindow]
    exact h.sublist List.filter_sublist
  by_cases hfew : window.length ≤ 2
  · exact Nat.le_trans hfew (Nat.le_add_left _ _)
  have hfirst := List.getElem?_eq_getElem (l := window) (i := 0) (by omega)
  have hlast := List.getElem?_eq_getElem (l := window) (i := 0 + (window.length - 1)) (by omega)
  have hspan := hspaced 0 (window.length - 1) _ _ (by omega) hfirst hlast
  have hlow := hinside _ (List.mem_of_getElem? hfirst)
  have hhigh := hinside _ (List.mem_of_getElem? hlast)
  have hfit : (window.length - 2) * interval ≤ length + slack := by
    rw [show window.length - 2 = window.length - 1 - 1 by omega]
    omega
  have hcount := (Nat.le_div_iff_mul_le hinterval).mpr hfit
  omega

end RemoteControl.Foundations.Spacing
