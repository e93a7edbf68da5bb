import Mathlib.Data.List.Basic

/-!
Slices and loops over ranges that stop at an index out of range: `none` is the panic.
-/

namespace RemoteControl.Foundations.Slices

universe u v

variable {α : Type u} {β : Type v}

/-- `xs[start..stop]`. -/
def slice (xs : List α) (start stop : Nat) : Option (List α) :=
  if start ≤ stop ∧ stop ≤ xs.length then some ((xs.drop start).take (stop - start)) else none

theorem slice_eq_some {xs : List α} {start stop : Nat} (h : start ≤ stop)
    (h' : stop ≤ xs.length) :
    slice xs start stop = some ((xs.drop start).take (stop - start)) :=
  if_pos ⟨h, h'⟩

theorem slice_eq_none {xs : List α} {start stop : Nat} (h : xs.length < stop) :
    slice xs start stop = none :=
  if_neg fun h' => Nat.not_le_of_lt h h'.2

theorem getElem?_slice {xs : List α} {start stop i : Nat} (h : i < stop - start) :
    ((xs.drop start).take (stop - start))[i]? = xs[start + i]? := by
  rw [List.getElem?_take_of_lt h, List.getElem?_drop]

/-- `xs[i] = x`. -/
def assign (xs : List α) (i : Nat) (x : α) : Option (List α) :=
  if i < xs.length then some (xs.set i x) else none

theorem assign_eq_some {xs : List α} {i : Nat} (h : i < xs.length) (x : α) :
    assign xs i x = some (xs.set i x) :=
  if_pos h

/-- The rule for a loop over `0..n` whose body does not panic: the invariant says how far the loop
has come. -/
theorem foldlM_range {body : β → Nat → Option β} {I : Nat → β → Prop} {n : Nat} {start : β}
    (hstart : I 0 start)
    (hbody : ∀ i s, i < n → I i s → ∃ t, body s i = some t ∧ I (i + 1) t) :
    ∃ t, (List.range n).foldlM body start = some t ∧ I n t := by
  induction n with
  | zero => exact ⟨start, rfl, hstart⟩
  | succ n ih =>
      obtain ⟨s, hs, hI⟩ := ih (fun i s hi => hbody i s (Nat.lt_succ_of_lt hi))
      obtain ⟨t, ht, hI'⟩ := hbody n s (Nat.lt_succ_self n) hI
      refine ⟨t, ?_, hI'⟩
      rw [List.range_succ, List.foldlM_append, hs, Option.bind_eq_bind, Option.bind_some,
        List.foldlM_cons, ht]
      rfl

theorem foldlM_eq_none {body : β → α → Option β} {xs : List α} {x : α} (hx : x ∈ xs)
    (hbody : ∀ s, body s x = none) (start : β) : xs.foldlM body start = none := by
  induction xs generalizing start with
  | nil => contradiction
  | cons head rest ih =>
      rw [List.foldlM_cons]
      rcases List.mem_cons.mp hx with rfl | hrest
      · rw [hbody]
        rfl
      · cases body start head with
        | none => rfl
        | some t => exact ih hrest t

end RemoteControl.Foundations.Slices
