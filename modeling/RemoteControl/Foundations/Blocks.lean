import Mathlib.Data.List.Basic

/-!
A stream that is cut into blocks of one length as it comes in, and machines that turn one block
after the other into an output until they fail.
-/

namespace RemoteControl.Foundations.Blocks

universe u v w

variable {α : Type u} {β : Type v} {σ : Type w}

/-- What came in is what was cut off, block by block, and what is left. -/
structure Cut (n : Nat) (fed : List α) (blocks : List (List α)) (left : List α) : Prop where
  fed : fed = blocks.flatten ++ left
  whole : ∀ block ∈ blocks, block.length = n

theorem cut_nil (n : Nat) : Cut n ([] : List α) [] [] :=
  ⟨rfl, fun _ h => absurd h List.not_mem_nil⟩

theorem Cut.feed {n : Nat} {fed left : List α} {blocks : List (List α)} (h : Cut n fed blocks left)
    (more : List α) : Cut n (fed ++ more) blocks (left ++ more) := by
  refine ⟨?_, h.whole⟩
  rw [h.fed, List.append_assoc]

theorem Cut.cut {n : Nat} {fed left : List α} {blocks : List (List α)} (h : Cut n fed blocks left)
    (hleft : n ≤ left.length) : Cut n fed (blocks ++ [left.take n]) (left.drop n) := by
  constructor
  · rw [List.flatten_append, List.flatten_singleton, List.append_assoc, List.take_append_drop]
    exact h.fed
  · intro block hblock
    rcases List.mem_append.mp hblock with hearlier | hlast
    · exact h.whole block hearlier
    · obtain rfl := List.mem_singleton.mp hlast
      exact List.length_take_of_le hleft

theorem Cut.length {n : Nat} {fed left : List α} {blocks : List (List α)}
    (h : Cut n fed blocks left) : blocks.flatten.length = blocks.length * n := by
  rw [List.length_flatten, List.map_congr_left h.whole, List.map_const', List.sum_replicate_nat]

theorem take_drop_flatten {n : Nat} {blocks : List (List α)}
    (h : ∀ block ∈ blocks, block.length = n) (left : List α) {i : Nat} {block : List α}
    (hblock : blocks[i]? = some block) :
    ((blocks.flatten ++ left).drop (i * n)).take n = block := by
  induction blocks generalizing i with
  | nil => simp at hblock
  | cons first rest ih =>
      have hfirst := h first List.mem_cons_self
      have hrest : ∀ block ∈ rest, block.length = n :=
        fun block hmem => h block (List.mem_cons_of_mem _ hmem)
      cases i with
      | zero =>
          obtain rfl := Option.some.inj hblock
          rw [Nat.zero_mul, List.drop_zero, List.flatten_cons, List.append_assoc,
            List.take_left' hfirst]
      | succ i =>
          have hskip : (i + 1) * n = first.length + i * n := by
            rw [hfirst, Nat.succ_mul, Nat.add_comm]
          rw [hskip, List.flatten_cons, List.append_assoc,
            List.drop_length_add_append]
          exact ih hrest hblock

theorem Cut.getElem? {n : Nat} {fed left : List α} {blocks : List (List α)}
    (h : Cut n fed blocks left) {i : Nat} {block : List α} (hblock : blocks[i]? = some block) :
    block = (fed.drop (i * n)).take n := by
  rw [h.fed]
  exact (take_drop_flatten h.whole left hblock).symm

/-! ### Machines -/

section Machine

variable (act : σ → α → Option (β × σ))

/-- The outputs of a machine for the inputs until one fails. -/
def outputs : σ → List α → List β
  | _, [] => []
  | s, a :: rest =>
      match act s a with
      | none => []
      | some (b, t) => b :: outputs t rest

/-- The state of a machine that no input has made fail. -/
def stateAfter : σ → List α → Option σ
  | s, [] => some s
  | s, a :: rest =>
      match act s a with
      | none => none
      | some (_, t) => stateAfter t rest

variable {act}

theorem stateAfter_concat {s t : σ} {inputs : List α} (h : stateAfter act s inputs = some t)
    (a : α) : stateAfter act s (inputs ++ [a]) = (act t a).map Prod.snd := by
  induction inputs generalizing s with
  | nil =>
      obtain rfl := Option.some.inj h
      rw [List.nil_append, stateAfter]
      rcases act s a with _ | ⟨b, t⟩
      · rfl
      · rfl
  | cons first rest ih =>
      rw [List.cons_append, stateAfter]
      rw [stateAfter] at h
      split at h
      next => contradiction
      next b mid hact =>
        exact ih h

theorem outputs_concat {s t : σ} {inputs : List α} (h : stateAfter act s inputs = some t)
    (a : α) : outputs act s (inputs ++ [a]) =
      outputs act s inputs ++ ((act t a).map Prod.fst).toList := by
  induction inputs generalizing s with
  | nil =>
      obtain rfl := Option.some.inj h
      rw [List.nil_append, outputs, outputs]
      rcases act s a with _ | ⟨b, t⟩
      · rfl
      · rfl
  | cons first rest ih =>
      rw [List.cons_append, outputs, outputs]
      rw [stateAfter] at h
      split at h
      next => contradiction
      next b mid hact =>
        rw [ih h, List.cons_append]

end Machine

end RemoteControl.Foundations.Blocks
