import Mathlib.Data.List.DropRight

/-!
A buffer of bounded size that drops its oldest entry on overflow, and the latest entry of a
history that says something.
-/

namespace RemoteControl.Foundations.DropOldest

universe u v

variable {α : Type u} {β : Type v}

/-- The buffer after one more entry. -/
def offer (capacity : Nat) (buffer : List α) (entry : α) : List α :=
  (buffer ++ [entry]).rtake capacity

theorem offer_of_lt {capacity : Nat} {buffer : List α} (h : buffer.length < capacity)
    (entry : α) : offer capacity buffer entry = buffer ++ [entry] := by
  have hroom : (buffer ++ [entry]).length - capacity = 0 := by
    rw [List.length_append, List.length_singleton]
    omega
  rw [offer, List.rtake, hroom, List.drop_zero]

theorem offer_of_full {capacity : Nat} {oldest : α} {rest : List α}
    (h : (oldest :: rest).length = capacity) (entry : α) :
    offer capacity (oldest :: rest) entry = rest ++ [entry] := by
  have hover : (oldest :: rest ++ [entry]).length - capacity = 1 := by
    rw [List.length_append, List.length_singleton]
    omega
  rw [offer, List.rtake, hover]
  rfl

theorem length_offer_le (capacity : Nat) (buffer : List α) (entry : α) :
    (offer capacity buffer entry).length ≤ capacity := by
  rw [offer, List.rtake, List.length_drop]
  omega

theorem offer_cases {capacity : Nat} {buffer : List α} (hcapacity : 0 < capacity)
    (h : buffer.length ≤ capacity) (entry : α) :
    offer capacity buffer entry = buffer ++ [entry] ∨
      ∃ oldest rest, buffer = oldest :: rest ∧ buffer.length = capacity ∧
        offer capacity buffer entry = rest ++ [entry] := by
  by_cases hroom : buffer.length < capacity
  · exact .inl (offer_of_lt hroom entry)
  · have hfull : buffer.length = capacity := by omega
    match buffer with
    | [] => exact absurd hfull (Nat.ne_of_lt hcapacity)
    | oldest :: rest => exact .inr ⟨oldest, rest, rfl, hfull, offer_of_full hfull entry⟩

/-! ### The latest word -/

/-- What the latest entry says about which `f` says something. -/
def latest (f : α → Option β) (history : List α) : Option β :=
  (history.filterMap f).getLast?

@[simp]
theorem latest_nil (f : α → Option β) : latest f [] = none :=
  rfl

theorem latest_concat (f : α → Option β) (history : List α) (entry : α) :
    latest f (history ++ [entry]) = (f entry).or (latest f history) := by
  unfold latest
  rw [List.filterMap_append]
  cases hentry : f entry <;> simp [hentry]

theorem latest_cons (f : α → Option β) (entry : α) (rest : List α) :
    latest f (entry :: rest) = (latest f rest).or (f entry) := by
  unfold latest
  cases hentry : f entry with
  | none => simp [hentry]
  | some b => simp [hentry, List.getLast?_cons]

theorem latest_eq_none_iff {f : α → Option β} {history : List α} :
    latest f history = none ↔ ∀ entry ∈ history, f entry = none := by
  simp [latest]

end RemoteControl.Foundations.DropOldest
