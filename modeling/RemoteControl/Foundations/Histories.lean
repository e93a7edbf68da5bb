import Mathlib.Data.List.Basic

/-!
Facts about every entry of a history and what came before it.
-/

namespace RemoteControl.Foundations.Histories

universe u

variable {α : Type u}

/-- `P` holds of every entry with the entries before it. -/
def Each (P : List α → α → Prop) (history : List α) : Prop :=
  ∀ before entry after, history = before ++ entry :: after → P before entry

theorem each_nil (P : List α → α → Prop) : Each P [] := by
  intro before entry after h
  simp at h

theorem each_concat_iff {P : List α → α → Prop} {history : List α} {last : α} :
    Each P (history ++ [last]) ↔ Each P history ∧ P history last := by
  constructor
  · intro h
    refine ⟨?_, h history last [] rfl⟩
    rintro before entry after rfl
    apply h before entry (after ++ [last])
    rw [List.append_assoc, List.cons_append]
  · rintro ⟨h, hlast⟩ before entry after hsplit
    rcases List.eq_nil_or_concat after with rfl | ⟨after, end', rfl⟩
    · obtain ⟨rfl, hend⟩ := List.append_inj' hsplit rfl
      obtain rfl := List.singleton_inj.mp hend
      exact hlast
    · rw [List.concat_eq_append, ← List.cons_append, ← List.append_assoc] at hsplit
      exact h before entry after (List.append_inj' hsplit rfl).1

end RemoteControl.Foundations.Histories
