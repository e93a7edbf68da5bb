import Mathlib.Data.List.Infix

/-!
First-in first-out queues that remember what has been taken from them.
-/

namespace RemoteControl.Foundations.Fifo

universe u

/-- A queue by what has been taken from it and what still waits in it, oldest first. -/
structure Queue (α : Type u) where
  taken : List α := []
  waiting : List α := []
deriving DecidableEq

namespace Queue

variable {α : Type u}

/-- Everything ever pushed, in order. -/
def sent (q : Queue α) : List α := q.taken ++ q.waiting

def push (q : Queue α) (a : α) : Queue α :=
  { q with waiting := q.waiting ++ [a] }

def pop? (q : Queue α) : Option (α × Queue α) :=
  match q.waiting with
  | [] => none
  | a :: rest => some (a, { taken := q.taken ++ [a], waiting := rest })

@[simp] theorem push_taken (q : Queue α) (a : α) : (q.push a).taken = q.taken := rfl

@[simp] theorem push_waiting (q : Queue α) (a : α) : (q.push a).waiting = q.waiting ++ [a] := rfl

@[simp] theorem push_sent (q : Queue α) (a : α) : (q.push a).sent = q.sent ++ [a] := by
  simp [sent]

theorem pop?_eq_some_iff {q q' : Queue α} {a : α} :
    q.pop? = some (a, q') ↔ q.waiting = a :: q'.waiting ∧ q'.taken = q.taken ++ [a] := by
  rcases q with ⟨taken, _ | ⟨b, rest⟩⟩
  · simp [pop?]
  · rcases q' with ⟨taken', rest'⟩
    simp only [pop?, Option.some.injEq, Prod.mk.injEq, Queue.mk.injEq, List.cons.injEq]
    constructor
    · rintro ⟨rfl, rfl, rfl⟩
      exact ⟨⟨rfl, rfl⟩, rfl⟩
    · rintro ⟨⟨rfl, rfl⟩, rfl⟩
      exact ⟨rfl, rfl, rfl⟩

theorem pop?_eq_none_iff {q : Queue α} : q.pop? = none ↔ q.waiting = [] := by
  rcases q with ⟨taken, _ | ⟨b, rest⟩⟩ <;> simp [pop?]

theorem pop?_taken {q q' : Queue α} {a : α} (h : q.pop? = some (a, q')) :
    q'.taken = q.taken ++ [a] :=
  (pop?_eq_some_iff.mp h).2

theorem pop?_waiting {q q' : Queue α} {a : α} (h : q.pop? = some (a, q')) :
    q.waiting = a :: q'.waiting :=
  (pop?_eq_some_iff.mp h).1

theorem pop?_sent {q q' : Queue α} {a : α} (h : q.pop? = some (a, q')) : q'.sent = q.sent := by
  rw [sent, sent, pop?_taken h, pop?_waiting h]
  simp

theorem taken_prefix_sent (q : Queue α) : q.taken <+: q.sent :=
  List.prefix_append ..

end Queue

end RemoteControl.Foundations.Fifo
