/-!
Programs that call an environment of which only the rules are known. A program is the tree of its
calls, which branches where it looks at an answer; the rules say which calls an environment allows
in which state.
-/

namespace RemoteControl.Foundations.Programs

universe u v w x

/-- A program over the calls `Call`, each of which is answered by an `Answer` of its own. -/
inductive Program (Call : Type u) (Answer : Call → Type v) (α : Type w) where
  | done (result : α)
  | call (c : Call) (next : Answer c → Program Call Answer α)

namespace Program

variable {Call : Type u} {Answer : Call → Type v} {α β : Type w} {S : Type x}

def bind : Program Call Answer α → (α → Program Call Answer β) → Program Call Answer β
  | .done result, k => k result
  | .call c next, k => .call c fun answer => bind (next answer) k

instance : Monad (Program Call Answer) where
  pure := .done
  bind := bind

def perform (c : Call) : Program Call Answer (Answer c) :=
  .call c .done

/-- Whatever the environment answers: a run of the program, with the calls that it made. -/
inductive Exec : Program Call Answer α → List (Sigma Answer) → α → Prop
  | done (result : α) : Exec (.done result) [] result
  | call {c : Call} {next : Answer c → Program Call Answer α} {answer : Answer c}
      {trace : List (Sigma Answer)} {result : α} :
      Exec (next answer) trace result → Exec (.call c next) (⟨c, answer⟩ :: trace) result

/-- The run in which every call is answered as the function says. -/
def run (answers : (c : Call) → Answer c) : Program Call Answer α → List (Sigma Answer) × α
  | .done result => ([], result)
  | .call c next =>
      let (trace, result) := run answers (next (answers c))
      (⟨c, answers c⟩ :: trace, result)

theorem exec_run (answers : (c : Call) → Answer c) (p : Program Call Answer α) :
    Exec p (p.run answers).1 (p.run answers).2 := by
  induction p with
  | done result => exact .done result
  | call c next ih => exact .call (ih (answers c))

theorem exec_done_iff {a b : α} {trace : List (Sigma Answer)} :
    Exec (.done a : Program Call Answer α) trace b ↔ trace = [] ∧ b = a := by
  constructor
  · intro h
    cases h
    exact ⟨rfl, rfl⟩
  · rintro ⟨rfl, rfl⟩
    exact .done _

theorem exec_call_iff {c : Call} {next : Answer c → Program Call Answer α}
    {trace : List (Sigma Answer)} {a : α} :
    Exec (.call c next) trace a ↔
      ∃ answer rest, trace = ⟨c, answer⟩ :: rest ∧ Exec (next answer) rest a := by
  constructor
  · intro h
    cases h with
    | call hnext => exact ⟨_, _, rfl, hnext⟩
  · rintro ⟨answer, rest, rfl, hnext⟩
    exact .call hnext

/-! ### Rules -/

variable (rules : S → (c : Call) → Answer c → Option S)

/-- The state that a trace leads to; `none` where a call is against the rules. -/
def obey : List (Sigma Answer) → S → Option S
  | [], s => some s
  | ⟨c, answer⟩ :: rest, s => (rules s c answer).bind (obey rest)

/-- Every call of the program is within the rules, whatever is answered, and it ends in `post`. -/
def Conforms (post : α → S → Prop) : Program Call Answer α → S → Prop
  | .done a, s => post a s
  | .call c next, s => ∀ answer, ∃ t, rules s c answer = some t ∧ Conforms post (next answer) t

variable {rules} {post : α → S → Prop} {s : S}

theorem Conforms.mono {post' : α → S → Prop} {p : Program Call Answer α}
    (h : Conforms rules post p s) (hpost : ∀ a s, post a s → post' a s) :
    Conforms rules post' p s := by
  induction p generalizing s with
  | done a => exact hpost a s h
  | call c next ih =>
      intro answer
      obtain ⟨t, ht, hnext⟩ := h answer
      exact ⟨t, ht, ih answer hnext⟩

theorem Conforms.bind {p : Program Call Answer β} {k : β → Program Call Answer α}
    {mid : β → S → Prop} (h : Conforms rules mid p s)
    (hk : ∀ b t, mid b t → Conforms rules post (k b) t) : Conforms rules post (p >>= k) s := by
  induction p generalizing s with
  | done b => exact hk b s h
  | call c next ih =>
      intro answer
      obtain ⟨t, ht, hnext⟩ := h answer
      exact ⟨t, ht, ih answer hnext⟩

/-- Every run of a program that conforms is within the rules and ends as promised. -/
theorem Conforms.exec {p : Program Call Answer α} (h : Conforms rules post p s)
    {trace : List (Sigma Answer)} {a : α} (hexec : Exec p trace a) :
    ∃ t, obey rules trace s = some t ∧ post a t := by
  induction hexec generalizing s with
  | done a => exact ⟨s, rfl, h⟩
  | call hnext ih =>
      obtain ⟨t, ht, hrest⟩ := h _
      obtain ⟨u, hu, hpost⟩ := ih hrest
      refine ⟨u, ?_, hpost⟩
      rw [obey, ht]
      exact hu

theorem exec_bind_iff {p : Program Call Answer β} {k : β → Program Call Answer α}
    {trace : List (Sigma Answer)} {a : α} :
    Exec (p >>= k) trace a ↔
      ∃ first b rest, Exec p first b ∧ Exec (k b) rest a ∧ trace = first ++ rest := by
  constructor
  · intro h
    induction p generalizing trace with
    | done b => exact ⟨[], b, trace, .done b, h, rfl⟩
    | call c next ih =>
        obtain ⟨answer, rest, rfl, hnext⟩ := exec_call_iff.mp h
        obtain ⟨first, b, last, hfirst, hlast, rfl⟩ := ih answer hnext
        exact ⟨⟨c, answer⟩ :: first, b, last, .call hfirst, hlast, rfl⟩
  · rintro ⟨first, b, rest, hfirst, hrest, rfl⟩
    induction hfirst with
    | done => exact hrest
    | call _ ih => exact .call (ih hrest)

end Program

end RemoteControl.Foundations.Programs
