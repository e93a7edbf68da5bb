import Mathlib.Logic.Function.Basic

/-!
Sequential tasks made of atomic sections over a state that other parties change between the
sections. A task is a tree of sections; running it under a rely relation allows any step of
that relation before each section.
-/

namespace RemoteControl.Foundations.Interference

universe u v w

/-- A task over the shared state `σ`: finished, or an atomic section that updates the state
and goes on in a way that depends on the state it found. -/
inductive Task (σ : Type u) (α : Type v) where
  | done (result : α)
  | atomic (update : σ → σ) (next : σ → Task σ α)

namespace Task

variable {σ : Type u} {α β : Type v}

def bind : Task σ α → (α → Task σ β) → Task σ β
  | .done result, k => k result
  | .atomic update next, k => .atomic update fun s => bind (next s) k

instance : Monad (Task σ) where
  pure := .done
  bind := bind

/-- One atomic section, given as the result and the new state it computes. -/
def critical (f : σ → α × σ) : Task σ α :=
  .atomic (fun s => (f s).2) fun s => .done (f s).1

/-- An atomic section that only updates. -/
def modify (f : σ → σ) : Task σ PUnit :=
  .atomic f fun _ => .done PUnit.unit

/-- An atomic section that only reads. -/
def read (f : σ → α) : Task σ α :=
  .atomic id fun s => .done (f s)

/-- `Exec R t s trace result s'`: from `s` the task `t` ends in `s'` with `result`, other
parties taking one step of `R` before each section; `trace` lists the task's own sections,
each with the state it found and the state it left. -/
inductive Exec (R : σ → σ → Prop) : Task σ α → σ → List (σ × σ) → α → σ → Prop
  | done (result : α) (s : σ) : Exec R (.done result) s [] result s
  | atomic {update : σ → σ} {next : σ → Task σ α} {s found s' : σ}
      {trace : List (σ × σ)} {result : α} :
      R s found → Exec R (next found) (update found) trace result s' →
        Exec R (.atomic update next) s ((found, update found) :: trace) result s'

/-- The task run without interference. -/
def run : Task σ α → σ → α × σ
  | .done result, s => (result, s)
  | .atomic update next, s => run (next s) (update s)

variable {R : σ → σ → Prop}

theorem exec_done_iff {a b : α} {s s' : σ} {trace : List (σ × σ)} :
    Exec R (.done a) s trace b s' ↔ trace = [] ∧ b = a ∧ s' = s := by
  constructor
  · intro h
    cases h
    exact ⟨rfl, rfl, rfl⟩
  · rintro ⟨rfl, rfl, rfl⟩
    exact .done _ _

theorem exec_atomic_iff {update : σ → σ} {next : σ → Task σ α} {s s' : σ}
    {trace : List (σ × σ)} {a : α} :
    Exec R (.atomic update next) s trace a s' ↔
      ∃ found rest, R s found ∧ Exec R (next found) (update found) rest a s' ∧
        trace = (found, update found) :: rest := by
  constructor
  · intro h
    cases h with
    | atomic hR hnext => exact ⟨_, _, hR, hnext, rfl⟩
  · rintro ⟨found, rest, hR, hnext, rfl⟩
    exact .atomic hR hnext

@[simp] theorem exec_pure_iff {a b : α} {s s' : σ} {trace : List (σ × σ)} :
    Exec R (pure a : Task σ α) s trace b s' ↔ trace = [] ∧ b = a ∧ s' = s :=
  exec_done_iff

@[simp] theorem exec_critical_iff {f : σ → α × σ} {s s' : σ} {trace : List (σ × σ)} {a : α} :
    Exec R (critical f) s trace a s' ↔
      ∃ found, R s found ∧ trace = [(found, (f found).2)] ∧ a = (f found).1 ∧
        s' = (f found).2 := by
  simp only [critical, exec_atomic_iff, exec_done_iff]
  constructor
  · rintro ⟨found, rest, hR, ⟨rfl, rfl, rfl⟩, rfl⟩
    exact ⟨found, hR, rfl, rfl, rfl⟩
  · rintro ⟨found, hR, rfl, rfl, rfl⟩
    exact ⟨found, [], hR, ⟨rfl, rfl, rfl⟩, rfl⟩

@[simp] theorem exec_modify_iff {f : σ → σ} {s s' : σ} {trace : List (σ × σ)} {a : PUnit} :
    Exec R (modify f) s trace a s' ↔
      ∃ found, R s found ∧ trace = [(found, f found)] ∧ s' = f found := by
  simp only [modify, exec_atomic_iff, exec_done_iff]
  constructor
  · rintro ⟨found, rest, hR, ⟨rfl, -, rfl⟩, rfl⟩
    exact ⟨found, hR, rfl, rfl⟩
  · rintro ⟨found, hR, rfl, rfl⟩
    exact ⟨found, [], hR, ⟨rfl, trivial, rfl⟩, rfl⟩

@[simp] theorem exec_read_iff {f : σ → α} {s s' : σ} {trace : List (σ × σ)} {a : α} :
    Exec R (read f) s trace a s' ↔
      ∃ found, R s found ∧ trace = [(found, found)] ∧ a = f found ∧ s' = found := by
  simp only [read, exec_atomic_iff, exec_done_iff, id_eq]
  constructor
  · rintro ⟨_, rest, hR, ⟨rfl, rfl, rfl⟩, rfl⟩
    exact ⟨_, hR, rfl, rfl, rfl⟩
  · rintro ⟨_, hR, rfl, rfl, rfl⟩
    exact ⟨_, [], hR, ⟨rfl, rfl, rfl⟩, rfl⟩

/-- The sections of a sequence are those of its two parts, one after the other. -/
@[simp] theorem exec_bind_iff {t : Task σ α} {k : α → Task σ β} {s s' : σ}
    {trace : List (σ × σ)} {b : β} :
    Exec R (t >>= k) s trace b s' ↔
      ∃ trace₁ a mid trace₂, Exec R t s trace₁ a mid ∧ Exec R (k a) mid trace₂ b s' ∧
        trace = trace₁ ++ trace₂ := by
  constructor
  · intro h
    induction t generalizing s trace with
    | done a => exact ⟨[], a, s, trace, .done _ _, h, rfl⟩
    | atomic update next ih =>
        obtain ⟨found, rest, hR, hrest, rfl⟩ := exec_atomic_iff.mp h
        obtain ⟨trace₁, a, mid, trace₂, hfirst, hsecond, rfl⟩ := ih _ hrest
        exact ⟨_, a, mid, trace₂, .atomic hR hfirst, hsecond, rfl⟩
  · rintro ⟨trace₁, a, mid, trace₂, hfirst, hsecond, rfl⟩
    induction hfirst with
    | done => exact hsecond
    | atomic hR _ ih => exact .atomic hR (ih hsecond)

/-! ### Guarantees -/

/-- Every section of the task, wherever it starts, stays within the relation `G`. -/
def Guarantees (G : σ → σ → Prop) : Task σ α → Prop
  | .done _ => True
  | .atomic update next => (∀ s, G s (update s)) ∧ ∀ s, Guarantees G (next s)

variable {G : σ → σ → Prop}

@[simp] theorem guarantees_pure (a : α) : Guarantees G (pure a : Task σ α) :=
  trivial

@[simp] theorem guarantees_modify (f : σ → σ) :
    Guarantees G (modify f) ↔ ∀ s, G s (f s) :=
  and_iff_left fun _ => trivial

@[simp] theorem guarantees_critical (f : σ → α × σ) :
    Guarantees G (critical f) ↔ ∀ s, G s (f s).2 :=
  and_iff_left fun _ => trivial

@[simp] theorem guarantees_read (f : σ → α) : Guarantees G (read f) ↔ ∀ s, G s s :=
  and_iff_left fun _ => trivial

theorem Guarantees.bind {t : Task σ α} {k : α → Task σ β} (ht : Guarantees G t)
    (hk : ∀ a, Guarantees G (k a)) : Guarantees G (t >>= k) := by
  induction t with
  | done a => exact hk a
  | atomic update next ih => exact ⟨ht.1, fun s => ih s (ht.2 s)⟩

theorem Guarantees.mono {G' : σ → σ → Prop} {t : Task σ α} (ht : Guarantees G t)
    (h : ∀ s s', G s s' → G' s s') : Guarantees G' t := by
  induction t with
  | done a => trivial
  | atomic update next ih => exact ⟨fun s => h _ _ (ht.1 s), fun s => ih s (ht.2 s)⟩

theorem Guarantees.forM {γ : Type u} {xs : List γ} {body : γ → Task σ PUnit}
    (h : ∀ x ∈ xs, Guarantees G (body x)) : Guarantees G (xs.forM body) := by
  induction xs with
  | nil => exact guarantees_pure _
  | cons x xs ih =>
      change Guarantees G (body x >>= fun _ => xs.forM body)
      exact (h x List.mem_cons_self).bind fun _ => ih fun y hy => h y (List.mem_cons_of_mem _ hy)

theorem Guarantees.rel (hrefl : ∀ s, G s s) (htrans : ∀ {a b c}, G a b → G b c → G a c)
    (hR : ∀ {a b}, R a b → G a b) {t : Task σ α} {s s' : σ} {trace : List (σ × σ)} {a : α}
    (ht : Guarantees G t) (h : Exec R t s trace a s') : G s s' := by
  induction h with
  | done => exact hrefl _
  | atomic hfound _ ih => exact htrans (hR hfound) (htrans (ht.1 _) (ih (ht.2 _)))

/-- Every result of the task, whatever it finds, satisfies `P`. -/
def Returns (P : α → Prop) : Task σ α → Prop
  | .done a => P a
  | .atomic _ next => ∀ s, Returns P (next s)

theorem Returns.bind {P : α → Prop} {Q : β → Prop} {t : Task σ α} {k : α → Task σ β}
    (ht : Returns P t) (hk : ∀ a, P a → Returns Q (k a)) : Returns Q (t >>= k) := by
  induction t with
  | done a => exact hk a ht
  | atomic update next ih => exact fun s => ih s (ht s)

theorem returns_true (t : Task σ α) : Returns (fun _ => True) t := by
  induction t with
  | done a => exact trivial
  | atomic update next ih => exact ih

theorem Guarantees.bind_of_returns {P : α → Prop} {t : Task σ α} {k : α → Task σ β}
    (ht : Guarantees G t) (hP : Returns P t) (hk : ∀ a, P a → Guarantees G (k a)) :
    Guarantees G (t >>= k) := by
  induction t with
  | done a => exact hk a hP
  | atomic update next ih => exact ⟨ht.1, fun s => ih s (ht.2 s) (hP s)⟩

/-! ### Pre- and postconditions -/

/-- Interference keeps the assertion. -/
def Stable (R : σ → σ → Prop) (P : σ → Prop) : Prop :=
  ∀ ⦃s s'⦄, P s → R s s' → P s'

/-- Whatever execution of the task starts in `P` ends in `Q` of its result. -/
def Triple (R : σ → σ → Prop) (P : σ → Prop) (t : Task σ α) (Q : α → σ → Prop) : Prop :=
  ∀ ⦃s trace a s'⦄, P s → Exec R t s trace a s' → Q a s'

variable {P : σ → Prop} {Q : α → σ → Prop}

theorem Triple.consequence {P' : σ → Prop} {Q' : α → σ → Prop} {t : Task σ α}
    (h : Triple R P t Q) (hpre : ∀ s, P' s → P s) (hpost : ∀ a s, Q a s → Q' a s) :
    Triple R P' t Q' :=
  fun _ _ _ _ hP hexec => hpost _ _ (h (hpre _ hP) hexec)

theorem triple_fact {p : Prop} {t : Task σ α} (h : p → Triple R P t Q) :
    Triple R (fun s => p ∧ P s) t Q :=
  fun _ _ _ _ hP hexec => h hP.1 hP.2 hexec

theorem triple_pure {a : α} (h : ∀ s, P s → Q a s) : Triple R P (pure a) Q := by
  intro s trace b s' hP hexec
  obtain ⟨-, rfl, rfl⟩ := exec_pure_iff.mp hexec
  exact h _ hP

theorem triple_critical {f : σ → α × σ} (hstable : Stable R P)
    (h : ∀ s, P s → Q (f s).1 (f s).2) : Triple R P (critical f) Q := by
  intro s trace b s' hP hexec
  obtain ⟨found, hR, -, rfl, rfl⟩ := exec_critical_iff.mp hexec
  exact h _ (hstable hP hR)

theorem triple_modify {f : σ → σ} {Q : PUnit → σ → Prop} (hstable : Stable R P)
    (h : ∀ s, P s → Q PUnit.unit (f s)) : Triple R P (modify f) Q := by
  intro s trace b s' hP hexec
  obtain ⟨found, hR, -, rfl⟩ := exec_modify_iff.mp hexec
  exact h _ (hstable hP hR)

theorem triple_read {f : σ → α} (hstable : Stable R P) (h : ∀ s, P s → Q (f s) s) :
    Triple R P (read f) Q := by
  intro s trace b s' hP hexec
  obtain ⟨found, hR, -, rfl, rfl⟩ := exec_read_iff.mp hexec
  exact h _ (hstable hP hR)

/-- The sequence rule. -/
theorem Triple.bind {t : Task σ α} {k : α → Task σ β} {Q : β → σ → Prop}
    {M : α → σ → Prop} (ht : Triple R P t M) (hk : ∀ a, Triple R (M a) (k a) Q) :
    Triple R P (t >>= k) Q := by
  intro s trace b s' hP hexec
  obtain ⟨_, a, _, _, hfirst, hsecond, -⟩ := exec_bind_iff.mp hexec
  exact hk a (ht hP hfirst) hsecond

/-- A loop, with an invariant over what is left of the list. -/
theorem Triple.forM {γ : Type u} (inv : List γ → σ → Prop) (body : γ → Task σ PUnit)
    (hbody : ∀ x xs, Triple R (inv (x :: xs)) (body x) fun _ => inv xs) (xs : List γ) :
    Triple R (inv xs) (xs.forM body) fun _ => inv [] := by
  induction xs with
  | nil => exact triple_pure fun _ h => h
  | cons x xs ih =>
      change Triple R _ (body x >>= fun _ => xs.forM body) _
      exact (hbody x xs).bind fun _ => ih

theorem Guarantees.triple (hP : ∀ s s', P s → G s s' → P s') (hstable : Stable R P)
    {t : Task σ α} (ht : Guarantees G t) : Triple R P t fun _ => P := by
  intro s trace a s' hs hexec
  induction hexec with
  | done => exact hs
  | atomic hfound _ ih => exact ih (ht.2 _) (hP _ _ (hstable hs hfound) (ht.1 _))

theorem exists_exec_run (hR : ∀ s, R s s) (t : Task σ α) (s : σ) :
    ∃ trace, Exec R t s trace (t.run s).1 (t.run s).2 := by
  induction t generalizing s with
  | done a => exact ⟨[], .done _ _⟩
  | atomic update next ih =>
      obtain ⟨trace, h⟩ := ih s (update s)
      exact ⟨_, .atomic (hR s) h⟩

@[simp] theorem run_pure (a : α) (s : σ) : (pure a : Task σ α).run s = (a, s) :=
  rfl

@[simp] theorem run_critical (f : σ → α × σ) (s : σ) : (critical f).run s = f s :=
  rfl

theorem run_bind (t : Task σ α) (k : α → Task σ β) (s : σ) :
    (t >>= k).run s = (k (t.run s).1).run (t.run s).2 := by
  induction t generalizing s with
  | done a => rfl
  | atomic update next ih => exact ih s (update s)

/-- The task run with one act of the others before each section, until the acts are used up:
its sections, its result and the last state. -/
def runUnder : List (σ → σ) → Task σ α → σ → List (σ × σ) × α × σ
  | _, .done result, s => ([], result, s)
  | [], .atomic update next, s =>
      let (sections, outcome) := runUnder [] (next s) (update s)
      ((s, update s) :: sections, outcome)
  | act :: acts, .atomic update next, s =>
      let (sections, outcome) := runUnder acts (next (act s)) (update (act s))
      ((act s, update (act s)) :: sections, outcome)

theorem exec_runUnder (hR : ∀ s, R s s) {acts : List (σ → σ)}
    (hacts : ∀ act ∈ acts, ∀ s, R s (act s)) (t : Task σ α) (s : σ) :
    Exec R t s (runUnder acts t s).1 (runUnder acts t s).2.1 (runUnder acts t s).2.2 := by
  induction t generalizing s acts with
  | done a =>
      cases acts with
      | nil => exact .done _ _
      | cons act acts => exact .done _ _
  | atomic update next ih =>
      cases acts with
      | nil => exact .atomic (hR s) (ih s hacts _)
      | cons act acts =>
          have hrest : ∀ act ∈ acts, ∀ s, R s (act s) :=
            fun act hact => hacts act (List.mem_cons_of_mem _ hact)
          exact .atomic (hacts act List.mem_cons_self s) (ih (act s) hrest _)

end Task

end RemoteControl.Foundations.Interference
