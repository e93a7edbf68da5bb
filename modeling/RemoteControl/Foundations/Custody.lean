import RemoteControl.Foundations.Interference

/-!
Rely and guarantee with custody. A party that runs a task holds something, which is not part of
the state: the sections may change what it holds, and what it holds bounds both what the others
may do meanwhile and what its own next section may do.
-/

namespace RemoteControl.Foundations.Custody

open RemoteControl.Foundations.Interference
open RemoteControl.Foundations.Interference.Task

universe u v w

/-- The rules that a party follows which holds a `κ` over the states `σ`. -/
structure Discipline (σ : Type u) (κ : Type w) where
  /-- What the others may do while this party holds `k`. -/
  rely : κ → σ → σ → Prop
  /-- A section that finds a state, and leaves another with other things held. -/
  act : κ → σ → κ → σ → Prop
  /-- The update that may come next while `k` is held. -/
  next : κ → (σ → σ) → Prop

variable {σ : Type u} {κ : Type w} {α β : Type v} (D : Discipline σ κ)

/-- Every section of the task follows the rules, whatever the others do within `rely`, and the
task ends in `post`. -/
def Keeps (post : κ → α → σ → Prop) : Task σ α → κ → σ → Prop
  | .done a, k, s => post k a s
  | .atomic update next, k, s =>
      D.next k update ∧ ∀ found, D.rely k s found →
        ∃ k', D.act k found k' (update found) ∧ Keeps post (next found) k' (update found)

variable {D} {post : κ → α → σ → Prop} {k : κ} {s : σ}

theorem keeps_pure {a : α} (h : post k a s) : Keeps D post (pure a) k s :=
  h

theorem keeps_critical {f : σ → α × σ} (hnext : D.next k fun s => (f s).2)
    (h : ∀ found, D.rely k s found →
      ∃ k', D.act k found k' (f found).2 ∧ post k' (f found).1 (f found).2) :
    Keeps D post (critical f) k s :=
  ⟨hnext, h⟩

theorem keeps_modify {f : σ → σ} {post : κ → PUnit → σ → Prop} (hnext : D.next k f)
    (h : ∀ found, D.rely k s found →
      ∃ k', D.act k found k' (f found) ∧ post k' PUnit.unit (f found)) :
    Keeps D post (modify f) k s :=
  ⟨hnext, h⟩

theorem keeps_read {f : σ → α} (hnext : D.next k id)
    (h : ∀ found, D.rely k s found → ∃ k', D.act k found k' found ∧ post k' (f found) found) :
    Keeps D post (read f) k s :=
  ⟨hnext, h⟩

theorem Keeps.mono {post' : κ → α → σ → Prop} {t : Task σ α} (h : Keeps D post t k s)
    (hpost : ∀ k a s, post k a s → post' k a s) : Keeps D post' t k s := by
  induction t generalizing k s with
  | done a => exact hpost _ _ _ h
  | atomic update next ih =>
      refine ⟨h.1, fun found hrely => ?_⟩
      obtain ⟨k', hact, hnext⟩ := h.2 found hrely
      exact ⟨k', hact, ih found hnext⟩

/-- The sequence rule. -/
theorem Keeps.bind {mid : κ → α → σ → Prop} {post : κ → β → σ → Prop} {t : Task σ α}
    {f : α → Task σ β} (ht : Keeps D mid t k s)
    (hf : ∀ k a s, mid k a s → Keeps D post (f a) k s) : Keeps D post (t >>= f) k s := by
  induction t generalizing k s with
  | done a => exact hf _ _ _ ht
  | atomic update next ih =>
      refine ⟨ht.1, fun found hrely => ?_⟩
      obtain ⟨k', hact, hnext⟩ := ht.2 found hrely
      exact ⟨k', hact, ih found hnext⟩

theorem Keeps.rely (htrans : ∀ {k s t u}, D.rely k s t → D.rely k t u → D.rely k s u)
    (hstable : ∀ {k a s s'}, post k a s → D.rely k s s' → post k a s') {t : Task σ α} {s' : σ}
    (h : Keeps D post t k s) (hrely : D.rely k s s') : Keeps D post t k s' := by
  cases t with
  | done a => exact hstable h hrely
  | atomic update next => exact ⟨h.1, fun found hfound => h.2 found (htrans hrely hfound)⟩

/-- Begun where `I` holds, the task follows the rules and ends where `I` holds. -/
def Preserves (D : Discipline σ κ) (I : κ → σ → Prop) (t : Task σ α) : Prop :=
  ∀ k s, I k s → Keeps D (fun k _ s => I k s) t k s

theorem preserves_pure {I : κ → σ → Prop} (a : α) : Preserves D I (pure a : Task σ α) :=
  fun _ _ h => keeps_pure h

theorem Preserves.bind {I : κ → σ → Prop} {t : Task σ α} {f : α → Task σ β}
    (ht : Preserves D I t) (hf : ∀ a, Preserves D I (f a)) : Preserves D I (t >>= f) :=
  fun k s h => (ht k s h).bind fun k a s h => hf a k s h

/-- A loop, with an invariant over what is left of the list. -/
theorem keeps_forM {γ : Type v} (inv : List γ → κ → σ → Prop) (body : γ → Task σ PUnit)
    (hbody : ∀ x xs k s, inv (x :: xs) k s →
      Keeps D (fun k _ s => inv xs k s) (body x) k s)
    {xs : List γ} {k : κ} {s : σ} (h : inv xs k s) :
    Keeps D (fun k _ s => inv [] k s) (xs.forM body) k s := by
  induction xs generalizing k s with
  | nil => exact h
  | cons x xs ih =>
      change Keeps D _ (body x >>= fun _ => xs.forM body) k s
      exact (hbody x xs k s h).bind fun k _ s hinv => ih hinv

/-- A task whose sections all stay within a relation that leaves the holdings alone. -/
theorem keeps_of_guarantees {G : σ → σ → Prop} {I : κ → σ → Prop} {t : Task σ α}
    (ht : Guarantees G t) (hnext : ∀ update, D.next k update)
    (hrely : ∀ {s s'}, I k s → D.rely k s s' → I k s')
    (hact : ∀ {s s'}, I k s → G s s' → D.act k s k s' ∧ I k s') (h : I k s) :
    Keeps D (fun k' _ s' => k' = k ∧ I k s') t k s := by
  induction t generalizing s with
  | done a => exact ⟨rfl, h⟩
  | atomic update next ih =>
      refine ⟨hnext update, fun found hfound => ?_⟩
      obtain ⟨hacted, hkept⟩ := hact (hrely h hfound) (ht.1 found)
      exact ⟨k, hacted, ih found (ht.2 found) hkept⟩

end RemoteControl.Foundations.Custody
