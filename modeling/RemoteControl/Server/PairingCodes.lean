import RemoteControl.Foundations.Transition
import RemoteControl.Server.Stores

/-!
The pairing code over whole histories (`server-pc/src/pairing.rs`): attempts of any number of
clients, rotations, and a clock that never goes back.
-/

namespace RemoteControl.Server.PairingCodes

open RemoteControl.Foundations.ByteStrings
open RemoteControl.Foundations.Transition
open RemoteControl.Foundations.Transition.System
open RemoteControl.Server.Stores

/-! ### The store and its clock -/

structure Paired where
  store : PairingStore
  now : Nat

inductive Action where
  | call (client : Nat) (candidate : String) (result : VerifyResult)
  | rotate (code : String) (key : Bytes)
  | tick (elapsed : Nat)

def newWithFreshCode (now : Nat) (code : String) (key : Bytes) : PairingStore :=
  { code, key, created := now, consumed := false }

inductive PairedStep : Paired → Action → Paired → Prop
  | call (p : Paired) (client : Nat) (candidate : String) :
      PairedStep p (.call client candidate (p.store.verifyAndConsume p.now candidate).1)
        { p with store := (p.store.verifyAndConsume p.now candidate).2 }
  | rotate (p : Paired) (code : String) (key : Bytes) :
      PairedStep p (.rotate code key) { p with store := p.store.rotate p.now code key }
  | tick (p : Paired) (elapsed : Nat) :
      PairedStep p (.tick elapsed) { p with now := p.now + elapsed }

def pairing : System Paired Action where
  init p := ∃ code key, p.store = newWithFreshCode p.now code key
  step := PairedStep

/-! ### Epochs -/

def Action.isRotation : Action → Bool
  | .rotate .. => true
  | _ => false

def Action.isOk : Action → Bool
  | .call _ _ result => result = .ok
  | _ => false

/-- The time from one rotation to the next, with the code that is shown in it. -/
structure Epoch where
  code : String
  began : Nat

structure Moment where
  epoch : Epoch
  now : Nat

def Moment.after (m : Moment) : Action → Moment
  | .call .. => m
  | .rotate code _ => { m with epoch := { code, began := m.now } }
  | .tick elapsed => { m with now := m.now + elapsed }

/-- The clock and the current epoch after a history. -/
def moment (start : Paired) (history : List Action) : Moment :=
  history.foldl Moment.after
    { epoch := { code := start.store.code, began := start.now }, now := start.now }

/-! ### What a call does -/

theorem verifyAndConsume_of_ne_ok {store : PairingStore} {now : Nat} {candidate : String}
    (h : (store.verifyAndConsume now candidate).1 ≠ .ok) :
    (store.verifyAndConsume now candidate).2 = store := by
  unfold PairingStore.verifyAndConsume at h ⊢
  split_ifs at h ⊢
  · rfl
  · rfl
  · rfl
  · exact absurd rfl h

theorem verifyAndConsume_code (store : PairingStore) (now : Nat) (candidate : String) :
    (store.verifyAndConsume now candidate).2.code = store.code ∧
      (store.verifyAndConsume now candidate).2.created = store.created := by
  unfold PairingStore.verifyAndConsume
  split_ifs <;> exact ⟨rfl, rfl⟩

theorem verifyAndConsume_consumed (store : PairingStore) (now : Nat) (candidate : String) :
    (store.verifyAndConsume now candidate).2.consumed = true ↔
      store.consumed = true ∨ (store.verifyAndConsume now candidate).1 = .ok := by
  unfold PairingStore.verifyAndConsume
  split_ifs <;> simp_all

theorem verifyAndConsume_of_consumed {store : PairingStore} (h : store.consumed = true)
    (now : Nat) (candidate : String) :
    store.verifyAndConsume now candidate = (.used, store) := by
  rw [PairingStore.verifyAndConsume, if_pos h]

/-! ### Runs -/

theorem moment_of_run {start p : Paired} {history : List Action} (hinit : pairing.init start)
    (hrun : pairing.Run start history p) :
    (moment start history).now = p.now ∧ (moment start history).epoch.code = p.store.code ∧
      (moment start history).epoch.began = p.store.created := by
  induction hrun with
  | nil =>
      obtain ⟨code, key, hstore⟩ := hinit
      exact ⟨rfl, rfl, by rw [hstore]; rfl⟩
  | snoc hrun hstep ih =>
      obtain ⟨hnow, hcode, hbegan⟩ := ih
      simp only [moment, List.foldl_append, List.foldl_cons, List.foldl_nil] at hnow hcode hbegan ⊢
      cases hstep with
      | call client candidate =>
          obtain ⟨hcode', hcreated⟩ := verifyAndConsume_code _ _ candidate
          exact ⟨hnow, hcode.trans hcode'.symm, hbegan.trans hcreated.symm⟩
      | rotate code key => exact ⟨hnow, rfl, hnow⟩
      | tick elapsed => exact ⟨congrArg (· + elapsed) hnow, hcode, hbegan⟩

theorem step_consumed {p p' : Paired} {action : Action} (hstep : pairing.step p action p')
    (hepoch : action.isRotation = false) :
    action.isOk.toNat + p.store.consumed.toNat = p'.store.consumed.toNat := by
  cases hstep with
  | call client candidate =>
      cases hused : p.store.consumed with
      | true =>
          rw [verifyAndConsume_of_consumed hused]
          simp [Action.isOk, hused]
      | false =>
          have hconsumed := verifyAndConsume_consumed p.store p.now candidate
          rw [hused, Bool.false_eq_true, false_or] at hconsumed
          rw [Bool.toNat_false, Nat.add_zero]
          apply congrArg Bool.toNat
          apply Bool.eq_iff_iff.mpr
          rw [hconsumed, Action.isOk, decide_eq_true_eq]
  | rotate code key => exact absurd hepoch (by simp [Action.isRotation])
  | tick elapsed => simp [Action.isOk]

theorem countP_isOk_of_run {p p' : Paired} {history : List Action}
    (hrun : pairing.Run p history p') (hepoch : ∀ a ∈ history, a.isRotation = false) :
    history.countP Action.isOk + p.store.consumed.toNat = p'.store.consumed.toNat := by
  induction hrun with
  | nil => simp
  | snoc hrun hstep ih =>
      rw [List.forall_mem_append, List.forall_mem_singleton] at hepoch
      have hlast := step_consumed hstep hepoch.2
      have hsofar := ih hepoch.1
      rw [List.countP_append, List.countP_singleton]
      split
      · next hok =>
          rw [hok, Bool.toNat_true] at hlast
          omega
      · next hok =>
          rw [Bool.eq_false_iff.mpr hok, Bool.toNat_false] at hlast
          omega

theorem call_isOk {start p p' : Paired} {history : List Action} {client : Nat}
    {candidate : String} (hinit : pairing.init start) (hrun : pairing.Run start history p)
    (hstep : pairing.step p (.call client candidate .ok) p') :
    candidate = (moment start history).epoch.code ∧
      (moment start history).now ≤
        (moment start history).epoch.began + pairingCodeTtlSecs * nanosPerSec := by
  obtain ⟨hnow, hcode, hbegan⟩ := moment_of_run hinit hrun
  have hok : (p.store.verifyAndConsume p.now candidate).1 = .ok := by
    generalize hresult : VerifyResult.ok = result at hstep
    cases hstep
    rfl
  obtain ⟨hcandidate, -, hlifetime⟩ := (PairingStore.verifyAndConsume_eq_ok_iff _ _ _).mp hok
  constructor
  · rw [hcode, hcandidate]
  · omega

theorem moment_code (start : Paired) (before between : List Action) (code : String)
    (key : Bytes) (hepoch : ∀ a ∈ between, a.isRotation = false) :
    (moment start (before ++ .rotate code key :: between)).epoch.code = code := by
  have hfold (m : Moment) : (between.foldl Moment.after m).epoch = m.epoch := by
    induction between generalizing m with
    | nil => rfl
    | cons a rest ih =>
        rw [List.forall_mem_cons] at hepoch
        rw [List.foldl_cons, ih hepoch.2]
        cases a with
        | call => rfl
        | rotate => exact absurd hepoch.1 (by simp [Action.isRotation])
        | tick => rfl
  rw [moment, List.foldl_append, List.foldl_cons, hfold]
  rfl

/-- Pairing codes are one-shot. In every history from a fresh store: an epoch has at most one
`Ok`, which is for its own code and within the lifetime; a call that does not answer `Ok`
changes nothing; after an `Ok` every call of the epoch answers `Used`; and an epoch that a
rotation begins answers `Ok` to nothing but the new code. -/
theorem codes_are_one_shot {start p : Paired} {history : List Action}
    (hinit : pairing.init start) (hrun : pairing.Run start history p) :
    (∀ before epoch after, history = before ++ epoch ++ after →
        (∀ a ∈ epoch, a.isRotation = false) → epoch.countP Action.isOk ≤ 1) ∧
      (∀ before client candidate after, history = before ++ .call client candidate .ok :: after →
        candidate = (moment start before).epoch.code ∧
          (moment start before).now ≤
            (moment start before).epoch.began + pairingCodeTtlSecs * nanosPerSec) ∧
      (∀ client candidate result p', pairing.step p (.call client candidate result) p' →
        result ≠ .ok → p' = p) ∧
      (∀ before client candidate between client' candidate' result after,
        history = before ++ .call client candidate .ok ::
          (between ++ .call client' candidate' result :: after) →
        (∀ a ∈ between, a.isRotation = false) → result = .used) ∧
      (∀ before code key between client candidate after,
        history = before ++ .rotate code key ::
          (between ++ .call client candidate .ok :: after) →
        (∀ a ∈ between, a.isRotation = false) → candidate = code) := by
  refine ⟨?_, ?_, ?_, ?_, ?_⟩
  · rintro before epoch after rfl hepoch
    obtain ⟨t, hbefore, -⟩ := run_append_iff.mp hrun
    obtain ⟨s, -, hmid⟩ := run_append_iff.mp hbefore
    have hcount := countP_isOk_of_run hmid hepoch
    have hconsumed := t.store.consumed.toNat_le
    omega
  · rintro before client candidate after rfl
    obtain ⟨s, hbefore, hafter⟩ := run_append_iff.mp hrun
    obtain ⟨t, hstep, -⟩ := run_cons_iff.mp hafter
    exact call_isOk hinit hbefore hstep
  · rintro client candidate result p' ⟨⟩ hresult
    rw [verifyAndConsume_of_ne_ok hresult]
  · rintro before client candidate between client' candidate' result after rfl hepoch
    obtain ⟨s, -, hafter⟩ := run_append_iff.mp hrun
    obtain ⟨s', hok, hrest⟩ := run_cons_iff.mp hafter
    obtain ⟨t, hbetween, hrest'⟩ := run_append_iff.mp hrest
    obtain ⟨t', hcall, -⟩ := run_cons_iff.mp hrest'
    have hconsumed := step_consumed hok rfl
    have hcount := countP_isOk_of_run hbetween hepoch
    have hone : (Action.call client candidate .ok).isOk.toNat = 1 := rfl
    have hused : t.store.consumed = true := by
      by_contra hunused
      rw [Bool.eq_false_iff.mpr hunused, Bool.toNat_false] at hcount
      omega
    generalize haction : Action.call client' candidate' result = action at hcall
    cases hcall with
    | call client candidate =>
        rw [verifyAndConsume_of_consumed hused] at haction
        exact (Action.call.inj haction).2.2
    | rotate code key => cases haction
    | tick elapsed => cases haction
  · rintro before code key between client candidate after rfl hepoch
    rw [← List.cons_append, ← List.append_assoc] at hrun
    obtain ⟨s, hbefore, hafter⟩ := run_append_iff.mp hrun
    obtain ⟨t, hstep, -⟩ := run_cons_iff.mp hafter
    have hcode := (call_isOk hinit hbefore hstep).1
    rwa [moment_code start before between code key hepoch] at hcode

def freshPairing : Paired :=
  { store := newWithFreshCode 0 "123456" [1], now := 0 }

def consumedPairing : Paired :=
  { freshPairing with store := { freshPairing.store with consumed := true } }

/-- Two clients try the code one after the other. -/
def twoAttempts : List Action :=
  [.call 1 "123456" .ok, .call 2 "123456" .used]

theorem twoAttempts_run : pairing.Run freshPairing twoAttempts consumedPairing := by
  have hfirst : pairing.step freshPairing (.call 1 "123456" .ok) consumedPairing :=
    PairedStep.call freshPairing 1 "123456"
  have hsecond : pairing.step consumedPairing (.call 2 "123456" .used) consumedPairing :=
    PairedStep.call consumedPairing 2 "123456"
  exact .snoc (.single hfirst) hsecond

theorem codes_are_one_shot_twoAttempts : twoAttempts.countP Action.isOk ≤ 1 :=
  (codes_are_one_shot ⟨_, _, rfl⟩ twoAttempts_run).1 [] twoAttempts [] rfl (by decide)

end RemoteControl.Server.PairingCodes
