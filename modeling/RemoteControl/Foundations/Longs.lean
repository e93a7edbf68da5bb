import Mathlib.Algebra.Group.Int.Defs
import Mathlib.Algebra.Group.Nat.Defs

/-!
When the operations on 64-bit integers compute what the integers give.
-/

namespace RemoteControl.Foundations.Longs

/-- A 64-bit integer holds `x`. -/
def Fits (x : Int) : Prop :=
  -2 ^ 63 ≤ x ∧ x < 2 ^ 63

instance (x : Int) : Decidable (Fits x) :=
  inferInstanceAs (Decidable (_ ∧ _))

theorem fits_toInt (a : Int64) : Fits a.toInt :=
  ⟨a.le_toInt, a.toInt_lt⟩

theorem bmod_eq_self_iff {x : Int} : x.bmod (2 ^ 64) = x ↔ Fits x := by
  constructor
  · intro h
    have hlow := @Int.le_bmod x (2 ^ 64) (by decide)
    have hhigh := @Int.bmod_lt x (2 ^ 64) (by decide)
    rw [h] at hlow hhigh
    exact ⟨hlow, hhigh⟩
  · rintro ⟨hlow, hhigh⟩
    exact Int.bmod_eq_of_le hlow hhigh

theorem toInt_add_iff {a b : Int64} :
    (a + b).toInt = a.toInt + b.toInt ↔ Fits (a.toInt + b.toInt) := by
  rw [Int64.toInt_add]
  exact bmod_eq_self_iff

theorem toInt_sub_iff {a b : Int64} :
    (a - b).toInt = a.toInt - b.toInt ↔ Fits (a.toInt - b.toInt) := by
  rw [Int64.toInt_sub]
  exact bmod_eq_self_iff

theorem toInt_mul_iff {a b : Int64} :
    (a * b).toInt = a.toInt * b.toInt ↔ Fits (a.toInt * b.toInt) := by
  rw [Int64.toInt_mul]
  exact bmod_eq_self_iff

theorem toInt_div {a b : Int64} (hb : 0 < b.toInt) : (a / b).toInt = a.toInt.tdiv b.toInt := by
  rw [Int64.toInt_div]
  refine bmod_eq_self_iff.mpr ?_
  obtain ⟨hlow, hhigh⟩ := fits_toInt a
  have habs := Int.natAbs_tdiv_le_natAbs a.toInt b.toInt
  have hcases := Int.le_total 0 a.toInt
  rcases hcases with hpos | hneg
  · have hnonneg := Int.tdiv_nonneg hpos (Int.le_of_lt hb)
    constructor
    all_goals omega
  · have hnonneg := Int.tdiv_nonneg (Int.neg_nonneg_of_nonpos hneg) (Int.le_of_lt hb)
    rw [Int.neg_tdiv] at hnonneg
    constructor
    all_goals omega

end RemoteControl.Foundations.Longs
