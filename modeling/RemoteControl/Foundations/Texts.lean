import Mathlib.Data.Countable.Basic
import Mathlib.Logic.Equiv.List

/-!
Texts for the values of a countable type, from which each value can be read back.
-/

namespace RemoteControl.Foundations.Texts

instance countableChar : Countable Char :=
  Function.Injective.countable (f := Char.toNat) fun _ _ h => Char.toNat_inj.mp h

instance countableString : Countable String :=
  Function.Injective.countable (f := String.toList) fun _ _ h => String.toList_inj.mp h

instance countableUInt32 : Countable UInt32 :=
  Function.Injective.countable (f := UInt32.toNat) fun _ _ h => UInt32.toNat_inj.mp h

instance countableUInt64 : Countable UInt64 :=
  Function.Injective.countable (f := UInt64.toNat) fun _ _ h => UInt64.toNat_inj.mp h

instance countableInt32 : Countable Int32 :=
  Function.Injective.countable (f := Int32.toInt) fun _ _ h => Int32.toInt_inj.mp h

instance countableInt64 : Countable Int64 :=
  Function.Injective.countable (f := Int64.toInt) fun _ _ h => Int64.toInt_inj.mp h

theorem exists_text (α : Type*) [Countable α] :
    ∃ (write : α → String) (read : String → Option α), ∀ a, read (write a) = some a := by
  obtain ⟨number, hnumber⟩ := exists_injective_nat α
  let write : α → String := fun a => String.ofList (List.replicate (number a) 'x')
  have hinjective : Function.Injective write := by
    intro a b h
    have hlengths := congrArg (fun text => text.toList.length) h
    simp only [write, String.toList_ofList, List.length_replicate] at hlengths
    exact hnumber hlengths
  exact ⟨write, Function.partialInv write, fun a => Function.partialInv_left hinjective a⟩

end RemoteControl.Foundations.Texts
