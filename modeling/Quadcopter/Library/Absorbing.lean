import Mathlib.Logic.Basic

/-
Values that every operation hands on.

Once the not-a-number of binary32 enters a computation it stays: whatever it is
combined with, the result is itself.  Lean's floats have one such value.
-/

namespace Quadcopter

structure Absorbing {R : Type} [Add R] [Sub R] [Mul R] [Div R] [Neg R]
    (lost : R) : Prop where
  neg : -lost = lost
  add_left : ∀ value, lost + value = lost
  add_right : ∀ value, value + lost = lost
  sub_left : ∀ value, lost - value = lost
  sub_right : ∀ value, value - lost = lost
  mul_left : ∀ value, lost * value = lost
  mul_right : ∀ value, value * lost = lost
  div_left : ∀ value, lost / value = lost
  div_right : ∀ value, value / lost = lost

open Float.Model

def float32NaN : Float32 := Float32.ofBits 0x7FC00000

theorem float32NaN_unpack : float32NaN.toModel.unpack = .notANumber := rfl

theorem float32NaN_pack :
    Float32.ofModel (Float32.Model.pack .notANumber) = float32NaN := by
  decide

/-- An operation that is not a number as soon as one of its operands is none. -/
theorem float32_absorbs
    (operation : UnpackedFloat → UnpackedFloat → UnpackedFloat)
    (left : ∀ value, operation .notANumber value = .notANumber)
    (right : ∀ value, operation value .notANumber = .notANumber)
    (value : Float32) :
    Float32.ofModel (Float32.Model.pack
        (operation float32NaN.toModel.unpack value.toModel.unpack)) =
      float32NaN ∧
    Float32.ofModel (Float32.Model.pack
        (operation value.toModel.unpack float32NaN.toModel.unpack)) =
      float32NaN := by
  rw [float32NaN_unpack, left, right]
  exact ⟨float32NaN_pack, float32NaN_pack⟩

theorem float32NaN_absorbing : Absorbing float32NaN := by
  have add := float32_absorbs (UnpackedFloat.add Format.binary32)
    (fun value => by cases value <;> rfl) (fun value => by cases value <;> rfl)
  have sub := float32_absorbs (UnpackedFloat.sub Format.binary32)
    (fun value => by cases value <;> rfl) (fun value => by cases value <;> rfl)
  have mul := float32_absorbs (UnpackedFloat.mul Format.binary32)
    (fun value => by cases value <;> rfl) (fun value => by cases value <;> rfl)
  have div := float32_absorbs (UnpackedFloat.div Format.binary32)
    (fun value => by cases value <;> rfl) (fun value => by cases value <;> rfl)
  exact {
    neg := by decide
    add_left := fun value => (add value).1
    add_right := fun value => (add value).2
    sub_left := fun value => (sub value).1
    sub_right := fun value => (sub value).2
    mul_left := fun value => (mul value).1
    mul_right := fun value => (mul value).2
    div_left := fun value => (div value).1
    div_right := fun value => (div value).2 }

end Quadcopter
