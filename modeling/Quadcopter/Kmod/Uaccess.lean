import Quadcopter.Common.Ringbuf

/-
copy_from_user and copy_to_user, as the kernel documents them.

Both return how many of the bytes they did not copy, as an unsigned long.  A
copy from the user fills what it could not copy with zeros.
-/

namespace Quadcopter

def minusEinval : Int32 := -22

/-- A user's memory, by the offset from the pointer that was passed, and how
many bytes each copy of a call leaves uncopied. -/
structure UserBuffer where
  bytes : Buffer
  uncopied : Nat → Nat

def UserBuffer.readable (bytes : Buffer) : UserBuffer :=
  { bytes, uncopied := fun _ => 0 }

def copyFromUser (kbuf bytes : Buffer) (offset : Nat) (n : UInt32)
    (uncopied : Nat) : UInt32 × Buffer :=
  let left := min uncopied n.toNat
  (UInt32.ofNat left, fun index =>
    if index < n.toNat - left then bytes (offset + index)
    else if index < n.toNat then 0
    else kbuf index)

/-- The stores that copy_to_user does: the offset and the byte. -/
def copyToUser (offset : Nat) (bytes : Buffer) (n : UInt32) (uncopied : Nat) :
    UInt32 × List (Nat × UInt8) :=
  let left := min uncopied n.toNat
  (UInt32.ofNat left,
    (List.range (n.toNat - left)).map
      (fun index => (offset + index, bytes index)))

theorem copyFromUser_complete (kbuf bytes : Buffer) (offset : Nat) (n : UInt32)
    {index : Nat} (inside : index < n.toNat) :
    (copyFromUser kbuf bytes offset n 0).2 index = bytes (offset + index) := by
  simp [copyFromUser, inside]

/-- Nothing is ever below zero as an unsigned long. -/
theorem copyFromUser_not_negative (kbuf bytes : Buffer) (offset : Nat)
    (n : UInt32) (uncopied : Nat) :
    ¬ (copyFromUser kbuf bytes offset n uncopied).1 < 0 :=
  fun less => absurd (UInt32.lt_iff_toNat_lt.mp less) (Nat.not_lt_zero _)

theorem copyToUser_not_negative (offset : Nat) (bytes : Buffer) (n : UInt32)
    (uncopied : Nat) : ¬ (copyToUser offset bytes n uncopied).1 < 0 :=
  fun less => absurd (UInt32.lt_iff_toNat_lt.mp less) (Nat.not_lt_zero _)

theorem copyToUser_length (offset : Nat) (bytes : Buffer) (n : UInt32)
    (uncopied : Nat) :
    (copyToUser offset bytes n uncopied).2.length =
      n.toNat - min uncopied n.toNat := by
  simp [copyToUser]

theorem copyToUser_complete (offset : Nat) (bytes : Buffer) (n : UInt32) :
    (copyToUser offset bytes n 0).2.map Prod.fst =
        (List.range n.toNat).map (offset + ·) ∧
      (copyToUser offset bytes n 0).2.map Prod.snd = bytes.first n.toNat := by
  unfold copyToUser Buffer.first
  simp only [Nat.zero_min, Nat.sub_zero, List.map_map]
  exact ⟨rfl, rfl⟩

end Quadcopter
