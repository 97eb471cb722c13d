import Quadcopter.Kmod.Mmu

/-
What the functions of mmu.c make of the translation table: mmu_init clears it,
and mmu_map_range assigns one range of megabytes after the others.
-/

namespace Quadcopter

open AtomicProgram SectionTable

def sectionAttributes : Attributes :=
  { bits := mmuTableSection
    small := by decide
    marked := by decide }

def Machine.withTable (machine : Machine) (table : Buffer) : Machine :=
  { machine with table }

private theorem run_memsetIo (value : UInt8) (offset count : Nat)
    (machine : Machine) :
    (memsetIo value offset count).run Machine.execute machine =
      ((), machine.withTable (fun index =>
        if offset ≤ index ∧ index < offset + count then value
        else machine.table index)) := by
  induction count generalizing offset machine with
  | zero =>
      have none_set : (fun index =>
          if offset ≤ index ∧ index < offset + 0 then value
          else machine.table index) = machine.table := by
        funext index
        exact if_neg (by omega)
      rw [none_set]
      rfl
  | succ count ih =>
      have set : (fun index =>
          if offset + 1 ≤ index ∧ index < offset + 1 + count then value
          else Function.update machine.table offset value index) =
          fun index =>
            if offset ≤ index ∧ index < offset + (count + 1) then value
            else machine.table index := by
        funext index
        by_cases here : index = offset
        · rw [here, if_neg (by omega), if_pos (by omega), Function.update_self]
        · rw [Function.update_of_ne here]
          by_cases there : offset + 1 ≤ index ∧ index < offset + 1 + count
          · rw [if_pos there, if_pos (by omega)]
          · rw [if_neg there, if_neg (by omega)]
      rw [← set]
      exact ih (offset + 1)
        (machine.withTable (Function.update machine.table offset value))

theorem run_mmuInit (machine : Machine) :
    ∃ table, mmuInit.run Machine.execute machine =
        (0, machine.withTable table) ∧
      Represents sectionAttributes table Mapping.empty := by
  refine ⟨fun index =>
    if 0 ≤ index ∧ index < 0 + mmuTableLength.toNat then 0
    else machine.table index, ?_, represents_empty sectionAttributes ?_⟩
  · unfold mmuInit
    rw [Program.run_bind, run_memsetIo]
    rfl
  · intro index inside
    have length : mmuTableLength.toNat = 4 * 4096 := rfl
    exact if_pos ⟨Nat.zero_le index, by omega⟩

theorem toNat_sectionIndex (virt : UInt32) :
    ((virt &&& mmuVirtMask) >>> mmuVirtShift).toNat = megabyteOf virt := by
  rw [UInt32.toNat_shiftRight, mmuVirtMask, MachineInt.toNat_and_sectionMask]
  change _ >>> 20 = _
  rw [Nat.shiftRight_eq_div_pow]
  unfold megabyteOf
  omega

theorem toNat_entryOffset (virt : UInt32) :
    (((virt &&& mmuVirtMask) >>> mmuVirtShift) * 4).toNat =
      4 * megabyteOf virt := by
  have bound := megabyteOf_lt virt
  rw [UInt32.toNat_mul, toNat_sectionIndex]
  change _ * 4 % _ = _
  omega

theorem sectionWord_eq (phys : UInt32) :
    (phys &&& mmuVirtMask) ||| mmuTableSection =
      descriptor sectionAttributes (megabyteOf phys) := by
  have bound := megabyteOf_lt phys
  have high : phys &&& mmuVirtMask =
      UInt32.ofNat (megabyteOf phys * 2 ^ 20) := by
    apply UInt32.toNat_inj.mp
    rw [mmuVirtMask, MachineInt.toNat_and_sectionMask, UInt32.toNat_ofNat']
    unfold megabyteOf at bound ⊢
    omega
  rw [high]
  rfl

theorem run_mmuMap (virt phys : UInt32) (machine : Machine) :
    (mmuMap virt phys).run Machine.execute machine =
      ((), machine.withTable (storeEntry machine.table (megabyteOf virt)
        (descriptor sectionAttributes (megabyteOf phys)))) := by
  unfold mmuMap storeEntry
  rw [← toNat_entryOffset, ← sectionWord_eq]
  rfl

theorem megabyteOf_add_shift (start : UInt32) {i : Nat} (inside : i < 4096) :
    megabyteOf (start + UInt32.ofNat i <<< mmuVirtShift) =
      (megabyteOf start + i) % 4096 := by
  have shifted : (UInt32.ofNat i <<< mmuVirtShift).toNat = i * 2 ^ 20 := by
    rw [UInt32.toNat_shiftLeft]
    change (UInt32.ofNat i).toNat <<< 20 % 2 ^ 32 = _
    rw [Nat.shiftLeft_eq, UInt32.toNat_ofNat']
    omega
  unfold megabyteOf
  rw [UInt32.toNat_add, shifted]
  omega

theorem run_mmuMapRangeLoop (vstart pstart : UInt32) {mapping : Mapping}
    (i left : Nat) (short : i + left ≤ 4096) {machine : Machine}
    (represents : Represents sectionAttributes machine.table
      (mapping.assignRange (megabyteOf vstart) (megabyteOf pstart) i)) :
    ∃ table, (mmuMapRangeLoop vstart pstart i left).run Machine.execute
        machine = ((), machine.withTable table) ∧
      Represents sectionAttributes table (mapping.assignRange
        (megabyteOf vstart) (megabyteOf pstart) (i + left)) := by
  induction left generalizing i machine with
  | zero => exact ⟨machine.table, rfl, represents⟩
  | succ left ih =>
      have next := (represents.assign ((megabyteOf vstart + i) % 4096)
        (Nat.mod_lt (megabyteOf pstart + i) (by omega))).congr
        (fun megabyte inside => (Mapping.assignRange_succ mapping
          (megabyteOf vstart) (megabyteOf pstart) i (by omega) inside).symm)
      rw [← megabyteOf_add_shift vstart (by omega),
        ← megabyteOf_add_shift pstart (by omega)] at next
      have stored_next : Represents sectionAttributes
          (machine.withTable _).table _ := next
      obtain ⟨table, ran, stored⟩ := ih (i + 1) (by omega) stored_next
      refine ⟨table, ?_, ?_⟩
      · unfold mmuMapRangeLoop
        rw [Program.run_bind, run_mmuMap]
        exact ran
      · rw [show i + (left + 1) = i + 1 + left by omega]
        exact stored

theorem run_mmuMapRange (vstart pstart count : UInt32) {mapping : Mapping}
    (short : count.toNat ≤ 4096) {machine : Machine}
    (represents : Represents sectionAttributes machine.table mapping) :
    ∃ table, (mmuMapRange vstart pstart count).run Machine.execute machine =
        ((), machine.withTable table) ∧
      Represents sectionAttributes table (mapping.assignRange
        (megabyteOf vstart) (megabyteOf pstart) count.toNat) := by
  have from_zero := run_mmuMapRangeLoop vstart pstart 0 count.toNat
    (by omega) (represents.congr (fun megabyte _ => rfl))
  rw [Nat.zero_add] at from_zero
  exact from_zero

end Quadcopter
