import Quadcopter.Kmod.MmuTable

/-
The translation table of the a9 boot loader (panda/a9/mmu.c), which is an array
of words, and what its functions make of it.

What is written to the uart between the stores is kept as operations of its own.
-/

namespace Quadcopter.A9

open AtomicProgram SectionTable

inductive A9Op where
  | storeTable (index value : UInt32)
  | uartPuts (text : String)
  | uartPuthex (value : UInt32)
deriving DecidableEq, Repr

def A9Op.Answer : A9Op → Type := fun _ => Unit

abbrev A9Program (α : Type) : Type := Program A9Op A9Op.Answer α

def storeTable (index value : UInt32) : A9Program Unit :=
  .perform (A9Op.storeTable index value)

def uartPuts (text : String) : A9Program Unit :=
  .perform (A9Op.uartPuts text)

def uartPuthex (value : UInt32) : A9Program Unit :=
  .perform (A9Op.uartPuthex value)

abbrev Words : Type := Nat → UInt32

def execute : Execution A9Op A9Op.Answer Words
  | .storeTable index value, table =>
      ((), Function.update table index.toNat value)
  | .uartPuts _, table => ((), table)
  | .uartPuthex _, table => ((), table)

def mmuInitLoop : (i left : Nat) → A9Program Unit
  | _, 0 => return ()
  | i, left + 1 => do
      storeTable (UInt32.ofNat i) 0
      mmuInitLoop (i + 1) left

def mmuInit : A9Program Unit := mmuInitLoop 0 4096

def mmuVirtMask : UInt32 := 0xFFF00000

def mmuVirtShift : UInt32 := 20

def mmuTableSection : UInt32 := 0xC02

def mmuMap (virt phys : UInt32) : A9Program Unit := do
  let virt := (virt &&& mmuVirtMask) >>> mmuVirtShift
  storeTable virt ((phys &&& mmuVirtMask) ||| mmuTableSection)
  uartPuts "just mapped "
  uartPuthex virt
  uartPuts " "
  uartPuthex phys
  uartPuts "\n"

def mmuMapRangeLoop (vstart pstart : UInt32) : (i left : Nat) → A9Program Unit
  | _, 0 => return ()
  | i, left + 1 => do
      let vcur := vstart + UInt32.ofNat i <<< mmuVirtShift
      let pcur := pstart + UInt32.ofNat i <<< mmuVirtShift
      mmuMap vcur pcur
      mmuMapRangeLoop vstart pstart (i + 1) left

def mmuMapRange (vstart pstart count : UInt32) : A9Program Unit := do
  uartPuts "About to map range "
  uartPuthex vstart
  uartPuts " "
  uartPuthex pstart
  uartPuts " "
  uartPuthex count
  uartPuts "\n"
  mmuMapRangeLoop vstart pstart 0 count.toNat

private theorem run_mmuInitLoop (i left : Nat) (inside : i + left ≤ 4096)
    {table : Words}
    (cleared : ∀ megabyte, megabyte < i → table megabyte = 0) :
    ∀ megabyte, megabyte < i + left →
      ((mmuInitLoop i left).run execute table).2 megabyte = 0 := by
  induction left generalizing i table with
  | zero => exact cleared
  | succ left ih =>
      have index : (UInt32.ofNat i).toNat = i := by
        rw [UInt32.toNat_ofNat']
        omega
      have next : ∀ megabyte, megabyte < i + 1 →
          Function.update table (UInt32.ofNat i).toNat 0 megabyte = 0 := by
        intro megabyte before
        by_cases here : megabyte = i
        · rw [index, here, Function.update_self]
        · rw [index, Function.update_of_ne here]
          exact cleared megabyte (by omega)
      intro megabyte before
      exact ih (i + 1) (by omega) next megabyte (by omega)

theorem run_mmuInit (table : Words) :
    Lists sectionAttributes (mmuInit.run execute table).2 Mapping.empty := by
  intro megabyte inside
  unfold mmuInit Mapping.empty wordOf
  apply run_mmuInitLoop 0 4096 (Nat.le_refl _)
  · intro before impossible
    exact absurd impossible (Nat.not_lt_zero before)
  · rw [Nat.zero_add]
    exact inside

theorem run_mmuMap (virt phys : UInt32) (table : Words) :
    (mmuMap virt phys).run execute table =
      ((), Function.update table (megabyteOf virt)
        (descriptor sectionAttributes (megabyteOf phys))) := by
  rw [← toNat_sectionIndex, ← sectionWord_eq]
  rfl

theorem run_mmuMapRangeLoop (vstart pstart : UInt32) {mapping : Mapping}
    (i left : Nat) (short : i + left ≤ 4096) {table : Words}
    (lists : Lists sectionAttributes table
      (mapping.assignRange (megabyteOf vstart) (megabyteOf pstart) i)) :
    Lists sectionAttributes
      ((mmuMapRangeLoop vstart pstart i left).run execute table).2
      (mapping.assignRange (megabyteOf vstart) (megabyteOf pstart)
        (i + left)) := by
  induction left generalizing i table with
  | zero => exact lists
  | succ left ih =>
      have next := (lists.assign ((megabyteOf vstart + i) % 4096)
        ((megabyteOf pstart + i) % 4096)).congr
        (fun megabyte inside => (Mapping.assignRange_succ mapping
          (megabyteOf vstart) (megabyteOf pstart) i (by omega) inside).symm)
      rw [← megabyteOf_add_shift vstart (by omega),
        ← megabyteOf_add_shift pstart (by omega)] at next
      have rest := ih (i + 1) (by omega) next
      unfold mmuMapRangeLoop
      rw [Program.run_bind, run_mmuMap]
      rw [show i + (left + 1) = i + 1 + left by omega]
      exact rest

theorem run_mmuMapRange (vstart pstart count : UInt32) {mapping : Mapping}
    (short : count.toNat ≤ 4096) {table : Words}
    (lists : Lists sectionAttributes table mapping) :
    Lists sectionAttributes
      ((mmuMapRange vstart pstart count).run execute table).2
      (mapping.assignRange (megabyteOf vstart) (megabyteOf pstart)
        count.toNat) := by
  have from_zero := run_mmuMapRangeLoop vstart pstart 0 count.toNat
    (by omega) (lists.congr (fun megabyte _ => rfl))
  rw [Nat.zero_add] at from_zero
  exact from_zero

end Quadcopter.A9
