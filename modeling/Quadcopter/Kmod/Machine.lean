import Mathlib.Logic.Function.Basic
import Quadcopter.Common.Memory
import Quadcopter.Common.Ringbuf
import Quadcopter.Library.MachineInt

/-
What the kernel module works on: the registers of the m3's subsystem, the
translation table, the firmware image and firmware_enabled, one access at a
time (panda/kmod/mmu.c, panda/kmod/firmware.c).

The registers and the table are reached from the pointers that ioremap returns
for their regions, and the image from firmware_ptr, which has 32 bits.  *f_pos
is a variable of the call: the kernel passes a copy of the file's position.
-/

namespace Quadcopter

open AtomicProgram

inductive Register where
  | clkctrl
  | clkstctrl
  | rstctrl
  | ttb
  | cntl
deriving DecidableEq, Repr

def Register.address : Register → UInt32
  | .clkctrl => coreCm2Region + 0x220
  | .clkstctrl => coreCm2Region + 0x200
  | .rstctrl => corePrmRegion + 0x210
  | .ttb => mmuConfigRegion + 0x4C
  | .cntl => mmuConfigRegion + 0x44

theorem Register.address_injective :
    Function.Injective Register.address := by
  intro first second same
  cases first <;> cases second <;> first | rfl | exact absurd same (by decide)

structure Machine where
  register : Register → UInt32
  table : Buffer
  firmwareEnabled : Bool
  firmware : UInt32 → UInt8
  fPos : (call : Nat) → Int64

inductive MachineOp where
  | ioread32 (register : Register)
  | iowrite32 (value : UInt32) (register : Register)
  | storeTableByte (offset : Nat) (value : UInt8)
  | storeTable (value offset : UInt32)
  | loadFirmwareEnabled
  | storeFirmwareEnabled (value : Bool)
  | storeFirmware (offset : UInt32) (value : UInt8)
  | storeFPos (call : Nat) (value : Int64)
deriving DecidableEq, Repr

def MachineOp.storesFirmware : MachineOp → Bool
  | .storeFirmware _ _ => true
  | _ => false

def MachineOp.Answer : MachineOp → Type
  | .ioread32 _ => UInt32
  | .loadFirmwareEnabled => Bool
  | _ => Unit

abbrev KmodProgram (α : Type) : Type := Program MachineOp MachineOp.Answer α

def ioread32 (register : Register) : KmodProgram UInt32 :=
  .perform (MachineOp.ioread32 register)

def iowrite32 (value : UInt32) (register : Register) : KmodProgram Unit :=
  .perform (MachineOp.iowrite32 value register)

def storeTable (value offset : UInt32) : KmodProgram Unit :=
  .perform (MachineOp.storeTable value offset)

def loadFirmwareEnabled : KmodProgram Bool :=
  .perform MachineOp.loadFirmwareEnabled

def storeFirmwareEnabled (value : Bool) : KmodProgram Unit :=
  .perform (MachineOp.storeFirmwareEnabled value)

def storeFPos (call : Nat) (value : Int64) : KmodProgram Unit :=
  .perform (MachineOp.storeFPos call value)

namespace Machine

def execute : Execution MachineOp MachineOp.Answer Machine
  | .ioread32 register, machine => (machine.register register, machine)
  | .iowrite32 value register, machine =>
      ((), { machine with
        register := Function.update machine.register register value })
  | .storeTableByte offset value, machine =>
      ((), { machine with table := Function.update machine.table offset value })
  | .storeTable value offset, machine =>
      ((), { machine with
        table := MachineInt.storeWord machine.table offset.toNat value })
  | .loadFirmwareEnabled, machine => (machine.firmwareEnabled, machine)
  | .storeFirmwareEnabled value, machine =>
      ((), { machine with firmwareEnabled := value })
  | .storeFirmware offset value, machine =>
      ((), { machine with
        firmware := Function.update machine.firmware offset value })
  | .storeFPos call value, machine =>
      ((), { machine with fPos := Function.update machine.fPos call value })

/-- Bit 0 of RM_MPU_M3_RSTCTRL holds the core in reset. -/
def InReset (machine : Machine) : Prop := machine.register .rstctrl &&& 1 = 1

instance (machine : Machine) : Decidable machine.InReset :=
  inferInstanceAs (Decidable (machine.register .rstctrl &&& 1 = 1))

end Machine

end Quadcopter
