/-
The regions of the shared memory and the windows through which the m3 sees them
(panda/common/memory.h).

The physical layout is a chain: each region begins where the one before it ends.
-/

namespace Quadcopter

def quadcopterLenBytes (lenMb : Nat) : UInt32 := UInt32.ofNat (lenMb * 0x100000)

def quadcopterTxLenMb : Nat := 5

def quadcopterRxLenMb : Nat := 5

def quadcopterTraceLenMb : Nat := 5

def quadcopterRegion : UInt32 := 0x9e000000

def quadcopterLength : UInt32 := 0x01000000

def quadcopterFirmwareLength : UInt32 := 0x00200000

def mmuConfigRegion : UInt32 := 0x55082000

def mmuTableRegion : UInt32 := 0x9E000000

def mmuTableLength : UInt32 := 0x4000

def coreCm2Region : UInt32 := 0x4A008700

def corePrmRegion : UInt32 := 0x4A306700

/-- QUADCOPTER_x_VIRT, QUADCOPTER_x_PHYS and QUADCOPTER_x_LEN_MB. -/
structure Window where
  virt : UInt32
  phys : UInt32
  lenMb : Nat
deriving DecidableEq, Repr

def Window.physEnd (window : Window) : UInt32 :=
  window.phys + quadcopterLenBytes window.lenMb

namespace Window

def program : Window := ⟨0x00000000, 0x9E100000, 2⟩

def stack : Window := ⟨0x00300000, program.physEnd, 1⟩

def tx : Window := ⟨0x10000000, stack.physEnd, quadcopterTxLenMb⟩

def rx : Window := ⟨0x11000000, tx.physEnd, quadcopterRxLenMb⟩

def trace : Window := ⟨0x12000000, rx.physEnd, quadcopterTraceLenMb⟩

def per : Window := ⟨0x48000000, 0x48000000, 16⟩

def cfg : Window := ⟨0x4A000000, 0x4A000000, 16⟩

def m3Private : Window := ⟨0xE0000000, 0xE0000000, 1⟩

end Window

end Quadcopter
