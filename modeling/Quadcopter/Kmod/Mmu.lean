import Quadcopter.Kmod.Machine
import Quadcopter.Library.SectionTable

/-
The translation table and the resets of the m3 (panda/kmod/mmu.c), and
quadcopter_ioctl (panda/kmod/main.c), which builds the one and releases the
other.

memset_io stores byte after byte.
-/

namespace Quadcopter

open AtomicProgram SectionTable

def memsetIo (value : UInt8) : (offset count : Nat) → KmodProgram Unit
  | _, 0 => return ()
  | offset, count + 1 =>
      .step (.storeTableByte offset value) (fun _ =>
        memsetIo value (offset + 1) count)

def mmuInit : KmodProgram Int32 := do
  memsetIo 0 0 mmuTableLength.toNat
  return 0

def mmuVirtMask : UInt32 := 0xFFF00000

def mmuVirtShift : UInt32 := 20

def mmuTableSection : UInt32 := 0xC02

def mmuMap (virt phys : UInt32) : KmodProgram Unit :=
  let virt := ((virt &&& mmuVirtMask) >>> mmuVirtShift) * 4
  storeTable ((phys &&& mmuVirtMask) ||| mmuTableSection) virt

def mmuMapRangeLoop (vstart pstart : UInt32) : (i left : Nat) → KmodProgram Unit
  | _, 0 => return ()
  | i, left + 1 => do
      let vcur := vstart + UInt32.ofNat i <<< mmuVirtShift
      let pcur := pstart + UInt32.ofNat i <<< mmuVirtShift
      mmuMap vcur pcur
      mmuMapRangeLoop vstart pstart (i + 1) left

def mmuMapRange (vstart pstart count : UInt32) : KmodProgram Unit :=
  mmuMapRangeLoop vstart pstart 0 count.toNat

def quadcopterMapRange (window : Window) : KmodProgram Unit :=
  mmuMapRange window.virt window.phys (UInt32.ofNat window.lenMb)

def m3MmuReset : UInt32 := (1 : UInt32) <<< 2

def m3Cpu1Reset : UInt32 := (1 : UInt32) <<< 0

def modulemode : UInt32 := (1 : UInt32) <<< 0

def clktrctrlSwWkup : UInt32 := 0x2

def cntlTwlenable : UInt32 := (1 : UInt32) <<< 2

def cntlMmuenable : UInt32 := (1 : UInt32) <<< 1

def mmuEnable : KmodProgram Unit := do
  iowrite32 modulemode .clkctrl
  iowrite32 clktrctrlSwWkup .clkstctrl
  let reg ← ioread32 .rstctrl
  iowrite32 (reg &&& ~~~m3MmuReset) .rstctrl
  iowrite32 mmuTableRegion .ttb
  iowrite32 (cntlTwlenable ||| cntlMmuenable) .cntl

def mmuEnableM3 : KmodProgram Unit := do
  let reg ← ioread32 .rstctrl
  iowrite32 (reg &&& ~~~m3Cpu1Reset) .rstctrl

def mmuDisableM3 : KmodProgram Unit := do
  let reg ← ioread32 .rstctrl
  iowrite32 (reg ||| m3Cpu1Reset) .rstctrl

def firmwareEnable : KmodProgram Unit :=
  storeFirmwareEnabled true

def firmwareDisable : KmodProgram Unit :=
  storeFirmwareEnabled false

def quadcopterStart : UInt32 := (10 : UInt32) <<< 8

def quadcopterStop : UInt32 := ((10 : UInt32) <<< 8) + 1

def quadcopterIoctl (ioctlNum : UInt32) : KmodProgram Int32 :=
  if ioctlNum = quadcopterStop then do
    mmuDisableM3
    firmwareEnable
    return 0
  else if ioctlNum = quadcopterStart then do
    let _ ← mmuInit
    quadcopterMapRange .program
    quadcopterMapRange .stack
    quadcopterMapRange .per
    quadcopterMapRange .cfg
    quadcopterMapRange .m3Private
    quadcopterMapRange .tx
    quadcopterMapRange .rx
    quadcopterMapRange .trace
    mmuEnable
    firmwareDisable
    mmuEnableM3
    return 0
  else return 0

def ioctls : List UInt32 → KmodProgram Unit
  | [] => return ()
  | ioctlNum :: rest => do
      let _ ← quadcopterIoctl ioctlNum
      ioctls rest

end Quadcopter
