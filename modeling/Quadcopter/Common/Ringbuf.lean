import Mathlib.Logic.Function.Basic
import Quadcopter.Library.AtomicProgram
import Quadcopter.Library.CircularWindow

/-
The ring buffer shared by the kernel module and the m3 (panda/common/ringbuf.c).

`size` is private to each end (`Ringbuf`); the two indices and the data lie in
shared memory (`RingMemory`).  A `char *` is a `Buffer`: the byte at each offset.
Every load and store of an index and every byte copied is one operation of the
program, so the same definitions serve calls that run alone and calls that
interleave with the other end.  The uint32_t subtractions are operations too:
they touch no memory, but a call's trace then shows every one it evaluates.
-/

namespace Quadcopter

open AtomicProgram

abbrev Buffer : Type := Nat → UInt8

def Buffer.first (buf : Buffer) (count : Nat) : List UInt8 :=
  (List.range count).map buf

structure Ringbuf where
  size : UInt32
deriving DecidableEq, Repr

structure RingMemory where
  writePos : UInt32
  readPos : UInt32
  data : Buffer

inductive RingOp where
  | loadWritePos
  | loadReadPos
  | storeWritePos (value : UInt32)
  | storeReadPos (value : UInt32)
  -- one byte of memcpy_toio: rb->data[cell] = buf[offset]
  | copyTo (cell offset : Nat) (byte : UInt8)
  -- one byte of memcpy_fromio: buf[offset] = rb->data[cell]
  | copyFrom (offset cell : Nat)
  -- one uint32_t subtraction
  | sub (minuend subtrahend : UInt32)
deriving DecidableEq, Repr

@[reducible] def RingOp.Answer : RingOp → Type
  | .loadWritePos => UInt32
  | .loadReadPos => UInt32
  | .storeWritePos _ => Unit
  | .storeReadPos _ => Unit
  | .copyTo _ _ _ => Unit
  | .copyFrom _ _ => UInt8
  | .sub _ _ => UInt32

def RingOp.execute : (op : RingOp) → RingMemory → op.Answer × RingMemory
  | .loadWritePos, memory => (memory.writePos, memory)
  | .loadReadPos, memory => (memory.readPos, memory)
  | .storeWritePos value, memory => ((), { memory with writePos := value })
  | .storeReadPos value, memory => ((), { memory with readPos := value })
  | .copyTo cell _ byte, memory =>
      ((), { memory with data := Function.update memory.data cell byte })
  | .copyFrom _ cell, memory => (memory.data cell, memory)
  | .sub minuend subtrahend, memory => (minuend - subtrahend, memory)

abbrev RingProgram (α : Type) : Type := Program RingOp RingOp.Answer α

def loadWritePos : RingProgram UInt32 := .perform RingOp.loadWritePos

def loadReadPos : RingProgram UInt32 := .perform RingOp.loadReadPos

def storeWritePos (value : UInt32) : RingProgram Unit :=
  .perform (RingOp.storeWritePos value)

def storeReadPos (value : UInt32) : RingProgram Unit :=
  .perform (RingOp.storeReadPos value)

def subU32 (minuend subtrahend : UInt32) : RingProgram UInt32 :=
  .perform (RingOp.sub minuend subtrahend)

def ringbufInit (size : UInt32) : RingProgram Ringbuf := do
  -- size - 2*sizeof(uint32_t)
  let size ← subU32 size 8
  storeWritePos 0
  storeReadPos 0
  return { size }

def ringbufAvailableRead (rb : Ringbuf) : RingProgram Int32 := do
  let writeTmp ← loadWritePos
  let readTmp ← loadReadPos
  if writeTmp > readTmp then
    let held ← subU32 writeTmp readTmp
    return held.toInt32
  else if writeTmp < readTmp then
    let gap ← subU32 readTmp writeTmp
    let held ← subU32 rb.size gap
    return held.toInt32
  else
    return 0

def ringbufAvailableWrite (rb : Ringbuf) : RingProgram Int32 := do
  let readTmp ← loadReadPos
  let writeTmp ← loadWritePos
  if readTmp > writeTmp then
    let gap ← subU32 readTmp writeTmp
    let free ← subU32 gap 1
    return free.toInt32
  else if readTmp < writeTmp then
    let held ← subU32 writeTmp readTmp
    let gap ← subU32 rb.size held
    let free ← subU32 gap 1
    return free.toInt32
  else
    let free ← subU32 rb.size 1
    return free.toInt32

def memcpyToio (cell : Nat) (buf : Buffer) (offset : Nat) :
    Nat → RingProgram Unit
  | 0 => .ret ()
  | length + 1 =>
      .step (.copyTo cell offset (buf offset)) (fun _ =>
        memcpyToio (cell + 1) buf (offset + 1) length)

def memcpyFromio (buf : Buffer) (offset cell : Nat) : Nat → RingProgram Buffer
  | 0 => .ret buf
  | length + 1 =>
      .step (.copyFrom offset cell) (fun byte =>
        memcpyFromio (Function.update buf offset byte) (offset + 1)
          (cell + 1) length)

/-- What ringbuf_write and ringbuf_read both do with the capped `count`: one
`memcpy`, or two when the bytes reach the end of the data, and the index after
them.  `memcpy cell offset length` is the call's own direction. -/
def splitCopy {α : Type} (rb : Ringbuf) (pos : UInt32) (count : Int32)
    (memcpy : (cell offset length : Nat) → α → RingProgram α) (buf : α) :
    RingProgram (α × UInt32) :=
  if pos + count.toUInt32 ≥ rb.size then do
    let countTmp ← subU32 rb.size pos
    let buf ← memcpy pos.toNat 0 countTmp.toNat buf
    let left ← subU32 count.toUInt32 countTmp
    let buf ← (if left > 0 then do
        let length ← subU32 count.toUInt32 countTmp
        memcpy 0 countTmp.toNat length.toNat buf
      else .ret buf)
    let pos ← subU32 count.toUInt32 countTmp
    return (buf, pos)
  else do
    let buf ← memcpy pos.toNat 0 count.toUInt32.toNat buf
    return (buf, pos + count.toUInt32)

def capped (count avail : Int32) : Int32 :=
  if count > avail then avail else count

def ringbufWrite (rb : Ringbuf) (buf : Buffer) (count : Int32) :
    RingProgram Int32 := do
  let writeTmp ← loadWritePos
  let avail ← ringbufAvailableWrite rb
  let count := capped count avail
  let (_, writeTmp) ← splitCopy rb writeTmp count
    (fun cell offset length _ => memcpyToio cell buf offset length) ()
  storeWritePos writeTmp
  return count

/-- The result is the count and the caller's buffer afterwards. -/
def ringbufRead (rb : Ringbuf) (buf : Buffer) (count : Int32) :
    RingProgram (Int32 × Buffer) := do
  let readTmp ← loadReadPos
  let avail ← ringbufAvailableRead rb
  let count := capped count avail
  let (buf, readTmp) ← splitCopy rb readTmp count
    (fun cell offset length buf => memcpyFromio buf offset cell length) buf
  storeReadPos readTmp
  return (count, buf)

/-- `none` when nothing was read: `buf[0]` is then uninitialised. -/
def ringbufGetc (rb : Ringbuf) : RingProgram (Option UInt8) := do
  let (count, buf) ← ringbufRead rb (fun _ => 0) 1
  return if count < 1 then none else some (buf 0)

def ringbufPutc (rb : Ringbuf) (c : UInt8) : RingProgram Unit := do
  let _ ← ringbufWrite rb (fun _ => c) 1
  return ()

def RingMemory.call {α : Type} (memory : RingMemory) (program : RingProgram α) :
    α × RingMemory :=
  program.run RingOp.execute memory

def RingMemory.held (memory : RingMemory) (size : Nat) : Nat :=
  (memory.writePos.toNat + size - memory.readPos.toNat) % size

def RingMemory.unread (memory : RingMemory) (size : Nat) : List UInt8 :=
  CircularWindow.window memory.data size memory.readPos.toNat
    (memory.held size)

def RingMemory.unreadCells (memory : RingMemory) (size : Nat) : List Nat :=
  (List.range (memory.held size)).map
    (fun offset => (memory.readPos.toNat + offset) % size)

end Quadcopter
