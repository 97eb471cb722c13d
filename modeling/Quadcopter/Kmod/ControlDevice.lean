import Quadcopter.Common.Memory
import Quadcopter.Common.RingbufFifo
import Quadcopter.Kmod.Uaccess

/-
The control device of the kernel module (panda/kmod/main.c): quadcopter_read and
quadcopter_write.

size_t and unsigned long have 32 bits and ssize_t is their signed form.  Both
loops carry fuel; `none` means that the loop is still going on.
-/

namespace Quadcopter.ControlDevice

open AtomicProgram

def rbTx : Ringbuf := ⟨quadcopterLenBytes quadcopterTxLenMb - 8⟩

def rbRx : Ringbuf := ⟨quadcopterLenBytes quadcopterRxLenMb - 8⟩

/-- The loop of quadcopter_write; `round` counts its copies. -/
def quadcopterWriteLoop (rb : Ringbuf) (user : UserBuffer) (count : UInt32) :
    (fuel round : Nat) → (kbuf : Buffer) → (writeCount countLeft : UInt32) →
      RingProgram (Option Int32)
  | 0, _, _, _, _ => return none
  | fuel + 1, round, kbuf, writeCount, countLeft =>
      if writeCount < count then do
        let toWrite := if countLeft > 512 then 512 else countLeft
        let countLeft := countLeft - toWrite
        let copied := copyFromUser kbuf user.bytes writeCount.toNat toWrite
          (user.uncopied round)
        if copied.1 < 0 then return some minusEinval
        else do
          let rbCount ← ringbufWrite rb copied.2 toWrite.toInt32
          let writeCount := writeCount + rbCount.toUInt32
          if rbCount.toUInt32 < toWrite then return some writeCount.toInt32
          else
            quadcopterWriteLoop rb user count fuel (round + 1) copied.2
              writeCount countLeft
      else return some writeCount.toInt32

/-- `kbuf` is what the local buffer holds before its first use. -/
def quadcopterWrite (rb : Ringbuf) (user : UserBuffer) (kbuf : Buffer)
    (count : UInt32) : RingProgram (Option Int32) :=
  quadcopterWriteLoop rb user count (count.toNat + 1) 0 kbuf 0 count

/-- The locals of quadcopter_read and what it has stored to the user. -/
structure ReadLocals where
  kbuf : Buffer
  readCount : UInt32
  stores : List (Nat × UInt8)

/-- One round of the loop: the locals, and what it returns if it leaves the
loop. -/
def quadcopterReadRound (rb : Ringbuf) (uncopied : Nat) (locals : ReadLocals) :
    RingProgram (ReadLocals × Option Int32) := do
  let (rbCount, kbuf) ← ringbufRead rb locals.kbuf 512
  if rbCount ≤ 0 then
    return ({ locals with kbuf }, some locals.readCount.toInt32)
  else
    let copied := copyToUser locals.readCount.toNat kbuf rbCount.toUInt32
      uncopied
    let stores := locals.stores ++ copied.2
    if copied.1 < 0 then
      return ({ locals with kbuf, stores }, some minusEinval)
    else
      return ({ kbuf, readCount := locals.readCount + rbCount.toUInt32,
                stores }, none)

structure RingWrite where
  buf : Buffer
  count : Int32
  nonneg : 0 ≤ count.toInt

def arrive (rb : Ringbuf) (memory : RingMemory) :
    List RingWrite → List UInt8 × RingMemory
  | [] => ([], memory)
  | write :: writes =>
      let written := memory.call (ringbufWrite rb write.buf write.count)
      let rest := arrive rb written.2 writes
      (write.buf.first written.1.toInt.toNat ++ rest.1, rest.2)

/-- What a round of the loop meets: what the m3 writes before it, and how many
bytes its copy leaves uncopied. -/
structure ReadRound where
  writes : List RingWrite
  uncopied : Nat

/-- `arrived` is what the m3 has added since the call began. -/
structure ReadResult where
  value : Int32
  stores : List (Nat × UInt8)
  arrived : List UInt8
  memory : RingMemory

def quadcopterReadLoop (rb : Ringbuf) (count : UInt32)
    (rounds : Nat → ReadRound) :
    (fuel round : Nat) → ReadLocals → (arrived : List UInt8) → RingMemory →
      Option ReadResult
  | 0, _, _, _, _ => none
  | fuel + 1, round, locals, arrived, memory =>
      if locals.readCount < count then
        let filled := arrive rb memory (rounds round).writes
        let done := filled.2.call
          (quadcopterReadRound rb (rounds round).uncopied locals)
        match done.1.2 with
        | some value =>
            some { value, stores := done.1.1.stores,
                   arrived := arrived ++ filled.1, memory := done.2 }
        | none =>
            quadcopterReadLoop rb count rounds fuel (round + 1) done.1.1
              (arrived ++ filled.1) done.2
      else
        some { value := locals.readCount.toInt32, stores := locals.stores,
               arrived, memory }

def quadcopterRead (rb : Ringbuf) (kbuf : Buffer) (count : UInt32)
    (rounds : Nat → ReadRound) (fuel : Nat) (memory : RingMemory) :
    Option ReadResult :=
  quadcopterReadLoop rb count rounds fuel 0
    { kbuf, readCount := 0, stores := [] } [] memory

end Quadcopter.ControlDevice
