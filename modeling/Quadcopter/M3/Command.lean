import Quadcopter.Common.RingbufFifo
import Quadcopter.Common.Memory

/-
The command layer of the m3 (panda/m3/command.c).

`M3` is what a command handler can reach: the transmit ring, the `connected` flag,
the table of handlers and the state of the other modules.  The parser's own
variables and the receive ring are out of its reach.

DASSERT halts in blink() when it fails.  In command_process it tests a byte from
the host, so it is a result of the call.  In command_register and command_send
every caller of the repository passes a constant: there the assertion is the type
of the argument.
-/

namespace Quadcopter

open AtomicProgram

inductive Handler (F : Type) where
  | connectCmd
  | disconnectCmd
  | other (func : F)
deriving DecidableEq

structure M3 (F σ : Type) where
  rbTx : Ringbuf
  txMemory : RingMemory
  connected : Bool
  cmdMap : Fin 128 → Option (Handler F)
  rest : σ

structure CommandParser where
  rbRx : Ringbuf
  rxMemory : RingMemory
  cmdBuf : Buffer
  cmdBufI : Int
  cmdBufLeft : Int
  cmdBufLen : UInt8

structure CommandState (F σ : Type) where
  parser : CommandParser
  m3 : M3 F σ

def nullBuf : Buffer := fun _ => 0

variable {F σ : Type}

def sendFrame (rb : Ringbuf) (cmd : UInt8) (data : Buffer) (length : UInt8) :
    RingProgram Unit := do
  ringbufPutc rb length
  ringbufPutc rb cmd
  let _ ← ringbufWrite rb data length.toUInt32.toInt32
  return ()

def commandSend (cmd : UInt8) (data : Buffer) (length : UInt8)
    (m3 : M3 F σ) : M3 F σ :=
  { m3 with
    txMemory := (m3.txMemory.call (sendFrame m3.rbTx cmd data length)).2 }

@[simp] theorem commandSend_rest (cmd : UInt8) (data : Buffer)
    (length : UInt8) (m3 : M3 F σ) :
    (commandSend cmd data length m3).rest = m3.rest := rfl

@[simp] theorem commandSend_cmdMap (cmd : UInt8) (data : Buffer)
    (length : UInt8) (m3 : M3 F σ) :
    (commandSend cmd data length m3).cmdMap = m3.cmdMap := rfl

def commandRegister (cmd : Fin 128) (func : Handler F) (m3 : M3 F σ) :
    M3 F σ :=
  { m3 with cmdMap := Function.update m3.cmdMap cmd (some func) }

def commandConnected (m3 : M3 F σ) : Bool := m3.connected

def connectCmd (m3 : M3 F σ) : M3 F σ :=
  commandSend 'c'.toUInt8 nullBuf 0 { m3 with connected := true }

def disconnectCmd (m3 : M3 F σ) : M3 F σ :=
  commandSend 'd'.toUInt8 nullBuf 0 { m3 with connected := false }

/-- The statics that command_init does not set keep their initial zero. -/
def commandInit (txMemory rxMemory : RingMemory) (rest : σ) :
    CommandState F σ :=
  -- TX and RX are swapped: the names are relative to the host
  let tx := txMemory.call (ringbufInit (quadcopterLenBytes quadcopterRxLenMb))
  let rx := rxMemory.call (ringbufInit (quadcopterLenBytes quadcopterTxLenMb))
  let cleared : M3 F σ :=
    { rbTx := tx.1
      txMemory := tx.2
      connected := false
      cmdMap := fun _ => none
      rest }
  { parser :=
      { rbRx := rx.1
        rxMemory := rx.2
        cmdBuf := nullBuf
        cmdBufI := -1
        cmdBufLeft := 0
        cmdBufLen := 0 }
    m3 :=
      commandRegister ⟨'d'.toNat, by decide⟩ .disconnectCmd
        (commandRegister ⟨'c'.toNat, by decide⟩ .connectCmd cleared) }

namespace CommandParser

/-- ringbuf_getc(&rb_rx); the byte is arbitrary, here 0, if the ring is empty. -/
def getc (parser : CommandParser) : UInt8 × CommandParser :=
  let done := parser.rxMemory.call (ringbufGetc parser.rbRx)
  (done.1.getD 0, { parser with rxMemory := done.2 })

/-- `cmd_buf[cmd_buf_i++] = ringbuf_getc(&rb_rx)`, if the index is in bounds. -/
def storeByte (parser : CommandParser) : Option CommandParser :=
  if 0 ≤ parser.cmdBufI ∧ parser.cmdBufI < 256 then
    some
      { parser.getc.2 with
        cmdBuf :=
          Function.update parser.cmdBuf parser.cmdBufI.toNat parser.getc.1
        cmdBufI := parser.cmdBufI + 1 }
  else none

/-- The loop of command_process; its two bounds do not change while it runs. -/
def storeBytes : Nat → CommandParser → Option CommandParser
  | 0, parser => some parser
  | count + 1, parser => parser.storeByte.bind (storeBytes count)

def beginFrame (avail : Int) (parser : CommandParser) : Int × CommandParser :=
  if parser.cmdBufI = -1 then
    (avail - 1,
      { parser.getc.2 with
        cmdBufLen := parser.getc.1
        cmdBufLeft := parser.getc.1.toNat + 1
        cmdBufI := 0 })
  else (avail, parser)

def receive (avail : Int) (parser : CommandParser) : Option CommandParser :=
  let begun := parser.beginFrame avail
  let i := (min begun.1 begun.2.cmdBufLeft).toNat
  (begun.2.storeBytes i).map (fun parser =>
    { parser with cmdBufLeft := parser.cmdBufLeft - i })

end CommandParser

/-- A complete frame: `cmd_buf[0]`, `&cmd_buf[1]` and `cmd_buf_len`. -/
structure Dispatch where
  cmd : Fin 128
  buf : Buffer
  length : UInt8

/-- `call func buf length` is the handler `func` of another module. -/
def Dispatch.run (call : F → Buffer → UInt8 → M3 F σ → M3 F σ)
    (dispatch : Dispatch) (m3 : M3 F σ) : M3 F σ :=
  match m3.cmdMap dispatch.cmd with
  | none => commandSend 'e'.toUInt8 nullBuf 0 m3
  | some .connectCmd => connectCmd m3
  | some .disconnectCmd => disconnectCmd m3
  | some (.other func) => call func dispatch.buf dispatch.length m3

/-- What ends command_process without a return. -/
inductive Halt where
  -- DASSERT(cmd < 128) failed: blink() loops for ever
  | blink
  -- an index written in cmd_buf is not below 256
  | overrun
deriving DecidableEq, Repr

/-- The state afterwards, and the frame that was dispatched, if one was. -/
def commandProcess (call : F → Buffer → UInt8 → M3 F σ → M3 F σ)
    (state : CommandState F σ) :
    Except Halt (CommandState F σ × Option Dispatch) :=
  let parser := state.parser
  let avail :=
    (parser.rxMemory.call (ringbufAvailableRead parser.rbRx)).1.toInt
  if avail = 0 then .ok (state, none)
  else
    match parser.receive avail with
    | none => .error .overrun
    | some parser =>
        if parser.cmdBufLeft = 0 then
          if small : (parser.cmdBuf 0).toNat < 128 then
            let dispatch : Dispatch :=
              { cmd := ⟨(parser.cmdBuf 0).toNat, small⟩
                buf := fun offset => parser.cmdBuf (offset + 1)
                length := parser.cmdBufLen }
            .ok
              ({ parser := { parser with cmdBufI := -1 }
                 m3 := dispatch.run call state.m3 },
                some dispatch)
          else .error .blink
        else .ok ({ state with parser }, none)

end Quadcopter
