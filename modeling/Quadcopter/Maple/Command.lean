import Quadcopter.M3.CommandFraming
import Quadcopter.M3.Flight
import Quadcopter.Maple.Board

/-
The main loop of the maple board (maple/command.c, quadcopter.c), as the accesses
that it makes one after the other.

debug_printf only writes to the USB terminal and is left out.
-/

namespace Quadcopter

open AtomicProgram

variable {R : Type}

structure MapleCommand where
  cmdBuf : Buffer
  cmdBufI : Int
  cmdBufLeft : Int
  cmdBufLen : UInt8
  connected : Bool

inductive MapleFunc where
  | testCmd
  | connectCmd
  | disconnectCmd
  | motorOn
  | motorOff
  | updateGains
deriving DecidableEq, Repr

namespace MapleCommand

def start : MapleCommand :=
  { cmdBuf := nullBuf
    cmdBufI := -1
    cmdBufLeft := 0
    cmdBufLen := 0
    connected := false }

def commandRegister (cmd : Fin 128) (func : MapleFunc)
    (cmdMap : Fin 128 → Option MapleFunc) : Fin 128 → Option MapleFunc :=
  Function.update cmdMap cmd (some func)

/-- cmd_map when the main loop begins: the calls of command_init, quadcopter_run
and angle_init. -/
def cmdMap : Fin 128 → Option MapleFunc :=
  commandRegister ⟨'u'.val.toNat, by decide⟩ .updateGains
    (commandRegister ⟨'o'.val.toNat, by decide⟩ .motorOff
      (commandRegister ⟨'p'.val.toNat, by decide⟩ .motorOn
        (commandRegister ⟨'d'.val.toNat, by decide⟩ .disconnectCmd
          (commandRegister ⟨'c'.val.toNat, by decide⟩ .connectCmd
            (commandRegister ⟨'t'.val.toNat, by decide⟩ .testCmd
              (fun _ => none))))))

end MapleCommand

inductive MapleHalt where
  -- DASSERT(cmd < 128) failed: throb() loops for ever
  | throb
  -- an index written in cmd_buf is not below 256
  | overrun
deriving DecidableEq, Repr

namespace BoardProgram

abbrev access (op : BoardOp R) : BoardProgram R op.Answer :=
  Program.perform op

def putBytes : List UInt8 → BoardProgram R Unit
  | [] => return ()
  | byte :: bytes => do
      access (.usartPutc byte)
      putBytes bytes

def commandSend (cmd : UInt8) (data : Buffer) (length : UInt8) :
    BoardProgram R Unit := do
  access (.usartPutc length)
  access (.usartPutc cmd)
  putBytes (data.first length.toNat)

def pwmScaled (value : Int16) : UInt16 :=
  UInt16.ofInt (3272 + (value.toInt * 3272).tdiv 32767)

def pwmSet (channel : TimerChannel) (value : Int16) : BoardProgram R Unit :=
  access (.timerSetCompare channel (pwmScaled value))

variable [CFloat R]

def angleInit (newDt newGyroBiasGain newErrorGain : R) :
    BoardProgram R Unit := do
  access .irqDisable
  access (.storeAngle .gyroBiasGain newGyroBiasGain)
  access (.storeAngle .errorGain newErrorGain)
  access (.storeAngle .dt newDt)
  access (.storeAngle .q1 ((1 : Int) : R))
  access (.storeAngle .q2 ((0 : Int) : R))
  access (.storeAngle .q3 ((0 : Int) : R))
  access (.storeAngle .q4 ((0 : Int) : R))
  access .irqEnable

def updateGains (buf : Buffer) (_length : UInt8) : BoardProgram R Unit := do
  let errorGain : R := floatAt buf 0
  let gyroBiasGain : R := floatAt buf 4
  let dt ← access .loadDt
  angleInit dt gyroBiasGain errorGain

/-- What a handler makes of `connected`. -/
def callHandler (func : MapleFunc) (buf : Buffer) (length : UInt8)
    (connected : Bool) : BoardProgram R Bool :=
  match func with
  | .testCmd => do
      commandSend 't'.toUInt8 buf length
      return connected
  | .connectCmd => do
      commandSend 'c'.toUInt8 nullBuf 0
      return true
  | .disconnectCmd => do
      commandSend 'd'.toUInt8 nullBuf 0
      return false
  | .motorOn => do
      pwmSet .ch2 10000
      return connected
  | .motorOff => do
      pwmSet .ch2 0
      return connected
  | .updateGains => do
      updateGains buf length
      return connected

def storeBytes : Nat → MapleCommand →
    BoardProgram R (Except MapleHalt MapleCommand)
  | 0, command => return .ok command
  | count + 1, command => do
      if 0 ≤ command.cmdBufI ∧ command.cmdBufI < 256 then
        let byte ← access .usartGetc
        storeBytes count
          { command with
            cmdBuf := Function.update command.cmdBuf command.cmdBufI.toNat byte
            cmdBufI := command.cmdBufI + 1 }
      else return .error .overrun

def beginFrame (avail : Int) (command : MapleCommand) :
    BoardProgram R (Int × MapleCommand) := do
  if command.cmdBufI = -1 then
    let length ← access .usartGetc
    return (avail - 1,
      { command with
        cmdBufLen := length
        cmdBufLeft := length.toNat + 1
        cmdBufI := 0 })
  else return (avail, command)

def dispatch (command : MapleCommand) :
    BoardProgram R (Except MapleHalt MapleCommand) :=
  if small : (command.cmdBuf 0).toNat < 128 then do
    let command := { command with cmdBufI := -1 }
    match MapleCommand.cmdMap ⟨(command.cmdBuf 0).toNat, small⟩ with
    | none =>
        commandSend 'e'.toUInt8 nullBuf 0
        return .ok command
    | some func =>
        let connected ← callHandler func (fun i => command.cmdBuf (i + 1))
          command.cmdBufLen command.connected
        return .ok { command with connected }
  else return .error .throb

def commandProcess (command : MapleCommand) :
    BoardProgram R (Except MapleHalt MapleCommand) := do
  let avail ← access .usartDataAvailable
  if avail = 0 then return .ok command
  else
    let begun ← beginFrame avail command
    let i := (min begun.1 begun.2.cmdBufLeft).toNat
    match ← storeBytes i begun.2 with
    | .error halt => return .error halt
    | .ok command =>
        let command := { command with cmdBufLeft := command.cmdBufLeft - i }
        if command.cmdBufLeft = 0 then dispatch command
        else return .ok command

def copyBytes (load : Nat → BoardProgram R UInt8) :
    (length : Nat) → BoardProgram R (List UInt8)
  | 0 => return []
  | length + 1 => do
      let bytes ← copyBytes load length
      let byte ← load length
      return bytes ++ [byte]

/-- The rest of the loop when a host is connected. -/
def sendData : BoardProgram R Unit := do
  access .irqDisable
  let localSd ← copyBytes (fun i => access (.loadSd i)) 36
  let lAngles ←
    copyBytes (fun i => access (.loadAngles i)) 12
  access .irqEnable
  commandSend '0'.toUInt8 (fun i => localSd.getD i 0) 36
  commandSend '1'.toUInt8 (fun i => lAngles.getD i 0) 12

def quadcopterRound (command : MapleCommand) :
    BoardProgram R (Except MapleHalt MapleCommand) := do
  match ← commandProcess command with
  | .error halt => return .error halt
  | .ok command =>
      if command.connected then
        sendData
        return .ok command
      else return .ok command

end BoardProgram

variable [CFloat R]

def mapleLoop (buffer : UsartBuffer) :
    InterruptedLoop (BoardOp R) BoardOp.Answer MapleHalt MapleCommand
      MapleInterrupt (MapleBoard R) where
  execute := BoardOp.execute
  round := BoardProgram.quadcopterRound
  enabled := fun board => !board.masked
  handle := MapleInterrupt.handle buffer

/-- When the main loop begins: sensors_init has set the two offsets, pwm_init the
timer. -/
def MapleBoard.start (gyroOffset accelOffset : Vector3 R) : MapleBoard R :=
  let zero : Vector3 R := { x := (0 : Int), y := (0 : Int), z := (0 : Int) }
  { masked := false
    attitude :=
      { gyroOffset
        accelOffset
        sd := { gyro := zero, accel := zero, mag := zero }
        angles := zero
        magCounter := 0
        angle := .init (((1 : Int) : R) / 400.0) ((0 : Int) : R)
          ((0 : Int) : R) }
    compare := fun _ => BoardProgram.pwmScaled 0
    rx := []
    read := []
    tx := []
    ticks := [] }

def mapleRun (buffer : UsartBuffer) (gyroOffset accelOffset : Vector3 R)
    (turns : List (Turn MapleInterrupt)) :
    LoopState (BoardOp R) BoardOp.Answer MapleHalt MapleCommand (MapleBoard R) :=
  (mapleLoop buffer).run
    (InterruptedLoop.start .start (.start gyroOffset accelOffset)) turns

end Quadcopter
