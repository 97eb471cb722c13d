import Quadcopter.M3.Angle
import Quadcopter.M3.Sensors
import Quadcopter.Library.InterruptedLoop
import Quadcopter.Library.MachineInt

/-
What main and the interrupts of the maple board share (maple/quadcopter.c,
sensors.c, angle.c), and the memory accesses of main.

The vectors and the filter are those of the m3: maple/vector.c is the same file,
and maple/angle.c differs in angle_init only.  libmaple is not part of the
repository; its receive buffer is a parameter.
-/

namespace Quadcopter

open AtomicProgram

variable {R : Type}

namespace MapleSensors

def getGyroData (read : Option Buffer) : Option Axes :=
  read.map (fun buf =>
    { x := axis (buf 0) (buf 1)
      y := -axis (buf 2) (buf 3)
      z := -axis (buf 4) (buf 5) })

def getAccelData (read : Option Buffer) : Option Axes :=
  read.map (fun buf =>
    { x := -axis (buf 1) (buf 0)
      y := axis (buf 3) (buf 2)
      z := axis (buf 5) (buf 4) })

def getMagData (read : Option Buffer) : Option Axes :=
  read.map (fun buf =>
    { x := axis (buf 2) (buf 3)
      y := axis (buf 0) (buf 1)
      z := axis (buf 4) (buf 5) })

/-- `data` as far as it was filled in; no caller reads the return value. -/
def sensorsGetData [CMath R] (gyroOffset accelOffset : Vector3 R)
    (gyro accel mag : Option Buffer) (data : SensorData R) (updateMag : Bool) :
    SensorData R :=
  match getGyroData gyro with
  | none => data
  | some axes =>
      let raw : Vector3 R :=
        { x := (-axes.x.toInt : Int)
          y := (-axes.y.toInt : Int)
          z := (-axes.z.toInt : Int) }
      -- scale to rad/s
      let data :=
        { data with
          gyro := vector3Mult (vector3SubEq raw gyroOffset) 0.00121414209 }
      match getAccelData accel with
      | none => data
      | some axes =>
          let raw : Vector3 R :=
            { x := axes.x.toInt
              y := axes.y.toInt
              z := (-axes.z.toInt : Int) }
          let data :=
            { data with accel := vector3Norm (vector3SubEq raw accelOffset) }
          if updateMag then
            match getMagData mag with
            | none => data
            | some axes =>
                let raw : Vector3 R :=
                  { x := axes.x.toInt
                    y := axes.y.toInt
                    z := (-axes.z.toInt : Int) }
                { data with mag := vector3Norm raw }
          else data

end MapleSensors

structure Attitude (R : Type) where
  gyroOffset : Vector3 R
  accelOffset : Vector3 R
  sd : SensorData R
  angles : Vector3 R
  magCounter : Int32
  angle : AngleState R

/-- What i2c_master_xfer delivers in one interrupt: `none` if it fails. -/
structure SensorRead where
  gyro : Option Buffer
  accel : Option Buffer
  mag : Option Buffer

/-- The profiling with TIMER6 is left out. -/
def timerIntr [CMath R] (read : SensorRead) (attitude : Attitude R) :
    Attitude R :=
  let sd := MapleSensors.sensorsGetData attitude.gyroOffset
    attitude.accelOffset read.gyro read.accel read.mag attitude.sd
    (attitude.magCounter &&& 4 == 0)
  let angle := angleUpdate sd.gyro sd.accel attitude.angle
  { attitude with
    sd
    magCounter := attitude.magCounter + 1
    angle
    angles := angleGet angle }

inductive TimerChannel where
  | ch1
  | ch2
  | ch3
  | ch4
deriving DecidableEq, Repr

/-- The receive buffer of libmaple.  A byte that comes when it is full may be
dropped or push out another one, but there are not fewer bytes than before. -/
structure UsartBuffer where
  insert : List UInt8 → UInt8 → List UInt8
  keeps : ∀ queue byte, queue.length ≤ (insert queue byte).length

/-- `read`, `tx` and `ticks` are all bytes that main has got and put and all
timer interrupts so far. -/
structure MapleBoard (R : Type) where
  masked : Bool
  attitude : Attitude R
  compare : TimerChannel → UInt16
  rx : List UInt8
  read : List UInt8
  tx : List UInt8
  ticks : List SensorRead

inductive MapleInterrupt where
  | timer (read : SensorRead)
  | usart (byte : UInt8)

def MapleInterrupt.handle [CMath R] (buffer : UsartBuffer) :
    MapleInterrupt → MapleBoard R → MapleBoard R
  | .timer read, board =>
      { board with
        attitude := timerIntr read board.attitude
        ticks := board.ticks ++ [read] }
  | .usart byte, board => { board with rx := buffer.insert board.rx byte }

inductive AngleField where
  | gyroBiasGain
  | errorGain
  | dt
  | q1
  | q2
  | q3
  | q4
deriving DecidableEq, Repr

def AngleState.store (angle : AngleState R) (value : R) :
    AngleField → AngleState R
  | .gyroBiasGain => { angle with gyroBiasGain := value }
  | .errorGain => { angle with errorGain := value }
  | .dt => { angle with dt := value }
  | .q1 => { angle with q := { angle.q with q1 := value } }
  | .q2 => { angle with q := { angle.q with q2 := value } }
  | .q3 => { angle with q := { angle.q with q3 := value } }
  | .q4 => { angle with q := { angle.q with q4 := value } }

inductive BoardOp (R : Type) where
  -- nvic_globalirq_disable() and nvic_globalirq_enable()
  | irqDisable
  | irqEnable
  -- one byte of memcpy
  | loadSd (offset : Nat)
  | loadAngles (offset : Nat)
  | loadDt
  | storeAngle (field : AngleField) (value : R)
  | usartDataAvailable
  | usartGetc
  | usartPutc (byte : UInt8)
  | timerSetCompare (channel : TimerChannel) (value : UInt16)

@[reducible] def BoardOp.Answer : BoardOp R → Type
  | .irqDisable => Unit
  | .irqEnable => Unit
  | .loadSd _ => UInt8
  | .loadAngles _ => UInt8
  | .loadDt => R
  | .storeAngle _ _ => Unit
  | .usartDataAvailable => Nat
  | .usartGetc => UInt8
  | .usartPutc _ => Unit
  | .timerSetCompare _ _ => Unit

section

variable [CFloat R]

def Vector3.bytes (v : Vector3 R) : List UInt8 :=
  MachineInt.wordBytes (CFloat.toBits v.x) ++
    (MachineInt.wordBytes (CFloat.toBits v.y) ++
      MachineInt.wordBytes (CFloat.toBits v.z))

def SensorData.bytes (sd : SensorData R) : List UInt8 :=
  sd.gyro.bytes ++ (sd.accel.bytes ++ sd.mag.bytes)

/-- usart_getc of an empty buffer gets some byte, here 0. -/
def BoardOp.execute : (op : BoardOp R) → MapleBoard R → op.Answer × MapleBoard R
  | .irqDisable, board => ((), { board with masked := true })
  | .irqEnable, board => ((), { board with masked := false })
  | .loadSd offset, board => (board.attitude.sd.bytes.getD offset 0, board)
  | .loadAngles offset, board =>
      (board.attitude.angles.bytes.getD offset 0, board)
  | .loadDt, board => (board.attitude.angle.dt, board)
  | .storeAngle field value, board =>
      ((),
        { board with
          attitude :=
            { board.attitude with
              angle := board.attitude.angle.store value field } })
  | .usartDataAvailable, board => (board.rx.length, board)
  | .usartGetc, board =>
      (board.rx.headD 0,
        { board with
          rx := board.rx.tail
          read := board.read ++ [board.rx.headD 0] })
  | .usartPutc byte, board => ((), { board with tx := board.tx ++ [byte] })
  | .timerSetCompare channel value, board =>
      ((), { board with compare := Function.update board.compare channel value })

end

abbrev BoardProgram (R : Type) (α : Type) : Type :=
  Program (BoardOp R) BoardOp.Answer α

end Quadcopter
