import Mathlib.Algebra.Group.Int.Defs
import Mathlib.Algebra.Group.Nat.Defs
import Mathlib.Data.List.Basic
import Mathlib.Data.Nat.Bitwise
import Mathlib.Logic.Function.Basic

/-
The transfers of the i2c driver (panda/m3/i2c.c, i2c_tx_rx).

A round of its loop is one reading of the controller's registers.  The driver
moves as many bytes as the controller announces, and leaves it to the controller
to count them.
-/

namespace Quadcopter

inductive I2cRegister where
  | stat
  | buf
  | cnt
  | data
  | con
  | sa
deriving DecidableEq, Repr

def statBb : UInt16 := (1 : UInt16) <<< 12

def statRovr : UInt16 := (1 : UInt16) <<< 11

def statXudf : UInt16 := (1 : UInt16) <<< 10

def statXrdy : UInt16 := (1 : UInt16) <<< 4

def statRrdy : UInt16 := (1 : UInt16) <<< 3

def statArdy : UInt16 := (1 : UInt16) <<< 2

def statNack : UInt16 := (1 : UInt16) <<< 1

def statXdr : UInt16 := (1 : UInt16) <<< 14

def statRdr : UInt16 := (1 : UInt16) <<< 13

def statAl : UInt16 := (1 : UInt16) <<< 0

def conI2cEn : UInt16 := (1 : UInt16) <<< 15

def conMst : UInt16 := (1 : UInt16) <<< 10

def conTrx : UInt16 := (1 : UInt16) <<< 9

def conStp : UInt16 := (1 : UInt16) <<< 1

def conStt : UInt16 := (1 : UInt16) <<< 0

def bufRxfifoClr : UInt16 := (1 : UInt16) <<< 14

def bufTxfifoClr : UInt16 := (1 : UInt16) <<< 6

def bufstatTxstatMask : UInt16 := 0x003F

def bufstatRxstatMask : UInt16 := 0x3F00

def bufstatRxstatShift : UInt16 := 8

def i2cFifoSize : Nat := 64

/-- What the registers show in one round: I2C_STAT, I2C_BUFSTAT, and I2C_DATA at
each read of it. -/
structure I2cReading where
  stat : UInt16
  bufstat : UInt16
  data : Nat → UInt16

inductive I2cRound where
  | stop
  | transmit (amt : Nat)
  | receive (amt : Nat)
  | idle
deriving DecidableEq, Repr

def I2cReading.round (reading : I2cReading) : I2cRound :=
  let stat := reading.stat
  if stat &&& statNack ≠ 0 then .stop
  else if stat &&& statAl ≠ 0 then .stop
  else if stat &&& statXdr ≠ 0 then
    .transmit (reading.bufstat &&& bufstatTxstatMask).toNat
  else if stat &&& statRdr ≠ 0 then
    .receive
      ((reading.bufstat &&& bufstatRxstatMask) >>> bufstatRxstatShift).toNat
  else if stat &&& statArdy ≠ 0 then .stop
  else if stat &&& statXrdy ≠ 0 then .transmit i2cFifoSize
  else if stat &&& statRrdy ≠ 0 then .receive i2cFifoSize
  else if stat &&& statRovr ≠ 0 then .stop
  else if stat &&& statXudf ≠ 0 then .stop
  else .idle

/-- The flag that a round which moves bytes writes back to I2C_STAT. -/
def I2cReading.flag (reading : I2cReading) : UInt16 :=
  let stat := reading.stat
  if stat &&& statXdr ≠ 0 then statXdr
  else if stat &&& statRdr ≠ 0 then statRdr
  else if stat &&& statXrdy ≠ 0 then statXrdy
  else statRrdy

inductive I2cEvent where
  | write (register : I2cRegister) (value : UInt16)
  | load (index : UInt32)
  | store (index : UInt32) (value : UInt8)
deriving DecidableEq, Repr

/-- The caller's buffer, as far as an unsigned int reaches. -/
abbrev I2cBuf : Type := UInt32 → UInt8

def transmitBytes (buf : I2cBuf) :
    (left : Nat) → (pos : UInt32) → List I2cEvent × UInt32
  | 0, pos => ([], pos)
  | left + 1, pos =>
      let rest := transmitBytes buf left (pos + 1)
      (.load pos :: .write .data (buf pos).toUInt16 :: rest.1, rest.2)

def receiveBytes (data : Nat → UInt16) :
    (i left : Nat) → (pos : UInt32) → I2cBuf → List I2cEvent × UInt32 × I2cBuf
  | _, 0, pos, buf => ([], pos, buf)
  | i, left + 1, pos, buf =>
      let value := (data i).toUInt8
      let rest := receiveBytes data (i + 1) left (pos + 1)
        (Function.update buf pos value)
      (.store pos value :: rest.1, rest.2)

/-- `ret` is `none` as long as the function has not returned. -/
structure I2cTransfer where
  ret : Option Int32
  events : List I2cEvent
  buf : I2cBuf

def I2cTransfer.after (events : List I2cEvent) (transfer : I2cTransfer) :
    I2cTransfer :=
  { transfer with events := events ++ transfer.events }

def i2cFinish (stat : UInt16) (buf : I2cBuf) : I2cTransfer :=
  { ret := some
      (if stat &&& (statNack ||| statAl ||| statRovr ||| statXudf) ≠ 0 then -1
        else 0)
    events := [.write .stat stat]
    buf }

def i2cLoop : List I2cReading → (pos : UInt32) → I2cBuf → I2cTransfer
  | [], _, buf => { ret := none, events := [], buf }
  | reading :: readings, pos, buf =>
      match reading.round with
      | .stop => i2cFinish reading.stat buf
      | .transmit amt =>
          let moved := transmitBytes buf amt pos
          (i2cLoop readings moved.2 buf).after
            (moved.1 ++ [.write .stat reading.flag])
      | .receive amt =>
          let moved := receiveBytes reading.data 0 amt pos buf
          (i2cLoop readings moved.2.1 moved.2.2).after
            (moved.1 ++ [.write .stat reading.flag])
      | .idle => i2cLoop readings pos buf

def waitBus : List I2cReading → Option (List I2cReading)
  | [] => none
  | reading :: readings =>
      if reading.stat &&& statBb ≠ 0 then waitBus readings else some readings

/-- `bufReg` is what I2C_BUF shows. -/
def i2cStart (addr : UInt8) (count : Int32) (tx : Bool) (bufReg : UInt16) :
    List I2cEvent :=
  [.write .sa addr.toUInt16, .write .cnt count.toUInt32.toUInt16,
    .write .buf (bufReg ||| (bufRxfifoClr ||| bufTxfifoClr)),
    .write .con
      (if tx then conI2cEn ||| conMst ||| conTrx ||| conStp ||| conStt
        else conI2cEn ||| conMst ||| conStp ||| conStt)]

def i2cTxRx (addr : UInt8) (buf : I2cBuf) (count : Int32) (tx : Bool)
    (bufReg : UInt16) (readings : List I2cReading) : I2cTransfer :=
  match waitBus readings with
  | none => { ret := none, events := [], buf }
  | some readings =>
      (i2cLoop readings 0 buf).after (i2cStart addr count tx bufReg)

/-! ### What the controller announces -/

inductive I2cDirection where
  | transmitted
  | received
deriving DecidableEq, Repr

/-- A byte on the bus, with the value that I2C_DATA shows for one received. -/
inductive I2cByte where
  | sent
  | arrived (value : UInt8)
deriving DecidableEq, Repr

def I2cByte.direction : I2cByte → I2cDirection
  | .sent => .transmitted
  | .arrived _ => .received

/-- What a flag of I2C_STAT says: the transfer is over, or bytes are due. -/
inductive I2cNews where
  | ended
  | send (amount : Nat)
  | take (amount : Nat)
deriving DecidableEq, Repr

namespace I2cReading

def shows (reading : I2cReading) (bit : Nat) : Bool :=
  reading.stat.toNat.testBit bit

def firstShown (reading : I2cReading) : List (Nat × I2cNews) → Option I2cNews
  | [] => none
  | (bit, news) :: flags =>
      if reading.shows bit then some news else reading.firstShown flags

/-- The flags by their bits, in their priority: NACK, AL, XDR, RDR, ARDY, XRDY,
RRDY, ROVR, XUDF.  The six low bits of either byte of I2C_BUFSTAT are amounts. -/
def news (reading : I2cReading) : Option I2cNews :=
  reading.firstShown
    [(1, .ended), (0, .ended), (14, .send (reading.bufstat.toNat % 64)),
      (13, .take (reading.bufstat.toNat / 256 % 64)), (2, .ended),
      (4, .send 64), (3, .take 64), (11, .ended), (10, .ended)]

def arrivals (reading : I2cReading) (amount : Nat) : List I2cByte :=
  (List.range amount).map (fun i => .arrived (reading.data i).toUInt8)

end I2cReading

/-- The bytes that the controller announces before it says that the transfer is
over. -/
def announcedFrom : List I2cReading → List I2cByte
  | [] => []
  | reading :: readings =>
      match reading.news with
      | some .ended => []
      | some (.send amount) =>
          List.replicate amount .sent ++ announcedFrom readings
      | some (.take amount) =>
          reading.arrivals amount ++ announcedFrom readings
      | none => announcedFrom readings

def lastReading (readings : List I2cReading) : Option I2cReading :=
  readings.find? (fun reading => reading.news = some .ended)

/-- The readings behind the first that shows the bus free (BB, bit 12). -/
def busFree (readings : List I2cReading) : List I2cReading :=
  (readings.dropWhile (fun reading => reading.shows 12)).drop 1

def announced (readings : List I2cReading) : List I2cByte :=
  announcedFrom (busFree readings)

/-- The answer that the last reading calls for: an error at NACK, AL, ROVR and
XUDF. -/
def I2cReading.answer (reading : I2cReading) : Int32 :=
  if reading.shows 1 || reading.shows 0 || reading.shows 11 ||
      reading.shows 10 then -1
  else 0

def serve (buf : I2cBuf) (start : Nat) : List I2cByte → List I2cEvent
  | [] => []
  | .sent :: bytes =>
      .load (UInt32.ofNat start) ::
        .write .data (buf (UInt32.ofNat start)).toUInt16 ::
          serve buf (start + 1) bytes
  | .arrived value :: bytes =>
      .store (UInt32.ofNat start) value ::
        serve (Function.update buf (UInt32.ofNat start) value) (start + 1)
          bytes

def served (buf : I2cBuf) (start : Nat) : List I2cByte → I2cBuf
  | [] => buf
  | .sent :: bytes => served buf (start + 1) bytes
  | .arrived value :: bytes =>
      served (Function.update buf (UInt32.ofNat start) value) (start + 1) bytes

private theorem flag_toNat (stat : UInt16) {bit : Nat} (small : bit < 16) :
    (stat &&& UInt16.ofNat (2 ^ bit)).toNat =
      (stat.toNat.testBit bit).toNat * 2 ^ bit := by
  have mask : (UInt16.ofNat (2 ^ bit)).toNat = 2 ^ bit :=
    UInt16.toNat_ofNat_of_lt'
      (Nat.pow_lt_pow_right (by decide : 1 < 2) small)
  rw [UInt16.toNat_and, mask, Nat.and_two_pow]

private theorem flag_ne_zero_iff (reading : I2cReading) {bit : Nat}
    (small : bit < 16) :
    reading.stat &&& UInt16.ofNat (2 ^ bit) ≠ 0 ↔ reading.shows bit = true := by
  have value := flag_toNat reading.stat small
  unfold I2cReading.shows
  constructor
  · intro nonzero
    by_contra clear
    rw [Bool.not_eq_true] at clear
    rw [clear, Bool.toNat_false, Nat.zero_mul] at value
    exact nonzero (UInt16.toNat_inj.mp value)
  · intro set zero
    rw [zero, set, Bool.toNat_true, Nat.one_mul] at value
    exact absurd value.symm (Nat.two_pow_pos bit).ne'

def I2cNews.round : Option I2cNews → I2cRound
  | some .ended => .stop
  | some (.send amount) => .transmit amount
  | some (.take amount) => .receive amount
  | none => .idle

private theorem sendAmount_eq (bufstat : UInt16) :
    (bufstat &&& bufstatTxstatMask).toNat = bufstat.toNat % 64 := by
  rw [UInt16.toNat_and]
  exact Nat.and_two_pow_sub_one_eq_mod bufstat.toNat 6

private theorem takeAmount_eq (bufstat : UInt16) :
    ((bufstat &&& bufstatRxstatMask) >>> bufstatRxstatShift).toNat =
      bufstat.toNat / 256 % 64 := by
  rw [UInt16.toNat_shiftRight, UInt16.toNat_and]
  change (bufstat.toNat &&& 0x3F00) >>> 8 = _
  rw [Nat.shiftRight_and_distrib, Nat.shiftRight_eq_div_pow]
  exact Nat.and_two_pow_sub_one_eq_mod (bufstat.toNat / 2 ^ 8) 6

private theorem round_news (reading : I2cReading) :
    reading.round = I2cNews.round reading.news := by
  have nack : reading.stat &&& statNack ≠ 0 ↔ reading.shows 1 = true :=
    flag_ne_zero_iff reading (by decide : 1 < 16)
  have al : reading.stat &&& statAl ≠ 0 ↔ reading.shows 0 = true :=
    flag_ne_zero_iff reading (by decide : 0 < 16)
  have xdr : reading.stat &&& statXdr ≠ 0 ↔ reading.shows 14 = true :=
    flag_ne_zero_iff reading (by decide : 14 < 16)
  have rdr : reading.stat &&& statRdr ≠ 0 ↔ reading.shows 13 = true :=
    flag_ne_zero_iff reading (by decide : 13 < 16)
  have ardy : reading.stat &&& statArdy ≠ 0 ↔ reading.shows 2 = true :=
    flag_ne_zero_iff reading (by decide : 2 < 16)
  have xrdy : reading.stat &&& statXrdy ≠ 0 ↔ reading.shows 4 = true :=
    flag_ne_zero_iff reading (by decide : 4 < 16)
  have rrdy : reading.stat &&& statRrdy ≠ 0 ↔ reading.shows 3 = true :=
    flag_ne_zero_iff reading (by decide : 3 < 16)
  have rovr : reading.stat &&& statRovr ≠ 0 ↔ reading.shows 11 = true :=
    flag_ne_zero_iff reading (by decide : 11 < 16)
  have xudf : reading.stat &&& statXudf ≠ 0 ↔ reading.shows 10 = true :=
    flag_ne_zero_iff reading (by decide : 10 < 16)
  unfold I2cReading.round
  simp only [nack, al, xdr, rdr, ardy, xrdy, rrdy, rovr, xudf, sendAmount_eq,
    takeAmount_eq]
  simp only [I2cReading.news, I2cReading.firstShown,
    apply_ite I2cNews.round]
  rfl

private theorem and_or_distrib (stat first second : UInt16) :
    stat &&& (first ||| second) = (stat &&& first) ||| (stat &&& second) := by
  apply UInt16.toNat_inj.mp
  rw [UInt16.toNat_and, UInt16.toNat_or, UInt16.toNat_or, UInt16.toNat_and,
    UInt16.toNat_and, Nat.and_or_distrib_left]

private theorem i2cFinish_answer (reading : I2cReading) (buf : I2cBuf) :
    (i2cFinish reading.stat buf).ret = some reading.answer := by
  have failed : reading.stat &&&
      (statNack ||| statAl ||| statRovr ||| statXudf) ≠ 0 ↔
        (reading.shows 1 || reading.shows 0 || reading.shows 11 ||
          reading.shows 10) = true := by
    rw [and_or_distrib, and_or_distrib, and_or_distrib, ne_eq,
      UInt16.or_eq_zero_iff, UInt16.or_eq_zero_iff, UInt16.or_eq_zero_iff,
      not_and_or, not_and_or, not_and_or, Bool.or_eq_true, Bool.or_eq_true,
      Bool.or_eq_true]
    exact or_congr (or_congr (or_congr
      (flag_ne_zero_iff reading (by decide : 1 < 16))
      (flag_ne_zero_iff reading (by decide : 0 < 16)))
      (flag_ne_zero_iff reading (by decide : 11 < 16)))
      (flag_ne_zero_iff reading (by decide : 10 < 16))
  unfold i2cFinish I2cReading.answer
  simp only [failed]

private theorem waitBus_free (readings : List I2cReading) :
    (waitBus readings).getD [] = busFree readings := by
  unfold busFree
  induction readings with
  | nil => rfl
  | cons reading readings ih =>
      have busy : reading.stat &&& statBb ≠ 0 ↔ reading.shows 12 = true :=
        flag_ne_zero_iff reading (by decide : 12 < 16)
      rw [waitBus, List.dropWhile_cons]
      by_cases shown : reading.shows 12 = true
      · rw [if_pos (busy.mpr shown), if_pos shown]
        exact ih
      · rw [if_neg (mt busy.mp shown), if_neg shown]
        rfl

/-! ### Accesses to the buffer -/

/-- The events that move a byte between the buffer and the bus. -/
def I2cEvent.moves : I2cEvent → Bool
  | .write register _ => register = .data
  | .load _ => true
  | .store _ _ => true

def I2cEvent.access : I2cEvent → Option (I2cDirection × UInt32)
  | .write _ _ => none
  | .load index => some (.transmitted, index)
  | .store index _ => some (.received, index)

def I2cTransfer.moves (transfer : I2cTransfer) : List I2cEvent :=
  transfer.events.filter I2cEvent.moves

def I2cTransfer.accesses (transfer : I2cTransfer) :
    List (I2cDirection × UInt32) :=
  transfer.events.filterMap I2cEvent.access

private theorem I2cTransfer.moves_after (events : List I2cEvent)
    (transfer : I2cTransfer) :
    (transfer.after events).moves =
      events.filter I2cEvent.moves ++ transfer.moves :=
  List.filter_append ..

/-- Every access is one of the moves. -/
theorem I2cTransfer.accesses_of_moves (transfer : I2cTransfer) :
    transfer.accesses = transfer.moves.filterMap I2cEvent.access := by
  unfold accesses moves
  rw [List.filterMap_filter]
  apply List.filterMap_congr
  intro event _
  cases event with
  | write register value => exact (ite_self _).symm
  | load index => rfl
  | store index value => rfl

private theorem ofNat_succ (start : Nat) :
    UInt32.ofNat start + 1 = UInt32.ofNat (start + 1) :=
  (UInt32.ofNat_add start 1).symm

private theorem serve_append (buf : I2cBuf) (start : Nat)
    (first second : List I2cByte) :
    serve buf start (first ++ second) =
      serve buf start first ++
        serve (served buf start first) (start + first.length) second := by
  induction first generalizing buf start with
  | nil => rfl
  | cons byte first ih =>
      rw [List.length_cons, ← Nat.add_assoc, Nat.add_right_comm]
      cases byte with
      | sent => exact congrArg (_ :: _ :: ·) (ih buf (start + 1))
      | arrived value => exact congrArg (_ :: ·) (ih _ (start + 1))

private theorem served_append (buf : I2cBuf) (start : Nat)
    (first second : List I2cByte) :
    served buf start (first ++ second) =
      served (served buf start first) (start + first.length) second := by
  induction first generalizing buf start with
  | nil => rfl
  | cons byte first ih =>
      rw [List.length_cons, ← Nat.add_assoc, Nat.add_right_comm]
      cases byte with
      | sent => exact ih buf (start + 1)
      | arrived value => exact ih _ (start + 1)

private theorem serve_moves (buf : I2cBuf) (start : Nat)
    (bytes : List I2cByte) :
    (serve buf start bytes).filter I2cEvent.moves = serve buf start bytes := by
  induction bytes generalizing buf start with
  | nil => rfl
  | cons byte bytes ih =>
      cases byte with
      | sent => exact congrArg (_ :: _ :: ·) (ih buf (start + 1))
      | arrived value => exact congrArg (_ :: ·) (ih _ (start + 1))

private theorem served_sent (buf : I2cBuf) (start amount : Nat) :
    served buf start (List.replicate amount .sent) = buf := by
  induction amount generalizing start with
  | zero => rfl
  | succ amount ih => exact ih (start + 1)

private theorem transmitBytes_serve (buf : I2cBuf) (left start : Nat) :
    transmitBytes buf left (UInt32.ofNat start) =
      (serve buf start (List.replicate left .sent),
        UInt32.ofNat (start + left)) := by
  induction left generalizing start with
  | zero => rfl
  | succ left ih =>
      rw [transmitBytes, ofNat_succ, ih (start + 1), List.replicate_succ,
        Nat.add_assoc, Nat.add_comm 1 left]
      rfl

private theorem receiveBytes_serve (data : Nat → UInt16) (i left start : Nat)
    (buf : I2cBuf) :
    receiveBytes data i left (UInt32.ofNat start) buf =
      (serve buf start ((List.range' i left).map
          (fun j => .arrived (data j).toUInt8)),
        UInt32.ofNat (start + left),
        served buf start ((List.range' i left).map
          (fun j => .arrived (data j).toUInt8))) := by
  induction left generalizing i start buf with
  | zero => rfl
  | succ left ih =>
      rw [receiveBytes, ofNat_succ, ih (i + 1) (start + 1), List.range'_succ,
        Nat.add_assoc, Nat.add_comm 1 left]
      rfl

/-- The loop from a place of the buffer on has followed the controller: the bytes
announced, and the reading that ended it. -/
structure I2cTransfer.Follows (transfer : I2cTransfer) (buf : I2cBuf)
    (start : Nat) (bytes : List I2cByte) (last : Option I2cReading) : Prop where
  moves : transfer.moves = serve buf start bytes
  buf : transfer.buf = served buf start bytes
  ret : transfer.ret = last.map I2cReading.answer

private theorem I2cTransfer.Follows.round {later : I2cTransfer} {buf : I2cBuf}
    {start : Nat} {now rest : List I2cByte} {last : Option I2cReading}
    (behind : later.Follows (served buf start now) (start + now.length) rest
      last) (flag : UInt16) :
    (later.after (serve buf start now ++ [.write .stat flag])).Follows buf start
      (now ++ rest) last where
  moves := by
    rw [I2cTransfer.moves_after, List.filter_append, serve_moves, behind.moves,
      serve_append]
    change _ ++ [] ++ _ = _
    rw [List.append_nil]
  buf := behind.buf.trans (served_append buf start now rest).symm
  ret := behind.ret

private theorem i2cLoop_follows (readings : List I2cReading) (start : Nat)
    (buf : I2cBuf) :
    (i2cLoop readings (UInt32.ofNat start) buf).Follows buf start
      (announcedFrom readings) (lastReading readings) := by
  induction readings generalizing start buf with
  | nil => exact ⟨rfl, rfl, rfl⟩
  | cons reading readings ih =>
      unfold lastReading at ih ⊢
      rw [i2cLoop, announcedFrom, round_news, List.find?_cons]
      cases news : reading.news with
      | none =>
          exact ih start buf
      | some told =>
          cases told with
          | ended => exact ⟨rfl, rfl, i2cFinish_answer reading buf⟩
          | send amount =>
              dsimp only [I2cNews.round]
              rw [transmitBytes_serve]
              apply I2cTransfer.Follows.round
              rw [served_sent, List.length_replicate]
              exact ih (start + amount) buf
          | take amount =>
              dsimp only [I2cNews.round]
              rw [receiveBytes_serve, ← List.range_eq_range']
              apply I2cTransfer.Follows.round
              rw [List.length_map, List.length_range]
              exact ih (start + amount) _

private theorem i2cTxRx_follows (addr : UInt8) (buf : I2cBuf) (count : Int32)
    (tx : Bool) (bufReg : UInt16) (readings : List I2cReading) :
    (i2cTxRx addr buf count tx bufReg readings).Follows buf 0
      (announced readings) (lastReading (busFree readings)) := by
  unfold i2cTxRx announced
  rw [← waitBus_free]
  cases waitBus readings with
  | none => exact ⟨rfl, rfl, rfl⟩
  | some readings =>
      have followed := i2cLoop_follows readings 0 buf
      refine ⟨?_, followed.buf, followed.ret⟩
      dsimp only
      rw [I2cTransfer.moves_after]
      exact followed.moves

def consecutive (start : Nat) (directions : List I2cDirection) :
    List (I2cDirection × UInt32) :=
  directions.mapIdx (fun i direction => (direction, UInt32.ofNat (start + i)))

private theorem consecutive_cons (start : Nat) (direction : I2cDirection)
    (directions : List I2cDirection) :
    consecutive start (direction :: directions) =
      (direction, UInt32.ofNat start) :: consecutive (start + 1) directions := by
  unfold consecutive
  rw [List.mapIdx_cons]
  congr 1
  have same : (fun i (direction : I2cDirection) =>
      (direction, UInt32.ofNat (start + (i + 1)))) =
        fun i direction => (direction, UInt32.ofNat (start + 1 + i)) := by
    funext i direction
    rw [Nat.add_assoc, Nat.add_comm 1 i]
  exact congrArg (fun f => List.mapIdx f directions) same

private theorem serve_accesses (buf : I2cBuf) (start : Nat)
    (bytes : List I2cByte) :
    (serve buf start bytes).filterMap I2cEvent.access =
      consecutive start (bytes.map I2cByte.direction) := by
  induction bytes generalizing buf start with
  | nil => rfl
  | cons byte bytes ih =>
      rw [List.map_cons, consecutive_cons]
      cases byte with
      | sent => exact congrArg (_ :: ·) (ih buf (start + 1))
      | arrived value => exact congrArg (_ :: ·) (ih _ (start + 1))

/-! ### The caller's count -/

private theorem consecutive_inside_iff (directions : List I2cDirection)
    {count : Nat}
    (small : count < 2 ^ 32) :
    (∀ access ∈ consecutive 0 directions, access.2.toNat < count) ↔
      directions.length ≤ count := by
  constructor
  · intro inside
    by_cases fits : directions.length ≤ count
    · exact fits
    · have beyond : count < directions.length := Nat.lt_of_not_le fits
      have member : (directions[count], UInt32.ofNat count) ∈
          consecutive 0 directions := by
        apply List.mem_mapIdx.mpr
        refine ⟨count, beyond, ?_⟩
        rw [Nat.zero_add]
      have index := inside _ member
      dsimp only at index
      rw [UInt32.toNat_ofNat', Nat.mod_eq_of_lt small] at index
      exact absurd index (Nat.lt_irrefl count)
  · intro fits access member
    obtain ⟨i, inside, same⟩ := List.mem_mapIdx.mp member
    rw [← same]
    dsimp only
    rw [UInt32.toNat_ofNat', Nat.zero_add]
    exact Nat.lt_of_le_of_lt (Nat.mod_le _ _) (Nat.lt_of_lt_of_le inside fits)

private theorem consecutive_directions (start : Nat)
    (directions : List I2cDirection) :
    (consecutive start directions).map Prod.fst = directions := by
  induction directions generalizing start with
  | nil => rfl
  | cons direction directions ih =>
      rw [consecutive_cons, List.map_cons, ih]

private theorem consecutive_injective {start : Nat}
    {first second : List I2cDirection}
    (same : consecutive start first = consecutive start second) :
    first = second := by
  rw [← consecutive_directions start first, same, consecutive_directions]

def askedDirection (tx : Bool) : I2cDirection :=
  if tx then .transmitted else .received

/-- buf[0] to buf[count - 1], in order, each once. -/
def wholeTransfer (count : Nat) (tx : Bool) : List (I2cDirection × UInt32) :=
  (List.range count).map (fun i => (askedDirection tx, UInt32.ofNat i))

private theorem wholeTransfer_eq (count : Nat) (tx : Bool) :
    wholeTransfer count tx =
      consecutive 0 (List.replicate count (askedDirection tx)) := by
  apply List.ext_getElem
  · rw [wholeTransfer, consecutive, List.length_map, List.length_range,
      List.length_mapIdx, List.length_replicate]
  · intro i first second
    simp only [wholeTransfer, consecutive, List.getElem_map, List.getElem_range,
      List.getElem_mapIdx, List.getElem_replicate, Nat.zero_add]

private theorem consecutive_whole_iff (directions : List I2cDirection)
    (count : Nat)
    (tx : Bool) :
    consecutive 0 directions = wholeTransfer count tx ↔
      directions = List.replicate count (askedDirection tx) := by
  rw [wholeTransfer_eq]
  constructor
  · intro same
    exact consecutive_injective same
  · intro same
    rw [same]

private theorem toNatClampNeg_small (count : Int32) : count.toNatClampNeg < 2 ^
    32 := by
  have below : count.toInt < 2 ^ 31 := Int32.toInt_lt count
  rw [← Int32.toNat_toInt]
  omega

/-- The driver has no check of its own: it moves one byte for each that the
controller announces, between the bus and one place of the buffer after the
other, until the controller says that the transfer is over. -/
theorem i2c_follows_controller (addr : UInt8) (buf : I2cBuf) (count : Int32)
    (tx : Bool) (bufReg : UInt16) (readings : List I2cReading) :
    let done := i2cTxRx addr buf count tx bufReg readings
    let bytes := announced readings
    let asked := count.toNatClampNeg
    done.moves = serve buf 0 bytes ∧
      done.buf = served buf 0 bytes ∧
      done.ret = (lastReading (busFree readings)).map I2cReading.answer ∧
      done.accesses = consecutive 0 (bytes.map I2cByte.direction) ∧
      ((∀ access ∈ done.accesses, access.2.toNat < asked) ↔
        bytes.length ≤ asked) ∧
      (done.ret = some 0 →
        (done.accesses = wholeTransfer asked tx ↔
          bytes.map I2cByte.direction =
            List.replicate asked (askedDirection tx))) := by
  intro done bytes asked
  have followed : done.Follows buf 0 bytes (lastReading (busFree readings)) :=
    i2cTxRx_follows addr buf count tx bufReg readings
  have accesses : done.accesses =
      consecutive 0 (bytes.map I2cByte.direction) := by
    rw [I2cTransfer.accesses_of_moves, followed.moves, serve_accesses]
  refine ⟨followed.moves, followed.buf, followed.ret, accesses, ?_, ?_⟩
  · rw [accesses, ← List.length_map I2cByte.direction]
    exact consecutive_inside_iff _ (toNatClampNeg_small count)
  · intro _
    rw [accesses]
    exact consecutive_whole_iff _ asked tx

/-- The bus is busy once; then two bytes may be sent, and all is done. -/
def drainReadings : List I2cReading :=
  [⟨statBb, 0, fun _ => 0⟩, ⟨0, 0, fun _ => 0⟩, ⟨statXdr, 0x1F02, fun _ => 0⟩,
    ⟨statArdy, 0, fun _ => 0⟩]

/-- A register number and its value go out, and the driver returns 0. -/
theorem i2c_follows_controller_of_two :
    let done := i2cTxRx 0x53 (fun place => place.toUInt8 + 0x2D) 2 true 0
      drainReadings
    done.ret = some 0 ∧ done.accesses = wholeTransfer 2 true ∧
      done.moves =
        [.load 0, .write .data 0x2D, .load 1, .write .data 0x2E] := by
  intro done
  obtain ⟨moves, _, ret, _, _, whole⟩ := i2c_follows_controller 0x53
    (fun place => place.toUInt8 + 0x2D) 2 true 0 drainReadings
  have ended : done.ret = some 0 := ret.trans (by decide)
  refine ⟨ended, (whole ended).mpr (by decide), moves.trans (by decide)⟩

def quiet (stat : UInt16) : I2cReading :=
  { stat
    bufstat := 0
    data := fun _ => 0 }

def eagerReadings : List I2cReading := [quiet 0, quiet statXrdy]

def earlyReadings : List I2cReading := [quiet 0, quiet statArdy]

/-- With a count of 1 the driver sends buf[1], and with a count of 6 it returns 0
before it has received a byte. -/
theorem i2c_leaves_buffer :
    (¬ ∀ (addr : UInt8) (buf : I2cBuf) (count : Int32) (tx : Bool)
        (bufReg : UInt16) (readings : List I2cReading), 1 ≤ count.toInt →
        ∀ access ∈ (i2cTxRx addr buf count tx bufReg readings).accesses,
          access.2.toNat < count.toNatClampNeg) ∧
      ¬ ∀ (addr : UInt8) (buf : I2cBuf) (count : Int32) (tx : Bool)
        (bufReg : UInt16) (readings : List I2cReading), 1 ≤ count.toInt →
        (i2cTxRx addr buf count tx bufReg readings).ret = some 0 →
        (i2cTxRx addr buf count tx bufReg readings).accesses =
          wholeTransfer count.toNatClampNeg tx := by
  constructor
  · intro inside
    have second : (I2cDirection.transmitted, (1 : UInt32)) ∈
        (i2cTxRx 0x53 (fun _ => 0) 1 true 0 eagerReadings).accesses := by
      decide
    have below := inside 0x53 (fun _ => 0) 1 true 0 eagerReadings (by decide)
      _ second
    exact absurd below (by decide)
  · intro whole
    have all := whole 0x53 (fun _ => 0) 6 false 0 earlyReadings (by decide)
      (by decide)
    exact absurd all (by decide)

end Quadcopter
