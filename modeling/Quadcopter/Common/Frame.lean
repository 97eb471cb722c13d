import Quadcopter.Common.RingbufFifo
import Quadcopter.Library.SelfDelimiting

/-
Frames between the host and the m3: a length byte, a command byte, the payload.
-/

namespace Quadcopter

structure Frame where
  cmd : UInt8
  payload : List UInt8
  payload_small : payload.length < 256
deriving DecidableEq

namespace Frame

def length (frame : Frame) : UInt8 := UInt8.ofNat frame.payload.length

theorem length_toNat (frame : Frame) :
    frame.length.toNat = frame.payload.length :=
  UInt8.toNat_ofNat_of_lt' frame.payload_small

/-- The frame whose payload is the first `length` bytes of `buf`. -/
def ofBuffer (cmd : UInt8) (buf : Buffer) (length : UInt8) : Frame where
  cmd
  payload := buf.first length.toNat
  payload_small := by
    rw [Buffer.first_length]
    exact length.toNat_lt

theorem ofBuffer_length (cmd : UInt8) (buf : Buffer) (length : UInt8) :
    (ofBuffer cmd buf length).length = length := by
  apply UInt8.toNat_inj.mp
  rw [length_toNat]
  exact Buffer.first_length buf length.toNat

def encode (frame : Frame) : List UInt8 :=
  frame.length :: frame.cmd :: frame.payload

def decode : List UInt8 → Option (Frame × List UInt8)
  | length :: cmd :: rest =>
      if length.toNat ≤ rest.length then
        some
          ({ cmd
             payload := rest.take length.toNat
             payload_small :=
              Nat.lt_of_le_of_lt (List.length_take_le _ _) length.toNat_lt },
            rest.drop length.toNat)
      else none
  | _ => none

theorem encode_length (frame : Frame) :
    frame.encode.length = frame.payload.length + 2 := rfl

theorem decode_encode (frame : Frame) (rest : List UInt8) :
    decode (frame.encode ++ rest) = some (frame, rest) := by
  have size := frame.length_toNat
  have whole : frame.length.toNat ≤ (frame.payload ++ rest).length := by
    rw [size, List.length_append]
    exact Nat.le_add_right _ _
  unfold encode decode
  simp only [List.cons_append]
  rw [if_pos whole]
  simp only [List.take_left' size.symm, List.drop_left' size.symm]

theorem encode_of_decode (stream : List UInt8) (frame : Frame)
    (rest : List UInt8) (found : decode stream = some (frame, rest)) :
    frame.encode ++ rest = stream := by
  cases stream with
  | nil => cases found
  | cons length stream =>
      cases stream with
      | nil => cases found
      | cons cmd bytes =>
          simp only [decode] at found
          by_cases whole : length.toNat ≤ bytes.length
          · rw [if_pos whole, Option.some.injEq, Prod.mk.injEq] at found
            obtain ⟨rfl, rfl⟩ := found
            have size : (bytes.take length.toNat).length = length.toNat :=
              List.length_take_of_le whole
            simp only [encode, Frame.length, size, List.cons_append,
              List.take_append_drop, UInt8.ofNat_toNat]
          · rw [if_neg whole] at found
            cases found

def code : SelfDelimiting.Code Frame UInt8 where
  encode := encode
  decode := decode
  decode_encode := decode_encode
  encode_of_decode := encode_of_decode
  encode_ne_nil := fun _ => List.cons_ne_nil _ _

end Frame

end Quadcopter
