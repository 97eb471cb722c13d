import Quadcopter.M3.CommandStreams
import Quadcopter.M3.Flight

/-
What the frames of a run do to the flight state.

The table of handlers is the one that main leaves behind, in every reachable
state: update_gains registers its own command again, and nothing else is
registered later.  So a frame acts on the flight state alone.
-/

namespace Quadcopter

variable {R : Type}

/-- What command_init, angle_init, control_init and main register, the first
innermost. -/
def flightTable : Fin 128 → Option (Handler HandlerFunc) :=
  let register (char : Char) (func : Handler HandlerFunc)
      (table : Fin 128 → Option (Handler HandlerFunc)) :=
    Function.update table (Fin.ofNat 128 char.toNat) (some func)
  register 'm' (.other .setMotor)
    (register 's' (.other .disarmCmd)
      (register 'a' (.other .armCmd)
        (register 't' (.other .tuneCmd)
          (register 'o' (.other .controlCmd)
            (register 'u' (.other .updateGains)
              (register 'd' .disconnectCmd
                (register 'c' .connectCmd (fun _ => none))))))))

theorem flightSetup_cmdMap [CFloat R] (reset timers : PwmTimers)
    (txMemory rxMemory : RingMemory) :
    (flightSetup
      (flightInit reset timers txMemory rxMemory :
        CommandState HandlerFunc (Flight R)).m3).cmdMap = flightTable := rfl

private theorem register_updateGains :
    Function.update flightTable ⟨'u'.toNat, by decide⟩
      (some (.other .updateGains)) = flightTable := by
  have same : flightTable ⟨'u'.toNat, by decide⟩ =
      some (.other .updateGains) := by
    decide
  rw [← same, Function.update_eq_self]

section

variable [CFloat R]

def HandlerFunc.effect (buf : Buffer) (length : UInt8) (flight : Flight R) :
    HandlerFunc → Flight R
  | .controlCmd => Quadcopter.controlCmd buf length flight
  | .tuneCmd => Quadcopter.tuneCmd buf length flight
  | .armCmd => Quadcopter.armCmd buf length flight
  | .disarmCmd => Quadcopter.disarmCmd buf length flight
  | .updateGains =>
      { flight with
        angle := .init flight.angle.dt (floatAt buf 4) (floatAt buf 0) }
  | .setMotor => Quadcopter.setMotor buf length flight

def Dispatch.effect (flight : Flight R) (dispatch : Dispatch) : Flight R :=
  match flightTable dispatch.cmd with
  | some (.other func) => func.effect dispatch.buf dispatch.length flight
  | _ => flight

private theorem callHandler_effect {m3 : FlightM3 R}
    (table : m3.cmdMap = flightTable)
    (func : HandlerFunc) (buf : Buffer) (length : UInt8) :
    (callHandler func buf length m3).rest =
        func.effect buf length m3.rest ∧
      (callHandler func buf length m3).cmdMap = flightTable := by
  cases func with
  | updateGains =>
      constructor
      · rfl
      · change Function.update m3.cmdMap _ _ = flightTable
        rw [table]
        exact register_updateGains
  | controlCmd => exact ⟨rfl, table⟩
  | tuneCmd => exact ⟨rfl, table⟩
  | armCmd => exact ⟨rfl, table⟩
  | disarmCmd => exact ⟨rfl, table⟩
  | setMotor => exact ⟨rfl, table⟩

theorem Dispatch.run_effect {m3 : FlightM3 R} (table : m3.cmdMap = flightTable)
    (dispatch : Dispatch) :
    (dispatch.run callHandler m3).rest = dispatch.effect m3.rest ∧
      (dispatch.run callHandler m3).cmdMap = flightTable := by
  unfold Dispatch.run Dispatch.effect
  rw [table]
  cases flightTable dispatch.cmd with
  | none => exact ⟨rfl, table⟩
  | some handler =>
      cases handler with
      | connectCmd => exact ⟨rfl, table⟩
      | disconnectCmd => exact ⟨rfl, table⟩
      | other func => exact callHandler_effect table func _ _

theorem replay_effect {m3 : FlightM3 R} (table : m3.cmdMap = flightTable)
    (dispatches : List Dispatch) :
    (CommandSystem.replay callHandler dispatches m3).rest =
        dispatches.foldl Dispatch.effect m3.rest ∧
      (CommandSystem.replay callHandler dispatches m3).cmdMap =
        flightTable := by
  induction dispatches generalizing m3 with
  | nil => exact ⟨rfl, table⟩
  | cons dispatch dispatches ih =>
      obtain ⟨rest, table'⟩ := dispatch.run_effect table
      have later := ih table'
      rw [rest] at later
      exact later

end

theorem Dispatch.effect_of_table [CFloat R] {flight : Flight R}
    {dispatch : Dispatch} {func : HandlerFunc}
    (handler : flightTable dispatch.cmd = some (.other func)) :
    dispatch.effect flight =
      func.effect dispatch.buf dispatch.length flight := by
  unfold Dispatch.effect
  rw [handler]

theorem Dispatch.table_of_frame {dispatch : Dispatch} {cmd : UInt8}
    (named : dispatch.frame.cmd = cmd) (small : cmd.toNat < 128) :
    flightTable dispatch.cmd = flightTable ⟨cmd.toNat, small⟩ := by
  congr 1
  apply Fin.ext
  rw [← dispatch.frame_cmd, named]

theorem Dispatch.length_of_frame {dispatch : Dispatch} {frame : Frame}
    (named : dispatch.frame = frame) :
    dispatch.length.toNat = frame.payload.length := by
  rw [← named]
  exact (Buffer.first_length dispatch.buf dispatch.length.toNat).symm

theorem Dispatch.byte_of_frame {dispatch : Dispatch} {frame : Frame}
    (named : dispatch.frame = frame) {offset : Nat}
    (inside : offset < frame.payload.length) :
    dispatch.buf offset = frame.payload.getD offset 0 := by
  have length := dispatch.length_of_frame named
  have payload : frame.payload = dispatch.buf.first dispatch.length.toNat := by
    rw [← named]
    rfl
  rw [List.getD_eq_getElem?_getD, payload,
    Buffer.first_getElem? _ (by omega), Option.getD_some]

end Quadcopter
