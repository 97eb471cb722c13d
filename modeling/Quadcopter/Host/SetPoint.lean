import Quadcopter.Host.Copter
import Quadcopter.M3.FlightTelemetry

/-
What the host steers (panda/user/copter.py): whether the motors are armed, and
what control_update flies towards.

The frames of the host set it and ticks keep it, in every flight.
-/

namespace Quadcopter

variable {R : Type}

structure SetPoint (R : Type) where
  armed : Bool
  throttle : UInt16
  pitch : R
  roll : R
  yaw : R

def Flight.setPoint (flight : Flight R) : SetPoint R :=
  { armed := flight.control.armed
    throttle := flight.control.throttle
    pitch := flight.control.pitch
    roll := flight.control.roll
    yaw := flight.control.yaw }

def CopterCall.sets (point : SetPoint R) : CopterCall R → SetPoint R
  | .control pitch roll yaw throttle =>
      { point with throttle, pitch, roll, yaw }
  | .arm => { point with armed := true }
  | .disarm => { point with armed := false }
  | _ => point

section

variable [CFloat R]

def SetPoint.start : SetPoint R :=
  { armed := false
    throttle := 0
    pitch := (0 : Int)
    roll := (0 : Int)
    yaw := (0 : Int) }

private theorem CopterCall.effect_setPoint (call : CopterCall R)
    (flight : Flight R) :
    (call.effect flight).setPoint = call.sets flight.setPoint := by
  cases call with
  | updateGains gain1 gain2 => rfl
  | tune pitchP pitchI pitchD rollP rollI rollD yawP yawI yawD => rfl
  | sendConnect => rfl
  | sendDisconnect => rfl
  | setMotor motor val =>
      unfold CopterCall.effect
      dsimp only
      split
      · rfl
      · rfl
      · rfl
      · rfl
      · rfl
  | control pitch roll yaw throttle => rfl
  | arm => rfl
  | disarm => rfl

omit [CFloat R] in
private theorem reportTick_setPoint (motors : Motors) (m3 : FlightM3 R) :
    (reportTick motors m3).rest.setPoint = m3.rest.setPoint := by
  unfold reportTick Flight.setPoint
  dsimp only
  split
  · simp only [commandSend_rest]
  · rfl

variable {stream : List UInt8}
  {start system after : CommandSystem HandlerFunc (Flight R)}

/-- An event dispatches at most one frame, and only that changes the set
point. -/
theorem flightStep_setPoint {event : FlightEvent R}
    (table : system.state.m3.cmdMap = flightTable)
    (stepped : flightStep stream system event = .ok after) :
    ∃ dispatch : Option Dispatch, ∃ flight : Flight R,
      after.dispatches = system.dispatches ++ dispatch.toList ∧
      flight.setPoint = system.state.m3.rest.setPoint ∧
      after.state.m3.rest.setPoint =
        (dispatch.toList.foldl Dispatch.effect flight).setPoint := by
  have log := (flightStep_writes table stepped).2.1
  cases event with
  | arrive count =>
      refine ⟨none, system.state.m3.rest, log, rfl, ?_⟩
      rw [flightStep_arrive stepped]
      rfl
  | hostRead buf count =>
      cases stepped
      exact ⟨none, system.state.m3.rest, log, rfl, rfl⟩
  | tick input =>
      obtain ⟨dispatch, ticked⟩ := flightStep_ticked stepped
      rw [ticked.handled_eq] at log
      have begun : (flown input system).state.m3.cmdMap = flightTable := table
      refine ⟨dispatch, (flown input system).state.m3.rest, log, rfl, ?_⟩
      rw [ticked.m3_eq, reportTick_setPoint, (replay_effect begun _).1]

/-- In every moment of a flight, the m3 flies towards what the calls have set
whose frames it has dispatched. -/
theorem flightRun_setPoint {calls : List (CopterCall R)}
    (sent : CopterCall.sendAll calls = some stream)
    (reset timers : PwmTimers) (txMemory rxMemory : RingMemory)
    {events : List (FlightEvent R)}
    (ran : flightRun stream events
      (flightStart reset timers txMemory rxMemory) = .ok after) :
    ∃ done, done <+: calls ∧
      after.dispatches.map Dispatch.frame = done.map CopterCall.frame ∧
      after.state.m3.rest.setPoint = done.foldl CopterCall.sets .start := by
  have frames : (Frame.code.decodeAll stream).1 =
      calls.map CopterCall.frame := by
    rw [CopterCall.sendAll_frames, Option.some.injEq] at sent
    rw [← sent, Frame.code.decodeAll_encodeAll]
  have commands : ∀ frame ∈ (Frame.code.decodeAll stream).1,
      frame.cmd.toNat < 128 := by
    rw [frames]
    intro frame member
    obtain ⟨call, _, rfl⟩ := List.mem_map.mp member
    exact call.cmd_ascii.2
  rw [flightRun_eq_foldlM] at ran
  have invariant : after.state.m3.cmdMap = flightTable ∧
      ∃ done, after.dispatches.map Dispatch.frame =
          done.map CopterCall.frame ∧ done <+: calls ∧
        after.state.m3.rest.setPoint = done.foldl CopterCall.sets .start := by
    induction events using List.reverseRecOn generalizing after with
    | nil =>
        cases ran
        exact ⟨flightSetup_cmdMap reset timers txMemory rxMemory, [], rfl,
          List.nil_prefix, rfl⟩
    | append_singleton events event ih =>
        obtain ⟨before, begun, stepped⟩ := foldlM_concat ran
        obtain ⟨table, done, log, part, point⟩ := ih begun
        obtain ⟨dispatch, flight, log_after, same, point_after⟩ :=
          flightStep_setPoint table stepped
        refine ⟨(flightStep_writes table stepped).1, ?_⟩
        cases dispatch with
        | none =>
            refine ⟨done, ?_, part, ?_⟩
            · rw [log_after, Option.toList_none, List.append_nil, log]
            · rw [point_after]
              exact same.trans point
        | some dispatch =>
            have whole : after.dispatches.map Dispatch.frame =
                done.map CopterCall.frame ++ [dispatch.frame] := by
              rw [log_after, List.map_append, log]
              rfl
            have ordered : after.dispatches.map Dispatch.frame <+:
                calls.map CopterCall.frame := by
              obtain ⟨reached, _, _, reached_ran, framed⟩ :=
                (flightStart_framed reset timers txMemory rxMemory
                  stream).flightRun commands (events ++ [event])
              rw [flightRun_eq_foldlM, ran] at reached_ran
              cases reached_ran
              rw [← frames]
              exact framed.dispatched_prefix
            obtain ⟨rest, rfl⟩ := part
            rw [whole, List.map_append] at ordered
            have next := (List.prefix_append_right_inj _).mp ordered
            cases rest with
            | nil => exact absurd next (by simp)
            | cons call rest =>
                have named : dispatch.frame = call.frame := by
                  rw [List.map_cons, List.cons_prefix_cons] at next
                  exact next.1
                refine ⟨done ++ [call], ?_, ?_, ?_⟩
                · rw [whole, List.map_append, named]
                  rfl
                · exact ⟨rest, by simp⟩
                · rw [point_after]
                  change (dispatch.effect flight).setPoint = _
                  rw [effect_of_call named, call.effect_setPoint, same, point,
                    List.foldl_append]
                  rfl
  obtain ⟨_, done, log, part, point⟩ := invariant
  exact ⟨done, part, log, point⟩

end

end Quadcopter
