import Quadcopter.M3.Pid
import Mathlib.Tactic.Ring
import Mathlib.Algebra.Field.Rat

/-
What the PID controllers act on, over exact arithmetic.

pid_update computes the error and adds it to the integral, but its proportional
term multiplies the measurement.  The outputs of two runs that differ by a shift
of setpoints and measurements therefore differ by the gain times the shift.
-/

namespace Quadcopter

def pidOutputs {R : Type} [Add R] [Sub R] [Mul R] [Div R] :
    PidControl R → List (R × R) → List R
  | _, [] => []
  | pid, (target, cur) :: inputs =>
      (pidUpdate pid target cur).1 ::
        pidOutputs (pidUpdate pid target cur).2 inputs

variable {K : Type} [Field K]

def PidControl.shifted (pid : PidControl K) (shift : K) : PidControl K :=
  { pid with oldVal := pid.oldVal + shift }

def shiftedBy (shift : K) (inputs : List (K × K)) : List (K × K) :=
  inputs.map (fun input => (input.1 + shift, input.2 + shift))

private theorem pidUpdate_shifted (pid : PidControl K) (shift target cur : K) :
    pidUpdate (pid.shifted shift) (target + shift) (cur + shift) =
      ((pidUpdate pid target cur).1 + pid.kp * shift,
        (pidUpdate pid target cur).2.shifted shift) := by
  have error : target + shift - (cur + shift) = target - cur := by ring
  have change_ : cur + shift - (pid.oldVal + shift) = cur - pid.oldVal := by
    ring
  unfold pidUpdate PidControl.shifted
  simp only [error, change_, Prod.mk.injEq, and_true]
  ring

private theorem pidUpdate_kp (pid : PidControl K) (target cur : K) :
    (pidUpdate pid target cur).2.kp = pid.kp := rfl

private theorem pidOutputs_shifted (pid : PidControl K) (shift : K)
    (inputs : List (K × K)) :
    pidOutputs (pid.shifted shift) (shiftedBy shift inputs) =
      (pidOutputs pid inputs).map (· + pid.kp * shift) := by
  induction inputs generalizing pid with
  | nil => rfl
  | cons input inputs ih =>
      obtain ⟨target, cur⟩ := input
      have later := ih (pidUpdate pid target cur).2
      rw [pidUpdate_kp] at later
      unfold shiftedBy at later ⊢
      simp only [List.map_cons, pidOutputs, pidUpdate_shifted]
      rw [later]

private theorem pidOutputs_eq_nil {pid : PidControl K} {inputs : List (K × K)} :
    pidOutputs pid inputs = [] ↔ inputs = [] := by
  cases inputs with
  | nil => simp [pidOutputs]
  | cons input inputs => simp [pidOutputs]

private theorem map_add_eq_self {offset : K} {values : List K} :
    values.map (· + offset) = values ↔ values = [] ∨ offset = 0 := by
  induction values with
  | nil => simp
  | cons value values ih =>
      simp only [List.map_cons, List.cons.injEq, add_eq_left, ih]
      constructor
      · intro ⟨zero, _⟩
        exact .inr zero
      · intro either
        rcases either with empty | zero
        · cases empty
        · exact ⟨zero, .inr zero⟩

private theorem pidUpdate_settled (pid : PidControl K) (cur : K)
    (integral : pid.integral = 0) (oldVal : pid.oldVal = cur) :
    pidUpdate pid cur cur = (pid.kp * cur, pid) := by
  have kept :
      { pid with
        integral := pid.integral + (cur - cur) * pid.dt
        oldVal := cur } = pid := by
    rw [sub_self, zero_mul, add_zero, ← oldVal]
  unfold pidUpdate
  dsimp only
  rw [kept, sub_self, zero_mul, add_zero, integral, mul_zero, add_zero,
    oldVal, sub_self, mul_zero, zero_div, add_zero]

private theorem pidOutputs_settled (pid : PidControl K) (cur : K)
    (integral : pid.integral = 0) (oldVal : pid.oldVal = cur) (count : Nat) :
    pidOutputs pid (List.replicate count (cur, cur)) =
      List.replicate count (pid.kp * cur) := by
  induction count with
  | zero => rfl
  | succ count ih =>
      simp only [List.replicate_succ, pidOutputs,
        pidUpdate_settled pid cur integral oldVal, ih]

/-- A run does not see a shift of setpoints and measurements if and only if the
proportional gain times the shift is zero, and rests at a setpoint if and only if
the gain times the setpoint is. -/
theorem pid_acts_on_error_iff (pid : PidControl K) :
    (∀ (inputs : List (K × K)) (shift : K),
      pidOutputs (pid.shifted shift) (shiftedBy shift inputs) =
          pidOutputs pid inputs ↔
        inputs = [] ∨ pid.kp = 0 ∨ shift = 0) ∧
    ∀ (setpoint : K) (count : Nat), pid.integral = 0 →
      pid.oldVal = setpoint →
        ((∀ output ∈ pidOutputs pid
            (List.replicate count (setpoint, setpoint)), output = 0) ↔
          count = 0 ∨ pid.kp = 0 ∨ setpoint = 0) := by
  constructor
  · intro inputs shift
    rw [pidOutputs_shifted, map_add_eq_self, pidOutputs_eq_nil, mul_eq_zero]
  · intro setpoint count integral oldVal
    rw [pidOutputs_settled pid setpoint integral oldVal, ← mul_eq_zero]
    constructor
    · intro rests
      cases count with
      | zero => exact .inl rfl
      | succ count =>
          exact .inr (rests _ (List.mem_replicate.mpr ⟨by simp, rfl⟩))
    · intro either output member
      obtain ⟨some_, rfl⟩ := List.mem_replicate.mp member
      rcases either with none_ | zero
      · exact absurd none_ some_
      · exact zero

/-- A controller with only a proportional gain, at its setpoint. -/
def proportional : PidControl ℚ :=
  { kp := 1, ki := 0, kd := 0, oldVal := 1, integral := 0, targetVal := 0,
    dt := 1 }

theorem pid_acts_on_error_iff_of_proportional :
    (pidOutputs (proportional.shifted 1) (shiftedBy 1 [(1, 1)]) =
        pidOutputs proportional [(1, 1)] ↔
      [((1 : ℚ), (1 : ℚ))] = [] ∨ proportional.kp = 0 ∨ (1 : ℚ) = 0) ∧
    ((∀ output ∈ pidOutputs proportional (List.replicate 2 (1, 1)),
        output = 0) ↔
      2 = 0 ∨ proportional.kp = 0 ∨ (1 : ℚ) = 0) :=
  ⟨(pid_acts_on_error_iff proportional).1 [(1, 1)] 1,
    (pid_acts_on_error_iff proportional).2 1 2 rfl rfl⟩

/-- A copter that holds its setpoint is turned. -/
theorem pid_turns_at_setpoint :
    pidOutputs proportional [(1, 1)] = [1] ∧
      ¬ ∀ (pid : PidControl ℚ) (inputs : List (ℚ × ℚ)) (shift : ℚ),
        0 < pid.dt →
          pidOutputs (pid.shifted shift) (shiftedBy shift inputs) =
            pidOutputs pid inputs := by
  have settled : pidOutputs proportional [(1, 1)] = [1] := by
    decide +kernel
  constructor
  · exact settled
  · intro same
    have moved := same proportional [(1, 1)] 1 (by decide +kernel)
    exact absurd moved (by decide +kernel)

end Quadcopter
