import Quadcopter.Host.Copter
import Quadcopter.Library.StepRuns

/-
The keys of the keyboard pilot (panda/user/quad_status.py).

The throttle is a global int, which [ and ] change by 1000 without a limit.
Copter.control packs it as an unsigned 16-bit value; struct.pack raises on any
other value, and nothing catches that.  A write to the device succeeds.
-/

namespace Quadcopter

def ord (c : Char) : Int := c.toNat

/-- The global, whether the program still runs, and the frames written. -/
structure Pilot where
  throttle : Int
  running : Bool
  written : List (List UInt8)
deriving DecidableEq, Repr

variable (R : Type) [CFloat R]

/-- control(0, 0, 0, throttle); `none` if struct.pack raises. -/
def controlThrottle (throttle : Int) : Option (List UInt8) :=
  let zero : R := (0 : Int)
  if 0 ≤ throttle ∧ throttle ≤ 65535 then
    Copter.control zero zero zero (UInt16.ofNat throttle.toNat)
  else none

namespace Pilot

def start : Pilot where
  throttle := 0
  running := true
  written := []

/-- An exception ends the program. -/
def send (pilot : Pilot) : Option (List UInt8) → Pilot
  | some bytes => { pilot with written := pilot.written ++ [bytes] }
  | none => { pilot with running := false }

def changeThrottle (pilot : Pilot) (change : Int) : Pilot :=
  let throttle := pilot.throttle + change
  { pilot with throttle }.send (controlThrottle R throttle)

def pressKey (pilot : Pilot) (c : Int) : Pilot :=
  if pilot.running = false then pilot
  else if c = ord 'q' then
    { pilot.send Copter.sendDisconnect with running := false }
  else if c = ord 'p' then pilot.send (Copter.sendCommand 'p' [])
  else if c = ord 'o' then pilot.send (Copter.sendCommand 'o' [])
  else if c = ord 'a' then pilot.send (Copter.sendCommand 'a' [])
  else if c = ord 'd' then pilot.send (Copter.sendCommand 's' [])
  else if c = ord '[' then pilot.changeThrottle R (-1000)
  else if c = ord ']' then pilot.changeThrottle R 1000
  else pilot

end Pilot

/-- A key that does not quit. -/
structure PilotKey where
  c : Int
  stays : c ≠ ord 'q'

def PilotKey.press (pilot : Pilot) (key : PilotKey) : Pilot :=
  pilot.pressKey R key.c

/-- The new throttle is a thousand on, or at the limit, and a frame with it is
written that the m3 takes. -/
structure ThrottleSent (before after : Pilot) (change limit : Int) : Prop where
  changed : after.throttle = before.throttle + change ∨ after.throttle = limit
  sent : ∃ (throttle : UInt16) (call : CopterCall R),
    (throttle.toNat : Int) = after.throttle ∧
      call = .control ((0 : Int) : R) ((0 : Int) : R) ((0 : Int) : R)
        throttle ∧
      after.written = before.written ++ [call.frame.encode] ∧
      ∀ (dispatch : Dispatch) (flight : Flight R),
        dispatch.frame = call.frame →
          (dispatch.effect flight).control.throttle = throttle

structure PressHandled (pilot : Pilot) (key : PilotKey) : Prop where
  running : (key.press R pilot).running = true
  low : 0 ≤ (key.press R pilot).throttle
  high : (key.press R pilot).throttle ≤ 65535
  lowered : key.c = ord '[' →
    ThrottleSent R pilot (key.press R pilot) (-1000) 0
  raised : key.c = ord ']' →
    ThrottleSent R pilot (key.press R pilot) 1000 65535

namespace Pilot

variable {R}

private theorem changeThrottle_sent {pilot : Pilot} {change : Int} (limit : Int)
    (low : 0 ≤ pilot.throttle + change)
    (high : pilot.throttle + change ≤ 65535) :
    (pilot.changeThrottle R change).throttle = pilot.throttle + change ∧
      (pilot.changeThrottle R change).running = pilot.running ∧
      ThrottleSent R pilot (pilot.changeThrottle R change) change limit := by
  have bounded : (pilot.throttle + change).toNat < 2 ^ 16 := by omega
  have packed : controlThrottle R (pilot.throttle + change) =
      some (CopterCall.control ((0 : Int) : R) ((0 : Int) : R)
        ((0 : Int) : R)
        (UInt16.ofNat (pilot.throttle + change).toNat)).frame.encode := by
    unfold controlThrottle
    rw [if_pos ⟨low, high⟩]
    exact CopterCall.send_frame (CopterCall.control _ _ _ _)
  unfold changeThrottle
  dsimp only
  rw [packed]
  refine ⟨rfl, rfl, Or.inl rfl, _, _, ?_, rfl, rfl, ?_⟩
  · change _ = pilot.throttle + change
    rw [UInt16.toNat_ofNat', Nat.mod_eq_of_lt bounded,
      Int.toNat_of_nonneg low]
  · intro dispatch flight named
    rw [effect_of_call named]
    rfl

private theorem changeThrottle_raises {pilot : Pilot} {change : Int}
    (outside : ¬ (0 ≤ pilot.throttle + change ∧
      pilot.throttle + change ≤ 65535)) :
    (pilot.changeThrottle R change).running = false := by
  unfold changeThrottle controlThrottle
  dsimp only
  rw [if_neg outside]
  rfl

private theorem pressKey_lower {pilot : Pilot}
    (running : pilot.running = true) :
    pilot.pressKey R (ord '[') = pilot.changeThrottle R (-1000) := by
  unfold pressKey
  rw [running]
  rfl

private theorem pressKey_raise {pilot : Pilot}
    (running : pilot.running = true) :
    pilot.pressKey R (ord ']') = pilot.changeThrottle R 1000 := by
  unfold pressKey
  rw [running]
  rfl

private theorem pressKey_other {pilot : Pilot} {c : Int}
    (running : pilot.running = true) (stays : c ≠ ord 'q')
    (lower : c ≠ ord '[') (raise : c ≠ ord ']') :
    ∃ written, pilot.pressKey R c = { pilot with written } := by
  unfold pressKey
  rw [if_neg (by rw [running]; decide), if_neg stays, if_neg lower,
    if_neg raise]
  split
  · exact ⟨_, rfl⟩
  · split
    · exact ⟨_, rfl⟩
    · split
      · exact ⟨_, rfl⟩
      · split
        · exact ⟨_, rfl⟩
        · exact ⟨_, rfl⟩

end Pilot

namespace PilotKey

def change (key : PilotKey) : Int :=
  if key.c = ord ']' then 1 else if key.c = ord '[' then -1 else 0

variable {R}

private theorem press_cases {pilot : Pilot} (key : PilotKey)
    (running : pilot.running = true) :
    (key.change = -1 ∧ key.c ≠ ord ']' ∧
      key.press R pilot = pilot.changeThrottle R (-1000)) ∨
    (key.change = 1 ∧ key.c ≠ ord '[' ∧
      key.press R pilot = pilot.changeThrottle R 1000) ∨
    (key.change = 0 ∧ key.c ≠ ord '[' ∧ key.c ≠ ord ']' ∧
      ∃ written, key.press R pilot = { pilot with written }) := by
  have different : ord '[' ≠ ord ']' := by decide
  unfold press
  by_cases raise : key.c = ord ']'
  · rw [raise]
    exact Or.inr (Or.inl ⟨if_pos raise, different.symm,
      Pilot.pressKey_raise running⟩)
  · by_cases lower : key.c = ord '['
    · rw [lower]
      exact Or.inl ⟨(if_neg raise).trans (if_pos lower), different,
        Pilot.pressKey_lower running⟩
    · exact Or.inr (Or.inr ⟨(if_neg raise).trans (if_neg lower), lower, raise,
        Pilot.pressKey_other running key.stays lower raise⟩)

private theorem press_in_range {pilot : Pilot} {key : PilotKey}
    (running : pilot.running = true)
    (low : 0 ≤ pilot.throttle + 1000 * key.change)
    (high : pilot.throttle + 1000 * key.change ≤ 65535) :
    (key.press R pilot).throttle = pilot.throttle + 1000 * key.change ∧
      PressHandled R pilot key := by
  rcases @press_cases R _ pilot key running with
    ⟨change, other, pressed⟩ | ⟨change, other, pressed⟩ |
      ⟨change, lower, raise, written, pressed⟩
  · obtain ⟨throttle, runs, sent⟩ :=
      @Pilot.changeThrottle_sent R _ pilot (-1000) 0 (by omega) (by omega)
    rw [← pressed] at throttle runs sent
    refine ⟨by omega, runs.trans running, by omega, by omega, fun _ => sent, ?_⟩
    intro same
    exact absurd same other
  · obtain ⟨throttle, runs, sent⟩ :=
      @Pilot.changeThrottle_sent R _ pilot 1000 65535 (by omega) (by omega)
    rw [← pressed] at throttle runs sent
    refine ⟨by omega, runs.trans running, by omega, by omega, ?_, fun _ => sent⟩
    intro same
    exact absurd same other
  · have throttle : (key.press R pilot).throttle = pilot.throttle := by
      rw [pressed]
    have runs : (key.press R pilot).running = pilot.running := by
      rw [pressed]
    refine ⟨by omega, runs.trans running, by omega, by omega, ?_, ?_⟩
    · intro same
      exact absurd same lower
    · intro same
      exact absurd same raise

private theorem pressHandled_iff {pilot : Pilot} {key : PilotKey}
    (running : pilot.running = true) (low : 0 ≤ pilot.throttle)
    (high : pilot.throttle ≤ 65535) :
    PressHandled R pilot key ↔
      0 ≤ pilot.throttle + 1000 * key.change ∧
        pilot.throttle + 1000 * key.change ≤ 65535 := by
  constructor
  · intro handled
    have runs := handled.running
    by_contra outside
    rcases @press_cases R _ pilot key running with
      ⟨change, _, pressed⟩ | ⟨change, _, pressed⟩ | ⟨change, _⟩
    · rw [pressed, Pilot.changeThrottle_raises (by omega)] at runs
      cases runs
    · rw [pressed, Pilot.changeThrottle_raises (by omega)] at runs
      cases runs
    · omega
  · rintro ⟨low, high⟩
    exact (press_in_range running low high).2

end PilotKey

/-- The presses of ] less those of [. -/
def throttleLevel (keys : List PilotKey) : Int :=
  keys.countP (fun key => key.c = ord ']') -
    keys.countP (fun key => key.c = ord '[')

private theorem throttleLevel_snoc (keys : List PilotKey) (key : PilotKey) :
    throttleLevel (keys ++ [key]) = throttleLevel keys + key.change := by
  have different : ord '[' ≠ ord ']' := by decide
  unfold throttleLevel PilotKey.change
  rw [List.countP_append, List.countP_append, List.countP_singleton,
    List.countP_singleton]
  by_cases raise : key.c = ord ']'
  · simp [raise, different.symm]
    omega
  · by_cases lower : key.c = ord '['
    · simp [lower, different]
      omega
    · simp [raise, lower]

def LevelInRange (keys : List PilotKey) : Prop :=
  0 ≤ throttleLevel keys ∧ throttleLevel keys ≤ 65

variable {R}

private theorem run_in_range (keys : List PilotKey)
    (in_range : ∀ done, done <+: keys → LevelInRange done) :
    (runSteps (PilotKey.press R) Pilot.start keys).running = true ∧
      (runSteps (PilotKey.press R) Pilot.start keys).throttle =
        1000 * throttleLevel keys := by
  induction keys using List.reverseRecOn with
  | nil => exact ⟨rfl, rfl⟩
  | append_singleton keys key ih =>
      obtain ⟨running, throttle⟩ := ih
        (fun done part => in_range done (part.trans (List.prefix_append _ _)))
      obtain ⟨low, high⟩ := in_range _ (List.prefix_refl _)
      rw [throttleLevel_snoc] at low high ⊢
      obtain ⟨next, handled⟩ := @PilotKey.press_in_range R _ _ key running
        (by omega) (by omega)
      rw [runSteps_append]
      refine ⟨handled.running, ?_⟩
      change (key.press R _).throttle = _
      rw [next, throttle, Int.mul_add]

/-- All sequences of keys other than q. -/
theorem presses_handled_iff (keys : List PilotKey) :
    EveryStep (PilotKey.press R) (PressHandled R) Pilot.start keys ↔
      ∀ done, done <+: keys → LevelInRange done := by
  symm
  apply EveryStep.every_prefix_iff
  · exact ⟨by decide, by decide⟩
  · intro keys key before
    obtain ⟨running, throttle⟩ := @run_in_range R _ keys before
    obtain ⟨low, high⟩ := before keys (List.prefix_refl keys)
    rw [PilotKey.pressHandled_iff running (by omega) (by omega)]
    unfold LevelInRange
    rw [throttleLevel_snoc]
    omega

private theorem lower_stays : ord '[' ≠ ord 'q' := by decide

/-- The first key is [. -/
theorem first_press_ends_program :
    let key : PilotKey := ⟨ord '[', lower_stays⟩
    key.press Float32 Pilot.start =
        { throttle := -1000, running := false, written := [] } ∧
      ¬ EveryStep (PilotKey.press Float32) (PressHandled Float32) Pilot.start
        [key] := by
  constructor
  · rfl
  · intro every
    cases every.1.running

end Quadcopter
