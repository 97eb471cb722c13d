import Mathlib.Data.List.Infix
import Mathlib.Data.List.Induction

/-
Machines that emit a log, and observers that read some first part of it.

A step may fail, and so may the observer.  What the observer knows is about the
run so far: a later step does not make it wrong, so the observer may lag behind.
-/

namespace Quadcopter

variable {σ ε ω β η : Type}

theorem foldlM_concat {step : σ → ε → Except η σ} {state after : σ}
    {events : List ε} {event : ε}
    (ran : (events ++ [event]).foldlM step state = .ok after) :
    ∃ before, events.foldlM step state = .ok before ∧
      step before event = .ok after := by
  rw [List.foldlM_append] at ran
  cases begun : events.foldlM step state with
  | error halt =>
      rw [begun] at ran
      cases ran
  | ok before =>
      rw [begun] at ran
      refine ⟨before, rfl, ?_⟩
      change ([event].foldlM step before) = .ok after at ran
      rw [List.foldlM_cons] at ran
      cases stepped : step before event with
      | error halt =>
          rw [stepped] at ran
          cases ran
      | ok next =>
          rw [stepped] at ran
          exact ran

theorem foldlM_of_concat {step : σ → ε → Except η σ} {state before after : σ}
    {events : List ε} {event : ε}
    (ran : events.foldlM step state = .ok before)
    (stepped : step before event = .ok after) :
    (events ++ [event]).foldlM step state = .ok after := by
  rw [List.foldlM_append, ran]
  change ([event].foldlM step before) = .ok after
  rw [List.foldlM_cons, stepped]
  rfl

/-- What the steps of a run emit, up to the first that fails. -/
def emitted (step : σ → ε → Except η σ) (emits : σ → ε → List ω) :
    σ → List ε → List ω
  | _, [] => []
  | state, event :: events =>
      match step state event with
      | .error _ => []
      | .ok next => emits state event ++ emitted step emits next events

theorem emitted_append {step : σ → ε → Except η σ}
    {emits : σ → ε → List ω} {state before : σ} {events : List ε}
    (ran : events.foldlM step state = .ok before) (more : List ε) :
    emitted step emits state (events ++ more) =
      emitted step emits state events ++ emitted step emits before more := by
  induction events generalizing state with
  | nil =>
      cases ran
      rfl
  | cons event events ih =>
      rw [List.foldlM_cons] at ran
      cases stepped : step state event with
      | error halt =>
          rw [stepped] at ran
          cases ran
      | ok next =>
          rw [stepped] at ran
          simp only [List.cons_append, emitted, stepped]
          rw [ih ran, List.append_assoc]

theorem emitted_concat {step : σ → ε → Except η σ}
    {emits : σ → ε → List ω} {state before after : σ} {events : List ε}
    {event : ε} (ran : events.foldlM step state = .ok before)
    (stepped : step before event = .ok after) :
    emitted step emits state (events ++ [event]) =
      emitted step emits state events ++ emits before event := by
  rw [emitted_append ran]
  simp only [emitted, stepped, List.append_nil]

theorem emitted_starts (step : σ → ε → Except η σ) (emits : σ → ε → List ω)
    (state : σ) (events more : List ε) :
    emitted step emits state events <+:
      emitted step emits state (events ++ more) := by
  induction events generalizing state with
  | nil => exact List.nil_prefix
  | cons event events ih =>
      simp only [List.cons_append, emitted]
      split
      · exact List.nil_prefix
      · exact (List.prefix_append_right_inj _).mpr (ih _)

theorem emitted_forall {step : σ → ε → Except η σ} {emits : σ → ε → List ω}
    {only : ω → Prop} {events : List ε}
    (each : ∀ state, ∀ event ∈ events, ∀ out ∈ emits state event, only out)
    (state : σ) : ∀ out ∈ emitted step emits state events, only out := by
  induction events generalizing state with
  | nil =>
      intro out member
      cases member
  | cons event events ih =>
      intro out member
      unfold emitted at member
      split at member
      · cases member
      · next next _ =>
          rcases List.mem_append.mp member with now | later
          · exact each state event List.mem_cons_self out now
          · exact ih (fun state event inside =>
              each state event (List.mem_cons_of_mem _ inside)) next out later

theorem emitted_flatMap {κ : Type} {step : σ → ε → Except η σ}
    {emits : σ → ε → List ω} (pieces : ω → List κ) (state : σ)
    (events : List ε) :
    (emitted step emits state events).flatMap pieces =
      emitted step (fun state event => (emits state event).flatMap pieces)
        state events := by
  induction events generalizing state with
  | nil => rfl
  | cons event events ih =>
      unfold emitted
      split
      · rfl
      · rw [List.flatMap_append, ih]

/-- One step, seen by an observer that agrees with the machine before it. -/
structure Tracked (log : List ω) (sees : β → ω → Option β)
    (agree : β → Prop) (knows : List ω → β → Prop) (view : β) : Prop where
  part : ∀ read, read <+: log →
    ∃ seen, read.foldlM sees view = some seen ∧ knows read seen
  whole : ∀ seen, log.foldlM sees view = some seen → agree seen

/-- An observer that has read some first part of the log knows what it says, and
agrees with the machine when it has read it all. -/
theorem observer_knows {step : σ → ε → Except η σ} {emits : σ → ε → List ω}
    {sees : β → ω → Option β} {agree : List ε → σ → β → Prop}
    {knows : List ε → List ω → β → Prop} {start : σ} {first : β}
    (grows : ∀ events event read view, knows events read view →
      knows (events ++ [event]) read view)
    (each : ∀ events event before after view,
      events.foldlM step start = .ok before →
      step before event = .ok after → agree events before view →
      Tracked (emits before event) sees (agree (events ++ [event]) after)
        (fun read => knows (events ++ [event])
          (emitted step emits start events ++ read)) view)
    (agrees : agree [] start first) (knew : knows [] [] first)
    {events : List ε} {after : σ}
    (ran : events.foldlM step start = .ok after) :
    Tracked (emitted step emits start events) sees (agree events after)
      (knows events) first := by
  induction events using List.reverseRecOn generalizing after with
  | nil =>
      cases ran
      constructor
      · intro read part
        rw [List.prefix_nil.mp part]
        exact ⟨first, rfl, knew⟩
      · intro seen whole
        cases whole
        exact agrees
  | append_singleton events event ih =>
      obtain ⟨before, begun, stepped⟩ := foldlM_concat ran
      have earlier := ih begun
      obtain ⟨view, viewed, _⟩ := earlier.part _ (List.prefix_refl _)
      have now := each events event before after view begun stepped
        (earlier.whole view viewed)
      rw [emitted_concat begun stepped]
      constructor
      · intro read part
        rcases List.prefix_or_prefix_of_prefix part (List.prefix_append _ _)
          with behind | ⟨last, rfl⟩
        · obtain ⟨seen, seen_eq, known⟩ := earlier.part read behind
          exact ⟨seen, seen_eq, grows events event read seen known⟩
        · obtain ⟨seen, seen_eq, known⟩ := now.part last
            ((List.prefix_append_right_inj _).mp part)
          refine ⟨seen, ?_, known⟩
          rw [List.foldlM_append, viewed]
          exact seen_eq
      · intro seen whole
        rw [List.foldlM_append, viewed] at whole
        exact now.whole seen whole

end Quadcopter
