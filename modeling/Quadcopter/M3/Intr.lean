import Quadcopter.Library.MachineInt
import Quadcopter.Library.StepRuns

/-
The interrupt controller of the m3 (panda/m3/intr.c).

REG32 is the little-endian word of the four bytes from its address on.  The byte
at NVIC_IPR + k is the priority of external interrupt k, but the address in
intr_set_priority lacks the factor of 4 that intr_enable and intr_disable have:
the word of interrupt num starts at byte num / 4.
-/

namespace Quadcopter

open MachineInt

def nvicIpr : UInt32 := 0xE000E400

def systemIntrEnd : Nat := 16

inductive IntrHandler where
  | stackTop
  | resetHandler
  | nmiHandler
  | hardFaultHandler
  | mpuHandler
  | busFaultHandler
  | usageFaultHandler
  | null
  | svcallHandler
  | debugHandler
  | pendsvHandler
  | systickHandler
  | defaultHandler
deriving DecidableEq, Repr

def intrTable : List IntrHandler :=
  [.stackTop, .resetHandler, .nmiHandler, .hardFaultHandler, .mpuHandler,
    .busFaultHandler, .usageFaultHandler, .null, .null, .null, .null,
    .svcallHandler, .debugHandler, .null, .pendsvHandler, .systickHandler] ++
    List.replicate 64 .defaultHandler

def intrSetPriority (num : Int32) (priority : UInt8) (memory : Nat → UInt8) :
    Nat → UInt8 :=
  let reg := nvicIpr + (num / 4).toUInt32
  let off := ((num % 4) * 8).toUInt32
  storeWord memory reg.toNat
    ((wordAt memory reg.toNat &&& ~~~((0xFF : UInt32) <<< off)) |||
      (priority.toUInt32 <<< off))

/-- External interrupt k has an entry behind those of the system. -/
def HasEntry (k : Nat) : Prop := systemIntrEnd + k < intrTable.length

instance (k : Nat) : Decidable (HasEntry k) :=
  inferInstanceAs (Decidable (systemIntrEnd + k < intrTable.length))

private theorem hasEntry_iff (k : Nat) : HasEntry k ↔ k < 64 := by
  have length : intrTable.length = 80 := by decide
  unfold HasEntry systemIntrEnd
  rw [length]
  omega

structure ExternalIntr where
  num : Int32
  nonneg : 0 ≤ num.toInt
  entry : HasEntry num.toInt.toNat

namespace ExternalIntr

def index (intr : ExternalIntr) : Nat := intr.num.toInt.toNat

theorem index_lt (intr : ExternalIntr) : intr.index < 64 :=
  (hasEntry_iff _).mp intr.entry

private theorem toInt_quotient (intr : ExternalIntr) {divisor : Int32}
    (positive : 0 < divisor.toInt) :
    (intr.num / divisor).toInt =
      ((intr.index / divisor.toInt.toNat : Nat) : Int) :=
  toInt_div intr.nonneg positive

private theorem toInt_rest (intr : ExternalIntr) {divisor : Int32}
    (positive : 0 < divisor.toInt) :
    (intr.num % divisor).toInt =
      ((intr.index % divisor.toInt.toNat : Nat) : Int) :=
  toInt_mod intr.nonneg positive

end ExternalIntr

structure PriorityCall where
  intr : ExternalIntr
  priority : UInt8

namespace PriorityCall

def run (memory : Nat → UInt8) (call : PriorityCall) : Nat → UInt8 :=
  intrSetPriority call.intr.num call.priority memory

def stored (call : PriorityCall) : Nat :=
  call.intr.index / 4 + call.intr.index % 4

variable (call : PriorityCall)

private theorem stored_hasEntry : HasEntry call.stored := by
  have bound := call.intr.index_lt
  rw [hasEntry_iff]
  unfold stored
  omega

private theorem stored_eq_iff : call.stored = call.intr.index ↔ call.intr.index
    < 4 := by
  unfold stored
  omega

private theorem reg_toNat :
    (nvicIpr + (call.intr.num / 4).toUInt32).toNat =
      nvicIpr.toNat + call.intr.index / 4 := by
  have bound := call.intr.index_lt
  have quotient : (call.intr.num / 4).toInt =
      ((call.intr.index / 4 : Nat) : Int) :=
    call.intr.toInt_quotient (by decide)
  rw [UInt32.toNat_add, toNat_toUInt32 (call.intr.num / 4) (by omega),
    quotient, Int.toNat_natCast]
  apply Nat.mod_eq_of_lt
  change 0xE000E400 + call.intr.index / 4 < 2 ^ 32
  omega

private theorem off_toNat :
    ((call.intr.num % 4) * 8).toUInt32.toNat = 8 * (call.intr.index % 4) := by
  have rest : (call.intr.num % 4).toInt =
      ((call.intr.index % 4 : Nat) : Int) :=
    call.intr.toInt_rest (by decide)
  have eight : (8 : Int32).toInt = ((8 : Nat) : Int) := rfl
  rw [toNat_mul rest eight (by omega), Nat.mul_comm]

private theorem run_eq_update (memory : Nat → UInt8) :
    call.run memory =
      Function.update memory (nvicIpr.toNat + call.stored) call.priority := by
  have stored_word := storeWord_replaceByte memory
    (nvicIpr.toNat + call.intr.index / 4) _ call.priority call.off_toNat
    (Nat.mod_lt _ (by decide))
  rw [Nat.add_assoc, ← call.reg_toNat] at stored_word
  exact stored_word

end PriorityCall

def callsOf (k : Nat) (calls : List PriorityCall) : List PriorityCall :=
  calls.filter fun call => call.intr.index = k

private theorem callsOf_snoc (k : Nat) (calls : List PriorityCall)
    (call : PriorityCall) :
    callsOf k (calls ++ [call]) =
      if call.intr.index = k then callsOf k calls ++ [call] else callsOf k calls := by
  unfold callsOf
  rw [List.filter_append]
  by_cases same : call.intr.index = k
  · simp [same]
  · simp [same]

/-- The last value set for interrupt k, or its initial value. -/
def lastPriority (memory : Nat → UInt8) (calls : List PriorityCall) (k : Nat) :
    UInt8 :=
  match (callsOf k calls).getLast? with
  | some call => call.priority
  | none => memory (nvicIpr.toNat + k)

private theorem lastPriority_snoc (memory : Nat → UInt8)
    (calls : List PriorityCall)
    (call : PriorityCall) :
    lastPriority memory (calls ++ [call]) =
      Function.update (lastPriority memory calls) call.intr.index
        call.priority := by
  funext k
  unfold lastPriority
  rw [callsOf_snoc]
  by_cases same : k = call.intr.index
  · rw [if_pos same.symm, List.getLast?_append, same, Function.update_self]
    rfl
  · rw [if_neg (Ne.symm same), Function.update_of_ne same]

def PrioritiesHeld (memory : Nat → UInt8) (calls : List PriorityCall) : Prop :=
  ∀ k, HasEntry k →
    runSteps (fun memory call => call.run memory) memory calls
      (nvicIpr.toNat + k) = lastPriority memory calls k

/-- The call stores the right byte, or neither byte changes. -/
def StoresOwnByte (memory : Nat → UInt8) (call : PriorityCall) : Prop :=
  call.intr.index < 4 ∨
    (memory (nvicIpr.toNat + call.intr.index) = call.priority ∧
      memory (nvicIpr.toNat + call.stored) = call.priority)

private theorem run_sets_priority_iff (memory : Nat → UInt8)
    (call : PriorityCall) :
    (∀ k, HasEntry k →
      call.run memory (nvicIpr.toNat + k) =
        Function.update (fun k => memory (nvicIpr.toNat + k))
          call.intr.index call.priority k) ↔
      StoresOwnByte memory call := by
  unfold StoresOwnByte
  rw [call.run_eq_update]
  constructor
  · intro sets
    rcases Nat.lt_or_ge call.intr.index 4 with first | later
    · exact Or.inl first
    · right
      have elsewhere : call.stored ≠ call.intr.index :=
        fun same => absurd (call.stored_eq_iff.mp same) (by omega)
      have own := sets call.intr.index call.intr.entry
      have other := sets call.stored call.stored_hasEntry
      rw [Function.update_self, Function.update_of_ne (by omega)] at own
      rw [Function.update_self, Function.update_of_ne elsewhere] at other
      exact ⟨own, other.symm⟩
  · intro own k _
    rcases own with first | ⟨own, other⟩
    · rw [call.stored_eq_iff.mpr first]
      by_cases same : k = call.intr.index
      · rw [same, Function.update_self, Function.update_self]
      · rw [Function.update_of_ne same, Function.update_of_ne (by omega)]
    · rw [← other, Function.update_eq_self, other, ← own,
        Function.update_eq_self (f := fun k => memory (nvicIpr.toNat + k))]

private theorem prioritiesHeld_snoc (memory : Nat → UInt8)
    (calls : List PriorityCall)
    (call : PriorityCall) (held : PrioritiesHeld memory calls) :
    PrioritiesHeld memory (calls ++ [call]) ↔
      StoresOwnByte (runSteps (fun memory call => call.run memory) memory calls)
        call := by
  rw [← run_sets_priority_iff]
  unfold PrioritiesHeld
  apply forall_congr'
  intro k
  apply forall_congr'
  intro entry
  have before := held k entry
  rw [runSteps_append, lastPriority_snoc]
  change call.run _ _ = _ ↔ _
  by_cases same : k = call.intr.index
  · rw [same, Function.update_self, Function.update_self]
  · rw [Function.update_of_ne same, Function.update_of_ne same, ← before]

/-- All runs from any contents of the registers. -/
theorem priorities_held_iff (memory : Nat → UInt8) (calls : List PriorityCall) :
    (∀ done, done <+: calls → PrioritiesHeld memory done) ↔
      EveryStep (fun memory call => call.run memory) StoresOwnByte memory
        calls := by
  apply EveryStep.every_prefix_iff
  · intro k _
    rfl
  · intro actions call before
    exact prioritiesHeld_snoc memory actions call
      (before actions (List.prefix_refl actions))

private theorem nonneg_sixteen : 0 ≤ (16 : Int32).toInt := by decide

private theorem hasEntry_sixteen :
    HasEntry (16 : Int32).toInt.toNat := by decide

/-- Interrupt 16 keeps its priority, and interrupt 4 gets the new one. -/
theorem priorities_not_held :
    let call : PriorityCall := ⟨⟨16, nonneg_sixteen, hasEntry_sixteen⟩, 0x80⟩
    call.run (fun _ => 0) (nvicIpr.toNat + 4) = 0x80 ∧
      ¬ PrioritiesHeld (fun _ => 0) [call] := by
  constructor
  · decide
  · intro held
    exact absurd (held 16 (by decide)) (by decide)

end Quadcopter
