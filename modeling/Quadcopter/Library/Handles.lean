import Mathlib.Data.Finset.Card
import Mathlib.Data.Finset.Range
import Mathlib.Logic.Function.Basic

/-
Handles of kinds: each is made once, and is live until it is freed.

Handles are numbers that are never used again, so a freed one is not mistaken for
a later one, and what has been made and not freed can be counted by kind.
-/

namespace Quadcopter

structure Handles (κ : Type) where
  live : Nat → Option κ
  next : Nat
  fresh : ∀ handle, next ≤ handle → live handle = none

namespace Handles

variable {κ : Type}

def empty : Handles κ where
  live := fun _ => none
  next := 0
  fresh := fun _ _ => rfl

/-- The handle that `make` gives out is `next`. -/
def make (kind : κ) (handles : Handles κ) : Handles κ where
  live := Function.update handles.live handles.next (some kind)
  next := handles.next + 1
  fresh := by
    intro handle later
    rw [Function.update_of_ne (Nat.ne_of_gt later)]
    exact handles.fresh handle (Nat.le_of_lt later)

def free (handle : Nat) (handles : Handles κ) : Handles κ where
  live := Function.update handles.live handle none
  next := handles.next
  fresh := by
    intro other later
    by_cases same : other = handle
    · rw [same, Function.update_self]
    · rw [Function.update_of_ne same]
      exact handles.fresh other later

theorem make_live_next (kind : κ) (handles : Handles κ) :
    (handles.make kind).live handles.next = some kind :=
  Function.update_self _ _ _

theorem make_live {kind other : κ} {handles : Handles κ} {handle : Nat}
    (before : handles.live handle = some other) :
    (handles.make kind).live handle = some other := by
  have old : handle ≠ handles.next := by
    intro same
    rw [same, handles.fresh _ (Nat.le_refl _)] at before
    cases before
  exact (Function.update_of_ne old _ _).trans before

theorem free_live {kind other : κ} {handles : Handles κ} {freed handle : Nat}
    (before : handles.live freed = some kind) (different : other ≠ kind)
    (kept : handles.live handle = some other) :
    (handles.free freed).live handle = some other := by
  have apart : handle ≠ freed := by
    intro same
    rw [same, before] at kept
    exact different (Option.some.inj kept).symm
  exact (Function.update_of_ne apart _ _).trans kept

variable [DecidableEq κ]

def ofKind (kind : κ) (handles : Handles κ) : Finset Nat :=
  (Finset.range handles.next).filter (fun handle =>
    handles.live handle = some kind)

def count (kind : κ) (handles : Handles κ) : Nat := (handles.ofKind kind).card

theorem mem_ofKind {kind : κ} {handles : Handles κ} {handle : Nat} :
    handle ∈ handles.ofKind kind ↔ handles.live handle = some kind := by
  unfold ofKind
  rw [Finset.mem_filter, Finset.mem_range]
  constructor
  · exact fun both => both.2
  · intro now
    refine ⟨Nat.lt_of_not_le ?_, now⟩
    intro later
    rw [handles.fresh handle later] at now
    cases now

theorem count_make (kind other : κ) (handles : Handles κ) :
    (handles.make kind).count other =
      handles.count other + if other = kind then 1 else 0 := by
  have old : handles.live handles.next = none :=
    handles.fresh _ (Nat.le_refl _)
  have absent : handles.next ∉ handles.ofKind other := by
    rw [mem_ofKind, old]
    intro impossible
    cases impossible
  unfold count
  by_cases same : other = kind
  · subst same
    rw [if_pos rfl, ← Finset.card_insert_of_notMem absent]
    congr 1
    ext handle
    rw [Finset.mem_insert, mem_ofKind, mem_ofKind]
    change Function.update _ _ _ _ = _ ↔ _
    by_cases now : handle = handles.next
    · rw [now, Function.update_self]
      simp
    · rw [Function.update_of_ne now]
      simp [now]
  · rw [if_neg same, Nat.add_zero]
    congr 1
    ext handle
    rw [mem_ofKind, mem_ofKind]
    change Function.update _ _ _ _ = _ ↔ _
    by_cases now : handle = handles.next
    · rw [now, Function.update_self, old]
      simp [Ne.symm same]
    · rw [Function.update_of_ne now]

theorem count_free {kind : κ} {handles : Handles κ} {handle : Nat}
    (before : handles.live handle = some kind) (other : κ) :
    (handles.free handle).count other + (if other = kind then 1 else 0) =
      handles.count other := by
  have erased : (handles.free handle).ofKind other =
      (handles.ofKind other).erase handle := by
    ext one
    rw [Finset.mem_erase, mem_ofKind, mem_ofKind]
    change Function.update _ _ _ _ = _ ↔ _
    by_cases now : one = handle
    · rw [now, Function.update_self]
      simp
    · rw [Function.update_of_ne now]
      simp [now]
  unfold count
  rw [erased]
  by_cases same : other = kind
  · subst same
    rw [if_pos rfl]
    exact Finset.card_erase_add_one (mem_ofKind.mpr before)
  · have absent : handle ∉ handles.ofKind other := by
      rw [mem_ofKind, before]
      exact fun equal => same (Option.some.inj equal).symm
    rw [if_neg same, Nat.add_zero, Finset.erase_eq_of_notMem absent]

end Handles

end Quadcopter
