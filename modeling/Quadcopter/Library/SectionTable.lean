import Mathlib.Logic.Function.Basic
import Quadcopter.Library.MachineInt

/-
First-level translation tables whose entries are sections of one megabyte.

A table is 4096 little-endian words.  What it maps is a partial function between
the megabytes of the two address spaces, and the words are one way to store it.
-/

namespace Quadcopter.SectionTable

open MachineInt

def megabyteOf (address : UInt32) : Nat := address.toNat / 2 ^ 20

def entry (table : Nat → UInt8) (megabyte : Nat) : UInt32 :=
  wordAt table (4 * megabyte)

def storeEntry (table : Nat → UInt8) (megabyte : Nat) (word : UInt32) :
    Nat → UInt8 :=
  storeWord table (4 * megabyte) word

/-- Bits 1 and 0 say that the entry is a section. -/
def IsSection (word : UInt32) : Prop := word &&& 3 = 2

instance (word : UInt32) : Decidable (IsSection word) :=
  inferInstanceAs (Decidable (word &&& 3 = 2))

/-- Where the table sends an address; `none` is a fault. -/
def translate (table : Nat → UInt8) (address : UInt32) : Option UInt32 :=
  if IsSection (entry table (megabyteOf address)) then
    some (entry table (megabyteOf address) &&& 0xFFF00000 |||
      address &&& 0x000FFFFF)
  else none

theorem megabyteOf_lt (address : UInt32) : megabyteOf address < 4096 := by
  have bound := address.toNat_lt
  unfold megabyteOf
  omega

theorem entry_storeEntry (table : Nat → UInt8) (megabyte other : Nat)
    (word : UInt32) :
    entry (storeEntry table megabyte word) other =
      if other = megabyte then word else entry table other := by
  by_cases same : other = megabyte
  · rw [if_pos same, same]
    exact wordAt_storeWord table _ word
  · rw [if_neg same]
    apply wordAt_congr
    intro index low high
    apply storeWord_outside
    omega

theorem toNat_and_offsetMask (address : UInt32) :
    (address &&& 0x000FFFFF).toNat = address.toNat % 2 ^ 20 := by
  rw [UInt32.toNat_and]
  exact Nat.and_two_pow_sub_one_eq_mod _ 20

theorem isSection_iff (word : UInt32) :
    IsSection word ↔ word.toNat % 4 = 2 := by
  have low : (word &&& 3).toNat = word.toNat % 4 := by
    rw [UInt32.toNat_and]
    exact Nat.and_two_pow_sub_one_eq_mod _ 2
  unfold IsSection
  rw [← UInt32.toNat_inj, low]
  rfl

/-- The low bits of the entries of a table. -/
structure Attributes where
  bits : UInt32
  small : bits.toNat < 2 ^ 20
  marked : IsSection bits

abbrev Mapping : Type := Nat → Option Nat

namespace Mapping

def empty : Mapping := fun _ => none

def assign (mapping : Mapping) (megabyte target : Nat) : Mapping :=
  Function.update mapping megabyte (some target)

/-- How far a megabyte lies behind another, around the end of the space. -/
def distance (start megabyte : Nat) : Nat :=
  (megabyte + (4096 - start % 4096)) % 4096

/-- `count` megabytes from `start` on, sent to those from `target` on. -/
def assignRange (mapping : Mapping) (start target count : Nat) : Mapping :=
  fun megabyte =>
    if distance start megabyte < count then
      some ((target + distance start megabyte) % 4096)
    else mapping megabyte

end Mapping

def descriptor (attributes : Attributes) (target : Nat) : UInt32 :=
  UInt32.ofNat (target * 2 ^ 20) ||| attributes.bits

/-- The table stores the mapping: a megabyte that is not mapped has entry 0. -/
structure Represents (attributes : Attributes) (table : Nat → UInt8)
    (mapping : Mapping) : Prop where
  unmapped : ∀ megabyte, megabyte < 4096 → mapping megabyte = none →
    entry table megabyte = 0
  mapped : ∀ megabyte target, megabyte < 4096 →
    mapping megabyte = some target →
      target < 4096 ∧ entry table megabyte = descriptor attributes target

theorem toNat_descriptor (attributes : Attributes) {target : Nat}
    (inside : target < 4096) :
    (descriptor attributes target).toNat =
      target * 2 ^ 20 + attributes.bits.toNat := by
  have high : (UInt32.ofNat (target * 2 ^ 20)).toNat = target * 2 ^ 20 := by
    rw [UInt32.toNat_ofNat']
    omega
  unfold descriptor
  rw [toNat_section_or _ _ (by omega) attributes.small, high]

theorem isSection_descriptor (attributes : Attributes) {target : Nat}
    (inside : target < 4096) : IsSection (descriptor attributes target) := by
  have marked := (isSection_iff _).mp attributes.marked
  apply (isSection_iff _).mpr
  rw [toNat_descriptor attributes inside]
  omega

/-- A table translates as the mapping that it stores. -/
theorem Represents.translate_eq {attributes : Attributes}
    {table : Nat → UInt8} {mapping : Mapping}
    (represents : Represents attributes table mapping) (address : UInt32) :
    (translate table address).map UInt32.toNat =
      (mapping (megabyteOf address)).map
        (fun target => target * 2 ^ 20 + address.toNat % 2 ^ 20) := by
  have inside := megabyteOf_lt address
  unfold translate
  cases found : mapping (megabyteOf address) with
  | none =>
      rw [represents.unmapped _ inside found, if_neg (by decide)]
      rfl
  | some target =>
      obtain ⟨target_lt, stored⟩ := represents.mapped _ target inside found
      have small := attributes.small
      have whole := toNat_descriptor attributes target_lt
      have high : (descriptor attributes target &&& 0xFFF00000).toNat =
          target * 2 ^ 20 := by
        rw [toNat_and_sectionMask, whole]
        omega
      rw [stored, if_pos (isSection_descriptor attributes target_lt)]
      simp only [Option.map_some, Option.some.injEq]
      rw [toNat_section_or _ _ (by omega)
        (by rw [toNat_and_offsetMask]; omega), high, toNat_and_offsetMask]

theorem Represents.isSection_entry {attributes : Attributes}
    {table : Nat → UInt8} {mapping : Mapping}
    (represents : Represents attributes table mapping) {megabyte target : Nat}
    (inside : megabyte < 4096) (found : mapping megabyte = some target) :
    IsSection (entry table megabyte) := by
  obtain ⟨target_lt, stored⟩ := represents.mapped megabyte target inside found
  rw [stored]
  exact isSection_descriptor attributes target_lt

theorem Represents.congr {attributes : Attributes} {table : Nat → UInt8}
    {mapping other : Mapping} (represents : Represents attributes table mapping)
    (same : ∀ megabyte, megabyte < 4096 →
      mapping megabyte = other megabyte) : Represents attributes table other := by
  constructor
  · intro megabyte inside found
    exact represents.unmapped megabyte inside ((same megabyte inside).trans found)
  · intro megabyte target inside found
    exact represents.mapped megabyte target inside
      ((same megabyte inside).trans found)

theorem represents_empty (attributes : Attributes) {table : Nat → UInt8}
    (cleared : ∀ index, index < 4 * 4096 → table index = 0) :
    Represents attributes table Mapping.empty := by
  constructor
  · intro megabyte inside _
    have zero : entry table megabyte = entry (fun _ => 0) megabyte := by
      apply wordAt_congr
      intro index low high
      exact cleared index (by omega)
    rw [zero]
    rfl
  · intro megabyte target _ impossible
    cases impossible

theorem Represents.assign {attributes : Attributes} {table : Nat → UInt8}
    {mapping : Mapping} (represents : Represents attributes table mapping)
    (megabyte : Nat) {target : Nat} (inside : target < 4096) :
    Represents attributes
      (storeEntry table megabyte (descriptor attributes target))
      (mapping.assign megabyte target) := by
  constructor
  · intro other other_lt found
    rw [entry_storeEntry]
    by_cases same : other = megabyte
    · subst other
      simp [Mapping.assign] at found
    · rw [if_neg same]
      rw [Mapping.assign, Function.update_of_ne same] at found
      exact represents.unmapped other other_lt found
  · intro other other_target other_lt found
    rw [entry_storeEntry]
    by_cases same : other = megabyte
    · subst other
      rw [Mapping.assign, Function.update_self, Option.some.injEq] at found
      subst other_target
      exact ⟨inside, if_pos rfl⟩
    · rw [if_neg same]
      rw [Mapping.assign, Function.update_of_ne same] at found
      exact represents.mapped other other_target other_lt found

namespace Mapping

theorem distance_eq_iff {start megabyte offset : Nat} (inside : megabyte < 4096)
    (short : offset < 4096) :
    distance start megabyte = offset ↔
      megabyte = (start + offset) % 4096 := by
  unfold distance
  omega

theorem assignRange_succ (mapping : Mapping) (start target count : Nat)
    (short : count < 4096) {megabyte : Nat} (inside : megabyte < 4096) :
    mapping.assignRange start target (count + 1) megabyte =
      (mapping.assignRange start target count).assign
        ((start + count) % 4096) ((target + count) % 4096) megabyte := by
  have last := @distance_eq_iff start megabyte count inside short
  unfold assign
  by_cases same : megabyte = (start + count) % 4096
  · have reached := last.mpr same
    rw [← same, Function.update_self]
    unfold assignRange
    rw [reached, if_pos (by omega)]
  · have other : distance start megabyte ≠ count := fun h => same (last.mp h)
    rw [Function.update_of_ne same]
    unfold assignRange
    by_cases before : distance start megabyte < count
    · rw [if_pos before, if_pos (by omega)]
    · rw [if_neg before, if_neg (by omega)]

end Mapping

structure Range where
  start : Nat
  target : Nat
  count : Nat

namespace Range

open Mapping

def Covers (range : Range) (megabyte : Nat) : Prop :=
  distance range.start megabyte < range.count

instance (range : Range) (megabyte : Nat) : Decidable (range.Covers megabyte) :=
  inferInstanceAs (Decidable (distance range.start megabyte < range.count))

def image (range : Range) (megabyte : Nat) : Nat :=
  (range.target + distance range.start megabyte) % 4096

def assignTo (mapping : Mapping) (range : Range) : Mapping :=
  mapping.assignRange range.start range.target range.count

theorem assignTo_of_covers {range : Range} {megabyte : Nat} (mapping : Mapping)
    (covers : range.Covers megabyte) :
    assignTo mapping range megabyte = some (range.image megabyte) :=
  if_pos covers

theorem assignTo_of_not_covers {range : Range} {megabyte : Nat}
    (mapping : Mapping) (outside : ¬ range.Covers megabyte) :
    assignTo mapping range megabyte = mapping megabyte :=
  if_neg outside

theorem foldl_of_not_covers (ranges : List Range) (mapping : Mapping)
    {megabyte : Nat} (outside : ∀ range ∈ ranges, ¬ range.Covers megabyte) :
    ranges.foldl assignTo mapping megabyte = mapping megabyte := by
  induction ranges generalizing mapping with
  | nil => rfl
  | cons range ranges ih =>
      have first := assignTo_of_not_covers mapping
        (outside range List.mem_cons_self)
      have rest := ih (assignTo mapping range)
        (fun other member => outside other (List.mem_cons_of_mem _ member))
      rw [List.foldl_cons, rest, first]

/-- The last range that covers a megabyte decides. -/
theorem foldl_of_last (earlier later : List Range) (mapping : Mapping)
    {range : Range} {megabyte : Nat} (covers : range.Covers megabyte)
    (outside : ∀ other ∈ later, ¬ other.Covers megabyte) :
    (earlier ++ range :: later).foldl assignTo mapping megabyte =
      some (range.image megabyte) := by
  rw [List.foldl_append, List.foldl_cons, foldl_of_not_covers later _ outside,
    assignTo_of_covers _ covers]

/-- A megabyte that is mapped after some ranges were assigned was mapped before,
or is the image of a megabyte in one of them. -/
theorem found_in_range (ranges : List Range) {mapping : Mapping}
    {megabyte target : Nat}
    (found : ranges.foldl assignTo mapping megabyte = some target) :
    mapping megabyte = some target ∨
      ∃ range ∈ ranges, range.Covers megabyte ∧
        target = range.image megabyte := by
  induction ranges generalizing mapping with
  | nil => exact Or.inl found
  | cons range ranges ih =>
      rcases ih found with here | ⟨other, member, inside⟩
      · by_cases covers : range.Covers megabyte
        · rw [assignTo_of_covers _ covers] at here
          exact Or.inr ⟨range, List.mem_cons_self, covers,
            (Option.some.inj here).symm⟩
        · rw [assignTo_of_not_covers _ covers] at here
          exact Or.inl here
      · exact Or.inr ⟨other, List.mem_cons_of_mem _ member, inside⟩

end Range

def wordOf (attributes : Attributes) : Option Nat → UInt32
  | none => 0
  | some target => descriptor attributes target

theorem Represents.entry_eq {attributes : Attributes} {table : Nat → UInt8}
    {mapping : Mapping} (represents : Represents attributes table mapping)
    {megabyte : Nat} (inside : megabyte < 4096) :
    entry table megabyte = wordOf attributes (mapping megabyte) := by
  cases found : mapping megabyte with
  | none => exact represents.unmapped megabyte inside found
  | some target => exact (represents.mapped megabyte target inside found).2

def Lists (attributes : Attributes) (words : Nat → UInt32)
    (mapping : Mapping) : Prop :=
  ∀ megabyte, megabyte < 4096 →
    words megabyte = wordOf attributes (mapping megabyte)

theorem Lists.congr {attributes : Attributes} {words : Nat → UInt32}
    {mapping other : Mapping} (lists : Lists attributes words mapping)
    (same : ∀ megabyte, megabyte < 4096 →
      mapping megabyte = other megabyte) : Lists attributes words other := by
  intro megabyte inside
  rw [← same megabyte inside]
  exact lists megabyte inside

theorem Lists.assign {attributes : Attributes} {words : Nat → UInt32}
    {mapping : Mapping} (lists : Lists attributes words mapping)
    (megabyte target : Nat) :
    Lists attributes
      (Function.update words megabyte (descriptor attributes target))
      (mapping.assign megabyte target) := by
  intro other inside
  unfold Mapping.assign
  by_cases same : other = megabyte
  · rw [same, Function.update_self, Function.update_self]
    rfl
  · rw [Function.update_of_ne same, Function.update_of_ne same]
    exact lists other inside

def walk (word address : UInt32) : Option UInt32 :=
  if IsSection word then
    some (word &&& 0xFFF00000 ||| address &&& 0x000FFFFF)
  else none

theorem walk_zero (address : UInt32) : walk 0 address = none :=
  if_neg (by decide)

theorem walk_descriptor (attributes : Attributes) {target : Nat}
    (inside : target < 4096) (address : UInt32) :
    (walk (descriptor attributes target) address).map UInt32.toNat =
      some (target * 2 ^ 20 + address.toNat % 2 ^ 20) := by
  have alone := ((@represents_empty attributes (fun _ => 0)
    (fun _ _ => rfl)).assign (megabyteOf address) inside).translate_eq address
  unfold translate Mapping.assign at alone
  rw [entry_storeEntry, if_pos rfl, Function.update_self] at alone
  exact alone

/-- An array of words translates as the mapping that it lists. -/
theorem Lists.walk_eq {attributes : Attributes} {words : Nat → UInt32}
    {mapping : Mapping} (lists : Lists attributes words mapping)
    (inside : ∀ megabyte target, mapping megabyte = some target →
      target < 4096) (address : UInt32) :
    (walk (words (megabyteOf address)) address).map UInt32.toNat =
      (mapping (megabyteOf address)).map
        (fun target => target * 2 ^ 20 + address.toNat % 2 ^ 20) := by
  rw [lists _ (megabyteOf_lt address)]
  cases found : mapping (megabyteOf address) with
  | none =>
      unfold wordOf
      rw [walk_zero]
      rfl
  | some target =>
      exact walk_descriptor attributes (inside _ target found) address

end Quadcopter.SectionTable
