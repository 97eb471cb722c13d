import Quadcopter.A9.Mmu
import Quadcopter.Kmod.Start

/-
The table after mmu_init and any calls of mmu_map_range: the last call that
covers an address decides where it is sent, and the kernel module
(panda/kmod/mmu.c) and the boot loader (panda/a9/mmu.c) fill the same entries.
-/

namespace Quadcopter

open AtomicProgram SectionTable

structure MapCall where
  vstart : UInt32
  pstart : UInt32
  count : UInt32
deriving DecidableEq, Repr

namespace MapCall

def range (call : MapCall) : Range :=
  { start := megabyteOf call.vstart
    target := megabyteOf call.pstart
    count := call.count.toNat }

def sections (call : MapCall) (v : UInt32) : Nat :=
  Mapping.distance (megabyteOf call.vstart) (megabyteOf v)

def Covers (call : MapCall) (v : UInt32) : Prop :=
  call.sections v < call.count.toNat

instance (call : MapCall) (v : UInt32) : Decidable (call.Covers v) :=
  inferInstanceAs (Decidable (call.sections v < call.count.toNat))

private theorem sections_shift (call : MapCall) {i : Nat} (inside : i < 4096) :
    call.sections (call.vstart + UInt32.ofNat i <<< mmuVirtShift) = i := by
  apply (Mapping.distance_eq_iff (megabyteOf_lt _) inside).mpr
  exact megabyteOf_add_shift call.vstart inside

end MapCall

def mapping (calls : List MapCall) : Mapping :=
  (calls.map MapCall.range).foldl Range.assignTo Mapping.empty

def mapCalls : List MapCall → KmodProgram Unit
  | [] => return ()
  | call :: calls => do
      mmuMapRange call.vstart call.pstart call.count
      mapCalls calls

def initAndMap (calls : List MapCall) : KmodProgram Unit := do
  let _ ← mmuInit
  mapCalls calls

def kmodTable (calls : List MapCall) (machine : Machine) : Buffer :=
  ((initAndMap calls).run Machine.execute machine).2.table

def A9.mapCalls : List MapCall → A9.A9Program Unit
  | [] => return ()
  | call :: calls => do
      A9.mmuMapRange call.vstart call.pstart call.count
      A9.mapCalls calls

def A9.initAndMap (calls : List MapCall) : A9.A9Program Unit := do
  A9.mmuInit
  A9.mapCalls calls

def a9Table (calls : List MapCall) (words : A9.Words) : A9.Words :=
  ((A9.initAndMap calls).run A9.execute words).2

private theorem run_mapCalls (calls : List MapCall)
    (short : ∀ call ∈ calls, call.count.toNat ≤ 4096) {mapping : Mapping}
    {machine : Machine}
    (represents : Represents sectionAttributes machine.table mapping) :
    Represents sectionAttributes
      ((mapCalls calls).run Machine.execute machine).2.table
      ((calls.map MapCall.range).foldl Range.assignTo mapping) := by
  induction calls generalizing mapping machine with
  | nil => exact represents
  | cons call calls ih =>
      obtain ⟨table, ran, stored⟩ := run_mmuMapRange call.vstart call.pstart
        call.count (short call List.mem_cons_self) represents
      have later : ∀ other ∈ calls, other.count.toNat ≤ 4096 :=
        fun other member => short other (List.mem_cons_of_mem _ member)
      have stored_next : Represents sectionAttributes
          (machine.withTable table).table
          (Range.assignTo mapping call.range) := stored
      have rest := ih later stored_next
      unfold mapCalls
      rw [Program.run_bind, ran]
      exact rest

private theorem A9.run_mapCalls (calls : List MapCall)
    (short : ∀ call ∈ calls, call.count.toNat ≤ 4096) {mapping : Mapping}
    {table : A9.Words} (lists : Lists sectionAttributes table mapping) :
    Lists sectionAttributes ((A9.mapCalls calls).run A9.execute table).2
      ((calls.map MapCall.range).foldl Range.assignTo mapping) := by
  induction calls generalizing mapping table with
  | nil => exact lists
  | cons call calls ih =>
      have stored := A9.run_mmuMapRange call.vstart call.pstart call.count
        (short call List.mem_cons_self) lists
      have later : ∀ other ∈ calls, other.count.toNat ≤ 4096 :=
        fun other member => short other (List.mem_cons_of_mem _ member)
      unfold A9.mapCalls
      rw [Program.run_bind]
      exact ih later stored

private theorem represents_kmodTable (calls : List MapCall)
    (short : ∀ call ∈ calls, call.count.toNat ≤ 4096) (machine : Machine) :
    Represents sectionAttributes (kmodTable calls machine) (mapping calls) := by
  obtain ⟨table, ran, cleared⟩ := run_mmuInit machine
  have cleared_next : Represents sectionAttributes
      (machine.withTable table).table Mapping.empty := cleared
  have rest := run_mapCalls calls short cleared_next
  unfold kmodTable initAndMap
  rw [Program.run_bind, ran]
  exact rest

private theorem lists_a9Table (calls : List MapCall)
    (short : ∀ call ∈ calls, call.count.toNat ≤ 4096) (words : A9.Words) :
    Lists sectionAttributes (a9Table calls words) (mapping calls) := by
  have rest := A9.run_mapCalls calls short (A9.run_mmuInit words)
  unfold a9Table A9.initAndMap
  rw [Program.run_bind]
  exact rest

private theorem mapping_of_not_covered (calls : List MapCall) {v : UInt32}
    (outside : ∀ call ∈ calls, ¬ call.Covers v) :
    mapping calls (megabyteOf v) = none := by
  apply Range.foldl_of_not_covers
  intro range member
  obtain ⟨call, listed, same⟩ := List.mem_map.mp member
  rw [← same]
  exact outside call listed

private theorem mapping_of_last (earlier later : List MapCall) {call : MapCall}
    {v : UInt32} (covers : call.Covers v)
    (outside : ∀ other ∈ later, ¬ other.Covers v) :
    mapping (earlier ++ call :: later) (megabyteOf v) =
      some ((megabyteOf call.pstart + call.sections v) % 4096) := by
  unfold mapping
  rw [List.map_append, List.map_cons]
  have covers_range : call.range.Covers (megabyteOf v) := covers
  apply Range.foldl_of_last _ _ _ covers_range
  intro range member
  obtain ⟨other, listed, same⟩ := List.mem_map.mp member
  rw [← same]
  exact outside other listed

/-- A store of one entry among those of the covered addresses. -/
def MachineOp.StoresEntry (covered : UInt32 → Prop) : MachineOp → Prop
  | .storeTable _ offset =>
      ∃ v, covered v ∧ offset.toNat = 4 * megabyteOf v
  | _ => False

def A9.A9Op.StoresEntry (covered : UInt32 → Prop) : A9.A9Op → Prop
  | .storeTable index _ => ∃ v, covered v ∧ index.toNat = megabyteOf v
  | _ => True

/-- A store into the 16 KB from table_ptr on. -/
def MachineOp.InsideTable : MachineOp → Prop
  | .storeTableByte offset _ => offset < 0x4000
  | .storeTable _ offset => offset.toNat + 4 ≤ 0x4000
  | _ => False

/-- A store into table[4096], or output. -/
def A9.A9Op.InsideTable : A9.A9Op → Prop
  | .storeTable index _ => index.toNat < 4096
  | _ => True

theorem MachineOp.StoresEntry.inside {covered : UInt32 → Prop} {op : MachineOp}
    (stores : op.StoresEntry covered) : op.InsideTable := by
  cases op with
  | storeTable value offset =>
      obtain ⟨v, _, at_entry⟩ := stores
      have bound := megabyteOf_lt v
      change offset.toNat + 4 ≤ 0x4000
      omega
  | _ => exact stores.elim

theorem A9.A9Op.StoresEntry.inside {covered : UInt32 → Prop} {op : A9.A9Op}
    (stores : op.StoresEntry covered) : op.InsideTable := by
  cases op with
  | storeTable index value =>
      obtain ⟨v, _, at_entry⟩ := stores
      have bound := megabyteOf_lt v
      change index.toNat < 4096
      omega
  | _ => trivial

private theorem mmuMapRangeLoop_stores (call : MapCall)
    (short : call.count.toNat ≤ 4096) (i left : Nat)
    (rounds : i + left = call.count.toNat) :
    (mmuMapRangeLoop call.vstart call.pstart i left).Forall
      (MachineOp.StoresEntry call.Covers) := by
  induction left generalizing i with
  | zero => trivial
  | succ left ih =>
      refine ⟨⟨_, ?_, toNat_entryOffset _⟩, fun _ => ih (i + 1) (by omega)⟩
      unfold MapCall.Covers
      rw [call.sections_shift (by omega)]
      omega

private theorem A9.mmuMap_stores {covered : UInt32 → Prop} {virt : UInt32}
    (phys : UInt32) (inside : covered virt) :
    (A9.mmuMap virt phys).Forall (A9.A9Op.StoresEntry covered) :=
  ⟨⟨virt, inside, toNat_sectionIndex virt⟩, fun _ => ⟨trivial, fun _ =>
    ⟨trivial, fun _ => ⟨trivial, fun _ => ⟨trivial, fun _ =>
      ⟨trivial, fun _ => trivial⟩⟩⟩⟩⟩⟩

private theorem A9.mmuMapRangeLoop_stores (call : MapCall)
    (short : call.count.toNat ≤ 4096) (i left : Nat)
    (rounds : i + left = call.count.toNat) :
    (A9.mmuMapRangeLoop call.vstart call.pstart i left).Forall
      (A9.A9Op.StoresEntry call.Covers) := by
  induction left generalizing i with
  | zero => trivial
  | succ left ih =>
      apply (A9.mmuMap_stores _ _).bind (fun _ => ih (i + 1) (by omega))
      have inside : i < 4096 := by omega
      have reached := call.sections_shift inside
      have before : i < call.count.toNat := by omega
      exact Nat.lt_of_le_of_lt (Nat.le_of_eq reached) before

private theorem mmuMapRange_stores (call : MapCall)
    (short : call.count.toNat ≤ 4096) :
    (mmuMapRange call.vstart call.pstart call.count).Forall
      (MachineOp.StoresEntry call.Covers) :=
  mmuMapRangeLoop_stores call short 0 call.count.toNat (Nat.zero_add _)

private theorem A9.mmuMapRange_stores (call : MapCall)
    (short : call.count.toNat ≤ 4096) :
    (A9.mmuMapRange call.vstart call.pstart call.count).Forall
      (A9.A9Op.StoresEntry call.Covers) :=
  ⟨trivial, fun _ => ⟨trivial, fun _ => ⟨trivial, fun _ => ⟨trivial, fun _ =>
    ⟨trivial, fun _ => ⟨trivial, fun _ => ⟨trivial, fun _ =>
      A9.mmuMapRangeLoop_stores call short 0 call.count.toNat
        (Nat.zero_add _)⟩⟩⟩⟩⟩⟩⟩

private theorem memsetIo_inside (value : UInt8) (offset count : Nat)
    (short : offset + count ≤ 0x4000) :
    (memsetIo value offset count).Forall MachineOp.InsideTable := by
  induction count generalizing offset with
  | zero => trivial
  | succ count ih =>
      constructor
      · change offset < 0x4000
        omega
      · intro _
        exact ih (offset + 1) (by omega)

private theorem A9.mmuInitLoop_inside (i left : Nat) (short : i + left ≤ 4096) :
    (A9.mmuInitLoop i left).Forall A9.A9Op.InsideTable := by
  induction left generalizing i with
  | zero => trivial
  | succ left ih =>
      constructor
      · change (UInt32.ofNat i).toNat < 4096
        rw [UInt32.toNat_ofNat']
        omega
      · intro _
        exact ih (i + 1) (by omega)

private theorem initAndMap_inside (calls : List MapCall)
    (short : ∀ call ∈ calls, call.count.toNat ≤ 4096) :
    (initAndMap calls).Forall MachineOp.InsideTable := by
  have init : mmuInit.Forall MachineOp.InsideTable := by
    apply (memsetIo_inside 0 0 _ _).bind
    · intro _
      trivial
    · decide
  apply init.bind
  intro _
  induction calls with
  | nil => trivial
  | cons call calls ih =>
      have first := mmuMapRange_stores call (short call List.mem_cons_self)
      apply (first.mono (fun _ stores => stores.inside)).bind
      intro _
      exact ih (fun other member => short other (List.mem_cons_of_mem _ member))

private theorem A9.initAndMap_inside (calls : List MapCall)
    (short : ∀ call ∈ calls, call.count.toNat ≤ 4096) :
    (A9.initAndMap calls).Forall A9.A9Op.InsideTable := by
  apply (A9.mmuInitLoop_inside 0 4096 (Nat.le_refl _)).bind
  intro _
  induction calls with
  | nil => trivial
  | cons call calls ih =>
      have first := A9.mmuMapRange_stores call (short call List.mem_cons_self)
      apply (first.mono (fun _ stores => stores.inside)).bind
      intro _
      exact ih (fun other member => short other (List.mem_cons_of_mem _ member))

def InEntry (v : UInt32) (index : Nat) : Prop :=
  4 * megabyteOf v ≤ index ∧ index < 4 * megabyteOf v + 4

private theorem mmuMapRange_leaves (call : MapCall)
    (short : call.count.toNat ≤ 4096)
    (machine : Machine) {index : Nat}
    (outside : ∀ v, call.Covers v → ¬ InEntry v index) :
    ((mmuMapRange call.vstart call.pstart call.count).run Machine.execute
      machine).2.table index = machine.table index := by
  have each : ∀ op (s : Machine), op.StoresEntry call.Covers →
      s.table index = machine.table index →
      (Machine.execute op s).2.table index = machine.table index := by
    intro op s stores same
    cases op with
    | storeTable value offset =>
        obtain ⟨v, covers, at_entry⟩ := stores
        have away := outside v covers
        unfold InEntry at away
        rw [← same]
        apply MachineInt.storeWord_outside
        omega
    | _ => exact stores.elim
  exact (mmuMapRange_stores call short).run_keeps each rfl

private theorem A9.mmuMapRange_leaves (call : MapCall)
    (short : call.count.toNat ≤ 4096)
    (words : A9.Words) {index : Nat}
    (outside : ∀ v, call.Covers v → index ≠ megabyteOf v) :
    ((A9.mmuMapRange call.vstart call.pstart call.count).run A9.execute
      words).2 index = words index := by
  have each : ∀ (op : A9.A9Op) (s : A9.Words), op.StoresEntry call.Covers →
      s index = words index → (A9.execute op s).2 index = words index := by
    intro op s stores same
    cases op with
    | storeTable entry value =>
        obtain ⟨v, covers, at_entry⟩ := stores
        change Function.update s entry.toNat value index = words index
        rw [at_entry, Function.update_of_ne (outside v covers)]
        exact same
    | _ => exact same
  exact (A9.mmuMapRange_stores call short).run_keeps each rfl

private theorem toNat_tableIndex (v : UInt32) :
    (v >>> 20).toNat = megabyteOf v := by
  rw [UInt32.toNat_shiftRight]
  change v.toNat >>> 20 = _
  rw [Nat.shiftRight_eq_div_pow]
  rfl

theorem tables_store_calls (calls : List MapCall)
    (short : ∀ call ∈ calls, call.count.toNat ≤ 4096) (machine : Machine)
    (words : A9.Words) :
    (∀ v : UInt32, (∀ call ∈ calls, ¬ call.Covers v) →
      entry (kmodTable calls machine) (v >>> 20).toNat = 0) ∧
    (∀ (v : UInt32) earlier call later, calls = earlier ++ call :: later →
      call.Covers v → (∀ other ∈ later, ¬ other.Covers v) →
      IsSection (entry (kmodTable calls machine) (v >>> 20).toNat) ∧
      (translate (kmodTable calls machine) v).map UInt32.toNat =
        some ((megabyteOf call.pstart + call.sections v) % 4096 * 2 ^ 20 +
          v.toNat % 2 ^ 20)) ∧
    (∀ op ∈ (initAndMap calls).trace Machine.execute machine,
      op.InsideTable) ∧
    (∀ op ∈ (A9.initAndMap calls).trace A9.execute words, op.InsideTable) ∧
    (∀ call ∈ calls, ∀ (before : Machine) index,
      (∀ v, call.Covers v → ¬ InEntry v index) →
      ((mmuMapRange call.vstart call.pstart call.count).run Machine.execute
        before).2.table index = before.table index) ∧
    (∀ call ∈ calls, ∀ (before : A9.Words) index,
      (∀ v, call.Covers v → index ≠ megabyteOf v) →
      ((A9.mmuMapRange call.vstart call.pstart call.count).run A9.execute
        before).2 index = before index) ∧
    ∀ megabyte, megabyte < 4096 →
      a9Table calls words megabyte =
        entry (kmodTable calls machine) megabyte := by
  have represents := represents_kmodTable calls short machine
  refine ⟨?uncovered, ?covered, ?inside, ?a9Inside, ?leaves, ?a9Leaves, ?same⟩
  case uncovered =>
    intro v outside
    rw [toNat_tableIndex]
    exact represents.unmapped _ (megabyteOf_lt v)
      (mapping_of_not_covered calls outside)
  case covered =>
    intro v earlier call later split covers outside
    have found := mapping_of_last earlier later covers outside
    rw [← split] at found
    rw [toNat_tableIndex, represents.translate_eq, found]
    exact ⟨represents.isSection_entry (megabyteOf_lt v) found, rfl⟩
  case inside =>
    intro op done
    exact (initAndMap_inside calls short).of_mem_trace _ done
  case a9Inside =>
    intro op done
    exact (A9.initAndMap_inside calls short).of_mem_trace _ done
  case leaves =>
    intro call member before index outside
    exact mmuMapRange_leaves call (short call member) before outside
  case a9Leaves =>
    intro call member before index outside
    exact A9.mmuMapRange_leaves call (short call member) before outside
  case same =>
    intro megabyte inside
    rw [represents.entry_eq inside]
    exact lists_a9Table calls short words megabyte inside

/-- Two sections across the end of the address space, and one over the second. -/
def overlappingCalls : List MapCall :=
  [{ vstart := 0xFFF00000, pstart := 0x48000000, count := 2 },
    { vstart := 0x00000000, pstart := 0x9E100000, count := 1 }]

theorem tables_store_overlapping_calls :
    (translate (kmodTable overlappingCalls Machine.idle) 0x00012345).map
        UInt32.toNat = some 0x9E112345 ∧
      entry (kmodTable overlappingCalls Machine.idle) 0x123 = 0 ∧
      a9Table overlappingCalls (fun _ => 7) 0xFFF =
        entry (kmodTable overlappingCalls Machine.idle) 0xFFF := by
  have stored := tables_store_calls overlappingCalls (by decide) Machine.idle
    (fun _ => 7)
  refine ⟨?_, stored.1 0x12300000 (by decide), ?_⟩
  · have last := stored.2.1 0x00012345
      [{ vstart := 0xFFF00000, pstart := 0x48000000, count := 2 }]
      { vstart := 0x00000000, pstart := 0x9E100000, count := 1 } [] rfl
      (by decide) (fun other none => by cases none)
    rw [last.2]
    decide
  · exact stored.2.2.2.2.2.2 0xFFF (by decide)

end Quadcopter
