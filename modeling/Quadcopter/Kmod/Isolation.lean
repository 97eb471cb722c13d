import Quadcopter.Kmod.Start

/-
What the m3 can reach after QUADCOPTER_START.

The windows that share memory with the m3 follow one another from
QUADCOPTER_PROGRAM_PHYS on, eighteen megabytes in all, and the reservation that
starts one megabyte before them has sixteen: the last three megabytes of the
trace buffer are Linux's.
-/

namespace Quadcopter

open AtomicProgram SectionTable

def Window.Reaches (window : Window) (p : UInt32) : Prop :=
  window.phys.toNat ≤ p.toNat ∧
    p.toNat < window.phys.toNat + window.lenMb * 2 ^ 20

def InRegion (start length p : UInt32) : Prop :=
  start.toNat ≤ p.toNat ∧ p.toNat < start.toNat + length.toNat

def peripheralWindows : List Window := [.per, .cfg, .m3Private]

def memoryWindows : List Window := [.program, .stack, .tx, .rx, .trace]

/-- What the m3 may reach from `v`, and that it reaches it from nowhere else. -/
structure IsolatedAt (table : Buffer) (v : UInt32) : Prop where
  confined : ∀ p, translate table v = some p →
    (∃ window ∈ peripheralWindows, window.Reaches p) ∨
      InRegion quadcopterRegion quadcopterLength p
  outsideTable : ∀ p, translate table v = some p →
    ¬ InRegion mmuTableRegion mmuTableLength p
  unshared : ∀ other p, other ≠ v →
    (∃ window ∈ memoryWindows, window.Holds v) →
    (∃ window ∈ memoryWindows, window.Holds other) →
    translate table v = some p → translate table other ≠ some p

/-- Both ends of a window stand on megabytes and before the end of the space. -/
def Window.Fits (window : Window) : Prop :=
  window.virt.toNat % 2 ^ 20 = 0 ∧ window.phys.toNat % 2 ^ 20 = 0 ∧
    window.virt.toNat + window.lenMb * 2 ^ 20 ≤ 2 ^ 32 ∧
    window.phys.toNat + window.lenMb * 2 ^ 20 ≤ 2 ^ 32

def Apart (first firstLength second secondLength : Nat) : Prop :=
  first + firstLength ≤ second ∨ second + secondLength ≤ first

def Window.VirtApart (window other : Window) : Prop :=
  Apart window.virt.toNat (window.lenMb * 2 ^ 20)
    other.virt.toNat (other.lenMb * 2 ^ 20)

def Window.PhysApart (window other : Window) : Prop :=
  Apart window.phys.toNat (window.lenMb * 2 ^ 20)
    other.phys.toNat (other.lenMb * 2 ^ 20)

instance (window : Window) : Decidable window.Fits :=
  inferInstanceAs (Decidable (_ ∧ _))

instance (first firstLength second secondLength : Nat) :
    Decidable (Apart first firstLength second secondLength) :=
  inferInstanceAs (Decidable (_ ∨ _))

instance (window other : Window) : Decidable (window.VirtApart other) :=
  inferInstanceAs (Decidable (Apart _ _ _ _))

instance (window other : Window) : Decidable (window.PhysApart other) :=
  inferInstanceAs (Decidable (Apart _ _ _ _))

private theorem windows_fit : ∀ window ∈ startWindows, window.Fits := by decide

private theorem windows_virtApart : ∀ window ∈ startWindows, ∀ other ∈
    startWindows,
    window = other ∨ window.VirtApart other := by decide

private theorem memory_physApart : ∀ window ∈ memoryWindows, ∀ other ∈
    memoryWindows,
    window = other ∨ window.PhysApart other := by decide

private theorem windows_kinds : ∀ window ∈ startWindows,
    window ∈ peripheralWindows ∨ window ∈ memoryWindows := by decide

private theorem memory_started :
    ∀ window ∈ memoryWindows, window ∈ startWindows := by
  decide

private theorem windows_outsideTable : ∀ window ∈ startWindows,
    Apart window.phys.toNat (window.lenMb * 2 ^ 20)
      mmuTableRegion.toNat mmuTableLength.toNat := by decide

private theorem memory_reserved : ∀ window ∈ memoryWindows, window = .trace ∨
    quadcopterRegion.toNat ≤ window.phys.toNat ∧
      window.phys.toNat + window.lenMb * 2 ^ 20 ≤
        quadcopterRegion.toNat + quadcopterLength.toNat := by decide

private theorem peripherals_below : ∀ window ∈ peripheralWindows,
    Apart window.phys.toNat (window.lenMb * 2 ^ 20)
      (quadcopterRegion.toNat + quadcopterLength.toNat) (3 * 2 ^ 20) := by
  decide

structure Window.Sends (window : Window) (v p : UInt32) : Prop where
  holds : window.Holds v
  target_eq : p.toNat + window.virt.toNat = window.phys.toNat + v.toNat

theorem Window.Sends.reaches {window : Window} {v p : UInt32}
    (sends : window.Sends v p) : window.Reaches p := by
  obtain ⟨⟨low, high⟩, target_eq⟩ := sends
  constructor <;> omega

private theorem translate_sends {table : Buffer}
    (started : Represents sectionAttributes table startMapping) {v p : UInt32}
    (reached : translate table v = some p) :
    ∃ window ∈ startWindows, window.Sends v p := by
  have bound := megabyteOf_lt v
  have mapped := started.translate_eq v
  rw [reached, Option.map_some] at mapped
  cases found : startMapping (megabyteOf v) with
  | none =>
      rw [found] at mapped
      cases mapped
  | some target =>
      rw [found, Option.map_some, Option.some.injEq] at mapped
      rcases found_in_window startWindows found with before | inside
      · cases before
      · obtain ⟨window, member, near, target_eq⟩ := inside
        obtain ⟨virt_aligned, phys_aligned, virt_fits, phys_fits⟩ :=
          windows_fit window member
        unfold Mapping.distance megabyteOf at near target_eq
        unfold megabyteOf at bound
        refine ⟨window, member, ⟨?_, ?_⟩, ?_⟩ <;> omega

private theorem trace_numbers : Window.trace.virt.toNat = 0x12000000 ∧
    Window.trace.phys.toNat = 0x9EE00000 ∧ Window.trace.lenMb = 5 := by decide

private theorem reserved_numbers : quadcopterRegion.toNat = 0x9E000000 ∧
    quadcopterLength.toNat = 0x01000000 := by decide

private theorem trace_holds_iff (v : UInt32) :
    Window.trace.Holds v ↔ 0x12000000 ≤ v.toNat ∧ v.toNat < 0x12500000 := by
  obtain ⟨virt_eq, _, length_eq⟩ := trace_numbers
  unfold Window.Holds
  rw [virt_eq, length_eq, show 0x12000000 + 5 * 2 ^ 20 = 0x12500000 from rfl]

private theorem startMapping_trace {megabyte : Nat}
    (near : Mapping.distance (megabyteOf Window.trace.virt) megabyte <
      Window.trace.lenMb) :
    startMapping megabyte = some ((megabyteOf Window.trace.phys +
      Mapping.distance (megabyteOf Window.trace.virt) megabyte) % 4096) := by
  have last : startMapping = Window.assignTo
      ([.program, .stack, .per, .cfg, .m3Private, .tx, .rx].foldl
        Window.assignTo Mapping.empty) .trace := by
    simp only [startMapping, startWindows, List.foldl_cons, List.foldl_nil]
  rw [last]
  unfold Window.assignTo Mapping.assignRange
  exact if_pos near

private theorem translate_trace {table : Buffer}
    (started : Represents sectionAttributes table startMapping) {v : UInt32}
    (inside : Window.trace.Holds v) :
    ∃ p, translate table v = some p ∧ Window.trace.Sends v p := by
  obtain ⟨virt_eq, phys_eq, length_eq⟩ := trace_numbers
  obtain ⟨low, high⟩ := (trace_holds_iff v).mp inside
  have near : Mapping.distance (megabyteOf Window.trace.virt) (megabyteOf v) <
      Window.trace.lenMb := by
    unfold Mapping.distance megabyteOf
    omega
  have mapped := started.translate_eq v
  rw [startMapping_trace near, Option.map_some] at mapped
  obtain ⟨p, reached, p_eq⟩ := Option.map_eq_some_iff.mp mapped
  refine ⟨p, reached, inside, ?_⟩
  unfold Mapping.distance megabyteOf at p_eq
  omega

private theorem Window.eq_of_holds {window other : Window} {v : UInt32}
    (member : window ∈ startWindows) (other_member : other ∈ startWindows)
    (holds : window.Holds v) (other_holds : other.Holds v) : window = other := by
  rcases windows_virtApart window member other other_member with same | apart
  · exact same
  · obtain ⟨low, high⟩ := holds
    obtain ⟨other_low, other_high⟩ := other_holds
    rcases apart with before | after <;> omega

/-- No two addresses of the shared windows lead to one physical address. -/
theorem memory_unshared {table : Buffer}
    (started : Represents sectionAttributes table startMapping)
    {v other p : UInt32} (different : other ≠ v)
    (inside : ∃ window ∈ memoryWindows, window.Holds v)
    (other_inside : ∃ window ∈ memoryWindows, window.Holds other)
    (reached : translate table v = some p) :
    translate table other ≠ some p := by
  intro other_reached
  obtain ⟨window, window_member, window_holds⟩ := inside
  obtain ⟨second, second_member, second_holds⟩ := other_inside
  obtain ⟨through, through_member, sends⟩ := translate_sends started reached
  obtain ⟨again, again_member, sends_again⟩ :=
    translate_sends started other_reached
  have through_eq := Window.eq_of_holds through_member
    (memory_started window window_member) sends.holds window_holds
  have again_eq := Window.eq_of_holds again_member
    (memory_started second second_member) sends_again.holds second_holds
  subst through_eq again_eq
  rcases memory_physApart through window_member again second_member with
    same | apart
  · subst same
    apply different
    apply UInt32.toNat_inj.mp
    have here := sends.target_eq
    have there := sends_again.target_eq
    omega
  · obtain ⟨low, high⟩ := sends.reaches
    obtain ⟨again_low, again_high⟩ := sends_again.reaches
    rcases apart with before | after <;> omega

private theorem trace_unreserved {table : Buffer}
    (started : Represents sectionAttributes table startMapping) {v : UInt32}
    (low : 0x12200000 ≤ v) (high : v < 0x12500000) : ¬ IsolatedAt table v := by
  intro isolated
  have v_low : 0x12200000 ≤ v.toNat := UInt32.le_iff_toNat_le.mp low
  have v_high : v.toNat < 0x12500000 := UInt32.lt_iff_toNat_lt.mp high
  obtain ⟨virt_eq, phys_eq, length_eq⟩ := trace_numbers
  obtain ⟨region_eq, reserved_eq⟩ := reserved_numbers
  obtain ⟨p, reached, sends⟩ := translate_trace started
    ((trace_holds_iff v).mpr ⟨by omega, by omega⟩)
  have target_eq := sends.target_eq
  rcases isolated.confined p reached with ⟨window, member, reaches⟩ | reserved
  · obtain ⟨from_start, before_end⟩ := reaches
    rcases peripherals_below window member with before | after <;> omega
  · obtain ⟨_, before_end⟩ := reserved
    omega

private theorem trace_reserved {v p : UInt32} (sends : Window.trace.Sends v p)
    (below : ¬ (0x12200000 ≤ v ∧ v < 0x12500000)) :
    InRegion quadcopterRegion quadcopterLength p := by
  obtain ⟨virt_eq, phys_eq, _⟩ := trace_numbers
  obtain ⟨region_eq, reserved_eq⟩ := reserved_numbers
  have holds := (trace_holds_iff v).mp sends.holds
  have target_eq := sends.target_eq
  have v_below : ¬ (0x12200000 ≤ v.toNat ∧ v.toNat < 0x12500000) :=
    fun both => below ⟨UInt32.le_iff_toNat_le.mpr both.1,
      UInt32.lt_iff_toNat_lt.mpr both.2⟩
  unfold InRegion
  omega

/-- After START the m3 is isolated everywhere but in the last three megabytes
of its trace window. -/
theorem start_isolated_iff (machine : Machine) (v : UInt32) :
    IsolatedAt ((quadcopterIoctl quadcopterStart).run Machine.execute
        machine).2.table v ↔
      ¬ (0x12200000 ≤ v ∧ v < 0x12500000) := by
  have started := (start_started machine).table
  constructor
  · intro isolated ⟨low, high⟩
    exact trace_unreserved started low high isolated
  · intro below
    constructor
    · intro p reached
      obtain ⟨window, member, sends⟩ := translate_sends started reached
      obtain ⟨reaches_low, reaches_high⟩ := sends.reaches
      rcases windows_kinds window member with peripheral | memory
      · exact Or.inl ⟨window, peripheral, sends.reaches⟩
      · rcases memory_reserved window memory with trace | ⟨first, last⟩
        · subst trace
          exact Or.inr (trace_reserved sends below)
        · exact Or.inr ⟨Nat.le_trans first reaches_low,
            Nat.lt_of_lt_of_le reaches_high last⟩
    · intro p reached inTable
      obtain ⟨window, member, sends⟩ := translate_sends started reached
      obtain ⟨low, high⟩ := sends.reaches
      obtain ⟨table_low, table_high⟩ := inTable
      rcases windows_outsideTable window member with before | after <;> omega
    · intro other p different inside other_inside reached
      exact memory_unshared started different inside other_inside reached

/-- The first address of the trace window's third megabyte leads behind the
reservation. -/
theorem trace_window_overruns :
    ¬ IsolatedAt ((quadcopterIoctl quadcopterStart).run Machine.execute
      Machine.idle).2.table 0x12200000 :=
  trace_unreserved (start_started Machine.idle).table (by decide) (by decide)

end Quadcopter
