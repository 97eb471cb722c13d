import Mathlib.Data.List.Basic

/-
Windows of a circular array.

A position counts every symbol that ever passed; its cell is the position modulo
the size of the array.  Two positions less than one turn apart have different
cells, so a window shorter than the array reads back what was put there.
-/

namespace Quadcopter.CircularWindow

theorem add_mod_cases {size : Nat} (start distance : Nat)
    (short : distance < size) :
    (start % size + distance < size ∧
        (start + distance) % size = start % size + distance) ∨
      (size ≤ start % size + distance ∧
        (start + distance) % size = start % size + distance - size) := by
  have bounded : start % size < size := Nat.mod_lt _ (by omega)
  rw [← Nat.mod_add_mod]
  by_cases inside : start % size + distance < size
  · exact Or.inl ⟨inside, Nat.mod_eq_of_lt inside⟩
  · refine Or.inr ⟨by omega, ?_⟩
    rw [Nat.mod_eq_sub_mod (by omega), Nat.mod_eq_of_lt (by omega)]

theorem cell_ne {size left right : Nat} (before : left < right)
    (oneTurn : right < left + size) : left % size ≠ right % size := by
  obtain ⟨distance, rfl⟩ := Nat.exists_eq_add_of_lt before
  have bounded : left % size < size := Nat.mod_lt _ (by omega)
  have short : distance + 1 < size := by omega
  rcases add_mod_cases left (distance + 1) short with
    ⟨_, same⟩ | ⟨_, same⟩
  · rw [Nat.add_assoc, same]
    omega
  · rw [Nat.add_assoc, same]
    omega

variable {α : Type}

/-- Going around from the start, the distance travelled is read off the two
cells alone. -/
theorem distance_eq {size : Nat} (start distance : Nat)
    (short : distance < size) :
    ((start + distance) % size + size - start % size) % size = distance := by
  rcases add_mod_cases start distance short with ⟨_, same⟩ | ⟨_, same⟩
  · have sum : start % size + distance + size - start % size =
        distance + size := by omega
    rw [same, sum, Nat.add_mod_right, Nat.mod_eq_of_lt short]
  · have difference : start % size + distance - size + size - start % size =
        distance := by omega
    rw [same, difference, Nat.mod_eq_of_lt short]

theorem apart_of_lt {size target start : Nat} (targetBound : target < size)
    (startBound : start < size) :
    target = start + (target + size - start) % size ∨
      target + size = start + (target + size - start) % size := by
  rcases Nat.lt_or_ge target start with before | after
  · rw [Nat.mod_eq_of_lt (by omega)]
    omega
  · rw [show target + size - start = target - start + size by omega,
      Nat.add_mod_right, Nat.mod_eq_of_lt (by omega)]
    omega

def window (cells : Nat → α) (size start count : Nat) : List α :=
  (List.range count).map (fun offset => cells ((start + offset) % size))

@[simp] theorem window_length (cells : Nat → α) (size start count : Nat) :
    (window cells size start count).length = count := by
  simp [window]

theorem window_getElem? (cells : Nat → α) (size start count offset : Nat)
    (inside : offset < count) :
    (window cells size start count)[offset]? =
      some (cells ((start + offset) % size)) := by
  simp [window, inside]

theorem window_of_getElem? {cells : Nat → α} {size start count : Nat}
    {symbols : List α} (length : symbols.length = count)
    (found : ∀ offset, offset < count →
      symbols[offset]? = some (cells ((start + offset) % size))) :
    window cells size start count = symbols := by
  apply List.ext_getElem?
  intro offset
  by_cases inside : offset < count
  · rw [window_getElem? cells size start count offset inside,
      found offset inside]
  · rw [List.getElem?_eq_none (by rw [window_length]; omega),
      List.getElem?_eq_none (by omega)]

theorem window_mod_start (cells : Nat → α) (size start count : Nat) :
    window cells size (start % size) count = window cells size start count := by
  apply List.map_congr_left
  intro offset _
  rw [Nat.mod_add_mod]

/-- The cells after `count` symbols of `source` are stored from `start` on. -/
def store (cells : Nat → α) (size start count : Nat) (source : Nat → α) :
    Nat → α :=
  fun cell =>
    if cell < size ∧ (cell + size - start) % size < count then
      source ((cell + size - start) % size)
    else cells cell

theorem distance_cases {size start cell : Nat} (startBound : start < size)
    (inside : cell < size) :
    (start ≤ cell ∧ (cell + size - start) % size = cell - start) ∨
      (cell < start ∧ (cell + size - start) % size = cell + size - start) := by
  rcases Nat.lt_or_ge cell start with before | after
  · exact Or.inr ⟨before, Nat.mod_eq_of_lt (by omega)⟩
  · refine Or.inl ⟨after, ?_⟩
    rw [show cell + size - start = cell - start + size by omega,
      Nat.add_mod_right, Nat.mod_eq_of_lt (by omega)]

theorem store_zero (cells : Nat → α) (size start : Nat) (source : Nat → α) :
    store cells size start 0 source = cells := by
  funext cell
  exact if_neg (fun both => absurd both.2 (Nat.not_lt_zero _))

theorem store_congr (cells : Nat → α) (size start : Nat) {count : Nat}
    {source other : Nat → α}
    (same : ∀ index, index < count → source index = other index) :
    store cells size start count source = store cells size start count other := by
  funext cell
  unfold store
  split
  · rename_i within
    exact same _ within.2
  · rfl

theorem store_within {size start count : Nat} (fits : start + count ≤ size)
    (cells source : Nat → α) :
    store cells size start count source =
      fun cell =>
        if start ≤ cell ∧ cell < start + count then source (cell - start)
        else cells cell := by
  funext cell
  unfold store
  by_cases inside : cell < size ∧ start < size
  · have far := distance_cases inside.2 inside.1
    generalize (cell + size - start) % size = distance at far ⊢
    by_cases near : start ≤ cell ∧ cell < start + count
    · rw [if_pos near, if_pos (by omega)]
      congr 1
      omega
    · rw [if_neg near, if_neg (by omega)]
  · by_cases below : cell < size
    · rw [if_neg (by omega), if_neg (by omega)]
    · rw [if_neg (by omega), if_neg (by omega)]

theorem store_store {size start first second : Nat} (startBound : start < size)
    (fits : first + second ≤ size) (cells source : Nat → α) :
    store (store cells size start first source) size ((start + first) % size)
        second (fun index => source (first + index)) =
      store cells size start (first + second) source := by
  funext cell
  by_cases inside : cell < size
  · have nextBound : (start + first) % size < size := Nat.mod_lt _ (by omega)
    have next : (start + first) % size = start + first ∨
        (start + first) % size + size = start + first := by
      rcases Nat.lt_or_ge (start + first) size with below | above
      · exact Or.inl (Nat.mod_eq_of_lt below)
      · right
        rw [Nat.mod_eq_sub_mod above, Nat.mod_eq_of_lt (by omega)]
        omega
    have far := distance_cases startBound inside
    have near := distance_cases nextBound inside
    unfold store
    simp only [inside, true_and]
    generalize (cell + size - start) % size = distance at far ⊢
    generalize (start + first) % size = middle at next nextBound near ⊢
    generalize (cell + size - middle) % size = further at near ⊢
    by_cases before : distance < first
    · rw [if_neg (by omega), if_pos before, if_pos (by omega)]
    · by_cases after : distance < first + second
      · rw [if_pos (by omega), if_pos after]
        congr 1
        omega
      · rw [if_neg (by omega), if_neg before, if_neg after]
  · unfold store
    simp only [inside, false_and, if_false]

end Quadcopter.CircularWindow
