import Mathlib.Data.List.Infix

/-
Self-delimiting codes: a stream of code words can be cut back into its words
without any mark between them.  The theory is what a framed byte stream needs:
the cut is unique, it is stable when more of the stream arrives, and what is
left over is a word that has not arrived whole.
-/

namespace Quadcopter.SelfDelimiting

/-- `decode` takes one word from the front of a stream, if it is there whole. -/
structure Code (α β : Type) where
  encode : α → List β
  decode : List β → Option (α × List β)
  decode_encode : ∀ value rest,
    decode (encode value ++ rest) = some (value, rest)
  encode_of_decode : ∀ stream value rest,
    decode stream = some (value, rest) → encode value ++ rest = stream
  encode_ne_nil : ∀ value, encode value ≠ []

variable {α β : Type} (code : Code α β)

namespace Code

theorem encode_length_pos (value : α) : 0 < (code.encode value).length :=
  List.length_pos_iff.mpr (code.encode_ne_nil value)

theorem decode_nil : code.decode [] = none := by
  cases found : code.decode [] with
  | none => rfl
  | some cut =>
      have whole := code.encode_of_decode [] cut.1 cut.2 found
      exact absurd (List.append_eq_nil_iff.mp whole).1
        (code.encode_ne_nil cut.1)

theorem decode_length {stream rest : List β} {value : α}
    (found : code.decode stream = some (value, rest)) :
    rest.length < stream.length := by
  rw [← code.encode_of_decode stream value rest found, List.length_append]
  have positive := code.encode_length_pos value
  omega

def encodeAll (values : List α) : List β :=
  values.flatMap code.encode

@[simp] theorem encodeAll_nil : code.encodeAll [] = [] := rfl

@[simp] theorem encodeAll_cons (value : α) (values : List α) :
    code.encodeAll (value :: values) =
      code.encode value ++ code.encodeAll values := rfl

@[simp] theorem encodeAll_append (left right : List α) :
    code.encodeAll (left ++ right) =
      code.encodeAll left ++ code.encodeAll right := by
  simp [encodeAll]

def decodeUpTo : Nat → List β → List α × List β
  | 0, stream => ([], stream)
  | fuel + 1, stream =>
      match code.decode stream with
      | none => ([], stream)
      | some (value, rest) =>
          let tail := decodeUpTo fuel rest
          (value :: tail.1, tail.2)

def decodeAll (stream : List β) : List α × List β :=
  code.decodeUpTo stream.length stream

private theorem decodeUpTo_spec (fuel : Nat) (stream : List β)
    (enough : stream.length ≤ fuel) :
    code.encodeAll (code.decodeUpTo fuel stream).1 ++
        (code.decodeUpTo fuel stream).2 = stream ∧
      code.decode (code.decodeUpTo fuel stream).2 = none := by
  induction fuel generalizing stream with
  | zero =>
      have empty : stream = [] := List.eq_nil_of_length_eq_zero (by omega)
      subst stream
      exact ⟨rfl, code.decode_nil⟩
  | succ fuel ih =>
      cases found : code.decode stream with
      | none => simp [decodeUpTo, found]
      | some cut =>
          obtain ⟨value, rest⟩ := cut
          have shorter := code.decode_length found
          obtain ⟨whole, stopped⟩ := ih rest (by omega)
          simp only [decodeUpTo, found]
          refine ⟨?_, stopped⟩
          rw [encodeAll_cons, List.append_assoc, whole]
          exact code.encode_of_decode stream value rest found

theorem decodeAll_whole (stream : List β) :
    code.encodeAll (code.decodeAll stream).1 ++ (code.decodeAll stream).2 =
      stream :=
  (code.decodeUpTo_spec stream.length stream (Nat.le_refl _)).1

theorem decodeAll_incomplete (stream : List β) :
    code.decode (code.decodeAll stream).2 = none :=
  (code.decodeUpTo_spec stream.length stream (Nat.le_refl _)).2

/-- There is only one way to cut a stream into whole words and a rest that does
not begin with one. -/
theorem cut_unique (values others : List α) (rest tail : List β)
    (restStops : code.decode rest = none) (tailStops : code.decode tail = none)
    (same : code.encodeAll values ++ rest = code.encodeAll others ++ tail) :
    values = others ∧ rest = tail := by
  induction values generalizing others with
  | nil =>
      cases others with
      | nil => exact ⟨rfl, by simpa using same⟩
      | cons other others =>
          simp only [encodeAll_nil, List.nil_append, encodeAll_cons,
            List.append_assoc] at same
          rw [same, code.decode_encode] at restStops
          cases restStops
  | cons value values ih =>
      cases others with
      | nil =>
          simp only [encodeAll_nil, List.nil_append, encodeAll_cons,
            List.append_assoc] at same
          rw [← same, code.decode_encode] at tailStops
          cases tailStops
      | cons other others =>
          simp only [encodeAll_cons, List.append_assoc] at same
          have first := code.decode_encode value (code.encodeAll values ++ rest)
          rw [same, code.decode_encode, Option.some.injEq, Prod.mk.injEq]
            at first
          obtain ⟨sameValue, sameRest⟩ := first
          obtain ⟨sameValues, sameTail⟩ := ih others sameRest.symm
          exact ⟨by rw [sameValue, sameValues], sameTail⟩

theorem decodeAll_eq (values : List α) (rest : List β)
    (stops : code.decode rest = none) :
    code.decodeAll (code.encodeAll values ++ rest) = (values, rest) := by
  have cut := code.cut_unique _ values _ rest
    (code.decodeAll_incomplete (code.encodeAll values ++ rest)) stops
    (code.decodeAll_whole (code.encodeAll values ++ rest))
  exact Prod.ext cut.1 cut.2

theorem encodeAll_injective : Function.Injective code.encodeAll := by
  intro values others same
  rw [← List.append_nil (code.encodeAll values),
    ← List.append_nil (code.encodeAll others)] at same
  exact (code.cut_unique values others [] [] code.decode_nil code.decode_nil
    same).1

theorem decodeAll_encodeAll (values : List α) :
    code.decodeAll (code.encodeAll values) = (values, []) := by
  have whole := code.decodeAll_eq values [] code.decode_nil
  rw [List.append_nil] at whole
  exact whole

theorem decodeAll_encodeAll_append (values : List α) (rest : List β) :
    code.decodeAll (code.encodeAll values ++ rest) =
      (values ++ (code.decodeAll rest).1, (code.decodeAll rest).2) := by
  have stops := code.decodeAll_incomplete rest
  have whole := code.decodeAll_eq (values ++ (code.decodeAll rest).1) _ stops
  rw [encodeAll_append, List.append_assoc, code.decodeAll_whole] at whole
  exact whole

theorem decodeAll_mono {stream whole : List β} (grows : stream <+: whole) :
    (code.decodeAll stream).1 <+: (code.decodeAll whole).1 := by
  obtain ⟨more, rfl⟩ := grows
  have cut := code.decodeAll_whole stream
  have split := code.decodeAll_encodeAll_append (code.decodeAll stream).1
    ((code.decodeAll stream).2 ++ more)
  rw [← List.append_assoc, cut] at split
  rw [split]
  exact List.prefix_append _ _

theorem encodeAll_prefix_decodeAll {values : List α} {rest whole : List β}
    (grows : code.encodeAll values ++ rest <+: whole) :
    values <+: (code.decodeAll whole).1 := by
  have found := code.decodeAll_mono grows
  rw [code.decodeAll_encodeAll_append] at found
  exact (List.prefix_append _ _).trans found

/-- Code words that are all `width` long.  A word is read, and must be the one
that its value is written as. -/
def ofWidth [DecidableEq β] (encode : α → List β) (width : Nat)
    (read : List β → Option α) (positive : 0 < width)
    (length : ∀ value, (encode value).length = width)
    (read_encode : ∀ value, read (encode value) = some value) : Code α β where
  encode := encode
  decode := fun stream =>
    (read (stream.take width)).bind fun value =>
      if encode value = stream.take width then some (value, stream.drop width)
      else none
  decode_encode := by
    intro value rest
    have front := @List.take_left' _ _ rest _ (length value)
    have back := @List.drop_left' _ _ rest _ (length value)
    rw [front, back, read_encode, Option.bind_some, if_pos rfl]
  encode_of_decode := by
    intro stream value rest found
    obtain ⟨shown, _, same⟩ := Option.bind_eq_some_iff.mp found
    split at same
    · next written =>
        cases same
        rw [written, List.take_append_drop]
    · cases same
  encode_ne_nil := by
    intro value empty
    have wide := length value
    rw [empty, List.length_nil] at wide
    omega

end Code

end Quadcopter.SelfDelimiting
