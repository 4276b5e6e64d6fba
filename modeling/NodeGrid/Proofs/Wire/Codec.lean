import NodeGrid.Wire.Codec
import Mathlib.Algebra.Group.Nat.Defs

/-!
# Laws of codecs

A codec is lawful for the values that fit its numbers if it reads back what it has written, whatever
follows, and if bytes that it can read mean the same when more of them follow.  Each way to build
codecs keeps them lawful.  A lawful codec is unambiguous: nothing that is cut short can be read, and
no written form begins another one.
-/

namespace NodeGrid.Wire.Codec

variable {α β : Type}

/-- Written values are read back, and what has been read does not depend on what follows. -/
structure Lawful (codec : Codec α) (fits : α → Prop) : Prop where
  decode_encode : ∀ value, fits value → ∀ rest,
    codec.decode (codec.encode value ++ rest) = some (value, rest)
  decode_append : ∀ {bytes value rest}, codec.decode bytes = some (value, rest) → ∀ more,
    codec.decode (bytes ++ more) = some (value, rest ++ more)

/-- Written values are read back whatever follows, bytes that stop before the end of a written value
cannot be read, and no written value begins another one. -/
structure Unambiguous (codec : Codec α) (fits : α → Prop) : Prop where
  decode_encode : ∀ value, fits value → ∀ rest,
    codec.decode (codec.encode value ++ rest) = some (value, rest)
  decode_eq_none : ∀ value, fits value → ∀ bytes, bytes <+: codec.encode value →
    bytes ≠ codec.encode value → codec.decode bytes = none
  eq_of_encode_prefix : ∀ value, fits value → ∀ other, fits other →
    codec.encode value <+: codec.encode other → value = other

namespace Lawful

variable {codec : Codec α} {fits : α → Prop}

/-- Bytes that stop before the end of a written value cannot be read. -/
theorem decode_eq_none (lawful : codec.Lawful fits) {value : α} (fit : fits value)
    {bytes : List UInt8} (starts : bytes <+: codec.encode value)
    (short : bytes ≠ codec.encode value) : codec.decode bytes = none := by
  obtain ⟨missing, whole⟩ := starts
  refine Option.eq_none_iff_forall_not_mem.2 fun result read => short ?_
  have extended := lawful.decode_append (show codec.decode bytes = some result from read) missing
  have written := lawful.decode_encode value fit []
  rw [List.append_nil, ← whole, extended, Option.some.injEq, Prod.mk.injEq] at written
  rw [← whole, (List.append_eq_nil_iff.1 written.2).2, List.append_nil]

/-- No written value begins another one. -/
theorem eq_of_encode_prefix (lawful : codec.Lawful fits) {value other : α} (fit : fits value)
    (otherFits : fits other) (starts : codec.encode value <+: codec.encode other) :
    value = other := by
  obtain ⟨more, whole⟩ := starts
  have first := lawful.decode_encode value fit more
  have second := lawful.decode_encode other otherFits []
  rw [List.append_nil, ← whole, first, Option.some.injEq, Prod.mk.injEq] at second
  exact second.1

theorem unambiguous (lawful : codec.Lawful fits) : codec.Unambiguous fits where
  decode_encode := lawful.decode_encode
  decode_eq_none := fun _ fit _ => lawful.decode_eq_none fit
  eq_of_encode_prefix := fun _ fit _ => lawful.eq_of_encode_prefix fit

theorem mono {smaller : α → Prop} (lawful : codec.Lawful fits)
    (fit : ∀ value, smaller value → fits value) : codec.Lawful smaller where
  decode_encode := fun value small => lawful.decode_encode value (fit value small)
  decode_append := lawful.decode_append

theorem via (lawful : codec.Lawful fits) {load : α → β} {store : β → α} {fit : β → Prop}
    (inverse : ∀ value, load (store value) = value)
    (stores : ∀ value, fit value → fits (store value)) :
    (codec.via load store).Lawful fit where
  decode_encode := by
    intro value small rest
    simp only [Codec.via, lawful.decode_encode _ (stores value small), Option.map_some, inverse]
  decode_append := by
    intro bytes value rest read more
    obtain ⟨⟨inner, after⟩, found, same⟩ := Option.map_eq_some_iff.1 read
    cases same
    simp only [Codec.via, lawful.decode_append found more, Option.map_some]

theorem pair {second : Codec β} {fit : β → Prop} (first : codec.Lawful fits)
    (follows : second.Lawful fit) :
    (codec.pair second).Lawful fun value => fits value.1 ∧ fit value.2 where
  decode_encode := by
    intro value small rest
    simp only [Codec.pair, List.append_assoc, first.decode_encode _ small.1,
      follows.decode_encode _ small.2, Option.map_some]
  decode_append := by
    intro bytes value rest read more
    simp only [Codec.pair] at read ⊢
    cases head : codec.decode bytes with
    | none => simp [head] at read
    | some result =>
        obtain ⟨value, after⟩ := result
        rw [head] at read
        obtain ⟨⟨tail, left⟩, found, same⟩ := Option.map_eq_some_iff.1 read
        cases same
        simp only [first.decode_append head more, follows.decode_append found more, Option.map_some]

theorem option (lawful : codec.Lawful fits) :
    codec.option.Lawful fun value => ∀ inner ∈ value, fits inner where
  decode_encode := by
    intro value small rest
    cases value with
    | none => simp [Codec.option]
    | some inner =>
        have fit := small inner rfl
        simp [Codec.option, lawful.decode_encode inner fit]
  decode_append := by
    intro bytes value rest read more
    cases bytes with
    | nil => cases read
    | cons mark bytes =>
        simp only [Codec.option, List.cons_append] at read ⊢
        by_cases absent : mark = 0
        · rw [if_pos absent] at read ⊢
          cases read
          rfl
        · rw [if_neg absent] at read ⊢
          by_cases present : mark = 1
          · rw [if_pos present] at read ⊢
            obtain ⟨⟨inner, after⟩, found, same⟩ := Option.map_eq_some_iff.1 read
            cases same
            simp only [lawful.decode_append found more, Option.map_some]
          · rw [if_neg present] at read
            cases read

end Lawful

/-! ## Numbers -/

theorem decodeNat_cons (bits : Nat) (byte : UInt8) (rest : List UInt8) :
    decodeNat bits (byte :: rest) =
      if byte.toNat < 128 then
        if byte.toNat < 2 ^ bits then some (byte.toNat, rest) else none
      else if bits ≤ 7 then none
      else
        (decodeNat (bits - 7) rest).map fun (high, after) =>
          (byte.toNat - 128 + 128 * high, after) := rfl

/-- A number that has at most so many bits is read back. -/
theorem decodeNat_encodeNat {value bits : Nat} (small : value < 2 ^ bits) (rest : List UInt8) :
    decodeNat bits (encodeNat value ++ rest) = some (value, rest) := by
  induction value using encodeNat.induct generalizing bits with
  | case1 value last =>
      have byte : (UInt8.ofNat value).toNat = value := by
        rw [UInt8.toNat_ofNat']
        omega
      rw [encodeNat, if_pos last, List.singleton_append, decodeNat_cons, byte, if_pos last,
        if_pos small]
  | case2 value more ih =>
      have byte : (UInt8.ofNat (128 + value % 128)).toNat = 128 + value % 128 := by
        rw [UInt8.toNat_ofNat']
        omega
      -- A second group means more than seven bits.
      have wide : 7 < bits := by
        refine Nat.lt_of_not_le fun narrow => ?_
        have bound : 2 ^ bits ≤ 2 ^ 7 := Nat.pow_le_pow_right (by decide) narrow
        omega
      have high : value / 128 < 2 ^ (bits - 7) := by
        rw [Nat.div_lt_iff_lt_mul (by decide), ← show 2 ^ 7 = 128 from rfl, ← Nat.pow_add,
          Nat.sub_add_cancel (Nat.le_of_lt wide)]
        exact small
      rw [encodeNat, if_neg more, List.cons_append, decodeNat_cons, byte, if_neg (by omega),
        if_neg (by omega), ih high, Option.map_some]
      dsimp only
      rw [Nat.add_sub_cancel_left, Nat.mod_add_div]

theorem decodeNat_append {bits : Nat} {bytes : List UInt8} {value : Nat} {rest : List UInt8}
    (read : decodeNat bits bytes = some (value, rest)) (more : List UInt8) :
    decodeNat bits (bytes ++ more) = some (value, rest ++ more) := by
  induction bytes generalizing bits value with
  | nil => cases read
  | cons byte bytes ih =>
      rw [List.cons_append]
      rw [decodeNat_cons] at read ⊢
      split
      next last =>
        rw [if_pos last] at read
        split at read
        next small =>
          cases read
          rw [if_pos small]
        next => cases read
      next continues =>
        rw [if_neg continues] at read
        split at read
        next => cases read
        next wide =>
          obtain ⟨⟨high, after⟩, found, same⟩ := Option.map_eq_some_iff.1 read
          cases same
          rw [if_neg wide, ih found, Option.map_some]

theorem lawful_nat (bits : Nat) : (nat bits).Lawful (· < 2 ^ bits) where
  decode_encode := fun _ small rest => decodeNat_encodeNat small rest
  decode_append := decodeNat_append

/-- A folded word has no more bits than the word. -/
theorem foldSign_lt (word : Word) : foldSign word < 2 ^ 16 := by
  have least := word.le_toInt
  have greatest := word.toInt_lt
  unfold foldSign
  split <;> omega

theorem unfoldSign_foldSign (word : Word) : unfoldSign (foldSign word) = word := by
  have least := word.le_toInt
  have greatest := word.toInt_lt
  have half : ∀ n : Nat, n < 2 ^ 15 → (Int16.ofNat n).toInt = n :=
    fun n small => Int16.toInt_ofNat_of_lt small
  apply Int16.toInt_inj.1
  unfold unfoldSign foldSign
  by_cases positive : 0 ≤ word.toInt
  · rw [if_pos positive, if_pos (by omega), half _ (by omega)]
    omega
  · have odd : (2 * (-word.toInt).toNat - 1) % 2 ≠ 0 := by omega
    have magnitude : (2 * (-word.toInt).toNat - 1) / 2 = (-word.toInt).toNat - 1 := by omega
    have negated : (-Int16.ofNat ((-word.toInt).toNat - 1)).toInt = word.toInt + 1 := by
      rw [Int16.toInt_neg, half _ (by omega), Int.bmod_eq_of_le_mul_two (by omega) (by omega)]
      omega
    rw [if_neg positive, if_neg odd, magnitude, Int16.toInt_sub, negated,
      show (1 : Int16).toInt = 1 from rfl, Int.add_sub_cancel,
      Int.bmod_eq_of_le_mul_two (by omega) (by omega)]

theorem lawful_word : word.Lawful fun _ => True :=
  (lawful_nat 16).via unfoldSign_foldSign fun word _ => foldSign_lt word

/-- The values of a list are read back if their positions are numbers of 32 bits. -/
theorem lawful_oneOf [DecidableEq α] {values : List α} (few : values.length ≤ 2 ^ 32) :
    (oneOf values).Lawful (· ∈ values) where
  decode_encode := by
    intro value listed rest
    have position := List.idxOf_lt_length_of_mem listed
    simp only [oneOf, decodeNat_encodeNat (Nat.lt_of_lt_of_le position few),
      List.getElem?_eq_getElem position, List.getElem_idxOf position, Option.map_some]
  decode_append := by
    intro bytes value rest read more
    simp only [oneOf] at read ⊢
    cases number : decodeNat 32 bytes with
    | none => simp [number] at read
    | some result =>
        obtain ⟨position, after⟩ := result
        rw [number] at read
        obtain ⟨listed, found, same⟩ := Option.map_eq_some_iff.1 read
        cases same
        simp only [decodeNat_append number more, found, Option.map_some]

end NodeGrid.Wire.Codec
