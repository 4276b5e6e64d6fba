import NodeGrid.Word

/-!
# Codecs

A codec writes values as bytes and reads them back from the front of bytes.  Numbers are written in
groups of seven bits, the lowest first, and every group but the last has its high bit set.  A
reader knows how many bits a number may have and refuses more; it accepts groups that add nothing.
-/

namespace NodeGrid.Wire

/-- A way to write values of a type and to read them. -/
structure Codec (α : Type) where
  encode : α → List UInt8
  decode : List UInt8 → Option (α × List UInt8)

namespace Codec

variable {α β : Type}

/-- Values of one type by way of another. -/
def via (codec : Codec α) (load : α → β) (store : β → α) : Codec β where
  encode value := codec.encode (store value)
  decode bytes := (codec.decode bytes).map fun (value, rest) => (load value, rest)

/-- One value after another. -/
def pair (first : Codec α) (second : Codec β) : Codec (α × β) where
  encode value := first.encode value.1 ++ second.encode value.2
  decode bytes :=
    match first.decode bytes with
    | none => none
    | some (head, rest) => (second.decode rest).map fun (tail, after) => ((head, tail), after)

/-- A value that may be absent: a byte that says whether it is there, then the value. -/
def option (codec : Codec α) : Codec (Option α) where
  encode
    | none => [0]
    | some value => 1 :: codec.encode value
  decode
    | [] => none
    | mark :: rest =>
        if mark = 0 then some (none, rest)
        else if mark = 1 then
          (codec.decode rest).map fun (value, after) => (some value, after)
        else none

/-- The bytes of a number. -/
def encodeNat (value : Nat) : List UInt8 :=
  if value < 128 then [UInt8.ofNat value]
  else UInt8.ofNat (128 + value % 128) :: encodeNat (value / 128)
termination_by value
decreasing_by omega

/-- Read a number of at most so many bits. -/
def decodeNat (bits : Nat) : List UInt8 → Option (Nat × List UInt8)
  | [] => none
  | byte :: rest =>
      if byte.toNat < 128 then
        if byte.toNat < 2 ^ bits then some (byte.toNat, rest) else none
      else if bits ≤ 7 then none
      else
        (decodeNat (bits - 7) rest).map fun (high, after) =>
          (byte.toNat - 128 + 128 * high, after)

/-- Numbers of at most so many bits. -/
def nat (bits : Nat) : Codec Nat where
  encode := encodeNat
  decode := decodeNat bits

/-- Fold the sign of a word into the lowest bit, so that small magnitudes stay small. -/
def foldSign (word : Word) : Nat :=
  if 0 ≤ word.toInt then 2 * word.toInt.toNat else 2 * (-word.toInt).toNat - 1

/-- The word whose sign was folded into a number. -/
def unfoldSign (value : Nat) : Word :=
  if value % 2 = 0 then Int16.ofNat (value / 2) else -Int16.ofNat (value / 2) - 1

/-- Words. -/
def word : Codec Word :=
  (nat 16).via unfoldSign foldSign

/-- The values of a list, written by their positions. -/
def oneOf [DecidableEq α] (values : List α) : Codec α where
  encode value := encodeNat (values.idxOf value)
  decode bytes :=
    match decodeNat 32 bytes with
    | none => none
    | some (position, rest) => values[position]?.map (·, rest)

end Codec

end NodeGrid.Wire
