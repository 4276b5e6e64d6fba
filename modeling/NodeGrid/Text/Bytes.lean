/-!
# Text measured in bytes

Columns and capacities count the bytes of the UTF-8 form of a text.  A text is cut only between
characters.
-/

namespace NodeGrid.Text

/-- Number of bytes of the UTF-8 form. -/
def byteLength : List Char → Nat
  | [] => 0
  | char :: rest => char.utf8Size + byteLength rest

/-- The longest initial part that fits into a number of bytes. -/
def fitting (capacity : Nat) : List Char → List Char
  | [] => []
  | char :: rest =>
      if char.utf8Size ≤ capacity then char :: fitting (capacity - char.utf8Size) rest else []

@[simp] theorem byteLength_nil : byteLength [] = 0 := rfl

@[simp] theorem byteLength_cons (char : Char) (rest : List Char) :
    byteLength (char :: rest) = char.utf8Size + byteLength rest := rfl

@[simp] theorem byteLength_append (first second : List Char) :
    byteLength (first ++ second) = byteLength first + byteLength second := by
  induction first with
  | nil => simp
  | cons char rest ih => simp [ih, Nat.add_assoc]

/-- The part that fits is all of the text exactly when the text fits. -/
theorem fitting_eq_self_iff {capacity : Nat} {text : List Char} :
    fitting capacity text = text ↔ byteLength text ≤ capacity := by
  induction text generalizing capacity with
  | nil => simp [fitting]
  | cons char rest ih =>
      by_cases fits : char.utf8Size ≤ capacity
      · simp only [fitting, fits, if_true, List.cons.injEq, true_and, ih, byteLength_cons]
        omega
      · simp only [fitting, fits, if_false, byteLength_cons]
        constructor
        · intro absurd
          cases absurd
        · omega

end NodeGrid.Text
