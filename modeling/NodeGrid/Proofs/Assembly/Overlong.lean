import NodeGrid.Proofs.Assembly.Location
import NodeGrid.Proofs.Text.Offsets

/-!
# Lines that are too long

The limit counts the characters of a line as it is written, and the capacity counts the bytes of
its upper case.  When a line exceeds one of them, its error has the limit for a column.  Each
character has at least one byte, so the line in upper case goes on behind this column; but the
column need not be an offset of it, and then it is none of the text that is kept.
-/

namespace NodeGrid.Assembly

open Text

section Line

variable {capacity limits : Extent} {line : List Char}

/-- Upper case has at least one byte for each character. -/
theorem length_le_byteLength_upper (line : List Char) : line.length ≤ byteLength (upper line) := by
  induction line with
  | nil => exact Nat.zero_le _
  | cons char rest ih =>
      have positive := byteLength_pos (upperChar_ne_nil char)
      rw [upper_cons, byteLength_append, List.length_cons]
      omega

/-- A line that is too long has more bytes in upper case than there are columns. -/
theorem columns_lt_byteLength (long : isOverlong capacity (limits.within capacity) line = true) :
    (limits.within capacity).columns < byteLength (upper line) := by
  cases isOverlong_iff.1 long with
  | inl wide => exact wide.trans_le (length_le_byteLength_upper line)
  | inr loses => exact (Nat.min_le_right _ _).trans_lt loses

/-- The limit is an offset of what is kept of a line that is too long, unless it leads inside of a
character of the line in upper case. -/
theorem isOffset_keptText_iff
    (long : isOverlong capacity (limits.within capacity) line = true) :
    IsOffset (keptText capacity line) (limits.within capacity).columns ↔
      ¬IsInside (upper line) (limits.within capacity).columns :=
  (isOffset_fitting_iff (Nat.min_le_right _ _)).trans
    (isOffset_iff_not_isInside (columns_lt_byteLength long).le)

end Line

/-- The error that a line is too long is that of a line that is too long. -/
theorem LineFault.eq_of_lineTooLong {capacity bounds : Extent} {earlier : List (List Char)}
    {line : List Char} {error : CompileError}
    (fault : LineFault capacity bounds earlier line error) (about : error.fault = .lineTooLong) :
    isOverlong capacity bounds line = true ∧
      error = .onLine .lineTooLong earlier.length bounds.columns bounds.columns := by
  cases fault with
  | tooLong long => exact ⟨long, rfl⟩
  | malformedLabel | repeatedLabel => cases about
  | illFormed _ _ _ _ fails => cases (Statement.operation_eq_error fails).fault_ne_lineTooLong about

/-- The error of a line that is too long has the limit for both columns.  This is an offset of the
text that is kept of the line, unless it leads inside of a character of the line in upper case. -/
theorem compile_overlong_column {capacity limits : Extent}
    (countable : (limits.within capacity).lines ≤ maxPosition) {source : List (List Char)}
    {error : CompileError} (fails : (compile capacity limits source).outcome = .error error)
    (about : error.fault = .lineTooLong) :
    ∃ index line text, error.line = index + 1 ∧ source[index]? = some line ∧
      isOverlong capacity (limits.within capacity) line = true ∧
      (compile capacity limits source).kept[index]? = some text ∧
      error.startColumn = (limits.within capacity).columns ∧
      error.endColumn = (limits.within capacity).columns ∧
      (IsOffset text error.startColumn ↔ ¬IsInside (upper line) error.startColumn) := by
  have counted : source.length ≤ (limits.within capacity).lines :=
    length_le_of_fault_ne fails fun many => by cases about.symm.trans many
  rw [kept_of_le counted]
  cases compile_eq_error counted fails with
  | inl faulty =>
      obtain ⟨index, line, -, here, fault⟩ := faulty
      obtain ⟨long, rfl⟩ := fault.eq_of_lineTooLong about
      have kept : (source.map (keptText capacity))[index]? = some (keptText capacity line) := by
        rw [List.getElem?_map, here, Option.map_some]
      have number := fault.line_eq_succ countable counted here
      exact ⟨index, line, _, number, here, long, kept, rfl, rfl, isOffset_keptText_iff long⟩
  | inr undefined =>
      obtain ⟨-, _, _, _, _, -, -, -, -, rfl⟩ := undefined
      cases about

/-- A line of 22 characters, one of which becomes two in upper case. -/
def longComment : List (List Char) :=
  ["mov 1 acc # größer als".toList]

/-- The limit leads right behind the two characters that come of one. -/
theorem longComment_column :
    (Extent.within .standard ⟨64, 64⟩).lines ≤ maxPosition ∧
      (compile ⟨64, 64⟩ .standard longComment).outcome = .error ⟨.lineTooLong, 1, 18, 18⟩ ∧
      (∃ index line text, 1 = index + 1 ∧ longComment[index]? = some line ∧
        isOverlong ⟨64, 64⟩ (Extent.within .standard ⟨64, 64⟩) line = true ∧
        (compile ⟨64, 64⟩ .standard longComment).kept[index]? = some text ∧
        18 = (Extent.within .standard ⟨64, 64⟩).columns ∧
        18 = (Extent.within .standard ⟨64, 64⟩).columns ∧
        (IsOffset text 18 ↔ ¬IsInside (upper line) 18)) ∧
      (compile ⟨64, 64⟩ .standard longComment).kept = ["MOV 1 ACC # GRÖSSER ALS".toList] ∧
      IsOffset "MOV 1 ACC # GRÖSSER ALS".toList 18 := by
  have countable : (Extent.within .standard ⟨64, 64⟩).lines ≤ maxPosition := by decide
  have fails : (compile ⟨64, 64⟩ .standard longComment).outcome =
      .error ⟨.lineTooLong, 1, 18, 18⟩ := by
    decide
  exact ⟨countable, fails, compile_overlong_column countable fails rfl, by decide,
    "MOV 1 ACC # GRÖSS".toList, by decide, by decide⟩

/-- The limit leads inside of the umlaut, which has two bytes. -/
theorem umlaut_column_inside :
    (compile ⟨64, 64⟩ .standard ["mov 1 acc # noch öfter".toList]).outcome =
        .error ⟨.lineTooLong, 1, 18, 18⟩ ∧
      (compile ⟨64, 64⟩ .standard ["mov 1 acc # noch öfter".toList]).kept =
        ["MOV 1 ACC # NOCH ÖFTER".toList] ∧
      ¬IsOffset "MOV 1 ACC # NOCH ÖFTER".toList 18 := by
  refine ⟨by decide, by decide, fun between => between.not_isInside ?_⟩
  exact ⟨"MOV 1 ACC # NOCH ".toList, 'Ö', by decide, by decide, by decide⟩

end NodeGrid.Assembly
