import NodeGrid.Proofs.Node.Recompile
import NodeGrid.Proofs.Text.Idempotence

/-!
# Compiling the text that is kept

Of a source that compiles the upper case is kept, which is its own upper case.  Compiled again, a
kept line has the same bytes as before and is read in the same way.  Only the limit is measured on
other characters, because upper case can have more of them.  So the kept text compiles to the same
program when no line of it is wider than the limit, and otherwise the first such line is reported.
-/

namespace NodeGrid

open Assembly Text

/-- The line with this index has more characters than there are columns. -/
def IsWideAt (columns : Nat) (source : List (List Char)) (index : Nat) : Prop :=
  ∃ line, source[index]? = some line ∧ columns < line.length

namespace Assembly

section Lines

variable {capacity bounds : Extent}

/-- When a line is not too long, its upper case is when it has too many characters. -/
theorem isOverlong_upper {line : List Char} (fits : isOverlong capacity bounds line = false) :
    isOverlong capacity bounds (upper line) = decide (bounds.columns < (upper line).length) := by
  simp only [isOverlong, Bool.or_eq_false_iff] at fits
  rw [isOverlong, upper_upper, fits.2, Bool.or_false]

/-- Lines that are read once are read again in upper case, as long as none of them is wide.  What
comes behind them is read onto the same draft. -/
theorem readLines_upper_append {index : Nat} {draft final : Draft} {before after : List (List Char)}
    (read : readLines capacity bounds index draft (before ++ after) = .ok final)
    (narrow : ∀ line ∈ before, (upper line).length ≤ bounds.columns) :
    ∃ middle, readLines capacity bounds (index + before.length) middle after = .ok final ∧
      ∀ rest, readLines capacity bounds index draft (before.map upper ++ rest) =
        readLines capacity bounds (index + before.length) middle rest := by
  induction before generalizing index draft with
  | nil => exact ⟨draft, read, fun _ => rfl⟩
  | cons line before ih =>
      obtain ⟨fits, extended, added, others_read⟩ := readLines_cons_eq_ok_iff.1 read
      obtain ⟨narrow_here, others_narrow⟩ := List.forall_mem_cons.1 narrow
      have fits_again : isOverlong capacity bounds (upper line) = false := by
        rw [isOverlong_upper fits]
        exact decide_eq_false (not_lt.2 narrow_here)
      obtain ⟨middle, behind, same⟩ := ih others_read others_narrow
      have counted : index + (before.length + 1) = index + 1 + before.length := by omega
      rw [List.length_cons, counted]
      refine ⟨middle, behind, fun rest => ?_⟩
      rw [List.map_cons, List.cons_append, readLines_cons fits_again, upper_upper, added]
      exact same rest

end Lines

/-- In front of the first wide line no line is wide. -/
theorem narrow_of_mem_take {columns index : Nat} {source : List (List Char)}
    (narrow : ∀ earlier < index, ¬IsWideAt columns (source.map upper) earlier) :
    ∀ line ∈ source.take index, (upper line).length ≤ columns := by
  intro line listed
  obtain ⟨earlier, inside, here⟩ := List.mem_take_iff_getElem.1 listed
  have kept : (source.map upper)[earlier]? = some (upper line) := by
    rw [List.getElem?_map, List.getElem?_eq_some_iff.2 ⟨by omega, here⟩, Option.map_some]
  exact not_lt.1 fun wide => narrow earlier (by omega) ⟨upper line, kept, wide⟩

section Compile

variable {capacity limits : Extent} {source : List (List Char)} {program : Program}

theorem length_map_upper_le (few : source.length ≤ (limits.within capacity).lines) :
    (source.map upper).length ≤ (limits.within capacity).lines :=
  (List.length_map upper).trans_le few

variable (compiled : (compile capacity limits source).outcome = .ok program)
include compiled

/-- Of a source that compiles the upper case is kept. -/
theorem kept_eq_map_upper : (compile capacity limits source).kept = source.map upper := by
  obtain ⟨few, fits, -⟩ := compile_eq_ok_iff.1 compiled
  rw [kept_of_le few]
  exact List.map_congr_left fun line listed => keptText_eq_upper (fits line listed).1

/-- Of the upper case of a source that compiles everything is kept. -/
theorem kept_map_upper :
    (compile capacity limits (source.map upper)).kept = source.map upper := by
  obtain ⟨few, fits, -⟩ := compile_eq_ok_iff.1 compiled
  rw [kept_of_le (length_map_upper_le few), List.map_map]
  refine List.map_congr_left fun line listed => ?_
  rw [Function.comp_apply, keptText, upper_upper]
  exact keptText_eq_upper (fits line listed).1

/-- When no line of it is wide, the upper case of a source compiles to the same program. -/
theorem compile_map_upper
    (narrow : ∀ index, ¬IsWideAt (limits.within capacity).columns (source.map upper) index) :
    (compile capacity limits (source.map upper)).outcome = .ok program := by
  have few := (compile_eq_ok_iff.1 compiled).1
  rw [compile_of_le few] at compiled
  obtain ⟨draft, read, finished⟩ := bind_eq_ok_iff.1 compiled
  have all_narrow := narrow_of_mem_take fun earlier (_ : earlier < source.length) => narrow earlier
  rw [List.take_length] at all_narrow
  rw [← List.append_nil source] at read
  obtain ⟨middle, behind, same⟩ := readLines_upper_append read all_narrow
  have again := (same []).trans behind
  rw [List.append_nil] at again
  rw [compile_of_le (length_map_upper_le few)]
  exact bind_eq_ok_iff.2 ⟨draft, again, finished⟩

/-- Of the upper case of a source the first wide line is reported. -/
theorem compile_map_upper_of_wide {index : Nat}
    (least : IsLeast {index | IsWideAt (limits.within capacity).columns (source.map upper) index}
      index) :
    (compile capacity limits (source.map upper)).outcome =
      .error (.onLine .lineTooLong index (limits.within capacity).columns
        (limits.within capacity).columns) := by
  have few := (compile_eq_ok_iff.1 compiled).1
  rw [compile_of_le few] at compiled
  obtain ⟨draft, read, -⟩ := bind_eq_ok_iff.1 compiled
  obtain ⟨_, kept, wide⟩ := least.1
  rw [List.getElem?_map] at kept
  obtain ⟨line, here, rfl⟩ := Option.map_eq_some_iff.1 kept
  obtain ⟨inside, same_line⟩ := List.getElem?_eq_some_iff.1 here
  have split : source = source.take index ++ line :: source.drop (index + 1) := by
    rw [← same_line, ← List.drop_eq_getElem_cons inside, List.take_append_drop]
  have narrow := narrow_of_mem_take fun earlier before wide =>
    absurd (least.2 wide) (not_le.2 before)
  rw [split] at read
  obtain ⟨middle, behind, same⟩ := readLines_upper_append read narrow
  have long : isOverlong capacity (limits.within capacity) (upper line) = true := by
    rw [isOverlong_upper (readLines_cons_eq_ok_iff.1 behind).1]
    exact decide_eq_true wide
  have again : source.map upper = (source.take index).map upper ++
      upper line :: (source.drop (index + 1)).map upper := by
    rw [← List.map_cons, ← List.map_append, ← split]
  rw [compile_of_le (length_map_upper_le few), again, same, readLines, if_pos long,
    List.length_take_of_le inside.le, Nat.zero_add]
  rfl

end Compile

end Assembly

/-- When a source compiles, the text that is kept of it compiles to the same in every core, as long
as no line of it has more characters than there are columns.  Otherwise the first such line is
reported, and the same text is kept. -/
theorem Core.compile_kept {capacity limits : Extent} {source : List (List Char)}
    {core compiled : Core} (compiles : core.compile capacity limits source = (.ok (), compiled))
    (other : Core) :
    ((∀ index, ¬IsWideAt (limits.within capacity).columns compiled.source index) →
        other.compile capacity limits compiled.source = (.ok (), compiled)) ∧
      ∀ index,
        IsLeast {index | IsWideAt (limits.within capacity).columns compiled.source index} index →
          other.compile capacity limits compiled.source =
            (.error (.onLine .lineTooLong index (limits.within capacity).columns
              (limits.within capacity).columns),
              { Core.empty with source := compiled.source }) := by
  cases outcome : (Assembly.compile capacity limits source).outcome with
  | error error =>
      rw [compile_of_error outcome] at compiles
      cases compiles
  | ok program =>
      rw [compile_of_ok outcome, kept_eq_map_upper outcome] at compiles
      cases compiles
      refine ⟨fun narrow => ?_, fun index least => ?_⟩
      · rw [compile_of_ok (compile_map_upper outcome narrow), kept_map_upper outcome]
      · rw [compile_of_error (compile_map_upper_of_wide outcome least), kept_map_upper outcome]
        rfl

/-- A label with a letter that becomes two in upper case, and a jump to it in another spelling. -/
def street : List (List Char) :=
  ["straße: nop".toList, "jmp Straße # hin".toList]

/-- The core that the source is compiled into. -/
def streetCore : Core :=
  (Core.empty.compile ⟨64, 64⟩ .standard street).2

/-- The kept lines are longer than those of the source, but not too long. -/
theorem street_compile_kept :
    Core.empty.compile ⟨64, 64⟩ .standard street = (.ok (), streetCore) ∧
      streetCore.source = ["STRASSE: NOP".toList, "JMP STRASSE # HIN".toList] ∧
      Core.empty.compile ⟨64, 64⟩ .standard streetCore.source = (.ok (), streetCore) := by
  have compiles : Core.empty.compile ⟨64, 64⟩ .standard street = (.ok (), streetCore) :=
    Prod.ext (by decide) rfl
  have short : ∀ line ∈ streetCore.source, line.length ≤ 18 := by decide
  refine ⟨compiles, by decide, (Core.compile_kept compiles .empty).1 ?_⟩
  rintro index ⟨line, here, wide⟩
  exact absurd wide (not_lt.2 (short line (List.mem_of_getElem? here)))

/-- A line of 18 characters compiles, and the 19 characters that are kept of it do not. -/
theorem lastColumn_kept_too_long :
    (Core.empty.compile ⟨64, 64⟩ .standard ["mov 1 acc # straße".toList]).1 = .ok () ∧
      (Core.empty.compile ⟨64, 64⟩ .standard ["mov 1 acc # straße".toList]).2.source =
        ["MOV 1 ACC # STRASSE".toList] ∧
      (Core.empty.compile ⟨64, 64⟩ .standard ["MOV 1 ACC # STRASSE".toList]).1 =
        .error ⟨.lineTooLong, 1, 18, 18⟩ := by
  decide

end NodeGrid
