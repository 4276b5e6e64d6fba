import Mathlib.Data.List.Flatten
import NodeGrid.Proofs.Assembly.Respacing
import NodeGrid.Proofs.Assembly.Verdict
import NodeGrid.Proofs.Text.Offsets

/-!
# The layout of a source

A source can be laid out anew by white space and comments on its lines and by lines with nothing
else.  Both sources are read side by side, and the drafts follow each other: they have the same
labels and the same operations, but for the indices of lines and the places of tokens.  A line that
says nothing leaves the draft as it is, so only the index moves on.  In the end both sources
compile, to programs that differ in the numbers of lines, or both have the same fault.
-/

namespace NodeGrid.Assembly

open Text

/-! ## What a layout leaves alone -/

/-- A source becomes another one by respacing its lines and by inserting lines that hold only white
space and comments.  The function tells where the line with an index is then. -/
inductive Relaid : List (List Char) → List (List Char) → (Nat → Nat) → Prop where
  | nil : Relaid [] [] id
  | line {line other : List Char} {rest relaid : List (List Char)} {renumber : Nat → Nat}
      (respaced : Respaced line other) (others : Relaid rest relaid renumber) :
      Relaid (line :: rest) (other :: relaid) fun
        | 0 => 0
        | index + 1 => renumber index + 1
  | insert {silent : List Char} {source relaid : List (List Char)} {renumber : Nat → Nat}
      (blank : ∀ char ∈ stripComment silent, isBlank char)
      (others : Relaid source relaid renumber) :
      Relaid source (silent :: relaid) fun index => renumber index + 1

/-- Two programs differ in the numbers of lines only. -/
structure Program.Relined (renumber : Nat → Nat) (program other : Program) : Prop where
  instructions : other.instructions = program.instructions
  labels : other.labels = program.labels
  lines : other.lines = program.lines.map renumber

/-- Two errors have the same fault, one at a line among the first so many, and the other at the line
that it becomes. -/
structure CompileError.Relined (count : Nat) (renumber : Nat → Nat) (error other : CompileError) :
    Prop where
  fault : other.fault = error.fault
  line : ∃ index < count,
    error.line = min (index + 1) maxPosition ∧ other.line = min (renumber index + 1) maxPosition

/-! ## Statements -/

/-- Two flaws have the same fault. -/
def Flaw.Similar (flaw other : Flaw) : Prop :=
  other.fault = flaw.fault

/-- Two operations are the same, but for the place of a label. -/
inductive Operation.Similar : Operation → Operation → Prop where
  | instruction (made : Instruction) : Similar (.instruction made) (.instruction made)
  | jump (condition : Condition) {label other : Token} (same : other.text = label.text) :
      Similar (.jump condition label) (.jump condition other)

theorem required_parallel {previous previous' : Token} {token other : Option Token}
    (same : textOf? other = textOf? token) :
    Parallel Flaw.Similar (fun found found' : Token => found'.text = found.text)
      (required previous token) (required previous' other) := by
  cases token with
  | none =>
      rw [textOf?_none, textOf?_eq_none_iff] at same
      rw [same]
      exact .error rfl
  | some found =>
      obtain ⟨found', rfl, text⟩ := textOf?_eq_some_iff.1 same
      exact .ok text

theorem refused_parallel {token other : Option Token} (same : textOf? other = textOf? token) :
    Parallel Flaw.Similar (fun _ _ => True) (refused token) (refused other) := by
  cases token with
  | none =>
      rw [textOf?_none, textOf?_eq_none_iff] at same
      rw [same]
      exact .ok trivial
  | some found =>
      obtain ⟨found', rfl, -⟩ := textOf?_eq_some_iff.1 same
      exact .error rfl

theorem operandOf_parallel {token other : Token} (same : other.text = token.text) :
    Parallel Flaw.Similar (fun operand operand' => operand' = operand) (operandOf token)
      (operandOf other) := by
  unfold operandOf
  rw [same]
  cases Operand.ofText? token.text with
  | none => exact .error rfl
  | some operand => exact .ok rfl

theorem destinationOf_parallel {token other : Token} (same : other.text = token.text) :
    Parallel Flaw.Similar (fun target target' => target' = target) (destinationOf token)
      (destinationOf other) := by
  unfold destinationOf
  rw [same]
  cases Target.ofText? token.text with
  | none =>
      dsimp only
      split
      next => exact .error rfl
      next => exact .error rfl
  | some target => exact .ok rfl

namespace Statement.SameWords

variable {statement other : Statement} (same : statement.SameWords other)
include same

theorem onlyOperand :
    Parallel Flaw.Similar (fun token token' : Token => token'.text = token.text)
      statement.onlyOperand other.onlyOperand :=
  (required_parallel same.first).bind fun _ _ text =>
    (refused_parallel same.second).bind fun _ _ _ => .ok text

theorem operationOfForm (form : Form) :
    Parallel Flaw.Similar Operation.Similar (statement.operationOfForm form)
      (other.operationOfForm form) := by
  cases form with
  | fixed instruction =>
      exact (refused_parallel same.first).bind fun _ _ _ => .ok (.instruction instruction)
  | jump condition => exact same.onlyOperand.bind fun _ _ text => .ok (.jump condition text)
  | jumpRelative =>
      refine same.onlyOperand.bind fun _ _ text => (operandOf_parallel text).bind ?_
      rintro offset _ rfl
      exact .ok (.instruction _)
  | binary op =>
      refine same.onlyOperand.bind fun _ _ text => (operandOf_parallel text).bind ?_
      rintro operand _ rfl
      exact .ok (.instruction _)
  | move =>
      refine (required_parallel same.first).bind fun _ _ source => ?_
      refine (required_parallel same.second).bind fun _ _ destination => ?_
      refine (operandOf_parallel source).bind ?_
      rintro operand _ rfl
      refine (destinationOf_parallel destination).bind ?_
      rintro target _ rfl
      exact .ok (.instruction _)

/-- Statements with the same words ask for the same, or for nothing. -/
theorem operation :
    Parallel Flaw.Similar Operation.Similar statement.operation other.operation := by
  unfold Statement.operation
  rw [same.mnemonic]
  cases Opcode.ofText? statement.mnemonic.text with
  | none => exact .error rfl
  | some opcode => exact (refused_parallel same.excess).bind fun _ _ _ => same.operationOfForm _

end Statement.SameWords

/-! ## Drafts -/

/-- A draft holds the same as another one, with the indices of lines moved.  All of them belong to
lines that have been counted. -/
structure Draft.Follows (count : Nat) (renumber : Nat → Nat) (draft other : Draft) : Prop where
  labels : other.labels = draft.labels
  code : List.Forall₂ (fun placed moved : PlacedOperation =>
    placed.operation.Similar moved.operation ∧ placed.line < count ∧
      moved.line = renumber placed.line) draft.code other.code

namespace Draft.Follows

variable {count : Nat} {renumber : Nat → Nat} {draft other : Draft} {index : Nat}
variable (follows : draft.Follows count renumber other)
include follows

theorem addLabel {label label' : Option Token} (same : textOf? label' = textOf? label) :
    Parallel Flaw.Similar (Draft.Follows count renumber) (draft.addLabel label)
      (other.addLabel label') := by
  cases label with
  | none =>
      rw [textOf?_none, textOf?_eq_none_iff] at same
      rw [same]
      exact .ok follows
  | some token =>
      obtain ⟨token', rfl, text⟩ := textOf?_eq_some_iff.1 same
      dsimp only at text
      simp only [Draft.addLabel, text, follows.labels, ← follows.code.length_eq]
      split
      next => exact .error rfl
      next => exact .ok ⟨rfl, follows.code⟩

theorem addStatement {statement statement' : Option Statement} (inside : index < count)
    (same : Option.Rel Statement.SameWords statement statement') :
    Parallel Flaw.Similar (Draft.Follows count renumber) (draft.addStatement index statement)
      (other.addStatement (renumber index) statement') := by
  cases same with
  | none => exact .ok follows
  | some same =>
      refine same.operation.bind fun operation operation' similar => .ok ⟨follows.labels, ?_⟩
      exact List.rel_append follows.code (.cons ⟨similar, inside, rfl⟩ .nil)

/-- Reading a line onto one draft and the respaced line onto the other keeps them alike. -/
theorem addLine {line line' : List Char} (inside : index < count)
    (respaced : Respaced line line') :
    Parallel Flaw.Similar (Draft.Follows count renumber) (draft.addLine index (upper line))
      (other.addLine (renumber index) (upper line')) := by
  have read := respaced.read_upper
  unfold Draft.addLine
  generalize Line.read (upper line) = first, Line.read (upper line') = second at read ⊢
  cases read with
  | error => exact .error rfl
  | ok same =>
      exact (follows.addLabel same.label).bind fun _ _ labelled =>
        labelled.addStatement inside same.statement

end Draft.Follows

/-- A line with nothing but white space and comments leaves a draft as it is. -/
theorem Draft.addLine_silent {silent : List Char}
    (blank : ∀ char ∈ stripComment silent, isBlank char) (draft : Draft) (index : Nat) :
    draft.addLine index (upper silent) = .ok draft := by
  have nothing : Source.content (upper silent) = [] := by
    rw [Source.content_upper, upper_eq_nil_iff]
    exact List.dropWhile_eq_nil_iff.2 blank
  have bare : ¬Source.IsLabelled (upper silent) := by
    rw [Source.IsLabelled, Source.fromColon, nothing]
    exact fun labelled => labelled.1 rfl
  have unnamed : Source.labelName? (upper silent) = none := if_neg bare
  obtain ⟨parts, read⟩ : ∃ parts, Line.read (upper silent) = .ok parts :=
    Line.exists_read (by simp [unnamed])
  have label : parts.label = none := by
    rw [← textOf?_eq_none_iff, (Line.read_eq_ok read).1, unnamed]
  have statement : parts.statement = none := by
    rw [← Option.not_isSome_iff_eq_none, Line.statement_isSome_iff read, Source.HasStatement,
      Source.statement, if_neg bare, nothing]
    simp
  refine Draft.addLine_eq_ok_iff.2 ⟨parts, draft, read, ?_, ?_⟩
  · rw [label]
    rfl
  · rw [statement]
    rfl

/-! ## All lines -/

section Lines

variable {capacity bounds : Extent}

/-- Respacing makes no line short enough. -/
theorem Respaced.isOverlong_eq_false {line other : List Char} (respaced : Respaced line other)
    (fits : isOverlong capacity bounds other = false) :
    isOverlong capacity bounds line = false := by
  have length := respaced.sublist.length_le
  have bytes : byteLength (upper line) ≤ byteLength (upper other) :=
    byteLength_le_of_sublist (respaced.sublist.flatMap upperChar)
  simp only [isOverlong, Bool.or_eq_false_iff, decide_eq_false_iff_not] at fits ⊢
  omega

variable {count : Nat} {renumber : Nat → Nat}

/-- Reading lines and the same lines laid out anew keeps the drafts alike, or stops both times with
the same fault. -/
theorem Relaid.readLines {rest relaid : List (List Char)} {later : Nat → Nat}
    (layout : Relaid rest relaid later)
    (fits : ∀ line ∈ relaid, isOverlong capacity bounds line = false)
    {draft other : Draft} (follows : draft.Follows count renumber other) {index reached : Nat}
    (inside : index + rest.length ≤ count)
    (moved : ∀ further, renumber (index + further) = reached + later further) :
    Parallel (CompileError.Relined count renumber) (Draft.Follows count renumber)
      (Assembly.readLines capacity bounds index draft rest)
      (Assembly.readLines capacity bounds reached other relaid) := by
  induction layout generalizing draft other index reached with
  | nil => exact .ok follows
  | line respaced others ih =>
      obtain ⟨fits_here, others_fit⟩ := List.forall_mem_cons.1 fits
      rw [List.length_cons] at inside
      have counted : index < count := by omega
      have here : renumber index = reached := moved 0
      rw [readLines_cons (respaced.isOverlong_eq_false fits_here), readLines_cons fits_here]
      have added := follows.addLine counted respaced
      rw [here] at added
      generalize draft.addLine index _ = first, other.addLine reached _ = second at added ⊢
      cases added with
      | error similar => exact .error ⟨similar, index, counted, rfl, by rw [here]; rfl⟩
      | ok extended =>
          refine ih others_fit extended (by omega) fun further => ?_
          have next := moved (further + 1)
          dsimp only at next
          rw [Nat.add_assoc, Nat.add_comm 1, next]
          omega
  | insert blank others ih =>
      obtain ⟨fits_here, others_fit⟩ := List.forall_mem_cons.1 fits
      rw [readLines_cons fits_here, Draft.addLine_silent blank]
      refine ih others_fit follows inside fun further => ?_
      rw [moved further, Nat.add_right_comm]
      rfl

end Lines

/-! ## Labels of jumps -/

section Lookup

variable {α β γ δ ε ε' : Type} {errors : ε → ε' → Prop} {values : α → β → Prop}
variable {results : γ → δ → Prop} {xs : List α} {ys : List β}

/-- Checks that are made place by place go on side by side. -/
theorem Parallel.mapM (related : List.Forall₂ values xs ys) {check : α → Except ε γ}
    {check' : β → Except ε' δ}
    (each : ∀ x y, values x y → Parallel errors results (check x) (check' y)) :
    Parallel errors (List.Forall₂ results) (xs.mapM check) (ys.mapM check') := by
  induction related with
  | nil => exact .ok .nil
  | cons head tail ih =>
      rw [List.mapM_cons, List.mapM_cons]
      exact (each _ _ head).bind fun _ _ first => ih.bind fun _ _ others => .ok (.cons first others)

end Lookup

section Finish

variable {count : Nat} {renumber : Nat → Nat}

theorem PlacedOperation.place_parallel {placed moved : PlacedOperation} (labels : List Label)
    (similar : placed.operation.Similar moved.operation) (inside : placed.line < count)
    (there : moved.line = renumber placed.line) :
    Parallel (CompileError.Relined count renumber)
      (fun result result' : Placed =>
        result'.instruction = result.instruction ∧ result'.line = renumber result.line)
      (placed.place labels) (moved.place labels) := by
  obtain ⟨operation, line⟩ := placed
  obtain ⟨operation', line'⟩ := moved
  cases there
  cases similar with
  | instruction made => exact .ok ⟨rfl, rfl⟩
  | jump condition same =>
      simp only [PlacedOperation.place, Reference.resolve, same]
      cases labelIndex? labels _ with
      | none => exact .error ⟨rfl, line, inside, rfl, rfl⟩
      | some index => exact .ok ⟨rfl, rfl⟩

/-- Instructions that are the same one by one are the same, and their lines are renumbered. -/
theorem Program.relined_of_forall₂ {labels : List Label} {code code' : List Placed}
    (related : List.Forall₂ (fun result result' : Placed =>
      result'.instruction = result.instruction ∧ result'.line = renumber result.line) code code') :
    Program.Relined renumber ⟨code, labels⟩ ⟨code', labels⟩ := by
  induction related with
  | nil => exact ⟨rfl, rfl, rfl⟩
  | cons head tail ih =>
      exact ⟨congrArg₂ List.cons head.1 ih.instructions, rfl, congrArg₂ List.cons head.2 ih.lines⟩

theorem Draft.Follows.finish {draft other : Draft} (follows : draft.Follows count renumber other) :
    Parallel (CompileError.Relined count renumber) (Program.Relined renumber) draft.finish
      other.finish := by
  unfold Draft.finish
  rw [follows.labels]
  have looked := Parallel.mapM follows.code fun placed moved alike =>
    PlacedOperation.place_parallel draft.labels alike.1 alike.2.1 alike.2.2
  exact looked.bind fun _ _ related => .ok (Program.relined_of_forall₂ related)

end Finish

/-! ## Compiling -/

namespace Relaid

variable {source relaid : List (List Char)} {renumber : Nat → Nat}
variable (layout : Relaid source relaid renumber)
include layout

theorem length_le : source.length ≤ relaid.length := by
  induction layout with
  | nil => exact le_rfl
  | line _ _ ih => exact Nat.succ_le_succ ih
  | insert _ _ ih => exact ih.trans (Nat.le_succ _)

/-- When a source that is laid out anew fits, it compiles exactly when the source that it was does.
Then the instructions and the labels are the same, and the lines of the instructions are renumbered.
Otherwise the fault is the same, at the line with the new number. -/
theorem compiles_alike {capacity limits : Extent} (fits : Fits capacity limits relaid) :
    Parallel (CompileError.Relined source.length renumber) (Program.Relined renumber)
      (compile capacity limits source).outcome (compile capacity limits relaid).outcome := by
  rw [compile_of_le (layout.length_le.trans fits.lines), compile_of_le fits.lines]
  have nothing : Draft.Follows source.length renumber ⟨[], []⟩ ⟨[], []⟩ := ⟨rfl, .nil⟩
  have read := layout.readLines fits.columns nothing (Nat.zero_add _).le fun further => by
    rw [Nat.zero_add, Nat.zero_add]
  exact read.bind fun _ _ follows => follows.finish

end Relaid

/-- A label and, on the next line, a jump to it. -/
def tightLoop : List (List Char) :=
  ["A:".toList, "JMP a".toList]

/-- The same with comments that hold a colon and mnemonics, and with more lines. -/
def roomyLoop : List (List Char) :=
  ["# x: y".toList, "  A: # jmp".toList, "".toList, "JMP a # NOP".toList]

/-- Where the lines of the one are in the other. -/
def roomyLine : Nat → Nat
  | 0 => 1
  | index + 1 => index + 3

/-- The jump goes to the same index from another line. -/
theorem roomyLoop_compiles :
    Relaid tightLoop roomyLoop roomyLine ∧ Fits ⟨64, 64⟩ .standard roomyLoop ∧
      ∃ program, (compile ⟨64, 64⟩ .standard roomyLoop).outcome = .ok program ∧
        program.instructions = [.jump .always 0] ∧ program.labels = [⟨"A".toList, 0⟩] ∧
        program.lines = [3] := by
  have layout : Relaid tightLoop roomyLoop roomyLine := by
    have blank (text : String) (all : text.toList.all isBlank) :
        ∀ char ∈ text.toList, isBlank char :=
      List.all_eq_true.1 all
    have label : Respaced "A:".toList
        ("  ".toList ++ ("A:".toList ++ " ".toList ++ '#' :: " jmp".toList)) :=
      .before (blank _ (by decide)) (.comment _ (.behind (blank _ (by decide)) .same))
    have jump : Respaced "JMP a".toList ("JMP a".toList ++ " ".toList ++ '#' :: " NOP".toList) :=
      .comment _ (.behind (blank _ (by decide)) .same)
    have made : Relaid tightLoop roomyLoop _ :=
      .insert nofun (.line label (.insert nofun (.line jump .nil)))
    convert made using 1
    funext index
    match index with
    | 0 => rfl
    | 1 => rfl
    | _ + 2 => rfl
  have fits : Fits ⟨64, 64⟩ .standard roomyLoop := ⟨by decide, by decide⟩
  have compiled : (compile ⟨64, 64⟩ .standard tightLoop).outcome =
      .ok ⟨[⟨.jump .always 0, 1⟩], [⟨"A".toList, 0⟩]⟩ := by
    decide
  refine ⟨layout, fits, ?_⟩
  have alike := layout.compiles_alike fits
  rw [compiled] at alike
  generalize (compile ⟨64, 64⟩ .standard roomyLoop).outcome = outcome at alike
  cases alike with
  | ok relined => exact ⟨_, rfl, relined.instructions, relined.labels, relined.lines⟩

end NodeGrid.Assembly
