import NodeGrid.Proofs.Assembly.Compile
import NodeGrid.Proofs.Assembly.Wording

/-!
# Listings

A listing writes a program as a source: each instruction on a line of its own behind a label that
counts the lines, and a last label for the end of the program.  Compiling a listing gives back the
program, so every program whose literals and jumps are in range can be written, and no two programs
have the same listing.
-/

namespace NodeGrid

open Assembly Text

/-- The choices that are open when an instruction is written. -/
structure Layout where
  /-- Number of blanks in front of the mnemonic. -/
  indent : Nat
  /-- The operands of a move are divided by a comma instead of a blank. -/
  comma : Bool
  /-- Number of further blanks between them. -/
  room : Nat
  /-- The idle instruction is written with a mnemonic of its own. -/
  brief : Bool
  deriving DecidableEq, Repr

namespace Layout

variable (layout : Layout)

/-- What stands between two operands. -/
def separator : List Char :=
  (if layout.comma then ',' else ' ') :: List.replicate layout.room ' '

/-- What follows a mnemonic. -/
def arguments : List (List Char) → List Char
  | [] => []
  | [only] => ' ' :: only
  | first :: second :: _ => ' ' :: first ++ layout.separator ++ second

/-- An instruction as it is written. -/
def statement (instruction : Instruction) : List Char :=
  (instruction.wording layout.brief).1.name.toList ++
    layout.arguments (instruction.wording layout.brief).2

end Layout

namespace Assembly

/-- A line with the label for an index. -/
def labelled (index : Nat) (rest : List Char) : List Char :=
  labelName index ++ ':' :: rest

/-- The line for the instruction at an index. -/
def listingLine (layout : Layout) (index : Nat) (instruction : Instruction) : List Char :=
  labelled index (List.replicate layout.indent ' ' ++ layout.statement instruction)

/-- The lines for some instructions. -/
def listingLines (layouts : Nat → Layout) (code : List Instruction) : List (List Char) :=
  code.zipIdx.map fun entry => listingLine (layouts entry.2) entry.2 entry.1

/-- A program as a source: a line for each instruction, and the label for the end. -/
def listing (layouts : Nat → Layout) (code : List Instruction) : List (List Char) :=
  listingLines layouts code ++ [labelled code.length []]

/-- The program with these instructions on the lines of a listing and a label for each of them. -/
def Program.ofCode (code : List Instruction) : Program :=
  ⟨code.zipIdx.map fun entry => ⟨entry.1, entry.2⟩,
    (List.range (code.length + 1)).map fun index => ⟨labelName index, index⟩⟩

/-! ## A line of a listing -/

/-- An ASCII character that starts no comment and is its own upper-case form. -/
def IsListed (char : Char) : Prop :=
  char.toNat < 0x80 ∧ upperChar char = [char] ∧ char ≠ '#'

instance (char : Char) : Decidable (IsListed char) :=
  inferInstanceAs (Decidable (_ ∧ _))

theorem isListed_of_isPlain {char : Char} (plain : IsPlain char) : IsListed char :=
  ⟨plain.1, plain.2.2, plain.ne (by decide)⟩

theorem byteLength_eq_length {text : List Char} (ascii : ∀ char ∈ text, char.toNat < 0x80) :
    byteLength text = text.length := by
  induction text with
  | nil => rfl
  | cons char rest ih =>
      obtain ⟨small, others⟩ := List.forall_mem_cons.1 ascii
      have one : char.utf8Size = 1 := Char.utf8Size_eq_one_iff.2 (Nat.le_of_lt_succ small)
      rw [byteLength_cons, one, ih others, List.length_cons, Nat.add_comm]

section Line

variable {index : Nat} {rest : List Char}

theorem isListed_labelled (clean : ∀ char ∈ rest, IsListed char) :
    ∀ char ∈ labelled index rest, IsListed char := by
  intro char mem
  rcases List.mem_append.1 mem with in_label | in_rest
  · exact isListed_of_isPlain ((isWord_labelName index).2 char in_label)
  · rcases List.mem_cons.1 in_rest with rfl | in_rest
    · decide
    · exact clean char in_rest

theorem upper_labelled (clean : ∀ char ∈ rest, IsListed char) :
    upper (labelled index rest) = labelled index rest :=
  upper_eq_self fun char mem => (isListed_labelled clean char mem).2.1

theorem content_labelled (clean : ∀ char ∈ rest, IsListed char) :
    Source.content (labelled index rest) = labelled index rest := by
  have no_comment : stripComment (labelled index rest) = labelled index rest :=
    List.takeWhile_eq_self_iff.2 fun char mem => by
      simpa using (isListed_labelled clean char mem).2.2
  rw [Source.content, no_comment]
  exact (isWord_labelName index).dropWhile_isBlank _

theorem no_colon_labelName (index : Nat) :
    ∀ char ∈ labelName index, decide (char ≠ ':') = true := fun char mem => by
  simpa using ((isWord_labelName index).2 char mem).ne (by decide)

theorem beforeColon_labelled (clean : ∀ char ∈ rest, IsListed char) :
    Source.beforeColon (labelled index rest) = labelName index := by
  rw [Source.beforeColon, content_labelled clean]
  exact takeWhile_append_run (no_colon_labelName index) (by simp)

theorem fromColon_labelled (clean : ∀ char ∈ rest, IsListed char) :
    Source.fromColon (labelled index rest) = ':' :: rest := by
  rw [Source.fromColon, content_labelled clean]
  exact dropWhile_append_run (no_colon_labelName index) (by simp)

theorem isLabelled_labelled (clean : ∀ char ∈ rest, IsListed char) :
    Source.IsLabelled (labelled index rest) := by
  rw [Source.IsLabelled, beforeColon_labelled clean, fromColon_labelled clean]
  exact ⟨List.cons_ne_nil _ _, List.cons_ne_nil _ _⟩

theorem labelName?_labelled (clean : ∀ char ∈ rest, IsListed char) :
    Source.labelName? (labelled index rest) = some (labelName index) := by
  rw [Source.labelName?, if_pos (isLabelled_labelled clean), beforeColon_labelled clean,
    (isWord_labelName index).trimEnd_eq]

theorem statement_labelled (clean : ∀ char ∈ rest, IsListed char) :
    Source.statement (labelled index rest) = rest.dropWhile isBlank := by
  rw [Source.statement, if_pos (isLabelled_labelled clean), fromColon_labelled clean,
    List.tail_cons]

/-- A line behind a label can be read. -/
theorem exists_read_labelled (clean : ∀ char ∈ rest, IsListed char) :
    ∃ parts, Line.read (upper (labelled index rest)) = .ok parts := by
  rw [upper_labelled clean]
  refine Line.exists_read fun name mem => ?_
  rw [labelName?_labelled clean] at mem
  cases mem
  simpa using fun char mem => (isWord_labelName index).not_isBlank mem

/-- A line of listed characters is not too long when it has few enough characters. -/
theorem isOverlong_labelled (clean : ∀ char ∈ rest, IsListed char) {capacity limits : Extent}
    (short : (labelled index rest).length ≤ (limits.within capacity).columns) :
    isOverlong capacity (limits.within capacity) (labelled index rest) = false := by
  have bytes : byteLength (labelled index rest) = (labelled index rest).length :=
    byteLength_eq_length fun char mem => (isListed_labelled clean char mem).1
  simp only [Extent.within] at short ⊢
  simp only [isOverlong, upper_labelled clean, bytes, Bool.or_eq_false_iff,
    decide_eq_false_iff_not]
  omega

end Line

/-! ## What the line for an instruction stands for -/

section Instruction

variable (layout : Layout) {index : Nat} {instruction : Instruction}

theorem isBlank_replicate (count : Nat) : ∀ char ∈ List.replicate count ' ', isBlank char := by
  intro char mem
  rw [List.eq_of_mem_replicate mem]
  decide

theorem isListed_replicate (count : Nat) : ∀ char ∈ List.replicate count ' ', IsListed char := by
  intro char mem
  rw [List.eq_of_mem_replicate mem]
  decide

theorem isListed_separator : ∀ char ∈ layout.separator, IsListed char := by
  refine List.forall_mem_cons.2 ⟨?_, isListed_replicate layout.room⟩
  split <;> decide

theorem isListed_arguments {words : List (List Char)} (are_words : ∀ word ∈ words, IsWord word) :
    ∀ char ∈ layout.arguments words, IsListed char := by
  have listed : ∀ word ∈ words, ∀ char ∈ word, IsListed char := fun word mem char inside =>
    isListed_of_isPlain ((are_words word mem).2 char inside)
  have blank : IsListed ' ' := by decide
  match words with
  | [] => simp [Layout.arguments]
  | [only] => exact List.forall_mem_cons.2 ⟨blank, listed only (by simp)⟩
  | first :: second :: others =>
      refine List.forall_mem_cons.2 ⟨blank, fun char mem => ?_⟩
      rcases List.mem_append.1 mem with mem | mem
      · rcases List.mem_append.1 mem with mem | mem
        · exact listed first (by simp) char mem
        · exact isListed_separator layout char mem
      · exact listed second (by simp) char mem

theorem isListed_statement (instruction : Instruction) :
    ∀ char ∈ List.replicate layout.indent ' ' ++ layout.statement instruction, IsListed char := by
  intro char mem
  rcases List.mem_append.1 mem with mem | mem
  · exact isListed_replicate layout.indent char mem
  · rcases List.mem_append.1 mem with mem | mem
    · exact isListed_of_isPlain ((Opcode.isWord_name _).2 char mem)
    · exact isListed_arguments layout (instruction.wording_operands layout.brief).2 char mem

theorem statement_listingLine :
    Source.statement (listingLine layout index instruction) = layout.statement instruction := by
  rw [listingLine, statement_labelled (isListed_statement layout instruction),
    List.dropWhile_append_of_pos (isBlank_replicate layout.indent)]
  exact (Opcode.isWord_name _).dropWhile_isBlank _

theorem hasStatement_listingLine : Source.HasStatement (listingLine layout index instruction) := by
  rw [Source.HasStatement, statement_listingLine]
  exact List.append_ne_nil_of_left_ne_nil (Opcode.isWord_name _).1 _

theorem head?_arguments (words : List (List Char)) :
    ∀ char ∈ (layout.arguments words).head?, isMnemonicChar char = false := by
  intro char head
  match words with
  | [] => cases head
  | [only] | first :: second :: others =>
      obtain rfl : ' ' = char := Option.some.inj head
      decide

theorem mnemonic_listingLine :
    Source.mnemonic (listingLine layout index instruction) =
      (instruction.wording layout.brief).1.name.toList := by
  rw [Source.mnemonic, statement_listingLine]
  exact takeWhile_append_run (fun char mem => (Opcode.isWord_name _).isMnemonicChar mem)
    (head?_arguments layout _)

theorem arguments_listingLine :
    Source.arguments (listingLine layout index instruction) =
      layout.arguments (instruction.wording layout.brief).2 := by
  rw [Source.arguments, statement_listingLine]
  exact dropWhile_append_run (fun char mem => (Opcode.isWord_name _).isMnemonicChar mem)
    (head?_arguments layout _)

/-- What stands between two operands is passed over. -/
theorem passes_separator {word : List Char} (is_word : IsWord word) (offset : Nat) :
    (Remainder.mk offset (layout.separator ++ word)).skipBlank.skipComma.skipBlank.text = word := by
  have starts : word.dropWhile isBlank = word := by simpa using is_word.dropWhile_isBlank []
  have room : (List.replicate layout.room ' ' ++ word).dropWhile isBlank = word := by
    rw [List.dropWhile_append_of_pos (isBlank_replicate layout.room), starts]
  have no_comma : word.head? ≠ some ',' := fun head =>
    (is_word.2 ',' (List.mem_of_head? head)).ne (by decide) rfl
  cases comma : layout.comma with
  | true =>
      have there : (Remainder.mk offset (layout.separator ++ word)).skipBlank.text =
          ',' :: (List.replicate layout.room ' ' ++ word) := by
        simp only [Layout.separator, comma, if_true, List.cons_append, Remainder.skipBlank_text]
        exact List.dropWhile_cons_of_neg (by decide)
      rw [Remainder.skipBlank_text, Remainder.skipComma_comma _ there, room]
  | false =>
      have there : (Remainder.mk offset (layout.separator ++ word)).skipBlank.text = word := by
        simp only [Layout.separator, comma, List.cons_append, Remainder.skipBlank_text]
        exact (List.dropWhile_cons_of_pos (by decide)).trans room
      rw [Remainder.skipBlank_text, Remainder.skipComma_other _ (by rw [there]; exact no_comma),
        there, starts]

/-- The operands are read back from what follows the mnemonic. -/
theorem readOperands_arguments {words : List (List Char)} (few : words.length ≤ 2)
    (are_words : ∀ word ∈ words, IsWord word) {mnemonic : Token} {rest : Remainder}
    (there : rest.text = layout.arguments words) :
    textOf? (readOperands mnemonic rest).first = words[0]? ∧
      textOf? (readOperands mnemonic rest).second = words[1]? ∧
      (readOperands mnemonic rest).excess = none := by
  have inside : ∀ word ∈ words, ∀ char ∈ word, isOperandChar char := fun word mem char listed =>
    (are_words word mem).isOperandChar listed
  match words with
  | [] =>
      have starts : rest.text.dropWhile isBlank = [] ++ [] := by rw [there]; rfl
      exact readOperands_runs starts (by simp) (by simp) (fun _ => rfl) (by simp)
  | [only] =>
      have starts : rest.text.dropWhile isBlank = only ++ [] := by
        rw [there, Layout.arguments, List.dropWhile_cons_of_pos (by decide), List.append_nil]
        simpa using (are_words only (by simp)).dropWhile_isBlank []
      have filled : only ≠ [] := (are_words only (by simp)).1
      simpa [filled] using
        readOperands_runs starts (inside only (by simp)) (by simp) (fun _ => rfl) (by simp)
  | [first, second] =>
      have starts :
          rest.text.dropWhile isBlank = first ++ (layout.separator ++ second) := by
        rw [there, Layout.arguments, List.append_assoc, List.cons_append,
          List.dropWhile_cons_of_pos (by decide)]
        exact (are_words first (by simp)).dropWhile_isBlank _
      have ends : ∀ char ∈ (layout.separator ++ second).head?, isOperandChar char = false := by
        intro char head
        obtain rfl : (if layout.comma then ',' else ' ') = char := Option.some.inj head
        split <;> decide
      have filled : first ≠ [] ∧ second ≠ [] :=
        ⟨(are_words first (by simp)).1, (are_words second (by simp)).1⟩
      simpa [filled] using readOperands_runs starts (inside first (by simp)) ends
        (passes_separator layout (are_words second (by simp))) (inside second (by simp))
  | _ :: _ :: _ :: _ => simp at few

/-- The line for an instruction stands for the instruction. -/
theorem standsFor_listingLine {size : Nat} {labels : List Label} (fits : instruction.FitsIn size)
    (known : ∀ index ≤ size, labelIndex? labels (labelName index) = some index) :
    StandsFor labels (listingLine layout index instruction) instruction := by
  have clean := isListed_statement layout instruction
  have same : upper (listingLine layout index instruction) = listingLine layout index instruction :=
    upper_labelled clean
  obtain ⟨parts, read⟩ :
      ∃ parts, Line.read (upper (listingLine layout index instruction)) = .ok parts :=
    exists_read_labelled clean
  have has : parts.statement.isSome := by
    rw [Line.statement_isSome_iff read, Source.hasStatement_upper]
    exact hasStatement_listingLine layout
  obtain ⟨statement, found⟩ := Option.isSome_iff_exists.1 has
  obtain ⟨mnemonic, after, rfl, word, tail⟩ := Line.statement_eq_some read found
  rw [same, mnemonic_listingLine] at word
  rw [same, arguments_listingLine] at tail
  obtain ⟨few, are_words⟩ := instruction.wording_operands layout.brief
  obtain ⟨first, second, all_read⟩ := readOperands_arguments layout few are_words tail
  obtain ⟨operation, takes, becomes⟩ := instruction.exists_takes_wording fits known first second
  refine ⟨operation, ⟨parts, _, read, found, ?_⟩, becomes⟩
  exact Statement.operation_eq_ok_iff.2 ⟨_, word ▸ Opcode.ofText?_name _, all_read, takes⟩

end Instruction

/-! ## Whole listings -/

section Listing

variable (layouts : Nat → Layout) (code : List Instruction)

theorem length_listingLines : (listingLines layouts code).length = code.length := by
  simp [listingLines]

theorem listingLines_concat (instruction : Instruction) :
    listingLines layouts (code ++ [instruction]) =
      listingLines layouts code ++ [listingLine (layouts code.length) code.length instruction] := by
  simp [listingLines, List.zipIdx_append]

theorem statements_listingLines :
    Source.statements (listingLines layouts code) =
      code.zipIdx.map fun entry => (listingLine (layouts entry.2) entry.2 entry.1, entry.2) := by
  -- By the last instruction, as sources are described line by line from the first on.
  induction code using List.reverseRecOn with
  | nil => rfl
  | append_singleton code instruction ih =>
      rw [listingLines_concat, Source.statements_concat, ih, if_pos (hasStatement_listingLine _),
        length_listingLines, List.zipIdx_append, List.map_append]
      simp

/-- The label on the next line counts the lines before it. -/
theorem labels_listingLines_concat {rest : List Char} (clean : ∀ char ∈ rest, IsListed char) :
    Source.labels (listingLines layouts code ++ [labelled code.length rest]) =
      Source.labels (listingLines layouts code) ++ [⟨labelName code.length, code.length⟩] := by
  have upper_name : upper (labelName code.length) = labelName code.length :=
    upper_eq_self fun char mem => ((isWord_labelName code.length).2 char mem).2.2
  have count : (Source.statements (listingLines layouts code)).length = code.length := by
    rw [statements_listingLines, List.length_map, List.length_zipIdx]
  rw [Source.labels_concat, labelName?_labelled clean, count]
  simp [upper_name]

theorem labels_listingLines :
    Source.labels (listingLines layouts code) =
      (List.range code.length).map fun index => ⟨labelName index, index⟩ := by
  induction code using List.reverseRecOn with
  | nil => rfl
  | append_singleton code instruction ih =>
      rw [listingLines_concat, listingLine,
        labels_listingLines_concat layouts code (isListed_statement _ instruction), ih,
        List.length_append, List.length_singleton, List.range_succ, List.map_append]
      rfl

theorem labelName_injective : Function.Injective labelName := fun _ _ same =>
  Decimal.toDigits_injective (List.cons.inj same).2

/-- The labels of a listing are told apart by their numbers. -/
theorem distinct_labels :
    ((Program.ofCode code).labels.map (·.name)).Nodup := by
  rw [Program.ofCode, List.map_map]
  exact List.nodup_range.map labelName_injective

theorem labelIndex?_labelName {index : Nat} (inside : index ≤ code.length) :
    labelIndex? (Program.ofCode code).labels (labelName index) = some index :=
  (labelIndex?_eq_some_iff (distinct_labels code)).2
    (List.mem_map.2 ⟨index, List.mem_range.2 (Nat.lt_succ_of_le inside), rfl⟩)

/-- A listing amounts to the program it lists. -/
theorem describes_listing (fits : ∀ instruction ∈ code, instruction.FitsIn code.length) :
    (Program.ofCode code).Describes (listing layouts code) := by
  have bare : ¬Source.HasStatement (labelled code.length []) := by
    rw [Source.HasStatement, statement_labelled (by simp)]
    simp
  refine ⟨?_, distinct_labels code, ?_⟩
  · rw [listing, labels_listingLines_concat layouts code (by simp), labels_listingLines,
      Program.ofCode, List.range_succ, List.map_append]
    rfl
  · rw [listing, Source.statements_concat, if_neg bare, List.append_nil, statements_listingLines,
      Program.ofCode, List.forall₂_map_left_iff, List.forall₂_map_right_iff, List.forall₂_same]
    intro entry mem
    have listed : entry.1 ∈ code := (List.mem_zipIdx' mem).2 ▸ List.getElem_mem _
    exact ⟨rfl, standsFor_listingLine _ (fits entry.1 listed)
      fun index inside => labelIndex?_labelName code inside⟩

/-- Every line of a listing can be read, and it is not too long when it has few enough
characters. -/
theorem fit_listing {capacity limits : Extent} {line : List Char}
    (mem : line ∈ listing layouts code)
    (short : line.length ≤ (limits.within capacity).columns) :
    isOverlong capacity (limits.within capacity) line = false ∧
      ∃ parts, Line.read (upper line) = .ok parts := by
  obtain ⟨index, rest, clean, rfl⟩ :
      ∃ index rest, (∀ char ∈ rest, IsListed char) ∧ line = labelled index rest := by
    rcases List.mem_append.1 mem with mem | mem
    · obtain ⟨entry, -, rfl⟩ := List.mem_map.1 mem
      exact ⟨entry.2, _, isListed_statement _ entry.1, rfl⟩
    · exact ⟨code.length, [], by simp, List.mem_singleton.1 mem⟩
  exact ⟨isOverlong_labelled clean short, exists_read_labelled clean⟩

variable {layouts code}

/-- A program whose literals and jumps are in range is given back by compiling its listing, however
it is laid out, when the lines are few and short enough; and no listing of another program is the
same. -/
theorem compile_listing (fits : ∀ instruction ∈ code, instruction.FitsIn code.length) :
    (∀ capacity limits : Extent, code.length + 1 ≤ (limits.within capacity).lines →
        (∀ line ∈ listing layouts code, line.length ≤ (limits.within capacity).columns) →
          ∃ program, (compile capacity limits (listing layouts code)).outcome = .ok program ∧
            program.instructions = code ∧
            program.labels =
              (List.range (code.length + 1)).map (fun index => ⟨labelName index, index⟩) ∧
            program.lines = List.range code.length) ∧
      ∀ (layouts' : Nat → Layout) (code' : List Instruction),
        (∀ instruction ∈ code', instruction.FitsIn code'.length) →
          listing layouts' code' = listing layouts code → code' = code := by
  have describes := describes_listing layouts code fits
  have instructions (some_code : List Instruction) :
      (Program.ofCode some_code).instructions = some_code := by
    rw [Program.instructions, Program.ofCode, List.map_map]
    exact List.zipIdx_map_fst 0 some_code
  constructor
  · intro capacity limits few short
    have lines : (listing layouts code).length = code.length + 1 := by
      rw [listing, List.length_append, length_listingLines, List.length_singleton]
    refine ⟨Program.ofCode code, compile_eq_ok_iff.2 ⟨lines ▸ few, fun line mem => ?_, describes⟩,
      instructions code, rfl, ?_⟩
    · exact fit_listing layouts code mem (short line mem)
    · rw [Program.lines, Program.ofCode, List.map_map, List.range_eq_range']
      exact List.zipIdx_map_snd 0 code
  · intro layouts' code' fits' same
    have describes' := same ▸ describes_listing layouts' code' fits'
    rw [← instructions code', describes'.unique describes, instructions code]

end Listing

/-- A loop that sends the accumulator on and leaves when it is zero. -/
def countdown : List Instruction :=
  [.idle, .jump .zero 6, .move (.target .acc) .any, .binary .sub (.literal 1),
    .jumpRelative (.literal (-3)), .negate]

/-- The listing of the loop, with either mark between operands, gives back the loop. -/
theorem countdown_listed :
    listing (fun index => ⟨1, index = 2, 0, true⟩) countdown =
        ["L0: NOP".toList, "L1: JEZ L6".toList, "L2: MOV ACC,ANY".toList, "L3: SUB 1".toList,
          "L4: JRO -3".toList, "L5: NEG".toList, "L6:".toList] ∧
      ∃ program,
        (compile ⟨64, 64⟩ .standard
          (listing (fun index => ⟨1, index = 2, 0, true⟩) countdown)).outcome = .ok program ∧
        program.instructions = countdown ∧
        program.labels =
          (List.range (countdown.length + 1)).map (fun index => ⟨labelName index, index⟩) ∧
        program.lines = List.range countdown.length := by
  have fits : ∀ instruction ∈ countdown, instruction.FitsIn countdown.length := by decide
  exact ⟨by decide, (compile_listing fits).1 ⟨64, 64⟩ .standard (by decide) (by decide)⟩

end Assembly

end NodeGrid
