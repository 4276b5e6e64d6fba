import NodeGrid.Proofs.Assembly.Compile

/-!
# Operands and the mnemonics that take them

When a source compiles, every operand on its lines is taken by the mnemonic before it, with one
exception.  A statement has two places for operands, and a comma in front of an operand puts it into
the second one.  A mnemonic without operands looks at the first place only, so one operand behind a
comma goes unnoticed.
-/

namespace NodeGrid.Assembly

open Text

/-- Number of operands of a form. -/
def Form.arity : Form → Nat
  | .fixed _ => 0
  | .jump _ | .jumpRelative | .binary _ => 1
  | .move => 2

/-- Number of operands that a mnemonic takes. -/
def Opcode.arity (opcode : Opcode) : Nat :=
  opcode.form.arity

/-- The mnemonics that take no operand, one operand, and two operands. -/
theorem Opcode.arity_eq (opcode : Opcode) :
    opcode.arity = match opcode with
      | .nop | .sav | .swp | .neg | .not => 0
      | .jmp | .jez | .jgz | .jlz | .jnz | .jro
      | .add | .sub | .and | .or | .xor | .shl | .shr => 1
      | .mov => 2 := by
  cases opcode <;> rfl

/-- A statement that satisfies a form has as many operands as the form takes, but for one in the
second place that a form without operands does not look at. -/
theorem Statement.Takes.length_eq {statement : Statement} {form : Form} {operation : Operation}
    (takes : statement.Takes form operation) :
    ((textOf? statement.first).toList ++ (textOf? statement.second).toList).length = form.arity ∨
      form.arity = 0 ∧ statement.first = none ∧ statement.second.isSome := by
  cases takes with
  | fixed bare => cases second : statement.second <;> simp [bare, Form.arity]
  | jump only alone | jumpRelative only alone _ | binary only alone _ =>
      simp [only, alone, Form.arity]
  | move first second _ _ => simp [first, second, Form.arity]

namespace Source

/-- There is one operand on a line, and a comma stands in front of it. -/
def HasHiddenOperand (line : List Char) : Prop :=
  (operands line).length = 1 ∧ ((arguments line).dropWhile isBlank).head? = some ','

theorem operands_eq_nil {line : List Char} (blank : (arguments line).dropWhile isBlank = []) :
    operands line = [] := by
  refine words_eq_nil_iff.2 fun char mem => ?_
  simp [isOperandChar, List.dropWhile_eq_nil_iff.1 blank char mem]

end Source

/-- A line that asks for an operation has as many operands as its mnemonic takes, or the mnemonic
takes none and there is a hidden one. -/
theorem Asks.operands_length {line : List Char} {operation : Operation}
    (asks : Asks line operation) :
    ∃ opcode, Opcode.ofText? (upper (Source.mnemonic line)) = some opcode ∧
      ((Source.operands line).length = opcode.arity ∨
        opcode.arity = 0 ∧ Source.HasHiddenOperand line) := by
  obtain ⟨opcode, known, statement, takes, operands, comma⟩ := asks.takes
  have count := congrArg List.length operands
  rw [List.length_map] at count
  refine ⟨opcode, known, ?_⟩
  rcases takes.length_eq with fits | ⟨none_taken, bare, second⟩
  · exact .inl (count.trans fits)
  · obtain ⟨token, found⟩ := Option.isSome_iff_exists.1 second
    have one : (Source.operands line).length = 1 := by simpa [bare, found] using count
    refine .inr ⟨none_taken, one, ?_⟩
    cases rest : (Source.arguments line).dropWhile isBlank with
    | nil => simp [Source.operands_eq_nil rest] at one
    | cons char others =>
        rw [rest] at comma
        rw [List.head?_cons, comma bare char rfl]

/-- When a source compiles, every instruction comes from an instruction part, and on every line with
an instruction part there are as many operands as the mnemonic takes; only a mnemonic without
operands may be followed by a comma and one operand. -/
theorem compile_operands {capacity limits : Extent} {source : List (List Char)} {program : Program}
    (compiled : (compile capacity limits source).outcome = .ok program) :
    (∀ placed ∈ program.code,
        ∃ line, source[placed.line]? = some line ∧ Source.HasStatement line) ∧
      ∀ line ∈ source, Source.HasStatement line →
        ∃ opcode, Opcode.ofText? (upper (Source.mnemonic line)) = some opcode ∧
          ((Source.operands line).length = opcode.arity ∨
            opcode.arity = 0 ∧ Source.HasHiddenOperand line) := by
  have describes := compile_describes compiled
  constructor
  · intro placed mem
    obtain ⟨line, here, has, -⟩ := describes.stands mem
    exact ⟨line, here, has⟩
  · intro line mem has
    obtain ⟨instruction, operation, asks, -⟩ := describes.exists_stands mem has
    exact asks.operands_length

/-- A move with its two operands and an idle instruction with a hidden one. -/
theorem move_nop_operands :
    (compile ⟨64, 64⟩ .standard ["MOV up, ACC".toList, "nop , 1".toList]).outcome =
        .ok ⟨[⟨.move (.target (.port .up)) .acc, 0⟩, ⟨.idle, 1⟩], []⟩ ∧
      ∀ line ∈ ["MOV up, ACC".toList, "nop , 1".toList], Source.HasStatement line →
        ∃ opcode, Opcode.ofText? (upper (Source.mnemonic line)) = some opcode ∧
          ((Source.operands line).length = opcode.arity ∨
            opcode.arity = 0 ∧ Source.HasHiddenOperand line) := by
  have compiled : (compile ⟨64, 64⟩ .standard ["MOV up, ACC".toList, "nop , 1".toList]).outcome =
      .ok ⟨[⟨.move (.target (.port .up)) .acc, 0⟩, ⟨.idle, 1⟩], []⟩ := by decide
  exact ⟨compiled, (compile_operands compiled).2⟩

/-- Hidden operands occur: `NOP` takes none, and the one behind the comma is passed over. -/
theorem nop_hides_operand :
    (compile ⟨64, 64⟩ .standard ["NOP , 1".toList]).outcome = .ok ⟨[⟨.idle, 0⟩], []⟩ ∧
      Opcode.ofText? (upper (Source.mnemonic "NOP , 1".toList)) = some .nop ∧
      Opcode.nop.arity = 0 ∧ Source.operands "NOP , 1".toList = ["1".toList] := by
  decide

end NodeGrid.Assembly
