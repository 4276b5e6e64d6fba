import NodeGrid.Proofs.Wire.Codec
import NodeGrid.Wire.Report

/-!
# Reports are read back

Whoever receives the bytes of a report reads the report that was sent and finds where it ends.
Bytes that end too early are refused.  The numbers of a report must be numbers of 64 bits; there is
no other condition.
-/

namespace NodeGrid

/-- The positions of the error are numbers of 64 bits. -/
structure Assembly.CompileError.Fits (error : CompileError) : Prop where
  line : error.line < 2 ^ 64
  startColumn : error.startColumn < 2 ^ 64
  endColumn : error.endColumn < 2 ^ 64

/-- The line and the program counter of the view are numbers of 64 bits. -/
structure DebugView.Fits (view : DebugView) : Prop where
  currentLine : ∀ line ∈ view.currentLine, line < 2 ^ 64
  pc : view.pc < 2 ^ 64

namespace Wire

open Assembly

/-! ## Every codec is lawful -/

theorem lawful_position : position.Lawful (· < 2 ^ 64) :=
  Codec.lawful_nat 64

theorem lawful_operandIssue : operandIssue.Lawful fun _ => True :=
  (Codec.lawful_oneOf (by decide)).mono fun issue _ => by cases issue <;> decide

theorem lawful_status : status.Lawful fun _ => True :=
  (Codec.lawful_oneOf (by decide)).mono fun kind _ => by cases kind <;> decide

theorem lawful_port : port.Lawful fun _ => True :=
  (Codec.lawful_oneOf (by decide)).mono fun port _ => by cases port <;> decide

/-- What follows the number of a fault decides how much of it is read. -/
theorem decodeFault_append {number : Nat} {bytes : List UInt8} {kind : Fault} {rest : List UInt8}
    (read : decodeFault number bytes = some (kind, rest)) (more : List UInt8) :
    decodeFault number (bytes ++ more) = some (kind, rest ++ more) := by
  unfold decodeFault at read ⊢
  split at read
  case h_5 =>
    obtain ⟨⟨issue, after⟩, found, same⟩ := Option.map_eq_some_iff.1 read
    cases same
    simp only [lawful_operandIssue.decode_append found more, Option.map_some]
  all_goals cases read <;> rfl

theorem lawful_fault : fault.Lawful fun _ => True where
  decode_encode := by
    intro kind _ rest
    have numbered : faultNumber kind < 2 ^ 32 := by cases kind <;> simp [faultNumber]
    simp only [fault, List.append_assoc, Codec.decodeNat_encodeNat numbered]
    cases kind with
    | invalidOperand issue =>
        simp only [faultNumber, decodeFault, lawful_operandIssue.decode_encode issue trivial,
          Option.map_some]
    | _ => rfl
  decode_append := by
    intro bytes kind rest read more
    simp only [fault] at read ⊢
    cases number : Codec.decodeNat 32 bytes with
    | none => simp [number] at read
    | some result =>
        rw [number] at read
        simp only [Codec.decodeNat_append number more, decodeFault_append read more]

theorem lawful_compileError : compileError.Lawful CompileError.Fits :=
  (lawful_fault.pair (lawful_position.pair (lawful_position.pair lawful_position))).via
    (fun _ => rfl) fun _ fits => ⟨trivial, fits.line, fits.startColumn, fits.endColumn⟩

theorem lawful_debugView : debugView.Lawful DebugView.Fits :=
  (lawful_position.option.pair (lawful_position.pair (lawful_status.pair
    (Codec.lawful_word.pair (Codec.lawful_word.pair lawful_port.option))))).via
    (fun _ => rfl) fun _ fits =>
      ⟨fits.currentLine, fits.pc, trivial, trivial, trivial, fun _ _ => trivial⟩

/-! ## No report is misread -/

/-- Compile errors, faults, statuses and debug views are read back from their bytes, whatever
follows; nothing that is cut short can be read, and no report begins another of its type. -/
theorem reports_unambiguous :
    compileError.Unambiguous CompileError.Fits ∧ fault.Unambiguous (fun _ => True) ∧
      status.Unambiguous (fun _ => True) ∧ debugView.Unambiguous DebugView.Fits :=
  ⟨lawful_compileError.unambiguous, lawful_fault.unambiguous, lawful_status.unambiguous,
    lawful_debugView.unambiguous⟩

/-- A view with the largest numbers and both ends of the words. -/
def widestView : DebugView where
  currentLine := some (2 ^ 64 - 1)
  pc := 2 ^ 64 - 1
  status := .waitingWrite
  acc := Int16.minValue
  bak := Int16.maxValue
  last := some .down

theorem widestView_fits : widestView.Fits where
  currentLine := by
    intro line shown
    cases shown
    decide
  pc := by decide

/-- The widest view is read back, and it cannot be read without its last byte. -/
theorem widestView_unambiguous :
    widestView.Fits ∧
      debugView.decode (debugView.encode widestView ++ [7]) = some (widestView, [7]) ∧
        debugView.decode (debugView.encode widestView).dropLast = none := by
  have ⟨_, _, _, views⟩ := reports_unambiguous
  have nonempty : debugView.encode widestView ≠ [] := List.cons_ne_nil _ _
  refine ⟨widestView_fits, views.decode_encode widestView widestView_fits [7],
    views.decode_eq_none widestView widestView_fits _ (List.dropLast_prefix _) fun whole => ?_⟩
  have shorter := congrArg List.length whole
  rw [List.length_dropLast] at shorter
  have long := List.length_pos_iff.2 nonempty
  omega

end Wire

end NodeGrid
