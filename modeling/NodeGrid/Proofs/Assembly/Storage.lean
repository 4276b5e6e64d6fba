import NodeGrid.Proofs.Assembly.Fault
import Mathlib.Data.List.Basic

/-!
# Compiling into containers of fixed size

A node has room for a fixed number of lines, labels and instructions, and for a fixed number of
bytes of each line and each name.  Here compiling goes through these containers, in three passes:
the text of the lines is stored and the first line that is too long is noted; then the lines are
read, where a jump is stored without its target and its label is set aside; and at last the jumps
are pointed to the labels.  Whatever is put into a container may find it full.  No container ever
is, and what is stored is what compiling makes of the source.

An instruction and its line go into two containers.  These are filled alike, so that the two belong
together which stand at the same place.
-/

namespace NodeGrid.Assembly

open Text

/-- The containers that compiling fills. -/
inductive Container where
  | text
  | labelName
  | labels
  | referenceName
  | references
  | lines
  | instructions
  deriving DecidableEq, Repr

/-- Why storing stops: there is an error, or a container is full. -/
inductive Stop where
  | error (error : CompileError)
  | full (container : Container)
  deriving DecidableEq, Repr

/-- Put one more item into a container that has room for this many. -/
def push {α : Type} (container : Container) (room : Nat) (items : List α) (item : α) :
    Except Stop (List α) :=
  if items.length < room then .ok (items ++ [item]) else .error (.full container)

/-- Copy a name into a container that has room for this many bytes. -/
def copyName (container : Container) (room : Nat) (name : List Char) : Except Stop (List Char) :=
  if byteLength name ≤ room then .ok name else .error (.full container)

/-- A label that a jump uses, set aside with the position of the jump. -/
structure Pending where
  position : Nat
  reference : Reference
  deriving DecidableEq, Repr

/-- What is stored of the lines read so far. -/
structure Memory where
  labels : List Label
  lines : List Nat
  instructions : List Instruction
  references : List Pending
  deriving DecidableEq, Repr

namespace Memory

/-- Nothing is stored. -/
def blank : Memory :=
  ⟨[], [], [], []⟩

/-- Store a label for the instruction that comes next. -/
def addLabel (capacity : Extent) (index : Nat) (memory : Memory) :
    Option Token → Except Stop Memory
  | none => .ok memory
  | some label =>
      if memory.labels.any fun known => known.name = label.text then
        .error (.error (.onToken .duplicateLabel index label))
      else do
        let name ← copyName .labelName capacity.columns label.text
        let labels ← push .labels capacity.lines memory.labels ⟨name, memory.instructions.length⟩
        pure { memory with labels }

/-- Store an instruction and its line. -/
def addInstruction (capacity : Extent) (index : Nat) (memory : Memory)
    (instruction : Instruction) : Except Stop Memory := do
  let lines ← push .lines capacity.lines memory.lines index
  let instructions ← push .instructions capacity.lines memory.instructions instruction
  pure { memory with lines, instructions }

/-- Store an operation.  A jump goes to the first instruction for now. -/
def addOperation (capacity : Extent) (index : Nat) (memory : Memory) :
    Operation → Except Stop Memory
  | .instruction instruction => memory.addInstruction capacity index instruction
  | .jump condition label => do
      let name ← copyName .referenceName capacity.columns label.text
      let references ← push .references capacity.lines memory.references
        ⟨memory.instructions.length, name, index, label.start, label.stop⟩
      { memory with references }.addInstruction capacity index (.jump condition 0)

/-- Store what a statement asks for. -/
def addStatement (capacity : Extent) (index : Nat) (memory : Memory) :
    Option Statement → Except Stop Memory
  | none => .ok memory
  | some statement =>
      match statement.operation with
      | .error flaw => .error (.error (.onToken flaw.fault index flaw.token))
      | .ok operation => memory.addOperation capacity index operation

/-- Store what stands on a line. -/
def addLine (capacity : Extent) (index : Nat) (memory : Memory) (text : List Char) :
    Except Stop Memory :=
  match Line.read text with
  | .error label => .error (.error (.onToken .unexpectedToken index label))
  | .ok line => do
      let labelled ← memory.addLabel capacity index line.label
      labelled.addStatement capacity index line.statement

/-- Instructions and lines, put together again. -/
def program (memory : Memory) : Program :=
  ⟨List.zipWith Placed.mk memory.instructions memory.lines, memory.labels⟩

/-- Point the jumps to their labels, one after the other. -/
def finish (memory : Memory) : Except CompileError Program :=
  memory.references.foldlM
    (fun program pending => program.redirect pending.position pending.reference) memory.program

end Memory

/-- Store the text of lines behind some others, and note the first line that is too long. -/
def storeText (capacity bounds : Extent) (kept : List (List Char)) (overlong : Option Nat) :
    List (List Char) → Except Stop (List (List Char) × Option Nat)
  | [] => .ok (kept, overlong)
  | line :: rest =>
      if bounds.lines ≤ kept.length then
        .error (.error (.onLine .tooManyLines (bounds.lines - 1) 0 0))
      else do
        let longer ← push .text capacity.lines kept (keptText capacity line)
        let here := if isOverlong capacity bounds line then some kept.length else none
        storeText capacity bounds longer (overlong.or here) rest

/-- Store what stands on lines, the first of which has this index. -/
def storeLines (capacity bounds : Extent) (overlong : Option Nat) (index : Nat)
    (memory : Memory) : List (List Char) → Except Stop Memory
  | [] => .ok memory
  | text :: rest =>
      if overlong = some index then
        .error (.error (.onLine .lineTooLong index bounds.columns bounds.columns))
      else do
        let longer ← memory.addLine capacity index text
        storeLines capacity bounds overlong (index + 1) longer rest

/-- Compile by way of the containers, unless one of them is full. -/
def store (capacity limits : Extent) (source : List (List Char)) : Except Container Compilation :=
  let bounds := limits.within capacity
  match storeText capacity bounds [] none source with
  | .error (.full container) => .error container
  | .error (.error error) => .ok ⟨[], .error error⟩
  | .ok (kept, overlong) =>
      match storeLines capacity bounds overlong 0 .blank kept with
      | .error (.full container) => .error container
      | .error (.error error) => .ok ⟨kept, .error error⟩
      | .ok memory => .ok ⟨kept, memory.finish⟩

/-! ## Containers with room -/

theorem push_of_lt {α : Type} {container : Container} {room : Nat} {items : List α}
    (fits : items.length < room) (item : α) :
    push container room items item = .ok (items ++ [item]) :=
  if_pos fits

theorem push_eq_ok_iff {α : Type} {container : Container} {room : Nat} {items longer : List α}
    {item : α} : push container room items item = .ok longer ↔
      items.length < room ∧ items ++ [item] = longer := by
  unfold push
  split
  next fits => simp [fits]
  next full => simp [full]

theorem copyName_of_le {container : Container} {room : Nat} {name : List Char}
    (fits : byteLength name ≤ room) : copyName container room name = .ok name :=
  if_pos fits

/-- An instruction is stored with its line, when there is room for both. -/
theorem Memory.addInstruction_of_lt {capacity : Extent} {index : Nat} {memory : Memory}
    (lines : memory.lines.length < capacity.lines)
    (instructions : memory.instructions.length < capacity.lines) (instruction : Instruction) :
    memory.addInstruction capacity index instruction =
      .ok { memory with
        lines := memory.lines ++ [index]
        instructions := memory.instructions ++ [instruction] } :=
  bind_eq_ok_iff.2 ⟨_, push_of_lt lines index,
    bind_eq_ok_iff.2 ⟨_, push_of_lt instructions instruction, rfl⟩⟩

/-- A token is not longer than the line that it stands in. -/
theorem Token.StandsIn.byteLength_le {token : Token} {text : List Char}
    (stands : token.StandsIn (stripComment text)) : byteLength token.text ≤ byteLength text := by
  obtain ⟨⟨before, after, whole, -⟩, -⟩ := stands
  obtain ⟨comment, split⟩ := List.takeWhile_prefix (l := text) (· ≠ '#')
  rw [← split, byteLength_append]
  change stripComment text = _ at whole
  change _ ≤ byteLength (stripComment text) + _
  rw [whole, byteLength_append, byteLength_append]
  omega

/-! ## The text -/

section Text

variable {capacity bounds : Extent} {kept rest : List (List Char)}

/-- As long as there are not too many lines, all text is stored, and the first line that is too long
is noted. -/
theorem storeText_of_le (within : bounds.lines ≤ capacity.lines)
    (few : kept.length + rest.length ≤ bounds.lines) (overlong : Option Nat) :
    storeText capacity bounds kept overlong rest =
      .ok (kept ++ rest.map (keptText capacity),
        overlong.or ((rest.findIdx? (isOverlong capacity bounds)).map (· + kept.length))) := by
  induction rest generalizing kept overlong with
  | nil => simp [storeText]
  | cons line rest ih =>
      rw [List.length_cons] at few
      have room : ¬bounds.lines ≤ kept.length := by omega
      rw [storeText, if_neg room, push_of_lt (by omega)]
      have others : (kept ++ [keptText capacity line]).length + rest.length ≤ bounds.lines := by
        rw [List.length_append, List.length_singleton]
        omega
      refine (ih others _).trans ?_
      rw [List.append_assoc, List.findIdx?_cons, Option.or_assoc]
      cases isOverlong capacity bounds line with
      | true => simp
      | false => simp [Function.comp_def, Nat.add_right_comm, Nat.add_assoc]

/-- When there are too many lines, this is noticed, and nothing is full before. -/
theorem storeText_of_lt (within : bounds.lines ≤ capacity.lines)
    (before : kept.length ≤ bounds.lines) (many : bounds.lines < kept.length + rest.length)
    (overlong : Option Nat) :
    storeText capacity bounds kept overlong rest =
      .error (.error (.onLine .tooManyLines (bounds.lines - 1) 0 0)) := by
  induction rest generalizing kept overlong with
  | nil => exact absurd many (not_lt.2 before)
  | cons line rest ih =>
      rw [List.length_cons] at many
      by_cases last : bounds.lines ≤ kept.length
      · rw [storeText, if_pos last]
      · rw [storeText, if_neg last, push_of_lt (by omega)]
        apply ih
        · rw [List.length_append, List.length_singleton]
          omega
        · rw [List.length_append, List.length_singleton]
          omega

end Text

/-! ## The lines -/

/-- The instruction that is stored for an operation before the labels are known. -/
def Operation.stored : Operation → Instruction
  | instruction made => made
  | jump condition _ => .jump condition 0

/-- The label that is set aside for an operation at this position. -/
def PlacedOperation.pending? (placed : PlacedOperation) (position : Nat) : Option Pending :=
  match placed.operation with
  | .instruction _ => none
  | .jump _ label => some ⟨position, label.text, placed.line, label.start, label.stop⟩

/-- The labels that are set aside for operations, the first of which has this position. -/
def pendingFrom (position : Nat) (code : List PlacedOperation) : List Pending :=
  (code.zipIdx position).filterMap fun placed => placed.1.pending? placed.2

/-- What is stored for a draft. -/
def Draft.stored (draft : Draft) : Memory where
  labels := draft.labels
  lines := draft.code.map (·.line)
  instructions := draft.code.map (·.operation.stored)
  references := pendingFrom 0 draft.code

/-- A draft and what is stored for it come to the same end; a flaw becomes an error of the line. -/
def storedResult (index : Nat) : Except Flaw Draft → Except Stop Memory
  | .error flaw => .error (.error (.onToken flaw.fault index flaw.token))
  | .ok draft => .ok draft.stored

theorem length_pendingFrom_le (position : Nat) (code : List PlacedOperation) :
    (pendingFrom position code).length ≤ code.length := by
  calc (pendingFrom position code).length
      ≤ (code.zipIdx position).length := List.length_filterMap_le _ _
    _ = code.length := List.length_zipIdx

theorem pendingFrom_concat (code : List PlacedOperation) (placed : PlacedOperation) :
    pendingFrom 0 (code ++ [placed]) =
      pendingFrom 0 code ++ (placed.pending? code.length).toList := by
  cases found : placed.pending? code.length <;>
    simp [pendingFrom, List.zipIdx_append, List.filterMap_append, found]

namespace Draft

variable {capacity : Extent} {draft : Draft} {index : Nat}

@[simp] theorem stored_labels (draft : Draft) : draft.stored.labels = draft.labels := rfl

@[simp] theorem length_stored_lines (draft : Draft) :
    draft.stored.lines.length = draft.code.length :=
  List.length_map _

@[simp] theorem length_stored_instructions (draft : Draft) :
    draft.stored.instructions.length = draft.code.length :=
  List.length_map _

/-- A label is stored as it is entered, when there is room for it. -/
theorem stored_addLabel (room : draft.labels.length < capacity.lines) {label : Option Token}
    (short : ∀ token ∈ label, byteLength token.text ≤ capacity.columns) :
    draft.stored.addLabel capacity index label = storedResult index (draft.addLabel label) := by
  cases label with
  | none => rfl
  | some token =>
      have labels := draft.stored_labels
      by_cases known : draft.labels.any fun label => label.name = token.text
      · rw [Memory.addLabel, labels, Draft.addLabel, if_pos known, if_pos known]
        rfl
      · rw [Memory.addLabel, labels, Draft.addLabel, if_neg known, if_neg known]
        refine bind_eq_ok_iff.2 ⟨_, copyName_of_le (short token rfl),
          bind_eq_ok_iff.2 ⟨_, push_of_lt room _, ?_⟩⟩
        rw [length_stored_instructions]
        rfl

/-- An operation is stored as it is entered, when there is room for it. -/
theorem stored_addOperation (room : draft.code.length < capacity.lines) {operation : Operation}
    (short : ∀ condition label, operation = .jump condition label →
      byteLength label.text ≤ capacity.columns) :
    draft.stored.addOperation capacity index operation =
      .ok (Draft.stored { draft with code := draft.code ++ [⟨operation, index⟩] }) := by
  have lines : draft.stored.lines.length < capacity.lines := by
    rwa [length_stored_lines]
  have instructions : draft.stored.instructions.length < capacity.lines := by
    rwa [length_stored_instructions]
  cases operation with
  | instruction instruction =>
      rw [Memory.addOperation, Memory.addInstruction_of_lt lines instructions]
      simp [Draft.stored, Operation.stored, pendingFrom_concat, PlacedOperation.pending?]
  | jump condition label =>
      have references : draft.stored.references.length < capacity.lines :=
        (length_pendingFrom_le 0 draft.code).trans_lt room
      refine bind_eq_ok_iff.2 ⟨_, copyName_of_le (short condition label rfl),
        bind_eq_ok_iff.2 ⟨_, push_of_lt references _, ?_⟩⟩
      apply (Memory.addInstruction_of_lt _ _ _).trans
      · simp [Draft.stored, Operation.stored, pendingFrom_concat, PlacedOperation.pending?]
      · exact lines
      · exact instructions

/-- What a statement asks for is stored as it is entered, when there is room for it. -/
theorem stored_addStatement (room : draft.code.length < capacity.lines)
    {statement : Option Statement}
    (short : ∀ found ∈ statement, ∀ label ∈ found.first,
      byteLength label.text ≤ capacity.columns) :
    draft.stored.addStatement capacity index statement =
      storedResult index (draft.addStatement index statement) := by
  cases statement with
  | none => rfl
  | some found =>
      cases asked : found.operation with
      | error flaw =>
          rw [Memory.addStatement, Draft.addStatement, asked]
          rfl
      | ok operation =>
          rw [Memory.addStatement, Draft.addStatement, asked]
          apply stored_addOperation room
          rintro condition label rfl
          obtain ⟨_, -, -, first⟩ := Statement.first_eq_of_jump asked
          exact short found rfl label first

/-- What stands on a line is stored as it is read, when there is room for one more label and one
more instruction. -/
theorem stored_addLine (labels : draft.labels.length < capacity.lines)
    (code : draft.code.length < capacity.lines) {text : List Char}
    (fits : byteLength text ≤ capacity.columns) :
    draft.stored.addLine capacity index text = storedResult index (draft.addLine index text) := by
  cases read : Line.read text with
  | error label =>
      rw [Memory.addLine, Draft.addLine, read]
      rfl
  | ok parts =>
      have stands := Line.standsIn_of_read read
      have label_stored :
          draft.stored.addLabel capacity index parts.label =
            storedResult index (draft.addLabel parts.label) :=
        stored_addLabel labels fun token there =>
          ((stands.1 token there).2.byteLength_le).trans fits
      rw [Memory.addLine, Draft.addLine, read]
      dsimp only
      rw [label_stored]
      cases named : draft.addLabel parts.label with
      | error flaw => rfl
      | ok labelled =>
          have same : labelled.code = draft.code := by
            obtain ⟨-, rfl⟩ := addLabel_eq_ok_iff.1 named
            rfl
          apply labelled.stored_addStatement (same ▸ code)
          intro statement found token first
          exact ((stands.2 statement found 1 token first).byteLength_le).trans fits

/-- A line adds at most one label and one operation. -/
theorem length_le_of_addLine {text : List Char} {extended : Draft}
    (added : draft.addLine index text = .ok extended) :
    extended.labels.length ≤ draft.labels.length + 1 ∧
      extended.code.length ≤ draft.code.length + 1 := by
  obtain ⟨parts, labelled, -, named, entered⟩ := addLine_eq_ok_iff.1 added
  obtain ⟨-, rfl⟩ := addLabel_eq_ok_iff.1 named
  cases statement : parts.statement with
  | none =>
      rw [statement] at entered
      obtain rfl := addStatement_eq_ok_iff.1 entered
      simp
  | some found =>
      rw [statement] at entered
      obtain ⟨operation, -, rfl⟩ := addStatement_eq_ok_iff.1 entered
      simp

end Draft

/-- Lines are stored as they are read.  There is room for the label and the instruction of every
line, since there are not more of either than lines before it. -/
theorem storeLines_stored {capacity : Extent} (bounds : Extent) (draft : Draft) {index : Nat}
    {rest : List (List Char)} (labels : draft.labels.length ≤ index)
    (code : draft.code.length ≤ index) (room : index + rest.length ≤ capacity.lines) :
    storeLines capacity bounds ((rest.findIdx? (isOverlong capacity bounds)).map (· + index)) index
        draft.stored (rest.map (keptText capacity)) =
      match readLines capacity bounds index draft rest with
      | .error error => .error (.error error)
      | .ok final => .ok final.stored := by
  induction rest generalizing draft index with
  | nil => rfl
  | cons line rest ih =>
      rw [List.length_cons] at room
      rw [List.map_cons, readLines, List.findIdx?_cons, storeLines]
      cases long : isOverlong capacity bounds line with
      | true => simp
      | false =>
          -- The first line that is too long, if there is one, comes later.
          have later : ((rest.findIdx? (isOverlong capacity bounds)).map (· + 1)).map (· + index) =
              (rest.findIdx? (isOverlong capacity bounds)).map (· + (index + 1)) := by
            simp [Function.comp_def, Nat.add_assoc, Nat.add_comm 1]
          have other : (rest.findIdx? (isOverlong capacity bounds)).map (· + (index + 1)) ≠
              some index := by
            intro here
            obtain ⟨place, -, same⟩ := Option.map_eq_some_iff.1 here
            omega
          have fits : byteLength (keptText capacity line) ≤ capacity.columns := by
            rw [keptText_eq_upper long, ← not_lt]
            intro loses
            rw [isOverlong_iff.2 (.inr loses)] at long
            cases long
          rw [if_neg Bool.false_ne_true, later, if_neg other, if_neg Bool.false_ne_true,
            Draft.stored_addLine (by omega) (by omega) fits]
          cases added : draft.addLine index (keptText capacity line) with
          | error flaw => rfl
          | ok extended =>
              obtain ⟨more_labels, more_code⟩ := Draft.length_le_of_addLine added
              exact ih extended (by omega) (by omega) (by omega)

/-! ## The labels -/

/-- An operation as it is stored, with its line. -/
def PlacedOperation.stored (placed : PlacedOperation) : Placed :=
  ⟨placed.operation.stored, placed.line⟩

theorem Draft.program_stored (draft : Draft) :
    draft.stored.program = ⟨draft.code.map (·.stored), draft.labels⟩ := by
  rw [Memory.program, Draft.stored, List.zipWith_map, List.zipWith_self]
  rfl

/-- Pointing the jump at a position changes the instruction there and no other. -/
theorem Program.pointJump_append {done rest : List Placed} {labels : List Label}
    {condition : Condition} {old index line : Nat} :
    Program.pointJump ⟨done ++ ⟨.jump condition old, line⟩ :: rest, labels⟩ done.length index =
      ⟨done ++ ⟨.jump condition index, line⟩ :: rest, labels⟩ := by
  have inside : done.length < (done ++ ⟨.jump condition old, line⟩ :: rest).length := by simp
  rw [pointJump, List.modify_eq_take_cons_drop inside]
  simp

/-- Redirecting the jump at a position changes the instruction there and no other. -/
theorem Program.redirect_append {done rest : List Placed} {labels : List Label}
    {condition : Condition} {label : Token} {line : Nat} (reference : Reference) :
    Program.redirect ⟨done ++ PlacedOperation.stored ⟨.jump condition label, line⟩ :: rest, labels⟩
        done.length reference =
      (reference.resolve labels).map fun index =>
        ⟨done ++ ⟨.jump condition index, line⟩ :: rest, labels⟩ :=
  congrArg (Except.map · (reference.resolve labels)) (funext fun _ => pointJump_append)

theorem map_mapM_cons {α β γ ε : Type} {f : α → Except ε β} {x : α} {y : β} (made : f x = .ok y)
    (xs : List α) (build : List β → γ) :
    ((x :: xs).mapM f).map build = (xs.mapM f).map fun ys => build (y :: ys) := by
  rw [List.mapM_cons, made]
  cases xs.mapM f <;> rfl

/-- Pointing the jumps one after the other, and stopping at the first label that is not known, comes
to the same as placing all operations. -/
theorem foldlM_redirect (labels : List Label) (done : List Placed)
    (rest : List PlacedOperation) :
    (pendingFrom done.length rest).foldlM
        (fun program pending => program.redirect pending.position pending.reference)
        (⟨done ++ rest.map (·.stored), labels⟩ : Program) =
      (rest.mapM (PlacedOperation.place labels)).map fun code => ⟨done ++ code, labels⟩ := by
  induction rest generalizing done with
  | nil => rfl
  | cons placed rest ih =>
      obtain ⟨operation, line⟩ := placed
      cases operation with
      | instruction made =>
          have placed : PlacedOperation.place labels ⟨.instruction made, line⟩ =
              .ok ⟨made, line⟩ := rfl
          have next := ih (done ++ [⟨made, line⟩])
          rw [List.length_append, List.length_singleton] at next
          simp only [List.append_assoc, List.singleton_append] at next
          rw [map_mapM_cons placed]
          exact next
      | jump condition label =>
          let reference : Reference := ⟨label.text, line, label.start, label.stop⟩
          have first : pendingFrom done.length (⟨.jump condition label, line⟩ :: rest) =
              ⟨done.length, reference⟩ :: pendingFrom (done.length + 1) rest := rfl
          rw [first, List.foldlM_cons, List.map_cons]
          have place : PlacedOperation.place labels ⟨.jump condition label, line⟩ =
              (reference.resolve labels).map fun index => ⟨.jump condition index, line⟩ := rfl
          cases resolved : reference.resolve labels with
          | error error =>
              rw [resolved] at place
              rw [List.mapM_cons, place, Program.redirect_append, resolved]
              rfl
          | ok index =>
              rw [resolved] at place
              have next := ih (done ++ [⟨.jump condition index, line⟩])
              rw [List.length_append, List.length_singleton] at next
              simp only [List.append_assoc, List.singleton_append] at next
              rw [map_mapM_cons place, ← next, Program.redirect_append, resolved]
              rfl

/-- The labels of what is stored are looked up as those of the draft. -/
theorem Draft.finish_stored (draft : Draft) : draft.stored.finish = draft.finish := by
  rw [Memory.finish, draft.program_stored]
  apply (foldlM_redirect draft.labels [] draft.code).trans
  rw [Draft.finish]
  cases draft.code.mapM (PlacedOperation.place draft.labels) <;> rfl

/-- No container is ever full, and what is stored is what compiling makes of the source. -/
theorem store_eq_compile (capacity limits : Extent) (source : List (List Char)) :
    store capacity limits source = .ok (compile capacity limits source) := by
  have within : (limits.within capacity).lines ≤ capacity.lines := min_le_right _ _
  unfold store compile
  dsimp only
  by_cases many : (limits.within capacity).lines < source.length
  · rw [if_pos many, storeText_of_lt within (Nat.zero_le _) (by simpa using many)]
  · have few : source.length ≤ (limits.within capacity).lines := not_lt.1 many
    rw [if_neg many, storeText_of_le within (by simpa using few), List.nil_append, Option.none_or]
    dsimp only
    have room : 0 + source.length ≤ capacity.lines := by omega
    have start : ([] : List Label).length ≤ 0 ∧ ([] : List PlacedOperation).length ≤ 0 :=
      ⟨le_rfl, le_rfl⟩
    have stored := storeLines_stored (limits.within capacity) ⟨[], []⟩ start.1 start.2 room
    have blank : Draft.stored ⟨[], []⟩ = .blank := rfl
    rw [blank] at stored
    rw [List.length_nil, stored]
    cases readLines capacity (limits.within capacity) 0 ⟨[], []⟩ source with
    | error error => rfl
    | ok draft =>
        dsimp only
        rw [draft.finish_stored]
        rfl

/-! ## Lines and instructions -/

namespace Memory

/-- There are as many lines as instructions, though they are stored apart. -/
def Level (memory : Memory) : Prop :=
  memory.lines.length = memory.instructions.length

namespace Level

variable {capacity : Extent} {index : Nat} {memory longer : Memory} (level : memory.Level)
include level

theorem addLabel {label : Option Token}
    (added : memory.addLabel capacity index label = .ok longer) : longer.Level := by
  cases label with
  | none =>
      cases added
      exact level
  | some token =>
      unfold Memory.addLabel at added
      dsimp only at added
      split at added
      next => cases added
      next =>
        obtain ⟨name, -, entered⟩ := bind_eq_ok_iff.1 added
        obtain ⟨labels, -, same⟩ := bind_eq_ok_iff.1 entered
        cases same
        exact level

/-- An instruction and its line are stored together, or storing stops. -/
theorem addInstruction {instruction : Instruction}
    (added : memory.addInstruction capacity index instruction = .ok longer) : longer.Level := by
  obtain ⟨lines, pushed, rest⟩ := bind_eq_ok_iff.1 added
  obtain ⟨instructions, pushed', same⟩ := bind_eq_ok_iff.1 rest
  cases same
  obtain ⟨-, rfl⟩ := push_eq_ok_iff.1 pushed
  obtain ⟨-, rfl⟩ := push_eq_ok_iff.1 pushed'
  rw [Level, List.length_append, List.length_append, level]
  rfl

theorem addOperation {operation : Operation}
    (added : memory.addOperation capacity index operation = .ok longer) : longer.Level := by
  cases operation with
  | instruction instruction => exact level.addInstruction added
  | jump condition label =>
      obtain ⟨name, -, rest⟩ := bind_eq_ok_iff.1 added
      obtain ⟨references, -, stored⟩ := bind_eq_ok_iff.1 rest
      have still : Level { memory with references } := level
      exact still.addInstruction stored

theorem addLine {text : List Char} (added : memory.addLine capacity index text = .ok longer) :
    longer.Level := by
  unfold Memory.addLine at added
  split at added
  next => cases added
  next line read =>
    obtain ⟨labelled, named, entered⟩ := bind_eq_ok_iff.1 added
    have still := level.addLabel named
    cases statement : line.statement with
    | none =>
        rw [statement] at entered
        cases entered
        exact still
    | some found =>
        rw [statement] at entered
        cases asked : found.operation with
        | error flaw => simp [addStatement, asked] at entered
        | ok operation =>
            simp only [addStatement, asked] at entered
            exact still.addOperation entered

/-- Whatever lines are stored, and wherever storing begins, no line is stored without its
instruction and no instruction without its line. -/
theorem storeLines {bounds : Extent} {overlong : Option Nat} {rest : List (List Char)}
    (stored : Assembly.storeLines capacity bounds overlong index memory rest = .ok longer) :
    longer.Level := by
  induction rest generalizing index memory with
  | nil =>
      cases stored
      exact level
  | cons text rest ih =>
      unfold Assembly.storeLines at stored
      split at stored
      next => cases stored
      next =>
        obtain ⟨further, added, others⟩ := bind_eq_ok_iff.1 stored
        exact ih (level.addLine added) others

/-- Putting lines and instructions together leaves out none of them. -/
theorem program : memory.program.lines = memory.lines ∧
    memory.program.instructions = memory.instructions := by
  have zipped : memory.program.code =
      (List.zip memory.instructions memory.lines).map (Function.uncurry Placed.mk) :=
    List.map_uncurry_zip_eq_zipWith.symm
  rw [Program.lines, Program.instructions, zipped, List.map_map, List.map_map]
  exact ⟨List.map_snd_zip level.le, List.map_fst_zip level.ge⟩

end Level

end Memory

/-! ## Lines of the program -/

theorem Program.lines_pointJump (program : Program) (position index : Nat) :
    (program.pointJump position index).lines = program.lines := by
  refine List.ext_getElem? fun place => ?_
  simp only [lines, pointJump, List.getElem?_map, List.getElem?_modify, Option.map_eq_map,
    Option.map_map]
  refine Option.map_congr fun placed _ => ?_
  dsimp only [Function.comp_apply]
  split
  next =>
    split
    next => rfl
    next => rfl
  next => rfl

/-- Pointing jumps to their labels leaves all lines as they are. -/
theorem Program.lines_foldlM_redirect {references : List Pending} {program final : Program}
    (redirected : references.foldlM
      (fun program pending => program.redirect pending.position pending.reference) program =
        .ok final) : final.lines = program.lines := by
  induction references generalizing program with
  | nil =>
      cases redirected
      rfl
  | cons pending rest ih =>
      rw [List.foldlM_cons] at redirected
      obtain ⟨next, pointed, others⟩ := bind_eq_ok_iff.1 redirected
      rw [ih others]
      unfold redirect at pointed
      cases resolved : pending.reference.resolve program.labels with
      | error error => simp [resolved, Except.map] at pointed
      | ok index =>
          rw [resolved] at pointed
          cases pointed
          exact program.lines_pointJump _ index

/-- All lines of a source have been stored, and the containers hold this. -/
def Stores (capacity limits : Extent) (source : List (List Char)) (memory : Memory) : Prop :=
  ∃ kept overlong,
    storeText capacity (limits.within capacity) [] none source = .ok (kept, overlong) ∧
      storeLines capacity (limits.within capacity) overlong 0 .blank kept = .ok memory

/-- When a source compiles, the program has the lines that have been stored, and there is one of
them for each instruction. -/
theorem exists_stores_of_compile {capacity limits : Extent} {source : List (List Char)}
    {program : Program} (compiled : (compile capacity limits source).outcome = .ok program) :
    ∃ memory, Stores capacity limits source memory ∧ memory.finish = .ok program ∧
      program.lines = memory.lines ∧ memory.lines.length = memory.instructions.length := by
  have whole := store_eq_compile capacity limits source
  rw [store] at whole
  cases text : storeText capacity (limits.within capacity) [] none source with
  | error stop =>
      cases stop with
      | full container => simp [text] at whole
      | error error =>
          simp only [text, Except.ok.injEq] at whole
          simp [← whole] at compiled
  | ok read =>
      obtain ⟨kept, overlong⟩ := read
      simp only [text] at whole
      cases stored : storeLines capacity (limits.within capacity) overlong 0 .blank kept with
      | error stop =>
          cases stop with
          | full container => simp [stored] at whole
          | error error =>
              simp only [stored, Except.ok.injEq] at whole
              simp [← whole] at compiled
      | ok memory =>
          simp only [stored, Except.ok.injEq] at whole
          rw [← whole] at compiled
          have blank : Memory.blank.Level := rfl
          have level : memory.Level := blank.storeLines stored
          have lines := Program.lines_foldlM_redirect compiled
          exact ⟨memory, ⟨kept, overlong, text, stored⟩, compiled,
            lines.trans level.program.1, level⟩

end NodeGrid.Assembly
