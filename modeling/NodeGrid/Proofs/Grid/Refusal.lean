import NodeGrid.Proofs.Grid.Effect

/-!
# Commands that are refused

Every command checks all its conditions before it changes anything, so a refusal leaves the grid
alone.  Compiling is the exception: whether a text is a program is found out when the old program is
gone already.
-/

namespace NodeGrid

open Assembly

/-! ## What the checks answer -/

/-- An answer that is no error of the compiler. -/
def Checked {α : Type} (answer : Except GridError α) : Prop :=
  ∀ fault, answer ≠ .error (.compile fault)

namespace Checked

variable {α β : Type}

theorem pure (value : α) : Checked (Pure.pure value) :=
  nofun

theorem throw {error : GridError} (other : ∀ fault, error ≠ .compile fault) :
    Checked (MonadExcept.throw error : Except GridError α) :=
  fun fault same => other fault (Except.error.inj same)

theorem bind {answer : Except GridError α} {next : α → Except GridError β}
    (first : Checked answer) (rest : ∀ value, Checked (next value)) :
    Checked (answer >>= next) := by
  intro fault same
  cases known : answer with
  | error error =>
      rw [known] at same
      exact first fault (known.trans (congrArg Except.error (Except.error.inj same)))
  | ok value =>
      rw [known] at same
      exact rest value fault same

end Checked

namespace Fabric

/-! No check compiles anything. -/

theorem checked_module (fabric : Fabric) (handle : Handle) : Checked (fabric.module handle) := by
  unfold module
  cases fabric.modules.get? handle with
  | none => exact .throw nofun
  | some member => exact .pure member

theorem checked_node (fabric : Fabric) (handle : Handle) : Checked (fabric.node handle) := by
  refine (fabric.checked_module handle).bind fun member => ?_
  cases member.role with
  | node node => exact .pure node
  | forwarder half => exact .throw nofun

theorem checked_forwarder (fabric : Fabric) (handle : Handle) :
    Checked (fabric.forwarder handle) := by
  refine (fabric.checked_module handle).bind fun member => ?_
  cases member.role with
  | node node => exact .throw nofun
  | forwarder half => exact .pure half

theorem checked_checkPort (fabric : Fabric) (handle : Handle) (port : Port) :
    Checked (fabric.checkPort handle port) := by
  refine (fabric.checked_module handle).bind fun member => ?_
  have free : Checked (if (member.ports.get port).isSome then
      throw (.portInUse handle port) else Pure.pure () : Except GridError Unit) := by
    split
    next => exact .throw nofun
    next => exact .pure ()
  cases node : member.isNode with
  | false =>
      refine Checked.bind (Checked.throw ?_) fun _ => free
      exact nofun
  | true => exact free

theorem checked_checkEnds (fabric : Fabric) (first : Handle) (firstPort : Port) (second : Handle)
    (secondPort : Port) : Checked (fabric.checkEnds first firstPort second secondPort) := by
  refine (fabric.checked_checkPort first firstPort).bind fun _ => ?_
  refine (fabric.checked_checkPort second secondPort).bind fun _ => ?_
  split
  next => exact .throw nofun
  next => exact .pure ()

end Fabric

namespace Grid

/-- A refusal that is not the compiler's leaves the grid alone; the compiler's comes after the node
has been restarted. -/
inductive Refusal (grid : Grid) : Command → GridError → Grid → Prop where
  | unchanged (command : Command) {error : GridError}
      (checked : ∀ fault, error ≠ .compile fault) : Refusal grid command error grid
  | compile {handle : Handle} {node : Node} (role : grid.fabric.role? handle = some (.node node))
      {source : List (List Char)} {fault : CompileError}
      (fails : (Assembly.compile nodeCapacity grid.settings.limits source).outcome =
        .error fault) :
      Refusal grid (.compile handle source) (.compile fault)
        (grid.restartNode handle (node.compile nodeCapacity grid.settings.limits source).2)

theorem Refusal.of_checked {grid : Grid} {α : Type} {check : Except GridError α}
    {error : GridError} (checked : Checked check) (fails : check = .error error)
    (command : Command) :
    grid.Refusal command error grid :=
  .unchanged command fun fault same => checked fault (fails.trans (congrArg _ same))

theorem compile_fst (node : Node) (limits : Extent) (source : List (List Char)) :
    (node.compile nodeCapacity limits source).1 =
      (Assembly.compile nodeCapacity limits source).outcome.map fun _ => () := by
  simp only [Node.compile, Core.compile]
  cases (Assembly.compile nodeCapacity limits source).outcome <;> rfl

theorem refusal_execute {grid : Grid} {command : Command} {error : GridError}
    (refused : (grid.execute command).1 = .error error) :
    grid.Refusal command error (grid.execute command).2 := by
  cases command with
  | start | stop | step => simp [execute] at refused
  | addNode =>
      simp only [execute, addNode] at refused ⊢
      split at refused
      next full =>
        cases refused
        rw [if_pos full]
        exact .unchanged _ (by simp)
      next => simp [Except.map] at refused
  | removeNode handle =>
      simp only [execute, removeNode] at refused ⊢
      cases known : grid.fabric.node handle with
      | error reason =>
          rw [known] at refused
          cases refused
          exact .of_checked (grid.fabric.checked_node handle) known _
      | ok node => simp [known, Except.map] at refused
  | link first firstPort second secondPort =>
      simp only [execute, link] at refused ⊢
      cases passes : grid.fabric.checkEnds first firstPort second secondPort with
      | error reason =>
          rw [passes] at refused
          cases refused
          have checked := grid.fabric.checked_checkEnds first firstPort second secondPort
          exact .of_checked checked passes _
      | ok => simp [passes, Except.map] at refused
  | unlink handle port =>
      simp only [execute, unlink] at refused ⊢
      cases known : grid.fabric.module handle with
      | error reason =>
          rw [known] at refused
          cases refused
          exact .of_checked (grid.fabric.checked_module handle) known _
      | ok member =>
          simp only [known] at refused ⊢
          split at refused
          next free =>
            cases refused
            rw [if_pos free]
            exact .unchanged _ (by simp)
          next => simp [Except.map] at refused
  | join first firstPort second secondPort =>
      simp only [execute, join] at refused ⊢
      cases passes : grid.fabric.checkEnds first firstPort second secondPort with
      | error reason =>
          rw [passes] at refused
          cases refused
          have checked := grid.fabric.checked_checkEnds first firstPort second secondPort
          exact .of_checked checked passes _
      | ok => simp [passes, Except.map] at refused
  | split handle =>
      simp only [execute, split] at refused ⊢
      cases known : grid.fabric.forwarder handle with
      | error reason =>
          rw [known] at refused
          cases refused
          exact .of_checked (grid.fabric.checked_forwarder handle) known _
      | ok half => simp [known, Except.map] at refused
  | compile handle source =>
      simp only [execute, compile] at refused ⊢
      cases known : grid.fabric.node handle with
      | error reason =>
          rw [known] at refused
          cases refused
          exact .of_checked (grid.fabric.checked_node handle) known _
      | ok node =>
          simp only [known, Prod.map_fst, compile_fst] at refused
          cases fails : (Assembly.compile nodeCapacity grid.settings.limits source).outcome with
          | ok program => simp [fails, Except.map, Except.mapError] at refused
          | error fault =>
              rw [fails] at refused
              cases refused
              exact .compile (Fabric.node_eq_ok known) fails
  | setEnabled handle enabled =>
      simp only [execute, setEnabled] at refused ⊢
      cases known : grid.fabric.node handle with
      | error reason =>
          rw [known] at refused
          cases refused
          exact .of_checked (grid.fabric.checked_node handle) known _
      | ok node => simp [known, Except.map] at refused
  | resetNode handle =>
      simp only [execute, resetNode] at refused ⊢
      cases known : grid.fabric.node handle with
      | error reason =>
          rw [known] at refused
          cases refused
          exact .of_checked (grid.fabric.checked_node handle) known _
      | ok node => simp [known, Except.map] at refused

/-- A text that is no program leaves an idle node without a program, which keeps the text. -/
theorem compile_snd_of_error {node : Node} {limits : Extent} {source : List (List Char)}
    {fault : CompileError}
    (fails : (Assembly.compile nodeCapacity limits source).outcome = .error fault) :
    (node.compile nodeCapacity limits source).2 =
      ⟨⟨.empty, (Assembly.compile nodeCapacity limits source).kept, .initial⟩, .idle,
        node.enabled⟩ := by
  simp only [Node.compile, Core.compile, fails]
  cases node.enabled <;> rfl

/-- The grid after a text could not be compiled into a node.  The node has no program and starts
afresh, keeps the text, and the pipes that it writes to are empty.  Nothing else is different. -/
structure Stripped (before : Grid) (handle : Handle) (kept : List (List Char)) (after : Grid) :
    Prop where
  settings : after.settings = before.settings
  power : after.power = before.power
  ticks : after.ticks = before.ticks
  node : ∃ node, before.fabric.node handle = .ok node ∧
    after.fabric.node handle = .ok ⟨⟨.empty, kept, .initial⟩, .idle, node.enabled⟩
  links : ∀ port, after.fabric.link? handle port = before.fabric.link? handle port
  others : ∀ other, other ≠ handle →
    after.fabric.modules.get? other = before.fabric.modules.get? other
  free : after.fabric.modules.free = before.fabric.modules.free
  size : after.fabric.modules.size = before.fabric.modules.size
  generations : ∀ index,
    after.fabric.modules.generation? index = before.fabric.modules.generation? index
  alike : PipeTable.Alike before.fabric.pipes after.fabric.pipes
  pipes : ∀ id, after.fabric.pipes.get? id = (before.fabric.pipes.get? id).map fun entry =>
    if entry.writer = handle then { entry with pipe := .empty } else entry

/-- Emptying the pipes of a module's links empties just the pipes that the module writes to. -/
theorem get?_resetAll_of_wired {fabric : Fabric} (wired : fabric.Wired) {handle : Handle}
    {member : Module} (found : fabric.modules.get? handle = some member) (id : PipeId) :
    (fabric.pipes.resetAll member.ports.links).get? id = (fabric.pipes.get? id).map fun entry =>
      if entry.writer = handle then { entry with pipe := .empty } else entry := by
  rw [PipeTable.get?_resetAll]
  cases opened : fabric.pipes.get? id with
  | none => simp
  | some entry =>
      have owned : id ∈ member.ports.links.map (·.send) ↔ entry.writer = handle := by
        constructor
        · intro listed
          obtain ⟨link, placed, rfl⟩ := List.mem_map.1 listed
          obtain ⟨port, here⟩ := Ports.mem_links.1 placed
          exact wired.writer_eq (Fabric.link?_eq_some_iff.2 ⟨member, found, here⟩) opened
        · rintro rfl
          obtain ⟨port, link, linked, rfl⟩ := wired.exists_send opened
          obtain ⟨known, found', here⟩ := Fabric.link?_eq_some_iff.1 linked
          cases found.symm.trans found'
          exact List.mem_map.2 ⟨link, Ports.mem_links.2 ⟨port, here⟩, rfl⟩
      by_cases own : entry.writer = handle
      · rw [if_pos (owned.2 own), Option.map_some, Option.map_some, if_pos own]
      · rw [if_neg (mt owned.1 own), Option.map_some, if_neg own]

theorem stripped_restartNode {grid : Grid} (wired : grid.fabric.Wired) {handle : Handle}
    {node : Node} (role : grid.fabric.role? handle = some (.node node))
    (kept : List (List Char)) :
    grid.Stripped handle kept
      (grid.restartNode handle ⟨⟨.empty, kept, .initial⟩, .idle, node.enabled⟩) := by
  obtain ⟨ports, found⟩ := Fabric.role?_eq_some_iff.1 role
  have role_after : (grid.restartNode handle
      ⟨⟨.empty, kept, .initial⟩, .idle, node.enabled⟩).fabric.role? handle =
        some (.node ⟨⟨.empty, kept, .initial⟩, .idle, node.enabled⟩) := by
    rw [restartNode, Fabric.role?_setRole, if_pos rfl]
    exact congrArg (Option.map _) role
  constructor
  case settings | power | ticks | free | size => rfl
  case node => exact ⟨node, Fabric.node_eq_ok_iff.2 role, Fabric.node_eq_ok_iff.2 role_after⟩
  case links => exact fun port => Fabric.link?_setRole _ _ _ _ _
  case others =>
    intro other different
    rw [restartNode, Fabric.setRole, Arena.get?_modify, if_neg different]
  case generations => exact fun index => Arena.generation?_modify _ _ _ _
  case alike => exact .resetAll _ _
  case pipes =>
    simp only [restartNode, found, Option.elim_some]
    exact get?_resetAll_of_wired wired found

/-- A command that is refused leaves the grid as it was, unless it is the compiler that refuses a
text.  Then the node loses its program and what it was about to write, and keeps the text. -/
theorem Reachable.refused_unchanged {grid : Grid} (reachable : grid.Reachable)
    {command : Command} {error : GridError} (refused : (grid.execute command).1 = .error error) :
    ((∀ fault, error ≠ .compile fault) → (grid.execute command).2 = grid) ∧
    ∀ fault, error = .compile fault → ∃ handle source, command = .compile handle source ∧
      (Assembly.compile nodeCapacity grid.settings.limits source).outcome = .error fault ∧
      grid.Stripped handle (Assembly.compile nodeCapacity grid.settings.limits source).kept
        (grid.execute command).2 := by
  have refusal := refusal_execute refused
  generalize (grid.execute command).2 = after at refusal ⊢
  cases refusal with
  | unchanged command checked =>
      exact ⟨fun _ => rfl, fun fault same => absurd same (checked fault)⟩
  | @compile handle node role source fault fails =>
      refine ⟨fun other => absurd rfl (other fault), ?_⟩
      rintro _ ⟨⟩
      refine ⟨handle, source, rfl, fails, ?_⟩
      rw [compile_snd_of_error fails]
      exact stripped_restartNode reachable.sound.lawful.wired role _

/-- A program of one line. -/
def sevenRight : List (List Char) :=
  ["MOV 7 RIGHT".toList]

/-- A text that is no program. -/
def gibberish : List (List Char) :=
  ["FOO".toList]

/-- Two linked nodes, the first of which offers a word. -/
def offering : Grid :=
  standard.run
    [.addNode, .addNode, .link ⟨0, 0⟩ .right ⟨1, 0⟩ .left,
      .compile ⟨0, 0⟩ sevenRight, .start, .step]

/-- The handle of a node that was never added is refused without a trace; the gibberish takes
the program and the word on its way with it. -/
theorem offering_refused :
    (offering.execute (.unlink ⟨2, 0⟩ .left)).2 = offering ∧
    (∃ entry, offering.fabric.pipes.get? ⟨0⟩ = some entry ∧ entry.pipe = .ready 7) ∧
    offering.Stripped ⟨0, 0⟩ gibberish (offering.execute (.compile ⟨0, 0⟩ gibberish)).2 ∧
    (offering.execute (.compile ⟨0, 0⟩ gibberish)).2.fabric.pipes.pipe? ⟨0⟩ = some .empty := by
  have reachable : offering.Reachable := standard_reachable.run _
  have unknown : (offering.execute (.unlink ⟨2, 0⟩ .left)).1 =
      .error (.unknownModule ⟨2, 0⟩) := by
    decide +kernel
  have unchanged := (reachable.refused_unchanged unknown).1 nofun
  have ready : offering.fabric.pipes.get? ⟨0⟩ = some ⟨.ready 7, ⟨0, 0⟩, false⟩ := by
    decide +kernel
  have fails : (offering.execute (.compile ⟨0, 0⟩ gibberish)).1 =
      .error (.compile ⟨.unknownInstruction, 1, 0, 3⟩) := by
    decide +kernel
  obtain ⟨_, _, command, -, stripped⟩ := (reachable.refused_unchanged fails).2 _ rfl
  cases command
  have kept : (Assembly.compile nodeCapacity offering.settings.limits gibberish).kept =
      gibberish := by
    decide +kernel
  rw [kept] at stripped
  refine ⟨unchanged, ⟨_, ready, rfl⟩, stripped, ?_⟩
  rw [PipeTable.pipe?, stripped.pipes, ready]
  rfl

/-- The text of the old program does not stay: the node keeps the text that failed. -/
theorem offering_forgets_text : offering.Reachable ∧
    (offering.execute (.compile ⟨0, 0⟩ gibberish)).1 =
      .error (.compile ⟨.unknownInstruction, 1, 0, 3⟩) ∧
    (offering.fabric.node ⟨0, 0⟩).map (·.core.source) = .ok sevenRight ∧
    ¬offering.Stripped ⟨0, 0⟩ sevenRight
      (offering.execute (.compile ⟨0, 0⟩ gibberish)).2 := by
  refine ⟨standard_reachable.run _, by decide +kernel, by decide +kernel, fun stripped => ?_⟩
  obtain ⟨node, -, keeps⟩ := stripped.node
  have replaced : ((offering.execute (.compile ⟨0, 0⟩ gibberish)).2.fabric.node ⟨0, 0⟩).map
      (·.core.source) = .ok gibberish := by
    decide +kernel
  rw [keeps] at replaced
  have texts : sevenRight = gibberish := Except.ok.inj replaced
  exact absurd texts (by decide +kernel)

end Grid

end NodeGrid
