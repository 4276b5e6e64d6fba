import NodeGrid.Proofs.Fabric.Relinking
import NodeGrid.Proofs.Grid.Delivery
import NodeGrid.Proofs.Grid.Effect

/-!
# Writes while links change

Whatever happens to a grid while a node waits for its write to be claimed, every claim of the word
is acknowledged, or is still owed, or has been forfeited with the link that it was made over.  At
most one claim is not forfeited.  A node that forfeits a claim goes on waiting, so its word can be
claimed again.
-/

namespace NodeGrid

/-! ## Every claim is accounted for -/

/-- Of the claims that a node owed for and those made since, each has been acknowledged, or is lost,
or is still owed. -/
def Accounted (before after : Fabric) (writer : Handle) (acts : List Act)
    (lost : List (Port × Word)) : Prop :=
  (before.owed writer ++ acts.flatMap (·.claims writer)).Perm
    (reportedClaims acts writer ++ (lost ++ after.owed writer))

namespace Accounted

variable {before middle after : Fabric} {writer : Handle}

theorem of_balanced {acts : List Act} (balanced : Balanced before after writer acts) :
    Accounted before after writer acts [] := by
  rw [Accounted, show _ = _ from balanced, List.nil_append]

theorem of_spares (spares : before.Spares after writer) :
    Accounted before after writer [] (before.forfeited after writer) := by
  simpa [Accounted, reportedClaims, completions] using spares.owed_perm

theorem trans {first second : List Act} {lost further : List (Port × Word)}
    (earlier : Accounted before middle writer first lost)
    (later : Accounted middle after writer second further) :
    Accounted before after writer (first ++ second) (lost ++ further) := by
  refine List.perm_iff_count.2 fun claim => ?_
  have one := List.perm_iff_count.1 earlier claim
  have two := List.perm_iff_count.1 later claim
  simp only [reportedClaims_append, List.flatMap_append, List.count_append] at one two ⊢
  omega

end Accounted

/-! ## A node acts once in a phase -/

namespace Fabric

theorem completions_cons (act : Act) (rest : List Act) (writer : Handle) :
    completions (act :: rest) writer =
      (act.completion? writer).toList ++ completions rest writer := by
  rw [completions, List.filterMap_cons]
  cases act.completion? writer <;> rfl

section Phase

variable {fabric : Fabric} {writer : Handle} {handles : List Handle}

theorem pendingWrite?_stepModules_of_notMem (waits : writer ∉ handles) :
    (fabric.stepModules handles).pendingWrite? writer = fabric.pendingWrite? writer :=
  pendingWrite?_congr (role?_stepModules_of_notMem waits)

theorem completions_of_notMem (waits : writer ∉ handles) :
    completions (fabric.acts handles) writer = [] := by
  induction handles generalizing fabric with
  | nil => rfl
  | cons handle rest ih =>
      rw [List.mem_cons, not_or] at waits
      have nothing : Act.completion? ⟨fabric, handle⟩ writer = none := by
        rw [Act.completion?, if_neg (Ne.symm waits.1)]
      rw [acts, completions_cons, nothing]
      exact ih waits.2

/-- In one phase a node completes nothing, or it completes one write and then waits for none. -/
theorem completions_acts (once : handles.Nodup) :
    completions (fabric.acts handles) writer = [] ∨
      (completions (fabric.acts handles) writer).length = 1 ∧
        (fabric.stepModules handles).pendingWrite? writer = none := by
  induction handles generalizing fabric with
  | nil => exact .inl rfl
  | cons handle rest ih =>
      obtain ⟨fresh, once⟩ := List.nodup_cons.1 once
      rw [acts, completions_cons, stepModules_cons]
      cases ends : Act.completion? ⟨fabric, handle⟩ writer with
      | none => exact ih once
      | some done =>
          obtain ⟨same, nothing⟩ := Act.pendingWrite?_of_completion ends
          have others : writer ∉ rest := same ▸ fresh
          right
          rw [completions_of_notMem others, pendingWrite?_stepModules_of_notMem others]
          exact ⟨rfl, nothing⟩

theorem pendingWrite?_stepModules (once : handles.Nodup) {write : PendingWrite}
    (waits : fabric.pendingWrite? writer = some write) :
    (fabric.stepModules handles).pendingWrite? writer = some write ∨
      (fabric.stepModules handles).pendingWrite? writer = none := by
  induction handles generalizing fabric with
  | nil => exact .inl waits
  | cons handle rest ih =>
      obtain ⟨fresh, once⟩ := List.nodup_cons.1 once
      rw [stepModules_cons]
      by_cases same : handle = writer
      · rw [pendingWrite?_stepModules_of_notMem (same ▸ fresh)]
        exact pendingWrite?_stepModule waits handle
      · apply ih once
        rw [pendingWrite?_congr (role?_stepModule_of_ne (Ne.symm same)), waits]

/-- If the write of a node is this one at the beginning and at the end of a phase, whenever there is
one, it is so in between. -/
theorem Lawful.value_of_claim (lawful : fabric.Lawful) (once : handles.Nodup) {node : Node}
    (role : fabric.role? writer = some (.node node)) {write : PendingWrite}
    (starts : ∀ pending ∈ fabric.pendingWrite? writer, pending = write)
    (ends : ∀ pending ∈ (fabric.stepModules handles).pendingWrite? writer, pending = write)
    {act : Act} (member : act ∈ fabric.acts handles) {claim : Port × Word}
    (claimed : claim ∈ act.claims writer) : claim.2 = write.value := by
  induction handles generalizing fabric node with
  | nil => simp [acts] at member
  | cons handle rest ih =>
      obtain ⟨fresh, once⟩ := List.nodup_cons.1 once
      rw [stepModules_cons] at ends
      rcases List.mem_cons.1 member with rfl | later
      · obtain ⟨pending, waits, value⟩ := Act.exists_of_mem_claims lawful role claimed
        rw [value, starts pending waits]
      · obtain ⟨_, still⟩ := (fabric.continues_stepModule handle).node role
        apply ih (lawful.stepModule handle) once still ?_ ends later
        by_cases same : handle = writer
        · rwa [pendingWrite?_stepModules_of_notMem (same ▸ fresh)] at ends
        · rwa [pendingWrite?_congr (role?_stepModule_of_ne (Ne.symm same))]

end Phase

end Fabric

/-! ## Commands -/

/-- The command takes the program of a node away, or the whole node. -/
def Command.abandons (writer : Handle) : Command → Bool
  | .removeNode handle | .compile handle _ | .resetNode handle => handle = writer
  | _ => false

/-- The command takes links away. -/
def Command.unlinks : Command → Bool
  | .removeNode _ | .unlink _ _ | .split _ => true
  | _ => false

namespace Grid

/-- Links stay unless a command takes some away. -/
theorem Effect.keeps_links {grid : Grid} {command : Command} {after : Fabric}
    (effect : grid.Effect command after) (sound : grid.fabric.Sound) (keeps : ¬command.unlinks)
    {handle : Handle} {port : Port} {link : Link}
    (linked : grid.fabric.link? handle port = some link) :
    after.link? handle port = some link := by
  have wired := sound.lawful.wired
  cases effect with
  | idle command => exact linked
  | addNode room node => exact (wired.link?_withModule _ _ _).trans linked
  | link passes =>
      obtain ⟨-, -, firstFree, secondFree, -⟩ := Fabric.free_of_checkEnds passes
      obtain ⟨_, _, made⟩ := wired.linked_of_checkEnds passes
      exact made.link_of_old firstFree secondFree linked
  | join passes =>
      obtain ⟨⟨_, firstFound⟩, ⟨_, secondFound⟩, firstFree, secondFree, different⟩ :=
        Fabric.free_of_checkEnds passes
      obtain ⟨_, _, _, _, _, _, joined⟩ := wired.joined_of_checkEnds passes
      exact joined.link_of_old firstFound secondFound firstFree secondFree different linked
  | compile | setEnabled | resetNode => exact (Fabric.link?_setRole _ _ _ _ _).trans linked
  | step running => exact (grid.fabric.continues_tick.link handle port).trans linked
  | removeNode | unlink | split => exact absurd rfl keeps

/-- A command that is not for the node itself spares it, unless it is a tick or the like. -/
theorem Effect.spares {grid : Grid} {command : Command} {after : Fabric}
    (effect : grid.Effect command after) (sound : grid.fabric.Sound) {writer : Handle} {node : Node}
    (role : grid.fabric.role? writer = some (.node node)) (pauses : ¬command.drives)
    (keeps : ¬command.abandons writer) : grid.fabric.Spares after writer := by
  have wired := sound.lawful.wired
  cases effect with
  | idle command => exact .refl _ _
  | addNode room new => exact wired.spares_withModule (.node new) role
  | @removeNode handle old was =>
      have different : writer ≠ handle := fun same => keeps (by simp [Command.abandons, same])
      apply (wired.removeNode handle).spares
      rw [wired.role?_removeNode role different, role]
  | link passes =>
      obtain ⟨-, -, firstFree, secondFree, -⟩ := Fabric.free_of_checkEnds passes
      obtain ⟨_, _, made⟩ := wired.linked_of_checkEnds passes
      exact ⟨made.role writer, fun port _ _ => made.claims wired firstFree secondFree writer port⟩
  | @unlink handle port link linked =>
      apply (wired.unlinkPort handle port).1.spares
      rw [wired.role?_unlinkPort role port, role]
  | join passes =>
      obtain ⟨⟨_, firstFound⟩, ⟨_, secondFound⟩, firstFree, secondFree, different⟩ :=
        Fabric.free_of_checkEnds passes
      obtain ⟨_, _, _, _, _, _, joined⟩ := wired.joined_of_checkEnds passes
      exact joined.spares firstFound secondFound firstFree secondFree different role
  | @split handle half was =>
      have different : writer ≠ handle := by
        rintro rfl
        simp [role] at was
      apply (wired.splitPair handle).1.spares
      rw [wired.role?_splitPair role different, role]
  | @compile handle old was source new | @resetNode handle old was =>
      have different : writer ≠ handle := fun same => keeps (by simp [Command.abandons, same])
      obtain ⟨ports, found⟩ := Fabric.role?_eq_some_iff.1 was
      simp only [restartNode, found, Option.elim_some]
      exact wired.spares_restart found _ different
  | setEnabled | step => exact absurd rfl pauses

theorem actsOf_of_not_drives {grid : Grid} {command : Command} (pauses : ¬command.drives) :
    grid.actsOf command = [] := by
  cases command with
  | step => exact absurd rfl pauses
  | _ => rfl

/-- The claims that a node forfeits in the course of a history. -/
def forfeits (grid : Grid) (writer : Handle) : List Command → List (Port × Word)
  | [] => []
  | command :: rest =>
      grid.fabric.forfeited (grid.execute command).2.fabric writer ++
        (grid.execute command).2.forfeits writer rest

/-- Nothing is forfeited unless a command takes links away. -/
theorem forfeits_eq_nil {grid : Grid} (sound : grid.fabric.Sound) (writer : Handle)
    {history : List Command} (keeps : ∀ command ∈ history, ¬command.unlinks) :
    grid.forfeits writer history = [] := by
  induction history generalizing grid with
  | nil => rfl
  | cons command rest ih =>
      rw [List.forall_mem_cons] at keeps
      have effect := effect_execute grid command
      rw [forfeits, Fabric.forfeited_eq_nil fun port link => effect.keeps_links sound keeps.1,
        ih (sound_execute sound command) keeps.2]
      rfl

section Execute

variable {grid : Grid} (sound : grid.fabric.Sound) {writer : Handle} {node : Node}
variable (role : grid.fabric.role? writer = some (.node node))
include sound role

theorem exists_node_execute {command : Command} (keeps : ¬command.abandons writer) :
    ∃ later, (grid.execute command).2.fabric.role? writer = some (.node later) := by
  by_cases drives : command.drives
  · exact (continues_execute drives).node role
  · have spares := (effect_execute grid command).spares sound role drives keeps
    exact ⟨node, spares.role.trans role⟩

theorem accounted_execute {command : Command} (keeps : ¬command.abandons writer) :
    Accounted grid.fabric (grid.execute command).2.fabric writer (grid.actsOf command)
      (grid.fabric.forfeited (grid.execute command).2.fabric writer) := by
  by_cases drives : command.drives
  · have continues : grid.fabric.Continues (grid.execute command).2.fabric :=
      continues_execute drives
    rw [Fabric.forfeited_eq_nil fun port link => (continues.link writer port).trans]
    exact .of_balanced (balanced_execute sound drives role)
  · rw [actsOf_of_not_drives drives]
    exact .of_spares ((effect_execute grid command).spares sound role drives keeps)

theorem accounted_run {history : List Command}
    (keeps : ∀ command ∈ history, ¬command.abandons writer) :
    Accounted grid.fabric (grid.run history).fabric writer (grid.acts history)
      (grid.forfeits writer history) := by
  induction history generalizing grid node with
  | nil => exact .of_balanced (.of_owed rfl)
  | cons command rest ih =>
      rw [List.forall_mem_cons] at keeps
      obtain ⟨later, still⟩ := exists_node_execute sound role keeps.1
      exact (accounted_execute sound role keeps.1).trans
        (ih (sound_execute sound command) still keeps.2)

end Execute

/-! ## One write -/

/-- The claims of the words of a node in the course of a history. -/
def claims (grid : Grid) (writer : Handle) (history : List Command) : List (Port × Word) :=
  (grid.acts history).flatMap (·.claims writer)

/-- In the next tick a node begins this write. -/
structure Begins (grid : Grid) (writer : Handle) (write : PendingWrite) : Prop where
  before : grid.fabric.pendingWrite? writer = none
  after : grid.step.fabric.pendingWrite? writer = some write

/-- A node waits for this write whenever a command of a history is given, and no command takes its
program away.  Only the last command can complete the write. -/
def Outstanding (grid : Grid) (writer : Handle) (write : PendingWrite) : List Command → Prop
  | [] => True
  | command :: rest =>
      grid.fabric.pendingWrite? writer = some write ∧ ¬command.abandons writer ∧
        (grid.execute command).2.Outstanding writer write rest

instance decidableOutstanding (writer : Handle) (write : PendingWrite) :
    (grid : Grid) → (history : List Command) →
      Decidable (grid.Outstanding writer write history)
  | _, [] => .isTrue trivial
  | grid, command :: rest =>
      have := decidableOutstanding writer write (grid.execute command).2 rest
      inferInstanceAs (Decidable (_ ∧ _ ∧ _))

/-- In one command a node completes nothing, or it completes one write and then waits for none. -/
theorem completions_actsOf (grid : Grid) (command : Command) (writer : Handle) :
    completions (grid.actsOf command) writer = [] ∨
      (completions (grid.actsOf command) writer).length = 1 ∧
        (grid.execute command).2.fabric.pendingWrite? writer = none := by
  cases command with
  | step =>
      simp only [execute, step, actsOf]
      cases grid.power with
      | stopped => exact .inl rfl
      | running => exact Fabric.completions_acts grid.fabric.modules.handles_nodup
  | _ => exact .inl rfl

/-- Only a tick of a running grid has actions. -/
theorem running_of_mem_actsOf {grid : Grid} {command : Command} {act : Act}
    (member : act ∈ grid.actsOf command) : command = .step ∧ grid.power = .running := by
  cases command with
  | step =>
      cases power : grid.power with
      | stopped => simp [actsOf, power] at member
      | running => exact ⟨rfl, rfl⟩
  | _ => cases member

section Write

variable {grid : Grid} (sound : grid.fabric.Sound) {writer : Handle} {write : PendingWrite}

theorem node_of_begins (begins : grid.Begins writer write) :
    ∃ node, grid.fabric.role? writer = some (.node node) := by
  have after := begins.after
  cases power : grid.power with
  | stopped =>
      simp only [step, power, begins.before] at after
      cases after
  | running =>
      simp only [step, power] at after
      obtain ⟨node, role, -⟩ := Fabric.pendingWrite?_eq_some_iff.1 after
      exact Fabric.exists_node_of_stepModules role

include sound

theorem value_of_claim {node : Node} (role : grid.fabric.role? writer = some (.node node))
    (starts : ∀ pending ∈ grid.fabric.pendingWrite? writer, pending = write)
    (ends : ∀ pending ∈ grid.step.fabric.pendingWrite? writer, pending = write)
    {command : Command} {act : Act} (member : act ∈ grid.actsOf command) {claim : Port × Word}
    (claimed : claim ∈ act.claims writer) : claim.2 = write.value := by
  obtain ⟨rfl, running⟩ := running_of_mem_actsOf member
  simp only [actsOf, running] at member
  simp only [step, running] at ends
  exact sound.lawful.value_of_claim grid.fabric.modules.handles_nodup role starts ends member claimed

/-- While a node waits for a write, all claims are claims of its word. -/
theorem Outstanding.value_of_claim {history : List Command}
    (lasts : grid.Outstanding writer write history) {claim : Port × Word}
    (member : claim ∈ grid.claims writer history) : claim.2 = write.value := by
  induction history generalizing grid with
  | nil => cases member
  | cons command rest ih =>
      obtain ⟨waits, -, later⟩ := lasts
      obtain ⟨act, acted, claimed⟩ := List.mem_flatMap.1 member
      rcases List.mem_append.1 acted with now | rest_acted
      · obtain ⟨node, role, -⟩ := Fabric.pendingWrite?_eq_some_iff.1 waits
        apply Grid.value_of_claim sound role _ _ now claimed
        · intro pending same
          rw [waits] at same
          exact (Option.some.inj same).symm
        · intro pending same
          obtain ⟨-, running⟩ := running_of_mem_actsOf now
          simp only [step, running] at same
          rcases Fabric.pendingWrite?_stepModules grid.fabric.modules.handles_nodup waits with
            still | ended
          · exact Option.some.inj (same.symm.trans still)
          · cases same.symm.trans ended
      · exact ih (sound_execute sound command) later (List.mem_flatMap.2 ⟨act, rest_acted, claimed⟩)

omit sound in
theorem Outstanding.keeps {history : List Command}
    (lasts : grid.Outstanding writer write history) :
    ∀ command ∈ history, ¬command.abandons writer := by
  induction history generalizing grid with
  | nil => simp
  | cons command rest ih => exact List.forall_mem_cons.2 ⟨lasts.2.1, ih lasts.2.2⟩

/-- Of one write at most one claim is acknowledged or still owed. -/
theorem Outstanding.settled_le_one {history : List Command}
    (lasts : grid.Outstanding writer write history) :
    (reportedClaims (grid.acts history) writer).length +
      ((grid.run history).fabric.owed writer).length ≤ 1 := by
  induction history generalizing grid with
  | nil =>
      have owes : (grid.fabric.owed writer).length ≤ 1 := sound.lawful.length_owed_le writer
      simpa [acts, reportedClaims, completions, run] using owes
  | cons command rest ih =>
      have later := ih (sound_execute sound command) lasts.2.2
      rw [acts, reportedClaims_append]
      rcases grid.completions_actsOf command writer with nothing | ⟨single, ended⟩
      · rw [reportedClaims_of_no_completion nothing]
        exact later
      · -- The write is completed by the last command.
        cases rest with
        | nil =>
            have owes : (grid.run [command]).fabric.owed writer = [] :=
              Fabric.owed_of_no_write ended
            have reported := length_reportedClaims_le (grid.actsOf command) writer
            rw [single] at reported
            rw [owes]
            simpa [acts, reportedClaims, completions] using reported
        | cons next rest =>
            have waits := lasts.2.2.1
            rw [ended] at waits
            cases waits

end Write

/-- From the tick in which a node begins a write, as long as it waits for it and up to the command
that completes it, only the word of this write is claimed from the node.  Every claim has been
acknowledged, or forfeited, or is still owed, and at most one is not forfeited.  So the word is
claimed once at most unless a link is taken away while a claim on it has not been acknowledged. -/
theorem Reachable.claimed_once_unless_forfeited {grid : Grid} (reachable : grid.Reachable)
    {writer : Handle} {write : PendingWrite} (begins : grid.Begins writer write)
    {history : List Command} (lasts : grid.step.Outstanding writer write history) :
    (∀ claim ∈ grid.claims writer (.step :: history), claim.2 = write.value) ∧
    (grid.claims writer (.step :: history)).Perm
      (reportedClaims (grid.acts (.step :: history)) writer ++
        (grid.forfeits writer (.step :: history) ++
          (grid.run (.step :: history)).fabric.owed writer)) ∧
    (reportedClaims (grid.acts (.step :: history)) writer).length +
      ((grid.run (.step :: history)).fabric.owed writer).length ≤ 1 ∧
    (grid.forfeits writer (.step :: history) = [] →
      (grid.claims writer (.step :: history)).length ≤ 1) ∧
    ((∀ command ∈ history, ¬command.unlinks) → grid.forfeits writer (.step :: history) = []) := by
  have sound := reachable.sound
  have stepped : grid.step.fabric.Sound := sound_execute sound .step
  obtain ⟨node, role⟩ := node_of_begins begins
  have keeps : ∀ command ∈ Command.step :: history, ¬command.abandons writer :=
    List.forall_mem_cons.2 ⟨by simp [Command.abandons], lasts.keeps⟩
  have accounts := accounted_run sound role keeps
  rw [Accounted, Fabric.owed_of_no_write begins.before, List.nil_append] at accounts
  have settled : (reportedClaims (grid.acts (.step :: history)) writer).length +
      ((grid.run (.step :: history)).fabric.owed writer).length ≤ 1 := by
    have nothing : completions (grid.actsOf .step) writer = [] := by
      rcases grid.completions_actsOf .step writer with nothing | ⟨-, ended⟩
      · exact nothing
      · cases begins.after.symm.trans ended
    rw [acts, reportedClaims_append, reportedClaims_of_no_completion nothing]
    exact lasts.settled_le_one stepped
  refine ⟨?value, accounts, settled, ?once, ?links⟩
  case value =>
    intro claim member
    obtain ⟨act, acted, claimed⟩ := List.mem_flatMap.1 member
    rcases List.mem_append.1 acted with now | later
    · apply value_of_claim sound role _ _ now claimed
      · simp [begins.before]
      · simp [begins.after]
    · exact lasts.value_of_claim stepped (List.mem_flatMap.2 ⟨act, later, claimed⟩)
  case once =>
    intro nothing
    have count := accounts.length_eq
    rw [nothing, List.nil_append, List.length_append] at count
    rw [claims, count]
    exact settled
  case links =>
    intro keepsLinks
    exact forfeits_eq_nil sound writer (List.forall_mem_cons.2 ⟨by simp [Command.unlinks], keepsLinks⟩)

/-- A running grid in which a node writes one word to another one. -/
def handingOver : Grid :=
  standard.run
    [.addNode, .addNode, .compile ⟨0, 0⟩ ["MOV 7 RIGHT".toList, "JRO 0".toList],
      .compile ⟨1, 0⟩ ["ADD LEFT".toList], .link ⟨0, 0⟩ .right ⟨1, 0⟩ .left, .start]

/-- The link is taken away and made again. -/
def relinking : List Command :=
  [.unlink ⟨0, 0⟩ .right, .link ⟨0, 0⟩ .right ⟨1, 0⟩ .left]

/-- A word that nobody has claimed is lost with its link, offered again over the new one, and
claimed once. -/
theorem handingOver_claimed_once : handingOver.Reachable ∧
    handingOver.Begins ⟨0, 0⟩ ⟨7, .port .right⟩ ∧
    handingOver.step.Outstanding ⟨0, 0⟩ ⟨7, .port .right⟩ (relinking ++ [.step, .step, .step]) ∧
    handingOver.claims ⟨0, 0⟩ (.step :: relinking ++ [.step, .step, .step]) ≠ [] ∧
    (handingOver.claims ⟨0, 0⟩ (.step :: relinking ++ [.step, .step, .step])).length ≤ 1 := by
  have reachable : handingOver.Reachable := standard_reachable.run _
  have begins : handingOver.Begins ⟨0, 0⟩ ⟨7, .port .right⟩ :=
    ⟨by decide +kernel, by decide +kernel⟩
  have lasts : handingOver.step.Outstanding ⟨0, 0⟩ ⟨7, .port .right⟩
      (relinking ++ [.step, .step, .step]) := by decide +kernel
  have claimed : handingOver.claims ⟨0, 0⟩ (.step :: relinking ++ [.step, .step, .step]) ≠ [] := by
    decide +kernel
  have nothing : handingOver.forfeits ⟨0, 0⟩ (.step :: relinking ++ [.step, .step, .step]) = [] := by
    decide +kernel
  have laws := reachable.claimed_once_unless_forfeited begins lasts
  exact ⟨reachable, begins, lasts, claimed, laws.2.2.2.1 nothing⟩

/-- A word that has been claimed is claimed again if its link is taken away before the claim is
acknowledged. -/
theorem handingOver_claimed_twice : handingOver.Reachable ∧
    handingOver.Begins ⟨0, 0⟩ ⟨7, .port .right⟩ ∧
    handingOver.step.Outstanding ⟨0, 0⟩ ⟨7, .port .right⟩
      (.step :: relinking ++ [.step, .step, .step]) ∧
    handingOver.claims ⟨0, 0⟩ (.step :: .step :: relinking ++ [.step, .step, .step]) =
      [(.right, 7), (.right, 7)] := by
  refine ⟨standard_reachable.run _, ⟨?_, ?_⟩, ?_, ?_⟩ <;> decide +kernel

end Grid

end NodeGrid
