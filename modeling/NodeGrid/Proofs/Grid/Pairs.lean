import NodeGrid.Proofs.Fabric.Pairs
import NodeGrid.Proofs.Grid.Delivery
import NodeGrid.Proofs.Grid.Effect

/-!
# Pairs of reachable grids

No grid has more nodes than its settings allow.  Its forwarders come in whole pairs, with a node in
front of each half, unless the port of a half itself has been unlinked: then the half stays without
a link, and its sibling forgets it in the next tick.
-/

namespace NodeGrid

namespace Fabric

/-- A node that is replaced was a node before. -/
theorem exists_node_of_setNode {fabric : Fabric} {handle other : Handle} {old new node : Node}
    (was : fabric.role? handle = some (.node old))
    (role : (fabric.setRole handle (.node new)).role? other = some (.node node)) :
    ∃ earlier, fabric.role? other = some (.node earlier) := by
  rw [role?_setRole] at role
  by_cases same : other = handle
  · exact ⟨old, same ▸ was⟩
  · rw [if_neg same] at role
    exact ⟨node, role⟩

theorem Pruned.nodeCount_le {before after : Fabric} (pruned : before.Pruned after) :
    after.nodeCount ≤ before.nodeCount := by
  obtain ⟨_, _, cut⟩ := pruned
  exact Fabric.nodeCount_le fun role => ⟨_, cut.role?_of_role? role⟩

/-- The forwarders come in whole pairs: each has another one as its sibling, which has it as its
sibling in turn, and one linked port, with a node at the other end of the link. -/
structure PairsWhole (fabric : Fabric) : Prop where
  sibling : ∀ {handle half}, fabric.forwarder handle = .ok half →
    ∃ other, half.sibling = some other ∧ other ≠ handle ∧
      fabric.forwarder other = .ok ⟨some handle⟩
  front : ∀ {handle half}, fabric.forwarder handle = .ok half →
    ∃ port link node, fabric.link? handle port = some link ∧ fabric.node link.peer = .ok node ∧
      ∀ place, place ≠ port → fabric.link? handle place = none
  count : fabric.modules.size = fabric.nodeCount + 2 * fabric.pairs.card

theorem Coupled.pairsWhole {fabric : Fabric} (coupled : fabric.Coupled) (lawful : fabric.Lawful)
    (single : fabric.Single) : fabric.PairsWhole where
  sibling := by
    intro handle half known
    have role := forwarder_eq_ok known
    obtain ⟨other, rfl, back⟩ := coupled.sibling role
    exact ⟨other, rfl, lawful.fronted.sibling_ne role, forwarder_eq_ok_iff.2 back⟩
  front := by
    intro handle half known
    have role := forwarder_eq_ok known
    obtain ⟨port, link, linked⟩ := coupled.linked role
    obtain ⟨node, peer⟩ := lawful.fronted.faces_node role linked
    refine ⟨port, link, node, linked, node_eq_ok_iff.2 peer, fun place different => ?_⟩
    refine Option.eq_none_iff_forall_not_mem.2 fun other found => ?_
    exact different (single role found linked)
  count := by rw [lawful.wired.size_eq, coupled.length_halves lawful]

/-- In every action of a phase a half has a link of its own and one of its sibling's to relay
onward. -/
theorem Coupled.course_of_mem_acts {fabric : Fabric} (lawful : fabric.Lawful)
    (coupled : fabric.Coupled) {handles : List Handle} {act : Act}
    (member : act ∈ fabric.acts handles) {half : Forwarder}
    (role : act.before.role? act.actor = some (.forwarder half)) :
    ∃ own onward, act.before.forwarderLink? act.actor = some own ∧
      half.sibling.bind act.before.forwarderLink? = some onward := by
  induction handles generalizing fabric with
  | nil => simp [acts] at member
  | cons handle rest ih =>
      rcases List.mem_cons.1 member with rfl | later
      · obtain ⟨other, own, onward, rfl, paired⟩ := coupled.paired role
        exact ⟨own, onward, paired.near_link, paired.far_link⟩
      · exact ih (lawful.stepModule handle) (coupled.stepModule lawful handle) later

/-- A half whose port is unlinked stays without a link. -/
theorem Lawful.stranded {fabric : Fabric} (lawful : fabric.Lawful) (single : fabric.Single)
    {handle : Handle} {half : Forwarder} {port : Port} {link : Link}
    (role : fabric.role? handle = some (.forwarder half))
    (linked : fabric.link? handle port = some link) :
    (fabric.unlinkPort handle port).role? handle = some (.forwarder half) ∧
      ∀ place, (fabric.unlinkPort handle port).link? handle place = none := by
  obtain ⟨node, peer⟩ := lawful.fronted.faces_node role linked
  have faces : ¬fabric.isForwarder link.peer := by
    rw [isForwarder_iff]
    rintro ⟨other, isHalf⟩
    simp [peer] at isHalf
  have detached : fabric.unlinkPort handle port = fabric.detachPort handle port := by
    simp [unlinkPort, linked, faces]
  rw [detached]
  refine ⟨(role?_detachPort linked handle).trans role, fun place => ?_⟩
  refine Option.eq_none_iff_forall_not_mem.2 fun kept found => ?_
  obtain ⟨was, spared⟩ := (lawful.wired.link?_detachPort_eq_some_iff linked).1 found
  cases single role was linked
  rw [linked] at was
  cases was
  exact spared (.inl rfl)

end Fabric

/-- The command takes the link of a half away at the half's own port. -/
def Command.strands (grid : Grid) : Command → Bool
  | .unlink handle port =>
      grid.fabric.isForwarder handle && (grid.fabric.link? handle port).isSome
  | _ => false

namespace Grid

namespace Effect

variable {grid : Grid} {command : Command} {after : Fabric}
variable (effect : grid.Effect command after) (sound : grid.fabric.Sound)
include effect sound

theorem nodeCount_le (bounded : grid.fabric.nodeCount ≤ grid.settings.maxNodes) :
    after.nodeCount ≤ grid.settings.maxNodes := by
  have wired := sound.lawful.wired
  cases effect with
  | idle command => exact bounded
  | addNode room node => exact (wired.nodeCount_withModule_le (.node node)).trans room
  | removeNode role => exact (wired.removeNode _).nodeCount_le.trans bounded
  | link passes =>
      obtain ⟨_, _, made⟩ := wired.linked_of_checkEnds passes
      exact (Fabric.nodeCount_le fun role => ⟨_, (made.role _).symm.trans role⟩).trans bounded
  | unlink linked => exact (wired.unlinkPort _ _).1.nodeCount_le.trans bounded
  | join passes =>
      obtain ⟨_, _, _, _, _, _, joined⟩ := wired.joined_of_checkEnds passes
      exact (Fabric.nodeCount_le fun role => ⟨_, joined.node_before role⟩).trans bounded
  | split role => exact (wired.splitPair _).1.nodeCount_le.trans bounded
  | compile was | setEnabled was | resetNode was =>
      exact (Fabric.nodeCount_le (Fabric.exists_node_of_setNode was)).trans bounded
  | step running =>
      exact (Fabric.nodeCount_le Fabric.exists_node_of_stepModules).trans bounded

theorem single (single : grid.fabric.Single) : after.Single := by
  have wired := sound.lawful.wired
  cases effect with
  | idle command => exact single
  | addNode room node =>
      exact single.of_same (wired.link?_withModule _) fun role =>
        ⟨_, (wired.role?_withNode_forwarder node).1 role⟩
  | removeNode role => exact (wired.removeNode _).single single
  | link passes =>
      obtain ⟨⟨_, firstFound⟩, ⟨_, secondFound⟩, -⟩ := Fabric.free_of_checkEnds passes
      obtain ⟨_, _, made⟩ := wired.linked_of_checkEnds passes
      exact made.single single firstFound fun role => by simp [secondFound] at role
  | unlink linked => exact (wired.unlinkPort _ _).1.single single
  | join passes =>
      obtain ⟨⟨_, firstFound⟩, ⟨_, secondFound⟩, -⟩ := Fabric.free_of_checkEnds passes
      obtain ⟨_, _, _, _, _, _, joined⟩ := wired.joined_of_checkEnds passes
      exact joined.single firstFound secondFound single
  | split role => exact (wired.splitPair _).1.single single
  | compile was | setEnabled was | resetNode was =>
      exact single.of_same (Fabric.link?_setRole _ _ _) fun role =>
        ⟨_, (Fabric.role?_setNode_forwarder was _).1 role⟩
  | step running => exact single.tick

/-- A command that strands no half leaves the pairs whole. -/
theorem coupled (coupled : grid.fabric.Coupled) (tends : command.strands grid = false) :
    after.Coupled := by
  have lawful := sound.lawful
  have wired := lawful.wired
  cases effect with
  | idle command => exact coupled
  | addNode room node =>
      exact coupled.of_same (wired.link?_withModule _) (wired.role?_withNode_forwarder node)
  | removeNode role => exact coupled.removeNode lawful fun half => by simp [role]
  | link passes =>
      obtain ⟨-, -, firstFree, secondFree, -⟩ := Fabric.free_of_checkEnds passes
      obtain ⟨_, _, made⟩ := wired.linked_of_checkEnds passes
      exact made.coupled coupled firstFree secondFree
  | unlink linked =>
      apply coupled.unlinkPort lawful
      intro half role
      have stranded := Fabric.isForwarder_iff.2 ⟨half, role⟩
      simp [Command.strands, stranded, linked] at tends
  | join passes =>
      obtain ⟨⟨_, firstFound⟩, ⟨_, secondFound⟩, firstFree, secondFree, different⟩ :=
        Fabric.free_of_checkEnds passes
      obtain ⟨_, _, _, _, _, _, joined⟩ := wired.joined_of_checkEnds passes
      exact joined.coupled firstFound secondFound coupled firstFree secondFree different
  | split role => exact coupled.splitPair lawful role
  | compile was | setEnabled was | resetNode was =>
      exact coupled.of_same (Fabric.link?_setRole _ _ _) (Fabric.role?_setNode_forwarder was _)
  | step running => exact coupled.tick lawful

end Effect

theorem Reachable.nodeCount_le {grid : Grid} (reachable : grid.Reachable) :
    grid.fabric.nodeCount ≤ grid.settings.maxNodes := by
  induction reachable with
  | new created =>
      rw [fabric_new created]
      exact Nat.zero_le _
  | execute reachable command ih =>
      rw [settings_execute]
      exact (effect_execute _ command).nodeCount_le reachable.sound ih

theorem Reachable.single {grid : Grid} (reachable : grid.Reachable) : grid.fabric.Single := by
  induction reachable with
  | new created =>
      rw [fabric_new created]
      exact .empty
  | execute reachable command ih => exact (effect_execute _ command).single reachable.sound ih

/-- Grids that are reached without ever stranding a half. -/
inductive Tended : Grid → Prop where
  | new {settings : Settings} {grid : Grid} (created : Grid.new settings = .ok grid) : Tended grid
  | execute {grid : Grid} (tended : Tended grid) (command : Command)
      (tends : command.strands grid = false) : Tended (grid.execute command).2

theorem Tended.reachable {grid : Grid} (tended : grid.Tended) : grid.Reachable := by
  induction tended with
  | new created => exact .new created
  | execute _ command _ ih => exact ih.execute command

theorem Tended.run {grid : Grid} (tended : grid.Tended) {history : List Command}
    (tends : ∀ command ∈ history, ∀ other, command.strands other = false) :
    (grid.run history).Tended := by
  induction history generalizing grid with
  | nil => exact tended
  | cons command rest ih =>
      rw [List.forall_mem_cons] at tends
      exact ih (tended.execute command (tends.1 grid)) tends.2

theorem standard_tended : standard.Tended :=
  .new (show Grid.new .standard = .ok standard from rfl)

theorem Tended.coupled {grid : Grid} (tended : grid.Tended) : grid.fabric.Coupled := by
  induction tended with
  | new created =>
      rw [fabric_new created]
      exact .empty
  | execute tended command tends ih =>
      exact (effect_execute _ command).coupled tended.reachable.sound ih tends

theorem not_pairsWhole_of_strands {grid : Grid} (reachable : grid.Reachable) {command : Command}
    (strands : command.strands grid) : ¬(grid.execute command).2.fabric.PairsWhole := by
  cases command with
  | unlink handle port =>
      obtain ⟨isHalf, isLinked⟩ := (Bool.and_eq_true _ _).mp strands
      obtain ⟨half, role⟩ := Fabric.isForwarder_iff.1 isHalf
      obtain ⟨link, linked⟩ := Option.isSome_iff_exists.1 isLinked
      have after := reachable.sound.lawful.stranded reachable.single role linked
      obtain ⟨member, found, placed⟩ := Fabric.link?_eq_some_iff.1 linked
      have unlinked : (grid.execute (.unlink handle port)).2.fabric =
          grid.fabric.unlinkPort handle port := by
        simp [execute, unlink, Fabric.module, found, placed]
      intro whole
      rw [unlinked] at whole
      obtain ⟨place, other, -, there, -⟩ := whole.front (Fabric.forwarder_eq_ok_iff.2 after.1)
      simp [after.2 place] at there
  | _ => cases strands

/-- The nodes are never more than the settings allow.  Unless a half has ever been stranded, the
forwarders come in whole pairs, and in a tick no half finds its sibling gone or has nowhere to relay
to.  A command that strands a half breaks a pair. -/
theorem Reachable.pairs_whole_unless_stranded {grid : Grid} (reachable : grid.Reachable) :
    grid.fabric.nodeCount ≤ grid.settings.maxNodes ∧
    (grid.Tended → grid.fabric.PairsWhole ∧
      ∀ act ∈ grid.actsOf .step, ∀ half, act.before.forwarder act.actor = .ok half →
        ∃ own onward, act.before.forwarderLink? act.actor = some own ∧
          half.sibling.bind act.before.forwarderLink? = some onward) ∧
    ∀ command, command.strands grid → ¬(grid.execute command).2.fabric.PairsWhole := by
  have lawful := reachable.sound.lawful
  refine ⟨reachable.nodeCount_le, fun tended => ⟨?whole, ?acts⟩,
    fun command => not_pairsWhole_of_strands reachable⟩
  case whole => exact tended.coupled.pairsWhole lawful reachable.single
  case acts =>
    intro act member half known
    cases power : grid.power with
    | stopped => simp [actsOf, power] at member
    | running =>
        simp only [actsOf, power] at member
        exact tended.coupled.course_of_mem_acts lawful member (Fabric.forwarder_eq_ok known)

/-- A running grid with two nodes that are joined by a pair. -/
def joinedOnce : Grid :=
  standard.run [.addNode, .addNode, .join ⟨0, 0⟩ .right ⟨1, 0⟩ .left, .start]

/-- The pair is whole.  Unlinking the port of a half breaks it. -/
theorem joinedOnce_whole : joinedOnce.Tended ∧ joinedOnce.fabric.PairsWhole ∧
    joinedOnce.fabric.pairs.card = 1 ∧
    ¬(joinedOnce.execute (.unlink ⟨2, 0⟩ .left)).2.fabric.PairsWhole := by
  have tended : joinedOnce.Tended := standard_tended.run (by simp [Command.strands])
  have laws := tended.reachable.pairs_whole_unless_stranded
  have strands : Command.strands joinedOnce (.unlink ⟨2, 0⟩ .left) := by decide +kernel
  have one : joinedOnce.fabric.pairs.card = 1 := by decide +kernel
  exact ⟨tended, (laws.2.1 tended).1, one, laws.2.2 _ strands⟩

/-- The grid after the port of one half has been unlinked and the sibling has acted once. -/
def strandedHalf : Grid :=
  joinedOnce.run [.unlink ⟨2, 0⟩ .left, .step]

/-- The half has no link, its sibling has forgotten it, and splitting the pair at the sibling leaves
the half behind as the only forwarder. -/
theorem strandedHalf_remains : strandedHalf.Reachable ∧
    strandedHalf.fabric.forwarder ⟨2, 0⟩ = .ok ⟨some ⟨3, 0⟩⟩ ∧
    (∀ port, strandedHalf.fabric.link? ⟨2, 0⟩ port = none) ∧
    strandedHalf.fabric.forwarder ⟨3, 0⟩ = .ok .unpaired ∧
    (strandedHalf.split ⟨3, 0⟩).2.fabric.nodeCount = 2 ∧
    (strandedHalf.split ⟨3, 0⟩).2.fabric.modules.size = 3 := by
  have reachable : strandedHalf.Reachable := (standard_reachable.run _).run _
  have unlinked : ∀ port ∈ Port.all, strandedHalf.fabric.link? ⟨2, 0⟩ port = none := by
    decide +kernel
  exact ⟨reachable, by decide +kernel, fun port => unlinked port (Port.mem_all port),
    by decide +kernel, by decide +kernel, by decide +kernel⟩

end Grid

end NodeGrid
