import NodeGrid.Proofs.Fabric.Addition
import NodeGrid.Proofs.Grid.Pairs

/-!
# What edits of the topology change

Unlinking, splitting and removing a node take away what they name, and linking and joining add it.
The rest of the grid stays as it was, with what nodes have computed and what pipes hold.  Only
stranded halves break this: splitting a pair with one of them can leave a half behind.
-/

namespace NodeGrid

open Fabric

namespace Grid

/-- One grid is another one with some attachments and some modules more. -/
structure Extended (bare : Grid) (attachments : Finset Attachment) (members : Set Handle)
    (full : Grid) : Prop where
  fabric : bare.fabric.Extended attachments members full.fabric
  rest : full = { bare with fabric := full.fabric }

variable {grid after : Grid} {reply : Reply}

/-! ## Commands that succeed -/

theorem unlink_eq_ok {handle : Handle} {port : Port}
    (succeeds : grid.execute (.unlink handle port) = (.ok reply, after)) :
    (∃ link, grid.fabric.link? handle port = some link) ∧
      after = { grid with fabric := grid.fabric.unlinkPort handle port } := by
  simp only [execute, unlink, Fabric.module] at succeeds
  cases found : grid.fabric.modules.get? handle with
  | none => simp [found, Except.map] at succeeds
  | some member =>
      cases placed : member.ports.get port with
      | none => simp [found, placed, Except.map] at succeeds
      | some link =>
          simp only [found, placed, Option.isNone_some, Bool.false_eq_true, if_false,
            Prod.map_apply, Prod.mk.injEq, id_eq] at succeeds
          exact ⟨⟨link, link?_eq_some_iff.2 ⟨member, found, placed⟩⟩, succeeds.2.symm⟩

theorem split_eq_ok {handle : Handle}
    (succeeds : grid.execute (.split handle) = (.ok reply, after)) :
    after = { grid with fabric := grid.fabric.splitPair handle } := by
  simp only [execute, split] at succeeds
  cases known : grid.fabric.forwarder handle with
  | error error => simp [known, Except.map] at succeeds
  | ok half =>
      simp only [known, Prod.map_apply, Prod.mk.injEq, id_eq] at succeeds
      exact succeeds.2.symm

theorem removeNode_eq_ok {handle : Handle}
    (succeeds : grid.execute (.removeNode handle) = (.ok reply, after)) :
    (∃ node, grid.fabric.role? handle = some (.node node)) ∧
      after = { grid with fabric := grid.fabric.removeNode handle } := by
  simp only [execute, removeNode] at succeeds
  cases known : grid.fabric.node handle with
  | error error => simp [known, Except.map] at succeeds
  | ok node =>
      simp only [known, Prod.map_apply, Prod.mk.injEq, id_eq] at succeeds
      exact ⟨⟨node, node_eq_ok known⟩, succeeds.2.symm⟩

section Ends

variable {first second : Handle} {firstPort secondPort : Port}

theorem link_eq_ok
    (succeeds : grid.execute (.link first firstPort second secondPort) = (.ok reply, after)) :
    grid.fabric.checkEnds first firstPort second secondPort = .ok () ∧
      after = { grid with fabric := grid.fabric.connect first firstPort second secondPort } := by
  simp only [execute, link] at succeeds
  cases passes : grid.fabric.checkEnds first firstPort second secondPort with
  | error error => simp [passes, Except.map] at succeeds
  | ok =>
      simp only [passes, Prod.map_apply, Prod.mk.injEq, id_eq] at succeeds
      exact ⟨rfl, succeeds.2.symm⟩

theorem join_eq_ok
    (succeeds : grid.execute (.join first firstPort second secondPort) = (.ok reply, after)) :
    grid.fabric.checkEnds first firstPort second secondPort = .ok () ∧
      reply = .joined (grid.fabric.joinPorts first firstPort second secondPort).1.1
        (grid.fabric.joinPorts first firstPort second secondPort).1.2 ∧
      after = { grid with
        fabric := (grid.fabric.joinPorts first firstPort second secondPort).2 } := by
  simp only [execute, join] at succeeds
  cases passes : grid.fabric.checkEnds first firstPort second secondPort with
  | error error => simp [passes, Except.map] at succeeds
  | ok =>
      simp only [passes, Prod.map_apply, Prod.mk.injEq, id_eq, Except.map, Except.ok.injEq]
        at succeeds
      exact ⟨rfl, succeeds.1.symm, succeeds.2.symm⟩

end Ends

/-- Every edit of the topology that succeeds changes what it names and nothing else, as long as the
pairs that it takes away are whole. -/
structure ExactEdits (grid : Grid) : Prop where
  unlink : ∀ {handle port reply after},
    grid.execute (.unlink handle port) = (.ok reply, after) → grid.fabric.Intact handle port →
      ∃ attachment, grid.fabric.Hangs handle port attachment ∧
        after.Extended {attachment} ∅ grid
  split : ∀ {handle other reply after}, grid.execute (.split handle) = (.ok reply, after) →
    grid.fabric.Whole handle other → after.Extended {.pair s(handle, other)} ∅ grid
  removeNode : ∀ {handle reply after}, grid.execute (.removeNode handle) = (.ok reply, after) →
    (∀ port, grid.fabric.Intact handle port) →
      ∃ attachments : Finset Attachment,
        (∀ attachment, attachment ∈ attachments ↔
          ∃ port, grid.fabric.Hangs handle port attachment) ∧
        after.Extended attachments {handle} grid
  link : ∀ {first firstPort second secondPort reply after},
    grid.execute (.link first firstPort second secondPort) = (.ok reply, after) →
      after.fabric.Hangs first firstPort (.link s((first, firstPort), (second, secondPort))) ∧
      after.fabric.Hollow (.link s((first, firstPort), (second, secondPort))) ∧
      grid.Extended {.link s((first, firstPort), (second, secondPort))} ∅ after
  join : ∀ {first firstPort second secondPort reply after},
    grid.execute (.join first firstPort second secondPort) = (.ok reply, after) →
      ∃ near far, reply = .joined near far ∧ after.fabric.Whole near far ∧
        after.fabric.peer? first firstPort = some near ∧
        after.fabric.peer? second secondPort = some far ∧
        after.fabric.Hangs first firstPort (.pair s(near, far)) ∧
        after.fabric.Hangs second secondPort (.pair s(near, far)) ∧
        after.fabric.Hollow (.pair s(near, far)) ∧
        grid.Extended {.pair s(near, far)} ∅ after

/-- In a grid that was reached without stranding a half every forwarder is half of a whole pair. -/
theorem Tended.whole (tended : grid.Tended) {handle : Handle} {half : Forwarder}
    (known : grid.fabric.forwarder handle = .ok half) :
    ∃ other, half = ⟨some other⟩ ∧ grid.fabric.Whole handle other := by
  have coupled := tended.coupled
  have role := forwarder_eq_ok known
  obtain ⟨other, rfl, back⟩ := coupled.sibling role
  exact ⟨other, rfl, role, back, coupled.linked role, coupled.linked back⟩

/-- Edits are exact in every grid, and where no half has been stranded all pairs are whole. -/
theorem Reachable.exact_edits (reachable : grid.Reachable) :
    grid.ExactEdits ∧
      (grid.Tended → ∀ {handle half}, grid.fabric.forwarder handle = .ok half →
        ∃ other, half = ⟨some other⟩ ∧ grid.fabric.Whole handle other) := by
  have lawful := reachable.sound.lawful
  have wired := lawful.wired
  have single := reachable.single
  refine ⟨?edits, fun tended => tended.whole⟩
  constructor
  case unlink =>
    intro handle port reply after succeeds intact
    obtain ⟨⟨link, linked⟩, rfl⟩ := unlink_eq_ok succeeds
    obtain ⟨attachment, hangs⟩ := intact.exists_hangs wired linked
    have removed := intact.unlinkPort_extended lawful single
    rw [wired.attachmentsAt_single hangs] at removed
    exact ⟨attachment, hangs, removed, rfl⟩
  case split =>
    intro handle other reply after succeeds whole
    rw [split_eq_ok succeeds]
    exact ⟨whole.splitPair_extended lawful single, rfl⟩
  case removeNode =>
    intro handle reply after succeeds intact
    obtain ⟨⟨node, isNode⟩, rfl⟩ := removeNode_eq_ok succeeds
    have removed := lawful.removeNode_extended single isNode intact
    refine ⟨grid.fabric.attachments handle, ?_, removed, rfl⟩
    simp [attachments, wired.mem_attachmentsAt]
  case link =>
    intro first firstPort second secondPort reply after succeeds
    obtain ⟨passes, rfl⟩ := link_eq_ok succeeds
    obtain ⟨hangs, hollow, added⟩ := wired.connect_extended passes
    exact ⟨hangs, hollow, added, rfl⟩
  case join =>
    intro first firstPort second secondPort reply after succeeds
    obtain ⟨passes, answer, rfl⟩ := join_eq_ok succeeds
    obtain ⟨whole, front, behind, hangs, hangsBehind, hollow, added⟩ :=
      wired.joinPorts_extended passes rfl
    exact ⟨_, _, answer, whole, front, behind, hangs, hangsBehind, hollow, added, rfl⟩

/-- Two nodes that are linked and joined with each other.  The one is also linked to itself, and the
other one is joined with itself. -/
def tangled : Grid :=
  standard.run
    [.addNode, .addNode, .link ⟨0, 0⟩ .left ⟨0, 0⟩ .up, .link ⟨0, 0⟩ .right ⟨1, 0⟩ .left,
      .join ⟨0, 0⟩ .down ⟨1, 0⟩ .up, .join ⟨1, 0⟩ .right ⟨1, 0⟩ .down]

/-- Removing the second node takes away a link and two pairs, which have ten of the twelve pipes.
Splitting the pair between the nodes takes away that pair, at the one half as at the other. -/
theorem tangled_edits : tangled.Reachable ∧
    (∃ attachments, (tangled.execute (.removeNode ⟨1, 0⟩)).2.Extended attachments {⟨1, 0⟩} tangled ∧
      ∑ attachment ∈ attachments, attachment.pipeCount = 10) ∧
    (tangled.execute (.split ⟨2, 0⟩)).2.Extended {.pair s(⟨2, 0⟩, ⟨3, 0⟩)} ∅ tangled ∧
    (tangled.execute (.split ⟨3, 0⟩)).2.Extended {.pair s(⟨3, 0⟩, ⟨2, 0⟩)} ∅ tangled := by
  have tended : tangled.Tended := standard_tended.run (by simp [Command.strands])
  obtain ⟨edits, whole⟩ := tended.reachable.exact_edits
  have intact : ∀ handle port, tangled.fabric.Intact handle port := by
    intro handle port link half linked role
    obtain ⟨other, -, pair⟩ := whole tended (forwarder_eq_ok_iff.2 role)
    exact ⟨other, pair⟩
  have pairs : ∀ {handle other}, tangled.fabric.forwarder handle = .ok ⟨some other⟩ →
      tangled.fabric.Whole handle other := by
    intro handle other known
    obtain ⟨_, same, pair⟩ := whole tended known
    cases same
    exact pair
  have succeeds : ∀ {command}, (tangled.execute command).1 = .ok .done →
      tangled.execute command = (.ok .done, (tangled.execute command).2) :=
    fun done => Prod.ext done rfl
  have removes : (tangled.execute (.removeNode ⟨1, 0⟩)).1 = .ok .done := by decide +kernel
  have splits : (tangled.execute (.split ⟨2, 0⟩)).1 = .ok .done ∧
      (tangled.execute (.split ⟨3, 0⟩)).1 = .ok .done := by decide +kernel
  have halves : tangled.fabric.forwarder ⟨2, 0⟩ = .ok ⟨some ⟨3, 0⟩⟩ ∧
      tangled.fabric.forwarder ⟨3, 0⟩ = .ok ⟨some ⟨2, 0⟩⟩ := by decide +kernel
  have counts : tangled.fabric.pipes.openCount = 12 ∧
      (tangled.execute (.removeNode ⟨1, 0⟩)).2.fabric.pipes.openCount = 2 := by decide +kernel
  obtain ⟨attachments, -, removed⟩ := edits.removeNode (succeeds removes) (intact _)
  have pipes := removed.fabric.pipe_count
  rw [counts.1, counts.2] at pipes
  exact ⟨tended.reachable, ⟨attachments, removed, by omega⟩,
    edits.split (succeeds splits.1) (pairs halves.1),
    edits.split (succeeds splits.2) (pairs halves.2)⟩

/-- Two joined nodes, after the port of the first half has been unlinked and a tick has passed. -/
def halfUnlinked : Grid :=
  standard.run
    [.addNode, .addNode, .join ⟨0, 0⟩ .right ⟨1, 0⟩ .left, .unlink ⟨2, 0⟩ .left, .start, .step]

/-- The first half has the second one as its sibling.  Splitting the pair at the first half removes
both, but splitting it at the second one removes only that, and the pair loses two pipes. -/
theorem halfUnlinked_splits_apart : halfUnlinked.Reachable ∧
    halfUnlinked.fabric.forwarder ⟨2, 0⟩ = .ok ⟨some ⟨3, 0⟩⟩ ∧
    (halfUnlinked.execute (.split ⟨2, 0⟩)).2.fabric.modules.size = 2 ∧
    (halfUnlinked.execute (.split ⟨3, 0⟩)).1 = .ok .done ∧
    (halfUnlinked.execute (.split ⟨3, 0⟩)).2.fabric.modules.size = 3 ∧
    (halfUnlinked.execute (.split ⟨3, 0⟩)).2.fabric.forwarder ⟨2, 0⟩ = .ok ⟨some ⟨3, 0⟩⟩ ∧
    halfUnlinked.fabric.pipes.openCount = 2 ∧
    (halfUnlinked.execute (.split ⟨3, 0⟩)).2.fabric.pipes.openCount = 0 := by
  have reachable : halfUnlinked.Reachable := standard_reachable.run _
  exact ⟨reachable, by decide +kernel, by decide +kernel, by decide +kernel, by decide +kernel,
    by decide +kernel, by decide +kernel, by decide +kernel⟩

end Grid

end NodeGrid
