import NodeGrid.Proofs.Fabric.Siblings
import NodeGrid.Proofs.Grid.Pairs

/-!
# Siblings in grids

A command uses a slot again at most twice.  So as long as there are fewer commands than half the
generations of a slot, no handle is issued a second time, and two forwarders that know each other
are named by no third one.
-/

namespace NodeGrid

namespace Grid

theorem Effect.acquainted {grid : Grid} {command : Command} {after : Fabric}
    (effect : grid.Effect command after) (sound : grid.fabric.Sound) {bound : Nat}
    (reused : grid.fabric.modules.Reused bound) (small : bound + 2 < UInt32.size)
    (acquainted : grid.fabric.Acquainted) :
    after.Acquainted ∧ after.modules.Reused (bound + 2) := by
  have wired := sound.lawful.wired
  have of_same : after.Acquainted → grid.fabric.SameSlots after →
      after.Acquainted ∧ after.modules.Reused (bound + 2) :=
    fun still slots => ⟨still, (slots.reused reused).mono (Nat.le_add_right bound 2)⟩
  cases effect with
  | idle command => exact of_same acquainted (.refl _)
  | addNode room node =>
      have less : bound + 1 < UInt32.size := Nat.lt_of_succ_lt small
      exact ⟨acquainted.withNode wired reused less node,
        (wired.modules.reused_insert reused less _).mono (Nat.le_succ _)⟩
  | @removeNode handle node role =>
      have slots := Fabric.SameSlots.removeNode grid.fabric handle
      exact of_same ((wired.removeNode handle).acquainted slots acquainted) slots
  | @link first second firstPort secondPort passes =>
      obtain ⟨_, _, made⟩ := wired.linked_of_checkEnds passes
      have slots := Fabric.SameSlots.connect grid.fabric first firstPort second secondPort
      refine of_same (acquainted.of_same slots ?_ ?_) slots
      · exact fun role => ⟨_, (made.role _).symm.trans role, .inl rfl⟩
      · exact fun role => ⟨_, (made.role _).symm.trans role⟩
  | @unlink handle port link linked =>
      have slots := Fabric.SameSlots.unlinkPort grid.fabric handle port
      exact of_same ((wired.unlinkPort handle port).1.acquainted slots acquainted) slots
  | @join first second firstPort secondPort passes =>
      obtain ⟨_, _, _, _, _, _, joined⟩ := wired.joined_of_checkEnds passes
      obtain ⟨near_fresh, far_fresh, grows, reusedAfter⟩ :=
        wired.slots_joinPorts reused small first firstPort second secondPort
      exact ⟨joined.acquainted acquainted near_fresh far_fresh grows, reusedAfter⟩
  | @split handle half role =>
      have slots := Fabric.SameSlots.splitPair grid.fabric handle
      exact of_same ((wired.splitPair handle).1.acquainted slots acquainted) slots
  | @compile handle node was | @setEnabled handle node was | @resetNode handle node was =>
      have slots := Fabric.SameSlots.setRole grid.fabric handle
      refine of_same (acquainted.of_same (slots _) ?_ (Fabric.exists_node_of_setNode was)) (slots _)
      exact fun role => ⟨_, (Fabric.role?_setNode_forwarder was _).1 role, .inl rfl⟩
  | step running => exact of_same acquainted.tick (.tick _)

theorem acquainted_run {grid : Grid} (sound : grid.fabric.Sound) {bound : Nat}
    (reused : grid.fabric.modules.Reused bound) (acquainted : grid.fabric.Acquainted)
    {history : List Command} (short : bound + 2 * history.length < UInt32.size) :
    (grid.run history).fabric.Acquainted := by
  induction history generalizing grid bound with
  | nil => exact acquainted
  | cons command rest ih =>
      rw [List.length_cons] at short
      obtain ⟨still, reusedAfter⟩ :=
        (effect_execute grid command).acquainted sound reused (by omega) acquainted
      exact ih (sound_execute sound command) reusedAfter still (by omega)

theorem reused_new {settings : Settings} {grid : Grid} (created : Grid.new settings = .ok grid) :
    grid.fabric.modules.Reused 0 := by
  rw [fabric_new created]
  exact .empty

theorem acquainted_new {settings : Settings} {grid : Grid}
    (created : Grid.new settings = .ok grid) : grid.fabric.Acquainted := by
  rw [fabric_new created]
  exact .empty

/-- Grids that have been given so few commands that no generation can have wrapped around. -/
inductive Young : Grid → Prop where
  | run {settings : Settings} {grid : Grid} (created : Grid.new settings = .ok grid)
      {history : List Command} (short : 2 * history.length < UInt32.size) :
      Young (grid.run history)

theorem Young.reachable {grid : Grid} (young : grid.Young) : grid.Reachable := by
  obtain ⟨created, -⟩ := young
  exact (Reachable.new created).run _

theorem standard_young {history : List Command} (short : 2 * history.length < UInt32.size) :
    (standard.run history).Young :=
  .run (show Grid.new .standard = .ok standard from rfl) short

/-- Whoever a forwarder of a young grid names as its sibling is gone, or names it in return, or
names nobody. -/
theorem Young.acquainted {grid : Grid} (young : grid.Young) : grid.fabric.Acquainted := by
  obtain ⟨created, short⟩ := young
  exact acquainted_run (sound_new created) (reused_new created) (acquainted_new created)
    (by rwa [Nat.zero_add])

end Grid

end NodeGrid
