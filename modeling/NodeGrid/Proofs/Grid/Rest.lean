import NodeGrid.Proofs.Grid.Effect

/-!
# Commands between ticks

Words move in ticks alone.  Every other command leaves a pipe as it is, empties it, closes it or
opens it empty, and no module that stays changes from a node into a forwarder or back.
-/

namespace NodeGrid

namespace Fabric

/-- What is open afterwards is empty or as it was, and modules that stay keep their kind. -/
structure Rests (before after : Fabric) : Prop where
  pipes : ∀ {id entry}, after.pipes.get? id = some entry →
    entry.pipe = .empty ∨ before.pipes.get? id = some entry
  roles : ∀ {handle later}, after.role? handle = some later →
    before.role? handle = none ∨ before.role? handle = some later ∨
      ∃ old new, before.role? handle = some (.node old) ∧ later = .node new

namespace Rests

variable {before after : Fabric}

theorem of_pruned (pruned : before.Pruned after) : before.Rests after := by
  obtain ⟨closed, removed, cut⟩ := pruned
  exact ⟨fun opened => .inr (cut.get?_of_get? opened),
    fun role => .inr (.inl (cut.role?_of_role? role))⟩

/-- A node is replaced, and perhaps some pipes are emptied. -/
theorem of_setNode {emptied : Fabric} {handle : Handle} {old : Node}
    (was : before.role? handle = some (.node old)) (same : ∀ other, emptied.role? other =
      before.role? other) (new : Node)
    (pipes : ∀ {id entry}, emptied.pipes.get? id = some entry →
      entry.pipe = .empty ∨ before.pipes.get? id = some entry) :
    before.Rests (emptied.setRole handle (.node new)) where
  pipes := pipes
  roles := by
    intro other later role
    rw [role?_setRole, same, same] at role
    by_cases here : other = handle
    · rw [if_pos here, was, Option.map_some, Option.some.injEq] at role
      exact .inr (.inr ⟨old, new, here ▸ was, role.symm⟩)
    · rw [if_neg here] at role
      exact .inr (.inl role)

/-- Forwarders stay forwarders, and nodes stay nodes. -/
theorem isForwarder_eq (rests : before.Rests after) {handle : Handle} {earlier later : Role}
    (was : before.role? handle = some earlier) (now : after.role? handle = some later) :
    after.isForwarder handle = before.isForwarder handle := by
  have kinds : (∃ half, later = .forwarder half) ↔ ∃ half, earlier = .forwarder half := by
    rcases rests.roles now with none | same | ⟨old, new, node, rfl⟩
    · simp [was] at none
    · cases was.symm.trans same
      rfl
    · cases was.symm.trans node
      simp
  rw [Bool.eq_iff_iff, isForwarder_iff, isForwarder_iff, was, now]
  simpa using kinds

end Rests

end Fabric

namespace Grid

theorem rests_restartNode {grid : Grid} {handle : Handle} {old : Node}
    (was : grid.fabric.role? handle = some (.node old)) (new : Node) :
    grid.fabric.Rests (grid.restartNode handle new).fabric := by
  unfold restartNode
  refine .of_setNode was ?same new ?pipes
  case same => exact fun _ => rfl
  case pipes =>
    intro id entry opened
    rw [PipeTable.get?_resetAll] at opened
    split at opened
    next =>
      obtain ⟨earlier, -, rfl⟩ := Option.map_eq_some_iff.1 opened
      exact .inl rfl
    next => exact .inr opened

/-- Every command but a tick leaves words where they are or drops them. -/
theorem Effect.rests {grid : Grid} {command : Command} {after : Fabric}
    (effect : grid.Effect command after) (sound : grid.fabric.Sound) (quiet : command ≠ .step) :
    grid.fabric.Rests after := by
  have wired := sound.lawful.wired
  cases effect with
  | idle => exact ⟨.inr, fun role => .inr (.inl role)⟩
  | addNode room node =>
      refine ⟨.inr, fun {handle later} role => ?_⟩
      rw [wired.role?_withModule] at role
      split at role
      next new => exact .inl (new ▸ wired.role?_insert_fst _)
      next => exact .inr (.inl role)
  | removeNode role => exact .of_pruned (wired.removeNode _)
  | link passes =>
      obtain ⟨forth, back, made⟩ := wired.linked_of_checkEnds passes
      exact ⟨made.get?_cases, fun role => .inr (.inl ((made.role _).symm.trans role))⟩
  | unlink linked => exact .of_pruned (wired.unlinkPort _ _).1
  | join passes =>
      obtain ⟨base, middle, _, _, _, _, joined⟩ := wired.joined_of_checkEnds passes
      constructor
      case pipes =>
        intro id entry opened
        rcases joined.second_link.get?_cases opened with empty | earlier
        · exact .inl empty
        · rw [← joined.base_pipes]
          exact joined.first_link.get?_cases earlier
      case roles =>
        intro handle later role
        rw [joined.role, joined.base_role] at role
        split at role
        next new => exact .inl (new ▸ joined.near_new)
        next =>
          split at role
          next new => exact .inl (new ▸ joined.far_new)
          next => exact .inr (.inl role)
  | split role => exact .of_pruned (wired.splitPair _).1
  | compile was source compiled => exact rests_restartNode was compiled
  | setEnabled was enabled => exact .of_setNode was (fun _ => rfl) _ .inr
  | resetNode was => exact rests_restartNode was _
  | step => exact absurd rfl quiet

end Grid

end NodeGrid
