import NodeGrid.Proofs.Fabric.Isolation
import NodeGrid.Proofs.Grid.Siblings

/-!
# When a set of modules is closed

To see that nothing leads into a set of modules it is enough to see that nothing leads out of it.
For links this is so because they are mirrored.  A forwarder that has a link is named as a sibling by
the one that it names, if that is still there, as long as no handle has been issued a second time.
-/

namespace NodeGrid

namespace Fabric

/-- A linked forwarder is known to its sibling. -/
def Answered (fabric : Fabric) : Prop :=
  ∀ ⦃handle other port link role⦄, fabric.link? handle port = some link →
    fabric.role? handle = some (.forwarder ⟨some other⟩) → fabric.role? other = some role →
    role = .forwarder ⟨some handle⟩

theorem Answered.empty : Answered empty := by
  intro handle other port link role linked what
  simp at what

/-- No link leads out of the members, and no member has its sibling outside. -/
structure Contained (members : Set Handle) (fabric : Fabric) : Prop where
  peer : ∀ {handle port link}, handle ∈ members → fabric.link? handle port = some link →
    link.peer ∈ members
  sibling : ∀ {handle other role}, handle ∈ members →
    fabric.role? handle = some (.forwarder ⟨some other⟩) → fabric.role? other = some role →
    other ∈ members

/-- If siblings are known to each other, nothing leads into a set that nothing leads out of. -/
theorem Answered.closed {fabric : Fabric} (answered : fabric.Answered) {members : Set Handle}
    (contained : fabric.Contained members) : fabric.Closed members where
  peer := contained.peer
  sibling := contained.sibling
  named := by
    intro handle other port link role linked what there inside
    have known := answered linked what there
    exact contained.sibling inside (known ▸ there) what

variable {before after : Fabric}

/-- Links and forwarders may go, as long as no handle that is a sibling's gets a new module. -/
theorem Answered.of_same (answered : before.Answered)
    (linked : ∀ {handle half port link}, after.role? handle = some (.forwarder half) →
      after.link? handle port = some link → before.link? handle port = some link)
    (forwarders : ∀ {handle half}, after.role? handle = some (.forwarder half) →
      before.role? handle = some (.forwarder half))
    (siblings : ∀ {handle other role}, before.role? handle = some (.forwarder ⟨some other⟩) →
      after.role? other = some role → ∃ earlier, before.role? other = some earlier)
    (kept : ∀ {handle half role}, before.role? handle = some (.forwarder half) →
      after.role? handle = some role → role = .forwarder half) : after.Answered := by
  intro handle other port link role here what there
  have was := forwarders what
  obtain ⟨earlier, found⟩ := siblings was there
  have known := answered (linked what here) was found
  exact kept (known ▸ found) there

theorem Pruned.answered (pruned : before.Pruned after) (answered : before.Answered) :
    after.Answered := by
  obtain ⟨_, _, cut⟩ := pruned
  refine answered.of_same (fun _ here => (cut.link_iff.1 here).1) cut.role?_of_role?
    (fun _ there => ⟨_, cut.role?_of_role? there⟩) fun was now => ?_
  exact Option.some.inj ((cut.role?_of_role? now).symm.trans was)

/-- A half forgets its sibling only if that has no link. -/
theorem Answered.stepModule {fabric : Fabric} (answered : fabric.Answered) (actor : Handle) :
    (fabric.stepModule actor).Answered := by
  intro handle other port link role here what there
  rw [link?_stepModule] at here
  obtain ⟨half, was, same | forgot⟩ := exists_forwarder_of_stepModule what
  · obtain ⟨earlier, before⟩ := exists_role?_of_stepModule there
    cases same
    have known := answered here was before
    subst known
    by_cases acts : other = actor
    · subst acts
      obtain ⟨own, forwards⟩ := exists_forwarderLink? was here
      obtain ⟨ports, found⟩ := role?_eq_some_iff.1 before
      rw [stepModule_of_firstLink? found] at there
      cases first : ports.links.head? with
      | none =>
          rw [first, Option.elim_none, before] at there
          exact (Option.some.inj there).symm
      | some near =>
          rw [first, Option.elim_some, role?_stepForwarder, before] at there
          simpa [forwards, eq_comm] using there
    · rw [role?_stepModule_of_ne acts, before] at there
      exact (Option.some.inj there).symm
  · cases forgot

theorem Answered.stepModules {fabric : Fabric} (answered : fabric.Answered)
    (handles : List Handle) : (fabric.stepModules handles).Answered := by
  induction handles generalizing fabric with
  | nil => exact answered
  | cons handle rest ih => exact ih (answered.stepModule handle)

theorem Answered.tick {fabric : Fabric} (answered : fabric.Answered) : fabric.tick.Answered :=
  answered.stepModules fabric.modules.handles

/-- A node that is replaced is no sibling. -/
theorem Answered.setNode {fabric : Fabric} (answered : fabric.Answered) {handle : Handle}
    {old : Node} (was : fabric.role? handle = some (.node old)) (new : Node) :
    (fabric.setRole handle (.node new)).Answered := by
  refine answered.of_same (fun _ here => (link?_setRole _ _ _ _ _).symm.trans here)
    (role?_setNode_forwarder was new).1 ?_ ?_
  · intro handle other role _ there
    rw [role?_setRole] at there
    split at there
    next same => exact ⟨_, same ▸ was⟩
    next => exact ⟨_, there⟩
  · intro other half role earlier now
    exact Option.some.inj (now.symm.trans ((role?_setNode_forwarder was new).2 earlier))

/-- A new node is nobody's sibling. -/
theorem Answered.withNode {fabric : Fabric} (answered : fabric.Answered)
    (acquainted : fabric.Acquainted) (wired : fabric.Wired) {bound : Nat}
    (reused : fabric.modules.Reused bound) (small : bound + 1 < UInt32.size) (node : Node) :
    (fabric.withModule (.node node)).Answered := by
  have fresh := wired.modules.not_issued_insert_fst reused small (.unlinked (.node node))
  refine answered.of_same (fun _ here => (wired.link?_withModule _ _ _).symm.trans here)
    (wired.role?_withNode_forwarder node).1 ?_ ?_
  · intro handle other role was there
    have old : other ≠ (fabric.modules.insert (.unlinked (.node node))).1 := by
      rintro rfl
      exact fresh (acquainted.issued was)
    rw [wired.role?_withModule, if_neg old] at there
    exact ⟨_, there⟩
  · intro handle half role was there
    exact Option.some.inj (there.symm.trans ((wired.role?_withNode_forwarder node).2 was))

/-- A link between nodes concerns no forwarder. -/
theorem Linked.answered {first second : Handle} {firstPort secondPort : Port} {forth back : PipeId}
    (made : Linked before after first firstPort second secondPort forth back)
    (answered : before.Answered) {firstNode secondNode : Node}
    (atFirst : before.role? first = some (.node firstNode))
    (atSecond : before.role? second = some (.node secondNode)) : after.Answered := by
  refine answered.of_same ?_ (fun what => (made.role _).symm.trans what)
    (fun _ there => ⟨_, (made.role _).symm.trans there⟩) ?_
  · intro handle half port link what here
    rw [made.role] at what
    rcases made.cases here with ⟨rfl, -⟩ | ⟨rfl, -⟩ | old
    · simp [atFirst] at what
    · simp [atSecond] at what
    · exact old
  · intro handle half role was now
    exact Option.some.inj (now.symm.trans ((made.role handle).trans was))

/-- The halves of a new pair know each other, and nobody has known them before. -/
theorem Joined.answered {base middle : Fabric} {first second near far : Handle}
    {firstPort secondPort : Port} {nearForth nearBack farForth farBack : PipeId}
    (joined : Joined before after first firstPort second secondPort near far base middle
      nearForth nearBack farForth farBack) (answered : before.Answered)
    (acquainted : before.Acquainted) (near_fresh : ¬before.modules.Issued near)
    (far_fresh : ¬before.modules.Issued far) {firstNode secondNode : Node}
    (atFirst : before.role? first = some (.node firstNode))
    (atSecond : before.role? second = some (.node secondNode)) : after.Answered := by
  have roles := joined.role
  intro handle other port link role here what there
  rw [roles] at what there
  rw [joined.base_role] at there
  rcases joined.role?_cases what with ⟨rfl, same⟩ | ⟨rfl, same⟩ | ⟨not_near, not_far, was⟩
  · cases same
    rw [if_neg joined.near_ne_far.symm, if_pos rfl] at there
    exact (Option.some.inj there).symm
  · cases same
    rw [if_pos rfl] at there
    exact (Option.some.inj there).symm
  · have issued := acquainted.issued was
    have other_not_near : other ≠ near := by
      rintro rfl
      exact near_fresh issued
    have other_not_far : other ≠ far := by
      rintro rfl
      exact far_fresh issued
    rw [if_neg other_not_near, if_neg other_not_far] at there
    -- The new links are those of the two nodes and of the new halves.
    have old : before.link? handle port = some link := by
      rcases joined.second_link.cases here with ⟨rfl, -⟩ | ⟨rfl, -⟩ | between
      · simp [atSecond] at was
      · exact absurd rfl not_far
      · rcases joined.first_link.cases between with ⟨rfl, -⟩ | ⟨rfl, -⟩ | earlier
        · simp [atFirst] at was
        · exact absurd rfl not_near
        · rwa [joined.base_link] at earlier
    exact answered old was there

end Fabric

namespace Grid

theorem Effect.answered {grid : Grid} {command : Command} {after : Fabric}
    (effect : grid.Effect command after) (sound : grid.fabric.Sound) {bound : Nat}
    (reused : grid.fabric.modules.Reused bound) (small : bound + 2 < UInt32.size)
    (acquainted : grid.fabric.Acquainted) (answered : grid.fabric.Answered) : after.Answered := by
  have wired := sound.lawful.wired
  cases effect with
  | idle => exact answered
  | addNode room node =>
      exact answered.withNode acquainted wired reused (Nat.lt_of_succ_lt small) node
  | removeNode => exact (wired.removeNode _).answered answered
  | link passes =>
      obtain ⟨⟨_, atFirst⟩, ⟨_, atSecond⟩, -⟩ := Fabric.free_of_checkEnds passes
      obtain ⟨_, _, made⟩ := wired.linked_of_checkEnds passes
      exact made.answered answered atFirst atSecond
  | unlink => exact (wired.unlinkPort _ _).1.answered answered
  | @join first second firstPort secondPort passes =>
      obtain ⟨⟨_, atFirst⟩, ⟨_, atSecond⟩, -⟩ := Fabric.free_of_checkEnds passes
      obtain ⟨_, _, _, _, _, _, joined⟩ := wired.joined_of_checkEnds passes
      obtain ⟨near_fresh, far_fresh, -⟩ :=
        wired.slots_joinPorts reused small first firstPort second secondPort
      exact joined.answered answered acquainted near_fresh far_fresh atFirst atSecond
  | split => exact (wired.splitPair _).1.answered answered
  | setEnabled was enabled => exact answered.setNode was _
  | compile was | resetNode was =>
      refine Fabric.Answered.setNode ?_ was _
      exact answered
  | step => exact answered.tick

theorem answered_run {grid : Grid} (sound : grid.fabric.Sound) {bound : Nat}
    (reused : grid.fabric.modules.Reused bound) (acquainted : grid.fabric.Acquainted)
    (answered : grid.fabric.Answered) {history : List Command}
    (short : bound + 2 * history.length < UInt32.size) : (grid.run history).fabric.Answered := by
  induction history generalizing grid bound with
  | nil => exact answered
  | cons command rest ih =>
      rw [List.length_cons] at short
      have effect := effect_execute grid command
      have small : bound + 2 < UInt32.size := by omega
      obtain ⟨still, reusedAfter⟩ := effect.acquainted sound reused small acquainted
      exact ih (sound_execute sound command) reusedAfter still
        (effect.answered sound reused small acquainted answered) (by omega)

theorem Young.answered {grid : Grid} (young : grid.Young) : grid.fabric.Answered := by
  obtain ⟨created, short⟩ := young
  have answered : Fabric.empty.Answered := .empty
  rw [← fabric_new created] at answered
  exact answered_run (sound_new created) (reused_new created) (acquainted_new created) answered
    (by rwa [Nat.zero_add])

/-- In a young grid a set of modules is closed as soon as all peers and all siblings of its members
are members. -/
theorem Young.closed {grid : Grid} (young : grid.Young) {members : Set Handle}
    (contained : grid.fabric.Contained members) : grid.fabric.Closed members :=
  young.answered.closed contained

end Grid

end NodeGrid
