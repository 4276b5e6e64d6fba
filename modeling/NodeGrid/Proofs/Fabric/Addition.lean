import NodeGrid.Proofs.Fabric.Removal

/-!
# Adding attachments

Linking two free ports adds one link, and joining them adds one pair, with empty pipes.  What is
added is just what unlinking takes away, so everything that was there before stays as it was.
-/

namespace NodeGrid.Fabric

/-- No pipe of an attachment holds anything. -/
def Hollow (fabric : Fabric) (attachment : Attachment) : Prop :=
  ∀ ⦃handle port link⦄, fabric.link? handle port = some link →
    attachment.Uses handle port link →
      fabric.pipes.pipe? link.send = some .empty ∧ fabric.pipes.pipe? link.receive = some .empty

namespace Linked

variable {before after : Fabric} {first second : Handle} {firstPort secondPort : Port}
variable {forth back : PipeId}
variable (made : Linked before after first firstPort second secondPort forth back)
include made

/-- The new link is where it should be. -/
theorem link_new (different : ¬(first = second ∧ firstPort = secondPort)) :
    after.link? first firstPort = some ⟨forth, back, second⟩ ∧
      after.link? second secondPort = some ⟨back, forth, first⟩ := by
  constructor
  · simp [made.link]
  · rw [made.link, if_neg, if_pos ⟨rfl, rfl⟩]
    rintro ⟨rfl, rfl⟩
    exact different ⟨rfl, rfl⟩

theorem pipe_new :
    after.pipes.pipe? forth = some .empty ∧ after.pipes.pipe? back = some .empty := by
  simp [PipeTable.pipe?, made.get, made.distinct.symm]

theorem get_of_old {id : PipeId} (forth_ne : id ≠ forth) (back_ne : id ≠ back) :
    after.pipes.get? id = before.pipes.get? id := by
  rw [made.get, if_neg forth_ne, if_neg back_ne]

/-- A link opens two pipes. -/
theorem openCount_eq : after.pipes.openCount = before.pipes.openCount + 2 := by
  rw [← Finset.card_pair made.distinct]
  apply PipeTable.openCount_eq_add_card
  · intro id member
    rcases Finset.mem_insert.1 member with rfl | other
    · exact ⟨_, by rw [made.get, if_pos rfl]⟩
    · rw [Finset.mem_singleton.1 other, made.get, if_neg made.distinct.symm, if_pos rfl]
      exact ⟨_, rfl⟩
  · intro id member
    rcases Finset.mem_insert.1 member with rfl | other
    · exact made.fresh_forth
    · rw [Finset.mem_singleton.1 other]
      exact made.fresh_back
  · intro id other
    simp only [Finset.mem_insert, Finset.mem_singleton, not_or] at other
    exact (made.get_of_old other.1 other.2).symm

variable (freeFirst : before.link? first firstPort = none)
variable (freeSecond : before.link? second secondPort = none)
include freeFirst freeSecond

/-- A link at one of the two ports is the new one. -/
theorem new_of_uses {handle : Handle} {port : Port} {link : Link}
    (linked : after.link? handle port = some link)
    (uses : (Attachment.link s((first, firstPort), (second, secondPort))).Uses handle port link) :
    link = ⟨forth, back, second⟩ ∨ link = ⟨back, forth, first⟩ := by
  rcases made.cases linked with ⟨-, -, same⟩ | ⟨-, -, same⟩ | old
  · exact .inl same
  · exact .inr same
  · rcases Sym2.mem_iff.1 uses with same | same
    · cases same
      simp [freeFirst] at old
    · cases same
      simp [freeSecond] at old

theorem hollow : after.Hollow (.link s((first, firstPort), (second, secondPort))) := by
  intro handle port link linked uses
  obtain ⟨forth_empty, back_empty⟩ := made.pipe_new
  rcases made.new_of_uses freeFirst freeSecond linked uses with rfl | rfl
  · exact ⟨forth_empty, back_empty⟩
  · exact ⟨back_empty, forth_empty⟩

/-- Linking two free ports adds the link between them. -/
theorem extended (wired : before.Wired) :
    before.Extended {.link s((first, firstPort), (second, secondPort))} ∅ after where
  role_new := by simp [Attachment.Brings]
  role_old := fun _ => (made.role _).symm
  link_iff := by
    intro handle port link
    simp only [Finset.mem_singleton, forall_eq]
    constructor
    · intro old
      refine ⟨made.link_of_old freeFirst freeSecond old, fun uses => ?_⟩
      rcases Sym2.mem_iff.1 uses with same | same
      · cases same
        simp [freeFirst] at old
      · cases same
        simp [freeSecond] at old
    · rintro ⟨linked, unused⟩
      rcases made.cases linked with ⟨rfl, rfl, -⟩ | ⟨rfl, rfl, -⟩ | old
      · exact absurd (Sym2.mem_mk_left _ _) unused
      · exact absurd (Sym2.mem_mk_right _ _) unused
      · exact old
  pipe_new := by
    rintro handle port link linked ⟨attachment, member, uses⟩
    rw [Finset.mem_singleton.1 member] at uses
    rcases made.new_of_uses freeFirst freeSecond linked uses with rfl | rfl
    · exact ⟨made.fresh_forth, made.fresh_back⟩
    · exact ⟨made.fresh_back, made.fresh_forth⟩
  pipe_old := by
    intro handle port link old
    obtain ⟨place, mirrored⟩ := wired.mirror old
    obtain ⟨sendForth, sendBack⟩ := made.old_send wired old
    obtain ⟨receiveForth, receiveBack⟩ := made.old_send wired mirrored
    exact ⟨(made.get_of_old sendForth sendBack).symm,
      (made.get_of_old receiveForth receiveBack).symm⟩
  pipe_count := by
    rw [made.openCount_eq, Finset.sum_singleton]
    rfl

end Linked

/-- Two new forwarders are two new modules. -/
theorem PairAdded.extended {before base : Fabric} {near far : Handle}
    (added : PairAdded before near far base) : before.Extended ∅ {near, far} base where
  role_new := by
    rintro handle ((rfl | rfl) | ⟨_, none, -⟩)
    · exact added.near_new
    · exact added.far_new
    · simp at none
  role_old := by
    intro handle old
    simp only [Set.mem_insert_iff, Set.mem_singleton_iff, Finset.notMem_empty, false_and,
      exists_false, or_false, not_or] at old
    rw [added.base_role, if_neg old.1, if_neg old.2]
  link_iff := by simp [added.base_link]
  pipe_new := by simp
  pipe_old := by simp [added.base_pipes]
  pipe_count := by simp [added.base_pipes]

namespace Joined

variable {before after base middle : Fabric} {first second near far : Handle}
variable {firstPort secondPort : Port} {nearForth nearBack farForth farBack : PipeId}
variable {firstNode secondNode : Node}
variable (joined : Joined before after first firstPort second secondPort near far base middle
  nearForth nearBack farForth farBack)
variable (atFirst : before.role? first = some (.node firstNode))
variable (atSecond : before.role? second = some (.node secondNode))
include joined atFirst atSecond

/-- The four ports of the new links. -/
theorem links_new (freeSecond : before.link? second secondPort = none)
    (different : ¬(first = second ∧ firstPort = secondPort)) :
    after.link? first firstPort = some ⟨nearForth, nearBack, near⟩ ∧
      after.link? near firstPort.opposite = some ⟨nearBack, nearForth, first⟩ ∧
      after.link? second secondPort = some ⟨farForth, farBack, far⟩ ∧
      after.link? far secondPort.opposite = some ⟨farBack, farForth, second⟩ := by
  obtain ⟨first_ne_near, -, -, second_ne_far⟩ := joined.halves_new atFirst atSecond
  have free := joined.middle_free atFirst atSecond freeSecond different
  obtain ⟨atNode, atHalf⟩ := joined.first_link.link_new fun same => first_ne_near same.1
  obtain ⟨atOther, atFar⟩ := joined.second_link.link_new fun same => second_ne_far same.1
  exact ⟨joined.second_link.link_of_old free.1 free.2 atNode,
    joined.second_link.link_of_old free.1 free.2 atHalf, atOther, atFar⟩

/-- The two new halves are a whole pair. -/
theorem whole (freeSecond : before.link? second secondPort = none)
    (different : ¬(first = second ∧ firstPort = secondPort)) : after.Whole near far := by
  obtain ⟨-, atNear, -, atFar⟩ := joined.links_new atFirst atSecond freeSecond different
  have roles := fun handle => (joined.role handle).trans (joined.base_role handle)
  constructor
  · rw [roles, if_pos rfl]
  · rw [roles, if_neg joined.near_ne_far.symm, if_pos rfl]
  · exact ⟨_, _, atNear⟩
  · exact ⟨_, _, atFar⟩

variable (freeFirst : before.link? first firstPort = none)
variable (freeSecond : before.link? second secondPort = none)
variable (different : ¬(first = second ∧ firstPort = secondPort)) (wired : before.Wired)
include freeFirst freeSecond different wired

/-- A port is used by the new pair exactly if it is an end of one of the two new links. -/
theorem used_iff {handle : Handle} {port : Port} {link : Link}
    (linked : after.link? handle port = some link) :
    (Attachment.pair s(near, far)).Uses handle port link ↔
      (Attachment.link s((second, secondPort), (far, secondPort.opposite))).Uses handle port link ∨
        (Attachment.link s((first, firstPort), (near, firstPort.opposite))).Uses handle port
          link := by
  obtain ⟨atFirst', atNear, atSecond', atFar⟩ :=
    joined.links_new atFirst atSecond freeSecond different
  constructor
  · intro uses
    rcases joined.second_link.cases linked with ⟨rfl, rfl, -⟩ | ⟨rfl, rfl, -⟩ | between
    · exact .inl (Sym2.mem_mk_left _ _)
    · exact .inl (Sym2.mem_mk_right _ _)
    · rcases joined.first_link.cases between with ⟨rfl, rfl, -⟩ | ⟨rfl, rfl, -⟩ | old
      · exact .inr (Sym2.mem_mk_left _ _)
      · exact .inr (Sym2.mem_mk_right _ _)
      · -- No link that was there before has a new half at either end.
        rw [joined.base_link] at old
        obtain ⟨role, known⟩ := role?_isSome_of_link? old
        obtain ⟨place, mirrored⟩ := wired.mirror old
        obtain ⟨peerRole, peerKnown⟩ := role?_isSome_of_link? mirrored
        rcases uses with own | peer
        · rcases Sym2.mem_iff.1 own with same | same
          · exact absurd same (ne_of_role? known joined.near_new)
          · exact absurd same (ne_of_role? known joined.far_new)
        · rcases Sym2.mem_iff.1 peer with same | same
          · exact absurd same (ne_of_role? peerKnown joined.near_new)
          · exact absurd same (ne_of_role? peerKnown joined.far_new)
  · rintro (uses | uses) <;> rcases Sym2.mem_iff.1 uses with same | same <;> cases same
    · rw [atSecond'] at linked
      cases linked
      exact .inr (Sym2.mem_mk_right _ _)
    · exact .inl (Sym2.mem_mk_right _ _)
    · rw [atFirst'] at linked
      cases linked
      exact .inr (Sym2.mem_mk_left _ _)
    · exact .inl (Sym2.mem_mk_left _ _)

/-- Joining two free ports adds one pair between them. -/
theorem extended : before.Extended {.pair s(near, far)} ∅ after := by
  obtain ⟨-, first_ne_far, second_ne_near, -⟩ := joined.halves_new atFirst atSecond
  have baseFree := joined.base_free freeFirst
  have middleFree := joined.middle_free atFirst atSecond freeSecond different
  have middleWired := joined.middle_wired atFirst atSecond freeFirst
  have atFar := joined.second_link.extended middleFree.1 middleFree.2 middleWired
  have atNear := joined.first_link.extended baseFree.1 baseFree.2 joined.base_wired
  have two : Attachment.link s((second, secondPort), (far, secondPort.opposite)) ≠
      .link s((first, firstPort), (near, firstPort.opposite)) := by
    simp [second_ne_near, first_ne_far.symm, joined.near_ne_far.symm]
  have links := atFar.trans atNear joined.base_wired (Finset.disjoint_singleton.2 two)
  have all := links.trans joined.toPairAdded.extended wired (Finset.disjoint_empty_right _)
  rw [Finset.union_empty, Set.union_self, Set.empty_union] at all
  apply all.congr
  · intro handle
    simp [Attachment.Brings]
  · intro handle port link linked
    simpa using (joined.used_iff atFirst atSecond freeFirst freeSecond different wired linked).symm
  · rw [Finset.sum_union (Finset.disjoint_singleton.2 two)]
    rfl

theorem hollow : after.Hollow (.pair s(near, far)) := by
  have baseFree := joined.base_free freeFirst
  have middleFree := joined.middle_free atFirst atSecond freeSecond different
  have middleWired := joined.middle_wired atFirst atSecond freeFirst
  have atFar := joined.second_link.extended middleFree.1 middleFree.2 middleWired
  intro handle port link linked uses
  by_cases late : (Attachment.link s((second, secondPort), (far, secondPort.opposite))).Uses
      handle port link
  · exact joined.second_link.hollow middleFree.1 middleFree.2 linked late
  · have used := joined.used_iff atFirst atSecond freeFirst freeSecond different wired linked
    have earlier : middle.link? handle port = some link := atFar.link_iff.2 ⟨linked, by simpa⟩
    obtain ⟨sends, receives⟩ := joined.first_link.hollow baseFree.1 baseFree.2 earlier
      ((used.1 uses).resolve_left late)
    obtain ⟨sent, received⟩ := atFar.pipe_old earlier
    simp only [PipeTable.pipe?] at sends receives ⊢
    rw [← sent, ← received]
    exact ⟨sends, receives⟩

end Joined

section CheckEnds

variable {fabric : Fabric} (wired : fabric.Wired) {first second : Handle}
variable {firstPort secondPort : Port}
variable (passes : fabric.checkEnds first firstPort second secondPort = .ok ())
include wired passes

/-- Linking two ports that pass the check adds a link with empty pipes between them. -/
theorem Wired.connect_extended :
    (fabric.connect first firstPort second secondPort).Hangs first firstPort
        (.link s((first, firstPort), (second, secondPort))) ∧
      (fabric.connect first firstPort second secondPort).Hollow
        (.link s((first, firstPort), (second, secondPort))) ∧
      fabric.Extended {.link s((first, firstPort), (second, secondPort))} ∅
        (fabric.connect first firstPort second secondPort) := by
  obtain ⟨-, ⟨node, atSecond⟩, freeFirst, freeSecond, different⟩ := free_of_checkEnds passes
  obtain ⟨forth, back, made⟩ := wired.linked_of_checkEnds passes
  obtain ⟨there, mirrored⟩ := made.link_new different
  refine ⟨.link there ?plain mirrored, made.hollow freeFirst freeSecond,
    made.extended freeFirst freeSecond wired⟩
  case plain =>
    intro half role
    rw [made.role, atSecond] at role
    cases role

/-- Joining two ports that pass the check adds a whole pair with empty pipes between them. -/
theorem Wired.joinPorts_extended {near far : Handle} {after : Fabric}
    (joins : fabric.joinPorts first firstPort second secondPort = ((near, far), after)) :
    after.Whole near far ∧ after.peer? first firstPort = some near ∧
      after.peer? second secondPort = some far ∧
      after.Hangs first firstPort (.pair s(near, far)) ∧
      after.Hangs second secondPort (.pair s(near, far)) ∧ after.Hollow (.pair s(near, far)) ∧
      fabric.Extended {.pair s(near, far)} ∅ after := by
  obtain ⟨⟨_, atFirst⟩, ⟨_, atSecond⟩, freeFirst, freeSecond, different⟩ := free_of_checkEnds passes
  obtain ⟨base, middle, nearForth, nearBack, farForth, farBack, joined⟩ :=
    wired.joined_of_checkEnds passes
  rw [joins] at joined
  have whole := joined.whole atFirst atSecond freeSecond different
  obtain ⟨nearLinked, -, farLinked, -⟩ := joined.links_new atFirst atSecond freeSecond different
  have front : after.Hangs first firstPort (.pair s(near, far)) :=
    .pair nearLinked whole.near_role
  have behind : after.Hangs second secondPort (.pair s(far, near)) :=
    .pair farLinked whole.far_role
  refine ⟨whole, ?_, ?_, front, Sym2.eq_swap ▸ behind,
    joined.hollow atFirst atSecond freeFirst freeSecond different wired,
    joined.extended atFirst atSecond freeFirst freeSecond different wired⟩
  · rw [peer?, nearLinked, Option.map_some]
  · rw [peer?, farLinked, Option.map_some]

end CheckEnds

end NodeGrid.Fabric
