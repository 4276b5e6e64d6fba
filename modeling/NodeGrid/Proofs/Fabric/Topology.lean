import NodeGrid.Proofs.Fabric.Wiring

/-!
# What the changes of links keep

Every operation that takes links away is a cut, and every operation that makes links makes them
between free ports, so a fabric stays wired.  Forwarders stand only in front of nodes.
-/

namespace NodeGrid.Fabric

/-- Whatever a forwarder is linked to is a node, and no forwarder is its own sibling. -/
structure Fronted (fabric : Fabric) : Prop where
  faces_node : ∀ {handle half port link}, fabric.role? handle = some (.forwarder half) →
    fabric.link? handle port = some link → ∃ node, fabric.role? link.peer = some (.node node)
  sibling_ne : ∀ {handle other}, fabric.role? handle = some (.forwarder ⟨some other⟩) →
    other ≠ handle

theorem Fronted.empty : Fronted empty where
  faces_node := by simp
  sibling_ne := by simp

/-- Forwarders may forget their siblings and nodes may change, as long as no module changes from
the one kind into the other. -/
theorem Fronted.of_same {before after : Fabric} (fronted : before.Fronted)
    (links : ∀ handle port, after.link? handle port = before.link? handle port)
    (forwarders : ∀ {handle half}, after.role? handle = some (.forwarder half) →
      ∃ earlier, before.role? handle = some (.forwarder earlier) ∧
        (half = earlier ∨ half.sibling = none))
    (nodes : ∀ {handle node}, before.role? handle = some (.node node) →
      ∃ later, after.role? handle = some (.node later)) : after.Fronted where
  faces_node := by
    intro handle half port link role linked
    obtain ⟨earlier, was, -⟩ := forwarders role
    rw [links] at linked
    obtain ⟨node, peer⟩ := fronted.faces_node was linked
    exact nodes peer
  sibling_ne := by
    intro handle other role
    obtain ⟨earlier, was, same | forgot⟩ := forwarders role
    · exact fronted.sibling_ne (same ▸ was)
    · simp at forgot

theorem Cut.fronted {before after : Fabric} {closed : PipeId → Prop} {removed : Handle → Prop}
    (cut : Cut before after closed removed) (wired : before.Wired) (fronted : before.Fronted) :
    after.Fronted := by
  have kept_of_role : ∀ {handle role}, after.role? handle = some role → ¬removed handle := by
    intro handle role found gone
    simp [cut.role_removed gone] at found
  constructor
  case faces_node =>
    intro handle half port link role linked
    rw [cut.role_kept (kept_of_role role)] at role
    obtain ⟨node, peer⟩ := fronted.faces_node role (cut.link_iff.1 linked).1
    -- The mirror image of the link is still there, and so is the module that has it.
    obtain ⟨other, mirrored⟩ := (cut.wired wired).mirror linked
    obtain ⟨there, found⟩ := role?_isSome_of_link? mirrored
    exact ⟨node, (cut.role_kept (kept_of_role found)).trans peer⟩
  case sibling_ne =>
    intro handle other role
    rw [cut.role_kept (kept_of_role role)] at role
    exact fronted.sibling_ne role

theorem Linked.fronted {before after : Fabric} {first second : Handle}
    {firstPort secondPort : Port} {forth back : PipeId} {node : Node}
    (made : Linked before after first firstPort second secondPort forth back)
    (fronted : before.Fronted) (atFirst : before.role? first = some (.node node)) :
    after.Fronted where
  faces_node := by
    intro handle half port link role linked
    simp only [made.role] at role ⊢
    rcases made.cases linked with ⟨rfl, -, -⟩ | ⟨-, -, rfl⟩ | old
    · simp [atFirst] at role
    · exact ⟨node, atFirst⟩
    · exact fronted.faces_node role old
  sibling_ne := by
    intro handle other role
    rw [made.role] at role
    exact fronted.sibling_ne role

/-! ## Taking links away -/

/-- The fabric after some links and modules have been taken away. -/
def Pruned (before after : Fabric) : Prop :=
  ∃ closed removed, Cut before after closed removed

namespace Pruned

variable {before middle after : Fabric}

theorem trans (first : before.Pruned middle) (second : middle.Pruned after) :
    before.Pruned after := by
  obtain ⟨_, _, cut⟩ := first
  obtain ⟨_, _, further⟩ := second
  exact ⟨_, _, cut.trans further⟩

theorem wired (pruned : before.Pruned after) (wired : before.Wired) : after.Wired := by
  obtain ⟨_, _, cut⟩ := pruned
  exact cut.wired wired

theorem unlinked_of_unlinked (pruned : before.Pruned after) {handle : Handle} {port : Port}
    (unlinked : before.link? handle port = none) : after.link? handle port = none := by
  obtain ⟨_, _, cut⟩ := pruned
  refine Option.eq_none_iff_forall_not_mem.2 fun link linked => ?_
  have earlier := (cut.link_iff.1 linked).1
  simp [unlinked] at earlier

end Pruned

namespace Wired

variable {fabric : Fabric} (wired : fabric.Wired)
include wired

theorem refl_pruned : fabric.Pruned fabric :=
  ⟨_, _, Cut.refl wired.modules wired.pipes⟩

/-- Removing a module clears every port that led to it. -/
theorem unlinked_removeModule {handle : Handle} {port : Port} {link : Link}
    (linked : fabric.link? handle port = some link) :
    (fabric.removeModule link.peer).link? handle port = none := by
  refine Option.eq_none_iff_forall_not_mem.2 fun kept found => ?_
  have cut := wired.removeModule link.peer
  obtain ⟨earlier, opened⟩ := cut.link_iff.1 found
  rw [linked] at earlier
  cases Option.some.inj earlier
  obtain ⟨other, mirrored⟩ := wired.mirror linked
  exact opened ⟨other, by simp, _, mirrored, .inr rfl⟩

theorem splitPair (handle : Handle) : fabric.Pruned (fabric.splitPair handle) ∧
    (fabric.removeModule handle).Pruned (fabric.splitPair handle) := by
  have halved : fabric.Pruned (fabric.removeModule handle) := ⟨_, _, wired.removeModule handle⟩
  have rest : (fabric.removeModule handle).Pruned (fabric.splitPair handle) := by
    have still := halved.wired wired
    unfold Fabric.splitPair
    cases (fabric.forwarder handle).toOption.bind (·.sibling) with
    | none => exact still.refl_pruned
    | some other =>
        dsimp only
        split
        next => exact ⟨_, _, still.removeModule other⟩
        next => exact still.refl_pruned
  exact ⟨halved.trans rest, rest⟩

/-- Whatever hangs at a port is gone once the port has been unlinked. -/
theorem unlinkPort (handle : Handle) (port : Port) :
    fabric.Pruned (fabric.unlinkPort handle port) ∧
      (fabric.unlinkPort handle port).link? handle port = none := by
  unfold Fabric.unlinkPort
  cases linked : fabric.link? handle port with
  | none => exact ⟨wired.refl_pruned, linked⟩
  | some link =>
      dsimp only
      split
      next =>
        obtain ⟨pruned, rest⟩ := wired.splitPair link.peer
        exact ⟨pruned, rest.unlinked_of_unlinked (wired.unlinked_removeModule linked)⟩
      next => exact ⟨⟨_, _, wired.detachPort handle port⟩, by simp [link?_detachPort linked]⟩

theorem unlinkPorts (handle : Handle) (ports : List Port) :
    fabric.Pruned (ports.foldl (fun after port => after.unlinkPort handle port) fabric) ∧
      ∀ port ∈ ports,
        (ports.foldl (fun after port => after.unlinkPort handle port) fabric).link? handle port =
          none := by
  induction ports generalizing fabric with
  | nil => exact ⟨wired.refl_pruned, by simp⟩
  | cons port rest ih =>
      obtain ⟨first, free⟩ := wired.unlinkPort handle port
      obtain ⟨later, frees⟩ := ih (first.wired wired)
      refine ⟨first.trans later, fun other member => ?_⟩
      rcases List.mem_cons.1 member with rfl | member
      · exact later.unlinked_of_unlinked free
      · exact frees other member

theorem removeNode (handle : Handle) : fabric.Pruned (fabric.removeNode handle) := by
  obtain ⟨pruned, frees⟩ := wired.unlinkPorts handle Port.all
  have unlinked := fun port => frees port (Port.mem_all port)
  exact pruned.trans ⟨_, _, (pruned.wired wired).removeUnlinked unlinked⟩

end Wired

/-! ## Adding modules -/

section Insert

variable {fabric : Fabric} (wired : fabric.Wired) (role : Role)
include wired

/-- The fabric with one more module, which has no links. -/
def withModule (fabric : Fabric) (role : Role) : Fabric :=
  { fabric with modules := (fabric.modules.insert (.unlinked role)).2 }

theorem Wired.role?_withModule (other : Handle) :
    (fabric.withModule role).role? other =
      if other = (fabric.modules.insert (.unlinked role)).1 then some role
      else fabric.role? other := by
  simp only [role?, withModule, wired.modules.get?_insert]
  split <;> rfl

theorem Wired.role?_insert_fst :
    fabric.role? (fabric.modules.insert (.unlinked role)).1 = none := by
  simp [role?, wired.modules.get?_insert_fst]

theorem Wired.link?_withModule (other : Handle) (port : Port) :
    (fabric.withModule role).link? other port = fabric.link? other port := by
  simp only [link?, withModule, wired.modules.get?_insert]
  by_cases same : other = (fabric.modules.insert (.unlinked role)).1
  · simp [same, wired.modules.get?_insert_fst, Module.unlinked, Ports.unlinked]
  · simp [same]

theorem Wired.withModule : (fabric.withModule role).Wired :=
  wired.of_same (wired.modules.insert _) wired.pipes (wired.link?_withModule role) fun _ => rfl

end Insert

theorem link?_eq_none_of_role? {fabric : Fabric} {handle : Handle}
    (missing : fabric.role? handle = none) (port : Port) : fabric.link? handle port = none := by
  refine Option.eq_none_iff_forall_not_mem.2 fun link linked => ?_
  obtain ⟨role, found⟩ := role?_isSome_of_link? linked
  simp [missing] at found

theorem ne_of_role? {fabric : Fabric} {handle missing : Handle} {role : Role}
    (known : fabric.role? handle = some role) (unknown : fabric.role? missing = none) :
    handle ≠ missing := by
  rintro rfl
  simp [unknown] at known

/-- The fabric with two more forwarders, which name each other and have no links. -/
def withPair (fabric : Fabric) : (Handle × Handle) × Fabric :=
  let (near, withNear) := fabric.modules.insert (.unlinked (.forwarder .unpaired))
  let (far, withFar) := withNear.insert (.unlinked (.forwarder ⟨some near⟩))
  ((near, far), { fabric with modules := withFar }.setRole near (.forwarder ⟨some far⟩))

/-- What two more forwarders change. -/
structure PairAdded (before : Fabric) (near far : Handle) (base : Fabric) : Prop where
  near_new : before.role? near = none
  far_new : before.role? far = none
  near_ne_far : near ≠ far
  base_wired : base.Wired
  base_pipes : base.pipes = before.pipes
  base_link : ∀ handle port, base.link? handle port = before.link? handle port
  base_role : ∀ handle, base.role? handle =
    if handle = near then some (.forwarder ⟨some far⟩)
    else if handle = far then some (.forwarder ⟨some near⟩)
    else before.role? handle

theorem Wired.withPair {fabric : Fabric} (wired : fabric.Wired) :
    PairAdded fabric fabric.withPair.1.1 fabric.withPair.1.2 fabric.withPair.2 := by
  set nearRole := Role.forwarder .unpaired with nearRole_eq
  set near := (fabric.modules.insert (.unlinked nearRole)).1 with near_eq
  have withNear := wired.withModule nearRole
  set farRole := Role.forwarder ⟨some near⟩ with farRole_eq
  set far := ((fabric.withModule nearRole).modules.insert (.unlinked farRole)).1 with far_eq
  have near_new : fabric.role? near = none := wired.role?_insert_fst nearRole
  have far_new := withNear.role?_insert_fst farRole
  rw [← far_eq, wired.role?_withModule, ← near_eq] at far_new
  have distinct : near ≠ far := by
    intro same
    simp [same] at far_new
  rw [if_neg distinct.symm] at far_new
  set both := (fabric.withModule nearRole).withModule farRole with both_eq
  set base := both.setRole near (.forwarder ⟨some far⟩) with base_eq
  have base_link : ∀ handle port, base.link? handle port = fabric.link? handle port := by
    intro handle port
    rw [base_eq, link?_setRole, both_eq, withNear.link?_withModule, wired.link?_withModule]
  have base_role : ∀ handle, base.role? handle =
      if handle = near then some (.forwarder ⟨some far⟩)
      else if handle = far then some (.forwarder ⟨some near⟩)
      else fabric.role? handle := by
    intro handle
    rw [base_eq, role?_setRole, both_eq]
    simp only [withNear.role?_withModule, wired.role?_withModule, ← near_eq, ← far_eq]
    by_cases isNear : handle = near
    · simp [isNear, distinct]
    · simp [isNear, farRole_eq]
  have base_wired : base.Wired :=
    wired.of_same ((withNear.withModule farRole).modules.modify _ _) wired.pipes base_link
      fun _ => rfl
  exact ⟨near_new, far_new, distinct, base_wired, rfl, base_link, base_role⟩

namespace PairAdded

variable {before base : Fabric} {near far : Handle} (added : PairAdded before near far base)
include added

theorem role?_of_node {handle : Handle} {node : Node}
    (role : base.role? handle = some (.node node)) : before.role? handle = some (.node node) := by
  rw [added.base_role] at role
  by_cases isNear : handle = near
  · simp [isNear] at role
  · by_cases isFar : handle = far
    · rw [if_neg isNear, if_pos isFar] at role
      cases role
    · rwa [if_neg isNear, if_neg isFar] at role

/-- The new forwarders have no links yet, and no forwarder is its own sibling. -/
theorem fronted (fronted : before.Fronted) : base.Fronted where
  faces_node := by
    intro handle half port link role linked
    rw [added.base_link] at linked
    obtain ⟨before_role, known⟩ := role?_isSome_of_link? linked
    rw [added.base_role, if_neg (ne_of_role? known added.near_new),
      if_neg (ne_of_role? known added.far_new)] at role
    obtain ⟨node, peer⟩ := fronted.faces_node role linked
    refine ⟨node, ?_⟩
    rw [added.base_role, if_neg (ne_of_role? peer added.near_new),
      if_neg (ne_of_role? peer added.far_new), peer]
  sibling_ne := by
    intro handle other role
    rw [added.base_role] at role
    by_cases isNear : handle = near
    · simp only [isNear, if_true, Option.some.injEq, Role.forwarder.injEq,
        Forwarder.mk.injEq] at role
      rw [isNear, ← role]
      exact added.near_ne_far.symm
    · rw [if_neg isNear] at role
      by_cases isFar : handle = far
      · simp only [isFar, if_true, Option.some.injEq, Role.forwarder.injEq,
          Forwarder.mk.injEq] at role
        rw [isFar, ← role]
        exact added.near_ne_far
      · rw [if_neg isFar] at role
        exact fronted.sibling_ne role

end PairAdded

/-- A forwarder pair between two ports is made of two new modules and of two links. -/
structure Joined (before after : Fabric) (first : Handle) (firstPort : Port) (second : Handle)
    (secondPort : Port) (near far : Handle) (base middle : Fabric)
    (nearForth nearBack farForth farBack : PipeId) : Prop extends
    PairAdded before near far base where
  first_link : Linked base middle first firstPort near firstPort.opposite nearForth nearBack
  second_link : Linked middle after second secondPort far secondPort.opposite farForth farBack

theorem Wired.joinPorts {fabric : Fabric} (wired : fabric.Wired) {first second : Handle}
    {firstRole secondRole : Role} (firstPort secondPort : Port)
    (firstFound : fabric.role? first = some firstRole)
    (secondFound : fabric.role? second = some secondRole) :
    ∃ base middle nearForth nearBack farForth farBack,
      Joined fabric (fabric.joinPorts first firstPort second secondPort).2 first firstPort second
        secondPort (fabric.joinPorts first firstPort second secondPort).1.1
        (fabric.joinPorts first firstPort second secondPort).1.2 base middle
        nearForth nearBack farForth farBack := by
  have added := wired.withPair
  set near := fabric.withPair.1.1
  set far := fabric.withPair.1.2
  set base := fabric.withPair.2
  have first_ne_near := ne_of_role? firstFound added.near_new
  have first_ne_far := ne_of_role? firstFound added.far_new
  have second_ne_near := ne_of_role? secondFound added.near_new
  have second_ne_far := ne_of_role? secondFound added.far_new
  have first_role : base.role? first = some firstRole := by
    simp [added.base_role, first_ne_near, first_ne_far, firstFound]
  have near_role : base.role? near = some (.forwarder ⟨some far⟩) := by simp [added.base_role]
  obtain ⟨nearForth, nearBack, first_link⟩ := Linked.of_connect added.base_wired.modules
    added.base_wired.pipes firstPort firstPort.opposite first_role near_role
    fun same => first_ne_near same.1
  have second_role : (base.connect first firstPort near firstPort.opposite).role? second =
      some secondRole := by
    simp [first_link.role, added.base_role, second_ne_near, second_ne_far, secondFound]
  have far_role : (base.connect first firstPort near firstPort.opposite).role? far =
      some (.forwarder ⟨some near⟩) := by
    simp [first_link.role, added.base_role, added.near_ne_far.symm]
  obtain ⟨farForth, farBack, second_link⟩ := Linked.of_connect first_link.modules
    first_link.pipes secondPort secondPort.opposite second_role far_role
    fun same => second_ne_far same.1
  exact ⟨base, _, nearForth, nearBack, farForth, farBack,
    { toPairAdded := added, first_link, second_link }⟩

namespace Joined

variable {before after base middle : Fabric} {first second near far : Handle}
variable {firstPort secondPort : Port} {nearForth nearBack farForth farBack : PipeId}
variable {firstNode secondNode : Node}
variable (joined : Joined before after first firstPort second secondPort near far base middle
  nearForth nearBack farForth farBack)
include joined

/-- Linking the halves leaves all roles as they are. -/
theorem role (handle : Handle) : after.role? handle = base.role? handle :=
  (joined.second_link.role handle).trans (joined.first_link.role handle)

/-- No new module is a node. -/
theorem node_before {handle : Handle} {node : Node}
    (role : after.role? handle = some (.node node)) : before.role? handle = some (.node node) :=
  joined.role?_of_node ((joined.role handle).symm.trans role)

/-- The first end and its half are free before any end has been linked. -/
theorem base_free (freeFirst : before.link? first firstPort = none) :
    base.link? first firstPort = none ∧ base.link? near firstPort.opposite = none :=
  ⟨(joined.base_link _ _).trans freeFirst,
    (joined.base_link _ _).trans (link?_eq_none_of_role? joined.near_new _)⟩

variable (atFirst : before.role? first = some (.node firstNode))
variable (atSecond : before.role? second = some (.node secondNode))
include atFirst atSecond

/-- The halves are none of the modules that were there before. -/
theorem halves_new : first ≠ near ∧ first ≠ far ∧ second ≠ near ∧ second ≠ far :=
  ⟨ne_of_role? atFirst joined.near_new, ne_of_role? atFirst joined.far_new,
    ne_of_role? atSecond joined.near_new, ne_of_role? atSecond joined.far_new⟩

theorem middle_wired (freeFirst : before.link? first firstPort = none) : middle.Wired := by
  have free := joined.base_free freeFirst
  apply joined.first_link.wired free.1 free.2 joined.base_wired
  exact fun same => (joined.halves_new atFirst atSecond).1 same.1

/-- The second end and its half are free once the first end has been linked. -/
theorem middle_free (freeSecond : before.link? second secondPort = none)
    (different : ¬(first = second ∧ firstPort = secondPort)) :
    middle.link? second secondPort = none ∧
      middle.link? far secondPort.opposite = none := by
  obtain ⟨-, first_ne_far, second_ne_near, -⟩ := joined.halves_new atFirst atSecond
  constructor
  · have notFirst : ¬(second = first ∧ secondPort = firstPort) :=
      fun same => different ⟨same.1.symm, same.2.symm⟩
    simp [joined.first_link.link, notFirst, second_ne_near, joined.base_link, freeSecond]
  · simp [joined.first_link.link, first_ne_far.symm, joined.near_ne_far.symm, joined.base_link,
      link?_eq_none_of_role? joined.far_new]

/-- Joining free ports leaves the links of all other ports. -/
theorem link_of_old (freeFirst : before.link? first firstPort = none)
    (freeSecond : before.link? second secondPort = none)
    (different : ¬(first = second ∧ firstPort = secondPort)) {handle : Handle} {port : Port}
    {link : Link} (old : before.link? handle port = some link) :
    after.link? handle port = some link := by
  have base := joined.base_free freeFirst
  have middle := joined.middle_free atFirst atSecond freeSecond different
  rw [← joined.base_link] at old
  exact joined.second_link.link_of_old middle.1 middle.2
    (joined.first_link.link_of_old base.1 base.2 old)

theorem wired (freeFirst : before.link? first firstPort = none)
    (freeSecond : before.link? second secondPort = none)
    (different : ¬(first = second ∧ firstPort = secondPort)) : after.Wired := by
  have free := joined.middle_free atFirst atSecond freeSecond different
  exact joined.second_link.wired free.1 free.2 (joined.middle_wired atFirst atSecond freeFirst)
    fun same => (joined.halves_new atFirst atSecond).2.2.2 same.1

theorem fronted (fronted : before.Fronted) : after.Fronted := by
  obtain ⟨first_ne_near, first_ne_far, second_ne_near, second_ne_far⟩ :=
    joined.halves_new atFirst atSecond
  have base_first : base.role? first = some (.node firstNode) := by
    simp [joined.base_role, first_ne_near, first_ne_far, atFirst]
  have middle_second : middle.role? second = some (.node secondNode) := by
    simp [joined.first_link.role, joined.base_role, second_ne_near, second_ne_far, atSecond]
  have base_fronted := joined.toPairAdded.fronted fronted
  exact joined.second_link.fronted (joined.first_link.fronted base_fronted base_first) middle_second

end Joined

end NodeGrid.Fabric
