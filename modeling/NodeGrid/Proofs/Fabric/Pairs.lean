import NodeGrid.Proofs.Fabric.Relay
import NodeGrid.Proofs.Fabric.Census
import Mathlib.Algebra.BigOperators.Group.Finset.Basic
import Mathlib.Data.Sym.Sym2

/-!
# Forwarder pairs

A half stands in front of one node and knows its sibling.  That it has at most one link is kept by
every change of a fabric.  That its sibling knows it, and that both have their links, is kept as
long as links and modules are taken away for both halves together.
-/

namespace NodeGrid.Fabric

/-- A forwarder is linked at one port at most. -/
def Single (fabric : Fabric) : Prop :=
  ∀ ⦃handle half port other first second⦄, fabric.role? handle = some (.forwarder half) →
    fabric.link? handle port = some first → fabric.link? handle other = some second → port = other

/-- Every forwarder has a link, and a sibling that knows it. -/
structure Coupled (fabric : Fabric) : Prop where
  sibling : ∀ {handle half}, fabric.role? handle = some (.forwarder half) →
    ∃ other, half = ⟨some other⟩ ∧ fabric.role? other = some (.forwarder ⟨some handle⟩)
  linked : ∀ {handle half}, fabric.role? handle = some (.forwarder half) →
    ∃ port link, fabric.link? handle port = some link

theorem Single.empty : Single empty := by
  intro handle half port other first second role
  simp at role

theorem Coupled.empty : Coupled empty where
  sibling := by simp
  linked := by simp

/-- Modules may change what they do, as long as no other module becomes a forwarder. -/
theorem Single.of_same {before after : Fabric} (single : before.Single)
    (links : ∀ handle port, after.link? handle port = before.link? handle port)
    (forwarders : ∀ {handle half}, after.role? handle = some (.forwarder half) →
      ∃ earlier, before.role? handle = some (.forwarder earlier)) : after.Single := by
  intro handle half port other first second role here there
  obtain ⟨earlier, was⟩ := forwarders role
  rw [links] at here there
  exact single was here there

theorem Coupled.of_same {before after : Fabric} (coupled : before.Coupled)
    (links : ∀ handle port, after.link? handle port = before.link? handle port)
    (forwarders : ∀ {handle half}, after.role? handle = some (.forwarder half) ↔
      before.role? handle = some (.forwarder half)) : after.Coupled where
  sibling := by
    intro handle half role
    obtain ⟨other, sibling, back⟩ := coupled.sibling (forwarders.1 role)
    exact ⟨other, sibling, forwarders.2 back⟩
  linked := by
    intro handle half role
    obtain ⟨port, link, linked⟩ := coupled.linked (forwarders.1 role)
    exact ⟨port, link, (links handle port).trans linked⟩

/-- A node may change without any forwarder taking notice. -/
theorem role?_setNode_forwarder {fabric : Fabric} {handle other : Handle} {old : Node}
    {half : Forwarder} (was : fabric.role? handle = some (.node old)) (new : Node) :
    (fabric.setRole handle (.node new)).role? other = some (.forwarder half) ↔
      fabric.role? other = some (.forwarder half) := by
  rw [role?_setRole]
  by_cases same : other = handle
  · simp [same, was]
  · rw [if_neg same]

/-! ## Adding modules and links -/

theorem Wired.role?_withNode_forwarder {fabric : Fabric} (wired : fabric.Wired) (node : Node)
    {handle : Handle} {half : Forwarder} :
    (fabric.withModule (.node node)).role? handle = some (.forwarder half) ↔
      fabric.role? handle = some (.forwarder half) := by
  rw [wired.role?_withModule]
  by_cases new : handle = (fabric.modules.insert (.unlinked (.node node))).1
  · simp [new, wired.role?_insert_fst]
  · rw [if_neg new]

theorem Linked.single {before after : Fabric} {first second : Handle}
    {firstPort secondPort : Port} {forth back : PipeId} {node : Node}
    (made : Linked before after first firstPort second secondPort forth back)
    (single : before.Single) (atFirst : before.role? first = some (.node node))
    (bare : ∀ {half}, before.role? second = some (.forwarder half) →
      ∀ port, before.link? second port = none) : after.Single := by
  intro handle half port other one two role here there
  rw [made.role] at role
  rcases made.cases here with ⟨rfl, -, -⟩ | ⟨rfl, rfl, -⟩ | old
  · simp [atFirst] at role
  · rcases made.cases there with ⟨rfl, -, -⟩ | ⟨-, rfl, -⟩ | young
    · simp [atFirst] at role
    · rfl
    · simp [bare role] at young
  · rcases made.cases there with ⟨rfl, -, -⟩ | ⟨rfl, -, -⟩ | young
    · simp [atFirst] at role
    · simp [bare role] at old
    · exact single role old young

theorem Linked.coupled {before after : Fabric} {first second : Handle}
    {firstPort secondPort : Port} {forth back : PipeId}
    (made : Linked before after first firstPort second secondPort forth back)
    (coupled : before.Coupled) (freeFirst : before.link? first firstPort = none)
    (freeSecond : before.link? second secondPort = none) : after.Coupled where
  sibling := by
    intro handle half role
    simp only [made.role] at role ⊢
    exact coupled.sibling role
  linked := by
    intro handle half role
    rw [made.role] at role
    obtain ⟨port, link, linked⟩ := coupled.linked role
    exact ⟨port, link, made.link_of_old freeFirst freeSecond linked⟩

/-- A forwarder is one of the two new ones or was there before. -/
theorem PairAdded.role?_cases {before base : Fabric} {near far handle : Handle} {half : Forwarder}
    (added : PairAdded before near far base)
    (role : base.role? handle = some (.forwarder half)) :
    (handle = near ∧ half = ⟨some far⟩) ∨ (handle = far ∧ half = ⟨some near⟩) ∨
      handle ≠ near ∧ handle ≠ far ∧ before.role? handle = some (.forwarder half) := by
  rw [added.base_role] at role
  by_cases isNear : handle = near
  · rw [if_pos isNear] at role
    cases role
    exact .inl ⟨isNear, rfl⟩
  · rw [if_neg isNear] at role
    by_cases isFar : handle = far
    · rw [if_pos isFar] at role
      cases role
      exact .inr (.inl ⟨isFar, rfl⟩)
    · rw [if_neg isFar] at role
      exact .inr (.inr ⟨isNear, isFar, role⟩)

theorem PairAdded.single {before base : Fabric} {near far : Handle}
    (added : PairAdded before near far base) (single : before.Single) : base.Single := by
  intro handle half port other first second role here there
  rw [added.base_link] at here there
  rcases added.role?_cases role with ⟨rfl, -⟩ | ⟨rfl, -⟩ | ⟨-, -, was⟩
  · simp [link?_eq_none_of_role? added.near_new] at here
  · simp [link?_eq_none_of_role? added.far_new] at here
  · exact single was here there

namespace Joined

variable {before after base middle : Fabric} {first second near far : Handle}
variable {firstPort secondPort : Port} {nearForth nearBack farForth farBack : PipeId}
variable {firstNode secondNode : Node}
variable (joined : Joined before after first firstPort second secondPort near far base middle
  nearForth nearBack farForth farBack)
variable (atFirst : before.role? first = some (.node firstNode))
variable (atSecond : before.role? second = some (.node secondNode))
include joined atFirst atSecond

theorem single (single : before.Single) : after.Single := by
  obtain ⟨first_ne_near, first_ne_far, second_ne_near, second_ne_far⟩ :=
    joined.halves_new atFirst atSecond
  have base_single := joined.toPairAdded.single single
  have base_first : base.role? first = some (.node firstNode) := by
    simp [joined.base_role, first_ne_near, first_ne_far, atFirst]
  have near_bare : ∀ port, base.link? near port = none := by
    intro port
    rw [joined.base_link, link?_eq_none_of_role? joined.near_new]
  have middle_single : middle.Single :=
    joined.first_link.single base_single base_first fun _ => near_bare
  have middle_second : middle.role? second = some (.node secondNode) := by
    simp [joined.first_link.role, joined.base_role, second_ne_near, second_ne_far, atSecond]
  have far_bare : ∀ port, middle.link? far port = none := by
    intro port
    simp [joined.first_link.link, first_ne_far.symm, joined.near_ne_far.symm, joined.base_link,
      link?_eq_none_of_role? joined.far_new]
  exact joined.second_link.single middle_single middle_second fun _ => far_bare

/-- The new halves have each other and their links, and nothing is taken from the others. -/
theorem coupled (coupled : before.Coupled) (freeFirst : before.link? first firstPort = none)
    (freeSecond : before.link? second secondPort = none)
    (different : ¬(first = second ∧ firstPort = secondPort)) : after.Coupled := by
  obtain ⟨first_ne_near, first_ne_far, second_ne_near, second_ne_far⟩ :=
    joined.halves_new atFirst atSecond
  have role := joined.role
  have free := joined.middle_free atFirst atSecond freeSecond different
  constructor
  case sibling =>
    intro handle half found
    simp only [role] at found ⊢
    rcases joined.role?_cases found with ⟨rfl, rfl⟩ | ⟨rfl, rfl⟩ | ⟨-, -, was⟩
    · exact ⟨far, rfl, by simp [joined.base_role, joined.near_ne_far.symm]⟩
    · exact ⟨near, rfl, by simp [joined.base_role]⟩
    · obtain ⟨other, sibling, back⟩ := coupled.sibling was
      refine ⟨other, sibling, ?_⟩
      rw [joined.base_role, if_neg (ne_of_role? back joined.near_new),
        if_neg (ne_of_role? back joined.far_new), back]
  case linked =>
    intro handle half found
    rw [role] at found
    rcases joined.role?_cases found with ⟨rfl, -⟩ | ⟨rfl, -⟩ | ⟨-, -, was⟩
    · have made : middle.link? handle firstPort.opposite = some ⟨nearBack, nearForth, first⟩ := by
        simp [joined.first_link.link, first_ne_near.symm]
      exact ⟨_, _, joined.second_link.link_of_old free.1 free.2 made⟩
    · exact ⟨secondPort.opposite, ⟨farBack, farForth, second⟩, by
        simp [joined.second_link.link, second_ne_far.symm]⟩
    · obtain ⟨port, link, linked⟩ := coupled.linked was
      exact ⟨port, link, joined.link_of_old atFirst atSecond freeFirst freeSecond different linked⟩

end Joined

/-! ## Taking links and modules away -/

theorem Pruned.single {before after : Fabric} (pruned : before.Pruned after)
    (single : before.Single) : after.Single := by
  obtain ⟨_, _, cut⟩ := pruned
  intro handle half port other first second role here there
  exact single (cut.role?_of_role? role) (cut.link_iff.1 here).1 (cut.link_iff.1 there).1

/-- Pairs stay whole if siblings go together, and only the links of those that go are closed. -/
theorem Cut.coupled {before after : Fabric} {closed : PipeId → Prop} {removed : Handle → Prop}
    (cut : Cut before after closed removed) (coupled : before.Coupled)
    (together : ∀ {handle other}, before.role? handle = some (.forwarder ⟨some other⟩) →
      before.role? other = some (.forwarder ⟨some handle⟩) → removed other → removed handle)
    (spared : ∀ {handle half port link}, before.role? handle = some (.forwarder half) →
      before.link? handle port = some link → closed link.send → removed handle) :
    after.Coupled where
  sibling := by
    intro handle half role
    have kept : ¬removed handle := by
      intro gone
      simp [cut.role_removed gone] at role
    rw [cut.role_kept kept] at role
    obtain ⟨other, rfl, back⟩ := coupled.sibling role
    refine ⟨other, rfl, ?_⟩
    rw [cut.role_kept fun gone => kept (together role back gone), back]
  linked := by
    intro handle half role
    have kept : ¬removed handle := by
      intro gone
      simp [cut.role_removed gone] at role
    rw [cut.role_kept kept] at role
    obtain ⟨port, link, linked⟩ := coupled.linked role
    exact ⟨port, link, cut.link_iff.2 ⟨linked, fun shut => kept (spared role linked shut)⟩⟩

/-- A module whose link uses a pipe of another module's link is that module, or is linked to it. -/
theorem Wired.eq_of_touches {fabric : Fabric} (wired : fabric.Wired) {handle other : Handle}
    {port : Port} {link : Link} {ports : List Port} (linked : fabric.link? handle port = some link)
    (touches : fabric.Touches other ports link.send) :
    handle = other ∨ ∃ place ∈ ports, ∃ facing, fabric.link? other place = some facing ∧
      facing.peer = handle := by
  obtain ⟨place, member, facing, found, sends | receives⟩ := touches
  · exact .inl (wired.send_injective linked found sends).1
  · obtain ⟨back, mirrored⟩ := wired.mirror found
    have peer := (wired.send_injective linked mirrored receives).1
    exact .inr ⟨place, member, facing, found, peer.symm⟩

/-- Whatever is linked to a forwarder is no other forwarder. -/
theorem Lawful.eq_of_touches_forwarder {fabric : Fabric} (lawful : fabric.Lawful)
    {handle other : Handle} {half rival : Forwarder} {port : Port} {link : Link}
    {ports : List Port} (role : fabric.role? handle = some (.forwarder half))
    (linked : fabric.link? handle port = some link)
    (rivalRole : fabric.role? other = some (.forwarder rival))
    (touches : fabric.Touches other ports link.send) : handle = other := by
  rcases lawful.wired.eq_of_touches linked touches with same | ⟨place, -, facing, found, rfl⟩
  · exact same
  · obtain ⟨node, isNode⟩ := lawful.fronted.faces_node rivalRole found
    simp [role] at isNode

/-- Splitting a pair removes both halves with their links, and nothing else. -/
theorem Wired.splitPair_both {fabric : Fabric} (wired : fabric.Wired) {handle other : Handle}
    {half : Forwarder} (role : fabric.role? handle = some (.forwarder ⟨some other⟩))
    (back : fabric.role? other = some (.forwarder half)) (different : other ≠ handle) :
    Cut fabric (fabric.splitPair handle)
      (fun id => fabric.Touches handle Port.all id ∨ fabric.Touches other Port.all id)
      (fun gone => gone = handle ∨ gone = other) := by
  have halved := wired.removeModule handle
  have still : (fabric.removeModule handle).role? other = some (.forwarder half) :=
    (halved.role_kept different).trans back
  have is_half : (fabric.removeModule handle).isForwarder other = true := by
    obtain ⟨ports, found⟩ := role?_eq_some_iff.1 still
    simp [isForwarder, found, Module.isNode]
  have sibling : (fabric.forwarder handle).toOption.bind (·.sibling) = some other := by
    rw [forwarder_eq_ok_iff.2 role]
    rfl
  have split : fabric.splitPair handle = (fabric.removeModule handle).removeModule other := by
    simp only [Fabric.splitPair, sibling, is_half, if_true]
  rw [split]
  apply (halved.trans ((halved.wired wired).removeModule other)).congr
  · exact halved.closed_or_touches_iff other Port.all
  · simp

/-- No module becomes a forwarder by taking modules away. -/
theorem Pruned.noHalf {before after : Fabric} (pruned : before.Pruned after) {handle : Handle}
    (noHalf : ∀ half, before.role? handle ≠ some (.forwarder half)) (half : Forwarder) :
    after.role? handle ≠ some (.forwarder half) := by
  obtain ⟨_, _, cut⟩ := pruned
  exact fun role => noHalf half (cut.role?_of_role? role)

section Coupled

variable {fabric : Fabric} (lawful : fabric.Lawful) (coupled : fabric.Coupled)
include lawful coupled

theorem Coupled.splitPair {handle : Handle} {half : Forwarder}
    (role : fabric.role? handle = some (.forwarder half)) : (fabric.splitPair handle).Coupled := by
  obtain ⟨other, rfl, back⟩ := coupled.sibling role
  have cut := lawful.wired.splitPair_both role back (lawful.fronted.sibling_ne role)
  apply cut.coupled coupled
  case together =>
    intro one two oneRole twoRole gone
    rcases gone with rfl | rfl
    · rw [role] at twoRole
      cases twoRole
      exact .inr rfl
    · rw [back] at twoRole
      cases twoRole
      exact .inl rfl
  case spared =>
    intro one kept port link oneRole linked shut
    rcases shut with touches | touches
    · exact .inl (lawful.eq_of_touches_forwarder oneRole linked role touches)
    · exact .inr (lawful.eq_of_touches_forwarder oneRole linked back touches)

/-- Unlinking a port of a node undoes a pair as a whole or leaves all pairs alone. -/
theorem Coupled.unlinkPort {handle : Handle} (port : Port)
    (noHalf : ∀ half, fabric.role? handle ≠ some (.forwarder half)) :
    (fabric.unlinkPort handle port).Coupled := by
  unfold Fabric.unlinkPort
  cases linked : fabric.link? handle port with
  | none => exact coupled
  | some link =>
      dsimp only
      by_cases faces : fabric.isForwarder link.peer
      · obtain ⟨half, role⟩ := isForwarder_iff.1 faces
        rw [if_pos faces]
        exact coupled.splitPair lawful role
      · rw [if_neg faces]
        apply (lawful.wired.detachPort handle port).coupled coupled
        case together => exact fun _ _ gone => gone
        case spared =>
          intro one half place kept role found shut
          rcases lawful.wired.eq_of_touches found shut with rfl | ⟨side, here, facing, there, rfl⟩
          · exact noHalf half role
          · rw [List.mem_singleton.1 here, linked] at there
            cases there
            exact faces (isForwarder_iff.2 ⟨half, role⟩)

theorem Coupled.removeNode {handle : Handle}
    (noHalf : ∀ half, fabric.role? handle ≠ some (.forwarder half)) :
    (fabric.removeNode handle).Coupled := by
  have freed : ∀ (ports : List Port) {fabric : Fabric}, fabric.Lawful → fabric.Coupled →
      (∀ half, fabric.role? handle ≠ some (.forwarder half)) →
      (ports.foldl (fun after port => after.unlinkPort handle port) fabric).Coupled := by
    intro ports
    induction ports with
    | nil => exact fun _ coupled _ => coupled
    | cons port rest ih =>
        intro fabric lawful coupled noHalf
        have pruned := (lawful.wired.unlinkPort handle port).1
        exact ih (pruned.lawful lawful) (coupled.unlinkPort lawful port noHalf)
          (pruned.noHalf noHalf)
  obtain ⟨pruned, frees⟩ := lawful.wired.unlinkPorts handle Port.all
  have cut := (pruned.wired lawful.wired).removeUnlinked fun port => frees port (Port.mem_all port)
  apply cut.coupled (freed Port.all lawful coupled noHalf)
  case together =>
    rintro one other - role rfl
    exact absurd role (pruned.noHalf noHalf _)
  case spared => simp

end Coupled

/-! ## Ticks -/

theorem Single.stepModule {fabric : Fabric} (single : fabric.Single) (handle : Handle) :
    (fabric.stepModule handle).Single := by
  apply single.of_same (link?_stepModule fabric handle)
  intro other half after
  obtain ⟨earlier, was, -⟩ := exists_forwarder_of_stepModule after
  exact ⟨earlier, was⟩

theorem Single.stepModules {fabric : Fabric} (single : fabric.Single) (handles : List Handle) :
    (fabric.stepModules handles).Single := by
  induction handles generalizing fabric with
  | nil => exact single
  | cons handle rest ih => exact ih (single.stepModule handle)

theorem Single.tick {fabric : Fabric} (single : fabric.Single) : fabric.tick.Single :=
  single.stepModules fabric.modules.handles

/-- A linked forwarder has a link to relay over. -/
theorem exists_forwarderLink? {fabric : Fabric} {handle : Handle} {half : Forwarder} {port : Port}
    {link : Link} (role : fabric.role? handle = some (.forwarder half))
    (linked : fabric.link? handle port = some link) :
    ∃ own, fabric.forwarderLink? handle = some own := by
  obtain ⟨ports, found⟩ := role?_eq_some_iff.1 role
  obtain ⟨member, known, placed⟩ := link?_eq_some_iff.1 linked
  rw [found] at known
  cases known
  have member : link ∈ ports.links := Ports.mem_links.2 ⟨port, placed⟩
  rw [forwarderLink?_eq found, Module.firstLink?]
  cases links : ports.links with
  | nil => simp [links] at member
  | cons first rest => exact ⟨first, rfl⟩

/-- In a coupled fabric every forwarder is half of a pair. -/
theorem Coupled.paired {fabric : Fabric} (coupled : fabric.Coupled) {handle : Handle}
    {half : Forwarder} (role : fabric.role? handle = some (.forwarder half)) :
    ∃ other own onward, half = ⟨some other⟩ ∧ fabric.Paired handle other own onward := by
  obtain ⟨other, rfl, back⟩ := coupled.sibling role
  obtain ⟨port, link, linked⟩ := coupled.linked role
  obtain ⟨place, facing, found⟩ := coupled.linked back
  obtain ⟨own, near_link⟩ := exists_forwarderLink? role linked
  obtain ⟨onward, far_link⟩ := exists_forwarderLink? back found
  exact ⟨other, own, onward, rfl, role, back, near_link, far_link⟩

/-- In a coupled fabric no forwarder forgets its sibling. -/
theorem Coupled.stepModule {fabric : Fabric} (lawful : fabric.Lawful) (coupled : fabric.Coupled)
    (handle : Handle) : (fabric.stepModule handle).Coupled := by
  apply coupled.of_same (link?_stepModule fabric handle)
  intro other half
  constructor
  · intro after
    obtain ⟨earlier, was, rfl | forgot⟩ := exists_forwarder_of_stepModule after
    · exact was
    · obtain ⟨sibling, own, onward, rfl, paired⟩ := coupled.paired was
      by_cases same : other = handle
      · subst same
        rw [(paired.stepModule lawful).near_role] at after
        cases after
        simp at forgot
      · rwa [role?_stepModule_of_ne same] at after
  · intro was
    by_cases same : other = handle
    · subst same
      obtain ⟨sibling, own, onward, rfl, paired⟩ := coupled.paired was
      exact (paired.stepModule lawful).near_role
    · rwa [role?_stepModule_of_ne same]

theorem Coupled.stepModules {fabric : Fabric} (lawful : fabric.Lawful) (coupled : fabric.Coupled)
    (handles : List Handle) : (fabric.stepModules handles).Coupled := by
  induction handles generalizing fabric with
  | nil => exact coupled
  | cons handle rest ih => exact ih (lawful.stepModule handle) (coupled.stepModule lawful handle)

theorem Coupled.tick {fabric : Fabric} (lawful : fabric.Lawful) (coupled : fabric.Coupled) :
    fabric.tick.Coupled :=
  have phase := coupled.stepModules lawful fabric.modules.handles
  ⟨phase.sibling, phase.linked⟩

/-! ## Counting pairs -/

/-- The forwarder pairs: every half with the sibling that it knows. -/
def pairs (fabric : Fabric) : Finset (Sym2 Handle) :=
  (fabric.halves.filterMap fun (handle, half) => half.sibling.map (s(handle, ·))).toFinset

theorem mem_pairs {fabric : Fabric} {pair : Sym2 Handle} :
    pair ∈ fabric.pairs ↔ ∃ handle other,
      fabric.role? handle = some (.forwarder ⟨some other⟩) ∧ s(handle, other) = pair := by
  simp only [pairs, List.mem_toFinset, List.mem_filterMap, Prod.exists, mem_halves,
    Option.map_eq_some_iff]
  constructor
  · rintro ⟨handle, ⟨sibling⟩, role, other, rfl, same⟩
    exact ⟨handle, other, role, same⟩
  · rintro ⟨handle, other, role, same⟩
    exact ⟨handle, ⟨some other⟩, role, other, rfl, same⟩

/-- A half and its sibling, if it has one. -/
def pairOf : Handle × Forwarder → Sym2 Handle
  | (handle, half) => s(handle, half.sibling.getD handle)

theorem Coupled.image_pairOf {fabric : Fabric} (coupled : fabric.Coupled) :
    fabric.halves.toFinset.image pairOf = fabric.pairs := by
  ext pair
  simp only [Finset.mem_image, List.mem_toFinset, Prod.exists, mem_halves, mem_pairs]
  constructor
  · rintro ⟨handle, half, role, rfl⟩
    obtain ⟨other, rfl, -⟩ := coupled.sibling role
    exact ⟨handle, other, role, rfl⟩
  · rintro ⟨handle, other, role, rfl⟩
    exact ⟨handle, ⟨some other⟩, role, rfl⟩

theorem Coupled.card_halves_of_pair {fabric : Fabric} (lawful : fabric.Lawful)
    (coupled : fabric.Coupled) {pair : Sym2 Handle} (member : pair ∈ fabric.pairs) :
    (fabric.halves.toFinset.filter (pairOf · = pair)).card = 2 := by
  obtain ⟨handle, other, role, rfl⟩ := mem_pairs.1 member
  obtain ⟨_, same, back⟩ := coupled.sibling role
  cases same
  have members : fabric.halves.toFinset.filter (pairOf · = s(handle, other)) =
      {(handle, ⟨some other⟩), (other, ⟨some handle⟩)} := by
    ext ⟨place, half⟩
    simp only [Finset.mem_filter, List.mem_toFinset, mem_halves, Finset.mem_insert,
      Finset.mem_singleton, Prod.mk.injEq]
    constructor
    · rintro ⟨found, same⟩
      obtain ⟨sibling, rfl, -⟩ := coupled.sibling found
      simpa [pairOf] using same
    · rintro (⟨rfl, rfl⟩ | ⟨rfl, rfl⟩)
      · exact ⟨role, rfl⟩
      · exact ⟨back, Sym2.eq_swap⟩
  rw [members, Finset.card_pair]
  exact fun same => lawful.fronted.sibling_ne role (congrArg Prod.fst same).symm

/-- In a coupled fabric each pair has two halves. -/
theorem Coupled.length_halves {fabric : Fabric} (lawful : fabric.Lawful)
    (coupled : fabric.Coupled) : fabric.halves.length = 2 * fabric.pairs.card := by
  calc
    fabric.halves.length = fabric.halves.toFinset.card :=
      (List.toFinset_card_of_nodup (fabric.halves_nodup.of_map _)).symm
    _ = ∑ pair ∈ fabric.pairs, (fabric.halves.toFinset.filter (pairOf · = pair)).card := by
      rw [Finset.card_eq_sum_card_image pairOf, coupled.image_pairOf]
    _ = fabric.pairs.card * 2 :=
      Finset.sum_const_nat fun _ member => coupled.card_halves_of_pair lawful member
    _ = 2 * fabric.pairs.card := Nat.mul_comm _ _

end NodeGrid.Fabric
