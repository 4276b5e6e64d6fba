import NodeGrid.Proofs.Fabric.Pairs

/-!
# Who knows whom among forwarders

A half may outlive its sibling, and then goes on naming a handle that is not in use.  As long as no
handle is issued a second time, nobody else ever answers to it: whoever is named as a sibling is
gone, or names the half in return, or names nobody.
-/

namespace NodeGrid.Fabric

/-- Every sibling that a forwarder names has been there, and if it is there still it knows nobody
but that forwarder. -/
structure Acquainted (fabric : Fabric) : Prop where
  issued : ∀ {handle other}, fabric.role? handle = some (.forwarder ⟨some other⟩) →
    fabric.modules.Issued other
  known : ∀ {handle other role}, fabric.role? handle = some (.forwarder ⟨some other⟩) →
    fabric.role? other = some role →
    ∃ half, role = .forwarder half ∧ (half = ⟨some handle⟩ ∨ half.sibling = none)

theorem Acquainted.empty : Acquainted empty where
  issued := by simp
  known := by simp

theorem issued_of_role? {fabric : Fabric} {handle : Handle} {role : Role}
    (found : fabric.role? handle = some role) : fabric.modules.Issued handle := by
  obtain ⟨ports, member⟩ := role?_eq_some_iff.1 found
  exact Arena.issued_of_get? member

/-- Two halves that know each other are not named by any third forwarder. -/
theorem Acquainted.sibling_unique {fabric : Fabric} (acquainted : fabric.Acquainted)
    {near far other : Handle} (role : fabric.role? near = some (.forwarder ⟨some far⟩))
    (rival : fabric.role? other = some (.forwarder ⟨some near⟩)) : other = far := by
  obtain ⟨half, same, back | forgot⟩ := acquainted.known rival role
  · rw [back] at same
    cases same
    rfl
  · cases same
    cases forgot

/-! ## Slots -/

/-- No slot has been used again. -/
def SameSlots (before after : Fabric) : Prop :=
  ∀ index, after.modules.generation? index = before.modules.generation? index

namespace SameSlots

theorem refl (fabric : Fabric) : SameSlots fabric fabric :=
  fun _ => rfl

theorem trans {before middle after : Fabric} (first : SameSlots before middle)
    (second : SameSlots middle after) : SameSlots before after :=
  fun index => (second index).trans (first index)

theorem foldl {α : Type} {change : Fabric → α → Fabric}
    (each : ∀ fabric item, SameSlots fabric (change fabric item)) (fabric : Fabric)
    (items : List α) : SameSlots fabric (items.foldl change fabric) := by
  induction items generalizing fabric with
  | nil => exact refl fabric
  | cons item rest ih => exact (each fabric item).trans (ih _)

theorem issued {before after : Fabric} (same : SameSlots before after) {handle : Handle}
    (issued : before.modules.Issued handle) : after.modules.Issued handle := by
  unfold Arena.Issued
  rw [same]
  exact issued

theorem reused {before after : Fabric} (same : SameSlots before after) {bound : Nat}
    (reused : before.modules.Reused bound) : after.modules.Reused bound := by
  intro index generation used
  rw [same] at used
  exact reused index generation used

variable (fabric : Fabric) (handle : Handle)

theorem setRole (role : Role) : SameSlots fabric (fabric.setRole handle role) :=
  fabric.modules.generation?_modify handle _

theorem setLink (port : Port) (link : Option Link) :
    SameSlots fabric (fabric.setLink handle port link) :=
  fabric.modules.generation?_modify handle _

theorem connect (port : Port) (other : Handle) (otherPort : Port) :
    SameSlots fabric (fabric.connect handle port other otherPort) :=
  trans (setLink _ handle port _) (setLink _ other otherPort _)

theorem detachPort (port : Port) : SameSlots fabric (fabric.detachPort handle port) := by
  unfold Fabric.detachPort
  cases fabric.link? handle port with
  | none => exact refl fabric
  | some link =>
      exact trans (setLink fabric handle port none) (Arena.generation?_modify _ link.peer _)

theorem removeModule : SameSlots fabric (fabric.removeModule handle) :=
  trans (foldl (fun fabric port => detachPort fabric handle port) fabric Port.all)
    (Arena.generation?_remove _ handle)

theorem splitPair : SameSlots fabric (fabric.splitPair handle) := by
  unfold Fabric.splitPair
  cases (fabric.forwarder handle).toOption.bind (·.sibling) with
  | none => exact removeModule fabric handle
  | some other =>
      dsimp only
      split
      next => exact trans (removeModule fabric handle) (removeModule _ other)
      next => exact removeModule fabric handle

theorem unlinkPort (port : Port) : SameSlots fabric (fabric.unlinkPort handle port) := by
  unfold Fabric.unlinkPort
  cases fabric.link? handle port with
  | none => exact refl fabric
  | some link =>
      dsimp only
      split
      next => exact splitPair fabric link.peer
      next => exact detachPort fabric handle port

theorem removeNode : SameSlots fabric (fabric.removeNode handle) :=
  trans (foldl (fun fabric port => unlinkPort fabric handle port) fabric Port.all)
    (Arena.generation?_remove _ handle)

theorem stepModule : SameSlots fabric (fabric.stepModule handle) := by
  cases found : fabric.modules.get? handle with
  | none =>
      rw [stepModule_missing found]
      exact refl fabric
  | some member =>
      cases member with
      | mk ports role =>
          cases role with
          | node node =>
              rw [stepModule_node found]
              exact setRole _ handle _
          | forwarder half =>
              rcases stepModule_forwarder found with same | forgot
              · rw [same]
                exact fun _ => rfl
              · rw [forgot]
                exact setRole _ handle _

theorem tick : SameSlots fabric fabric.tick :=
  foldl stepModule fabric fabric.modules.handles

end SameSlots

/-! ## Changes of a fabric -/

/-- Forwarders may forget their siblings and modules may go. -/
theorem Acquainted.of_same {before after : Fabric} (acquainted : before.Acquainted)
    (slots : SameSlots before after)
    (forwarders : ∀ {handle half}, after.role? handle = some (.forwarder half) →
      ∃ earlier, before.role? handle = some (.forwarder earlier) ∧
        (half = earlier ∨ half.sibling = none))
    (nodes : ∀ {handle node}, after.role? handle = some (.node node) →
      ∃ earlier, before.role? handle = some (.node earlier)) : after.Acquainted := by
  have was : ∀ {handle other}, after.role? handle = some (.forwarder ⟨some other⟩) →
      before.role? handle = some (.forwarder ⟨some other⟩) := by
    intro handle other role
    obtain ⟨earlier, before_role, same | forgot⟩ := forwarders role
    · exact same ▸ before_role
    · cases forgot
  constructor
  case issued => exact fun role => slots.issued (acquainted.issued (was role))
  case known =>
    intro handle other role found what
    cases role with
    | node node =>
        obtain ⟨earlier, isNode⟩ := nodes what
        obtain ⟨half, isHalf, -⟩ := acquainted.known (was found) isNode
        cases isHalf
    | forwarder half =>
        obtain ⟨earlier, before_role, change⟩ := forwarders what
        obtain ⟨_, same, law⟩ := acquainted.known (was found) before_role
        cases same
        refine ⟨half, rfl, ?_⟩
        rcases change with rfl | forgot
        · exact law
        · exact .inr forgot

theorem Pruned.acquainted {before after : Fabric} (pruned : before.Pruned after)
    (slots : SameSlots before after) (acquainted : before.Acquainted) : after.Acquainted := by
  obtain ⟨_, _, cut⟩ := pruned
  exact acquainted.of_same slots (fun role => ⟨_, cut.role?_of_role? role, .inl rfl⟩)
    fun role => ⟨_, cut.role?_of_role? role⟩

theorem Acquainted.stepModules {fabric : Fabric} (acquainted : fabric.Acquainted)
    (handles : List Handle) : (fabric.stepModules handles).Acquainted := by
  induction handles generalizing fabric with
  | nil => exact acquainted
  | cons handle rest ih =>
      exact ih (acquainted.of_same (SameSlots.stepModule fabric handle)
        exists_forwarder_of_stepModule exists_node_of_stepModule)

theorem Acquainted.tick {fabric : Fabric} (acquainted : fabric.Acquainted) :
    fabric.tick.Acquainted :=
  have phase := acquainted.stepModules fabric.modules.handles
  ⟨phase.issued, phase.known⟩

/-- A new node is nobody's sibling. -/
theorem Acquainted.withNode {fabric : Fabric} (acquainted : fabric.Acquainted)
    (wired : fabric.Wired) {bound : Nat} (reused : fabric.modules.Reused bound)
    (small : bound + 1 < UInt32.size) (node : Node) :
    (fabric.withModule (.node node)).Acquainted := by
  have fresh := wired.modules.not_issued_insert_fst reused small (.unlinked (.node node))
  constructor
  case issued =>
    intro handle other role
    rw [wired.role?_withNode_forwarder] at role
    exact wired.modules.issued_insert reused small _ (acquainted.issued role)
  case known =>
    intro handle other role found what
    rw [wired.role?_withNode_forwarder] at found
    have issued := acquainted.issued found
    have old : other ≠ (fabric.modules.insert (.unlinked (.node node))).1 := by
      rintro rfl
      exact fresh issued
    rw [wired.role?_withModule, if_neg old] at what
    exact acquainted.known found what

/-- The halves of a new pair know each other, and nobody has known them before. -/
theorem Joined.acquainted {before after base middle : Fabric} {first second near far : Handle}
    {firstPort secondPort : Port} {nearForth nearBack farForth farBack : PipeId}
    (joined : Joined before after first firstPort second secondPort near far base middle
      nearForth nearBack farForth farBack) (acquainted : before.Acquainted)
    (near_fresh : ¬before.modules.Issued near) (far_fresh : ¬before.modules.Issued far)
    (grows : ∀ {handle}, before.modules.Issued handle → after.modules.Issued handle) :
    after.Acquainted := by
  have roles := joined.role
  have near_role : after.role? near = some (.forwarder ⟨some far⟩) := by
    simp [roles, joined.base_role]
  have far_role : after.role? far = some (.forwarder ⟨some near⟩) := by
    simp [roles, joined.base_role, joined.near_ne_far.symm]
  constructor
  case issued =>
    intro handle other role
    rw [roles] at role
    rcases joined.role?_cases role with ⟨-, same⟩ | ⟨-, same⟩ | ⟨-, -, was⟩
    · cases same
      exact issued_of_role? far_role
    · cases same
      exact issued_of_role? near_role
    · exact grows (acquainted.issued was)
  case known =>
    intro handle other role found what
    rw [roles] at found
    rcases joined.role?_cases found with ⟨rfl, same⟩ | ⟨rfl, same⟩ | ⟨-, -, was⟩
    · cases same
      rw [far_role] at what
      exact ⟨_, (Option.some.inj what).symm, .inl rfl⟩
    · cases same
      rw [near_role] at what
      exact ⟨_, (Option.some.inj what).symm, .inl rfl⟩
    · have issued := acquainted.issued was
      have not_near : other ≠ near := by
        rintro rfl
        exact near_fresh issued
      have not_far : other ≠ far := by
        rintro rfl
        exact far_fresh issued
      rw [roles, joined.base_role, if_neg not_near, if_neg not_far] at what
      exact acquainted.known was what

/-- The slots after a pair has been put between two ports: two handles have been issued. -/
theorem Wired.slots_joinPorts {fabric : Fabric} (wired : fabric.Wired) {bound : Nat}
    (reused : fabric.modules.Reused bound) (small : bound + 2 < UInt32.size)
    (first : Handle) (firstPort : Port) (second : Handle) (secondPort : Port) :
    ¬fabric.modules.Issued (fabric.joinPorts first firstPort second secondPort).1.1 ∧
      ¬fabric.modules.Issued (fabric.joinPorts first firstPort second secondPort).1.2 ∧
      (∀ {handle}, fabric.modules.Issued handle →
        (fabric.joinPorts first firstPort second secondPort).2.modules.Issued handle) ∧
      (fabric.joinPorts first firstPort second secondPort).2.modules.Reused (bound + 2) := by
  set unpaired := Module.unlinked (.forwarder .unpaired) with unpaired_eq
  set near := (fabric.modules.insert unpaired).1 with near_eq
  set withNear := (fabric.modules.insert unpaired).2 with withNear_eq
  set paired := Module.unlinked (.forwarder ⟨some near⟩) with paired_eq
  have soundNear : withNear.Sound := wired.modules.insert unpaired
  have less : bound + 1 < UInt32.size := Nat.lt_of_succ_lt small
  have reusedNear := wired.modules.reused_insert reused less unpaired
  have grows : ∀ {handle}, fabric.modules.Issued handle → withNear.Issued handle :=
    wired.modules.issued_insert reused less unpaired
  -- Beyond the two new modules, only roles and links change.
  have slots : SameSlots { fabric with modules := (withNear.insert paired).2 }
      (fabric.joinPorts first firstPort second secondPort).2 :=
    (SameSlots.setRole _ near _).trans
      ((SameSlots.connect _ first firstPort near _).trans
        (SameSlots.connect _ second secondPort (withNear.insert paired).1 _))
  refine ⟨?near, ?far, ?grows, ?reused⟩
  case near => exact wired.modules.not_issued_insert_fst reused less unpaired
  case far =>
    exact fun issued => soundNear.not_issued_insert_fst reusedNear small paired (grows issued)
  case grows =>
    exact fun issued => slots.issued (soundNear.issued_insert reusedNear small paired (grows issued))
  case reused => exact slots.reused (soundNear.reused_insert reusedNear small paired)

end NodeGrid.Fabric
