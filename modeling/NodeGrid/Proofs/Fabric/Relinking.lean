import NodeGrid.Proofs.Fabric.Sound
import NodeGrid.Proofs.Fabric.Trace

/-!
# Changes around a waiting node

Links come and go and other nodes start anew while a node waits for its write to be claimed.  None
of this changes the node itself, or what it owes at a port that stays linked.  A claim that the node
has not acknowledged is known to its pipe alone, so it is forfeited when its port is unlinked.
-/

namespace NodeGrid

namespace Fabric

/-! ## What a node owes -/

/-- The node under the handle waits for this write. -/
theorem pendingWrite?_eq_some_iff {fabric : Fabric} {handle : Handle} {write : PendingWrite} :
    fabric.pendingWrite? handle = some write ↔
      ∃ node, fabric.role? handle = some (.node node) ∧ node.activity = .waitingWrite write := by
  constructor
  · intro pending
    cases known : fabric.node handle with
    | error error =>
        rw [pendingWrite?, known] at pending
        cases pending
    | ok node =>
        have role := node_eq_ok known
        rw [pendingWrite?_of_role role] at pending
        exact ⟨node, role, Node.pending?_eq_some_iff.1 pending⟩
  · rintro ⟨node, role, waiting⟩
    exact pendingWrite?_of_waiting role waiting

theorem pendingWrite?_congr {before after : Fabric} {handle : Handle}
    (role : after.role? handle = before.role? handle) :
    after.pendingWrite? handle = before.pendingWrite? handle := by
  ext write
  rw [pendingWrite?_eq_some_iff, pendingWrite?_eq_some_iff, role]

/-- A node that waits for no write owes nothing. -/
theorem owed_of_no_write {fabric : Fabric} {handle : Handle}
    (nothing : fabric.pendingWrite? handle = none) : fabric.owed handle = [] := by
  rw [owed, nothing, Option.elim_none]

/-- Whatever is owed is owed for the word that the node waits to write, at a port that is linked. -/
theorem exists_of_mem_owed {fabric : Fabric} {handle : Handle} {claim : Port × Word}
    (member : claim ∈ fabric.owed handle) :
    ∃ write link, fabric.pendingWrite? handle = some write ∧ claim.2 = write.value ∧
      fabric.link? handle claim.1 = some link := by
  cases pending : fabric.pendingWrite? handle with
  | none =>
      rw [owed_of_no_write pending] at member
      cases member
  | some write =>
      rw [owed, pending, Option.elim_some] at member
      obtain ⟨port, -, picked⟩ := List.mem_filterMap.1 member
      obtain ⟨claimed, same⟩ := Option.ite_none_right_eq_some.1 picked
      cases same
      cases sends : fabric.sent? handle port with
      | none => simp [sends] at claimed
      | some pipe =>
          obtain ⟨link, entry, linked, -⟩ := sent?_eq_some_iff.1 sends
          exact ⟨write, link, rfl, rfl, linked⟩

/-- A node never owes for two claims, since the first one withdraws all other copies. -/
theorem Lawful.length_owed_le {fabric : Fabric} (lawful : fabric.Lawful) (handle : Handle) :
    (fabric.owed handle).length ≤ 1 := by
  cases pending : fabric.pendingWrite? handle with
  | none => simp [owed_of_no_write pending]
  | some write =>
      obtain ⟨node, role, -⟩ := pendingWrite?_eq_some_iff.1 pending
      by_cases unclaimed : ∀ port, (fabric.sent? handle port).any (·.isClaimed) = false
      · simp [owed_eq_nil unclaimed]
      · push Not at unclaimed
        obtain ⟨port, claimed⟩ := unclaimed
        cases sends : fabric.sent? handle port with
        | none => simp [sends] at claimed
        | some pipe =>
            obtain ⟨link, entry, linked, opened, rfl⟩ := sent?_eq_some_iff.1 sends
            rw [lawful.owed_of_claimed role pending linked opened (by simpa [sends] using claimed)]
            exact Nat.le_refl 1

/-- A node that waits for a write goes on waiting for it, or for none. -/
theorem pendingWrite?_stepModule {fabric : Fabric} {writer : Handle} {write : PendingWrite}
    (waits : fabric.pendingWrite? writer = some write) (handle : Handle) :
    (fabric.stepModule handle).pendingWrite? writer = some write ∨
      (fabric.stepModule handle).pendingWrite? writer = none := by
  by_cases same : writer = handle
  · subst same
    obtain ⟨node, role, waiting⟩ := pendingWrite?_eq_some_iff.1 waits
    obtain ⟨ports, found⟩ := role?_eq_some_iff.1 role
    rw [pendingWrite?_of_role (role?_stepModule_node found)]
    cases delivery : node.delivery? ports fabric.pipes with
    | none =>
        left
        rw [Node.after_of_waiting waiting delivery]
        exact Node.pending?_eq_some_iff.2 waiting
    | some port =>
        obtain ⟨_, -, goes_on⟩ := Node.after_of_delivery delivery
        right
        rw [goes_on]
        rfl
  · left
    rw [pendingWrite?_congr (role?_stepModule_of_ne same), waits]

/-- The claims that a node owes for and will never learn of, since their ports are not linked any
more. -/
def forfeited (before after : Fabric) (writer : Handle) : List (Port × Word) :=
  (before.owed writer).filter fun claim => (after.link? writer claim.1).isNone

theorem forfeited_eq_nil {before after : Fabric} {writer : Handle}
    (kept : ∀ port link, before.link? writer port = some link →
      after.link? writer port = some link) : before.forfeited after writer = [] := by
  refine List.filter_eq_nil_iff.2 fun claim member => ?_
  obtain ⟨_, link, -, -, linked⟩ := exists_of_mem_owed member
  simp [kept _ _ linked]

/-! ## Sparing a node -/

/-- A change leaves a module what it does, and the claims at the ports that are linked
afterwards. -/
structure Spares (before after : Fabric) (handle : Handle) : Prop where
  role : after.role? handle = before.role? handle
  claims : ∀ port link, after.link? handle port = some link →
    (after.sent? handle port).any (·.isClaimed) = (before.sent? handle port).any (·.isClaimed)

theorem Spares.refl (fabric : Fabric) (handle : Handle) : Spares fabric fabric handle :=
  ⟨rfl, fun _ _ _ => rfl⟩

namespace Spares

variable {before after : Fabric} {handle : Handle} (spares : Spares before after handle)
include spares

/-- The claims that are still owed are those at the ports that are still linked. -/
theorem owed :
    after.owed handle =
      (before.owed handle).filter fun claim => (after.link? handle claim.1).isSome := by
  unfold Fabric.owed
  rw [pendingWrite?_congr spares.role]
  cases before.pendingWrite? handle with
  | none => rfl
  | some write =>
      rw [Option.elim_some, Option.elim_some, List.filter_filterMap]
      refine List.filterMap_congr fun port _ => ?_
      cases linked : after.link? handle port with
      | none =>
          rw [sent?_of_unlinked linked]
          by_cases claimed : (before.sent? handle port).any (·.isClaimed) <;>
            simp [claimed, Option.filter_some, linked]
      | some link =>
          rw [spares.claims port link linked]
          by_cases claimed : (before.sent? handle port).any (·.isClaimed) <;>
            simp [claimed, Option.filter_some, linked]

/-- What a node owed it still owes, or has forfeited. -/
theorem owed_perm :
    (before.owed handle).Perm (before.forfeited after handle ++ after.owed handle) := by
  have split := List.filter_append_perm (fun claim : Port × Word =>
    (after.link? handle claim.1).isNone) (before.owed handle)
  simp only [Option.not_isNone] at split
  rw [spares.owed]
  exact split.symm

end Spares

/-! ## Taking links away -/

/-- Closing pipes leaves what the other pipes hold. -/
theorem Pruned.spares {before after : Fabric} (pruned : before.Pruned after) {handle : Handle}
    (role : after.role? handle = before.role? handle) : Spares before after handle where
  role := role
  claims := by
    intro port link linked
    obtain ⟨_, _, cut⟩ := pruned
    obtain ⟨was, opened⟩ := cut.link_iff.1 linked
    simp only [sent?, linked, was, Option.bind_some, PipeTable.pipe?, cut.get_kept opened]

section Kept

variable {fabric : Fabric} (wired : fabric.Wired) {handle other : Handle} {node : Node}
variable (role : fabric.role? other = some (.node node))
include wired role

/-- A pair is split without touching the nodes. -/
theorem Wired.role?_splitPair (different : other ≠ handle) :
    (fabric.splitPair handle).role? other = some (.node node) := by
  have halved := wired.removeModule handle
  have kept : (fabric.removeModule handle).role? other = some (.node node) :=
    (halved.role_kept different).trans role
  unfold Fabric.splitPair
  cases (fabric.forwarder handle).toOption.bind (·.sibling) with
  | none => exact kept
  | some sibling =>
      dsimp only
      split
      next isHalf =>
        obtain ⟨half, siblingRole⟩ := isForwarder_iff.1 isHalf
        have apart : other ≠ sibling := by
          rintro rfl
          simp [kept] at siblingRole
        exact (((halved.wired wired).removeModule sibling).role_kept apart).trans kept
      next => exact kept

theorem Wired.role?_unlinkPort (port : Port) :
    (fabric.unlinkPort handle port).role? other = some (.node node) := by
  unfold Fabric.unlinkPort
  cases linked : fabric.link? handle port with
  | none => exact role
  | some link =>
      dsimp only
      split
      next isHalf =>
        obtain ⟨half, peerRole⟩ := isForwarder_iff.1 isHalf
        apply wired.role?_splitPair role
        rintro rfl
        simp [role] at peerRole
      next => exact (role?_detachPort linked other).trans role

theorem Wired.role?_unlinkPorts (ports : List Port) :
    (ports.foldl (fun after port => after.unlinkPort handle port) fabric).role? other =
      some (.node node) := by
  induction ports generalizing fabric with
  | nil => exact role
  | cons port rest ih =>
      exact ih ((wired.unlinkPort handle port).1.wired wired) (wired.role?_unlinkPort role port)

theorem Wired.role?_removeNode (different : other ≠ handle) :
    (fabric.removeNode handle).role? other = some (.node node) := by
  obtain ⟨pruned, frees⟩ := wired.unlinkPorts handle Port.all
  have cut := (pruned.wired wired).removeUnlinked fun port => frees port (Port.mem_all port)
  exact (cut.role_kept different).trans (wired.role?_unlinkPorts role Port.all)

end Kept

/-! ## Making links -/

/-- Linking free ports leaves all claims, since the new pipes are empty. -/
theorem Linked.claims {before after : Fabric} {first second : Handle}
    {firstPort secondPort : Port} {forth back : PipeId}
    (made : Linked before after first firstPort second secondPort forth back)
    (wired : before.Wired) (freeFirst : before.link? first firstPort = none)
    (freeSecond : before.link? second secondPort = none) (handle : Handle) (port : Port) :
    (after.sent? handle port).any (·.isClaimed) =
      (before.sent? handle port).any (·.isClaimed) := by
  cases old : before.link? handle port with
  | some link =>
      obtain ⟨forth_ne, back_ne⟩ := made.old_send wired old
      have kept := made.link_of_old freeFirst freeSecond old
      simp only [sent?, old, kept, Option.bind_some, PipeTable.pipe?, made.get, if_neg forth_ne,
        if_neg back_ne]
  | none =>
      rw [sent?_of_unlinked old, Option.any_none]
      apply sent?_any_eq_false
      intro link entry linked opened
      have empty : entry.pipe = .empty := by
        rcases made.get?_cases opened with empty | was
        · exact empty
        · rcases made.cases linked with ⟨-, -, rfl⟩ | ⟨-, -, rfl⟩ | before_linked
          · simp [made.fresh_forth] at was
          · simp [made.fresh_back] at was
          · simp [old] at before_linked
      rw [empty]
      rfl

theorem Joined.spares {before after base middle : Fabric} {first second near far : Handle}
    {firstPort secondPort : Port} {nearForth nearBack farForth farBack : PipeId}
    {firstNode secondNode : Node}
    (joined : Joined before after first firstPort second secondPort near far base middle
      nearForth nearBack farForth farBack)
    (atFirst : before.role? first = some (.node firstNode))
    (atSecond : before.role? second = some (.node secondNode))
    (freeFirst : before.link? first firstPort = none)
    (freeSecond : before.link? second secondPort = none)
    (different : ¬(first = second ∧ firstPort = secondPort)) {handle : Handle} {node : Node}
    (role : before.role? handle = some (.node node)) : Spares before after handle where
  role := by
    rw [joined.role, joined.base_role, if_neg (ne_of_role? role joined.near_new),
      if_neg (ne_of_role? role joined.far_new)]
  claims := by
    intro port _ _
    have base := joined.base_free freeFirst
    have middle := joined.middle_free atFirst atSecond freeSecond different
    rw [joined.second_link.claims (joined.middle_wired atFirst atSecond freeFirst) middle.1 middle.2,
      joined.first_link.claims joined.base_wired base.1 base.2]
    simp only [sent?, joined.base_link, joined.base_pipes]

/-! ## Other modules -/

theorem Wired.spares_withModule {fabric : Fabric} (wired : fabric.Wired) (new : Role)
    {handle : Handle} {role : Role} (known : fabric.role? handle = some role) :
    Spares fabric (fabric.withModule new) handle where
  role := by
    rw [wired.role?_withModule, if_neg (ne_of_role? known (wired.role?_insert_fst new))]
  claims := by
    intro port _ _
    simp only [sent?, wired.link?_withModule]
    rfl

/-- Another node that starts anew empties its own pipes only. -/
theorem Wired.spares_restart {fabric : Fabric} (wired : fabric.Wired) {other : Handle}
    {member : Module} (found : fabric.modules.get? other = some member) (new : Role)
    {handle : Handle} (different : handle ≠ other) :
    Spares fabric
      (setRole { fabric with pipes := fabric.pipes.resetAll member.ports.links } other new)
      handle where
  role := by
    rw [role?_setRole, if_neg different]
    rfl
  claims := by
    intro port link linked
    rw [link?_setRole] at linked
    have was : fabric.link? handle port = some link := linked
    have foreign : link.send ∉ member.ports.links.map (·.send) := by
      intro member_send
      obtain ⟨facing, listed, same⟩ := List.mem_map.1 member_send
      obtain ⟨place, placed⟩ := Ports.mem_links.1 listed
      have facingLinked := link?_eq_some_iff.2 ⟨member, found, placed⟩
      exact different (wired.send_injective was facingLinked same.symm).1
    have kept : (fabric.pipes.resetAll member.ports.links).get? link.send =
        fabric.pipes.get? link.send := by
      rw [PipeTable.get?_resetAll, if_neg foreign]
    simp only [sent?, link?_setRole, linked, was, Option.bind_some, PipeTable.pipe?]
    rw [show (setRole { fabric with pipes := fabric.pipes.resetAll member.ports.links } other
      new).pipes = fabric.pipes.resetAll member.ports.links from rfl, kept]

end Fabric

/-! ## Claims and completions -/

namespace Act

variable {act : Act} {writer : Handle} {node : Node}

/-- A word that is claimed from a node is the one that the node waits to write. -/
theorem exists_of_mem_claims (lawful : act.before.Lawful)
    (role : act.before.role? writer = some (.node node)) {claim : Port × Word}
    (member : claim ∈ act.claims writer) :
    ∃ write, act.before.pendingWrite? writer = some write ∧ claim.2 = write.value := by
  obtain ⟨port, -, picked⟩ := List.mem_filterMap.1 member
  obtain ⟨link, linked, taken⟩ := Option.bind_eq_some_iff.1 picked
  obtain ⟨value, peeked, rfl⟩ := Option.map_eq_some_iff.1 taken
  obtain ⟨-, ready⟩ := Option.ite_none_right_eq_some.1 peeked
  obtain ⟨pipe, holds, shown⟩ := Option.bind_eq_some_iff.1 ready
  obtain ⟨entry, opened, rfl⟩ := PipeTable.pipe?_eq_some_iff.1 holds
  have holds_value : entry.pipe = .ready value := by
    cases held : entry.pipe with
    | ready word => rw [show word = value by simpa [held, Pipe.peek?] using shown]
    | empty | pending word | claimed | delivered => simp [held, Pipe.peek?] at shown
  obtain ⟨write, waiting, -, -, carries⟩ :=
    lawful.coherent.awaited role linked opened (by simp [holds_value])
  rw [holds_value] at carries
  exact ⟨write, Fabric.pendingWrite?_of_waiting role waiting, carries⟩

/-- A node that has completed a write waits for none. -/
theorem pendingWrite?_of_completion {done : Completion} (ends : act.completion? writer = some done) :
    act.actor = writer ∧ act.after.pendingWrite? writer = none := by
  obtain ⟨same, outcome⟩ := Option.ite_none_right_eq_some.1 (show _ = _ from ends)
  refine ⟨same, ?_⟩
  cases earlier : act.before.pendingWrite? writer <;>
    cases later : act.after.pendingWrite? writer <;> simp [earlier, later] at outcome ⊢

end Act

end NodeGrid
