import NodeGrid.Proofs.Fabric.Topology
import NodeGrid.Proofs.Node.Transition

/-!
# Coherence of nodes and pipes

A word in a pipe that a node writes to belongs to the write that the node waits for.  A node that
waits for nothing has only empty pipes, and as soon as one copy of a word has been claimed no other
copy is left.  This is what makes it safe for a node to take any claim on any of its ports as the
claim of its pending write.
-/

namespace NodeGrid

/-- A word that the pipe holds and nobody has claimed is this one. -/
def Pipe.Carries (value : Word) : Pipe → Prop
  | .pending held | .ready held => held = value
  | .empty | .claimed | .delivered => True

theorem Pipe.Carries.commit {value : Word} {pipe : Pipe} (carries : pipe.Carries value) :
    pipe.commit.Carries value := by
  cases pipe <;> exact carries

/-- Only a target for any port stands for more than one port. -/
theorem Core.eq_of_mem_reach {core : Core} {target : Target} {port other : Port}
    (single : target ≠ .any) (first : port ∈ core.reach target) (second : other ∈ core.reach target) :
    port = other := by
  cases target with
  | any => exact absurd rfl single
  | port side =>
      simp only [reach, List.mem_singleton] at first second
      rw [first, second]
  | last =>
      cases last : core.registers.last with
      | none => simp [reach, last] at first
      | some side =>
          simp only [reach, last, Option.toList_some, List.mem_singleton] at first second
          rw [first, second]
  | acc | nil => simp [reach] at first

/-- The port that a target names by itself. -/
def Core.destination? (core : Core) : Target → Option Port
  | .port port => some port
  | .last => core.registers.last
  | .any | .acc | .nil => none

theorem Core.mem_reach_of_destination {core : Core} {target : Target} {port : Port}
    (named : core.destination? target = some port) (place : Port) :
    place ∈ core.reach target ↔ place = port := by
  cases target with
  | port side =>
      cases Option.some.inj named
      simp [reach]
  | last => simp [reach, show core.registers.last = some port from named]
  | any | acc | nil => simp [destination?] at named

/-- The entry of a port holds what the node waits to write there. -/
def Node.Awaits (node : Node) (port : Port) (entry : OpenPipe) : Prop :=
  ∃ write, node.activity = .waitingWrite write ∧ port ∈ node.core.reach write.target ∧
    entry.shared = decide (write.target = .any) ∧ entry.pipe.Carries write.value

namespace Fabric

/-- What nodes have in their pipes is their pending writes, and each is claimed at most once. -/
structure Coherent (fabric : Fabric) : Prop where
  awaited : ∀ {handle node port link entry}, fabric.role? handle = some (.node node) →
    fabric.link? handle port = some link → fabric.pipes.get? link.send = some entry →
    entry.pipe ≠ .empty → node.Awaits port entry
  exclusive : ∀ {handle node id other entry rival}, fabric.role? handle = some (.node node) →
    fabric.pipes.get? id = some entry → fabric.pipes.get? other = some rival →
    entry.writer = handle → rival.writer = handle → id ≠ other →
    entry.pipe.isClaimed → rival.pipe = .empty

theorem Coherent.empty : Coherent empty where
  awaited := by simp
  exclusive := by simp

/-- Every pipe is as a commit leaves it. -/
def Settled (fabric : Fabric) : Prop :=
  ∀ id entry, fabric.pipes.get? id = some entry → entry.pipe.commit = entry.pipe

theorem Settled.empty : Settled empty := by
  intro id entry found
  simp [Fabric.empty] at found

/-! ## Changes of links -/

section Cut

variable {before after : Fabric} {closed : PipeId → Prop} {removed : Handle → Prop}
variable (cut : Cut before after closed removed)
include cut

theorem Cut.get?_of_get? {id : PipeId} {entry : OpenPipe}
    (found : after.pipes.get? id = some entry) : before.pipes.get? id = some entry := by
  by_cases shut : closed id
  · simp [cut.get_closed shut] at found
  · rwa [cut.get_kept shut] at found

theorem Cut.role?_of_role? {handle : Handle} {role : Role}
    (found : after.role? handle = some role) : before.role? handle = some role := by
  by_cases gone : removed handle
  · simp [cut.role_removed gone] at found
  · rwa [cut.role_kept gone] at found

theorem Cut.coherent (coherent : before.Coherent) : after.Coherent where
  awaited := by
    intro handle node port link entry role linked found
    exact coherent.awaited (cut.role?_of_role? role) (cut.link_iff.1 linked).1
      (cut.get?_of_get? found)
  exclusive := by
    intro handle node id other entry rival role found rivalFound
    exact coherent.exclusive (cut.role?_of_role? role) (cut.get?_of_get? found)
      (cut.get?_of_get? rivalFound)

theorem Cut.settled (settled : before.Settled) : after.Settled :=
  fun id entry found => settled id entry (cut.get?_of_get? found)

end Cut

section Linked

variable {before after : Fabric} {first second : Handle} {firstPort secondPort : Port}
variable {forth back : PipeId}
variable (made : Linked before after first firstPort second secondPort forth back)
include made

/-- A pipe is new and empty or holds what it held before. -/
theorem Linked.get?_cases {id : PipeId} {entry : OpenPipe}
    (found : after.pipes.get? id = some entry) :
    entry.pipe = .empty ∨ before.pipes.get? id = some entry := by
  rw [made.get] at found
  by_cases isForth : id = forth
  · rw [if_pos isForth] at found
    cases found
    exact .inl rfl
  · rw [if_neg isForth] at found
    by_cases isBack : id = back
    · rw [if_pos isBack] at found
      cases found
      exact .inl rfl
    · rw [if_neg isBack] at found
      exact .inr found

theorem Linked.coherent (coherent : before.Coherent) : after.Coherent where
  awaited := by
    intro handle node port link entry role linked found nonempty
    rw [made.role] at role
    have old := (made.get?_cases found).resolve_left nonempty
    rcases made.cases linked with ⟨-, -, rfl⟩ | ⟨-, -, rfl⟩ | linked
    · simp [made.fresh_forth] at old
    · simp [made.fresh_back] at old
    · exact coherent.awaited role linked old nonempty
  exclusive := by
    intro handle node id other entry rival role found rivalFound writer rivalWriter different claimed
    rw [made.role] at role
    have nonempty : entry.pipe ≠ .empty := by
      intro equal
      simp [equal, Pipe.isClaimed] at claimed
    have old := (made.get?_cases found).resolve_left nonempty
    rcases made.get?_cases rivalFound with done | rivalOld
    · exact done
    · exact coherent.exclusive role old rivalOld writer rivalWriter different claimed

theorem Linked.settled (settled : before.Settled) : after.Settled := by
  intro id entry found
  rcases made.get?_cases found with empty | old
  · rw [empty]
    rfl
  · exact settled id entry old

end Linked

/-- A new module writes to no pipe yet. -/
theorem Coherent.withModule {fabric : Fabric} (wired : fabric.Wired) (coherent : fabric.Coherent)
    (role : Role) : (fabric.withModule role).Coherent := by
  have old_of_writer : ∀ {id entry}, fabric.pipes.get? id = some entry →
      (fabric.withModule role).role? entry.writer = fabric.role? entry.writer := by
    intro id entry found
    obtain ⟨port, link, linked, -⟩ := wired.exists_send found
    rw [wired.role?_withModule, if_neg]
    intro same
    rw [link?_eq_none_of_role? (same ▸ wired.role?_insert_fst role)] at linked
    simp at linked
  constructor
  case awaited =>
    intro handle node port link entry roleFound linked found
    rw [wired.link?_withModule] at linked
    have writer := wired.writer_eq linked found
    rw [← writer, old_of_writer found, writer] at roleFound
    exact coherent.awaited roleFound linked found
  case exclusive =>
    intro handle node id other entry rival roleFound found rivalFound writer
    rw [← writer, old_of_writer found, writer] at roleFound
    exact coherent.exclusive roleFound found rivalFound writer

/-! ## Changes of nodes -/

/-- A node may change if what its pipes hold is then what it waits for. -/
theorem Coherent.setRole {fabric : Fabric} (coherent : fabric.Coherent) {handle : Handle}
    {old new : Node} (was : fabric.role? handle = some (.node old))
    (awaits : ∀ {port link entry}, fabric.link? handle port = some link →
      fabric.pipes.get? link.send = some entry → entry.pipe ≠ .empty → new.Awaits port entry) :
    (fabric.setRole handle (.node new)).Coherent where
  awaited := by
    intro other node port link entry role linked found nonempty
    rw [link?_setRole] at linked
    rw [role?_setRole] at role
    by_cases same : other = handle
    · subst same
      simp only [if_true, was, Option.map_some, Option.some.injEq, Role.node.injEq] at role
      exact role ▸ awaits linked found nonempty
    · rw [if_neg same] at role
      exact coherent.awaited role linked found nonempty
  exclusive := by
    intro other node id place entry rival role found rivalFound writer
    rw [role?_setRole] at role
    by_cases same : other = handle
    · subst same
      exact coherent.exclusive was found rivalFound writer
    · rw [if_neg same] at role
      exact coherent.exclusive role found rivalFound writer

/-- Emptying pipes leaves a fabric coherent. -/
theorem Coherent.of_emptied {fabric : Fabric} (coherent : fabric.Coherent) {pipes : PipeTable}
    (emptied : ∀ {id entry}, pipes.get? id = some entry → ∃ earlier,
      fabric.pipes.get? id = some earlier ∧ entry.writer = earlier.writer ∧
        (entry.pipe = .empty ∨ entry = earlier)) :
    Coherent { fabric with pipes } where
  awaited := by
    intro handle node port link entry role linked found nonempty
    obtain ⟨earlier, was, -, empty | rfl⟩ := emptied found
    · exact absurd empty nonempty
    · exact coherent.awaited role linked was nonempty
  exclusive := by
    intro handle node id other entry rival role found rivalFound writer rivalWriter different claimed
    obtain ⟨earlier, was, -, empty | rfl⟩ := emptied found
    · simp [empty, Pipe.isClaimed] at claimed
    · obtain ⟨older, rivalWas, sameWriter, empty | rfl⟩ := emptied rivalFound
      · exact empty
      · exact coherent.exclusive role was rivalWas writer rivalWriter different claimed

/-! ## Consequences -/

namespace Coherent

variable {fabric : Fabric} (wired : fabric.Wired) (coherent : fabric.Coherent)
variable {handle : Handle} {node : Node} (role : fabric.role? handle = some (.node node))
include wired coherent role

/-- The entry of a pipe that a node writes to is what the node waits for, unless it is empty. -/
theorem awaits_of_writer {id : PipeId} {entry : OpenPipe}
    (found : fabric.pipes.get? id = some entry) (writer : entry.writer = handle)
    (nonempty : entry.pipe ≠ .empty) :
    ∃ port link, fabric.link? handle port = some link ∧ link.send = id ∧
      node.Awaits port entry := by
  obtain ⟨port, link, linked, rfl⟩ := wired.exists_send found
  rw [writer] at linked
  exact ⟨port, link, linked, rfl, coherent.awaited role linked found nonempty⟩

/-- A node that waits for no write has only empty pipes. -/
theorem silent {id : PipeId} {entry : OpenPipe} (found : fabric.pipes.get? id = some entry)
    (writer : entry.writer = handle) (idle : node.activity.status ≠ .waitingWrite) :
    entry.pipe = .empty := by
  by_contra nonempty
  obtain ⟨_, _, _, _, write, waiting, _⟩ :=
    coherent.awaits_of_writer wired role found writer nonempty
  simp [waiting, Activity.status] at idle

/-- Two pipes of a node that are both in use hold copies of a word for any port. -/
theorem shared_of_two {id other : PipeId} {entry rival : OpenPipe}
    (found : fabric.pipes.get? id = some entry) (rivalFound : fabric.pipes.get? other = some rival)
    (writer : entry.writer = handle) (rivalWriter : rival.writer = handle) (different : id ≠ other)
    (nonempty : entry.pipe ≠ .empty) (rivalNonempty : rival.pipe ≠ .empty) :
    entry.shared ∧ rival.shared ∧
      ∃ write, node.activity = .waitingWrite write ∧ write.target = .any := by
  obtain ⟨port, link, linked, rfl, write, waiting, reached, shared, -⟩ :=
    coherent.awaits_of_writer wired role found writer nonempty
  obtain ⟨place, facing, rivalLinked, rfl, same, rivalWaiting, rivalReached, rivalShared, -⟩ :=
    coherent.awaits_of_writer wired role rivalFound rivalWriter rivalNonempty
  rw [waiting] at rivalWaiting
  cases Activity.waitingWrite.inj rivalWaiting
  have any : write.target = .any := by
    by_contra single
    cases Core.eq_of_mem_reach single reached rivalReached
    rw [linked] at rivalLinked
    cases Option.some.inj rivalLinked
    exact different rfl
  exact ⟨by simp [shared, any], by simp [rivalShared, any], write, waiting, any⟩

end Coherent

end Fabric

end NodeGrid
