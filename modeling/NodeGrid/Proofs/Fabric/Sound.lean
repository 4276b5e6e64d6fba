import NodeGrid.Proofs.Fabric.Phase

/-!
# Sound fabrics

Between commands a fabric is lawful and settled.  Every change that a grid makes to its fabric leads
from a sound fabric to a sound one.
-/

namespace NodeGrid

namespace Fabric

theorem checkPort_eq_ok {fabric : Fabric} {handle : Handle} {port : Port}
    (passes : fabric.checkPort handle port = .ok ()) :
    (∃ node, fabric.role? handle = some (.node node)) ∧ fabric.link? handle port = none := by
  unfold checkPort module at passes
  cases found : fabric.modules.get? handle with
  | none => simp [found, bind, Except.bind] at passes
  | some member =>
      cases member with
      | mk ports role =>
          cases role with
          | node node =>
              cases linked : ports.get port with
              | none => simp [role?, link?, found, linked]
              | some link =>
                  simp [found, linked, Module.isNode, bind, Except.bind, throw, throwThe,
                    MonadExceptOf.throw] at passes
          | forwarder half =>
              simp [found, Module.isNode, bind, Except.bind, throw, throwThe,
                MonadExceptOf.throw] at passes

theorem checkEnds_eq_ok {fabric : Fabric} {first second : Handle} {firstPort secondPort : Port}
    (passes : fabric.checkEnds first firstPort second secondPort = .ok ()) :
    fabric.checkPort first firstPort = .ok () ∧ fabric.checkPort second secondPort = .ok () ∧
      ¬(first = second ∧ firstPort = secondPort) := by
  unfold checkEnds at passes
  cases one : fabric.checkPort first firstPort with
  | error error => simp [one, bind, Except.bind] at passes
  | ok =>
      cases two : fabric.checkPort second secondPort with
      | error error => simp [one, two, bind, Except.bind] at passes
      | ok =>
          refine ⟨rfl, rfl, fun same => ?_⟩
          simp [two, same, bind, Except.bind, throw, throwThe, MonadExceptOf.throw] at passes

/-- Ends that pass the check are free ports of nodes, and they differ. -/
theorem free_of_checkEnds {fabric : Fabric} {first second : Handle} {firstPort secondPort : Port}
    (passes : fabric.checkEnds first firstPort second secondPort = .ok ()) :
    (∃ node, fabric.role? first = some (.node node)) ∧
      (∃ node, fabric.role? second = some (.node node)) ∧
      fabric.link? first firstPort = none ∧ fabric.link? second secondPort = none ∧
      ¬(first = second ∧ firstPort = secondPort) := by
  obtain ⟨one, two, different⟩ := checkEnds_eq_ok passes
  obtain ⟨firstFound, firstFree⟩ := checkPort_eq_ok one
  obtain ⟨secondFound, secondFree⟩ := checkPort_eq_ok two
  exact ⟨firstFound, secondFound, firstFree, secondFree, different⟩

section CheckEnds

variable {fabric : Fabric} (wired : fabric.Wired) {first second : Handle}
variable {firstPort secondPort : Port}
variable (passes : fabric.checkEnds first firstPort second secondPort = .ok ())
include wired passes

/-- Ends that pass the check can be linked. -/
theorem Wired.linked_of_checkEnds : ∃ forth back,
    Linked fabric (fabric.connect first firstPort second secondPort) first firstPort second
      secondPort forth back := by
  obtain ⟨⟨_, firstFound⟩, ⟨_, secondFound⟩, -, -, different⟩ := free_of_checkEnds passes
  exact Linked.of_connect wired.modules wired.pipes firstPort secondPort firstFound secondFound
    different

/-- Ends that pass the check can be joined. -/
theorem Wired.joined_of_checkEnds : ∃ base middle nearForth nearBack farForth farBack,
    Joined fabric (fabric.joinPorts first firstPort second secondPort).2 first firstPort second
      secondPort (fabric.joinPorts first firstPort second secondPort).1.1
      (fabric.joinPorts first firstPort second secondPort).1.2 base middle nearForth nearBack
      farForth farBack := by
  obtain ⟨⟨_, firstFound⟩, ⟨_, secondFound⟩, -⟩ := free_of_checkEnds passes
  exact wired.joinPorts firstPort secondPort firstFound secondFound

end CheckEnds

theorem Fronted.withNode {fabric : Fabric} (fronted : fabric.Fronted) (wired : fabric.Wired)
    (node : Node) : (fabric.withModule (.node node)).Fronted where
  faces_node := by
    intro handle half port link role linked
    rw [wired.role?_withModule] at role ⊢
    rw [wired.link?_withModule] at linked
    by_cases new : handle = (fabric.modules.insert (.unlinked (.node node))).1
    · simp [new] at role
    · rw [if_neg new] at role
      by_cases faced : link.peer = (fabric.modules.insert (.unlinked (.node node))).1
      · exact ⟨node, if_pos faced⟩
      · rw [if_neg faced]
        exact fronted.faces_node role linked
  sibling_ne := by
    intro handle other role
    rw [wired.role?_withModule] at role
    by_cases new : handle = (fabric.modules.insert (.unlinked (.node node))).1
    · simp [new] at role
    · rw [if_neg new] at role
      exact fronted.sibling_ne role

theorem Fronted.setNode {fabric : Fabric} (fronted : fabric.Fronted) {handle : Handle}
    {old : Node} (was : fabric.role? handle = some (.node old)) (node : Node) :
    (fabric.setRole handle (.node node)).Fronted := by
  apply fronted.of_same (by simp)
  case forwarders =>
    intro other half role
    rw [role?_setRole] at role
    by_cases same : other = handle
    · simp [same, was] at role
    · rw [if_neg same] at role
      exact ⟨half, role, .inl rfl⟩
  case nodes =>
    intro other earlier role
    rw [role?_setRole]
    by_cases same : other = handle
    · simp [same, was]
    · simp [same, role]

/-- Modules that are not nodes may come and go as long as the pipes stay. -/
theorem Coherent.of_nodes {before after : Fabric} (coherent : before.Coherent)
    (nodes : ∀ {handle node}, after.role? handle = some (.node node) →
      before.role? handle = some (.node node))
    (links : ∀ handle port, after.link? handle port = before.link? handle port)
    (pipes : after.pipes = before.pipes) : after.Coherent where
  awaited := by
    intro handle node port link entry role linked opened
    rw [links] at linked
    rw [pipes] at opened
    exact coherent.awaited (nodes role) linked opened
  exclusive := by
    intro handle node id other entry rival role opened rivalOpened
    rw [pipes] at opened rivalOpened
    exact coherent.exclusive (nodes role) opened rivalOpened

theorem Joined.coherent {before after base middle : Fabric} {first second near far : Handle}
    {firstPort secondPort : Port} {nearForth nearBack farForth farBack : PipeId}
    (joined : Joined before after first firstPort second secondPort near far base middle
      nearForth nearBack farForth farBack) (coherent : before.Coherent) : after.Coherent := by
  have base_coherent :=
    coherent.of_nodes joined.role?_of_node joined.base_link joined.base_pipes
  exact joined.second_link.coherent (joined.first_link.coherent base_coherent)

theorem Joined.settled {before after base middle : Fabric} {first second near far : Handle}
    {firstPort secondPort : Port} {nearForth nearBack farForth farBack : PipeId}
    (joined : Joined before after first firstPort second secondPort near far base middle
      nearForth nearBack farForth farBack) (settled : before.Settled) : after.Settled := by
  have base_settled : base.Settled := by
    intro id entry opened
    rw [joined.base_pipes] at opened
    exact settled id entry opened
  exact joined.second_link.settled (joined.first_link.settled base_settled)

theorem Cut.lawful {before after : Fabric} {closed : PipeId → Prop} {removed : Handle → Prop}
    (cut : Cut before after closed removed) (lawful : before.Lawful) : after.Lawful :=
  ⟨cut.wired lawful.wired, cut.fronted lawful.wired lawful.fronted, cut.coherent lawful.coherent⟩

theorem Pruned.lawful {before after : Fabric} (pruned : before.Pruned after)
    (lawful : before.Lawful) : after.Lawful := by
  obtain ⟨closed, removed, cut⟩ := pruned
  exact cut.lawful lawful

/-! ## Sound fabrics -/

/-- Between commands a fabric is lawful, and no tick is under way. -/
structure Sound (fabric : Fabric) : Prop where
  lawful : fabric.Lawful
  settled : fabric.Settled

namespace Sound

theorem empty : Sound empty where
  lawful := ⟨.empty, .empty, .empty⟩
  settled := Settled.empty

variable {fabric : Fabric} (sound : fabric.Sound)
include sound

/-- Between ticks a pipe is empty, or holds a word that can be claimed, or a claim that can be
acknowledged. -/
theorem pipe_cases {id : PipeId} {pipe : Pipe} (holds : fabric.pipes.pipe? id = some pipe) :
    (∀ value, pipe ≠ .pending value) ∧ pipe ≠ .claimed := by
  obtain ⟨entry, opened, rfl⟩ := PipeTable.pipe?_eq_some_iff.1 holds
  exact Pipe.commit_eq_self_iff.1 (sound.settled id entry opened)

theorem any_isClaimed (handle : Handle) (port : Port) :
    (fabric.sent? handle port).any (·.isClaimed) =
      decide (fabric.sent? handle port = some .delivered) := by
  cases sends : fabric.sent? handle port with
  | none => simp
  | some pipe =>
      obtain ⟨link, entry, -, opened, rfl⟩ := sent?_eq_some_iff.1 sends
      have between := sound.pipe_cases (PipeTable.pipe?_eq_some_iff.2 ⟨entry, opened, rfl⟩)
      cases holds : entry.pipe with
      | claimed => exact absurd holds between.2
      | empty | pending value | ready value | delivered => simp [Pipe.isClaimed]

theorem of_pruned {after : Fabric} (pruned : fabric.Pruned after) : after.Sound := by
  obtain ⟨closed, removed, cut⟩ := pruned
  exact ⟨cut.lawful sound.lawful, cut.settled sound.settled⟩

/-- A new module has no pipes that it could disturb. -/
theorem withNode (node : Node) : (fabric.withModule (.node node)).Sound where
  lawful :=
    { wired := sound.lawful.wired.withModule _
      fronted := sound.lawful.fronted.withNode sound.lawful.wired node
      coherent := sound.lawful.coherent.withModule sound.lawful.wired _ }
  settled := sound.settled

theorem connect {first second : Handle} {firstPort secondPort : Port}
    (passes : fabric.checkEnds first firstPort second secondPort = .ok ()) :
    (fabric.connect first firstPort second secondPort).Sound := by
  obtain ⟨⟨_, firstFound⟩, -, firstFree, secondFree, different⟩ := free_of_checkEnds passes
  obtain ⟨forth, back, made⟩ := sound.lawful.wired.linked_of_checkEnds passes
  constructor
  · exact ⟨made.wired firstFree secondFree sound.lawful.wired different,
      made.fronted sound.lawful.fronted firstFound, made.coherent sound.lawful.coherent⟩
  · exact made.settled sound.settled

theorem joinPorts {first second : Handle} {firstPort secondPort : Port}
    (passes : fabric.checkEnds first firstPort second secondPort = .ok ()) :
    (fabric.joinPorts first firstPort second secondPort).2.Sound := by
  obtain ⟨⟨_, firstFound⟩, ⟨_, secondFound⟩, firstFree, secondFree, different⟩ :=
    free_of_checkEnds passes
  obtain ⟨base, middle, nearForth, nearBack, farForth, farBack, joined⟩ :=
    sound.lawful.wired.joined_of_checkEnds passes
  constructor
  · exact ⟨joined.wired firstFound secondFound firstFree secondFree different,
      joined.fronted firstFound secondFound sound.lawful.fronted,
      joined.coherent sound.lawful.coherent⟩
  · exact joined.settled sound.settled

/-- A node may change while its pipes hold what it waits for. -/
theorem setNode {handle : Handle} {old new : Node} (was : fabric.role? handle = some (.node old))
    (awaits : ∀ {port link entry}, fabric.link? handle port = some link →
      fabric.pipes.get? link.send = some entry → entry.pipe ≠ .empty → new.Awaits port entry) :
    (fabric.setRole handle (.node new)).Sound where
  lawful :=
    { wired := sound.lawful.wired.of_same (sound.lawful.wired.modules.modify _ _)
        sound.lawful.wired.pipes (by simp) fun _ => rfl
      fronted := sound.lawful.fronted.setNode was new
      coherent := sound.lawful.coherent.setRole was awaits }
  settled := sound.settled

/-- Emptying the pipes of some links leaves everything else in place. -/
theorem resetAll (links : List Link) :
    Sound { fabric with pipes := fabric.pipes.resetAll links } := by
  have alike := PipeTable.Alike.resetAll fabric.pipes links
  have emptied : ∀ {id entry}, (fabric.pipes.resetAll links).get? id = some entry → ∃ earlier,
      fabric.pipes.get? id = some earlier ∧ entry.writer = earlier.writer ∧
        (entry.pipe = .empty ∨ entry = earlier) := by
    intro id entry found
    rw [PipeTable.get?_resetAll] at found
    by_cases member : id ∈ links.map (·.send)
    · rw [if_pos member] at found
      obtain ⟨earlier, opened, rfl⟩ := Option.map_eq_some_iff.1 found
      exact ⟨earlier, opened, rfl, .inl rfl⟩
    · rw [if_neg member] at found
      exact ⟨entry, found, rfl, .inr rfl⟩
  constructor
  · constructor
    · exact sound.lawful.wired.of_same sound.lawful.wired.modules
        (alike.sound sound.lawful.wired.pipes) (fun _ _ => rfl) alike.writer
    · exact sound.lawful.fronted.of_same (fun _ _ => rfl) (fun role => ⟨_, role, .inl rfl⟩)
        fun role => ⟨_, role⟩
    · exact sound.lawful.coherent.of_emptied emptied
  · intro id entry found
    obtain ⟨earlier, opened, -, empty | rfl⟩ := emptied found
    · rw [empty]
      rfl
    · exact sound.settled id entry opened

/-- A node can be replaced once the pipes that it writes to have been emptied. -/
theorem restart {handle : Handle} {member : Module} {old : Node}
    (found : fabric.modules.get? handle = some member) (was : member.role = .node old)
    (new : Node) :
    (Fabric.setRole { fabric with pipes := fabric.pipes.resetAll member.ports.links } handle
      (.node new)).Sound := by
  have role : Fabric.role? { fabric with pipes := fabric.pipes.resetAll member.ports.links } handle =
      some (.node old) := by simp [role?, found, was]
  apply (sound.resetAll member.ports.links).setNode role
  intro port link entry linked opened nonempty
  obtain ⟨same, found', placed⟩ := link?_eq_some_iff.1 linked
  rw [found] at found'
  cases found'
  rw [PipeTable.get?_resetAll, if_pos (List.mem_map.2 ⟨link, Ports.mem_links.2 ⟨port, placed⟩, rfl⟩)]
    at opened
  obtain ⟨earlier, -, rfl⟩ := Option.map_eq_some_iff.1 opened
  exact absurd rfl nonempty

theorem tick : fabric.tick.Sound where
  lawful := sound.lawful.tick
  settled := settled_commit _

end Sound

end Fabric

end NodeGrid
