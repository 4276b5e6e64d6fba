import NodeGrid.Proofs.Grid.Closure

/-!
# Grids that agree on a part

Two running grids that agree on a closed set of modules go on agreeing on it, tick by tick, whatever
else they contain.  For this it is not enough that each port of a member is linked to the same module
in both grids: between the same two modules there can be several links, and it must be the same port
that each of them leads to.
-/

namespace NodeGrid

namespace Fabric

variable {listed : List Handle} {first second fabric : Fabric}

instance : Decidable (Agree {handle | handle ∈ listed} first second) :=
  decidable_of_iff
    (∀ handle ∈ listed, first.role? handle = second.role? handle ∧
      ∀ port ∈ Port.all, first.portView? handle port = second.portView? handle port)
    ⟨fun same => ⟨fun handle member => (same handle member).1,
      fun handle member port => (same handle member).2 port (Port.mem_all port)⟩,
      fun agree handle member => ⟨agree.role handle member, fun port _ =>
        agree.port handle member port⟩⟩

instance : Decidable (Aligned {handle | handle ∈ listed} first second) :=
  decidable_of_iff
    (∀ handle ∈ listed, ∀ port ∈ Port.all, first.facing? handle port = second.facing? handle port)
    ⟨fun same handle member port => same handle member port (Port.mem_all port),
      fun aligned handle member port _ => aligned handle member port⟩

instance : Decidable (Contained {handle | handle ∈ listed} fabric) :=
  decidable_of_iff
    ((∀ handle ∈ listed, ∀ port ∈ Port.all, ∀ link ∈ fabric.link? handle port,
        link.peer ∈ listed) ∧
      ∀ handle ∈ listed, ∀ other ∈ fabric.modules.handles,
        fabric.role? handle = some (.forwarder ⟨some other⟩) → other ∈ listed)
    ⟨fun within => ⟨fun inside linked => within.1 _ inside _ (Port.mem_all _) _ linked,
      fun inside what there => within.2 _ inside _ (mem_handles_of_role there) what⟩,
      fun contained => ⟨fun _ inside _ _ _ linked => contained.peer inside linked,
        fun _ inside other there what => by
          obtain ⟨member, found⟩ := Arena.mem_handles_iff.1 there
          exact contained.sibling inside what (role?_eq_some_iff.2 ⟨member.ports, found⟩)⟩⟩

end Fabric

namespace Grid

/-- Ticks of two running grids. -/
theorem isolated_ticks {first second : Grid} (running : first.power = .running)
    (running' : second.power = .running) {members : Set Handle}
    (isolated : Fabric.Isolated members first.fabric second.fabric) (ticks : Nat) :
    Fabric.Isolated members (first.run (.replicate ticks .step)).fabric
      (second.run (.replicate ticks .step)).fabric := by
  induction ticks generalizing first second with
  | zero => exact isolated
  | succ ticks ih =>
      have later : ∀ {grid : Grid}, grid.power = .running →
          (grid.execute .step).2.fabric = grid.fabric.tick ∧
            (grid.execute .step).2.power = .running := by
        intro grid power
        simp [execute, step, power]
      refine ih (later running).2 (later running').2 ?_
      rw [(later running).1, (later running').1]
      exact isolated.tick

/-- Take two running grids, each of which may have come about in any way, and a set of modules that is
closed in both.  If in both grids these modules do the same, are linked to the same ports, and find
the same in their pipes, then all this is so again after any number of ticks of both grids, whatever
other modules there are and whatever they do.  The numbers of the pipes may differ. -/
theorem Reachable.parts_isolated {first second : Grid} (reachable : first.Reachable)
    (reachable' : second.Reachable) (running : first.power = .running)
    (running' : second.power = .running) {members : Set Handle}
    (closed : first.fabric.Closed members) (closed' : second.fabric.Closed members)
    (agree : Fabric.Agree members first.fabric second.fabric)
    (aligned : Fabric.Aligned members first.fabric second.fabric) (ticks : Nat) :
    Fabric.Agree members (first.run (.replicate ticks .step)).fabric
        (second.run (.replicate ticks .step)).fabric ∧
      Fabric.Aligned members (first.run (.replicate ticks .step)).fabric
        (second.run (.replicate ticks .step)).fabric := by
  have isolated : Fabric.Isolated members first.fabric second.fabric :=
    ⟨agree, aligned, reachable.sound.lawful.wired, reachable'.sound.lawful.wired, closed, closed'⟩
  have later := isolated_ticks running running' isolated ticks
  exact ⟨later.agree, later.aligned⟩

/-- In young grids it is enough that nothing leads out of the set. -/
theorem Young.contained_isolated {first second : Grid} (young : first.Young)
    (young' : second.Young) (running : first.power = .running)
    (running' : second.power = .running) {members : Set Handle}
    (contained : first.fabric.Contained members) (contained' : second.fabric.Contained members)
    (agree : Fabric.Agree members first.fabric second.fabric)
    (aligned : Fabric.Aligned members first.fabric second.fabric) (ticks : Nat) :
    Fabric.Agree members (first.run (.replicate ticks .step)).fabric
        (second.run (.replicate ticks .step)).fabric ∧
      Fabric.Aligned members (first.run (.replicate ticks .step)).fabric
        (second.run (.replicate ticks .step)).fabric := by
  have isolated : Fabric.Isolated members first.fabric second.fabric :=
    ⟨agree, aligned, young.reachable.sound.lawful.wired, young'.reachable.sound.lawful.wired,
      young.closed contained, young'.closed contained'⟩
  have later := isolated_ticks running running' isolated ticks
  exact ⟨later.agree, later.aligned⟩

/-- Two nodes that are joined by a forwarder pair.  One is about to send a word to the other. -/
def alone : Grid :=
  standard.run
    [.addNode, .addNode, .join ⟨0, 0⟩ .right ⟨1, 0⟩ .left,
      .compile ⟨0, 0⟩ ["MOV 7 ANY".toList], .compile ⟨1, 0⟩ ["MOV LEFT ACC".toList], .start]

/-- The same two nodes beside two others, one of which adds up what the other offers on any port.
The pair got its pipes while the first numbers were in use elsewhere. -/
def accompanied : Grid :=
  standard.run
    [.addNode, .addNode, .link ⟨0, 0⟩ .up ⟨1, 0⟩ .up, .join ⟨0, 0⟩ .right ⟨1, 0⟩ .left,
      .unlink ⟨0, 0⟩ .up, .addNode, .addNode, .link ⟨4, 0⟩ .up ⟨5, 0⟩ .down,
      .compile ⟨4, 0⟩ ["MOV 3 ANY".toList], .compile ⟨5, 0⟩ ["ADD ANY".toList],
      .start, .step, .step, .step,
      .compile ⟨0, 0⟩ ["MOV 7 ANY".toList], .compile ⟨1, 0⟩ ["MOV LEFT ACC".toList]]

/-- The two nodes and their forwarders. -/
def couple : List Handle :=
  [⟨0, 0⟩, ⟨1, 0⟩, ⟨2, 0⟩, ⟨3, 0⟩]

/-- The word arrives in both grids at the same time, although it goes through other pipes. -/
theorem accompanied_isolated : alone.Reachable ∧ accompanied.Reachable ∧
    alone.fabric.link? ⟨0, 0⟩ .right ≠ accompanied.fabric.link? ⟨0, 0⟩ .right ∧
    Fabric.Agree {handle | handle ∈ couple} (alone.run (.replicate 4 .step)).fabric
      (accompanied.run (.replicate 4 .step)).fabric ∧
    ∀ grid ∈ [alone, accompanied], (grid.run (.replicate 4 .step)).debugViews[1]?.map (·.2.acc) =
      some 7 := by
  have young : alone.Young := standard_young (by decide)
  have young' : accompanied.Young := standard_young (by decide)
  have closed : alone.fabric.Closed {handle | handle ∈ couple} := young.closed (by decide +kernel)
  have closed' : accompanied.fabric.Closed {handle | handle ∈ couple} :=
    young'.closed (by decide +kernel)
  have agree : Fabric.Agree {handle | handle ∈ couple} alone.fabric accompanied.fabric := by
    decide +kernel
  have aligned : Fabric.Aligned {handle | handle ∈ couple} alone.fabric accompanied.fabric := by
    decide +kernel
  have later := (young.reachable.parts_isolated young'.reachable (by decide +kernel)
    (by decide +kernel) closed closed' agree aligned 4).1
  exact ⟨young.reachable, young'.reachable, by decide +kernel, later, by decide +kernel⟩

/-- Two nodes with two links between them, from left to left and from right to right. -/
def parallel : Grid :=
  standard.run
    [.addNode, .addNode, .link ⟨0, 0⟩ .left ⟨1, 0⟩ .left, .link ⟨0, 0⟩ .right ⟨1, 0⟩ .right,
      .compile ⟨0, 0⟩ ["MOV 7 LEFT".toList], .compile ⟨1, 0⟩ ["MOV LEFT ACC".toList], .start]

/-- The same nodes with the same programs, but both links lead from one side to the other. -/
def crossed : Grid :=
  standard.run
    [.addNode, .addNode, .link ⟨0, 0⟩ .left ⟨1, 0⟩ .right, .link ⟨0, 0⟩ .right ⟨1, 0⟩ .left,
      .compile ⟨0, 0⟩ ["MOV 7 LEFT".toList], .compile ⟨1, 0⟩ ["MOV LEFT ACC".toList], .start]

/-- In both grids every port of the two nodes is linked to the other node, and all pipes are empty.
Yet the word that one node sends arrives at the port that the other one reads only if the links do
not cross: that the members agree does not keep them from coming apart. -/
theorem crossed_comes_apart : parallel.Reachable ∧ crossed.Reachable ∧
    parallel.power = .running ∧ crossed.power = .running ∧
    (∀ handle ∈ [⟨0, 0⟩, ⟨1, 0⟩],
      parallel.fabric.modules.contains handle ∧ crossed.fabric.modules.contains handle) ∧
    parallel.fabric.Closed {handle | handle ∈ [⟨0, 0⟩, ⟨1, 0⟩]} ∧
    crossed.fabric.Closed {handle | handle ∈ [⟨0, 0⟩, ⟨1, 0⟩]} ∧
    Fabric.Agree {handle | handle ∈ [⟨0, 0⟩, ⟨1, 0⟩]} parallel.fabric crossed.fabric ∧
    ¬Fabric.Agree {handle | handle ∈ [⟨0, 0⟩, ⟨1, 0⟩]} (parallel.run (.replicate 2 .step)).fabric
      (crossed.run (.replicate 2 .step)).fabric := by
  have young : parallel.Young := standard_young (by decide)
  have young' : crossed.Young := standard_young (by decide)
  refine ⟨young.reachable, young'.reachable, by decide +kernel, by decide +kernel,
    by decide +kernel, ?_, ?_, by decide +kernel, by decide +kernel⟩
  · exact young.closed (by decide +kernel)
  · exact young'.closed (by decide +kernel)

end Grid

end NodeGrid
