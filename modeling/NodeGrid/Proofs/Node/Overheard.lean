import NodeGrid.Proofs.Node.Transition

/-!
# What a node says at its ports

Every call that a node makes at its ports can be written down with its answer.  Writing it down
disturbs neither the node nor the bus, so the protocol of a step says what the step did: all the
calls, in their order, also those that found nothing.  The claims among them that were answered
with a word are the first arrival at the polled ports, and no more.
-/

namespace NodeGrid

variable {σ : Type}

/-- A call at the ports, with its answer. -/
inductive Exchange where
  | offer (port : Port) (value : Word) (taken : Bool)
  | offerAny (value : Word) (taken : Bool)
  | claim (port : Port) (answer : Option Word)
  | pollDelivered (answer : Option Port)
  deriving DecidableEq, Repr

/-- The word that a call has claimed, and the port it was claimed on. -/
def Exchange.claimed? : Exchange → Option (Port × Word)
  | .claim port answer => answer.map (port, ·)
  | .offer _ _ _ | .offerAny _ _ | .pollDelivered _ => none

/-- A bus, and the calls that have been made on it. -/
structure Overheard (σ : Type) where
  bus : σ
  exchanges : List Exchange
  deriving DecidableEq, Repr

namespace Overheard

/-- A bus on which nothing has been said. -/
def quiet (bus : σ) : Overheard σ :=
  ⟨bus, []⟩

/-- Write down a call that leads to another state of the bus. -/
def note (heard : Overheard σ) (bus : σ) (exchange : Exchange) : Overheard σ :=
  ⟨bus, heard.exchanges ++ [exchange]⟩

/-- The calls are passed on to the bus. -/
instance [Bus σ] : Bus (Overheard σ) where
  offer heard port value :=
    let (taken, bus) := Bus.offer heard.bus port value
    (taken, heard.note bus (.offer port value taken))
  offerAny heard value :=
    let (taken, bus) := Bus.offerAny heard.bus value
    (taken, heard.note bus (.offerAny value taken))
  claim heard port :=
    let (answer, bus) := Bus.claim heard.bus port
    (answer, heard.note bus (.claim port answer))
  pollDelivered heard :=
    let (answer, bus) := Bus.pollDelivered heard.bus
    (answer, heard.note bus (.pollDelivered answer))

/-- The words that have been claimed, in the order of the claims. -/
def claims (heard : Overheard σ) : List (Port × Word) :=
  heard.exchanges.filterMap (·.claimed?)

@[simp] theorem bus_quiet (bus : σ) : (quiet bus).bus = bus := rfl

@[simp] theorem claims_quiet (bus : σ) : (quiet bus).claims = [] := rfl

theorem claims_note (heard : Overheard σ) (bus : σ) (exchange : Exchange) :
    (heard.note bus exchange).claims = heard.claims ++ exchange.claimed?.toList := by
  simp only [claims, note, List.filterMap_append, List.filterMap_cons, List.filterMap_nil]
  cases exchange.claimed? <;> rfl

/-- The bus has gone on to a state, and these words have been claimed on the way. -/
structure Extends (before : Overheard σ) (bus : σ) (claimed : List (Port × Word))
    (after : Overheard σ) : Prop where
  bus : after.bus = bus
  claims : after.claims = before.claims ++ claimed

namespace Extends

variable {before middle after : Overheard σ} {bus further : σ} {first rest : List (Port × Word)}

theorem refl (heard : Overheard σ) : heard.Extends heard.bus [] heard :=
  ⟨rfl, (List.append_nil _).symm⟩

theorem trans (earlier : before.Extends bus first middle)
    (later : middle.Extends further rest after) : before.Extends further (first ++ rest) after :=
  ⟨later.bus, by rw [later.claims, earlier.claims, List.append_assoc]⟩

theorem note (heard : Overheard σ) (bus : σ) (exchange : Exchange) :
    heard.Extends bus exchange.claimed?.toList (heard.note bus exchange) :=
  ⟨rfl, heard.claims_note bus exchange⟩

end Extends

variable [Bus σ]

/-- Polling claims what it would claim unheard. -/
theorem claimFirst_heard (heard : Overheard σ) (ports : List Port) :
    (claimFirst heard ports).1 = (claimFirst heard.bus ports).1 ∧
      heard.Extends (claimFirst heard.bus ports).2 (claimFirst heard.bus ports).1.toList
        (claimFirst heard ports).2 := by
  induction ports generalizing heard with
  | nil => exact ⟨rfl, .refl heard⟩
  | cons port rest ih =>
      have asked : Bus.claim heard port =
          ((Bus.claim heard.bus port).1, heard.note (Bus.claim heard.bus port).2
            (.claim port (Bus.claim heard.bus port).1)) := rfl
      rw [claimFirst, claimFirst, asked]
      obtain ⟨answer, bus⟩ := Bus.claim heard.bus port
      have noted := Extends.note heard bus (.claim port answer)
      cases answer with
      | some value => exact ⟨rfl, noted⟩
      | none =>
          obtain ⟨same, polled⟩ := ih (heard.note bus (.claim port none))
          exact ⟨same, noted.trans polled⟩

/-- An offer claims nothing. -/
theorem offer_heard (heard : Overheard σ) (core : Core) (write : PendingWrite) :
    heard.Extends (core.offer heard.bus write) [] (core.offer heard write) := by
  unfold Core.offer
  cases write.target with
  | acc | nil => exact .refl heard
  | port port => exact .note heard _ (.offer port write.value _)
  | any => exact .note heard _ (.offerAny write.value _)
  | last =>
      cases core.registers.last with
      | none => exact .refl heard
      | some port => exact .note heard _ (.offer port write.value _)

end Overheard

namespace Node

variable [Bus σ]

/-- An instruction that has its input claims nothing more. -/
theorem finish_heard (node : Node) (heard : Overheard σ) (instruction : Instruction)
    (value : Word) :
    (node.finish heard instruction value).1 = (node.finish heard.bus instruction value).1 ∧
      heard.Extends (node.finish heard.bus instruction value).2 []
        (node.finish heard instruction value).2 := by
  unfold finish
  cases node.core.outgoing? value instruction with
  | none => exact ⟨rfl, .refl heard⟩
  | some write => exact ⟨rfl, heard.offer_heard node.core write⟩

/-- To see whether a write has been claimed is not to claim. -/
theorem completeWrite_heard (node : Node) (heard : Overheard σ) (write : PendingWrite) :
    (node.completeWrite heard write).1 = (node.completeWrite heard.bus write).1 ∧
      heard.Extends (node.completeWrite heard.bus write).2 []
        (node.completeWrite heard write).2 := by
  have asked : Bus.pollDelivered heard =
      ((Bus.pollDelivered heard.bus).1, heard.note (Bus.pollDelivered heard.bus).2
        (.pollDelivered (Bus.pollDelivered heard.bus).1)) := rfl
  unfold completeWrite
  rw [asked]
  obtain ⟨answer, bus⟩ := Bus.pollDelivered heard.bus
  have noted := Overheard.Extends.note heard bus (.pollDelivered answer)
  cases answer with
  | some port => exact ⟨rfl, noted⟩
  | none => exact ⟨rfl, noted.trans (Overheard.offer_heard _ node.core write)⟩

/-- Running an instruction claims the word that it reads, if it is there. -/
theorem execute_heard (node : Node) (heard : Overheard σ) {instruction : Instruction}
    (fetched : node.core.instruction? = some instruction) :
    (node.execute heard).1 = (node.execute heard.bus).1 ∧
      heard.Extends (node.execute heard.bus).2
        (claimFirst heard.bus (node.core.polled instruction.input)).1.toList
        (node.execute heard).2 := by
  obtain ⟨same, polls⟩ := heard.claimFirst_heard (node.core.polled instruction.input)
  simp only [execute, fetched, Core.read_eq]
  rw [same]
  cases node.core.take instruction.input
      (claimFirst heard.bus (node.core.polled instruction.input)).1 with
  | none => exact ⟨rfl, polls⟩
  | some taken =>
      obtain ⟨value, core⟩ := taken
      obtain ⟨alike, rest⟩ := finish_heard { node with core }
        (claimFirst heard (node.core.polled instruction.input)).2 instruction value
      rw [polls.bus] at alike rest
      refine ⟨alike, ?_⟩
      rw [← List.append_nil (claimFirst heard.bus _).1.toList]
      exact polls.trans rest

/-- A step that is overheard is the same step, and it claims the first arrival at the ports that it
polls and nothing else. -/
theorem step_heard (node : Node) (heard : Overheard σ) :
    (node.step heard).1 = (node.step heard.bus).1 ∧
      heard.Extends (node.step heard.bus).2 (claimFirst heard.bus node.polled).1.toList
        (node.step heard).2 := by
  obtain ⟨core, activity, enabled⟩ := node
  cases enabled with
  | false => exact ⟨rfl, .refl heard⟩
  | true =>
      cases activity with
      | idle => exact ⟨rfl, .refl heard⟩
      | waitingWrite write => exact completeWrite_heard _ heard write
      | running | waitingRead =>
          cases fetched : core.instruction? with
          | none =>
              simp only [step, polled, if_true, execute, fetched]
              exact ⟨trivial, .refl heard⟩
          | some instruction =>
              simp only [step, polled, if_true, fetched, Option.elim_some]
              exact execute_heard _ heard fetched

end Node

end NodeGrid
