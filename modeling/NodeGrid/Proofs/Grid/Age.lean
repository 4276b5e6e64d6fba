import NodeGrid.Proofs.Grid.Rest
import NodeGrid.Proofs.Grid.Visibility

/-!
# How long words are on their way

A word is dated by the tick in which a node has put it into a pipe; a forwarder that passes it on
takes the date along.  Across a link a word arrives a tick later at the earliest, and behind a
forwarder pair two ticks later.
-/

namespace NodeGrid

/-- The tick in which a node put the word of each pipe on its way, where that is known. -/
abbrev Dates := PipeId → Option Nat

namespace Act

/-- The word that an action puts into a pipe. -/
def put? (act : Act) (id : PipeId) : Option Word :=
  match act.after.pipes.pipe? id with
  | some (.pending value) =>
      if act.before.pipes.pipe? id = some (.pending value) then none else some value
  | _ => none

/-- The dates after an action in a tick: a word that a node puts into a pipe is new, and one that a
forwarder passes on has the date of the pipe that it comes from. -/
def dated (act : Act) (tick : Nat) (dates : Dates) : Dates := fun id =>
  if (act.put? id).isSome then
    if act.before.isForwarder act.actor then act.claimed.head?.bind dates else some tick
  else dates id

end Act

/-- That a module has claimed a word: in which tick, whether from a pipe that a forwarder writes to,
and the date of the word. -/
structure Receipt where
  tick : Nat
  reader : Handle
  relayed : Bool
  date : Option Nat
  deriving DecidableEq, Repr

/-- The date of the word is known, and it is early enough: across a link a word takes a tick, and
behind a forwarder pair two. -/
def Receipt.InTime (receipt : Receipt) : Prop :=
  ∃ date, receipt.date = some date ∧ date + 1 ≤ receipt.tick ∧
    (receipt.relayed → date + 2 ≤ receipt.tick)

namespace Act

/-- The word in a pipe comes from a forwarder. -/
def relayed (act : Act) (id : PipeId) : Bool :=
  (act.before.pipes.writer? id).any act.before.isForwarder

/-- What an action receives. -/
def receipts (act : Act) (tick : Nat) (dates : Dates) : List Receipt :=
  act.claimed.map fun id => ⟨tick, act.actor, act.relayed id, dates id⟩

/-- What the actions of a tick receive, and the dates after them. -/
def receiptsOf (tick : Nat) : Dates → List Act → List Receipt × Dates
  | dates, [] => ([], dates)
  | dates, act :: rest =>
      let (later, last) := receiptsOf tick (act.dated tick dates) rest
      (act.receipts tick dates ++ later, last)

end Act

namespace Grid

/-- Everything that is received during a history of commands. -/
def receipts (grid : Grid) (dates : Dates) : List Command → List Receipt
  | [] => []
  | command :: rest =>
      let (now, after) := Act.receiptsOf grid.ticks dates (grid.actsOf command)
      now ++ (grid.execute command).2.receipts after rest

end Grid

namespace Fabric

/-- The ticks that a word from a module has been on its way before: one from a forwarder, none from
a node. -/
def lag (fabric : Fabric) (writer : Handle) : Nat :=
  if fabric.isForwarder writer then 1 else 0

/-- Every word in a pipe has a date, and the tick is late enough for it to be where it is. -/
structure Timely (fabric : Fabric) (dates : Dates) (tick : Nat) : Prop where
  pending : ∀ {id entry value}, fabric.pipes.get? id = some entry → entry.pipe = .pending value →
    ∃ date, dates id = some date ∧ date + fabric.lag entry.writer ≤ tick
  ready : ∀ {id entry value}, fabric.pipes.get? id = some entry → entry.pipe = .ready value →
    ∃ date, dates id = some date ∧ date + fabric.lag entry.writer + 1 ≤ tick

namespace Timely

theorem empty (dates : Dates) (tick : Nat) : Timely empty dates tick where
  pending := by simp [Fabric.empty]
  ready := by simp [Fabric.empty]

variable {fabric : Fabric} {dates : Dates} {tick : Nat} (timely : fabric.Timely dates tick)
include timely

theorem commit : fabric.commit.Timely dates (tick + 1) where
  pending := by
    intro id later value stepped holds
    obtain ⟨entry, -, rfl⟩ := exists_of_commit stepped
    -- A commit leaves nothing pending.
    generalize entry.pipe = pipe at holds
    cases pipe <;> cases holds
  ready := by
    intro id later value stepped holds
    obtain ⟨entry, opened, rfl⟩ := exists_of_commit stepped
    cases before : entry.pipe with
    | pending word =>
        obtain ⟨date, known, early⟩ := timely.pending opened before
        exact ⟨date, known, Nat.succ_le_succ early⟩
    | ready word =>
        obtain ⟨date, known, early⟩ := timely.ready opened before
        exact ⟨date, known, Nat.le_succ_of_le early⟩
    | empty | claimed | delivered =>
        rw [before] at holds
        cases holds

/-- Between ticks words stay where they are or are dropped. -/
theorem of_rests {after : Fabric} (rests : fabric.Rests after) (wired : fabric.Wired)
    (wired_after : after.Wired) : after.Timely dates tick := by
  have kept : ∀ {id entry}, after.pipes.get? id = some entry → entry.pipe ≠ .empty →
      fabric.pipes.get? id = some entry ∧ after.lag entry.writer = fabric.lag entry.writer := by
    intro id entry opened full
    have earlier := (rests.pipes opened).resolve_left full
    obtain ⟨_, _, linked, -⟩ := wired.exists_send earlier
    obtain ⟨_, _, still, -⟩ := wired_after.exists_send opened
    obtain ⟨role, was⟩ := role?_isSome_of_link? linked
    obtain ⟨later, now⟩ := role?_isSome_of_link? still
    exact ⟨earlier, by rw [lag, lag, rests.isForwarder_eq was now]⟩
  constructor
  case pending =>
    intro id entry value opened holds
    obtain ⟨earlier, same⟩ := kept opened (by simp [holds])
    rw [same]
    exact timely.pending earlier holds
  case ready =>
    intro id entry value opened holds
    obtain ⟨earlier, same⟩ := kept opened (by simp [holds])
    rw [same]
    exact timely.ready earlier holds

end Timely

@[simp] theorem isForwarder_stepModule (fabric : Fabric) (handle other : Handle) :
    (fabric.stepModule handle).isForwarder other = fabric.isForwarder other := by
  rw [Bool.eq_iff_iff, isForwarder_iff, isForwarder_iff]
  constructor
  · rintro ⟨half, role⟩
    obtain ⟨earlier, was, -⟩ := exists_forwarder_of_stepModule role
    exact ⟨earlier, was⟩
  · rintro ⟨half, role⟩
    obtain ⟨later, -, now⟩ := role?_stepModule handle role
    exact ⟨later, now⟩

theorem lag_le_one (fabric : Fabric) (writer : Handle) : fabric.lag writer ≤ 1 := by
  unfold lag
  split <;> decide

end Fabric

namespace Act

variable (act : Act) {dates : Dates} {tick : Nat}

theorem dated_of_put_none {id : PipeId} (nothing : act.put? id = none) :
    act.dated tick dates id = dates id := by
  rw [dated, nothing]
  rfl

/-- A word that has just been put into a pipe is new or comes from a pipe that it was ready in. -/
theorem dated_of_puts (wired : act.before.Wired) (timely : act.before.Timely dates tick)
    {id : PipeId} {entry : OpenPipe} {value : Word} (opened : act.before.pipes.get? id = some entry)
    (put : act.put? id = some value) (puts : act.before.Puts act.actor id value) :
    ∃ date, act.dated tick dates id = some date ∧ date + act.before.lag entry.writer ≤ tick := by
  rw [dated, put, Option.isSome_some, if_pos rfl]
  cases puts with
  | @write ports node found puts =>
      obtain ⟨write, -, -, port, sends⟩ := puts
      obtain ⟨link, linked, rfl⟩ := Ports.sendAt_eq_some_iff.1 sends
      have writer : entry.writer = act.actor :=
        wired.writer_eq (Fabric.link?_eq_some_iff.2 ⟨_, found, linked⟩) opened
      have node : act.before.isForwarder act.actor = false := by
        simp [Fabric.isForwarder, found, Module.isNode]
      rw [node, writer, Fabric.lag, node]
      exact ⟨tick, rfl, Nat.le_refl tick⟩
  | @pass own target course passes onward =>
      obtain ⟨-, half, role, -⟩ := Fabric.course?_eq_some course
      have forwarder : act.before.isForwarder act.actor = true :=
        Fabric.isForwarder_iff.2 ⟨half, role⟩
      have draws : act.before.drawn? act.actor = some own.receive := by
        obtain ⟨ports, found⟩ := Fabric.role?_eq_some_iff.1 role
        rw [Fabric.drawn?_forwarder found, course, Option.bind_some, passes, Option.map_some]
      obtain ⟨source, held, ready⟩ :=
        PipeTable.pipe?_eq_some_iff.1 (Forwarder.pipe?_of_passed passes)
      obtain ⟨date, known, early⟩ := timely.ready held ready
      have brief := act.before.lag_le_one entry.writer
      rw [forwarder, if_pos rfl, claimed_eq, draws]
      exact ⟨date, known, by omega⟩

theorem timely_after (wired : act.before.Wired) (timely : act.before.Timely dates tick) :
    act.after.Timely (act.dated tick dates) tick := by
  have moves := act.before.moves_stepModule act.actor
  have lag_after : ∀ writer, act.after.lag writer = act.before.lag writer := by
    intro writer
    rw [Fabric.lag, Fabric.lag, show act.after.isForwarder writer = _ from
      Fabric.isForwarder_stepModule _ _ _]
  constructor
  case pending =>
    intro id later value now holds
    obtain ⟨entry, opened, writer, moved⟩ := moves id later now
    have after : act.after.pipes.pipe? id = some (.pending value) :=
      PipeTable.pipe?_eq_some_iff.2 ⟨later, now, holds⟩
    rw [lag_after, writer]
    by_cases old : entry.pipe = .pending value
    · have before : act.before.pipes.pipe? id = some (.pending value) :=
        PipeTable.pipe?_eq_some_iff.2 ⟨entry, opened, old⟩
      rw [dated_of_put_none act (by simp [put?, after, before])]
      exact timely.pending opened old
    · have before : act.before.pipes.pipe? id ≠ some (.pending value) := by
        intro same
        obtain ⟨entry', opened', old'⟩ := PipeTable.pipe?_eq_some_iff.1 same
        cases opened.symm.trans opened'
        exact old old'
      have put : act.put? id = some value := by simp [put?, after, before]
      rw [holds] at moved
      generalize entry.pipe = pipe at moved old
      cases moved with
      | stay => exact absurd rfl old
      | put _ offers => exact dated_of_puts act wired timely opened put offers
  case ready =>
    intro id later value now holds
    obtain ⟨entry, opened, writer, moved⟩ := moves id later now
    have after : act.after.pipes.pipe? id = some (.ready value) :=
      PipeTable.pipe?_eq_some_iff.2 ⟨later, now, holds⟩
    rw [lag_after, writer, dated_of_put_none act (by simp [put?, after])]
    exact timely.ready opened (moved.eq_of_ready holds)

/-- What an action receives has been on its way for long enough. -/
theorem inTime_of_mem_receipts (timely : act.before.Timely dates tick) {receipt : Receipt}
    (received : receipt ∈ act.receipts tick dates) : receipt.InTime := by
  obtain ⟨id, claims, rfl⟩ := List.mem_map.1 received
  obtain ⟨value, holds, -⟩ := ready_of_mem_claimed claims
  obtain ⟨entry, opened, ready⟩ := PipeTable.pipe?_eq_some_iff.1 holds
  obtain ⟨date, known, early⟩ := timely.ready opened ready
  refine ⟨date, known, by dsimp only; omega, fun passed => ?_⟩
  have forwarder : act.before.isForwarder entry.writer = true := by
    simpa [relayed, PipeTable.writer?, opened] using passed
  rw [Fabric.lag, if_pos forwarder] at early
  exact early

end Act

namespace Fabric

/-- What the actions of a phase receive has been on its way for long enough. -/
theorem Timely.acts {fabric : Fabric} {dates : Dates} {tick : Nat}
    (timely : fabric.Timely dates tick) (lawful : fabric.Lawful) (handles : List Handle) :
    (∀ receipt ∈ (Act.receiptsOf tick dates (fabric.acts handles)).1, receipt.InTime) ∧
      (fabric.stepModules handles).Timely (Act.receiptsOf tick dates (fabric.acts handles)).2
        tick := by
  induction handles generalizing fabric dates with
  | nil => exact ⟨nofun, timely⟩
  | cons handle rest ih =>
      let act : Act := ⟨fabric, handle⟩
      have timely_after : act.after.Timely (act.dated tick dates) tick :=
        act.timely_after lawful.wired timely
      obtain ⟨later, last⟩ := ih timely_after (lawful.stepModule handle)
      refine ⟨fun receipt received => ?_, last⟩
      rcases List.mem_append.1 received with first | rest
      · exact act.inTime_of_mem_receipts timely first
      · exact later receipt rest

end Fabric

namespace Grid

theorem timely_execute {grid : Grid} (sound : grid.fabric.Sound) {dates : Dates}
    (timely : grid.fabric.Timely dates grid.ticks) (command : Command) :
    (∀ receipt ∈ (Act.receiptsOf grid.ticks dates (grid.actsOf command)).1, receipt.InTime) ∧
      (grid.execute command).2.fabric.Timely
        (Act.receiptsOf grid.ticks dates (grid.actsOf command)).2
        (grid.execute command).2.ticks := by
  by_cases ticks : command = .step
  · subst ticks
    cases power : grid.power with
    | stopped =>
        simp only [actsOf, power, execute, step]
        exact ⟨by simp [Act.receiptsOf], timely⟩
    | running =>
        obtain ⟨received, last⟩ := timely.acts sound.lawful grid.fabric.modules.handles
        simp only [actsOf, power, execute, step]
        exact ⟨received, last.commit⟩
  · have silent : grid.actsOf command = [] := by
      cases command <;> first | rfl | exact absurd rfl ticks
    rw [silent, ticks_execute ticks]
    have rests := (effect_execute grid command).rests sound ticks
    exact ⟨by simp [Act.receiptsOf],
      timely.of_rests rests sound.lawful.wired (sound_execute sound command).lawful.wired⟩

theorem inTime_of_mem_receipts {grid : Grid} (sound : grid.fabric.Sound) {dates : Dates}
    (timely : grid.fabric.Timely dates grid.ticks) {history : List Command} :
    ∀ receipt ∈ grid.receipts dates history, receipt.InTime := by
  induction history generalizing grid dates with
  | nil => exact nofun
  | cons command rest ih =>
      obtain ⟨now, after⟩ := timely_execute sound timely command
      intro receipt received
      rcases List.mem_append.1 received with first | later
      · exact now receipt first
      · exact ih (sound_execute sound command) after receipt later

/-- In a tick of a grid that has come about in any way, what a module claims from a pipe was ready
there when the tick began.  No pipe is claimed from twice, and no module claims twice.  So whatever
has been done to a new grid, a word that has been claimed was put on its way by a node at least a
tick before, and at least two ticks before if it came out of a forwarder pair.  A word that a node
offers once more, after its pipe has been closed, is dated anew, so the delay is counted from the
later offer. -/
theorem words_take_time {settings : Settings} {first : Grid}
    (created : Grid.new settings = .ok first) (history : List Command) :
    (∀ act ∈ (first.run history).actsOf .step, ∀ id ∈ act.claimed, ∃ value,
      (first.run history).fabric.pipes.pipe? id = some (.ready value) ∧
        act.claim? id = some value) ∧
    (((first.run history).actsOf .step).flatMap Act.claimed).Nodup ∧
    (∀ reader, ((((first.run history).actsOf .step).filter
      (·.actor = reader)).flatMap Act.claimed).length ≤ 1) ∧
    ∀ receipt ∈ first.receipts (fun _ => none) history, ∃ date, receipt.date = some date ∧
      date + 1 ≤ receipt.tick ∧ (receipt.relayed → date + 2 ≤ receipt.tick) := by
  have sound := ((Reachable.new created).run history).sound
  refine ⟨?ready, ?pipes, ?modules, ?dates⟩
  case dates =>
    have timely : first.fabric.Timely (fun _ => none) first.ticks := by
      rw [fabric_new created]
      exact .empty _ _
    exact inTime_of_mem_receipts (sound_new created) timely
  all_goals
    unfold actsOf
    cases (first.run history).power
  case ready.stopped => exact nofun
  case ready.running =>
    intro act member id claims
    obtain ⟨value, ready, taken⟩ := Act.ready_of_mem_claimed claims
    exact ⟨value, Fabric.ready_of_mem_acts member ready, taken⟩
  case pipes.stopped => exact List.nodup_nil
  case pipes.running => exact Fabric.claimed_nodup _ _
  case modules.stopped => exact fun _ => Nat.zero_le 1
  case modules.running => exact Fabric.length_claimed_le _ (Arena.handles_nodup _)

/-- Three nodes in a row, the second linked to the first and joined to the third by a forwarder
pair, while a word goes from the first to the last. -/
def courier : List Command :=
  [.addNode, .addNode, .addNode, .link ⟨0, 0⟩ .right ⟨1, 0⟩ .left,
    .join ⟨1, 0⟩ .right ⟨2, 0⟩ .left, .compile ⟨0, 0⟩ ["MOV 7 RIGHT".toList],
    .compile ⟨1, 0⟩ ["MOV LEFT RIGHT".toList], .compile ⟨2, 0⟩ ["MOV LEFT ACC".toList],
    .start, .step, .step, .step, .step]

/-- The word is put on its way in tick 0, claimed by the second node in the next one and sent on at
once; the forwarder claims it a tick later, and the last node two ticks later. -/
theorem courier_takes_time : Grid.new .standard = .ok standard ∧
    standard.receipts (fun _ => none) courier =
      [⟨1, ⟨1, 0⟩, false, some 0⟩, ⟨2, ⟨3, 0⟩, false, some 1⟩, ⟨3, ⟨2, 0⟩, true, some 1⟩] ∧
    ∀ receipt ∈ standard.receipts (fun _ => none) courier, receipt.InTime := by
  have created : Grid.new .standard = .ok standard := rfl
  obtain ⟨-, -, -, dates⟩ := words_take_time created courier
  exact ⟨created, by decide +kernel, dates⟩

end Grid

end NodeGrid
