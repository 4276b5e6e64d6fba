import NodeGrid.Proofs.Fabric.Isolation
import NodeGrid.Proofs.Fabric.Pairs

/-!
# What hangs at ports

At a linked port hangs either a link to another port or a forwarder pair.  Both have two ends, and
are known by them together, so neither counts twice when a node has both.  One fabric extends
another by some of these when everything else in the two is the same, down to what the pipes hold.
-/

namespace NodeGrid

/-- What hangs at a port: a link, known by its two ends, or a forwarder pair, known by its two
halves. -/
inductive Attachment where
  | link (ends : Sym2 (Handle × Port))
  | pair (halves : Sym2 Handle)
  deriving DecidableEq

namespace Attachment

/-- A link has two pipes, and a pair has two links. -/
def pipeCount : Attachment → Nat
  | .link _ => 2
  | .pair _ => 4

/-- The modules that belong to an attachment are the halves of a pair. -/
def Brings (handle : Handle) : Attachment → Prop
  | .link _ => False
  | .pair halves => handle ∈ halves

/-- The ports that belong to an attachment are the ends of a link, or the ports of both halves of a
pair with the ports in front of them. -/
def Uses (handle : Handle) (port : Port) (link : Link) : Attachment → Prop
  | .link ends => (handle, port) ∈ ends
  | .pair halves => handle ∈ halves ∨ link.peer ∈ halves

end Attachment

namespace Fabric

/-- What hangs at a port.  A half that has forgotten its sibling is no pair. -/
def attachment? (fabric : Fabric) (handle : Handle) (port : Port) : Option Attachment :=
  (fabric.link? handle port).bind fun link =>
    match fabric.role? link.peer with
    | some (.forwarder half) => half.sibling.map fun other => .pair s(link.peer, other)
    | _ => (fabric.facing? handle port).map fun place => .link s((handle, port), (link.peer, place))

/-- What hangs at some ports of a module. -/
def attachmentsAt (fabric : Fabric) (handle : Handle) (ports : List Port) : Finset Attachment :=
  (ports.filterMap (fabric.attachment? handle)).toFinset

/-- What hangs at any port of a module. -/
def attachments (fabric : Fabric) (handle : Handle) : Finset Attachment :=
  fabric.attachmentsAt handle Port.all

/-- Two forwarders are each other's siblings, and both are linked. -/
structure Whole (fabric : Fabric) (near far : Handle) : Prop where
  near_role : fabric.role? near = some (.forwarder ⟨some far⟩)
  far_role : fabric.role? far = some (.forwarder ⟨some near⟩)
  near_linked : ∃ port link, fabric.link? near port = some link
  far_linked : ∃ port link, fabric.link? far port = some link

/-- If a forwarder is in front of a port, it is half of a whole pair. -/
def Intact (fabric : Fabric) (handle : Handle) (port : Port) : Prop :=
  ∀ ⦃link half⦄, fabric.link? handle port = some link →
    fabric.role? link.peer = some (.forwarder half) → ∃ other, fabric.Whole link.peer other

/-- A fabric becomes another one by adding some attachments and some modules.  Everything else is
the same in both: what the modules do, the links, and the pipes of the links. -/
structure Extended (bare : Fabric) (attachments : Finset Attachment) (members : Set Handle)
    (full : Fabric) : Prop where
  role_new : ∀ {handle},
    (handle ∈ members ∨ ∃ attachment ∈ attachments, attachment.Brings handle) →
      bare.role? handle = none
  role_old : ∀ {handle},
    ¬(handle ∈ members ∨ ∃ attachment ∈ attachments, attachment.Brings handle) →
      bare.role? handle = full.role? handle
  link_iff : ∀ {handle port link}, bare.link? handle port = some link ↔
    full.link? handle port = some link ∧
      ∀ attachment ∈ attachments, ¬attachment.Uses handle port link
  pipe_new : ∀ {handle port link}, full.link? handle port = some link →
    (∃ attachment ∈ attachments, attachment.Uses handle port link) →
      bare.pipes.get? link.send = none ∧ bare.pipes.get? link.receive = none
  pipe_old : ∀ {handle port link}, bare.link? handle port = some link →
    bare.pipes.get? link.send = full.pipes.get? link.send ∧
      bare.pipes.get? link.receive = full.pipes.get? link.receive
  pipe_count : full.pipes.openCount =
    bare.pipes.openCount + ∑ attachment ∈ attachments, attachment.pipeCount

namespace Extended

variable {bare middle full : Fabric} {first second attachments : Finset Attachment}
variable {members more : Set Handle}

theorem refl (fabric : Fabric) : fabric.Extended ∅ ∅ fabric where
  role_new := by simp
  role_old := by simp
  link_iff := by simp
  pipe_new := by simp
  pipe_old := by simp
  pipe_count := by simp

/-- What is there before and after an extension has not changed. -/
theorem role?_of_role? (extended : bare.Extended attachments members full) {handle : Handle}
    {role : Role} (known : bare.role? handle = some role) : full.role? handle = some role := by
  rw [← extended.role_old, known]
  intro new
  simp [extended.role_new new] at known

/-- Every pipe of the smaller fabric belongs to a link, so it is a pipe of the larger one. -/
theorem get?_of_get? (extended : bare.Extended attachments members full) (wired : bare.Wired)
    {id : PipeId} {entry : OpenPipe} (opened : bare.pipes.get? id = some entry) :
    full.pipes.get? id = some entry := by
  obtain ⟨port, link, linked, rfl⟩ := wired.exists_send opened
  exact (extended.pipe_old linked).1.symm.trans opened

/-- Extending twice by different attachments is extending once by all of them. -/
theorem trans (one : middle.Extended first members full) (two : bare.Extended second more middle)
    (wired : bare.Wired) (disjoint : Disjoint first second) :
    bare.Extended (first ∪ second) (members ∪ more) full where
  role_new := by
    intro handle new
    apply Option.eq_none_iff_forall_not_mem.2
    intro role known
    have between := two.role?_of_role? known
    rcases new with (early | late) | ⟨attachment, either, brings⟩
    · simp [one.role_new (.inl early)] at between
    · simp [two.role_new (.inl late)] at known
    · rcases Finset.mem_union.1 either with early | late
      · simp [one.role_new (.inr ⟨attachment, early, brings⟩)] at between
      · simp [two.role_new (.inr ⟨attachment, late, brings⟩)] at known
  role_old := by
    intro handle old
    rw [two.role_old, one.role_old]
    · rintro (early | ⟨attachment, member, brings⟩)
      · exact old (.inl (.inl early))
      · exact old (.inr ⟨attachment, Finset.mem_union_left _ member, brings⟩)
    · rintro (late | ⟨attachment, member, brings⟩)
      · exact old (.inl (.inr late))
      · exact old (.inr ⟨attachment, Finset.mem_union_right _ member, brings⟩)
  link_iff := by
    intro handle port link
    rw [two.link_iff, one.link_iff, and_assoc, ← Finset.forall_mem_union]
  pipe_new := by
    intro handle port link linked used
    have shut : ∀ {id}, middle.pipes.get? id = none → bare.pipes.get? id = none := by
      intro id missing
      apply Option.eq_none_iff_forall_not_mem.2
      intro entry opened
      simp [two.get?_of_get? wired opened] at missing
    by_cases early : ∃ attachment ∈ first, attachment.Uses handle port link
    · obtain ⟨sends, receives⟩ := one.pipe_new linked early
      exact ⟨shut sends, shut receives⟩
    · obtain ⟨attachment, either, uses⟩ := used
      rcases Finset.mem_union.1 either with member | late
      · exact absurd ⟨attachment, member, uses⟩ early
      · have still : middle.link? handle port = some link :=
          one.link_iff.2 ⟨linked, fun other member uses => early ⟨other, member, uses⟩⟩
        exact two.pipe_new still ⟨attachment, late, uses⟩
  pipe_old := by
    intro handle port link linked
    obtain ⟨sends, receives⟩ := two.pipe_old linked
    obtain ⟨sent, received⟩ := one.pipe_old (two.link_iff.1 linked).1
    exact ⟨sends.trans sent, receives.trans received⟩
  pipe_count := by
    rw [one.pipe_count, two.pipe_count, Finset.sum_union disjoint]
    omega

/-- The same extension may be described by other attachments that use the same ports. -/
theorem congr (extended : bare.Extended first members full)
    (new_iff : ∀ handle,
      (handle ∈ members ∨ ∃ attachment ∈ first, attachment.Brings handle) ↔
        (handle ∈ more ∨ ∃ attachment ∈ second, attachment.Brings handle))
    (used_iff : ∀ {handle port link}, full.link? handle port = some link →
      ((∃ attachment ∈ first, attachment.Uses handle port link) ↔
        ∃ attachment ∈ second, attachment.Uses handle port link))
    (counts : ∑ attachment ∈ first, attachment.pipeCount =
      ∑ attachment ∈ second, attachment.pipeCount) : bare.Extended second more full where
  role_new := fun new => extended.role_new ((new_iff _).2 new)
  role_old := fun old => extended.role_old (mt (new_iff _).1 old)
  link_iff := by
    intro handle port link
    rw [extended.link_iff]
    apply and_congr_right
    intro linked
    simpa using not_congr (used_iff linked)
  pipe_new := fun linked used => extended.pipe_new linked ((used_iff linked).2 used)
  pipe_old := extended.pipe_old
  pipe_count := by rw [extended.pipe_count, counts]

end Extended

/-! ## What hangs at a port is there -/

/-- A link to a module that is no forwarder hangs at a port as it is, and a forwarder hangs there
with its sibling. -/
inductive Hangs (fabric : Fabric) (handle : Handle) (port : Port) : Attachment → Prop where
  | link {link : Link} {place : Port} (linked : fabric.link? handle port = some link)
      (plain : ∀ half, fabric.role? link.peer ≠ some (.forwarder half))
      (mirrored : fabric.link? link.peer place = some (link.flip handle)) :
      Hangs fabric handle port (.link s((handle, port), (link.peer, place)))
  | pair {link : Link} {other : Handle} (linked : fabric.link? handle port = some link)
      (faces : fabric.role? link.peer = some (.forwarder ⟨some other⟩)) :
      Hangs fabric handle port (.pair s(link.peer, other))

theorem Wired.attachment?_eq_some_iff {fabric : Fabric} (wired : fabric.Wired) {handle : Handle}
    {port : Port} {attachment : Attachment} :
    fabric.attachment? handle port = some attachment ↔ fabric.Hangs handle port attachment := by
  constructor
  · intro hangs
    obtain ⟨link, linked, found⟩ := Option.bind_eq_some_iff.1 hangs
    split at found
    next half faces =>
      obtain ⟨other, sibling, rfl⟩ := Option.map_eq_some_iff.1 found
      cases half
      cases sibling
      exact .pair linked faces
    next plain =>
      obtain ⟨place, faces, rfl⟩ := Option.map_eq_some_iff.1 found
      exact .link linked plain ((wired.facing?_eq_some_iff linked).1 faces)
  · intro hangs
    cases hangs with
    | link linked plain mirrored =>
        have faces := (wired.facing?_eq_some_iff linked).2 mirrored
        rw [attachment?, linked, Option.bind_some]
        split
        next half role => exact absurd role (plain half)
        next => rw [faces, Option.map_some]
    | pair linked faces => simp [attachment?, linked, faces]

end Fabric

end NodeGrid
