import NodeGrid.Proofs.Fabric.Attachment

/-!
# Taking attachments away

Detaching a port takes one link away, and splitting a whole pair takes that pair away.  So
unlinking a port of a node takes away what hangs there.  A link with both ends at the node, or a
pair with both halves in front of it, hangs at two of its ports but goes only once; with that,
removing a node takes away what hangs at its ports one by one.
-/

namespace NodeGrid

/-- Closing some open pipes makes the open pipes fewer by as many. -/
theorem PipeTable.openCount_eq_add_card {more less : PipeTable} {ids : Finset PipeId}
    (opened : ∀ id ∈ ids, ∃ entry, more.get? id = some entry)
    (closed : ∀ id ∈ ids, less.get? id = none)
    (kept : ∀ id, id ∉ ids → less.get? id = more.get? id) :
    more.openCount = less.openCount + ids.card := by
  have split : more.openIds.toFinset = less.openIds.toFinset ∪ ids := by
    ext id
    simp only [Finset.mem_union, List.mem_toFinset, mem_openIds]
    by_cases member : id ∈ ids
    · simp [member, opened id member]
    · simp [member, kept id member]
  have apart : Disjoint less.openIds.toFinset ids := by
    rw [Finset.disjoint_left]
    intro id still member
    obtain ⟨entry, found⟩ := mem_openIds.1 (List.mem_toFinset.1 still)
    simp [closed id member] at found
  have count : ∀ table : PipeTable, table.openIds.toFinset.card = table.openCount := by
    intro table
    rw [List.toFinset_card_of_nodup table.openIds_nodup, length_openIds]
  rw [← count, split, Finset.card_union_of_disjoint apart, count]

namespace Fabric

/-- A cut takes some attachments away if it closes their links and removes what they bring. -/
theorem Cut.extended {before after : Fabric} {closed : PipeId → Prop} {removed : Handle → Prop}
    (cut : Cut before after closed removed) {attachments : Finset Attachment} {members : Set Handle}
    (ids : Finset PipeId) (closed_iff : ∀ id, closed id ↔ id ∈ ids)
    (opened : ∀ id ∈ ids, ∃ entry, before.pipes.get? id = some entry)
    (removed_iff : ∀ handle, removed handle ↔
      handle ∈ members ∨ ∃ attachment ∈ attachments, attachment.Brings handle)
    (used_iff : ∀ {handle port link}, before.link? handle port = some link →
      (closed link.send ↔ ∃ attachment ∈ attachments, attachment.Uses handle port link))
    (counts : ids.card = ∑ attachment ∈ attachments, attachment.pipeCount) :
    after.Extended attachments members before where
  role_new := fun new => cut.role_removed ((removed_iff _).2 new)
  role_old := fun old => cut.role_kept (mt (removed_iff _).1 old)
  link_iff := by
    intro handle port link
    rw [cut.link_iff]
    apply and_congr_right
    intro linked
    simpa using not_congr (used_iff linked)
  pipe_new := by
    intro handle port link linked used
    have sends := (used_iff linked).2 used
    exact ⟨cut.get_closed sends, cut.get_closed ((cut.both_ways linked).1 sends)⟩
  pipe_old := by
    intro handle port link linked
    obtain ⟨earlier, kept⟩ := cut.link_iff.1 linked
    exact ⟨cut.get_kept kept, cut.get_kept (mt (cut.both_ways earlier).2 kept)⟩
  pipe_count := by
    rw [← counts]
    apply PipeTable.openCount_eq_add_card opened
    · exact fun id member => cut.get_closed ((closed_iff id).2 member)
    · exact fun id other => cut.get_kept (mt (closed_iff id).1 other)

section OneAttachment

variable {fabric : Fabric} (wired : fabric.Wired)
include wired

/-- Taking away a module without links takes nothing else away. -/
theorem Wired.removeUnlinked_extended {handle : Handle}
    (unlinked : ∀ port, fabric.link? handle port = none) :
    Extended { fabric with modules := (fabric.modules.remove handle).2 } ∅ {handle} fabric :=
  (wired.removeUnlinked unlinked).extended ∅ (by simp) (by simp) (by simp) (by simp) (by simp)

/-- Detaching a port takes away the link between two ports. -/
theorem Wired.detachPort_extended {handle : Handle} {port place : Port} {link : Link}
    (linked : fabric.link? handle port = some link)
    (mirrored : fabric.link? link.peer place = some (link.flip handle)) :
    (fabric.detachPort handle port).Extended {.link s((handle, port), (link.peer, place))} ∅
      fabric := by
  apply (wired.detachPort handle port).extended {link.send, link.receive}
  · simp [Touches, linked]
  · intro id member
    rcases Finset.mem_insert.1 member with rfl | other
    · exact (wired.exists_get? linked).imp fun _ found => found.1
    · rw [Finset.mem_singleton.1 other]
      exact (wired.exists_get?_receive linked).imp fun _ found => found.1
  · simp [Attachment.Brings]
  · intro other side found linked'
    simp only [Finset.mem_singleton, exists_eq_left, Attachment.Uses, Sym2.mem_iff, Prod.mk.injEq]
    constructor
    · rintro ⟨_, here, own, same, sends | receives⟩
      · rw [List.mem_singleton.1 here, linked] at same
        cases same
        exact .inl (wired.send_injective linked' linked sends)
      · rw [List.mem_singleton.1 here, linked] at same
        cases same
        exact .inr (wired.send_injective linked' mirrored receives)
    · rintro (⟨rfl, rfl⟩ | ⟨rfl, rfl⟩)
      · exact ⟨side, by simp, found, linked', .inl rfl⟩
      · rw [mirrored] at linked'
        cases linked'
        exact ⟨port, by simp, link, linked, .inr rfl⟩
  · rw [Finset.card_pair (wired.apart linked)]
    rfl

/-- A pipe that a link sends to belongs to a module exactly if the module is at one end of the
link. -/
theorem Wired.touches_all_iff {handle other : Handle} {port : Port} {link : Link}
    (linked : fabric.link? handle port = some link) :
    fabric.Touches other Port.all link.send ↔ handle = other ∨ link.peer = other := by
  constructor
  · rintro ⟨place, -, facing, found, sends | receives⟩
    · exact .inl (wired.send_injective linked found sends).1
    · obtain ⟨back, mirrored⟩ := wired.mirror found
      obtain ⟨rfl, rfl⟩ := wired.send_injective linked mirrored receives
      rw [linked] at mirrored
      cases mirrored
      exact .inr rfl
  · rintro (rfl | rfl)
    · exact ⟨port, Port.mem_all port, link, linked, .inl rfl⟩
    · obtain ⟨place, mirrored⟩ := wired.mirror linked
      exact ⟨place, Port.mem_all place, _, mirrored, .inr rfl⟩

end OneAttachment

/-- The pipes of a forwarder are the two of its only link. -/
theorem Single.touches_iff {fabric : Fabric} (single : fabric.Single) {handle : Handle}
    {half : Forwarder} {port : Port} {link : Link} {id : PipeId}
    (role : fabric.role? handle = some (.forwarder half))
    (linked : fabric.link? handle port = some link) :
    fabric.Touches handle Port.all id ↔ id = link.send ∨ id = link.receive := by
  constructor
  · rintro ⟨place, -, other, found, either⟩
    cases single role found linked
    rw [linked] at found
    cases found
    exact either
  · exact fun either => ⟨port, Port.mem_all port, link, linked, either⟩

theorem Whole.symm {fabric : Fabric} {near far : Handle} (whole : fabric.Whole near far) :
    fabric.Whole far near :=
  ⟨whole.far_role, whole.near_role, whole.far_linked, whole.near_linked⟩

/-- The links of the two halves of a pair have four different pipes. -/
theorem Lawful.card_pair_pipes {fabric : Fabric} (lawful : fabric.Lawful) {near far : Handle}
    {half other : Forwarder} {port place : Port} {own onward : Link}
    (nearRole : fabric.role? near = some (.forwarder half))
    (farRole : fabric.role? far = some (.forwarder other)) (different : near ≠ far)
    (linked : fabric.link? near port = some own) (found : fabric.link? far place = some onward) :
    Finset.card {own.send, own.receive, onward.send, onward.receive} = 4 := by
  have wired := lawful.wired
  obtain ⟨_, ownNode⟩ := lawful.fronted.faces_node nearRole linked
  obtain ⟨_, onwardNode⟩ := lawful.fronted.faces_node farRole found
  obtain ⟨_, ownMirrored⟩ := wired.mirror linked
  obtain ⟨_, onwardMirrored⟩ := wired.mirror found
  have sends : own.send ≠ onward.send :=
    fun same => different (wired.send_injective linked found same).1
  have receives : own.receive ≠ onward.receive :=
    fun same => different (wired.receive_injective linked found same).1
  have out : own.send ≠ onward.receive := by
    intro same
    have peer := (wired.send_injective linked onwardMirrored same).1
    simp [← peer, nearRole] at onwardNode
  have back : own.receive ≠ onward.send := by
    intro same
    have peer := (wired.send_injective ownMirrored found same).1
    simp [peer, farRole] at ownNode
  simp [sends, receives, out, back, wired.apart linked, wired.apart found]

/-- Splitting a whole pair at either half takes away the pair. -/
theorem Whole.splitPair_extended {fabric : Fabric} {near far : Handle}
    (whole : fabric.Whole near far) (lawful : fabric.Lawful) (single : fabric.Single) :
    (fabric.splitPair near).Extended {.pair s(near, far)} ∅ fabric := by
  have wired := lawful.wired
  obtain ⟨port, own, linked⟩ := whole.near_linked
  obtain ⟨place, onward, found⟩ := whole.far_linked
  have different := lawful.fronted.sibling_ne whole.near_role
  have cut := wired.splitPair_both whole.near_role whole.far_role different
  apply cut.extended {own.send, own.receive, onward.send, onward.receive}
  · intro id
    rw [single.touches_iff whole.near_role linked, single.touches_iff whole.far_role found]
    simp [or_assoc]
  · intro id member
    simp only [Finset.mem_insert, Finset.mem_singleton] at member
    rcases member with rfl | rfl | rfl | rfl
    · exact (wired.exists_get? linked).imp fun _ opened => opened.1
    · exact (wired.exists_get?_receive linked).imp fun _ opened => opened.1
    · exact (wired.exists_get? found).imp fun _ opened => opened.1
    · exact (wired.exists_get?_receive found).imp fun _ opened => opened.1
  · simp [Attachment.Brings]
  · intro handle side link linked'
    rw [wired.touches_all_iff linked', wired.touches_all_iff linked']
    simp only [Finset.mem_singleton, exists_eq_left, Attachment.Uses, Sym2.mem_iff]
    tauto
  · rw [lawful.card_pair_pipes whole.near_role whole.far_role different.symm linked found]
    rfl

/-! ## What hangs at the ports of a node -/

theorem Wired.mem_attachmentsAt {fabric : Fabric} (wired : fabric.Wired) {handle : Handle}
    {ports : List Port} {attachment : Attachment} :
    attachment ∈ fabric.attachmentsAt handle ports ↔
      ∃ port ∈ ports, fabric.Hangs handle port attachment := by
  simp [attachmentsAt, wired.attachment?_eq_some_iff]

theorem Wired.mem_attachmentsAt_single {fabric : Fabric} (wired : fabric.Wired) {handle : Handle}
    {port : Port} {attachment : Attachment} :
    attachment ∈ fabric.attachmentsAt handle [port] ↔ fabric.Hangs handle port attachment := by
  simp [wired.mem_attachmentsAt]

theorem Wired.attachmentsAt_single {fabric : Fabric} (wired : fabric.Wired) {handle : Handle}
    {port : Port} {attachment : Attachment} (hangs : fabric.Hangs handle port attachment) :
    fabric.attachmentsAt handle [port] = {attachment} := by
  simp [attachmentsAt, wired.attachment?_eq_some_iff.2 hangs]

/-- A forwarder in front of an intact port is a whole pair with the sibling that it names. -/
theorem Intact.whole {fabric : Fabric} {handle other : Handle} {port : Port} {link : Link}
    (intact : fabric.Intact handle port) (linked : fabric.link? handle port = some link)
    (faces : fabric.role? link.peer = some (.forwarder ⟨some other⟩)) :
    fabric.Whole link.peer other := by
  obtain ⟨sibling, whole⟩ := intact linked faces
  have same := whole.near_role
  rw [faces] at same
  cases same
  exact whole

/-- Something hangs at every linked port, unless it is a half without its sibling. -/
theorem Intact.exists_hangs {fabric : Fabric} {handle : Handle} {port : Port} {link : Link}
    (intact : fabric.Intact handle port) (wired : fabric.Wired)
    (linked : fabric.link? handle port = some link) :
    ∃ attachment, fabric.Hangs handle port attachment := by
  by_cases faces : ∃ half, fabric.role? link.peer = some (.forwarder half)
  · obtain ⟨half, role⟩ := faces
    obtain ⟨other, whole⟩ := intact linked role
    exact ⟨_, .pair linked whole.near_role⟩
  · obtain ⟨place, mirrored⟩ := wired.mirror linked
    exact ⟨_, .link linked (not_exists.1 faces) mirrored⟩

/-- Unlinking a port takes away what hangs there. -/
theorem Intact.unlinkPort_extended {fabric : Fabric} {handle : Handle} {port : Port}
    (intact : fabric.Intact handle port) (lawful : fabric.Lawful) (single : fabric.Single) :
    (fabric.unlinkPort handle port).Extended (fabric.attachmentsAt handle [port]) ∅ fabric := by
  have wired := lawful.wired
  cases linked : fabric.link? handle port with
  | none =>
      simpa [attachmentsAt, attachment?, unlinkPort, linked] using Extended.refl fabric
  | some link =>
      obtain ⟨attachment, hangs⟩ := intact.exists_hangs wired linked
      rw [wired.attachmentsAt_single hangs]
      cases hangs with
      | link same plain mirrored =>
          rw [linked] at same
          cases same
          have unlinks : fabric.unlinkPort handle port = fabric.detachPort handle port := by
            simp [unlinkPort, linked, isForwarder_iff, plain]
          rw [unlinks]
          exact wired.detachPort_extended linked mirrored
      | pair same faces =>
          rw [linked] at same
          cases same
          have unlinks : fabric.unlinkPort handle port = fabric.splitPair link.peer := by
            simp [unlinkPort, linked, isForwarder_iff, faces]
          rw [unlinks]
          exact (intact.whole linked faces).splitPair_extended lawful single

theorem Hangs.uses {fabric : Fabric} {handle : Handle} {port : Port} {link : Link}
    {attachment : Attachment} (hangs : fabric.Hangs handle port attachment)
    (linked : fabric.link? handle port = some link) : attachment.Uses handle port link := by
  cases hangs with
  | link => exact Sym2.mem_mk_left _ _
  | pair same =>
      rw [linked] at same
      cases same
      exact .inr (Sym2.mem_mk_left _ _)

/-- A module that an attachment brings is half of a whole pair, and that pair is the attachment. -/
theorem Hangs.whole_of_brings {fabric : Fabric} {handle half : Handle} {port : Port}
    {attachment : Attachment} (hangs : fabric.Hangs handle port attachment)
    (intact : fabric.Intact handle port) (brings : attachment.Brings half) :
    ∃ other, fabric.Whole half other ∧ attachment = .pair s(half, other) := by
  cases hangs with
  | link => exact brings.elim
  | pair linked faces =>
      have whole := intact.whole linked faces
      rcases Sym2.mem_iff.1 brings with rfl | rfl
      · exact ⟨_, whole, rfl⟩
      · exact ⟨_, whole.symm, by rw [Sym2.eq_swap]⟩

section Extended

variable {bare full : Fabric} {attachments : Finset Attachment} {members : Set Handle}
variable (extended : bare.Extended attachments members full) (wired : bare.Wired)
include extended wired

/-- The module at the other end of a link that is left is the same as before. -/
theorem Extended.role?_peer {handle : Handle} {port : Port} {link : Link}
    (linked : bare.link? handle port = some link) :
    bare.role? link.peer = full.role? link.peer := by
  obtain ⟨place, mirrored⟩ := wired.mirror linked
  obtain ⟨role, known⟩ := role?_isSome_of_link? mirrored
  rw [known, extended.role?_of_role? known]

/-- What still hangs at a port hung there before, and has not been taken away. -/
theorem Extended.hangs_before {handle : Handle} {port : Port} {attachment : Attachment}
    (hangs : bare.Hangs handle port attachment) :
    full.Hangs handle port attachment ∧ attachment ∉ attachments := by
  have spared : ∀ {link}, bare.link? handle port = some link → attachment ∉ attachments := by
    intro link linked member
    exact (extended.link_iff.1 linked).2 attachment member (hangs.uses linked)
  cases hangs with
  | link linked plain mirrored =>
      have peer := extended.role?_peer wired linked
      simp only [peer] at plain
      refine ⟨.link (extended.link_iff.1 linked).1 plain ?_, spared linked⟩
      exact (extended.link_iff.1 mirrored).1
  | pair linked faces =>
      refine ⟨.pair (extended.link_iff.1 linked).1 ?_, spared linked⟩
      exact extended.role?_of_role? faces

/-- Whatever hung at a port that is still linked hangs there as before. -/
theorem Extended.hangs_of_link (before : full.Wired) {handle : Handle} {port : Port} {link : Link}
    {attachment : Attachment} (linked : bare.link? handle port = some link)
    (hangs : full.Hangs handle port attachment) : bare.Hangs handle port attachment := by
  have peer := extended.role?_peer wired linked
  have earlier := (extended.link_iff.1 linked).1
  cases hangs with
  | link same plain mirrored =>
      rw [earlier] at same
      cases same
      obtain ⟨place, still⟩ := wired.mirror linked
      cases before.sole (extended.link_iff.1 still).1 mirrored rfl
      exact .link linked (fun half => peer ▸ plain half) still
  | pair same faces =>
      rw [earlier] at same
      cases same
      exact .pair linked (peer.trans faces)

end Extended

section Node

variable {bare full : Fabric} {handle : Handle} {node : Node} {port : Port}
variable (lawful : full.Lawful) (isNode : full.role? handle = some (.node node))
variable (intact : full.Intact handle port)
include lawful isNode intact

/-- If an attachment that hangs at a port of a node uses another port of the node, it is what hangs
there as well. -/
theorem Hangs.eq_of_uses {place : Port} {link : Link} {attachment other : Attachment}
    (hangs : full.Hangs handle port attachment) (hangsThere : full.Hangs handle place other)
    (linked : full.link? handle place = some link) (uses : attachment.Uses handle place link) :
    attachment = other := by
  have wired := lawful.wired
  have unique : ∀ {one}, full.Hangs handle place one → one = other := by
    intro one hangs
    have found := wired.attachment?_eq_some_iff.2 hangs
    rw [wired.attachment?_eq_some_iff.2 hangsThere] at found
    exact (Option.some.inj found).symm
  cases attachment with
  | link ends =>
      cases hangs with
      | @link own facing here plain mirrored =>
          rcases Sym2.mem_iff.1 uses with same | same
          · -- It is the same port.
            cases same
            exact unique (.link here plain mirrored)
          · -- The link has both of its ends at the node.
            cases same
            rw [Sym2.eq_swap]
            exact unique (@Hangs.link _ _ _ (own.flip own.peer) _ mirrored plain here)
  | pair halves =>
      rcases uses with own | facing
      · obtain ⟨_, whole, -⟩ := hangs.whole_of_brings intact own
        simp [whole.near_role] at isNode
      · obtain ⟨_, whole, same⟩ := hangs.whole_of_brings intact facing
        rw [same]
        exact unique (.pair linked whole.near_role)

variable (extended : bare.Extended (full.attachmentsAt handle [port]) ∅ full)
include extended

/-- A link of a half that stays is left when a port of a node is unlinked. -/
theorem Extended.link?_of_half {half : Handle} {known : Forwarder} {side : Port} {own : Link}
    (role : full.role? half = some (.forwarder known)) (linked : full.link? half side = some own)
    (stays : ∀ attachment ∈ full.attachmentsAt handle [port], ¬attachment.Brings half) :
    bare.link? half side = some own := by
  apply extended.link_iff.2
  refine ⟨linked, fun attachment member uses => ?_⟩
  have hangs := lawful.wired.mem_attachmentsAt_single.1 member
  cases attachment with
  | link ends =>
      -- A link that hangs at a port of a node has no end at a half.
      cases hangs with
      | link _ plain _ =>
          rcases Sym2.mem_iff.1 uses with same | same
          · cases same
            simp [role] at isNode
          · cases same
            exact plain known role
  | pair halves =>
      rcases uses with own | facing
      · exact stays _ member own
      · obtain ⟨front, peer⟩ := lawful.fronted.faces_node role linked
        obtain ⟨_, pair, -⟩ := hangs.whole_of_brings intact facing
        simp [pair.near_role] at peer

/-- A pair stays whole if one of its halves is left when a port of a node is unlinked. -/
theorem Extended.whole {near far : Handle} {role : Role} (whole : full.Whole near far)
    (left : bare.role? near = some role) : bare.Whole near far := by
  have nearStays : ∀ attachment ∈ full.attachmentsAt handle [port], ¬attachment.Brings near := by
    intro attachment member brings
    simp [extended.role_new (.inr ⟨attachment, member, brings⟩)] at left
  have farStays : ∀ attachment ∈ full.attachmentsAt handle [port], ¬attachment.Brings far := by
    intro attachment member brings
    have hangs := lawful.wired.mem_attachmentsAt_single.1 member
    obtain ⟨sibling, pair, same⟩ := hangs.whole_of_brings intact brings
    have names := whole.far_role
    rw [pair.near_role] at names
    cases names
    exact nearStays attachment member (same ▸ Sym2.mem_mk_right _ _)
  have roles : ∀ {half}, (∀ attachment ∈ full.attachmentsAt handle [port],
      ¬attachment.Brings half) → bare.role? half = full.role? half := by
    intro half stays
    apply extended.role_old
    simpa using stays
  obtain ⟨nearPort, nearLink, nearLinked⟩ := whole.near_linked
  obtain ⟨farPort, farLink, farLinked⟩ := whole.far_linked
  have nearLeft := extended.link?_of_half lawful isNode intact whole.near_role nearLinked nearStays
  have farLeft := extended.link?_of_half lawful isNode intact whole.far_role farLinked farStays
  exact
    { near_role := (roles nearStays).trans whole.near_role
      far_role := (roles farStays).trans whole.far_role
      near_linked := ⟨nearPort, nearLink, nearLeft⟩
      far_linked := ⟨farPort, farLink, farLeft⟩ }

/-- What hangs at other ports of a node is intact after a port has been unlinked. -/
theorem Extended.intact_of_intact {place : Port} (intactThere : full.Intact handle place) :
    bare.Intact handle place := by
  intro link half linked role
  obtain ⟨other, whole⟩ :=
    intactThere (extended.link_iff.1 linked).1 (extended.role?_of_role? role)
  exact ⟨other, extended.whole lawful isNode intact whole role⟩

/-- A node stays when one of its ports is unlinked. -/
theorem Extended.role?_node : bare.role? handle = some (.node node) := by
  rw [extended.role_old, isNode]
  rintro (none | ⟨attachment, member, brings⟩)
  · exact none
  · have hangs := lawful.wired.mem_attachmentsAt_single.1 member
    obtain ⟨_, pair, -⟩ := hangs.whole_of_brings intact brings
    simp [pair.near_role] at isNode

variable (wired : bare.Wired)
include wired

/-- What hangs at a port of a node still hangs there after another port has been unlinked, unless it
hung at both ports. -/
theorem Extended.hangs_iff {place : Port} {attachment : Attachment} :
    bare.Hangs handle place attachment ↔
      full.Hangs handle place attachment ∧ attachment ∉ full.attachmentsAt handle [port] := by
  constructor
  · exact extended.hangs_before wired
  · rintro ⟨hangs, spared⟩
    obtain ⟨link, linked⟩ : ∃ link, full.link? handle place = some link := by
      cases hangs with
      | link linked => exact ⟨_, linked⟩
      | pair linked => exact ⟨_, linked⟩
    have still : bare.link? handle place = some link := by
      apply extended.link_iff.2
      refine ⟨linked, fun other member uses => spared ?_⟩
      have hangsHere := lawful.wired.mem_attachmentsAt_single.1 member
      rwa [← hangsHere.eq_of_uses lawful isNode intact hangs linked uses]
    exact extended.hangs_of_link wired lawful.wired still hangs

/-- What hangs at several ports of a node is what hangs at the first of them, and what hangs at the
others once that has been taken away. -/
theorem Extended.attachmentsAt_cons (rest : List Port) :
    full.attachmentsAt handle (port :: rest) =
        full.attachmentsAt handle [port] ∪ bare.attachmentsAt handle rest ∧
      Disjoint (full.attachmentsAt handle [port]) (bare.attachmentsAt handle rest) := by
  have later : ∀ attachment, attachment ∈ bare.attachmentsAt handle rest ↔
      (∃ place ∈ rest, full.Hangs handle place attachment) ∧
        attachment ∉ full.attachmentsAt handle [port] := by
    intro attachment
    simp only [wired.mem_attachmentsAt, extended.hangs_iff lawful isNode intact wired]
    constructor
    · rintro ⟨place, member, hangs, spared⟩
      exact ⟨⟨place, member, hangs⟩, spared⟩
    · rintro ⟨⟨place, member, hangs⟩, spared⟩
      exact ⟨place, member, hangs, spared⟩
  constructor
  · ext attachment
    rw [Finset.mem_union, later]
    simp only [lawful.wired.mem_attachmentsAt, List.exists_mem_cons_iff, List.not_mem_nil,
      false_and, exists_false, or_false]
    tauto
  · rw [Finset.disjoint_left]
    exact fun attachment member left => ((later attachment).1 left).2 member

end Node

/-- Unlinking ports of a node takes away what hangs at them. -/
theorem Lawful.unlinkPorts_extended {fabric : Fabric} (lawful : fabric.Lawful)
    (single : fabric.Single) {handle : Handle} {node : Node}
    (isNode : fabric.role? handle = some (.node node)) {ports : List Port}
    (intact : ∀ port ∈ ports, fabric.Intact handle port) :
    (ports.foldl (fun after port => after.unlinkPort handle port) fabric).Extended
      (fabric.attachmentsAt handle ports) ∅ fabric := by
  -- Once the first port has been unlinked, the others are still intact and belong to a node.
  induction ports generalizing fabric with
  | nil => exact .refl fabric
  | cons port rest ih =>
      rw [List.forall_mem_cons] at intact
      have first := intact.1.unlinkPort_extended lawful single
      obtain ⟨pruned, -⟩ := lawful.wired.unlinkPort handle port
      have lawful' := pruned.lawful lawful
      obtain ⟨later, -⟩ := lawful'.wired.unlinkPorts handle rest
      obtain ⟨union, disjoint⟩ :=
        first.attachmentsAt_cons lawful isNode intact.1 lawful'.wired rest
      have others := ih lawful' (pruned.single single) (first.role?_node lawful isNode intact.1)
        fun place member => first.intact_of_intact lawful isNode intact.1 (intact.2 place member)
      rw [union, ← Set.union_self (∅ : Set Handle)]
      exact first.trans others (later.wired lawful'.wired) disjoint

/-- Removing a node takes away the node and what hangs at its ports. -/
theorem Lawful.removeNode_extended {fabric : Fabric} (lawful : fabric.Lawful)
    (single : fabric.Single) {handle : Handle} {node : Node}
    (isNode : fabric.role? handle = some (.node node))
    (intact : ∀ port, fabric.Intact handle port) :
    (fabric.removeNode handle).Extended (fabric.attachments handle) {handle} fabric := by
  obtain ⟨pruned, frees⟩ := lawful.wired.unlinkPorts handle Port.all
  have wired := pruned.wired lawful.wired
  have unlinked := fun port => frees port (Port.mem_all port)
  have freed := lawful.unlinkPorts_extended single isNode fun port (_ : port ∈ Port.all) =>
    intact port
  have both := freed.trans (wired.removeUnlinked_extended unlinked)
    ((wired.removeUnlinked unlinked).wired wired) (Finset.disjoint_empty_right _)
  rwa [Finset.union_empty, Set.empty_union] at both

end Fabric

end NodeGrid
