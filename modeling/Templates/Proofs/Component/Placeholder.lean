import Templates.Proofs.Component.Offer
import Templates.Proofs.Markup.Outermost

/-!
What becomes of a document while copies are put into its slots and the other slots become comments.

The slots are looked up before the first of them gives way, so that the list of them says nothing
about which ones are still there. What is shown is told by the forest at the beginning and by what
has been put into its slots.
-/

namespace Templates.Slot

open Markup

/-- The name of a slot. -/
def slotName (e : Element) : Text :=
  ((e.attribute? "name").map Attribute.text).getD []

/-- The name of the slot that a node is. -/
def slotName? (content : Content) : Option Text :=
  (content.chosen? (Element.isNamed "slot")).map slotName

/-- A node with the tag of a slot is one. -/
theorem slotName?_ne_none {d : Document} {id : NodeId}
    (slot : (d.element? id).any (Element.isNamed "slot") = true) :
    slotName? (d.content id) ≠ none := by
  -- The element with the tag is the one that is chosen.
  obtain ⟨e, element, named⟩ := (Option.any_eq_true _ _).mp slot
  have chosen : (d.content id).chosen? (Element.isNamed "slot") = some e :=
    Content.chosen?_eq_some.mpr ⟨Document.content_of_element? element, named⟩
  rw [slotName?, chosen]
  exact Option.some_ne_none _

/-- The slots of a forest with their names, each in front of those below it. -/
def slots : Forest → List (NodeId × Text)
  | .nil => []
  | .cons id content below rest =>
    ((slotName? content).map fun name => (id, name)).toList ++ slots below ++ slots rest

/-- The slots are the elements that are found by their tag. -/
theorem map_slots (forest : Forest) :
    (slots forest).map Prod.fst = forest.marked (Element.isNamed "slot") := by
  induction forest with
  | nil => rfl
  | cons id content below rest ihBelow ihRest =>
    rw [slots, Forest.marked, List.map_append, List.map_append, ihBelow, ihRest, slotName?]
    cases content.chosen? (Element.isNamed "slot") <;> rfl

/-- The name of a slot is that of its attribute in the document. -/
theorem slotName_of_mem {d : Document} {parent : Option NodeId} {forest : Forest}
    (stands : forest.Stands d parent) {slot : NodeId × Text} (listed : slot ∈ slots forest) :
    (d.attribute? "name" slot.1).getD [] = slot.2 := by
  induction forest generalizing parent with
  | nil => cases listed
  | cons id content below rest ihBelow ihRest =>
    have own := stands.content
    obtain ⟨_, standsBelow, standsRest⟩ := stands
    rw [slots, List.mem_append, List.mem_append] at listed
    obtain (listed | listed) | listed := listed
    · -- The slot is the first node itself.
      obtain ⟨name, named, rfl⟩ := Option.map_eq_some_iff.mp (Option.mem_toList.mp listed)
      obtain ⟨e, chosen, rfl⟩ := Option.map_eq_some_iff.mp named
      obtain ⟨rfl, _⟩ := Content.chosen?_eq_some.mp chosen
      rw [Document.attribute?, Document.element?, own]
      rfl
    · exact ihBelow standsBelow listed
    · exact ihRest standsRest listed

/-- What is put into the slots: the copies for each name into the first slot of that name. -/
def fills (slots : List (NodeId × Text)) (stock : Stock) : Substitution :=
  stock.filterMap fun entry =>
    (slots.find? fun slot => slot.2 = entry.1).map fun slot => (slot.1, entry.2)

/-- Copies are skipped if no slot has their name. -/
theorem fills_skip {slots : List (NodeId × Text)} {stock : Stock} {name : Text} (new : Forest)
    (found : (slots.find? fun slot => slot.2 = name) = none) :
    fills slots ((name, new) :: stock) = fills slots stock := by
  simp [fills, found]

/-- Copies are put into the first slot of their name. -/
theorem fills_fill {slots : List (NodeId × Text)} {stock : Stock} {name : Text} (new : Forest)
    {slot : NodeId × Text} (found : (slots.find? fun slot => slot.2 = name) = some slot) :
    fills slots ((name, new) :: stock) = (slot.1, new) :: fills slots stock := by
  simp [fills, found]

/-- The slots as placeholders, some of which have been filled. -/
def placeholders (slots : List (NodeId × Text)) (assigned : Substitution) : List Placeholder :=
  slots.map fun slot => (slot.1, (assigned.lookup slot.1).isSome)

/-- The placeholders are the slots. -/
theorem map_placeholders (slots : List (NodeId × Text)) (assigned : Substitution) :
    (placeholders slots assigned).map Prod.fst = slots.map Prod.fst := by
  rw [placeholders, List.map_map]
  rfl

/-- No placeholder has been filled at the beginning. -/
theorem placeholders_nil (slots : List (NodeId × Text)) :
    placeholders slots [] = (slots.map Prod.fst).map fun slot => (slot, false) := by
  rw [placeholders, List.map_map]
  rfl

section Fill

variable {slots : List (NodeId × Text)} {assigned : Substitution} {d : Document}

/-- A slot that is not in the list can be filled without a change to the others. -/
theorem placeholders_snoc_of_notMem {id : NodeId} (new : Forest)
    (absent : id ∉ slots.map Prod.fst) :
    placeholders slots (assigned ++ [(id, new)]) = placeholders slots assigned := by
  refine List.map_congr_left fun slot listed => ?_
  have other : slot.1 ≠ id :=
    ne_of_mem_of_not_mem (List.mem_map_of_mem listed) absent
  rw [List.lookup_append, lookup_cons_eq_ite, if_neg other, List.lookup_nil, Option.or_none]

/-- The first slot of a name is filled if no slot of that name has been. -/
theorem fillFirst_eq (name : Text) (new : Forest)
    (named : ∀ slot ∈ slots, (d.attribute? "name" slot.1).getD [] = slot.2)
    (free : ∀ slot ∈ slots, slot.2 = name → assigned.lookup slot.1 = none)
    (distinct : (slots.map Prod.fst).Nodup) :
    fillFirst name new.tops (placeholders slots assigned) d =
      match slots.find? fun slot => slot.2 = name with
      | some slot =>
        (placeholders slots (assigned ++ [(slot.1, new)]), d.replaceWith slot.1 new.tops)
      | none => (placeholders slots assigned, d) := by
  -- The slots are tried in order, and those in front of the first one of the name stay.
  induction slots with
  | nil => rfl
  | cons slot rest ih =>
    obtain ⟨id, own⟩ := slot
    have read : (d.attribute? "name" id).getD [] = own := named (id, own) List.mem_cons_self
    obtain ⟨absent, distinctRest⟩ := List.nodup_cons.mp distinct
    have split : placeholders ((id, own) :: rest) assigned =
        (id, (assigned.lookup id).isSome) :: placeholders rest assigned := rfl
    rw [split, fillFirst, read]
    by_cases same : own = name
    · -- The first slot has the name, and has not been filled.
      have unfilled := free (id, own) List.mem_cons_self same
      have filled : (assigned ++ [(id, new)]).lookup id = some new := by
        rw [List.lookup_append, unfilled, lookup_cons_eq_ite, if_pos rfl]
        rfl
      rw [List.find?_cons_of_pos (by simpa using same), unfilled, if_pos (by simpa using same)]
      show _ = ((id, _) :: placeholders rest _, _)
      rw [filled, placeholders_snoc_of_notMem new absent]
      rfl
    · have later := ih (fun slot listed => named slot (List.mem_cons_of_mem _ listed))
        (fun slot listed => free slot (List.mem_cons_of_mem _ listed)) distinctRest
      rw [List.find?_cons_of_neg (by simpa using same), if_neg (by simp [same]), later]
      cases found : rest.find? fun slot => slot.2 = name with
      | none => rfl
      | some slot =>
        -- The slot that is filled is another one.
        have listed := List.mem_of_find?_eq_some found
        have other : id ≠ slot.1 :=
          Ne.symm (ne_of_mem_of_not_mem (List.mem_map_of_mem listed) absent)
        show (_ :: _, _) = ((id, _) :: _, _)
        rw [List.lookup_append, lookup_cons_eq_ite, if_neg other, List.lookup_nil, Option.or_none]
        rfl

end Fill

/-- A document in which slots have been filled in part: the slots are shown or have lost their
place, and those with the name of copies that wait have not been filled. -/
structure Filling (d : Document) (forest : Forest) (slots : List (NodeId × Text))
    (assigned : Substitution) (stock : Stock) (gone : Forest) : Prop where
  parts : d.Parts (forest.substitute assigned) stock.forest gone
  known : slots.map Prod.fst ⊆ (forest.substitute assigned).ids ++ gone.ids
  named : ∀ slot ∈ slots, (d.attribute? "name" slot.1).getD [] = slot.2
  free : ∀ slot ∈ slots, slot.2 ∈ stock.map Prod.fst → assigned.lookup slot.1 = none
  apart : ∀ entry ∈ assigned, ∀ slot ∈ slots, slot.1 ∉ entry.2.ids
  names : (stock.map Prod.fst).Nodup

namespace Filling

variable {d : Document} {forest gone new : Forest} {slots : List (NodeId × Text)}
  {assigned : Substitution} {stock : Stock} {name : Text}

/-- Copies without a slot are given up. -/
theorem skip (filling : Filling d forest slots assigned ((name, new) :: stock) gone) :
    Filling d forest slots assigned stock (new.append gone) where
  parts := filling.parts.giveUp
  known x listed := by
    rw [Forest.ids_append]
    exact List.mem_append.mpr ((List.mem_append.mp (filling.known listed)).imp_right
      (List.mem_append_right _))
  named := filling.named
  free slot listed later := filling.free slot listed (List.mem_cons_of_mem _ later)
  apart := filling.apart
  names := (List.nodup_cons.mp filling.names).2

/-- A slot gives way to the copies for its name. -/
theorem fill (filling : Filling d forest slots assigned ((name, new) :: stock) gone)
    {slot : NodeId × Text} (listed : slot ∈ slots) (own : slot.2 = name) :
    ∃ gone', Filling (d.replaceWith slot.1 new.tops) forest slots (assigned ++ [(slot.1, new)])
      stock gone' := by
  obtain ⟨fresh, names⟩ := List.nodup_cons.mp filling.names
  have parts : d.Parts (forest.substitute assigned) (new.append stock.forest) gone := filling.parts
  obtain ⟨gone', parts', kept⟩ := parts.replaceWith (filling.known (List.mem_map_of_mem listed))
  rw [Forest.substitute_snoc _ _ fun entry given => filling.apart entry given slot listed]
    at parts' kept
  refine ⟨gone', parts', fun x known => kept (filling.known known), fun other listed' => ?_,
    fun other listed' later => ?_, fun entry given other listed' => ?_, names⟩
  · rw [(Document.Relinked.replaceWith slot.1 new.tops d).attribute?]
    exact filling.named other listed'
  · -- The slot that is filled has none of the other names.
    have different : other.1 ≠ slot.1 := fun eq => by
      have same : other.2 = name := by
        rw [← own, ← filling.named other listed', ← filling.named slot listed, eq]
      exact fresh (same ▸ later)
    rw [List.lookup_append, filling.free other listed' (List.mem_cons_of_mem _ later),
      lookup_cons_eq_ite, if_neg different]
    rfl
  · obtain given | given := List.mem_append.mp given
    · exact filling.apart entry given other listed'
    · -- The copies are none of the nodes in which slots are looked up.
      have outside := parts.notMem_waiting (filling.known (List.mem_map_of_mem listed'))
      rw [Forest.ids_append, List.mem_append, not_or] at outside
      rw [List.mem_singleton.mp given]
      exact outside.1

/-- All copies are put into their slots, as far as there are any. -/
theorem fillAll (filling : Filling d forest slots assigned stock gone)
    (distinct : (slots.map Prod.fst).Nodup) :
    ∃ after gone', Slot.fillAll stock.groups (placeholders slots assigned) d =
        (placeholders slots (assigned ++ fills slots stock), after) ∧
      Filling after forest slots (assigned ++ fills slots stock) [] gone' ∧
      after.size = d.size := by
  -- The copies for one name after the other leave the stock; what has been filled stays filled.
  induction stock generalizing assigned d gone with
  | nil =>
    rw [show fills slots [] = [] from rfl, List.append_nil]
    exact ⟨d, gone, rfl, filling, rfl⟩
  | cons entry rest ih =>
    obtain ⟨name, new⟩ := entry
    have first := fillFirst_eq name new filling.named
      (fun slot listed same => filling.free slot listed (by simp [same])) distinct
    rw [show Stock.groups ((name, new) :: rest) = (name, new.tops) :: Stock.groups rest from rfl,
      Slot.fillAll, first]
    cases found : slots.find? fun slot => slot.2 = name with
    | none =>
      rw [fills_skip new found]
      exact ih filling.skip
    | some slot =>
      have own : slot.2 = name := by simpa using List.find?_some found
      obtain ⟨between, next⟩ := filling.fill (List.mem_of_find?_eq_some found) own
      obtain ⟨after, gone', run, last, size⟩ := ih next
      rw [fills_fill new found, List.append_cons]
      exact ⟨after, gone', run, last,
        size.trans (Document.Relinked.replaceWith slot.1 new.tops d).size⟩

end Filling

/-- A comment of a number that stands for a node. -/
def leftNote (next : NodeId) (content : Content) (below : Forest) : Forest :=
  .cons next (.comment (commentText (write (.node content below.trees)))) .nil .nil

/-- The nodes of some numbers become comments, as far as they are still there; the comments are
numbered from a first one on. -/
def leaveNotes : NodeId → List NodeId → Forest → Forest
  | _, [], forest => forest
  | next, id :: rest, forest =>
    match forest.find? id with
    | some (content, below) =>
      leaveNotes (next + 1) rest (forest.substitute [(id, leftNote next content below)])
    | none => leaveNotes next rest forest

/-- The placeholders that have not been filled. -/
def unfilled (slots : List Placeholder) : List NodeId :=
  (slots.filter fun slot => !slot.2).map Prod.fst

/-- Slots that were not filled become comments of what they are, as far as they are still shown. -/
theorem commentOut_parts {d : Document} {shown gone : Forest} {slots : List Placeholder}
    (parts : d.Parts shown .nil gone) (known : slots.map Prod.fst ⊆ shown.ids ++ gone.ids) :
    ∃ gone', (commentOut slots d).Parts (leaveNotes d.size (unfilled slots) shown) .nil gone' := by
  -- A slot is in one of the parts at any time, so that one that is not shown has lost its place.
  induction slots generalizing d shown gone with
  | nil => exact ⟨gone, parts⟩
  | cons slot rest ih =>
    obtain ⟨id, filled⟩ := slot
    obtain ⟨here, later⟩ := List.cons_subset.mp known
    cases filled with
    | true => exact ih parts later
    | false =>
      have listed : unfilled ((id, false) :: rest) = id :: unfilled rest := rfl
      rw [listed, leaveNotes, commentOut, Bool.false_or]
      by_cases within : id ∈ shown.ids
      · -- The slot is shown and gives way to a new comment.
        obtain ⟨content, below, there⟩ := Forest.find?_of_mem within
        have attached := parts.shows.isAttached within
        have markup : d.outer id = write (.node content below.trees) := by
          have distinct := (List.nodup_cons.mp parts.shows.distinct).2
          rw [Document.outer, (parts.shows.stands.tree_of_find? distinct there).1]
        rw [attached, there, markup]
        let text := commentText (write (.node content below.trees))
        have grown : (d.create (.comment text)).2.Parts shown
            ((leftNote d.size content below).append .nil) gone :=
          parts.grow (.create (.comment text) d)
        obtain ⟨gone', parts', kept⟩ := grown.replaceWith (List.mem_append_left _ within)
        have size : ((d.create (.comment text)).2.replaceWith id
            (leftNote d.size content below).tops).size = d.size + 1 := by
          rw [(Document.Relinked.replaceWith _ _ _).size]
          exact Array.size_push _
        have done := ih parts' (fun x listed => kept (later listed))
        rw [size] at done
        exact done
      · -- A slot that has lost its place is passed over.
        have left := (List.mem_append.mp here).resolve_left within
        rw [parts.isAttached_eq_false left, Forest.find?_eq_none within]
        exact ih parts later

section Notes

variable {next : NodeId} {ids : List NodeId} {id : NodeId} {content : Content}
  {left right below rest : Forest}

/-- Trees in front that have none of the nodes stay. -/
theorem leaveNotes_append_left (next : NodeId) (right : Forest)
    (absent : ∀ id ∈ ids, id ∉ left.ids) :
    leaveNotes next ids (left.append right) = left.append (leaveNotes next ids right) := by
  -- Each node is looked for on the left without success, and found or not on the right.
  induction ids generalizing next right with
  | nil => rfl
  | cons id rest ih =>
    obtain ⟨notLeft, absent⟩ := List.forall_mem_cons.mp absent
    rw [leaveNotes, leaveNotes, Forest.find?_append, Forest.find?_eq_none notLeft, Option.none_or]
    cases right.find? id with
    | none => exact ih next right absent
    | some found =>
      dsimp only
      rw [Forest.substitute_append, Forest.substitute_of_notMem notLeft]
      exact ih (next + 1) _ absent

/-- Nothing is left of nodes that are not there. -/
theorem leaveNotes_of_absent (next : NodeId) (absent : ∀ id ∈ ids, id ∉ left.ids) :
    leaveNotes next ids left = left := by
  induction ids with
  | nil => rfl
  | cons id rest ih =>
    obtain ⟨notLeft, absent⟩ := List.forall_mem_cons.mp absent
    rw [leaveNotes, Forest.find?_eq_none notLeft]
    exact ih absent

/-- Nodes below the first one become comments there. -/
theorem leaveNotes_below (next : NodeId) (below : Forest) (other : id ∉ ids)
    (absent : ∀ x ∈ ids, x ∉ rest.ids) :
    leaveNotes next ids (.cons id content below rest) =
      .cons id content (leaveNotes next ids below) rest := by
  induction ids generalizing next below with
  | nil => rfl
  | cons x later ih =>
    obtain ⟨different, other⟩ := List.ne_and_not_mem_of_not_mem_cons other
    obtain ⟨notRest, absent⟩ := List.forall_mem_cons.mp absent
    rw [leaveNotes, leaveNotes, Forest.find?, if_neg different, Forest.find?_eq_none notRest,
      Option.or_none]
    cases below.find? x with
    | none => exact ih next below other absent
    | some found =>
      dsimp only
      rw [Forest.substitute_single, if_neg different, Forest.substitute_of_notMem notRest]
      exact ih (next + 1) _ other absent

/-- Nodes become comments one after the other. -/
theorem leaveNotes_append (next : NodeId) (first second : List NodeId) (forest : Forest) :
    ∃ later, next ≤ later ∧ leaveNotes next (first ++ second) forest =
      leaveNotes later second (leaveNotes next first forest) := by
  induction first generalizing next forest with
  | nil => exact ⟨next, Nat.le_refl _, rfl⟩
  | cons id rest ih =>
    rw [List.cons_append, leaveNotes, leaveNotes]
    cases forest.find? id with
    | none => exact ih next forest
    | some found =>
      obtain ⟨later, bound, same⟩ := ih (next + 1) _
      exact ⟨later, Nat.le_of_succ_le bound, same⟩

/-- All nodes are old ones or have late numbers. -/
theorem mem_ids_leaveNotes {forest : Forest} {x : NodeId}
    (listed : x ∈ (leaveNotes next ids forest).ids) : x ∈ forest.ids ∨ next ≤ x := by
  induction ids generalizing next forest with
  | nil => exact .inl listed
  | cons id rest ih =>
    rw [leaveNotes] at listed
    cases found : forest.find? id with
    | none =>
      rw [found] at listed
      exact ih listed
    | some there =>
      rw [found] at listed
      obtain listed | bound := ih listed
      · obtain own | ⟨entry, given, listed⟩ := Forest.mem_ids_substitute listed
        · exact .inl own
        · -- The only node that comes in is the comment.
          rw [List.mem_singleton.mp given] at listed
          exact .inr (Nat.le_of_eq (List.mem_singleton.mp listed).symm)
      · exact .inr (Nat.le_of_succ_le bound)

/-- Nodes that are no longer there are passed over, and trees in front of the others stay. -/
theorem leaveNotes_behind {first second : List NodeId} (next : NodeId) (front rest : Forest)
    (gone : ∀ id ∈ first, id ∉ front.ids ∧ id ∉ rest.ids)
    (free : ∀ id ∈ second, id ∉ front.ids) :
    ∃ later, next ≤ later ∧ leaveNotes next (first ++ second) (front.append rest) =
      front.append (leaveNotes later second rest) := by
  obtain ⟨later, bound, same⟩ := leaveNotes_append next first second (front.append rest)
  have absent : ∀ id ∈ first, id ∉ (front.append rest).ids := by
    intro id listed
    rw [Forest.ids_append, List.mem_append, not_or]
    exact gone id listed
  refine ⟨later, bound, ?_⟩
  rw [same, leaveNotes_of_absent next absent, leaveNotes_append_left later rest free]

/-- Nodes below the first one become comments there, and then those behind it. -/
theorem leaveNotes_through {first second : List NodeId} (content : Content) (rest : Forest)
    (other : id ∉ first) (absent : ∀ x ∈ first, x ∉ rest.ids)
    (free : ∀ x ∈ second, x ≠ id ∧ x ∉ below.ids ∧ x < next) :
    ∃ later, next ≤ later ∧ leaveNotes next (first ++ second) (.cons id content below rest) =
      .cons id content (leaveNotes next first below) (leaveNotes later second rest) := by
  obtain ⟨later, bound, same⟩ := leaveNotes_append next first second (.cons id content below rest)
  -- The comments below the first node have numbers of their own.
  have outside : ∀ x ∈ second,
      x ∉ (Forest.cons id content (leaveNotes next first below) .nil).ids := by
    intro x listed within
    obtain ⟨different, notBelow, early⟩ := free x listed
    rw [Forest.ids, Forest.ids, List.append_nil] at within
    obtain own | late := mem_ids_leaveNotes ((List.mem_cons.mp within).resolve_left different)
    · exact notBelow own
    · exact Nat.not_lt_of_le late early
  have kept := leaveNotes_append_left later rest outside
  rw [Forest.append, Forest.append] at kept
  exact ⟨later, bound, by rw [same, leaveNotes_below next below other absent]; exact kept⟩

end Notes

/-- The slots of a forest that nothing is put into. -/
def openSlots (assigned : Substitution) (forest : Forest) : List NodeId :=
  unfilled (placeholders (slots forest) assigned)

/-- The trees of a forest whose slots have given way to what is put into them or to comments. -/
def settled (assigned : Substitution) : Forest → List Tree
  | .nil => []
  | .cons id content below rest =>
    (match assigned.lookup id, slotName? content with
      | some new, _ => new.trees
      | none, some _ =>
        [.node (.comment (commentText
          (write (.node content (below.substitute assigned).trees)))) []]
      | none, none => [.node content (settled assigned below)]) ++ settled assigned rest

/-- The open slots of a forest are those of its parts. -/
theorem openSlots_cons (assigned : Substitution) (id : NodeId) (content : Content)
    (below rest : Forest) :
    openSlots assigned (.cons id content below rest) =
      (if (slotName? content).isSome ∧ assigned.lookup id = none then [id] else []) ++
        (openSlots assigned below ++ openSlots assigned rest) := by
  unfold openSlots unfilled placeholders
  rw [slots, List.append_assoc, List.map_append, List.map_append, List.filter_append,
    List.filter_append, List.map_append, List.map_append]
  congr 1
  cases slotName? content with
  | none => rfl
  | some name => cases found : assigned.lookup id <;> simp [found]

/-- The open slots are nodes of the forest. -/
theorem openSlots_subset (assigned : Substitution) (forest : Forest) :
    openSlots assigned forest ⊆ forest.ids := by
  intro id listed
  -- They are slots, and all slots are among the nodes.
  refine Forest.marked_subset (Element.isNamed "slot") forest ?_
  rw [← map_slots]
  obtain ⟨slot, kept, rfl⟩ := List.mem_map.mp listed
  obtain ⟨there, known, rfl⟩ := List.mem_map.mp (List.mem_of_mem_filter kept)
  exact List.mem_map_of_mem known

/-- The nodes of a forest can be told from what comes in: they are distinct, have smaller numbers
than all comments, and are none of the nodes that are put into slots. -/
structure Settling (assigned : Substitution) (forest : Forest) (next : NodeId) : Prop where
  distinct : forest.ids.Nodup
  early : ∀ {x}, x ∈ forest.ids → x < next
  apart : ∀ entry ∈ assigned, ∀ {x}, x ∈ forest.ids → x ∉ entry.2.ids

namespace Settling

variable {assigned : Substitution} {forest below rest : Forest} {next : NodeId} {id : NodeId}
  {content : Content}

/-- The nodes of a part can be told from what comes in. -/
theorem sublist (settling : Settling assigned forest next) {part : Forest}
    (inner : part.ids.Sublist forest.ids) : Settling assigned part next where
  distinct := settling.distinct.sublist inner
  early listed := settling.early (inner.subset listed)
  apart entry given _ listed := settling.apart entry given (inner.subset listed)

/-- The nodes below the first one can be told from what comes in. -/
theorem inside (settling : Settling assigned (.cons id content below rest) next) :
    Settling assigned below next :=
  settling.sublist ((List.sublist_append_left _ _).cons id)

/-- The nodes behind the first one can be told from what comes in. -/
theorem behind (settling : Settling assigned (.cons id content below rest) next) :
    Settling assigned rest next :=
  settling.sublist ((List.sublist_append_right _ _).cons id)

/-- Later comments have even larger numbers. -/
theorem later (settling : Settling assigned forest next) {last : NodeId} (bound : next ≤ last) :
    Settling assigned forest last where
  distinct := settling.distinct
  early listed := Nat.lt_of_lt_of_le (settling.early listed) bound
  apart := settling.apart

/-- No node comes into another part with what is put into slots. -/
theorem notMem_substitute (settling : Settling assigned forest next) {x : NodeId}
    (listed : x ∈ forest.ids) {part : Forest} (other : x ∉ part.ids) :
    x ∉ (part.substitute assigned).ids := by
  intro within
  -- It would be a node of that part, or one of those that are put there.
  obtain own | ⟨entry, given, inside⟩ := Forest.mem_ids_substitute within
  · exact other own
  · exact settling.apart entry given listed inside

end Settling

/-- When all open slots have become comments, each slot that was in no other one has given way. -/
theorem trees_leaveNotes {assigned : Substitution} {forest : Forest} {next : NodeId}
    (settling : Settling assigned forest next) :
    (leaveNotes next (openSlots assigned forest) (forest.substitute assigned)).trees =
      settled assigned forest := by
  -- The comments below a node are numbered before those behind it, so that the first number varies.
  induction forest generalizing next with
  | nil => rfl
  | cons id content below rest ihBelow ihRest =>
    have distinct := settling.distinct
    simp only [Forest.ids, List.nodup_cons, List.mem_append, not_or, List.nodup_append] at distinct
    obtain ⟨⟨notBelow, notRest⟩, _, _, disjoint⟩ := distinct
    have listed {x : NodeId} (within : x ∈ below.ids ∨ x ∈ rest.ids) :
        x ∈ (Forest.cons id content below rest).ids :=
      List.mem_cons_of_mem _ (List.mem_append.mpr within)
    have inBelow := openSlots_subset assigned below
    have inRest := openSlots_subset assigned rest
    have notThere : ∀ x ∈ openSlots assigned below, x ∉ (rest.substitute assigned).ids :=
      fun x slot => settling.notMem_substitute (listed (.inl (inBelow slot))) fun within =>
        disjoint x (inBelow slot) x within rfl
    have later {last : NodeId} (bound : next ≤ last) := ihRest (settling.behind.later bound)
    -- Behind what has taken the place of the node, the slots below it are no longer there.
    have behind (front : Forest) {first : NodeId} (bound : next ≤ first)
        (free : ∀ {x}, x ∈ below.ids ∨ x ∈ rest.ids → x ∉ front.ids) :
        (leaveNotes first (openSlots assigned below ++ openSlots assigned rest)
          (front.append (rest.substitute assigned))).trees =
            front.trees ++ settled assigned rest := by
      obtain ⟨last, bound', same⟩ := leaveNotes_behind first front (rest.substitute assigned)
        (fun x slot => ⟨free (.inl (inBelow slot)), notThere x slot⟩)
        fun x slot => free (.inr (inRest slot))
      rw [same, Forest.trees_append, later (Nat.le_trans bound bound')]
    rw [openSlots_cons, settled, Forest.substitute]
    cases found : assigned.lookup id with
    | some new =>
      -- The node has given way to what was put into it.
      obtain ⟨_, _, split, _⟩ := List.lookup_eq_some_iff.mp found
      have given : (id, new) ∈ assigned := by simp [split]
      rw [if_neg (by simp), List.nil_append]
      exact behind new (Nat.le_refl next) fun within =>
        settling.apart (id, new) given (listed within)
    | none =>
      cases named : slotName? content with
      | some name =>
        -- The slot becomes a comment, and those below it go with it.
        have notLater : id ∉ (rest.substitute assigned).ids :=
          settling.notMem_substitute List.mem_cons_self notRest
        rw [if_pos ⟨rfl, rfl⟩, List.singleton_append, leaveNotes, Forest.find?, if_pos rfl]
        dsimp only
        rw [Forest.substitute_single, if_pos rfl, Forest.substitute_of_notMem notLater]
        refine behind (leftNote next content (below.substitute assigned)) (Nat.le_succ next)
          fun within same => ?_
        exact Nat.ne_of_lt (settling.early (listed within)) (List.mem_singleton.mp same)
      | none =>
        -- The node stays, and the slots below it give way before those behind it.
        have notSlot : id ∉ openSlots assigned below := fun slot => notBelow (inBelow slot)
        have free : ∀ x ∈ openSlots assigned rest,
            x ≠ id ∧ x ∉ (below.substitute assigned).ids ∧ x < next := by
          intro x slot
          have own := inRest slot
          refine ⟨ne_of_mem_of_not_mem own notRest, ?_, settling.early (listed (.inr own))⟩
          exact settling.notMem_substitute (listed (.inr own)) fun within =>
            disjoint x within x own rfl
        obtain ⟨last, bound, same⟩ :=
          leaveNotes_through content (rest.substitute assigned) notSlot notThere free
        rw [if_neg (by simp), List.nil_append, same, Forest.trees, later bound,
          ihBelow settling.inside]
        rfl

end Templates.Slot
