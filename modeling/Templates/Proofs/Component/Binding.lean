import Mathlib.Data.List.Nodup
import Templates.Proofs.Component.Placeholder

/-!
What trees become when the children of a calling tag are bound to their slots.

In front of a tree some names have been seen. A slot with a new name takes what is offered to it,
and any other slot becomes a comment.
-/

namespace Templates.Slot

open Markup

mutual

/-- The names of the slots of a tree, each in front of those below it. -/
def slotNames : Tree → List Text
  | .node content children => (slotName? content).toList ++ slotNamesAll children

/-- The names of the slots of a forest. -/
def slotNamesAll : List Tree → List Text
  | [] => []
  | tree :: rest => slotNames tree ++ slotNamesAll rest

end

/-- What a slot takes: what is offered to its name, if there is something and no slot of that name
has been seen. -/
def taken (offered : Text → List Tree) (seen : List Text) (name : Text) : Option (List Tree) :=
  if name ∈ seen ∨ (offered name).isEmpty then none else some (offered name)

mutual

/-- A tree whose slots have taken what is offered to them; any other slot stays. -/
def filled (offered : Text → List Tree) (seen : List Text) : Tree → List Tree
  | .node content children =>
    match (slotName? content).bind (taken offered seen) with
    | some trees => trees
    | none =>
      [.node content (filledAll offered (seen ++ (slotName? content).toList) children)]

/-- A forest whose slots have taken what is offered to them. -/
def filledAll (offered : Text → List Tree) (seen : List Text) : List Tree → List Tree
  | [] => []
  | tree :: rest =>
    filled offered seen tree ++ filledAll offered (seen ++ slotNames tree) rest

end

mutual

/-- A tree whose slots are bound: they take what is offered to them, and any other slot becomes a
comment, in which the slots below it are filled. -/
def bound (offered : Text → List Tree) (seen : List Text) : Tree → List Tree
  | .node content children =>
    match slotName? content with
    | none => [.node content (boundAll offered seen children)]
    | some name =>
      match taken offered seen name with
      | some trees => trees
      | none =>
        [.node (.comment (commentText
          (write (.node content (filledAll offered (seen ++ [name]) children))))) []]

/-- A forest whose slots are bound. -/
def boundAll (offered : Text → List Tree) (seen : List Text) : List Tree → List Tree
  | [] => []
  | tree :: rest => bound offered seen tree ++ boundAll offered (seen ++ slotNames tree) rest

end

/-- The slots of a forest have the names of those of its trees. -/
theorem names_slots (forest : Forest) :
    (slots forest).map Prod.snd = slotNamesAll forest.trees := by
  -- Both lists follow the forest, a slot in front of those below it.
  induction forest with
  | nil => rfl
  | cons id content below rest ihBelow ihRest =>
    rw [slots, Forest.trees, slotNamesAll, slotNames, List.map_append, List.map_append, ihBelow,
      ihRest]
    cases slotName? content <;> rfl

/-- What is put into slots is what they take, one after the other. -/
def Agrees (offered : Text → List Tree) (assigned : Substitution) :
    List Text → List (NodeId × Text) → Prop
  | _, [] => True
  | seen, (id, name) :: rest =>
    (assigned.lookup id).map Forest.trees = taken offered seen name ∧
      Agrees offered assigned (seen ++ [name]) rest

section Agreement

variable {offered : Text → List Tree} {assigned : Substitution}

/-- Slots that are split into two parts agree part by part. -/
theorem agrees_append {seen : List Text} {first second : List (NodeId × Text)} :
    Agrees offered assigned seen (first ++ second) ↔
      Agrees offered assigned seen first ∧
        Agrees offered assigned (seen ++ first.map Prod.snd) second := by
  induction first generalizing seen with
  | nil => simp [Agrees]
  | cons slot rest ih => simp [Agrees, ih, and_assoc]

/-- A forest is filled and bound as its trees are, if what is put into its slots is what they take
and all other nodes stay. -/
theorem bound_of_agrees {d : Document} {parent : Option NodeId} {forest : Forest}
    {seen : List Text} (stands : forest.Stands d parent)
    (agrees : Agrees offered assigned seen (slots forest))
    (others : ∀ id ∈ forest.ids, slotName? (d.content id) = none → assigned.lookup id = none) :
    (forest.substitute assigned).trees = filledAll offered seen forest.trees ∧
      settled assigned forest = boundAll offered seen forest.trees := by
  -- What has been seen in front of a node is the names of all slots before it in document order.
  induction forest generalizing parent seen with
  | nil => exact ⟨rfl, rfl⟩
  | cons id content below rest ihBelow ihRest =>
    have own := stands.content
    obtain ⟨_, standsBelow, standsRest⟩ := stands
    have othersBelow := fun x listed =>
      others x (List.mem_cons_of_mem _ (List.mem_append_left _ listed))
    have othersRest := fun x listed =>
      others x (List.mem_cons_of_mem _ (List.mem_append_right _ listed))
    rw [Forest.trees, filledAll, boundAll, filled, bound, slotNames, Forest.substitute, settled]
    cases named : slotName? content with
    | none =>
      -- A node that is no slot stays, and the slots below it come before those behind it.
      have both : Agrees offered assigned seen (slots below ++ slots rest) := by
        simpa [slots, named] using agrees
      obtain ⟨agreesBelow, agreesRest⟩ := agrees_append.mp both
      rw [names_slots] at agreesRest
      obtain ⟨filledBelow, boundBelow⟩ := ihBelow standsBelow agreesBelow othersBelow
      obtain ⟨filledRest, boundRest⟩ := ihRest standsRest agreesRest othersRest
      have stays := others id List.mem_cons_self (own ▸ named)
      rw [stays, boundBelow, boundRest]
      refine ⟨?_, by simp⟩
      show Markup.Tree.node content (below.substitute assigned).trees ::
        (rest.substitute assigned).trees = _
      rw [filledBelow, filledRest]
      simp
    | some name =>
      -- The slot gives way as its name tells, which has been seen below it and behind it.
      have both : (assigned.lookup id).map Forest.trees = taken offered seen name ∧
          Agrees offered assigned (seen ++ [name]) (slots below ++ slots rest) := by
        simpa [slots, named, Agrees] using agrees
      obtain ⟨here, later⟩ := both
      obtain ⟨agreesBelow, agreesRest⟩ := agrees_append.mp later
      rw [names_slots, List.append_assoc] at agreesRest
      obtain ⟨filledBelow, boundBelow⟩ := ihBelow standsBelow agreesBelow othersBelow
      obtain ⟨filledRest, boundRest⟩ := ihRest standsRest agreesRest othersRest
      dsimp only [Option.bind_some, Option.toList_some]
      rw [← here, ← filledRest, boundRest, ← filledBelow]
      cases assigned.lookup id with
      | some new => exact ⟨Forest.trees_append new _, rfl⟩
      | none => exact ⟨rfl, rfl⟩

end Agreement

section Fills

variable {slots : List (NodeId × Text)} {stock : Stock} {offered : List (Text × Tree)}

/-- The first slot of a name is filled with the copies for it, and no other slot is. -/
theorem lookup_fills (distinct : (slots.map Prod.fst).Nodup)
    (names : (stock.map Prod.fst).Nodup) {slot : NodeId × Text} (listed : slot ∈ slots) :
    (fills slots stock).lookup slot.1 =
      if (slots.find? fun other => other.2 = slot.2) = some slot then stock.lookup slot.2
      else none := by
  -- Each name in the stock fills one slot, and each name is there once.
  induction stock with
  | nil => split <;> rfl
  | cons entry rest ih =>
    obtain ⟨name, new⟩ := entry
    obtain ⟨fresh, namesRest⟩ := List.nodup_cons.mp names
    have later := ih namesRest
    rw [lookup_cons_eq_ite]
    cases found : slots.find? fun other => other.2 = name with
    | none =>
      -- No slot is filled for a name that none has.
      have other : slot.2 ≠ name := by
        simpa using List.find?_eq_none.mp found slot listed
      rw [fills_skip new found, later, if_neg other]
    | some first =>
      have own : first.2 = name := by simpa using List.find?_some found
      rw [fills_fill new found, lookup_cons_eq_ite]
      by_cases same : slot.1 = first.1
      · -- The slot is the first one of the name.
        have eq := List.inj_on_of_nodup_map distinct listed (List.mem_of_find?_eq_some found) same
        subst eq
        rw [if_pos rfl, own, if_pos found, if_pos rfl]
      · rw [if_neg same, later]
        by_cases alike : slot.2 = name
        · -- A later slot of the name is filled neither here nor for another name.
          have notFirst : ¬(slots.find? fun other => other.2 = slot.2) = some slot := by
            rw [alike, found]
            rintro ⟨⟩
            exact same rfl
          rw [if_neg notFirst, if_neg notFirst]
        · rw [if_neg alike]

/-- A node that is no slot is not filled. -/
theorem lookup_fills_of_notMem {id : NodeId} (absent : id ∉ slots.map Prod.fst) :
    (fills slots stock).lookup id = none := by
  refine lookup_eq_none_iff_notMem.mpr fun listed => absent ?_
  obtain ⟨entry, given, rfl⟩ := List.mem_map.mp listed
  obtain ⟨copies, _, made⟩ := List.mem_filterMap.mp given
  obtain ⟨slot, found, rfl⟩ := Option.map_eq_some_iff.mp made
  exact List.mem_map_of_mem (List.mem_of_find?_eq_some found)

/-- The copies for a name are what a slot takes whose name has not been seen. -/
theorem map_lookup (holds : stock.Holds offered) (name : Text) :
    (stock.lookup name).map Forest.trees =
      if (offeredTo name offered).isEmpty then none else some (offeredTo name offered) := by
  rw [← holds.trees name, Stock.treesFor]
  cases found : stock.lookup name with
  | none => rfl
  | some copies =>
    have some := holds.filled found
    simp [some]

/-- What is put into slots is what they take. -/
theorem agrees_fills (holds : stock.Holds offered) (distinct : (slots.map Prod.fst).Nodup) :
    Agrees (fun name => offeredTo name offered) (fills slots stock) [] slots := by
  -- The slots are split into those that have been seen and those that come next.
  have step (before next : List (NodeId × Text)) (split : slots = before ++ next) :
      Agrees (fun name => offeredTo name offered) (fills slots stock)
        (before.map Prod.snd) next := by
    induction next generalizing before with
    | nil => trivial
    | cons slot rest ih =>
      obtain ⟨id, name⟩ := slot
      have listed : (id, name) ∈ slots := by simp [split]
      refine ⟨?_, by simpa using ih (before ++ [(id, name)]) (by simp [split])⟩
      rw [lookup_fills distinct holds.names listed, taken]
      have parts : slots.find? (fun other => other.2 = name) =
          (before.find? fun other => other.2 = name).or (some (id, name)) := by
        rw [split, List.find?_append, List.find?_cons_of_pos (by simp)]
      dsimp only
      rw [parts]
      cases found : before.find? fun other => other.2 = name with
      | some first =>
        -- A slot in front has the name.
        have known := List.mem_of_find?_eq_some found
        have own : first.2 = name := by simpa using List.find?_some found
        have other : first ≠ (id, name) := by
          rintro rfl
          rw [split, List.map_append, List.nodup_append] at distinct
          exact distinct.2.2 id (List.mem_map_of_mem known) id (by simp) rfl
        have seen : name ∈ before.map Prod.snd := own ▸ List.mem_map_of_mem known
        rw [if_neg (by simpa using other), if_pos (.inl seen)]
        rfl
      | none =>
        -- The slot is the first one of its name.
        have unseen : name ∉ before.map Prod.snd := fun seen => by
          obtain ⟨first, known, own⟩ := List.mem_map.mp seen
          simpa [own] using List.find?_eq_none.mp found first known
        rw [Option.none_or, if_pos rfl, map_lookup holds]
        simp only [unseen, false_or]
  exact step [] slots rfl

/-- All that is put into slots are copies that have waited for them. -/
theorem subset_of_mem_fills {entry : NodeId × Forest} (given : entry ∈ fills slots stock) :
    entry.2.ids ⊆ stock.forest.ids := by
  -- The copies are those of an entry of the stock.
  obtain ⟨copies, held, made⟩ := List.mem_filterMap.mp given
  obtain ⟨slot, _, rfl⟩ := Option.map_eq_some_iff.mp made
  clear given made
  induction stock with
  | nil => cases held
  | cons first rest ih =>
    rw [Stock.forest, Forest.ids_append]
    obtain rfl | held := List.mem_cons.mp held
    · exact List.subset_append_left _ _
    · exact List.subset_append_of_subset_right _ (ih held)

end Fills

/-- The slots that are found in a document are those of the forest that it shows. -/
theorem findElements_slots {d : Document} {component : Forest} (shows : d.Shows component) :
    d.findElements (Element.isNamed "slot") = (slots component).map Prod.fst := by
  rw [Document.findElements, shows.descendants, shows.stands.filter_ids, map_slots]

/-- What the children of a tag of a page offer to the slot of a name. -/
def boundTo (page : Document) (tag : NodeId) (name : Text) : List Tree :=
  offeredTo name (offers (page.tree tag).children)

/-- The slots of a fragment are bound to the children of the calling tag. -/
theorem bindChildren_shows {page fragment : Document} {host component : Forest} {tag : NodeId}
    (inPage : page.Shows host) (calling : tag ∈ host.ids) (shown : fragment.Shows component)
    (some : slotNamesAll component.trees ≠ []) (target : Option NodeId) :
    ∃ new, (bindChildren page tag target fragment).Shows new ∧
      new.trees = boundAll (boundTo page tag) [] component.trees := by
  -- The copies are in the document before its slots are looked up, but not attached to it.
  obtain ⟨stock, copies, run, copied⟩ := Copied.of_tag inPage calling shown
  have shows := copied.parts.shows
  have distinct := (List.nodup_cons.mp shows.distinct).2
  have found := findElements_slots shows
  have distinctSlots : ((slots component).map Prod.fst).Nodup := by
    rw [map_slots, ← shows.stands.filter_ids]
    exact distinct.filter _
  -- All copies are put into their slots, and then the other slots become comments.
  have start : Filling copies component (slots component) [] stock .nil :=
    { parts := by
        rw [Forest.substitute_nil]
        exact copied.parts
      known := by
        rw [Forest.substitute_nil, map_slots]
        exact List.subset_append_of_subset_left _ (Forest.marked_subset _ component)
      named := fun slot listed => slotName_of_mem shows.stands listed
      free := fun _ _ _ => rfl
      apart := fun _ given => nomatch given
      names := copied.holds.names }
  obtain ⟨after, gone, run', filled, size⟩ := start.fillAll distinctSlots
  rw [List.nil_append] at run' filled
  have known := filled.known
  rw [← map_placeholders _ (fills (slots component) stock)] at known
  obtain ⟨left, done⟩ := commentOut_parts filled.parts known
  have bindings : bindChildren page tag target fragment =
      commentOut (placeholders (slots component) (fills (slots component) stock)) after := by
    unfold bindChildren
    rw [run]
    dsimp only
    rw [found]
    cases listed : (slots component).map Prod.fst with
    | nil =>
      rw [← names_slots, List.map_eq_nil_iff.mp listed] at some
      exact absurd rfl some
    | cons first others =>
      dsimp only
      rw [← listed, ← placeholders_nil, run']
  rw [bindings]
  refine ⟨_, done.shows, ?_⟩
  -- What is shown at the end depends on the trees of the component only.
  have settling : Settling (fills (slots component) stock) component after.size :=
    { distinct := distinct
      early := fun listed => size ▸ shows.stands.lt_size listed
      apart := fun entry given x listed inside =>
        copied.parts.notMem_waiting (List.mem_append_left _ listed)
          (subset_of_mem_fills given inside) }
  have agrees := agrees_fills copied.holds distinctSlots
  have others : ∀ id ∈ component.ids, slotName? (copies.content id) = none →
      (fills (slots component) stock).lookup id = none := by
    intro id _ other
    refine lookup_fills_of_notMem fun slot => ?_
    -- Whatever is found by the tag of a slot has a name.
    rw [map_slots, ← shows.stands.filter_ids] at slot
    exact slotName?_ne_none (List.mem_filter.mp slot).2 other
  exact (trees_leaveNotes settling).trans (bound_of_agrees shows.stands agrees others).2

mutual

/-- Whether no slot of a tree is below another one. -/
def isFlat : Tree → Bool
  | .node content children =>
    ((slotName? content).isNone || (slotNamesAll children).isEmpty) && areFlat children

/-- Whether no slot of a forest is below another one. -/
def areFlat : List Tree → Bool
  | [] => true
  | tree :: rest => isFlat tree && areFlat rest

end

mutual

/-- A tree whose slots give way: the first slot of a name to all that is offered to that name, if
there is anything, and every other slot to a comment of its markup. -/
def replaced (offered : Text → List Tree) (seen : List Text) : Tree → List Tree
  | .node content children =>
    match slotName? content with
    | none => [.node content (replacedAll offered seen children)]
    | some name =>
      (taken offered seen name).getD
        [.node (.comment (commentText (write (.node content children)))) []]

/-- A forest whose slots give way, in the order of their start tags. -/
def replacedAll (offered : Text → List Tree) (seen : List Text) : List Tree → List Tree
  | [] => []
  | tree :: rest =>
    replaced offered seen tree ++ replacedAll offered (seen ++ slotNames tree) rest

end

mutual

/-- Without slots there is nothing to fill in a tree. -/
theorem filled_of_slotNames (offered : Text → List Tree) (seen : List Text) :
    ∀ tree : Tree, slotNames tree = [] → filled offered seen tree = [tree]
  | .node content children => fun none => by
    rw [slotNames, List.append_eq_nil_iff] at none
    have plain : slotName? content = .none := by simpa using none.1
    rw [filled, plain]
    simp [filledAll_of_slotNames offered seen children none.2]

/-- Without slots there is nothing to fill in a forest. -/
theorem filledAll_of_slotNames (offered : Text → List Tree) (seen : List Text) :
    ∀ trees : List Tree, slotNamesAll trees = [] → filledAll offered seen trees = trees
  | [] => fun _ => rfl
  | tree :: rest => fun none => by
    rw [slotNamesAll, List.append_eq_nil_iff] at none
    rw [filledAll, none.1, List.append_nil, filled_of_slotNames offered seen tree none.1,
      filledAll_of_slotNames offered seen rest none.2]
    rfl

end

mutual

/-- Slots that are not below others give way one by one. -/
theorem bound_of_isFlat (offered : Text → List Tree) (seen : List Text) :
    ∀ tree : Tree, isFlat tree = true → bound offered seen tree = replaced offered seen tree
  | .node content children => fun flat => by
    rw [isFlat, Bool.and_eq_true, Bool.or_eq_true] at flat
    rw [bound, replaced]
    cases named : slotName? content with
    | none => rw [boundAll_of_areFlat offered seen children flat.2]
    | some name =>
      -- The markup of a slot with no other one below it is that of the slot at the beginning.
      have plain : slotNamesAll children = [] := by simpa [named] using flat.1
      dsimp only
      rw [filledAll_of_slotNames offered (seen ++ [name]) children plain]
      cases taken offered seen name <;> rfl

/-- Slots of a forest that are not below others give way one by one. -/
theorem boundAll_of_areFlat (offered : Text → List Tree) (seen : List Text) :
    ∀ trees : List Tree, areFlat trees = true →
      boundAll offered seen trees = replacedAll offered seen trees
  | [] => fun _ => rfl
  | tree :: rest => fun flat => by
    rw [areFlat, Bool.and_eq_true] at flat
    rw [boundAll, replacedAll, bound_of_isFlat offered seen tree flat.1,
      boundAll_of_areFlat offered (seen ++ slotNames tree) rest flat.2]

end

/-- The children of a calling tag are bound to the slots of a fragment in which no slot is below
another one: the fragment stays as it is, except that the first slot of a name gives way to copies
of all children bound to that name, if there are any, and every other slot to a comment of its
markup. -/
theorem bindChildren_replaces {page fragment : Document} {host component : Forest} {tag : NodeId}
    (inPage : page.Shows host) (calling : tag ∈ host.ids) (shown : fragment.Shows component)
    (some : slotNamesAll component.trees ≠ []) (flat : areFlat component.trees = true)
    (target : Option NodeId) :
    ∃ new, (bindChildren page tag target fragment).Shows new ∧
      new.trees = replacedAll (boundTo page tag) [] component.trees := by
  obtain ⟨new, shows, trees⟩ := bindChildren_shows inPage calling shown some target
  exact ⟨new, shows, trees.trans (boundAll_of_areFlat _ _ _ flat)⟩

/-- A calling tag with a child for a slot, a template for the same slot, and a text. -/
def callingTrees : List Tree :=
  [.node (.element ⟨"x-card".toList, [], false⟩)
    [.node (.element ⟨['b'], [.valued "slot".toList ['h']], false⟩) [],
      .node (.element ⟨"template".toList, [.valued "slot".toList ['h']], false⟩)
        [.node (.element ⟨['i'], [], false⟩) []],
      .node (.text " ".toList) [], .node (.text "Body".toList) []]]

/-- A component with two slots of one name around a slot without a name. -/
def cardTrees : List Tree :=
  [.node (.element ⟨"div".toList, [], false⟩)
    [.node (.element ⟨"slot".toList, [.valued "name".toList ['h']], false⟩) [],
      .node (.element ⟨"slot".toList, [], false⟩) [],
      .node (.element ⟨"slot".toList, [.valued "name".toList ['h']], false⟩)
        [.node (.text "no--thing".toList) []]]]

/-- Two children go into the first slot of their name, and the second one becomes a comment. -/
theorem bindChildren_card :
    (bindChildren (.ofForest callingTrees) 1 none (.ofForest cardTrees)).markup =
      "<div><b></b><i></i>Body<!--<slot name=\"h\">no-&#45;thing</slot>--></div>".toList := by
  have inPage := Document.shows_ofForest callingTrees
  have shown := Document.shows_ofForest cardTrees
  have calling : 1 ∈ (Forest.plant 1 callingTrees).ids := by
    rw [Forest.ids_plant]
    decide
  obtain ⟨new, shows, trees⟩ := bindChildren_replaces inPage calling shown
    (by rw [Forest.trees_plant]; decide +kernel) (by rw [Forest.trees_plant]; decide +kernel) none
  rw [shows.markup, trees, Forest.trees_plant]
  decide +kernel

end Templates.Slot
