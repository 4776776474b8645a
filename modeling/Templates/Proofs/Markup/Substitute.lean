import Templates.Proofs.Markup.Forest

/-! Nodes of a forest are looked up by their numbers, and give way to other forests. -/

namespace Templates.Markup

/-- The first entry of a list is looked up by its key, and the others behind it. -/
theorem lookup_cons_eq_ite {α β : Type} [BEq α] [LawfulBEq α] [DecidableEq α] (key first : α)
    (value : β) (rest : List (α × β)) :
    ((first, value) :: rest).lookup key = if key = first then some value else rest.lookup key := by
  rw [List.lookup_cons]
  by_cases same : key = first
  · simp [same]
  · simp [same, beq_false_of_ne same]

/-- Nothing is looked up by a key that is not there. -/
theorem lookup_eq_none_iff_notMem {α β : Type} [BEq α] [LawfulBEq α] {key : α}
    {entries : List (α × β)} : entries.lookup key = none ↔ key ∉ entries.map Prod.fst := by
  -- The library states this with the comparison of the keys.
  rw [List.lookup_eq_none_iff, List.mem_map]
  constructor
  · rintro other ⟨entry, listed, rfl⟩
    simpa using other entry listed
  · intro absent entry listed
    have other : key ≠ entry.1 := fun same => absent ⟨entry, listed, same.symm⟩
    simpa using other

/-- Forests that take the place of nodes. -/
abbrev Substitution := List (NodeId × Forest)

namespace Forest

/-- Nodes give way to the forests that take their place, with everything below them. -/
def substitute (assigned : Substitution) : Forest → Forest
  | nil => nil
  | cons id content below rest =>
    match assigned.lookup id with
    | some new => new.append (rest.substitute assigned)
    | none => cons id content (below.substitute assigned) (rest.substitute assigned)

/-- The content of the node of a number, and the forest below it. -/
def find? (wanted : NodeId) : Forest → Option (Content × Forest)
  | nil => none
  | cons id content below rest =>
    if id = wanted then some (content, below)
    else (below.find? wanted).or (rest.find? wanted)

/-- Nothing gives way to nothing. -/
theorem substitute_nil (forest : Forest) : forest.substitute [] = forest := by
  induction forest with
  | nil => rfl
  | cons id content below rest ihBelow ihRest =>
    rw [substitute, List.lookup_nil, ihBelow, ihRest]

/-- Forests are put side by side in any order of steps. -/
theorem append_assoc (left middle right : Forest) :
    (left.append middle).append right = left.append (middle.append right) := by
  induction left with
  | nil => rfl
  | cons id content below rest _ ih => rw [append, append, append, ih]

section Single

variable {old : NodeId} {new forest : Forest}

/-- A single node gives way where it is met. -/
theorem substitute_single (old id : NodeId) (new : Forest) (content : Content)
    (below rest : Forest) :
    (cons id content below rest).substitute [(old, new)] =
      if id = old then new.append (rest.substitute [(old, new)])
      else cons id content (below.substitute [(old, new)]) (rest.substitute [(old, new)]) := by
  rw [substitute, lookup_cons_eq_ite]
  by_cases same : id = old
  · rw [if_pos same, if_pos same]
  · rw [if_neg same, if_neg same, List.lookup_nil]

/-- A node that is not there gives way to nothing. -/
theorem substitute_of_notMem (absent : old ∉ forest.ids) :
    forest.substitute [(old, new)] = forest := by
  induction forest with
  | nil => rfl
  | cons id content below rest ihBelow ihRest =>
    simp only [ids, List.mem_cons, List.mem_append, not_or] at absent
    obtain ⟨other, notBelow, notRest⟩ := absent
    rw [substitute_single, if_neg (Ne.symm other), ihBelow notBelow, ihRest notRest]

/-- A node that is not among the topmost ones leaves these as they are. -/
theorem tops_substitute (inner : old ∉ forest.tops) :
    (forest.substitute [(old, new)]).tops = forest.tops := by
  induction forest with
  | nil => rfl
  | cons id content below rest _ ih =>
    obtain ⟨other, inner⟩ := List.ne_and_not_mem_of_not_mem_cons inner
    rw [substitute_single, if_neg (Ne.symm other), tops, tops, ih inner]

end Single

/-- Forests side by side are changed each for itself. -/
theorem substitute_append (assigned : Substitution) (left right : Forest) :
    (left.append right).substitute assigned =
      (left.substitute assigned).append (right.substitute assigned) := by
  -- The induction is on the forest in front.
  induction left with
  | nil => rfl
  | cons id content below rest _ ih =>
    rw [append, substitute, substitute, ih]
    cases assigned.lookup id with
    | none => rfl
    | some new => exact (append_assoc new _ _).symm

/-- A node found in a forest is one of its nodes. -/
theorem mem_of_find? {wanted : NodeId} {forest : Forest} {found : Content × Forest}
    (there : forest.find? wanted = some found) : wanted ∈ forest.ids := by
  induction forest with
  | nil => cases there
  | cons id content below rest ihBelow ihRest =>
    rw [find?] at there
    split at there
    · next same => exact same ▸ List.mem_cons_self
    · obtain there | ⟨_, there⟩ := Option.or_eq_some_iff.mp there
      · exact List.mem_cons_of_mem _ (List.mem_append_left _ (ihBelow there))
      · exact List.mem_cons_of_mem _ (List.mem_append_right _ (ihRest there))

/-- All nodes of a forest are found in it. -/
theorem find?_of_mem {wanted : NodeId} {forest : Forest} (listed : wanted ∈ forest.ids) :
    ∃ content below, forest.find? wanted = some (content, below) := by
  induction forest with
  | nil => cases listed
  | cons id content below rest ihBelow ihRest =>
    rw [find?]
    by_cases same : id = wanted
    · exact ⟨content, below, if_pos same⟩
    rw [if_neg same]
    -- The first place to look at is below the node.
    cases first : below.find? wanted with
    | some found => exact ⟨found.1, found.2, rfl⟩
    | none =>
      have notBelow : wanted ∉ below.ids := fun inBelow => by
        obtain ⟨_, _, found⟩ := ihBelow inBelow
        rw [first] at found
        cases found
      obtain listed | listed := List.mem_cons.mp listed
      · exact absurd listed.symm same
      · exact ihRest ((List.mem_append.mp listed).resolve_left notBelow)

/-- A node that is not there is not found. -/
theorem find?_eq_none {wanted : NodeId} {forest : Forest} (absent : wanted ∉ forest.ids) :
    forest.find? wanted = none := by
  cases there : forest.find? wanted with
  | none => rfl
  | some found => exact absurd (mem_of_find? there) absent

/-- A node is looked up in the first of two forests, and then in the second one. -/
theorem find?_append (wanted : NodeId) (left right : Forest) :
    (left.append right).find? wanted = (left.find? wanted).or (right.find? wanted) := by
  induction left with
  | nil => rfl
  | cons id content below rest _ ih =>
    rw [append, find?, find?, ih]
    split
    · rfl
    · rw [Option.or_assoc]

/-- A topmost node stands between those on its left and those on its right, and so does what takes
its place. -/
theorem split_of_mem_tops {old : NodeId} {content : Content} {below forest : Forest}
    (there : forest.find? old = some (content, below)) (top : old ∈ forest.tops)
    (distinct : forest.ids.Nodup) :
    ∃ left right : Forest, forest = left.append (cons old content below right) ∧
      ∀ new, forest.substitute [(old, new)] = left.append (new.append right) := by
  induction forest with
  | nil => cases top
  | cons id own inner rest _ ih =>
    simp only [ids, List.nodup_cons, List.mem_append, not_or, List.nodup_append] at distinct
    obtain ⟨⟨notInner, notRest⟩, _, distinctRest, disjoint⟩ := distinct
    by_cases same : id = old
    · -- The node is the first one, and does not occur behind itself.
      rw [find?, if_pos same] at there
      cases there
      refine ⟨nil, rest, by rw [append, same], fun new => ?_⟩
      rw [substitute_single, if_pos same, append, substitute_of_notMem (same ▸ notRest)]
    · -- The first node stays with what is below it, where the other one is not.
      have topRest : old ∈ rest.tops := (List.mem_cons.mp top).resolve_left (Ne.symm same)
      have notInner : old ∉ inner.ids := fun listed =>
        disjoint old listed old (mem_ids_of_mem_tops topRest) rfl
      rw [find?, if_neg same, find?_eq_none notInner, Option.none_or] at there
      obtain ⟨left, right, whole, changed⟩ := ih there topRest distinctRest
      refine ⟨cons id own inner left, right, by rw [append, ← whole], fun new => ?_⟩
      rw [substitute_single, if_neg same, substitute_of_notMem notInner, changed, append]

/-- What takes the place of a node comes in addition to the nodes that stay, and those below the
node go with it. -/
theorem perm_ids_substitute (new : Forest) {old : NodeId} {content : Content}
    {below forest : Forest} (there : forest.find? old = some (content, below))
    (distinct : forest.ids.Nodup) :
    ((forest.substitute [(old, new)]).ids ++ (old :: below.ids)).Perm
      (new.ids ++ forest.ids) := by
  -- Each node is counted on both sides.
  induction forest with
  | nil => cases there
  | cons id own inner rest ihInner ihRest =>
    simp only [ids, List.nodup_cons, List.mem_append, not_or, List.nodup_append] at distinct
    obtain ⟨⟨notInner, notRest⟩, distinctInner, distinctRest, disjoint⟩ := distinct
    rw [substitute_single]
    by_cases same : id = old
    · -- The node is the first one and leaves what is behind it.
      rw [find?, if_pos same] at there
      cases there
      rw [if_pos same, substitute_of_notMem (same ▸ notRest), ids_append, ids, same]
      rw [List.perm_iff_count]
      intro x
      simp only [List.count_append, List.count_cons]
      omega
    rw [find?, if_neg same] at there
    rw [if_neg same, ids, ids, List.perm_iff_count]
    obtain there | ⟨_, there⟩ := Option.or_eq_some_iff.mp there
    · -- The node is below the first one, and not behind it.
      have notRest : old ∉ rest.ids := fun listed =>
        disjoint old (mem_of_find? there) old listed rfl
      rw [substitute_of_notMem notRest]
      intro x
      have counted := List.perm_iff_count.mp (ihInner there distinctInner) x
      simp only [List.count_append, List.count_cons] at counted ⊢
      omega
    · -- The node is behind the first one, and not below it.
      have notInner : old ∉ inner.ids := fun listed =>
        disjoint old listed old (mem_of_find? there) rfl
      rw [substitute_of_notMem notInner]
      intro x
      have counted := List.perm_iff_count.mp (ihRest there distinctRest) x
      simp only [List.count_append, List.count_cons] at counted ⊢
      omega

/-- A node gives way after others have, unless it came in with what took their places. -/
theorem substitute_snoc {assigned : Substitution} {old : NodeId} (new forest : Forest)
    (apart : ∀ entry ∈ assigned, old ∉ entry.2.ids) :
    (forest.substitute assigned).substitute [(old, new)] =
      forest.substitute (assigned ++ [(old, new)]) := by
  induction forest with
  | nil => rfl
  | cons id content below rest ihBelow ihRest =>
    rw [substitute, substitute, List.lookup_append]
    cases found : assigned.lookup id with
    | some given =>
      -- What has taken the place of a node stays.
      obtain ⟨before, behind, rfl, _⟩ := List.lookup_eq_some_iff.mp found
      have outside := apart (id, given) (by simp)
      rw [Option.some_or, substitute_append, substitute_of_notMem outside, ihRest]
    | none =>
      rw [Option.none_or, substitute, ihBelow, ihRest]

/-- The nodes of a forest after others have given way are its own or came in. -/
theorem mem_ids_substitute {assigned : Substitution} {forest : Forest} {x : NodeId}
    (listed : x ∈ (forest.substitute assigned).ids) :
    x ∈ forest.ids ∨ ∃ entry ∈ assigned, x ∈ entry.2.ids := by
  induction forest with
  | nil => cases listed
  | cons id content below rest ihBelow ihRest =>
    rw [substitute] at listed
    cases found : assigned.lookup id with
    | some given =>
      -- The node has given way, and what is below it has gone with it.
      obtain ⟨before, behind, rfl, _⟩ := List.lookup_eq_some_iff.mp found
      rw [found, ids_append] at listed
      obtain listed | listed := List.mem_append.mp listed
      · exact .inr ⟨(id, given), by simp, listed⟩
      · exact (ihRest listed).imp_left fun own =>
          List.mem_cons_of_mem _ (List.mem_append_right _ own)
    | none =>
      rw [found] at listed
      obtain rfl | listed := List.mem_cons.mp listed
      · exact .inl List.mem_cons_self
      · obtain listed | listed := List.mem_append.mp listed
        · exact (ihBelow listed).imp_left fun own =>
            List.mem_cons_of_mem _ (List.mem_append_left _ own)
        · exact (ihRest listed).imp_left fun own =>
            List.mem_cons_of_mem _ (List.mem_append_right _ own)

/-- What takes the place of a node comes into the forest as a whole. -/
theorem sublist_ids_substitute {old : NodeId} {forest : Forest} (new : Forest)
    (listed : old ∈ forest.ids) : new.ids.Sublist (forest.substitute [(old, new)]).ids := by
  induction forest with
  | nil => cases listed
  | cons id content below rest ihBelow ihRest =>
    rw [substitute_single]
    by_cases same : id = old
    · -- The node gives way right here.
      rw [if_pos same, ids_append]
      exact List.sublist_append_left _ _
    · rw [if_neg same, ids]
      refine List.Sublist.cons id ?_
      obtain listed | listed := List.mem_cons.mp listed
      · exact absurd listed.symm same
      · obtain listed | listed := List.mem_append.mp listed
        · exact (ihBelow listed).trans (List.sublist_append_left _ _)
        · exact (ihRest listed).trans (List.sublist_append_right _ _)

/-- A forest whose trees come in two parts has these parts. -/
theorem split_of_trees {forest : Forest} {left right : List Tree}
    (whole : forest.trees = left ++ right) :
    ∃ first second : Forest, forest = first.append second ∧ first.trees = left ∧
      second.trees = right := by
  -- Tree by tree, the forest is taken apart along the first part of the list.
  induction left generalizing forest with
  | nil => exact ⟨nil, forest, rfl, rfl, whole⟩
  | cons tree left ih =>
    cases forest with
    | nil => cases whole
    | cons id content below rest =>
      obtain ⟨own, whole⟩ := List.cons.inj whole
      obtain ⟨first, second, rfl, leftTrees, rightTrees⟩ := ih whole
      refine ⟨cons id content below first, second, rfl, ?_, rightTrees⟩
      rw [trees, own, leftTrees]

end Forest

end Templates.Markup
