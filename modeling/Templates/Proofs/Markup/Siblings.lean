import Templates.Proofs.Markup.Moved

/-!
Where nodes stand among their siblings after a move.

Main statements: nodes take the place of another one exactly where it was, wherever they have been
before; and a node that moves in front of another one comes right in front of it, while nothing else
changes its place.
-/

namespace Templates.Markup.Document

/-- Nodes that are neither another one nor above it take its place, in order, whatever their places
have been; it has none any more. Without a node above it nothing changes. -/
theorem replaceWith_keeps_place {d : Document} (linked : d.WellLinked) {id : NodeId} {ids : List NodeId}
    (there : ∀ x ∈ ids, x < d.size) (distinct : ids.Nodup) (apart : ∀ x ∈ ids, ¬ d.Under x id) :
    (d.parent? id = none → d.replaceWith id ids = d) ∧
      ∀ parent, d.parent? id = some parent →
        d.GaveWay (d.replaceWith id ids) id parent ids ∧
        ∃ front back, d.children parent = front ++ id :: back ∧
          (d.replaceWith id ids).children parent =
            front.filter (· ∉ ids) ++ ids ++ back.filter (· ∉ ids) := by
  refine ⟨fun top => replaceWith_of_parent?_eq_none top ids, fun parent up => ?_⟩
  -- What is not above the node is not above the node right above it.
  have outside (x : NodeId) (listed : x ∈ ids) : ¬ d.Under x parent := fun under =>
    apart x listed (.head up under)
  have absent : id ∉ ids := fun listed => apart id listed .refl
  obtain ⟨front, back, split⟩ := List.append_of_mem ((linked.agree parent id).mp up)
  exact ⟨linked.gaveWay up there outside, front, back, split,
    linked.children_replaceWith_split up there outside distinct absent split⟩

/-- A list with an item, a text and a mark, a text behind the list, and a text without a place. -/
def crowdedList : Document :=
  ((ofForest [.node (.element ⟨"ul".toList, [], false⟩)
      [.node (.element ⟨"li".toList, [], false⟩) [.node (.text "a".toList) [],
          .node (.element ⟨"b".toList, [], false⟩) [.node (.text "c".toList) []]],
        .node (.text "x".toList) [], .node (.element ⟨"i".toList, [], false⟩) []],
    .node (.text "y".toList) []]).create (.text "z".toList)).2

/-- The links of the list are those of trees. -/
theorem wellLinked_crowdedList : crowdedList.WellLinked :=
  (WellLinked.ofForest _).create _

/-- Above the list there is nothing but the root. -/
theorem eq_of_under_crowdedList {x : NodeId} (under : crowdedList.Under x 1) : x = 1 ∨ x = root := by
  have leads : crowdedList.Leads 1 [root] := ⟨rfl, rfl⟩
  have met := leads.mem_of_under rfl under
  simpa using met

/-- The item gives way to a sibling, to what is deep below it and right below it, to what is outside
of the list, and to what has no place. -/
theorem replaceWith_crowdedList :
    (∃ d, parse "<ul><li>a<b>c</b></li>x<i></i></ul>y".toList = .ok d ∧
      (d.create (.text "z".toList)).2 = crowdedList) ∧
    crowdedList.children 1 = [2, 6, 7] ∧ crowdedList.children 2 = [3, 4] ∧
    crowdedList.GaveWay (crowdedList.replaceWith 2 [7, 5, 3, 8, 9]) 2 1 [7, 5, 3, 8, 9] ∧
    (crowdedList.replaceWith 2 [7, 5, 3, 8, 9]).children 1 = [7, 5, 3, 8, 9, 6] ∧
    (crowdedList.replaceWith 2 [7, 5, 3, 8, 9]).children 2 = [4] := by
  have size : crowdedList.size = 10 := rfl
  have there : ∀ x ∈ [7, 5, 3, 8, 9], x < crowdedList.size := by
    rw [size]
    decide
  have up : crowdedList.parent? 2 = some 1 := rfl
  have apart : ∀ x ∈ [7, 5, 3, 8, 9], ¬ crowdedList.Under x 2 := by
    intro x listed under
    obtain rfl | ⟨next, step, under⟩ := Relation.ReflTransGen.cases_head under
    · revert listed
      decide
    · obtain rfl := Option.some.inj (up.symm.trans step)
      obtain rfl | rfl := eq_of_under_crowdedList under <;> revert listed <;> decide
  obtain ⟨gaveWay, _⟩ :=
    (replaceWith_keeps_place wellLinked_crowdedList there (by decide) apart).2 1 up
  exact ⟨⟨_, rfl, rfl⟩, rfl, rfl, gaveWay, rfl, rfl⟩

/-- A node that is not above another one moves right in front of it, and nothing else in the tree
changes its place; what is below it goes with it. Where the node itself is that other one, all but
its place among its siblings is the same. If it is one of the nodes that take its place, it loses
its own, those in front of it in the list are where it was, and the others are behind them. -/
theorem insertBefore_keeps_order {d : Document} (linked : d.WellLinked) {reference parent : NodeId}
    (up : d.parent? reference = some parent) :
    (∀ child < d.size, ¬ Relation.TransGen d.Up reference child →
      d.Moved (d.insertBefore reference child) parent [child] ∧
      (child ≠ reference → ∃ front back, d.children parent = front ++ reference :: back ∧
        (d.insertBefore reference child).children parent =
          front.filter (· ≠ child) ++ child :: reference :: back.filter (· ≠ child)) ∧
      (∀ x, (d.insertBefore reference child).Under child x ↔ d.Under child x) ∧
      ∀ x, ¬ d.Under child x →
        (d.insertBefore reference child).isAttached x = d.isAttached x) ∧
    ∀ left right, (left ++ reference :: right).Nodup →
      (∀ x ∈ left ++ right, x < d.size ∧ ¬ Relation.TransGen d.Up reference x) →
      d.GaveWay (d.replaceWith reference (left ++ reference :: right)) reference parent
        (left ++ reference :: right) ∧
      ((d.replaceWith reference (left ++ reference :: right)).children parent).filter
        (· ∈ left ++ right) = left ++ right ∧
      ∃ front back, d.children parent = front ++ reference :: back ∧
        ((d.replaceWith reference (left ++ reference :: right)).children parent).filter
            (· ∉ right) =
          front.filter (· ∉ left ++ right) ++ left ++ back.filter (· ∉ left ++ right) := by
  have listed := (linked.agree parent reference).mp up
  obtain ⟨front, back, split⟩ := List.append_of_mem listed
  constructor
  · -- What is above the reference itself is above the node right above it.
    intro child there apart
    rw [transGen_up_iff up] at apart
    have moved := Moved.insertBefore linked up there apart
    refine ⟨moved, fun other => ?_, moved.under_moved_iff, fun x free => ?_⟩
    · exact ⟨front, back, split, linked.children_insertBefore_split up other split⟩
    · exact moved.isAttached_eq linked (by simpa using free)
  · -- The reference is below the node above it, so it is none of those that may not move.
    intro left right distinct fits
    have own := linked.lt_size listed
    have cases (x : NodeId) (listed : x ∈ left ++ reference :: right) :
        x = reference ∨ x ∈ left ++ right := by
      simpa [or_left_comm] using listed
    have there : ∀ x ∈ left ++ reference :: right, x < d.size := by
      intro x listed
      obtain rfl | listed := cases x listed
      · exact own.1
      · exact (fits x listed).1
    have apart : ∀ x ∈ left ++ reference :: right, ¬ d.Under x parent := by
      intro x among
      obtain rfl | among := cases x among
      · exact linked.not_under_child listed
      · rw [← transGen_up_iff up]
        exact (fits x among).2
    have whole := linked.children_replaceWith_itself up there apart distinct split
    obtain ⟨_, _, different⟩ := List.nodup_append.mp distinct
    have disjoint : ∀ x ∈ left, x ∉ right := fun x listed again =>
      different x listed x (List.mem_cons_of_mem _ again) rfl
    refine ⟨linked.gaveWay up there apart, ?_, front, back, split, ?_⟩
    · rw [whole, filter_mem_around]
    · -- Without those that came behind it, the siblings are as if it had given way to the others.
      rw [whole, filter_notMem_around front back disjoint]

/-- A mark goes in front of the item that it is behind of, and an item gives way to that mark, to
itself and to what is below it. -/
theorem insertBefore_crowdedList :
    crowdedList.Moved (crowdedList.insertBefore 2 7) 1 [7] ∧
    (crowdedList.insertBefore 2 7).children 1 = [7, 2, 6] ∧
    crowdedList.GaveWay (crowdedList.replaceWith 2 [7, 2, 3]) 2 1 [7, 2, 3] ∧
    ((crowdedList.replaceWith 2 [7, 2, 3]).children 1).filter (· ∈ [7, 3]) = [7, 3] := by
  have size : crowdedList.size = 10 := rfl
  have up : crowdedList.parent? 2 = some 1 := rfl
  have apart {x : NodeId} (other : x ≠ 1) (inner : x ≠ root) :
      ¬ Relation.TransGen crowdedList.Up 2 x := by
    rw [transGen_up_iff up]
    intro under
    obtain same | same := eq_of_under_crowdedList under
    · exact other same
    · exact inner same
  obtain ⟨one, several⟩ := insertBefore_keeps_order wellLinked_crowdedList up
  obtain ⟨moved, _⟩ := one 7 (size ▸ by decide) (apart (by decide) (by decide))
  obtain ⟨gaveWay, order, _⟩ := several [7] [3] (by decide) (by
    intro x listed
    obtain rfl | rfl : x = 7 ∨ x = 3 := by simpa using listed
    · exact ⟨size ▸ by decide, apart (by decide) (by decide)⟩
    · exact ⟨size ▸ by decide, apart (by decide) (by decide)⟩)
  exact ⟨moved, rfl, gaveWay, order⟩

/-- Two marks. -/
def twoMarks : Document :=
  ofForest [.node (.element ⟨"b".toList, [], false⟩) [],
    .node (.element ⟨"i".toList, [], false⟩) []]

/-- In front of itself a node does not stay where it is, and it does not stay among the nodes that
take its place. -/
theorem insertBefore_itself :
    parse "<b></b><i></i>".toList = .ok twoMarks ∧ twoMarks.WellLinked ∧
      twoMarks.parent? 1 = some root ∧ twoMarks.children root = [1, 2] ∧
      (twoMarks.insertBefore 1 1).children root = [2, 1] ∧
      (twoMarks.replaceWith 1 [1]).children root = [2] :=
  ⟨rfl, .ofForest _, rfl, rfl, rfl, rfl⟩

end Templates.Markup.Document
