import Templates.Proofs.Markup.Forest
import Templates.Proofs.Text.Scan

/-!
The outermost elements that satisfy a condition, and the markup around them.

A forest is written as pieces, in which such an element is a single hit whatever is below it. There
is no hit if none of all the elements satisfies the condition.
-/

namespace Templates.Markup

/-- The element a content is, if it satisfies a condition. -/
def Content.chosen? (chosen : Element → Bool) (content : Content) : Option Element :=
  content.element?.filter chosen

/-- A chosen content is an element that satisfies the condition. -/
theorem Content.chosen?_eq_some {chosen : Element → Bool} {content : Content} {e : Element} :
    content.chosen? chosen = some e ↔ content = .element e ∧ chosen e = true := by
  rw [chosen?, Option.filter_eq_some_iff]
  cases content <;> simp [element?]

/-- Text of which no piece is a hit. -/
def plainPieces (text : Text) : List (Text.Piece NodeId) :=
  text.map .plain

/-- A node as pieces: an element that satisfies the condition is a hit, and any other node is
written around the pieces of those below it, if there are any. -/
def nodePieces (chosen : Element → Bool) (id : NodeId) (content : Content) (bare : Bool)
    (inner : List (Text.Piece NodeId)) : List (Text.Piece NodeId) :=
  match content with
  | .fragment => inner
  | .text text => plainPieces text
  | .comment text => plainPieces ("<!--".toList ++ text ++ "-->".toList)
  | .doctype text => plainPieces ("<!".toList ++ text ++ ['>'])
  | .element e =>
    if chosen e then [.hit id]
    else if e.selfClosing && bare then plainPieces (writeStart e ++ "/>".toList)
    else if isVoid e.name && bare then plainPieces (writeStart e ++ ['>'])
    else plainPieces (writeStart e ++ ['>']) ++ inner ++
      plainPieces ("</".toList ++ e.name ++ ['>'])

namespace Forest

/-- The elements that satisfy a condition and are below no other such element, in order. -/
def outermost (chosen : Element → Bool) : Forest → List (NodeId × Element)
  | nil => []
  | cons id content below rest =>
    (match content.chosen? chosen with
      | some e => [(id, e)]
      | none => below.outermost chosen) ++ rest.outermost chosen

/-- All nodes that are elements and satisfy a condition, each in front of those below it. -/
def marked (chosen : Element → Bool) : Forest → List NodeId
  | nil => []
  | cons id content below rest =>
    (if (content.chosen? chosen).isSome then [id] else []) ++ below.marked chosen ++
      rest.marked chosen

/-- The markup of a forest, in which the outermost elements that satisfy a condition are hits. -/
def pieces (chosen : Element → Bool) : Forest → List (Text.Piece NodeId)
  | nil => []
  | cons id content below rest =>
    nodePieces chosen id content below.tops.isEmpty (below.pieces chosen) ++ rest.pieces chosen

/-- Void and self-closing elements have nothing below them. -/
def Childless : Forest → Prop
  | nil => True
  | cons _ content below rest =>
    (∀ e, content = .element e → e.selfClosing = true ∨ isVoid e.name = true → below = nil) ∧
      below.Childless ∧ rest.Childless

end Forest

/-- Trees side by side are written one after the other. -/
theorem writeAll_append (left right : List Tree) :
    writeAll (left ++ right) = writeAll left ++ writeAll right := by
  induction left with
  | nil => rfl
  | cons tree rest ih => rw [List.cons_append, writeAll, writeAll, ih, List.append_assoc]

/-- Text without hits is written as it is. -/
@[simp] theorem replaceHits_plainPieces (f : NodeId → Text) (text : Text) :
    Text.replaceHits f (plainPieces text) = text :=
  Text.replaceHits_plain text

/-- A node that is no hit is written around what is below it, also if that has changed, as long as
a void or a self-closing element has nothing below it before and after. -/
theorem replaceHits_nodePieces {chosen : Element → Bool} {id : NodeId} {content : Content}
    {bare : Bool} {inner : List (Text.Piece NodeId)} {children : List Tree} {f : NodeId → Text}
    (other : content.chosen? chosen = none) (written : writeAll children = Text.replaceHits f inner)
    (agree : ∀ e, content = .element e → e.selfClosing = true ∨ isVoid e.name = true →
      bare = children.isEmpty) :
    Text.replaceHits f (nodePieces chosen id content bare inner) =
      write (.node content children) := by
  -- All nodes but elements are written without a look at what is below them.
  cases content with
  | fragment => rw [nodePieces, write, written]
  | text text => rw [nodePieces, replaceHits_plainPieces, write]
  | comment text => rw [nodePieces, replaceHits_plainPieces, write]
  | doctype text => rw [nodePieces, replaceHits_plainPieces, write]
  | element e =>
    have notChosen : ¬chosen e = true := by
      simpa [Content.chosen?, Content.element?, Option.filter] using other
    rw [nodePieces, if_neg notChosen, write]
    by_cases short : e.selfClosing = true ∨ isVoid e.name = true
    · -- Such an element is written without an end tag in the same cases.
      rw [agree e rfl short]
      split
      · rw [replaceHits_plainPieces]
      · split
        · rw [replaceHits_plainPieces]
        · simp [Text.replaceHits_append, ← written]
    · -- Any other element has a start tag and an end tag.
      obtain ⟨open_, filled⟩ := not_or.mp short
      rw [Bool.not_eq_true] at open_ filled
      simp [open_, filled, Text.replaceHits_append, ← written]

namespace Forest

/-- The nodes that satisfy a condition are found by it. -/
theorem Stands.filter_ids {chosen : Element → Bool} {d : Document} {parent : Option NodeId}
    {forest : Forest} (stands : forest.Stands d parent) :
    forest.ids.filter (fun id => (d.element? id).any chosen) = forest.marked chosen := by
  -- Each node is looked up in the document, where its content is that in the forest.
  induction forest generalizing parent with
  | nil => rfl
  | cons id content below rest ihBelow ihRest =>
    have own : (d.element? id).any chosen = (content.chosen? chosen).isSome := by
      rw [Document.element?, stands.content, Content.chosen?]
      cases content.element? with
      | none => rfl
      | some e => by_cases held : chosen e <;> simp [Option.filter, held]
    obtain ⟨_, standsBelow, standsRest⟩ := stands
    rw [ids, marked, List.filter_cons, List.filter_append, ihBelow standsBelow,
      ihRest standsRest, own]
    split <;> simp

/-- The nodes that satisfy a condition are nodes of the forest. -/
theorem marked_subset (chosen : Element → Bool) (forest : Forest) :
    forest.marked chosen ⊆ forest.ids := by
  -- The order is that of all nodes, some of which are left out.
  induction forest with
  | nil => exact List.Subset.refl _
  | cons id content below rest ihBelow ihRest =>
    rw [marked, ids, List.append_assoc]
    refine List.append_subset.mpr ⟨?_, List.append_subset.mpr ⟨?_, ?_⟩⟩
    · split
      · exact List.cons_subset_cons id (List.nil_subset _)
      · exact List.nil_subset _
    · intro x listed
      exact List.mem_cons_of_mem _ (List.mem_append_left _ (ihBelow listed))
    · intro x listed
      exact List.mem_cons_of_mem _ (List.mem_append_right _ (ihRest listed))

/-- The outermost nodes come in the order of all nodes. -/
theorem outermost_sublist (chosen : Element → Bool) (forest : Forest) :
    ((forest.outermost chosen).map Prod.fst).Sublist forest.ids := by
  -- Below a chosen element nothing is listed.
  induction forest with
  | nil => exact .slnil
  | cons id content below rest ihBelow ihRest =>
    rw [outermost, ids, List.map_append]
    cases content.chosen? chosen with
    | some e => exact ((List.nil_sublist _).append ihRest).cons_cons id
    | none => exact (ihBelow.append ihRest).cons id

/-- Void and self-closing elements have nothing below them in a forest if they have no children in
the document. -/
theorem Stands.childless {d : Document} {parent : Option NodeId} {forest : Forest}
    (stands : forest.Stands d parent)
    (bare : ∀ id ∈ forest.ids, ∀ e, d.element? id = some e →
      e.selfClosing = true ∨ isVoid e.name = true → d.children id = []) : forest.Childless := by
  -- The forest below a node is empty if its topmost nodes are no children.
  induction forest generalizing parent with
  | nil => trivial
  | cons id content below rest ihBelow ihRest =>
    have children := stands.children
    have own := stands.content
    obtain ⟨_, standsBelow, standsRest⟩ := stands
    refine ⟨?_, ihBelow standsBelow fun child listed => ?_,
      ihRest standsRest fun child listed => ?_⟩
    · rintro e rfl short
      have none := bare id List.mem_cons_self e (by rw [Document.element?, own]; rfl) short
      rw [children] at none
      cases below with
      | nil => rfl
      | cons _ _ _ _ => cases none
    · exact bare child (List.mem_cons_of_mem _ (List.mem_append_left _ listed))
    · exact bare child (List.mem_cons_of_mem _ (List.mem_append_right _ listed))

end Forest

namespace Document

end Document

mutual

/-- The elements of a tree, each in front of those below it. -/
def Tree.elements : Tree → List Element
  | .node content children => content.element?.toList ++ elementsAll children

/-- The elements of a forest. -/
def elementsAll : List Tree → List Element
  | [] => []
  | tree :: rest => tree.elements ++ elementsAll rest

end

/-- The elements of trees side by side come one after the other. -/
@[simp] theorem elementsAll_append (left right : List Tree) :
    elementsAll (left ++ right) = elementsAll left ++ elementsAll right := by
  induction left with
  | nil => rfl
  | cons tree rest ih => rw [List.cons_append, elementsAll, elementsAll, ih, List.append_assoc]

namespace Forest

/-- The marks of two forests come one behind the other. -/
theorem marked_append (chosen : Element → Bool) (left right : Forest) :
    (left.append right).marked chosen = left.marked chosen ++ right.marked chosen := by
  induction left with
  | nil => rfl
  | cons id content below rest _ ih => simp only [append, marked, ih, List.append_assoc]

/-- A forest none of whose elements satisfies a condition has no marks. -/
theorem marked_eq_nil {chosen : Element → Bool} {forest : Forest}
    (others : ∀ e ∈ elementsAll forest.trees, chosen e = false) : forest.marked chosen = [] := by
  induction forest with
  | nil => rfl
  | cons id content below rest ihBelow ihRest =>
    rw [trees, elementsAll, Tree.elements] at others
    simp only [List.mem_append, Option.mem_toList] at others
    have own : content.chosen? chosen = none := by
      cases found : content.chosen? chosen with
      | none => rfl
      | some e =>
        obtain ⟨rfl, holds⟩ := Content.chosen?_eq_some.mp found
        rw [others e (.inl (.inl rfl))] at holds
        cases holds
    rw [marked, own, ihBelow fun e listed => others e (.inl (.inr listed)),
      ihRest fun e listed => others e (.inr listed)]
    rfl

end Forest

end Templates.Markup
