import Templates.Proofs.Markup.Import

/-!
A document that is made while its source is read.

Each new node comes last below the innermost open element. The trees under construction are the
same, at each moment, as the nodes that are there with the numbers of the open elements: to close an
element changes no node, since its tree is then behind all others.
-/

namespace Templates.Markup

open Document (root)

/-- A document that is being made, and the numbers of the open elements from the inside out. -/
structure Draft where
  document : Document
  opened : List NodeId
deriving DecidableEq, Repr

namespace Draft

/-- The node that new ones come below. -/
def place (draft : Draft) : NodeId :=
  draft.opened.headD root

/-- A new node in the last place. -/
def attach (content : Content) (draft : Draft) : NodeId × Draft :=
  let (id, document) := draft.document.create content
  (id, { draft with document := document.append draft.place id })

/-- Text joins a text in the last place. -/
def addText (text : Text) (draft : Draft) : Draft :=
  if text.isEmpty then draft
  else
    match (draft.document.children draft.place).getLast? with
    | some last =>
      match draft.document.content last with
      | .text front =>
        { draft with document := draft.document.setContent (.text (front ++ text)) last }
      | _ => (draft.attach (.text text)).2
    | none => (draft.attach (.text text)).2

/-- Raw content becomes a text below its element. -/
def addRaw (id : NodeId) (content : Text) (draft : Draft) : Draft :=
  if content.isEmpty then draft
  else
    let (text, document) := draft.document.create (.text content)
    { draft with document := document.append id text }

/-- An end tag closes the innermost open element of its name with all that are open inside. -/
def endTag (name : Text) (draft : Draft) : Draft :=
  match draft.opened.findIdx? (draft.document.isNamed name) with
  | some depth => { draft with opened := draft.opened.drop (depth + 1) }
  | none => draft

/-- A start tag, with its raw content if it has any. -/
def startTag (element : Element) (raw : Option Text) (draft : Draft) : Draft :=
  let (id, draft) := draft.attach (.element element)
  match raw with
  | some content => draft.addRaw id content
  | none =>
    if element.selfClosing || isVoid element.name then draft
    else { draft with opened := id :: draft.opened }

/-- One token further. -/
def step (draft : Draft) : Token → Draft
  | .text text => draft.addText text
  | .comment text => (draft.attach (.comment text)).2
  | .doctype text => (draft.attach (.doctype text)).2
  | .endTag name => draft.endTag name
  | .startTag element raw => draft.startTag element raw

end Draft

/-- Trees have as many nodes in reverse order. -/
@[simp] theorem sizeAll_reverse (trees : List Tree) : sizeAll trees.reverse = sizeAll trees := by
  induction trees with
  | nil => rfl
  | cons tree trees ih =>
    rw [List.reverse_cons, sizeAll_append, ih, Nat.add_comm]
    rfl

/-- The nodes of the last of some trees come behind those of the others and of the node above. -/
theorem Tree.nodes_snoc (content : Content) (up : Option NodeId) (first : NodeId)
    (trees : List Tree) (last : Tree) :
    (Tree.node content (trees ++ [last])).nodes up first =
      (⟨content, up, topIds (first + 1) trees ++ [first + 1 + sizeAll trees]⟩ ::
        nodesAll (some first) (first + 1) trees) ++
        last.nodes (some first) (first + 1 + sizeAll trees) := by
  rw [Tree.nodes, topIds_append, nodesAll_append, List.cons_append]
  simp [topIds, nodesAll]

namespace Document

/-- A new node is a tree of its own. -/
theorem create_eq (content : Content) (d : Document) :
    d.create content = (d.size, d.withTrees none [.node content []]) := by
  simp [create, withTrees, nodesAll, Tree.nodes, topIds]

/-- A new node that moves below another one is a tree that is added there. -/
theorem append_create (content : Content) (parent : NodeId) (d : Document) :
    (d.create content).2.append parent (d.create content).1 =
      (d.withTrees (some parent) [.node content []]).mapChildren (· ++ [d.size]) parent := by
  rw [create_eq, append_withTrees]
  rfl

/-- A node is known by the number of those in front of it. -/
theorem getElem?_behind {before : List Node} {id : NodeId} (length : before.length = id)
    (node : Node) (after : List Node) :
    (Document.mk (before ++ node :: after).toArray).nodes[id]? = some node := by
  simp [← length]

/-- A change of a node leaves those in front of it and behind it alone. -/
theorem modify_behind {before : List Node} {id : NodeId} (length : before.length = id)
    (node : Node) (after : List Node) (change : Node → Node) :
    (before ++ node :: after).toArray.modify id change =
      (before ++ change node :: after).toArray := by
  rw [List.modify_toArray, List.modify_eq_take_cons_drop (by simp [← length])]
  simp [← length]

end Document

namespace Growth

/-- The number of the innermost open element, or of the root if there is none. -/
def place : List (Element × List Tree) → NodeId
  | [] => root
  | (_, front) :: opened => place opened + 1 + sizeAll front

/-- The numbers of the open elements. -/
def numbers : List (Element × List Tree) → List NodeId
  | [] => []
  | frame :: opened => place (frame :: opened) :: numbers opened

/-- What the innermost open element is. -/
def holder : List (Element × List Tree) → Content
  | [] => .fragment
  | (element, _) :: _ => .element element

/-- The node above the innermost open element. -/
def above : List (Element × List Tree) → Option NodeId
  | [] => none
  | _ :: opened => some (place opened)

/-- All that has grown, as a document. -/
def draft (growth : Growth) : Draft :=
  ⟨.ofForest growth.finish, numbers growth.opened⟩

variable {element : Element} {inner : List Tree} {opened : List (Element × List Tree)}

/-- To close elements is to be done with them, not to change what has grown. -/
theorem finish_close (count : Nat) (growth : Growth) :
    (growth.close count).finish = growth.finish := by
  induction count generalizing growth with
  | zero => rfl
  | succ count ih =>
    obtain ⟨inner, opened⟩ := growth
    cases opened with
    | nil => rfl
    | cons frame opened => exact ih _

/-- The innermost elements close first. -/
theorem opened_close (count : Nat) (growth : Growth) :
    (growth.close count).opened = growth.opened.drop count := by
  induction count generalizing growth with
  | zero => rfl
  | succ count ih =>
    obtain ⟨inner, opened⟩ := growth
    cases opened with
    | nil => rfl
    | cons frame opened => exact ih _

/-- The numbers of those that stay open stay the same. -/
theorem numbers_drop (count : Nat) (opened : List (Element × List Tree)) :
    numbers (opened.drop count) = (numbers opened).drop count := by
  induction count generalizing opened with
  | zero => rfl
  | succ count ih =>
    cases opened with
    | nil => rfl
    | cons frame opened => exact ih opened

/-- Elements that close leave all nodes as they are. -/
theorem draft_close (count : Nat) (growth : Growth) :
    (growth.close count).draft = ⟨growth.draft.document, growth.draft.opened.drop count⟩ := by
  rw [draft, finish_close, opened_close, numbers_drop]
  rfl

/-- New nodes come below the innermost open element. -/
theorem place_draft (inner : List Tree) (opened : List (Element × List Tree)) :
    (draft ⟨inner, opened⟩).place = place opened := by
  cases opened <;> rfl

/-- The nodes of the innermost open element come last in the document, and the nodes in front of
them do not depend on what is in it. -/
structure Outside (opened : List (Element × List Tree)) (outside : List Node) : Prop where
  length : outside.length = place opened
  document : ∀ inner, (draft ⟨inner, opened⟩).document =
    ⟨(outside ++
      (Tree.node (holder opened) inner.reverse).nodes (above opened) (place opened)).toArray⟩

/-- The same holds of the last tree in the innermost open element. -/
theorem Outside.exists_before {outside : List Node} (whole : Outside opened outside)
    (inner : List Tree) :
    ∃ before : List Node, before.length = place opened + 1 + sizeAll inner ∧ ∀ tree,
      (draft ⟨tree :: inner, opened⟩).document =
        ⟨(before ++ tree.nodes (some (place opened))
          (place opened + 1 + sizeAll inner)).toArray⟩ := by
  refine ⟨outside ++ (⟨holder opened, above opened, topIds (place opened + 1) inner.reverse ++
    [place opened + 1 + sizeAll inner.reverse]⟩ ::
    nodesAll (some (place opened)) (place opened + 1) inner.reverse), ?_, fun tree => ?_⟩
  · rw [List.length_append, List.length_cons, Forest.length_nodesAll, sizeAll_reverse,
      whole.length]
    omega
  · rw [whole.document, List.reverse_cons, Tree.nodes_snoc, List.append_assoc, sizeAll_reverse]

/-- There is such a first part of the document for all open elements. -/
theorem exists_outside (opened : List (Element × List Tree)) :
    ∃ outside, Outside opened outside := by
  induction opened with
  | nil => exact ⟨[], rfl, fun inner => rfl⟩
  | cons frame opened ih =>
    -- One frame further out the element is the last tree.
    obtain ⟨element, front⟩ := frame
    obtain ⟨outside, whole⟩ := ih
    obtain ⟨before, length, same⟩ := whole.exists_before front
    exact ⟨before, length, fun inner => same (.node (.element element) inner.reverse)⟩

/-- There are as many nodes as numbers up to the last one in the innermost open element. -/
theorem size_draft (inner : List Tree) (opened : List (Element × List Tree)) :
    (draft ⟨inner, opened⟩).document.size = place opened + 1 + sizeAll inner := by
  obtain ⟨outside, whole⟩ := exists_outside opened
  rw [whole.document, Document.size, List.size_toArray, List.length_append, whole.length,
    Tree.nodes, List.length_cons, Forest.length_nodesAll, sizeAll_reverse]
  omega

/-- The innermost open element is known by its number. -/
theorem getElem?_place (inner : List Tree) (opened : List (Element × List Tree)) :
    (draft ⟨inner, opened⟩).document.nodes[place opened]? =
      some ⟨holder opened, above opened, topIds (place opened + 1) inner.reverse⟩ := by
  obtain ⟨outside, whole⟩ := exists_outside opened
  rw [whole.document]
  exact Document.getElem?_behind whole.length _ _

/-- Open elements are found by their numbers. -/
theorem map_element_numbers (inner : List Tree) (opened : List (Element × List Tree)) :
    (numbers opened).map (draft ⟨inner, opened⟩).document.element? =
      opened.map fun frame => some frame.1 := by
  induction opened generalizing inner with
  | nil => rfl
  | cons frame opened ih =>
    obtain ⟨element, front⟩ := frame
    rw [numbers, List.map_cons, List.map_cons, Document.element?, Document.content,
      getElem?_place]
    -- For the other elements the innermost one might as well be closed.
    exact congrArg (some element :: ·) (ih (.node (.element element) inner.reverse :: front))

/-- The way up from the innermost open element goes through the others to the root. -/
theorem leads_numbers (inner : List Tree) (opened : List (Element × List Tree)) :
    (draft ⟨inner, opened⟩).document.Leads (place opened) (numbers opened ++ [root]).tail := by
  induction opened generalizing inner with
  | nil => rfl
  | cons frame opened ih =>
    obtain ⟨element, front⟩ := frame
    have up := Document.parent?_eq (getElem?_place inner ((element, front) :: opened))
    have rest := ih (.node (.element element) inner.reverse :: front)
    cases opened with
    | nil => exact ⟨up, rest⟩
    | cons outer opened => exact ⟨up, rest⟩

/-- The last child of the innermost open element is the last tree in it. -/
theorem getLast?_children_place (content : Content) (below inner : List Tree)
    (opened : List (Element × List Tree)) :
    ((draft ⟨.node content below :: inner, opened⟩).document.children (place opened)).getLast? =
      some (place opened + 1 + sizeAll inner) := by
  rw [Document.children, getElem?_place, List.reverse_cons, topIds_append, sizeAll_reverse, topIds,
    topIds, List.getLast?_concat]

/-- The last tree in the innermost open element is known by its number, and when its content changes
no other node does. -/
theorem content_last (content other : Content) (below inner : List Tree)
    (opened : List (Element × List Tree)) :
    (draft ⟨.node content below :: inner, opened⟩).document.content
        (place opened + 1 + sizeAll inner) = content ∧
      (draft ⟨.node content below :: inner, opened⟩).document.setContent other
        (place opened + 1 + sizeAll inner) =
        (draft ⟨.node other below :: inner, opened⟩).document := by
  obtain ⟨outside, whole⟩ := exists_outside opened
  obtain ⟨before, length, same⟩ := whole.exists_before inner
  rw [same, same, Tree.nodes, Tree.nodes]
  constructor
  · rw [Document.content, Document.getElem?_behind length]
  · simp only [Document.setContent, Document.modify_behind length]

/-- A tree that is added has its nodes behind all others, below the innermost open element. -/
theorem document_add (tree : Tree) (growth : Growth) :
    (growth.add tree).draft.document =
      (growth.draft.document.withTrees (some growth.draft.place) [tree]).mapChildren
        (· ++ [growth.draft.document.size]) growth.draft.place := by
  obtain ⟨inner, opened⟩ := growth
  obtain ⟨outside, whole⟩ := exists_outside opened
  have size := size_draft inner opened
  have added : (draft ⟨tree :: inner, opened⟩).document = _ := whole.document (tree :: inner)
  rw [place_draft, add, added, Document.withTrees, size, whole.document, List.reverse_cons,
    Tree.nodes_snoc, sizeAll_reverse, nodesAll, nodesAll, List.append_nil]
  -- The innermost open element gets one more child.
  simp only [Document.mapChildren, Tree.nodes, List.append_toArray, List.append_assoc,
    List.cons_append, Document.modify_behind whole.length]

end Growth

namespace Draft

variable (growth : Growth)

/-- A new node is a tree that is added. -/
theorem attach_draft (content : Content) :
    growth.draft.attach content =
      (growth.draft.document.size, (growth.add (.node content [])).draft) := by
  have made : growth.draft.attach content =
      ((growth.draft.document.create content).1,
        ⟨(growth.draft.document.create content).2.append growth.draft.place
          (growth.draft.document.create content).1, growth.draft.opened⟩) := rfl
  rw [made, Document.append_create, ← Growth.document_add, Document.create_eq]
  rfl

/-- Text is added as it is to a forest. -/
theorem addText_draft (text : Text) :
    growth.draft.addText text = (growth.addText text).draft := by
  obtain ⟨inner, opened⟩ := growth
  cases text with
  | nil => rfl
  | cons c text =>
    rw [addText, if_neg (by simp), Growth.place_draft]
    cases inner with
    | nil =>
      rw [Document.children, Growth.getElem?_place]
      exact congrArg Prod.snd (attach_draft _ _)
    | cons tree inner =>
      -- What happens depends on the last tree.
      obtain ⟨content, below⟩ := tree
      have last (other : Content) := Growth.content_last content other below inner opened
      rw [Growth.getLast?_children_place]
      dsimp only
      rw [(last .fragment).1]
      cases content with
      | text front =>
        dsimp only
        rw [(last _).2]
        rfl
      | fragment => exact congrArg Prod.snd (attach_draft _ _)
      | element e => exact congrArg Prod.snd (attach_draft _ _)
      | comment t => exact congrArg Prod.snd (attach_draft _ _)
      | doctype t => exact congrArg Prod.snd (attach_draft _ _)

/-- An end tag closes the same elements. -/
theorem endTag_draft (name : Text) :
    growth.draft.endTag name = (growth.endTag name).draft := by
  -- Open elements have the same names by their numbers.
  have found : growth.draft.opened.findIdx? (growth.draft.document.isNamed name) =
      growth.opened.findIdx? fun frame => frame.1.isNamed name := by
    have named : growth.draft.document.isNamed name =
        (fun e => e.any (Element.isNamed name)) ∘ growth.draft.document.element? := rfl
    have elements : growth.draft.opened.map growth.draft.document.element? =
        growth.opened.map fun frame => some frame.1 := Growth.map_element_numbers _ _
    rw [named, ← List.findIdx?_map, elements, List.findIdx?_map]
    rfl
  rw [endTag, found, Growth.endTag]
  cases growth.opened.findIdx? fun frame => frame.1.isNamed name with
  | none => rfl
  | some depth => exact (Growth.draft_close _ _).symm

/-- An element that opens gets the next free number. -/
theorem enter_draft (element : Element) :
    (growth.enter element).draft =
      ⟨(growth.add (.node (.element element) [])).draft.document,
        growth.draft.document.size :: growth.draft.opened⟩ := by
  obtain ⟨inner, opened⟩ := growth
  rw [Growth.size_draft]
  rfl

/-- Raw content is text in an element that opens and closes right behind it. -/
theorem addRaw_draft (element : Element) (content : Text) :
    (growth.add (.node (.element element) [])).draft.addRaw growth.draft.document.size content =
      (growth.step (.startTag element (some content))).draft := by
  cases content with
  | nil => rfl
  | cons c content =>
    have entered := enter_draft growth element
    have inside : (growth.enter element).draft.place = growth.draft.document.size := by
      rw [entered]
      rfl
    have closed : growth.step (.startTag element (some (c :: content))) =
        ((growth.enter element).add (.node (.text (c :: content)) [])).close 1 := rfl
    have made : (growth.add (.node (.element element) [])).draft.addRaw
          growth.draft.document.size (c :: content) =
        ⟨((growth.enter element).draft.document.create (.text (c :: content))).2.append
          growth.draft.document.size
          ((growth.enter element).draft.document.create (.text (c :: content))).1,
          growth.draft.opened⟩ := by
      rw [entered]
      rfl
    rw [closed, Growth.draft_close, Growth.document_add, inside, made, Document.append_create]
    rfl

/-- A start tag is added as it is to a forest. -/
theorem startTag_draft (element : Element) (raw : Option Text) :
    growth.draft.startTag element raw = (growth.step (.startTag element raw)).draft := by
  rw [startTag, attach_draft]
  cases raw with
  | some content => exact addRaw_draft growth element content
  | none =>
    dsimp only
    cases short : element.selfClosing || isVoid element.name with
    | true => rw [if_pos rfl, Growth.step, if_pos short]
    | false =>
      rw [if_neg Bool.false_ne_true, Growth.step, if_neg (by simp [short]), enter_draft]
      rfl

/-- Token by token the document is that of the forest. -/
theorem step_draft (token : Token) :
    growth.draft.step token = (growth.step token).draft := by
  cases token with
  | text text => exact addText_draft growth text
  | comment text => exact congrArg Prod.snd (attach_draft growth _)
  | doctype text => exact congrArg Prod.snd (attach_draft growth _)
  | endTag name => exact endTag_draft growth name
  | startTag element raw => exact startTag_draft growth element raw

end Draft

end Templates.Markup
