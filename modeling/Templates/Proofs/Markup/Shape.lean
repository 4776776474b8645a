import Templates.Proofs.Markup.Formed
import Templates.Proofs.Markup.Links

/-!
The shape of documents that are read from markup.

It is a matter of each node and its children, so that formed trees have it wherever they stand.
-/

namespace Templates.Markup

namespace Document

/-- Whether a node is text. -/
def isText (d : Document) (id : NodeId) : Bool :=
  match d.content id with
  | .text _ => true
  | _ => false

/-- A node and its children as they are read from markup. -/
structure Fits (d : Document) (id : NodeId) : Prop where
  /-- Nothing is below an element that has no end tag. -/
  short : ∀ e, d.content id = .element e → e.isShort = true → d.children id = []
  /-- Below an element with raw content is one text at most. -/
  raw : ∀ e, d.content id = .element e → isRaw e.name = true → d.children id = [] ∨
    ∃ child text, d.children id = [child] ∧ d.content child = .text text ∧ text ≠ []
  /-- No text is empty. -/
  filled : ∀ text, d.content id = .text text → text ≠ []
  /-- No text comes right behind another one. -/
  apart : (d.children id).IsChain fun left right => ¬(d.isText left = true ∧ d.isText right = true)

/-- A document as it is read from markup. -/
structure Shaped (d : Document) : Prop where
  /-- The links upwards and downwards agree, and there is no way back to a node. -/
  linked : d.WellLinked
  /-- All nodes are in the tree. -/
  attached : ∀ id < d.size, d.isAttached id = true
  /-- The nodes below the root have their numbers in document order. -/
  ordered : d.descendants root = List.range' 1 (d.size - 1)
  /-- All nodes are as they are read. -/
  fits : ∀ id, d.Fits id

end Document

/-- The trees below a formed one are formed. -/
theorem Tree.Formed.children {content : Content} {children : List Tree}
    (formed : (Tree.node content children).Formed) : FormedAll children := by
  cases content with
  | fragment => exact formed.elim
  | text text => exact formed.2 ▸ trivial
  | comment text => exact formed.2 ▸ trivial
  | doctype text => exact formed.2.2 ▸ trivial
  | element e =>
    have below := formed.2
    split at below
    · exact below ▸ trivial
    · split at below
      · obtain rfl | ⟨text, rfl, filled, _⟩ := below
        · trivial
        · exact ⟨⟨filled, rfl⟩, rfl, trivial⟩
      · exact below

namespace Forest

variable {d : Document} {parent : Option NodeId} {forest : Forest}

/-- A forest without trees has no topmost nodes. -/
theorem tops_eq_nil (none : forest.trees = []) : forest.tops = [] := by
  cases forest with
  | nil => rfl
  | cons => cases none

/-- Topmost nodes of a formed forest are not text side by side. -/
theorem Stands.apart (stands : forest.Stands d parent) (formed : FormedAll forest.trees) :
    forest.tops.IsChain fun left right => ¬(d.isText left = true ∧ d.isText right = true) := by
  induction forest generalizing parent with
  | nil => exact .nil
  | cons id content below rest _ ih =>
    obtain ⟨_, meets, others⟩ := formed
    have behind := ih stands.2.2 others
    cases rest with
    | nil => exact .singleton _
    | cons next other inner rest =>
      refine .cons_cons ?_ behind
      -- The numbers stand for the trees, of which one at least is not text.
      have left : d.isText id = (Tree.node content below.trees).isText := by
        rw [Document.isText, stands.content]
        cases content <;> rfl
      have right : d.isText next = (Tree.node other inner.trees).isText := by
        rw [Document.isText, stands.2.2.content]
        cases other <;> rfl
      rw [left, right, ← Bool.and_eq_true, Bool.not_eq_true]
      exact meets

/-- Raw content stands as one text at most. -/
theorem Stands.raw {name : Text} (stands : forest.Stands d parent)
    (held : IsRawContent name forest.trees) : forest.tops = [] ∨
      ∃ child text, forest.tops = [child] ∧ d.content child = .text text ∧ text ≠ [] := by
  obtain bare | ⟨text, only, filled, _⟩ := held
  · exact .inl (tops_eq_nil bare)
  · cases forest with
    | nil => cases only
    | cons child content below rest =>
      obtain ⟨tree, bare⟩ := List.cons.inj only
      obtain ⟨rfl, _⟩ := Tree.node.inj tree
      exact .inr ⟨child, text, by rw [tops, tops_eq_nil bare], stands.content, filled⟩

/-- All nodes of a formed forest fit. -/
theorem Stands.fits (stands : forest.Stands d parent) (formed : FormedAll forest.trees)
    {id : NodeId} (listed : id ∈ forest.ids) : d.Fits id := by
  induction forest generalizing parent with
  | nil => cases listed
  | cons first content below rest ihBelow ihRest =>
    obtain ⟨tree, _, others⟩ := formed
    obtain rfl | listed := List.mem_cons.mp listed
    · -- The trees below the node are its children.
      have own := stands.content
      have children := stands.children
      refine ⟨fun e element short => ?_, fun e element raw => ?_, fun text same => ?_, ?_⟩
      · obtain rfl : content = .element e := own.symm.trans element
        have bare := tree.2
        rw [if_pos short] at bare
        rw [children, tops_eq_nil bare]
      · obtain rfl : content = .element e := own.symm.trans element
        have held := tree.2
        rw [children]
        rw [if_pos raw] at held
        split at held
        · exact .inl (tops_eq_nil held)
        · exact stands.2.1.raw held
      · obtain rfl : content = .text text := own.symm.trans same
        exact tree.1
      · rw [children]
        exact stands.2.1.apart tree.children
    · obtain listed | listed := List.mem_append.mp listed
      · exact ihBelow stands.2.1 tree.children listed
      · exact ihRest stands.2.2 others listed

end Forest

namespace Document

/-- A document made of trees has their nodes besides its root. -/
theorem size_ofForest (trees : List Tree) : (ofForest trees).size = sizeAll trees + 1 := by
  rw [ofForest, size, List.size_toArray, Tree.nodes, List.length_cons, Forest.length_nodesAll]

/-- The numbers of a document made of trees are those of the root and of the nodes of the trees. -/
theorem eq_root_or_mem_ids {trees : List Tree} {id : NodeId} (there : id < (ofForest trees).size) :
    id = root ∨ id ∈ (Forest.plant 1 trees).ids := by
  rw [size_ofForest] at there
  rw [Forest.ids_plant, List.mem_range'_1]
  obtain first | later := Nat.eq_zero_or_pos id
  · exact .inl first
  · exact .inr ⟨later, Nat.add_comm _ 1 ▸ there⟩

/-- A document made of formed trees has the shape of markup that is read. -/
theorem Shaped.ofForest {trees : List Tree} (formed : FormedAll trees) :
    (ofForest trees).Shaped := by
  have shows := shows_ofForest trees
  have planted : FormedAll (Forest.plant 1 trees).trees := by
    rw [Forest.trees_plant]
    exact formed
  refine ⟨.ofForest trees, fun id there => ?_, ?_, fun id => ?_⟩
  · obtain rfl | listed := eq_root_or_mem_ids there
    · rfl
    · exact shows.isAttached listed
  · rw [shows.descendants, Forest.ids_plant, size_ofForest, Nat.add_sub_cancel]
  · obtain there | beyond := Nat.lt_or_ge id (Document.ofForest trees).size
    · obtain rfl | listed := eq_root_or_mem_ids there
      · -- The root is neither an element nor text.
        have own : (Document.ofForest trees).content root = .fragment := rfl
        refine ⟨fun e element => ?_, fun e element => ?_, fun text same => ?_, ?_⟩
        · cases own.symm.trans element
        · cases own.symm.trans element
        · cases own.symm.trans same
        · rw [shows.children]
          exact shows.stands.apart planted
      · exact shows.stands.fits planted listed
    · -- Where there is no node, nothing is asked for.
      have node : (Document.ofForest trees).nodes[id]? = none := Array.getElem?_eq_none beyond
      have own : (Document.ofForest trees).content id = .fragment := by rw [content, node]
      have below : (Document.ofForest trees).children id = [] := by rw [children, node]
      refine ⟨fun e element => ?_, fun e element => ?_, fun text same => ?_, ?_⟩
      · exact fun _ => below
      · exact fun _ => .inl below
      · cases own.symm.trans same
      · rw [below]
        exact .nil

end Document

end Templates.Markup
