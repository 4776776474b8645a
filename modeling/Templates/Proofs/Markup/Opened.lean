import Templates.Proofs.Markup.Outermost
import Templates.Proofs.Markup.Settled

/-!
Where the elements of a source are opened.

Trees are made of what start tags are read as, so that no element comes from elsewhere. Main
statement: the name of each element of a source stands there behind an opening bracket.
-/

namespace Templates.Markup

namespace Token

/-- The name of an element that is read goes as far as the characters of names do. -/
theorem name_of_readTag {text rest : Text} {e : Element} (read : readTag text = .read e rest) :
    e.name = text.takeWhile inTagName := by
  unfold readTag at read
  dsimp only at read
  split at read
  · cases read
    rfl
  · cases read
  · cases read

/-- A start tag begins with an opening bracket and the name of its element. -/
theorem prefix_of_next {c : Char} {text rest : Text} {e : Element} {raw : Option Text}
    (read : next c text = .ok (.startTag e raw, rest)) : '<' :: e.name <+: c :: text := by
  have named {first : Char} {inner after : Text} (tag : readTag (first :: inner) = .read e after) :
      '<' :: e.name <+: '<' :: first :: inner := by
    rw [name_of_readTag tag]
    exact List.cons_prefix_cons.mpr ⟨rfl, List.takeWhile_prefix _⟩
  cases next_cases read with
  | startTag begins _ tag _ => exact begins ▸ named tag
  | rawTag begins _ tag _ _ => exact begins ▸ named tag

/-- All start tags among the tokens of a source stand in it. -/
theorem startTag_of_tokensFrom {skip : Nat} {source : Text} {read : List Token} {e : Element}
    {raw : Option Text} (all : tokensFrom skip source = .ok read)
    (listed : .startTag e raw ∈ read) : ∃ back, back <:+ source ∧ '<' :: e.name <+: back := by
  -- What stands in the rest of a source stands in the source.
  have further {c : Char} {rest : Text} (there : ∃ back, back <:+ rest ∧ '<' :: e.name <+: back) :
      ∃ back, back <:+ c :: rest ∧ '<' :: e.name <+: back := by
    obtain ⟨back, ends, begins⟩ := there
    exact ⟨back, ends.trans (List.suffix_cons c rest), begins⟩
  fun_induction tokensFrom skip source generalizing read with
  | case1 =>
    cases all
    cases listed
  | case2 skip c rest ih => exact further (ih all listed)
  | case3 => cases all
  | case4 c rest token after one others later ih =>
    cases all
    rcases List.mem_cons.mp listed with same | behind
    · subst same
      exact ⟨c :: rest, List.suffix_rfl, prefix_of_next one⟩
    · exact further (ih later behind)
  | case5 => cases all

end Token

/-- The elements of trees are those of each of them. -/
theorem mem_elementsAll {trees : List Tree} {e : Element} :
    e ∈ elementsAll trees ↔ ∃ tree ∈ trees, e ∈ tree.elements := by
  induction trees with
  | nil => simp [elementsAll]
  | cons tree rest ih => simp [elementsAll, ih]

namespace Growth

/-- All elements in a forest under construction, those that are open included, are of one kind. -/
structure Consists (kind : Element → Prop) (growth : Growth) : Prop where
  inner : ∀ tree ∈ growth.inner, ∀ e ∈ tree.elements, kind e
  opened : ∀ frame ∈ growth.opened, kind frame.1 ∧
    ∀ tree ∈ frame.2, ∀ e ∈ tree.elements, kind e

variable {kind : Element → Prop} {growth : Growth}

/-- A tree of such elements may be added. -/
theorem Consists.add (consists : growth.Consists kind) {tree : Tree}
    (fits : ∀ e ∈ tree.elements, kind e) : (growth.add tree).Consists kind :=
  ⟨List.forall_mem_cons.mpr ⟨fits, consists.inner⟩, consists.opened⟩

/-- There is no element in a text. -/
theorem Consists.addText (consists : growth.Consists kind) (text : Text) :
    (growth.addText text).Consists kind := by
  obtain ⟨inner, opened⟩ := growth
  unfold Growth.addText
  split
  · exact consists
  · -- The text in front has the same trees below it when it is longer.
    rename_i front children rest _ same
    have before := consists.inner
    rw [show inner = .node (.text front) children :: rest from same] at before
    obtain ⟨first, others⟩ := List.forall_mem_cons.mp before
    exact ⟨List.forall_mem_cons.mpr ⟨first, others⟩, consists.opened⟩
  · exact consists.add (List.forall_mem_nil kind)

/-- Elements that close are those that were open. -/
theorem Consists.close (consists : growth.Consists kind) (count : Nat) :
    (Growth.close count growth).Consists kind := by
  induction count generalizing growth with
  | zero => exact consists
  | succ count ih =>
    obtain ⟨inner, opened⟩ := growth
    cases opened with
    | nil => exact consists
    | cons frame opened =>
      obtain ⟨⟨own, before⟩, others⟩ := List.forall_mem_cons.mp consists.opened
      refine ih ⟨List.forall_mem_cons.mpr ⟨fun e listed => ?_, before⟩, others⟩
      -- Its children are the trees that were read in it.
      rcases List.mem_cons.mp listed with rfl | below
      · exact own
      · obtain ⟨tree, among, inside⟩ := mem_elementsAll.mp below
        exact consists.inner tree (List.mem_reverse.mp among) e inside

/-- A token brings in no element but the one that it opens. -/
theorem Consists.step (consists : growth.Consists kind) {token : Token}
    (fits : ∀ e raw, token = .startTag e raw → kind e) : (growth.step token).Consists kind := by
  cases token with
  | text body => exact consists.addText body
  | comment body => exact consists.add (List.forall_mem_nil kind)
  | doctype body => exact consists.add (List.forall_mem_nil kind)
  | endTag name =>
    show (growth.endTag name).Consists kind
    unfold Growth.endTag
    split
    · exact consists.close _
    · exact consists
  | startTag e raw =>
    have own : kind e := fits e raw rfl
    have whole {children : List Tree} (bare : elementsAll children = []) :
        ∀ x ∈ (Tree.node (.element e) children).elements, kind x := by
      intro x listed
      rw [Tree.elements, bare, List.append_nil] at listed
      rw [List.mem_singleton.mp listed]
      exact own
    cases raw with
    | none =>
      show (if e.isShort then growth.add (.node (.element e) []) else growth.enter e).Consists kind
      split
      · exact consists.add (whole rfl)
      · -- Nothing is in the element yet, which waits with the trees in front of it.
        exact ⟨List.forall_mem_nil _,
          List.forall_mem_cons.mpr ⟨⟨own, consists.inner⟩, consists.opened⟩⟩
    | some content =>
      cases content with
      | nil => exact consists.add (whole rfl)
      | cons c rest => exact consists.add (whole rfl)

/-- Tokens bring in no elements but those that they open. -/
theorem Consists.foldl (consists : growth.Consists kind) {read : List Token}
    (fit : ∀ e raw, .startTag e raw ∈ read → kind e) :
    (read.foldl Growth.step growth).Consists kind := by
  induction read generalizing growth with
  | nil => exact consists
  | cons token rest ih =>
    refine ih (consists.step fun e raw same => fit e raw (same ▸ List.mem_cons_self)) ?_
    exact fun e raw listed => fit e raw (List.mem_cons_of_mem _ listed)

end Growth

/-- The name of each element of a source stands in it, behind an opening bracket. -/
theorem exists_of_mem_elementsAll {source : Text} {forest : List Tree} {e : Element}
    (read : parse source = .ok forest) (listed : e ∈ elementsAll forest) :
    ∃ back, back <:+ source ∧ '<' :: e.name <+: back := by
  cases all : tokens source with
  | error e =>
    rw [parse, all] at read
    cases read
  | ok tokens =>
    rw [parse, all] at read
    cases read
    have start : (⟨[], []⟩ : Growth).Consists fun e =>
        ∃ back, back <:+ source ∧ '<' :: e.name <+: back :=
      ⟨List.forall_mem_nil _, List.forall_mem_nil _⟩
    -- What is left open closes in the end.
    have made := (start.foldl fun e raw => Token.startTag_of_tokensFrom all).close
      (tokens.foldl Growth.step ⟨[], []⟩).opened.length
    obtain ⟨tree, among, inside⟩ := mem_elementsAll.mp listed
    exact made.inner tree (List.mem_reverse.mp among) e inside

end Templates.Markup
