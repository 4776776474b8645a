import Templates.Proofs.Component.Placeholder
import Templates.Proofs.Markup.History
import Templates.Proofs.Markup.Moved
import Templates.Proofs.Markup.Reread

/-!
Slots that were not filled become comments, which end where they are meant to end.

Markup that is one finished tree does not change how the markup behind it is read: no end tag closes
the tree, and no text joins it as long as it is none itself. The text of a comment for a slot holds
no two hyphens in a row, whatever the markup of the slot is, so that the comment is read as one node
and what follows it as if nothing stood in front. In the document, the slot and all that is below it
are out of the tree, and everything else stays there.
-/

/-! ### Markup behind a finished tree -/

namespace Templates.Markup

namespace Growth

/-- A place in a forest is another one with a tree in front of everything. -/
inductive Behind (tree : Tree) : Growth → Growth → Prop
  | top (inner : List Tree) : Behind tree ⟨inner, []⟩ ⟨inner ++ [tree], []⟩
  | inside {front front' : List Tree} {opened opened' : List (Element × List Tree)}
    (outer : Behind tree ⟨front, opened⟩ ⟨front', opened'⟩) (inner : List Tree) (e : Element) :
    Behind tree ⟨inner, (e, front) :: opened⟩ ⟨inner, (e, front') :: opened'⟩

namespace Behind

variable {tree : Tree} {growth other : Growth}

/-- Finished trees come on top of either. -/
theorem add (behind : Behind tree growth other) (new : Tree) :
    Behind tree (growth.add new) (other.add new) := by
  cases behind with
  | top inner => exact .top (new :: inner)
  | inside outer inner e => exact .inside outer (new :: inner) e

/-- Text joins the same text in both, since the tree in front is none. -/
theorem addText (solid : tree.isText = false) (behind : Behind tree growth other) (text : Text) :
    Behind tree (growth.addText text) (other.addText text) := by
  cases text with
  | nil => exact behind
  | cons c rest =>
    cases behind with
    | top inner =>
      cases inner with
      | nil =>
        -- Only here would a text join the tree in front.
        obtain ⟨content, children⟩ := tree
        cases content with
        | text => cases solid
        | fragment | element | comment | doctype => exact .top [.node (.text (c :: rest)) []]
      | cons last inner =>
        obtain ⟨content, children⟩ := last
        cases content <;> exact .top (_ :: _)
    | inside outer inner e =>
      cases inner with
      | nil => exact .inside outer [_] e
      | cons last inner =>
        obtain ⟨content, children⟩ := last
        cases content <;> exact .inside outer (_ :: _) e

/-- An element opens in both. -/
theorem enter (behind : Behind tree growth other) (e : Element) :
    Behind tree (growth.enter e) (other.enter e) :=
  .inside behind [] e

/-- As many elements close in both. -/
theorem close (behind : Behind tree growth other) (count : Nat) :
    Behind tree (growth.close count) (other.close count) := by
  induction count generalizing growth other with
  | zero => exact behind
  | succ count ih =>
    cases behind with
    | top inner => exact .top inner
    | inside outer inner e => exact ih (outer.add (.node (.element e) inner.reverse))

/-- The same elements are open. -/
theorem opened_eq (behind : Behind tree growth other) :
    other.opened.map Prod.fst = growth.opened.map Prod.fst := by
  induction behind with
  | top => rfl
  | inside _ _ e ih => exact congrArg (e :: ·) ih

/-- An end tag closes the same element in both. -/
theorem endTag (behind : Behind tree growth other) (name : Text) :
    Behind tree (growth.endTag name) (other.endTag name) := by
  -- Only the names of the open elements tell how many of them close.
  have depth (growth : Growth) : growth.endTag name =
      ((growth.opened.map Prod.fst).findIdx? (Element.isNamed name)).elim growth
        fun depth => growth.close (depth + 1) := by
    rw [Growth.endTag, List.findIdx?_map]
    split
    all_goals
      rename_i found
      change growth.opened.findIdx? (Element.isNamed name ∘ Prod.fst) = _ at found
      rw [found]
      rfl
  rw [depth, depth, behind.opened_eq]
  cases (growth.opened.map Prod.fst).findIdx? (Element.isNamed name) with
  | none => exact behind
  | some count => exact behind.close _

/-- Both go the same way with each token. -/
theorem step (solid : tree.isText = false) (behind : Behind tree growth other) (token : Token) :
    Behind tree (growth.step token) (other.step token) := by
  cases token with
  | text text => exact behind.addText solid text
  | comment text => exact behind.add _
  | doctype text => exact behind.add _
  | endTag name => exact behind.endTag name
  | startTag e raw =>
    cases raw with
    | none =>
      rw [Growth.step, Growth.step]
      split
      · exact behind.add _
      · exact behind.enter e
    | some content => cases content <;> exact behind.add _

/-- Both go the same way with many tokens. -/
theorem foldl (solid : tree.isText = false) (behind : Behind tree growth other)
    (read : List Token) :
    Behind tree (read.foldl Growth.step growth) (read.foldl Growth.step other) := by
  induction read generalizing growth other with
  | nil => exact behind
  | cons token read ih => exact ih (behind.step solid token)

/-- In the end the tree stands in front of all others. -/
theorem finish (behind : Behind tree growth other) : other.finish = tree :: growth.finish := by
  obtain ⟨inner, opened⟩ := growth
  induction opened generalizing inner other with
  | nil =>
    cases behind with
    | top => simp [Growth.finish, Growth.close]
  | cons frame opened ih =>
    -- The innermost element closes first, and is then one more finished tree.
    cases behind with
    | inside outer inner e =>
      have closed := ih _ (outer.add (.node (.element e) inner.reverse))
      exact closed

end Behind

end Growth

/-- What is one token that adds a finished tree, and no text, is read by itself, and what follows it
is read as if nothing stood in front. -/
theorem parse_ahead {written rest : Text} {token : Token} {tree : Tree}
    (reads : ReadsAs written rest [token]) (solid : tree.isText = false)
    (adds : ∀ growth : Growth, growth.step token = growth.add tree) :
    parse (written ++ rest) = (parse rest).map (tree :: ·) := by
  rw [parse, parse, reads]
  cases tokens rest with
  | error e => rfl
  | ok read =>
    -- The first token puts the tree in front of a forest in which nothing stands yet.
    have start : Growth.Behind tree ⟨[], []⟩ ((⟨[], []⟩ : Growth).step token) := by
      rw [adds]
      exact .top []
    exact congrArg Except.ok (start.foldl solid read).finish

end Templates.Markup

/-! ### Comments for slots -/

namespace Templates.Slot

open Markup

/-- Where pairs of hyphens are replaced from the left, no two hyphens stand in a row afterwards, and
none stands in front unless one stood there before. -/
theorem replaceFrom_hyphens (skip : Nat) (text : Text) :
    ¬ "--".toList <:+: Text.replaceFrom "--".toList "-&#45;".toList skip text ∧
      (skip = 0 → (Text.replaceFrom "--".toList "-&#45;".toList skip text).head? = some '-' →
        text.head? = some '-') := by
  induction text generalizing skip with
  | nil => simp [Text.replaceFrom]
  | cons c rest ih =>
    cases skip with
    | succ skip => exact ⟨(ih skip).1, fun first => absurd first (Nat.succ_ne_zero skip)⟩
    | zero =>
      rw [Text.replaceFrom]
      by_cases pair : Text.startsWith "--".toList (c :: rest) = true
      · -- A pair gives way to characters of which the last one is no hyphen.
        obtain ⟨apart, _⟩ := ih 1
        obtain ⟨_, same⟩ := Text.startsWith_iff.mp pair
        rw [if_pos pair]
        refine ⟨?_, fun _ _ => congrArg List.head? same.symm⟩
        simpa [List.infix_cons_iff] using apart
      · -- A single hyphen stands in front of something else, which no new hyphen replaces.
        obtain ⟨apart, front⟩ := ih 0
        rw [if_neg pair]
        refine ⟨fun within => ?_, fun _ first => first⟩
        obtain here | later := List.infix_cons_iff.mp within
        · obtain ⟨after, same⟩ := here
          obtain ⟨rfl, next⟩ := List.cons.inj same
          have second := front rfl (congrArg List.head? next.symm)
          obtain ⟨more, rfl⟩ := List.head?_eq_some_iff.mp second
          exact pair rfl
        · exact apart later

/-- The text of a comment that stands for markup has no two hyphens in a row. -/
theorem contains_commentText (markup : Text) :
    Text.contains "--".toList (commentText markup) = false := by
  rw [Bool.eq_false_iff, Ne, Text.contains_iff]
  exact (replaceFrom_hyphens 0 markup).1

/-- Where a text holds the end of a comment, it holds two hyphens in a row. -/
theorem contains_end_commentText (markup : Text) :
    Text.contains "-->".toList (commentText markup) = false := by
  rw [Bool.eq_false_iff, Ne, Text.contains_iff]
  intro within
  have pair : "--".toList <:+: "-->".toList := ⟨[], ['>'], rfl⟩
  have free := contains_commentText markup
  rw [Bool.eq_false_iff, Ne, Text.contains_iff] at free
  exact free (pair.trans within)

/-- The comment that stands for some markup. -/
def note (markup : Text) : Tree :=
  .node (.comment (commentText markup)) []

/-- A comment is read by itself, and what follows it as if nothing stood in front. -/
theorem parse_note (markup rest : Text) :
    parse (write (note markup) ++ rest) = (parse rest).map (note markup :: ·) := by
  have reads := readsAs_comment (contains_end_commentText markup) rest
  exact parse_ahead reads rfl fun _ => rfl

open Document

/-- Nodes have given way to comments, and nothing else has changed. -/
structure Noted (d after : Document) (slots : List NodeId) : Prop where
  /-- The links are those of trees. -/
  linked : after.WellLinked
  /-- No node is lost. -/
  grown : d.size ≤ after.size
  /-- Every old node is what it was. -/
  content : ∀ x < d.size, after.content x = d.content x
  /-- Every new node is a comment that stands for some markup. -/
  notes : ∀ x, d.size ≤ x → x < after.size →
    ∃ markup, after.content x = .comment (commentText markup)
  /-- Only the nodes that gave way have lost their places. -/
  parents : ∀ x < d.size, after.parent? x = d.parent? x ∨ x ∈ slots ∧ after.parent? x = none
  /-- None of them is in the tree. -/
  hidden : ∀ slot ∈ slots, after.isAttached slot = false

namespace Noted

variable {d middle after : Document} {first second slots : List NodeId}

/-- Nothing changes as long as the nodes are not in the tree. -/
theorem refl (linked : d.WellLinked) (out : ∀ slot ∈ slots, d.isAttached slot = false) :
    Noted d d slots where
  linked := linked
  grown := Nat.le_refl _
  content _ _ := rfl
  notes _ new there := absurd there (Nat.not_lt_of_le new)
  parents _ _ := .inl rfl
  hidden := out

/-- A link that is there afterwards was there before. -/
theorem up (noted : Noted d after slots) {x next : NodeId} (there : x < d.size)
    (step : after.Up x next) : d.Up x next := by
  obtain same | ⟨_, none⟩ := noted.parents x there
  · exact same.symm.trans step
  · rw [Up, none] at step
    cases step

/-- What is above an old node afterwards was above it before. -/
theorem under (linked : d.WellLinked) (noted : Noted d after slots) {top x : NodeId}
    (there : x < d.size) (under : after.Under top x) : d.Under top x := by
  induction under using Relation.ReflTransGen.head_induction_on with
  | refl => exact .refl
  | @head x next step _ ih =>
    have before := noted.up there step
    exact .head before (ih (linked.lt_size ((linked.agree next x).mp before)).2)

/-- Nodes give way one after the other. -/
theorem trans (early : Noted d middle first)
    (late : Noted middle after second) (known : ∀ slot ∈ first, slot < d.size) :
    Noted d after (first ++ second) where
  linked := late.linked
  grown := Nat.le_trans early.grown late.grown
  content x there := by
    rw [late.content x (Nat.lt_of_lt_of_le there early.grown), early.content x there]
  notes x new there := by
    by_cases before : x < middle.size
    · rw [late.content x before]
      exact early.notes x new before
    · exact late.notes x (Nat.le_of_not_lt before) there
  parents x there := by
    obtain same | ⟨listed, none⟩ := late.parents x (Nat.lt_of_lt_of_le there early.grown)
    · rw [same]
      exact (early.parents x there).imp_right (And.imp_left (List.mem_append_left second))
    · exact .inr ⟨List.mem_append_right _ listed, none⟩
  hidden slot listed := by
    obtain listed | listed := List.mem_append.mp listed
    · -- What has left the tree does not come back.
      have out := early.hidden slot listed
      have there := Nat.lt_of_lt_of_le (known slot listed) early.grown
      rw [Bool.eq_false_iff, Ne] at out ⊢
      rw [early.linked.isAttached_iff] at out
      rw [late.linked.isAttached_iff]
      exact fun within => out (late.under early.linked there within)
    · exact late.hidden slot listed

/-- A node in the tree gives way to a new comment. -/
theorem step (linked : d.WellLinked) {slot : NodeId} (other : slot ≠ root)
    (attached : d.isAttached slot = true) (markup : Text) :
    Noted d ((d.create (.comment (commentText markup))).2.replaceWith slot [d.size]) [slot] := by
  -- A node in the tree that is not the root has another one above it.
  obtain ⟨parent, up⟩ : ∃ parent, d.parent? slot = some parent := by
    have within := linked.isAttached_iff.mp attached
    obtain same | ⟨parent, up, _⟩ := Relation.ReflTransGen.cases_head within
    · exact absurd same other
    · exact ⟨parent, up⟩
  obtain ⟨slotThere, parentThere⟩ := linked.lt_size ((linked.agree parent slot).mp up)
  have adds := Adds.create (.comment (commentText markup)) d
  have linkedNew := linked.create (.comment (commentText markup))
  have size : (d.create (.comment (commentText markup))).2.size = d.size + 1 := Array.size_push _
  generalize (d.create (.comment (commentText markup))).2 = grown at adds linkedNew size ⊢
  have old {x : NodeId} (there : x < d.size) : grown.parent? x = d.parent? x := by
    rw [parent?, parent?, adds.same x there]
  -- Nothing is below the comment.
  have apart : ¬ grown.Under d.size parent := by
    intro under
    obtain same | ⟨below, _, step⟩ := Relation.ReflTransGen.cases_tail under
    · exact Nat.lt_irrefl _ (same ▸ parentThere)
    · have childless : grown.children d.size = [] := by
        rw [children, adds.stands.1]
        rfl
      have listed := (linkedNew.agree d.size below).mp step
      rw [childless] at listed
      cases listed
  have gave : GaveWay grown (grown.replaceWith slot [d.size]) slot parent [d.size] :=
    linkedNew.gaveWay ((old slotThere).trans up) (by simp [size]) (by simpa using apart)
  refine ⟨gave.linked, ?_, fun x there => ?_, fun x new there => ?_, fun x there => ?_, ?_⟩
  · rw [gave.relinked.size, size]
    exact Nat.le_succ _
  · rw [gave.relinked.content, Document.content, Document.content, adds.same x there]
  · -- The only new node is the comment.
    rw [gave.relinked.size, size] at there
    obtain rfl : x = d.size := by omega
    refine ⟨markup, ?_⟩
    rw [gave.relinked.content, Document.content, adds.stands.1]
  · rw [gave.parents x, old there]
    by_cases same : x = slot
    · exact .inr ⟨List.mem_singleton.mpr same, if_pos same⟩
    · have notNew : x ∉ [d.size] := by
        rw [List.mem_singleton]
        omega
      exact .inl (by rw [if_neg same, if_neg notNew])
  · intro x listed
    obtain rfl := List.mem_singleton.mp listed
    rw [Bool.eq_false_iff, Ne, gave.linked.isAttached_iff]
    intro within
    -- Nothing is above the node any more.
    obtain same | ⟨next, step, _⟩ := Relation.ReflTransGen.cases_head within
    · exact other same
    · rw [Up, gave.parents, if_pos rfl] at step
      cases step

/-- An old node is in the tree afterwards exactly if it was before and is in none of the nodes that
gave way. -/
theorem isAttached_iff (linked : d.WellLinked) (rooted : d.parent? root = none)
    (noted : Noted d after slots) {x : NodeId} (there : x < d.size) :
    after.isAttached x = true ↔ d.isAttached x = true ∧ ∀ slot ∈ slots, ¬ d.Under slot x := by
  rw [noted.linked.isAttached_iff, linked.isAttached_iff]
  constructor
  · intro within
    refine ⟨noted.under linked there within, fun slot listed under => ?_⟩
    -- The node that gave way would be on the way up to the root, and so in the tree.
    have out := noted.hidden slot listed
    rw [Bool.eq_false_iff, Ne, noted.linked.isAttached_iff] at out
    refine out ?_
    clear out
    induction within using Relation.ReflTransGen.head_induction_on with
    | refl =>
      obtain same | ⟨next, step, _⟩ := Relation.ReflTransGen.cases_head under
      · rw [← same]
        exact .refl
      · rw [Up, rooted] at step
        cases step
    | @head x next step rest ih =>
      have before := noted.up there step
      obtain rfl | ⟨next', step', under⟩ := Relation.ReflTransGen.cases_head under
      · exact .head step rest
      · obtain rfl := Option.some.inj (before.symm.trans step')
        exact ih (linked.lt_size ((linked.agree next x).mp before)).2 under
  · rintro ⟨within, apart⟩
    refine (under_congr (fun y above => ?_) root).mpr within
    -- What is above an old node is old, and is none of the nodes that gave way.
    have yThere : y < d.size := by
      obtain same | ⟨below, _, step⟩ := Relation.ReflTransGen.cases_tail above
      · exact same ▸ there
      · exact (linked.lt_size ((linked.agree y below).mp step)).2
    obtain same | ⟨listed, _⟩ := noted.parents y yThere
    · exact same
    · exact absurd above (apart y listed)

end Noted

/-- Placeholders that were not filled have given way to comments when all of them have been seen. -/
theorem noted_commentOut {d : Document} (linked : d.WellLinked) {slots : List Placeholder}
    (known : ∀ slot ∈ unfilled slots, slot < d.size ∧ slot ≠ root) :
    Noted d (commentOut slots d) (unfilled slots) := by
  induction slots generalizing d with
  | nil => exact .refl linked fun _ listed => nomatch listed
  | cons first rest ih =>
    obtain ⟨slot, filled⟩ := first
    rw [commentOut]
    cases filled with
    | true => exact ih linked known
    | false =>
      obtain ⟨⟨there, other⟩, later⟩ := List.forall_mem_cons.mp known
      have one : ∀ x ∈ [slot], x < d.size := by simpa using there
      cases attached : d.isAttached slot with
      | false =>
        -- The slot went with another one, and stays out of the tree.
        have out : Noted d d [slot] := .refl linked (by simpa using attached)
        exact out.trans (ih linked later) one
      | true =>
        have gave := Noted.step linked other attached (d.outer slot)
        refine gave.trans (ih gave.linked fun x listed => ?_) one
        exact ⟨Nat.lt_of_lt_of_le (later x listed).1 gave.grown, (later x listed).2⟩

/-- No part of a slot that was not filled comes to life: the text of the comment that stands for it
holds no two hyphens in a row, the comment is read as one node wherever it stands, with what follows
it read as if nothing stood in front, and in the document the slot and all that is below it are out
of the tree, where only such comments are new. -/
theorem commentOut_hides :
    (∀ markup, Text.contains "--".toList (commentText markup) = false) ∧
    (∀ markup rest,
      Markup.parse (write (.node (.comment (commentText markup)) []) ++ rest) =
        (Markup.parse rest).map (.node (.comment (commentText markup)) [] :: ·)) ∧
    ∀ (d : Document) (slots : List Placeholder), d.WellLinked → d.parent? root = none →
      (∀ slot ∈ unfilled slots, slot < d.size ∧ slot ≠ root) →
      (∀ x < d.size, (commentOut slots d).content x = d.content x ∧
        ((commentOut slots d).isAttached x = true ↔
          d.isAttached x = true ∧ ∀ slot ∈ unfilled slots, ¬ d.Under slot x)) ∧
      ∀ x, d.size ≤ x → x < (commentOut slots d).size →
        ∃ markup, (commentOut slots d).content x = .comment (commentText markup) := by
  refine ⟨contains_commentText, parse_note, fun d slots linked rooted known => ?_⟩
  have noted := noted_commentOut linked known
  exact ⟨fun x there => ⟨noted.content x there, noted.isAttached_iff linked rooted there⟩,
    noted.notes⟩

/-- A card with a slot for a hint that holds a comment and a custom tag, and a paragraph. -/
def hintedCard : Document :=
  .ofForest [.node (.element ⟨"div".toList, [], false⟩)
    [.node (.element ⟨"slot".toList, [.valued "name".toList "hint".toList], false⟩)
        [.node (.comment " hint -".toList) [],
          .node (.element ⟨"app-icon".toList, [], false⟩) []],
      .node (.element ⟨"p".toList, [], false⟩) []]]

/-- The comment and the custom tag go with the slot, and the paragraph stays. -/
theorem commentOut_hides_hint :
    (hintedCard.parent? root = none ∧ unfilled [(2, false)] = [2] ∧ hintedCard.Under 2 4) ∧
      ((commentOut [(2, false)] hintedCard).isAttached 4 = false ∧
        (commentOut [(2, false)] hintedCard).isAttached 5 = true) ∧
      (commentOut [(2, false)] hintedCard).markup =
        ("<div><!--<slot name=\"hint\"><!-&#45; hint -&#45;-><app-icon></app-icon></slot>-->" ++
          "<p></p></div>").toList := by
  have known : ∀ slot ∈ unfilled [(2, false)], slot < hintedCard.size ∧ slot ≠ root := by decide
  have linked : hintedCard.WellLinked := .ofForest _
  have below : hintedCard.Under 2 4 := .single rfl
  obtain ⟨old, _⟩ := commentOut_hides.2.2 hintedCard [(2, false)] linked rfl known
  refine ⟨⟨rfl, rfl, below⟩, ⟨?_, ?_⟩, by decide +kernel⟩
  · rw [Bool.eq_false_iff, Ne, (old 4 (by decide)).2]
    exact fun within => within.2 2 List.mem_cons_self below
  · rw [(old 5 (by decide)).2]
    refine ⟨by decide, fun slot listed under => ?_⟩
    -- Above the paragraph there are only the card and the root.
    obtain rfl : slot = 2 := List.mem_singleton.mp listed
    have leads : hintedCard.Leads 5 [1, root] := ⟨rfl, rfl, rfl⟩
    exact absurd (leads.mem_of_under rfl under) (by decide)

end Templates.Slot
