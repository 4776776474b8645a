import Mathlib.Logic.Relation
import Templates.Proofs.Markup.Cursor.Token
import Templates.Proofs.Markup.Draft
import Templates.Proofs.Markup.Shape

/-!
A document is made in one pass over its source.

The cursor, the open elements and the nodes change together, token by token. At each moment the
cursor is at the boundary of a character, the nodes are a document of the shape of markup, and the
open elements are the way up from where the next node goes.
-/

namespace Templates.Markup.Cursor

open Document (root)
open Text (from?)

/-- A cursor, and the document that has been made of what is behind it. -/
structure Reader where
  position : Nat
  draft : Draft
deriving DecidableEq, Repr

namespace Reader

/-- A cursor at the front of a source. -/
def start : Reader :=
  ⟨0, .empty, []⟩

/-- One token further, if it can be told. -/
def advance (source : Text) (reader : Reader) : Option Reader := do
  let (token, next) ← Cursor.token source reader.position
  return ⟨next, reader.draft.step token⟩

/-- Token by token up to the end of the source; the first argument bounds the number of tokens. -/
def run (source : Text) : Nat → Reader → Option Reader
  | 0, _ => none
  | fuel + 1, reader =>
    if reader.position < Text.bytes source then (reader.advance source).bind (run source fuel)
    else some reader

/-- The document that is made in one pass over a source, of no more tokens than there are bytes. -/
def document (source : Text) : Option Document :=
  (start.run source (Text.bytes source + 1)).map (·.draft.document)

/-- One round leads from a reader to another one. -/
def Round (source : Text) (before after : Reader) : Prop :=
  before.position < Text.bytes source ∧ before.advance source = some after

/-- A reader that comes up in the pass over a source. -/
def Reached (source : Text) : Reader → Prop :=
  Relation.ReflTransGen (Round source) start

variable {source text : Text} {reader : Reader}

/-- The tokens on the way are those of the source, and each of them is one step further. -/
theorem run_eq (source : Text) (fuel : Nat) (reader : Reader) :
    (run source fuel reader).map draft =
      (tokensFrom source fuel reader.position).map fun list =>
        list.foldl Draft.step reader.draft := by
  induction fuel generalizing reader with
  | zero => rfl
  | succ fuel ih =>
    rw [run, tokensFrom]
    split
    · rw [advance]
      cases Cursor.token source reader.position with
      | none => rfl
      | some read =>
        obtain ⟨token, next⟩ := read
        have later := ih ⟨next, reader.draft.step token⟩
        simp only [Option.bind_eq_bind, Option.bind_some, Option.pure_def, later]
        cases tokensFrom source fuel next <;> rfl
    · rfl

/-- From the same forest on, the same tokens lead to the same document. -/
theorem foldl_step_draft (list : List Token) (growth : Growth) :
    list.foldl Draft.step growth.draft = (list.foldl Growth.step growth).draft := by
  induction list generalizing growth with
  | nil => rfl
  | cons token list ih => rw [List.foldl_cons, List.foldl_cons, Draft.step_draft, ih]

/-- One pass makes the document of a source. -/
theorem document_eq (source : Text) : document source = (Document.parse source).toOption := by
  have pass := run_eq source (Text.bytes source + 1) start
  have begun : start.draft = Growth.draft ⟨[], []⟩ := rfl
  rw [document, ← parse_eq, Cursor.parse, tokens]
  have parts : (start.run source (Text.bytes source + 1)).map (·.draft.document) =
      ((start.run source (Text.bytes source + 1)).map draft).map Draft.document := by
    rw [Option.map_map]
    rfl
  rw [parts, pass, Option.map_map]
  congr 1
  funext list
  rw [Function.comp_apply, begun, foldl_step_draft]
  rfl

/-- A pass ends behind the last token. -/
theorem reached_of_run {fuel : Nat} {after : Reader} (ran : reader.run source fuel = some after) :
    Relation.ReflTransGen (Round source) reader after ∧ Text.bytes source ≤ after.position := by
  induction fuel generalizing reader with
  | zero => cases ran
  | succ fuel ih =>
    rw [run] at ran
    split at ran
    · rename_i more
      obtain ⟨next, step, rest⟩ := Option.bind_eq_some_iff.mp ran
      obtain ⟨reached, done⟩ := ih rest
      exact ⟨.head ⟨more, step⟩ reached, done⟩
    · rename_i done
      cases ran
      exact ⟨.refl, Nat.le_of_not_lt done⟩

/-- A reader has made a growth of what is behind it, and has a text in front of it whose tokens can
be told. -/
structure Reads (source text : Text) (growth : Growth) (reader : Reader) : Prop where
  boundary : from? reader.position source = some text
  draft : reader.draft = growth.draft
  formed : growth.Formed
  ahead : ∃ list, Markup.tokens text = .ok list

/-- Where a text has tokens, there is a first one, and the text behind it has tokens. -/
theorem next_of_tokens {c : Char} {list : List Token} (all : Markup.tokens (c :: text) = .ok list) :
    ∃ token rest others, Token.next c text = .ok (token, rest) ∧
      Markup.tokens rest = .ok others := by
  cases next : Token.next c text with
  | error error =>
    rw [Markup.tokens, Token.tokensFrom, next] at all
    cases all
  | ok pair =>
    obtain ⟨token, rest⟩ := pair
    obtain ⟨front, rfl⟩ := Token.suffix_of_next next
    rw [Token.tokens_of_next next] at all
    cases later : Markup.tokens rest with
    | error error =>
      rw [later] at all
      cases all
    | ok others => exact ⟨token, rest, others, rfl, later⟩

/-- In a round the cursor moves forward over a token, and stays in the source. -/
theorem Reads.advance {growth : Growth} (reads : Reads source text growth reader)
    (more : reader.position < Text.bytes source) :
    ∃ after rest growth, reader.advance source = some after ∧ reader.position < after.position ∧
      after.position ≤ Text.bytes source ∧ Reads source rest growth after := by
  obtain ⟨boundary, draft, formed, list, all⟩ := reads
  have before := Text.bytes_of_from? boundary
  cases text with
  | nil =>
    rw [Text.bytes_nil] at before
    omega
  | cons c text =>
    obtain ⟨token, rest, others, next, later⟩ := next_of_tokens all
    have read := token_gives boundary
    rw [next] at read
    generalize seen : Cursor.token source reader.position = result at read
    cases read with
    | @token _ _ position behind =>
      -- What is left of the source is shorter by the token.
      obtain ⟨front, rfl⟩ := Token.suffix_of_next next
      have after := Text.bytes_of_from? behind
      have filled := c.utf8Size_pos
      rw [Text.bytes_cons, Text.bytes_append] at before
      have step : reader.advance source = some ⟨position, reader.draft.step token⟩ := by
        rw [Reader.advance, seen]
        rfl
      have forward : reader.position < position := by omega
      have inside : position ≤ Text.bytes source := by omega
      refine ⟨_, rest, growth.step token, step, forward, inside, behind, ?_, ?_, others, later⟩
      · rw [draft, Draft.step_draft]
      · exact formed.step (Token.formed_of_next next)

/-- All that comes up in a pass has read a part of the source, and can read the rest. -/
theorem Reached.reads {list : List Token} (all : Markup.tokens source = .ok list)
    (reached : Reached source reader) : ∃ text growth, Reads source text growth reader := by
  induction reached with
  | refl =>
    have nothing : Growth.Formed ⟨[], []⟩ := ⟨trivial, fun _ listed => nomatch listed⟩
    exact ⟨source, ⟨[], []⟩, Text.from?_zero source, rfl, nothing, list, all⟩
  | @tail before after _ round ih =>
    obtain ⟨more, step⟩ := round
    obtain ⟨text, growth, reads⟩ := ih
    obtain ⟨found, rest, growth, advanced, _, _, reads⟩ := reads.advance more
    obtain rfl : after = found := Option.some.inj (step.symm.trans advanced)
    exact ⟨rest, growth, reads⟩

/-- What holds of a reader between two rounds. -/
structure Sound (source : Text) (reader : Reader) : Prop where
  /-- The cursor is at the boundary of a character. -/
  boundary : ∃ rest, from? reader.position source = some rest
  /-- The nodes have the shape of markup. -/
  shaped : reader.draft.document.Shaped
  /-- The open elements are the way up from where the next node goes. -/
  leads : reader.draft.document.Leads reader.draft.place (reader.draft.opened ++ [root]).tail
  /-- Each of them is an element that can have children. -/
  holds : ∀ id ∈ reader.draft.opened, ∃ e, reader.draft.document.element? id = some e ∧
    e.isShort = false ∧ isRaw e.name = false

/-- Whatever has grown from tokens is sound. -/
theorem Reads.sound {growth : Growth} (reads : Reads source text growth reader) :
    reader.Sound source := by
  obtain ⟨boundary, draft, formed, _⟩ := reads
  refine ⟨⟨text, boundary⟩, ?_, ?_, ?_⟩
  · rw [draft]
    exact .ofForest (formedAll_reverse (formed.close _).inner)
  · rw [draft]
    exact Growth.place_draft growth.inner growth.opened ▸ Growth.leads_numbers _ _
  · rw [draft]
    intro id listed
    have elements := Growth.map_element_numbers growth.inner growth.opened
    have found : growth.draft.document.element? id ∈ growth.opened.map fun frame => some frame.1 :=
      elements ▸ List.mem_map_of_mem listed
    obtain ⟨frame, inside, same⟩ := List.mem_map.mp found
    obtain ⟨_, long, notRaw, _⟩ := formed.opened frame inside
    exact ⟨frame.1, same.symm, long, notRaw⟩

/-- A source is read round by round. The cursor moves forward in each of them, so that the pass
comes to an end, and all documents on the way have the shape of markup: the links are those of one
tree with all nodes in it, numbered in document order, in which nothing is below an element without
an end tag, one text at most is in an element with raw content, and no text is empty or comes right
behind another one. The last of them is the document of the source. -/
theorem rounds_of_parse {d : Document} (read : Document.parse source = .ok d) :
    (∃ last, start.run source (Text.bytes source + 1) = some last ∧ Reached source last ∧
      last.position = Text.bytes source ∧ last.draft.document = d) ∧
    (∀ reader, Reached source reader → reader.Sound source ∧
      (reader.position < Text.bytes source → ∃ after, reader.advance source = some after ∧
        reader.position < after.position ∧ after.position ≤ Text.bytes source)) ∧
    d.Shaped := by
  obtain ⟨list, all⟩ : ∃ list, Markup.tokens source = .ok list := by
    cases all : Markup.tokens source with
    | error error =>
      rw [Document.parse, Markup.parse, all] at read
      cases read
    | ok list => exact ⟨list, rfl⟩
  have sound (reader : Reader) (reached : Reached source reader) : reader.Sound source := by
    obtain ⟨_, _, reads⟩ := reached.reads all
    exact reads.sound
  have pass := document_eq source
  rw [read] at pass
  obtain ⟨last, ran, made⟩ := Option.map_eq_some_iff.mp pass
  obtain ⟨reached, done⟩ := reached_of_run ran
  refine ⟨⟨last, ran, reached, ?_, made⟩, fun reader reached => ⟨sound reader reached, ?_⟩, ?_⟩
  · -- The cursor does not leave the source.
    obtain ⟨rest, boundary⟩ := (sound last reached).boundary
    have bound := Text.bytes_of_from? boundary
    omega
  · intro more
    obtain ⟨_, _, reads⟩ := reached.reads all
    obtain ⟨after, _, _, step, forward, inside, _⟩ := reads.advance more
    exact ⟨after, step, forward, inside⟩
  · exact made ▸ (sound last reached).shaped

/-- A list that is closed by one end tag, and a line break and a title behind it. -/
def closedSource : Text :=
  "<ul><li>a<b>c</ul> < <br><title><i></title></p>".toList

/-- The end tag closes three elements at once, a bracket behind it is text, and so is what is in the
title. -/
def closedList : Document :=
  .ofForest [.node (.element ⟨"ul".toList, [], false⟩)
      [.node (.element ⟨"li".toList, [], false⟩) [.node (.text "a".toList) [],
        .node (.element ⟨"b".toList, [], false⟩) [.node (.text "c".toList) []]]],
    .node (.text " < ".toList) [], .node (.element ⟨"br".toList, [], false⟩) [],
    .node (.element ⟨"title".toList, [], false⟩) [.node (.text "<i>".toList) []]]

/-- The list is read in one pass. -/
theorem rounds_of_closedSource :
    Document.parse closedSource = .ok closedList ∧
    (∃ last, start.run closedSource (Text.bytes closedSource + 1) = some last ∧
      last.position = Text.bytes closedSource ∧ last.draft.document = closedList) ∧
    closedList.Shaped ∧ closedList.descendants root = [1, 2, 3, 4, 5, 6, 7, 8, 9] := by
  have read : Document.parse closedSource = .ok closedList := rfl
  obtain ⟨⟨last, ran, _, position, made⟩, _, shaped⟩ := rounds_of_parse read
  have size : closedList.size = 10 := rfl
  have ordered := shaped.ordered
  rw [size] at ordered
  exact ⟨read, ⟨last, ran, position, made⟩, shaped, ordered⟩

end Reader

end Templates.Markup.Cursor
