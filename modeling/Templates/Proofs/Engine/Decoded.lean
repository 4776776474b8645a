import Templates.Proofs.Component.Used
import Templates.Proofs.Directive.Idle
import Templates.Proofs.Engine.Identity

/-!
The addresses of a component that is used inside of other components.

The template of a component is compiled before its markup is put into a page, and addresses are
decoded each time a tag gives way. So an address is decoded once for each component around it.
-/

namespace Templates

open Markup

namespace Url

/-- The first attribute of a name is the one that has been decoded. -/
theorem attribute?_decodeElement (name : Text) (e : Element) :
    (decodeElement e).attribute? name = (e.attribute? name).map decodeAttribute := by
  have kept (a : Attribute) : (decodeAttribute a).name = a.name := by
    unfold decodeAttribute
    split <;> rfl
  have same : (fun a => Text.sameName (decodeAttribute a).name name) =
      fun a => Text.sameName a.name name := funext fun a => by rw [kept]
  rw [Element.attribute?, decodeElement, List.find?_map]
  exact congrArg (fun test => (e.attributes.find? test).map decodeAttribute) same

/-- The value of an attribute that holds an address is decoded. -/
theorem text_decodeAttribute {a : Attribute} (address : isAttribute a.name = true) :
    (decodeAttribute a).text = decode a.text := by
  rw [decodeAttribute, if_pos address]
  cases value : a.value with
  | none => simp only [Attribute.text, value]; rfl
  | some text => simp only [Attribute.text, value]; rfl

/-- Attributes of one name in letters of any case hold addresses alike. -/
theorem isAttribute_congr {name other : Text} (same : Text.sameName name other = true) :
    isAttribute name = isAttribute other := by
  have lower : Text.asciiLower name = Text.asciiLower other := of_decide_eq_true same
  simp only [isAttribute, Text.sameName, lower]

/-- An address of an element that is decoded some number of times is decoded as often. -/
theorem attribute?_iterate {name : Text} (address : isAttribute name = true) (count : Nat)
    (e : Element) :
    ((decodeElement^[count] e).attribute? name).map Attribute.text =
      (e.attribute? name).map fun a => decode^[count] a.text := by
  induction count generalizing e with
  | zero => rfl
  | succ count ih =>
    rw [Function.iterate_succ_apply, ih, attribute?_decodeElement, Option.map_map]
    cases found : e.attribute? name with
    | none => rfl
    | some a =>
      -- The attribute that is found holds an address as well.
      have first : e.attributes.find? (fun a => Text.sameName a.name name) = some a := found
      have named := List.find?_some first
      have own := text_decodeAttribute ((isAttribute_congr named).trans address)
      simp [own]

end Url

namespace Markup

/-- An element is decoded with what is below it, however often. -/
theorem iterate_decodedAll (count : Nat) (e : Element) (below : List Tree) :
    decodedAll^[count] [.node (.element e) below] =
      [.node (.element (Url.decodeElement^[count] e)) (decodedAll^[count] below)] := by
  induction count generalizing e below with
  | zero => rfl
  | succ count ih =>
    rw [Function.iterate_succ_apply, Function.iterate_succ_apply, Function.iterate_succ_apply]
    exact ih (Url.decodeElement e) (decodedAll below)

end Markup

namespace Slot

/-- Places in each other, the outermost one first. What is around an inner place is decoded with it
when it comes into the next one. -/
def surrounding : List Around → Around
  | [] => .here [] []
  | around :: inner => around.within (surrounding inner).decoded

/-- Trees in the outermost place are those of the others, which are decoded there. -/
theorem plug_surrounding (around : Around) (inner : List Around) (count : Nat)
    (trees : List Tree) :
    (surrounding (around :: inner)).plug (decodedAll^[count + 1] trees) =
      around.plug (decodedAll ((surrounding inner).plug (decodedAll^[count] trees))) := by
  rw [surrounding, Around.plug_within, Function.iterate_succ_apply', Around.decodedAll_plug]

/-- Trees in a single place. -/
theorem plug_surrounding_single (around : Around) (trees : List Tree) :
    (surrounding [around]).plug trees = around.plug trees := by
  rw [surrounding, Around.plug_within]
  simp [surrounding, Around.decoded, Around.plug, decodedAll]

end Slot

namespace Workshop

/-- Markup that is read as it is written, and in which nothing is taken away or rewritten. -/
structure IsStatic (workshop : Workshop) (trees : List Tree) : Prop where
  read : Markup.parse (writeAll trees) = .ok trees
  whole : Slot.unwrapped trees = trees
  plain : ∀ e ∈ elementsAll trees,
    workshop.expander.isCustom e = false ∧ e.isNamed "slot" = false
  unbraced : Echo.compile (writeAll trees) = writeAll trees
  idle : workshop.directives.isIdle (writeAll trees) = true
  untagged : Text.contains "<%".toList (writeAll trees) = false

/-- A source without comments that layouts or components take care of. -/
structure IsUncommented (workshop : Workshop) (source : Text) : Prop where
  noInclude : Text.hits (Text.scan Layout.includeRule source) = []
  noBlock : Text.hits (Text.scan Layout.blockRule source) = []
  noYield : Text.hits (Text.scan Layout.yieldRule source) = []
  noCommented : Text.hits (Text.scan workshop.expander.commentedRule source) = []

/-- A source in which trees stand, or else a tag for whose component the source of another one is
the template, and so on: the tags from the outermost to the innermost, the source, and what is
around each tag and at last around the trees. All markup is static, apart from the tags. -/
inductive Nests (workshop : Workshop) : List Text → Text → List Slot.Around → List Tree → Prop
  | own {around : Slot.Around} {trees : List Tree}
      (uncommented : workshop.IsUncommented (writeAll (around.plug trees)))
      (static : workshop.IsStatic (around.plug trees)) :
      Nests workshop [] (writeAll (around.plug trees)) [around] trees
  | use {tags : List Text} {blueprint : Blueprint} {inner : List Slot.Around} {trees : List Tree}
      {tag : Text} {around : Slot.Around} {e : Element}
      (nested : Nests workshop tags blueprint.text inner trees)
      (found : workshop.blueprint false tag = .ok blueprint) (new : tag ∉ tags)
      (uses : workshop.expander.Uses tag e)
      (uncommented : workshop.IsUncommented (writeAll (around.plug [.node (.element e) []])))
      (read : Markup.parse (writeAll (around.plug [.node (.element e) []])) =
        .ok (around.plug [.node (.element e) []]))
      (static : workshop.IsStatic
        ((Slot.surrounding (around :: inner)).plug (decodedAll^[tags.length + 1] trees))) :
      Nests workshop (tag :: tags) (writeAll (around.plug [.node (.element e) []]))
        (around :: inner) trees

variable {workshop : Workshop} {source : Text}

/-- A source is compiled to what the expander makes of it, if nothing is rewritten there. -/
theorem IsUncommented.compileWith (uncommented : workshop.IsUncommented source)
    (deep : 0 < workshop.config.maxDepth) {renderer : ComponentRenderer TagStack}
    {before after : TagStack} {trees : List Tree}
    (expanded : Session.Runs (workshop.expander.expand renderer source) before (writeAll trees)
      after) (static : workshop.IsStatic trees) (origin : Text) :
    Session.Runs (workshop.compileWith renderer source origin) before (writeAll trees) after := by
  have resolved := Layout.resolve_plain workshop.files deep uncommented.noInclude
    uncommented.noBlock uncommented.noYield origin
  have directed := Directives.compile_of_isIdle static.idle deep
  rw [Workshop.compileWith, resolved]
  refine Session.runs_bind.mpr ⟨source, before, rfl, Session.runs_bind.mpr ⟨_, after, expanded, ?_⟩⟩
  rw [static.unbraced, directed]
  rfl

/-- No comment of a source is taken away. -/
theorem IsUncommented.kept (uncommented : workshop.IsUncommented source) :
    workshop.expander.withoutCommented source = source := by
  have passes := Text.hits_scan_eq_nil_iff.mp uncommented.noCommented
  rw [Expander.withoutCommented, passes.scan_alone, Text.replaceHits_plain]

/-- The page of a template is what it compiles to, if that is static. -/
theorem page_runs {depth : Nat} {tag : Text} {blueprint : Blueprint} {stack : TagStack}
    {trees : List Tree} (new : tag ∉ stack) (room : stack.length < workshop.config.maxDepth)
    (compiled : Session.Runs (workshop.compileWith (workshop.answer (workshop.page depth))
      blueprint.text blueprint.origin) (tag :: stack) (writeAll trees) (tag :: stack))
    (static : workshop.IsStatic trees) (data : Data) :
    Session.Runs (workshop.page (depth + 1) tag blueprint data) stack (writeAll trees) stack := by
  have rendered := render_untagged static.untagged workshop.config.maxLoopIterations
    (blueprint.data data)
  have inner : Session.Runs (inside tag (workshop.compileWith
      (workshop.answer fun tag blueprint data => workshop.page depth tag blueprint data)
      blueprint.text blueprint.origin)) stack (writeAll trees) stack := by
    show (let answer := (workshop.compileWith (workshop.answer (workshop.page depth))
      blueprint.text blueprint.origin).run (tag :: stack); (answer.1, answer.2.tail)) = _
    unfold Session.Runs at compiled
    rw [compiled]
    rfl
  rw [page]
  refine Session.runs_bind.mpr ⟨stack, stack, rfl, ?_⟩
  rw [if_neg (by simpa using new), if_neg (Nat.not_le.mpr room)]
  refine Session.runs_bind.mpr ⟨_, stack, inner, ?_⟩
  rw [rendered]
  rfl

/-- All trees that a source stands for, down to those in the innermost place, are static. -/
theorem Nests.static {tags : List Text} {places : List Slot.Around} {trees : List Tree}
    (nests : workshop.Nests tags source places trees) :
    workshop.IsStatic ((Slot.surrounding places).plug (decodedAll^[tags.length] trees)) := by
  cases nests with
  | own _ static => rwa [Slot.plug_surrounding_single]
  | use _ _ _ _ _ _ static => exact static

/-- A source is compiled to its trees, each part of them decoded as often as it has come into another
place. -/
theorem Nests.compileWith {tags : List Text} {places : List Slot.Around} {trees : List Tree}
    (nests : workshop.Nests tags source places trees) (room : 0 < workshop.expander.maxDepth)
    (deep : 0 < workshop.config.maxDepth) (depth : Nat) (enough : tags.length ≤ depth)
    (stack : TagStack) (apart : ∀ tag ∈ tags, tag ∉ stack)
    (low : stack.length + tags.length ≤ workshop.config.maxDepth) (origin : Text) :
    Session.Runs (workshop.compileWith (workshop.answer (workshop.page depth)) source origin) stack
      (writeAll ((Slot.surrounding places).plug (decodedAll^[tags.length] trees))) stack := by
  induction nests generalizing depth stack origin with
  | @own around trees uncommented static =>
    rw [Slot.plug_surrounding_single]
    exact uncommented.compileWith deep (Expander.expand_static static.read uncommented.kept
      fun e listed => (static.plain e listed).1) static origin
  | @use tags blueprint inner trees tag around e nested found new uses uncommented read static ih =>
    obtain ⟨depth, rfl⟩ := Nat.exists_eq_add_one.mpr (Nat.lt_of_lt_of_le (Nat.succ_pos _) enough)
    simp only [List.length_cons] at enough low
    obtain ⟨tagNew, tagsNew⟩ := List.forall_mem_cons.mp apart
    -- The template of the tag is compiled inside of the tag.
    have apart' : ∀ other ∈ tags, other ∉ tag :: stack := by
      intro other listed within
      obtain rfl | within := List.mem_cons.mp within
      · exact new listed
      · exact tagsNew other listed within
    have low' : (tag :: stack).length + tags.length ≤ workshop.config.maxDepth := by
      rw [List.length_cons]
      omega
    have template := ih depth (by omega) (tag :: stack) apart' low' blueprint.origin
    have inside := nested.static
    have page := page_runs tagNew (by omega) template inside (Call.properties ⟨tag, []⟩)
    have answered : Session.Runs (workshop.answer (workshop.page (depth + 1)) ⟨tag, []⟩) stack
        ⟨writeAll ((Slot.surrounding inner).plug (decodedAll^[tags.length] trees)),
          blueprint.hidden⟩ stack := by
      refine Session.runs_bind.mpr ⟨blueprint, stack, ?_, Session.runs_bind.mpr
        ⟨_, stack, page, Session.runs_pure.mpr ⟨rfl, rfl⟩⟩⟩
      rw [found]
      rfl
    -- What is around the tag is also around what takes its place.
    have alone : ∀ other ∈ around.elements, workshop.expander.isCustom other = false := by
      intro other listed
      refine (static.plain other ?_).1
      rw [Slot.plug_surrounding]
      exact Slot.Around.mem_elementsAll_plug.mpr (.inl listed)
    have expanded := uses.expand room read uncommented.kept alone answered inside.read inside.whole
      inside.plain
    rw [← Slot.plug_surrounding] at expanded
    exact uncommented.compileWith deep expanded static origin

/-- An element in the template of a component comes into a page with each of its addresses decoded
once for each component that the page is from the element: once if the page uses the component
itself, and once more for every component that it is used inside of. So it comes with the same
address from inside of others as from the page itself exactly if the address stays when it is decoded
a second time. -/
theorem compile_decodes_nested {tags : List Text} {places : List Slot.Around} {e : Element}
    {below : List Tree}
    (nests : workshop.Nests tags source places [.node (.element e) below])
    (room : 0 < workshop.expander.maxDepth) (deep : 0 < workshop.config.maxDepth)
    (low : tags.length ≤ workshop.config.maxDepth) (origin : Text) :
    ∃ page : List Tree, workshop.compile source origin = .ok (writeAll page) ∧
      (∀ limit data, render limit (writeAll page) data = .ok (writeAll page)) ∧
      Markup.parse (writeAll page) = .ok page ∧
      page = (Slot.surrounding places).plug
        [.node (.element (Url.decodeElement^[tags.length] e)) (decodedAll^[tags.length] below)] ∧
      ∀ name, Url.isAttribute name = true → ∀ a, e.attribute? name = some a →
        ((Url.decodeElement^[tags.length] e).attribute? name).map Attribute.text =
          some (Url.decode^[tags.length] a.text) ∧
        (2 ≤ tags.length → (Url.decode^[tags.length] a.text = Url.decode a.text ↔
          Url.decode (Url.decode a.text) = Url.decode a.text)) := by
  have compiled := nests.compileWith room deep workshop.config.maxDepth low []
    (fun _ _ => List.not_mem_nil) (by simpa using low) origin
  have static := nests.static
  refine ⟨_, congrArg Prod.fst compiled, fun limit data => render_untagged static.untagged limit data,
    static.read, by rw [iterate_decodedAll], fun name address a given => ⟨?_, fun nested => ?_⟩⟩
  · rw [Url.attribute?_iterate address, given]
    rfl
  · obtain ⟨count, more⟩ := Nat.exists_eq_add_of_le nested
    rw [more, Nat.add_comm]
    exact Url.iterate_decode_eq_iff count a.text

/-- A workshop with a component that is used inside of another one. -/
def linked : Workshop where
  config := {}
  files := Memory.files []
  directives := Directive.builtins
  components :=
    ⟨[("link".toList, ⟨.template (.inline "<a href=\"%2520\"></a>".toList), []⟩),
      ("outer".toList, ⟨.template (.inline "<b><app-link></app-link></b>".toList), []⟩)], none⟩
  expander := ⟨"app".toList, 32⟩

/-- An element with an address in which a percent sign is written with percent signs. -/
def link : Element :=
  ⟨['a'], [.valued "href".toList "%2520".toList], false⟩

/-- A tag without attributes. -/
def bareTag (name : Text) : Element :=
  ⟨name, [], false⟩

/-- What is around the tags of a page with the outer component, and around the element. -/
def linkedPlaces : List Slot.Around :=
  [.here [] [], .inside [] (bareTag ['b']) (.here [] []) [], .here [] []]

/-- The page stands for the element, inside of both components. -/
theorem nests_linked :
    linked.Nests ["outer".toList, "link".toList] "<app-outer></app-outer>".toList linkedPlaces
      [.node (.element link) []] := by
  -- The template of the innermost component is the element, and nothing is around it.
  have own : linked.Nests [] "<a href=\"%2520\"></a>".toList [.here [] []]
      [.node (.element link) []] := by
    have written : writeAll ((Slot.Around.here [] []).plug [.node (.element link) []]) =
        "<a href=\"%2520\"></a>".toList := by decide +kernel
    rw [← written]
    exact .own ⟨by decide +kernel, by decide +kernel, by decide +kernel, by decide +kernel⟩
      ⟨parse_writeAll (by decide +kernel), rfl, by decide +kernel, by decide +kernel,
        Directives.isIdle_of_isForeign (by decide +kernel), by decide +kernel⟩
  have middle : linked.Nests ["link".toList] "<b><app-link></app-link></b>".toList
      [.inside [] (bareTag ['b']) (.here [] []) [], .here [] []] [.node (.element link) []] := by
    have written : writeAll ((Slot.Around.inside [] (bareTag ['b']) (.here [] []) []).plug
        [.node (.element (bareTag "app-link".toList)) []]) =
          "<b><app-link></app-link></b>".toList := by decide +kernel
    have found : linked.blueprint false "link".toList =
        .ok (.plain "<a href=\"%2520\"></a>".toList "component:link".toList) := rfl
    rw [← written]
    exact .use own found (List.not_mem_nil) ⟨by decide +kernel, rfl⟩
      ⟨by decide +kernel, by decide +kernel, by decide +kernel, by decide +kernel⟩
      (parse_writeAll (by decide +kernel))
      ⟨parse_writeAll (by decide +kernel), rfl, by decide +kernel, by decide +kernel,
        Directives.isIdle_of_isForeign (by decide +kernel), by decide +kernel⟩
  have written : writeAll ((Slot.Around.here [] []).plug
      [.node (.element (bareTag "app-outer".toList)) []]) =
        "<app-outer></app-outer>".toList := by decide +kernel
  have found : linked.blueprint false "outer".toList =
      .ok (.plain "<b><app-link></app-link></b>".toList "component:outer".toList) := rfl
  rw [← written]
  exact .use middle found (by decide +kernel) ⟨by decide +kernel, rfl⟩
    ⟨by decide +kernel, by decide +kernel, by decide +kernel, by decide +kernel⟩
    (parse_writeAll (by decide +kernel))
    ⟨parse_writeAll (by decide +kernel), rfl, by decide +kernel, by decide +kernel,
      Directives.isIdle_of_isForeign (by decide +kernel), by decide +kernel⟩

/-- From inside of another component the element comes with an address that has been decoded
twice. -/
theorem compile_decodes_nested_link :
    linked.Nests ["outer".toList, "link".toList] "<app-outer></app-outer>".toList linkedPlaces
        [.node (.element link) []] ∧
      0 < linked.expander.maxDepth ∧ 2 ≤ linked.config.maxDepth ∧
      ∃ page : List Tree, linked.compile "<app-outer></app-outer>".toList [] =
          .ok (writeAll page) ∧
        writeAll page = "<b><a href=\" \"></a></b>".toList := by
  obtain ⟨page, compiled, _, _, rfl, _⟩ :=
    compile_decodes_nested nests_linked (by decide) (by decide) (by decide) []
  exact ⟨nests_linked, by decide, by decide, _, compiled, by decide +kernel⟩

/-- An address that is not the same when it is decoded again comes with another value from inside
of another component than from the page itself. -/
theorem compile_decodes_twice :
    Url.decode "%2520".toList = "%20".toList ∧
      linked.compile "<app-link></app-link>".toList [] = .ok "<a href=\"%20\"></a>".toList ∧
      linked.compile "<app-outer></app-outer>".toList [] =
        .ok "<b><a href=\" \"></a></b>".toList :=
  ⟨by decide +kernel, by decide +kernel, by decide +kernel⟩

end Workshop

end Templates
