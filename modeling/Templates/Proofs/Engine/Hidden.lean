import Mathlib.Data.List.Induction
import Templates.Directive.Builtin
import Templates.Engine.Workshop
import Templates.Proofs.Component.Session
import Templates.Proofs.Component.Transfer
import Templates.Proofs.Outcome
import Templates.Proofs.Text.Words

/-!
Hidden properties and the attributes that give them their values.

An attribute gives a value to the property of its own name, and a name with hyphens also to the one
in snake case. But what keeps an attribute off the markup of a component is its own name alone. Main
statement: an attribute in hyphens that gives a hidden property its value is kept off only by
another hidden property, of its own spelling.
-/

namespace Templates

open Markup

/-- An attribute of a name gives its value to a property. -/
def Reaches (name property : Text) : Prop :=
  name = property ∨ '-' ∈ name ∧ Text.snakeCase name = property

instance (name property : Text) : Decidable (Reaches name property) :=
  inferInstanceAs (Decidable (_ ∨ _))

/-- A property has the value of the last attribute that gives it one. -/
theorem Call.get?_properties (call : Call) (property : Text) :
    call.properties.get? property =
      ((call.attributes.filter fun a => Reaches a.1 property).getLast?).map fun a => .text a.2 := by
  rw [Call.properties]
  -- The attributes are entered in their order.
  induction call.attributes using List.reverseRecOn with
  | nil => rfl
  | append_singleton front a ih =>
    obtain ⟨name, value⟩ := a
    rw [List.foldl_append, List.filter_append, List.foldl_cons, List.foldl_nil]
    by_cases reaches : Reaches name property
    · rw [List.filter_cons_of_pos (by simpa using reaches), List.filter_nil,
        List.getLast?_concat]
      -- The value is entered under both spellings, and the property is one of them.
      by_cases snake : '-' ∈ name ∧ Text.snakeCase name = property
      · obtain ⟨hyphen, rfl⟩ := snake
        simp [hyphen]
      · obtain rfl : name = property := reaches.resolve_right snake
        by_cases hyphen : '-' ∈ name
        · have other : name ≠ Text.snakeCase name := fun same => snake ⟨hyphen, same.symm⟩
          simp [hyphen, Fields.get?_insert_of_ne other]
        · simp [hyphen]
    · rw [List.filter_cons_of_neg (by simpa using reaches), List.filter_nil, List.append_nil, ← ih]
      obtain ⟨other, apart⟩ := not_or.mp reaches
      by_cases hyphen : '-' ∈ name
      · have snake : property ≠ Text.snakeCase name := fun same => apart ⟨hyphen, same.symm⟩
        simp [hyphen, Fields.get?_insert_of_ne snake, Fields.get?_insert_of_ne (Ne.symm other)]
      · simp [hyphen, Fields.get?_insert_of_ne (Ne.symm other)]

/-- A name with a hyphen differs from every name in snake case. -/
theorem sameName_snakeCase {name : Text} (hyphen : '-' ∈ name) (other : Text) :
    Text.sameName (Text.snakeCase other) name = false := by
  rw [Bool.eq_false_iff]
  intro same
  -- Small letters have hyphens where there were some, as no letter becomes one.
  have small : '-' ∈ Text.asciiLower (Text.snakeCase other) := by
    rw [Text.sameName_iff.mp same]
    exact List.mem_map.mpr ⟨'-', hyphen, rfl⟩
  obtain ⟨c, listed, lower⟩ := List.mem_map.mp small
  exact Text.hyphen_notMem_snakeCase other (Text.eq_of_toLower (by decide) lower ▸ listed)

/-- The factory that a definition has, if it is one. -/
def Definition.factory? : Definition → Option Factory
  | .template _ => none
  | .factory f => some f

/-- A component keeps attributes of a name off its markup. -/
def Component.hides (component : Component) (name : Text) : Bool :=
  component.hidden.any fun hidden => Text.sameName hidden name

/-- A name is kept off by a hidden property of the same name. -/
theorem Component.hides_iff {component : Component} {name : Text} :
    component.hides name = true ↔
      ∃ p ∈ component.properties, p.hidden = true ∧ Text.sameName p.name name = true := by
  simp [hides, hidden]

/-- Attributes of the same name are kept off together. -/
theorem Component.hides_congr {component : Component} {name other : Text}
    (same : Text.sameName name other = true) : component.hides name = component.hides other := by
  unfold hides Text.sameName
  rw [Text.sameName_iff.mp same]

/-- Of the attributes of one name that are not kept off, the last one is the last of all, unless the
component keeps the name off. -/
theorem Component.getLast?_visible (component : Component) (attributes : List Attribute)
    (name : Text) :
    ((Slot.visible attributes component.hidden).filter fun a =>
        Text.sameName a.name name).getLast? =
      if component.hides name then none
      else (attributes.filter fun a => Text.sameName a.name name).getLast? := by
  -- Attributes of the name are all kept off or none of them.
  have each (a : Attribute) :
      (Text.sameName a.name name &&
          !(component.hidden.any fun hidden => Text.sameName hidden a.name)) =
        (Text.sameName a.name name && !component.hides name) := by
    cases same : Text.sameName a.name name with
    | false => rfl
    | true =>
      rw [← Component.hides_congr same]
      rfl
  rw [Slot.visible, List.filter_filter, List.filter_congr fun a _ => each a]
  cases component.hides name <;> simp

/-- A hidden property keeps an attribute that gives it a value off exactly if it is spelled like it;
otherwise another hidden property has to be. -/
theorem Component.hides_of_reaches {component : Component} {p : Property}
    (declared : p ∈ component.properties) (isHidden : p.hidden = true) {name : Text}
    (reaches : Reaches name p.name) :
    component.hides name = true ↔ name = p.name ∨
      ∃ q ∈ component.properties, q.hidden = true ∧ q.name ≠ p.name ∧
        Text.sameName q.name name = true := by
  rw [Component.hides_iff]
  constructor
  · rintro ⟨q, listed, hides, same⟩
    by_cases own : q.name = p.name
    · -- In snake case the property would have no hyphen.
      refine .inl (reaches.resolve_right fun ⟨hyphen, snake⟩ => ?_)
      rw [own, ← snake, sameName_snakeCase hyphen] at same
      cases same
    · exact .inr ⟨q, listed, hides, own, same⟩
  · rintro (own | ⟨q, listed, hides, _, same⟩)
    · exact ⟨p, declared, isHidden, by rw [own, Text.sameName]; simp⟩
    · exact ⟨q, listed, hides, same⟩

namespace Workshop

variable {workshop : Workshop} {pages : Text → Blueprint → Data → Session TagStack Text}
  {call : Call} {component : Component} {before after : TagStack} {rendered : Rendered}

/-- The template of a registered component comes with its defaults, the names of its hidden
properties and its factory. -/
theorem parts_blueprint {blueprint : Blueprint}
    (resolved : workshop.resolve false call.tag = .ok (.registered component))
    (found : workshop.blueprint false call.tag = .ok blueprint) :
    blueprint.defaults = component.defaults ∧ blueprint.hidden = component.hidden ∧
      blueprint.factory = component.definition.factory? := by
  rw [Workshop.blueprint, resolved] at found
  have built : workshop.registered call.tag component = .ok blueprint := found
  unfold Workshop.registered at built
  cases template : component.template with
  | inline markup =>
    rw [template] at built
    obtain rfl := Except.ok.inj built
    exact ⟨rfl, rfl, rfl⟩
  | view name =>
    rw [template] at built
    obtain ⟨text, _, built⟩ := exists_of_bind built
    obtain rfl := Except.ok.inj built
    exact ⟨rfl, rfl, rfl⟩

/-- The use of a registered component is answered with the names of its hidden properties. -/
theorem hidden_answer
    (resolved : workshop.resolve false call.tag = .ok (.registered component))
    (answered : Session.Runs (workshop.answer pages call) before rendered after) :
    rendered.hidden = component.hidden := by
  unfold Workshop.answer at answered
  obtain ⟨blueprint, between, found, rest⟩ := Session.runs_bind.mp answered
  obtain ⟨html, last, _, done⟩ := Session.runs_bind.mp rest
  obtain ⟨rfl, _⟩ := Session.runs_pure.mp done
  have both : (workshop.blueprint false call.tag, before) = (.ok blueprint, between) := found
  exact (parts_blueprint resolved (Prod.mk.inj both).1).2.1

end Workshop

/-- What the root of a component's markup gets from a calling tag. An attribute is kept off by the
hidden properties of its own name. One in hyphens that gives its value to a hidden property in snake
case is kept off only if another hidden property is spelled as it is. -/
theorem Workshop.root_hides {workshop : Workshop}
    {pages : Text → Blueprint → Data → Session TagStack Text} {e : Element}
    {component : Component}
    (resolved : workshop.resolve false (workshop.expander.callOf e).tag =
      .ok (.registered component))
    {before after : TagStack} {rendered : Rendered} {fragment : Document}
    (responded : Session.Runs
      (Expander.respond (workshop.answer pages) (workshop.expander.callOf e)) before
      (rendered, fragment) after)
    {root : NodeId} {own : Element} (target : Slot.IsTarget fragment root)
    (element : fragment.element? root = some own) :
    (∀ property, (workshop.expander.callOf e).properties.get? property =
        ((e.attributes.filter fun a => Reaches a.name property).getLast?).map
          fun a => .text a.text) ∧
      (∃ dressed, (Slot.transferred e.attributes rendered.hidden fragment).element? root =
          some dressed ∧
        ∀ name, dressed.attribute? name =
          if component.hides name then own.attribute? name
          else ((e.attributes.filter fun a => Text.sameName a.name name).getLast?).or
            (own.attribute? name)) ∧
      ∀ p ∈ component.properties, p.hidden = true → ∀ name, Reaches name p.name →
        (component.hides name = true ↔ name = p.name ∨
          ∃ q ∈ component.properties, q.hidden = true ∧ q.name ≠ p.name ∧
            Text.sameName q.name name = true) := by
  obtain ⟨answered, _⟩ := Expander.runs_respond.mp responded
  have hidden : rendered.hidden = component.hidden := Workshop.hidden_answer resolved answered
  refine ⟨fun property => ?_, ?_, fun p declared isHidden name reaches =>
    Component.hides_of_reaches declared isHidden reaches⟩
  · -- The call has the attributes of the tag, with their texts.
    rw [Call.get?_properties, Expander.callOf, List.filter_map, List.getLast?_map, Option.map_map]
    rfl
  · have content := Slot.content_target e.attributes rendered.hidden target element
    have receives := Element.receives_setAttributes (Slot.visible e.attributes rendered.hidden) own
    refine ⟨_, by rw [Document.element?, content]; rfl, fun name => ?_⟩
    rw [receives.lookup, hidden, component.getLast?_visible]
    cases component.hides name <;> rfl

namespace Workshop

/-- A component that shows its one property, which is hidden. -/
def badge : Component :=
  ⟨.template (.inline "<i>\x7b\x7b user_name \x7d\x7d</i>".toList),
    [⟨"user_name".toList, .null, true⟩]⟩

/-- A workshop with that component. -/
def badged : Workshop where
  config := {}
  files := Memory.files []
  directives := Directive.builtins
  components := ⟨[("badge".toList, badge)], none⟩
  expander := ⟨"app".toList, 32⟩

/-- A tag that gives the property its value, in hyphens. -/
def badgeTag : Element :=
  ⟨"app-badge".toList, [.valued "user-name".toList "Zed".toList], false⟩

/-- The markup of the component, read as a document. -/
def badgeFragment : Document :=
  .ofForest [.node (.element ⟨['i'], [], false⟩) [.node (.text "Zed".toList) []]]

/-- The hidden property has the value of an attribute that stands on the root all the same. -/
theorem root_hides_badge :
    ∃ dressed, (Slot.transferred badgeTag.attributes ["user_name".toList]
        badgeFragment).element? 1 = some dressed ∧
      dressed.attribute? "user-name".toList = some (.valued "user-name".toList "Zed".toList) ∧
      badge.hides "user-name".toList = false := by
  have responded : Session.Runs
      (Expander.respond (badged.answer (badged.page 1)) (badged.expander.callOf badgeTag)) []
      (⟨"<i>Zed</i>".toList, ["user_name".toList]⟩, badgeFragment) [] := by
    have runs : @Eq (Except Error Answer × TagStack) ((Expander.respond
        (badged.answer (badged.page 1)) (badged.expander.callOf badgeTag)).run [])
          (.ok (⟨"<i>Zed</i>".toList, ["user_name".toList]⟩, badgeFragment), []) := by
      decide +kernel
    exact runs
  have resolved : badged.resolve false (badged.expander.callOf badgeTag).tag =
      .ok (.registered badge) := rfl
  have target : Slot.IsTarget badgeFragment 1 := .alone (by decide) (by decide) (by decide)
  have element : badgeFragment.element? 1 = some ⟨['i'], [], false⟩ := rfl
  obtain ⟨-, ⟨dressed, found, lookup⟩, -⟩ :=
    root_hides resolved responded target element
  exact ⟨dressed, found, (lookup _).trans (by decide), by decide⟩

/-- The same value stays off the root or comes onto it by the spelling of the attribute. -/
theorem compile_shows_hidden :
    badge.hidden = ["user_name".toList] ∧
      badged.compile "<app-badge user_name=\"Zed\"></app-badge>".toList [] =
        .ok "<i>Zed</i>".toList ∧
      badged.compile "<app-badge user-name=\"Zed\"></app-badge>".toList [] =
        .ok "<i user-name=\"Zed\">Zed</i>".toList :=
  ⟨by decide, by decide +kernel, by decide +kernel⟩

end Workshop

end Templates
