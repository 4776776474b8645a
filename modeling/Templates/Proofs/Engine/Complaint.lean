import Templates.Engine.Workshop
import Templates.Proofs.Layout.Includes

/-!
What the stages of a compilation complain about.

That a view is missing is said of the template files of components only, and that components loop
is said only of tags on the stack.
-/

namespace Templates

/-- Errors that are neither about a missing view nor about a loop of components. -/
def Error.IsOwn : Error → Prop
  | .viewMissing _ => False
  | .componentLoop _ _ => False
  | _ => True

/-- A layout that cannot be resolved is not a view that is missing. -/
theorem Layout.isOwn_of_expandIncludes {files : Files} {config : Config} {depth : Nat}
    {chain : List Text} {source : Text} {e : Error}
    (failed : expandIncludes files config depth chain source = .error e) : e.IsOwn := by
  -- A file that is missing has an error of its own here; what it includes is one level deeper.
  induction depth generalizing chain source with
  | zero =>
    cases failed
    trivial
  | succ depth ih =>
    rw [expandIncludes] at failed
    obtain ⟨target, -, fails⟩ := exists_of_spliceAll_error failed
    dsimp only at fails
    split at fails
    · cases fails
      trivial
    · split at fails
      · exact ih fails
      · cases fails
        trivial
      · cases fails
        trivial

/-- The same holds of a layout with its blocks. -/
theorem Layout.isOwn_of_resolve {files : Files} {config : Config} {source origin : Text} {e : Error}
    (failed : resolve files config source origin = .error e) : e.IsOwn := by
  rw [resolve] at failed
  cases expanded : expandIncludes files config config.maxDepth [origin] source with
  | ok text => simp [expanded, Except.map] at failed
  | error e' =>
    simp only [expanded, Except.map, Except.error.injEq] at failed
    exact isOwn_of_expandIncludes (failed ▸ expanded)

namespace Directives

/-- Edits that cannot all be applied have one that cannot be. -/
theorem exists_of_applyAll_error {apply : Edit → Except Error Text} {edits : List Edit} {e : Error}
    (failed : applyAll apply edits = .error e) : ∃ edit ∈ edits, apply edit = .error e := by
  induction edits with
  | nil => cases failed
  | cons edit edits ih =>
    cases here : apply edit with
    | error e' =>
      simp only [applyAll, here, Except.error.injEq] at failed
      exact ⟨edit, List.mem_cons_self, failed ▸ here⟩
    | ok text =>
      cases others : applyAll apply edits with
      | ok rest => simp [applyAll, here, others] at failed
      | error e' =>
        simp only [applyAll, here, others, Except.error.injEq] at failed
        obtain ⟨other, member, fails⟩ := ih (failed ▸ others)
        exact ⟨other, List.mem_cons_of_mem _ member, fails⟩

/-- A directive that is not there is not a view that is missing. -/
theorem isOwn_of_find {directives : Directives} {name : Text} {e : Error}
    (failed : directives.find name = .error e) : e.IsOwn := by
  unfold find at failed
  split at failed
  · cases failed
  · cases failed
    trivial

/-- What a directive complains about is its own. -/
theorem isOwn_of_apply {directive : Directive} {expression body : Option Text} {e : Error}
    (failed : directive.apply expression body = .error e) : e.IsOwn := by
  unfold Directive.apply at failed
  cases handled : directive.handler expression body with
  | ok text => simp [handled, Except.mapError] at failed
  | error message =>
    simp only [handled, Except.mapError, Except.error.injEq] at failed
    rw [← failed]
    trivial

/-- A pass fails at the depth of blocks or at a directive. -/
theorem isOwn_of_pass {directives : Directives} {maxDepth depth : Nat} {source : Text} {e : Error}
    (failed : directives.pass maxDepth depth source = .error e) : e.IsOwn := by
  -- A block fails in its body, which is one level deeper, or at its directive.
  induction depth generalizing source with
  | zero =>
    cases failed
    trivial
  | succ depth ih =>
    rw [pass] at failed
    obtain ⟨edit, -, fails⟩ := exists_of_applyAll_error failed
    cases edit with
    | keep text => cases fails
    | single marker =>
      rw [applyEdit] at fails
      split at fails
      · rename_i e' found
        cases fails
        exact isOwn_of_find found
      · exact isOwn_of_apply fails
    | block opener body closer =>
      rw [applyEdit] at fails
      split at fails
      · rename_i e' inner
        cases fails
        exact ih inner
      · split at fails
        · rename_i e' found
          cases fails
          exact isOwn_of_find found
        · exact isOwn_of_apply fails

/-- Passes fail when one of them does, or when they are too many. -/
theorem isOwn_of_passes {directives : Directives} {maxDepth count : Nat} {source : Text} {e : Error}
    (failed : directives.passes maxDepth count source = .error e) : e.IsOwn := by
  induction count generalizing source with
  | zero =>
    cases failed
    trivial
  | succ count ih =>
    rw [passes] at failed
    split at failed
    · rename_i e' passed
      cases failed
      exact isOwn_of_pass passed
    · split at failed
      · cases failed
      · exact ih failed

end Directives

namespace Workshop

/-- A file in which the template of some component is looked for: that of a view that a component
is registered with, or one that is found in the directory of components. -/
def IsTemplate (workshop : Workshop) (file : Path) : Prop :=
  (∃ tag component name, workshop.components.get? tag = some component ∧
    component.template = .view name ∧ file = workshop.config.componentViewPath name) ∨
  ∃ tag, workshop.components.lookUp? workshop.files tag workshop.config.extension = some file

/-- What goes wrong in a session that is inside of the components on a stack. -/
inductive Complaint (workshop : Workshop) (stack : TagStack) : Error → Prop
  | loop {tag : Text} {deeper : TagStack} (inside : tag ∈ deeper) (above : stack <:+ deeper) :
    Complaint workshop stack (.componentLoop tag (tag :: deeper).reverse)
  | template {file : Path} (isTemplate : workshop.IsTemplate file)
    (missing : workshop.files.read file = .error .missing) :
    Complaint workshop stack (.viewMissing file)
  | own {e : Error} (own : e.IsOwn) : Complaint workshop stack e

variable {workshop : Workshop} {stack : TagStack} {tag : Text} {e : Error}

/-- What goes wrong inside of a component goes wrong in the session around it. -/
theorem Complaint.outer (complaint : workshop.Complaint (tag :: stack) e) :
    workshop.Complaint stack e := by
  cases complaint with
  | loop inside above => exact .loop inside ((List.suffix_cons tag stack).trans above)
  | template isTemplate missing => exact .template isTemplate missing
  | own own => exact .own own

/-- A view is missing when its file is. -/
theorem missing_of_readView {files : Files} {path : Path} {view : Text}
    (failed : files.readView path view = .error e) :
    e = .viewMissing view ∧ files.read path = .error .missing ∨ e = .storage := by
  unfold Files.readView at failed
  split at failed
  · cases failed
  · rename_i missing
    cases failed
    exact .inl ⟨rfl, missing⟩
  · cases failed
    exact .inr rfl

/-- A component whose view is missing cannot be used. -/
theorem complaint_of_registered {component : Component}
    (registered : workshop.components.get? tag = some component)
    (failed : workshop.registered tag component = .error e) : workshop.Complaint stack e := by
  unfold Workshop.registered at failed
  -- Markup in memory is always there.
  cases template : component.template with
  | inline markup => simp [template, Pure.pure, Except.pure] at failed
  | view name =>
    cases read : workshop.files.readView (workshop.config.componentViewPath name)
        (workshop.config.componentViewPath name) with
    | ok text => simp [template, read, Bind.bind, Except.bind, Pure.pure, Except.pure] at failed
    | error e' =>
      simp only [template, read, Bind.bind, Except.bind, Except.error.injEq] at failed
      subst failed
      obtain ⟨rfl, missing⟩ | rfl := missing_of_readView read
      · exact .template (.inl ⟨tag, component, name, registered, template, rfl⟩) missing
      · exact .own trivial

/-- A component whose file has gone missing since it was found cannot be used. -/
theorem complaint_of_inFile {path : Path}
    (located : workshop.components.lookUp? workshop.files tag workshop.config.extension = some path)
    (failed : workshop.inFile path = .error e) : workshop.Complaint stack e := by
  unfold inFile at failed
  cases read : workshop.files.readView path path with
  | ok text => simp [read, Bind.bind, Except.bind, Pure.pure, Except.pure] at failed
  | error e' =>
    simp only [read, Bind.bind, Except.bind, Except.error.injEq] at failed
    subst failed
    obtain ⟨rfl, missing⟩ | rfl := missing_of_readView read
    · exact .template (.inr ⟨tag, located⟩) missing
    · exact .own trivial

/-- In the templates of pages tags are looked for among the registered ones, and then in the
directory of components. -/
theorem blueprint_eq (workshop : Workshop) (tag : Text) :
    workshop.blueprint false tag =
      match workshop.components.get? tag,
        workshop.components.lookUp? workshop.files tag workshop.config.extension with
      | some component, _ => workshop.registered tag component
      | none, some path => workshop.inFile path
      | none, none => .error (workshop.components.missing tag) := by
  rw [blueprint, resolve, Components.resolve]
  cases workshop.components.get? tag with
  | some component => rfl
  | none =>
    cases workshop.components.lookUp? workshop.files tag workshop.config.extension with
    | some path => rfl
    | none => rfl

/-- A component that cannot be used is unknown, or its template is missing. -/
theorem complaint_of_blueprint (failed : workshop.blueprint false tag = .error e) :
    workshop.Complaint stack e := by
  rw [blueprint_eq] at failed
  cases registered : workshop.components.get? tag with
  | some component =>
    rw [registered] at failed
    exact complaint_of_registered registered failed
  | none =>
    cases located : workshop.components.lookUp? workshop.files tag workshop.config.extension with
    | some path =>
      rw [registered, located] at failed
      exact complaint_of_inFile located failed
    | none =>
      rw [registered, located] at failed
      cases failed
      exact .own trivial

end Workshop

end Templates
