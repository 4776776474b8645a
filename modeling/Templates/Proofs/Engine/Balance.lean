import Templates.Directive.Builtin
import Templates.Proofs.Engine.Stack

/-!
Sessions are balanced and bounded.

All stacks that a session has while it goes on hold different tags, and not too many of them. When a
component has been used, whether with success or not, the stack is what it was before. A component
is refused as one that loops exactly when it is on the stack. So the recursion from the templates of
pages to those of components comes to an end, whatever components there are.
-/

namespace Templates

/-- All stacks hold different tags, and no more than a number of them. -/
def Record.IsSound (limit : Nat) (record : Record) : Prop :=
  ∀ stack ∈ record.all, stack.Nodup ∧ stack.length ≤ limit

namespace Workshop

variable {workshop : Workshop} {stack : TagStack}

/-- How the uses of components are answered. -/
def renderer (workshop : Workshop) : ComponentRenderer TagStack :=
  workshop.answer (workshop.page workshop.config.maxDepth)

/-- A source is compiled while all stacks of the session are written down. -/
def recordCompile (workshop : Workshop) (source origin : Text) : Except Error Text × Record :=
  (workshop.compileOn (workshop.answerOn (workshop.pagesOn .recorded)) source origin).run .empty

/-- A component is rendered by itself while all stacks of the session are written down. -/
def recordComponent (workshop : Workshop) (tag : Text) (data : Data) :
    Except Error Text × Record :=
  match workshop.blueprint true tag with
  | .error e => (.error e, .empty)
  | .ok blueprint => (workshop.pagesOn .recorded tag blueprint data).run .empty

/-- A record stays sound when components are entered and left. -/
theorem follows_sound (workshop : Workshop) :
    workshop.Follows .recorded .alone
      (fun stack record alone => record.now = stack ∧ alone = stack ∧
        record.IsSound workshop.config.maxDepth)
      (fun _ e e' => e = e') := by
  -- Only the stack that is new has to be looked at.
  refine follows_recorded ?_ ?_
  · intro record tag outside room sound stack member
    rcases List.mem_cons.mp member with rfl | before
    · obtain ⟨distinct, -⟩ := sound record.now List.mem_cons_self
      exact ⟨List.nodup_cons.mpr ⟨outside, distinct⟩, room⟩
    · exact sound stack before
  · intro record sound stack member
    rcases List.mem_cons.mp member with rfl | before
    · obtain ⟨distinct, bounded⟩ := sound record.now List.mem_cons_self
      refine ⟨distinct.tail, ?_⟩
      have shorter : record.now.tail.length = record.now.length - 1 := List.length_tail
      show record.now.tail.length ≤ _
      omega
    · exact sound stack before

/-- The pages of components on a stack by itself. -/
theorem pagesOn_alone (workshop : Workshop) :
    workshop.pagesOn .alone = workshop.page workshop.config.maxDepth :=
  workshop.pageOn_alone _

/-- With a sound record pages are made as without one. -/
theorem pagesOn_sound (workshop : Workshop) (stack : TagStack) (tag : Text) (blueprint : Blueprint)
    (data : Data) :
    (Bond.strict (fun record alone => record.now = stack ∧ alone = stack ∧
        record.IsSound workshop.config.maxDepth) (fun e e' => e = e')).Holds
      (workshop.pagesOn .recorded tag blueprint data)
      (workshop.page workshop.config.maxDepth tag blueprint data) := by
  rw [← workshop.pagesOn_alone]
  exact workshop.follows_sound.pages stack tag blueprint data

/-- Before anything is done no stack has a fault. -/
theorem isSound_empty (limit : Nat) : Record.empty.IsSound limit := by
  intro stack member
  obtain rfl := List.mem_singleton.mp member
  exact ⟨List.nodup_nil, Nat.zero_le limit⟩

/-- The record of a compilation is sound, and the artifact is the one without a record. -/
theorem recordCompile_sound (workshop : Workshop) (source origin : Text) :
    (workshop.recordCompile source origin).1 = workshop.compile source origin ∧
      (workshop.recordCompile source origin).2.now = [] ∧
      (workshop.recordCompile source origin).2.IsSound workshop.config.maxDepth := by
  have holds := workshop.follows_sound.compile (workshop.pagesOn_sound []) source origin
  have matched := holds.matched .empty [] ⟨rfl, rfl, isSound_empty _⟩
  obtain ⟨same, now, -, sound⟩ := matched.of_strict
  exact ⟨same, now, sound⟩

/-- The record of a component by itself is sound, and the page is the one without a record. -/
theorem recordComponent_sound (workshop : Workshop) (tag : Text) (data : Data) :
    (workshop.recordComponent tag data).1 = workshop.component tag data ∧
      (workshop.recordComponent tag data).2.now = [] ∧
      (workshop.recordComponent tag data).2.IsSound workshop.config.maxDepth := by
  unfold recordComponent component
  cases workshop.blueprint true tag with
  | error e => exact ⟨rfl, rfl, isSound_empty _⟩
  | ok blueprint =>
    have matched := (workshop.pagesOn_sound [] tag blueprint data).matched .empty []
      ⟨rfl, rfl, isSound_empty _⟩
    obtain ⟨same, now, -, sound⟩ := matched.of_strict
    exact ⟨same, now, sound⟩

/-- What a component does on a stack, without a bound for the components inside of it. -/
theorem run_page (workshop : Workshop) (stack : TagStack) (tag : Text) (blueprint : Blueprint)
    (data : Data) :
    (workshop.page workshop.config.maxDepth tag blueprint data).run stack =
      if tag ∈ stack then (.error (.componentLoop tag (stack.reverse ++ [tag])), stack)
      else if workshop.config.maxDepth ≤ stack.length then
        (.error (.tooDeep .components workshop.config.maxDepth), stack)
      else (workshop.visit .alone (workshop.page workshop.config.maxDepth) tag blueprint data).run
        stack := by
  -- The tag that the complaint adds to the stack is the last one called.
  rw [← pagesOn_alone, pagesOn_eq, run_guarded, List.reverse_cons]
  rfl

/-- A component goes together with itself. -/
theorem steady_page (workshop : Workshop) (stack : TagStack) (tag : Text) (blueprint : Blueprint)
    (data : Data) :
    (workshop.steady .alone stack).Holds (workshop.page workshop.config.maxDepth tag blueprint data)
      (workshop.page workshop.config.maxDepth tag blueprint data) := by
  rw [← pagesOn_alone]
  exact (workshop.follows_self .alone).pages stack tag blueprint data

/-- What goes together with itself leaves the stack as it has found it, and what goes wrong in it is
what may go wrong there. -/
theorem run_of_steady {α : Type} {work : Session TagStack α}
    (steady : (workshop.steady .alone stack).Holds work work) :
    (work.run stack).2 = stack ∧
      ∀ e, (work.run stack).1 = .error e → workshop.Complaint stack e :=
  (eq_of_matched_self (steady.matched stack stack ⟨rfl, rfl⟩)).2

/-- A compilation complains of what may go wrong outside of all components. -/
theorem complaint_of_compile {source origin : Text} {e : Error}
    (failed : workshop.compile source origin = .error e) : workshop.Complaint [] e := by
  have compile := (workshop.follows_self .alone).compile (workshop.steady_page []) source origin
  exact (run_of_steady compile).2 e failed

/-- A component that is not on the stack complains of what goes wrong inside of it. -/
theorem complaint_of_page {tag : Text} {blueprint : Blueprint} {data : Data} {e : Error}
    (outside : tag ∉ stack)
    (failed : ((workshop.page workshop.config.maxDepth tag blueprint data).run stack).1 =
      .error e) : workshop.Complaint (tag :: stack) e := by
  rw [run_page, if_neg outside] at failed
  by_cases deep : workshop.config.maxDepth ≤ stack.length
  · rw [if_pos deep] at failed
    cases failed
    exact .own trivial
  · rw [if_neg deep] at failed
    have visit := (workshop.follows_self .alone).visit outside (Nat.lt_of_not_le deep)
      (workshop.steady_page (tag :: stack)) blueprint data
    have matched := visit.matched stack stack ⟨rfl, rfl⟩
    exact (eq_of_matched_self matched).2.2 e failed

/-- A complaint about a loop inside of a component tells of a stack with more tags. -/
theorem loop_of_page {tag name : Text} {calls : List Text} {blueprint : Blueprint} {data : Data}
    (outside : tag ∉ stack)
    (failed : ((workshop.page workshop.config.maxDepth tag blueprint data).run stack).1 =
      .error (.componentLoop name calls)) :
    ∃ deeper, tag :: stack <:+ deeper ∧ name ∈ deeper ∧ calls = deeper.reverse ++ [name] := by
  have complaint := complaint_of_page outside failed
  generalize told : Error.componentLoop name calls = e at complaint
  cases complaint with
  | @loop name' deeper inside above =>
    obtain ⟨rfl, rfl⟩ := Error.componentLoop.inj told
    exact ⟨deeper, above, inside, List.reverse_cons⟩
  | template isTemplate missing => cases told
  | own own =>
    subst told
    exact own.elim

/-- A component is refused as one that loops exactly when the session is inside of it. -/
theorem page_loops_iff (workshop : Workshop) (stack : TagStack) (tag : Text)
    (blueprint : Blueprint) (data : Data) :
    ((workshop.page workshop.config.maxDepth tag blueprint data).run stack).1 =
      .error (.componentLoop tag (stack.reverse ++ [tag])) ↔ tag ∈ stack := by
  constructor
  · intro failed
    refine Classical.byContradiction fun outside => ?_
    obtain ⟨deeper, above, -, calls⟩ := loop_of_page outside failed
    -- A loop further inside is told of with a longer stack.
    have longer := above.length_le
    have same := congrArg List.length calls
    simp only [List.length_append, List.length_reverse, List.length_cons] at same longer
    omega
  · intro inside
    rw [run_page, if_pos inside]

/-- Sessions are balanced and bounded. While a source is compiled, or a component is rendered by
itself, no stack holds a tag twice or more tags than are allowed; writing the stacks down does not
change the result. A compilation, a use of a component and the page of one leave any stack as they
have found it, with a result as with an error. A component is refused as one that loops, with the
stack and its tag, exactly when it is on the stack; if it is not, then a loop that is told of has
been met further inside. The recursion from pages to the components inside of them has exactly one
solution that is defined everywhere. -/
theorem session_balanced (workshop : Workshop) :
    (∀ source origin,
      (workshop.recordCompile source origin).1 = workshop.compile source origin ∧
        (workshop.recordCompile source origin).2.now = [] ∧
        (workshop.recordCompile source origin).2.IsSound workshop.config.maxDepth) ∧
    (∀ tag data,
      (workshop.recordComponent tag data).1 = workshop.component tag data ∧
        (workshop.recordComponent tag data).2.now = [] ∧
        (workshop.recordComponent tag data).2.IsSound workshop.config.maxDepth) ∧
    (∀ (stack : TagStack) source origin,
      ((workshop.compileWith workshop.renderer source origin).run stack).2 = stack) ∧
    (∀ (stack : TagStack) call, ((workshop.renderer call).run stack).2 = stack) ∧
    (∀ (stack : TagStack) tag blueprint data,
      ((workshop.page workshop.config.maxDepth tag blueprint data).run stack).2 = stack ∧
      (((workshop.page workshop.config.maxDepth tag blueprint data).run stack).1 =
        .error (.componentLoop tag (stack.reverse ++ [tag])) ↔ tag ∈ stack) ∧
      (tag ∉ stack → ∀ name calls,
        ((workshop.page workshop.config.maxDepth tag blueprint data).run stack).1 =
          .error (.componentLoop name calls) →
        ∃ deeper, tag :: stack <:+ deeper ∧ name ∈ deeper ∧ calls = deeper.reverse ++ [name])) ∧
    (∀ other : Text → Blueprint → Data → Session TagStack Text,
      (∀ tag blueprint data, other tag blueprint data =
        workshop.guarded .alone tag (workshop.visit .alone other tag blueprint data)) ↔
      other = workshop.page workshop.config.maxDepth) := by
  have self := workshop.follows_self .alone
  refine ⟨workshop.recordCompile_sound, workshop.recordComponent_sound, ?_, ?_, ?_, ?_⟩
  · intro stack source origin
    exact (run_of_steady (self.compile (workshop.steady_page stack) source origin)).1
  · intro stack call
    exact (run_of_steady (self.answer (workshop.steady_page stack) call)).1
  · intro stack tag blueprint data
    refine ⟨(run_of_steady (workshop.steady_page stack tag blueprint data)).1,
      workshop.page_loops_iff stack tag blueprint data, ?_⟩
    exact fun outside name calls => loop_of_page outside
  · intro other
    rw [← pagesOn_alone]
    refine ⟨eq_pagesOn, ?_⟩
    rintro rfl
    exact workshop.pagesOn_eq .alone

/-- Two components whose templates hold each other. -/
def ring : Workshop where
  config := { maxDepth := 3 }
  files := Memory.files []
  directives := Directive.builtins
  components :=
    ⟨[(['a'], ⟨.template (.inline "<app-b></app-b>".toList), []⟩),
      (['b'], ⟨.template (.inline "<app-a></app-a>".toList), []⟩)], none⟩
  expander := ⟨"app".toList, 3⟩

/-- The ring is found out inside of the second component, although there is room for a third one,
and then both are left. -/
theorem ring_balanced :
    ring.component ['a'] [] = .error (.componentLoop ['a'] [['a'], ['b'], ['a']]) ∧
      (ring.recordComponent ['a'] []).2.all = [[], [['a']], [['b'], ['a']], [['a']], []] ∧
      (ring.recordComponent ['a'] []).2.IsSound 3 ∧
      ∃ deeper, [['a']] <:+ deeper ∧ ['a'] ∈ deeper ∧
        [['a'], ['b'], ['a']] = deeper.reverse ++ [['a']] := by
  obtain ⟨-, components, -, -, pages, -⟩ := ring.session_balanced
  have failed : ((ring.page 3 ['a'] (.plain "<app-b></app-b>".toList "component:a".toList) []).run
      []).1 = .error (.componentLoop ['a'] [['a'], ['b'], ['a']]) := by decide +kernel
  exact ⟨by decide +kernel, by decide +kernel, (components ['a'] []).2.2,
    (pages [] ['a'] _ []).2.2 List.not_mem_nil ['a'] _ failed⟩

end Workshop

end Templates
