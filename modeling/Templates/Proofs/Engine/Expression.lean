import Mathlib.Data.List.Nodup
import Templates.Proofs.Directive.Idle
import Templates.Proofs.Echo.Braces
import Templates.Proofs.Engine.Plain
import Templates.Proofs.Program.Lowered
import Templates.Proofs.Program.Written

/-!
What becomes of an expression between its source and its artifact.

An expression is written to a tag as it stands, in double braces or in an assignment. The directives
look at the artifact once more, and at all that stands in its tags.
-/

namespace Templates

open Text

/-- The names of variables: they begin with a letter or an underscore, and are no keywords. -/
structure Lexer.IsVariable (name : Text) : Prop where
  starts : name.head?.any startsName = true
  continues : ∀ c ∈ name, continuesName c = true
  free : word name = .name name

namespace Lexer.IsVariable

variable {name : Text} (named : IsVariable name)

include named

/-- A name in front of a blank is a token by itself. -/
theorem lexed {rest : Text} {tokens : List Token} (lexed : Lexed (' ' :: rest) tokens) :
    Lexed (name ++ ' ' :: rest) (.name name :: tokens) := by
  obtain ⟨starts, continues, free⟩ := named
  cases name with
  | nil => cases starts
  | cons c name =>
    have starts : startsName c = true := by simpa using starts
    have noGap : isGap c = false := by
      rw [Bool.eq_false_iff]
      intro gap
      simp only [isGap, Bool.or_eq_true, decide_eq_true_eq] at gap
      rcases gap with ((rfl | rfl) | rfl) | rfl <;> exact absurd starts (by decide)
    -- The name goes on up to the blank.
    have others : ∀ d ∈ name, continuesName d = true :=
      fun d member => continues d (.tail c member)
    have stops : ∀ d, (' ' :: rest).head? = some d → continuesName d = false := by
      intro d same
      obtain rfl := Option.some.inj same
      rfl
    have found : token? (c :: (name ++ ' ' :: rest)) = some (.name (c :: name), ' ' :: rest) := by
      rw [token?, if_pos starts, takeWhile_append others stops, dropWhile_append others stops, free]
    exact .token noGap found lexed

/-- A name does not begin with a blank. -/
theorem trim_append {rest : Text} (filled : trimEnd rest ≠ []) :
    trim (name ++ rest) = name ++ trimEnd rest := by
  -- The characters of names leave a mark.
  have starts := named.starts
  cases name with
  | nil => cases starts
  | cons c others =>
    have marked : isBlank c = false := by
      apply Lexer.not_isBlank_of_printing
      exact Lexer.printing_of_name (.inr (named.continues c (.head _)))
    rw [trim, List.cons_append, trimStart_of_head marked, ← List.cons_append,
      trimEnd_append filled]

/-- No brace stands in a name. -/
theorem notMem_of_brace {c : Char} (brace : c = '\x7b' ∨ c = '\x7d') : c ∉ name := by
  intro member
  have continues := named.continues c member
  rcases brace with rfl | rfl <;> exact absurd continues (by decide)

end Lexer.IsVariable

/-- A variable may be set to what is accepted as an expression. -/
theorem Assignment.read_of_expression {base : Nat} {t name : Text} {e : Expr}
    (accepted : Expr.read base t = .ok e) (named : Lexer.IsVariable name) (other : Nat) :
    Assignment.read other (name ++ (" = ".toList ++ t)) = .ok ⟨name, e⟩ := by
  obtain ⟨tokens, lexed, stands⟩ := Expr.read_eq_ok_iff.mp accepted
  -- The sign between the name and the expression has blanks around it.
  have behind : Lexed (' ' :: t) tokens := .gap rfl lexed
  have sign : Lexed ('=' :: ' ' :: t) (.symbol .assign :: tokens) := .token rfl rfl behind
  have whole := named.lexed (.gap rfl sign)
  exact Assignment.read_eq_ok_iff.mpr ⟨_, whole, .intro name stands⟩

/-- A string whose quotes are closed is an expression. -/
theorem Expr.read_string {quote : Char} {body : Text} (isQuote : IsQuote quote)
    (closed : Lexer.closeString? quote body = some (body, [])) (base : Nat) :
    Expr.read base (quote :: body) = .ok (.literal (.text (Literal.string (quote :: body)))) := by
  -- A quote begins neither a name nor a number, and nothing follows the string.
  have noGap : Lexer.isGap quote = false := by rcases isQuote with rfl | rfl <;> rfl
  have found : Lexer.token? (quote :: body) = some (.string (quote :: body), []) := by
    rcases isQuote with rfl | rfl <;>
      rw [Lexer.token?, if_neg (by decide), if_neg (by decide), if_pos (by decide), closed] <;> rfl
  have lexed : Lexed (quote :: body) [.string (quote :: body)] := .token noGap found .nil
  exact Expr.read_eq_ok_iff.mpr
    ⟨_, lexed, 1, Grammar.Joined.single (.accessed (.primary (.string _)))⟩

namespace Workshop

/-- An expression in double braces. -/
def bracedSource (t : Text) : Text :=
  "\x7b\x7b ".toList ++ (t ++ " \x7d\x7d".toList)

/-- The tag that writes the value of an expression. -/
def bracedArtifact (t : Text) : Text :=
  "<%= ".toList ++ (trim t ++ " %>".toList)

/-- A marker that sets a variable to the value of an expression. -/
def setSource (name t : Text) : Text :=
  "@set(".toList ++ (name ++ (" = ".toList ++ (t ++ [')'])))

/-- The tag that sets a variable to the value of an expression. -/
def setArtifact (name t : Text) : Text :=
  "<% set ".toList ++ (name ++ (" = ".toList ++ (trimEnd t ++ " %>".toList)))

variable {workshop : Workshop} {t name : Text} {base : Nat} {e : Expr}

/-- An accepted expression is not blank. -/
theorem isAllBlank_of_read (accepted : Expr.read base t = .ok e) : isAllBlank t = false := by
  have filled := Expr.grammatical.ne_nil (Expr.grammatical.trim accepted 0)
  rw [Ne, trim_eq_nil_iff] at filled
  simpa using filled

/-- Expressions in braces are rewritten to a tag. -/
theorem compile_bracedSource (accepted : Expr.read base t = .ok e) (noOpening : '\x7b' ∉ t)
    (noClosing : '\x7d' ∉ t) : Echo.compile (bracedSource t) = bracedArtifact t := by
  let inner : Echo.Inner :=
    ⟨[' '], t, [' '], rfl, isAllBlank_of_read accepted, rfl, noOpening, noClosing⟩
  -- A blank stands between the braces and the expression, so these are no raw braces.
  have free : Echo.isCaptured inner.write [] = false := rfl
  have rewritten := Echo.compile_escaped free
  have written : (Echo.Part.escaped inner).write ++ [] = bracedSource t := by
    show "\x7b\x7b ".toList ++ (t ++ [' '] ++ "\x7d\x7d".toList) ++ [] = _
    rw [List.append_nil, List.append_assoc t]
    rfl
  rw [written] at rewritten
  rw [rewritten]
  show (Echo.Part.escaped inner).translate ++ [] = bracedArtifact t
  rw [List.append_nil]
  rfl

/-- A marker without braces in its expression is left to the directives. -/
theorem compile_setSource (named : Lexer.IsVariable name) (noOpening : '\x7b' ∉ t)
    (noClosing : '\x7d' ∉ t) : Echo.compile (setSource name t) = setSource name t := by
  have absent {c : Char} (brace : c = '\x7b' ∨ c = '\x7d') (other : c ∉ t) :
      c ∉ setSource name t := by
    have outside := named.notMem_of_brace brace
    -- The word of the marker, the sign behind the name and the parenthesis hold no brace either.
    rcases brace with rfl | rfl <;>
      exact List.not_mem_append (by decide) (List.not_mem_append outside
        (List.not_mem_append (by decide) (List.not_mem_append other (by decide))))
  have unchanged := Echo.compile_plain
    ⟨setSource name t, absent (.inl rfl) noOpening, absent (.inr rfl) noClosing⟩ []
  rw [List.append_nil] at unchanged
  rw [unchanged]
  exact List.append_nil _

/-- The blanks around an assignment are those in front of its name and behind its expression. -/
theorem trim_assignment (accepted : Expr.read base t = .ok e) (named : Lexer.IsVariable name) :
    trim (name ++ (" = ".toList ++ t)) = name ++ (" = ".toList ++ trimEnd t) := by
  -- What stands behind the name is not all blank, and neither is its part behind the sign.
  have stays : trimEnd t ≠ [] := by
    rw [Ne, trimEnd_eq_nil_iff, isAllBlank_of_read accepted]
    decide
  have behind := trimEnd_append stays " = ".toList
  have filled : trimEnd (" = ".toList ++ t) ≠ [] := by
    rw [behind]
    exact List.cons_ne_nil _ _
  rw [named.trim_append filled, behind]

/-- How the tag of an assignment is written. -/
theorem write_setTag (name t : Text) :
    (Piece.tag .setTag (name ++ (" = ".toList ++ trimEnd t))).write = setArtifact name t := by
  have filled : name ++ (" = ".toList ++ trimEnd t) ≠ [] :=
    List.append_ne_nil_of_right_ne_nil name (List.cons_ne_nil _ _)
  -- A tag with anything behind its first word has a blank between the two.
  obtain ⟨c, header, cons⟩ := List.exists_cons_of_ne_nil filled
  have joined : setArtifact name t =
      "<% set ".toList ++ (name ++ (" = ".toList ++ trimEnd t) ++ " %>".toList) := by
    rw [List.append_assoc name, List.append_assoc " = ".toList]
    rfl
  rw [joined, cons]
  rfl

/-- A pass rewrites an assignment to a tag. -/
theorem pass_setSource (accepted : Expr.read base t = .ok e) (named : Lexer.IsVariable name)
    (maxDepth depth : Nat) :
    Directive.builtins.pass maxDepth (depth + 1) (setSource name t) = .ok (setArtifact name t) := by
  have assigns := Assignment.read_of_expression accepted named 0
  have balanced := Assignment.grammatical.balanced assigns
  -- The source is a template of nothing but the marker.
  let template : Template := .single "set".toList (name ++ (" = ".toList ++ t)) .done
  have wellFormed : Template.WellFormed Directive.builtins template :=
    ⟨⟨⟨rfl, List.all_eq_true.mp rfl, rfl⟩, rfl, balanced, trivial⟩, rfl, rfl, trivial⟩
  have written : template.source = setSource name t := by
    show "@set(".toList ++ (name ++ (" = ".toList ++ t) ++ [')']) ++ [] = _
    rw [List.append_nil, List.append_assoc name, List.append_assoc " = ".toList]
    rfl
  have header := trim_assignment accepted named
  have filled := Assignment.grammatical.ne_nil (Assignment.grammatical.trim assigns 0)
  have answered := Template.answer_statement (trim_trim _) filled "set" rfl .setTag rfl
  have translated := Template.translate_single answered Template.translate_done
  rw [← written, Template.pass_source maxDepth wellFormed (Nat.succ_pos depth), translated, header,
    List.append_nil, write_setTag]

/-- An artifact that leads from nothing to statements is read as these. -/
theorem read_of_reads {nodes : List Node} {artifact : Text}
    (reads : Builder.start.Reads artifact [] (Builder.start.addAll nodes)) :
    Program.read artifact = .ok nodes := by
  obtain ⟨later, read⟩ := reads 0
  rw [List.append_nil] at read
  exact read.trans (Builder.finish_addAll_start nodes)

/-- The tag of an expression is read as the output of its value. -/
theorem read_bracedArtifact (accepted : Expr.read base t = .ok e) :
    Program.read (bracedArtifact t) = .ok [.echo e true] := by
  have inTag : Expr.read 0 (trim t) = .ok e := Expr.grammatical.trim accepted 0
  exact read_of_reads (.echo inTag true)

/-- The tag of an assignment is read as the assignment. -/
theorem read_setArtifact (accepted : Expr.read base t = .ok e) (named : Lexer.IsVariable name) :
    Program.read (setArtifact name t) = .ok [.assign name e] := by
  -- In the tag stands the assignment without the blanks around it, which is read all the same.
  have assigns := Assignment.read_of_expression accepted named 0
  have inTag := Assignment.grammatical.trim assigns 0
  rw [trim_assignment accepted named] at inTag
  rw [← write_setTag]
  exact read_of_reads (.last_tag (Assignment.grammatical.untagged inTag)
    (Builder.start.takes_set (Assignment.grammatical.trim inTag)))

/-- With the builtin directives an accepted expression without braces comes to the artifact as it
stands exactly when no directive finds a marker of its own in the tag of the expression. What is read
from that tag is the expression. -/
theorem compile_expression (builtin : workshop.directives = Directive.builtins)
    (accepted : Expr.read base t = .ok e) (noOpening : '\x7b' ∉ t) (noClosing : '\x7d' ∉ t)
    (named : Lexer.IsVariable name) (origin : Text) :
    (workshop.IsPlain (bracedSource t) →
      (workshop.compile (bracedSource t) origin = .ok (bracedArtifact t) ↔
        0 < workshop.config.maxDepth ∧ workshop.directives.isIdle (bracedArtifact t) = true)) ∧
    (workshop.IsPlain (setSource name t) →
      (workshop.compile (setSource name t) origin = .ok (setArtifact name t) ↔
        1 < workshop.config.maxDepth ∧ workshop.directives.isIdle (setArtifact name t) = true)) ∧
    Program.read (bracedArtifact t) = .ok [.echo e true] ∧
    Program.read (setArtifact name t) = .ok [.assign name e] := by
  have writeTags : Directives.WriteTags workshop.directives :=
    builtin ▸ Directives.writeTags_builtins
  refine ⟨?_, ?_, read_bracedArtifact accepted, read_setArtifact accepted named⟩
  · intro plain
    -- The directives start with the artifact, and have to leave it as it is.
    have compiled (deep : 0 < workshop.config.maxDepth) :
        workshop.compile (bracedSource t) origin = .ok (bracedArtifact t) ↔
          workshop.directives.isIdle (bracedArtifact t) = true := by
      rw [plain.compile_eq deep, compile_bracedSource accepted noOpening noClosing,
        Directives.compile, Directives.passes_eq_self_iff writeTags deep]
      exact and_iff_right deep
    constructor
    · intro done
      have deep := maxDepth_of_compile done
      exact ⟨deep, (compiled deep).mp done⟩
    · rintro ⟨deep, idle⟩
      exact (compiled deep).mpr idle
  · intro plain
    -- The first pass writes the artifact, and the others have to leave it as it is.
    have compiled (deep : 0 < workshop.config.maxDepth) :
        workshop.compile (setSource name t) origin = .ok (setArtifact name t) ↔
          0 < workshop.config.maxDepth - 1 ∧
            workshop.directives.isIdle (setArtifact name t) = true := by
      obtain ⟨depth, isDepth⟩ := Nat.exists_eq_add_one.mpr deep
      have first : workshop.directives.pass (depth + 1) (depth + 1) (setSource name t) =
          .ok (setArtifact name t) := by
        rw [builtin]
        exact pass_setSource accepted named (depth + 1) depth
      have changes : setArtifact name t ≠ setSource name t := by
        intro same
        have heads : some '<' = some '@' := congrArg List.head? same
        cases heads
      rw [plain.compile_eq deep, compile_setSource named noOpening noClosing, Directives.compile,
        isDepth, Directives.passes, first]
      show (if setArtifact name t = setSource name t then _ else _) = _ ↔ _
      rw [if_neg changes, Nat.add_sub_cancel]
      exact Directives.passes_eq_self_iff writeTags (Nat.succ_pos depth) depth _
    constructor
    · intro done
      have deep := maxDepth_of_compile done
      obtain ⟨more, idle⟩ := (compiled deep).mp done
      exact ⟨by omega, idle⟩
    · rintro ⟨deep, idle⟩
      exact (compiled (by omega)).mpr ⟨by omega, idle⟩

/-- A workshop with the builtin directives and without files or components. -/
def builtinWorkshop : Workshop where
  config := {}
  files := Memory.files []
  directives := Directive.builtins
  components := ⟨[], none⟩
  expander := ⟨"app".toList, 32⟩

/-- A string with an address and a name that no directive has. -/
def address : Text :=
  "'mail a@break.com, @media'".toList

/-- A string comes through as it is, with an address whose end is the name of a directive and with
a name that no directive has. -/
theorem compile_address :
    builtinWorkshop.compile "\x7b\x7b 'mail a@break.com, @media' \x7d\x7d".toList [] =
      .ok "<%= 'mail a@break.com, @media' %>".toList ∧
    builtinWorkshop.compile "@set(x = 'mail a@break.com, @media')".toList [] =
      .ok "<% set x = 'mail a@break.com, @media' %>".toList ∧
    Program.read "<%= 'mail a@break.com, @media' %>".toList =
      .ok [.echo (.literal (.text "mail a@break.com, @media".toList)) true] := by
  have closed : Lexer.closeString? '\'' "mail a@break.com, @media'".toList =
      some ("mail a@break.com, @media'".toList, []) := by decide +kernel
  have accepted : Expr.read 0 address = .ok (.literal (.text (Literal.string address))) :=
    Expr.read_string (.inr rfl) closed 0
  have content : Literal.string address = "mail a@break.com, @media".toList := by decide +kernel
  rw [content] at accepted
  have named : Lexer.IsVariable ['x'] := ⟨rfl, List.all_eq_true.mp rfl, rfl⟩
  have builtin : builtinWorkshop.directives = Directive.builtins := rfl
  obtain ⟨braced, set, read, -⟩ := compile_expression builtin accepted (by decide +kernel)
    (by decide +kernel) named []
  have plainBraced : builtinWorkshop.IsPlain (bracedSource address) :=
    ⟨by decide +kernel, by decide +kernel, by decide +kernel, by decide +kernel, by decide +kernel⟩
  have plainSet : builtinWorkshop.IsPlain (setSource ['x'] address) :=
    ⟨by decide +kernel, by decide +kernel, by decide +kernel, by decide +kernel, by decide +kernel⟩
  -- Both artifacts hold the same markers, none of which is looked for.
  have idleBraced : builtinWorkshop.directives.isIdle (bracedArtifact address) = true :=
    Directives.isIdle_of_isForeign (by decide +kernel)
  have idleSet : builtinWorkshop.directives.isIdle (setArtifact ['x'] address) = true :=
    Directives.isIdle_of_isForeign (by decide +kernel)
  exact ⟨(braced plainBraced).mpr ⟨by decide, idleBraced⟩, (set plainSet).mpr ⟨by decide, idleSet⟩,
    read⟩

/-- A string that holds the name of a directive between blanks gets the tag of the directive into
it. -/
theorem compile_lowers_quoted_break :
    Expr.read 0 "' @break '".toList = .ok (.literal (.text " @break ".toList)) ∧
    builtinWorkshop.compile "\x7b\x7b ' @break ' \x7d\x7d".toList [] =
      .ok "<%= ' <% break %> ' %>".toList ∧
    builtinWorkshop.compile "@set(x = ' @break ')".toList [] =
      .ok "<% set x = ' <% break %> ' %>".toList := by
  have closed : Lexer.closeString? '\'' " @break '".toList = some (" @break '".toList, []) := by
    decide +kernel
  have accepted := Expr.read_string (.inr rfl) closed 0
  have content : Literal.string "' @break '".toList = " @break ".toList := by decide +kernel
  refine ⟨?_, by decide +kernel, by decide +kernel⟩
  rw [← content]
  exact accepted

end Workshop

end Templates
