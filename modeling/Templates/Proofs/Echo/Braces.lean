import Templates.Echo
import Templates.Proofs.Text.Scan
import Templates.Proofs.Text.Trim

/-!
Expressions in braces between texts without braces.

Raw braces are looked for first, in all of the source. They are found where they stand, and also at
the second of two braces with exclamation marks behind them. Everything else is rewritten where it
stands, whatever stands around it.
-/

namespace Templates.Echo

open Text

/-- Text that stands between braces. -/
structure Plain where
  text : Text
  noOpening : '\x7b' ∉ text
  noClosing : '\x7d' ∉ text

/-- What stands in braces: an expression, which is not blank, with blanks around it. -/
structure Inner where
  before : Text
  text : Text
  behind : Text
  blankBefore : isAllBlank before = true
  filled : isAllBlank text = false
  blankBehind : isAllBlank behind = true
  noOpening : '\x7b' ∉ text
  noClosing : '\x7d' ∉ text

/-- What stands in braces as it is written. -/
def Inner.write (inner : Inner) : Text :=
  inner.before ++ (inner.text ++ inner.behind)

/-- A part of a source: text, or an expression in one of the two kinds of braces. -/
inductive Part where
  | plain (piece : Plain)
  | escaped (inner : Inner)
  | raw (inner : Inner)

/-- Whether an expression in double braces, with a text behind these, is taken for one in raw braces:
they are read at the second brace, and hold more than blanks. -/
def isCaptured (inner rest : Text) : Bool :=
  match rule "\x7b!!" "!!\x7d" ('\x7b' :: (inner ++ ("\x7d\x7d".toList ++ rest))) with
  | some (braced, _) => !braced.expression.isEmpty
  | none => false

namespace Part

/-- How a part is written. -/
def write : Part → Text
  | plain piece => piece.text
  | escaped inner => "\x7b\x7b".toList ++ (inner.write ++ "\x7d\x7d".toList)
  | raw inner => "\x7b!!".toList ++ (inner.write ++ "!!\x7d".toList)

/-- How a source is written. -/
def writeAll (parts : List Part) : Text :=
  parts.flatMap write

/-- A part with its expression in a statement tag. -/
def translate : Part → Text
  | plain piece => piece.text
  | escaped inner => "<%= ".toList ++ (trim inner.text ++ " %>".toList)
  | raw inner => "<%- ".toList ++ (trim inner.text ++ " %>".toList)

/-- A source with all its expressions in statement tags. -/
def translateAll (parts : List Part) : Text :=
  parts.flatMap translate

/-- No expression in double braces is taken for one in raw braces. -/
def areApart : List Part → Bool
  | [] => true
  | escaped inner :: parts => !isCaptured inner.write (writeAll parts) && areApart parts
  | _ :: parts => areApart parts

/-- A source is written part by part. -/
theorem writeAll_cons (part : Part) (parts : List Part) :
    writeAll (part :: parts) = part.write ++ writeAll parts := rfl

/-- A source is translated part by part. -/
theorem translateAll_cons (part : Part) (parts : List Part) :
    translateAll (part :: parts) = part.translate ++ translateAll parts := rfl

end Part

namespace Inner

variable (inner : Inner)

/-- No other braces stand in braces. -/
theorem notMem_write {c : Char} (brace : c = '\x7b' ∨ c = '\x7d') : c ∉ inner.write := by
  have marked : isBlank c = false := by rcases brace with rfl | rfl <;> decide
  have absent : c ∉ inner.text := by
    rcases brace with rfl | rfl
    · exact inner.noOpening
    · exact inner.noClosing
  simp [write, absent, notMem_of_isAllBlank inner.blankBefore marked,
    notMem_of_isAllBlank inner.blankBehind marked]

/-- No other braces stand in an expression. -/
theorem notMem_trim {c : Char} (brace : c = '\x7b' ∨ c = '\x7d') : c ∉ trim inner.text := by
  intro member
  have inside := mem_of_mem_trim member
  rcases brace with rfl | rfl
  · exact inner.noOpening inside
  · exact inner.noClosing inside

/-- What stands in braces is not blank. -/
theorem trimStart_write_ne_nil : trimStart inner.write ≠ [] := by
  rw [write, trimStart_append_of_blank inner.blankBefore, Ne, trimStart_eq_nil_iff]
  have filled := inner.filled
  rw [isAllBlank] at filled
  simp [isAllBlank, filled]

/-- What stands in braces is trimmed to the expression. -/
theorem trim_write : trimEnd (trimStart inner.write) = trim inner.text := by
  have stays : trimStart inner.text ≠ [] := by
    rw [Ne, trimStart_eq_nil_iff, inner.filled]
    decide
  rw [write, trimStart_append_of_blank inner.blankBefore, trimStart_append stays]
  exact trimEnd_append_of_empty (trimEnd_eq_nil_iff.mpr inner.blankBehind) _

/-- The expression is not empty. -/
theorem trim_ne_nil : trim inner.text ≠ [] := by
  rw [Ne, trim_eq_nil_iff, inner.filled]
  decide

end Inner

/-- A rule for braces reads nothing but what begins with them. -/
theorem needs_rule (opening closing : Text) : Needs opening (rule opening closing) := by
  intro text other
  rw [startsWith, Option.isSome_eq_false_iff, Option.isNone_iff_eq_none] at other
  rw [rule, other]

/-- An expression in braces is read up to where they are closed for the first time. -/
theorem rule_eq {opening closing inner rest body : Text}
    (cut : cut? closing (trimStart (inner ++ (closing ++ rest))) = some (body, rest)) :
    rule opening closing (opening ++ (inner ++ closing) ++ rest) =
      some (⟨trimEnd body, opening ++ (inner ++ closing)⟩, rest) := by
  have stripped : strip? opening (opening ++ (inner ++ closing) ++ rest) =
      some (inner ++ (closing ++ rest)) := by
    rw [List.append_assoc, List.append_assoc, strip?_append]
  have taken : (opening ++ (inner ++ closing) ++ rest).take
      ((opening ++ (inner ++ closing) ++ rest).length - rest.length) =
        opening ++ (inner ++ closing) := by
    apply List.take_left'
    simp
    omega
  simp only [rule, stripped, cut, Option.map_some, taken]

/-- What has been read in braces is what stands between them and what follows. -/
theorem exists_of_rule {opening closing text rest : Text} {braced : Braced}
    (found : rule opening closing text = some (braced, rest)) :
    ∃ blanks body, isAllBlank blanks = true ∧ braced.expression = trimEnd body ∧
      braced.raw = opening ++ (blanks ++ (body ++ closing)) ∧ text = braced.raw ++ rest := by
  rw [rule] at found
  split at found
  · cases found
  · rename_i inner stripped
    obtain ⟨⟨body, after⟩, cut, same⟩ := Option.map_eq_some_iff.mp found
    cases same
    -- The blanks that are trimmed and what follows them make up what stands in the braces.
    have inside : inner = inner.takeWhile isBlank ++ (body ++ closing ++ rest) := by
      rw [← eq_of_cut? cut]
      exact List.takeWhile_append_dropWhile.symm
    have whole : text =
        opening ++ (inner.takeWhile isBlank ++ (body ++ closing)) ++ rest := by
      rw [eq_append_of_strip? stripped, List.append_assoc, List.append_assoc, ← inside]
    have taken : text.take (text.length - rest.length) =
        opening ++ (inner.takeWhile isBlank ++ (body ++ closing)) := by
      rw [whole]
      apply List.take_left'
      simp
      omega
    refine ⟨inner.takeWhile isBlank, body, List.all_takeWhile, rfl, taken, ?_⟩
    rw [taken]
    exact whole

/-- Double braces are read up to the first two that close any. -/
theorem rule_escaped (inner : Inner) (rest : Text) :
    rule "\x7b\x7b" "\x7d\x7d" ((Part.escaped inner).write ++ rest) =
      some (⟨trim inner.text, (Part.escaped inner).write⟩, rest) := by
  have absent : '\x7d' ∉ trimStart inner.write := by
    intro member
    exact inner.notMem_write (.inr rfl) ((List.dropWhile_sublist isBlank).subset member)
  rw [← inner.trim_write]
  apply rule_eq
  rw [trimStart_append inner.trimStart_write_ne_nil]
  exact cut?_of_notMem absent _ _

/-- Raw braces are read up to the first that close any. -/
theorem rule_raw (inner : Inner) (rest : Text) :
    rule "\x7b!!" "!!\x7d" ((Part.raw inner).write ++ rest) =
      some (⟨trim inner.text, (Part.raw inner).write⟩, rest) := by
  -- Without a brace in it, an expression does not hold what closes raw braces.
  have absent : contains "!!\x7d".toList (trimStart inner.write) = false := by
    rw [Bool.eq_false_iff, Ne, contains_iff]
    intro closes
    apply inner.notMem_write (.inr rfl)
    apply (List.dropWhile_sublist isBlank).subset
    exact closes.subset (by decide)
  rw [← inner.trim_write]
  apply rule_eq
  rw [trimStart_append inner.trimStart_write_ne_nil, ← List.append_assoc]
  exact cut?_append (by decide) (by decide) absent rest

/-- Text without an opening brace stays in front of raw braces. -/
theorem compileRaw_append {front : Text} (absent : '\x7b' ∉ front) (rest : Text) :
    compileRaw (front ++ rest) = front ++ compileRaw rest := by
  have needs : Needs ('\x7b' :: "!!".toList) (rule "\x7b!!" "!!\x7d") := needs_rule _ _
  exact (needs.passes_of_notMem absent rest).replaceHits

/-- Text without an opening brace stays in front of double braces. -/
theorem compileEscaped_append {front : Text} (absent : '\x7b' ∉ front) (rest : Text) :
    compileEscaped (front ++ rest) = front ++ compileEscaped rest := by
  have needs : Needs ('\x7b' :: "\x7b".toList) (rule "\x7b\x7b" "\x7d\x7d") := needs_rule _ _
  exact (needs.passes_of_notMem absent rest).replaceHits

/-- Text without braces stays where it is. -/
theorem compile_plain (piece : Plain) (rest : Text) :
    compile (piece.text ++ rest) = piece.text ++ compile rest := by
  rw [compile, compileRaw_append piece.noOpening, compileEscaped_append piece.noOpening, compile]

/-- An expression in raw braces is rewritten where it stands. -/
theorem compile_raw (inner : Inner) (rest : Text) :
    compile ((Part.raw inner).write ++ rest) = (Part.raw inner).translate ++ compile rest := by
  have filled : (Part.raw inner).write ≠ [] := by simp [Part.write]
  have tag : Echo.write "<%-" ⟨trim inner.text, (Part.raw inner).write⟩ =
      (Part.raw inner).translate := by
    simp [Echo.write, inner.trim_ne_nil, Part.translate]
  have rewritten : compileRaw ((Part.raw inner).write ++ rest) =
      (Part.raw inner).translate ++ compileRaw rest := by
    rw [← tag]
    exact replaceHits_scan_hit filled (rule_raw inner rest)
  -- No double braces begin in the tag.
  have absent : '\x7b' ∉ (Part.raw inner).translate := by
    simp [Part.translate, inner.notMem_trim (.inl rfl)]
  rw [compile, rewritten, compileEscaped_append absent, compile]

/-- Raw braces around blanks that are read at the second of two braces end with the first of the two
that close these. -/
theorem eq_of_rule_blank {inner : Inner} {rest behind : Text} {braced : Braced}
    (found : rule "\x7b!!" "!!\x7d"
      ('\x7b' :: (inner.write ++ ("\x7d\x7d".toList ++ rest))) = some (braced, behind))
    (empty : braced.expression = []) :
    braced.raw = '\x7b' :: (inner.write ++ ['\x7d']) ∧ behind = '\x7d' :: rest := by
  obtain ⟨blanks, body, blank, trimmed, raw, whole⟩ := exists_of_rule found
  rw [trimmed, trimEnd_eq_nil_iff] at empty
  -- Neither of the two ways to write the source has a closing brace in front of its first one.
  have absent : '\x7d' ∉ "!!".toList ++ (blanks ++ (body ++ "!!".toList)) := by
    simp [notMem_of_isAllBlank blank (c := '\x7d') (by decide),
      notMem_of_isAllBlank empty (c := '\x7d') (by decide)]
  have same : inner.write ++ '\x7d' :: ('\x7d' :: rest) =
      ("!!".toList ++ (blanks ++ (body ++ "!!".toList))) ++ '\x7d' :: behind := by
    rw [raw] at whole
    simpa using whole
  obtain ⟨written, rfl⟩ := eq_of_first (inner.notMem_write (.inr rfl)) absent same
  refine ⟨?_, rfl⟩
  rw [raw, written]
  simp

/-- The first of two braces stays, and raw braces are looked for at the second one. -/
theorem compileRaw_second (inner : Inner) (rest : Text) :
    compileRaw ((Part.escaped inner).write ++ rest) =
      '\x7b' :: compileRaw ('\x7b' :: (inner.write ++ ("\x7d\x7d".toList ++ rest))) := by
  have first : Passes (rule "\x7b!!" "!!\x7d") ['\x7b']
      ('\x7b' :: (inner.write ++ ("\x7d\x7d".toList ++ rest))) := ⟨rfl, trivial⟩
  have split : (Part.escaped inner).write ++ rest =
      ['\x7b'] ++ '\x7b' :: (inner.write ++ ("\x7d\x7d".toList ++ rest)) := by
    simp [Part.write]
  rw [split]
  exact first.replaceHits

/-- An expression in double braces that is not captured stays where it is in front of raw braces. -/
theorem compileRaw_escaped {inner : Inner} {rest : Text}
    (free : isCaptured inner.write rest = false) :
    compileRaw ((Part.escaped inner).write ++ rest) =
      (Part.escaped inner).write ++ compileRaw rest := by
  rw [compileRaw_second]
  rw [isCaptured] at free
  split at free
  · -- What is read is blank and stays as it is, up to the first of the braces that close.
    rename_i braced behind found
    have empty : braced.expression = [] := by simpa using free
    obtain ⟨raw, rfl⟩ := eq_of_rule_blank found empty
    have whole : '\x7b' :: (inner.write ++ ("\x7d\x7d".toList ++ rest)) =
        '\x7b' :: (inner.write ++ ['\x7d']) ++ '\x7d' :: rest := by simp
    have closing : '\x7b' ∉ ['\x7d'] := by decide
    have others : compileRaw ('\x7d' :: rest) = '\x7d' :: compileRaw rest :=
      compileRaw_append closing rest
    have unchanged : Echo.write "<%-" braced = '\x7b' :: (inner.write ++ ['\x7d']) := by
      simp [Echo.write, empty, raw]
    rw [whole] at found ⊢
    rw [compileRaw, replaceHits_scan_hit (List.cons_ne_nil _ _) found, ← compileRaw, others,
      unchanged]
    simp [Part.write]
  · -- Nothing is read at the second brace, and no brace is open behind it.
    rename_i missing
    have absent : '\x7b' ∉ inner.write ++ "\x7d\x7d".toList := by
      simp [inner.notMem_write (.inl rfl)]
    have second : Passes (rule "\x7b!!" "!!\x7d") ['\x7b']
        (inner.write ++ ("\x7d\x7d".toList ++ rest)) := ⟨missing, trivial⟩
    have stays : compileRaw ('\x7b' :: (inner.write ++ ("\x7d\x7d".toList ++ rest))) =
        '\x7b' :: compileRaw (inner.write ++ ("\x7d\x7d".toList ++ rest)) := second.replaceHits
    have others := compileRaw_append absent rest
    rw [List.append_assoc] at others
    rw [stays, others]
    simp [Part.write]

/-- An expression in double braces that is not captured is rewritten where it stands. -/
theorem compile_escaped {inner : Inner} {rest : Text}
    (free : isCaptured inner.write rest = false) :
    compile ((Part.escaped inner).write ++ rest) =
      (Part.escaped inner).translate ++ compile rest := by
  have filled : (Part.escaped inner).write ≠ [] := by simp [Part.write]
  have tag : Echo.write "<%=" ⟨trim inner.text, (Part.escaped inner).write⟩ =
      (Part.escaped inner).translate := by
    simp [Echo.write, inner.trim_ne_nil, Part.translate]
  rw [compile, compileRaw_escaped free, ← tag]
  exact replaceHits_scan_hit filled (rule_escaped inner (compileRaw rest))

/-- The first of two braces stays when something is captured at the second one. -/
theorem compile_captured {inner : Inner} {rest : Text}
    (captured : isCaptured inner.write rest = true) :
    ∃ others, compile ((Part.escaped inner).write ++ rest) = '\x7b' :: others := by
  rw [isCaptured] at captured
  split at captured
  · rename_i braced behind found
    obtain ⟨blanks, body, -, -, raw, whole⟩ := exists_of_rule found
    have filled : braced.raw ≠ [] := by simp [raw]
    have filledExpression : braced.expression.isEmpty = false := by simpa using captured
    rw [whole] at found
    -- The tag of what is captured stands behind the first brace, which opens nothing any more.
    have rewritten : compileRaw ((Part.escaped inner).write ++ rest) =
        '\x7b' :: '<' :: ("%- ".toList ++ (braced.expression ++ (" %>".toList ++
          compileRaw behind))) := by
      rw [compileRaw_second, whole, compileRaw, replaceHits_scan_hit filled found, ← compileRaw]
      simp [Echo.write, filledExpression]
    rw [compile, rewritten]
    exact ⟨_, rfl⟩
  · cases captured

/-- All expressions are rewritten where they stand exactly when none in double braces is taken for one
in raw braces. -/
theorem compile_writeAll_iff (parts : List Part) :
    compile (Part.writeAll parts) = Part.translateAll parts ↔ Part.areApart parts = true := by
  induction parts with
  | nil => exact ⟨fun _ => rfl, fun _ => rfl⟩
  | cons part parts ih =>
    rw [Part.writeAll_cons, Part.translateAll_cons]
    cases part with
    | plain piece =>
      show compile (piece.text ++ _) = piece.text ++ _ ↔ _
      rw [compile_plain, List.append_cancel_left_eq, ih]
      rfl
    | raw inner =>
      rw [compile_raw, List.append_cancel_left_eq, ih]
      rfl
    | escaped inner =>
      rw [Part.areApart]
      cases captured : isCaptured inner.write (Part.writeAll parts) with
      | false =>
        rw [compile_escaped captured, List.append_cancel_left_eq, ih]
        simp
      | true =>
        -- The first brace stays, but a tag would begin with another character.
        obtain ⟨others, stays⟩ := compile_captured captured
        rw [stays]
        simp [Part.translate]

/-- A double negation right behind double braces is taken for the beginning of raw braces, up to the
end of those that follow. -/
theorem compile_captures_negation :
    compile "\x7b\x7b!!a\x7d\x7d \x7b!! b !!\x7d".toList =
      "\x7b<%- a\x7d\x7d \x7b!! b %>".toList := by
  decide +kernel

end Templates.Echo
