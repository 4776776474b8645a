import Templates.Proofs.Directive.Balanced
import Templates.Proofs.Directive.Idle
import Templates.Proofs.Directive.Scan

/-!
Texts that differ in characters which mean nothing to markers.

Where such characters stand in one text, others may stand in their place. They do not belong to
names and do not decide where an expression ends, so markers of the same names are found in both.
-/

namespace Templates

open Marker

/-- A character that begins no marker and is not looked at by the search for the end of one. -/
def Marker.isInert (c : Char) : Bool :=
  !"@()\"'\\".toList.contains c

/-- Characters that mean nothing to markers, the first of which ends a name. -/
structure Gap (text : Text) : Prop where
  filled : text ≠ []
  ends : ∀ c ∈ text.head?, continuesName c = false
  inert : ∀ c ∈ text, isInert c = true

/-- Texts that are the same between gaps, which may differ. -/
inductive Respaced : Text → Text → Prop
  | nil : Respaced [] []
  | same (c : Char) {s t : Text} (rest : Respaced s t) : Respaced (c :: s) (c :: t)
  | gap {a b s t : Text} (first : Gap a) (second : Gap b) (rest : Respaced s t) :
    Respaced (a ++ s) (b ++ t)

namespace Marker

/-- An inert character is none of those with a meaning. -/
theorem ne_of_isInert {c other : Char} (inert : isInert c = true)
    (meant : other ∈ "@()\"'\\".toList) : c ≠ other := by
  rintro rfl
  rw [isInert, List.contains_iff_mem.mpr meant] at inert
  cases inert

/-- What stands behind the parenthesis that balances as many open ones as are given. -/
def behind? (depth : Nat) (quote : Option Char) (text : Text) : Option Text :=
  (balance? depth quote text).map Prod.snd

/-- Nothing is closed at the end of a text. -/
theorem behind?_nil (depth : Nat) (quote : Option Char) : behind? depth quote [] = none := by
  cases quote <;> rfl

/-- A backslash in quotes takes the next character with it. -/
theorem behind?_backslash (depth : Nat) (quote : Char) (rest : Text) :
    behind? depth (some quote) ('\\' :: rest) = behind? depth (some quote) rest.tail := by
  cases rest with
  | nil => simp [behind?, balance?]
  | cons c rest => simp [behind?, balance?, Function.comp_def]

/-- Another character in quotes ends them or leaves them open. -/
theorem behind?_inside {c : Char} (noEscape : c ≠ '\\') (depth : Nat) (quote : Char) (rest : Text) :
    behind? depth (some quote) (c :: rest) =
      behind? depth (if c = quote then none else some quote) rest := by
  simp [behind?, balance?_inside noEscape, Function.comp_def]

/-- Outside of quotes a character closes, or opens and closes parentheses and quotes. -/
theorem behind?_outside (depth : Nat) (c : Char) (rest : Text) :
    behind? depth none (c :: rest) =
      if c = ')' ∧ depth ≤ 1 then some rest
      else behind? (if c = '(' then depth + 1 else if c = ')' then depth - 1 else depth)
        (if c = '"' ∨ c = '\'' then some c else none) rest := by
  by_cases closes : c = ')' ∧ depth ≤ 1
  · simp [behind?, balance?, closes]
  · simp [behind?, balance?, closes, Function.comp_def]

/-- Inert characters are passed over. -/
theorem behind?_inert {gap : Text} (inert : ∀ c ∈ gap, isInert c = true) (depth : Nat)
    {quote : Option Char} (proper : ∀ q ∈ quote, IsQuote q) (rest : Text) :
    behind? depth quote (gap ++ rest) = behind? depth quote rest := by
  induction gap with
  | nil => rfl
  | cons c gap ih =>
    -- Neither in quotes nor outside of them does the search look at the first character.
    obtain ⟨here, others⟩ := List.forall_mem_cons.mp inert
    have differs {other : Char} (meant : other ∈ "@()\"'\\".toList) : c ≠ other :=
      ne_of_isInert here meant
    rw [List.cons_append]
    cases quote with
    | some q =>
      have notQuote : c ≠ q := by
        rcases proper q rfl with rfl | rfl
        · exact differs (by decide)
        · exact differs (by decide)
      rw [behind?_inside (differs (by decide)), if_neg notQuote, ih others]
    | none =>
      have noOpen : c ≠ '(' := differs (by decide)
      have noClose : c ≠ ')' := differs (by decide)
      have noDouble : c ≠ '"' := differs (by decide)
      have noSingle : c ≠ '\'' := differs (by decide)
      rw [behind?_outside]
      simp only [noOpen, noClose, noDouble, noSingle, false_and, or_self, if_false]
      exact ih others

end Marker

namespace Gap

variable {gap : Text}

/-- No expression begins with a gap. -/
theorem head?_ne (isGap : Gap gap) (rest : Text) : (gap ++ rest).head? ≠ some '(' := by
  obtain ⟨c, gap, rfl⟩ := List.exists_cons_of_ne_nil isGap.filled
  have differs : c ≠ '(' := ne_of_isInert (isGap.inert c List.mem_cons_self) (by decide)
  simpa using differs

/-- No marker begins in a gap. -/
theorem noAt (isGap : Gap gap) : '@' ∉ gap :=
  fun member => ne_of_isInert (isGap.inert '@' member) (by decide) rfl

end Gap

namespace Respaced

variable {s t : Text}

/-- Every text is the same as itself. -/
theorem refl (s : Text) : Respaced s s := by
  induction s with
  | nil => exact .nil
  | cons c s ih => exact .same c ih

/-- The same text may stand in front. -/
theorem append_left (respaced : Respaced s t) (front : Text) :
    Respaced (front ++ s) (front ++ t) := by
  induction front with
  | nil => exact respaced
  | cons c front ih => exact .same c ih

/-- What follows the closing parenthesis is respaced, if there is one, and then there is one in both
texts. -/
theorem behind? (respaced : Respaced s t) (depth : Nat) {quote : Option Char}
    (proper : ∀ q ∈ quote, IsQuote q) :
    Option.Rel Respaced (behind? depth quote s) (behind? depth quote t) := by
  -- A backslash may take the first character of what follows, so this is carried as well.
  suffices both : ∀ (depth : Nat) (quote : Option Char), (∀ q ∈ quote, IsQuote q) →
      Option.Rel Respaced (Marker.behind? depth quote s) (Marker.behind? depth quote t) ∧
        Option.Rel Respaced (Marker.behind? depth quote s.tail)
          (Marker.behind? depth quote t.tail) from
    (both depth quote proper).1
  clear proper depth quote
  induction respaced with
  | nil =>
    intro depth quote proper
    simp only [List.tail_nil, behind?_nil]
    exact ⟨.none, .none⟩
  | same c rest ih =>
    intro depth quote proper
    refine ⟨?_, (ih depth quote proper).1⟩
    cases quote with
    | some q =>
      by_cases escape : c = '\\'
      · rw [escape, behind?_backslash, behind?_backslash]
        exact (ih depth (some q) proper).2
      · rw [behind?_inside escape, behind?_inside escape]
        refine (ih depth _ ?_).1
        split
        · simp
        · exact proper
    | none =>
      rw [behind?_outside, behind?_outside]
      split
      · exact .some rest
      · refine (ih _ _ ?_).1
        split
        · rename_i isQuote
          simpa [IsQuote] using isQuote
        · simp
  | @gap a b s t first second rest ih =>
    intro depth quote proper
    -- What a backslash leaves of a gap is passed over like the whole of it.
    obtain ⟨x, a, rfl⟩ := List.exists_cons_of_ne_nil first.filled
    obtain ⟨y, b, rfl⟩ := List.exists_cons_of_ne_nil second.filled
    have firstTail := (List.forall_mem_cons.mp first.inert).2
    have secondTail := (List.forall_mem_cons.mp second.inert).2
    rw [behind?_inert first.inert depth proper, behind?_inert second.inert depth proper]
    refine ⟨(ih depth quote proper).1, ?_⟩
    show Option.Rel Respaced (Marker.behind? depth quote (a ++ s))
      (Marker.behind? depth quote (b ++ t))
    rw [behind?_inert firstTail depth proper, behind?_inert secondTail depth proper]
    exact (ih depth quote proper).1

/-- A name is the same in both texts, and what follows it is respaced. -/
theorem name (respaced : Respaced s t) :
    s.takeWhile continuesName = t.takeWhile continuesName ∧
      Respaced (s.dropWhile continuesName) (t.dropWhile continuesName) := by
  induction respaced with
  | nil => exact ⟨rfl, .nil⟩
  | same c rest ih =>
    obtain ⟨taken, dropped⟩ := ih
    cases continues : continuesName c with
    | true =>
      rw [List.takeWhile_cons_of_pos continues, List.takeWhile_cons_of_pos continues,
        List.dropWhile_cons_of_pos continues, List.dropWhile_cons_of_pos continues, taken]
      exact ⟨rfl, dropped⟩
    | false =>
      have ends : ¬ continuesName c = true := by simp [continues]
      rw [List.takeWhile_cons_of_neg ends, List.takeWhile_cons_of_neg ends,
        List.dropWhile_cons_of_neg ends, List.dropWhile_cons_of_neg ends]
      exact ⟨rfl, .same c rest⟩
  | @gap a b s t first second rest ih =>
    -- A name ends in front of a gap.
    have ends {gap : Text} (isGap : Gap gap) (rest : Text) :
        (gap ++ rest).takeWhile continuesName = [] ∧
          (gap ++ rest).dropWhile continuesName = gap ++ rest := by
      obtain ⟨c, gap, rfl⟩ := List.exists_cons_of_ne_nil isGap.filled
      have stops : ¬ continuesName c = true := by simp [isGap.ends c rfl]
      exact ⟨List.takeWhile_cons_of_neg stops, List.dropWhile_cons_of_neg stops⟩
    rw [(ends first s).1, (ends second t).1, (ends first s).2, (ends second t).2]
    exact ⟨rfl, .gap first second rest⟩

/-- A name begins in both texts or in none. -/
theorem startsName_head? (respaced : Respaced s t) :
    s.head?.any startsName = t.head?.any startsName := by
  cases respaced with
  | nil => rfl
  | same c rest => rfl
  | gap first second rest =>
    -- No name begins with a gap.
    have closed {gap : Text} (isGap : Gap gap) (rest : Text) :
        (gap ++ rest).head?.any startsName = false := by
      obtain ⟨c, gap, rfl⟩ := List.exists_cons_of_ne_nil isGap.filled
      have stops := isGap.ends c rfl
      simp only [continuesName, Char.isAlphanum, Bool.or_eq_false_iff] at stops
      show (c.isAlpha || decide (c = '_')) = false
      rw [stops.1.1.1, stops.1.2, Bool.or_false]
    rw [closed first, closed second]

end Respaced

namespace Marker

/-- What follows a marker, given what follows its name. -/
def behindName : Text → Text
  | '(' :: rest => (behind? 1 none rest).getD ('(' :: rest)
  | after => after

/-- Without a parenthesis a marker ends with its name. -/
theorem behindName_of_head? {after : Text} (closed : after.head? ≠ some '(') :
    behindName after = after := by
  rw [behindName]
  rintro rest rfl
  exact closed rfl

/-- What follows a marker is what follows its name, without an expression. -/
theorem snd_read (leading : Bool) (text : Text) :
    (read leading text).2 = behindName (text.dropWhile continuesName) := by
  rw [read]
  split
  · rename_i rest opens
    simp only [opens, behindName, behind?]
    cases balance? 1 none rest <;> rfl
  · rename_i closed
    rw [behindName]
    exact closed

/-- The name of a marker is what a name may go on with. -/
theorem name_read (leading : Bool) (text : Text) :
    (read leading text).1.name = text.takeWhile continuesName := by
  rw [read]
  split
  · split <;> rfl
  · rfl

end Marker

namespace Respaced

variable {s t : Text}

/-- What follows a marker is respaced when what follows its name is. -/
theorem behindName (respaced : Respaced s t) : Respaced (behindName s) (behindName t) := by
  cases respaced with
  | nil => exact .nil
  | @same c s t rest =>
    -- A parenthesis in front is closed in both texts, or in none and stays.
    by_cases opens : c = '('
    · subst opens
      have unquoted : ∀ q ∈ (none : Option Char), IsQuote q := by simp
      have closed := rest.behind? 1 unquoted
      rw [Marker.behindName, Marker.behindName]
      generalize Marker.behind? 1 none s = first, Marker.behind? 1 none t = second at closed
      cases closed with
      | none => exact .same '(' rest
      | some behind => exact behind
    · have closed (text : Text) : (c :: text).head? ≠ some '(' := by simpa using opens
      rw [behindName_of_head? (closed s), behindName_of_head? (closed t)]
      exact .same c rest
  | @gap a b s t first second rest =>
    rw [behindName_of_head? (first.head?_ne s), behindName_of_head? (second.head?_ne t)]
    exact .gap first second rest

/-- Markers in both texts have the same name, and what follows them is respaced. -/
theorem read (respaced : Respaced s t) (leading other : Bool) :
    (read leading s).1.name = (read other t).1.name ∧
      Respaced (read leading s).2 (read other t).2 := by
  obtain ⟨taken, dropped⟩ := respaced.name
  rw [name_read, name_read, snd_read, snd_read]
  exact ⟨taken, dropped.behindName⟩

end Respaced

namespace Mark

/-- The name of a mark that is a marker. -/
def name? : Mark → Option Text
  | .plain _ => none
  | .marker found => some found.name

/-- The names of the markers among marks. -/
def names (marks : List Mark) : List Text :=
  marks.filterMap name?

/-- Characters other than at signs have no names. -/
theorem names_plain {content : Text} (noAt : '@' ∉ content) (clear : Bool) (rest : Text) :
    names (scanFrom clear 0 (content ++ rest)) =
      names (scanFrom (Template.clearAfter clear content) 0 rest) := by
  rw [scanFrom_plain noAt, names, List.filterMap_append, List.filterMap_map]
  have nameless : content.filterMap (name? ∘ Mark.plain) = [] :=
    List.filterMap_eq_nil_iff.mpr fun _ _ => rfl
  rw [nameless]
  rfl

/-- The name of a marker stands in front of those of what follows it. -/
theorem names_marker {text : Text} (starts : text.head?.any startsName = true) (clear : Bool) :
    ∃ other, names (scanFrom clear 0 ('@' :: text)) =
      (Marker.read clear text).1.name :: names (scanFrom other 0 (Marker.read clear text).2) := by
  have whole := Marker.raw_read clear text
  obtain ⟨body, raw⟩ := List.head?_eq_some_iff.mp (Marker.head_raw_read clear text)
  rw [raw, List.cons_append] at whole
  have split : text = body ++ (Marker.read clear text).2 := (List.cons.inj whole).2.symm
  generalize found : Marker.read clear text = result at *
  obtain ⟨found, rest⟩ := result
  subst split
  exact ⟨_, congrArg names (scanFrom_marker starts ‹_›)⟩

end Mark

/-- What follows a marker is shorter than the text that begins with it. -/
theorem Marker.length_snd_read (leading : Bool) (text : Text) :
    (read leading text).2.length ≤ text.length := by
  have whole := congrArg List.length (raw_read leading text)
  obtain ⟨body, raw⟩ := List.head?_eq_some_iff.mp (head_raw_read leading text)
  rw [raw] at whole
  simp only [List.cons_append, List.length_cons, List.length_append] at whole
  omega

/-- The markers in respaced texts have the same names. -/
theorem Respaced.names {s t : Text} (respaced : Respaced s t) (clear other : Bool) :
    Mark.names (Mark.scanFrom clear 0 s) = Mark.names (Mark.scanFrom other 0 t) := by
  cases respaced with
  | nil => rfl
  | @same c s t rest =>
    -- A marker begins in both texts or in none, and the scan goes on behind it.
    by_cases begins : c = '@' ∧ s.head?.any startsName = true
    · obtain ⟨rfl, starts⟩ := begins
      obtain ⟨named, behind⟩ := rest.read clear other
      obtain ⟨first, marked⟩ := Mark.names_marker starts clear
      obtain ⟨second, markedToo⟩ := Mark.names_marker (rest.startsName_head? ▸ starts) other
      have shorter := length_snd_read clear s
      rw [marked, markedToo, named, behind.names first second]
    · have beginsToo : ¬ (c = '@' ∧ t.head?.any startsName = true) := by
        rwa [← rest.startsName_head?]
      rw [Mark.scanFrom, if_neg begins, Mark.scanFrom, if_neg beginsToo]
      exact rest.names _ _
  | @gap a b s t first second rest =>
    -- No marker begins in a gap.
    have shorter := List.length_pos_iff.mpr first.filled
    rw [Mark.names_plain first.noAt, Mark.names_plain second.noAt]
    exact rest.names _ _
termination_by s.length
decreasing_by all_goals simp only [List.length_cons, List.length_append]; omega

/-- Nothing is replaced in a source when no marker of it has the name of a directive. -/
theorem Directives.isIdle_of_names {directives : Directives} {source : Text}
    (unknown : ∀ name ∈ Mark.names (Mark.scan source), directives.get? name = none) :
    directives.isIdle source = true := by
  refine isIdle_of_isForeign (List.all_eq_true.mpr fun mark member => ?_)
  cases mark with
  | plain c => rfl
  | marker found =>
    have listed : found.name ∈ Mark.names (Mark.scan source) :=
      List.mem_filterMap.mpr ⟨_, member, rfl⟩
    simp [isForeign, unknown _ listed]

end Templates
