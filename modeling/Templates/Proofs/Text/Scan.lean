import Templates.Proofs.Text.Search

/-! A scan walks over a text part by part, where a rule applies at the front or nowhere. -/

namespace Templates.Text

variable {α : Type} {rule : Rule α}

/-- Characters that belong to a hit are passed over. -/
theorem scanFrom_skip (rule : Rule α) (front rest : Text) :
    scanFrom rule front.length (front ++ rest) = scan rule rest := by
  induction front with
  | nil => rfl
  | cons c front ih => exact ih

/-- A scan goes on behind a hit. -/
theorem scan_hit {front rest : Text} {value : α} (filled : front ≠ [])
    (found : rule (front ++ rest) = some (value, rest)) :
    scan rule (front ++ rest) = .hit value :: scan rule rest := by
  cases front with
  | nil => exact absurd rfl filled
  | cons c front =>
    -- As many characters are passed over as the hit is longer than its first one.
    rw [List.cons_append] at found
    have length : (front ++ rest).length - rest.length = front.length := by simp
    rw [scan, List.cons_append, scanFrom, found]
    simp only [length, scanFrom_skip]

/-- A rule applies at no position of a text with another one behind it. -/
def Passes (rule : Rule α) : Text → Text → Prop
  | [], _ => True
  | c :: front, rest => rule (c :: (front ++ rest)) = none ∧ Passes rule front rest

namespace Passes

/-- A rule that applies to no part of a text does not apply to the whole. -/
theorem append {front back rest : Text} (first : Passes rule front (back ++ rest))
    (second : Passes rule back rest) : Passes rule (front ++ back) rest := by
  induction front with
  | nil => exact second
  | cons c front ih =>
    obtain ⟨missing, others⟩ := first
    rw [← List.append_assoc] at missing
    exact ⟨missing, ih others⟩

/-- A rule that applies nowhere in a text does not apply in the rest of it. -/
theorem of_append {front back rest : Text} (passes : Passes rule (front ++ back) rest) :
    Passes rule back rest := by
  induction front with
  | nil => exact passes
  | cons c front ih => exact ih passes.2

/-- A scan takes such a text character by character. -/
theorem scan {front rest : Text} (passes : Passes rule front rest) :
    scan rule (front ++ rest) = front.map .plain ++ scan rule rest := by
  induction front with
  | nil => rfl
  | cons c front ih =>
    obtain ⟨missing, others⟩ := passes
    rw [List.cons_append, Text.scan, scanFrom, missing]
    exact congrArg (.plain c :: ·) (ih others)

/-- A scan of such a text by itself finds nothing but its characters. -/
theorem scan_alone {text : Text} (passes : Passes rule text []) :
    Text.scan rule text = text.map .plain := by
  have scanned := passes.scan
  rwa [List.append_nil, show Text.scan rule [] = [] from rfl, List.append_nil] at scanned

end Passes

/-- A rule that applies to nothing but what begins with a needle. -/
def Needs (needle : Text) (rule : Rule α) : Prop :=
  ∀ text, startsWith needle text = false → rule text = none

namespace Needs

variable {needle : Text}

/-- A rule passes over a text without the needle, if what follows does not complete it. -/
theorem passes (needs : Needs needle rule) {front rest : Text}
    (absent : contains needle front = false)
    (apart : ∀ k < needle.length, 0 < k → ¬needle.drop k <+: rest) :
    Passes rule front rest := by
  induction front with
  | nil => trivial
  | cons c front ih =>
    -- The needle begins neither in the text nor in front of its end.
    obtain ⟨missing, others⟩ := contains_cons absent
    refine ⟨needs _ ?_, ih others⟩
    have notHere : startsWith needle (c :: front) = false := by rw [startsWith, missing]; rfl
    exact startsWith_append (List.cons_ne_nil c front) notHere apart

/-- A rule passes over a text that does not hold the first character of the needle. -/
theorem passes_of_notMem {c : Char} (needs : Needs (c :: needle) rule) {front : Text}
    (absent : c ∉ front) (rest : Text) : Passes rule front rest := by
  induction front with
  | nil => trivial
  | cons d front ih =>
    obtain ⟨other, others⟩ := List.ne_and_not_mem_of_not_mem_cons absent
    refine ⟨needs _ ?_, ih others⟩
    simp [startsWith, strip?, other]

end Needs

/-- What is written for two lists of pieces stands one behind the other. -/
theorem replaceHits_append {write : α → Text} (front back : List (Piece α)) :
    replaceHits write (front ++ back) = replaceHits write front ++ replaceHits write back :=
  List.flatMap_append

/-- Plain characters are written as they are. -/
theorem replaceHits_plain {write : α → Text} (text : Text) :
    replaceHits write (text.map .plain) = text := by
  induction text with
  | nil => rfl
  | cons c text ih => exact congrArg (c :: ·) ih

/-- What a rule passes over stays where it is when hits are replaced. -/
theorem Passes.replaceHits {write : α → Text} {front rest : Text} (passes : Passes rule front rest) :
    replaceHits write (Text.scan rule (front ++ rest)) =
      front ++ Text.replaceHits write (Text.scan rule rest) := by
  rw [passes.scan, replaceHits_append, replaceHits_plain]

/-- A hit is replaced where it stands. -/
theorem replaceHits_scan_hit {write : α → Text} {mark rest : Text} {value : α} (filled : mark ≠ [])
    (found : rule (mark ++ rest) = some (value, rest)) :
    replaceHits write (scan rule (mark ++ rest)) =
      write value ++ replaceHits write (scan rule rest) := by
  rw [scan_hit filled found]
  rfl

/-- What is written for hits depends on nothing but the hits. -/
theorem replaceHits_congr {first second : α → Text} {pieces : List (Piece α)}
    (agree : ∀ value ∈ hits pieces, first value = second value) :
    replaceHits first pieces = replaceHits second pieces := by
  induction pieces with
  | nil => rfl
  | cons piece pieces ih =>
    cases piece with
    | plain c => exact congrArg (c :: ·) (ih agree)
    | hit value =>
      obtain ⟨here, others⟩ := List.forall_mem_cons.mp agree
      show first value ++ replaceHits first pieces = second value ++ replaceHits second pieces
      rw [here, ih others]

/-- What is written for a hit stands somewhere in what is written for all pieces. -/
theorem exists_replaceHits {write : α → Text} {pieces : List (Piece α)} {value : α}
    (member : value ∈ hits pieces) :
    ∃ front back, replaceHits write pieces = front ++ (write value ++ back) := by
  induction pieces with
  | nil => cases member
  | cons piece pieces ih =>
    cases piece with
    | plain c =>
      obtain ⟨front, back, written⟩ := ih member
      exact ⟨c :: front, back, congrArg (c :: ·) written⟩
    | hit other =>
      rcases List.mem_cons.mp member with rfl | member
      · exact ⟨[], replaceHits write pieces, rfl⟩
      · obtain ⟨front, back, written⟩ := ih member
        refine ⟨write other ++ front, back, ?_⟩
        rw [List.append_assoc, ← written]
        rfl

/-- The hits of two lists of pieces stand one behind the other. -/
theorem hits_append (front back : List (Piece α)) : hits (front ++ back) = hits front ++ hits back := by
  induction front with
  | nil => rfl
  | cons piece front ih =>
    cases piece with
    | plain c => exact ih
    | hit value => exact congrArg (value :: ·) ih

/-- Plain characters are no hits. -/
theorem hits_plain (text : Text) : hits (text.map (Piece.plain : Char → Piece α)) = [] := by
  induction text with
  | nil => rfl
  | cons c text ih => exact ih

/-- Nothing is found in a text that a rule passes over, and the other way round. -/
theorem hits_scan_eq_nil_iff {text : Text} : hits (scan rule text) = [] ↔ Passes rule text [] := by
  constructor
  · intro empty
    induction text with
    | nil => trivial
    | cons c text ih =>
      rw [scan, scanFrom] at empty
      cases found : rule (c :: text) with
      | some hit => simp [found, hits] at empty
      | none =>
        simp only [found, hits] at empty
        refine ⟨?_, ih empty⟩
        rwa [List.append_nil]
  · intro passes
    rw [passes.scan_alone, hits_plain]

/-- A rule passes over a text if it applies to no end of it. -/
theorem passes_iff {text : Text} :
    Passes rule text [] ↔ ∀ back, back <:+ text → back ≠ [] → rule back = none := by
  induction text with
  | nil =>
    refine ⟨fun _ back ends filled => ?_, fun _ => trivial⟩
    exact absurd (List.suffix_nil.mp ends) filled
  | cons c text ih =>
    rw [Passes, List.append_nil, ih]
    constructor
    · rintro ⟨here, behind⟩ back ends filled
      rcases List.suffix_cons_iff.mp ends with rfl | ends
      · exact here
      · exact behind back ends filled
    · intro missing
      refine ⟨missing _ (List.suffix_refl _) (List.cons_ne_nil c text), fun back ends => ?_⟩
      exact missing back (ends.trans (List.suffix_cons c text))

/-- A rule that takes something off the front of a text and leaves the rest of it. -/
def Consumes (rule : Rule α) : Prop :=
  ∀ text value rest, rule text = some (value, rest) → ∃ front, front ≠ [] ∧ text = front ++ rest

/-- What follows a mark in a text is shorter than the text. -/
theorem length_lt_of_filled (front : Text) {mark : Text} (filled : mark ≠ []) (rest : Text) :
    rest.length < (front ++ (mark ++ rest)).length := by
  have := List.length_pos_iff.mpr filled
  simp only [List.length_append]
  omega

/-- A rule passes over a text, or over what stands in front of its first hit there. -/
theorem Consumes.passes_or_hit (consumes : Consumes rule) (text : Text) :
    Passes rule text [] ∨ ∃ front mark value rest, text = front ++ (mark ++ rest) ∧ mark ≠ [] ∧
      Passes rule front (mark ++ rest) ∧ rule (mark ++ rest) = some (value, rest) := by
  induction text with
  | nil => exact .inl trivial
  | cons c text ih =>
    cases found : rule (c :: text) with
    | some hit =>
      obtain ⟨value, rest⟩ := hit
      obtain ⟨mark, filled, whole⟩ := consumes _ _ _ found
      rw [whole] at found ⊢
      exact .inr ⟨[], mark, value, rest, rfl, filled, trivial, found⟩
    | none =>
      rcases ih with passes | ⟨front, mark, value, rest, rfl, filled, passes, hit⟩
      · exact .inl ⟨by rwa [List.append_nil], passes⟩
      · exact .inr ⟨c :: front, mark, value, rest, rfl, filled, ⟨found, passes⟩, hit⟩

/-- What a rule has found it finds with any other text behind it. -/
def Extends (rule : Rule α) : Prop :=
  ∀ text value rest, rule text = some (value, rest) →
    ∀ back, rule (text ++ back) = some (value, rest ++ back)

/-- A rule that passes over a text finds nothing in any part of it. -/
theorem Extends.passes_infix (extending : Extends rule) {front text back : Text}
    (passes : Passes rule (front ++ (text ++ back)) []) : Passes rule text [] := by
  induction front with
  | cons c front ih => exact ih passes.2
  | nil =>
    induction text with
    | nil => trivial
    | cons c text ih =>
      have missing : rule (c :: (text ++ back ++ [])) = none := passes.1
      refine ⟨?_, ih passes.2⟩
      rw [List.append_nil] at missing ⊢
      -- A hit here would also be one in the whole text.
      cases found : rule (c :: text) with
      | none => rfl
      | some hit =>
        have extended := extending _ _ _ found back
        rw [List.cons_append, missing] at extended
        cases extended

/-- What a rule finds in a text, and where, does not depend on what follows the text. -/
def Closed (rule : Rule α) (text : Text) : Prop :=
  ∀ part, part <:+ text → part ≠ [] → ∀ rest,
    rule (part ++ rest) = (rule part).map fun (value, after) => (value, after ++ rest)

namespace Closed

/-- The end of a closed text is closed. -/
theorem of_append {front back : Text} (closed : Closed rule (front ++ back)) :
    Closed rule back := by
  intro part ends
  exact closed part (ends.trans (List.suffix_append front back))

/-- A rule passes over the front of a closed text whatever follows the whole. -/
theorem passes_front {front back : Text} (closed : Closed rule (front ++ back)) {one : Text}
    (passed : Passes rule front (back ++ one)) (other : Text) :
    Passes rule front (back ++ other) := by
  induction front with
  | nil => trivial
  | cons c front ih =>
    obtain ⟨missing, passed⟩ := passed
    have here := closed (c :: (front ++ back)) List.suffix_rfl (List.cons_ne_nil c _)
    have nothing : rule (c :: (front ++ back)) = none := by
      have whole := here one
      rw [List.cons_append, List.append_assoc, missing] at whole
      exact Option.map_eq_none_iff.mp whole.symm
    have later : Closed rule ([c] ++ (front ++ back)) := closed
    refine ⟨?_, ih later.of_append passed⟩
    have whole := here other
    rw [nothing, List.cons_append, List.append_assoc] at whole
    exact whole

/-- A rule passes over a closed text whatever follows it, or never. -/
theorem passes {text one : Text} (closed : Closed rule text) (passed : Passes rule text one)
    (other : Text) : Passes rule text other := by
  have whole : Closed rule (text ++ []) := by rwa [List.append_nil]
  exact whole.passes_front passed other

/-- A closed text is scanned by itself, whatever follows it. -/
theorem scan (consumes : Consumes rule) {text : Text} (closed : Closed rule text) (rest : Text) :
    Text.scan rule (text ++ rest) = Text.scan rule text ++ Text.scan rule rest := by
  -- The scan of the text goes from hit to hit.
  rcases consumes.passes_or_hit text with
    passed | ⟨front, mark, value, after, rfl, filled, passed, hit⟩
  · rw [(closed.passes passed rest).scan, passed.scan_alone]
  · have smaller := length_lt_of_filled front filled after
    have passedOn : Passes rule front (mark ++ (after ++ rest)) := by
      have alone : Passes rule front (mark ++ after ++ []) := by rwa [List.append_nil]
      rw [← List.append_assoc]
      exact closed.passes_front alone rest
    have hitOn : rule (mark ++ (after ++ rest)) = some (value, after ++ rest) := by
      have atMark := closed.of_append (mark ++ after) List.suffix_rfl (by simp [filled]) rest
      rwa [hit, List.append_assoc] at atMark
    have behind : Closed rule after := closed.of_append.of_append
    rw [passed.scan, scan_hit filled hit, List.append_assoc, List.append_assoc, passedOn.scan,
      scan_hit filled hitOn, behind.scan consumes rest]
    simp
termination_by text.length

end Closed

/-- The characters in front of each hit, behind those that have been read since the hit before. -/
def stretches : Text → List (Piece α) → List Text
  | _, [] => []
  | read, .plain c :: pieces => stretches (read ++ [c]) pieces
  | read, .hit _ :: pieces => read :: stretches [] pieces

/-- Plain characters in front of a hit are its stretch. -/
theorem stretches_plain (read front : Text) (value : α) (pieces : List (Piece α)) :
    stretches read (front.map .plain ++ .hit value :: pieces) =
      (read ++ front) :: stretches [] pieces := by
  induction front generalizing read with
  | nil => simp [stretches]
  | cons c front ih => simp [stretches, ih]

/-- When hits are replaced, what is found in the new text are the hits that the replacements bring with
them, as long as neither they nor the characters in front of a hit depend on what follows them. -/
theorem hits_scan_replaceHits (consumes : Consumes rule) {write : α → Text} {text : Text}
    (around : ∀ stretch ∈ stretches [] (scan rule text), Closed rule stretch)
    (within : ∀ value ∈ hits (scan rule text), Closed rule (write value)) :
    hits (scan rule (replaceHits write (scan rule text))) =
      (hits (scan rule text)).flatMap fun value => hits (scan rule (write value)) := by
  -- The text is gone through from hit to hit.
  rcases consumes.passes_or_hit text with
    passed | ⟨front, mark, value, after, rfl, filled, passed, hit⟩
  · rw [passed.scan_alone, replaceHits_plain, passed.scan_alone, hits_plain]
    rfl
  · have smaller := length_lt_of_filled front filled after
    have scanned : scan rule (front ++ (mark ++ after)) =
        front.map .plain ++ .hit value :: scan rule after := by
      rw [passed.scan, scan_hit filled hit]
    rw [scanned, stretches_plain, List.nil_append] at around
    rw [scanned, hits_append, hits_plain] at within
    obtain ⟨inFront, around⟩ := List.forall_mem_cons.mp around
    obtain ⟨here, within⟩ := List.forall_mem_cons.mp within
    rw [scanned, replaceHits_append, replaceHits_plain, hits_append, hits_plain]
    show hits (scan rule (front ++ (write value ++ replaceHits write (scan rule after)))) =
      hits (scan rule (write value)) ++
        (hits (scan rule after)).flatMap fun value => hits (scan rule (write value))
    rw [(inFront.passes passed _).scan, here.scan consumes, hits_append, hits_append, hits_plain,
      hits_scan_replaceHits consumes around within]
    rfl
termination_by text.length

end Templates.Text
