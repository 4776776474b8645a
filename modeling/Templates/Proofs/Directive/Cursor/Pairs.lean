import Mathlib.Data.List.Nodup
import Templates.Proofs.Directive.Cursor.Marker

/-!
The outermost pairs of openers and closers, found among all pairs.

All pairs are sorted by their openers, and a pair is kept if it begins behind the last one that was
kept. These are the pairs that are left when each pair takes the place of those inside it, since two
pairs are either one inside the other or one behind the other, however openers and closers follow
each other.
-/

namespace Templates.Directives.Cursor

/-! ### Pairs as they are found -/

/-- Openers that wait for their closers, the innermost one first, and all pairs closed so far, the
last one first. -/
structure Matching where
  opened : List (Nat × Text)
  pairs : List (Nat × Nat)
deriving DecidableEq, Repr

/-- One marker further. A closer takes the innermost opener of its name and drops the openers inside
that one. -/
def Matching.step (directives : Directives) (matching : Matching) (place : Nat) (marker : Marker) :
    Matching :=
  match marker.closes? with
  | some target =>
    match matching.opened.dropWhile fun (_, name) => name ≠ target with
    | (start, _) :: outer => ⟨outer, (start, place) :: matching.pairs⟩
    | [] => matching
  | none =>
    if opensBlock directives marker then
      { matching with opened := (place, marker.name) :: matching.opened }
    else matching

/-- Markers are matched one after the other. -/
def Matching.run (directives : Directives) : Nat → Matching → List Marker → Matching
  | _, matching, [] => matching
  | place, matching, marker :: rest =>
    run directives (place + 1) (matching.step directives place marker) rest

/-- The pairs that begin behind the closer of the last one kept. -/
def outermost : Option Nat → List (Nat × Nat) → List (Nat × Nat)
  | _, [] => []
  | last, (start, close) :: rest =>
    if last.all (· < start) then (start, close) :: outermost (some close) rest
    else outermost last rest

/-- Pairs in the order of their openers. -/
def sorted (pairs : List (Nat × Nat)) : List (Nat × Nat) :=
  pairs.mergeSort fun first second => first.1 ≤ second.1

/-- The outermost ones of all pairs among markers. -/
def outerPairs (directives : Directives) (markers : List Marker) : List (Nat × Nat) :=
  outermost none (sorted (Matching.run directives 0 ⟨[], []⟩ markers).pairs.reverse)

/-! ### Sorted pairs -/

variable {directives : Directives} {pairs ordered : List (Nat × Nat)} {start place : Nat}

/-- Pairs whose openers ascend. -/
def Ascending (pairs : List (Nat × Nat)) : Prop :=
  pairs.Pairwise fun first second => first.1 < second.1

/-- The sorted pairs are the only ones whose openers ascend. -/
theorem sorted_eq (perm : ordered.Perm pairs) (ascending : Ascending ordered) :
    sorted pairs = ordered := by
  have same : (sorted pairs).Perm ordered := (List.mergeSort_perm _ _).trans perm.symm
  have bySort : (sorted pairs).Pairwise fun first second => first.1 ≤ second.1 := by
    have result := @List.pairwise_mergeSort _
      (fun first second : Nat × Nat => decide (first.1 ≤ second.1))
      (by intro a b c; simp; omega) (by intro a b; simp; omega) pairs
    simpa [sorted] using result
  have told : (ordered.map Prod.fst).Nodup := List.pairwise_map.mpr (ascending.imp Nat.ne_of_lt)
  refine List.Perm.eq_of_pairwise (fun first second listed other le ge => ?_) bySort
    (ascending.imp Nat.le_of_lt) same
  exact List.inj_on_of_nodup_map told (same.mem_iff.mp listed) other (Nat.le_antisymm le ge)

/-- Pairs whose openers ascend do not go back in front of a place. -/
theorem le_of_mem_dropWhile (ascending : Ascending ordered) :
    ∀ pair ∈ ordered.dropWhile (·.1 < start), start ≤ pair.1 := by
  induction ordered with
  | nil => simp
  | cons pair ordered ih =>
    obtain ⟨later, others⟩ := List.pairwise_cons.mp ascending
    rw [List.dropWhile_cons]
    split
    · exact ih others
    · rename_i behind
      have first : start ≤ pair.1 := by simpa using behind
      exact List.forall_mem_cons.mpr
        ⟨first, fun other listed => first.trans (Nat.le_of_lt (later other listed))⟩

/-! ### The filter for outermost pairs -/

/-- What is kept of some pairs is among them. -/
theorem outermost_sublist (last : Option Nat) (pairs : List (Nat × Nat)) :
    (outermost last pairs).Sublist pairs := by
  fun_induction outermost last pairs with
  | case1 => exact .slnil
  | case2 last start close rest behind ih => exact ih.cons_cons _
  | case3 last start close rest inside ih => exact ih.cons _

/-- What is kept of two lists of pairs, one behind the other, depends on the last one that is kept
of the first list. -/
theorem outermost_append (last : Option Nat) (front : List (Nat × Nat)) :
    ∃ next, (next = last ∨ ∃ pair ∈ front, next = some pair.2) ∧ ∀ back,
      outermost last (front ++ back) = outermost last front ++ outermost next back := by
  fun_induction outermost last front with
  | case1 last => exact ⟨last, .inl rfl, fun _ => rfl⟩
  | case2 last start close rest behind ih =>
    obtain ⟨next, from_, parts⟩ := ih
    refine ⟨next, .inr ?_, fun back => ?_⟩
    · obtain rfl | ⟨pair, listed, rfl⟩ := from_
      · exact ⟨(start, close), List.mem_cons_self, rfl⟩
      · exact ⟨pair, List.mem_cons_of_mem _ listed, rfl⟩
    · rw [List.cons_append, outermost, if_pos behind, parts]
      rfl
  | case3 last start close rest inside ih =>
    obtain ⟨next, from_, parts⟩ := ih
    refine ⟨next, from_.imp_right ?_, fun back => ?_⟩
    · rintro ⟨pair, listed, rfl⟩
      exact ⟨pair, List.mem_cons_of_mem _ listed, rfl⟩
    · rw [List.cons_append, outermost, if_neg inside, parts]

/-- Nothing is kept of pairs that begin in front of the last closer. -/
theorem outermost_eq_nil (early : ∀ pair ∈ pairs, pair.1 ≤ place) :
    outermost (some place) pairs = [] := by
  induction pairs with
  | nil => rfl
  | cons pair pairs ih =>
    obtain ⟨first, others⟩ := List.forall_mem_cons.mp early
    rw [outermost, if_neg (by simpa using first), ih others]

/-- A pair that comes to the others is sorted in at its opener. -/
def insertPair (pair : Nat × Nat) (ordered : List (Nat × Nat)) : List (Nat × Nat) :=
  ordered.takeWhile (·.1 < pair.1) ++ pair :: ordered.dropWhile (·.1 < pair.1)

/-- No pair is lost. -/
theorem insertPair_perm (pair : Nat × Nat) (ordered : List (Nat × Nat)) :
    (insertPair pair ordered).Perm (pair :: ordered) := by
  have parts := @List.perm_middle _ pair (ordered.takeWhile (·.1 < pair.1))
    (ordered.dropWhile (·.1 < pair.1))
  rwa [List.takeWhile_append_dropWhile] at parts

/-- What holds of pairs in order holds with a pair whose opener is new if it holds between that one
and the others. -/
theorem pairwise_insertPair {holds : Nat × Nat → Nat × Nat → Prop} (ascending : Ascending ordered)
    (new : ∀ pair ∈ ordered, pair.1 ≠ start) (related : ordered.Pairwise holds)
    (before : ∀ pair ∈ ordered, pair.1 < start → holds pair (start, place))
    (behind : ∀ pair ∈ ordered, start < pair.1 → holds (start, place) pair) :
    (insertPair (start, place) ordered).Pairwise holds := by
  have parts : ordered.takeWhile (·.1 < start) ++ ordered.dropWhile (·.1 < start) = ordered :=
    List.takeWhile_append_dropWhile
  have front : ∀ pair ∈ ordered.takeWhile (·.1 < start), holds pair (start, place) :=
    fun pair listed => before pair ((List.takeWhile_sublist _).subset listed)
      (by simpa using List.mem_takeWhile_imp listed)
  have back : ∀ pair ∈ ordered.dropWhile (·.1 < start), holds (start, place) pair :=
    fun pair listed => by
      have member := (List.dropWhile_sublist _).subset listed
      exact behind pair member
        (Nat.lt_of_le_of_ne (le_of_mem_dropWhile ascending pair listed) (new pair member).symm)
  rw [← parts, List.pairwise_append] at related
  obtain ⟨first, second, across⟩ := related
  refine List.pairwise_append.mpr ⟨first, .cons back second, fun one listed other later => ?_⟩
  obtain rfl | later := List.mem_cons.mp later
  · exact front one listed
  · exact across one listed other later

/-- A new pair takes the place of those that it holds among the outermost pairs. -/
theorem outermost_insertPair (ascending : Ascending ordered)
    (told : ∀ pair ∈ ordered, pair.2 < start ∨ start < pair.1)
    (early : ∀ pair ∈ ordered, pair.1 ≤ place) (closed : ∀ pair ∈ ordered, pair.1 < pair.2) :
    outermost none (insertPair (start, place) ordered) =
      ((start, place) :: (outermost none ordered).reverse.dropWhile (start < ·.1)).reverse := by
  have parts : ordered.takeWhile (·.1 < start) ++ ordered.dropWhile (·.1 < start) = ordered :=
    List.takeWhile_append_dropWhile
  have front : ∀ pair ∈ ordered.takeWhile (·.1 < start), pair.1 < start := fun pair listed => by
    simpa using List.mem_takeWhile_imp listed
  have inFront : ∀ pair ∈ ordered.takeWhile (·.1 < start), pair ∈ ordered :=
    fun pair listed => (List.takeWhile_sublist _).subset listed
  have inBack : ∀ pair ∈ ordered.dropWhile (·.1 < start), pair ∈ ordered :=
    fun pair listed => (List.dropWhile_sublist _).subset listed
  obtain ⟨next, from_, split⟩ := outermost_append none (ordered.takeWhile (·.1 < start))
  -- All that is kept in front of the new pair ends there.
  have behind : next.all (· < start) = true := by
    obtain rfl | ⟨pair, listed, rfl⟩ := from_
    · rfl
    · have := front pair listed
      have := told pair (inFront pair listed)
      simp
      omega
  have kept : outermost none (insertPair (start, place) ordered) =
      outermost none (ordered.takeWhile (·.1 < start)) ++ [(start, place)] := by
    rw [insertPair, split, outermost, if_pos behind,
      outermost_eq_nil fun pair listed => early pair (inBack pair listed)]
  -- What has been kept behind the opener is dropped, and nothing else.
  have dropped : (outermost none ordered).reverse.dropWhile (start < ·.1) =
      (outermost none (ordered.takeWhile (·.1 < start))).reverse := by
    have later : ∀ pair ∈ (outermost next (ordered.dropWhile (·.1 < start))).reverse,
        decide (start < pair.1) = true := by
      intro pair listed
      have listed := (outermost_sublist _ _).subset (List.mem_reverse.mp listed)
      have := le_of_mem_dropWhile ascending pair listed
      have := told pair (inBack pair listed)
      have := closed pair (inBack pair listed)
      simp
      omega
    have whole := split (ordered.dropWhile (·.1 < start))
    rw [parts] at whole
    rw [whole, List.reverse_append, List.dropWhile_append_of_pos later]
    cases first : (outermost none (ordered.takeWhile (·.1 < start))).reverse with
    | nil => rfl
    | cons pair rest =>
      have listed : pair ∈ outermost none (ordered.takeWhile (·.1 < start)) := by
        rw [← List.mem_reverse, first]
        exact List.mem_cons_self
      have := front pair ((outermost_sublist _ _).subset listed)
      rw [List.dropWhile_cons, if_neg (by simp; omega)]
  rw [kept, dropped, List.reverse_cons, List.reverse_reverse]

/-! ### All pairs and the outermost ones -/

/-- What is known of all pairs among the markers in front of a place, with the outermost ones of
them: two pairs are one behind the other or one inside the other, and none reaches over an opener
that still waits. -/
structure Agrees (place : Nat) (matching : Matching) (pairing : Pairing)
    (ordered : List (Nat × Nat)) : Prop where
  opened : matching.opened = pairing.opened
  perm : ordered.Perm matching.pairs
  ascending : Ascending ordered
  nested : ordered.Pairwise fun first second => first.2 < second.1 ∨ second.2 < first.2
  kept : outermost none ordered = pairing.pairs.reverse
  waiting : matching.opened.Pairwise fun inner outer => outer.1 < inner.1
  inFront : ∀ block ∈ matching.opened, block.1 < place
  closed : ∀ pair ∈ ordered, pair.1 < pair.2 ∧ pair.2 < place
  apart : ∀ pair ∈ ordered, ∀ block ∈ matching.opened, pair.2 < block.1 ∨ block.1 < pair.1

/-- Nothing has been paired in front of the first marker. -/
theorem agrees_start : Agrees 0 ⟨[], []⟩ ⟨[], []⟩ [] where
  opened := rfl
  perm := .nil
  ascending := .nil
  nested := .nil
  kept := rfl
  waiting := .nil
  inFront := by simp
  closed := by simp
  apart := by simp

variable {matching : Matching} {pairing : Pairing}

/-- A marker that pairs nothing and opens nothing. -/
theorem Agrees.pass (agrees : Agrees place matching pairing ordered) :
    Agrees (place + 1) matching pairing ordered :=
  { agrees with
    inFront := fun block listed => Nat.lt_succ_of_lt (agrees.inFront block listed)
    closed := fun pair listed =>
      ⟨(agrees.closed pair listed).1, Nat.lt_succ_of_lt (agrees.closed pair listed).2⟩ }

/-- An opener waits behind all others. -/
theorem Agrees.push (agrees : Agrees place matching pairing ordered) (name : Text) :
    Agrees (place + 1) { matching with opened := (place, name) :: matching.opened }
      { pairing with opened := (place, name) :: pairing.opened } ordered :=
  { agrees.pass with
    opened := congrArg _ agrees.opened
    waiting := .cons agrees.inFront agrees.waiting
    inFront := List.forall_mem_cons.mpr ⟨Nat.lt_succ_self place, agrees.pass.inFront⟩
    apart := fun pair listed => List.forall_mem_cons.mpr
      ⟨.inl (agrees.closed pair listed).2, agrees.apart pair listed⟩ }

/-- A closer pairs with an opener that waits, and the openers inside that one wait no more. -/
theorem Agrees.close (agrees : Agrees place matching pairing ordered)
    {dropped outer : List (Nat × Text)} {start : Nat} {name : Text}
    (parts : matching.opened = dropped ++ (start, name) :: outer) :
    Agrees (place + 1) ⟨outer, (start, place) :: matching.pairs⟩
      ⟨outer, (start, place) :: pairing.pairs.dropWhile (start < ·.1)⟩
      (insertPair (start, place) ordered) := by
  have waits : (start, name) ∈ matching.opened := by simp [parts]
  have within : ∀ block ∈ outer, block ∈ matching.opened := fun block listed => by
    rw [parts]
    exact List.mem_append_right _ (List.mem_cons_of_mem _ listed)
  have begun := agrees.inFront _ waits
  have told : ∀ pair ∈ ordered, pair.2 < start ∨ start < pair.1 := fun pair listed =>
    agrees.apart pair listed _ waits
  have new : ∀ pair ∈ ordered, pair.1 ≠ start := fun pair listed => by
    have := told pair listed
    have := (agrees.closed pair listed).1
    omega
  have early : ∀ pair ∈ ordered, pair.1 ≤ place := fun pair listed => by
    have := agrees.closed pair listed
    omega
  obtain ⟨deeper, others⟩ : (∀ block ∈ outer, block.1 < start) ∧
      outer.Pairwise fun inner outer => outer.1 < inner.1 := by
    have waiting := agrees.waiting
    rw [parts] at waiting
    exact List.pairwise_cons.mp (List.pairwise_append.mp waiting).2.1
  have all {p : Nat × Nat → Prop} (first : p (start, place)) (rest : ∀ pair ∈ ordered, p pair) :
      ∀ pair ∈ insertPair (start, place) ordered, p pair := fun pair listed => by
    obtain rfl | listed := List.mem_cons.mp ((insertPair_perm _ _).mem_iff.mp listed)
    · exact first
    · exact rest pair listed
  exact {
    opened := rfl
    perm := (insertPair_perm _ _).trans (agrees.perm.cons _)
    ascending := pairwise_insertPair agrees.ascending new agrees.ascending (fun _ _ => id)
      fun _ _ => id
    nested := pairwise_insertPair agrees.ascending new agrees.nested
      (fun pair listed before => .inl ((told pair listed).resolve_right (Nat.lt_asymm before)))
      fun pair listed _ => .inr (agrees.closed pair listed).2
    kept := by
      rw [outermost_insertPair agrees.ascending told early
        fun pair listed => (agrees.closed pair listed).1, agrees.kept, List.reverse_reverse]
    waiting := others
    inFront := fun block listed => Nat.lt_succ_of_lt (agrees.inFront block (within block listed))
    closed := all ⟨begun, Nat.lt_succ_self place⟩ agrees.pass.closed
    apart := all (fun block listed => .inr (deeper block listed))
      fun pair listed block inside => agrees.apart pair listed block (within block inside) }

/-- Pairs and outermost pairs go on together. -/
theorem Agrees.step (directives : Directives) (agrees : Agrees place matching pairing ordered)
    (marker : Marker) :
    ∃ ordered, Agrees (place + 1) (matching.step directives place marker)
      (pairing.step directives place marker) ordered := by
  cases closes : marker.closes? with
  | none =>
    simp only [Matching.step, Pairing.step, closes]
    split
    · exact ⟨ordered, agrees.push marker.name⟩
    · exact ⟨ordered, agrees.pass⟩
  | some target =>
    simp only [Matching.step, Pairing.step, closes, agrees.opened]
    have whole := List.takeWhile_append_dropWhile (l := pairing.opened)
      (p := fun (_, name) => name ≠ target)
    cases behind : pairing.opened.dropWhile fun (_, name) => name ≠ target with
    | nil => exact ⟨ordered, agrees.pass⟩
    | cons block outer =>
      rw [behind] at whole
      exact ⟨_, agrees.close (agrees.opened.trans whole.symm)⟩

/-- Pairs and outermost pairs agree behind all markers. -/
theorem Agrees.run (directives : Directives) (agrees : Agrees place matching pairing ordered)
    (offset : Nat) (marks : List Mark) :
    ∃ behind ordered, Agrees behind
      (matching.run directives place ((Mark.spans offset marks).map Prod.fst))
      (pairing.run directives place marks) ordered := by
  induction marks generalizing offset place matching pairing ordered with
  | nil => exact ⟨place, ordered, agrees⟩
  | cons mark marks ih =>
    cases mark with
    | plain c => exact ih agrees _
    | marker m =>
      obtain ⟨more, next⟩ := agrees.step directives m
      exact ih next _

/-- The filter over all sorted pairs keeps the outermost ones. -/
theorem outerPairs_eq (directives : Directives) (offset : Nat) (marks : List Mark) :
    outerPairs directives ((Mark.spans offset marks).map Prod.fst) =
      outermostPairs directives marks := by
  obtain ⟨behind, ordered, agrees⟩ := agrees_start.run directives offset marks
  rw [outerPairs, outermostPairs, ← agrees.kept,
    sorted_eq (agrees.perm.trans (List.reverse_perm _).symm) agrees.ascending]

/-- However openers and closers follow each other, all pairs are one behind the other or one inside
the other. -/
theorem nested_pairs (directives : Directives) (offset : Nat) (marks : List Mark) :
    (sorted (Matching.run directives 0 ⟨[], []⟩
        ((Mark.spans offset marks).map Prod.fst)).pairs.reverse).Pairwise
      fun first second => first.1 < second.1 ∧ (first.2 < second.1 ∨ second.2 < first.2) := by
  obtain ⟨behind, ordered, agrees⟩ := agrees_start.run directives offset marks
  rw [sorted_eq (agrees.perm.trans (List.reverse_perm _).symm) agrees.ascending]
  exact agrees.ascending.and agrees.nested

end Templates.Directives.Cursor
