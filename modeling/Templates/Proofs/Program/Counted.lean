import Mathlib.Data.Int.Range
import Templates.Proofs.Program.Through

/-!
Loops over integers visit their range.

The bounds are looked at once, so nothing that the body does to the counter changes what comes next.
Main statement: a body that neither leaves nor fails runs once for each integer of the range, in
ascending order, or the loop complains that there are more of them than the limit allows. The one
range that is not visited whole is an inclusive one up to the last integer of 64 bits.
-/

namespace Templates

/-- Pieces each of which runs to its end, if the ones before it do. -/
def Unbroken {α : Type} (run : α → Body) (pieces : List α) (first : Scope) : Prop :=
  ∀ front a back s, pieces = front ++ a :: back → Through run front first s →
    ∃ t, run a s = .ok (.done, t)

/-- Pieces that are not broken off run through. -/
theorem Unbroken.through {α : Type} {run : α → Body} {pieces : List α} :
    ∀ {first : Scope}, Unbroken run pieces first → ∃ last, Through run pieces first last := by
  induction pieces with
  | nil => exact fun {first} _ => ⟨first, .nil⟩
  | cons a rest ih =>
    intro first unbroken
    -- Nothing stands in front of the first piece.
    obtain ⟨next, ran⟩ := unbroken [] a rest first rfl .nil
    have behind : Unbroken run rest next := by
      intro front b back s split through
      exact unbroken (a :: front) b back s (by rw [split, List.cons_append]) (.cons ran through)
    obtain ⟨last, through⟩ := ih behind
    exact ⟨last, .cons ran through⟩

/-- The body of a loop runs with its counter bound to an integer. -/
def counterRound (limit : Nat) (counter : Text) (body : List Node) (i : Int) : Body := fun scope =>
  runAll limit body (scope.bind counter (.number (.whole i)))

/-- The integers that a range with some bounds names, in ascending order. -/
def integersOf (inclusive : Bool) (first last : Int) : List Int :=
  if inclusive then Int.range first (last + 1) else Int.range first last

/-- A range begins with its lower bound, if that is in it. -/
theorem range_of_lt {first last : Int} (below : first < last) :
    Int.range first last = first :: Int.range (first + 1) last := by
  -- The places behind the first one are those of the shorter range, moved by one.
  have length : (last - first).toNat = (last - (first + 1)).toNat + 1 := by omega
  simp only [Int.range, length, List.range_succ_eq_map, List.map_cons, List.map_map]
  congr 1
  · omega
  · refine List.map_congr_left fun k _ => ?_
    simp only [Function.comp_apply]
    omega

/-- A range is empty, if its lower bound is not in it. -/
theorem range_of_not_lt {first last : Int} (above : ¬ first < last) :
    Int.range first last = [] := by
  have length : (last - first).toNat = 0 := by omega
  simp [Int.range, length]

/-- An upper bound that is not below the lower one comes last in the range up to and with it. -/
theorem range_concat {first last : Int} (within : first ≤ last) :
    Int.range first (last + 1) = Int.range first last ++ [last] := by
  have length : (last + 1 - first).toNat = (last - first).toNat + 1 := by omega
  have place : first + ((last - first).toNat : Int) = last := by omega
  simp only [Int.range, length, List.range_succ, List.map_append, List.map_cons, List.map_nil,
    place]

/-- The length of a range. -/
theorem length_range (first last : Int) :
    (Int.range first last).length = (last - first).toNat := by
  simp [Int.range]

/-- The integers of a range are those between its bounds. -/
theorem mem_integersOf {inclusive : Bool} {first last i : Int} :
    i ∈ integersOf inclusive first last ↔
      first ≤ i ∧ if inclusive then i ≤ last else i < last := by
  cases inclusive with
  | false => simp [integersOf, Int.mem_range_iff]
  | true => simp only [integersOf, if_true, Int.mem_range_iff, Int.lt_add_one_iff]

/-- The integers of a range ascend. -/
theorem ascending_integersOf (inclusive : Bool) (first last : Int) :
    (integersOf inclusive first last).Pairwise (· < ·) := by
  have ascending (stop : Int) : (Int.range first stop).Pairwise (· < ·) := by
    rw [Int.range, List.pairwise_map]
    exact List.pairwise_lt_range.imp fun {j k} below => by omega
  cases inclusive with
  | false => exact ascending last
  | true => exact ascending (last + 1)

/-- A loop that is not broken off goes through its range, as far as its count allows. -/
theorem Body.countUp_of_through {limit : Nat} {counter : Text} {body : List Node} {stop : Int}
    {count : Nat} {current : Int} {s t : Scope}
    (through : Through (counterRound limit counter body) ((Int.range current stop).take count)
      s t) :
    Body.countUp limit counter stop (fun scope => runAll limit body scope) count current s =
      if (Int.range current stop).length ≤ count then .ok t else .error (.loopLimit limit) := by
  -- Each round uses up one of the count and one integer of the range.
  induction count generalizing current s with
  | zero =>
    rw [List.take_zero] at through
    cases through
    by_cases below : current < stop
    · have due : ¬ (stop - current).toNat ≤ 0 := by omega
      simp [Body.countUp, below, length_range, due]
    · simp [Body.countUp, below, range_of_not_lt below]
  | succ count ih =>
    by_cases below : current < stop
    · rw [range_of_lt below, List.take_succ_cons] at through
      cases through with
      | cons ran later =>
        have ran : runAll limit body (s.bind counter (.number (.whole current))) = _ := ran
        simp [Body.countUp, below, ran, ih later, range_of_lt below]
    · rw [range_of_not_lt below, List.take_nil] at through
      cases through
      simp [Body.countUp, below, range_of_not_lt below]

/-- A loop over integers counts from its first bound to the second one, both looked at once. -/
theorem Node.run_range {start stop : Expr} {s : Scope} {first last : Int}
    (begins : s.eval start >>= Value.bound = .ok first)
    (ends : s.eval stop >>= Value.bound = .ok last) (limit : Nat) (counter : Text)
    (inclusive : Bool) (body : List Node) :
    (Node.range counter start stop inclusive body).run limit s =
      (Body.countUp limit counter (if inclusive then min (last + 1) (twoTo 63 - 1) else last)
        (fun scope => runAll limit body scope) limit first s).map (.done, ·) := by
  obtain ⟨lower, looked, low⟩ := exists_of_bind begins
  obtain ⟨upper, looked', high⟩ := exists_of_bind ends
  rw [Node.run, looked, looked']
  show (lower.bound >>= fun _ => upper.bound >>= _) = _
  rw [low, high]
  rfl

/-- Numbers count as integers of 64 bits with a sign. -/
theorem Number.toInteger?_fits {number : Number} {n : Int} (found : number.toInteger? = some n) :
    -twoTo 63 ≤ n ∧ n < twoTo 63 := by
  have power : (twoTo 63 : Int) = 9223372036854775808 := rfl
  cases number with
  | whole m =>
    rw [toInteger?] at found
    split at found
    · -- An integer that fits is kept.
      rename_i fits
      obtain rfl := Option.some.inj found
      simpa [fitsSigned] using fits
    · -- One that does not is above the range, where it stops at the end.
      obtain rfl := Option.some.inj found
      omega
  | real x =>
    rw [toInteger?] at found
    split at found
    · obtain rfl := Option.some.inj found
      omega
    · cases found

/-- Bounds are integers of 64 bits with a sign. -/
theorem Value.bound_fits {value : Value} {n : Int} (found : value.bound = .ok n) :
    -twoTo 63 ≤ n ∧ n < twoTo 63 := by
  cases value with
  | number number =>
    rw [bound] at found
    split at found
    · rename_i m counts
      obtain rfl := Except.ok.inj found
      exact Number.toInteger?_fits counts
    · cases found
  | null | bool | text | list | record => cases found

/-- The integers that a loop counts through are those that its range names, but for the last one of
64 bits. -/
theorem range_counted {inclusive : Bool} {first last : Int} (low : first < twoTo 63)
    (high : last < twoTo 63) :
    Int.range first (if inclusive then min (last + 1) (twoTo 63 - 1) else last) =
      if inclusive = true ∧ last = twoTo 63 - 1 then (integersOf inclusive first last).dropLast
      else integersOf inclusive first last := by
  cases inclusive with
  | false => simp [integersOf]
  | true =>
    by_cases top : last = twoTo 63 - 1
    · -- The range ends with its last integer, and the count stops in front of it.
      have stop : min (last + 1) ((twoTo 63 : Int) - 1) = last := by omega
      have within : first ≤ last := by omega
      rw [if_pos rfl, stop, if_pos ⟨rfl, top⟩, integersOf, if_pos rfl, range_concat within,
        List.dropLast_concat]
    · have stop : min (last + 1) ((twoTo 63 : Int) - 1) = last + 1 := by omega
      simp [integersOf, top, stop]

/-- Loops over integers visit their range, whatever the body does to the counter: when it neither
leaves nor fails, it runs once for each integer of the range in ascending order with the counter
bound to that integer, or the loop complains if there are more of them than the limit allows. Only
of an inclusive range up to the last integer of 64 bits the last one is left out. No counter, nor
the integer behind it, is out of the range of 64 bits. -/
theorem Node.range_visits {start stop : Expr} {scope : Scope} {first last : Int}
    (begins : scope.eval start >>= Value.bound = .ok first)
    (ends : scope.eval stop >>= Value.bound = .ok last) (limit : Nat) (counter : Text)
    (inclusive : Bool) (body : List Node) :
    let loop := Node.range counter start stop inclusive body
    let named := integersOf inclusive first last
    let visited := if inclusive = true ∧ last = twoTo 63 - 1 then named.dropLast else named
    ((∀ i, i ∈ named ↔ first ≤ i ∧ if inclusive then i ≤ last else i < last) ∧
      named.Pairwise (· < ·)) ∧
    (Unbroken (counterRound limit counter body) (visited.take limit) scope →
      (visited.length ≤ limit → ∃ after,
        Through (counterRound limit counter body) visited scope after ∧
        loop.run limit scope = .ok (.done, after)) ∧
      (limit < visited.length → loop.run limit scope = .error (.loopLimit limit))) ∧
    ∀ i ∈ visited, -twoTo 63 ≤ i ∧ i + 1 < twoTo 63 := by
  intro loop named visited
  obtain ⟨_, -, low⟩ := exists_of_bind begins
  obtain ⟨_, -, high⟩ := exists_of_bind ends
  have lowFits := Value.bound_fits low
  have highFits := Value.bound_fits high
  -- What the loop counts through is a range whose end fits 64 bits.
  have counted : Int.range first (if inclusive then min (last + 1) (twoTo 63 - 1) else last) =
      visited := range_counted lowFits.2 highFits.2
  refine ⟨⟨fun i => mem_integersOf, ascending_integersOf inclusive first last⟩, ?_, ?_⟩
  · intro unbroken
    obtain ⟨after, through⟩ := unbroken.through
    have ran := Node.run_range begins ends limit counter inclusive body
    rw [Body.countUp_of_through (counted.symm ▸ through), counted] at ran
    refine ⟨fun few => ?_, fun many => ?_⟩
    · -- Within the limit the whole range is run through.
      rw [List.take_of_length_le few] at through
      rw [if_pos few] at ran
      exact ⟨after, through, ran⟩
    · rw [if_neg (Nat.not_le.mpr many)] at ran
      exact ran
  · intro i member
    -- The counter is below an end that fits, and so is not the last integer itself.
    rw [← counted, Int.mem_range_iff] at member
    split at member <;> omega

/-- A body that shows its counter. -/
def showsCounter : List Node :=
  [.echo (.var "i".toList) true, .text ";".toList]

/-- A loop up to the last integer of 64 bits. -/
def topLoop : Node :=
  .range "i".toList (.literal (.number (.whole (twoTo 63 - 2))))
    (.literal (.number (.whole (twoTo 63 - 1)))) true showsCounter

/-- The loop visits the first of two integers only, and does not complain. -/
theorem range_misses_top :
    let named := integersOf true (twoTo 63 - 2) (twoTo 63 - 1)
    named = [9223372036854775806, 9223372036854775807] ∧
      Program.render 10 [topLoop] [] = .ok "9223372036854775806;".toList ∧
      ¬ ∃ after, Through (counterRound 10 "i".toList showsCounter) named ⟨[], []⟩ after ∧
        topLoop.run 10 ⟨[], []⟩ = .ok (.done, after) := by
  have both : integersOf true (twoTo 63 - 2) (twoTo 63 - 1) =
      [9223372036854775806, 9223372036854775807] := by decide +kernel
  refine ⟨both, rfl, ?_⟩
  rw [both]
  rintro ⟨after, through, ran⟩
  -- Two rounds would have written twice.
  cases through with
  | cons one more =>
    cases more with
    | cons two nothing =>
      cases nothing
      cases one
      cases two
      cases ran

/-- A body that shows its counter and sets it to another number. -/
def resetsCounter : List Node :=
  [.echo (.var "i".toList) true, .assign "i".toList (.literal (.number (.whole 7)))]

/-- A loop whose body sets the counter. -/
def resetLoop : Node :=
  .range "i".toList (.literal (.number (.whole (-1)))) (.var "n".toList) true resetsCounter

/-- The body is run for each of three integers, although it sets the counter. A limit of two is
one too few. -/
theorem range_visits_reset :
    let scope : Scope := ⟨[("n".toList, .number (.whole 1))], []⟩
    Program.render 3 [resetLoop] scope.data = .ok "-101".toList ∧
      (∃ after, Through (counterRound 3 "i".toList resetsCounter) [-1, 0, 1] scope after ∧
        resetLoop.run 3 scope = .ok (.done, after)) ∧
      resetLoop.run 2 scope = .error (.loopLimit 2) := by
  intro scope
  -- The counter is bound whenever the body shows it.
  have completes (limit : Nat) (i : Int) (s : Scope) :
      ∃ t, counterRound limit "i".toList resetsCounter i s = .ok (.done, t) := by
    simp [counterRound, resetsCounter, runAll, Node.run, Scope.bind, Scope.eval, Expr.eval,
      Bind.bind, Except.bind, Pure.pure, Except.pure]
  have unbroken (limit : Nat) (pieces : List Int) :
      Unbroken (counterRound limit "i".toList resetsCounter) pieces scope :=
    fun _ i _ s _ _ => completes limit i s
  have begins : scope.eval (.literal (.number (.whole (-1)))) >>= Value.bound = .ok (-1) := rfl
  have ends : scope.eval (.var "n".toList) >>= Value.bound = .ok 1 := rfl
  have visited : integersOf true (-1) 1 = [-1, 0, 1] := by decide
  have three := (Node.range_visits begins ends 3 "i".toList true resetsCounter).2.1
  have two := (Node.range_visits begins ends 2 "i".toList true resetsCounter).2.1
  have below : ¬ (true = true ∧ (1 : Int) = twoTo 63 - 1) := by decide
  rw [if_neg below, visited] at three two
  exact ⟨rfl, (three (unbroken 3 _)).1 (by decide), (two (unbroken 2 _)).2 (by decide)⟩

end Templates
