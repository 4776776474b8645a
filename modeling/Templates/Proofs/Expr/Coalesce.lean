import Mathlib.Data.List.Induction
import Templates.Expr.Eval
import Templates.Proofs.Expr.Derivation

/-!
Chains of coalescing operators.

An operand to the left of an operator is looked at leniently and the one to its right is not, so
what an operand means seems to depend on how a chain nests. Main statement: it does not. A chain has
the value of its first operand that leaves nothing open, or else that of its last one.
-/

namespace Templates

open Grammar (Derives)

/-- A result that leaves open which value is meant: null, or a variable that is not there. -/
def leavesOpen : Except EvalError Value → Bool
  | .ok .null => true
  | .error (.unknownVariable _) => true
  | _ => false

namespace Expr

/-- Operands joined by coalescing operators, which gather to the left. -/
def coalesced (first : Expr) (rest : List Expr) : Expr :=
  rest.foldl (fun left right => .binary left .coalesce right) first

/-- The first operand whose result leaves nothing open, or else the last one. -/
def settled (data : Data) (first : Expr) (rest : List Expr) : Expr :=
  ((first :: rest).find? fun e => !leavesOpen (e.eval data)).getD
    ((first :: rest).getLast (List.cons_ne_nil first rest))

variable (data : Data)

/-- Coalescing goes on to its right operand exactly when the left one leaves the value open. -/
theorem eval_coalesce (left right : Expr) :
    (Expr.binary left .coalesce right).eval data =
      if leavesOpen (left.eval data) then right.eval data else left.eval data := by
  rw [eval]
  -- What the left operand gives decides, and an unknown variable counts as null.
  cases looked : left.eval data with
  | error e =>
    cases e with
    | unknownVariable name => rfl
    | _ => rfl
  | ok value =>
    cases value with
    | null => rfl
    | _ => rfl

/-- Coalescing is associative, in its values and in its errors. -/
theorem eval_coalesce_assoc (a b c : Expr) :
    (Expr.binary (.binary a .coalesce b) .coalesce c).eval data =
      (Expr.binary a .coalesce (.binary b .coalesce c)).eval data := by
  simp only [eval_coalesce]
  cases first : leavesOpen (a.eval data) with
  | true =>
    -- Both go on to the second operand, and then to the third one.
    simp only [if_true]
  | false =>
    -- Both end with the first operand, which leaves nothing open to the left either.
    simp only [Bool.false_eq_true, if_false, first]

/-- The first operand of a chain can be taken off. -/
theorem eval_coalesced_cons (first next : Expr) (rest : List Expr) :
    (coalesced first (next :: rest)).eval data =
      (Expr.binary first .coalesce (coalesced next rest)).eval data := by
  -- The operators gather to the left, so that the first two of more operands count as one.
  induction rest generalizing first next with
  | nil => rfl
  | cons third rest ih =>
    have gathered : coalesced first (next :: third :: rest) =
        coalesced (.binary first .coalesce next) (third :: rest) := rfl
    rw [gathered, ih, eval_coalesce_assoc]
    simp only [eval_coalesce, ih]

/-- The first operand settles a chain, unless it leaves the value open. -/
theorem settled_cons (first next : Expr) (rest : List Expr) :
    settled data first (next :: rest) =
      if leavesOpen (first.eval data) then settled data next rest else first := by
  simp only [settled, List.find?_cons, List.getLast_cons_cons]
  cases leavesOpen (first.eval data) <;> simp

/-- A chain has the value of its first operand that leaves nothing open, or else of its last one. -/
theorem eval_coalesced (first : Expr) (rest : List Expr) :
    (coalesced first rest).eval data = (settled data first rest).eval data := by
  induction rest generalizing first with
  | nil =>
    -- A single operand is the last one as well.
    have only : settled data first [] = first := by
      rw [settled, List.find?_singleton]
      split <;> rfl
    rw [only]
    rfl
  | cons next rest ih =>
    rw [eval_coalesced_cons, eval_coalesce, ih, settled_cons]
    split <;> rfl

end Expr

namespace Grammar

/-- The operands of a chain with the tokens that derive them. -/
abbrev Operand := List Token × Expr

/-- The tokens of a chain. -/
def chained (first : Operand) (rest : List Operand) : List Token :=
  first.1 ++ rest.flatMap fun operand => .symbol .coalesce :: operand.1

/-- A chain has its operands in the next tighter stratum. -/
theorem Derives.of_chain {first : Operand} {rest : List Operand}
    (operands : ∀ operand ∈ first :: rest, Derives .either operand.1 operand.2) :
    Derives .coalesce (chained first rest) (Expr.coalesced first.2 (rest.map Prod.snd)) := by
  -- The induction is on the chain from its end, where the last operator is.
  induction rest using List.reverseRecOn with
  | nil =>
    have alone := operands first (.head _)
    simpa [chained, Expr.coalesced] using Derives.tighter rfl alone
  | append_singleton rest last ih =>
    have before : Derives .coalesce (chained first rest)
        (Expr.coalesced first.2 (rest.map Prod.snd)) := by
      refine ih fun operand listed => operands operand ?_
      rcases List.mem_cons.mp listed with rfl | later
      · exact .head _
      · exact .tail _ (List.mem_append_left _ later)
    have behind := operands last (by simp)
    have joined := @Derives.binary _ _ _ _ _ _ .coalesce _ rfl before rfl behind
    simpa [chained, Expr.coalesced] using joined

/-- What is derived in the loosest stratum is a chain. -/
theorem Derives.exists_chain : {tokens : List Token} → {e : Expr} → Derives .coalesce tokens e →
    ∃ (first : Operand) (rest : List Operand), tokens = chained first rest ∧
      (∀ operand ∈ first :: rest, Derives .either operand.1 operand.2) ∧
      e = Expr.coalesced first.2 (rest.map Prod.snd)
  | tokens, e, .tighter next derives => by
    cases next
    exact ⟨(tokens, e), [], by simp [chained], by simpa using derives, rfl⟩
  | _, _, @Derives.binary _ _ _ right _ b sign _ next left found behind => by
    cases next
    obtain ⟨first, rest, rfl, operands, rfl⟩ := left.exists_chain
    -- The sign is the only one of its stratum, and the right operand is the last one of the chain.
    cases sign <;> cases found
    refine ⟨first, rest ++ [(right, b)], by simp [chained], ?_, by simp [Expr.coalesced]⟩
    intro operand listed
    rw [← List.cons_append, List.mem_append, List.mem_singleton] at listed
    rcases listed with earlier | rfl
    · exact operands operand earlier
    · exact behind

end Grammar

open Grammar in
/-- A source reads as a chain exactly when it is cut into the tokens of one. -/
theorem Expr.read_iff_chained (base : Nat) (source : Text) (e : Expr) :
    Expr.read base source = .ok e ↔
      ∃ spans first rest, Lexer.tokenize source = .ok spans ∧
        spans.map Spanned.token = chained first rest ∧
        (∀ operand ∈ first :: rest, Derives .either operand.1 operand.2) ∧
        e = Expr.coalesced first.2 (rest.map Prod.snd) := by
  rw [read_eq_ok_iff]
  constructor
  · rintro ⟨tokens, lexed, stands⟩
    obtain ⟨spans, cut, rfl⟩ := lexed_iff_tokenize.mp lexed
    obtain ⟨first, rest, same, operands, rfl⟩ := (derives_iff.mpr stands).exists_chain
    exact ⟨spans, first, rest, cut, same, operands, rfl⟩
  · rintro ⟨spans, first, rest, cut, same, operands, rfl⟩
    have derives := Derives.of_chain operands
    exact ⟨_, lexed_iff_tokenize.mpr ⟨spans, cut, same⟩, derives_iff.mp derives⟩

open Grammar in
/-- Coalescing is associative, and an expression is the chain of its operands, which has the value
of the first of them that leaves nothing open, or else of the last. -/
theorem Expr.coalesce_associates :
    (∀ (data : Data) (a b c : Expr),
      (Expr.binary (.binary a .coalesce b) .coalesce c).eval data =
        (Expr.binary a .coalesce (.binary b .coalesce c)).eval data) ∧
    (∀ (data : Data) (first : Expr) (rest : List Expr),
      (coalesced first rest).eval data = (settled data first rest).eval data) ∧
    ∀ (base : Nat) (source : Text) (e : Expr), Expr.read base source = .ok e ↔
      ∃ spans first rest, Lexer.tokenize source = .ok spans ∧
        spans.map Spanned.token = chained first rest ∧
        (∀ operand ∈ first :: rest, Derives .either operand.1 operand.2) ∧
        e = coalesced first.2 (rest.map Prod.snd) :=
  ⟨eval_coalesce_assoc, eval_coalesced, read_iff_chained⟩

end Templates
