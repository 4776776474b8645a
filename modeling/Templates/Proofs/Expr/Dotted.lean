import Mathlib.Data.List.Chain
import Templates.Expr.Eval
import Templates.Proofs.Expr.Headers
import Templates.Proofs.Text.Numeral
import Templates.Proofs.Text.Search

/-!
Dotted access chains.

A number is read as far as it goes, so that two keys in digits next to each other are read as one
number with a point. Main statement: a chain is read from left to right with such keys taken in
pairs, and every key is a member of its own exactly if no two keys in digits are neighbours.
-/

namespace Templates

open Lexer (continuesName startsName isGap token?)

namespace Dotted

/-- A name that is no keyword. A dollar sign does not continue a name, so that it has none. -/
structure Name where
  head : Char
  tail : Text
  starts : startsName head = true
  continues : ∀ c ∈ head :: tail, continuesName c = true
  unreserved : ∀ keyword ∈ Keyword.all, keyword.text ≠ head :: tail

/-- How a name is written. -/
abbrev Name.text (name : Name) : Text :=
  name.head :: name.tail

/-- One or more decimal digits. -/
structure Digits where
  head : Char
  tail : Text
  digits : ∀ c ∈ head :: tail, c.isDigit = true

/-- How digits are written. -/
abbrev Digits.text (written : Digits) : Text :=
  written.head :: written.tail

/-- What stands at the front of a chain. -/
inductive Identifier where
  | plain (name : Name)
  | dollar (name : Text) (continues : ∀ c ∈ name, continuesName c = true)

/-- What stands behind a dot. -/
inductive Key where
  | name (written : Name)
  | place (written : Digits)

namespace Identifier

/-- How an identifier is written. -/
def text : Identifier → Text
  | plain written => written.text
  | dollar rest _ => '$' :: rest

/-- The name of the variable that an identifier stands for. -/
def variableName : Identifier → Text
  | plain written => written.text
  | dollar rest _ => rest

end Identifier

namespace Key

/-- How a key is written. -/
def text : Key → Text
  | name written => written.text
  | place written => written.text

/-- Whether a key is written in digits. -/
def isPlace : Key → Bool
  | name _ => false
  | place _ => true

/-- Two keys of which at most one is written in digits. -/
def Apart (key next : Key) : Prop :=
  key.isPlace = false ∨ next.isPlace = false

end Key

/-- Keys with their dots. -/
def keysText (keys : List Key) : Text :=
  keys.flatMap fun key => '.' :: key.text

@[simp] theorem keysText_cons (key : Key) (rest : List Key) :
    keysText (key :: rest) = '.' :: (key.text ++ keysText rest) := by
  simp [keysText]

/-- An access chain. -/
def chainText (root : Identifier) (keys : List Key) : Text :=
  root.text ++ keysText keys

/-- The names of the members that a chain reads. Two keys in digits next to each other are one. -/
def properties : List Key → List Text
  | .place whole :: .place fraction :: rest =>
    (whole.text ++ '.' :: fraction.text) :: properties rest
  | key :: rest => key.text :: properties rest
  | [] => []

/-- Members of members of an expression, from left to right. -/
def members (object : Expr) (names : List Text) : Expr :=
  names.foldl (fun inner name => .member inner name) object

@[simp] theorem members_cons (object : Expr) (name : Text) (names : List Text) :
    members object (name :: names) = members (.member object name) names := rfl

/-- The names of the members that an expression reads last. -/
def path : Expr → List Text
  | .member object name => path object ++ [name]
  | _ => []

/-- The members that are read last are those that were added. -/
theorem path_members (object : Expr) (names : List Text) :
    path (members object names) = path object ++ names := by
  induction names generalizing object with
  | nil => simp [members]
  | cons name names ih =>
    rw [members_cons, ih, path, List.append_assoc]
    rfl

/-- Members in another order, or others, are another expression. -/
theorem members_inj {object : Expr} {names others : List Text} :
    members object names = members object others ↔ names = others := by
  constructor
  · intro same
    have paths := congrArg path same
    rwa [path_members, path_members, List.append_cancel_left_eq] at paths
  · rintro rfl
    rfl

/-- Every member is looked up in the value of the expression in front of it. -/
theorem eval_members (data : Data) (object : Expr) (names : List Text) :
    (members object names).eval data =
      (object.eval data).map fun value =>
        names.foldl (fun inner name => inner.member name) value := by
  -- The first name is looked up in the object, and the others in what it gives.
  induction names generalizing object with
  | nil => cases looked : object.eval data <;> simp [members, looked, Except.map]
  | cons name names ih =>
    rw [members_cons, ih, Expr.eval]
    cases object.eval data <;> rfl

/-- The keys of a chain are its members, unless two keys in digits are neighbours. -/
theorem properties_eq_iff (keys : List Key) :
    properties keys = keys.map Key.text ↔ keys.IsChain Key.Apart := by
  induction keys using properties.induct with
  | case1 whole fraction rest ih =>
    -- The first member is longer than the first key.
    constructor
    · intro same
      have longer := congrArg List.length (List.cons.inj same).1
      simp only [Key.text, List.length_append, List.length_cons] at longer
      omega
    · intro apart
      rcases (List.isChain_cons_cons.mp apart).1 with first | second
      · cases first
      · cases second
  | case2 key rest unpaired ih =>
    rw [properties, List.map_cons, List.cons_inj_right, ih, List.isChain_cons]
    · -- The first key makes no pair with the next one, so that the rest decides.
      have apart : ∀ next ∈ rest.head?, key.Apart next := by
        intro next listed
        cases key with
        | name written => exact .inl rfl
        | place whole =>
          cases next with
          | name written => exact .inr rfl
          | place fraction =>
            obtain ⟨others, rfl⟩ := List.head?_eq_some_iff.mp listed
            exact (unpaired whole fraction others rfl rfl).elim
      exact ⟨fun chain => ⟨apart, chain⟩, And.right⟩
    · exact unpaired
  | case3 => simp [properties]

end Dotted

namespace Lexer

open Dotted

/-- A character that starts a name separates no tokens. -/
theorem isGap_of_startsName {c : Char} (starts : startsName c = true) : isGap c = false := by
  rw [Bool.eq_false_iff]
  intro gap
  rw [(noName_of_isGap gap).1] at starts
  cases starts

/-- A character that continues a name separates no tokens, and is no dot. -/
theorem plain_of_continuesName {c : Char} (continues : continuesName c = true) :
    isGap c = false ∧ c ≠ '.' := by
  constructor
  · rw [Bool.eq_false_iff]
    intro gap
    rw [(noName_of_isGap gap).2] at continues
    cases continues
  · rintro rfl
    cases continues

/-- A single dot is a token. -/
theorem token?_dot {c : Char} (other : c ≠ '.') (rest : Text) :
    token? ('.' :: c :: rest) = some (.symbol .dot, c :: rest) := by
  simp [token?, startsName, symbol?, Symbol.longestFirst, Symbol.text, Text.strip?, other.symm]

/-- A number without a point behind it is made of its digits. -/
theorem number_whole (digits : Digits) {rest : Text}
    (ends : ∀ c, rest.head? = some c → c.isDigit = false)
    (unpointed : ∀ d tail, rest = '.' :: d :: tail → d.isDigit = false) :
    number (digits.text ++ rest) = (digits.text, rest) := by
  rw [number, Text.takeWhile_append digits.digits ends, Text.dropWhile_append digits.digits ends]
  -- A dot that goes on with anything but a digit belongs to what follows the number.
  split
  · rename_i d tail
    rw [if_neg (by simp [unpointed d tail rfl])]
  · rfl

/-- A number with a point between digits takes the digits on both sides. -/
theorem number_point (whole fraction : Digits) {rest : Text}
    (ends : ∀ c, rest.head? = some c → c.isDigit = false) :
    number ((whole.text ++ '.' :: fraction.text) ++ rest) =
      (whole.text ++ '.' :: fraction.text, rest) := by
  have point : ∀ c, ('.' :: (fraction.text ++ rest)).head? = some c → c.isDigit = false := by
    rintro c ⟨⟩
    rfl
  have split : (whole.text ++ '.' :: fraction.text) ++ rest =
      whole.text ++ '.' :: (fraction.text ++ rest) := List.append_assoc _ _ _
  rw [split, number, Text.takeWhile_append whole.digits point,
    Text.dropWhile_append whole.digits point]
  have first : fraction.head.isDigit = true := fraction.digits _ List.mem_cons_self
  have taken := Text.takeWhile_append fraction.digits ends
  have left := Text.dropWhile_append fraction.digits ends
  rw [List.cons_append] at taken left
  simp [first, taken, left]

/-- A plain name stands for itself. -/
theorem word_plain (name : Name) : word name.text = .name name.text := by
  refine word_name ?_ fun keyword => name.unreserved keyword (by cases keyword <;> decide)
  -- A dollar sign does not continue a name.
  intro dollar
  have continues := name.continues _ List.mem_cons_self
  rw [dollar] at continues
  cases continues

/-- An identifier goes as far as the characters that continue it. -/
theorem token?_identifier (root : Identifier) {rest : Text}
    (ends : ∀ c, rest.head? = some c → continuesName c = false) :
    token? (root.text ++ rest) = some (.name root.variableName, rest) := by
  cases root with
  | plain name =>
    have continues : ∀ c ∈ name.tail, continuesName c = true := fun c listed =>
      name.continues c (.tail _ listed)
    have meant : word (name.head :: name.tail) = .name name.text := word_plain name
    rw [Identifier.text, Identifier.variableName, Name.text, List.cons_append, token?,
      if_pos name.starts, Text.takeWhile_append continues ends,
      Text.dropWhile_append continues ends, meant, Name.text]
  | dollar name continues =>
    -- The sign begins the word, and all that continues it is the name.
    have starts : startsName '$' = true := rfl
    rw [Identifier.text, Identifier.variableName, List.cons_append, token?, if_pos starts,
      Text.takeWhile_append continues ends, Text.dropWhile_append continues ends, word_dollar]

end Lexer

/-- A dot and what is written behind it are two tokens. -/
theorem Lexed.dotted {c : Char} {tail rest : Text} {token : Token} {tokens : List Token}
    (continues : continuesName c = true)
    (cut : token? (c :: tail ++ rest) = some (token, rest)) (lexed : Lexed rest tokens) :
    Lexed ('.' :: (c :: tail ++ rest)) (.symbol .dot :: token :: tokens) := by
  obtain ⟨noGap, noDot⟩ := Lexer.plain_of_continuesName continues
  exact .token rfl (Lexer.token?_dot noDot _) (.token noGap cut lexed)

/-- A dot and a number behind it are two tokens. -/
theorem Lexed.dotted_number {c : Char} {tail rest : Text} {tokens : List Token}
    (isDigit : c.isDigit = true) (cut : Lexer.number (c :: tail ++ rest) = (c :: tail, rest))
    (lexed : Lexed rest tokens) :
    Lexed ('.' :: (c :: tail ++ rest)) (.symbol .dot :: .number (c :: tail) :: tokens) := by
  have continues : continuesName c = true := by simp [continuesName, Char.isAlphanum, isDigit]
  have noName : ¬ startsName c = true := by simp [Lexer.startsName_of_isDigit isDigit]
  refine .dotted continues ?_ lexed
  rw [List.cons_append] at cut ⊢
  rw [token?, if_neg noName, if_pos isDigit, cut]

namespace Dotted

/-- Nothing but a dot stands at the front of keys. -/
theorem eq_dot_of_head? {keys : List Key} {c : Char} (first : (keysText keys).head? = some c) :
    c = '.' := by
  cases keys with
  | nil => cases first
  | cons key keys => simpa using first.symm

/-- What stands behind a key takes no part in it. -/
theorem ends_keysText (keys : List Key) :
    (∀ c, (keysText keys).head? = some c → continuesName c = false) ∧
      ∀ c, (keysText keys).head? = some c → c.isDigit = false := by
  constructor <;> intro c first <;> rw [eq_dot_of_head? first] <;> rfl

/-- A key behind the dot that begins with a digit is one in digits. -/
theorem exists_place {keys : List Key} {d : Char} {tail : Text}
    (written : keysText keys = '.' :: d :: tail) (isDigit : d.isDigit = true) :
    ∃ digits rest, keys = .place digits :: rest := by
  cases keys with
  | nil => cases written
  | cons key rest =>
    cases key with
    | place digits => exact ⟨digits, rest, rfl⟩
    | name name =>
      -- A name does not begin with a digit.
      have starts := name.starts
      simp only [keysText_cons, Key.text, Name.text, List.cons_append, List.cons.injEq,
        true_and] at written
      rw [written.1, Lexer.startsName_of_isDigit isDigit] at starts
      cases starts

/-- Keys are cut into tokens that put their members behind any expression. -/
theorem exists_lexed {inner : Language Expr} (keys : List Key) {front : List Token} {object : Expr}
    (stands : Grammar.Accessed inner front object) :
    ∃ back, Lexed (keysText keys) back ∧
      Grammar.Accessed inner (front ++ back) (members object (properties keys)) := by
  -- The chain is followed from left to right, and each member has those before it for its object.
  induction keys using properties.induct generalizing front object with
  | case1 whole fraction rest ih =>
    -- The number takes both keys, and ends at the next dot.
    obtain ⟨back, lexed, behind⟩ := ih (.place (whole.text ++ '.' :: fraction.text) stands)
    have cut := Lexer.number_point whole fraction (ends_keysText rest).2
    have both : keysText (.place whole :: .place fraction :: rest) =
        '.' :: ((whole.text ++ '.' :: fraction.text) ++ keysText rest) := by
      simp [Key.text]
    rw [both, properties]
    refine ⟨_, .dotted_number (whole.digits _ List.mem_cons_self) cut lexed, ?_⟩
    simpa using behind
  | case2 key rest unpaired ih =>
    rw [keysText_cons, properties]
    · cases key with
      | name name =>
        obtain ⟨back, lexed, behind⟩ := ih (.member name.text stands)
        have cut := Lexer.token?_identifier (.plain name) (ends_keysText rest).1
        refine ⟨_, .dotted (name.continues _ List.mem_cons_self) cut lexed, ?_⟩
        simpa [Key.text, Identifier.variableName] using behind
      | place digits =>
        obtain ⟨back, lexed, behind⟩ := ih (.place digits.text stands)
        -- A digit behind the next dot would be one of a key in digits, which would make a pair.
        have unpointed : ∀ d tail, keysText rest = '.' :: d :: tail → d.isDigit = false := by
          intro d tail written
          cases isDigit : d.isDigit with
          | false => rfl
          | true =>
            obtain ⟨next, others, same⟩ := exists_place written isDigit
            exact (unpaired digits next others rfl same).elim
        have cut := Lexer.number_whole digits (ends_keysText rest).2 unpointed
        refine ⟨_, .dotted_number (digits.digits _ List.mem_cons_self) cut lexed, ?_⟩
        simpa [Key.text] using behind
    · exact unpaired
  | case3 => exact ⟨[], .nil, by simpa [properties, members] using stands⟩

/-- A chain is cut into the name of its variable and the tokens of its keys. -/
theorem lexed_chain (root : Identifier) {keys : List Key} {back : List Token}
    (lexed : Lexed (keysText keys) back) :
    Lexed (chainText root keys) (.name root.variableName :: back) := by
  have cut := Lexer.token?_identifier root (ends_keysText keys).1
  cases root with
  | plain name => exact .token (Lexer.isGap_of_startsName name.starts) cut lexed
  | dollar name continues => exact .token rfl cut lexed

/-- A list has no item at a place with a point in it. -/
theorem member_point (whole fraction : Digits) (items : List Value) :
    (Value.list items).member (whole.text ++ '.' :: fraction.text) = .null := by
  have listed : '.' ∈ whole.text ++ '.' :: fraction.text := by simp
  rw [Value.member, Value.place?, Text.natural?_eq_none rfl (by decide) listed]
  rfl

end Dotted

open Dotted in
/-- A chain reads its properties from left to right. They are its keys exactly if no two keys in
digits are neighbours; two such keys are one property, which no list has. -/
theorem Expr.read_dotted (base : Nat) (root : Identifier) (keys : List Key) :
    Expr.read base (chainText root keys) =
        .ok (members (.var root.variableName) (properties keys)) ∧
      (members (.var root.variableName) (properties keys) =
          members (.var root.variableName) (keys.map Key.text) ↔
        keys.IsChain Key.Apart) ∧
      (∀ data : Data, (members (.var root.variableName) (properties keys)).eval data =
        ((Expr.var root.variableName).eval data).map fun value =>
          (properties keys).foldl (fun inner name => inner.member name) value) ∧
      ∀ (whole fraction : Digits) (items : List Value),
        (Value.list items).member (whole.text ++ '.' :: fraction.text) = .null := by
  refine ⟨?_, ?_, fun data => eval_members data _ _, member_point⟩
  · obtain ⟨back, lexed, behind⟩ :=
      @exists_lexed (Grammar.Nested 0) keys _ _ (.primary (.var root.variableName))
    -- A chain has no brackets, and so stands for its members at any depth.
    have stands : Grammar.Nested 1 _ _ := Grammar.Joined.single (.accessed behind)
    exact Expr.read_eq_ok_iff.mpr ⟨_, lexed_chain root lexed, 1, stands⟩
  · rw [members_inj, properties_eq_iff]

namespace Dotted

/-- A variable of one letter. -/
def letter : Identifier :=
  .plain ⟨'x', [], rfl, List.forall_mem_singleton.mpr rfl,
    fun keyword _ => by cases keyword <;> decide⟩

/-- The first place. -/
def zero : Digits := ⟨'0', [], List.forall_mem_singleton.mpr rfl⟩

/-- The second place. -/
def one : Digits := ⟨'1', [], List.forall_mem_singleton.mpr rfl⟩

end Dotted

open Dotted in
/-- Two keys in digits are not two members, so that the item of an inner list is not found. -/
theorem Expr.read_misses_inner :
    let data : Data := [("x".toList, .list [.list [.text "a".toList, .text "b".toList]])]
    let claimed := members (.var "x".toList) [['0'], ['1']]
    let source := chainText letter [.place zero, .place one]
    source = "x.0.1".toList ∧ Expr.read 0 source ≠ .ok claimed ∧
      claimed.eval data = .ok (.text "b".toList) ∧
      (Expr.read 0 source).map (fun e => e.eval data) = .ok (.ok .null) := by
  intro data claimed source
  have read : Expr.read 0 source = .ok (.member (.var "x".toList) "0.1".toList) := rfl
  refine ⟨rfl, ?_, rfl, ?_⟩
  · rw [read]
    intro same
    have names : ["0.1".toList] = [['0'], ['1']] := congrArg path (Except.ok.inj same)
    cases names
  · rw [read]
    rfl

end Templates
