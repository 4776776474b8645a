/-! A text is a list of characters, measured in the bytes that encode it. -/

namespace Templates

/-- Template sources, names and rendered pages are lists of characters. -/
abbrev Text := List Char

/-- A string literal may stand where a text is expected. -/
instance : Coe String Text := ⟨String.toList⟩

namespace Text

/-- Offsets into a source count the bytes of its encoding. -/
def bytes : Text → Nat
  | [] => 0
  | c :: rest => c.utf8Size + bytes rest

/-- The empty text is encoded in no bytes. -/
@[simp] theorem bytes_nil : bytes [] = 0 := rfl

/-- Each character adds the bytes of its own encoding. -/
@[simp] theorem bytes_cons (c : Char) (rest : Text) :
    bytes (c :: rest) = c.utf8Size + bytes rest := rfl

/-- Offsets add up along a text that is put together. -/
@[simp] theorem bytes_append (left right : Text) :
    bytes (left ++ right) = bytes left + bytes right := by
  -- Every character of the left part counts once on both sides.
  induction left with
  | nil => simp
  | cons c left ih => simp [ih, Nat.add_assoc]

/-- A number is written in decimal digits without a sign. -/
def decimal (n : Nat) : Text :=
  Nat.toDigits 10 n

/-- An integer is written with a minus sign when it is below zero. -/
def ofInt : Int → Text
  | .ofNat n => decimal n
  | .negSucc n => '-' :: decimal (n + 1)

/-- Removing an expected beginning leaves the remainder of the text. -/
def strip? : Text → Text → Option Text
  | [], text => some text
  | _ :: _, [] => none
  | p :: start, c :: text => if p = c then strip? start text else none

/-- A text starts with another when stripping it succeeds. -/
def startsWith (start text : Text) : Bool :=
  (strip? start text).isSome

/-- What was stripped and what remained make up the text. -/
theorem eq_append_of_strip? {start text rest : Text} (found : strip? start text = some rest) :
    text = start ++ rest := by
  -- Each step removes one equal character from both texts.
  induction start generalizing text with
  | nil => simpa [strip?] using found
  | cons p start ih =>
    cases text with
    | nil => simp [strip?] at found
    | cons c text =>
      simp only [strip?] at found
      split at found
      · rename_i same
        simp [same, ih found]
      · simp at found

/-- A beginning put in front of a text strips off again. -/
@[simp] theorem strip?_append (start rest : Text) : strip? start (start ++ rest) = some rest := by
  -- Equal characters are removed one by one until only the rest is left.
  induction start with
  | nil => rfl
  | cons p start ih => simp [strip?, ih]

/-- Texts are ordered by their code points, which is the order of their bytes. -/
def before (left right : Text) : Bool :=
  decide (left < right)

end Text

end Templates
