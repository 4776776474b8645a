import Templates.Text.Digits

/-! The bytes that encode a text, and bytes written as a percent sign and two digits. -/

namespace Templates.Text

/-- The bytes that encode a text. -/
def encode (text : Text) : List UInt8 :=
  text.flatMap String.utf8EncodeChar

/-- A text is encoded in as many bytes as are counted for it. -/
@[simp] theorem length_encode (text : Text) : (encode text).length = bytes text := by
  -- Each character is encoded in as many bytes as its size says.
  induction text with
  | nil => rfl
  | cons c rest ih =>
    have split : encode (c :: rest) = String.utf8EncodeChar c ++ encode rest := rfl
    rw [split, List.length_append, String.length_utf8EncodeChar, bytes_cons, ih]

/-- The text that bytes encode, if they encode one. -/
def decode? (bytes : List UInt8) : Option Text :=
  (ByteArray.utf8Decode? bytes.toByteArray).map Array.toList

/-- Bytes read back as the text they encode. -/
theorem decode?_encode (text : Text) : decode? (encode text) = some text := by
  -- The list of bytes is the encoding that the decoder is known to invert.
  have encoded : (encode text).toByteArray = text.utf8Encode := rfl
  simp [decode?, encoded, List.utf8Decode?_utf8Encode]

/-- The byte written behind a percent sign by two hexadecimal digits, and what follows them. -/
def percent? : Text → Option (UInt8 × Text)
  | high :: low :: rest =>
    match digit? high, digit? low with
    | some h, some l => some (UInt8.ofNat (h * 16 + l), rest)
    | _, _ => none
  | _ => none

/-- A percent sign with two digits is a byte, and all else is the bytes that encode it. -/
def percentBytes : Nat → Text → List UInt8
  | _, [] => []
  | skip + 1, _ :: rest => percentBytes skip rest
  | 0, c :: rest =>
    if c = '%' then
      match percent? rest with
      | some (byte, _) => byte :: percentBytes 2 rest
      | none => String.utf8EncodeChar c ++ percentBytes 0 rest
    else String.utf8EncodeChar c ++ percentBytes 0 rest

/-- A text with its percent signs resolved, or the text itself when that leaves no text. -/
def unpercent (text : Text) : Text :=
  (decode? (percentBytes 0 text)).getD text

end Templates.Text
