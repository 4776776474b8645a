import Templates.Config
import Templates.Text.Basic
import Templates.Text.Bytes
import Templates.Text.Quoted
import Templates.Text.Search

/-!
Artifacts are kept under keys, which depend on where their sources come from.

A key is written in an alphabet of sixty-four characters that are safe in names of files. Sources
without a name are told apart by the cyclic redundancy check of 32 bits.
-/

namespace Templates.Base64

/-- The character for six bits. -/
def digit (n : Nat) : Char :=
  if n < 26 then Char.ofNat ('A'.toNat + n)
  else if n < 52 then Char.ofNat ('a'.toNat + (n - 26))
  else if n < 62 then Char.ofNat ('0'.toNat + (n - 52))
  else if n = 62 then '-'
  else '_'

/-- Three bytes are four characters; one or two bytes at the end are two or three. -/
def encode : List UInt8 → Text
  | a :: b :: c :: rest =>
    let n := a.toNat * 65536 + b.toNat * 256 + c.toNat
    digit (n / 262144) :: digit (n / 4096 % 64) :: digit (n / 64 % 64) :: digit (n % 64) ::
      encode rest
  | [a, b] =>
    let n := a.toNat * 65536 + b.toNat * 256
    [digit (n / 262144), digit (n / 4096 % 64), digit (n / 64 % 64)]
  | [a] =>
    let n := a.toNat * 65536
    [digit (n / 262144), digit (n / 4096 % 64)]
  | [] => []

end Templates.Base64

namespace Templates.Checksum

/-- One bit is shifted out; a one takes the polynomial with it. -/
def shift (register : UInt32) : UInt32 :=
  if register &&& 1 = 1 then (register >>> 1) ^^^ 0xEDB88320 else register >>> 1

/-- The register after one more byte. -/
def push (register : UInt32) (byte : UInt8) : UInt32 :=
  (List.range 8).foldl (fun r _ => shift r) (register ^^^ byte.toUInt32)

/-- The checksum of bytes. -/
def ofBytes (bytes : List UInt8) : UInt32 :=
  bytes.foldl push 0xFFFFFFFF ^^^ 0xFFFFFFFF

/-- A checksum in eight digits. -/
def text (checksum : UInt32) : Text :=
  let digits := Text.hexadecimal checksum.toNat
  List.replicate (8 - digits.length) '0' ++ digits

end Templates.Checksum

namespace Templates

/-- Where a template comes from: a view, a file, or memory with a name or without one. -/
inductive TemplateSource where
  | view (name : Text)
  | file (path : Path)
  | named (name markup : Text)
  | unnamed (markup : Text)
deriving DecidableEq, Repr

namespace TemplateSource

/-- What tells sources apart: a path, a name or a checksum. -/
def identity (config : Config) : TemplateSource → Text
  | .view name => config.viewPath name
  | .file path => path
  | .named name _ => name
  | .unnamed markup =>
    "inline-".toList ++ Checksum.text (Checksum.ofBytes (Text.encode markup))

end TemplateSource

/-- The name of an artifact. -/
abbrev ArtifactKey := Text

namespace ArtifactKey

/-- The most characters a key has. -/
def maxLength : Nat := 100

/-- Separators of directories become underscores, and pairs of dots go. -/
def normalize (identity : Text) : Text :=
  Text.replace ".." "" (identity.map fun c => if c = '/' ∨ c = '\\' then '_' else c)

/-- The key of an identity: the end of its written form in an alphabet safe for files. -/
def derive (identity : Text) : ArtifactKey :=
  let encoded := Base64.encode (Text.encode (normalize identity))
  encoded.drop (encoded.length - maxLength)

/-- The file of an artifact. -/
def fileName (key : ArtifactKey) : Text :=
  key ++ ".tpl".toList

end ArtifactKey

end Templates
