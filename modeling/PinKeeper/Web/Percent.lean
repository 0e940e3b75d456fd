import PinKeeper.Text.Encoding
import PinKeeper.Text.Hexadecimal

/-!
# Web/Percent — bytes written as escapes

Text in a web address is written byte by byte.  A byte that has a meaning of its own there, or is
not printable, is written as a percent sign with two hexadecimal digits.  Which bytes stand for
themselves differs from place to place and is a parameter (`keep`); `decode` needs not know it.
-/

namespace PinKeeper.Web.Percent

/-- Escape of a byte. -/
def escape (b : UInt8) : List Char :=
  ['%', Text.hexUpper (b.toNat / 16), Text.hexUpper (b.toNat % 16)]

/-- Writes a byte: as the character it stands for if that is kept, else as an escape. -/
def encodeByte (keep : Char → Bool) (b : UInt8) : List Char :=
  if b.toNat < 0x80 && keep (Char.ofNat b.toNat) then [Char.ofNat b.toNat] else escape b

/-- Writes the bytes of a text. -/
def encode (keep : Char → Bool) (s : String) : List Char :=
  s.toUTF8.toList.flatMap (encodeByte keep)

/-- Bytes of a written text; a percent sign that starts no escape stands for itself. -/
def decode : List Char → List UInt8
  | '%' :: x :: y :: rest =>
    match Text.hexValue? x, Text.hexValue? y with
    | some h, some l => UInt8.ofNat (16 * h + l) :: decode rest
    | _, _ => UInt8.ofNat '%'.toNat :: decode (x :: y :: rest)
  | c :: rest => String.utf8EncodeChar c ++ decode rest
  | [] => []

/-- Text that was written, if its bytes are the encoding of one. -/
def decoded? (cs : List Char) : Option String := Text.decoded? ⟨(decode cs).toArray⟩

end PinKeeper.Web.Percent
