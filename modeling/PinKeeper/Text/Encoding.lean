/-!
# Text/Encoding — bytes read as text

`decoded?` reads bytes that are well-formed; `decodedLossy` reads any bytes, a byte that cannot be
part of a character becoming the replacement character, and drops a byte-order mark at the start.
Texts that come from elsewhere may be in another `Coding`, which their mark tells if they have one.
-/

namespace PinKeeper.Text

/-- Stands for bytes that encode nothing. -/
def replacement : Char := Char.ofNat 0xFFFD

/-- Text of well-formed bytes. -/
def decoded? (bytes : ByteArray) : Option String := String.fromUTF8? bytes

/-- Range of the second byte after a leading byte, and the number of bytes that follow it. -/
def sequenceShape (lead : Nat) : Option (Nat × Nat × Nat) :=
  if 0xC2 ≤ lead && lead ≤ 0xDF then some (0x80, 0xBF, 1)
  else if lead == 0xE0 then some (0xA0, 0xBF, 2)
  else if lead == 0xED then some (0x80, 0x9F, 2)
  else if 0xE1 ≤ lead && lead ≤ 0xEF then some (0x80, 0xBF, 2)
  else if lead == 0xF0 then some (0x90, 0xBF, 3)
  else if lead == 0xF4 then some (0x80, 0x8F, 3)
  else if 0xF1 ≤ lead && lead ≤ 0xF3 then some (0x80, 0xBF, 3)
  else none

/-- State between two bytes: the value so far, the bytes still to come and the range of the next
one. -/
structure Pending where
  value : Nat
  left : Nat
  low : Nat
  high : Nat

/-- Reads bytes one by one; an interrupted sequence gives one replacement character and the byte
that interrupts it is read afresh. -/
def decodeBytes (pending : Option Pending) : List UInt8 → List Char
  | [] => if pending.isSome then [replacement] else []
  | b :: bs =>
    let n := b.toNat
    let fresh (broken : Bool) : List Char :=
      let mark := if broken then [replacement] else []
      if n < 0x80 then mark ++ Char.ofNat n :: decodeBytes none bs
      else match sequenceShape n with
        | some (low, high, left) =>
          let value := if left = 1 then n % 32 else if left = 2 then n % 16 else n % 8
          mark ++ decodeBytes (some ⟨value, left, low, high⟩) bs
        | none => mark ++ replacement :: decodeBytes none bs
    match pending with
    | none => fresh false
    | some p =>
      if p.low ≤ n && n ≤ p.high then
        let value := p.value * 64 + n % 64
        if p.left = 1 then Char.ofNat value :: decodeBytes none bs
        else decodeBytes (some ⟨value, p.left - 1, 0x80, 0xBF⟩) bs
      else fresh true

/-- Drops a byte-order mark at the start. -/
def dropMark : List Char → List Char
  | c :: cs => if c.toNat = 0xFEFF then cs else c :: cs
  | [] => []

/-- Text of any bytes, without a byte-order mark. -/
def decodedLossy (bytes : ByteArray) : String :=
  match decoded? bytes with
  | some s => String.ofList (dropMark s.toList)
  | none => String.ofList (dropMark (decodeBytes none bytes.toList))

/-! ## Other codings -/

/-- How a text is coded: in bytes, in units of two bytes with the low byte first or last, or in one
byte for each character. -/
inductive Coding where
  | utf8
  | utf16 (lowFirst : Bool)
  | western
deriving DecidableEq, Repr

/-- Units of two bytes each, and whether a byte is left over. -/
def unitsOf (lowFirst : Bool) : List UInt8 → List Nat × Bool
  | a :: b :: rest =>
    let (units, odd) := unitsOf lowFirst rest
    ((if lowFirst then b.toNat * 256 + a.toNat else a.toNat * 256 + b.toNat) :: units, odd)
  | rest => ([], !rest.isEmpty)

/-- Reads units one by one; `first` is the first half of a pair, if one was read.  Half of a pair
gives the replacement character, and so does what is left over at the end. -/
def decodeUnits (odd : Bool) (first : Option Nat) : List Nat → List Char
  | [] => if first.isSome || odd then [replacement] else []
  | n :: ns =>
    let isSecond := 0xDC00 ≤ n && n < 0xE000
    let fresh (broken : Bool) : List Char :=
      let mark := if broken then [replacement] else []
      if 0xD800 ≤ n && n < 0xDC00 then mark ++ decodeUnits odd (some n) ns
      else mark ++ (if isSecond then replacement else Char.ofNat n) :: decodeUnits odd none ns
    match first with
    | none => fresh false
    | some m =>
      if isSecond then
        Char.ofNat (0x10000 + (m - 0xD800) * 0x400 + (n - 0xDC00)) :: decodeUnits odd none ns
      else fresh true

/-- Characters of the bytes from 0x80 to 0x9F. -/
def westernMarks : List Nat :=
  [0x20AC, 0x81, 0x201A, 0x192, 0x201E, 0x2026, 0x2020, 0x2021, 0x2C6, 0x2030, 0x160, 0x2039, 0x152,
    0x8D, 0x17D, 0x8F, 0x90, 0x2018, 0x2019, 0x201C, 0x201D, 0x2022, 0x2013, 0x2014, 0x2DC, 0x2122,
    0x161, 0x203A, 0x153, 0x9D, 0x17E, 0x178]

/-- Character of a byte. -/
def westernChar (b : UInt8) : Char :=
  Char.ofNat (if 0x80 ≤ b.toNat then westernMarks.getD (b.toNat - 0x80) b.toNat else b.toNat)

namespace Coding

/-- Coding that a byte-order mark tells. -/
def ofMark? (bytes : ByteArray) : Option Coding :=
  let byte (i : Nat) : Nat := (bytes[i]?.map (·.toNat)).getD 0
  if byte 0 = 0xFF && byte 1 = 0xFE then some (utf16 true)
  else if byte 0 = 0xFE && byte 1 = 0xFF then some (utf16 false)
  else if byte 0 = 0xEF && byte 1 = 0xBB && byte 2 = 0xBF then some utf8
  else none

/-- Text of bytes in a coding, without a byte-order mark; the mark comes before the coding. -/
def text (coding : Coding) (bytes : ByteArray) : String :=
  match (ofMark? bytes).getD coding with
  | utf8 => decodedLossy bytes
  | utf16 lowFirst =>
    let (units, odd) := unitsOf lowFirst bytes.data.toList
    String.ofList (dropMark (decodeUnits odd none units))
  | western => String.ofList (bytes.data.toList.map westernChar)

/-- Names of the codings that are told apart; a text in any other is read in the usual one. -/
def labels : List (Coding × List String) :=
  [(utf8, ["utf-8", "utf8", "unicode-1-1-utf-8", "unicode11utf8", "unicode20utf8",
      "x-unicode20utf8"]),
    (utf16 true, ["utf-16", "utf-16le", "csunicode", "iso-10646-ucs-2", "ucs-2", "unicode",
      "unicodefeff"]),
    (utf16 false, ["utf-16be", "unicodefffe"]),
    (western, ["windows-1252", "iso-8859-1", "latin1", "ascii", "us-ascii", "ansi_x3.4-1968",
      "cp1252", "cp819", "csisolatin1", "ibm819", "iso-ir-100", "iso8859-1", "iso88591",
      "iso_8859-1", "iso_8859-1:1987", "l1", "x-cp1252"])]

/-- Coding of a name, in either case. -/
def ofLabel? (label : String) : Option Coding :=
  let lower := String.ofList (label.toList.map Char.toLower)
  (labels.find? fun c => c.2.contains lower).map (·.1)

end Coding

/-- A pair of units, and half of one. -/
example : (Coding.utf16 false).text ⟨#[0xD8, 0x3D, 0xDE, 0x00, 0xD8, 0x3D]⟩ = "😀\uFFFD" ∧
    Coding.utf8.text ⟨#[0xFF, 0xFE, 0x41, 0x00]⟩ = "A" := by decide +kernel

end PinKeeper.Text
