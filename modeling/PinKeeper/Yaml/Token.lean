import PinKeeper.Yaml.Scalar

/-!
# Yaml/Token — the marks and texts that a document is made of

`Token.scan?` cuts a text into tokens.  Indentation becomes tokens of its own: a block is opened
where its first entry stands deeper than the block around it and closed by the first token that
stands less deep.  A key is seen to be one only when its colon comes: the token that opens it, and
the one that opens its block, are then put before what has been read since (`Scan.insertBefore`).
A place where such a key may begin is kept per open bracket, as long as the colon can still come:
on the same line and within `maxKeyLength` characters.
-/

namespace PinKeeper.Yaml

/-- Mark or text of a document. -/
inductive Token where
  | version (major minor : Nat)
  | tagPrefix (handle uri : String)
  | documentStart
  | documentEnd
  | sequenceStart
  | mappingStart
  | blockEnd
  | flowSequenceStart
  | flowSequenceEnd
  | flowMappingStart
  | flowMappingEnd
  | entry
  | flowEntry
  | key
  | value
  | alias (name : String)
  | anchor (name : String)
  | tag (handle suffix : String)
  | scalar (text : String) (style : Style)
deriving DecidableEq, Repr

/-- Place where a key may have begun, and the number of the token there.  A key that has to be one
is at the indentation of its block. -/
structure KeyPlace where
  number : Nat
  place : Cursor
  needed : Bool

/-- What has been read so far.  `floor` is the least column of what belongs to the innermost block,
zero outside of all blocks; `outer` are those of the blocks around it. -/
structure Scan where
  place : Cursor
  latest : List Token
  count : Nat
  floor : Nat
  outer : List Nat
  key : Option KeyPlace
  outerKeys : List (Option KeyPlace)
  keyAllowed : Bool

namespace Scan

/-- Characters that a key without a mark of its own may span. -/
def maxKeyLength : Nat := 1024

def start (text : List Char) : Scan := ⟨Cursor.start text, [], 0, 0, [], none, [], true⟩

/-- True inside of brackets. -/
def inFlow (s : Scan) : Bool := !s.outerKeys.isEmpty

/-- Adds a token. -/
def push (s : Scan) (t : Token) : Scan :=
  { s with latest := t :: s.latest, count := s.count + 1 }

/-- Puts a token before the one with the given number. -/
def insertBefore (s : Scan) (number : Nat) (t : Token) : Scan :=
  let later := s.latest.take (s.count - number)
  { s with
    latest := later ++ t :: s.latest.drop (s.count - number)
    count := s.count + 1 }

/-- Moves to another place. -/
def goTo (s : Scan) (place : Cursor) : Scan := { s with place := place }

/-- Adds a token and moves over its characters. -/
def pushOver (s : Scan) (n : Nat) (t : Token) : Scan := (s.push t).goTo (s.place.skip n)

/-- Says whether a key may begin at the next token. -/
def allowKey (s : Scan) (allowed : Bool) : Scan := { s with keyAllowed := allowed }

/-! ## Blocks -/

/-- Opens a block at a column, if that is deeper than the block at hand; its token goes before the
one with the given number. -/
def openBlock (s : Scan) (column number : Nat) (t : Token) : Scan :=
  if s.inFlow || column < s.floor then s
  else { s.insertBefore number t with floor := column + 1, outer := s.floor :: s.outer }

/-- Closes blocks until the least column of the innermost is at most `least`. -/
def closeTo (least floor : Nat) : List Nat → Nat × List Nat × Nat
  | [] => (floor, [], 0)
  | f :: fs =>
    if least < floor then
      let (floor, outer, n) := closeTo least f fs
      (floor, outer, n + 1)
    else (floor, f :: fs, 0)

/-- Closes the blocks that are deeper than a place with the given least column. -/
def closeBlocks (s : Scan) (least : Nat) : Scan :=
  if s.inFlow then s
  else
    let (floor, outer, n) := closeTo least s.floor s.outer
    { s with
      latest := List.replicate n .blockEnd ++ s.latest
      count := s.count + n
      floor := floor
      outer := outer }

/-! ## Places of keys -/

/-- Forgets the place where a key may have begun; one that had to be a key is missed. -/
def dropKey (s : Scan) : Option Scan :=
  match s.key with
  | some k => if k.needed then none else some { s with key := none }
  | none => some s

/-- Notes that a key may begin here. -/
def markKey (s : Scan) : Option Scan :=
  if s.keyAllowed then do
    let needed := !s.inFlow && s.floor == s.place.column + 1
    let s ← s.dropKey
    some { s with key := some ⟨s.count, s.place, needed⟩ }
  else some s

/-- Forgets a place of a key whose colon can come no longer. -/
def dropStale (place : Cursor) : Option KeyPlace → Option (Option KeyPlace)
  | some k =>
    if k.place.line < place.line || k.place.index + maxKeyLength < place.index then
      if k.needed then none else some none
    else some (some k)
  | none => some none

/-- Forgets every place of a key whose colon can come no longer. -/
def dropStaleKeys (s : Scan) : Option Scan := do
  let key ← dropStale s.place s.key
  let outerKeys ← s.outerKeys.mapM (dropStale s.place)
  some { s with key := key, outerKeys := outerKeys }

/-! ## Between tokens -/

/-- Moves over blanks, comments and line breaks.  A tab is no blank where a key may begin outside of
brackets. -/
def skipGap : Nat → Scan → Scan
  | 0, s => s
  | fuel + 1, s =>
    let tabs := s.inFlow || !s.keyAllowed
    let c := if s.place.index = 0 && (s.place.peek 0).any (·.toNat = 0xFEFF) then s.place.skip 1
      else s.place
    let c := c.skipWhile fun x => x = ' ' || (tabs && x = '\t')
    let c := if c.sees '#' then c.skipWhile fun x => !isBreak x else c
    match c.lineBreak? with
    | some (_, next) =>
      skipGap fuel { s with place := next, keyAllowed := s.keyAllowed || !s.inFlow }
    | none => s.goTo c

/-! ## Directives -/

/-- Reads a number of at most nine digits. -/
def versionNumber (c : Cursor) : Option (Nat × Cursor) :=
  let (ds, next) := c.span Char.isDigit
  if ds.isEmpty || 9 < ds.length then none
  else some (ds.foldl (fun n d => 10 * n + (d.toNat - '0'.toNat)) 0, next)

/-- Reads hexadecimal escapes of one character: the bytes of its encoded form. -/
def uriEscape : Nat → List UInt8 → Cursor → Option (List Char × Cursor)
  | 0, _, _ => none
  | fuel + 1, bytes, c =>
    match c.rest with
    | '%' :: a :: b :: _ => do
      let n := (← Text.hexValue? a) * 16 + (← Text.hexValue? b)
      let bytes := bytes ++ [UInt8.ofNat n]
      match String.fromUTF8? (ByteArray.mk bytes.toArray) with
      | some s => some (s.toList, c.skip 3)
      | none => if bytes.length < 4 then uriEscape fuel bytes (c.skip 3) else none
    | _ => none

/-- True for the characters of an address other than the percent sign; brackets and commas only
where the address is between angle brackets. -/
def isUriChar (verbatim : Bool) (x : Char) : Bool :=
  isWord x || ";/?:@&=+$.!~*'()".toList.contains x ||
    (verbatim && (x = ',' || x = '[' || x = ']'))

/-- Reads the characters of an address. -/
def uriChars (verbatim : Bool) : Nat → Cursor → Option (List Char × Cursor)
  | 0, _ => none
  | fuel + 1, c =>
    match c.peek 0 with
    | some '%' => do
      let (x, next) ← uriEscape 4 [] c
      let (xs, last) ← uriChars verbatim fuel next
      some (x ++ xs, last)
    | some x =>
      if isUriChar verbatim x then
        (uriChars verbatim fuel (c.skip 1)).map fun (xs, last) => (x :: xs, last)
      else some ([], c)
    | none => some ([], c)

/-- Reads an address that begins with the given characters. -/
def uri (verbatim : Bool) (head : List Char) (c : Cursor) : Option (String × Cursor) := do
  let (xs, next) ← uriChars verbatim (c.rest.length + 1) c
  if xs.isEmpty && head.isEmpty then none
  else some (String.ofList (head.drop 1 ++ xs), next)

/-- Reads the handle of a tag: an exclamation mark, word characters, and another mark if there is
one. -/
def handle (c : Cursor) : Option (List Char × Cursor) :=
  if c.sees '!' then
    let (word, next) := (c.skip 1).span isWord
    if next.sees '!' then some ('!' :: word ++ ['!'], next.skip 1) else some ('!' :: word, next)
  else none

/-- Reads a directive after its percent sign. -/
def directive (c : Cursor) : Option (Token × Cursor) := do
  let (name, next) := c.span isWord
  if !next.endsWord 0 then none
  else
    let next := next.skipWhile isSpace
    let (token, next) ←
      if name = "YAML".toList then do
        let (major, next) ← versionNumber next
        if next.sees '.' then
          let (minor, next) ← versionNumber (next.skip 1)
          some (Token.version major minor, next)
        else none
      else if name = "TAG".toList then do
        let (h, next) ← handle next
        if h.getLast? != some '!' || !next.atSpace then none
        else
          let (address, next) ← uri true [] (next.skipWhile isSpace)
          if next.endsWord 0 then some (Token.tagPrefix (String.ofList h) address, next) else none
      else none
    let next := next.skipWhile isSpace
    let next := if next.sees '#' then next.skipWhile fun x => !isBreak x else next
    if next.endsLine 0 then
      some (token, match next.lineBreak? with
        | some (_, last) => last
        | none => next)
    else none

/-! ## Anchors and tags -/

/-- Reads the name of an anchor. -/
def anchorName (c : Cursor) : Option (String × Cursor) :=
  let (name, next) := c.span isWord
  let ends := next.endsWord 0 || (next.peek 0).any fun x => "?:,]\x7d%@\x60".toList.contains x
  if name.isEmpty || !ends then none else some (String.ofList name, next)

/-- Reads a tag. -/
def tag (inFlow : Bool) (c : Cursor) : Option (Token × Cursor) := do
  let (handle, suffix, next) ←
    if c.peek 1 == some '<' then do
      let (address, next) ← uri true [] (c.skip 2)
      if next.sees '>' then some ("", address, next.skip 1) else none
    else do
      let (h, next) ← handle c
      if 2 ≤ h.length && h.getLast? == some '!' then
        let (suffix, next) ← uri false [] next
        some (String.ofList h, suffix, next)
      else
        let (suffix, next) ← uri false h next
        if suffix.isEmpty then some ("", "!", next) else some ("!", suffix, next)
  if (inFlow && next.sees ',') || next.endsWord 0 then some (.tag handle suffix, next) else none

/-! ## One token -/

/-- Reads an opening bracket. -/
def openFlow (s : Scan) (t : Token) : Option Scan := do
  let s ← s.markKey
  some ({ s with key := none, outerKeys := s.key :: s.outerKeys, keyAllowed := true }.pushOver 1 t)

/-- Reads a closing bracket. -/
def closeFlow (s : Scan) (t : Token) : Option Scan := do
  let s ← s.dropKey
  let s := match s.outerKeys with
    | k :: ks => { s with key := k, outerKeys := ks }
    | [] => s
  some ((s.allowKey false).pushOver 1 t)

/-- Reads the mark of an entry of a block. -/
def blockEntry (s : Scan) : Option Scan := do
  if !s.inFlow && !s.keyAllowed then none
  else
    let s := s.openBlock s.place.column s.count .sequenceStart
    let s ← s.dropKey
    some ((s.allowKey true).pushOver 1 .entry)

/-- Reads the mark of a key. -/
def keyMark (s : Scan) : Option Scan := do
  if !s.inFlow && !s.keyAllowed then none
  else
    let s := s.openBlock s.place.column s.count .mappingStart
    let s ← s.dropKey
    some ((s.allowKey (!s.inFlow)).pushOver 1 .key)

/-- Reads a colon.  If a key may have begun before it, that was one. -/
def valueMark (s : Scan) : Option Scan :=
  match s.key with
  | some k =>
    let s := s.insertBefore k.number .key
    let s := s.openBlock k.place.column k.number .mappingStart
    some ({ s with key := none, keyAllowed := false }.pushOver 1 .value)
  | none =>
    if !s.inFlow && !s.keyAllowed then none
    else
      let s := s.openBlock s.place.column s.count .mappingStart
      some ((s.allowKey (!s.inFlow)).pushOver 1 .value)

/-- Reads a token that may be a key, or the beginning of one. -/
def keyable (s : Scan) (read : Cursor → Option (Token × Cursor)) : Option Scan := do
  let s ← s.markKey
  let (t, next) ← read s.place
  some (((s.allowKey false).push t).goTo next)

/-- Reads a token at the start of a line that ends every block. -/
def document (s : Scan) (read : Cursor → Option (Token × Cursor)) : Option Scan := do
  let s ← (s.closeBlocks 0).dropKey
  let (t, next) ← read s.place
  some (((s.allowKey false).push t).goTo next)

/-- Reads a plain scalar. -/
def plain (s : Scan) : Option Scan := do
  let s ← s.markKey
  let (text, lineStart, next) ← plainScalar s.inFlow s.floor s.place
  some (((s.allowKey lineStart).push (.scalar text .plain)).goTo next)

/-- Reads a block scalar. -/
def block (s : Scan) (isLiteral : Bool) : Option Scan := do
  let s ← s.dropKey
  let (text, next) ← blockScalar isLiteral s.floor (s.place.skip 1)
  some (((s.allowKey true).push (.scalar text (if isLiteral then .literal else .folded))).goTo next)

/-- Characters that mean something at the start of a token. -/
def isIndicator (x : Char) : Bool := "-?:,[]\x7b\x7d#&*!|>'\"%@\x60".toList.contains x

/-- True if a plain scalar may start at the character at hand. -/
def startsPlain (s : Scan) (x : Char) : Bool :=
  let spaced := (s.place.peek 1).any isSpace
  !(isSpace x || isBreak x || isIndicator x) || (x = '-' && !spaced) ||
    (!s.inFlow && (x = '?' || x = ':') && !s.place.endsWord 1)

/-- Reads the token that starts with the character at hand. -/
def token (s : Scan) (x : Char) : Option Scan :=
  let c := s.place
  let marks := s.inFlow || c.endsWord 1
  if c.column = 0 && x = '%' then s.document fun c => directive (c.skip 1)
  else if c.atDocumentMark '-' then s.document fun c => some (.documentStart, c.skip 3)
  else if c.atDocumentMark '.' then s.document fun c => some (.documentEnd, c.skip 3)
  else if x = '[' then s.openFlow .flowSequenceStart
  else if x = '{' then s.openFlow .flowMappingStart
  else if x = ']' then s.closeFlow .flowSequenceEnd
  else if x = '}' then s.closeFlow .flowMappingEnd
  else if x = ',' then s.dropKey.map fun s => (s.allowKey true).pushOver 1 .flowEntry
  else if x = '-' && c.endsWord 1 then s.blockEntry
  else if x = '?' && marks then s.keyMark
  else if x = ':' && marks then s.valueMark
  else if x = '*' then s.keyable fun c =>
    (anchorName (c.skip 1)).map fun (name, next) => (.alias name, next)
  else if x = '&' then s.keyable fun c =>
    (anchorName (c.skip 1)).map fun (name, next) => (.anchor name, next)
  else if x = '!' then s.keyable (tag s.inFlow)
  else if x = '|' && !s.inFlow then s.block true
  else if x = '>' && !s.inFlow then s.block false
  else if x = '\'' || x = '"' then s.keyable fun c =>
    (quotedScalar x (c.skip 1)).map fun (text, next) => (.scalar text .quoted, next)
  else if s.startsPlain x then s.plain
  else none

/-- Reads all tokens up to the end of the text. -/
def run : Nat → Scan → Option (List Token)
  | 0, _ => none
  | fuel + 1, s => do
    let s := s.skipGap (s.place.rest.length + 1)
    let s ← s.dropStaleKeys
    let s := s.closeBlocks (s.place.column + 1)
    match s.place.peek 0 with
    | some x => run fuel (← s.token x)
    | none => do
      let s ← (s.closeBlocks 0).dropKey
      some s.latest.reverse

end Scan

/-- Tokens of a text, unless it holds a character or a mark that is not allowed. -/
def Token.scan? (text : String) : Option (List Token) :=
  let cs := match text.toList with
    | c :: cs => if c.toNat = 0xFEFF then cs else c :: cs
    | [] => []
  if cs.all isAllowed then Scan.run (cs.length + 1) (Scan.start cs) else none

end PinKeeper.Yaml
