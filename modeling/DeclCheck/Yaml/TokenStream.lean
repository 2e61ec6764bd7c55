import DeclCheck.Yaml.Scalar

/-!
# The tokens of a document

Tokens are read on demand. A token may be a key without saying so: only the colon behind it tells,
and then the key's token, and the start of its block mapping, go before it. So a token is handed
out only when it can no longer become a key, and with two more tokens behind it in the queue.

Indentation opens and closes blocks outside of brackets; inside of brackets it says nothing.
-/
namespace DeclCheck.Yaml

/-- A token that may turn out to be a key. -/
structure KeyCandidate where
  /-- May it still become a key? -/
  possible : Bool := false
  /-- Must it become a key, because it stands where a key of the block stands? -/
  required : Bool := false
  /-- Is it found by its number when the token is to be handed out? -/
  listed : Bool := false
  /-- The number of the token. -/
  number : Nat := 0
  mark : Mark := {}
  deriving Repr, Inhabited

/-- Is the candidate out of reach: on an earlier line, or more than 1024 characters back? -/
def KeyCandidate.isStale (k : KeyCandidate) (now : Mark) : Bool :=
  k.mark.line < now.line || k.mark.index + 1024 < now.index

structure TokenStream where
  cursor : Cursor
  started : Bool := false
  /-- How many brackets are open. -/
  flow : Nat := 0
  /-- The indentation of the block, -1 outside of all blocks. -/
  indent : Int := -1
  /-- The indentations of the blocks around it, the innermost first. -/
  outer : List Int := []
  /-- How many blocks are open. -/
  blocks : Nat := 0
  /-- May a key start here? -/
  keyAllowed : Bool := false
  /-- The candidate of the innermost bracket, or of the block outside of brackets. -/
  key : KeyCandidate := {}
  /-- The candidates of the brackets around it, the innermost first. -/
  outerKeys : List KeyCandidate := []
  /-- The tokens read and not handed out. -/
  queue : List Token := []
  /-- How many tokens were handed out. -/
  taken : Nat := 0

namespace TokenStream

def ofInput (i : Input) : TokenStream := { cursor := Cursor.ofInput i }

def maxDepth : Nat := 10000

def nextNumber (s : TokenStream) : Nat := s.taken + s.queue.length

def push (s : TokenStream) (t : Token) : TokenStream := { s with queue := s.queue ++ [t] }

def insertAt (s : TokenStream) (number : Nat) (t : Token) : TokenStream :=
  let n := number - s.taken
  { s with queue := s.queue.take n ++ t :: s.queue.drop n }

def fail {α : Type} (s : TokenStream) (p : Problem) (context : Mark) : Except Failure α :=
  s.cursor.fail p context

/-! ## Keys -/

/-- Gives up the candidate of the innermost bracket. -/
def dropKey (s : TokenStream) : Except Failure TokenStream :=
  if s.key.possible then
    if s.key.required then s.fail .expectedColon s.key.mark
    else .ok { s with key := { s.key with possible := false, listed := false } }
  else .ok s

/-- Remembers that the token to be read next may be a key, if a key may start here. -/
def saveKey (s : TokenStream) : Except Failure TokenStream :=
  if s.keyAllowed then do
    let required := s.flow == 0 && s.indent == (s.cursor.mark.column : Int)
    let number := s.nextNumber
    let s ← s.dropKey
    return { s with
      key := { possible := true, required, listed := true, number, mark := s.cursor.mark } }
  else .ok s

/-- The candidate of the innermost bracket, looked at once more: is it still a key? -/
def checkKey (s : TokenStream) : Except Failure (Bool × TokenStream) :=
  if !s.key.possible then .ok (false, s)
  else if s.key.isStale s.cursor.mark then
    if s.key.required then s.fail .expectedColon s.key.mark
    else .ok (false, { s with key := { s.key with possible := false } })
  else .ok (true, s)

/-- Does a listed candidate with this number still hold back its token? Candidates are listed from
the innermost on, so their numbers do not increase. -/
def holdsBack (s : TokenStream) : List KeyCandidate → Except Failure Bool
  | [] => .ok false
  | k :: rest =>
    if k.number < s.taken then .ok false
    else if k.number == s.taken && k.listed && k.possible then
      if k.isStale s.cursor.mark then
        if k.required then s.fail .expectedColon k.mark else .ok false
      else .ok true
    else s.holdsBack rest

/-! ## Blocks and brackets -/

/-- Opens a block at a column unless one is open there. The token that opens it goes before the
token with number `before`, or at the end of the queue. -/
def openBlock (s : TokenStream) (column : Nat) (before : Option Nat) (kind : TokenKind)
    (mark : Mark) : Except Failure TokenStream :=
  if s.flow = 0 && s.indent < (column : Int) then
    let token : Token := ⟨kind, mark, mark⟩
    let s := { s with outer := s.indent :: s.outer, indent := column, blocks := s.blocks + 1 }
    if maxDepth < s.blocks then s.fail .tooDeep s.key.mark
    else .ok (match before with
      | some n => s.insertAt n token
      | none => s.push token)
  else .ok s

/-- The blocks right of a column, closed one by one; `outer` are the indentations around. -/
def closeBlocksIn (column : Int) (mark : Mark) : List Int → TokenStream → TokenStream
  | [], s => s
  | up :: outer, s =>
    if column < s.indent then
      closeBlocksIn column mark outer
        { s.push ⟨.blockEnd, mark, mark⟩ with indent := up, outer, blocks := s.blocks - 1 }
    else s

/-- Closes the blocks right of a column. Inside of brackets nothing is closed. -/
def closeBlocks (s : TokenStream) (column : Int) (mark : Mark) : TokenStream :=
  if s.flow = 0 then closeBlocksIn column mark s.outer s else s

def openFlow (s : TokenStream) : Except Failure TokenStream :=
  let inner : KeyCandidate := { number := s.nextNumber, mark := s.cursor.mark }
  let s := { s with outerKeys := s.key :: s.outerKeys, key := inner, flow := s.flow + 1 }
  if maxDepth < s.flow then s.fail .tooDeep inner.mark else .ok s

/-- Closes a bracket. A candidate with the number of the closed one is no longer listed. -/
def closeFlow (s : TokenStream) : TokenStream :=
  match s.outerKeys with
  | [] => s
  | k :: rest =>
    { s with
      flow := s.flow - 1
      key := if k.number == s.key.number then { k with listed := false } else k
      outerKeys := rest }

/-! ## Blanks and comments -/

/-- How many bytes ahead a comment is looked for. -/
def commentReach : Nat := 512

/-- How many blanks and line breaks stand before the next comment, if one is near. -/
def commentAhead (cs : List Char) : Option Nat :=
  let gap := cs.takeWhile fun c => isBlank c || c == '\n' || c == '\r'
  if gap.length < commentReach && (cs.drop gap.length).head? == some '#' then some gap.length
  else none

/-- Goes on over `n` characters that are blanks or line breaks. -/
def skipGap : Nat → Cursor → Cursor
  | 0, c => c
  | n + 1, c =>
    match c.rest with
    | '\r' :: '\n' :: _ =>
      match n with
      | 0 => c.skipBreak
      | m + 1 => skipGap m c.skipBreak
    | ch :: _ => skipGap n (if isBreak ch then c.skipBreak else c.skip 1)
    | [] => c

/-- Goes on to the end of a comment, and of the comments that follow with nothing but blanks and
line breaks between. -/
def skipComments : Nat → Cursor → Cursor
  | 0, c => c
  | fuel + 1, c =>
    let c := c.skipWhile (!isBreakOrEnd ·)
    match commentAhead c.rest with
    | some n => if n = 0 then c else skipComments fuel (skipGap n c)
    | none => c

/-- Goes on over a comment behind a token. -/
def skipLineComment (c : Cursor) : Cursor :=
  let blanks := (c.rest.takeWhile isBlank).length
  if !c.atLineStart && blanks < commentReach && c.peekAt blanks == '#' then
    (c.skip blanks).skipWhile (!isBreakOrEnd ·)
  else c

/-- Goes on to the next token. Tabs are skipped only where no key may start. -/
def skipToToken : Nat → TokenStream → Except Failure TokenStream
  | 0, s => .ok s
  | fuel + 1, s => do
    s.cursor.need 1
    let tabs := 0 < s.flow || !s.keyAllowed
    let c := s.cursor.skipWhile fun ch => ch == ' ' || (tabs && ch == '\t')
    c.need 1
    let c := if c.peek == '#' then skipComments (c.rest.length + 1) c else c
    c.need 1
    if isBreak c.peek then
      skipToToken fuel
        { s with cursor := c.skipBreak, keyAllowed := s.keyAllowed || s.flow == 0 }
    else .ok { s with cursor := c }

/-! ## Directives, anchors and tags -/

/-- Reads a number of a version, at most two digits. -/
def readVersionNumber (start : Mark) (c : Cursor) : Except Failure (Nat × Cursor) := do
  c.need 1
  let digits := c.rest.takeWhile (·.isDigit)
  if 2 < digits.length then (c.skip 2).fail .longVersion start
  else if digits.isEmpty then c.fail .expectedVersion start
  else
    let c := c.skip digits.length
    c.need 1
    return (digits.foldl (fun n d => n * 10 + (d.toNat - 48)) 0, c)

/-- Reads the octets of one character, each as a percent sign and two hexadecimal digits. `left`
is the number of octets still to come. -/
def readEscapedTail (start : Mark) : Nat → Text → Cursor → Except Failure (Text × Cursor)
  | 0, done, c => .ok (done, c)
  | left + 1, done, c => do
    c.need 3
    match c.peek == '%', hexValue? (c.peekAt 1), hexValue? (c.peekAt 2) with
    | true, some hi, some lo =>
      let octet := (hi * 16 + lo).toUInt8
      if octet < 0x80 || 0xBF < octet then c.fail .badTrailingOctet start
      else readEscapedTail start left (done ++ [octet]) (c.skip 3)
    | _, _, _ => c.fail .expectedEscapedOctet start

/-- Reads a character of a tag that is written as escaped octets. -/
def readEscapedChar (start : Mark) (c : Cursor) : Except Failure (Text × Cursor) := do
  c.need 3
  match c.peek == '%', hexValue? (c.peekAt 1), hexValue? (c.peekAt 2) with
  | true, some hi, some lo =>
    let octet := (hi * 16 + lo).toUInt8
    match octetCount octet with
    | 0 => c.fail .badLeadingOctet start
    | n + 1 => readEscapedTail start n [octet] (c.skip 3)
  | _, _, _ => c.fail .expectedEscapedOctet start

def isTagChar (c : Char) : Bool :=
  isWordChar c || ";/?:@&=+$,.!~*'()[]%".toList.contains c

def readTagChars (start : Mark) : Nat → Text → Cursor → Except Failure (Text × Cursor)
  | 0, done, c => .ok (done, c)
  | fuel + 1, done, c => do
    c.need 1
    if !isTagChar c.peek then .ok (done, c)
    else if c.peek == '%' then
      let (octets, c) ← readEscapedChar start c
      readTagChars start fuel (done ++ octets) c
    else readTagChars start fuel (done ++ Text.ofChars [c.peek]) (c.skip 1)

/-- Reads the end of a tag behind `head`, whose first character is left out. -/
def readTagUri (start : Mark) (head : Text) (c : Cursor) : Except Failure (Text × Cursor) := do
  let (uri, after) ← readTagChars start (c.rest.length + 1) (head.drop 1) c
  if head.isEmpty && after.mark.index == c.mark.index then after.fail .expectedTagUri start
  else return (uri, after)

/-- Reads the handle of a tag: an exclamation mark, and a word with another one if there is one. -/
def readTagHandle (directive : Bool) (start : Mark) (c : Cursor) :
    Except Failure (Text × Cursor) := do
  c.need 1
  if c.peek != '!' then c.fail .expectedBang start
  else
    let word := (c.rest.drop 1).takeWhile isWordChar
    let after := c.skip (word.length + 1)
    after.need 1
    if after.peek == '!' then return (Text.ofChars ('!' :: word ++ ['!']), after.skip 1)
    else if directive && !word.isEmpty then after.fail .expectedBang start
    else return (Text.ofChars ('!' :: word), after)

def readVersion (start : Mark) (c : Cursor) : Except Failure (TokenKind × Cursor) := do
  let (major, c) ← readVersionNumber start (c.skipWhile isBlank)
  if c.peek != '.' then c.fail .expectedVersionPoint start
  else
    let (minor, c) ← readVersionNumber start (c.skip 1)
    return (.versionDirective major minor, c)

/-- Reads the handle and what it stands for behind the name of the directive. -/
def readTagDirective (start : Mark) (c : Cursor) : Except Failure (TokenKind × Cursor) := do
  let (handle, c) ← readTagHandle true start (c.skipWhile isBlank)
  c.need 1
  if !isBlank c.peek then c.fail .expectedBlankInTagDirective start
  else
    let (uri, c) ← readTagUri start [] (c.skipWhile isBlank)
    c.need 1
    if !isBlankOrEnd c.peek then c.fail .expectedBlankAfterTag start
    else return (.tagDirective handle uri, c)

/-- Reads a directive; the cursor stands at the percent sign. -/
def readDirective (c : Cursor) : Except Failure (Token × Cursor) := do
  let start := c.mark
  let name := (c.rest.drop 1).takeWhile isWordChar
  let c := c.skip (name.length + 1)
  c.need 1
  if name.isEmpty then c.fail .expectedDirectiveName start
  else if !isBlankOrEnd c.peek then c.fail .nonAlphabetic start
  else
    let (kind, c) ←
      if name == "YAML".toList then readVersion start c
      else if name == "TAG".toList then readTagDirective start c
      else c.fail .unknownDirective start
    let stop := c.mark
    let c := c.skipWhile isBlank
    let c := if c.peek == '#' then c.skipWhile (!isBreakOrEnd ·) else c
    c.need 1
    if !isBreakOrEnd c.peek then c.fail .afterDirective start
    else return (⟨kind, start, stop⟩, c.skipBreak)

def readAnchor (kind : Text → TokenKind) (c : Cursor) : Except Failure (Token × Cursor) := do
  let start := c.mark
  let name := (c.rest.drop 1).takeWhile isWordChar
  let c := c.skip (name.length + 1)
  c.need 1
  if name.isEmpty || !(isBlankOrEnd c.peek || "?:,]\x7d%@`".toList.contains c.peek) then
    c.fail .expectedAnchorName start
  else return (⟨kind (Text.ofChars name), start, c.mark⟩, c)

/-- Reads the handle and the suffix of a tag that is not written out. -/
def readShortTag (start : Mark) (c : Cursor) : Except Failure (TokenKind × Cursor) := do
  let (handle, c) ← readTagHandle false start c
  if 1 < handle.length && handle.getLast? == some 33 then
    let (suffix, c) ← readTagUri start [] c
    return (.tag handle suffix, c)
  else
    let (suffix, c) ← readTagUri start handle c
    return (if suffix.isEmpty then .tag [] handle else .tag "!" suffix, c)

/-- Reads a tag; the cursor stands at the exclamation mark. -/
def readTag (c : Cursor) : Except Failure (Token × Cursor) := do
  let start := c.mark
  c.need 2
  let (kind, c) ←
    if c.peekAt 1 == '<' then do
      let (uri, c) ← readTagUri start [] (c.skip 2)
      if c.peek != '>' then c.fail .expectedTagClose start
      else pure (TokenKind.tag [] uri, c.skip 1)
    else readShortTag start c
  c.need 1
  if !isBlankOrEnd c.peek then c.fail .expectedBlankAfterTag start
  else return (⟨kind, start, c.mark⟩, c)

/-! ## The next token -/

def pushIndicator (s : TokenStream) (kind : TokenKind) (n : Nat) : TokenStream :=
  let c := s.cursor.skip n
  { s with cursor := c }.push ⟨kind, s.cursor.mark, c.mark⟩

/-- Ends all blocks and candidates, before a directive, a document or the end. -/
def reset (s : TokenStream) : Except Failure TokenStream := do
  let s ← (s.closeBlocks (-1) s.cursor.mark).dropKey
  return { s with keyAllowed := false }

def fetchStart (s : TokenStream) : TokenStream :=
  { s with started := true, keyAllowed := true }.push ⟨.streamStart, s.cursor.mark, s.cursor.mark⟩

def fetchEnd (s : TokenStream) : Except Failure TokenStream := do
  let m := s.cursor.mark
  let m := if m.column = 0 then m else { m with line := m.line + 1, column := 0 }
  let s ← reset { s with cursor := { s.cursor with mark := m } }
  return s.push ⟨.streamEnd, m, m⟩

def fetchDirective (s : TokenStream) : Except Failure TokenStream := do
  let s ← s.reset
  let (t, c) ← readDirective s.cursor
  return { s with cursor := c }.push t

def fetchDocumentIndicator (s : TokenStream) (kind : TokenKind) : Except Failure TokenStream := do
  let s ← s.reset
  return s.pushIndicator kind 3

def fetchFlowStart (s : TokenStream) (kind : TokenKind) : Except Failure TokenStream := do
  let s ← s.saveKey
  let s ← s.openFlow
  return { s with keyAllowed := true }.pushIndicator kind 1

def fetchFlowEnd (s : TokenStream) (kind : TokenKind) : Except Failure TokenStream := do
  let s ← s.dropKey
  return { s.closeFlow with keyAllowed := false }.pushIndicator kind 1

def fetchFlowEntry (s : TokenStream) : Except Failure TokenStream := do
  let s ← s.dropKey
  return { s with keyAllowed := true }.pushIndicator .flowEntry 1

def fetchBlockEntry (s : TokenStream) : Except Failure TokenStream := do
  let m := s.cursor.mark
  if s.flow = 0 && !s.keyAllowed then s.fail .entryNotAllowed m
  else
    let s ← s.openBlock m.column none .blockSequenceStart m
    let s ← s.dropKey
    return { s with keyAllowed := true }.pushIndicator .blockEntry 1

def fetchKey (s : TokenStream) : Except Failure TokenStream := do
  let m := s.cursor.mark
  if s.flow = 0 && !s.keyAllowed then s.fail .keyNotAllowed m
  else
    let s ← s.openBlock m.column none .blockMappingStart m
    let s ← s.dropKey
    return { s with keyAllowed := s.flow == 0 }.pushIndicator .key 1

/-- Adds the colon of a value, and the key before it if there was a candidate. -/
def fetchValue (s : TokenStream) : Except Failure TokenStream := do
  let m := s.cursor.mark
  let (isKey, s) ← s.checkKey
  if isKey then
    let k := s.key
    let s := s.insertAt k.number ⟨.key, k.mark, k.mark⟩
    let s ← s.openBlock k.mark.column (some k.number) .blockMappingStart k.mark
    let s := { s with key := { k with possible := false, listed := false }, keyAllowed := false }
    return s.pushIndicator .value 1
  else if s.flow = 0 && !s.keyAllowed then s.fail .valueNotAllowed m
  else
    let s ← s.openBlock m.column none .blockMappingStart m
    return { s with keyAllowed := s.flow == 0 }.pushIndicator .value 1

/-- Adds a token that may be a key, read by `read`. -/
def fetchCandidate (s : TokenStream) (read : Cursor → Except Failure (Token × Cursor)) :
    Except Failure TokenStream := do
  let s ← s.saveKey
  let (t, c) ← read s.cursor
  return { s with cursor := c, keyAllowed := false }.push t

/-- Adds a scalar that may be a key. -/
def fetchScalar (s : TokenStream) (style : ScalarStyle) (read : Cursor → Except Failure Lexeme) :
    Except Failure TokenStream := do
  let s ← s.saveKey
  let start := s.cursor.mark
  let l ← read s.cursor
  return { s with cursor := l.next, keyAllowed := l.broken }.push
    ⟨.scalar (Text.ofChars l.chars) style, start, l.stop⟩

/-- Adds a block of lines, which is never a key. -/
def fetchBlockScalar (s : TokenStream) (literal : Bool) : Except Failure TokenStream := do
  let s ← s.dropKey
  let start := s.cursor.mark
  let l ← blockScalar literal s.indent s.cursor
  return { s with cursor := l.next, keyAllowed := true }.push
    ⟨.scalar (Text.ofChars l.chars) (if literal then .literal else .folded), start, l.stop⟩

/-- May a plain scalar start with `c` before `next`? -/
def startsPlain (flow : Bool) (c next : Char) : Bool :=
  !(isBlankOrEnd c || "-?:,[]\x7b\x7d#&*!|>'\"%@`".toList.contains c) ||
    (c == '-' && !isBlank next) ||
    (!flow && (c == '?' || c == ':') && !isBlankOrEnd next)

def fetchContent (s : TokenStream) : Except Failure TokenStream :=
  let c := s.cursor
  let ch := c.peek
  let next := c.peekAt 1
  let flow : Bool := 0 < s.flow
  if ch == '[' then s.fetchFlowStart .flowSequenceStart
  else if ch == '{' then s.fetchFlowStart .flowMappingStart
  else if ch == ']' then s.fetchFlowEnd .flowSequenceEnd
  else if ch == '}' then s.fetchFlowEnd .flowMappingEnd
  else if ch == ',' then s.fetchFlowEntry
  else if ch == '-' && isBlankOrEnd next then s.fetchBlockEntry
  else if ch == '?' && (flow || isBlankOrEnd next) then s.fetchKey
  else if ch == ':' && (flow || isBlankOrEnd next) then s.fetchValue
  else if ch == '*' then s.fetchCandidate (readAnchor .reference)
  else if ch == '&' then s.fetchCandidate (readAnchor .anchor)
  else if ch == '!' then s.fetchCandidate readTag
  else if ch == '|' && !flow then s.fetchBlockScalar true
  else if ch == '>' && !flow then s.fetchBlockScalar false
  else if ch == '\'' then s.fetchScalar .singleQuoted (quotedScalar true)
  else if ch == '"' then s.fetchScalar .doubleQuoted (quotedScalar false)
  else if startsPlain flow ch next then
    s.fetchScalar .plain (plainScalar flow (s.indent + 1))
  else s.fail .cannotStartToken c.mark

def endsWithEntry (s : TokenStream) : Bool :=
  match s.queue.getLast? with
  | some t => t.kind == .blockEntry
  | none => false

/-- Reads one more token, with what its place says about blocks before it and a comment on its
line behind it. -/
def fetch (s : TokenStream) : Except Failure TokenStream := do
  s.cursor.need 1
  if !s.started then return s.fetchStart
  else
    let before := s.cursor.mark
    let s ← skipToToken (s.cursor.rest.length + 1) s
    let s := s.closeBlocks s.cursor.mark.column before
    s.cursor.need 4
    let c := s.cursor
    if c.atEnd then s.fetchEnd
    else if c.mark.column = 0 && c.peek == '%' then s.fetchDirective
    else if c.atDocumentIndicator then
      s.fetchDocumentIndicator (if c.peek == '-' then .documentStart else .documentEnd)
    else
      let s ← s.fetchContent
      if s.endsWithEntry then return s
      else
        let c := skipLineComment s.cursor
        c.need 1
        return { s with cursor := c }

/-- Reads tokens until the first one can be handed out. -/
def fill : Nat → TokenStream → Except Failure TokenStream
  | 0, s => .ok s
  | fuel + 1, s => do
    let ready ←
      if s.queue.length ≤ 2 then pure false
      else do
        let held ← s.holdsBack (s.key :: s.outerKeys)
        pure !held
    if ready then return s
    else
      let s ← s.fetch
      fill fuel s

def peek (s : TokenStream) : Except Failure (Token × TokenStream) := do
  let s ← fill (s.cursor.rest.length + 8) s
  match s.queue with
  | t :: _ => return (t, s)
  | [] => return (⟨.streamEnd, s.cursor.mark, s.cursor.mark⟩, s)

def drop (s : TokenStream) : TokenStream :=
  { s with queue := s.queue.drop 1, taken := s.taken + 1 }

end TokenStream

end DeclCheck.Yaml
