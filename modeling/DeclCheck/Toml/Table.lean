import DeclCheck.Text.Letter
import DeclCheck.Toml.Reader

/-!
# TOML documents

A document is a list of keys with values, and of tables that keys belong to. Values are texts,
numbers, truth values, times, lists of values, and tables in braces on one line.
-/
namespace DeclCheck.Toml

/-! ## Texts -/

/-- Up to `count` hexadecimal digits behind an escape, in front of what was read of the text, last
first. -/
def codeDigits (fault : Text → Fault) : Nat → List Char → ReadM (List Char)
  | 0, read => return read
  | count + 1, read => do
    match ← next with
    | none => failBefore (fault (Text.ofChars read.reverse))
    | some c =>
      if isHexDigit c then codeDigits fault count (c :: read)
      else fail (fault (Text.ofChars (c :: read).reverse))

def escape (read : List Char) : ReadM (List Char) := do
  match ← next with
  | some 'u' => codeDigits .shortCode 4 ('u' :: read)
  | some 'U' => codeDigits .longCode 8 ('U' :: read)
  | some c =>
    if "btnfr\" \t\\".toList.contains c then return c :: read else fail (.badEscape c)
  | none => failBefore (.badEscape none)

/-- The characters up to a closing quote, last first, after those already read. -/
def quotedUpTo (quote : Char) : Nat → List Char → ReadM (List Char)
  | 0, read => return read
  | fuel + 1, read => do
    match ← next with
    | none =>
      failBefore (.unclosedText (if quote = '"' then Text.ofString "'\"'" else "\"'\""))
    | some '\n' => failBefore .newlineInText
    | some c =>
      if c = quote then return read
      else if c = '\\' && quote = '"' then quotedUpTo quote fuel (← escape (c :: read))
      else quotedUpTo quote fuel (c :: read)

/-- The characters between two quotes, the first of which was read. -/
def quoted (quote : Char) : ReadM (List Char) := do
  return (← quotedUpTo quote ((← get).rest.length + 1) []).reverse

/-- Did five quotes close what was read, without a backslash before them? -/
def endsInFive (quote : Char) (read : List Char) : Bool :=
  (List.replicate 5 quote).isPrefixOf read && (quote != '"' || read[5]? != some '\\')

/-- Six quotes between quotes of the other kind. -/
def six (quote : Char) : Text :=
  let other := if quote = '"' then '\'' else '"'
  Text.ofChars ([other] ++ List.replicate 6 quote ++ [other])

/-- The characters up to three closing quotes, last first. Up to two more quotes before these belong
to the text. -/
def longUpTo (quote : Char) : Nat → List Char → ReadM (List Char)
  | 0, read => return read
  | fuel + 1, read => do
    match ← next with
    | none =>
      failBefore (.unclosedText (if quote = '"' then Text.ofString "'\"\"\"'" else "\"'''\""))
    | some c =>
      if c = '\\' && quote = '"' then
        match ← peek with
        | some d =>
          if isBreak d then
            advance
            longUpTo quote fuel (d :: c :: read)
          else longUpTo quote fuel (← escape (c :: read))
        | none => longUpTo quote fuel (← escape (c :: read))
      else if c != quote then longUpTo quote fuel (c :: read)
      else
        let afterFirst ← get
        let two ← accept quote
        let three ← accept quote
        if two && three then
          if (← peek) = some quote then
            if endsInFive quote (quote :: quote :: quote :: read) then fail (.sixQuotes (six quote))
            set afterFirst
            longUpTo quote fuel (c :: read)
          else return read
        else
          set afterFirst
          longUpTo quote fuel (c :: read)

/-- The characters between three quotes, the first three of which were read. -/
def long (quote : Char) : ReadM (List Char) := do
  return (← longUpTo quote ((← get).rest.length + 1) []).reverse

/-- A text that starts with a quote, which was read. -/
def readText (quote : Char) : ReadM Text := do
  let isRaw := quote = '\''
  if ← accept quote then
    if ← accept quote then
      let cs ← long quote
      if isRaw then return Text.ofChars (dropFirstBreak cs) else orFail (longText cs)
    else return []
  else
    let cs ← quoted quote
    if isRaw then return Text.ofChars cs else orFail (plainText cs)

/-! ## Keys -/

/-- A part of a key: bare, or in quotes on one line. -/
def keyPart (first : Char) : ReadM Text := do
  if first = '"' || first = '\'' then
    advance
    let cs ← quoted first
    if first = '\'' then return Text.ofChars cs else orFail (plainText cs)
  else return Text.ofChars (← takeWhile isBare)

/-- Notes that the first part of a key was read. -/
def notePart (parts : Key) : ReadM Unit := do
  if parts.isEmpty then modify fun s => { s with keyLine := s.line }

/-- The parts of the name of a table, up to `fuel` of them, after those already read. -/
def tableNameUpTo : Nat → Key → ReadM Key
  | 0, parts => return parts
  | fuel + 1, parts => do
    skipBlanks
    match ← peek with
    | none | some ']' => fail .emptyTableName
    | some '.' => fail .emptyTablePart
    | some c =>
      let part ← keyPart c
      notePart parts
      let parts := parts ++ [part]
      skipBlanks
      match ← next with
      | some '.' => tableNameUpTo fuel parts
      | some ']' => return parts
      | found => failOn found (.tableNameEnd found)

/-- The parts of a key, up to `fuel` of them, after those already read. -/
def keyUpTo : Nat → Key → ReadM Key
  | 0, parts => return parts
  | fuel + 1, parts => do
    skipBlanks
    match ← peek with
    | none | some '=' => fail .blankPart
    | some '.' => fail .doublePoint
    | some c =>
      let part ← keyPart c
      notePart parts
      let parts := parts ++ [part]
      skipBlanks
      match ← next with
      | some '.' => keyUpTo fuel parts
      | some '=' => return parts
      | some c => fail (.keyEnd c)
      | none => failBefore .endBeforeSeparator

/-- A key and the sign behind it. The tables that its parts name are implied. Gives the line where
it starts. -/
def readKey : ReadM Int := do
  skipBlanks
  match ← peek with
  | none | some '=' => fail .blankKey
  | some '.' => fail .keyStartsWithPoint
  | some _ =>
    let s ← get
    let key ← keyUpTo (s.rest.length + 1) []
    modify ({ · with current := key.getLastD [] })
    for part in key.dropLast do
      openImplied ((← get).context ++ [part])
    modify fun s => { s with keys := s.keys ++ [s.context ++ [s.current]] }
    return s.line

/-! ## Numbers, times and words -/

def integerLeaf (read : List Char) : ReadM Leaf := do return .integer (← orFail (integerOf read))

/-- A number with a point or an exponent, after what was read of it. -/
def readFloat (read : List Char) : ReadM Leaf := do
  let more ← takeWhile fun c => c.isDigit || "_.-+eE".toList.contains c
  orFail (checkFloat (read ++ more))
  return .float

/-- A decimal number after what was read of it. -/
def readDecimal (read : List Char) : ReadM Leaf := do
  let read := read ++ (← takeWhile fun c => c.isDigit || c = '_')
  match ← peek with
  | some c =>
    if c = '.' || c = 'e' || c = 'E' then
      advance
      readFloat (read ++ [c])
    else integerLeaf read
  | none => integerLeaf read

/-- A number or a time after the digits that were read. -/
def readNumberOrTime (read : List Char) : ReadM Leaf := do
  let read := read ++ (← takeWhile Char.isDigit)
  match ← peek with
  | some c =>
    if c = '-' || c = ':' then
      let more ← takeWhile fun c => c.isDigit || "-:Tt .Zz+".toList.contains c
      orFail (checkTime (read ++ more))
      return .time
    else readDecimal read
  | none => integerLeaf read

/-- A number in a base other than ten, after its mark. -/
def readBased (mark : Char) (isDigit : Char → Bool) (fault : Text → Option Char → Fault) :
    ReadM Leaf := do
  let found ← peek
  if !(found.map isDigit).getD false then fail (fault (Text.ofChars ['0', mark]) found)
  integerLeaf ('0' :: mark :: (← takeWhile fun c => isDigit c || c = '_'))

/-- A value that starts with a digit, which was not read. -/
def readUnsigned : ReadM Leaf := do
  if !(← accept '0') then readNumberOrTime []
  else if ← accept 'b' then readBased 'b' (fun c => c = '0' || c = '1') .notBinary
  else if ← accept 'o' then readBased 'o' (fun c => '0' ≤ c && c ≤ '7') .notOctal
  else if ← accept 'x' then readBased 'x' isHexDigit .notHexadecimal
  else
    match ← peek with
    | some c => if c.isDigit then readNumberOrTime ['0'] else readDecimal ['0']
    | none => integerLeaf ['0']

/-- The rest of a word for a number, after the sign and its first character. -/
def readFloatWord (read : List Char) (second third : Char) : ReadM Leaf := do
  if ← accept second then
    if ← accept third then return .float
    fail (.badFloatWord (Text.ofChars (read ++ [second])))
  fail (.badFloatWord (Text.ofChars read))

def readSigned (sign : Char) : ReadM Leaf := do
  match ← next with
  | some 'i' => readFloatWord [sign, 'i'] 'n' 'f'
  | some 'n' => readFloatWord [sign, 'n'] 'a' 'n'
  | some '.' => fail .leadingPoint
  | some c =>
    if c = '0' then
      if let some b := ← peek then
        if b = 'b' || b = 'o' || b = 'x' then
          fail (.signedBase (Text.ofChars [sign, c]) b)
    if c.isDigit then readDecimal [sign, c] else fail (.notDigit c)
  | none => failBefore (.notDigit none)

/-- A word, which has to be a truth value. -/
def readWord : ReadM Leaf := do
  let word := Text.ofChars (← takeWhile Text.isLetter)
  if word == Text.ofString "true" then return .boolean true
  else if word == Text.ofString "false" then return .boolean false
  else fail (.notValueWord word)

/-- A word that starts with `first`, which may be one for a number. If it is none, it is named from
the last character on that fits one. -/
def readNumberWord (first : Char) : ReadM Leaf := do
  let before ← get
  advance
  let beforeSecond ← get
  let n ← accept 'n'
  let beforeThird ← get
  let read := if n then [first, 'n'] else [first]
  if n then
    if ← accept 'f' then return ← finish (read ++ ['f'])
  if ← accept 'a' then
    if ← accept 'n' then return ← finish (read ++ ['a', 'n'])
    set beforeThird
  else set (if n then beforeSecond else before)
  readWord
where
  /-- A word for a number that was read. -/
  finish (read : List Char) : ReadM Leaf := do
    orFail (checkFloat read)
    return .float

/-! ## Values -/

/-- The end of a list or of a table in braces, or what comes next in it. -/
inductive Separator where
  | comma
  | close
  deriving DecidableEq, Repr

def listSeparator : Nat → ReadM Separator
  | 0 => return .close
  | fuel + 1 => do
    let _ ← takeWhile fun c => isBlank c || isBreak c
    match ← next with
    | some '#' => do
      skipComment
      listSeparator fuel
    | some ',' => return .comma
    | some ']' => return .close
    | found => failOn found (.listEnd found)

/-- What comes behind a value of a table in braces. -/
def inlineSeparator : Nat → ReadM Separator
  | 0 => return .close
  | fuel + 1 => do
    skipBlanks
    match ← next with
    | some '#' => do
      skipComment
      inlineSeparator fuel
    | some ',' => do
      skipBlanks
      if (← peek) = some '\x7d' then fail .trailingComma
      return .comma
    | some '\x7d' => return .close
    | found =>
      if (found.map isBreak).getD false then failBefore .newlineInTable
      failOn found (.inlineEnd found)

/-- Is there a value of a list, or does the list end here? -/
def listHasMore : Nat → ReadM Bool
  | 0 => return false
  | fuel + 1 => do
    let _ ← takeWhile fun c => isBlank c || isBreak c
    match ← peek with
    | some '#' => do
      skipComment
      listHasMore fuel
    | some ',' => fail .unexpectedComma
    | some ']' => do
      advance
      return false
    | _ => return true

/-- Is there a key of a table in braces, or does the table end here? -/
def inlineHasMore : Nat → ReadM Bool
  | 0 => return false
  | fuel + 1 => do
    skipBlanks
    match ← peek with
    | some '#' => do
      skipComment
      inlineHasMore fuel
    | some ',' => fail .unexpectedComma
    | some '\x7d' => do
      advance
      return false
    | found => do
      if (found.map isBreak).getD false then
        advance
        failBefore .newlineInTable
      return true

/-- The values of a list up to its end, at most `count` of them, given how a value is read. -/
def readItems (value : ReadM (Node × Int)) : Nat → ReadM Unit
  | 0 => return ()
  | count + 1 => do
    let size := (← get).rest.length + 1
    if ← listHasMore size then
      let _ ← value
      match ← listSeparator size with
      | .comma => readItems value count
      | .close => return ()

/-- The keys and values of a table in braces up to its end, at most `count` of them, given how a
value is read. -/
def readPairs (value : ReadM (Node × Int)) (inner : Key) : Nat → ReadM Unit
  | 0 => return ()
  | count + 1 => do
    let size := (← get).rest.length + 1
    modify ({ · with context := inner })
    if ← inlineHasMore size then
      let line ← readKey
      let (n, _) ← value
      let key := (← get).current
      setNode key n
      noteFact key (n == .leaf .list) line
      modify ({ · with context := inner })
      match ← inlineSeparator size with
      | .comma => readPairs value inner count
      | .close => return ()

/-- A value without keys, which starts with a given character. -/
def readLeaf (c : Char) : ReadM Leaf := do
  if c = '"' || c = '\'' then
    advance
    return .text (← readText c)
  else if c.isDigit then readUnsigned
  else if c = '.' then
    advance
    fail .leadingPoint
  else if c = '-' || c = '+' then
    advance
    readSigned c
  else if c = 'i' || c = 'n' then readNumberWord c
  else if Text.isLetter c then readWord
  else
    advance
    fail (.notValue c)

/-- A value with the line that it is counted for. Lists and tables nest at most `depth` deep. -/
def readValue : Nat → Bool → ReadM (Node × Int)
  | 0, _ => fail .endBeforeValue
  | depth + 1, inList => do
    skipBlanks
    match ← peek with
    | none => failBefore .endBeforeValue
    | some '[' => do
      advance
      let s ← get
      noteFact s.current true s.line
      readItems (readValue depth true) (s.rest.length + 1)
      return (.leaf .list, s.line)
    | some '\x7b' => do
      advance
      let outer ← get
      let inner := outer.context ++ [outer.current]
      modify ({ · with current := [] })
      imply inner
      openTable inner inList
      readPairs (readValue depth false) inner (outer.rest.length + 1)
      modify ({ · with context := outer.context, current := outer.current })
      return (.table, outer.line)
    | some c => do
      let value ← readLeaf c
      return (.leaf value, (← get).line)

/-! ## Documents -/

/-- What may stand behind a value or the name of a table. -/
def itemEnd : ReadM Unit := do
  skipBlanks
  match ← next with
  | none => return ()
  | some c =>
    if c = '#' then skipComment
    else if !isBreak c then fail (.afterItem c)

/-- The name of a table, or of a list of tables, behind its bracket. -/
def readTableHead : ReadM Unit := do
  let inList ← accept '['
  let s ← get
  let key ← tableNameUpTo (s.rest.length + 1) []
  if inList then
    let found ← next
    if found != some ']' then failOn found (.arrayNameEnd found)
  openTable key inList
  noteFact [] false s.line
  modify fun s => { s with keys := s.keys ++ [key] }
  itemEnd

def readPair : ReadM Unit := do
  let outer := (← get).context
  let _ ← readKey
  let (n, line) ← readValue ((← get).rest.length + 1) false
  let key := (← get).current
  setNode key n
  noteFact key (n == .leaf .list) line
  modify ({ · with context := outer, current := [] })
  itemEnd

/-- All items of a document, at most `count` of them. -/
def readItemsUpTo : Nat → ReadM Unit
  | 0 => return ()
  | count + 1 => do
    let _ ← takeWhile fun c => isBlank c || isBreak c
    match ← peek with
    | none => return ()
    | some '#' => do
      skipComment
      readItemsUpTo count
    | some '[' => do
      advance
      readTableHead
      readItemsUpTo count
    | some _ => do
      readPair
      readItemsUpTo count

/-- The bytes of a document without a mark of their order. -/
def dropMark : Text → Text
  | 0xFF :: 0xFE :: t => t
  | 0xFE :: 0xFF :: t => t
  | 0xEF :: 0xBB :: 0xBF :: t => t
  | t => t

def read (bytes : Text) : Except Failure State :=
  let bytes := dropMark bytes
  if (bytes.take 6).contains 0 then .error { line := some 1, lastKey := [], fault := .zeroByte }
  else
    let rest := Text.pieces bytes
    ((readItemsUpTo (rest.length + 1)).run { rest }).map (·.2)

end DeclCheck.Toml
