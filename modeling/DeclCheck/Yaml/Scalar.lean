import DeclCheck.Yaml.Cursor

/-!
# Scalars

The three ways to write a scalar: plain, between quotes, and as a block of indented lines. A line
break inside a plain or a quoted scalar is folded: one break reads as a space, and of several
the first is dropped.
-/
namespace DeclCheck.Yaml

/-! ## Gaps between words -/

/-- What stands between two words of a scalar: blanks, or line breaks with the blanks around
them left out. -/
structure Gap where
  /-- Is there a line break, or an escaped one? -/
  broken : Bool := false
  blanks : List Char := []
  first : List Char := []
  more : List Char := []
  deriving Repr

def Gap.folded (g : Gap) : List Char :=
  if g.broken then
    match g.first with
    | '\n' :: _ => if g.more.isEmpty then [' '] else g.more
    | _ => g.first ++ g.more
  else g.blanks

/-- Reads a gap. A tab in the indentation of a plain scalar, left of column `indent`, is refused. -/
def Gap.read (start : Mark) (indent : Option Int) :
    Nat → Gap → Cursor → Except Failure (Gap × Cursor)
  | 0, g, c => .ok (g, c)
  | fuel + 1, g, c => do
    c.need 1
    let ch := c.peek
    if isBlank ch then
      let tabbed := match indent with
        | some i => g.broken && decide ((c.mark.column : Int) < i) && ch == '\t'
        | none => false
      if tabbed then c.fail .tabViolatesIndentation start
      else if g.broken then Gap.read start indent fuel g (c.skip 1)
      else Gap.read start indent fuel { g with blanks := g.blanks ++ [ch] } (c.skip 1)
    else if isBreak ch then
      let (br, next) := c.readBreak
      if g.broken then Gap.read start indent fuel { g with more := g.more ++ br } next
      else Gap.read start indent fuel { g with broken := true, blanks := [], first := br } next
    else .ok (g, c)

/-! ## Plain scalars -/

/-- The characters that end a plain scalar inside brackets. -/
def isFlowIndicator (c : Char) : Bool :=
  c == ',' || c == '?' || c == '[' || c == ']' || c == '{' || c == '}'

/-- The word of a plain scalar at the front of the characters. A colon ends it if a blank or
nothing follows. -/
def plainWord (flow : Bool) : List Char → List Char
  | [] => []
  | c :: rest =>
    if isBlankOrEnd c || (c == ':' && isBlankOrEnd (rest.headD endChar)) ||
        (flow && isFlowIndicator c) then []
    else c :: plainWord flow rest

/-- A scalar that was read: its characters, where it ends, and whether a line break was read
behind it. -/
structure Lexeme where
  chars : List Char
  stop : Mark
  broken : Bool := false
  next : Cursor

/-- Reads on in a plain scalar behind the gap `g`. -/
def plainFrom (flow : Bool) (indent : Int) (start : Mark) :
    Nat → List Char → Gap → Mark → Cursor → Except Failure Lexeme
  | 0, done, g, stop, c => .ok ⟨done, stop, g.broken, c⟩
  | fuel + 1, done, g, stop, c => do
    c.need 4
    if c.atDocumentIndicator || c.peek == '#' then .ok ⟨done, stop, g.broken, c⟩
    else
      let word := plainWord flow c.rest
      let after := c.skip word.length
      after.need 1
      let (done, g, stop) :=
        if word.isEmpty then (done, g, stop) else (done ++ g.folded ++ word, {}, after.mark)
      if isBlank after.peek || isBreak after.peek then
        let (g, after) ← Gap.read start (some indent) (after.rest.length + 1) g after
        if !flow && decide ((after.mark.column : Int) < indent) then
          .ok ⟨done, stop, g.broken, after⟩
        else plainFrom flow indent start fuel done g stop after
      else .ok ⟨done, stop, g.broken, after⟩

/-- A plain scalar. `indent` is the least column of its further lines. -/
def plainScalar (flow : Bool) (indent : Int) (c : Cursor) : Except Failure Lexeme :=
  plainFrom flow indent c.mark (c.rest.length + 1) [] {} c.mark c

/-! ## Quoted scalars -/

inductive Escape where
  | char (c : Char)
  /-- The code point with this many hexadecimal digits follows. -/
  | code (digits : Nat)

def Escape.of? (c : Char) : Option Escape :=
  match c with
  | '0' => some (.char '\x00')
  | 'a' => some (.char '\x07')
  | 'b' => some (.char '\x08')
  | 't' => some (.char '\t')
  | '\t' => some (.char '\t')
  | 'n' => some (.char '\n')
  | 'v' => some (.char '\x0b')
  | 'f' => some (.char '\x0c')
  | 'r' => some (.char '\r')
  | 'e' => some (.char '\x1b')
  | ' ' => some (.char ' ')
  | '"' => some (.char '"')
  | '\'' => some (.char '\'')
  | '\\' => some (.char '\\')
  | 'N' => some (.char '\u0085')
  | '_' => some (.char '\u00a0')
  | 'L' => some (.char '\u2028')
  | 'P' => some (.char '\u2029')
  | 'x' => some (.code 2)
  | 'u' => some (.code 4)
  | 'U' => some (.code 8)
  | _ => none

def hexNumber? (cs : List Char) : Option Nat :=
  cs.foldl (fun acc c => do return (← acc) * 16 + (← hexValue? c)) (some 0)

/-- Reads the word of a quoted scalar: up to a blank, a break, the end or the closing quote. The
characters before it are `done`, the last one first, and so is the result. The flag says that
the word ended with an escaped line break. -/
def quotedWord (single : Bool) (start : Mark) :
    Nat → List Char → Cursor → Except Failure (List Char × Bool × Cursor)
  | 0, done, c => .ok (done, false, c)
  | fuel + 1, done, c => do
    c.need 2
    let ch := c.peek
    let next := c.peekAt 1
    if isBlankOrEnd ch then .ok (done, false, c)
    else if single && ch == '\'' then
      if next == '\'' then quotedWord single start fuel ('\'' :: done) (c.skip 2)
      else .ok (done, false, c)
    else if !single && ch == '"' then .ok (done, false, c)
    else if !single && ch == '\\' then
      if isBreak next then .ok (done, true, (c.skip 1).skipBreak)
      else
        match Escape.of? next with
        | none => c.fail .unknownEscape start
        | some (.char e) => quotedWord single start fuel (e :: done) (c.skip 2)
        | some (.code digits) =>
          let c := c.skip 2
          c.need digits
          match hexNumber? ((List.range digits).map c.peekAt) with
          | none => c.fail .expectedHexDigits start
          | some n =>
            if (0xD800 ≤ n && n ≤ 0xDFFF) || 0x10FFFF < n then c.fail .badEscapedCode start
            else quotedWord single start fuel (Char.ofNat n :: done) (c.skip digits)
    else quotedWord single start fuel (ch :: done) (c.skip 1)

/-- Reads on in a quoted scalar up to its closing quote. The characters before are `done`, the
last one first, and so is the result. -/
def quotedFrom (single : Bool) (start : Mark) :
    Nat → List Char → Cursor → Except Failure (List Char × Cursor)
  | 0, done, c => .ok (done, c)
  | fuel + 1, done, c => do
    c.need 4
    if c.atDocumentIndicator then c.fail .documentIndicatorInQuotes start
    else if c.atEnd then c.fail .endInQuotes start
    else
      let (done, escaped, c) ← quotedWord single start (c.rest.length + 1) done c
      c.need 1
      if c.peek == (if single then '\'' else '"') then .ok (done, c)
      else
        let (g, c) ← Gap.read start none (c.rest.length + 1) { broken := escaped } c
        quotedFrom single start fuel (g.folded.reverse ++ done) c

/-- A scalar between quotes; the cursor stands at the opening quote. -/
def quotedScalar (single : Bool) (c : Cursor) : Except Failure Lexeme := do
  let (chars, after) ← quotedFrom single c.mark (c.rest.length + 1) [] (c.skip 1)
  let next := after.skip 1
  return { chars := chars.reverse, stop := next.mark, next }

/-! ## Block scalars -/

/-- What happens to the line breaks at the end of a block. -/
inductive Chomping where
  | strip
  | clip
  | keep
  deriving DecidableEq, Repr

def Chomping.of? (c : Char) : Option Chomping :=
  if c == '+' then some .keep else if c == '-' then some .strip else none

/-- Reads the digit that gives the indentation, zero if there is none. -/
def readIncrement (start : Mark) (c : Cursor) : Except Failure (Nat × Cursor) :=
  if c.peek.isDigit then
    if c.peek == '0' then c.fail .zeroIndentation start
    else .ok (c.peek.toNat - 48, c.skip 1)
  else .ok (0, c)

def readHeader (start : Mark) (c : Cursor) : Except Failure (Chomping × Nat × Cursor) := do
  c.need 1
  match Chomping.of? c.peek with
  | some chomping =>
    let c := c.skip 1
    c.need 1
    let (increment, c) ← readIncrement start c
    return (chomping, increment, c)
  | none =>
    let (increment, c) ← readIncrement start c
    if increment = 0 then return (.clip, 0, c)
    else
      c.need 1
      match Chomping.of? c.peek with
      | some chomping => return (chomping, increment, c.skip 1)
      | none => return (.clip, increment, c)

/-- Reads the indentation and the empty lines before a line of a block. The indentation is `indent`
if it is known, and zero as long as it is not; `deepest` is the deepest one seen. -/
def blockBreaks (start : Mark) (indent : Nat) :
    Nat → Nat → List Char → Cursor → Except Failure (Nat × List Char × Cursor)
  | 0, deepest, breaks, c => .ok (deepest, breaks, c)
  | fuel + 1, deepest, breaks, c => do
    let blanks := (c.rest.takeWhile (· == ' ')).length
    let c := c.skip (if indent = 0 then blanks else min blanks (indent - c.mark.column))
    c.need 1
    let deepest := max deepest c.mark.column
    if (indent = 0 || c.mark.column < indent) && c.peek == '\t' then c.fail .tabInIndentation start
    else if isBreak c.peek then
      let (br, c) := c.readBreak
      blockBreaks start indent fuel deepest (breaks ++ br) c
    else .ok (deepest, breaks, c)

/-- The lines of a block that were read: the text, the break of the last line and the empty lines
behind it. -/
structure BlockLines where
  done : List Char := []
  last : List Char := []
  breaks : List Char := []
  /-- Did the last line start with a blank? -/
  blank : Bool := false

def blockLines (literal : Bool) (start : Mark) (indent : Nat) :
    Nat → BlockLines → Cursor → Except Failure (BlockLines × Cursor)
  | 0, b, c => .ok (b, c)
  | fuel + 1, b, c => do
    c.need 1
    if c.mark.column ≠ indent || c.atEnd then .ok (b, c)
    else
      let blank := isBlank c.peek
      let folds := !literal && !b.blank && !blank && b.last.head? == some '\n'
      let joint := if folds then (if b.breaks.isEmpty then [' '] else []) else b.last
      let line := c.rest.takeWhile (!isBreakOrEnd ·)
      let c := c.skip line.length
      c.need 1
      let (last, c) := c.readBreak
      let (_, breaks, c) ← blockBreaks start indent (c.rest.length + 1) 0 [] c
      blockLines literal start indent fuel
        { done := b.done ++ joint ++ b.breaks ++ line, last, breaks, blank } c

/-- A block of indented lines; the cursor stands at its sign. `parent` is the indentation of what
the block belongs to. -/
def blockScalar (literal : Bool) (parent : Int) (c : Cursor) : Except Failure Lexeme := do
  let start := c.mark
  let (chomping, increment, c) ← readHeader start (c.skip 1)
  c.need 1
  let c := c.skipWhile isBlank
  let c := if c.peek == '#' then c.skipWhile (!isBreakOrEnd ·) else c
  c.need 1
  if !isBreakOrEnd c.peek then c.fail .afterBlockHeader start
  else
    let c := c.skipBreak
    let known : Nat :=
      if increment = 0 then 0 else if 0 ≤ parent then parent.toNat + increment else increment
    let (deepest, breaks, c) ← blockBreaks start known (c.rest.length + 1) 0 [] c
    let indent := if known = 0 then max (max deepest (parent + 1).toNat) 1 else known
    let (b, c) ← blockLines literal start indent (c.rest.length + 1) { breaks } c
    let ending := match chomping with
      | .strip => []
      | .clip => b.last
      | .keep => b.last ++ b.breaks
    return { chars := b.done ++ ending, stop := c.mark, broken := true, next := c }

end DeclCheck.Yaml
