/-
Module: CallAtlas.Yaml.Scalar
Purpose: The scalars of a YAML text: plain, quoted and in blocks.
Main definitions: ScalarStyle, Gap, readPlain, readQuoted, readBlock
-/
import CallAtlas.Yaml.Place

namespace CallAtlas.Yaml

/-- How a scalar is written. -/
inductive ScalarStyle where
  | plain
  | singleQuoted
  | doubleQuoted
  | literal
  | folded
deriving Repr, DecidableEq, Inhabited

/-- What stands between two words of a scalar. -/
structure Gap where
  /-- Blanks on one line. -/
  blanks : Text
  /-- The first line break. -/
  first : Text
  /-- Further line breaks. -/
  further : Text
  /-- Whether there is a line break. -/
  broken : Bool
deriving Repr, DecidableEq, Inhabited

namespace Gap

/-- No gap. -/
def none : Gap := ⟨[], [], [], false⟩

/-- What a gap is read as: a single line break is a space, of several the first one is dropped. -/
def fold (g : Gap) : Text :=
  if !g.broken then g.blanks
  else if g.first == ['\n'] then if g.further.isEmpty then [' '] else g.further
  else g.first ++ g.further

end Gap

/-- Reads blanks and line breaks.  Where `indent` is given, a tab on a later line before that column
is a fault. -/
def readGap (indent : Option Nat) : Text → Gap → Place → Except Fault (Gap × Place)
  | _ :: fuel, gap, p =>
    if p.atSpace then
      if gap.broken && p.isAt '\t' && indent.any (p.mark.column < ·) then p.fault .tabIndentation
      else
        let blanks := if gap.broken then gap.blanks else gap.blanks ++ p.rest.take 1
        readGap indent fuel { gap with blanks := blanks } (p.skip 1)
    else if p.atBreak then
      let next :=
        if gap.broken then { gap with further := gap.further ++ p.breakText }
        else ⟨[], p.breakText, [], true⟩
      readGap indent fuel next p.skipBreak
    else .ok (gap, p)
  | [], gap, p => .ok (gap, p)

/-- Characters that end a plain scalar in a flow collection. -/
def isFlowMark (c : Char) : Bool := c == ',' || c == '[' || c == ']' || c == '{' || c == '}'

/-- Reads a word of a plain scalar: up to a gap, or to an indicator that ends the scalar. -/
def readPlainWord (inFlow : Bool) : Text → Text → Place → Except Fault (Text × Place)
  | _ :: fuel, word, p =>
    match p.peek? with
    | some c =>
      let next := p.peekAt? 1
      if p.gapAt 0 then .ok (word.reverse, p)
      else if inFlow && c == ':' && next.any fun d => isFlowMark d || d == '?' then
        p.fault .misplacedColon
      else if (c == ':' && p.gapAt 1) || (inFlow && isFlowMark c) then .ok (word.reverse, p)
      else readPlainWord inFlow fuel (c :: word) (p.skip 1)
    | none => .ok (word.reverse, p)
  | [], word, p => .ok (word.reverse, p)

/-- A scalar that was read, the place after it, and whether a line break was read at its end. -/
structure ReadScalar where
  value : Text
  place : Place
  broken : Bool
deriving Repr, DecidableEq, Inhabited

/-- Reads a plain scalar after a gap.  Outside of flow collections it ends before a line that starts
left of column `indent`. -/
def readPlainFrom (inFlow : Bool) (indent : Nat) :
    Text → Text → Gap → Place → Except Fault ReadScalar
  | _ :: fuel, value, gap, p => do
    if p.atDocumentMarker || p.isAt '#' then return ⟨value, p, gap.broken⟩
    let (word, after) ← readPlainWord inFlow p.rest [] p
    let broken := gap.broken && word.isEmpty
    let grown := if word.isEmpty then value else value ++ gap.fold ++ word
    if !(after.atSpace || after.atBreak) then return ⟨grown, after, broken⟩
    let (nextGap, next) ← readGap (some indent) after.rest .none after
    if !inFlow && next.mark.column < indent then return ⟨grown, next, nextGap.broken⟩
    readPlainFrom inFlow indent fuel grown nextGap next
  | [], value, gap, p => .ok ⟨value, p, gap.broken⟩

/-- Reads a plain scalar. -/
def readPlain (inFlow : Bool) (indent : Nat) (p : Place) : Except Fault ReadScalar :=
  readPlainFrom inFlow indent p.rest [] .none p

/-- The value of a hexadecimal digit. -/
def hexValue? (c : Char) : Option Nat :=
  if c.isDigit then some (c.toNat - '0'.toNat)
  else if 'a' ≤ c && c ≤ 'f' then some (c.toNat - 'a'.toNat + 10)
  else if 'A' ≤ c && c ≤ 'F' then some (c.toNat - 'A'.toNat + 10)
  else none

/-- The number that a row of hexadecimal digits stands for. -/
def hexNumber? (digits : Text) : Option Nat :=
  digits.foldl (fun n c => do return 16 * (← n) + (← hexValue? c)) (some 0)

/-- The character of a short escape. -/
def shortEscape? : Char → Option Char
  | '0' => some '\x00'
  | 'a' => some '\x07'
  | 'b' => some '\x08'
  | 't' => some '\t'
  | '\t' => some '\t'
  | 'n' => some '\n'
  | 'v' => some '\x0b'
  | 'f' => some '\x0c'
  | 'r' => some '\r'
  | 'e' => some '\x1b'
  | ' ' => some ' '
  | '"' => some '"'
  | '\'' => some '\''
  | '/' => some '/'
  | '\\' => some '\\'
  | 'N' => some (Char.ofNat 0x85)
  | '_' => some (Char.ofNat 0xa0)
  | 'L' => some (Char.ofNat 0x2028)
  | 'P' => some (Char.ofNat 0x2029)
  | _ => none

/-- Number of hexadecimal digits after an escape letter. -/
def escapeDigits? : Char → Option Nat
  | 'x' => some 2
  | 'u' => some 4
  | 'U' => some 8
  | _ => none

/-- Reads an escape after its backslash: the character, and the length of what was read. -/
def readEscape? (t : Text) : Option (Char × Nat) := do
  let letter ← t.head?
  match shortEscape? letter with
  | some c => return (c, 1)
  | none =>
    let count ← escapeDigits? letter
    let digits := (t.drop 1).take count
    let number ← hexNumber? digits
    if digits.length = count && number.isValidChar then return (Char.ofNat number, 1 + count)
    else none

/-- Reads a word of a quoted scalar: up to a gap, to the closing quote, or past an escaped line
break, which is reported. -/
def readQuotedWord (quote : Char) : Text → Text → Place → Except Fault (Text × Place × Bool)
  | _ :: fuel, word, p =>
    match p.peek? with
    | none => .ok (word.reverse, p, false)
    | some c =>
      if p.gapAt 0 then .ok (word.reverse, p, false)
      else if c == quote then
        if quote == '\'' && p.peekAt? 1 == some quote then
          readQuotedWord quote fuel (quote :: word) (p.skip 2)
        else .ok (word.reverse, p, false)
      else if quote == '"' && c == '\\' then
        if (p.peekAt? 1).any isBreak then .ok (word.reverse, (p.skip 1).skipBreak, true)
        else
          match readEscape? (p.rest.drop 1) with
          | some (e, length) => readQuotedWord quote fuel (e :: word) (p.skip (1 + length))
          | none => p.fault .badEscape
      else readQuotedWord quote fuel (c :: word) (p.skip 1)
  | [], word, p => .ok (word.reverse, p, false)

/-- Reads a quoted scalar after its opening quote. -/
def readQuotedFrom (quote : Char) : Text → Text → Place → Except Fault ReadScalar
  | _ :: fuel, value, p => do
    if p.atDocumentMarker then p.fault .markerInQuotes
    if p.atEnd then p.fault .unclosedQuotes
    let (word, after, escaped) ← readQuotedWord quote p.rest [] p
    let grown := value ++ word
    if !escaped && after.isAt quote then return ⟨grown, after.skip 1, false⟩
    let (gap, next) ← readGap none after.rest { Gap.none with broken := escaped } after
    readQuotedFrom quote fuel (grown ++ gap.fold) next
  | [], _, p => p.fault .unclosedQuotes

/-- Reads a quoted scalar. -/
def readQuoted (quote : Char) (p : Place) : Except Fault ReadScalar :=
  readQuotedFrom quote p.rest [] (p.skip 1)

/-- What happens to the line breaks at the end of a block scalar. -/
inductive Chomping where
  | strip
  | clip
  | keep
deriving Repr, DecidableEq, Inhabited

/-- The header of a block scalar. -/
structure BlockHeader where
  chomping : Chomping
  /-- The indentation that is given, if any. -/
  increment : Option Nat
deriving Repr, DecidableEq, Inhabited

/-- The chomping that a sign stands for. -/
def chompingOf? : Char → Option Chomping
  | '+' => some .keep
  | '-' => some .strip
  | _ => none

/-- Reads the signs after the indicator of a block scalar, in either order. -/
def readBlockHeader (p : Place) : Except Fault (BlockHeader × Place) :=
  let sign := fun q : Place => q.peek?.bind chompingOf?
  let digit := fun q : Place => (q.peek?.filter Char.isDigit).map fun c => c.toNat - '0'.toNat
  match sign p, digit p with
  | some chomping, _ =>
    match digit (p.skip 1) with
    | some 0 => p.fault .badBlockHeader
    | some n => .ok (⟨chomping, some n⟩, p.skip 2)
    | none => .ok (⟨chomping, none⟩, p.skip 1)
  | none, some 0 => p.fault .badBlockHeader
  | none, some n =>
    match sign (p.skip 1) with
    | some chomping => .ok (⟨chomping, some n⟩, p.skip 2)
    | none => .ok (⟨.clip, some n⟩, p.skip 1)
  | none, none => .ok (⟨.clip, none⟩, p)

/-- The indentation of a block scalar: given, or still to be found as the deepest so far. -/
structure BlockIndent where
  known : Option Nat
  deepest : Nat
deriving Repr, DecidableEq, Inhabited

/-- Reads the indentation and the blank lines before a line of a block scalar. -/
def readBlockBreaks : Text → BlockIndent → Text → Place → Except Fault (BlockIndent × Text × Place)
  | _ :: fuel, indent, breaks, p => do
    let isShort := fun q : Place => indent.known.all (q.mark.column < ·)
    let spaces := (p.rest.takeWhile (· == ' ')).length
    let count :=
      match indent.known with
      | some n => min spaces (n - p.mark.column)
      | none => spaces
    let q := p.skip count
    let deeper := { indent with deepest := max indent.deepest q.mark.column }
    if isShort q && q.isAt '\t' then q.fault .tabIndentation
    if q.atBreak then readBlockBreaks fuel deeper (breaks ++ q.breakText) q.skipBreak
    else return (deeper, breaks, q)
  | [], indent, breaks, p => .ok (indent, breaks, p)

/-- The lines of a block scalar read so far. -/
structure BlockLines where
  value : Text
  /-- The break after the last line. -/
  last : Text
  /-- The breaks after that. -/
  trailing : Text
  /-- Whether the last line starts with a blank. -/
  blankStart : Bool
deriving Repr, DecidableEq, Inhabited

/-- The break between two lines of a folded scalar is a space, unless one of them starts with a
blank. -/
def BlockLines.joined (b : BlockLines) (isFolded blankStart : Bool) : Text :=
  let isSpace := isFolded && b.last == ['\n'] && !b.blankStart && !blankStart
  b.value ++ (if !isSpace then b.last else if b.trailing.isEmpty then [' '] else []) ++ b.trailing

/-- Reads the lines of a block scalar at column `indent`. -/
def readBlockLines (isFolded : Bool) (indent : Nat) :
    Text → BlockLines → Place → Except Fault (BlockLines × Place)
  | _ :: fuel, lines, p => do
    if p.mark.column != indent || p.atEnd then return (lines, p)
    let blankStart := p.atSpace
    let text := p.rest.takeWhile fun c => !isBreak c
    let after := p.skip text.length
    let value := lines.joined isFolded blankStart ++ text
    let last := after.breakText
    let next := if after.atBreak then after.skipBreak else after
    let (_, trailing, place) ← readBlockBreaks next.rest ⟨some indent, 0⟩ [] next
    readBlockLines isFolded indent fuel ⟨value, last, trailing, blankStart⟩ place
  | [], lines, p => .ok (lines, p)

/-- Reads a block scalar.  `indent` is the column of the block around it, if there is one. -/
def readBlock (isFolded : Bool) (indent : Option Nat) (p : Place) : Except Fault ReadScalar := do
  let (header, afterSigns) ← readBlockHeader (p.skip 1)
  let blanks := afterSigns.skipWhile isSpace
  let atEol := if blanks.isAt '#' then blanks.skipWhile fun _ => true else blanks
  if !(atEol.atBreak || atEol.atEnd) then atEol.fault .badBlockHeader
  let first := if atEol.atBreak then atEol.skipBreak else atEol
  let given := header.increment.map fun n => indent.getD 0 + n
  let (found, trailing, place) ← readBlockBreaks first.rest ⟨given, 0⟩ [] first
  let least := (indent.map (· + 1)).getD 0
  let column := given.getD (max (max found.deepest least) 1)
  let (lines, after) ←
    readBlockLines isFolded column place.rest ⟨[], [], trailing, false⟩ place
  let ending :=
    match header.chomping with
    | .strip => []
    | .clip => lines.last
    | .keep => lines.last ++ lines.trailing
  return ⟨lines.value ++ ending, after, true⟩

end CallAtlas.Yaml
