/-
Module: CallAtlas.Yaml.Token
Purpose: The tokens of a YAML text.
Main definitions: TokenKind, Token, tokenize
-/
import CallAtlas.Yaml.Scalar

namespace CallAtlas.Yaml

/-!
Blocks are known by their columns.  A token that starts further right than the block around it opens
a block; one that starts further left closes it.  Whether a scalar is a key is seen only at the
colon after it, so a place where a key may have started is remembered, and the tokens that open a
mapping are put in there when the colon comes.
-/

/-- The kinds of token. -/
inductive TokenKind where
  | documentStart
  | documentEnd
  | version (major minor : Nat)
  | tagHandle (handle meaning : Text)
  | blockSequenceStart
  | blockMappingStart
  | blockEnd
  | flowSequenceStart
  | flowSequenceEnd
  | flowMappingStart
  | flowMappingEnd
  | blockEntry
  | flowEntry
  | key
  | value
  | alias (name : Text)
  | anchor (name : Text)
  | tag (handle suffix : Text)
  | scalar (value : Text) (style : ScalarStyle)
  | streamEnd
deriving Repr, DecidableEq, Inhabited

/-- A token and where it starts. -/
structure Token where
  kind : TokenKind
  mark : Mark
deriving Repr, DecidableEq, Inhabited

/-- A place where a key may have started. -/
structure KeyPlace where
  /-- Number of tokens before it. -/
  position : Nat
  mark : Mark
  index : Nat
  /-- Whether anything but a key would be a fault. -/
  required : Bool
deriving Repr, DecidableEq, Inhabited

/-- A text that is being read. -/
structure Scanner where
  place : Place
  tokens : List Token
  /-- The columns of the open blocks, the innermost first. -/
  blocks : List Nat
  /-- For the document and for each open flow collection, the innermost first, where a key may have
  started. -/
  keys : List (Option KeyPlace)
  /-- Whether a key may start here. -/
  keyAllowed : Bool
  isDone : Bool
deriving Repr, DecidableEq, Inhabited

/-- What scanning returns. -/
abbrev Scan := Except Fault Scanner

namespace Scanner

/-- The start of a text. -/
def start (t : Text) : Scanner := ⟨.start t, [], [], [none], true, false⟩

/-- Whether a flow collection is open. -/
def inFlow (s : Scanner) : Bool := 1 < s.keys.length

/-- The column of the innermost block. -/
def column? (s : Scanner) : Option Nat := s.blocks.head?

/-- Adds a token. -/
def push (s : Scanner) (kind : TokenKind) (mark : Mark) : Scanner :=
  { s with tokens := s.tokens ++ [⟨kind, mark⟩] }

/-- Adds a token of a number of characters that starts here. -/
def take (s : Scanner) (kind : TokenKind) (length : Nat) : Scanner :=
  { s.push kind s.place.mark with place := s.place.skip length }

/-- Puts a token in after a number of tokens. -/
def insert (s : Scanner) (position : Nat) (kind : TokenKind) (mark : Mark) : Scanner :=
  { s with tokens := s.tokens.take position ++ ⟨kind, mark⟩ :: s.tokens.drop position }

/-- Opens a block at a column if that is further right than the block around it. -/
def openBlock (s : Scanner) (column position : Nat) (kind : TokenKind) (mark : Mark) : Scanner :=
  if s.inFlow || s.column?.any (column ≤ ·) then s
  else { s.insert position kind mark with blocks := column :: s.blocks }

/-- Closes the blocks that satisfy a condition on their column, the innermost first. -/
def closeBlocks (s : Scanner) (isClosed : Nat → Bool) : Scanner :=
  if s.inFlow then s
  else
    let closed := s.blocks.takeWhile isClosed
    { s with
      tokens := s.tokens ++ closed.map fun _ => ⟨.blockEnd, s.place.mark⟩
      blocks := s.blocks.drop closed.length }

/-- Forgets where a key may have started in the innermost collection. -/
def dropKey (s : Scanner) : Scan :=
  match s.keys with
  | some key :: more =>
    if key.required then .error ⟨.missingColon, s.place.mark⟩ else .ok { s with keys := none :: more }
  | _ => .ok s

/-- Remembers that a key may start here. -/
def saveKey (s : Scanner) : Scan := do
  if !s.keyAllowed then return s
  let s ← s.dropKey
  let required := !s.inFlow && s.column? == some s.place.mark.column
  return { s with
    keys := some ⟨s.tokens.length, s.place.mark, s.place.index, required⟩ :: s.keys.drop 1 }

/-- Whether a key that started at a given place can no longer be one: keys stay on one line and are
not longer than 1024 characters. -/
def isStale (s : Scanner) (key : KeyPlace) : Bool :=
  key.mark.line < s.place.mark.line || key.index + 1024 < s.place.index

/-- Forgets all places where a key can no longer have started. -/
def dropStaleKeys (s : Scanner) : Scan :=
  if s.keys.any fun k => k.any fun key => s.isStale key && key.required then
    .error ⟨.missingColon, s.place.mark⟩
  else .ok { s with keys := s.keys.map fun k => k.filter fun key => !s.isStale key }

/-- Goes on to the next token, past blanks, comments and line breaks.  A tab is no indentation. -/
def skipGap : Text → Scanner → Scanner
  | _ :: fuel, s =>
    let p := s.place
    if p.mark.column == 0 && p.peek?.any (·.toNat == 0xfeff) then
      skipGap fuel { s with place := p.skip 1 }
    else if p.isAt ' ' || (p.isAt '\t' && (s.inFlow || !s.keyAllowed)) then
      skipGap fuel { s with place := p.skip 1 }
    else if p.isAt '#' then skipGap fuel { s with place := p.skipWhile fun _ => true }
    else if p.atBreak then
      skipGap fuel { s with place := p.skipBreak, keyAllowed := s.keyAllowed || !s.inFlow }
    else s
  | [], s => s

/-- Adds a token that starts a node here and reads it to a given place. -/
def takeNode (s : Scanner) (kind : TokenKind) (after : Place) : Scan := do
  let s ← s.saveKey
  return { s.push kind s.place.mark with place := after, keyAllowed := false }

/-- The end of the text. -/
def takeEnd (s : Scanner) : Scan := do
  let s ← (s.closeBlocks fun _ => true).dropKey
  return { s.push .streamEnd s.place.mark with isDone := true }

/-- A mark of the start or the end of a document. -/
def takeMarker (s : Scanner) (kind : TokenKind) : Scan := do
  let s ← (s.closeBlocks fun _ => true).dropKey
  return { s.take kind 3 with keyAllowed := false }

/-- Characters of anchor names and of the names of directives. -/
def isAnchorChar (c : Char) : Bool := c.isAlphanum || c == '_' || c == '-'

/-- Characters of tags. -/
def isTagChar (c : Char) : Bool :=
  c.isAlphanum || "-;/?:@&=+$.%!~*'()_".toList.contains c

/-- Characters of what a tag handle stands for, and of a tag in angle brackets. -/
def isTagMeaningChar (c : Char) : Bool := isTagChar c || c == ',' || c == '[' || c == ']'

/-- Whether a line ends here or has nothing but blanks and a comment left. -/
def isLineTail (t : Text) : Bool := (t.dropWhile isSpace).head?.all (· == '#')

/-- A number of at most nine digits at the start of a text, and what follows it. -/
def versionNumber? (t : Text) : Option (Nat × Text) :=
  let digits := t.takeWhile Char.isDigit
  if digits.isEmpty || 9 < digits.length then none
  else
    some (digits.foldl (fun n d => 10 * n + (d.toNat - '0'.toNat)) 0, t.drop digits.length)

/-- The version in the arguments of a directive: two numbers with a dot between. -/
def version? (t : Text) : Option TokenKind := do
  let (major, afterMajor) ← versionNumber? t
  match afterMajor with
  | '.' :: rest =>
    let (minor, tail) ← versionNumber? rest
    if isLineTail tail then some (.version major minor) else none
  | _ => none

/-- The tag handle in the arguments of a directive and what it stands for.  A handle is `!`, or a
name, perhaps empty, between two exclamation marks. -/
def tagHandle? (t : Text) : Option TokenKind :=
  match t with
  | '!' :: rest =>
    let name := rest.takeWhile isAnchorChar
    let closing := (rest.drop name.length).take 1
    let isClosed := closing == ['!']
    let tail := if isClosed then rest.drop (name.length + 1) else rest.drop name.length
    let blank := tail.takeWhile isSpace
    let meaning := (tail.drop blank.length).takeWhile isTagMeaningChar
    let afterMeaning := tail.drop (blank.length + meaning.length)
    let isGood :=
      (isClosed || name.isEmpty) && !blank.isEmpty && !meaning.isEmpty &&
        afterMeaning.head?.all isSpace && isLineTail afterMeaning
    if isGood then
      some (.tagHandle ('!' :: name ++ if isClosed then ['!'] else []) meaning)
    else none
  | _ => none

/-- The directive on a line, given without its percent sign. -/
def directive? (line : Text) : Option TokenKind :=
  let name := line.takeWhile isAnchorChar
  let rest := line.drop name.length
  let arguments := rest.dropWhile isSpace
  if !rest.head?.all isSpace then none
  else if name == "YAML".toList then version? arguments
  else if name == "TAG".toList then tagHandle? arguments
  else none

/-- A directive, to the end of the line. -/
def takeDirective (s : Scanner) : Scan := do
  let s ← (s.closeBlocks fun _ => true).dropKey
  let line := (s.place.rest.drop 1).takeWhile fun c => !isBreak c
  match directive? line with
  | some kind => return { s.take kind (line.length + 1) with keyAllowed := false }
  | none => s.place.fault .badDirective

/-- The start of a flow collection. -/
def takeFlowStart (s : Scanner) (kind : TokenKind) : Scan := do
  let s ← s.saveKey
  return { s.take kind 1 with keys := none :: s.keys, keyAllowed := true }

/-- The end of a flow collection. -/
def takeFlowEnd (s : Scanner) (kind : TokenKind) : Scan := do
  let s ← s.dropKey
  let keys := if s.inFlow then s.keys.drop 1 else s.keys
  return { s.take kind 1 with keys := keys, keyAllowed := false }

/-- A comma in a flow collection. -/
def takeFlowEntry (s : Scanner) : Scan := do
  let s ← s.dropKey
  return { s.take .flowEntry 1 with keyAllowed := true }

/-- The hyphen of an item. -/
def takeBlockEntry (s : Scanner) : Scan := do
  if !s.inFlow && !s.keyAllowed then s.place.fault .misplacedEntry
  let mark := s.place.mark
  let s ← (s.openBlock mark.column s.tokens.length .blockSequenceStart mark).dropKey
  return { s.take .blockEntry 1 with keyAllowed := true }

/-- The question mark of a key. -/
def takeKey (s : Scanner) : Scan := do
  if !s.inFlow && !s.keyAllowed then s.place.fault .misplacedKey
  let mark := s.place.mark
  let s ← (s.openBlock mark.column s.tokens.length .blockMappingStart mark).dropKey
  return { s.take .key 1 with keyAllowed := !s.inFlow }

/-- The colon of a value.  What a key may have started as is one now. -/
def takeValue (s : Scanner) : Scan := do
  match s.keys with
  | some key :: more =>
    let opened := (s.insert key.position .key key.mark).openBlock key.mark.column key.position
      .blockMappingStart key.mark
    return { opened.take .value 1 with keys := none :: more, keyAllowed := false }
  | _ =>
    if !s.inFlow && !s.keyAllowed then s.place.fault .misplacedValue
    let mark := s.place.mark
    let s := s.openBlock mark.column s.tokens.length .blockMappingStart mark
    return { s.take .value 1 with keyAllowed := !s.inFlow }

/-- An anchor or an alias. -/
def takeAnchor (s : Scanner) (kind : Text → TokenKind) : Scan :=
  let name := (s.place.rest.drop 1).takeWhile isAnchorChar
  let after := s.place.skip (1 + name.length)
  let ends := after.gapAt 0 || after.peek?.any fun c => "?:,]\x7d%@\x60".toList.contains c
  if name.isEmpty || !ends then after.fault .badAnchor else s.takeNode (kind name) after

/-- A tag: its handle and its suffix. -/
def takeTag (s : Scanner) : Scan :=
  let t := s.place.rest.drop 1
  let handle := t.takeWhile isAnchorChar
  let (front, suffix, length) : Text × Text × Nat :=
    match t with
    | '<' :: more =>
      let uri := more.takeWhile isTagMeaningChar
      ([], uri, uri.length + 3)
    | '!' :: more =>
      let rest := more.takeWhile isTagChar
      (['!', '!'], rest, rest.length + 2)
    | _ =>
      if (t.drop handle.length).head? == some '!' && !handle.isEmpty then
        let rest := (t.drop (handle.length + 1)).takeWhile isTagChar
        ('!' :: handle ++ ['!'], rest, handle.length + rest.length + 2)
      else
        let rest := t.takeWhile isTagChar
        (['!'], rest, rest.length + 1)
  let after := s.place.skip length
  let closes := t.head? != some '<' || (t[length - 2]?) == some '>'
  if !closes || (suffix.isEmpty && front != ['!']) then s.place.fault .badTag
  else if after.gapAt 0 || (s.inFlow && after.isAt ',') then s.takeNode (.tag front suffix) after
  else after.fault .badTag

/-- A plain scalar. -/
def takePlain (s : Scanner) : Scan := do
  let indent := (s.column?.map (· + 1)).getD 0
  let read ← readPlain s.inFlow indent s.place
  let next ← s.takeNode (.scalar read.value .plain) read.place
  return { next with keyAllowed := read.broken }

/-- A quoted scalar. -/
def takeQuoted (s : Scanner) (quote : Char) (style : ScalarStyle) : Scan := do
  let read ← readQuoted quote s.place
  s.takeNode (.scalar read.value style) read.place

/-- A block scalar. -/
def takeBlock (s : Scanner) (isFolded : Bool) (style : ScalarStyle) : Scan := do
  let s ← s.dropKey
  let read ← readBlock isFolded s.column? s.place
  return { s.push (.scalar read.value style) s.place.mark with
    place := read.place, keyAllowed := true }

/-- Whether a plain scalar may start here. -/
def startsPlain (s : Scanner) (c : Char) : Bool :=
  let p := s.place
  let isIndicator := "-?:,[]\x7b\x7d#&*!|>'\"%@\x60".toList.contains c
  (!p.gapAt 0 && !isIndicator) || (c == '-' && !(p.peekAt? 1).any isSpace) ||
    (!s.inFlow && (c == '?' || c == ':') && !p.gapAt 1)

/-- Reads the next token. -/
def next (s : Scanner) : Scan := do
  let gone ← (skipGap s.place.rest s).dropStaleKeys
  let s := gone.closeBlocks (gone.place.mark.column < ·)
  let p := s.place
  match p.peek? with
  | none => s.takeEnd
  | some c =>
    if p.mark.column == 0 && c == '%' then s.takeDirective
    else if p.atMarker '-' then s.takeMarker .documentStart
    else if p.atMarker '.' then s.takeMarker .documentEnd
    else if c == '[' then s.takeFlowStart .flowSequenceStart
    else if c == '{' then s.takeFlowStart .flowMappingStart
    else if c == ']' then s.takeFlowEnd .flowSequenceEnd
    else if c == '}' then s.takeFlowEnd .flowMappingEnd
    else if c == ',' then s.takeFlowEntry
    else if c == '-' && p.gapAt 1 then s.takeBlockEntry
    else if c == '?' && (s.inFlow || p.gapAt 1) then s.takeKey
    else if c == ':' && (s.inFlow || p.gapAt 1) then s.takeValue
    else if c == '*' then s.takeAnchor .alias
    else if c == '&' then s.takeAnchor .anchor
    else if c == '!' then s.takeTag
    else if c == '|' && !s.inFlow then s.takeBlock false .literal
    else if c == '>' && !s.inFlow then s.takeBlock true .folded
    else if c == '\'' then s.takeQuoted '\'' .singleQuoted
    else if c == '"' then s.takeQuoted '"' .doubleQuoted
    else if s.startsPlain c then s.takePlain
    else p.fault .badCharacter

/-- Reads all tokens.  Each step reads at least one character or the end; `fuel` exceeds the number
of characters. -/
def run : Nat → Scanner → Scan
  | 0, s => .ok s
  | fuel + 1, s =>
    if s.isDone then .ok s
    else
      match s.next with
      | .ok next => run fuel next
      | .error fault => .error fault

end Scanner

/-- Whether a character may stand in a text. -/
def isAllowed (c : Char) : Bool :=
  let n := c.toNat
  c == '\t' || c == '\n' || c == '\r' || (0x20 ≤ n && n ≤ 0x7e) || n == 0x85 ||
    (0xa0 ≤ n && n ≤ 0xd7ff) || (0xe000 ≤ n && n ≤ 0xfffd) || 0x10000 ≤ n

/-- The tokens of a text. -/
def tokenize (t : Text) : Except Fault (List Token) :=
  if t.all isAllowed then (Scanner.run (t.length + 2) (.start t)).map (·.tokens)
  else .error ⟨.controlCharacter, ⟨0, 0⟩⟩

end CallAtlas.Yaml
