/-
Module: CallAtlas.Yaml.Node
Purpose: The document in a YAML text.
Main definitions: Node, parse
-/
import CallAtlas.Yaml.Token

namespace CallAtlas.Yaml

/-- A value in a document.  Tags are given in full. -/
inductive Node where
  | scalar (value : Text) (style : ScalarStyle) (tag : Option Text) (mark : Mark)
  | sequence (items : List Node) (mark : Mark)
  | mapping (pairs : List (Node × Node)) (mark : Mark)
deriving Repr, Inhabited

namespace Node

/-- Where a node starts. -/
def mark : Node → Mark
  | scalar _ _ _ mark => mark
  | sequence _ mark => mark
  | mapping _ mark => mark

/-- A scalar that is not written down. -/
def absent (mark : Mark) : Node := scalar [] .plain none mark

end Node

/-- What reading a document depends on: the prefixes of tag handles, and the nodes of anchors, the
last one first.  A node that is still being read stands for itself as an empty mapping. -/
structure Context where
  handles : List (Text × Text)
  anchors : List (Text × Node)
deriving Repr, Inhabited

/-- A node that was read, the tokens after it, and the context then. -/
structure ReadNode where
  node : Node
  tokens : List Token
  context : Context
deriving Repr, Inhabited

/-- The properties before a node. -/
structure Properties where
  anchor : Option Text
  tag : Option (Text × Text)
  /-- Where the first one starts. -/
  mark : Option Mark
deriving Repr, Inhabited

/-- Reads the anchor and the tag before a node, in either order, each at most once. -/
def readProperties : List Token → Properties → Properties × List Token
  | token :: more, found =>
    let mark := some (found.mark.getD token.mark)
    match token.kind, found.anchor, found.tag with
    | .anchor name, none, _ => readProperties more { found with anchor := some name, mark := mark }
    | .tag handle suffix, _, none =>
      readProperties more { found with tag := some (handle, suffix), mark := mark }
    | _, _, _ => (found, token :: more)
  | [], found => (found, [])

/-- A tag in full. -/
def Context.expand? (context : Context) (tag : Text × Text) : Option Text :=
  if tag.1.isEmpty then some tag.2 else (context.handles.lookup tag.1).map (· ++ tag.2)

/-- The mark of the next token. -/
def markOf (tokens : List Token) : Mark := (tokens.head?.map (·.mark)).getD ⟨0, 0⟩

/-- Whether the next token is one of several kinds. -/
def nextIn (tokens : List Token) (kinds : List TokenKind) : Bool :=
  tokens.head?.any fun t => kinds.contains t.kind

/-- A fault at the next token. -/
def faultAt {α : Type} (tokens : List Token) (cause : Cause) : Except Fault α :=
  .error ⟨cause, markOf tokens⟩

/-- Which nodes may come. -/
inductive Position where
  /-- In a flow collection: no blocks. -/
  | flow
  /-- In a block. -/
  | block
  /-- As a key or a value in a block mapping: also a sequence without indentation. -/
  | entry
deriving Repr, DecidableEq, Inhabited

mutual

/-- Reads a node. -/
def readNode : Nat → Position → Context → List Token → Except Fault ReadNode
  | 0, _, _, tokens => faultAt tokens .missingNode
  | fuel + 1, position, context, tokens =>
    match tokens with
    | ⟨.alias name, mark⟩ :: rest =>
      match context.anchors.lookup name with
      | some node => .ok ⟨node, rest, context⟩
      | none => .error ⟨.unknownAnchor, mark⟩
    | _ =>
      let (properties, rest) := readProperties tokens ⟨none, none, none⟩
      let mark := properties.mark.getD (markOf rest)
      let tag := properties.tag.map context.expand?
      if tag == some none then .error ⟨.undefinedTagHandle, mark⟩
      else
        let opened :=
          match properties.anchor with
          | some name => { context with anchors := (name, .mapping [] mark) :: context.anchors }
          | none => context
        let isBare := properties.anchor.isNone && properties.tag.isNone
        match readContent fuel position opened mark (tag.bind id) isBare rest with
        | .error fault => .error fault
        | .ok read =>
          match properties.anchor with
          | some name => .ok { read with
              context := { read.context with anchors := (name, read.node) :: read.context.anchors } }
          | none => .ok read

/-- Reads a node after its properties. -/
def readContent : Nat → Position → Context → Mark → Option Text → Bool → List Token →
    Except Fault ReadNode
  | 0, _, _, _, _, _, tokens => faultAt tokens .missingNode
  | fuel + 1, position, context, mark, tag, isBare, tokens =>
    match tokens with
    | ⟨.scalar value style, _⟩ :: rest => .ok ⟨.scalar value style tag mark, rest, context⟩
    | ⟨.flowSequenceStart, _⟩ :: rest => readFlowItems fuel context mark true [] rest
    | ⟨.flowMappingStart, _⟩ :: rest => readFlowPairs fuel context mark true [] rest
    | ⟨.blockEntry, start⟩ :: rest =>
      if position = .entry then
        readBlockItems fuel context mark false [] (⟨.blockEntry, start⟩ :: rest)
      else if isBare then faultAt tokens .missingNode
      else .ok ⟨.scalar [] .plain tag mark, tokens, context⟩
    | ⟨kind, _⟩ :: rest =>
      if kind = .blockSequenceStart && position ≠ .flow then
        readBlockItems fuel context mark true [] rest
      else if kind = .blockMappingStart && position ≠ .flow then
        readBlockPairs fuel context mark [] rest
      else if isBare then faultAt tokens .missingNode
      else .ok ⟨.scalar [] .plain tag mark, tokens, context⟩
    | [] => faultAt tokens .missingNode

/-- Reads a node, or none if one of several tokens comes next. -/
def readOptional : Nat → Position → Context → List TokenKind → List Token → Except Fault ReadNode
  | 0, _, _, _, tokens => faultAt tokens .missingNode
  | fuel + 1, position, context, stops, tokens =>
    if nextIn tokens stops then .ok ⟨.absent (markOf tokens), tokens, context⟩
    else readNode fuel position context tokens

/-- Reads the items of a block sequence.  Without indentation of its own it ends before the next
token that is no item. -/
def readBlockItems : Nat → Context → Mark → Bool → List Node → List Token → Except Fault ReadNode
  | 0, _, _, _, _, tokens => faultAt tokens .missingEntry
  | fuel + 1, context, mark, indented, items, tokens =>
    match tokens with
    | ⟨.blockEntry, _⟩ :: rest =>
      let stops :=
        if indented then [.blockEntry, .blockEnd] else [.blockEntry, .key, .value, .blockEnd]
      match readOptional fuel .block context stops rest with
      | .error fault => .error fault
      | .ok read =>
        readBlockItems fuel read.context mark indented (read.node :: items) read.tokens
    | ⟨.blockEnd, _⟩ :: rest =>
      .ok ⟨.sequence items.reverse mark, if indented then rest else tokens, context⟩
    | _ =>
      if indented then faultAt tokens .missingEntry
      else .ok ⟨.sequence items.reverse mark, tokens, context⟩

/-- Reads the pairs of a block mapping. -/
def readBlockPairs : Nat → Context → Mark → List (Node × Node) → List Token →
    Except Fault ReadNode
  | 0, _, _, _, tokens => faultAt tokens .missingKey
  | fuel + 1, context, mark, pairs, tokens =>
    match tokens with
    | ⟨.blockEnd, _⟩ :: rest => .ok ⟨.mapping pairs.reverse mark, rest, context⟩
    | ⟨.key, _⟩ :: rest =>
      match readOptional fuel .entry context [.key, .value, .blockEnd] rest with
      | .error fault => .error fault
      | .ok key =>
        match readValue fuel .entry key.context [.key, .value, .blockEnd] key.tokens with
        | .error fault => .error fault
        | .ok read =>
          readBlockPairs fuel read.context mark ((key.node, read.node) :: pairs) read.tokens
    | _ => faultAt tokens .missingKey

/-- Reads the value of a pair after its key. -/
def readValue : Nat → Position → Context → List TokenKind → List Token → Except Fault ReadNode
  | 0, _, _, _, tokens => faultAt tokens .missingNode
  | fuel + 1, position, context, stops, tokens =>
    match tokens with
    | ⟨.value, _⟩ :: rest => readOptional fuel position context stops rest
    | _ => .ok ⟨.absent (markOf tokens), tokens, context⟩

/-- Reads the items of a flow sequence.  An item may be a single pair. -/
def readFlowItems : Nat → Context → Mark → Bool → List Node → List Token → Except Fault ReadNode
  | 0, _, _, _, _, tokens => faultAt tokens .unclosedFlow
  | fuel + 1, context, mark, isFirst, items, tokens =>
    if nextIn tokens [.flowSequenceEnd] then
      .ok ⟨.sequence items.reverse mark, tokens.drop 1, context⟩
    else if !isFirst && !nextIn tokens [.flowEntry] then faultAt tokens .unclosedFlow
    else
      let tokens := if isFirst then tokens else tokens.drop 1
      if nextIn tokens [.flowSequenceEnd] then
        .ok ⟨.sequence items.reverse mark, tokens.drop 1, context⟩
      else if nextIn tokens [.key] then
        let start := markOf tokens
        match readOptional fuel .flow context [.value, .flowEntry, .flowSequenceEnd]
            (tokens.drop 1) with
        | .error fault => .error fault
        | .ok key =>
          match readValue fuel .flow key.context [.flowEntry, .flowSequenceEnd] key.tokens with
          | .error fault => .error fault
          | .ok read =>
            let pair := Node.mapping [(key.node, read.node)] start
            readFlowItems fuel read.context mark false (pair :: items) read.tokens
      else
        match readNode fuel .flow context tokens with
        | .error fault => .error fault
        | .ok read => readFlowItems fuel read.context mark false (read.node :: items) read.tokens

/-- Reads the pairs of a flow mapping.  A key may stand alone. -/
def readFlowPairs : Nat → Context → Mark → Bool → List (Node × Node) → List Token →
    Except Fault ReadNode
  | 0, _, _, _, _, tokens => faultAt tokens .unclosedFlow
  | fuel + 1, context, mark, isFirst, pairs, tokens =>
    if nextIn tokens [.flowMappingEnd] then
      .ok ⟨.mapping pairs.reverse mark, tokens.drop 1, context⟩
    else if !isFirst && !nextIn tokens [.flowEntry] then faultAt tokens .unclosedFlow
    else
      let tokens := if isFirst then tokens else tokens.drop 1
      if nextIn tokens [.flowMappingEnd] then
        .ok ⟨.mapping pairs.reverse mark, tokens.drop 1, context⟩
      else if nextIn tokens [.key] then
        match readOptional fuel .flow context [.value, .flowEntry, .flowMappingEnd]
            (tokens.drop 1) with
        | .error fault => .error fault
        | .ok key =>
          match readValue fuel .flow key.context [.flowEntry, .flowMappingEnd] key.tokens with
          | .error fault => .error fault
          | .ok read =>
            readFlowPairs fuel read.context mark false ((key.node, read.node) :: pairs) read.tokens
      else
        match readNode fuel .flow context tokens with
        | .error fault => .error fault
        | .ok read =>
          let pair := (read.node, Node.absent (markOf read.tokens))
          readFlowPairs fuel read.context mark false (pair :: pairs) read.tokens

end

/-- The tag handles that every document knows. -/
def standardHandles : List (Text × Text) :=
  [(['!'], ['!']), (['!', '!'], "tag:yaml.org,2002:".toList)]

/-- What the directives before a document say. -/
structure Directives where
  /-- Whether the version is named. -/
  versioned : Bool
  /-- The tag handles that are given a meaning. -/
  handles : List (Text × Text)
deriving Repr, Inhabited

/-- Reads the directives before a document.  The version is named at most once and is 1.1 or 1.2;
every handle is given a meaning at most once. -/
def readDirectives : List Token → Directives → Except Fault (Directives × List Token)
  | ⟨.version major minor, mark⟩ :: rest, found =>
    if found.versioned || major != 1 || !(minor == 1 || minor == 2) then
      .error ⟨.badDirective, mark⟩
    else readDirectives rest { found with versioned := true }
  | ⟨.tagHandle handle meaning, mark⟩ :: rest, found =>
    if (found.handles.lookup handle).isSome then .error ⟨.badDirective, mark⟩
    else readDirectives rest { found with handles := (handle, meaning) :: found.handles }
  | tokens, found => .ok (found, tokens)

/-- Whether a document starts explicitly or the text ends: with a directive, a marker or the end. -/
def isDocumentFront (tokens : List Token) : Bool :=
  match tokens with
  | ⟨.version _ _, _⟩ :: _ => true
  | ⟨.tagHandle _ _, _⟩ :: _ => true
  | _ => nextIn tokens [.documentStart, .streamEnd]

/-- Reads the content of a document.  After an explicit start it may be missing. -/
def readDocumentContent (fuel : Nat) (context : Context) (isExplicit : Bool)
    (tokens : List Token) : Except Fault ReadNode :=
  if isExplicit && (isDocumentFront tokens || nextIn tokens [.documentEnd]) then
    .ok ⟨Node.absent (markOf tokens), tokens, context⟩
  else readNode fuel .block context tokens

/-- Reads the only document among the tokens of a text; none if the text is empty. -/
def readDocument (tokens : List Token) : Except Fault (Option Node) := do
  if nextIn tokens [.streamEnd] then return none
  let isExplicit := isDocumentFront tokens
  let (directives, front) ← readDirectives tokens ⟨false, []⟩
  if isExplicit && !nextIn front [.documentStart] then faultAt front .missingDocumentStart
  let context : Context := ⟨directives.handles ++ standardHandles, []⟩
  let content := if isExplicit then front.drop 1 else front
  let read ← readDocumentContent (8 * tokens.length + 8) context isExplicit content
  let rest := read.tokens.dropWhile (·.kind = .documentEnd)
  if nextIn rest [.streamEnd] then return some read.node
  else if nextIn rest [.documentStart] then faultAt rest .secondDocument
  else faultAt rest .missingDocumentStart

/-- The document in a text; none if the text is empty. -/
def parse (t : Text) : Except Fault (Option Node) := do readDocument (← tokenize t)

end CallAtlas.Yaml
