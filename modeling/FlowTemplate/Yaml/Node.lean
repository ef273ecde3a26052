/-
The nodes of a YAML document. An alias is a second reference to a node, so the nodes form a graph:
each has a number, and collections hold the numbers of their parts.
-/
import FlowTemplate.Yaml.Tag
import FlowTemplate.Yaml.Token.Stream

namespace FlowTemplate.Yaml

/-- What a node holds. -/
inductive NodeContent where
  | scalar (text : WideText)
  | sequence (items : List Nat)
  | mapping (entries : List (Nat × Nat))
  deriving DecidableEq, Repr

/-- A node with its kind, or none where no kind is known. -/
structure Node where
  kind? : Option Kind
  content : NodeContent
  deriving DecidableEq, Repr

/-- A document: its nodes by number, and the number of its root. -/
structure Document where
  nodes : Array Node
  root : Nat
  deriving Repr

/-- The state of reading nodes from tokens. -/
structure NodeReader where
  lexer : Lexer
  /-- How many tokens have been passed over. -/
  passed : Nat
  nodes : Array Node
  /-- The leading parts that the handles of tags stand for. -/
  handles : List (Text × Text)
  /-- The nodes that have an anchor. -/
  anchors : List (Text × Nat)
  /-- How many collections are open around the next token. -/
  depth : Nat

/-- A step of reading nodes. -/
abbrev ReadNode := StateT NodeReader (Except YamlFault)

namespace ReadNode

/-- The tokens are no document. -/
def fail {α : Type} : ReadNode α := throw .malformed

/-- The next token. -/
def peek : ReadNode Token := do
  let reader ← get
  let (_, lexer) ← (Scan.readTo reader.passed).run reader.lexer
  set { reader with lexer }
  return lexer.tokens.getD reader.passed .streamEnd

/-- Passes over the next token. -/
def skip : ReadNode Unit := modify fun reader => { reader with passed := reader.passed + 1 }

/-- Passes over the next token if it is the given one, and says whether it was. -/
def accept (token : Token) : ReadNode Bool := do
  if (← peek) = token then
    skip
    return true
  else return false

/-- Passes over the next token, which must be the given one. -/
def expect (token : Token) : ReadNode Unit := do
  if !(← accept token) then fail

/-- Whether the next token is one of these. -/
def nextIn (tokens : List Token) : ReadNode Bool := return tokens.contains (← peek)

/-- Adds a node. -/
def add (node : Node) : ReadNode Nat := do
  let reader ← get
  set { reader with nodes := reader.nodes.push node }
  return reader.nodes.size

/-- Gives a node its content. -/
def fill (number : Nat) (node : Node) : ReadNode Unit :=
  modify fun reader => { reader with nodes := reader.nodes.setIfInBounds number node }

/-- Names a node. No two nodes of a document have one name. -/
def anchor (name? : Option Text) (number : Nat) : ReadNode Unit := do
  match name? with
  | none => pure ()
  | some name =>
    let reader ← get
    if (reader.anchors.lookup name).isSome then fail
    set { reader with anchors := (name, number) :: reader.anchors }

/-- The node that stands where nothing is written. -/
def addEmpty : ReadNode Nat := add ⟨some .null, .scalar []⟩

/-! ## Properties -/

/-- The full tag that a written one stands for. -/
def resolveTag (name : TagName) : ReadNode Text := do
  match name.handle? with
  | none => return name.suffix
  | some handle =>
    match (← get).handles.lookup handle with
    | some leading => return leading ++ name.suffix
    | none => fail

/-- An anchor, if one is here. -/
def anchorName? : ReadNode (Option Text) := do
  match ← peek with
  | .anchor name =>
    skip
    return some name
  | _ => return none

/-- A tag, if one is here. -/
def tagText? : ReadNode (Option Text) := do
  match ← peek with
  | .tag name =>
    skip
    return some (← resolveTag name)
  | _ => return none

/-- The anchor and the tag in front of a node, in either order. -/
def properties : ReadNode (Option Text × Option Text) := do
  match ← anchorName? with
  | some name => return (some name, ← tagText?)
  | none =>
    match ← tagText? with
    | some tag => return (← anchorName?, some tag)
    | none => return (none, none)

/-- The kind of a scalar. The tag of one exclamation mark has the kind that the shape implies. -/
def scalarKind? (tag? : Option Text) (text : WideText) (plain : Bool) : Option Kind :=
  match tag? with
  | none => if plain then Kind.ofShape text else some .text
  | some ['!'] => Kind.ofShape text
  | some tag => Kind.ofTag? tag

/-- The kind of a collection. -/
def collectionKind? (tag? : Option Text) (default : Kind) : Option Kind :=
  match tag? with
  | none => some default
  | some ['!'] => some default
  | some tag => Kind.ofTag? tag

/-! ## Nodes -/

/-- How many collections may be inside each other. -/
def depthLimit : Nat := 485

/-- Reads the inside of a collection. -/
def inside {α : Type} (read : ReadNode α) : ReadNode α := do
  let depth := (← get).depth
  if depthLimit ≤ depth then throw (.scalar .tooDeep)
  modify fun reader => { reader with depth := depth + 1 }
  let value ← read
  modify fun reader => { reader with depth }
  return value

/-- The tokens that end an entry of a block mapping. -/
def blockEnds : List Token := [.key, .value, .blockEnd]

mutual

/-- A node. In block context it may be a block collection, and the value of a key may be a sequence
whose entries are not indented. -/
def node (block indentless : Bool) : Nat → ReadNode Nat
  | 0 => fail
  | fuel + 1 => do
    match ← peek with
    | .alias name =>
      skip
      match (← get).anchors.lookup name with
      | some number => return number
      | none => fail
    | _ =>
      let (anchor?, tag?) ← properties
      let collect (default : Kind) (read : ReadNode NodeContent) : ReadNode Nat := do
        let kind? := collectionKind? tag? default
        let number ← add ⟨kind?, .sequence []⟩
        anchor anchor? number
        fill number ⟨kind?, ← inside read⟩
        return number
      let next ← peek
      if indentless && next = .blockEntry then
        collect .sequence (return .sequence (← indentlessEntries fuel))
      else
        match next with
        | .scalar text plain =>
          skip
          let number ← add ⟨scalarKind? tag? text plain, .scalar text⟩
          anchor anchor? number
          return number
        | .flowSequenceStart =>
          skip
          collect .sequence (return .sequence (← flowItems true fuel))
        | .flowMappingStart =>
          skip
          collect .mapping (return .mapping (← flowEntries true fuel))
        | .blockSequenceStart =>
          if !block then fail
          skip
          collect .sequence (return .sequence (← blockItems fuel))
        | .blockMappingStart =>
          if !block then fail
          skip
          collect .mapping (return .mapping (← blockEntries fuel))
        | _ =>
          if anchor?.isNone && tag?.isNone then fail
          let number ← add ⟨scalarKind? tag? [] true, .scalar []⟩
          anchor anchor? number
          return number

/-- The items of a block sequence. -/
def blockItems : Nat → ReadNode (List Nat)
  | 0 => fail
  | fuel + 1 => do
    if ← accept .blockEntry then
      let item ← if ← nextIn [.blockEntry, .blockEnd] then addEmpty else node true false fuel
      return item :: (← blockItems fuel)
    else
      expect .blockEnd
      return []

/-- The items of a sequence that is not indented. -/
def indentlessEntries : Nat → ReadNode (List Nat)
  | 0 => fail
  | fuel + 1 => do
    if ← accept .blockEntry then
      let item ←
        if ← nextIn (.blockEntry :: blockEnds) then addEmpty else node true false fuel
      return item :: (← indentlessEntries fuel)
    else return []

/-- The entries of a block mapping. Either half of an entry may be missing. -/
def blockEntries : Nat → ReadNode (List (Nat × Nat))
  | 0 => fail
  | fuel + 1 => do
    if ← accept .key then
      let key ← if ← nextIn blockEnds then addEmpty else node true true fuel
      let value ←
        if ← accept .value then
          if ← nextIn blockEnds then addEmpty else node true true fuel
        else addEmpty
      return (key, value) :: (← blockEntries fuel)
    else
      expect .blockEnd
      return []

/-- The items of a flow sequence. An item with a key is a mapping of one entry. -/
def flowItems (first : Bool) : Nat → ReadNode (List Nat)
  | 0 => fail
  | fuel + 1 => do
    if ← accept .flowSequenceEnd then return []
    if !first then expect .flowEntry
    if ← accept .flowSequenceEnd then return []
    let item ←
      if ← accept .key then do
        let number ← add ⟨some .mapping, .sequence []⟩
        let entry ← inside do
          let key ←
            if ← nextIn [.value, .flowEntry, .flowSequenceEnd] then addEmpty
            else node false false fuel
          let value ←
            if ← accept .value then
              if ← nextIn [.flowEntry, .flowSequenceEnd] then addEmpty else node false false fuel
            else addEmpty
          pure (key, value)
        fill number ⟨some .mapping, .mapping [entry]⟩
        pure number
      else node false false fuel
    return item :: (← flowItems false fuel)

/-- The entries of a flow mapping. An entry without a key sign is a key without a value. -/
def flowEntries (first : Bool) : Nat → ReadNode (List (Nat × Nat))
  | 0 => fail
  | fuel + 1 => do
    if ← accept .flowMappingEnd then return []
    if !first then expect .flowEntry
    if ← accept .flowMappingEnd then return []
    let entry ←
      if ← accept .key then do
        let key ←
          if ← nextIn [.value, .flowEntry, .flowMappingEnd] then addEmpty
          else node false false fuel
        let value ←
          if ← accept .value then
            if ← nextIn [.flowEntry, .flowMappingEnd] then addEmpty else node false false fuel
          else addEmpty
        pure (key, value)
      else do
        let key ← node false false fuel
        pure (key, ← addEmpty)
    return entry :: (← flowEntries false fuel)

end

/-! ## Documents -/

/-- The handles that need no directive. -/
def defaultHandles : List (Text × Text) := [(['!'], ['!']), (['!', '!'], tagLead)]

/-- The directives in front of a document: whether its version is set, and the handles. -/
def directives (versioned : Bool) (handles : List (Text × Text)) :
    Nat → ReadNode (List (Text × Text))
  | 0 => fail
  | fuel + 1 => do
    match ← peek with
    | .versionDirective major =>
      skip
      if versioned || major ≠ 1 then fail
      directives true handles fuel
    | .tagDirective handle leading =>
      skip
      if (handles.lookup handle).isSome then fail
      directives versioned ((handle, leading) :: handles) fuel
    | .otherDirective =>
      skip
      directives versioned handles fuel
    | _ => return handles ++ defaultHandles

/-- Passes over the ends of documents. -/
def skipEnds : Nat → ReadNode Unit
  | 0 => fail
  | fuel + 1 => do
    if ← accept .documentEnd then skipEnds fuel

/-- The tokens that show a document to be empty. -/
def isDocumentBoundary : Token → Bool
  | .versionDirective _ | .tagDirective _ _ | .otherDirective => true
  | .documentStart | .documentEnd | .streamEnd => true
  | _ => false

/-- The only document of a stream, or none if there is none. -/
def stream (fuel : Nat) : ReadNode (Option Nat) := do
  let first ← peek
  if first = .streamEnd then return none
  let root ←
    if isDocumentBoundary first && first ≠ .documentEnd then do
      let handles ← directives false [] fuel
      modify fun reader => { reader with handles }
      expect .documentStart
      if isDocumentBoundary (← peek) then addEmpty else node true false fuel
    else node true false fuel
  skipEnds fuel
  expect .streamEnd
  return some root

end ReadNode

namespace Document

/-- The only document that a text spells, or none if it spells no document. There are fewer tokens
than eight for each character. -/
def ofText (text : Text) : Except YamlFault (Option Document) := do
  if !text.all isStreamChar then throw .malformed
  let reader : NodeReader :=
    { lexer := Lexer.start text, passed := 0, nodes := #[], handles := ReadNode.defaultHandles
      anchors := [], depth := 0 }
  let (root?, reader) ← (ReadNode.stream (16 * text.length + 16)).run reader
  return root?.map fun root => ⟨reader.nodes, root⟩

end Document

end FlowTemplate.Yaml
