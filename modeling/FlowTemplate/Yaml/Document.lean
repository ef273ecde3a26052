/-
The value that a YAML document spells. Its nodes are read one after another, a collection before the
collections in it. A mapping first takes over the entries of those it merges, which changes the
nodes themselves: a node that others merge shows what became of it wherever else it stands. Since an
alias may lead back to a node around it, a value is unfolded to a given depth only.
-/
import FlowTemplate.Yaml.Node

namespace FlowTemplate.Yaml

/-- A node that was read: its scalar, or its parts by number. -/
inductive Shape where
  | scalar (content : Scalar)
  | sequence (items : List Nat)
  | mapping (entries : List (Scalar × Nat))
  | set (members : List Scalar) (values : List Nat)
  | pairs (entries : List (Nat × Nat))

namespace Shape

/-- The parts of a node by number. -/
def parts : Shape → List Nat
  | scalar _ => []
  | sequence items => items
  | mapping entries => entries.map (·.2)
  | set _ values => values
  | pairs entries => entries.flatMap fun (key, value) => [key, value]

/-- The value of a node, where `part` gives those of its parts. -/
def value (part : Nat → Value) : Shape → Value
  | scalar content => .scalar content
  | sequence items => .sequence (items.map part)
  | mapping entries => Value.ofEntries (entries.map fun (key, number) => (key, part number))
  | set members _ => Value.ofMembers members
  | pairs entries =>
    .sequence (entries.map fun (first, second) => .sequence [part first, part second])

/-- The shape without its parts, unless it is a scalar. -/
def hollow : Shape → Shape
  | scalar content => scalar content
  | sequence _ => sequence []
  | mapping _ => mapping []
  | set members _ => set members []
  | pairs _ => pairs []

end Shape

/-- The state of reading a document: the nodes as merging has left them, the number of steps that
merging into one of them may take, and the shapes of those that were read, by number. -/
structure Builder where
  nodes : Array Node
  mergeLimit : Nat
  shapes : List (Nat × Shape)

/-- How many references there are from a node to others. -/
def Node.references (node : Node) : Nat :=
  match node.content with
  | .scalar _ => 0
  | .sequence items => items.length
  | .mapping entries => 2 * entries.length

/-- How many entries of a node merge others into it. -/
def Node.merges (nodes : Array Node) (node : Node) : Nat :=
  match node.content with
  | .mapping entries =>
    entries.countP fun (key, _) => (nodes[key]?.bind Node.kind?) = some .merge
  | _ => 0

/-- The start of reading some nodes. Every merge is done once and makes a mapping longer by at most
the references there are times the longest mapping, which bounds the steps. -/
def Builder.ofNodes (nodes : Array Node) : Builder :=
  let references := nodes.foldl (fun n node => n + node.references) nodes.size
  let merges := nodes.foldl (fun n node => n + node.merges nodes) 2
  ⟨nodes, Nat.pow (references + 1) merges, []⟩

/-- A step of reading a document. -/
abbrev Build := StateT Builder (Except YamlFault)

namespace Build

/-- The document has no value. -/
def fail {α : Type} : Build α := throw .malformed

/-- The node with a number. -/
def node (number : Nat) : Build Node := do
  match (← get).nodes[number]? with
  | some node => return node
  | none => fail

/-- The kind of a node, if it has a known one. -/
def kind? (number : Nat) : Build (Option Kind) := return (← node number).kind?

/-- Replaces a node. -/
def setNode (number : Nat) (node : Node) : Build Unit :=
  modify fun builder => { builder with nodes := builder.nodes.setIfInBounds number node }

/-- The entries of a mapping as they stand. -/
def entries (number : Nat) : Build (List (Nat × Nat)) := do
  match (← node number).content with
  | .mapping entries => return entries
  | _ => fail

/-- Replaces the entries of a mapping. -/
def setEntries (number : Nat) (entries : List (Nat × Nat)) : Build Unit := do
  setNode number { (← node number) with content := .mapping entries }

/-- The items of a sequence. -/
def items (number : Nat) : Build (List Nat) := do
  match (← node number).content with
  | .sequence items => return items
  | _ => fail

/-! ## Merging -/

/-- Puts the entries of merged mappings in front of those of a mapping. The entries from `index` on
have not been looked at yet, and `merged` are those to be put in front. The sign for a value that
stands for a whole mapping becomes an ordinary text. -/
def mergeFrom : Nat → Nat → Nat → List (Nat × Nat) → Build Unit
  | 0, _, _, _ => fail
  | fuel + 1, number, index, merged => do
    let own ← entries number
    match own[index]? with
    | none => if !merged.isEmpty then setEntries number (merged ++ own)
    | some (key, value) =>
      match ← kind? key with
      | some .merge =>
        setEntries number (own.eraseIdx index)
        let more ← match (← node value).content with
          | .mapping _ => do
            mergeFrom fuel value 0 []
            entries value
          | .sequence items => do
            let each ← items.mapM fun item => do
              mergeFrom fuel item 0 []
              entries item
            pure each.reverse.flatten
          | .scalar _ => fail
        mergeFrom fuel number index (merged ++ more)
      | some .standIn =>
        setNode key { (← node key) with kind? := some .text }
        mergeFrom fuel number (index + 1) merged
      | _ => mergeFrom fuel number (index + 1) merged

/-- The entries of a mapping, those of the mappings it merges in front. -/
def mergedEntries (number : Nat) : Build (List (Nat × Nat)) := do
  mergeFrom (← get).mergeLimit number 0 []
  entries number

/-! ## Scalars -/

/-- The text of a node: its own, or that of the value that stands for a mapping. -/
def textOf : Nat → Nat → Build WideText
  | 0, _ => throw (.scalar .tooDeep)
  | fuel + 1, number => do
    match (← node number).content with
    | .scalar text => return text
    | .mapping entries =>
      match ← entries.findM? fun (key, _) => return (← kind? key) = some .standIn with
      | some (_, value) => textOf fuel value
      | none => fail
    | .sequence _ => fail

/-- Whether a node is a mapping. -/
def isMapping (number : Nat) : Build Bool := do
  match (← node number).content with
  | .mapping _ => return true
  | _ => return false

/-- The scalar of a kind that a node spells. -/
def readScalar (kind : Kind) (number : Nat) : Build Scalar := do
  let text ← textOf ((← get).nodes.size + 1) number
  if kind = .timestamp && (← isMapping number) then throw (.scalar .dateOfMapping)
  kind.scalar number text

/-- Notes the shape of a node. -/
def note (number : Nat) (shape : Shape) : Build Unit :=
  modify fun builder => { builder with shapes := (number, shape) :: builder.shapes }

/-- The scalar that a node is, or none for a collection, whose parts are read later. -/
def scalar? (number : Nat) : Build (Option Scalar) := do
  match (← get).shapes.lookup number with
  | some (.scalar value) => return some value
  | some _ => return none
  | none =>
    match ← kind? number with
    | none => fail
    | some kind =>
      if kind.isCollection then return none
      else
        let value ← readScalar kind number
        note number (.scalar value)
        return some value

/-- The key that a node is, which must be a scalar. -/
def key (number : Nat) : Build Scalar := do
  match ← scalar? number with
  | some key => return key
  | none => fail

/-! ## Collections -/

/-- The entries of a mapping with their keys read. Key by key, the scalar behind it is read as well,
so that the first fault of an entry is the one that is met. -/
def keyedEntries (number : Nat) : Build (List (Scalar × Nat)) := do
  (← mergedEntries number).mapM fun (name, value) => do
    let key ← key name
    let _ ← scalar? value
    return (key, value)

/-- The entries in a sequence of mappings with one entry each, whose scalars are read in order. -/
def pairs (number : Nat) : Build (List (Nat × Nat)) := do
  (← items number).mapM fun item => do
    match ← entries item with
    | [(key, value)] =>
      let _ ← scalar? key
      let _ ← scalar? value
      return (key, value)
    | _ => fail

/-- The items of a sequence, whose scalars are read in order. -/
def readItems (number : Nat) : Build (List Nat) := do
  (← items number).mapM fun item => do
    let _ ← scalar? item
    return item

/-- The shape of a collection. -/
def collection (kind : Kind) (number : Nat) : Build Shape := do
  match kind with
  | .sequence => return .sequence (← readItems number)
  | .set =>
    let entries ← keyedEntries number
    return .set (entries.map (·.1)) (entries.map (·.2))
  | .orderedMapping | .pairs => return .pairs (← pairs number)
  | _ => return .mapping (← keyedEntries number)

/-- The shape of a node. -/
def shape (number : Nat) : Build Shape := do
  match ← scalar? number with
  | some value => return .scalar value
  | none =>
    match ← kind? number with
    | none => fail
    | some kind =>
      let shape ← collection kind number
      note number shape
      return shape

/-- Reads every node in `queue` and all their parts. The nodes that were `met` have been in the
queue. A node is read before the nodes in it, level by level, which decides between several
faults. -/
def readFrom : Nat → List Nat → List Nat → Build Unit
  | 0, _, _ => pure ()
  | _, _, [] => pure ()
  | fuel + 1, met, number :: queue => do
    let fresh := (← shape number).parts.eraseDups.filter fun part => !met.contains part
    readFrom fuel (fresh ++ met) (queue ++ fresh)

end Build

/-- The value of a node, with no more than `depth` collections inside each other; one deeper down
is taken to be empty. -/
def unfold (shapes : List (Nat × Shape)) : Nat → Nat → Value
  | 0, number => ((shapes.lookup number).map fun shape => shape.hollow.value fun _ => default).getD
      (.scalar .null)
  | depth + 1, number => ((shapes.lookup number).map (Shape.value (unfold shapes depth))).getD
      (.scalar .null)

/-- The value that a YAML text spells, unfolded to a depth; an empty stream spells null. -/
def read (depth : Nat) (text : Text) : Except YamlFault Value := do
  match ← Document.ofText text with
  | none => return .scalar .null
  | some document =>
    let reading := Build.readFrom (document.nodes.size + 1) [document.root] [document.root]
    let (_, builder) ← reading.run (Builder.ofNodes document.nodes)
    return unfold builder.shapes depth document.root

end FlowTemplate.Yaml
