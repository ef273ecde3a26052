/-
Tags of YAML values: the kinds that are known, the kind that the shape of a plain scalar implies,
and the scalar that a text of a kind spells.
-/
import FlowTemplate.Yaml.Base64
import FlowTemplate.Yaml.Date
import FlowTemplate.Yaml.Number

namespace FlowTemplate.Yaml

/-- The kinds of values. -/
inductive Kind where
  | null
  | bool
  | integer
  | real
  | binary
  | timestamp
  | text
  | sequence
  | mapping
  | set
  | orderedMapping
  | pairs
  /-- The sign for entries that a mapping takes over from others. -/
  | merge
  /-- The sign for the value that stands for a whole mapping. -/
  | standIn
  deriving DecidableEq, Repr

/-- What the tags of the known kinds begin with. -/
def tagLead : Text := "tag:yaml.org,2002:".toList

/-- The known kinds by the rest of their tags. -/
def kinds : List (Text × Kind) :=
  [("null", .null), ("bool", .bool), ("int", .integer), ("float", .real), ("binary", .binary),
    ("timestamp", .timestamp), ("str", .text), ("seq", .sequence), ("map", .mapping),
    ("set", .set), ("omap", .orderedMapping), ("pairs", .pairs), ("merge", .merge),
    ("value", .standIn)].map fun (name, kind) => (String.toList name, kind)

namespace Kind

/-- The kind of a tag. -/
def ofTag? (tag : Text) : Option Kind := (Text.after? tagLead tag).bind fun name => kinds.lookup name

/-- The words for truth values, in small letters. -/
def truthWords : List (Text × Bool) :=
  [("yes", true), ("no", false), ("true", true), ("false", false), ("on", true),
    ("off", false)].map fun (word, value) => (String.toList word, value)

/-- A word in capitals. -/
def upper (word : Text) : Text := word.map Char.toUpper

/-- A word with a capital in front. -/
def capital (word : Text) : Text := upper (word.take 1) ++ word.drop 1

/-- Whether a text is one of the words in small letters, in capitals, or with a capital in front. -/
def isWordOf (words : List Text) (text : Text) : Bool :=
  words.any fun word => text = word || text = upper word || text = capital word

/-- The kind that the shape of a plain scalar implies. -/
def ofPlain (text : Text) : Option Kind :=
  if text = [] || text = ['~'] || isWordOf ["null".toList] text then some .null
  else if isWordOf (truthWords.map (·.1)) text then some .bool
  else if Number.isReal text then some .real
  else if Number.isInteger text then some .integer
  else if text = "<<".toList then some .merge
  else if Date.isTimestamp text then some .timestamp
  else if text = ['='] then some .standIn
  else if text = ['!'] || text = ['&'] || text = ['*'] then none
  else some .text

/-- The kind that the shape of a scalar in any form implies. A line feed at the end does not count,
unless it is all there is. -/
def ofShape (text : WideText) : Option Kind :=
  match text.toText? with
  | none => some .text
  | some ['\n'] => some .text
  | some text => ofPlain (Text.dropLineEnd text)

/-- Whether values of a kind are collections. -/
def isCollection : Kind → Bool
  | sequence | mapping | set | orderedMapping | pairs => true
  | _ => false

/-- The scalar of a kind that a text spells, where `origin` tells the text apart from all others. -/
def scalarOf (kind : Kind) (origin : Nat) (text : Text) : Except YamlFault Scalar :=
  match kind with
  | .bool =>
    let word := text.lower
    match truthWords.lookup word with
    | some value => .ok (.bool value)
    | none => .error (.scalar (.noTruth word))
  | .integer => ((Number.integer text).map .integer).mapError .scalar
  | .real =>
    match Number.real text with
    | .ok .nan => .ok (.nan 0)
    | .ok (.number value) => .ok (if value.isNaN then .nan (origin + 1) else .real value)
    | .error fault => .error (.scalar fault)
  | .binary =>
    match Base64.decode text with
    | some bytes => .ok (.bytes bytes)
    | none => .error .malformed
  | .timestamp => (Date.scalar text).mapError .scalar
  | _ => .error .malformed

/-- The scalar of a kind that a text with or without surrogates spells. No number, date or truth
value has surrogates in it. -/
def scalar (kind : Kind) (origin : Nat) (text : WideText) : Except YamlFault Scalar :=
  match kind with
  | .null => .ok .null
  | .text => .ok (.text text)
  | _ => scalarOf kind origin text.readable

end Kind

end FlowTemplate.Yaml
