/-
Issues: what is wrong with the values of a configuration, each with the keys that lead to it. All
issues of a configuration are gathered, in the order of its fields.
-/
import FlowTemplate.Text.Utf8
import FlowTemplate.Value

namespace FlowTemplate.Config

/-- The ways in which a value can be of the wrong kind. -/
inductive IssueKind where
  /-- The value reads as no truth value. -/
  | boolParsing
  /-- The value is of a kind that holds no truth values. -/
  | boolType
  /-- The value is no text. -/
  | stringType
  /-- The bytes are no text. -/
  | stringUnicode
  /-- The value is no mapping. -/
  | dictType
  /-- The value is no mapping of options. -/
  | modelType
  deriving DecidableEq, Repr

/-- The word for a kind of issue. -/
def IssueKind.code : IssueKind → Text
  | boolParsing => "bool_parsing".toList
  | boolType => "bool_type".toList
  | stringType => "string_type".toList
  | stringUnicode => "string_unicode".toList
  | dictType => "dict_type".toList
  | modelType => "model_type".toList

/-- An issue and the keys that lead to it. -/
structure Issue where
  location : List Text
  kind : IssueKind
  deriving DecidableEq, Repr

/-- A value read from a configuration, and the issues met on the way. -/
structure Checked (α : Type) where
  value : α
  issues : List Issue

namespace Checked

variable {α β : Type}

instance : Monad Checked where
  pure value := ⟨value, []⟩
  bind first next := ⟨(next first.value).value, first.issues ++ (next first.value).issues⟩

/-- A value that has to be made up because of an issue. -/
def flaw (location : List Text) (kind : IssueKind) (value : α) : Checked α :=
  ⟨value, [⟨location, kind⟩]⟩

/-- The value, if there was no issue. -/
def toExcept (checked : Checked α) : Except (List Issue) α :=
  if checked.issues.isEmpty then .ok checked.value else .error checked.issues

end Checked

/-- A scalar as a text, if it is one or spells one in UTF-8. -/
def textOf : Scalar → Except IssueKind WideText
  | .text value => .ok value
  | .bytes value =>
    match Utf8.decodeFrom 0 value with
    | .ok text => .ok (.ofText text)
    | .error _ => .error .stringUnicode
  | _ => .error .stringType

/-- The words for false. -/
def falseWords : List Text := ["0", "off", "f", "false", "n", "no"].map String.toList

/-- The words for true. -/
def trueWords : List Text := ["1", "on", "t", "true", "y", "yes"].map String.toList

/-- The truth value that a text spells, in any letter case. -/
def boolOfText (text : Text) : Except IssueKind Bool :=
  let word := text.map Char.toLower
  if falseWords.contains word then .ok false
  else if trueWords.contains word then .ok true
  else .error .boolParsing

/-- The least integer of 64 bits with a sign. -/
def leastInt64 : Int := -0x8000000000000000

/-- The truth value that a whole number stands for. Numbers beyond 64 bits are of another kind. -/
def boolOfInt (n : Int) : Except IssueKind Bool :=
  if n = 0 then .ok false
  else if n = 1 then .ok true
  else if leastInt64 ≤ n && n < -leastInt64 then .error .boolParsing
  else .error .boolType

/-- The truth value of a scalar. A real number that is as small as an integer of 64 bits can be no
longer counts as one. -/
def boolOfScalar : Scalar → Except IssueKind Bool
  | .bool value => .ok value
  | .integer value => boolOfInt value
  | .real value =>
    match (Scalar.real value).asInteger? with
    | some n => if n = leastInt64 then .error .boolType else boolOfInt n
    | none => .error .boolType
  | .text value =>
    match value.toText? with
    | some text => boolOfText text
    | none => .error .stringUnicode
  | .bytes value =>
    match Utf8.decodeFrom 0 value with
    | .ok text => boolOfText text
    | .error _ => .error .boolParsing
  | _ => .error .boolType

/-- The truth value of a value. -/
def boolOf : Value → Except IssueKind Bool
  | .scalar value => boolOfScalar value
  | _ => .error .boolType

end FlowTemplate.Config
