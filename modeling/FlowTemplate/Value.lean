/-
Values of a configuration file. The keys of a mapping are scalars, and no two of them are equal.
-/
import FlowTemplate.Moment
import FlowTemplate.Text.CodePoint
import FlowTemplate.Text.Shortest

namespace FlowTemplate

/-- A value without parts. -/
inductive Scalar where
  | null
  | bool (value : Bool)
  | integer (value : Int)
  /-- A real number, possibly infinite. -/
  | real (value : Float)
  /-- What is no number though it is written as one. Its origin tells it apart from others. -/
  | nan (origin : Nat)
  | text (value : WideText)
  | bytes (value : List UInt8)
  | date (year month day : Nat)
  | moment (value : Moment)
  deriving Repr

namespace Scalar

/-- A truth value as the integer it is equal to. -/
def ofBool (value : Bool) : Int := if value then 1 else 0

/-- The integer that a number is equal to, if it is one. -/
def asInteger? : Scalar → Option Int
  | bool value => some (ofBool value)
  | integer value => some value
  | real value => Text.Shortest.integer? value
  | _ => none

/-- Whether two scalars are the same key. Numbers are compared by value, whatever their kind, and
moments by the instant they name. -/
def sameKey : Scalar → Scalar → Bool
  | null, null => true
  | text a, text b => a = b
  | bytes a, bytes b => a = b
  | date y m d, date y' m' d' => y = y' && m = m' && d = d'
  | moment a, moment b => a.same b
  | nan a, nan b => a = b
  | real a, real b => a == b
  | a, b =>
    match a.asInteger?, b.asInteger? with
    | some m, some n => m = n
    | _, _ => false

end Scalar

/-- A value of a configuration file. -/
inductive Value where
  | scalar (value : Scalar)
  | sequence (items : List Value)
  | set (members : List Scalar)
  | mapping (entries : List (Scalar × Value))
  deriving Inhabited

namespace Value

/-- The value at a key that is a text. -/
def lookup? (key : Text) : List (Scalar × Value) → Option Value
  | [] => none
  | (.text name, value) :: rest =>
    if name = WideText.ofText key then some value else lookup? key rest
  | _ :: rest => lookup? key rest

/-- An entry added to a mapping: at the end, or in the place of the entry with the same key, whose
key stays. -/
def put (key : Scalar) (value : Value) : List (Scalar × Value) → List (Scalar × Value)
  | [] => [(key, value)]
  | (k, v) :: rest => if k.sameKey key then (k, value) :: rest else (k, v) :: put key value rest

/-- The mapping with the given entries. Of two with the same key the first gives the key and the
place, and the last the value. -/
def ofEntries (entries : List (Scalar × Value)) : Value :=
  .mapping (entries.foldl (fun all (key, value) => put key value all) [])

/-- The set with the given members, each of them once. -/
def ofMembers (members : List Scalar) : Value :=
  .set (members.foldl (fun all member =>
    if all.any (·.sameKey member) then all else all ++ [member]) [])

/-- Whether a value counts as nothing: null, false, zero, and what is empty. -/
def isNothing : Value → Bool
  | scalar .null => true
  | scalar (.bool value) => !value
  | scalar (.integer value) => value = 0
  | scalar (.real value) => value == 0
  | scalar (.nan _) => false
  | scalar (.text value) => value.isEmpty
  | scalar (.bytes value) => value.isEmpty
  | scalar (.date _ _ _) => false
  | scalar (.moment _) => false
  | sequence items => items.isEmpty
  | set members => members.isEmpty
  | mapping entries => entries.isEmpty

end Value

end FlowTemplate
