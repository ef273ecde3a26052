/-
Sets of code points given as tables of ranges. A table lists its ranges in increasing order, which
is what lets a search stop at the first range that starts too late.
-/
namespace FlowTemplate.Text

/-- A table of code points: inclusive ranges, in increasing order and apart from each other. -/
abbrev Ranges := List (Nat × Nat)

/-- Whether a code point lies in one of the ranges. -/
def Ranges.has : Ranges → Nat → Bool
  | [], _ => false
  | (first, last) :: rest, n => if n < first then false else n ≤ last || Ranges.has rest n

end FlowTemplate.Text
