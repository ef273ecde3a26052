/-
Leftmost occurrences. A recogniser reads a construct at the front of a text and returns what it read
and the rest of the text. Cutting a text at the leftmost occurrences that do not overlap gives its
segments, alternately plain text and occurrences; replacing, listing and locating all start there.
-/
import FlowTemplate.Text.Basic

namespace FlowTemplate

/-- Reads a construct at the front of a text: its value, and the rest of the text. -/
abbrev Recogniser (α : Type) := Text → Option (α × Text)

/-- A piece of a text that was searched for occurrences of a construct. -/
inductive Segment (α : Type) where
  /-- Text between two occurrences. It is never empty and never next to another gap. -/
  | gap (text : Text)
  /-- An occurrence, with the text it was read from. -/
  | hit (value : α) (text : Text)
  deriving Repr

namespace Segment

variable {α : Type}

/-- The part of the text that the segment covers. -/
def text : Segment α → Text
  | gap text => text
  | hit _ text => text

/-- Puts one more character in front of a list of segments, into the gap it begins with or into a
gap of its own. -/
def consGap (c : Char) : List (Segment α) → List (Segment α)
  | gap text :: rest => gap (c :: text) :: rest
  | segments => gap [c] :: segments

/-- The segments of a text whose first `skip` characters belong to an occurrence already read. What
a recogniser reads counts as an occurrence only if it takes up text. -/
def ofTextFrom (read : Recogniser α) : Nat → Text → List (Segment α)
  | _, [] => []
  | skip + 1, _ :: cs => ofTextFrom read skip cs
  | 0, c :: cs =>
    match read (c :: cs) with
    | some (value, rest) =>
      if rest.length ≤ cs.length then
        let more := cs.length - rest.length
        hit value (c :: cs.take more) :: ofTextFrom read more cs
      else consGap c (ofTextFrom read 0 cs)
    | none => consGap c (ofTextFrom read 0 cs)

/-- The segments of a text: its leftmost occurrences and the gaps around them, in order. -/
def ofText (read : Recogniser α) (text : Text) : List (Segment α) := ofTextFrom read 0 text

/-- Each segment with the offset at which it starts, counted from `offset`. -/
def withOffsets (offset : Nat) : List (Segment α) → List (Nat × Segment α)
  | [] => []
  | segment :: rest => (offset, segment) :: withOffsets (offset + segment.text.length) rest

/-! ## Nothing is lost -/

@[simp] theorem flatMap_text_consGap (c : Char) (segments : List (Segment α)) :
    (consGap c segments).flatMap text = c :: segments.flatMap text := by
  cases segments with
  | nil => rfl
  | cons segment rest => cases segment <;> simp [consGap, text]

theorem flatMap_text_ofTextFrom (read : Recogniser α) (skip : Nat) (whole : Text) :
    (ofTextFrom read skip whole).flatMap text = whole.drop skip := by
  induction whole generalizing skip with
  | nil => simp [ofTextFrom]
  | cons c cs ih =>
    cases skip with
    | succ skip => simp [ofTextFrom, ih]
    | zero =>
      unfold ofTextFrom
      split
      · split
        · simp [text, ih]
        · simp [ih]
      · simp [ih]

/-- The segments of a text, one after another, are the text. -/
theorem flatMap_text_ofText (read : Recogniser α) (whole : Text) :
    (ofText read whole).flatMap text = whole := by
  simp [ofText, flatMap_text_ofTextFrom]

end Segment

namespace Text

variable {α : Type}

/-- The text with each leftmost occurrence replaced. -/
def replace (read : Recogniser α) (replacement : α → Text) (text : Text) : Text :=
  (Segment.ofText read text).flatMap fun
    | .gap text => text
    | .hit value _ => replacement value

/-- The leftmost occurrences in a text, in order. -/
def occurrences (read : Recogniser α) (text : Text) : List α :=
  (Segment.ofText read text).filterMap fun
    | .gap _ => none
    | .hit value _ => some value

/-- The leftmost occurrences in a text, in order, each with its offset. -/
def occurrencesWithOffsets (read : Recogniser α) (text : Text) : List (Nat × α) :=
  (Segment.withOffsets 0 (Segment.ofText read text)).filterMap fun
    | (_, .gap _) => none
    | (offset, .hit value _) => some (offset, value)

end Text

end FlowTemplate
