/-
Spans: stretches of a text given by the offsets of their ends.
-/
import FlowTemplate.Text.Basic

namespace FlowTemplate

/-- The stretch of a text from offset `start` up to offset `stop`. -/
structure Span where
  start : Nat
  stop : Nat
  deriving DecidableEq, Repr

namespace Span

/-- The text in the span. -/
def text (span : Span) (whole : Text) : Text := whole.slice span.start span.stop

/-- The ends of the span without its first and last character. For a span that stops at the very
start of the text the inner end is one before it. -/
def innerEnds (span : Span) : Int × Int := (span.start + 1, (span.stop : Int) - 1)

/-- The text in the span without its first and last character. An inner end of minus one stands for
the offset one before the end of the text. -/
def innerText (span : Span) (whole : Text) : Text :=
  match span.stop with
  | 0 => whole.slice (span.start + 1) (whole.length - 1)
  | last + 1 => whole.slice (span.start + 1) last

end Span

end FlowTemplate
