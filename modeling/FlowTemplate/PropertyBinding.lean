/-
Property bindings. Attribute names lose their letter case when a browser reads them, so the name of
a bound property is spelled in small letters, with a hyphen where a capital followed a small one.
-/
import FlowTemplate.Text.Case
import FlowTemplate.Text.Segment

namespace FlowTemplate.PropertyBinding

/-- The text with a hyphen between every small ASCII letter and a capital that follows it. -/
def hyphenate : Text → Text
  | [] => []
  | [c] => [c]
  | c :: d :: rest =>
    if c.isLower && d.isUpper then c :: '-' :: hyphenate (d :: rest) else c :: hyphenate (d :: rest)

/-- A name in camel case spelled in small letters and hyphens. -/
def kebab (name : Text) : Text := (hyphenate name).lower

/-- The name in `[name]="`, which must consist of ASCII letters and digits. -/
def readBinding : Recogniser Text := fun text => do
  match ← Text.after? ['['] text with
  | [] => none
  | c :: cs =>
    if c.isAlpha then do
      let rest ← Text.after? "]=\"".toList (cs.dropWhile Char.isAlphanum)
      some (c :: cs.takeWhile Char.isAlphanum, rest)
    else none

/-- A binding with its name spelled in small letters. -/
def spell (name : Text) : Text := ['['] ++ kebab name ++ "]=\"".toList

/-- Every property binding of a template with its name spelled in small letters. -/
def compile (template : Text) : Text := Text.replace readBinding spell template

end FlowTemplate.PropertyBinding
