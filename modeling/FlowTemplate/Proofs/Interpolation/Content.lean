/-
Content as it is written: literal text without braces, and expressions between double braces. An expression
may hold braces of its own as long as the reader can tell its ends. The reader ends it at the first closing
brace, though, so content is compiled as it is meant if and only if no expression has one, and otherwise
double braces are left in it (`Content.compileContent_source_iff`).
-/
import FlowTemplate.Proofs.Interpolation.Seam
import FlowTemplate.Proofs.Template.Basic

namespace FlowTemplate.Interpolation

open Markup

namespace Content

/-! ## Runs -/

/-- An expression between double braces. It is trimmed, and it can be told from the braces around it. -/
structure Expression where
  before : Template.Blanks
  text : Text
  after : Template.Blanks
  ne_nil : text ≠ []
  trimmed : text.trim = text
  closed : ¬ closing <:+: text
  head : '{' ∉ text.head?
  last : '}' ∉ text.getLast?

/-- What stands between the double braces. -/
def Expression.inside (expression : Expression) : Text :=
  expression.before.text ++ (expression.text ++ expression.after.text)

/-- A part of content. -/
inductive Run where
  | literal (text : Text) (opens : '{' ∉ text) (closes : '}' ∉ text)
  | interpolated (expression : Expression)

namespace Run

def source : Run → Text
  | literal text _ _ => text
  | interpolated expression => opening ++ expression.inside ++ closing

/-- What a part is meant to become. -/
def shown : Run → Text
  | literal text _ _ => text
  | interpolated expression => contentSpan expression.text

end Run

/-! ## Reading an expression -/

namespace Expression

variable (expression : Expression)

theorem inside_ne_nil : expression.inside ≠ [] := by simp [inside, expression.ne_nil]

theorem mem_inside_iff {c : Char} (hc : isBlank c = false) : c ∈ expression.inside ↔ c ∈ expression.text := by
  simp [inside, expression.before.blank.not_mem hc, expression.after.blank.not_mem hc]

theorem head_inside : '{' ∉ expression.inside.head? := by
  rw [inside]
  cases hblanks : expression.before.text with
  | nil =>
    rw [List.nil_append, List.head?_append_of_ne_nil _ expression.ne_nil]
    exact expression.head
  | cons b blanks =>
    have hb := expression.before.blank b (hblanks ▸ List.mem_cons_self)
    rintro ⟨⟩
    revert hb
    decide

/-- An expression without a closing brace is read up to its end. -/
theorem compileContent_of_not_mem (h : '}' ∉ expression.text) (rest : Text) :
    compileContent (opening ++ expression.inside ++ closing ++ rest) =
      contentSpan expression.text ++ compileContent rest := by
  have htrim : expression.text = expression.inside.trim :=
    (Text.trim_pad expression.before.blank expression.after.blank expression.trimmed).symm
  have hfree : '}' ∉ expression.inside := mt (expression.mem_inside_iff (by decide)).1 h
  have hread : readExpression (opening ++ expression.inside ++ closing ++ rest) = some (expression.text, rest) :=
    readExpression_eq_some_iff.2 ⟨expression.inside, expression.inside_ne_nil, hfree, htrim, rfl⟩
  have hne : opening ++ expression.inside ++ closing ≠ [] := List.cons_ne_nil _ _
  rw [compileContent_eq_rewrite, compileContent_eq_rewrite, Segment.rewrite_hit hne hread]

theorem readExpression_of_mem (h : '}' ∈ expression.text) (rest : Text) :
    readExpression (opening ++ expression.inside ++ closing ++ rest) = none := by
  rw [Option.eq_none_iff_forall_not_mem]
  rintro ⟨found, left⟩ hread
  obtain ⟨inside, -, hinside, -, heq⟩ := readExpression_eq_some_iff.1 hread
  obtain ⟨front, back, htext, hfront⟩ := List.eq_append_cons_of_mem h
  have hfree : '}' ∉ expression.before.text ++ front :=
    List.not_mem_append (expression.before.blank.not_mem (by decide)) hfront
  have hwhole : opening ++ ((expression.before.text ++ front) ++
      '}' :: (back ++ (expression.after.text ++ closing ++ rest))) = opening ++ (inside ++ '}' :: ('}' :: left)) := by
    simpa [Expression.inside, htext, closing] using heq
  obtain ⟨-, hback⟩ := Text.first_unique hfree hinside (List.append_cancel_left hwhole)
  cases back with
  | nil => exact expression.last (by simp [htext])
  | cons c back =>
    obtain ⟨rfl, -⟩ := List.cons.inj hback
    exact expression.closed ⟨front, back, by simp [htext, closing]⟩

theorem compileContent_of_mem (h : '}' ∈ expression.text) (rest : Text) :
    ∃ back, compileContent (opening ++ expression.inside ++ closing ++ rest) = opening ++ back := by
  have hfirst := expression.readExpression_of_mem h rest
  have hsecond : readExpression ('{' :: (expression.inside ++ closing ++ rest)) = none := by
    rw [Option.eq_none_iff_forall_not_mem]
    rintro ⟨found, left⟩ hread
    obtain ⟨inside, -, -, -, heq⟩ := readExpression_eq_some_iff.1 hread
    have hhead : (expression.inside ++ closing ++ rest).head? = some '{' := by
      rw [(List.cons.inj heq).2]
      rfl
    rw [List.append_assoc, List.head?_append_of_ne_nil _ expression.inside_ne_nil] at hhead
    exact expression.head_inside hhead
  have htext : opening ++ expression.inside ++ closing ++ rest =
      '{' :: '{' :: (expression.inside ++ closing ++ rest) := rfl
  rw [htext] at hfirst ⊢
  rw [compileContent_eq_rewrite, Segment.rewrite_cons hfirst, Segment.rewrite_cons hsecond]
  exact ⟨_, rfl⟩

end Expression

/-! ## Content -/

theorem infix_contentSpan_append_iff {text rest : Text} :
    opening <:+: contentSpan text ++ rest ↔ opening <:+: text ∨ opening <:+: rest := by
  have hfront : '{' ∉ "<span [innerText]=\"".toList := by decide
  have hback : '{' ∉ "></span>".toList := by decide
  rw [contentSpan_eq, List.append_assoc, List.append_assoc, List.cons_append]
  generalize "<span [innerText]=\"".toList = front at hfront
  generalize "></span>".toList = back at hback
  constructor
  · intro hwithin
    have hbehind := (opening_infix_append_iff hfront).1 hwithin
    rcases Text.infix_append_cons hbehind with htext | hrest | ⟨before, after, hquote, -⟩
    · exact .inl htext
    · exact .inr ((opening_infix_append_iff hback).1 hrest)
    · have hmem : '"' ∈ opening := hquote ▸ List.mem_append_right before List.mem_cons_self
      exact absurd hmem (by decide)
  · rintro (htext | hrest)
    · exact htext.trans ⟨front, '"' :: (back ++ rest), by simp⟩
    · exact hrest.trans ⟨front ++ (text ++ '"' :: back), [], by simp⟩

/-- The expressions of content, in their order. -/
def expressions (runs : List Run) : List Expression :=
  runs.filterMap fun
    | .literal .. => none
    | .interpolated expression => some expression

/-- Content is compiled as it is meant if no expression has a closing brace, and only then. -/
theorem compileContent_eq_shown_iff (runs : List Run) :
    compileContent (runs.flatMap Run.source) = runs.flatMap Run.shown ↔
      ∀ expression ∈ expressions runs, '}' ∉ expression.text := by
  induction runs with
  | nil => exact iff_of_true rfl nofun
  | cons run runs ih =>
    rw [List.flatMap_cons, List.flatMap_cons]
    cases run with
    | literal text opens closes =>
      rw [Run.source, Run.shown, compileContent_append opens, List.append_cancel_left_eq]
      exact ih
    | interpolated expression =>
      rw [Run.source, Run.shown]
      change _ ↔ ∀ other ∈ expression :: expressions runs, '}' ∉ other.text
      rw [List.forall_mem_cons]
      by_cases hclose : '}' ∈ expression.text
      · obtain ⟨back, hback⟩ := expression.compileContent_of_mem hclose (runs.flatMap Run.source)
        refine iff_of_false (fun heq => ?_) fun h => h.1 hclose
        rw [hback] at heq
        exact absurd (List.cons.inj heq).1 (by decide)
      · rw [expression.compileContent_of_not_mem hclose, List.append_cancel_left_eq, ih]
        exact (and_iff_right hclose).symm

/-- Double braces are left where an expression has a closing brace or double braces of its own. -/
theorem infix_compileContent_iff (runs : List Run) :
    opening <:+: compileContent (runs.flatMap Run.source) ↔
      ∃ expression ∈ expressions runs, '}' ∈ expression.text ∨ opening <:+: expression.text := by
  induction runs with
  | nil => exact iff_of_false (by decide) nofun
  | cons run runs ih =>
    rw [List.flatMap_cons]
    cases run with
    | literal text opens closes =>
      rw [Run.source, compileContent_append opens, opening_infix_append_iff opens]
      exact ih
    | interpolated expression =>
      rw [Run.source]
      change _ ↔ ∃ other ∈ expression :: expressions runs, '}' ∈ other.text ∨ opening <:+: other.text
      rw [List.exists_mem_cons_iff]
      by_cases hclose : '}' ∈ expression.text
      · obtain ⟨back, hback⟩ := expression.compileContent_of_mem hclose (runs.flatMap Run.source)
        rw [hback]
        exact iff_of_true (List.prefix_append opening back).isInfix (.inl (.inl hclose))
      · rw [expression.compileContent_of_not_mem hclose, infix_contentSpan_append_iff, ih]
        exact or_congr_left (or_iff_right hclose).symm

/-- **Content is compiled as it is meant if and only if no expression has a closing brace.** No double braces
are left in it if and only if, besides, no expression has double braces of its own. -/
theorem compileContent_source_iff (runs : List Run) :
    (compileContent (runs.flatMap Run.source) = runs.flatMap Run.shown ↔
      ∀ expression ∈ expressions runs, '}' ∉ expression.text) ∧
    (¬ opening <:+: compileContent (runs.flatMap Run.source) ↔
      ∀ expression ∈ expressions runs, '}' ∉ expression.text ∧ ¬ opening <:+: expression.text) := by
  refine ⟨compileContent_eq_shown_iff runs, ?_⟩
  simp only [infix_compileContent_iff, not_exists, not_and, not_or]

/-- Two expressions in text. -/
def sample : List Run :=
  [.literal "a ".toList (by decide) (by decide),
    .interpolated
      { before := Template.Gap.space.toBlanks, text := "x.y".toList, after := Template.Gap.space.toBlanks
        ne_nil := by decide, trimmed := by decide, closed := by decide, head := by decide, last := by decide },
    .literal ", ".toList (by decide) (by decide),
    .interpolated
      { before := ⟨[], .nil⟩, text := "f(z)".toList, after := ⟨[], .nil⟩
        ne_nil := by decide, trimmed := by decide, closed := by decide, head := by decide, last := by decide }]

theorem compileContent_source_iff_sample :
    sample.flatMap Run.source = "a \x7b\x7b x.y \x7d\x7d, \x7b\x7bf(z)\x7d\x7d".toList ∧
      compileContent (sample.flatMap Run.source) =
        "a <span [innerText]=\"x.y\"></span>, <span [innerText]=\"f(z)\"></span>".toList ∧
      ¬ opening <:+: compileContent (sample.flatMap Run.source) := by
  have hshown : sample.flatMap Run.shown =
      "a <span [innerText]=\"x.y\"></span>, <span [innerText]=\"f(z)\"></span>".toList := by decide
  refine ⟨by decide, ?_, (compileContent_source_iff sample).2.2 (by decide)⟩
  exact ((compileContent_source_iff sample).1.2 (by decide)).trans hshown

/-- The braces of an object are taken for the end of the expression. -/
theorem not_compileContent_source : ∃ runs : List Run,
    runs.flatMap Run.source = "\x7b\x7b f(\x7ba: 1\x7d) \x7d\x7d".toList ∧
    runs.flatMap Run.shown = "<span [innerText]=\"f(\x7ba: 1\x7d)\"></span>".toList ∧
    compileContent (runs.flatMap Run.source) ≠ runs.flatMap Run.shown ∧
    opening <:+: compileContent (runs.flatMap Run.source) :=
  ⟨[.interpolated
    { before := ⟨[' '], by decide⟩, text := "f(\x7ba: 1\x7d)".toList, after := ⟨[' '], by decide⟩
      ne_nil := by decide, trimmed := by decide, closed := by decide, head := by decide, last := by decide }],
    by decide, by decide, by decide, by decide⟩

end Content

end FlowTemplate.Interpolation
