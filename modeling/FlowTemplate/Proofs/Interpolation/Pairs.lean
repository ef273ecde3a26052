/-
An interpolated expression directly behind the opening brace of a block. Where the closing braces of a
text stand in pairs, the first of them come through the gathering of attributes as a pair, in what stays
of a tag or in its first binding. So the brace of the block and those of the expression are read as one
expression, and no brace is left where the block opened (`compile_brace_interpolated`).
-/
import FlowTemplate.Proofs.Interpolation.Seam

namespace FlowTemplate.Interpolation

open Markup

/-! ## Closing braces in pairs -/

/-- A text whose first closing brace is followed by another one. -/
def PairFirst (text : Text) : Prop := ∃ front back, text = front ++ closing ++ back ∧ '}' ∉ front

namespace PairFirst

theorem prepend {a text : Text} (ha : '}' ∉ a) (h : PairFirst text) : PairFirst (a ++ text) := by
  obtain ⟨front, back, rfl, hfree⟩ := h
  exact ⟨a ++ front, back, by simp only [List.append_assoc], List.not_mem_append ha hfree⟩

theorem append {text : Text} (h : PairFirst text) (b : Text) : PairFirst (text ++ b) := by
  obtain ⟨front, back, rfl, hfree⟩ := h
  exact ⟨front, back ++ b, by simp only [List.append_assoc], hfree⟩

/-- Characters can be replaced, as long as closing braces stay and none are made. -/
theorem flatMap {f : Char → Text} (hclose : f '}' = ['}']) (hother : ∀ c, '}' ∈ f c → c = '}')
    {text : Text} (h : PairFirst text) : PairFirst (text.flatMap f) := by
  obtain ⟨front, back, rfl, hfree⟩ := h
  refine ⟨front.flatMap f, back.flatMap f, ?_, fun hm => ?_⟩
  · simp only [List.flatMap_append, closing, List.flatMap_cons, hclose, List.flatMap_nil,
      List.append_nil, List.cons_append, List.nil_append]
  · obtain ⟨c, hc, hm⟩ := List.mem_flatMap.1 hm
    exact hfree (hother c hm ▸ hc)

end PairFirst

/-- A text in which closing braces stand in pairs. -/
inductive Paired : Text → Prop
  | nil : Paired []
  | cons {c : Char} {text : Text} : c ≠ '}' → Paired text → Paired (c :: text)
  | pair {text : Text} : Paired text → Paired ('}' :: '}' :: text)

namespace Paired

theorem of_free {text : Text} (h : '}' ∉ text) : Paired text := by
  induction text with
  | nil => exact .nil
  | cons c text ih =>
    simp only [List.mem_cons, not_or] at h
    exact .cons (Ne.symm h.1) (ih h.2)

theorem append {a b : Text} (ha : Paired a) (hb : Paired b) : Paired (a ++ b) := by
  induction ha with
  | nil => exact hb
  | cons hc _ ih => exact .cons hc ih
  | pair _ ih => exact .pair ih

theorem of_cons {c : Char} {text : Text} (hc : c ≠ '}') (h : Paired (c :: text)) : Paired text := by
  cases h with
  | cons _ h => exact h
  | pair => exact absurd rfl hc

theorem split {a b : Text} {c : Char} (hc : c ≠ '}') (h : Paired (a ++ c :: b)) :
    Paired a ∧ Paired b := by
  generalize htext : a ++ c :: b = text at h
  induction h generalizing a with
  | nil => simp at htext
  | cons hd h ih =>
    cases a with
    | nil =>
      obtain ⟨rfl, rfl⟩ := List.cons.inj htext
      exact ⟨.nil, h⟩
    | cons d a =>
      obtain ⟨rfl, hmore⟩ := List.cons.inj htext
      obtain ⟨ha, hb⟩ := ih hmore
      exact ⟨.cons hd ha, hb⟩
  | pair h ih =>
    cases a with
    | nil => exact absurd (List.cons.inj htext).1 hc
    | cons d a =>
      obtain ⟨rfl, hmore⟩ := List.cons.inj htext
      cases a with
      | nil => exact absurd (List.cons.inj hmore).1 hc
      | cons e a =>
        obtain ⟨rfl, hback⟩ := List.cons.inj hmore
        obtain ⟨ha, hb⟩ := ih hback
        exact ⟨.pair ha, hb⟩

theorem right {a b : Text} (ha : '}' ∉ a) (h : Paired (a ++ b)) : Paired b := by
  induction a with
  | nil => exact h
  | cons c a ih =>
    simp only [List.mem_cons, not_or] at ha
    exact ih ha.2 (h.of_cons (Ne.symm ha.1))

theorem left {a b : Text} (hb : '}' ∉ b) (h : Paired (a ++ b)) : Paired a := by
  cases b with
  | nil => rwa [List.append_nil] at h
  | cons c b =>
    simp only [List.mem_cons, not_or] at hb
    exact (h.split (Ne.symm hb.1)).1

theorem first {text : Text} (h : Paired text) (hm : '}' ∈ text) : PairFirst text := by
  induction h with
  | nil => cases hm
  | @cons c text hc _ ih =>
    have hfree : '}' ∉ [c] := fun hc' => hc (List.mem_singleton.1 hc').symm
    exact (ih ((List.mem_cons.1 hm).resolve_left (Ne.symm hc))).prepend hfree
  | @pair text => exact ⟨[], text, rfl, List.not_mem_nil⟩

theorem last {text : Text} (h : Paired text) (hlast : text.getLast? = some '}') :
    ∃ front, text = front ++ closing := by
  induction h with
  | nil => cases hlast
  | @cons c text hc _ ih =>
    cases text with
    | nil => exact absurd (Option.some.inj hlast) hc
    | cons d text =>
      obtain ⟨front, heq⟩ := ih (by rwa [List.getLast?_cons_cons] at hlast)
      exact ⟨c :: front, congrArg (List.cons c) heq⟩
  | @pair text _ ih =>
    cases text with
    | nil => exact ⟨[], rfl⟩
    | cons d text =>
      obtain ⟨front, heq⟩ := ih (by rwa [List.getLast?_cons_cons, List.getLast?_cons_cons] at hlast)
      exact ⟨'}' :: '}' :: front, congrArg (fun text => '}' :: '}' :: text) heq⟩

theorem trim {text : Text} (h : Paired text) : Paired (Text.trim text) := by
  obtain ⟨before, after, hbefore, hafter, htext⟩ := Text.exists_blanks_trim text
  rw [htext] at h
  exact (h.right (hbefore.not_mem (by decide))).left (hafter.not_mem (by decide))

end Paired

/-! ## The first pair in a tag -/

/-- The text of an attribute up to its value, and the value between quotes. -/
theorem readAttribute_shape {w rest name value : Text}
    (h : readAttribute (w ++ rest) = some ((name, value), rest)) :
    ∃ front, w = front ++ value ++ ['"'] ∧ '}' ∉ front ∧ '}' ∉ name ∧ '{' ∈ value ∧ '}' ∈ value := by
  obtain ⟨before, after, htext, hne, hname, hbefore, hafter, -, hbraces⟩ := readAttribute_eq_some h
  have hfree : '}' ∉ name ++ before ++ ['='] ++ after ++ ['"'] :=
    List.not_mem_append (List.not_mem_append (List.not_mem_append (List.not_mem_append
      (hname.not_mem (by decide)) (hbefore.not_mem (by decide))) (by decide))
      (hafter.not_mem (by decide))) (by decide)
  refine ⟨name ++ before ++ ['='] ++ after ++ ['"'], List.append_cancel_right (htext.trans ?_), hfree,
    hname.not_mem (by decide), mem_of_hasBraces hbraces⟩
  simp

theorem gathered_cons {c : Char} {cs : Text} (h : readAttribute (c :: cs) = none) :
    gathered (c :: cs) = gathered cs := by
  rw [gathered, Segment.ofText_cons h, gathered]
  cases Segment.ofText readAttribute cs with
  | nil => rfl
  | cons segment rest => cases segment <;> rfl

theorem gathered_hit {pair : Text × Text} {w rest : Text} (hw : w ≠ [])
    (h : readAttribute (w ++ rest) = some (pair, rest)) :
    gathered (w ++ rest) = (takeBinding (.hit pair w)).2 ++ gathered rest := by
  rw [gathered, Segment.ofText_hit hw h]
  rfl

theorem gathered_of_no_brace {attributes : Text} (h : '}' ∉ attributes) : gathered attributes = [] := by
  rw [List.eq_nil_iff_forall_not_mem]
  intro binding hmem
  obtain ⟨value, front, w, rest, rfl, hread, -⟩ := of_mem_gathered hmem
  obtain ⟨start, rfl, -, -, -, hvalue⟩ := readAttribute_shape hread
  exact h (by simp [hvalue])

theorem readAttribute_brace (rest : Text) : readAttribute ('}' :: rest) = none := by
  rw [Option.eq_none_iff_forall_not_mem]
  rintro ⟨⟨name, value⟩, back⟩ h
  obtain ⟨before, after, htext, hne, hname, -⟩ := readAttribute_eq_some h
  obtain ⟨c, more, rfl⟩ := List.exists_cons_of_ne_nil hne
  have hc := hname c List.mem_cons_self
  rw [← (List.cons.inj htext).1] at hc
  revert hc
  decide

theorem remaining_paired {attributes : Text} (h : Paired attributes) : Paired (remaining attributes) := by
  have key : ∀ text, (Paired text → Paired (remaining text)) ∧
      (Paired ('}' :: text) → Paired ('}' :: remaining text)) := by
    intro text
    unfold remaining
    induction text using Segment.reading readAttribute_consumes with
    | nil => exact ⟨id, id⟩
    | gap c cs hnone ih =>
      rw [Segment.rewrite_cons hnone]
      refine ⟨fun h => ?_, fun h => ?_⟩
      · by_cases hc : c = '}'
        · subst hc
          exact ih.2 h
        · exact .cons hc (ih.1 (h.of_cons hc))
      · cases h with
        | cons hne => exact absurd rfl hne
        | pair h => exact .pair (ih.1 h)
    | hit pair w rest hw hsome ih =>
      obtain ⟨front, hshape, -⟩ := readAttribute_shape hsome
      rw [Segment.rewrite_hit hw hsome]
      refine ⟨fun h => ?_, fun h => ?_⟩
      · rw [hshape, List.append_assoc] at h
        obtain ⟨hfront, hrest⟩ := h.split (by decide)
        refine Paired.append ?_ (ih.1 hrest)
        unfold leave
        split
        · exact .nil
        · rw [hshape]
          exact hfront.append (.of_free (by decide))
      · obtain ⟨c, more, rfl⟩ := List.exists_cons_of_ne_nil hw
        cases h with
        | cons hne => exact absurd rfl hne
        | pair =>
          rw [List.cons_append, readAttribute_brace] at hsome
          cases hsome
  exact (key attributes).1 h

/-- Text without an opening brace begins the concatenation for a value that it begins. -/
theorem concatenation_append {front : Text} (h : '{' ∉ front) (hne : front ≠ []) (rest : Text) :
    ∃ back, concatenation (front ++ rest) = '\'' :: front ++ back := by
  obtain ⟨more, segments, heq⟩ :=
    Segment.ofText_append_of_not_mem readExpression_beginsWith h hne rest
  rw [concatenation, heq, List.map_cons, Text.joinWith_cons, operand]
  exact ⟨more ++ ['\''] ++ (segments.map operand).flatMap (" + ".toList ++ ·), by
    simp only [List.append_assoc, List.cons_append, List.nil_append]⟩

/-- The first closing braces of a value come through its concatenation as a pair. -/
theorem concatenation_pairFirst {inside : Text} (hopen : '{' ∉ inside) (hclose : '}' ∉ inside) (more : Text) :
    PairFirst (concatenation (inside ++ '}' :: '}' :: more)) := by
  have hfree : '{' ∉ inside ++ closing := List.not_mem_append hopen (by decide)
  obtain ⟨last, hlast⟩ := concatenation_append hfree (by simp [closing]) more
  have hvalue : inside ++ '}' :: '}' :: more = inside ++ closing ++ more := by simp [closing]
  rw [hvalue, hlast]
  exact ⟨'\'' :: inside, last, by simp only [List.append_assoc, List.cons_append],
    List.not_mem_cons_of_ne_of_not_mem (by decide) hclose⟩

/-- The first closing braces of the attributes come as a pair in what stays of them, or in the first
binding they are gathered into. -/
theorem pairFirst_of_attributes {attributes front back : Text}
    (htext : attributes = front ++ closing ++ back) (hopen : '{' ∉ front) (hclose : '}' ∉ front) :
    PairFirst (remaining attributes) ∨
      ∃ binding more, gathered attributes = binding :: more ∧ '}' ∉ binding.name ∧
        PairFirst binding.expression := by
  induction attributes using Segment.reading readAttribute_consumes generalizing front with
  | nil => simp [closing] at htext
  | gap c cs hnone ih =>
    have hstays : remaining (c :: cs) = c :: remaining cs := Segment.rewrite_cons hnone
    rw [hstays, gathered_cons hnone]
    cases front with
    | nil =>
      obtain ⟨rfl, rfl⟩ := List.cons.inj htext
      have hnext : remaining ('}' :: back) = '}' :: remaining back :=
        Segment.rewrite_cons (readAttribute_brace back)
      exact .inl ⟨[], remaining back, congrArg (List.cons '}') hnext, List.not_mem_nil⟩
    | cons d front =>
      obtain ⟨rfl, hmore⟩ := List.cons.inj htext
      simp only [List.mem_cons, not_or] at hopen hclose
      refine (ih hmore hopen.2 hclose.2).imp_left fun hstays => ?_
      exact hstays.prepend fun hc => hclose.1 (List.mem_singleton.1 hc)
  | hit pair w rest hw hsome ih =>
    obtain ⟨name, value⟩ := pair
    obtain ⟨start, rfl, hstart, hname, -, hvalue⟩ := readAttribute_shape hsome
    obtain ⟨inside, more, rfl, hinside⟩ := List.eq_append_cons_of_mem hvalue
    -- The first closing brace stands in the value, and another one follows it there.
    obtain ⟨rfl, hmore⟩ : start ++ inside = front ∧ more ++ ('"' :: rest) = '}' :: back :=
      Text.first_unique (List.not_mem_append hstart hinside) hclose (by simpa [closing] using htext)
    cases more with
    | nil => simp at hmore
    | cons d more =>
      obtain ⟨rfl, -⟩ := List.cons.inj hmore
      have hpair : PairFirst (inside ++ '}' :: '}' :: more) :=
        ⟨inside, more, by simp [closing], hinside⟩
      by_cases hexpression : hasExpression (inside ++ '}' :: '}' :: more)
      · have hconcatenation := concatenation_pairFirst (fun hm => hopen (List.mem_append_right _ hm)) hinside more
        refine .inr ⟨⟨name, concatenation (inside ++ '}' :: '}' :: more)⟩, gathered rest, ?_, hname,
          hconcatenation⟩
        rw [gathered_hit hw hsome]
        simp only [takeBinding, if_pos hexpression, List.singleton_append]
      · have hstays : remaining (start ++ (inside ++ '}' :: '}' :: more) ++ ['"'] ++ rest) =
            start ++ (inside ++ '}' :: '}' :: more) ++ ['"'] ++ remaining rest := by
          rw [remaining, Segment.rewrite_hit hw hsome, leave, if_neg hexpression]
          rfl
        rw [hstays]
        exact .inl (((hpair.prepend hstart).append _).append _)

namespace Binding

theorem mem_referQuote {c d : Char} (h : d ∈ referQuote c) : d = c ∨ d ∈ "&apos;".toList := by
  unfold referQuote at h
  split at h
  · exact .inr h
  · exact .inl (List.mem_singleton.1 h)

theorem encode_pairFirst {binding : Binding} (more : List Binding) (hname : '}' ∉ binding.name)
    (h : PairFirst binding.expression) : PairFirst (encode (binding :: more)) := by
  have hchar : ∀ c, '}' ∈ jsonChar c → c = '}' := fun c hm =>
    ((mem_jsonChar hm).resolve_right (by decide)).symm
  have hquote : ∀ c, '}' ∈ referQuote c → c = '}' := fun c hm =>
    ((mem_referQuote hm).resolve_right (by decide)).symm
  have hstring : '}' ∉ jsonString binding.name := not_mem_jsonString (by decide) hname
  have hexpression : PairFirst (jsonString binding.expression) :=
    ((h.flatMap rfl hchar).prepend (by decide)).append _
  have hfront : '}' ∉ ['{'] ++ jsonString "attr".toList ++ [':'] ++ jsonString binding.name ++ [',']
      ++ jsonString "expr".toList ++ [':'] :=
    List.not_mem_append (List.not_mem_append (List.not_mem_append
      (List.not_mem_append (by decide) hstring) (by decide)) (by decide)) (by decide)
  have hjson : PairFirst binding.json := (hexpression.prepend hfront).append _
  rw [encode, List.map_cons, Text.joinWith_cons]
  exact (((hjson.append _).prepend (by decide)).append _).flatMap rfl hquote

end Binding

/-! ## The first pair in a text -/

/-- The first closing braces of a tag come through as a pair. -/
theorem compileTag_pairFirst {name attributes front back : Text} (hname : Continues name)
    (htext : attributes = front ++ closing ++ back) (hopen : '{' ∉ front) (hclose : '}' ∉ front)
    (hback : Paired back) :
    PairFirst (compileTag ('<' :: (name ++ attributes) ++ ['>']) name attributes) := by
  have hnamed : '}' ∉ '<' :: name :=
    List.not_mem_cons_of_ne_of_not_mem (by decide) (hname.not_mem (by decide))
  rw [compileTag_eq]
  split
  · have hpair : PairFirst attributes := ⟨front, back, htext, hclose⟩
    exact (hpair.prepend hnamed).append ['>']
  have hpairs : Paired attributes := by
    rw [htext]
    exact ((Paired.of_free hclose).append (.pair .nil)).append hback
  have hstays := (remaining_paired hpairs).trim
  have hnone : '}' ∉ ['<'] ++ name := hnamed
  simp only [List.append_assoc]
  rw [← List.append_assoc]
  refine PairFirst.prepend hnone ?_
  by_cases hm : '}' ∈ Text.trim (remaining attributes)
  · have hsome : ¬ (Text.trim (remaining attributes)).isEmpty := fun hempty => by
      rw [List.isEmpty_iff.1 hempty] at hm
      cases hm
    rw [if_neg hsome]
    exact ((hstays.first hm).prepend (by decide : '}' ∉ [' '])).append _
  · have hremaining : '}' ∉ remaining attributes := by
      obtain ⟨before, after, hbefore, hafter, heq⟩ := Text.exists_blanks_trim (remaining attributes)
      rw [heq]
      exact List.not_mem_append (hbefore.not_mem (by decide))
        (List.not_mem_append hm (hafter.not_mem (by decide)))
    rcases pairFirst_of_attributes htext hopen hclose with ⟨u, v, hu, -⟩ | ⟨binding, more, heq, hb, hpair⟩
    · refine absurd ?_ hremaining
      rw [hu]
      simp [closing]
    · rw [heq]
      have hencode := Binding.encode_pairFirst more hb hpair
      exact (((((hencode.append _).prepend (by decide)).prepend (by decide)).prepend (by decide)).prepend
        (not_mem_kept (by decide) hm))

/-- The first closing braces of a text come through the gathering of attributes as a pair. -/
theorem compileAttributes_pairFirst {text front back : Text} (htext : text = front ++ closing ++ back)
    (hopen : '{' ∉ front) (hclose : '}' ∉ front) (hback : Paired back) :
    PairFirst (compileAttributes text) := by
  rw [compileAttributes_eq_rewrite]
  induction text using Segment.reading readTag_consumes generalizing front with
  | nil => simp [closing] at htext
  | gap c cs hnone ih =>
    rw [Segment.rewrite_cons hnone]
    cases front with
    | nil =>
      obtain ⟨rfl, rfl⟩ := List.cons.inj htext
      have hbrace : readTag ('}' :: back) = none :=
        readTag_beginsWith.none fun hhead => absurd (Option.some.inj hhead) (by decide)
      exact ⟨[], _, congrArg (List.cons '}') (Segment.rewrite_cons hbrace), List.not_mem_nil⟩
    | cons d front =>
      obtain ⟨rfl, hmore⟩ := List.cons.inj htext
      simp only [List.mem_cons, not_or] at hopen hclose
      exact (ih hmore hopen.2 hclose.2).prepend (a := [c]) fun hc => hclose.1 (List.mem_singleton.1 hc)
  | hit tag w rest hw hsome ih =>
    obtain ⟨name, attributes⟩ := tag
    obtain ⟨rfl, hname⟩ := readTag_shape hsome
    have hstart : '}' ∉ '<' :: name :=
      List.not_mem_cons_of_ne_of_not_mem (by decide) (hname.not_mem (by decide))
    rw [Segment.rewrite_hit hw hsome]
    by_cases hm : '}' ∈ attributes
    · obtain ⟨inside, more, rfl, hinside⟩ := List.eq_append_cons_of_mem hm
      obtain ⟨rfl, hmore⟩ : '<' :: name ++ inside = front ∧ more ++ '>' :: rest = '}' :: back :=
        Text.first_unique (List.not_mem_append hstart hinside) hclose (by simpa [closing] using htext)
      cases more with
      | nil => simp at hmore
      | cons d more =>
        obtain ⟨rfl, rfl⟩ := List.cons.inj hmore
        have hfree : '{' ∉ inside := fun hm => hopen (List.mem_append_right _ hm)
        have hpairs : Paired more := (Paired.split (by decide) hback).1
        exact (compileTag_pairFirst hname (by simp [closing]) hfree hinside hpairs).append _
    · have hwhole : '}' ∉ '<' :: (name ++ attributes) ++ ['>'] :=
        List.not_mem_append (List.not_mem_append hstart hm) (by decide)
      have htag : compileTag ('<' :: (name ++ attributes) ++ ['>']) name attributes =
          '<' :: (name ++ attributes) ++ ['>'] := by
        rw [compileTag_eq, gathered_of_no_brace hm]
        rfl
      have hrest : '}' ∈ rest := by
        have hboth : '}' ∈ '<' :: (name ++ attributes) ++ ['>'] ++ rest := by
          rw [htext]
          simp [closing]
        exact (List.mem_append.1 hboth).resolve_left hwhole
      obtain ⟨inside, more, rfl, hinside⟩ := List.eq_append_cons_of_mem hrest
      obtain ⟨rfl, rfl⟩ : '<' :: (name ++ attributes) ++ ['>'] ++ inside = front ∧ more = '}' :: back :=
        Text.first_unique (List.not_mem_append hwhole hinside) hclose (by simpa [closing] using htext)
      have hfree : '{' ∉ inside := fun hm => hopen (List.mem_append_right _ hm)
      rw [htag]
      exact (ih (by simp [closing]) hfree hinside).prepend hwhole

/-- **A block's brace before an interpolated expression is lost.** The expression takes it in, and the
element that shows the expression stands where the block opened. -/
theorem compile_brace_interpolated {inside back : Text} (hopen : '{' ∉ inside) (hclose : '}' ∉ inside)
    (hback : Paired back) :
    (compile ('{' :: (opening ++ inside ++ closing ++ back))).head? = some '<' := by
  have hangle : '<' ∉ '{' :: opening := by decide
  have hfront : '{' :: (opening ++ inside ++ closing ++ back) =
      ('{' :: opening) ++ (inside ++ closing ++ back) := by
    simp only [List.append_assoc, List.cons_append]
  obtain ⟨front, more, heq, hfree⟩ := compileAttributes_pairFirst rfl hopen hclose hback
  have hread : readExpression (('{' :: opening) ++ (front ++ closing ++ more)) =
      some (Text.trim ('{' :: front), more) := by
    have hbrace : '}' ∉ '{' :: front := List.not_mem_cons_of_ne_of_not_mem (by decide) hfree
    exact readExpression_eq_some_iff.2
      ⟨'{' :: front, List.cons_ne_nil _ _, hbrace, rfl, by simp [opening]⟩
  rw [compile, hfront, compileAttributes_append hangle, heq, compileContent_eq_rewrite]
  have hshape : ('{' :: opening) ++ (front ++ closing ++ more) =
      ('{' :: opening ++ (front ++ closing)) ++ more := by
    simp only [List.append_assoc]
  have hne : '{' :: opening ++ (front ++ closing) ≠ [] := List.cons_ne_nil _ _
  rw [hshape] at hread ⊢
  rw [Segment.rewrite_hit hne hread]
  rfl

end FlowTemplate.Interpolation
