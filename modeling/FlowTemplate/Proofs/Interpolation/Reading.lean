/-
What the recognisers of interpolation take up: a tag, an attribute whose value has braces in pairs,
and an expression between two pairs of braces. A closing brace behind a text completes none of them
that the text does not have.
-/
import FlowTemplate.Interpolation.Tag
import FlowTemplate.Proofs.Markup
import FlowTemplate.Proofs.Segment

namespace FlowTemplate.Interpolation

open Markup

/-! ## Tags -/

theorem readTag_eq_some {text name attributes rest : Text}
    (h : readTag text = some ((name, attributes), rest)) :
    text = '<' :: (name ++ attributes) ++ '>' :: rest ∧ Continues name := by
  simp only [readTag, Option.bind_eq_bind, Option.bind_eq_some_iff] at h
  obtain ⟨inside, hafter, ⟨read, left⟩, hname, h⟩ := h
  obtain ⟨-, hcontinues, rfl⟩ := readName?_eq_some hname
  obtain rfl := Text.after?_eq_some_iff.1 hafter
  cases left with
  | nil => cases h
  | cons c left =>
    by_cases hc : c = '>'
    · subst hc
      cases h
      exact ⟨by simp, hcontinues⟩
    · simp only at h
      split at h
      · simp only [Option.bind_eq_some_iff] at h
        obtain ⟨⟨inside, back⟩, huntil, h⟩ := h
        cases h
        obtain ⟨heq, -⟩ := readUntil?_eq_some_iff.1 huntil
        exact ⟨by rw [heq]; simp, hcontinues⟩
      · cases h

/-- A name and what stands behind it up to the first closing angle are read as a tag. -/
theorem readTag_of_name {name attributes : Text} (hname : IsName name)
    (hblank : ∀ c ∈ attributes.head?, isBlank c = true) (hangle : '>' ∉ attributes) (rest : Text) :
    readTag ('<' :: (name ++ (attributes ++ '>' :: rest))) = some ((name, attributes), rest) := by
  have hopen : Text.after? ['<'] ('<' :: (name ++ (attributes ++ '>' :: rest))) =
      some (name ++ (attributes ++ '>' :: rest)) := Text.after?_append ['<'] _
  rw [readTag, hopen]
  cases attributes with
  | nil =>
    have hread : readName? (name ++ '>' :: rest) = some (name, '>' :: rest) :=
      hname.readName? fun c hc => by
        obtain rfl := Option.some.inj hc
        decide
    simp only [Option.bind_eq_bind, Option.bind_some, List.nil_append, hread]
  | cons c cs =>
    have hc : isBlank c = true := hblank c rfl
    have hne : c ≠ '>' := fun heq => hangle (heq ▸ List.mem_cons_self)
    have hread : readName? (name ++ c :: (cs ++ '>' :: rest)) = some (name, c :: (cs ++ '>' :: rest)) :=
      hname.readName? fun d hd => by
        obtain rfl := Option.some.inj hd
        exact continuesName_of_isBlank hc
    have huntil : readUntil? '>' (c :: cs ++ '>' :: rest) = some (c :: cs, rest) :=
      readUntil?_eq_some_iff.2 ⟨rfl, hangle⟩
    simp only [Option.bind_eq_bind, Option.bind_some, List.cons_append, hread] at huntil ⊢
    rw [if_pos hc, huntil]
    rfl

theorem readTag_shape {w rest : Text} {tag : Text × Text} (h : readTag (w ++ rest) = some (tag, rest)) :
    w = '<' :: (tag.1 ++ tag.2) ++ ['>'] ∧ Continues tag.1 := by
  obtain ⟨htext, hname⟩ := readTag_eq_some h
  refine ⟨List.append_cancel_right (htext.trans ?_), hname⟩
  simp only [List.append_assoc, List.cons_append, List.nil_append]

theorem readTag_beginsWith : readTag.BeginsWith '<' := by
  rintro text ⟨name, attributes⟩ rest h
  rw [(readTag_eq_some h).1]
  rfl

theorem readTag_consumes : readTag.Consumes := by
  rintro text ⟨name, attributes⟩ rest h
  refine ⟨'<' :: (name ++ attributes) ++ ['>'], List.cons_ne_nil _ _, ?_⟩
  rw [(readTag_eq_some h).1]
  simp

/-- What follows a text does not change the tag in it, if it does not change where the attributes end. -/
theorem readTag_append_of_readUntil? {c : Char} {rest text : Text}
    (hname : Markup.continuesName c = false) (hblank : isBlank c = false) (hclose : c ≠ '>') (hne : text ≠ [])
    (huntil : ∀ inside name d left, text = '<' :: inside → readName? inside = some (name, d :: left) →
      isBlank d = true → readUntil? '>' (d :: left ++ c :: rest) =
        (readUntil? '>' (d :: left)).map fun (attributes, back) => (attributes, back ++ c :: rest)) :
    readTag (text ++ c :: rest) =
      (readTag text).map fun (tag, left) => (tag, left ++ c :: rest) := by
  obtain ⟨d, text, rfl⟩ := List.exists_cons_of_ne_nil hne
  by_cases hd : d = '<'
  · subst hd
    have hafter : ∀ back, Text.after? ['<'] ('<' :: back) = some back := fun _ => rfl
    simp only [readTag, List.cons_append, hafter, Option.bind_eq_bind, Option.bind_some,
      readName?_append_cons hname]
    cases hread : readName? text with
    | none => rfl
    | some found =>
      obtain ⟨name, left⟩ := found
      simp only [Option.map_some, Option.bind_some]
      cases left with
      | nil => simp [hblank]
      | cons e left =>
        by_cases he : e = '>'
        · subst he
          rfl
        · simp only [List.cons_append]
          split
          next hblank =>
            have huntil := huntil text name e left rfl hread hblank
            rw [List.cons_append] at huntil
            rw [huntil]
            cases readUntil? '>' (e :: left) <;> rfl
          next => rfl
  · have hnone : ∀ back, readTag (d :: back) = none := fun back =>
      readTag_beginsWith.none fun heq => hd (Option.some.inj heq)
    rw [List.cons_append, hnone, hnone]
    rfl

/-- What follows a text does not complete a tag in it, if no angle closes there. -/
theorem readTag_append {c : Char} (hname : Markup.continuesName c = false) (hblank : isBlank c = false)
    {rest : Text} (h : '>' ∉ c :: rest) {text : Text} (hne : text ≠ []) :
    readTag (text ++ c :: rest) =
      (readTag text).map fun (tag, left) => (tag, left ++ c :: rest) :=
  readTag_append_of_readUntil? hname hblank (fun hc => h (hc ▸ List.mem_cons_self)) hne
    fun _ _ d left _ _ _ => readUntil?_append h (d :: left)

/-! ## Expressions -/

/-- An expression goes up to the first closing brace, and another one follows. -/
theorem readExpression_eq_some_iff {text expression rest : Text} :
    readExpression text = some (expression, rest) ↔
      ∃ inside, inside ≠ [] ∧ '}' ∉ inside ∧ expression = Text.trim inside ∧
        text = opening ++ inside ++ closing ++ rest := by
  simp only [readExpression, Option.bind_eq_bind, Option.bind_eq_some_iff]
  constructor
  · rintro ⟨behind, hafter, ⟨inside, left⟩, huntil, h⟩
    obtain ⟨rfl, hfree⟩ := readUntil?_eq_some_iff.1 huntil
    obtain rfl := Text.after?_eq_some_iff.1 hafter
    simp only at h
    split at h
    · cases h
    next hne =>
      split at h
      · cases h
        refine ⟨inside, fun hnil => hne (List.isEmpty_iff.2 hnil), hfree, rfl, ?_⟩
        simp [closing]
      · cases h
  · rintro ⟨inside, hne, hfree, rfl, rfl⟩
    refine ⟨inside ++ closing ++ rest, ?_, (inside, '}' :: rest), ?_, ?_⟩
    · rw [List.append_assoc, List.append_assoc, Text.after?_append, List.append_assoc]
    · exact readUntil?_eq_some_iff.2 ⟨by simp [closing], hfree⟩
    · simp [hne]

/-- The text of an interpolated expression, where what is left is known. -/
theorem readExpression_shape {w rest expression : Text}
    (h : readExpression (w ++ rest) = some (expression, rest)) :
    ∃ inside, inside ≠ [] ∧ '}' ∉ inside ∧ expression = Text.trim inside ∧
      w = opening ++ inside ++ closing := by
  obtain ⟨inside, hne, hfree, hexpression, htext⟩ := readExpression_eq_some_iff.1 h
  exact ⟨inside, hne, hfree, hexpression, List.append_cancel_right htext⟩

theorem readExpression_beginsWith : readExpression.BeginsWith '{' := by
  intro text expression rest h
  obtain ⟨inside, -, -, -, rfl⟩ := readExpression_eq_some_iff.1 h
  rfl

theorem readExpression_consumes : readExpression.Consumes := by
  intro text expression rest h
  obtain ⟨inside, -, -, -, rfl⟩ := readExpression_eq_some_iff.1 h
  exact ⟨opening ++ inside ++ closing, List.cons_ne_nil _ _, rfl⟩

theorem opening_infix_append_iff {front rest : Text} (hfront : '{' ∉ front) :
    opening <:+: front ++ rest ↔ opening <:+: rest := by
  constructor
  · exact Text.infix_of_append (by decide) fun d hd => Option.some.inj hd ▸ hfront
  · exact fun hwithin => hwithin.trans (List.suffix_append front rest).isInfix

/-! ## Attributes -/

theorem mem_of_hasBraces {value : Text} (h : hasBraces value = true) :
    '{' ∈ value ∧ '}' ∈ value := by
  rw [hasBraces, Option.isSome_iff_exists] at h
  obtain ⟨⟨before, rest⟩, h⟩ := h
  obtain ⟨⟨front, behind⟩, hopen, hclose⟩ := Option.bind_eq_some_iff.1 h
  obtain ⟨back, rfl, hback⟩ := readUpTo?_eq_some hopen
  obtain rfl := Text.after?_eq_some_iff.1 hback
  obtain ⟨more, rfl, hmore⟩ := readUpTo?_eq_some hclose
  obtain rfl := Text.after?_eq_some_iff.1 hmore
  exact ⟨by simp [opening], by simp [closing]⟩

theorem opening_infix_of_hasBraces {value : Text} (h : hasBraces value = true) : opening <:+: value := by
  rw [hasBraces, Option.isSome_iff_exists] at h
  obtain ⟨found, hfound⟩ := h
  obtain ⟨⟨before, rest⟩, hopen, -⟩ := Option.bind_eq_some_iff.1 hfound
  obtain ⟨back, rfl, hback⟩ := readUpTo?_eq_some hopen
  exact ⟨before, rest, by rw [Text.after?_eq_some_iff.1 hback, List.append_assoc]⟩

theorem hasBraces_of_hasExpression {value : Text} (h : hasExpression value = true) : hasBraces value = true := by
  obtain ⟨expression, hoccurs⟩ : ∃ expression, expression ∈ Text.occurrences readExpression value := by
    rw [hasExpression, Bool.not_eq_true', List.isEmpty_eq_false_iff] at h
    exact List.exists_mem_of_ne_nil _ h
  obtain ⟨segment, hsegment, hvalue⟩ := List.mem_filterMap.1 hoccurs
  cases segment with
  | gap gap => cases hvalue
  | hit found w =>
    obtain ⟨front, rest, rfl, hread⟩ := Segment.of_hit_mem readExpression_consumes hsegment
    obtain ⟨inside, -, -, -, rfl⟩ := readExpression_shape hread
    have hopen : front ++ (opening ++ inside ++ closing ++ rest) =
        front ++ (opening ++ (inside ++ (closing ++ rest))) := by simp only [List.append_assoc]
    obtain ⟨before, behind, hfirst, more, rfl⟩ :=
      readUpTo?_of_append (by decide : opening ≠ []) front (inside ++ (closing ++ rest))
    obtain ⟨between, last, hsecond, -⟩ :=
      readUpTo?_of_append (by decide : closing ≠ []) (more ++ inside) rest
    rw [List.append_assoc] at hsecond
    simp only [hasBraces, hopen, hfirst, Option.bind_some, hsecond, Option.isSome_some]

theorem segments_of_not_hasExpression {value : Text} (h : hasExpression value = false) :
    Segment.ofText readExpression value = if value = [] then [] else [.gap value] := by
  have hnone : ∀ expression w, .hit expression w ∉ Segment.ofText readExpression value := by
    rw [hasExpression, Bool.not_eq_false', List.isEmpty_iff] at h
    intro expression w hm
    have hoccurs : expression ∈ Text.occurrences readExpression value := List.mem_filterMap.2 ⟨_, hm, rfl⟩
    rw [h] at hoccurs
    exact List.not_mem_nil hoccurs
  clear h
  induction value using Segment.reading readExpression_consumes with
  | nil => rfl
  | gap c cs hread ih =>
    rw [Segment.ofText_cons hread] at hnone ⊢
    rw [ih fun expression w hm => hnone expression w (Segment.hit_mem_consGap.2 hm)]
    by_cases hcs : cs = []
    · subst hcs
      rfl
    · rw [if_neg hcs]
      rfl
  | hit expression w rest hw hread ih =>
    rw [Segment.ofText_hit hw hread] at hnone
    exact absurd List.mem_cons_self (hnone expression w)

/-- An attribute is a name, an equals sign and a value in double quotes, with blanks around the sign. -/
theorem readAttribute_eq_some {text name value rest : Text}
    (h : readAttribute text = some ((name, value), rest)) :
    ∃ before after : Text, text = name ++ (before ++ '=' :: (after ++ '"' :: (value ++ '"' :: rest))) ∧
      name ≠ [] ∧ Continues name ∧ before.Blank ∧ after.Blank ∧ '"' ∉ value ∧
      hasBraces value = true := by
  simp only [readAttribute, Option.bind_eq_bind, Option.bind_eq_some_iff] at h
  obtain ⟨⟨read, left⟩, hname, sign, hsign, quote, hquote, ⟨inside, back⟩, huntil, h⟩ := h
  obtain ⟨hne, hcontinues, rfl⟩ := readName?_eq_some hname
  obtain ⟨heq, hfree⟩ := readUntil?_eq_some_iff.1 huntil
  obtain ⟨before, hbefore, hleft⟩ := Text.exists_blank_append_trimStart left
  obtain ⟨after, hblank, hright⟩ := Text.exists_blank_append_trimStart sign
  rw [Text.after?_eq_some_iff.1 hsign] at hleft
  rw [Text.after?_eq_some_iff.1 hquote] at hright
  simp only at h
  split at h
  next hbraces =>
    cases h
    refine ⟨before, after, ?_, hne, hcontinues, hbefore, hblank, hfree, hbraces⟩
    rw [hleft, hright, heq]
    rfl
  next => cases h

/-- A name, an equals sign and a value with braces in pairs are read as an attribute. -/
theorem readAttribute_of_name {name before after value : Text} (hname : IsName name) (hbefore : before.Blank)
    (hafter : after.Blank) (hquote : '"' ∉ value) (hbraces : hasBraces value = true) (rest : Text) :
    readAttribute (name ++ (before ++ '=' :: (after ++ '"' :: (value ++ '"' :: rest)))) =
      some ((name, value), rest) := by
  have hhead : ∀ c ∈ (before ++ '=' :: (after ++ '"' :: (value ++ '"' :: rest))).head?,
      Markup.continuesName c = false := by
    cases before with
    | nil =>
      intro c hc
      obtain rfl := Option.some.inj hc
      decide
    | cons d ds =>
      intro c hc
      obtain rfl := Option.some.inj hc
      exact continuesName_of_isBlank (hbefore d List.mem_cons_self)
  have hsign : ∀ text, Text.after? ['='] (Text.trimStart ('=' :: text)) = some text := fun text =>
    Text.after?_append ['='] text
  have hopen : ∀ text, Text.after? ['"'] (Text.trimStart ('"' :: text)) = some text := fun text =>
    Text.after?_append ['"'] text
  have huntil : readUntil? '"' (value ++ '"' :: rest) = some (value, rest) :=
    readUntil?_eq_some_iff.2 ⟨rfl, hquote⟩
  rw [readAttribute, hname.readName? hhead]
  simp only [Option.bind_eq_bind, Option.bind_some, hbefore.trimStart_append, hafter.trimStart_append, hsign,
    hopen, huntil, hbraces, if_true]

theorem readAttribute_consumes : readAttribute.Consumes := by
  rintro text ⟨name, value⟩ rest h
  obtain ⟨before, after, rfl, hne, -⟩ := readAttribute_eq_some h
  refine ⟨name ++ (before ++ '=' :: (after ++ '"' :: (value ++ ['"']))),
    List.append_ne_nil_of_left_ne_nil hne _, ?_⟩
  simp

end FlowTemplate.Interpolation
