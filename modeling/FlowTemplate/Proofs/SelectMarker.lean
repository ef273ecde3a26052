/-
Selects and option groups in the element of a block. The element's own tags are none of theirs and end
none, so its content is compiled by itself (`compile_element`).
-/
import FlowTemplate.Proofs.Markup
import FlowTemplate.Proofs.Segment
import FlowTemplate.Proofs.Template.Basic
import FlowTemplate.SelectMarker

namespace FlowTemplate.SelectMarker

open Markup

/-! ## Names in any letter case -/

/-- A character that is some letter of a name is changed to that letter, or is no ASCII letter. -/
theorem lowerChar_of_isLetter {letter c : Char} (hletter : letter.toNat < 0x80)
    (h : isLetter letter c = true) :
    lowerChar c = letter ∨ c ∈ ['ſ', 'ı', 'İ', '\u212a'] := by
  simp only [isLetter, Bool.or_eq_true, Bool.and_eq_true, decide_eq_true_eq] at h
  rcases h with ((h | ⟨-, rfl⟩) | ⟨-, rfl | rfl⟩) | ⟨-, rfl⟩
  · by_cases hc : c.toNat < 0x80
    · exact .inl (by rw [lowerChar, if_pos hc, h])
    · -- Beyond ASCII a character is its own small letter.
      have hsame : c.toLower = c := by
        refine dif_neg fun hupper => hc ?_
        have hle : c.toNat ≤ 90 := UInt32.le_iff_toNat_le.1 hupper.2
        omega
      rw [hsame] at h
      rw [h] at hc
      exact absurd hletter hc
  all_goals exact .inr (by decide)

/-- A name has the letters it is a spelling of. -/
def Spells (letters name : Text) : Prop := List.Forall₂ (fun letter c => isLetter letter c = true) letters name

theorem Spells.lowerChar_ne {letters name : Text} {c : Char} (h : Spells letters name)
    (hascii : ∀ letter ∈ letters, letter.toNat < 0x80) (hletters : lowerChar c ∉ letters)
    (hother : ∀ d ∈ ['ſ', 'ı', 'İ', '\u212a'], lowerChar c ≠ lowerChar d) :
    ∀ d ∈ name, lowerChar c ≠ lowerChar d := by
  induction h with
  | nil => exact fun d hd => absurd hd List.not_mem_nil
  | @cons letter e letters name he _ ih =>
    obtain ⟨hletter, hascii⟩ := List.forall_mem_cons.1 hascii
    obtain ⟨hne, hletters⟩ := List.ne_and_not_mem_of_not_mem_cons hletters
    refine List.forall_mem_cons.2 ⟨?_, ih hascii hletters⟩
    rcases lowerChar_of_isLetter hletter he with heq | he
    · exact heq ▸ hne
    · exact hother e he

theorem readAnyCase?_eq_some {letters text name rest : Text}
    (h : readAnyCase? letters text = some (name, rest)) : Spells letters name ∧ text = name ++ rest := by
  induction letters generalizing text name with
  | nil =>
    cases h
    exact ⟨.nil, rfl⟩
  | cons letter letters ih =>
    cases text with
    | nil => cases h
    | cons c cs =>
      rw [readAnyCase?] at h
      split at h
      next hc =>
        obtain ⟨⟨spelling, left⟩, hread, heq⟩ := Option.map_eq_some_iff.1 h
        cases heq
        obtain ⟨hspells, rfl⟩ := ih hread
        exact ⟨.cons hc hspells, rfl⟩
      next => cases h

theorem readAnyCase?_append_cons {letters : Text} {c : Char}
    (h : ∀ letter ∈ letters, isLetter letter c = false) (text rest : Text) :
    readAnyCase? letters (text ++ c :: rest) =
      (readAnyCase? letters text).map fun (name, left) => (name, left ++ c :: rest) := by
  induction letters generalizing text with
  | nil => rfl
  | cons letter letters ih =>
    have hletters : ∀ letter ∈ letters, isLetter letter c = false :=
      fun other hother => h other (List.mem_cons_of_mem _ hother)
    cases text with
    | nil =>
      have hc : ¬ isLetter letter c = true := by
        rw [h letter List.mem_cons_self]
        exact Bool.false_ne_true
      exact if_neg hc
    | cons d text =>
      rw [List.cons_append, readAnyCase?, readAnyCase?]
      split
      · rw [ih hletters text]
        cases readAnyCase? letters text <;> rfl
      · rfl

theorem afterSameName?_append {name text rest : Text} (h : afterSameName? name text = some rest)
    (more : Text) : afterSameName? name (text ++ more) = some (rest ++ more) := by
  induction name generalizing text with
  | nil =>
    cases h
    rfl
  | cons d ds ih =>
    cases text with
    | nil => cases h
    | cons c cs =>
      rw [afterSameName?] at h
      rw [List.cons_append, afterSameName?]
      split at h
      next hc => rw [if_pos hc, ih h]
      next => cases h

theorem afterSameName?_split {name text rest : Text} (h : afterSameName? name text = some rest) :
    ∃ again, text = again ++ rest ∧ afterSameName? name again = some [] := by
  induction name generalizing text with
  | nil =>
    cases h
    exact ⟨[], rfl, rfl⟩
  | cons d ds ih =>
    cases text with
    | nil => cases h
    | cons c cs =>
      rw [afterSameName?] at h
      split at h
      next hc =>
        obtain ⟨again, rfl, hagain⟩ := ih h
        exact ⟨c :: again, rfl, by rw [afterSameName?, if_pos hc, hagain]⟩
      next => cases h

theorem afterSameName?_append_cons {name : Text} {c : Char}
    (h : ∀ d ∈ name, lowerChar c ≠ lowerChar d) (text rest : Text) :
    afterSameName? name (text ++ c :: rest) = (afterSameName? name text).map (· ++ c :: rest) := by
  induction name generalizing text with
  | nil => rfl
  | cons d ds ih =>
    have hds : ∀ d ∈ ds, lowerChar c ≠ lowerChar d :=
      fun other hother => h other (List.mem_cons_of_mem _ hother)
    cases text with
    | nil => exact if_neg (h d List.mem_cons_self)
    | cons e text =>
      rw [List.cons_append, afterSameName?, afterSameName?]
      split
      · exact ih hds text
      · rfl

/-! ## Elements -/

/-- What follows the end tag of an element. -/
def afterEnd? (name text : Text) : Option Text := do
  Text.after? ['>'] (← afterSameName? name (← Text.after? ['<', '/'] text))

theorem exists_tag_of_afterEnd? {name text rest : Text} (h : afterEnd? name text = some rest) :
    ∃ again, text = '<' :: '/' :: (again ++ '>' :: rest) ∧ afterSameName? name again = some [] := by
  simp only [afterEnd?, Option.bind_eq_bind, Option.bind_eq_some_iff] at h
  obtain ⟨behind, hslash, left, hsame, hangle⟩ := h
  obtain rfl := Text.after?_eq_some_iff.1 hslash
  obtain rfl := Text.after?_eq_some_iff.1 hangle
  obtain ⟨again, rfl, hagain⟩ := afterSameName?_split hsame
  exact ⟨again, rfl, hagain⟩

theorem afterEnd?_eq_some {name text rest : Text} (h : afterEnd? name text = some rest) :
    ∃ inside, text = inside ++ '>' :: rest := by
  obtain ⟨again, rfl, -⟩ := exists_tag_of_afterEnd? h
  exact ⟨['<', '/'] ++ again, rfl⟩

theorem afterEnd?_left {name text rest : Text} (h : afterEnd? name (text ++ rest) = none) :
    afterEnd? name text = none := by
  rw [Option.eq_none_iff_forall_not_mem]
  intro left hleft
  simp only [afterEnd?, Option.bind_eq_bind, Option.mem_def, Option.bind_eq_some_iff] at hleft
  obtain ⟨behind, hslash, found, hsame, hangle⟩ := hleft
  obtain rfl := Text.after?_eq_some_iff.1 hslash
  obtain rfl := Text.after?_eq_some_iff.1 hangle
  rw [afterEnd?, List.append_assoc, Text.after?_append] at h
  simp only [Option.bind_eq_bind, Option.bind_some, afterSameName?_append hsame, List.append_assoc,
    Text.after?_append] at h
  cases h

/-- The name of a select or an option group, in some letter case. -/
def ElementName (name : Text) : Prop := Spells "select".toList name ∨ Spells "optgroup".toList name

/-- The name of an element at the front of a text. -/
def elementName? (text : Text) : Option (Text × Text) :=
  (readAnyCase? "select".toList text).or (readAnyCase? "optgroup".toList text)

theorem elementName?_eq_some {text name rest : Text} (h : elementName? text = some (name, rest)) :
    ElementName name ∧ text = name ++ rest := by
  rcases Option.or_eq_some_iff.1 h with h | ⟨-, h⟩
  · exact ⟨.inl (readAnyCase?_eq_some h).1, (readAnyCase?_eq_some h).2⟩
  · exact ⟨.inr (readAnyCase?_eq_some h).1, (readAnyCase?_eq_some h).2⟩

theorem readElement_angle (text : Text) :
    readElement ('<' :: text) = (elementName? text).bind fun (name, rest) =>
      (readUntil? '>' rest).bind fun (attributes, rest) =>
        (readUpTo? (afterEnd? name) rest).map fun (content, rest) =>
          (⟨name, attributes, content⟩, rest) := by
  have hafter : Text.after? ['<'] ('<' :: text) = some text := rfl
  simp only [readElement, hafter, Option.bind_eq_bind, Option.bind_some, elementName?]
  congr 1
  funext ⟨name, rest⟩
  congr 1
  funext ⟨attributes, rest⟩
  simp only [Option.map_eq_bind]
  rfl

theorem readElement_beginsWith : readElement.BeginsWith '<' := by
  intro text element rest h
  cases text with
  | nil => cases h
  | cons c text =>
    by_cases hc : c = '<'
    · rw [hc]
      rfl
    · have hafter : Text.after? ['<'] (c :: text) = none := by
        simp [Text.after?, List.isPrefixOf?, Ne.symm hc]
      rw [readElement, hafter] at h
      cases h

/-- An element is its opening tag up to the first angle, and then its content up to the first end tag. -/
theorem exists_parts_of_readElement {text rest : Text} {element : Element}
    (h : readElement text = some (element, rest)) :
    ElementName element.name ∧ '>' ∉ element.attributes ∧ ∃ behind,
      text = '<' :: (element.name ++ (element.attributes ++ '>' :: behind)) ∧
        readUpTo? (afterEnd? element.name) behind = some (element.content, rest) := by
  obtain ⟨behind, rfl⟩ := List.head?_eq_some_iff.1 (readElement_beginsWith _ _ _ h)
  rw [readElement_angle] at h
  obtain ⟨⟨name, left⟩, hname, h⟩ := Option.bind_eq_some_iff.1 h
  obtain ⟨⟨attributes, more⟩, huntil, h⟩ := Option.bind_eq_some_iff.1 h
  obtain ⟨⟨content, back⟩, hupto, h⟩ := Option.map_eq_some_iff.1 h
  cases h
  obtain ⟨hspells, rfl⟩ := elementName?_eq_some hname
  obtain ⟨rfl, hfree⟩ := readUntil?_eq_some_iff.1 huntil
  exact ⟨hspells, hfree, more, rfl, hupto⟩

theorem readElement_eq_some {text rest : Text} {element : Element}
    (h : readElement text = some (element, rest)) : ∃ inside, text = '<' :: (inside ++ '>' :: rest) := by
  obtain ⟨-, -, behind, rfl, hupto⟩ := exists_parts_of_readElement h
  obtain ⟨tail, rfl, hend⟩ := readUpTo?_eq_some hupto
  obtain ⟨inside, rfl⟩ := afterEnd?_eq_some hend
  exact ⟨element.name ++ element.attributes ++ '>' :: element.content ++ inside, by simp⟩

theorem readElement_consumes : readElement.Consumes := by
  intro text element rest h
  obtain ⟨inside, rfl⟩ := readElement_eq_some h
  exact ⟨'<' :: (inside ++ ['>']), List.cons_ne_nil _ _, by simp⟩

/-! ## The element of a block -/

theorem ElementName.ne_nil {name : Text} (h : ElementName name) : name ≠ [] := by
  rintro rfl
  rcases h with h | h <;> cases h

/-- No character of a name is changed to one that is no letter of the names. -/
theorem ElementName.lowerChar_ne {name : Text} {c : Char} (h : ElementName name)
    (hletters : lowerChar c ∉ "select".toList ++ "optgroup".toList)
    (hother : ∀ d ∈ ['ſ', 'ı', 'İ', '\u212a'], lowerChar c ≠ lowerChar d) :
    ∀ d ∈ name, lowerChar c ≠ lowerChar d := by
  rw [List.mem_append, not_or] at hletters
  obtain ⟨hselect, hgroup⟩ := hletters
  rcases h with h | h
  · exact h.lowerChar_ne (by decide) hselect hother
  · exact h.lowerChar_ne (by decide) hgroup hother

theorem ElementName.angle_ne {name : Text} (h : ElementName name) :
    ∀ d ∈ name, lowerChar '<' ≠ lowerChar d := h.lowerChar_ne (by decide) (by decide +kernel)

theorem closing_eq : Template.closing = '<' :: '/' :: 'n' :: "g-container>".toList := rfl

theorem afterEnd?_append_closing {name : Text} (h : ElementName name) (text : Text) :
    afterEnd? name (text ++ Template.closing) = (afterEnd? name text).map (· ++ Template.closing) := by
  have hangle := h.angle_ne
  have hnone : ∀ text, Text.after? ['<', '/'] text = none → afterEnd? name text = none := by
    intro text hafter
    rw [afterEnd?, hafter]
    rfl
  match text with
  | [] =>
    rw [hnone [] rfl, closing_eq]
    have hfirst : afterSameName? name ('n' :: "g-container>".toList) = none := by
      obtain ⟨c, cs, rfl⟩ := List.exists_cons_of_ne_nil h.ne_nil
      exact if_neg (h.lowerChar_ne (by decide) (by decide +kernel) c List.mem_cons_self)
    have hafter : Text.after? ['<', '/'] ('<' :: '/' :: 'n' :: "g-container>".toList) =
        some ('n' :: "g-container>".toList) := rfl
    rw [List.nil_append, afterEnd?, hafter]
    exact congrArg (fun found => found.bind fun left => Text.after? ['>'] left) hfirst
  | [x] =>
    have hshort : Text.after? ['<', '/'] [x] = none := by simp [Text.after?, List.isPrefixOf?]
    have hlong : Text.after? ['<', '/'] ([x] ++ Template.closing) = none := by
      simp [Text.after?, List.isPrefixOf?, closing_eq]
    rw [hnone _ hshort, hnone _ hlong]
    rfl
  | x :: y :: rest =>
    by_cases hslash : x = '<' ∧ y = '/'
    · obtain ⟨rfl, rfl⟩ := hslash
      have hafter : ∀ back, Text.after? ['<', '/'] ('<' :: '/' :: back) = some back := fun _ => rfl
      rw [List.cons_append, List.cons_append, afterEnd?, afterEnd?, hafter, hafter]
      simp only [Option.bind_eq_bind, Option.bind_some, closing_eq, afterSameName?_append_cons hangle]
      cases afterSameName? name rest with
      | none => rfl
      | some left => exact Text.after?_append_cons (by decide) left _
    · have hshape : ∀ back, Text.after? ['<', '/'] (x :: y :: back) = none := by
        intro back
        simp only [Text.after?, List.isPrefixOf?]
        rw [not_and_or] at hslash
        rcases hslash with hx | hy
        · simp [Ne.symm hx]
        · simp [Ne.symm hy]
      rw [hnone _ (hshape rest), List.cons_append, List.cons_append, hnone _ (hshape _)]
      rfl

theorem readUpTo?_closing {name : Text} (h : ElementName name) :
    readUpTo? (afterEnd? name) Template.closing = none := by
  refine readUpTo?_eq_none fun back hback => ?_
  rcases List.suffix_cons_iff.1 (closing_eq ▸ hback) with rfl | htail
  · exact afterEnd?_append_closing h []
  · have hfree : '<' ∉ back := fun hm => by
      have := htail.subset hm
      revert this
      decide
    rw [Option.eq_none_iff_forall_not_mem]
    intro rest hend
    simp only [afterEnd?, Option.bind_eq_bind, Option.mem_def, Option.bind_eq_some_iff] at hend
    obtain ⟨behind, hslash, -⟩ := hend
    obtain rfl := Text.after?_eq_some_iff.1 hslash
    exact hfree List.mem_cons_self

/-- The tag that closes the element of a block ends no select in its content. -/
theorem readElement_append_closing {text : Text} (hne : text ≠ []) :
    readElement (text ++ Template.closing) =
      (readElement text).map fun (element, left) => (element, left ++ Template.closing) := by
  obtain ⟨c, text, rfl⟩ := List.exists_cons_of_ne_nil hne
  by_cases hc : c = '<'
  · subst hc
    have hname : elementName? (text ++ Template.closing) =
        (elementName? text).map fun (name, left) => (name, left ++ Template.closing) := by
      rw [closing_eq, elementName?, readAnyCase?_append_cons (by decide),
        readAnyCase?_append_cons (by decide), elementName?]
      cases readAnyCase? "select".toList text <;> rfl
    rw [List.cons_append, readElement_angle, readElement_angle, hname]
    cases hfound : elementName? text with
    | none => rfl
    | some found =>
      obtain ⟨name, left⟩ := found
      obtain ⟨hspells, -⟩ := elementName?_eq_some hfound
      simp only [Option.map_some, Option.bind_some]
      by_cases hangle : '>' ∈ left
      · rw [readUntil?_append_of_mem hangle]
        cases readUntil? '>' left with
        | none => rfl
        | some cut =>
          obtain ⟨attributes, more⟩ := cut
          have hclosing := readUpTo?_closing hspells
          simp only [Option.map_some, Option.bind_some,
            readUpTo?_append (afterEnd?_append_closing hspells) hclosing]
          cases readUpTo? (afterEnd? name) more <;> rfl
      · -- The attributes would go up to the end of the closing tag, and no content is left.
        have huntil : readUntil? '>' (left ++ Template.closing) =
            some (left ++ "</ng-container".toList, []) := by
          refine readUntil?_eq_some_iff.2 ⟨?_, List.not_mem_append hangle (by decide)⟩
          rw [List.append_assoc]
          rfl
        rw [huntil, readUntil?_of_not_mem hangle]
        rfl
  · have hnone : ∀ back, readElement (c :: back) = none := fun back =>
      readElement_beginsWith.none fun heq => hc (Option.some.inj heq)
    rw [List.cons_append, hnone, hnone]
    rfl

theorem compile_eq_rewrite (template : Text) :
    compile template = Segment.rewrite readElement (fun element _ => markElement element) template :=
  Segment.replace_eq_rewrite _ _

theorem compile_of_read {text rest : Text} {element : Element}
    (h : readElement text = some (element, rest)) : compile text = markElement element ++ compile rest :=
  Segment.replace_of_read readElement_consumes h

/-- A text that opens an angle which begins no select stays in front of whatever follows. -/
theorem compile_append_of_tag {c : Char} {front : Text} (h : '<' ∉ c :: front)
    (hname : ∀ back, elementName? (c :: back) = none) (rest : Text) :
    compile ('<' :: c :: front ++ rest) = '<' :: c :: front ++ compile rest := by
  have hnone : readElement ('<' :: (c :: front ++ rest)) = none := by
    rw [readElement_angle, List.cons_append, hname]
    rfl
  rw [compile_eq_rewrite, compile_eq_rewrite, List.cons_append, Segment.rewrite_cons hnone,
    Segment.rewrite_append_of_not_mem readElement_beginsWith h]
  rfl

/-- **The content of an element is compiled by itself**, if no angle opens in its value. -/
theorem compile_element {directive value : Text} (hdirective : '<' ∉ directive) (hvalue : '<' ∉ value)
    (content : Text) :
    compile (Template.element directive value content) =
      Template.element directive value (compile content) := by
  have hclosing : compile Template.closing = Template.closing := by
    have hfree : '<' ∉ '/' :: "ng-container>".toList := by decide
    have hkept := compile_append_of_tag hfree (fun _ => rfl) []
    rw [List.append_nil] at hkept
    exact hkept.trans (List.append_nil _)
  have hcontent : compile (content ++ Template.closing) = compile content ++ Template.closing := by
    conv_rhs => rw [← hclosing]
    simp only [compile_eq_rewrite]
    exact Segment.rewrite_append readElement_consumes fun t hne _ => readElement_append_closing hne
  have hfree : '<' ∉ 'n' :: ("g-container ".toList ++ directive ++ "=\"".toList ++ value ++ "\">".toList) :=
    List.not_mem_append (List.not_mem_append (List.not_mem_append (List.not_mem_append
      (by decide : '<' ∉ "ng-container ".toList) hdirective) (by decide)) hvalue) (by decide)
  have hopening := compile_append_of_tag hfree (fun _ => rfl) (content ++ Template.closing)
  rw [hcontent] at hopening
  exact hopening

end FlowTemplate.SelectMarker
