/-
Opening tags as they are written: a name and attributes with quoted values. A tag is tidy if no value has
a closing angle, all double braces of a value belong to its expressions, and plain names stand in front of
the values with expressions. The readers know double quotes only, so a tidy tag is read as a whole and its
attributes with expressions in such quotes are gathered (`OpeningTag.compileAttributes_source`).
-/
import FlowTemplate.Proofs.Interpolation.Encoding
import FlowTemplate.Proofs.Interpolation.Pairs
import FlowTemplate.Proofs.Interpolation.Seam
import FlowTemplate.Proofs.Select.Reading
import FlowTemplate.Proofs.Template.Basic

namespace FlowTemplate

namespace Interpolation

open Markup

/-! ## Tags and attributes -/

/-- A quote around a value. -/
inductive Quote where
  | single
  | double
  deriving DecidableEq, Repr

def Quote.char : Quote → Char
  | single => '\''
  | double => '"'

theorem Quote.char_free (quote : Quote) : Markup.continuesName quote.char = false ∧
    isBlank quote.char = false ∧ quote.char ≠ '=' ∧ quote.char ≠ '>' ∧ quote.char ∉ opening := by
  cases quote <;> decide

theorem Quote.char_not_mem_opening (quote : Quote) : quote.char ∉ opening := quote.char_free.2.2.2.2

theorem Quote.eq_double {quote : Quote} (h : quote.char = '"') : quote = .double := by
  cases quote with
  | single => exact absurd h (by decide)
  | double => rfl

/-- An attribute behind at least one blank. Its value may be any text without the quote around it. -/
structure QuotedAttribute where
  gap : Template.Gap
  name : Text
  name_ne_nil : name ≠ []
  name_free : ∀ c ∈ name, isBlank c = false ∧ c ∉ ['"', '\'', '=', '<', '>', '/']
  beforeSign : Template.Blanks
  afterSign : Template.Blanks
  quote : Quote
  value : Text
  value_free : quote.char ∉ value

namespace QuotedAttribute

/-- An attribute behind its gap, up to the quote that closes its value. -/
def bare (attr : QuotedAttribute) : Text :=
  attr.name ++ (attr.beforeSign.text ++ '=' :: (attr.afterSign.text ++
    attr.quote.char :: (attr.value ++ [attr.quote.char])))

def source (attr : QuotedAttribute) : Text := attr.gap.text ++ attr.bare

/-- Whether there is an expression in the value. -/
def interpolated (attr : QuotedAttribute) : Bool := hasExpression attr.value

/-- Whether the readers find the attribute to gather it. They know double quotes only. -/
def taken (attr : QuotedAttribute) : Bool := attr.interpolated && attr.quote == .double

/-- What is left of an attribute where the chosen ones are gathered. -/
def kept (chosen : QuotedAttribute → Bool) (attr : QuotedAttribute) : Text :=
  if chosen attr then attr.gap.text else attr.source

/-- The binding that an attribute is gathered as, if it is a chosen one. -/
def bindings (chosen : QuotedAttribute → Bool) (attr : QuotedAttribute) : List Binding :=
  if chosen attr then [⟨attr.name, concatenation attr.value⟩] else []

/-- An attribute that interpolation can tell from the markup around it. -/
structure Tidy (attr : QuotedAttribute) : Prop where
  angle : '>' ∉ attr.value
  brace : '{' ∉ attr.name
  /-- All double braces of the value open its expressions. -/
  pairs : ∀ segment ∈ Segment.ofText readExpression attr.value, ¬ opening <:+: shown segment
  name : attr.interpolated = true → IsName attr.name

/-- A value in which no double quote, nor the one at its end, could open another value. -/
def Unsigned (attr : QuotedAttribute) : Prop :=
  ∀ blanks : Text, blanks.Blank → ¬ ('=' :: (blanks ++ ['"'])) <:+: attr.value ++ [attr.quote.char]

end QuotedAttribute

/-- An opening tag. -/
structure OpeningTag where
  name : Text
  attributes : List QuotedAttribute
  atEnd : Template.Blanks

namespace OpeningTag

/-- The text between the name and the angle that closes the tag. -/
def attributeText (tag : OpeningTag) : Text :=
  tag.attributes.flatMap QuotedAttribute.source ++ tag.atEnd.text

def source (tag : OpeningTag) : Text := '<' :: (tag.name ++ (tag.attributeText ++ ['>']))

variable (chosen : QuotedAttribute → Bool)

def bindings (tag : OpeningTag) : List Binding := tag.attributes.flatMap (QuotedAttribute.bindings chosen)

/-- The attributes that are not chosen, as they stand in the tag. -/
def kept (tag : OpeningTag) : Text :=
  Text.trim (tag.attributes.flatMap (QuotedAttribute.kept chosen) ++ tag.atEnd.text)

/-- The tag with its chosen attributes gathered into one, the others in front of that. -/
def gather (tag : OpeningTag) : Text :=
  if (tag.bindings chosen).isEmpty then tag.source
  else ['<'] ++ tag.name ++ (if (tag.kept chosen).isEmpty then [] else ' ' :: tag.kept chosen) ++ [' '] ++
    bindingsAttribute ++ ['=', '"'] ++ Binding.encode (tag.bindings chosen) ++ ['"', '>']

/-- The tag with all its attributes with expressions gathered. -/
def gathered (tag : OpeningTag) : Text := tag.gather QuotedAttribute.interpolated

/-- A tag with a plain name and tidy attributes. -/
structure Tidy (tag : OpeningTag) : Prop where
  name : IsName tag.name
  attributes : ∀ attr ∈ tag.attributes, attr.Tidy
  /-- Beside an expression in single quotes no value has a sign that a double quote follows. -/
  signs : (∀ attr ∈ tag.attributes, attr.interpolated = true → attr.quote = .double) ∨
    ∀ attr ∈ tag.attributes, attr.Unsigned

end OpeningTag

/-! ## Reading a tag -/

namespace QuotedAttribute

/-- What stands in front of the quote that opens a value. -/
def head (attr : QuotedAttribute) : Text :=
  attr.gap.text ++ (attr.name ++ (attr.beforeSign.text ++ '=' :: attr.afterSign.text))

theorem source_eq (attr : QuotedAttribute) :
    attr.source = attr.head ++ attr.quote.char :: (attr.value ++ [attr.quote.char]) := by
  simp [source, bare, head]

theorem not_mem_head {attr : QuotedAttribute} {c : Char} (hblank : isBlank c = false) (hsign : c ≠ '=')
    (hname : c ∉ attr.name) : c ∉ attr.head := by
  simp only [head, List.mem_append, List.mem_cons, not_or]
  exact ⟨attr.gap.blank.not_mem hblank, hname, attr.beforeSign.blank.not_mem hblank, hsign,
    attr.afterSign.blank.not_mem hblank⟩

theorem quote_not_mem_head (attr : QuotedAttribute) (quote : Quote) : quote.char ∉ attr.head := by
  obtain ⟨-, hblank, hsign, -, -⟩ := quote.char_free
  have hquote : quote.char ∈ ['"', '\'', '=', '<', '>', '/'] := by cases quote <;> decide
  exact not_mem_head hblank hsign fun hm => (attr.name_free _ hm).2 hquote

theorem angle_not_mem_source {attr : QuotedAttribute} (h : '>' ∉ attr.value) : '>' ∉ attr.source := by
  have hhead : '>' ∉ attr.head := not_mem_head (by decide) (by decide) fun hm =>
    (attr.name_free _ hm).2 (by decide)
  have hquote : '>' ≠ attr.quote.char := Ne.symm attr.quote.char_free.2.2.2.1
  rw [source_eq]
  simp only [List.mem_append, List.mem_cons, List.not_mem_nil, or_false, not_or]
  exact ⟨hhead, hquote, h, hquote⟩

theorem source_eq_concat (attr : QuotedAttribute) :
    ∃ front, attr.source = front ++ [attr.quote.char] :=
  ⟨attr.head ++ attr.quote.char :: attr.value, by rw [source_eq]; simp⟩

end QuotedAttribute

theorem OpeningTag.head_attributeText (tag : OpeningTag) :
    ∀ c ∈ tag.attributeText.head?, isBlank c = true := by
  intro c hc
  unfold attributeText at hc
  cases hattributes : tag.attributes with
  | nil =>
    rw [hattributes] at hc
    exact tag.atEnd.blank c (List.mem_of_mem_head? hc)
  | cons attr more =>
    rw [hattributes, List.flatMap_cons, QuotedAttribute.source, List.append_assoc, List.append_assoc,
      List.head?_append_of_ne_nil _ attr.gap.ne_nil] at hc
    exact attr.gap.blank c (List.mem_of_mem_head? hc)

theorem OpeningTag.readTag_source {tag : OpeningTag} (h : tag.Tidy) (rest : Text) :
    readTag (tag.source ++ rest) = some ((tag.name, tag.attributeText), rest) := by
  have hangle : '>' ∉ tag.attributeText := by
    refine List.not_mem_append (fun hm => ?_) (tag.atEnd.blank.not_mem (by decide))
    obtain ⟨attr, hattr, hm⟩ := List.mem_flatMap.1 hm
    exact QuotedAttribute.angle_not_mem_source (h.attributes attr hattr).angle hm
  have hsource : tag.source ++ rest = '<' :: (tag.name ++ (tag.attributeText ++ '>' :: rest)) := by
    simp [source]
  rw [hsource]
  exact readTag_of_name h.name tag.head_attributeText hangle rest

/-! ## Reading attributes -/

theorem QuotedAttribute.taken_iff {attr : QuotedAttribute} :
    attr.taken = true ↔ attr.interpolated = true ∧ attr.quote = .double := by
  rw [taken, Bool.and_eq_true, beq_iff_eq]

theorem QuotedAttribute.interpolated_eq_false {attr : QuotedAttribute} (htaken : attr.taken = false)
    (hdouble : attr.interpolated = true → attr.quote = .double) : attr.interpolated = false := by
  by_contra hexpression
  rw [Bool.not_eq_false] at hexpression
  rw [taken_iff.2 ⟨hexpression, hdouble hexpression⟩] at htaken
  cases htaken

theorem QuotedAttribute.readAttribute_bare {attr : QuotedAttribute} (h : attr.Tidy) (htaken : attr.taken = true)
    (rest : Text) : readAttribute (attr.bare ++ rest) = some ((attr.name, attr.value), rest) := by
  obtain ⟨hexpression, hquote⟩ := taken_iff.1 htaken
  have hname := h.name hexpression
  have hfree : '"' ∉ attr.value := by
    have hfree := attr.value_free
    rwa [hquote] at hfree
  have htext : attr.bare ++ rest = attr.name ++ (attr.beforeSign.text ++ '=' :: (attr.afterSign.text ++
      '"' :: (attr.value ++ '"' :: rest))) := by
    rw [bare, hquote]
    simp [Quote.char]
  rw [htext]
  exact readAttribute_of_name hname attr.beforeSign.blank attr.afterSign.blank hfree
    (hasBraces_of_hasExpression hexpression) rest

/-- No double braces stand in front of the first quote of a text. -/
def FreeUpToQuote (text : Text) : Prop :=
  ∀ front back, text = front ++ '"' :: back → '"' ∉ front → ¬ opening <:+: front

theorem FreeUpToQuote.of_not_mem {text : Text} (h : '"' ∉ text) : FreeUpToQuote text := fun _ _ heq =>
  absurd (heq ▸ List.mem_append_right _ List.mem_cons_self) h

theorem freeUpToQuote_quote (rest : Text) : FreeUpToQuote ('"' :: rest) := by
  intro front back heq hfront
  cases front with
  | nil => decide
  | cons c front => exact absurd ((List.cons.inj heq).1 ▸ List.mem_cons_self) hfront

theorem FreeUpToQuote.prepend {front rest : Text} (hfront : '{' ∉ front) (h : FreeUpToQuote rest) :
    FreeUpToQuote (front ++ rest) := by
  intro before back heq hbefore hwithin
  rcases List.append_eq_append_iff.1 heq with ⟨more, rfl, hmore⟩ | ⟨more, rfl, -⟩
  · have hbehind := (opening_infix_append_iff hfront).1 hwithin
    exact h more back hmore (fun hm => hbefore (List.mem_append_right _ hm)) hbehind
  · exact hfront (List.mem_append_left _ (hwithin.subset (by decide)))

/-- No double braces stand between two quotes, where a text without them comes to an end in front of or
behind the first quote. -/
theorem FreeUpToQuote.not_infix_between {text front value back rest : Text} {last : Char}
    (hrest : FreeUpToQuote rest) (hopening : last ∉ opening) (htext : ¬ opening <:+: text)
    (h : text ++ last :: rest = front ++ '"' :: (value ++ '"' :: back)) (hfront : last ∉ front)
    (hvalue : '"' ∉ value) : ¬ opening <:+: value := by
  have hpart : ∀ part, part <:+: text → ¬ opening <:+: part := fun _ hpart hwithin =>
    htext (hwithin.trans hpart)
  rcases List.append_eq_append_iff.1 h with ⟨more, rfl, hbehind⟩ | ⟨more, rfl, hbehind⟩
  · cases more with
    | nil => exact hrest value back (List.cons.inj hbehind).2 hvalue
    | cons c more =>
      obtain ⟨rfl, -⟩ := List.cons.inj hbehind
      exact absurd (List.mem_append_right _ List.mem_cons_self) hfront
  · cases more with
    | nil => exact hrest value back (List.cons.inj hbehind).2.symm hvalue
    | cons c more =>
      obtain ⟨rfl, hinner⟩ := List.cons.inj hbehind
      have hmore : more <:+: front ++ '"' :: more :=
        ((List.suffix_cons _ more).trans (List.suffix_append _ _)).isInfix
      -- The value ends in the text, or it goes on behind the end of that.
      rcases List.append_eq_append_iff.1 hinner with ⟨left, rfl, -⟩ | ⟨left, rfl, hleft⟩
      · exact hpart value ((List.prefix_append _ _).isInfix.trans hmore)
      · cases left with
        | nil =>
          rw [List.append_nil]
          exact hpart more hmore
        | cons c left =>
          obtain ⟨rfl, rfl⟩ := List.cons.inj hleft
          refine Text.not_infix_append_cons hopening (hpart more hmore) (hrest left back rfl fun hm => ?_)
          exact hvalue (List.mem_append_right _ (List.mem_cons_of_mem _ hm))

namespace QuotedAttribute

theorem not_infix_value {attr : QuotedAttribute} (h : attr.Tidy) (hexpression : hasExpression attr.value = false) :
    ¬ opening <:+: attr.value := by
  intro hwithin
  have hne : attr.value ≠ [] := fun hnil => absurd (hnil ▸ hwithin) (by decide)
  have hpairs := h.pairs
  rw [segments_of_not_hasExpression hexpression, if_neg hne] at hpairs
  exact hpairs _ List.mem_cons_self hwithin

theorem not_infix_source {attr : QuotedAttribute} (h : attr.Tidy)
    (hexpression : hasExpression attr.value = false) : ¬ opening <:+: attr.source := by
  have hhead : '{' ∉ attr.head := not_mem_head (by decide) (by decide) h.brace
  rw [source_eq]
  refine Text.not_infix_append_cons attr.quote.char_not_mem_opening (fun hwithin => ?_) ?_
  · exact hhead (hwithin.subset (by decide))
  · exact Text.not_infix_append_cons attr.quote.char_not_mem_opening (not_infix_value h hexpression)
      fun hwithin => absurd hwithin (by decide)

/-- What is read as an attribute has a sign in front of its first quote, and double braces in its value. -/
theorem exists_front {text name value back : Text} (hread : readAttribute text = some ((name, value), back)) :
    ∃ label blanks : Text, blanks.Blank ∧
      text = (label ++ '=' :: blanks) ++ '"' :: (value ++ '"' :: back) ∧
      (∀ quote : Quote, quote.char ∉ label ++ '=' :: blanks) ∧ '"' ∉ value ∧ opening <:+: value := by
  obtain ⟨before, after, htext, -, hname, hbefore, hafter, hquote, hbraces⟩ := readAttribute_eq_some hread
  refine ⟨name ++ before, after, hafter, by simpa using htext, fun quote => ?_, hquote,
    opening_infix_of_hasBraces hbraces⟩
  obtain ⟨hletter, hblank, hsign, -, -⟩ := quote.char_free
  exact List.not_mem_append (List.not_mem_append (hname.not_mem hletter) (hbefore.not_mem hblank))
    (List.not_mem_cons_of_ne_of_not_mem hsign (hafter.not_mem hblank))

/-- Nothing is gathered of an attribute without an expression, where what follows has no double braces in
front of its first quote. -/
theorem lacks_source {attr : QuotedAttribute} (h : attr.Tidy) (hexpression : hasExpression attr.value = false)
    {rest : Text} (hrest : FreeUpToQuote rest) : Text.Lacks readAttribute attr.source rest := by
  refine Text.Lacks.of_suffixes fun t hne ht => ?_
  rw [Option.eq_none_iff_forall_not_mem]
  rintro ⟨⟨name, value⟩, back⟩ hread
  obtain ⟨label, blanks, -, htext, hfree, hquote, hvalue⟩ := exists_front hread
  obtain ⟨source, hsource⟩ := attr.source_eq_concat
  rw [hsource] at ht
  obtain ⟨t, rfl, hfront⟩ := (List.suffix_concat_iff.1 ht).resolve_left hne
  have hclear : ¬ opening <:+: t := fun hwithin => not_infix_source h hexpression
    (hwithin.trans (hfront.isInfix.trans (hsource ▸ (List.prefix_append source _).isInfix)))
  rw [List.append_assoc] at htext
  exact hrest.not_infix_between attr.quote.char_not_mem_opening hclear htext (hfree _) hquote hvalue

theorem Unsigned.lacks_value {attr : QuotedAttribute} (h : attr.Unsigned) (rest : Text) :
    Text.Lacks readAttribute (attr.value ++ [attr.quote.char]) rest := by
  refine Text.Lacks.of_suffixes fun t hne ht => ?_
  rw [Option.eq_none_iff_forall_not_mem]
  rintro ⟨⟨name, value⟩, back⟩ hread
  obtain ⟨label, blanks, hblanks, htext, hfree, -, -⟩ := exists_front hread
  have hsigned : ¬ (label ++ '=' :: blanks) ++ ['"'] <:+: t := fun hwithin =>
    h blanks hblanks (List.IsInfix.trans ⟨label, [], by simp⟩ (hwithin.trans ht.isInfix))
  have hlong : (label ++ '=' :: blanks) ++ ['"'] <+: t ++ rest := ⟨value ++ '"' :: back, by simp [htext]⟩
  rcases List.prefix_or_prefix_of_prefix hlong (List.prefix_append t rest) with hbegins | hbegins
  · exact hsigned hbegins.isInfix
  · rcases List.prefix_concat_iff.1 hbegins with rfl | hshort
    · exact hsigned List.infix_rfl
    · -- The quote at the end of `t` would stand in front of the one that opens the value.
      obtain ⟨t, rfl, -⟩ := (List.suffix_concat_iff.1 ht).resolve_left hne
      exact hfree _ (hshort.subset (List.mem_append_right _ List.mem_cons_self))

/-- No attribute begins in front of the value of one that is not taken. -/
theorem lacks_head {attr : QuotedAttribute} (h : attr.Tidy) (htaken : attr.taken = false) (rest : Text) :
    Text.Lacks readAttribute (attr.head ++ [attr.quote.char]) (attr.value ++ attr.quote.char :: rest) := by
  refine Text.Lacks.of_suffixes fun t hne ht => ?_
  rw [Option.eq_none_iff_forall_not_mem]
  rintro ⟨⟨name, value⟩, back⟩ hread
  obtain ⟨label, blanks, -, htext, hfree, hquote, hvalue⟩ := exists_front hread
  obtain ⟨t, rfl, hfront⟩ := (List.suffix_concat_iff.1 ht).resolve_left hne
  have hhead : ∀ quote : Quote, quote.char ∉ t := fun quote hm =>
    quote_not_mem_head attr quote (hfront.subset hm)
  rw [List.append_assoc] at htext
  have hdouble : attr.quote.char = '"' := Text.first_eq (hhead .double) (hfree attr.quote) htext
  rw [hdouble] at htext
  obtain ⟨-, hinside⟩ := Text.first_unique (hhead .double) (hfree .double) htext
  obtain ⟨rfl, -⟩ := Text.first_unique (hdouble ▸ attr.value_free) hquote hinside
  have hexpression := interpolated_eq_false htaken fun _ => Quote.eq_double hdouble
  exact not_infix_value h hexpression hvalue

/-- Nothing is gathered of an attribute that is not taken, whatever follows it, if its value has no sign in
front of a double quote. -/
theorem Unsigned.lacks_source {attr : QuotedAttribute} (hunsigned : attr.Unsigned) (h : attr.Tidy)
    (htaken : attr.taken = false) (rest : Text) : Text.Lacks readAttribute attr.source rest := by
  have hsource : attr.source = (attr.head ++ [attr.quote.char]) ++ (attr.value ++ [attr.quote.char]) := by
    rw [source_eq]
    simp
  rw [hsource]
  refine Text.Lacks.append ?_ (hunsigned.lacks_value rest)
  simpa using lacks_head h htaken rest

/-- The first quote behind the front of an attribute comes before any double braces. -/
theorem freeUpToQuote_source {attr : QuotedAttribute} (h : attr.Tidy)
    (hdouble : attr.interpolated = true → attr.quote = .double) {rest : Text} (hrest : FreeUpToQuote rest) :
    FreeUpToQuote (attr.source ++ rest) := by
  cases hexpression : hasExpression attr.value with
  | true =>
    have hbrace : '{' ∉ attr.head := not_mem_head (by decide) (by decide) h.brace
    rw [source_eq, hdouble hexpression, List.append_assoc]
    exact .prepend hbrace (freeUpToQuote_quote _)
  | false =>
    intro front back heq hfront
    have hsource := not_infix_source h hexpression
    rcases List.append_eq_append_iff.1 heq with ⟨more, rfl, hmore⟩ | ⟨more, hmore, -⟩
    · obtain ⟨init, hinit⟩ := attr.source_eq_concat
      rw [hinit] at hfront hsource ⊢
      rw [List.append_assoc] at hfront ⊢
      refine Text.not_infix_append_cons attr.quote.char_not_mem_opening ?_ (hrest more back hmore ?_)
      · exact fun hwithin => hsource (hwithin.trans (List.prefix_append _ _).isInfix)
      · exact fun hm => hfront (List.mem_append_right _ (List.mem_cons_of_mem _ hm))
    · rw [hmore] at hsource
      exact fun hwithin => hsource (hwithin.trans (List.prefix_append _ _).isInfix)

end QuotedAttribute

/-! ## Gathering -/

theorem gathered_append_of_lacks {front rest : Text} (h : Text.Lacks readAttribute front rest) :
    Interpolation.gathered (front ++ rest) = Interpolation.gathered rest := by
  induction front with
  | nil => rfl
  | cons c front ih => rw [List.cons_append, gathered_cons h.1, ih h.2]

theorem lacks_blank {blanks : Text} (h : blanks.Blank) (rest : Text) : Text.Lacks readAttribute blanks rest := by
  refine Text.Lacks.of_suffixes fun t hne ht => ?_
  obtain ⟨c, cs, rfl⟩ := List.exists_cons_of_ne_nil hne
  have hletter := continuesName_of_isBlank (h c (ht.subset List.mem_cons_self))
  have hread : Markup.readName? (c :: cs ++ rest) = none := by
    have hstarts : startsName c = false := by
      rw [Markup.continuesName, Char.isAlphanum, Bool.or_eq_false_iff, Bool.or_eq_false_iff] at hletter
      exact hletter.1.1
    rw [List.cons_append, Markup.readName?, hstarts]
    rfl
  rw [readAttribute, hread]
  rfl

/-- In front of a text, another one makes no difference to what is gathered and stays as it is. -/
def PassesOver (front rest : Text) : Prop :=
  gathered (front ++ rest) = gathered rest ∧ remaining (front ++ rest) = front ++ remaining rest

namespace PassesOver

variable {a b rest : Text}

theorem of_lacks (h : Text.Lacks readAttribute a rest) : PassesOver a rest :=
  ⟨gathered_append_of_lacks h, h.rewrite⟩

theorem append (ha : PassesOver a (b ++ rest)) (hb : PassesOver b rest) : PassesOver (a ++ b) rest := by
  constructor
  · rw [List.append_assoc, ha.1, hb.1]
  · rw [List.append_assoc, ha.2, hb.2, List.append_assoc]

theorem cons {c : Char} (h : readAttribute (c :: (a ++ rest)) = none) (ha : PassesOver a rest) :
    PassesOver (c :: a) rest :=
  append (a := [c]) (of_lacks ⟨h, trivial⟩) ha

theorem hit {name value : Text} (hne : a ≠ []) (h : readAttribute (a ++ rest) = some ((name, value), rest))
    (hexpression : hasExpression value = false) : PassesOver a rest := by
  constructor
  · rw [gathered_hit hne h]
    simp [takeBinding, hexpression]
  · rw [remaining, Segment.rewrite_hit hne h, leave, if_neg (by simp [hexpression])]
    rfl

end PassesOver

/-- An attribute with an expression is gathered, and the blanks in front of it stay. -/
theorem gathered_attribute {blanks w rest name value : Text} (hblanks : blanks.Blank) (hne : w ≠ [])
    (hread : readAttribute (w ++ rest) = some ((name, value), rest)) (hexpression : hasExpression value = true) :
    gathered (blanks ++ (w ++ rest)) = ⟨name, concatenation value⟩ :: gathered rest ∧
      remaining (blanks ++ (w ++ rest)) = blanks ++ remaining rest := by
  obtain ⟨hgathered, hremaining⟩ := PassesOver.of_lacks (lacks_blank hblanks (w ++ rest))
  constructor
  · rw [hgathered, gathered_hit hne hread]
    simp [takeBinding, hexpression]
  · rw [hremaining, remaining, Segment.rewrite_hit hne hread, leave, if_pos hexpression]
    rfl

/-- No attribute that is not taken begins one that is gathered. -/
def Passed (attributes : List QuotedAttribute) (atEnd : Text) : Prop :=
  ∀ attr more, attr :: more <:+ attributes → attr.taken = false →
    Text.Lacks readAttribute attr.source (more.flatMap QuotedAttribute.source ++ atEnd)

theorem Passed.tail {attr : QuotedAttribute} {more : List QuotedAttribute} {atEnd : Text}
    (h : Passed (attr :: more) atEnd) : Passed more atEnd := fun other others hsuffix =>
  h other others (hsuffix.trans (List.suffix_cons attr more))

/-- **The attributes of a tag are gathered one by one.** -/
theorem gathered_attributes {attributes : List QuotedAttribute} (h : ∀ attr ∈ attributes, attr.Tidy)
    {atEnd : Text} (hatEnd : atEnd.Blank) (hpassed : Passed attributes atEnd) :
    gathered (attributes.flatMap QuotedAttribute.source ++ atEnd) =
        attributes.flatMap (QuotedAttribute.bindings QuotedAttribute.taken) ∧
      remaining (attributes.flatMap QuotedAttribute.source ++ atEnd) =
        attributes.flatMap (QuotedAttribute.kept QuotedAttribute.taken) ++ atEnd := by
  induction attributes with
  | nil =>
    have hpasses := PassesOver.of_lacks (lacks_blank hatEnd [])
    rw [PassesOver, List.append_nil] at hpasses
    exact ⟨hpasses.1, hpasses.2.trans (List.append_nil atEnd)⟩
  | cons attr more ih =>
    obtain ⟨hattr, hmore⟩ := List.forall_mem_cons.1 h
    obtain ⟨hgathered, hremaining⟩ := ih hmore hpassed.tail
    simp only [List.flatMap_cons, List.append_assoc]
    cases htaken : attr.taken with
    | true =>
      have hread := QuotedAttribute.readAttribute_bare hattr htaken
        (more.flatMap QuotedAttribute.source ++ atEnd)
      have hexpression : hasExpression attr.value = true := (QuotedAttribute.taken_iff.1 htaken).1
      have hne : attr.bare ≠ [] := List.append_ne_nil_of_left_ne_nil attr.name_ne_nil _
      obtain ⟨hfirst, hgap⟩ := gathered_attribute attr.gap.blank hne hread hexpression
      rw [QuotedAttribute.source, List.append_assoc]
      refine ⟨?_, ?_⟩
      · rw [hfirst, hgathered, QuotedAttribute.bindings, if_pos htaken]
        rfl
      · rw [hgap, hremaining, QuotedAttribute.kept, if_pos htaken]
    | false =>
      have hpasses := PassesOver.of_lacks (hpassed attr more List.suffix_rfl htaken)
      refine ⟨?_, ?_⟩
      · rw [hpasses.1, hgathered]
        simp [QuotedAttribute.bindings, htaken]
      · rw [hpasses.2, hremaining]
        simp [QuotedAttribute.kept, htaken]

theorem freeUpToQuote_attributes {attributes : List QuotedAttribute} (h : ∀ attr ∈ attributes, attr.Tidy)
    (hdouble : ∀ attr ∈ attributes, attr.interpolated = true → attr.quote = .double) {atEnd : Text}
    (hatEnd : atEnd.Blank) : FreeUpToQuote (attributes.flatMap QuotedAttribute.source ++ atEnd) := by
  induction attributes with
  | nil =>
    rw [List.flatMap_nil, List.nil_append]
    exact .of_not_mem (hatEnd.not_mem (by decide))
  | cons attr more ih =>
    obtain ⟨hattr, hmore⟩ := List.forall_mem_cons.1 h
    obtain ⟨hquote, hquotes⟩ := List.forall_mem_cons.1 hdouble
    rw [List.flatMap_cons, List.append_assoc]
    exact QuotedAttribute.freeUpToQuote_source hattr hquote (ih hmore hquotes)

theorem OpeningTag.Tidy.passed {tag : OpeningTag} (h : tag.Tidy) : Passed tag.attributes tag.atEnd.text := by
  intro attr more hsuffix htaken
  have hattr : attr ∈ tag.attributes := hsuffix.subset List.mem_cons_self
  have hmore : ∀ other ∈ more, other ∈ tag.attributes := fun other hm =>
    hsuffix.subset (List.mem_cons_of_mem attr hm)
  rcases h.signs with hdouble | hunsigned
  · have hexpression := QuotedAttribute.interpolated_eq_false htaken (hdouble attr hattr)
    refine QuotedAttribute.lacks_source (h.attributes attr hattr) hexpression ?_
    exact freeUpToQuote_attributes (fun other hm => h.attributes other (hmore other hm))
      (fun other hm => hdouble other (hmore other hm)) tag.atEnd.blank
  · exact (hunsigned attr hattr).lacks_source (h.attributes attr hattr) htaken _

/-- **A tidy tag is compiled as a whole**, in front of whatever follows it. -/
theorem OpeningTag.compileAttributes_source {tag : OpeningTag} (h : tag.Tidy) (rest : Text) :
    compileAttributes (tag.source ++ rest) = tag.gather QuotedAttribute.taken ++ compileAttributes rest := by
  have hne : tag.source ≠ [] := List.cons_ne_nil _ _
  obtain ⟨hgathered, hremaining⟩ := gathered_attributes h.attributes tag.atEnd.blank h.passed
  rw [compileAttributes_eq_rewrite, Segment.rewrite_hit hne (readTag_source h rest),
    ← compileAttributes_eq_rewrite]
  refine congrArg (· ++ _) ?_
  simp only [compileTag_eq, attributeText, hgathered, hremaining]
  rfl

end Interpolation

end FlowTemplate
