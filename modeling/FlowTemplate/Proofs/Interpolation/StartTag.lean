/-
Start tags whose attributes stand one behind another, each a name by itself or with a value in double quotes.
Only names in front of expressions have to be plain. Then every tag of a text is rewritten exactly
(`TaggedText.compileAttributes_eq_rewritten`): the attributes with expressions are gathered in their order, the
others stay as they are and keep theirs, and a tag without expressions is not touched.
-/
import FlowTemplate.Proofs.Interpolation.OpeningTag

namespace FlowTemplate

/-- No blanks. -/
def Template.Blanks.none : Template.Blanks := ⟨[], Text.Blank.nil⟩

/-- A gap with more blanks in front. -/
def Template.Gap.behind (gap : Template.Gap) (blanks : Template.Blanks) : Template.Gap where
  text := blanks.text ++ gap.text
  blank := blanks.blank.append gap.blank
  ne_nil := List.append_ne_nil_of_right_ne_nil _ gap.ne_nil

namespace Interpolation

open Markup

/-! ## Tags -/

/-- An attribute behind at least one blank: a name, with or without a value in double quotes. -/
structure TagAttribute where
  gap : Template.Gap
  name : Text
  name_ne_nil : name ≠ []
  name_free : ∀ c ∈ name, isBlank c = false ∧ c ∉ ['"', '=', '<', '>', '/', '{', '}']
  value? : Option Text
  value_free : ∀ value ∈ value?, '"' ∉ value ∧ '>' ∉ value
  name_plain : ∀ value ∈ value?, hasExpression value = true → IsName name

namespace TagAttribute

/-- The equals sign and the value, if there is one. -/
def assignment (attr : TagAttribute) : Text :=
  match attr.value? with
  | none => []
  | some value => '=' :: '"' :: (value ++ ['"'])

/-- An attribute behind its gap. -/
def bare (attr : TagAttribute) : Text := attr.name ++ attr.assignment

def source (attr : TagAttribute) : Text := attr.gap.text ++ attr.bare

/-- Whether there is an expression in the value. -/
def interpolated (attr : TagAttribute) : Bool := attr.value?.any hasExpression

/-- The binding for an attribute with an expression. -/
def binding? (attr : TagAttribute) : Option Binding :=
  (attr.value?.filter hasExpression).map fun value => ⟨attr.name, concatenation value⟩

/-- The attribute behind other blanks. -/
def withGap (gap : Template.Gap) (attr : TagAttribute) : TagAttribute := { attr with gap := gap }

@[simp] theorem bare_withGap (gap : Template.Gap) (attr : TagAttribute) : (attr.withGap gap).bare = attr.bare := rfl

/-- The attributes without expressions. Blanks in front of the others are left to the next one that stays. -/
def kept (before : Template.Blanks) : List TagAttribute → List TagAttribute
  | [] => []
  | attr :: more =>
    let gap := attr.gap.behind before
    if attr.interpolated then kept gap.toBlanks more
    else attr.withGap gap :: kept .none more

end TagAttribute

/-- A start tag. -/
structure StartTag where
  name : Text
  isName : IsName name
  attributes : List TagAttribute
  atEnd : Template.Blanks

namespace StartTag

/-- The text between the name and the angle that closes the tag. -/
def attributeText (tag : StartTag) : Text := tag.attributes.flatMap TagAttribute.source ++ tag.atEnd.text

def source (tag : StartTag) : Text := '<' :: (tag.name ++ (tag.attributeText ++ ['>']))

/-- The bindings for the attributes with expressions, in their order. -/
def bindings (tag : StartTag) : List Binding := tag.attributes.filterMap TagAttribute.binding?

/-- The attributes that stay, the first of them behind one space. -/
def left (tag : StartTag) : List TagAttribute :=
  match TagAttribute.kept .none tag.attributes with
  | [] => []
  | attr :: more => attr.withGap .space :: more

/-- What a tag becomes. -/
def rewritten (tag : StartTag) : Text :=
  if tag.bindings.isEmpty then tag.source
  else '<' :: (tag.name ++ (tag.left.flatMap TagAttribute.source ++
    ' ' :: (bindingsAttribute ++ '=' :: '"' :: (Binding.encode tag.bindings ++ ['"', '>']))))

end StartTag

/-- A start tag and the text up to the next one. -/
structure TaggedPiece where
  tag : StartTag
  behind : Text
  behind_free : '<' ∉ behind

/-- Text with start tags in it. -/
structure TaggedText where
  front : Text
  front_free : '<' ∉ front
  pieces : List TaggedPiece

namespace TaggedText

def source (text : TaggedText) : Text :=
  text.front ++ text.pieces.flatMap fun piece => piece.tag.source ++ piece.behind

def rewritten (text : TaggedText) : Text :=
  text.front ++ text.pieces.flatMap fun piece => piece.tag.rewritten ++ piece.behind

end TaggedText

/-! ## Passing over attributes -/

theorem readAttribute_quote (rest : Text) : readAttribute ('"' :: rest) = none := rfl

theorem lacks_value {value rest : Text} (hquote : '"' ∉ value) (hrest : FreeUpToQuote rest) :
    Text.Lacks readAttribute (value ++ ['"']) rest := by
  refine Text.Lacks.of_suffixes fun t hne ht => ?_
  rw [Option.eq_none_iff_forall_not_mem]
  rintro ⟨⟨name, found⟩, back⟩ hread
  obtain ⟨label, blanks, -, htext, hfree, hfound, hopening⟩ := QuotedAttribute.exists_front hread
  obtain ⟨t, rfl, hsuffix⟩ := (List.suffix_concat_iff.1 ht).resolve_left hne
  rw [List.append_assoc] at htext
  obtain ⟨-, hbehind⟩ := Text.first_unique (fun hm => hquote (hsuffix.subset hm)) (hfree .double) htext
  exact hrest found back hbehind hfound hopening

/-- A value without an expression is passed over, whatever is read in front of it as its name. -/
theorem passesOver_quoted {front value rest : Text} (hfront : '"' ∉ front) (hquote : '"' ∉ value)
    (hexpression : hasExpression value = false) (hrest : FreeUpToQuote rest) :
    PassesOver (front ++ '"' :: (value ++ ['"'])) rest := by
  induction front with
  | nil => exact .cons (readAttribute_quote _) (.of_lacks (lacks_value hquote hrest))
  | cons c front ih =>
    simp only [List.mem_cons, not_or] at hfront
    cases hread : readAttribute (c :: front ++ '"' :: (value ++ ['"']) ++ rest) with
    | none => exact .cons hread (ih hfront.2)
    | some result =>
      -- What is read ends with the value: the first quote in front of it is the same.
      obtain ⟨⟨name, found⟩, back⟩ := result
      obtain ⟨label, blanks, -, htext, hfree, hfound, -⟩ := QuotedAttribute.exists_front hread
      have hcons : '"' ∉ c :: front := List.not_mem_cons_of_ne_of_not_mem hfront.1 hfront.2
      have hshape : c :: front ++ '"' :: (value ++ ['"']) ++ rest =
          (c :: front) ++ '"' :: (value ++ '"' :: rest) := by simp
      rw [hshape] at htext
      obtain ⟨-, hbehind⟩ := Text.first_unique hcons (hfree .double) htext
      obtain ⟨rfl, rfl⟩ := Text.first_unique hquote hfound hbehind
      exact .hit (List.cons_ne_nil _ _) hread hexpression

/-- Nothing is read in a text that no equals sign follows behind blanks. -/
theorem lacks_of_no_sign {front rest : Text} (hfront : '=' ∉ front) (hblank : ∀ c ∈ rest.head?, isBlank c = true)
    (hsign : '=' ∉ rest.trimStart.head?) : Text.Lacks readAttribute front rest := by
  refine Text.Lacks.of_suffixes fun t _ ht => ?_
  have hfree : '=' ∉ t := fun hm => hfront (ht.subset hm)
  have hrest : ∀ blanks tail : Text, blanks.Blank → rest ≠ blanks ++ '=' :: tail := by
    rintro blanks tail hblanks rfl
    rw [hblanks.trimStart_append] at hsign
    exact hsign rfl
  rw [Option.eq_none_iff_forall_not_mem]
  rintro ⟨⟨name, value⟩, back⟩ hread
  obtain ⟨before, after, htext, -, hname, hbefore, -⟩ := readAttribute_eq_some hread
  rcases List.append_eq_append_iff.1 htext with ⟨more, rfl, hmore⟩ | ⟨more, rfl, hmore⟩
  · cases more with
    | nil => exact hrest before _ hbefore hmore
    | cons c more =>
      have hletter := hname c (by simp)
      rw [continuesName_of_isBlank (hblank c (by rw [hmore]; rfl))] at hletter
      cases hletter
  · rcases List.append_eq_append_iff.1 hmore with ⟨left, rfl, hleft⟩ | ⟨left, rfl, hleft⟩
    · cases left with
      | nil => exact hrest [] _ Text.Blank.nil hleft.symm
      | cons c left =>
        obtain ⟨rfl, -⟩ := List.cons.inj hleft
        exact hfree (by simp)
    · exact hrest left _ (fun c hc => hbefore c (List.mem_append_right _ hc)) hleft

/-! ## The attributes of a tag -/

namespace TagAttribute

variable (attr : TagAttribute)

theorem interpolated_iff :
    attr.interpolated = true ↔ ∃ value, attr.value? = some value ∧ hasExpression value = true := by
  cases hvalue : attr.value? <;> simp [interpolated, hvalue]

theorem bare_ne_nil : attr.bare ≠ [] := List.append_ne_nil_of_left_ne_nil attr.name_ne_nil _

theorem trim_bare : attr.bare.trim = attr.bare := by
  have hname : ∀ c ∈ attr.name, isBlank c = false := fun c hc => (attr.name_free c hc).1
  rw [bare]
  refine Text.trim_eq_self_iff.2 ⟨fun c hc => ?_, fun c hc => ?_⟩
  · rw [List.head?_append_of_ne_nil _ attr.name_ne_nil] at hc
    exact hname c (List.mem_of_mem_head? hc)
  · cases hvalue : attr.value? with
    | none =>
      rw [assignment, hvalue, List.append_nil] at hc
      exact hname c (List.mem_of_mem_getLast? hc)
    | some value =>
      have hend : attr.name ++ attr.assignment = (attr.name ++ '=' :: '"' :: value) ++ ['"'] := by
        simp [assignment, hvalue]
      rw [hend, List.getLast?_concat] at hc
      obtain rfl := Option.some.inj hc
      decide

/-- What stands in front of the equals sign, or the whole attribute. -/
def label (attr : TagAttribute) : Text := attr.gap.text ++ attr.name

theorem source_eq : attr.source = attr.label ++ attr.assignment := (List.append_assoc ..).symm

theorem not_mem_label {c : Char} (h : c ∈ ['"', '=', '<', '>', '/', '{', '}']) : c ∉ attr.label := by
  have hblank : ∀ d ∈ ['"', '=', '<', '>', '/', '{', '}'], isBlank d = false := by decide
  exact List.not_mem_append (attr.gap.blank.not_mem (hblank c h)) fun hm => (attr.name_free c hm).2 h

theorem angle_not_mem_source : '>' ∉ attr.source := by
  rw [source_eq]
  refine List.not_mem_append (attr.not_mem_label (by decide)) ?_
  cases hvalue : attr.value? with
  | none => simp [assignment, hvalue]
  | some value => simp [assignment, hvalue, (attr.value_free value hvalue).2]

/-! ### One behind another -/

variable {attributes : List TagAttribute} {atEnd : Text}

theorem head_sources (hatEnd : atEnd.Blank) :
    ∀ c ∈ (attributes.flatMap source ++ atEnd).head?, isBlank c = true := by
  intro c hc
  cases attributes with
  | nil => exact hatEnd c (List.mem_of_mem_head? hc)
  | cons attr more =>
    rw [List.flatMap_cons, source, List.append_assoc, List.append_assoc,
      List.head?_append_of_ne_nil _ attr.gap.ne_nil] at hc
    exact attr.gap.blank c (List.mem_of_mem_head? hc)

theorem sign_not_mem_sources (hatEnd : atEnd.Blank) :
    '=' ∉ (Text.trimStart (attributes.flatMap source ++ atEnd)).head? := by
  cases attributes with
  | nil =>
    have hnil : atEnd.trimStart = [] := List.dropWhile_eq_nil_iff.2 hatEnd
    rw [List.flatMap_nil, List.nil_append, hnil]
    exact nofun
  | cons attr more =>
    obtain ⟨c, cs, hname⟩ := List.exists_cons_of_ne_nil attr.name_ne_nil
    have hc := attr.name_free c (hname ▸ List.mem_cons_self)
    rw [List.flatMap_cons, source, bare, hname, List.append_assoc, List.append_assoc,
      attr.gap.blank.trimStart_append, List.cons_append, List.cons_append,
      Text.trimStart_of_head (by simpa using hc.1)]
    rintro ⟨⟩
    exact hc.2 (by decide)

theorem freeUpToQuote_sources (hatEnd : atEnd.Blank) : FreeUpToQuote (attributes.flatMap source ++ atEnd) := by
  induction attributes with
  | nil =>
    rw [List.flatMap_nil, List.nil_append]
    exact .of_not_mem (hatEnd.not_mem (by decide))
  | cons attr more ih =>
    have hlabel : '{' ∉ attr.label := attr.not_mem_label (by decide)
    rw [List.flatMap_cons, source_eq, List.append_assoc, List.append_assoc]
    refine FreeUpToQuote.prepend hlabel ?_
    cases hvalue : attr.value? with
    | none => simpa [assignment, hvalue] using ih
    | some value =>
      have hassignment : attr.assignment = ['='] ++ '"' :: (value ++ ['"']) := by rw [assignment, hvalue]; rfl
      rw [hassignment, List.append_assoc]
      exact FreeUpToQuote.prepend (by decide) (freeUpToQuote_quote _)

theorem passesOver_source (h : attr.interpolated = false) (hatEnd : atEnd.Blank) :
    PassesOver attr.source (attributes.flatMap source ++ atEnd) := by
  rw [source_eq]
  cases hvalue : attr.value? with
  | none =>
    rw [assignment, hvalue, List.append_nil]
    refine .of_lacks (lacks_of_no_sign (attr.not_mem_label (by decide)) ?_ ?_)
    · exact head_sources hatEnd
    · exact sign_not_mem_sources hatEnd
  | some value =>
    have hfront : '"' ∉ attr.label ++ ['='] := List.not_mem_append (attr.not_mem_label (by decide)) (by decide)
    have hexpression : hasExpression value = false := by rwa [interpolated, hvalue] at h
    have hshape : attr.label ++ attr.assignment = (attr.label ++ ['=']) ++ '"' :: (value ++ ['"']) := by
      simp [assignment, hvalue]
    rw [hshape]
    exact passesOver_quoted hfront (attr.value_free value hvalue).1 hexpression (freeUpToQuote_sources hatEnd)

/-- What stays of an attribute where those with expressions are gathered. -/
def stays (attr : TagAttribute) : Text := if attr.interpolated then attr.gap.text else attr.source

/-- **The attributes with expressions are gathered one by one**, and nothing else. -/
theorem gathered_sources (hatEnd : atEnd.Blank) :
    gathered (attributes.flatMap source ++ atEnd) = attributes.filterMap binding? ∧
      remaining (attributes.flatMap source ++ atEnd) = attributes.flatMap stays ++ atEnd := by
  induction attributes with
  | nil =>
    have hpasses := PassesOver.of_lacks (lacks_blank hatEnd [])
    rw [PassesOver, List.append_nil] at hpasses
    exact ⟨hpasses.1, hpasses.2.trans (List.append_nil atEnd)⟩
  | cons attr more ih =>
    obtain ⟨hgathered, hremaining⟩ := ih
    rw [List.flatMap_cons, List.flatMap_cons, List.append_assoc, List.append_assoc]
    cases hinterpolated : attr.interpolated with
    | true =>
      obtain ⟨value, hvalue, hexpression⟩ := attr.interpolated_iff.1 hinterpolated
      have hname := attr.name_plain value hvalue hexpression
      have hbinding : attr.binding? = some ⟨attr.name, concatenation value⟩ := by
        simp [binding?, hvalue, hexpression]
      have hread : ∀ rest, readAttribute (attr.bare ++ rest) = some ((attr.name, value), rest) := fun rest => by
        have hread := readAttribute_of_name hname Text.Blank.nil Text.Blank.nil (attr.value_free value hvalue).1
          (hasBraces_of_hasExpression hexpression) rest
        simpa [bare, assignment, hvalue] using hread
      obtain ⟨hfirst, hgap⟩ := gathered_attribute attr.gap.blank attr.bare_ne_nil (hread _) hexpression
      rw [source, List.append_assoc]
      refine ⟨?_, ?_⟩
      · rw [hfirst, hgathered, List.filterMap_cons_some hbinding]
      · rw [hgap, hremaining, stays, if_pos hinterpolated]
    | false =>
      have hnone : attr.binding? = none := by
        rw [binding?]
        cases hvalue : attr.value? with
        | none => rfl
        | some value =>
          have hexpression : hasExpression value = false := by rwa [interpolated, hvalue] at hinterpolated
          simp [hexpression]
      have hpasses : PassesOver attr.source (more.flatMap source ++ atEnd) :=
        attr.passesOver_source hinterpolated hatEnd
      refine ⟨?_, ?_⟩
      · rw [hpasses.1, hgathered, List.filterMap_cons_none hnone]
      · rw [hpasses.2, hremaining, stays, if_neg (by simp [hinterpolated])]

/-! ### What stays -/

theorem map_bare_kept (before : Template.Blanks) (attributes : List TagAttribute) :
    (kept before attributes).map bare = (attributes.filter fun attr => !attr.interpolated).map bare := by
  induction attributes generalizing before with
  | nil => rfl
  | cons attr more ih =>
    rw [kept]
    split
    next hinterpolated => rw [ih, List.filter_cons_of_neg (by simp [hinterpolated])]
    next hinterpolated =>
      rw [List.map_cons, ih, List.filter_cons_of_pos (by simp [hinterpolated]), List.map_cons, bare_withGap]

/-- What stays of attributes are those that are kept, and blanks behind them. -/
theorem exists_kept_sources (before : Template.Blanks) (attributes : List TagAttribute) :
    ∃ blanks : Text, blanks.Blank ∧
      before.text ++ attributes.flatMap stays = (kept before attributes).flatMap source ++ blanks := by
  induction attributes generalizing before with
  | nil => exact ⟨before.text, before.blank, List.append_nil _⟩
  | cons attr more ih =>
    rw [kept, List.flatMap_cons, stays]
    split
    · obtain ⟨blanks, hblanks, heq⟩ := ih (attr.gap.behind before).toBlanks
      exact ⟨blanks, hblanks, by rw [← heq, ← List.append_assoc]; rfl⟩
    · obtain ⟨blanks, hblanks, heq⟩ := ih .none
      have hsource : (attr.withGap (attr.gap.behind before)).source = before.text ++ attr.source :=
        List.append_assoc ..
      change more.flatMap stays = _ at heq
      exact ⟨blanks, hblanks, by simp only [heq, List.flatMap_cons, hsource, List.append_assoc]⟩

theorem trim_append_sources {text : Text} (htrim : text.trim = text) (hne : text ≠ [])
    (attributes : List TagAttribute) :
    (text ++ attributes.flatMap source).trim = text ++ attributes.flatMap source := by
  induction attributes generalizing text with
  | nil => rwa [List.flatMap_nil, List.append_nil]
  | cons attr more ih =>
    rw [List.flatMap_cons, ← List.append_assoc, source]
    exact ih (Text.trim_append_of_ends htrim attr.trim_bare hne attr.bare_ne_nil attr.gap.text)
      (List.append_ne_nil_of_left_ne_nil hne _)

end TagAttribute

/-! ## Tags in text -/

namespace StartTag

variable (tag : StartTag)

/-- What stays of the attributes is trimmed and put behind one space. -/
theorem left_sources {stays : Text}
    (h : stays = Text.trim (tag.attributes.flatMap TagAttribute.stays ++ tag.atEnd.text)) :
    (if stays.isEmpty then [] else ' ' :: stays) = tag.left.flatMap TagAttribute.source := by
  obtain ⟨blanks, hblanks, heq⟩ := TagAttribute.exists_kept_sources .none tag.attributes
  change tag.attributes.flatMap TagAttribute.stays = _ at heq
  rw [heq, List.append_assoc] at h
  have hbehind := hblanks.append tag.atEnd.blank
  rw [left]
  cases hkept : TagAttribute.kept .none tag.attributes with
  | nil =>
    have htrim := Text.trim_pad Text.Blank.nil hbehind (rfl : Text.trim [] = [])
    rw [hkept] at h
    rw [h.trans htrim]
    rfl
  | cons attr more =>
    have htrim := TagAttribute.trim_append_sources attr.trim_bare attr.bare_ne_nil more
    have hstays : stays = attr.bare ++ more.flatMap TagAttribute.source := by
      rw [h, hkept, List.flatMap_cons, TagAttribute.source, List.append_assoc, List.append_assoc,
        ← List.append_assoc attr.bare]
      exact Text.trim_pad attr.gap.blank hbehind htrim
    have hne : stays ≠ [] := hstays ▸ List.append_ne_nil_of_left_ne_nil attr.bare_ne_nil _
    rw [if_neg (by simpa using hne), hstays]
    rfl

theorem angle_not_mem_attributeText : '>' ∉ tag.attributeText := by
  refine List.not_mem_append (fun hm => ?_) (tag.atEnd.blank.not_mem (by decide))
  obtain ⟨attr, -, hm⟩ := List.mem_flatMap.1 hm
  exact attr.angle_not_mem_source hm

theorem compileAttributes_source (rest : Text) :
    compileAttributes (tag.source ++ rest) = tag.rewritten ++ compileAttributes rest := by
  have hread : readTag (tag.source ++ rest) = some ((tag.name, tag.attributeText), rest) := by
    have hsource : tag.source ++ rest = '<' :: (tag.name ++ (tag.attributeText ++ '>' :: rest)) := by
      simp [source]
    rw [hsource]
    exact readTag_of_name tag.isName (TagAttribute.head_sources tag.atEnd.blank)
      tag.angle_not_mem_attributeText rest
  have hne : tag.source ≠ [] := List.cons_ne_nil _ _
  obtain ⟨hgathered, hremaining⟩ : gathered tag.attributeText = tag.bindings ∧
      remaining tag.attributeText = tag.attributes.flatMap TagAttribute.stays ++ tag.atEnd.text :=
    TagAttribute.gathered_sources tag.atEnd.blank
  have hleft := tag.left_sources (congrArg Text.trim hremaining)
  rw [compileAttributes_eq_rewrite, Segment.rewrite_hit hne hread, ← compileAttributes_eq_rewrite]
  refine congrArg (· ++ _) ?_
  rw [compileTag_eq, hgathered, hleft, rewritten]
  simp only [List.append_assoc, List.cons_append, List.nil_append]

theorem map_bare_left : tag.left.map TagAttribute.bare =
    (tag.attributes.filter fun attr => !attr.interpolated).map TagAttribute.bare := by
  rw [← TagAttribute.map_bare_kept .none, left]
  cases TagAttribute.kept .none tag.attributes <;> rfl

end StartTag

/-- **Every tag of a text is rewritten exactly**, and the text around the tags stays as it is. The attributes
that stay in a tag are those without expressions, in their order. -/
theorem TaggedText.compileAttributes_eq_rewritten (text : TaggedText) :
    compileAttributes text.source = text.rewritten ∧
      ∀ piece ∈ text.pieces, piece.tag.left.map TagAttribute.bare =
        (piece.tag.attributes.filter fun attr => !attr.interpolated).map TagAttribute.bare := by
  refine ⟨?_, fun piece _ => piece.tag.map_bare_left⟩
  rw [source, rewritten, compileAttributes_append text.front_free]
  refine congrArg (text.front ++ ·) ?_
  induction text.pieces with
  | nil => rfl
  | cons piece more ih =>
    rw [List.flatMap_cons, List.flatMap_cons, List.append_assoc, piece.tag.compileAttributes_source,
      compileAttributes_append piece.behind_free, ih, List.append_assoc]

/-- Text with a tag of four attributes, two of them with expressions, and a tag without any. -/
def TaggedText.sample : TaggedText where
  front := "x ".toList
  front_free := by decide
  pieces := [
    { tag :=
        { name := ['i'], isName := by decide, atEnd := Template.Blanks.none
          attributes := [
            { gap := .space, name := "label".toList, name_ne_nil := by decide, name_free := by decide
              value? := some "\x7b\x7bt\x7d\x7d".toList, value_free := by decide, name_plain := by decide },
            { gap := .space, name := "hidden".toList, name_ne_nil := by decide, name_free := by decide
              value? := none, value_free := by decide, name_plain := by decide },
            { gap := .space, name := "alt".toList, name_ne_nil := by decide, name_free := by decide
              value? := some "a\x7b\x7b u \x7d\x7d".toList, value_free := by decide, name_plain := by decide },
            { gap := .space, name := "[href]".toList, name_ne_nil := by decide, name_free := by decide
              value? := some "v".toList, value_free := by decide, name_plain := by decide }] }
      behind := "y".toList, behind_free := by decide },
    { tag :=
        { name := ['b'], isName := by decide, atEnd := Template.Blanks.none
          attributes := [
            { gap := .space, name := ['k'], name_ne_nil := by decide, name_free := by decide
              value? := some "w".toList, value_free := by decide, name_plain := by decide }] }
      behind := [], behind_free := List.not_mem_nil }]

/-- One space is left in front of the first attribute that stays, and the blanks of those that go in front
of the others. -/
theorem TaggedText.compileAttributes_eq_rewritten_sample :
    compileAttributes
        "x <i label=\"\x7b\x7bt\x7d\x7d\" hidden alt=\"a\x7b\x7b u \x7d\x7d\" [href]=\"v\">y<b k=\"w\">".toList =
      "x <i hidden  [href]=\"v\" data-quarc-attr-bindings=\"[\x7b&apos;attr&apos;:&apos;label&apos;,".toList ++
        "&apos;expr&apos;:&apos;(t)&apos;\x7d,\x7b&apos;attr&apos;:&apos;alt&apos;,".toList ++
        "&apos;expr&apos;:&apos;&apos;a&apos; + (u)&apos;\x7d]\">y<b k=\"w\">".toList := by
  have hsource : sample.source =
      "x <i label=\"\x7b\x7bt\x7d\x7d\" hidden alt=\"a\x7b\x7b u \x7d\x7d\" [href]=\"v\">y<b k=\"w\">".toList := by
    decide
  rw [← hsource, sample.compileAttributes_eq_rewritten.1]
  decide +kernel

end Interpolation

end FlowTemplate
