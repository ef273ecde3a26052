/-
Opening tags in a template. Behind a text that leaves neither a tag nor an expression open, a tidy tag is
compiled by itself. If its values with expressions stand in double quotes, they are all gathered and no
braces are left in the tag; a value with an expression in single quotes stays, and what the expression
becomes is an element inside the tag (`OpeningTag.compile_tag_iff`).
-/
import FlowTemplate.Proofs.Interpolation.OpeningTag
import Mathlib.Algebra.Order.BigOperators.Group.List
import Mathlib.Algebra.Order.Group.Nat

namespace FlowTemplate

namespace Interpolation

open Markup

/-! ## No expression is left -/

theorem not_infix_append {front rest : Text} (hfront : '{' ∉ front) (h : ¬ opening <:+: rest) :
    ¬ opening <:+: front ++ rest := mt (opening_infix_append_iff hfront).1 h

namespace Binding

theorem brace_not_mem_code {c : Char} (hc : c ≠ '{') : '{' ∉ code c := by
  intro hm
  obtain ⟨d, hd, hm⟩ := List.mem_flatMap.1 hm
  have hbrace : '{' = d := (mem_referQuote hm).resolve_right (by decide)
  exact hc ((mem_jsonChar (hbrace ▸ hd)).resolve_right (by decide)).symm

theorem not_infix_flatMap_code {text : Text} (h : ¬ opening <:+: text) : ¬ opening <:+: text.flatMap code := by
  induction text with
  | nil => exact fun hwithin => absurd hwithin (by decide)
  | cons c cs ih =>
    have hcs : ¬ opening <:+: cs.flatMap code := ih fun hwithin => h (hwithin.trans (List.suffix_cons c cs).isInfix)
    by_cases hc : c = '{'
    · subst hc
      intro hwithin
      rcases List.infix_cons_iff.1 hwithin with ⟨rest, hrest⟩ | hinside
      · have hbegins : opening <+: '{' :: cs := prefix_of_code (by decide) hrest.symm
        exact h hbegins.isInfix
      · exact hcs hinside
    · exact not_infix_append (brace_not_mem_code hc) hcs

theorem not_infix_encode {bindings : List Binding} (hnames : ∀ binding ∈ bindings, '{' ∉ binding.name)
    (h : ∀ binding ∈ bindings, ¬ opening <:+: binding.expression) : ¬ opening <:+: encode bindings := by
  rw [encode_eq]
  refine not_infix_flatMap_code (not_infix_spell (by decide) (by decide) (fun binding hb hwithin => ?_) h)
  exact hnames binding hb (hwithin.subset (by decide))

end Binding

theorem QuotedAttribute.Tidy.not_infix_concatenation {attr : QuotedAttribute} (h : attr.Tidy) :
    ¬ opening <:+: concatenation attr.value := by
  have hopening : Unframed opening := .of_ends rfl rfl (by decide) (by decide)
  intro hwithin
  obtain ⟨segment, hsegment, hshown⟩ := hopening.of_concatenation hwithin
  exact h.pairs segment hsegment hshown

namespace OpeningTag

variable {chosen : QuotedAttribute → Bool}

theorem mem_bindings {tag : OpeningTag} {binding : Binding} (h : binding ∈ tag.bindings chosen) :
    ∃ attr ∈ tag.attributes, binding = ⟨attr.name, concatenation attr.value⟩ := by
  obtain ⟨attr, hattr, hbinding⟩ := List.mem_flatMap.1 h
  rw [QuotedAttribute.bindings] at hbinding
  split at hbinding
  · exact ⟨attr, hattr, List.mem_singleton.1 hbinding⟩
  · cases hbinding

theorem gather_of_bindings_eq_nil {tag : OpeningTag} (h : tag.bindings chosen = []) :
    tag.gather chosen = '<' :: (tag.name ++
      (tag.attributes.flatMap (QuotedAttribute.kept chosen) ++ tag.atEnd.text ++ ['>'])) := by
  have hkept : tag.attributes.flatMap (QuotedAttribute.kept chosen) =
      tag.attributes.flatMap QuotedAttribute.source := by
    refine List.flatMap_congr fun attr hattr => ?_
    have hnone := List.flatMap_eq_nil_iff.1 h attr hattr
    rw [QuotedAttribute.bindings] at hnone
    split at hnone
    · cases hnone
    next hchosen => rw [QuotedAttribute.kept, if_neg hchosen]
  rw [gather, h, hkept]
  rfl

theorem gather_congr {other : QuotedAttribute → Bool} {tag : OpeningTag}
    (h : ∀ attr ∈ tag.attributes, chosen attr = other attr) : tag.gather chosen = tag.gather other := by
  have hbindings : tag.bindings chosen = tag.bindings other := List.flatMap_congr fun attr hattr => by
    rw [QuotedAttribute.bindings, QuotedAttribute.bindings, h attr hattr]
  have hkept : tag.kept chosen = tag.kept other := by
    rw [kept, kept]
    refine congrArg (fun text => Text.trim (text ++ tag.atEnd.text)) (List.flatMap_congr fun attr hattr => ?_)
    rw [QuotedAttribute.kept, QuotedAttribute.kept, h attr hattr]
  rw [gather, gather, hbindings, hkept]

theorem not_infix_kept {attributes : List QuotedAttribute} (h : ∀ attr ∈ attributes, attr.Tidy) {atEnd : Text}
    (hatEnd : atEnd.Blank) :
    ¬ opening <:+: attributes.flatMap (QuotedAttribute.kept QuotedAttribute.interpolated) ++ atEnd := by
  induction attributes with
  | nil =>
    have hbrace : '{' ∉ atEnd := hatEnd.not_mem (by decide)
    exact fun hwithin => hbrace (hwithin.subset (by decide))
  | cons attr more ih =>
    obtain ⟨hattr, hmore⟩ := List.forall_mem_cons.1 h
    rw [List.flatMap_cons, List.append_assoc, QuotedAttribute.kept]
    cases hexpression : attr.interpolated with
    | true => exact not_infix_append (attr.gap.blank.not_mem (by decide)) (ih hmore)
    | false =>
      have hsource := QuotedAttribute.not_infix_source hattr hexpression
      obtain ⟨front, hfront⟩ := attr.source_eq_concat
      rw [if_neg Bool.false_ne_true, hfront, List.append_assoc]
      rw [hfront] at hsource
      refine Text.not_infix_append_cons attr.quote.char_not_mem_opening (fun hwithin => hsource ?_) (ih hmore)
      exact hwithin.trans (List.prefix_append _ _).isInfix

/-- **No double braces are left in a tidy tag** where all its expressions are gathered. -/
theorem not_infix_gathered {tag : OpeningTag} (h : tag.Tidy) : ¬ opening <:+: tag.gathered := by
  have hname : '{' ∉ '<' :: tag.name :=
    List.not_mem_cons_of_ne_of_not_mem (by decide) (h.name.continues.not_mem (by decide))
  have hkept := not_infix_kept h.attributes tag.atEnd.blank
  have hnone : ¬ opening <:+: ([] : Text) := by decide
  rw [gathered]
  by_cases hbindings : tag.bindings QuotedAttribute.interpolated = []
  · rw [gather_of_bindings_eq_nil hbindings, ← List.cons_append]
    exact not_infix_append hname (Text.not_infix_append_cons (by decide) hkept hnone)
  · have htrim : ¬ opening <:+: tag.kept QuotedAttribute.interpolated := by
      obtain ⟨before, after, -, -, htext⟩ := Text.exists_blanks_trim
        (tag.attributes.flatMap (QuotedAttribute.kept QuotedAttribute.interpolated) ++ tag.atEnd.text)
      intro hwithin
      refine hkept (hwithin.trans ⟨before, after, ?_⟩)
      rw [kept, List.append_assoc]
      exact htext.symm
    have hpadded : ¬ opening <:+: if (tag.kept QuotedAttribute.interpolated).isEmpty then []
        else ' ' :: tag.kept QuotedAttribute.interpolated := by
      split
      · exact hnone
      · exact Text.not_infix_append_cons (a := []) (by decide) hnone htrim
    have hencoded : ¬ opening <:+: Binding.encode (tag.bindings QuotedAttribute.interpolated) := by
      refine Binding.not_infix_encode (fun binding hm => ?_) fun binding hm => ?_
      · obtain ⟨attr, hattr, rfl⟩ := mem_bindings hm
        exact (h.attributes attr hattr).brace
      · obtain ⟨attr, hattr, rfl⟩ := mem_bindings hm
        exact (h.attributes attr hattr).not_infix_concatenation
    have hattribute : ¬ opening <:+: bindingsAttribute ++ (['=', '"'] ++
        (Binding.encode (tag.bindings QuotedAttribute.interpolated) ++ '"' :: ['>'])) :=
      not_infix_append (by decide) <| not_infix_append (by decide) <|
        Text.not_infix_append_cons (by decide) hencoded (by decide)
    have hshape := not_infix_append hname <|
      Text.not_infix_append_cons (c := ' ') (by decide) hpadded hattribute
    rw [gather, if_neg (mt List.isEmpty_iff.1 hbindings)]
    simpa only [List.append_assoc, List.cons_append, List.nil_append] using hshape

end OpeningTag

/-! ## What stands in front of a tag -/

/-- Whether a text begins with a tag that no angle closes. -/
def opensTag (text : Text) : Bool :=
  match (Text.after? ['<'] text).bind readName? with
  | some (_, blank :: inside) => isBlank blank && !inside.contains '>'
  | _ => false

/-- Behind the last closing brace of a text no double braces open an expression. -/
def ExpressionsClosed (text : Text) : Prop := ∀ t, t <:+ text → '}' ∉ t → ¬ opening <:+: t

/-- A text in which neither a tag nor an expression is left open. -/
structure Settled (text : Text) : Prop where
  tag : ∀ t, t <:+ text → opensTag t = false
  expressions : ExpressionsClosed text

instance {text : Text} : Decidable (Settled text) :=
  decidable_of_iff ((∀ t ∈ text.tails, opensTag t = false) ∧ ∀ t ∈ text.tails, '}' ∉ t → ¬ opening <:+: t) <| by
    simp only [List.mem_tails]
    exact ⟨fun h => ⟨h.1, h.2⟩, fun h => ⟨h.tag, h.expressions⟩⟩

/-- A tag that opens behind such a text is not taken for a part of one in it. -/
theorem readTag_append_of_closed {text : Text} (h : opensTag text = false) (hne : text ≠ []) (rest : Text) :
    readTag (text ++ '<' :: rest) = (readTag text).map fun (tag, left) => (tag, left ++ '<' :: rest) := by
  refine readTag_append_of_readUntil? (by decide) (by decide) (by decide) hne ?_
  rintro inside name d left rfl hread hblank
  have hafter : Text.after? ['<'] ('<' :: inside) = some inside := rfl
  rw [opensTag, hafter, Option.bind_some, hread] at h
  have hclose : '>' ∈ left := by simpa [hblank] using h
  exact readUntil?_append_of_mem (List.mem_cons_of_mem d hclose) ('<' :: rest)

theorem readExpression_append_of_closed {text : Text} (h : '}' ∉ text → ¬ opening <:+: text) (rest : Text) :
    readExpression (text ++ '<' :: rest) =
      (readExpression text).map fun (expression, left) => (expression, left ++ '<' :: rest) := by
  have hafter := Text.after?_append_cons (by decide : '<' ∉ opening) text rest
  rw [readExpression, readExpression, hafter]
  cases hopen : Text.after? opening text with
  | none => rfl
  | some inside =>
    obtain rfl := Text.after?_eq_some_iff.1 hopen
    have hclose : '}' ∈ inside := by
      by_contra hfree
      exact h (List.not_mem_append (by decide) hfree) (List.prefix_append _ _).isInfix
    simp only [Option.bind_eq_bind, Option.map_some, Option.bind_some, readUntil?_append_of_mem hclose]
    cases readUntil? '}' inside with
    | none => rfl
    | some found =>
      obtain ⟨expression, left⟩ := found
      simp only [Option.map_some, Option.bind_some]
      split
      · rfl
      · cases left with
        | nil => rfl
        | cons e left =>
          by_cases he : e = '}'
          · subst he
            rfl
          · simp [he]

/-! ## Tags in a template -/

theorem Binding.encode_eq_concat {bindings : List Binding} (h : bindings ≠ []) :
    ∃ front, encode bindings = front ++ ['}', ']'] := by
  have hmore : ∀ more : List Binding, ∃ front, spellMore more = front ++ ['}', ']'] := by
    intro more
    induction more with
    | nil => exact ⟨['\''], rfl⟩
    | cons binding more ih =>
      obtain ⟨front, hfront⟩ := ih
      refine ⟨closed ++ ([','] ++ (opened ++ (binding.name ++ (named ++ (binding.expression ++ front))))), ?_⟩
      simp only [spellMore, hfront, List.append_assoc]
  obtain ⟨binding, more, rfl⟩ := List.exists_cons_of_ne_nil h
  obtain ⟨front, hfront⟩ := hmore more
  have hcode : ['}', ']'].flatMap code = ['}', ']'] := by decide
  refine ⟨(['['] ++ (opened ++ (binding.name ++ (named ++ (binding.expression ++ front))))).flatMap code, ?_⟩
  rw [encode_eq, spell, hfront]
  conv_rhs => rw [← hcode, ← List.flatMap_append]
  simp only [List.append_assoc]

theorem compileTag_closes (whole name attributes : Text) :
    compileTag whole name attributes = whole ∨
      ∃ front, compileTag whole name attributes = front ++ '}' :: [']', '"', '>'] := by
  rw [compileTag_eq]
  split
  next => exact .inl rfl
  next hbindings =>
    obtain ⟨front, hfront⟩ := Binding.encode_eq_concat fun hnil => hbindings (List.isEmpty_iff.2 hnil)
    refine .inr ⟨['<'] ++ name ++ (if (remaining attributes).trim.isEmpty then []
      else ' ' :: (remaining attributes).trim) ++ [' '] ++ bindingsAttribute ++ ['=', '"'] ++ front, ?_⟩
    rw [hfront]
    simp only [List.append_assoc, List.cons_append, List.nil_append]

theorem ExpressionsClosed.compileAttributes {text : Text} (h : ExpressionsClosed text) :
    ExpressionsClosed (compileAttributes text) := by
  intro t ht hfree hwithin
  have hhit : ∀ (tag : Text × Text) (w rest : Text), readTag (w ++ rest) = some (tag, rest) →
      compileTag w tag.1 tag.2 = w ∨
        ∃ front back, compileTag w tag.1 tag.2 = front ++ '}' :: back ∧ '{' ∉ back := fun tag w _ _ =>
    (compileTag_closes w tag.1 tag.2).imp_right fun ⟨front, heq⟩ => ⟨front, _, heq, by decide⟩
  rw [compileAttributes_eq_rewrite] at ht
  obtain ⟨front, back, rfl, hfront, hback⟩ := Segment.suffix_rewrite readTag_consumes hhit ht hfree
  have hbehind := (opening_infix_append_iff hfront).1 hwithin
  exact h back hback (fun hm => hfree (List.mem_append_right _ hm)) hbehind

theorem OpeningTag.gathered_eq_concat (tag : OpeningTag) : ∃ front, tag.gathered = front ++ ['>'] := by
  rw [gathered, gather]
  split
  · exact ⟨'<' :: (tag.name ++ tag.attributeText), by simp [source]⟩
  · exact ⟨_, by rw [← List.singleton_append (l := ['>']), ← List.append_assoc]⟩

theorem OpeningTag.compileContent_gathered {tag : OpeningTag} (h : tag.Tidy) (rest : Text) :
    compileContent (tag.gathered ++ rest) = tag.gathered ++ compileContent rest := by
  have hlacks : Text.Lacks readExpression tag.gathered rest := by
    refine Text.Lacks.of_suffixes fun t hne ht => ?_
    rw [Option.eq_none_iff_forall_not_mem]
    rintro ⟨expression, left⟩ hread
    obtain ⟨inside, -, -, -, htext⟩ := readExpression_eq_some_iff.1 hread
    obtain ⟨init, hinit⟩ := tag.gathered_eq_concat
    obtain ⟨t, rfl, -⟩ := (List.suffix_concat_iff.1 (hinit ▸ ht)).resolve_left hne
    -- The braces that open the expression would stand in front of the angle.
    rw [List.append_assoc, opening] at htext
    cases t with
    | nil => cases (List.cons.inj htext).1
    | cons c t =>
      obtain ⟨rfl, hbehind⟩ := List.cons.inj htext
      cases t with
      | nil => cases (List.cons.inj hbehind).1
      | cons d t =>
        obtain ⟨rfl, -⟩ := List.cons.inj hbehind
        exact not_infix_gathered h (List.IsInfix.trans ⟨[], t ++ ['>'], rfl⟩ ht.isInfix)
  rw [compileContent_eq_rewrite, compileContent_eq_rewrite, hlacks.rewrite]

theorem OpeningTag.gathered_cons (tag : OpeningTag) (rest : Text) :
    ∃ more, tag.gathered ++ rest = '<' :: more := by
  rw [gathered, gather]
  split <;> exact ⟨_, rfl⟩

/-- A tidy tag behind a settled text is found from there on. -/
theorem OpeningTag.compileAttributes_before {tag : OpeningTag} (h : tag.Tidy) {before : Text}
    (hbefore : Settled before) (after : Text) :
    compileAttributes (before ++ (tag.source ++ after)) =
      compileAttributes before ++ (tag.gather QuotedAttribute.taken ++ compileAttributes after) := by
  rw [← compileAttributes_source h]
  simp only [compileAttributes_eq_rewrite]
  exact Segment.rewrite_append readTag_consumes fun t hne ht =>
    readTag_append_of_closed (hbefore.tag t ht) hne _

/-- What stands in front of a gathered tag has its own elements. -/
theorem OpeningTag.compileContent_before {tag : OpeningTag} (h : tag.Tidy) {before : Text}
    (hbefore : Settled before) (after : Text) :
    compileContent (compileAttributes before ++ (tag.gathered ++ after)) =
      compile before ++ (tag.gathered ++ compileContent after) := by
  obtain ⟨more, hmore⟩ := tag.gathered_cons after
  rw [← compileContent_gathered h, compile, hmore]
  simp only [compileContent_eq_rewrite]
  exact Segment.rewrite_append readExpression_consumes fun t _ ht =>
    readExpression_append_of_closed (hbefore.expressions.compileAttributes t ht) _

/-! ## Quotes that stay -/

theorem count_eq_zero_of_blank {blanks : Text} (h : blanks.Blank) : blanks.count '\'' = 0 :=
  List.count_eq_zero.2 (h.not_mem (by decide))

theorem count_trim (text : Text) : text.trim.count '\'' = text.count '\'' := by
  obtain ⟨before, after, hbefore, hafter, htext⟩ := Text.exists_blanks_trim text
  conv_rhs => rw [htext]
  simp [count_eq_zero_of_blank hbefore, count_eq_zero_of_blank hafter]

theorem count_contentSpan (expression : Text) :
    (contentSpan expression).count '\'' = expression.count '\'' := by
  have hfront : '\'' ∉ "<span [innerText]=\"".toList := by decide
  have hback : '\'' ∉ "\"></span>".toList := by decide
  unfold contentSpan
  generalize "<span [innerText]=\"".toList = front at hfront
  generalize "\"></span>".toList = back at hback
  rw [List.count_append, List.count_append, List.count_eq_zero.2 hfront, List.count_eq_zero.2 hback,
    Nat.zero_add, Nat.add_zero]

theorem count_compileContent (text : Text) : (compileContent text).count '\'' = text.count '\'' := by
  rw [compileContent_eq_rewrite]
  refine Segment.count_rewrite readExpression_consumes (fun expression w rest hsome => ?_) text
  obtain ⟨inside, -, -, rfl, rfl⟩ := readExpression_shape hsome
  have hbraces : opening.count '\'' = 0 ∧ closing.count '\'' = 0 := by decide
  rw [count_contentSpan, count_trim, List.count_append, List.count_append, hbraces.1, hbraces.2, Nat.zero_add,
    Nat.add_zero]

theorem Binding.count_encode (bindings : List Binding) : (encode bindings).count '\'' = 0 := by
  refine List.count_eq_zero.2 fun hm => ?_
  obtain ⟨c, -, hc⟩ := List.mem_flatMap.1 hm
  rcases mem_referQuote hc with rfl | hreference
  · exact absurd hc (by decide)
  · exact absurd hreference (by decide)

namespace OpeningTag

/-- Single quotes stay with the attributes that are not chosen. -/
theorem count_gather (chosen : QuotedAttribute → Bool) (tag : OpeningTag) :
    (tag.gather chosen).count '\'' =
      tag.name.count '\'' + (tag.attributes.flatMap (QuotedAttribute.kept chosen)).count '\'' := by
  have hatEnd := count_eq_zero_of_blank tag.atEnd.blank
  by_cases hbindings : tag.bindings chosen = []
  · rw [gather_of_bindings_eq_nil hbindings]
    simp [hatEnd]
  · have hkept : (tag.kept chosen).count '\'' =
        (tag.attributes.flatMap (QuotedAttribute.kept chosen)).count '\'' := by
      rw [kept, count_trim, List.count_append, hatEnd, Nat.add_zero]
    have hpadded : (if (tag.kept chosen).isEmpty then [] else ' ' :: tag.kept chosen).count '\'' =
        (tag.kept chosen).count '\'' := by
      split
      next hempty => rw [List.isEmpty_iff.1 hempty]
      next => rfl
    have hfixed : ['<'].count '\'' = 0 ∧ [' '].count '\'' = 0 ∧ bindingsAttribute.count '\'' = 0 ∧
        ['=', '"'].count '\'' = 0 ∧ ['"', '>'].count '\'' = 0 := by decide
    rw [gather, if_neg (mt List.isEmpty_iff.1 hbindings)]
    simp only [List.count_append, hpadded, hkept, hfixed, Binding.count_encode, Nat.zero_add, Nat.add_zero]

/-- What is gathered leaves fewer single quotes if it includes an expression in single quotes. -/
theorem count_gathered_lt {tag : OpeningTag} {attr : QuotedAttribute} (hattr : attr ∈ tag.attributes)
    (hexpression : attr.interpolated = true) (hquote : attr.quote = .single) :
    tag.gathered.count '\'' < (tag.gather QuotedAttribute.taken).count '\'' := by
  rw [gathered, count_gather, count_gather, List.count_flatMap, List.count_flatMap]
  refine Nat.add_lt_add_left (List.sum_lt_sum _ _ (fun other _ => ?_) ⟨attr, hattr, ?_⟩) _
  · simp only [Function.comp, QuotedAttribute.kept]
    cases hother : other.interpolated with
    | true =>
      rw [if_pos rfl, count_eq_zero_of_blank other.gap.blank]
      exact Nat.zero_le _
    | false =>
      have htaken : other.taken = false := by rw [QuotedAttribute.taken, hother, Bool.false_and]
      rw [htaken]
  · have htaken : attr.taken = false := by rw [QuotedAttribute.taken, hquote]; exact Bool.and_false _
    have hmem : '\'' ∈ attr.source := by
      rw [QuotedAttribute.source_eq, hquote]
      exact List.mem_append_right _ List.mem_cons_self
    simp only [Function.comp, QuotedAttribute.kept, hexpression, htaken, if_true]
    rw [count_eq_zero_of_blank attr.gap.blank]
    exact List.count_pos_iff.2 hmem

/-- **A tidy tag is compiled by itself**, all its attributes with expressions gathered and no expression in
it made an element, if and only if all its values with expressions stand in double quotes. -/
theorem compile_tag_iff {tag : OpeningTag} (h : tag.Tidy) {before : Text} (hbefore : Settled before)
    (after : Text) :
    compile (before ++ (tag.source ++ after)) = compile before ++ (tag.gathered ++ compile after) ↔
      ∀ attr ∈ tag.attributes, attr.interpolated = true → attr.quote = .double := by
  constructor
  · intro hcompile attr hattr hexpression
    by_contra hquote
    have hsingle : attr.quote = .single := by
      cases hq : attr.quote with
      | single => rfl
      | double => exact absurd hq hquote
    -- Quotes around the value would be left, for elements are written without such quotes.
    have hcount := congrArg (List.count '\'') hcompile
    rw [compile, compileAttributes_before h hbefore, compile, compile] at hcount
    simp only [List.count_append, count_compileContent] at hcount
    have hlt := count_gathered_lt hattr hexpression hsingle
    omega
  · intro hdouble
    have hchosen : tag.gather QuotedAttribute.taken = tag.gathered := gather_congr fun attr hattr => by
      cases hexpression : attr.interpolated with
      | true => exact QuotedAttribute.taken_iff.2 ⟨hexpression, hdouble attr hattr hexpression⟩
      | false => rw [QuotedAttribute.taken, hexpression, Bool.false_and]
    rw [compile, compileAttributes_before h hbefore, hchosen, compileContent_before h hbefore, ← compile]

/-- A link with an expression in its title. -/
def link (quote : Quote) : OpeningTag where
  name := ['a']
  attributes := [
    { gap := .space, name := "href".toList, name_ne_nil := by decide,
      name_free := by decide, beforeSign := ⟨[], .nil⟩, afterSign := ⟨[], .nil⟩, quote := .double,
      value := ['/'], value_free := by decide },
    { gap := .space, name := "title".toList, name_ne_nil := by decide,
      name_free := by decide, beforeSign := ⟨[], .nil⟩, afterSign := ⟨[], .nil⟩, quote := quote,
      value := "Hi \x7b\x7b x \x7d\x7d".toList, value_free := by cases quote <;> decide }]
  atEnd := ⟨[], .nil⟩

theorem link_tidy (quote : Quote) : (link quote).Tidy := by
  have hattributes : ∀ attr ∈ (link quote).attributes, '>' ∉ attr.value ∧ '{' ∉ attr.name ∧
      (∀ segment ∈ Segment.ofText readExpression attr.value, ¬ opening <:+: shown segment) ∧
      IsName attr.name ∧ '=' ∉ attr.value ++ [attr.quote.char] := by
    cases quote <;> decide +kernel
  refine ⟨by cases quote <;> decide, fun attr hattr => ?_, .inr fun attr hattr blanks _ hwithin => ?_⟩
  · obtain ⟨hangle, hbrace, hpairs, hname, -⟩ := hattributes attr hattr
    exact ⟨hangle, hbrace, hpairs, fun _ => hname⟩
  · obtain ⟨-, -, -, -, hsign⟩ := hattributes attr hattr
    exact hsign (hwithin.subset List.mem_cons_self)

theorem compile_tag_iff_link :
    (link .double).Tidy ∧ Settled "<p>\x7b\x7b a \x7d\x7d ".toList ∧
      compile ("<p>\x7b\x7b a \x7d\x7d ".toList ++ ((link .double).source ++ "\x7b\x7b b \x7d\x7d".toList)) =
        compile "<p>\x7b\x7b a \x7d\x7d ".toList ++
          ((link .double).gathered ++ compile "\x7b\x7b b \x7d\x7d".toList) := by
  have hbefore : Settled "<p>\x7b\x7b a \x7d\x7d ".toList := by decide +kernel
  have hdouble : ∀ attr ∈ (link .double).attributes, attr.interpolated = true → attr.quote = .double := by
    decide +kernel
  exact ⟨link_tidy .double, hbefore, (compile_tag_iff (link_tidy .double) hbefore _).2 hdouble⟩

/-- Single quotes around the title leave its expression to become an element inside the tag. -/
theorem not_compile_tag : ¬ ∀ tag : OpeningTag, tag.Tidy →
    ¬ "<span [innerText]=".toList <:+: compile tag.source := by
  intro h
  refine h (link .single) (link_tidy .single) ?_
  have hcompiled : compile (link .single).source = "<a href=\"/\" title='Hi ".toList ++
      ("<span [innerText]=".toList ++ "\"x\"></span>'>".toList) := by decide +kernel
  rw [hcompiled]
  exact ⟨_, _, List.append_assoc _ _ _⟩

end OpeningTag

end Interpolation

end FlowTemplate
