/-
Interpolation leads every text to the same level of braces. Content always does: what it takes away is
a pair of opening braces and a pair of closing ones. Attributes move the value they gather, so they do
if each value is balanced, as it is where no quote stands in an interpolated expression.
-/
import FlowTemplate.Proofs.Container
import FlowTemplate.Proofs.Interpolation.Reading
import FlowTemplate.Proofs.Reading

namespace FlowTemplate

open Delimiter

namespace Text

variable {kind : Delimiter} {depth : Nat}

theorem level?_trim (text : Text) : kind.level? depth text.trim = kind.level? depth text := by
  obtain ⟨before, after, hbefore, hafter, htext⟩ := exists_blanks_trim text
  have hlevel : ∀ level, kind.level? level after = some level := fun _ => (hafter.balanced kind).level?
  conv_rhs => rw [htext, level?_append, (hbefore.balanced kind).level?, Option.bind_some, level?_append]
  simp only [hlevel, Option.bind_fun_some]

/-- A text in which every character stands for a text of its level. -/
theorem level?_flatMap {f : Char → Text}
    (h : ∀ c depth, kind.level? depth (f c) = kind.level? depth [c]) (text : Text) :
    kind.level? depth (text.flatMap f) = kind.level? depth text := by
  induction text generalizing depth with
  | nil => rfl
  | cons c cs ih =>
    rw [List.flatMap_cons, level?_append, h, ← List.singleton_append (l := cs), level?_append]
    simp only [ih]

theorem level?_joinWith {separator : Text} (h : kind.Balanced separator) (parts : List Text) :
    kind.level? depth (joinWith separator parts) = kind.level? depth parts.flatten := by
  cases parts with
  | nil => rfl
  | cons first rest =>
    have hrest : ∀ level, kind.level? level (rest.flatMap (separator ++ ·)) =
        kind.level? level rest.flatten := by
      intro level
      induction rest generalizing level with
      | nil => rfl
      | cons part rest ih =>
        rw [List.flatMap_cons, List.flatten_cons, List.append_assoc, level?_append, h.level?,
          Option.bind_some, level?_append, level?_append]
        simp only [ih]
    rw [joinWith_cons, List.flatten_cons, level?_append, level?_append]
    simp only [hrest]

end Text

/-- A text is rewritten to its level, if what stands in the place of every occurrence has the level of
that. -/
theorem Segment.level?_rewrite {α : Type} {kind : Delimiter} {depth : Nat} {read : Recogniser α}
    {onHit : α → Text → Text} (hread : read.Consumes) {text : Text}
    (hhit : ∀ value w rest, w ++ rest <:+ text → read (w ++ rest) = some (value, rest) →
      ∀ depth, kind.level? depth (onHit value w) = kind.level? depth w) :
    kind.level? depth (rewrite read onHit text) = kind.level? depth text := by
  induction text using reading hread generalizing depth with
  | nil => rfl
  | gap c cs hnone ih =>
    rw [rewrite_cons hnone, level?, level?]
    split
    · rfl
    · exact ih fun value w rest hs => hhit value w rest (hs.trans (List.suffix_cons c cs))
  | hit value w rest hw hsome ih =>
    have hrest : ∀ level, kind.level? level (rewrite read onHit rest) = kind.level? level rest :=
      fun level => ih fun value v back hs => hhit value v back (hs.trans (List.suffix_append w rest))
    rw [rewrite_hit hw hsome, level?_append, level?_append, hhit value w rest List.suffix_rfl hsome]
    simp only [hrest]

theorem Markup.Continues.balanced {name : Text} (h : Continues name) : brace.Balanced name :=
  .of_free (h.not_mem (by decide)) (h.not_mem (by decide))

namespace Interpolation

variable {depth : Nat}

/-! ## Content -/

/-- An expression in two pairs of braces leads to the level that the expression leads to. -/
theorem level?_interpolated {inside : Text} (h : '}' ∉ inside) :
    brace.level? depth (opening ++ inside ++ closing) = brace.level? depth inside := by
  have hinside : ∀ level, brace.level? level inside = some (level + inside.count '{') :=
    fun _ => level?_of_no_closer h
  have hopening : brace.level? depth opening = some (depth + 2) := level?_of_no_closer (by decide)
  have hclosing : ∀ level, brace.level? (level + 2) closing = some level := fun level => by
    simp [closing, level?, levelAfter, opener, closer]
  rw [level?_append, level?_append, hopening, Option.bind_some, hinside, Option.bind_some, hinside,
    Nat.add_right_comm, hclosing]

theorem level?_contentSpan (expression : Text) :
    brace.level? depth (contentSpan expression) = brace.level? depth expression := by
  have hfront : brace.Balanced "<span [innerText]=\"".toList := by decide
  have hback : brace.Balanced "\"></span>".toList := by decide
  unfold contentSpan
  generalize "<span [innerText]=\"".toList = front at hfront
  generalize "\"></span>".toList = back at hback
  have hlevel : ∀ level, brace.level? level back = some level := fun _ => hback.level?
  rw [level?_append, level?_append, hfront.level?, Option.bind_some]
  simp only [hlevel, Option.bind_fun_some]

/-- **Content keeps the level of braces**, whatever the text. -/
theorem level?_compileContent (text : Text) :
    brace.level? depth (compileContent text) = brace.level? depth text := by
  rw [compileContent, Segment.replace_eq_rewrite]
  refine Segment.level?_rewrite readExpression_consumes fun expression w rest _ hsome depth => ?_
  obtain ⟨inside, -, hfree, rfl, rfl⟩ := readExpression_shape hsome
  rw [level?_contentSpan, Text.level?_trim, level?_interpolated hfree]

/-! ## Bindings -/

theorem level?_concatenation (value : Text) :
    brace.level? depth (concatenation value) = brace.level? depth value := by
  have hplus : brace.Balanced " + ".toList := by decide
  have hquote : ∀ level, brace.level? level ['\''] = some level := fun _ =>
    Balanced.level? (by decide)
  have hparens : ∀ level, brace.level? level ['('] = some level ∧
      brace.level? level [')'] = some level := fun _ =>
    ⟨Balanced.level? (by decide), Balanced.level? (by decide)⟩
  -- Operands lead to the levels of the text and of the bare expressions.
  have hbare : ∀ segments : List (Segment Text), ∀ level,
      brace.level? level (segments.map operand).flatten =
        brace.level? level (segments.flatMap (Segment.replacement fun expression _ => expression)) := by
    intro segments
    induction segments with
    | nil => exact fun _ => rfl
    | cons segment rest ih =>
      intro level
      rw [List.map_cons, List.flatten_cons, List.flatMap_cons, level?_append, level?_append]
      cases segment with
      | gap text =>
        simp only [operand, Segment.replacement, level?_append, hquote, Option.bind_some,
          Option.bind_fun_some, ih]
      | hit expression w =>
        simp only [operand, Segment.replacement, level?_append, hparens, Option.bind_some,
          Option.bind_fun_some, ih]
  rw [concatenation, Text.level?_joinWith hplus, hbare]
  refine Segment.level?_rewrite readExpression_consumes fun expression w rest _ hsome depth => ?_
  obtain ⟨inside, -, hfree, rfl, rfl⟩ := readExpression_shape hsome
  rw [Text.level?_trim, level?_interpolated hfree]

namespace Binding

/-- The characters that escapes in a JSON string are made of. -/
def escapes : Text := "\"\\nrtbfu0123456789abcdef".toList

theorem mem_jsonChar {c d : Char} (h : d ∈ jsonChar c) : d = c ∨ d ∈ escapes := by
  have hcontrol : ∀ n < 0x20, ∀ d ∈ '\\' :: 'u' :: Text.hex 4 n, d ∈ escapes := by decide
  have hpair : ∀ e ∈ escapes, ∀ d ∈ ['\\', e], d ∈ escapes := by decide
  unfold jsonChar at h
  repeat' split at h
  · exact .inr (hpair '"' (by decide) d h)
  · exact .inr (hpair '\\' (by decide) d h)
  · exact .inr (hpair 'n' (by decide) d h)
  · exact .inr (hpair 'r' (by decide) d h)
  · exact .inr (hpair 't' (by decide) d h)
  · exact .inr (hpair 'b' (by decide) d h)
  · exact .inr (hpair 'f' (by decide) d h)
  next hlow => exact .inr (hcontrol _ hlow d h)
  next => exact .inl (List.mem_singleton.1 h)

theorem not_mem_jsonString {c : Char} (hc : c ∉ escapes) {text : Text} (h : c ∉ text) :
    c ∉ jsonString text := by
  have hquote : c ∉ ['"'] := fun hm => hc (List.mem_singleton.1 hm ▸ by decide)
  refine List.not_mem_append (List.not_mem_append hquote fun hm => ?_) hquote
  obtain ⟨d, hd, hm⟩ := List.mem_flatMap.1 hm
  exact h ((mem_jsonChar hm).resolve_right hc ▸ hd)

theorem level?_jsonString (text : Text) :
    brace.level? depth (jsonString text) = brace.level? depth text := by
  have hquote : ∀ level, brace.level? level ['"'] = some level := fun _ =>
    Balanced.level? (by decide)
  have hchar : ∀ c level, brace.level? level (jsonChar c) = brace.level? level [c] := by
    intro c level
    by_cases hbrace : c = '{' ∨ c = '}'
    · rcases hbrace with rfl | rfl <;> rfl
    · rw [not_or] at hbrace
      have hopener : '{' ∉ jsonChar c := fun h =>
        (mem_jsonChar h).elim (fun heq => hbrace.1 heq.symm) (by decide)
      have hcloser : '}' ∉ jsonChar c := fun h =>
        (mem_jsonChar h).elim (fun heq => hbrace.2 heq.symm) (by decide)
      have hfree : brace.Balanced (jsonChar c) := .of_free hopener hcloser
      rw [hfree.level?, level?_cons_of_ne hbrace.1 hbrace.2, level?_nil]
  rw [jsonString, level?_append, level?_append, hquote, Option.bind_some, Text.level?_flatMap hchar]
  simp only [hquote, Option.bind_fun_some]

theorem json_balanced {binding : Binding} (hname : brace.Balanced binding.name)
    (hexpression : brace.Balanced binding.expression) : brace.Balanced binding.json := by
  have hstring : ∀ {text : Text}, brace.Balanced text → brace.Balanced (jsonString text) :=
    fun h => balanced_iff_level?.2 (by rw [level?_jsonString]; exact h.level?)
  have hinner : brace.Balanced (jsonString "attr".toList ++ [':'] ++ jsonString binding.name ++ [',']
      ++ jsonString "expr".toList ++ [':'] ++ jsonString binding.expression) :=
    (((((hstring (by decide)).append (by decide)).append (hstring hname)).append (by decide)).append
      (hstring (by decide)) |>.append (by decide)).append (hstring hexpression)
  have hgroup := hinner.group
  simpa only [json, opener, closer, List.singleton_append, List.append_assoc, List.cons_append,
    List.nil_append] using hgroup

theorem encode_balanced {bindings : List Binding} (h : ∀ binding ∈ bindings, brace.Balanced binding.json) :
    brace.Balanced (encode bindings) := by
  have hchar : ∀ c level, brace.level? level (referQuote c) = brace.level? level [c] := by
    intro c level
    unfold referQuote
    split
    next hquote =>
      have hc : c = '"' ∨ c = '\'' := by simpa using hquote
      have hreference : brace.Balanced "&apos;".toList := by decide
      rw [hreference.level?]
      rcases hc with rfl | rfl <;> exact (Balanced.level? (by decide)).symm
    next => rfl
  have hlist : ∀ bindings : List Binding, (∀ binding ∈ bindings, brace.Balanced binding.json) →
      brace.Balanced (bindings.map json).flatten := by
    intro bindings h
    induction bindings with
    | nil => exact .nil
    | cons binding rest ih =>
      exact (h binding List.mem_cons_self).append
        (ih fun other hother => h other (List.mem_cons_of_mem _ hother))
  have hjoined : brace.Balanced (Text.joinWith [','] (bindings.map json)) :=
    balanced_iff_level?.2 (by rw [Text.level?_joinWith (by decide)]; exact (hlist bindings h).level?)
  have hall : brace.Balanced (['['] ++ Text.joinWith [','] (bindings.map json) ++ [']']) :=
    (Balanced.append (by decide) hjoined).append (by decide)
  exact balanced_iff_level?.2 (by rw [encode, Text.level?_flatMap hchar]; exact hall.level?)

end Binding

/-! ## Tags -/

/-- What stays of an attribute in its tag. -/
def leave (pair : Text × Text) (whole : Text) : Text :=
  if hasExpression pair.2 then [] else whole

/-- The attribute text that stays in a tag. -/
def remaining (attributes : Text) : Text := Segment.rewrite readAttribute leave attributes

/-- The bindings that the attributes of a tag are gathered into. -/
def gathered (attributes : Text) : List Binding :=
  (Segment.ofText readAttribute attributes).flatMap fun segment => (takeBinding segment).2

theorem compileTag_eq (whole name attributes : Text) :
    compileTag whole name attributes =
      if (gathered attributes).isEmpty then whole
      else ['<'] ++ name ++ (if (remaining attributes).trim.isEmpty then []
          else ' ' :: (remaining attributes).trim) ++ [' '] ++ bindingsAttribute ++ ['=', '"'] ++
        Binding.encode (gathered attributes) ++ ['"', '>'] := by
  have hremaining : ((Segment.ofText readAttribute attributes).map takeBinding).flatMap (·.1) =
      remaining attributes := by
    rw [List.flatMap_map, remaining, Segment.rewrite]
    congr 1
    funext segment
    cases segment with
    | gap text => rfl
    | hit pair whole =>
      simp only [takeBinding, Segment.replacement, leave]
      split <;> rfl
  have hgathered : ((Segment.ofText readAttribute attributes).map takeBinding).flatMap (·.2) =
      gathered attributes := by rw [List.flatMap_map, gathered]
  simp only [compileTag, hremaining, hgathered]

theorem not_mem_kept {c : Char} (hc : c ≠ ' ') {text : Text} (h : c ∉ text) :
    c ∉ (if text.isEmpty then [] else ' ' :: text) := by
  split
  · exact List.not_mem_nil
  · exact List.not_mem_cons_of_ne_of_not_mem hc h

/-- A binding holds the value of an attribute that stands in the tag. -/
theorem of_mem_gathered {attributes : Text} {binding : Binding} (h : binding ∈ gathered attributes) :
    ∃ value front w rest, attributes = front ++ (w ++ rest) ∧
      readAttribute (w ++ rest) = some ((binding.name, value), rest) ∧
      binding.expression = concatenation value := by
  obtain ⟨segment, hsegment, hbinding⟩ := List.mem_flatMap.1 h
  cases segment with
  | gap text => cases hbinding
  | hit pair w =>
    obtain ⟨name, value⟩ := pair
    obtain ⟨front, rest, htext, hread⟩ := Segment.of_hit_mem readAttribute_consumes hsegment
    simp only [takeBinding] at hbinding
    split at hbinding
    · obtain rfl := List.mem_singleton.1 hbinding
      exact ⟨value, front, w, rest, htext, hread, rfl⟩
    · cases hbinding

/-- A text that is balanced between every two of its quotes. -/
def LevelQuotes (text : Text) : Prop :=
  ∀ front value back, text = front ++ '"' :: (value ++ '"' :: back) → brace.Balanced value

theorem LevelQuotes.of_infix {text part : Text} (h : LevelQuotes text) (hp : part <:+: text) :
    LevelQuotes part := by
  obtain ⟨before, after, rfl⟩ := hp
  rintro front value back rfl
  exact h (before ++ front) value (back ++ after) (by simp)

theorem attribute_balanced {text name value rest w : Text} (h : LevelQuotes text)
    (hw : w ++ rest <:+ text) (hread : readAttribute (w ++ rest) = some ((name, value), rest)) :
    brace.Balanced name ∧ brace.Balanced value ∧ brace.Balanced w := by
  obtain ⟨before, after, htext, -, hname, hbefore, hafter, -⟩ := readAttribute_eq_some hread
  have hvalue : brace.Balanced value :=
    h.of_infix hw.isInfix (name ++ (before ++ '=' :: after)) value rest (by rw [htext]; simp)
  have hshape : w = name ++ before ++ ['='] ++ after ++ ['"'] ++ value ++ ['"'] := by
    refine List.append_cancel_right (htext.trans ?_)
    simp
  refine ⟨hname.balanced, hvalue, ?_⟩
  rw [hshape]
  exact (((((hname.balanced.append (hbefore.balanced brace)).append (by decide)).append
    (hafter.balanced brace)).append (by decide)).append hvalue).append (by decide)

theorem level?_remaining {attributes : Text} (h : LevelQuotes attributes) :
    brace.level? depth (remaining attributes) = brace.level? depth attributes := by
  refine Segment.level?_rewrite readAttribute_consumes fun _ w rest hs hread depth => ?_
  obtain ⟨-, -, hw⟩ := attribute_balanced h hs hread
  unfold leave
  split
  · exact hw.level?.symm
  · rfl

theorem encode_gathered_balanced {attributes : Text} (h : LevelQuotes attributes) :
    brace.Balanced (Binding.encode (gathered attributes)) := by
  refine Binding.encode_balanced fun binding hbinding => ?_
  obtain ⟨value, front, w, rest, htext, hread, hexpression⟩ := of_mem_gathered hbinding
  obtain ⟨hname, hvalue, -⟩ := attribute_balanced h ⟨front, htext.symm⟩ hread
  refine Binding.json_balanced hname (balanced_iff_level?.2 ?_)
  rw [hexpression, level?_concatenation, hvalue.level?]

/-- A tag keeps the level of braces, if its values are balanced. -/
theorem level?_compileTag {name attributes : Text} (hname : Markup.Continues name)
    (h : LevelQuotes attributes) :
    brace.level? depth (compileTag ('<' :: (name ++ attributes) ++ ['>']) name attributes) =
      brace.level? depth ('<' :: (name ++ attributes) ++ ['>']) := by
  rw [compileTag_eq]
  split
  · rfl
  have hrest : ∀ level, brace.level? level (if (remaining attributes).trim.isEmpty then []
      else ' ' :: (remaining attributes).trim) = brace.level? level attributes := by
    intro level
    have hblank : ∀ text, brace.level? level (' ' :: text) = brace.level? level text := fun _ =>
      level?_cons_of_ne (by decide) (by decide)
    rw [← level?_remaining h, ← Text.level?_trim (remaining attributes)]
    split
    next hempty => rw [List.isEmpty_iff.1 hempty]
    next => exact hblank _
  have hbindings : brace.Balanced ([' '] ++ bindingsAttribute ++ ['=', '"'] ++
      Binding.encode (gathered attributes) ++ ['"', '>']) :=
    ((Balanced.append (by decide) (by decide)).append (encode_gathered_balanced h)).append (by decide)
  have hlevel : ∀ level, brace.level? level ([' '] ++ bindingsAttribute ++ ['=', '"'] ++
      Binding.encode (gathered attributes) ++ ['"', '>']) = some level := fun _ => hbindings.level?
  have hopening : ∀ level, brace.level? level (['<'] ++ name) = some level := fun _ =>
    (Balanced.append (by decide) hname.balanced).level?
  have hclosing : ∀ level, brace.level? level ['>'] = some level := fun _ => Balanced.level? (by decide)
  have hout : ∀ middle : Text, ['<'] ++ name ++ middle ++ [' '] ++ bindingsAttribute ++ ['=', '"'] ++
      Binding.encode (gathered attributes) ++ ['"', '>'] =
      ['<'] ++ name ++ (middle ++ ([' '] ++ bindingsAttribute ++ ['=', '"'] ++
        Binding.encode (gathered attributes) ++ ['"', '>'])) := fun middle => by
    simp only [List.append_assoc]
  have hin : '<' :: (name ++ attributes) ++ ['>'] = ['<'] ++ name ++ (attributes ++ ['>']) := by
    simp only [List.append_assoc, List.cons_append, List.nil_append]
  rw [hout, hin, level?_append, level?_append (a := ['<'] ++ name), hopening, Option.bind_some,
    Option.bind_some, level?_append, level?_append, hrest]
  simp only [hlevel, hclosing]

theorem compileAttributes_eq_rewrite (template : Text) :
    compileAttributes template =
      Segment.rewrite readTag (fun tag whole => compileTag whole tag.1 tag.2) template := by
  rw [compileAttributes, Segment.rewrite]
  congr 1
  funext segment
  cases segment <;> rfl

/-- **Attributes keep the level of braces**, if the text is balanced between its quotes. -/
theorem level?_compileAttributes {template : Text} (h : LevelQuotes template) :
    brace.level? depth (compileAttributes template) = brace.level? depth template := by
  rw [compileAttributes_eq_rewrite]
  refine Segment.level?_rewrite readTag_consumes fun tag w rest hs hread depth => ?_
  obtain ⟨name, attributes⟩ := tag
  obtain ⟨rfl, hname⟩ := readTag_shape hread
  exact level?_compileTag hname (h.of_infix (.trans ⟨'<' :: name, '>' :: rest, by simp⟩ hs.isInfix))

end Interpolation

end FlowTemplate
