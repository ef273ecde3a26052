/-
What an encoded list of bindings says. Every character stands for a text of its own, and both kinds of
quote stand for the same one. So a value can spell that text, and it can spell what is written between
two bindings. Where no value spells either of the two, lists of bindings with one encoding are one list
(`Binding.encode_injective`).
-/
import FlowTemplate.Proofs.Interpolation.Level

namespace FlowTemplate

namespace Interpolation

/-! ## What a concatenation spells -/

/-- The characters that a concatenation puts around and between the texts of its value. -/
def frame : Text := ['\'', '(', ')', ' ', '+']

/-- The text of a value that an operand shows. -/
def shown : Segment Text → Text
  | .gap text => text
  | .hit expression _ => expression

theorem shown_within {value : Text} {segment : Segment Text} (h : segment ∈ Segment.ofText readExpression value) :
    shown segment <:+: value := by
  cases segment with
  | gap text => exact Segment.text_within h
  | hit expression w =>
    obtain ⟨front, rest, rfl, hread⟩ := Segment.of_hit_mem readExpression_consumes h
    obtain ⟨inside, -, -, rfl, rfl⟩ := readExpression_shape hread
    obtain ⟨before, after, -, -, htrim⟩ := Text.exists_blanks_trim inside
    refine ⟨front ++ (opening ++ before), after ++ (closing ++ rest), ?_⟩
    conv_rhs => rw [htrim]
    simp only [shown, List.append_assoc]

theorem operand_eq (segment : Segment Text) :
    ∃ first ∈ frame, ∃ last ∈ frame, operand segment = first :: (shown segment ++ [last]) := by
  cases segment with
  | gap text => exact ⟨'\'', by decide, '\'', by decide, rfl⟩
  | hit expression w => exact ⟨'(', by decide, ')', by decide, rfl⟩

/-- A text without blanks that neither begins nor ends with a character of the frame. -/
structure Unframed (w : Text) : Prop where
  ne_nil : w ≠ []
  first : ∀ c ∈ w.head?, c ∉ frame
  last : ∀ c ∈ w.getLast?, c ∉ frame
  blank : ' ' ∉ w

theorem Unframed.of_ends {w : Text} {first last : Char} (hfirst : w.head? = some first)
    (hlast : w.getLast? = some last) (hframe : first ∉ frame ∧ last ∉ frame) (hblank : ' ' ∉ w) :
    Unframed w := by
  refine ⟨?_, fun c hc => ?_, fun c hc => ?_, hblank⟩
  · rintro rfl
    cases hfirst
  · obtain rfl := Option.some.inj (hfirst.symm.trans hc)
    exact hframe.1
  · obtain rfl := Option.some.inj (hlast.symm.trans hc)
    exact hframe.2

/-- Such a text stands in an operand only where that shows it: what is behind the operand begins with a
blank. -/
theorem Unframed.of_operand {w : Text} (hw : Unframed w) {segment : Segment Text} {rest : Text}
    (hrest : ∀ c ∈ rest.head?, c = ' ') (h : w <:+: operand segment ++ rest) :
    w <:+: shown segment ∨ w <:+: rest := by
  obtain ⟨first, hfirst, last, hlast, hoperand⟩ := operand_eq segment
  have hbehind : w <:+: shown segment ++ last :: rest := by
    refine Text.infix_of_append (a := [first]) hw.ne_nil (fun d hd hm => ?_) ?_
    · exact hw.first d hd (List.mem_singleton.1 hm ▸ hfirst)
    · rw [hoperand] at h
      simpa using h
  rcases Text.infix_append_cons hbehind with hshown | hinside | ⟨front, back, rfl, hback⟩
  · exact .inl hshown
  · exact .inr hinside
  -- Across the end of the operand the text would end with that or go on with a blank.
  cases back with
  | nil => exact absurd hlast (hw.last last (by simp))
  | cons c back =>
    obtain ⟨more, rfl⟩ := hback
    obtain rfl := hrest c rfl
    exact absurd (by simp) hw.blank

theorem Unframed.of_operands {w : Text} (hw : Unframed w) {segment : Segment Text}
    {more : List (Segment Text)}
    (h : w <:+: operand segment ++ (more.map operand).flatMap (" + ".toList ++ ·)) :
    ∃ found ∈ segment :: more, w <:+: shown found := by
  have hplus : " + ".toList = [' ', '+', ' '] := rfl
  induction more generalizing segment with
  | nil =>
    have hoperand : w <:+: operand segment ++ [] := by simpa using h
    rcases hw.of_operand (by simp) hoperand with hshown | hnil
    · exact ⟨segment, List.mem_cons_self, hshown⟩
    · exact absurd (List.infix_nil.1 hnil) hw.ne_nil
  | cons next more ih =>
    rw [List.map_cons, List.flatMap_cons, List.append_assoc] at h
    rcases hw.of_operand (by simp [hplus]) h with hshown | hinside
    · exact ⟨segment, List.mem_cons_self, hshown⟩
    · have hbehind := Text.infix_of_append hw.ne_nil (fun d hd hm => hw.first d hd ?_) hinside
      · obtain ⟨found, hfound, hshown⟩ := ih hbehind
        exact ⟨found, List.mem_cons_of_mem _ hfound, hshown⟩
      · have hsub : ∀ c ∈ " + ".toList, c ∈ frame := by decide
        exact hsub d hm

/-- **A concatenation spells such a text only where an operand shows it.** -/
theorem Unframed.of_concatenation {w value : Text} (hw : Unframed w) (h : w <:+: concatenation value) :
    ∃ segment ∈ Segment.ofText readExpression value, w <:+: shown segment := by
  rw [concatenation] at h
  cases hsegments : Segment.ofText readExpression value with
  | nil =>
    rw [hsegments] at h
    exact absurd (List.infix_nil.1 h) hw.ne_nil
  | cons segment more =>
    rw [hsegments, List.map_cons, Text.joinWith_cons] at h
    exact hw.of_operands h

theorem Unframed.of_concatenation_value {w value : Text} (hw : Unframed w) (h : w <:+: concatenation value) :
    w <:+: value := by
  obtain ⟨segment, hsegment, hshown⟩ := hw.of_concatenation h
  exact hshown.trans (shown_within hsegment)

namespace Binding

/-! ## Characters -/

/-- What a character of a list of bindings is encoded as. -/
def code (c : Char) : Text := (jsonChar c).flatMap referQuote

/-- The text that both kinds of quote are encoded as. -/
def reference : Text := "&apos;".toList

/-- The characters that are encoded behind a backslash, the double quote apart. -/
def escaped : Text := '\\' :: (List.range 0x20).map Char.ofNat

theorem mem_escaped_iff {c : Char} : c ∈ escaped ↔ c = '\\' ∨ c.toNat < 0x20 := by
  rw [escaped, List.mem_cons, List.mem_map]
  refine or_congr_right ⟨?_, fun h => ⟨c.toNat, List.mem_range.2 h, Char.ofNat_toNat c⟩⟩
  rintro ⟨n, hn, rfl⟩
  have hlow : ∀ n < 0x20, (Char.ofNat n).toNat < 0x20 := by decide
  exact hlow n (List.mem_range.1 hn)

theorem code_escaped : ∀ c ∈ escaped, (code c).head? = some '\\' := by decide

theorem code_plain {c : Char} (hdouble : c ≠ '"') (hsingle : c ≠ '\'') (hescaped : c ∉ escaped) :
    code c = [c] := by
  rw [mem_escaped_iff, not_or] at hescaped
  obtain ⟨hbackslash, hlow⟩ := hescaped
  have hlower : ∀ d ∈ ['\n', '\r', '\t', '\x08', '\x0c'], d.toNat < 0x20 := by decide
  have hne : ∀ d ∈ ['\n', '\r', '\t', '\x08', '\x0c'], c ≠ d := fun d hd heq => hlow (heq ▸ hlower d hd)
  simp only [List.mem_cons, List.not_mem_nil, or_false, forall_eq_or_imp, forall_eq] at hne
  simp [code, jsonChar, referQuote, hdouble, hsingle, hbackslash, hlow, hne]

theorem eq_of_code_escaped : ∀ c ∈ escaped, ∀ d ∈ escaped, code c <+: code d → c = d := by
  decide +kernel

theorem code_ne_nil (c : Char) : code c ≠ [] := by
  by_cases hdouble : c = '"'
  · subst hdouble
    decide
  by_cases hsingle : c = '\''
  · subst hsingle
    decide
  by_cases hescaped : c ∈ escaped
  · intro hnil
    have hhead := code_escaped c hescaped
    rw [hnil] at hhead
    cases hhead
  · rw [code_plain hdouble hsingle hescaped]
    exact List.cons_ne_nil _ _

theorem prefix_of_code {literal text rest : Text} (hliteral : ∀ c ∈ literal, c ≠ '&' ∧ c ≠ '\\')
    (h : text.flatMap code = literal ++ rest) : literal <+: text := by
  induction literal generalizing text with
  | nil => exact List.nil_prefix
  | cons d literal ih =>
    obtain ⟨⟨hamp, hbackslash⟩, hmore⟩ := List.forall_mem_cons.1 hliteral
    cases text with
    | nil => cases h
    | cons c text =>
      rw [List.flatMap_cons] at h
      have hhead : (code c).head? = some d := by
        rw [← List.head?_append_of_ne_nil _ (code_ne_nil c), h]
        rfl
      have hdouble : c ≠ '"' := by
        rintro rfl
        exact hbackslash (Option.some.inj hhead).symm
      have hsingle : c ≠ '\'' := by
        rintro rfl
        exact hamp (Option.some.inj hhead).symm
      have hescaped : c ∉ escaped := fun hc =>
        hbackslash (Option.some.inj (hhead.symm.trans (code_escaped c hc)))
      rw [code_plain hdouble hsingle hescaped] at h
      obtain ⟨rfl, hbehind⟩ := List.cons.inj h
      exact (List.prefix_cons_inj c).2 (ih hmore hbehind)

/-- No other character is encoded like the quote, if the text does not go on to spell its reference. -/
theorem eq_quote_of_code {c : Char} {text rest : Text} (hdouble : '"' ∉ c :: text)
    (hreference : ¬ reference <+: c :: text) (h : (c :: text).flatMap code = reference ++ rest) :
    c = '\'' := by
  simp only [List.mem_cons, not_or] at hdouble
  rw [List.flatMap_cons] at h
  have hhead : (code c).head? = some '&' := by
    rw [← List.head?_append_of_ne_nil _ (code_ne_nil c), h]
    rfl
  by_contra hsingle
  by_cases hescaped : c ∈ escaped
  · rw [code_escaped c hescaped] at hhead
    cases hhead
  · rw [code_plain (Ne.symm hdouble.1) hsingle hescaped] at h
    obtain ⟨rfl, hbehind⟩ := List.cons.inj h
    have hreads : "apos;".toList <+: text := prefix_of_code (by decide) hbehind
    exact hreference ((List.prefix_cons_inj '&').2 hreads)

theorem eq_of_code {c d : Char} {x y : Text} (hc : c ≠ '"' ∧ c ≠ '\'') (hd : d ≠ '"' ∧ d ≠ '\'')
    (h : code c ++ x = code d ++ y) : c = d := by
  have hheads : (code c).head? = (code d).head? := by
    rw [← List.head?_append_of_ne_nil _ (code_ne_nil c), h, List.head?_append_of_ne_nil _ (code_ne_nil d)]
  by_cases hcescaped : c ∈ escaped <;> by_cases hdescaped : d ∈ escaped
  · rcases List.prefix_or_prefix_of_prefix (List.prefix_append (code c) x)
      (h ▸ List.prefix_append (code d) y) with hbegins | hbegins
    · exact eq_of_code_escaped c hcescaped d hdescaped hbegins
    · exact (eq_of_code_escaped d hdescaped c hcescaped hbegins).symm
  · rw [code_escaped c hcescaped, code_plain hd.1 hd.2 hdescaped] at hheads
    obtain rfl := Option.some.inj hheads
    exact absurd List.mem_cons_self hdescaped
  · rw [code_escaped d hdescaped, code_plain hc.1 hc.2 hcescaped] at hheads
    obtain rfl := Option.some.inj hheads
    exact absurd List.mem_cons_self hcescaped
  · rw [code_plain hc.1 hc.2 hcescaped, code_plain hd.1 hd.2 hdescaped] at hheads
    exact Option.some.inj hheads

/-- **Texts without double quotes are told apart by their encoding**, where they do not spell the
reference of a quote. -/
theorem flatMap_code_injective {a b : Text} (ha : '"' ∉ a) (hb : '"' ∉ b) (hareference : ¬ reference <:+: a)
    (hbreference : ¬ reference <:+: b) (h : a.flatMap code = b.flatMap code) : a = b := by
  induction a generalizing b with
  | nil =>
    cases b with
    | nil => rfl
    | cons d b => exact absurd (List.append_eq_nil_iff.1 h.symm).1 (code_ne_nil d)
  | cons c a ih =>
    cases b with
    | nil => exact absurd (List.append_eq_nil_iff.1 h).1 (code_ne_nil c)
    | cons d b =>
      have hsame : c = d := by
        by_cases hc : c = '\''
        · subst hc
          exact (eq_quote_of_code hb (fun hp => hbreference hp.isInfix) h.symm).symm
        by_cases hd : d = '\''
        · subst hd
          exact eq_quote_of_code ha (fun hp => hareference hp.isInfix) h
        have hcdouble : c ≠ '"' := fun heq => ha (heq ▸ List.mem_cons_self)
        have hddouble : d ≠ '"' := fun heq => hb (heq ▸ List.mem_cons_self)
        exact eq_of_code ⟨hcdouble, hc⟩ ⟨hddouble, hd⟩ h
      subst hsame
      simp only [List.mem_cons, not_or] at ha hb
      rw [ih ha.2 hb.2 (fun hi => hareference (hi.trans (List.suffix_cons c a).isInfix))
        (fun hi => hbreference (hi.trans (List.suffix_cons c b).isInfix)) (List.append_cancel_left h)]

/-! ## Lists of bindings -/

/-- What stands in front of the name of a binding, before it is encoded. -/
def opened : Text := "\x7b'attr':'".toList

/-- What stands between the name and the expression. -/
def named : Text := "','expr':'".toList

/-- What stands behind the expression. -/
def closed : Text := "'\x7d".toList

/-- What is written behind the expression of a binding that others follow. -/
def spellMore : List Binding → Text
  | [] => closed ++ [']']
  | binding :: more =>
    closed ++ ([','] ++ (opened ++ (binding.name ++ (named ++ (binding.expression ++ spellMore more)))))

/-- Bindings as they are written before they are encoded, with single quotes. -/
def spell : List Binding → Text
  | [] => ['[', ']']
  | binding :: more =>
    ['['] ++ (opened ++ (binding.name ++ (named ++ (binding.expression ++ spellMore more))))

theorem json_code (binding : Binding) :
    (json binding).flatMap referQuote = opened.flatMap code ++ (binding.name.flatMap code ++
      (named.flatMap code ++ (binding.expression.flatMap code ++ closed.flatMap code))) := by
  have hname : opened.flatMap code =
      (['{'] ++ jsonString "attr".toList ++ [':'] ++ ['"']).flatMap referQuote := by decide
  have hexpression : named.flatMap code =
      (['"'] ++ [','] ++ jsonString "expr".toList ++ [':'] ++ ['"']).flatMap referQuote := by decide
  have hend : closed.flatMap code = (['"'] ++ ['}']).flatMap referQuote := by decide
  have hcode : ∀ text : Text, text.flatMap code = (text.flatMap jsonChar).flatMap referQuote := fun _ =>
    List.flatMap_assoc.symm
  have hstring : ∀ text, (jsonString text).flatMap referQuote =
      ['"'].flatMap referQuote ++ (text.flatMap code ++ ['"'].flatMap referQuote) := fun text => by
    rw [hcode, jsonString, List.append_assoc, List.flatMap_append, List.flatMap_append]
  simp only [json, List.flatMap_append, hname, hexpression, hend, hstring, List.append_assoc]

theorem spellMore_code (more : List Binding) :
    closed.flatMap code ++ ((more.map json).flatMap ([','] ++ ·) ++ [']']).flatMap referQuote =
      (spellMore more).flatMap code := by
  induction more with
  | nil => rfl
  | cons binding more ih =>
    have hcomma : [','].flatMap code = [','].flatMap referQuote := by decide
    simp only [spellMore, List.map_cons, List.flatMap_cons, List.flatMap_append, json_code, hcomma, ← ih,
      List.append_assoc]

/-- **Every character is encoded for itself.** -/
theorem encode_eq (bindings : List Binding) : encode bindings = (spell bindings).flatMap code := by
  cases bindings with
  | nil => rfl
  | cons binding more =>
    have hbracket : ['['].flatMap code = ['['].flatMap referQuote := by decide
    simp only [encode, List.map_cons, Text.joinWith_cons, spell, List.flatMap_append, json_code, hbracket,
      ← spellMore_code, List.append_assoc]

/-- What is written from the expression of one binding to that of the next one, without the quotes at
both ends. -/
def seam (name : Text) : Text := closed.tail ++ ([','] ++ (opened ++ (name ++ named.dropLast)))

example : seam ['u'] = "\x7d,\x7b'attr':'u','expr':".toList := by decide

theorem spellMore_cons (binding : Binding) (more : List Binding) :
    spellMore (binding :: more) =
      '\'' :: (seam binding.name ++ '\'' :: (binding.expression ++ spellMore more)) := by
  have hfront : closed = '\'' :: closed.tail := rfl
  have hback : named = named.dropLast ++ ['\''] := by decide
  rw [spellMore, seam, hback, hfront]
  simp only [List.append_assoc, List.cons_append, List.nil_append, List.tail_cons, List.dropLast_concat]

theorem seam_eq {name : Text} (h : Markup.Continues name) :
    ∃ inside, seam name = '}' :: (inside ++ [':']) ∧ '}' ∉ inside ∧ ' ' ∉ inside := by
  have hfront : closed.tail = ['}'] := rfl
  have hback : named.dropLast = named.dropLast.dropLast ++ [':'] := by decide
  have hfree : ∀ c ∈ ['}', ' '], Markup.continuesName c = false ∧ c ∉ [','] ++ opened ∧
      c ∉ named.dropLast.dropLast := by decide
  have hinside : ∀ c ∈ ['}', ' '], c ∉ ([','] ++ opened) ++ (name ++ named.dropLast.dropLast) := by
    intro c hc
    obtain ⟨hname, hbefore, hafter⟩ := hfree c hc
    exact List.not_mem_append hbefore (List.not_mem_append (h.not_mem hname) hafter)
  refine ⟨([','] ++ opened) ++ (name ++ named.dropLast.dropLast), ?_, hinside '}' (by decide),
    hinside ' ' (by decide)⟩
  conv_lhs => rw [seam, hfront, hback]
  simp only [List.append_assoc, List.cons_append, List.nil_append]

theorem unframed_seam {name : Text} (h : Markup.Continues name) : Unframed (seam name) := by
  obtain ⟨inside, hseam, -, hblank⟩ := seam_eq h
  have hframe : '}' ∉ frame ∧ ':' ∉ frame := by decide
  rw [hseam]
  refine .of_ends rfl ?_ hframe (by simp [hblank])
  rw [← List.cons_append, List.getLast?_concat]

/-- A seam does not end with what begins with the quote and the brace that close a binding. -/
theorem eq_nil_of_seam_eq {name x left behind rest : Text} (hname : Markup.Continues name)
    (hleft : seam name = x ++ left) (hbehind : '\'' :: '}' :: rest = left ++ behind) : left = [] := by
  obtain ⟨inside, hseam, hbrace, -⟩ := seam_eq hname
  rw [hseam] at hleft
  match left with
  | [] => rfl
  | [d] =>
    obtain ⟨rfl, -⟩ := List.cons.inj hbehind
    have hlast := congrArg List.getLast? hleft
    rw [← List.cons_append, List.getLast?_concat, List.getLast?_concat] at hlast
    cases hlast
  | d :: e :: left =>
    obtain ⟨rfl, hinner⟩ := List.cons.inj hbehind
    obtain ⟨rfl, -⟩ := List.cons.inj hinner
    cases x with
    | nil => cases (List.cons.inj hleft).1
    | cons e x =>
      have hmem : '}' ∈ inside ++ [':'] := (List.cons.inj hleft).2 ▸ by simp
      exact absurd hmem (List.not_mem_append hbrace (by decide))

theorem spellMore_front (bindings : List Binding) :
    ∃ rest, rest ≠ [] ∧ spellMore bindings = '\'' :: '}' :: rest := by
  cases bindings with
  | nil => exact ⟨[']'], List.cons_ne_nil _ _, rfl⟩
  | cons binding more => exact ⟨_, List.cons_ne_nil _ _, rfl⟩

/-- Where a list of bindings ends with another list, that begins behind a seam or at once. -/
theorem spellMore_split {x : Text} {first second : List Binding}
    (hnames : ∀ binding ∈ first, Markup.Continues binding.name)
    (h : spellMore first = x ++ spellMore second) :
    x = [] ∨ ∃ binding ∈ first, seam binding.name <:+: x := by
  obtain ⟨rest, hne, hsecond⟩ := spellMore_front second
  cases x with
  | nil => exact .inl rfl
  | cons c x =>
    cases first with
    | nil =>
      have hlength := congrArg List.length h
      have hrest := List.length_pos_of_ne_nil hne
      rw [hsecond] at hlength
      simp [spellMore, closed] at hlength
      omega
    | cons binding more =>
      refine .inr ⟨binding, List.mem_cons_self, List.IsInfix.trans ?_ (List.suffix_cons c x).isInfix⟩
      rw [spellMore_cons, hsecond, List.cons_append] at h
      rcases List.append_eq_append_iff.1 (List.cons.inj h).2 with ⟨left, rfl, -⟩ | ⟨left, hleft, hright⟩
      · exact (List.prefix_append _ _).isInfix
      · obtain rfl := eq_nil_of_seam_eq (hnames binding List.mem_cons_self) hleft hright
        exact ⟨[], [], by rw [hleft]; simp⟩

/-- Where no expression spells a seam, each one ends where the next binding begins. -/
theorem append_spellMore_inj {a b : Text} {first second : List Binding}
    (hfirst : ∀ binding ∈ first, Markup.Continues binding.name)
    (hsecond : ∀ binding ∈ second, Markup.Continues binding.name)
    (ha : ∀ name, Markup.Continues name → ¬ seam name <:+: a)
    (hb : ∀ name, Markup.Continues name → ¬ seam name <:+: b)
    (h : a ++ spellMore first = b ++ spellMore second) : a = b ∧ spellMore first = spellMore second := by
  rcases List.append_eq_append_iff.1 h with ⟨x, rfl, hx⟩ | ⟨x, rfl, hx⟩
  · rcases spellMore_split hfirst hx with rfl | ⟨binding, hm, hseam⟩
    · exact ⟨(List.append_nil a).symm, hx⟩
    · exact absurd (hseam.trans (List.suffix_append a x).isInfix) (hb _ (hfirst binding hm))
  · rcases spellMore_split hsecond hx with rfl | ⟨binding, hm, hseam⟩
    · exact ⟨List.append_nil b, hx.symm⟩
    · exact absurd (hseam.trans (List.suffix_append b x).isInfix) (ha _ (hsecond binding hm))

/-- A binding that can be read off its encoding: its expression spells neither a seam nor the reference of
a quote. -/
structure Legible (binding : Binding) : Prop where
  name : Markup.Continues binding.name
  double : '"' ∉ binding.expression
  single : ¬ reference <:+: binding.expression
  seam : ∀ name, Markup.Continues name → ¬ seam name <:+: binding.expression

theorem entry_inj {a b : Binding} {first second : List Binding} (ha : a.Legible) (hb : b.Legible)
    (hfirst : ∀ binding ∈ first, binding.Legible) (hsecond : ∀ binding ∈ second, binding.Legible)
    (h : a.name ++ (named ++ (a.expression ++ spellMore first)) =
      b.name ++ (named ++ (b.expression ++ spellMore second))) :
    a = b ∧ spellMore first = spellMore second := by
  have hnamed : named = '\'' :: named.tail := rfl
  have hquote : Markup.continuesName '\'' = false := by decide
  rw [hnamed] at h
  obtain ⟨hname, hbehind⟩ := Text.first_unique (ha.name.not_mem hquote) (hb.name.not_mem hquote) h
  obtain ⟨hexpression, hmore⟩ := append_spellMore_inj (fun binding hm => (hfirst binding hm).name)
    (fun binding hm => (hsecond binding hm).name) ha.seam hb.seam (List.append_cancel_left hbehind)
  cases a
  cases b
  cases hname
  cases hexpression
  exact ⟨rfl, hmore⟩

theorem spellMore_inj {first second : List Binding} (hfirst : ∀ binding ∈ first, binding.Legible)
    (hsecond : ∀ binding ∈ second, binding.Legible) (h : spellMore first = spellMore second) :
    first = second := by
  induction first generalizing second with
  | nil =>
    cases second with
    | nil => rfl
    | cons b second => cases (List.cons.inj (List.append_cancel_left h)).1
  | cons a first ih =>
    cases second with
    | nil => cases (List.cons.inj (List.append_cancel_left h)).1
    | cons b second =>
      obtain ⟨ha, hmorefirst⟩ := List.forall_mem_cons.1 hfirst
      obtain ⟨hb, hmoresecond⟩ := List.forall_mem_cons.1 hsecond
      have hentry := List.append_cancel_left (List.append_cancel_left (List.append_cancel_left h))
      obtain ⟨rfl, hmore⟩ := entry_inj ha hb hmorefirst hmoresecond hentry
      rw [ih hmorefirst hmoresecond hmore]

theorem spell_inj {first second : List Binding} (hfirst : ∀ binding ∈ first, binding.Legible)
    (hsecond : ∀ binding ∈ second, binding.Legible) (h : spell first = spell second) : first = second := by
  cases first with
  | nil =>
    cases second with
    | nil => rfl
    | cons b second => cases (List.cons.inj (List.cons.inj h).2).1
  | cons a first =>
    cases second with
    | nil => cases (List.cons.inj (List.cons.inj h).2).1
    | cons b second =>
      obtain ⟨ha, hmorefirst⟩ := List.forall_mem_cons.1 hfirst
      obtain ⟨hb, hmoresecond⟩ := List.forall_mem_cons.1 hsecond
      have hentry := List.append_cancel_left (List.append_cancel_left h)
      obtain ⟨rfl, hmore⟩ := entry_inj ha hb hmorefirst hmoresecond hentry
      rw [spellMore_inj hmorefirst hmoresecond hmore]

/-! ## What a list of bindings spells -/

/-- What a list spells between its quotes, names and expressions apart. -/
def pieces : List Text :=
  ["[]", "[\x7b", "attr", ":", ",", "expr", "\x7d,\x7b", "\x7d]"].map String.toList

section

variable {w : Text} {bindings : List Binding} (hquote : '\'' ∉ w) (hpieces : ∀ piece ∈ pieces, ¬ w <:+: piece)
include hquote hpieces

/-- The quotes of an entry separate its name, its expression and the fixed pieces. -/
theorem not_infix_entry {binding : Binding} {front behind : Text} (hfront : ¬ w <:+: front)
    (hname : ¬ w <:+: binding.name) (hexpression : ¬ w <:+: binding.expression) (hbehind : ¬ w <:+: behind) :
    ¬ w <:+: front ++ (opened.tail ++ (binding.name ++ (named ++ (binding.expression ++ '\'' :: behind)))) := by
  have hsplit : ∀ {a b : Text}, ¬ w <:+: a → ¬ w <:+: b → ¬ w <:+: a ++ '\'' :: b :=
    Text.not_infix_append_cons hquote
  have hopened : opened.tail = '\'' :: ("attr".toList ++ '\'' :: (":".toList ++ ['\''])) := by decide
  have hnamed : named = '\'' :: (",".toList ++ '\'' :: ("expr".toList ++ '\'' :: (":".toList ++ ['\'']))) := by
    decide
  have hfixed : ∀ piece ∈ ["attr", ":", ",", "expr"].map String.toList, ¬ w <:+: piece := fun piece hm =>
    hpieces piece ((by decide : ∀ piece ∈ ["attr", ":", ",", "expr"].map String.toList, piece ∈ pieces) piece hm)
  simp only [List.map_cons, List.map_nil, List.forall_mem_cons] at hfixed
  obtain ⟨hattr, hcolon, hcomma, hexpr, -⟩ := hfixed
  rw [hopened, hnamed]
  simp only [List.cons_append, List.append_assoc, List.nil_append]
  exact hsplit hfront <| hsplit hattr <| hsplit hcolon <| hsplit hname <| hsplit hcomma <| hsplit hexpr <|
    hsplit hcolon <| hsplit hexpression hbehind

theorem not_infix_spellMore (hnames : ∀ binding ∈ bindings, ¬ w <:+: binding.name)
    (h : ∀ binding ∈ bindings, ¬ w <:+: binding.expression) :
    ∃ behind, spellMore bindings = '\'' :: behind ∧ ¬ w <:+: behind := by
  induction bindings with
  | nil => exact ⟨_, rfl, hpieces "\x7d]".toList (by decide)⟩
  | cons binding more ih =>
    obtain ⟨hname, hmorenames⟩ := List.forall_mem_cons.1 hnames
    obtain ⟨hexpression, hmore⟩ := List.forall_mem_cons.1 h
    obtain ⟨behind, heq, hbehind⟩ := ih hmorenames hmore
    rw [spellMore, heq]
    exact ⟨_, rfl, not_infix_entry hquote hpieces (hpieces "\x7d,\x7b".toList (by decide)) hname hexpression
      hbehind⟩

/-- **A text without quotes stands in a list only if a name or an expression has it**, where none of the
fixed pieces does. -/
theorem not_infix_spell (hnames : ∀ binding ∈ bindings, ¬ w <:+: binding.name)
    (h : ∀ binding ∈ bindings, ¬ w <:+: binding.expression) : ¬ w <:+: spell bindings := by
  cases bindings with
  | nil => exact hpieces "[]".toList (by decide)
  | cons binding more =>
    obtain ⟨hname, hmorenames⟩ := List.forall_mem_cons.1 hnames
    obtain ⟨hexpression, hmore⟩ := List.forall_mem_cons.1 h
    obtain ⟨behind, heq, hbehind⟩ := not_infix_spellMore hquote hpieces hmorenames hmore
    rw [spell, heq]
    exact not_infix_entry hquote hpieces (hpieces "[\x7b".toList (by decide)) hname hexpression hbehind

end

/-- **Legible bindings can be told apart by their encoding.** -/
theorem encode_inj {first second : List Binding} (hfirst : ∀ binding ∈ first, binding.Legible)
    (hsecond : ∀ binding ∈ second, binding.Legible) (h : encode first = encode second) : first = second := by
  have hdouble : ∀ {bindings : List Binding}, (∀ binding ∈ bindings, binding.Legible) →
      '"' ∉ spell bindings := fun hlegible hm => by
    refine not_infix_spell (w := ['"']) (by decide) (by decide)
      (fun binding hb => Markup.Continues.not_infix (hlegible binding hb).name (by decide) [])
      (fun binding hb hwithin => ?_) ((List.singleton_infix_iff _ _).2 hm)
    exact (hlegible binding hb).double ((List.singleton_infix_iff _ _).1 hwithin)
  have hsingle : ∀ {bindings : List Binding}, (∀ binding ∈ bindings, binding.Legible) →
      ¬ reference <:+: spell bindings := fun hlegible =>
    not_infix_spell (by decide) (by decide)
      (fun binding hb => Markup.Continues.not_infix (hlegible binding hb).name (by decide) _)
      (fun binding hb => (hlegible binding hb).single)
  rw [encode_eq, encode_eq] at h
  exact spell_inj hfirst hsecond <|
    flatMap_code_injective (hdouble hfirst) (hdouble hsecond) (hsingle hfirst) (hsingle hsecond) h

/-! ## Captured attributes -/

/-- The binding that an attribute is gathered as: its name and what its value stands for. -/
def ofPair (pair : Text × Text) : Binding := ⟨pair.1, concatenation pair.2⟩

/-- An attribute that is read somewhere, by its name and its value. -/
def Captured (pair : Text × Text) : Prop := ∃ text rest, readAttribute text = some (pair, rest)

/-- A value that spells neither the reference of a quote nor a seam. -/
structure Clear (value : Text) : Prop where
  single : ¬ reference <:+: value
  seam : ∀ name, Markup.Continues name → ¬ seam name <:+: value

theorem legible_ofPair {pair : Text × Text} (h : Captured pair) (hclear : Clear pair.2) :
    (ofPair pair).Legible := by
  obtain ⟨text, rest, hread⟩ := h
  obtain ⟨before, after, -, -, hname, -, -, hdouble, -⟩ := readAttribute_eq_some hread
  have hquote : Unframed ['"'] := .of_ends rfl rfl (by decide) (by decide)
  have hreference : Unframed reference := .of_ends rfl rfl (by decide) (by decide)
  exact {
    name := hname
    double := fun hm => hdouble <| (List.singleton_infix_iff _ _).1 <|
      hquote.of_concatenation_value ((List.singleton_infix_iff _ _).2 hm)
    single := fun hwithin => hclear.single (hreference.of_concatenation_value hwithin)
    seam := fun name hn hwithin => hclear.seam name hn ((unframed_seam hn).of_concatenation_value hwithin) }

/-- **Captured attributes can be read off their encoding** up to what their values stand for, if no value
is written like a part of one. -/
theorem encode_injective {first second : List (Text × Text)}
    (hfirst : ∀ pair ∈ first, Captured pair ∧ Clear pair.2)
    (hsecond : ∀ pair ∈ second, Captured pair ∧ Clear pair.2)
    (h : encode (first.map ofPair) = encode (second.map ofPair)) :
    first.map ofPair = second.map ofPair := by
  refine encode_inj ?_ ?_ h
  · intro binding hm
    obtain ⟨pair, hpair, rfl⟩ := List.mem_map.1 hm
    exact legible_ofPair (hfirst pair hpair).1 (hfirst pair hpair).2
  · intro binding hm
    obtain ⟨pair, hpair, rfl⟩ := List.mem_map.1 hm
    exact legible_ofPair (hsecond pair hpair).1 (hsecond pair hpair).2

/-- An attribute with its value in double quotes. -/
def quoted (pair : Text × Text) : Text := pair.1 ++ ('=' :: '"' :: (pair.2 ++ ['"']))

/-- Two attributes with one expression, between the braces of which `inside` stands. -/
def sample (inside : Text) : List (Text × Text) :=
  [(['t'], "it's ".toList ++ (opening ++ inside ++ closing)), (['u'], opening ++ inside ++ closing)]

theorem encode_injective_sample :
    (∀ pair ∈ sample " x ".toList, Captured pair ∧ Clear pair.2) ∧
      (∀ pair ∈ sample ['x'], Captured pair ∧ Clear pair.2) ∧
      encode ((sample " x ".toList).map ofPair) = encode ((sample ['x']).map ofPair) ∧
      (sample " x ".toList).map ofPair = (sample ['x']).map ofPair := by
  have hpair : ∀ pair : Text × Text,
      (readAttribute (quoted pair) = some (pair, []) ∧ '&' ∉ pair.2 ∧ ',' ∉ pair.2) →
        Captured pair ∧ Clear pair.2 := by
    rintro pair ⟨hread, hamp, hcomma⟩
    refine ⟨⟨_, _, hread⟩, fun hwithin => hamp (hwithin.subset (by decide)), fun name _ hwithin => ?_⟩
    exact hcomma (hwithin.subset (by simp [seam]))
  have hspaced : ∀ pair ∈ sample " x ".toList,
      readAttribute (quoted pair) = some (pair, []) ∧ '&' ∉ pair.2 ∧ ',' ∉ pair.2 := by decide
  have htight : ∀ pair ∈ sample ['x'],
      readAttribute (quoted pair) = some (pair, []) ∧ '&' ∉ pair.2 ∧ ',' ∉ pair.2 := by decide
  have hfirst := fun pair hm => hpair pair (hspaced pair hm)
  have hsecond := fun pair hm => hpair pair (htight pair hm)
  have hsame : encode ((sample " x ".toList).map ofPair) = encode ((sample ['x']).map ofPair) := by
    decide +kernel
  exact ⟨hfirst, hsecond, hsame, encode_injective hfirst hsecond hsame⟩

/-- One value may be written like the values of two attributes. -/
theorem not_encode_injective : ¬ ∀ first second : List (Text × Text), (∀ pair ∈ first, Captured pair) →
    (∀ pair ∈ second, Captured pair) → encode (first.map ofPair) = encode (second.map ofPair) →
    first.map ofPair = second.map ofPair := by
  intro h
  let joined : Text × Text :=
    (['t'], "a\x7b\x7bx\x7d\x7db''\x7d,\x7b'attr':'u','expr':''c\x7b\x7by\x7d\x7dd".toList)
  let apart : List (Text × Text) :=
    [(['t'], "a\x7b\x7bx\x7d\x7db".toList), (['u'], "c\x7b\x7by\x7d\x7dd".toList)]
  have hread : ∀ pair ∈ joined :: apart, readAttribute (quoted pair) = some (pair, []) := by
    decide +kernel
  have hsame : encode ([joined].map ofPair) = encode (apart.map ofPair) := by decide +kernel
  have hlists := h [joined] apart
    (fun pair hm => ⟨_, _, hread pair (List.mem_singleton.1 hm ▸ List.mem_cons_self)⟩)
    (fun pair hm => ⟨_, _, hread pair (List.mem_cons_of_mem _ hm)⟩) hsame
  exact absurd (congrArg List.length hlists) (by decide)

/-- A value may also spell the reference that a quote is written as. -/
example : encode [ofPair (['t'], "'\x7b\x7bx\x7d\x7d".toList)] =
    encode [ofPair (['t'], "&apos;\x7b\x7bx\x7d\x7d".toList)] := by decide

end Binding

end Interpolation

end FlowTemplate
