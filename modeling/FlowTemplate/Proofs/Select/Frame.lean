/-
What stays outside of selects. A search for selects takes all openings whose names begin with that of a
select or an option group, so that a custom element is taken too if an end tag of the shorter name follows
it anywhere. Outside of what is taken everything stays, and outside of selects and option groups if no more
than these is taken (`compile_keepsOutside`).
-/
import FlowTemplate.Proofs.Select.Behind

namespace FlowTemplate.SelectMarker

open Markup

/-! ## Elements and what is taken for them -/

/-- Whether a name ends in front of a text. -/
def endsName : Text → Bool
  | [] => false
  | c :: _ => isBlank c || c = '/' || c = '>'

/-- What follows the name of a closing tag, if it ends there. -/
def afterClosingName? (name text : Text) : Option Text :=
  (Text.after? ['<', '/'] text).bind fun text => (afterSameName? name text).filter endsName

/-- What follows a closing tag. There may be more behind its name, up to the angle. -/
def afterClosingTag? (name text : Text) : Option Text :=
  (afterClosingName? name text).bind fun text => (readUntil? '>' text).map (·.2)

/-- A text from the name of a select or an option group, which may go on, to where it is closed first. -/
inductive Encloses (afterTag? : Text → Text → Option Text) (attributes : Text) : Text → Prop where
  | intro {name content tag : Text} (named : ElementName name) (free : '>' ∉ attributes)
      (first : Text.Lacks (afterTag? name) content tag) (closed : afterTag? name tag = some []) :
      Encloses afterTag? attributes ('<' :: (name ++ (attributes ++ '>' :: (content ++ tag))))

/-- A text that the search takes. -/
def IsMatch (text : Text) : Prop := ∃ attributes, Encloses afterEnd? attributes text

/-- A select or an option group: its name ends in the opening tag, and it goes on up to its closing tag. -/
def IsElement (text : Text) : Prop :=
  ∃ attributes, endsName (attributes ++ ['>']) = true ∧ Encloses afterClosingTag? attributes text

/-- An element that is read is one of its name: the name ends in the opening tag, and the content has no
closing tag with more than the name in it. -/
structure Element.Exact (element : Element) : Prop where
  ends : endsName (element.attributes ++ ['>']) = true
  unclosed : Text.Lacks (afterClosingName? element.name) element.content []

/-- The tag that closes an element whose name is spelled again. -/
def endTag (again : Text) : Text := '<' :: '/' :: (again ++ ['>'])

theorem afterEnd?_endTag {name again : Text} (h : afterSameName? name again = some []) :
    afterEnd? name (endTag again) = some [] := by
  have hslash : Text.after? ['<', '/'] (endTag again) = some (again ++ ['>']) := rfl
  rw [afterEnd?, hslash, Option.bind_eq_bind, Option.bind_some, afterSameName?_append h]
  rfl

theorem afterClosingTag?_endTag {name again : Text} (h : afterSameName? name again = some []) :
    afterClosingTag? name (endTag again) = some [] := by
  have hslash : Text.after? ['<', '/'] (endTag again) = some (again ++ ['>']) := rfl
  rw [afterClosingTag?, afterClosingName?, hslash, Option.bind_some, afterSameName?_append h]
  rfl

/-- An element as it is read goes up to the first tag that ends it. -/
theorem source_of_readElement {w rest : Text} {element : Element}
    (h : readElement (w ++ rest) = some (element, rest)) :
    ElementName element.name ∧ '>' ∉ element.attributes ∧ ∃ again,
      w = '<' :: (element.name ++ (element.attributes ++ '>' :: (element.content ++ endTag again))) ∧
      Text.Lacks (afterEnd? element.name) element.content (endTag again) ∧
      afterSameName? element.name again = some [] := by
  obtain ⟨hname, hfree, behind, htext, hupto⟩ := exists_parts_of_readElement h
  obtain ⟨back, rfl, hend, hlacks⟩ := Text.Lacks.of_readUpTo? hupto
  obtain ⟨again, rfl, hagain⟩ := exists_tag_of_afterEnd? hend
  have htag : '<' :: '/' :: (again ++ '>' :: rest) = endTag again ++ rest := by simp [endTag]
  rw [htag] at htext hlacks
  have hsame : w ++ rest =
      '<' :: (element.name ++ (element.attributes ++ '>' :: (element.content ++ endTag again))) ++ rest := by
    simp [htext]
  exact ⟨hname, hfree, again, List.append_cancel_right hsame, hlacks.shorten fun _ _ => afterEnd?_left, hagain⟩

theorem isMatch_of_readElement {w rest : Text} {element : Element}
    (h : readElement (w ++ rest) = some (element, rest)) : IsMatch w := by
  obtain ⟨hname, hfree, again, rfl, hlacks, hagain⟩ := source_of_readElement h
  exact ⟨element.attributes, .intro hname hfree hlacks (afterEnd?_endTag hagain)⟩

theorem afterClosingName?_stopsAt {name : Text} (h : ElementName name) :
    Text.StopsAt (afterClosingName? name) '<' := by
  intro d text rest hread
  by_cases hd : d = '<'
  · subst hd
    have hslash : ∀ behind, Text.after? ['<', '/'] ('<' :: behind) = Text.after? ['/'] behind := fun _ => rfl
    rw [afterClosingName?, hslash] at hread
    rw [afterClosingName?, hslash, Text.after?_append_cons (by decide)]
    cases hafter : Text.after? ['/'] text with
    | none => rfl
    | some left =>
      rw [hafter, Option.bind_some] at hread
      rw [Option.map_some, Option.bind_some, afterSameName?_append_cons h.angle_ne]
      cases hsame : afterSameName? name left with
      | none => rfl
      | some behind =>
        rw [hsame] at hread
        cases behind with
        | nil => rfl
        | cons c cs => simpa [endsName] using hread
  · have hnone : ∀ behind, Text.after? ['<', '/'] (d :: behind) = none := fun behind => by
      simp [Text.after?, List.isPrefixOf?, Ne.symm hd]
    rw [afterClosingName?, hnone]
    rfl

theorem Element.Exact.isElement {w rest : Text} {element : Element} (hexact : element.Exact)
    (h : readElement (w ++ rest) = some (element, rest)) : IsElement w := by
  obtain ⟨hname, hfree, again, rfl, -, hagain⟩ := source_of_readElement h
  have hopen : Text.Lacks (afterClosingName? element.name) element.content (endTag again) :=
    hexact.unclosed.before (afterClosingName?_stopsAt hname) _
  have hclosed : Text.Lacks (afterClosingTag? element.name) element.content (endTag again) :=
    hopen.imp fun text hnone => by rw [afterClosingTag?, hnone, Option.bind_none]
  exact ⟨element.attributes, hexact.ends,
    .intro hname hfree hclosed (afterClosingTag?_endTag hagain)⟩

/-- A text that is taken for an element ends with a select or an option group, and no loop begins before. -/
def Element.Bounded (element : Element) (source : Text) : Prop :=
  IsElement source ∨ ∃ front inside tag, element.content = front ++ inside ∧
    source = '<' :: (element.name ++ (element.attributes ++ '>' :: (element.content ++ tag))) ∧
    Text.Lacks readLoop front inside ∧ IsElement (inside ++ tag)

/-! ## What stays outside -/

/-- A part of a text lies in one of the regions of it. -/
def LiesIn (Region : Text → Prop) (before part after : Text) : Prop :=
  ∃ front inside behind back, before = front ++ inside ∧ after = behind ++ back ∧
    Region (inside ++ (part ++ behind))

/-- What a template is compiled to has all of its parts as they are, but for some that lie in regions. -/
def KeepsOutside (Region : Text → Prop) (template output : Text) : Prop :=
  ∃ pieces : List (Text × Text), pieces.flatMap Prod.fst = template ∧ pieces.flatMap Prod.snd = output ∧
    ∀ front piece back, pieces = front ++ piece :: back →
      piece.1 = piece.2 ∨ LiesIn Region (front.flatMap Prod.fst) piece.1 (back.flatMap Prod.fst)

namespace KeepsOutside

variable {Region : Text → Prop}

theorem refl (text : Text) : KeepsOutside Region text text := by
  refine ⟨[(text, text)], by simp, by simp, fun front piece back heq => .inl ?_⟩
  have hmem : piece ∈ [(text, text)] := heq ▸ by simp
  rw [List.mem_singleton.1 hmem]

theorem of_region {text : Text} (h : Region text) (output : Text) : KeepsOutside Region text output := by
  refine ⟨[(text, output)], by simp, by simp, fun front piece back heq => .inr ?_⟩
  obtain ⟨rfl, heq⟩ | ⟨front, rfl, heq⟩ := List.append_eq_cons_iff.1 heq.symm
  · obtain ⟨rfl, rfl⟩ := List.cons.inj heq
    exact ⟨[], [], [], [], rfl, rfl, by simpa using h⟩
  · cases front <;> cases heq

/-- One text after another is kept outside of regions if each is. -/
theorem append {first second output output' : Text} (h : KeepsOutside Region first output)
    (h' : KeepsOutside Region second output') :
    KeepsOutside Region (first ++ second) (output ++ output') := by
  obtain ⟨pieces, rfl, rfl, hpieces⟩ := h
  obtain ⟨pieces', rfl, rfl, hpieces'⟩ := h'
  refine ⟨pieces ++ pieces', List.flatMap_append, List.flatMap_append, fun front piece back heq => ?_⟩
  have hinside : ∀ {back'}, pieces = front ++ piece :: back' → back = back' ++ pieces' →
      piece.1 = piece.2 ∨ LiesIn Region (front.flatMap Prod.fst) piece.1 (back.flatMap Prod.fst) := by
    rintro back' hfirst rfl
    refine (hpieces front piece back' hfirst).imp_right ?_
    rintro ⟨before, inside, behind, after, hbefore, hafter, hregion⟩
    exact ⟨before, inside, behind, after ++ pieces'.flatMap Prod.fst, hbefore, by simp [hafter], hregion⟩
  have hbehind : ∀ {front'}, pieces' = front' ++ piece :: back → front = pieces ++ front' →
      piece.1 = piece.2 ∨ LiesIn Region (front.flatMap Prod.fst) piece.1 (back.flatMap Prod.fst) := by
    rintro front' hsecond rfl
    refine (hpieces' front' piece back hsecond).imp_right ?_
    rintro ⟨before, inside, behind, after, hbefore, hafter, hregion⟩
    exact ⟨pieces.flatMap Prod.fst ++ before, inside, behind, after, by simp [hbefore], hafter, hregion⟩
  obtain ⟨front', rfl, hsecond⟩ | ⟨back', hfirst, hback⟩ := List.append_eq_append_iff.1 heq
  · exact hbehind hsecond rfl
  · cases back' with
    | nil =>
      have hsecond : pieces' = [] ++ piece :: back := by simpa using hback.symm
      exact hbehind hsecond (by simpa using hfirst.symm)
    | cons other back' =>
      obtain ⟨rfl, htail⟩ := List.cons.inj hback
      exact hinside hfirst htail

theorem flatMap_segments {α : Type} {onHit : α → Text → Text} {segments : List (Segment α)}
    (h : ∀ value w, .hit value w ∈ segments → KeepsOutside Region w (onHit value w)) :
    KeepsOutside Region (segments.flatMap Segment.text) (segments.flatMap (Segment.replacement onHit)) := by
  induction segments with
  | nil => exact refl []
  | cons segment segments ih =>
    have hrest := ih fun value w hmem => h value w (List.mem_cons_of_mem _ hmem)
    rw [List.flatMap_cons, List.flatMap_cons]
    cases segment with
    | gap between => exact (refl between).append hrest
    | hit value w => exact (h value w List.mem_cons_self).append hrest

/-- A template is kept outside of regions if all that is taken is. -/
theorem compile {template : Text}
    (h : ∀ element w rest, .hit element w ∈ Segment.ofText readElement template →
      readElement (w ++ rest) = some (element, rest) → KeepsOutside Region w (markElement element)) :
    KeepsOutside Region template (SelectMarker.compile template) := by
  have hsegments : KeepsOutside Region ((Segment.ofText readElement template).flatMap Segment.text)
      (Segment.rewrite readElement (fun element _ => markElement element) template) := by
    refine flatMap_segments fun element w hmem => ?_
    obtain ⟨_, rest, -, hread⟩ := Segment.of_hit_mem readElement_consumes hmem
    exact h element w rest hmem hread
  rwa [Segment.flatMap_text_ofText, ← compile_eq_rewrite] at hsegments

end KeepsOutside

theorem Element.Bounded.keepsOutside {element : Element} {source : Text} (h : element.Bounded source) :
    KeepsOutside IsElement source (markElement element) := by
  obtain helement | ⟨front, inside, tag, hcontent, rfl, hlacks, helement⟩ := h
  · exact .of_region helement _
  · have hsource : '<' :: (element.name ++ (element.attributes ++ '>' :: (element.content ++ tag))) =
        '<' :: (element.name ++ (element.attributes ++ '>' :: front)) ++ (inside ++ tag) := by
      simp [hcontent]
    have hmarked : markElement element = '<' :: (element.name ++ (element.attributes ++ '>' :: front)) ++
        (markLoops inside ++ endTag element.name) := by
      have hloops : Text.replace readLoop markLoop element.content = front ++ markLoops inside := by
        rw [hcontent, ← markLoops, markLoops_append hlacks]
      simp [markElement, hloops, endTag]
    rw [hsource, hmarked]
    exact (KeepsOutside.refl _).append (.of_region helement _)

/-- The front of a template stays if no region begins in it. -/
theorem KeepsOutside.take_isPrefix {Region : Text → Prop} {template output : Text}
    (h : KeepsOutside Region template output) {n : Nat}
    (hfree : ∀ k < n, ∀ w, w <+: template.drop k → ¬ Region w) : template.take n <+: output := by
  obtain ⟨pieces, rfl, rfl, hpieces⟩ := h
  have hsame : ∀ front : List (Text × Text), (∀ piece ∈ front, piece.1 = piece.2) →
      front.flatMap Prod.fst = front.flatMap Prod.snd := fun front => List.flatMap_congr
  cases hfirst : pieces.find? fun piece => piece.1 ≠ piece.2 with
  | none =>
    rw [hsame pieces fun piece hpiece => by simpa using List.find?_eq_none.1 hfirst piece hpiece]
    exact List.take_prefix _ _
  | some piece =>
    obtain ⟨hchanged, front, back, rfl, hfront⟩ := List.find?_eq_some_iff_append.1 hfirst
    have hkept := hsame front fun piece hpiece => by simpa using hfront piece hpiece
    obtain heq | ⟨before, inside, behind, after, hbefore, hafter, hregion⟩ := hpieces front piece back rfl
    · exact absurd heq (by simpa using hchanged)
    · have htemplate : (front ++ piece :: back).flatMap Prod.fst =
          before ++ (inside ++ (piece.1 ++ behind) ++ after) := by
        simp [hbefore, hafter]
      have hlong : n ≤ before.length := by
        by_contra hlt
        refine hfree before.length (Nat.lt_of_not_le hlt) _ ?_ hregion
        rw [htemplate, List.drop_left]
        exact List.prefix_append _ _
      have htake : ((front ++ piece :: back).flatMap Prod.fst).take n <+: front.flatMap Prod.fst := by
        rw [htemplate, List.take_append_of_le_length hlong, hbefore]
        exact (List.take_prefix n before).trans (List.prefix_append _ _)
      refine htake.trans ?_
      rw [hkept, List.flatMap_append]
      exact List.prefix_append _ _

/-! ## Openings -/

/-- The name in an opening angle, as far as it is that of a select or an option group. -/
def opening? (text : Text) : Option (Text × Text) := (Text.after? ['<'] text).bind elementName?

theorem opening?_angle (text : Text) : opening? ('<' :: text) = elementName? text := rfl

theorem opening?_opensWith : Text.OpensWith opening? '<' := by
  intro text hhead
  have hafter : Text.after? ['<'] text = none := by
    rw [Option.eq_none_iff_forall_not_mem]
    intro rest hrest
    exact hhead (by rw [Text.after?_eq_some_iff.1 hrest]; rfl)
  rw [opening?, hafter, Option.bind_none]

theorem opening?_stopsAt : Text.StopsAt opening? '<' := by
  intro d text rest hread
  by_cases hd : d = '<'
  · subst hd
    rw [opening?_angle, elementName?, Option.or_eq_none_iff] at hread
    rw [opening?_angle, elementName?, readAnyCase?_append (by decide) hread.1,
      readAnyCase?_append (by decide) hread.2]
    rfl
  · exact opening?_opensWith _ fun hhead => hd (Option.some.inj hhead)

theorem readElement_of_opening {text : Text} (h : opening? text = none) : readElement text = none := by
  cases text with
  | nil => rfl
  | cons c cs =>
    by_cases hc : c = '<'
    · subst hc
      rw [opening?_angle] at h
      rw [readElement_angle, h, Option.bind_none]
    · exact readElement_beginsWith.none fun hhead => hc (Option.some.inj hhead)

theorem readAnyCase?_spells {letters name : Text} (h : Spells letters name) (rest : Text) :
    readAnyCase? letters (name ++ rest) = some (name, rest) := by
  obtain ⟨⟨spelling, left⟩, hread, rfl⟩ := Option.map_eq_some_iff.1 (afterAnyCase?_append h rest)
  have hsame : name = spelling := List.append_cancel_right (readAnyCase?_eq_some hread).2
  rw [hread, hsame]

theorem elementName?_append {name : Text} (h : ElementName name) (rest : Text) :
    elementName? (name ++ rest) = some (name, rest) := by
  rcases h with h | h
  · rw [elementName?, readAnyCase?_spells h]
    rfl
  · have hselect : readAnyCase? "select".toList (name ++ rest) = none := by
      have hletters : "optgroup".toList = 'o' :: "ptgroup".toList := by decide
      rw [hletters] at h
      obtain _ | @⟨_, c, _, _, hc, -⟩ := h
      have hlower : c.toLower = 'o' := by simpa [isLetter] using hc
      refine if_neg fun (hs : isLetter 's' c = true) => ?_
      have hlong : c = 'ſ' := by simpa [isLetter, hlower] using hs
      rw [hlong] at hlower
      revert hlower
      decide
    rw [elementName?, hselect, readAnyCase?_spells h]
    rfl

/-- Whether a select or an option group is opened at the front of a text. -/
def opensElement (text : Text) : Bool := (opening? text).any fun (_, rest) => endsName rest

theorem IsElement.opensElement {w text : Text} (h : IsElement w) (hw : w <+: text) :
    opensElement text = true := by
  obtain ⟨attributes, hends, @⟨name, content, tag, hname, -, -, -⟩⟩ := h
  obtain ⟨rest, rfl⟩ := hw
  have hopening : opening? ('<' :: (name ++ (attributes ++ '>' :: (content ++ tag))) ++ rest) =
      some (name, attributes ++ '>' :: (content ++ tag ++ rest)) := by
    rw [List.cons_append, opening?_angle, List.append_assoc, elementName?_append hname]
    simp
  rw [SelectMarker.opensElement, hopening]
  cases attributes with
  | nil => rfl
  | cons c attributes => exact hends

/-! ## Custom elements -/

theorem afterSameName?_self (name : Text) : afterSameName? name name = some [] := by
  induction name with
  | nil => rfl
  | cons c name ih => rw [afterSameName?, if_pos rfl, ih]

/-- An element whose name goes on behind that of a select or an option group. In its content are loops,
but neither a select or an option group nor an end tag of the shorter name. -/
structure CustomElement where
  name : Text
  more : Text
  attributes : Text
  content : Text
  named : ElementName name
  goes_on : endsName (more ++ ['>']) = false
  plain : ∀ c ∈ more ++ attributes, c ≠ '<' ∧ c ≠ '>'
  unopened : Text.Lacks opening? content []
  unclosed : Text.Lacks (afterEnd? name) content []
  loops : ¬ Text.Lacks readLoop content []

namespace CustomElement

/-- The tag that closes the element. -/
def closing (custom : CustomElement) : Text := endTag (custom.name ++ custom.more)

/-- The tag that opens the element. -/
def openingTag (custom : CustomElement) : Text :=
  '<' :: (custom.name ++ (custom.more ++ custom.attributes ++ ['>']))

/-- The element as it stands in a template. -/
def source (custom : CustomElement) : Text :=
  '<' :: (custom.name ++ (custom.more ++ custom.attributes ++ '>' :: (custom.content ++ custom.closing)))

variable (custom : CustomElement)

theorem not_mem_tag : '<' ∉ custom.name ∧ '<' ∉ custom.more ++ custom.attributes ∧
    '>' ∉ custom.more ++ custom.attributes :=
  ⟨fun hm => custom.named.angle_ne _ hm rfl, fun hm => (custom.plain _ hm).1 rfl,
    fun hm => (custom.plain _ hm).2 rfl⟩

/-- What opens an angle and is not in the closing tag is nowhere in it. -/
theorem lacks_closing {α : Type} {read : Text → Option α} (hread : Text.OpensWith read '<') {rest : Text}
    (h : read (custom.closing ++ rest) = none) : Text.Lacks read custom.closing rest := by
  obtain ⟨hname, htag, -⟩ := custom.not_mem_tag
  have hmore : '<' ∉ custom.more := fun hm => htag (List.mem_append_left _ hm)
  have hfree : '<' ∉ '/' :: (custom.name ++ custom.more ++ ['>']) := by simp [hname, hmore]
  exact ⟨h, .of_not_mem hread hfree rest⟩

theorem lacks_end_closing (rest : Text) :
    Text.Lacks (afterEnd? custom.name) custom.closing rest := by
  refine custom.lacks_closing afterEnd?_opensWith ?_
  have hslash : Text.after? ['<', '/'] (custom.closing ++ rest) =
      some (custom.name ++ (custom.more ++ '>' :: rest)) := by
    simp [closing, endTag, Text.after?, List.isPrefixOf?]
  have hname := afterSameName?_append (afterSameName?_self custom.name) (custom.more ++ '>' :: rest)
  rw [afterEnd?, hslash, Option.bind_eq_bind, Option.bind_some, hname]
  cases hmore : custom.more with
  | nil =>
    have hends := custom.goes_on
    rw [hmore] at hends
    cases hends
  | cons c more =>
    have hc : c ≠ '>' := (custom.plain c (by simp [hmore])).2
    simp [Text.after?, List.isPrefixOf?, Ne.symm hc]

/-- The element is taken if and only if an end tag of the shorter name follows. -/
theorem readElement_source (rest : Text) : readElement (custom.source ++ rest) =
    (readUpTo? (afterEnd? custom.name) rest).map fun (before, left) =>
      (⟨custom.name, custom.more ++ custom.attributes, custom.content ++ (custom.closing ++ before)⟩, left) := by
  have hcontent : Text.Lacks (afterEnd? custom.name) custom.content (custom.closing ++ rest) :=
    custom.unclosed.before (afterEnd?_stopsAt (by decide) (by decide) custom.named.angle_ne) _
  have huntil : readUntil? '>' (custom.more ++ custom.attributes ++
      '>' :: (custom.content ++ (custom.closing ++ rest))) =
      some (custom.more ++ custom.attributes, custom.content ++ (custom.closing ++ rest)) :=
    readUntil?_eq_some_iff.2 ⟨rfl, custom.not_mem_tag.2.2⟩
  have htext : custom.source ++ rest = '<' :: (custom.name ++ (custom.more ++ custom.attributes ++
      '>' :: (custom.content ++ (custom.closing ++ rest)))) := by
    simp [source]
  rw [htext, readElement_angle, elementName?_append custom.named, Option.bind_some]
  simp only [huntil, Option.bind_some, hcontent.readUpTo?, (custom.lacks_end_closing rest).readUpTo?]
  cases readUpTo? (afterEnd? custom.name) rest <;> rfl

theorem lacks_source {rest : Text} (h : Text.Lacks (afterEnd? custom.name) rest []) :
    Text.Lacks readElement custom.source rest := by
  have hopens : Text.OpensWith readElement '<' := fun _ => readElement_beginsWith.none
  obtain ⟨hname, htag, -⟩ := custom.not_mem_tag
  have hunread : readElement (custom.source ++ rest) = none := by
    rw [readElement_source, ← List.append_nil rest, h.readUpTo?]
    rfl
  have hcontent : Text.Lacks readElement custom.content (custom.closing ++ rest) :=
    Text.Lacks.imp (fun _ => readElement_of_opening) (custom.unopened.before opening?_stopsAt _)
  have hclosing : Text.Lacks readElement custom.closing rest :=
    custom.lacks_closing hopens (readElement_of_opening rfl)
  have hangle : Text.Lacks readElement ('>' :: (custom.content ++ custom.closing)) rest :=
    ⟨hopens _ (by simp), hcontent.append hclosing⟩
  exact ⟨hunread, (Text.Lacks.of_not_mem hopens hname _).append ((Text.Lacks.of_not_mem hopens htag _).append hangle)⟩

/-- **The loops of a custom element are left alone if and only if no end tag of the shorter name follows.** -/
theorem source_isPrefix_iff {front : Text} (hfront : Text.Lacks opening? front []) (rest : Text) :
    front ++ custom.source <+: compile (front ++ (custom.source ++ rest)) ↔
      Text.Lacks (afterEnd? custom.name) rest [] := by
  have hcopied : compile (front ++ (custom.source ++ rest)) = front ++ compile (custom.source ++ rest) := by
    have hlacks : Text.Lacks readElement front (custom.source ++ rest) :=
      Text.Lacks.imp (fun _ => readElement_of_opening) (hfront.before opening?_stopsAt _)
    rw [compile_eq_rewrite, hlacks.rewrite, ← compile_eq_rewrite]
  rw [hcopied, List.prefix_append_right_inj]
  constructor
  · intro hprefix
    by_contra hend
    obtain ⟨before, _, _, left, -, hread⟩ := Text.Lacks.exists_readUpTo?_of_not hend
    rw [List.append_nil] at hread
    have helement := custom.readElement_source rest
    rw [hread, Option.map_some] at helement
    rw [compile_of_read helement] at hprefix
    have hsource : custom.source = custom.openingTag ++ (custom.content ++ custom.closing) := by
      simp [source, openingTag]
    have hmarked : markElement ⟨custom.name, custom.more ++ custom.attributes,
          custom.content ++ (custom.closing ++ before)⟩ ++ compile left =
        custom.openingTag ++ (markLoops (custom.content ++ (custom.closing ++ before)) ++
          (endTag custom.name ++ compile left)) := by
      simp [markElement, markLoops, endTag, openingTag]
    rw [hsource, hmarked, List.prefix_append_right_inj] at hprefix
    exact not_prefix_markLoops custom.loops _ _ ((List.prefix_append _ _).trans hprefix)
  · intro hrest
    rw [compile_eq_rewrite, (custom.lacks_source hrest).rewrite]
    exact List.prefix_append _ _

end CustomElement

/-- **Loops outside of selects are left alone** as far as no more than selects and option groups is taken.
What stands outside of all that is taken stays as it is. So does what stands outside of selects and option
groups, if all that is taken ends with one and no loop begins before that. In a custom element whose name
goes on behind that of a select or an option group the loops stay if and only if no end tag of the shorter
name follows. -/
theorem compile_keepsOutside (template : Text) :
    KeepsOutside IsMatch template (compile template) ∧
    ((∀ element source, .hit element source ∈ Segment.ofText readElement template →
        element.Bounded source) →
      KeepsOutside IsElement template (compile template)) ∧
    ∀ (custom : CustomElement) (front rest : Text), Text.Lacks opening? front [] →
      (front ++ custom.source <+: compile (front ++ (custom.source ++ rest)) ↔
        Text.Lacks (afterEnd? custom.name) rest []) :=
  ⟨.compile fun _ _ _ _ hread => .of_region (isMatch_of_readElement hread) _,
    fun hbounded => .compile fun element w _ hhit _ => (hbounded element w hhit).keepsOutside,
    fun custom _ rest hfront => custom.source_isPrefix_iff hfront rest⟩

/-- A list of its own kind with a loop in it. -/
def selectList : CustomElement where
  name := "select".toList
  more := "-list".toList
  attributes := []
  content := "<ng-container *ngFor=\"let o of os\">x</ng-container>".toList
  named := .inl (by unfold Spells; decide)
  goes_on := by decide
  plain := by decide
  unopened := by decide +kernel
  unclosed := by decide +kernel
  loops := by decide +kernel

theorem compile_keepsOutside_sample :
    let template := "<ul><SELECT><ng-container *ngFor=\"let o of os\">x</ng-container></select>".toList
    KeepsOutside IsElement template (compile template) ∧
      "<p>".toList ++ selectList.source <+: compile ("<p>".toList ++ (selectList.source ++ "<select>".toList)) ∧
      ¬ "<p>".toList ++ selectList.source <+:
        compile ("<p>".toList ++ (selectList.source ++ "<select></Select>".toList)) := by
  intro template
  obtain ⟨-, hbounded, hcustom⟩ := compile_keepsOutside template
  have hsegments : Segment.ofText readElement template = [.gap "<ul>".toList,
      .hit ⟨"SELECT".toList, [], selectList.content⟩
        "<SELECT><ng-container *ngFor=\"let o of os\">x</ng-container></select>".toList] := rfl
  have hread : readElement
      ("<SELECT><ng-container *ngFor=\"let o of os\">x</ng-container></select>".toList ++ []) =
      some (⟨"SELECT".toList, [], selectList.content⟩, []) := by
    decide +kernel
  have hexact : Element.Exact ⟨"SELECT".toList, [], selectList.content⟩ := ⟨by decide, by decide +kernel⟩
  have hfront : Text.Lacks opening? "<p>".toList [] := by decide
  refine ⟨hbounded fun element source hhit => ?_, (hcustom selectList _ _ hfront).2 (by decide +kernel),
    (hcustom selectList _ _ hfront).not.2 (by decide +kernel)⟩
  rw [hsegments] at hhit
  simp only [List.mem_cons, List.not_mem_nil, reduceCtorEq, false_or, or_false, Segment.hit.injEq] at hhit
  obtain ⟨rfl, rfl⟩ := hhit
  exact .inl (hexact.isElement hread)

/-- A list of its own kind that a select follows. -/
def listBeforeSelect : Text := selectList.source ++ "<select></select>".toList

/-- The loop in a custom element is marked because a select follows. -/
theorem not_compile_keepsOutside_of_custom :
    ¬ KeepsOutside IsElement listBeforeSelect (compile listBeforeSelect) := by
  intro h
  have hfree : ∀ k < 15, opensElement (listBeforeSelect.drop k) = false := by decide +kernel
  have hprefix := h.take_isPrefix fun k hk w hw helement => by
    have hopens := helement.opensElement hw
    rw [hfree k hk] at hopens
    cases hopens
  revert hprefix
  decide +kernel

end FlowTemplate.SelectMarker
