/-
Loops in selects when the template is minified. The search for them cuts a template into text, the tags of
selects and loops (`stretches`). A loop keeps both of its markers unless the text since the loop before it
leaves a comment open: then the marker that begins the loop is taken for the end of that comment, and only
the end marker is left (`leftMarkers`).
-/
import FlowTemplate.Proofs.Minify.Marker
import FlowTemplate.Proofs.Select.Loops

namespace FlowTemplate.SelectMarker

open Markup Minify
open Template (AtTag)

/-! ## The pieces of a template -/

/-- A piece of a template in which loops in selects are searched for. -/
inductive Stretch where
  /-- Text between the tags that are searched for. -/
  | text (between : Text)
  /-- A tag that opens or closes a select, and how it is written again. -/
  | tag (source again : Text)
  /-- A loop in a select, with the text it was read from. -/
  | loop (loop : LoopElement) (source : Text)
  deriving DecidableEq, Repr

/-- The marker that begins a loop. -/
def LoopElement.marker (loop : LoopElement) : Text :=
  markerStart ++ (loop.item ++ (':' :: loop.iterable) ++ commentEnd)

/-- The piece as it stands in the template. -/
def Stretch.source : Stretch → Text
  | .text between => between
  | .tag source _ => source
  | .loop _ source => source

/-- The piece with loops between markers. -/
def Stretch.marked : Stretch → Text
  | .text between => between
  | .tag _ again => again
  | .loop found _ => markLoop found

/-- The two markers of a loop. -/
def Stretch.markers : Stretch → List Text
  | .text _ => []
  | .tag _ _ => []
  | .loop found _ => [found.marker, markerEnd]

def Stretch.isText : Stretch → Bool
  | .text _ => true
  | .tag _ _ => false
  | .loop _ _ => false

def Stretch.ofContent : Segment LoopElement → Stretch
  | .gap between => .text between
  | .hit found source => .loop found source

/-- The tag that opens an element. -/
def Element.openingTag (element : Element) : Text := '<' :: (element.name ++ (element.attributes ++ ['>']))

/-- The tag that closes an element, with the name as it stands in the opening tag. -/
def Element.closingTag (element : Element) : Text := '<' :: '/' :: (element.name ++ ['>'])

/-- The pieces of an element that was read from `source`. -/
def Element.stretches (element : Element) (source : Text) : List Stretch :=
  .tag element.openingTag element.openingTag ::
    ((Segment.ofText readLoop element.content).map Stretch.ofContent ++
      [.tag (source.drop (element.openingTag ++ element.content).length) element.closingTag])

/-- The pieces of a template: what stands outside of its selects, their tags and what is in them. -/
def stretches (template : Text) : List Stretch :=
  (Segment.ofText readElement template).flatMap fun
    | .gap between => [.text between]
    | .hit element source => element.stretches source

variable {template text rest source w : Text} {element : Element} {found : LoopElement}

/-! ## Tags as they are read -/

/-- A text from the opening angle of a tag to a closing one. -/
structure Enclosed (text : Text) : Prop where
  front : ∃ c cs, text = '<' :: c :: cs ∧ c ≠ '!'
  back : text.getLast? = some '>'

theorem Enclosed.atTag (h : Enclosed text) (rest : Text) : AtTag (text ++ rest) := by
  obtain ⟨c, cs, rfl, -⟩ := h.front
  exact AtTag.cons _

theorem Enclosed.not_comment (h : Enclosed text) : ¬ commentStart <+: text := by
  obtain ⟨c, cs, rfl, hc⟩ := h.front
  rintro ⟨more, hmore⟩
  exact hc (List.cons.inj (List.cons.inj hmore).2).1.symm

theorem Enclosed.joint (h : Enclosed text) (front : Text) : Text.Joint front text :=
  .inr (by simpa using h.atTag [])

theorem Enclosed.clear_append {front : Text} (h : Enclosed text) (hfront : Clear front) (htext : Clear text) :
    Clear (front ++ text) :=
  hfront.append htext (h.joint front) fun hstart => absurd hstart h.not_comment

theorem Enclosed.ends (h : Enclosed text) (front : Text) : ∀ c ∈ (front ++ text).getLast?, c = '>' := by
  intro c hc
  rw [List.getLast?_append, h.back, Option.some_or] at hc
  exact (Option.some.inj hc).symm

theorem ElementName.no_sign {name : Text} (h : ElementName name) : '!' ∉ name := fun hm =>
  h.lowerChar_ne (by decide) (by decide +kernel) '!' hm rfl

theorem ElementName.dash_ne {name : Text} (h : ElementName name) :
    ∀ d ∈ name, lowerChar '-' ≠ lowerChar d := h.lowerChar_ne (by decide) (by decide +kernel)

theorem ElementName.no_dash {name : Text} (h : ElementName name) : '-' ∉ name := fun hm =>
  h.dash_ne '-' hm rfl

theorem afterSameName?_eq_some {name text rest : Text} (h : afterSameName? name text = some rest) :
    ∃ again, text = again ++ rest ∧ ∀ c ∈ again, ∃ d ∈ name, lowerChar c = lowerChar d := by
  induction name generalizing text with
  | nil =>
    cases h
    exact ⟨[], rfl, fun c hc => absurd hc List.not_mem_nil⟩
  | cons d ds ih =>
    cases text with
    | nil => cases h
    | cons c cs =>
      rw [afterSameName?] at h
      split at h
      next hc =>
        obtain ⟨again, rfl, hagain⟩ := ih h
        refine ⟨c :: again, rfl, List.forall_mem_cons.2 ⟨⟨d, List.mem_cons_self, hc⟩, fun e he => ?_⟩⟩
        obtain ⟨f, hf, heq⟩ := hagain e he
        exact ⟨f, List.mem_cons_of_mem d hf, heq⟩
      next => cases h

/-- An element goes from its opening tag to a closing one, in which the name may be spelled differently. -/
theorem exists_of_readElement (h : readElement text = some (element, rest)) :
    ElementName element.name ∧ ∃ again, '-' ∉ again ∧
      text = element.openingTag ++ (element.content ++ ('<' :: '/' :: (again ++ '>' :: rest))) := by
  obtain ⟨hspells, -, behind, rfl, hupto⟩ := exists_parts_of_readElement h
  obtain ⟨tail, rfl, hend⟩ := readUpTo?_eq_some hupto
  simp only [afterEnd?, Option.bind_eq_bind, Option.bind_eq_some_iff] at hend
  obtain ⟨slashed, hslash, angled, hsame, hangle⟩ := hend
  obtain rfl := Text.after?_eq_some_iff.1 hslash
  obtain rfl := Text.after?_eq_some_iff.1 hangle
  obtain ⟨again, rfl, hagain⟩ := afterSameName?_eq_some hsame
  refine ⟨hspells, again, fun hm => ?_, by simp [Element.openingTag]⟩
  obtain ⟨d, hd, heq⟩ := hagain '-' hm
  exact hspells.dash_ne d hd heq

theorem enclosed_of_readLoop (h : readLoop (w ++ rest) = some (found, rest)) :
    Enclosed w ∧ found.body <:+: w ∧ ∀ c ∈ found.item, isWord c = true := by
  obtain ⟨opening, inside, closing, hopening, hclosing, hitem, htext⟩ := readLoop_eq_some h
  have hsame : w ++ rest = opening ++ (inside ++ (found.body ++ closing)) ++ rest := by simp [htext]
  have hw : w = opening ++ (inside ++ (found.body ++ closing)) := List.append_cancel_right hsame
  refine ⟨⟨?_, ?_⟩, ⟨opening ++ inside, closing, by rw [hw]; simp⟩, hitem⟩
  · obtain ⟨c, more, rfl, hc⟩ := hopening.opens_tag
    exact ⟨c, _, hw, hc⟩
  · rcases List.eq_nil_or_concat closing with rfl | ⟨front, c, rfl⟩
    · cases hclosing
    rw [List.concat_eq_append] at hclosing hw
    have hlength : front.length = 14 := by
      have := List.Forall₂.length_eq hclosing
      simpa [eq_comm] using this
    have hlast := List.forall₂_drop_append _ _ _ hclosing
    have hangle : "</ng-container>".toList.drop 14 = ['>'] := by decide
    rw [hlength, hangle, List.forall₂_cons] at hlast
    rw [hw, ← List.append_assoc, ← List.append_assoc, ← List.append_assoc, List.getLast?_concat,
      eq_of_isLetter_sign (by decide) hlast.1]

/-! ## The pieces together -/

theorem flatMap_source_content (content : Text) :
    ((Segment.ofText readLoop content).map Stretch.ofContent).flatMap Stretch.source = content := by
  rw [List.flatMap_map]
  conv_rhs => rw [← Segment.flatMap_text_ofText readLoop content]
  exact List.flatMap_congr fun segment _ => by cases segment <;> rfl

/-- An element that was read is its opening tag, its content and what stands behind that. -/
theorem source_element (h : readElement (w ++ rest) = some (element, rest)) : ElementName element.name ∧
    ∃ again, '-' ∉ again ∧ w = element.openingTag ++ (element.content ++ ('<' :: '/' :: (again ++ ['>']))) := by
  obtain ⟨hname, again, hagain, htext⟩ := exists_of_readElement h
  have hsame : w ++ rest =
      element.openingTag ++ (element.content ++ ('<' :: '/' :: (again ++ ['>']))) ++ rest := by simp [htext]
  exact ⟨hname, again, hagain, List.append_cancel_right hsame⟩

theorem Element.stretches_append (element : Element) (closing : Text) :
    element.stretches (element.openingTag ++ (element.content ++ closing)) =
      .tag element.openingTag element.openingTag ::
        ((Segment.ofText readLoop element.content).map Stretch.ofContent ++ [.tag closing element.closingTag]) := by
  rw [Element.stretches, ← List.append_assoc, List.drop_left]

theorem Element.flatMap_source (h : readElement (w ++ rest) = some (element, rest)) :
    (element.stretches w).flatMap Stretch.source = w := by
  obtain ⟨-, again, -, rfl⟩ := source_element h
  rw [Element.stretches_append, List.flatMap_cons, List.flatMap_append, flatMap_source_content]
  simp [Stretch.source]

theorem flatMap_source_stretches (template : Text) :
    (stretches template).flatMap Stretch.source = template := by
  conv_rhs => rw [← Segment.flatMap_text_ofText readElement template]
  rw [stretches, List.flatMap_assoc]
  refine List.flatMap_congr fun segment hs => ?_
  cases segment with
  | gap between => simp [Stretch.source, Segment.text]
  | hit element w =>
    obtain ⟨front, rest, -, hread⟩ := Segment.of_hit_mem readElement_consumes hs
    exact Element.flatMap_source hread

theorem compile_eq_flatMap (template : Text) : compile template = (stretches template).flatMap Stretch.marked := by
  rw [compile, Text.replace, stretches, List.flatMap_assoc]
  congr 1
  funext segment
  cases segment with
  | gap between => simp [Stretch.marked]
  | hit element w =>
    have hcontent : ((Segment.ofText readLoop element.content).map Stretch.ofContent).flatMap Stretch.marked =
        Text.replace readLoop markLoop element.content := by
      rw [List.flatMap_map, Text.replace]
      congr 1
      funext segment
      cases segment <;> rfl
    simp only [Element.stretches, List.flatMap_cons, List.flatMap_append, hcontent]
    simp [Stretch.marked, markElement, Element.openingTag, Element.closingTag]

/-- No text stands behind another text. -/
def Parted (pieces : List Stretch) : Prop :=
  pieces.IsChain fun front back => front.isText = true → back.isText = false

theorem Element.parted (element : Element) (source : Text) : Parted (element.stretches source) := by
  have hcontent : Parted ((Segment.ofText readLoop element.content).map Stretch.ofContent) := by
    rw [Parted, List.isChain_map]
    refine (Segment.alternates_ofText readLoop_consumes element.content).imp fun {front back} h => ?_
    cases front <;> cases back <;> simp_all [Stretch.ofContent, Stretch.isText, Segment.isGap]
  refine List.isChain_cons.2 ⟨fun _ _ h => Bool.noConfusion h, List.isChain_append.2 ⟨hcontent, ?_, ?_⟩⟩
  · exact List.IsChain.singleton _
  · intro _ _ back hback
    obtain rfl := Option.some.inj hback
    exact fun _ => rfl

theorem parted_stretches (template : Text) : Parted (stretches template) := by
  have halternates := Segment.alternates_ofText readElement_consumes template
  rw [stretches]
  generalize Segment.ofText readElement template = segments at halternates
  induction segments with
  | nil => exact List.IsChain.nil
  | cons segment segments ih =>
    refine List.isChain_append.2 ⟨?_, ih halternates.tail, ?_⟩
    · cases segment with
      | gap between => exact List.IsChain.singleton _
      | hit element source => exact element.parted source
    · intro front hfront back hback htext
      cases segment with
      | gap between =>
        cases segments with
        | nil => cases hback
        | cons segment segments =>
          cases segment with
          | gap more => exact Bool.noConfusion ((List.isChain_cons_cons.1 halternates).1 rfl)
          | hit element source =>
            obtain rfl := Option.some.inj hback
            rfl
      | hit element source =>
        have hlast : (element.stretches source).getLast? =
            some (.tag (source.drop (element.openingTag ++ element.content).length) element.closingTag) := by
          rw [Element.stretches, ← List.cons_append, List.getLast?_concat]
        obtain rfl := Option.some.inj (hlast.symm.trans hfront)
        cases htext

/-! ## The markers that are left -/

/-- The markers that are left of the loops in some pieces. The text `since` stands in front of them, behind
the loop before. -/
def leftMarkers (since : Text) : List Stretch → List Text
  | [] => []
  | .text between :: rest => leftMarkers (since ++ between) rest
  | .tag _ again :: rest => leftMarkers (since ++ again) rest
  | .loop loop _ :: rest =>
    (if Open since then [markerEnd] else [loop.marker, markerEnd]) ++ leftMarkers [] rest

/-- The pieces without the comments around the loops and in their bodies. The text `since` stands in front of
them, behind the loop before. -/
def uncommented (since : Text) : List Stretch → Text
  | [] => removeComments since
  | .text between :: rest => uncommented (since ++ between) rest
  | .tag _ again :: rest => uncommented (since ++ again) rest
  | .loop loop _ :: rest =>
    removeComments since ++
      (loop.marker ++ (removeComments loop.body.trim ++ (markerEnd ++ uncommented [] rest)))

/-- Whether one of the loops in some pieces begins in a comment of the template. The text `before` stands in
front of them. -/
def LoopInComment (before : Text) (pieces : List Stretch) : Prop :=
  ∃ front found source back, pieces = front ++ .loop found source :: back ∧
    Open (before ++ front.flatMap Stretch.source)

/-- A loop whose marker has no angles inside and no blanks but single spaces, and that leaves no comment
open. -/
structure LoopElement.Plain (loop : LoopElement) (source : Text) : Prop where
  no_opening : '<' ∉ loop.iterable
  no_closing : '>' ∉ loop.iterable
  collapsed : loop.iterable.collapse = loop.iterable
  closed_body : ¬ Open loop.body.trim
  closed : ¬ Open source

/-! ## What the pieces are -/

/-- A piece as it is cut out of a clear template: a text; a tag, which is written again as it is or has no
dashes; or a plain loop. -/
def Stretch.Sound : Stretch → Prop
  | .text between => Clear between
  | .tag source again => (Clear source ∧ Clear again) ∧ (Enclosed source ∧ Enclosed again) ∧
      (source = again ∨ '-' ∉ source ∧ '-' ∉ again)
  | .loop found source => Clear source ∧ Enclosed source ∧ found.body <:+: source ∧
      (∀ c ∈ found.item, isWord c = true) ∧ found.Plain source

theorem Element.enclosed_openingTag (h : ElementName element.name) : Enclosed element.openingTag := by
  obtain ⟨c, cs, hname⟩ := List.exists_cons_of_ne_nil h.ne_nil
  refine ⟨⟨c, cs ++ (element.attributes ++ ['>']), by rw [Element.openingTag, hname]; rfl, ?_⟩, ?_⟩
  · rintro rfl
    exact h.no_sign (hname ▸ List.mem_cons_self)
  · rw [Element.openingTag, ← List.append_assoc, ← List.cons_append, List.getLast?_concat]

theorem enclosed_closing (name : Text) : Enclosed ('<' :: '/' :: (name ++ ['>'])) :=
  ⟨⟨'/', name ++ ['>'], rfl, by decide⟩, by rw [← List.cons_append, ← List.cons_append, List.getLast?_concat]⟩

theorem infix_of_mem_stretches {piece : Stretch} (h : piece ∈ stretches template) :
    piece.source <:+: template := by
  have hwithin : piece.source <:+: (stretches template).flatMap Stretch.source :=
    List.infix_of_mem_flatten (List.mem_map_of_mem h)
  rwa [flatMap_source_stretches] at hwithin

theorem sound_of_mem {piece : Stretch} (hclear : Clear template)
    (hplain : ∀ found source, .loop found source ∈ stretches template → found.Plain source)
    (h : piece ∈ stretches template) : piece.Sound := by
  have hsource := hclear.of_part (infix_of_mem_stretches h)
  have hpiece := h
  rw [stretches, List.mem_flatMap] at h
  obtain ⟨segment, hs, hmem⟩ := h
  cases segment with
  | gap between =>
    obtain rfl := List.mem_singleton.1 hmem
    exact hsource
  | hit element w =>
    obtain ⟨front, rest, -, hread⟩ := Segment.of_hit_mem readElement_consumes hs
    obtain ⟨hname, again, hagain, rfl⟩ := source_element hread
    change piece ∈ element.stretches _ at hmem
    rw [Element.stretches_append, List.mem_cons, List.mem_append, List.mem_singleton, List.mem_map] at hmem
    rcases hmem with rfl | ⟨segment, hsegment, rfl⟩ | rfl
    · exact ⟨⟨hsource, hsource⟩, ⟨Element.enclosed_openingTag hname, Element.enclosed_openingTag hname⟩, .inl rfl⟩
    · cases segment with
      | gap between => exact hsource
      | hit found source =>
        obtain ⟨front, rest, -, hloop⟩ := Segment.of_hit_mem readLoop_consumes hsegment
        obtain ⟨henclosed, hbody, hitem⟩ := enclosed_of_readLoop hloop
        exact ⟨hsource, henclosed, hbody, hitem, hplain found source hpiece⟩
    · have hdash : '-' ∉ element.closingTag := by simp [Element.closingTag, hname.no_dash]
      exact ⟨⟨hsource, clear_of_no_dash hdash⟩, ⟨enclosed_closing again, enclosed_closing element.name⟩,
        .inr ⟨by simp [hagain], hdash⟩⟩

/-! ## What is left of the markers -/

theorem isBlank_of_isWord {c : Char} (h : isWord c = true) : isBlank c = false := by
  have key : ∀ n ∈ Text.blankCodes, isWord (Char.ofNat n) = false := by decide +kernel
  rw [← Bool.not_eq_true]
  intro hblank
  have hword := key c.toNat (Text.isBlank_iff.1 hblank)
  rw [Char.ofNat_toNat, h] at hword
  cases hword

theorem LoopElement.Plain.not_mem_inside (h : found.Plain source) (hitem : ∀ c ∈ found.item, isWord c = true)
    {c : Char} (hc : c = '<' ∨ c = '>') : c ∉ found.item ++ ':' :: found.iterable := by
  have hword : c ∉ found.item := fun hm => by
    have := hitem c hm
    rcases hc with rfl | rfl <;> revert this <;> decide
  have hiterable : c ∉ found.iterable := by
    rcases hc with rfl | rfl
    · exact h.no_opening
    · exact h.no_closing
  refine List.not_mem_append hword (List.not_mem_cons_of_ne_of_not_mem ?_ hiterable)
  rcases hc with rfl | rfl <;> decide

theorem LoopElement.Plain.isMarker (h : found.Plain source) (hitem : ∀ c ∈ found.item, isWord c = true) :
    IsMarker found.marker := by
  refine .inr ⟨found.item ++ ':' :: found.iterable, h.not_mem_inside hitem (.inl rfl),
    h.not_mem_inside hitem (.inr rfl), ?_, rfl⟩
  rw [Text.collapse_append_of_not_blank fun c hc => isBlank_of_isWord (hitem c hc),
    Text.collapse_cons_of_not_blank (by decide), h.collapsed]

theorem markLoop_eq (found : LoopElement) (rest : Text) :
    markLoop found ++ rest = found.marker ++ (found.body.trim ++ (markerEnd ++ rest)) := by
  have hend : "-->".toList = commentEnd := rfl
  simp [markLoop, LoopElement.marker, hend]

/-- A loop keeps its end marker, and the other one unless that ends a comment. -/
theorem shows_loop {since : Text} {ms : List Text} (hsound : (Stretch.loop found source).Sound)
    (hsince : Clear since) (h : Shows (removeComments rest) ms) :
    Shows (removeComments (since ++ (markLoop found ++ rest)))
      ((if Open since then [markerEnd] else [found.marker, markerEnd]) ++ ms) := by
  obtain ⟨hsource, -, hbody, hitem, hplain⟩ := hsound
  have hmarker := hplain.isMarker hitem
  have hend : IsMarker markerEnd := .inl rfl
  have hcontent : Clear found.body.trim := by
    obtain ⟨before, behind, -, -, htext⟩ := Text.exists_blanks_trim found.body
    exact hsource.of_part (List.IsInfix.trans ⟨before, behind, by rw [List.append_assoc]; exact htext.symm⟩ hbody)
  have hbehind : Shows (removeComments (found.body.trim ++ (markerEnd ++ rest))) (markerEnd :: ms) :=
    Shows.removeComments_of_not_open hcontent hplain.closed_body (hend.atTag _) (hend.readComment rest)
      (Shows.removeComments_marker hend h)
  rw [markLoop_eq]
  split
  next hopen =>
    have hsplit : found.marker = markerStart ++ (found.item ++ ':' :: found.iterable) ++ commentEnd := by
      simp [LoopElement.marker]
    have hnone := hmarker.readComment (found.body.trim ++ (markerEnd ++ rest))
    rw [hsplit, List.append_assoc] at hnone ⊢
    refine Shows.removeComments_of_open hsince hopen (AtTag.cons _) hnone ?_ hbehind
    exact List.not_mem_append (by decide) (hplain.not_mem_inside hitem (.inr rfl))
  next hclosed =>
    exact Shows.removeComments_of_not_open hsince hclosed (hmarker.atTag _) (hmarker.readComment _)
      (Shows.removeComments_marker hmarker hbehind)

/-- **The markers in the pieces of a template** once comments are taken away. -/
theorem shows_pieces {pieces : List Stretch} (hparted : Parted pieces) (hsound : ∀ piece ∈ pieces, piece.Sound)
    {since : Text} (hsince : Clear since)
    (hseam : (∀ c ∈ since.getLast?, c = '>') ∨ ∀ piece ∈ pieces.head?, piece.isText = false) :
    Shows (removeComments (since ++ pieces.flatMap Stretch.marked)) (leftMarkers since pieces) := by
  induction pieces generalizing since with
  | nil =>
    rw [List.flatMap_nil, List.append_nil]
    by_cases hopen : Open since
    · exact Shows.removeComments_unclosed hsince hopen
    · have := Shows.removeComments_of_not_open hsince hopen AtTag.nil rfl Shows.nil
      rwa [List.append_nil] at this
  | cons piece pieces ih =>
    obtain ⟨hpiece, hrest⟩ := List.forall_mem_cons.1 hsound
    have hnext := @ih hparted.tail hrest
    rw [List.flatMap_cons]
    cases piece with
    | text between =>
      have hangle := hseam.resolve_right fun hhead => Bool.noConfusion (hhead _ rfl)
      rw [← List.append_assoc]
      refine hnext (hsince.append hpiece (.inl hangle) fun _ => hangle) (.inr fun piece hp => ?_)
      exact hparted.rel_head? hp rfl
    | tag source again =>
      obtain ⟨⟨-, hagain⟩, ⟨-, henclosed⟩, -⟩ := hpiece
      rw [← List.append_assoc]
      exact hnext (henclosed.clear_append hsince hagain) (.inl (henclosed.ends since))
    | loop found source =>
      have hback : Shows (removeComments (pieces.flatMap Stretch.marked)) (leftMarkers [] pieces) :=
        hnext (clear_of_no_dash List.not_mem_nil) (.inl (by simp))
      exact shows_loop hpiece hsince hback

/-! ## Loops in comments -/

variable {before since : Text} {pieces : List Stretch}

theorem loopInComment_cons {piece : Stretch} : LoopInComment before (piece :: pieces) ↔
    ((∃ found source, piece = .loop found source) ∧ Open before) ∨
      LoopInComment (before ++ piece.source) pieces := by
  constructor
  · rintro ⟨front, found, source, back, heq, hopen⟩
    cases front with
    | nil =>
      obtain ⟨rfl, rfl⟩ := List.cons.inj heq
      exact .inl ⟨⟨found, source, rfl⟩, by simpa using hopen⟩
    | cons first front =>
      obtain ⟨rfl, rfl⟩ := List.cons.inj heq
      exact .inr ⟨front, found, source, back, rfl, by simpa using hopen⟩
  · rintro (⟨⟨found, source, rfl⟩, hopen⟩ | ⟨front, found, source, back, rfl, hopen⟩)
    · exact ⟨[], found, source, pieces, rfl, by simpa using hopen⟩
    · exact ⟨piece :: front, found, source, back, rfl, by simpa using hopen⟩

theorem leftMarkers_sublist (since : Text) (pieces : List Stretch) :
    (leftMarkers since pieces).Sublist (pieces.flatMap Stretch.markers) := by
  induction pieces generalizing since with
  | nil => exact List.Sublist.refl _
  | cons piece pieces ih =>
    cases piece with
    | text between => exact ih _
    | tag source again => exact ih _
    | loop found source =>
      refine List.Sublist.append ?_ (ih [])
      split
      · exact List.Sublist.cons _ (List.Sublist.refl _)
      · exact List.Sublist.refl _

/-- A loop loses a marker where a comment is open, and no other one makes up for that. -/
theorem leftMarkers_loop_eq_iff : leftMarkers since (.loop found source :: pieces) =
      (Stretch.loop found source :: pieces).flatMap Stretch.markers ↔
    ¬ Open since ∧ leftMarkers [] pieces = pieces.flatMap Stretch.markers := by
  rw [leftMarkers, List.flatMap_cons, Stretch.markers]
  by_cases hopen : Open since
  · refine iff_of_false (fun heq => ?_) fun h => h.1 hopen
    have hshort := (leftMarkers_sublist [] pieces).length_le
    have hlength := congrArg List.length heq
    simp only [if_pos hopen, List.length_append, List.length_cons, List.length_nil] at hlength
    omega
  · rw [if_neg hopen, List.append_cancel_left_eq, and_iff_right hopen]

/-- A comment that is open in front of a tag is open behind it, however the tag is written. -/
theorem open_tag {source again : Text} (hsound : (Stretch.tag source again).Sound) (hbefore : Clear before)
    (hsince : Clear since) (hopen : Open before ↔ Open since) : Open (before ++ source) ↔ Open (since ++ again) := by
  obtain ⟨-, ⟨hsource, hagain⟩, hsame⟩ := hsound
  rw [open_append_iff hbefore (hsource.joint before), open_append_iff hsince (hagain.joint since)]
  rcases hsame with rfl | ⟨hfree, hfree'⟩
  · simp only [hopen]
  · simp only [hopen, staysOpen_of_no_dash hfree, staysOpen_of_no_dash hfree', not_open_of_no_dash hfree,
      not_open_of_no_dash hfree']

/-- **All markers are left if no loop begins in a comment.** -/
theorem leftMarkers_eq_iff (hparted : Parted pieces) (hsound : ∀ piece ∈ pieces, piece.Sound)
    (hbefore : Clear before) (hsince : Clear since) (hopen : Open before ↔ Open since)
    (hseam : (∀ c ∈ before.getLast?, c = '>') ∧ (∀ c ∈ since.getLast?, c = '>') ∨
      ∀ piece ∈ pieces.head?, piece.isText = false) :
    leftMarkers since pieces = pieces.flatMap Stretch.markers ↔ ¬ LoopInComment before pieces := by
  induction pieces generalizing before since with
  | nil =>
    refine iff_of_true rfl ?_
    rintro ⟨front, _, _, _, h, -⟩
    cases front <;> cases h
  | cons piece pieces ih =>
    obtain ⟨hpiece, hrest⟩ := List.forall_mem_cons.1 hsound
    rw [loopInComment_cons, List.flatMap_cons]
    cases piece with
    | text between =>
      obtain ⟨hangle, hangle'⟩ := hseam.resolve_right fun hhead => Bool.noConfusion (hhead _ rfl)
      have hopen' : Open (before ++ between) ↔ Open (since ++ between) := by
        rw [open_append_iff hbefore (.inl hangle), open_append_iff hsince (.inl hangle'), if_congr hopen rfl rfl]
      have hiff := ih hparted.tail hrest (hbefore.append hpiece (.inl hangle) fun _ => hangle)
        (hsince.append hpiece (.inl hangle') fun _ => hangle') hopen'
        (.inr fun piece hp => hparted.rel_head? hp rfl)
      simpa [leftMarkers, Stretch.markers, Stretch.source] using hiff
    | tag source again =>
      have hopen' := open_tag hpiece hbefore hsince hopen
      obtain ⟨⟨hsource, hagain⟩, ⟨henclosed, henclosed'⟩, -⟩ := hpiece
      have hiff := ih hparted.tail hrest (henclosed.clear_append hbefore hsource)
        (henclosed'.clear_append hsince hagain) hopen' (.inl ⟨henclosed.ends before, henclosed'.ends since⟩)
      simpa [leftMarkers, Stretch.markers, Stretch.source] using hiff
    | loop found source =>
      obtain ⟨hsource, henclosed, -, -, hplain⟩ := hpiece
      have hloop : ∃ other text, Stretch.loop found source = .loop other text := ⟨found, source, rfl⟩
      rw [← List.flatMap_cons, leftMarkers_loop_eq_iff, ← hopen, not_or, and_iff_right hloop]
      refine and_congr_right fun hclosed => ?_
      have hbehind : Open (before ++ source) ↔ Open [] := by
        rw [open_append_of_not hclosed (henclosed.joint before)]
        exact iff_of_false hplain.closed not_open_nil
      exact ih hparted.tail hrest (henclosed.clear_append hbefore hsource)
        (clear_of_no_dash List.not_mem_nil) hbehind (.inl ⟨henclosed.ends before, by simp⟩)

/-- **Comments around the loops are taken away as they are** if no loop stands in one. -/
theorem removeComments_pieces (hparted : Parted pieces) (hsound : ∀ piece ∈ pieces, piece.Sound)
    (hleft : leftMarkers since pieces = pieces.flatMap Stretch.markers) :
    removeComments (since ++ pieces.flatMap Stretch.marked) = uncommented since pieces := by
  induction pieces generalizing since with
  | nil => rw [List.flatMap_nil, List.append_nil, uncommented]
  | cons piece pieces ih =>
    obtain ⟨hpiece, hrest⟩ := List.forall_mem_cons.1 hsound
    cases piece with
    | text between =>
      rw [List.flatMap_cons, ← List.append_assoc]
      exact ih hparted.tail hrest hleft
    | tag source again =>
      rw [List.flatMap_cons, ← List.append_assoc]
      exact ih hparted.tail hrest hleft
    | loop found source =>
      obtain ⟨hclosed, hleft⟩ := leftMarkers_loop_eq_iff.1 hleft
      obtain ⟨-, -, -, hitem, hplain⟩ := hpiece
      have hmarker := hplain.isMarker hitem
      have hend : IsMarker markerEnd := .inl rfl
      have hback : removeComments (pieces.flatMap Stretch.marked) = uncommented [] pieces :=
        ih hparted.tail hrest hleft
      rw [List.flatMap_cons, Stretch.marked, markLoop_eq,
        removeComments_append hclosed (.inr (hmarker.atTag _)), hmarker.removeComments_append,
        removeComments_append hplain.closed_body (.inr (hend.atTag _)), hend.removeComments_append, hback,
        uncommented]

theorem LoopElement.marker_ne (found : LoopElement) : found.marker ≠ markerEnd := by
  intro heq
  have hstart : markerStart <+: found.marker := List.prefix_append _ _
  rw [heq] at hstart
  revert hstart
  decide

theorem count_markerEnd (since : Text) (pieces : List Stretch) :
    (leftMarkers since pieces).count markerEnd = (pieces.flatMap Stretch.markers).count markerEnd ∧
      (pieces.flatMap Stretch.markers).length = 2 * (pieces.flatMap Stretch.markers).count markerEnd := by
  induction pieces generalizing since with
  | nil => exact ⟨rfl, rfl⟩
  | cons piece pieces ih =>
    cases piece with
    | text between => exact ih _
    | tag source again => exact ih _
    | loop found source =>
      obtain ⟨hleft, hall⟩ := ih []
      have hpair : [found.marker, markerEnd].count markerEnd = 1 := by
        rw [List.count_cons_of_ne found.marker_ne]
        simp
      rw [leftMarkers, List.flatMap_cons, Stretch.markers, List.count_append, List.count_append,
        List.length_append, hleft, hall, hpair]
      refine ⟨?_, by simp only [List.length_cons, List.length_nil]; omega⟩
      split
      · simp
      · rw [hpair]

/-- As many markers begin a loop as end one, if all are left. -/
theorem balanced_leftMarkers_iff (since : Text) (pieces : List Stretch) :
    (leftMarkers since pieces).countP (· ≠ markerEnd) = (leftMarkers since pieces).count markerEnd ↔
      leftMarkers since pieces = pieces.flatMap Stretch.markers := by
  obtain ⟨hleft, hall⟩ := count_markerEnd since pieces
  have hparts : ∀ ms : List Text, ms.length = ms.count markerEnd + ms.countP (· ≠ markerEnd) := fun ms => by
    rw [List.length_eq_countP_add_countP (· == markerEnd), List.count]
    simp
  constructor
  · intro hbalanced
    refine (leftMarkers_sublist since pieces).eq_of_length ?_
    rw [hparts, hbalanced, hleft, hall]
    omega
  · intro heq
    have hlength := hparts (pieces.flatMap Stretch.markers)
    rw [heq]
    omega

/-- **The markers in a minified template.** Take any template without markers of its own, and without a
comment directly behind the front of a tag, in which every loop in a select is plain. Each loop keeps its end
marker, and it keeps the other one if the text since the loop before it leaves no comment open
(`leftMarkers`). So all of them stay, in order and as they were written, exactly if no loop begins in a
comment of the template, and only then do as many begin a loop as end one. Then the comments around the
loops and in their bodies are gone, and nothing else is. -/
theorem markers_minify_compile (hclear : Clear template)
    (hplain : ∀ found source, .loop found source ∈ stretches template → found.Plain source) :
    markers (minify (compile template)) = leftMarkers [] (stretches template) ∧
      (markers (minify (compile template)) = (stretches template).flatMap Stretch.markers ↔
        ¬ LoopInComment [] (stretches template)) ∧
      ((markers (minify (compile template))).countP (· ≠ markerEnd) =
          (markers (minify (compile template))).count markerEnd ↔
        ¬ LoopInComment [] (stretches template)) ∧
      (¬ LoopInComment [] (stretches template) →
        removeComments (compile template) = uncommented [] (stretches template)) := by
  have hsound : ∀ piece ∈ stretches template, piece.Sound := fun piece => sound_of_mem hclear hplain
  have hparted := parted_stretches template
  have hempty : Clear [] := clear_of_no_dash List.not_mem_nil
  have hshows := (shows_pieces hparted hsound hempty (.inl (by simp))).minifySpace
  rw [List.nil_append, ← compile_eq_flatMap] at hshows
  have hmarkers : markers (minify (compile template)) = leftMarkers [] (stretches template) := hshows.markers_eq
  have hiff := leftMarkers_eq_iff hparted hsound hempty hempty Iff.rfl (.inl ⟨by simp, by simp⟩)
  rw [hmarkers]
  refine ⟨rfl, hiff, (balanced_leftMarkers_iff _ _).trans hiff, fun hnot => ?_⟩
  rw [compile_eq_flatMap]
  exact removeComments_pieces hparted hsound (hiff.2 hnot)

theorem markers_minify_compile_sample :
    let template : Text := "<select><ng-container *ngFor=\"let o of os\">x</ng-container></SELECT>".toList ++
      "<!-- <select><ng-container *ngFor=\"let p of ps\">y</ng-container></select> -->".toList
    Clear template ∧ (∀ found source, .loop found source ∈ stretches template → found.Plain source) ∧
      markers (minify (compile template)) = ["<!--F:o:os-->".toList, markerEnd, markerEnd] ∧
      LoopInComment [] (stretches template) := by
  intro template
  have hclear : Clear template := by decide +kernel
  have hpieces : stretches template = [
      .tag "<select>".toList "<select>".toList,
      .loop ⟨['o'], ['o', 's'], ['x']⟩ "<ng-container *ngFor=\"let o of os\">x</ng-container>".toList,
      .tag "</SELECT>".toList "</select>".toList, .text "<!-- ".toList,
      .tag "<select>".toList "<select>".toList,
      .loop ⟨['p'], ['p', 's'], ['y']⟩ "<ng-container *ngFor=\"let p of ps\">y</ng-container>".toList,
      .tag "</select>".toList "</select>".toList, .text " -->".toList] := by decide +kernel
  have hplain : ∀ found source, .loop found source ∈ stretches template → found.Plain source := by
    intro found source h
    simp only [hpieces, List.mem_cons, List.not_mem_nil, Stretch.loop.injEq, reduceCtorEq, false_or,
      or_false] at h
    rcases h with ⟨rfl, rfl⟩ | ⟨rfl, rfl⟩
    · exact ⟨by decide, by decide, by decide, by decide +kernel, by decide +kernel⟩
    · exact ⟨by decide, by decide, by decide, by decide +kernel, by decide +kernel⟩
  obtain ⟨hmarkers, hall, -, -⟩ := markers_minify_compile hclear hplain
  have hleft : leftMarkers [] (stretches template) = ["<!--F:o:os-->".toList, markerEnd, markerEnd] := by
    rw [hpieces]
    decide +kernel
  refine ⟨hclear, hplain, hmarkers.trans hleft, not_not.1 fun hnot => ?_⟩
  have heq := (hmarkers.symm.trans (hall.2 hnot)).symm
  rw [hleft, hpieces] at heq
  exact absurd (congrArg List.length heq) (by decide)

/-- A select that is commented out leaves the end markers of its loops behind. -/
theorem not_markers_minify_balanced :
    ¬ ∀ template : Text, ¬ markerStart <:+: template → ¬ markerEnd <:+: template →
      (markers (minify (compile template))).countP (· ≠ markerEnd) =
        (markers (minify (compile template))).count markerEnd := by
  intro h
  let template : Text := "<!-- <select><ng-container *ngFor=\"let o of os\">x</ng-container></select> -->".toList
  have hmarkers : markers (minify (compile template)) = [markerEnd] := by decide +kernel
  have hbalanced := h template (by decide +kernel) (by decide +kernel)
  rw [hmarkers] at hbalanced
  revert hbalanced
  decide

end FlowTemplate.SelectMarker
