/-
Loops whose bodies are cut short. A loop that holds a container ends at the first tag that closes one,
so its body is cut short (`CutShort`), and what becomes of the template parts from what is meant at the
first such loop (`Template.parts_of_not_flat`). Property bindings are compiled later and do not make the
two equal again (`PartsAtTag.compile_ne`).
-/
import FlowTemplate.Proofs.Select.Loops

namespace FlowTemplate

open Template SelectMarker Markup

/-! ## Trimming -/

namespace Text

theorem trimEnd_append_cons {c : Char} (h : isBlank c = false) (front rest : Text) :
    (front ++ c :: rest).trimEnd = front ++ c :: rest.trimEnd := by
  have hreverse : (front ++ c :: rest).reverse = rest.reverse ++ c :: front.reverse := by simp
  rw [trimEnd, hreverse, dropWhile_append_cons h, trimEnd]
  simp

theorem trim_append_cons {c : Char} (h : isBlank c = false) (front rest : Text) :
    (front ++ c :: rest).trim = front.trimStart ++ c :: rest.trimEnd := by
  rw [trim, trimStart_append_cons h, trimEnd_append_cons h]

theorem not_blank_trimStart {text : Text} (h : ¬ text.Blank) : ¬ Blank text.trimStart := by
  obtain ⟨blanks, hb, htext⟩ := exists_blank_append_trimStart text
  exact fun hstart => h (htext ▸ hb.append hstart)

theorem trimStart_append_of_not_blank {front : Text} (h : ¬ front.Blank) (rest : Text) :
    (front ++ rest).trimStart = front.trimStart ++ rest := by
  rw [trimStart, List.dropWhile_append]
  split
  next hempty =>
    rw [List.isEmpty_iff, List.dropWhile_eq_nil_iff] at hempty
    exact absurd hempty h
  next => rfl

theorem exists_trimEnd_append_blank (text : Text) :
    ∃ blanks : Text, blanks.Blank ∧ text = text.trimEnd ++ blanks := by
  refine ⟨(text.reverse.takeWhile isBlank).reverse, fun c hc => ?_, ?_⟩
  · exact List.mem_takeWhile_imp (List.mem_reverse.1 hc)
  · rw [trimEnd, ← List.reverse_append, List.takeWhile_append_dropWhile, List.reverse_reverse]

end Text

/-! ## Loops that are cut short -/

/-- What is found of a body, against what the whole body is meant to be: the two part where a loop in
the body begins, or the closing tag of a branch is missing behind it. -/
inductive CutShort (body : Text) : Text → Prop
  | loop (front more left : Text) (hbody : body = front ++ '<' :: 'n' :: more) :
      CutShort body (front ++ '<' :: '!' :: left)
  | branch (left : Text) (hbody : ¬ body.Blank) : CutShort body (body ++ (closing ++ left))

namespace CutShort

theorem prepend (front : Text) {body whole : Text} (h : CutShort body whole) :
    CutShort (front ++ body) (front ++ whole) := by
  cases h with
  | loop start more left hbody =>
    rw [← List.append_assoc]
    exact .loop _ more left (by rw [hbody, List.append_assoc])
  | branch left hbody =>
    rw [← List.append_assoc]
    exact .branch left fun hblank => hbody fun c hc => hblank c (List.mem_append_right _ hc)

theorem append {body whole : Text} (h : CutShort body whole) (rest : Text) :
    CutShort body (whole ++ rest) := by
  cases h with
  | loop start more left hbody =>
    rw [List.append_assoc]
    exact .loop start more (left ++ rest) hbody
  | branch left hbody =>
    rw [List.append_assoc, List.append_assoc]
    exact .branch (left ++ rest) hbody

theorem trimStart {body whole : Text} (h : CutShort body whole) :
    CutShort body.trimStart whole.trimStart := by
  have hangle : isBlank '<' = false := by decide
  cases h with
  | loop front more left hbody =>
    rw [Text.trimStart_append_cons hangle]
    exact .loop _ more left (by rw [hbody, Text.trimStart_append_cons hangle])
  | branch left hbody =>
    have htrim : Text.trimStart (body ++ (closing ++ left)) = body.trimStart ++ (closing ++ left) :=
      Text.trimStart_append_cons hangle body _
    rw [htrim]
    exact .branch left (Text.not_blank_trimStart hbody)

end CutShort

/-- Two texts that are equal up to a tag in the first one, at which the second has another tag, or a
blank behind what they have in common. -/
inductive PartsAtTag : Text → Text → Prop
  | tag (front : Text) {c d : Char} (more left : Text) (hc : c ≠ '[') (hd : c ≠ d) :
      PartsAtTag (front ++ '<' :: c :: more) (front ++ '<' :: d :: left)
  | blank (front : Text) {c b : Char} (more left : Text) (hc : c ≠ '[') (hb : isBlank b = true)
      (hfront : ¬ front.Blank) : PartsAtTag (front ++ '<' :: c :: more) (front ++ b :: left)

namespace PartsAtTag

theorem prepend (front : Text) {s t : Text} (h : PartsAtTag s t) :
    PartsAtTag (front ++ s) (front ++ t) := by
  cases h with
  | tag start more left hc hd =>
    rw [← List.append_assoc, ← List.append_assoc]
    exact .tag _ more left hc hd
  | blank start more left hc hb hfront =>
    rw [← List.append_assoc, ← List.append_assoc]
    exact .blank _ more left hc hb fun hblank => hfront fun c hc => hblank c (List.mem_append_right _ hc)

theorem append {s t : Text} (h : PartsAtTag s t) (rest : Text) : PartsAtTag (s ++ rest) t := by
  cases h with
  | tag front more left hc hd =>
    rw [List.append_assoc]
    exact .tag front (more ++ rest) left hc hd
  | blank front more left hc hb hfront =>
    rw [List.append_assoc]
    exact .blank front (more ++ rest) left hc hb hfront

theorem trimStart {s t : Text} (h : PartsAtTag s t) : PartsAtTag s.trimStart t.trimStart := by
  have hangle : isBlank '<' = false := by decide
  cases h with
  | tag front more left hc hd =>
    rw [Text.trimStart_append_cons hangle, Text.trimStart_append_cons hangle]
    exact .tag _ more left hc hd
  | @blank front c b more left hc hb hfront =>
    rw [Text.trimStart_append_cons hangle, Text.trimStart_append_of_not_blank hfront]
    exact .blank _ more left hc hb (Text.not_blank_trimStart hfront)

/-- The texts are still different after property bindings are compiled, if the second has none. -/
theorem compile_ne {s t : Text} (h : PartsAtTag s t) (hfree : Text.Lacks PropertyBinding.readBinding t []) :
    PropertyBinding.compile s ≠ t := by
  have hkept : ∀ {front behind c more}, front ++ behind = t → c ≠ '[' →
      PropertyBinding.compile (front ++ '<' :: c :: more) =
        front ++ '<' :: c :: PropertyBinding.compile more := by
    intro front behind c more ht hc
    have hfront : Text.Lacks PropertyBinding.readBinding front ('<' :: c :: more) :=
      PropertyBinding.lacks_binding_before
        (PropertyBinding.lacks_binding_left (Text.Lacks.append_iff.1 (ht ▸ hfree)).1) (by decide) _
    have htag : '[' ∉ ['<', c] := by simp [hc.symm]
    rw [PropertyBinding.compile_eq_rewrite, hfront.rewrite, ← PropertyBinding.compile_eq_rewrite]
    exact congrArg (front ++ ·) (PropertyBinding.compile_append_of_not_mem htag more)
  intro heq
  cases h with
  | tag front more left hc hd =>
    rw [hkept rfl hc] at heq
    have htags := List.append_cancel_left heq
    exact hd (List.cons.inj (List.cons.inj htags).2).1
  | blank front more left hc hb hfront =>
    rw [hkept rfl hc] at heq
    have htags := List.append_cancel_left heq
    rw [← (List.cons.inj htags).1] at hb
    exact absurd hb (by decide)

end PartsAtTag

/-- A body that is cut short does not come to stand between the markers as a whole. -/
theorem CutShort.parts {body whole : Text} (h : CutShort body whole) (header : LoopHeader)
    (rest other : Text) :
    PartsAtTag (header.between body.trim ++ rest) (header.between whole.trim ++ other) := by
  have hinside : PartsAtTag (body.trim ++ ("<!--/F-->".toList ++ rest))
      (whole.trim ++ ("<!--/F-->".toList ++ other)) := by
    cases h with
    | loop front more left hbody =>
      have htrim : ∀ (c : Char) (more : Text), isBlank c = false →
          (front ++ '<' :: c :: more).trim = front.trimStart ++ '<' :: c :: more.trimEnd := by
        intro c more hc
        have hshape : front.trimStart ++ '<' :: c :: more = (front.trimStart ++ ['<']) ++ c :: more := by simp
        rw [Text.trim, Text.trimStart_append_cons (by decide), hshape, Text.trimEnd_append_cons hc]
        simp
      rw [hbody, htrim _ _ (by decide), htrim _ _ (by decide), List.append_assoc, List.append_assoc]
      exact .tag _ _ _ (by decide) (by decide)
    | branch left hbody =>
      obtain ⟨blanks, hb, htext⟩ := Text.exists_trimEnd_append_blank body.trimStart
      have hnot : ¬ Text.Blank body.trim := fun hblank =>
        Text.not_blank_trimStart hbody (htext ▸ hblank.append hb)
      have hwhole : Text.trim (body ++ (closing ++ left)) =
          body.trim ++ (blanks ++ (closing ++ left.trimEnd)) := by
        have hshape : body ++ (closing ++ left) = (body ++ "</ng-container".toList) ++ '>' :: left := by
          rw [List.append_assoc]
          rfl
        rw [hshape, Text.trim_append_cons (by decide), Text.trimStart_append_of_not_blank hbody, htext]
        simp only [Text.trim, List.append_assoc]
        rfl
      rw [hwhole, List.append_assoc]
      cases blanks with
      | nil => exact .tag _ _ _ (by decide) (by decide)
      | cons b blanks => exact .blank _ _ _ (by decide) (hb b List.mem_cons_self) hnot
  have hbetween : ∀ content rest : Text, header.between content ++ rest =
      ("<!--F:".toList ++ header.item.text ++ ":".toList ++ header.iterable.text ++ "-->".toList) ++
        (content ++ ("<!--/F-->".toList ++ rest)) := by
    intro content rest
    unfold LoopHeader.between
    simp only [List.append_assoc]
  rw [hbetween, hbetween]
  exact hinside.prepend _

/-! ## Templates with a loop that is cut short -/

namespace SelectMarker

theorem exists_readUpTo?_closing (text rest : Text) :
    ∃ body back, readUpTo? afterClosing? (text ++ (closing ++ rest)) = some (body, back) := by
  induction text with
  | nil =>
    have hnil : Text.Lacks afterTag? [] [] := trivial
    exact ⟨[], rest, readUpTo?_text hnil rest⟩
  | cons c text ih =>
    obtain ⟨body, back, hread⟩ := ih
    rw [List.cons_append, readUpTo?, hread]
    cases afterClosing? (c :: (text ++ (closing ++ rest))) with
    | none => exact ⟨_, _, rfl⟩
    | some left => exact ⟨_, _, rfl⟩

/-- Blanks at the front can be trimmed before the closing tag is sought or after it. -/
theorem readUpTo?_trimStart {text body back : Text} (h : readUpTo? afterClosing? text = some (body, back)) :
    readUpTo? afterClosing? text.trimStart = some (Text.trimStart body, back) := by
  obtain ⟨blanks, hb, htext⟩ := Text.exists_blank_append_trimStart text
  have hlacks : Text.Lacks afterClosing? blanks text.trimStart :=
    .of_not_mem (fun t hhead => afterClosing?_of_tag (afterTag?_opensWith t hhead))
      (hb.not_mem (by decide)) _
  rw [htext, hlacks.readUpTo?, Option.map_eq_some_iff] at h
  obtain ⟨⟨inside, left⟩, hread, heq⟩ := h
  cases heq
  obtain ⟨behind, hstart, -⟩ := readUpTo?_eq_some hread
  have hkept : Text.trimStart inside = inside := Text.trimStart_of_head fun c hc => by
    refine Text.head_trimStart text c ?_
    rw [hstart]
    exact List.mem_head?_append_of_mem_head? hc
  rw [hread, hb.trimStart_append, hkept]

end SelectMarker

/-- The body of a loop that holds a container is cut short. -/
theorem Template.exists_cutShort (template : Template) (h : template.InSelect)
    (hnot : ¬ template.IsText) (rest : Text) :
    ∃ body back, readUpTo? afterClosing? (template.image ++ (closing ++ rest)) = some (body, back) ∧
      CutShort body template.marked := by
  match template with
  | .nil => exact absurd trivial hnot
  | .literal text rest' =>
    obtain ⟨body, back, hread, hcut⟩ := rest'.exists_cutShort h.2.2 hnot rest
    have hlacks : Text.Lacks afterClosing? text.text (rest'.image ++ (closing ++ rest)) :=
      (h.lacks_literal (.cons _)).imp fun _ => afterClosing?_of_tag
    refine ⟨text.text ++ body, back, ?_, hcut.prepend _⟩
    have hall := hlacks.readUpTo?
    rw [hread, ← List.append_assoc] at hall
    exact hall
  | .loop header body rest' =>
    obtain ⟨inside, back, hread⟩ := exists_readUpTo?_closing (body.image ++ closing ++ rest'.image) rest
    have htext : header.element body.image ++ rest'.image ++ (closing ++ rest) =
        opening "*ngFor".toList header.directive ++
          (body.image ++ closing ++ rest'.image ++ (closing ++ rest)) := by
      simp only [LoopHeader.element, element, List.append_assoc]
    have hlacks := lacks_closing_opening (by decide : '<' ∉ "*ngFor".toList) (lacks_tag_loop h.1)
      (body.image ++ closing ++ rest'.image ++ (closing ++ rest))
    have hall := hlacks.readUpTo?
    rw [hread, ← htext] at hall
    exact ⟨opening "*ngFor".toList header.directive ++ inside, back, hall, .loop [] _ _ rfl⟩
  | .chain header content more rest' =>
    obtain ⟨hheader, hcontent, -, -⟩ := h
    let behind := more.markup Text.trimStart [header.condition.text] ++ rest'.image ++ (closing ++ rest)
    have htext : (Template.chain header content more rest').image ++ (closing ++ rest) =
        opening "*ngIf".toList (header.directive []) ++ (content.image.trimStart ++ (closing ++ behind)) := by
      simp only [image, markup, BranchHeader.element, element, List.append_assoc, behind]
    have hmarked : (Template.chain header content more rest').marked =
        opening "*ngIf".toList (header.directive []) ++ (Text.trimStart content.marked ++
          (closing ++ (more.marked [header.condition.text] ++ rest'.marked))) := by
      simp only [marked, BranchHeader.element, element, List.append_assoc]
    have hlacks := lacks_closing_opening (by decide : '<' ∉ "*ngIf".toList)
      (lacks_tag_directive (List.forall_mem_nil _) hheader) (content.image.trimStart ++ (closing ++ behind))
    have hall := hlacks.readUpTo?
    rw [← htext] at hall
    rw [hmarked]
    by_cases hplain : content.IsText
    · obtain ⟨himage, hleading⟩ := hplain.eq_leading
      have hleaf : Text.Lacks afterTag? (Text.trimStart content.leading) [] :=
        hcontent.lacks_leading.of_suffix (Text.trimStart_suffix _)
      rw [himage, readUpTo?_text hleaf] at hall
      refine ⟨_, _, hall, ?_⟩
      rw [hleading, ← List.append_assoc]
      exact .branch _ fun hblank => absurd (hblank '<' List.mem_cons_self) (by decide)
    · obtain ⟨inside, back, hread, hcut⟩ := content.exists_cutShort hcontent hplain behind
      have htrim := readUpTo?_trimStart hread
      have hstart : Text.trimStart (content.image ++ (closing ++ behind)) =
          content.image.trimStart ++ (closing ++ behind) := Text.trimStart_append_cons (by decide) _ _
      rw [hstart] at htrim
      rw [htrim] at hall
      exact ⟨_, _, hall, (hcut.trimStart.append _).prepend _⟩

/-- A branch parts from what is meant if its content does. -/
theorem PartsAtTag.branch {value content marked : Text}
    (hvalue : ∀ rest, Text.Lacks afterTag? value ('"' :: rest))
    (h : ∀ {rest}, AtTag rest → ∀ other, PartsAtTag (markLoops (content ++ rest)) (marked ++ other))
    (rest other : Text) :
    PartsAtTag (markLoops (element "*ngIf".toList value content.trimStart ++ rest))
      (element "*ngIf".toList value marked.trimStart ++ other) := by
  have hclosing : AtTag (closing ++ rest) := .cons _
  have htrim : Text.trimStart (marked ++ (closing ++ other)) = marked.trimStart ++ (closing ++ other) :=
    Text.trimStart_append_cons (by decide) marked _
  have hparts := (h hclosing (closing ++ other)).trimStart.prepend (opening "*ngIf".toList value)
  rw [← markLoops_branch hvalue, htrim] at hparts
  simpa only [element, List.append_assoc] using hparts

mutual

/-- **With a loop that is not flat, the result parts from what is meant.** -/
theorem Template.parts_of_not_flat (template : Template) (h : template.InSelect)
    (hnot : ¬ template.FlatLoops) {rest : Text} (hrest : AtTag rest) (other : Text) :
    PartsAtTag (markLoops (template.image ++ rest)) (template.marked ++ other) := by
  match template with
  | .nil => exact absurd trivial hnot
  | .literal text rest' =>
    have hliteral := (h.lacks_literal hrest).imp fun _ => readLoop_of_tag
    have hall := (rest'.parts_of_not_flat h.2.2 hnot hrest other).prepend text.text
    rw [← markLoops_append hliteral, ← List.append_assoc, ← List.append_assoc] at hall
    exact hall
  | .loop header body rest' =>
    obtain ⟨hheader, hbody, hrest'⟩ := h
    by_cases hplain : body.IsText
    · have hnot' : ¬ rest'.FlatLoops := fun hflat => hnot ⟨hplain, hflat⟩
      have hall := (rest'.parts_of_not_flat hrest' hnot' hrest other).prepend
        (header.between (Text.trim body.marked))
      rw [← markLoops_text hheader hbody hplain, ← List.append_assoc, ← List.append_assoc] at hall
      exact hall
    · obtain ⟨inside, back, hread, hcut⟩ := body.exists_cutShort hbody hplain (rest'.image ++ rest)
      have hall := hcut.parts header (markLoops back) (rest'.marked ++ other)
      rw [← markLoops_loop hheader hread, ← List.append_assoc, ← List.append_assoc] at hall
      exact hall
  | .chain header content more rest' =>
    obtain ⟨hheader, hcontent, hmore, hrest'⟩ := h
    have hvalue := lacks_tag_directive (List.forall_mem_nil _) hheader
    have hearlier : ∀ condition ∈ [header.condition.text], Text.Lacks afterTag? condition [] :=
      List.forall_mem_singleton.2 hheader.no_tag
    have htext : (Template.chain header content more rest').image ++ rest =
        element "*ngIf".toList (header.directive []) content.image.trimStart ++
          (more.markup Text.trimStart [header.condition.text] ++ (rest'.image ++ rest)) := by
      simp only [image, markup, BranchHeader.element, List.append_assoc]
    have hmarked : (Template.chain header content more rest').marked ++ other =
        element "*ngIf".toList (header.directive []) (Text.trimStart content.marked) ++
          (more.marked [header.condition.text] ++ (rest'.marked ++ other)) := by
      simp only [marked, BranchHeader.element, List.append_assoc]
    rw [htext, hmarked]
    by_cases hcflat : content.FlatLoops
    · rw [markLoops_branch_of hvalue fun _ => content.markLoops_image hcontent hcflat]
      refine .prepend _ ?_
      by_cases hmflat : more.FlatLoops
      · have hnot' : ¬ rest'.FlatLoops := fun hflat => hnot ⟨hcflat, hmflat, hflat⟩
        rw [more.markLoops_markup hmore hmflat hearlier]
        exact .prepend _ (rest'.parts_of_not_flat hrest' hnot' hrest other)
      · exact more.parts_of_not_flat hmore hmflat hearlier _ _
    · exact .branch hvalue (content.parts_of_not_flat hcontent hcflat) _ _

theorem Branches.parts_of_not_flat (more : Branches) (h : more.InSelect) (hnot : ¬ more.FlatLoops)
    {earlier : List Text} (hearlier : ∀ condition ∈ earlier, Text.Lacks afterTag? condition [])
    (rest other : Text) :
    PartsAtTag (markLoops (more.markup Text.trimStart earlier ++ rest)) (more.marked earlier ++ other) := by
  match more with
  | .done => exact absurd trivial hnot
  | .elseIf _ _ header content more =>
    obtain ⟨hheader, hcontent, hmore⟩ := h
    have hvalue := lacks_tag_directive hearlier hheader
    have hlater := List.forall_mem_append.2 ⟨hearlier, List.forall_mem_singleton.2 hheader.no_tag⟩
    have hparts : PartsAtTag
        (markLoops (element "*ngIf".toList (header.directive earlier) content.image.trimStart ++
          (more.markup Text.trimStart (earlier ++ [header.condition.text]) ++ rest)))
        (element "*ngIf".toList (header.directive earlier) (Text.trimStart content.marked) ++
          (more.marked (earlier ++ [header.condition.text]) ++ other)) := by
      by_cases hcflat : content.FlatLoops
      · have hnot' : ¬ more.FlatLoops := fun hflat => hnot ⟨hcflat, hflat⟩
        rw [markLoops_branch_of hvalue fun _ => content.markLoops_image hcontent hcflat]
        exact .prepend _ (more.parts_of_not_flat hmore hnot' hlater rest other)
      · exact .branch hvalue (content.parts_of_not_flat hcontent hcflat) _ _
    have hall := hparts.prepend ['\n']
    rw [List.singleton_append, ← markLoops_line] at hall
    simp only [Branches.markup, Branches.marked, BranchHeader.element, List.cons_append,
      List.append_assoc]
    exact hall
  | .otherwise _ _ content =>
    have hparts := PartsAtTag.branch (lacks_tag_denials hearlier) (content.parts_of_not_flat h hnot) rest other
    have hall := hparts.prepend ['\n']
    rw [List.singleton_append, ← markLoops_line] at hall
    exact hall

end

end FlowTemplate
