/-
Loops between their markers. A loop is taken up to the first tag that closes a container. If no loop
holds a container, that tag is its own one, and each loop comes to stand between its own markers
(`Template.markLoops_image`).
-/
import FlowTemplate.Proofs.Select.Markup

namespace FlowTemplate

open Template SelectMarker Markup

/-! ## Trimming around a character -/

namespace Text

theorem trimStart_append_cons {c : Char} (h : isBlank c = false) (front rest : Text) :
    (front ++ c :: rest).trimStart = front.trimStart ++ c :: rest := dropWhile_append_cons h front rest

end Text

/-! ## Marking step by step -/

namespace SelectMarker

/-- A text with the loops that are found in it between markers. -/
def markLoops (text : Text) : Text := Text.replace readLoop markLoop text

theorem markLoops_eq_rewrite (text : Text) :
    markLoops text = Segment.rewrite readLoop (fun loop _ => markLoop loop) text :=
  Segment.replace_eq_rewrite _ _

theorem markLoops_append {front rest : Text} (h : Text.Lacks readLoop front rest) :
    markLoops (front ++ rest) = front ++ markLoops rest := by
  rw [markLoops_eq_rewrite, h.rewrite, ← markLoops_eq_rewrite]

theorem markLoops_line (rest : Text) : markLoops ('\n' :: rest) = '\n' :: markLoops rest := by
  have hlacks : Text.Lacks readLoop ['\n'] rest := ⟨rfl, trivial⟩
  exact markLoops_append hlacks

theorem markLoops_trimStart (text : Text) : markLoops text.trimStart = Text.trimStart (markLoops text) := by
  obtain ⟨blanks, hb, htext⟩ := Text.exists_blank_append_trimStart text
  have hlacks := Text.Lacks.of_not_mem readLoop_opensWith (hb.not_mem (by decide)) text.trimStart
  conv_rhs => rw [htext, markLoops_append hlacks, hb.trimStart_append]
  refine (Text.trimStart_of_head fun c hc => ?_).symm
  have hhead : (markLoops text.trimStart).head? = text.trimStart.head? := by
    rw [markLoops_eq_rewrite]
    refine Segment.head?_rewrite (c := '<') (fun found loop rest hread => ?_) (fun _ _ _ _ => rfl)
      readLoop_consumes _
    by_contra hne
    rw [readLoop_opensWith _ hne] at hread
    cases hread
  exact Text.head_trimStart text c (hhead ▸ hc)

theorem readLoop_of_tag {text : Text} (h : afterTag? text = none) : readLoop text = none :=
  readLoop_eq_none (afterTag?_eq_none_iff.1 h).2.1

theorem afterClosing?_of_tag {text : Text} (h : afterTag? text = none) : afterClosing? text = none :=
  (afterTag?_eq_none_iff.1 h).2.2

theorem lacks_loop_closing (rest : Text) : Text.Lacks readLoop closing rest := by
  have hbehind : '<' ∉ "/ng-container>".toList := by decide
  exact ⟨rfl, .of_not_mem readLoop_opensWith hbehind _⟩

theorem lacks_loop_branch {value : Text} (h : ∀ rest, Text.Lacks afterTag? value ('"' :: rest))
    (rest : Text) : Text.Lacks readLoop (opening "*ngIf".toList value) rest :=
  lacks_opening (fun _ => readLoop_of_tag) (fun _ => rfl) (by decide) h rest

theorem lacks_closing_opening {directive value : Text} (hdirective : '<' ∉ directive)
    (h : ∀ rest, Text.Lacks afterTag? value ('"' :: rest)) (rest : Text) :
    Text.Lacks afterClosing? (opening directive value) rest :=
  lacks_opening (fun _ => afterClosing?_of_tag) (fun _ => rfl) hdirective h rest

/-- The content of a branch is marked together with what follows it, and then trimmed. -/
theorem markLoops_branch {value : Text} (h : ∀ rest, Text.Lacks afterTag? value ('"' :: rest))
    (content rest : Text) :
    markLoops (element "*ngIf".toList value content.trimStart ++ rest) =
      opening "*ngIf".toList value ++ Text.trimStart (markLoops (content ++ (closing ++ rest))) := by
  have htrim : Text.trimStart (content ++ (closing ++ rest)) = content.trimStart ++ (closing ++ rest) :=
    Text.trimStart_append_cons (by decide) content _
  rw [← markLoops_trimStart, htrim, ← markLoops_append (lacks_loop_branch h _), element]
  simp only [List.append_assoc]

theorem markLoop_header (header : LoopHeader) (body : Text) :
    markLoop ⟨header.item.text, header.iterable.text, body⟩ = header.between body.trim := by
  have hcolon : ":".toList = [':'] := by decide
  unfold markLoop LoopHeader.between markerStart markerEnd
  simp only [hcolon, List.append_assoc]

theorem markLoops_of_read {text rest : Text} {loop : LoopElement}
    (h : readLoop text = some (loop, rest)) : markLoops text = markLoop loop ++ markLoops rest :=
  Segment.replace_of_read readLoop_consumes h

/-- A loop is marked up to the first tag that closes a container. -/
theorem markLoops_loop {header : LoopHeader} (h : header.InSelect) {content rest body back : Text}
    (hread : readUpTo? afterClosing? (content ++ (closing ++ rest)) = some (body, back)) :
    markLoops (header.element content ++ rest) = header.between body.trim ++ markLoops back := by
  have hloop := readLoop_opening h.no_track h.no_dollar h.no_quote (content ++ (closing ++ rest))
  rw [hread, Option.map_some] at hloop
  have htext : header.element content ++ rest =
      opening "*ngFor".toList header.directive ++ (content ++ (closing ++ rest)) := by
    simp only [LoopHeader.element, element, List.append_assoc]
  rw [htext, markLoops_of_read hloop, markLoop_header]

/-- A branch whose content is marked by itself. -/
theorem markLoops_branch_of {value content marked : Text}
    (h : ∀ rest, Text.Lacks afterTag? value ('"' :: rest))
    (hcontent : ∀ rest, AtTag rest → markLoops (content ++ rest) = marked ++ markLoops rest)
    (rest : Text) :
    markLoops (element "*ngIf".toList value content.trimStart ++ rest) =
      element "*ngIf".toList value marked.trimStart ++ markLoops rest := by
  have htrim : Text.trimStart (marked ++ (closing ++ markLoops rest)) =
      marked.trimStart ++ (closing ++ markLoops rest) :=
    Text.trimStart_append_cons (by decide) marked _
  have hclosing : AtTag (closing ++ rest) := .cons _
  rw [markLoops_branch h, hcontent _ hclosing, markLoops_append (lacks_loop_closing rest), htrim, element]
  simp only [List.append_assoc]

/-- A text in which no container closes is taken up to the closing tag behind it. -/
theorem readUpTo?_closing_of_lacks {text : Text} (h : Text.Lacks afterClosing? text []) (rest : Text) :
    readUpTo? afterClosing? (text ++ (closing ++ rest)) = some (text, rest) := by
  have hletters : ∀ letter ∈ "/ng-container>".toList, isLetter letter '<' = false := by decide
  have hstops : Text.StopsAt afterClosing? '<' := afterAnyCase?_stopsAt hletters
  have hlacks : Text.Lacks afterClosing? text (closing ++ rest) := h.before hstops _
  have hfound : afterClosing? (closing ++ rest) = some rest :=
    afterAnyCase?_append (by unfold Spells; decide) rest
  have hclosing : readUpTo? afterClosing? (closing ++ rest) = some ([], rest) := by
    rw [closing_eq, List.cons_append] at hfound ⊢
    rw [readUpTo?, hfound]
  rw [hlacks.readUpTo?, hclosing]
  simp

theorem readUpTo?_text {text : Text} (h : Text.Lacks afterTag? text []) (rest : Text) :
    readUpTo? afterClosing? (text ++ (closing ++ rest)) = some (text, rest) :=
  readUpTo?_closing_of_lacks (h.imp fun _ => afterClosing?_of_tag) rest

/-- A loop of text only is marked by itself. -/
theorem markLoops_text {header : LoopHeader} (h : header.InSelect) {body : Template}
    (hbody : body.InSelect) (htext : body.IsText) (rest : Text) :
    markLoops (header.element body.image ++ rest) =
      header.between (Text.trim body.marked) ++ markLoops rest := by
  obtain ⟨himage, hmarked⟩ := htext.eq_leading
  rw [himage, hmarked]
  exact markLoops_loop h (readUpTo?_text hbody.lacks_leading rest)

end SelectMarker

mutual

/-- **Flat loops come to stand between their markers.** -/
theorem Template.markLoops_image (template : Template) (h : template.InSelect)
    (hflat : template.FlatLoops) {rest : Text} (hrest : AtTag rest) :
    markLoops (template.image ++ rest) = template.marked ++ markLoops rest := by
  match template with
  | .nil => rfl
  | .literal text rest' =>
    have hliteral := (h.lacks_literal hrest).imp fun _ => readLoop_of_tag
    have hall := rest'.markLoops_image h.2.2 hflat hrest
    calc markLoops (text.text ++ rest'.image ++ rest)
        = text.text ++ markLoops (rest'.image ++ rest) := by rw [List.append_assoc, markLoops_append hliteral]
      _ = text.text ++ rest'.marked ++ markLoops rest := by rw [hall, List.append_assoc]
  | .loop header body rest' =>
    obtain ⟨hheader, hbody, hrest'⟩ := h
    have hall := rest'.markLoops_image hrest' hflat.2 hrest
    calc markLoops (header.element body.image ++ rest'.image ++ rest)
        = header.between (Text.trim body.marked) ++ markLoops (rest'.image ++ rest) := by
          rw [List.append_assoc, markLoops_text hheader hbody hflat.1]
      _ = header.between (Text.trim body.marked) ++ rest'.marked ++ markLoops rest := by
          rw [hall, List.append_assoc]
  | .chain header content more rest' =>
    obtain ⟨hheader, hcontent, hmore, hrest'⟩ := h
    have hbranch := markLoops_branch_of (lacks_tag_directive (List.forall_mem_nil _) hheader)
      fun _ => content.markLoops_image hcontent hflat.1
    have hfurther := more.markLoops_markup hmore hflat.2.1 (List.forall_mem_singleton.2 hheader.no_tag)
    have hall := rest'.markLoops_image hrest' hflat.2.2 hrest
    calc markLoops (header.element [] content.image.trimStart ++
          (more.markup Text.trimStart [header.condition.text] ++ rest'.image) ++ rest)
        = header.element [] (Text.trimStart content.marked) ++ (more.marked [header.condition.text] ++
            (rest'.marked ++ markLoops rest)) := by
          simp only [BranchHeader.element, List.append_assoc, hbranch, hfurther, hall]
      _ = _ := by simp only [Template.marked, List.append_assoc]

theorem Branches.markLoops_markup (more : Branches) (h : more.InSelect) (hflat : more.FlatLoops)
    {earlier : List Text} (hearlier : ∀ condition ∈ earlier, Text.Lacks afterTag? condition [])
    (rest : Text) :
    markLoops (more.markup Text.trimStart earlier ++ rest) = more.marked earlier ++ markLoops rest := by
  match more with
  | .done => rfl
  | .elseIf _ _ header content more =>
    obtain ⟨hheader, hcontent, hmore⟩ := h
    have hbranch := markLoops_branch_of (lacks_tag_directive hearlier hheader)
      fun _ => content.markLoops_image hcontent hflat.1
    have hfurther := more.markLoops_markup hmore hflat.2 <|
      List.forall_mem_append.2 ⟨hearlier, List.forall_mem_singleton.2 hheader.no_tag⟩
    have hall : markLoops (header.element earlier content.image.trimStart ++
        (more.markup Text.trimStart (earlier ++ [header.condition.text]) ++ rest)) =
        header.element earlier (Text.trimStart content.marked) ++
          (more.marked (earlier ++ [header.condition.text]) ++ markLoops rest) :=
      (hbranch _).trans (congrArg (_ ++ ·) (hfurther rest))
    simp only [Branches.markup, Branches.marked, List.cons_append, List.append_assoc, markLoops_line]
    exact congrArg ('\n' :: ·) hall
  | .otherwise _ _ content =>
    have hbranch := markLoops_branch_of (lacks_tag_denials hearlier)
      fun _ => content.markLoops_image h hflat
    exact (markLoops_line _).trans (congrArg ('\n' :: ·) (hbranch rest))

end

end FlowTemplate
