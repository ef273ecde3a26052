/-
What the markup of a template in a select has none of. Guards and aliases add nothing to the conditions
that they are made of. So there is no end of the select in the image of the template (`lacks_end`), and
no property binding in the template once its loops stand between markers (`lacks_binding`).
-/
import FlowTemplate.Proofs.Select.Basic

namespace FlowTemplate

open Template SelectMarker

variable {α : Type} {read : Text → Option α}

namespace Text.Lacks

theorem imp {β : Type} {other : Text → Option β} (h : ∀ text, read text = none → other text = none)
    {text rest : Text} (hl : Lacks read text rest) : Lacks other text rest := by
  induction text with
  | nil => trivial
  | cons c text ih => exact ⟨h _ hl.1, ih hl.2⟩

theorem before_tag (hread : StopsAt read '<') {text rest : Text} (h : Lacks read text [])
    (hrest : AtTag rest) : Lacks read text rest := by
  cases rest with
  | nil => exact h
  | cons c rest =>
    obtain rfl := hrest c rfl
    exact h.before hread rest

/-! ## Guards -/

/-- The characters that a directive is made of besides conditions and names. -/
def signs : Text := "!() &; let".toList

variable {first : Char} {earlier : List Text}

theorem sign (hread : OpensWith read first) (hfirst : first ∉ signs) {text : Text} (h : text ⊆ signs)
    (rest : Text) : Lacks read text rest := of_not_mem hread (fun hm => hfirst (h hm)) rest

theorem deny (hread : OpensWith read first) (hfirst : first ∉ signs) {condition : Text}
    (h : ∀ rest, Lacks read condition (')' :: rest)) (rest : Text) :
    Lacks read (Guard.deny condition) rest :=
  ((sign hread hfirst (by decide) _).append (h rest)).append (sign hread hfirst (by decide) rest)

/-- A guard lacks what its conditions lack. -/
theorem conjunction (hread : OpensWith read first) (hfirst : first ∉ signs)
    (hearlier : ∀ condition ∈ earlier, ∀ rest, Lacks read condition (')' :: rest)) {own : Option Text}
    {rest : Text} (hown : ∀ condition ∈ own, Lacks read condition rest) :
    Lacks read (Guard.conjunction earlier own) rest := by
  have hand : ∀ rest, Lacks read " && ".toList rest := sign hread hfirst (by decide)
  have htail : ∀ earlier : List Text, (∀ condition ∈ earlier, ∀ rest, Lacks read condition (')' :: rest)) →
      Lacks read ((earlier.map Guard.deny ++ own.toList).flatMap (" && ".toList ++ ·)) rest := by
    intro earlier hearlier
    induction earlier with
    | nil =>
      cases own with
      | none => trivial
      | some condition =>
        have : [condition].flatMap (" && ".toList ++ ·) = " && ".toList ++ condition := List.append_nil _
        exact this ▸ (hand _).append (hown condition rfl)
    | cons condition earlier ih =>
      have hdeny := deny hread hfirst (hearlier condition List.mem_cons_self)
      exact ((hand _).append (hdeny _)).append
        (ih fun other hother => hearlier other (List.mem_cons_of_mem _ hother))
  cases earlier with
  | nil =>
    rw [Guard.conjunction_nil]
    cases own with
    | none => trivial
    | some condition => exact hown condition rfl
  | cons condition earlier =>
    rw [Guard.conjunction_cons]
    exact (deny hread hfirst (hearlier condition List.mem_cons_self) _).append
      (htail earlier fun other hother => hearlier other (List.mem_cons_of_mem _ hother))

/-- What a branch says lacks what the conditions lack that it is made of. -/
theorem directive (hread : OpensWith read first) (hfirst : first ∉ signs)
    (hname : continuesIdentifier first = false) (header : BranchHeader) {rest : Text}
    (hearlier : ∀ condition ∈ earlier, ∀ rest, Lacks read condition (')' :: rest))
    (hquote : Lacks read header.condition.text ('"' :: rest))
    (halias : ∀ rest, Lacks read header.condition.text (';' :: rest)) :
    Lacks read (header.directive earlier) ('"' :: rest) := by
  unfold BranchHeader.directive
  split
  next =>
    rw [List.append_nil]
    exact conjunction hread hfirst hearlier fun condition hc => Option.some.inj hc ▸ hquote
  next clause _ =>
    refine append (conjunction hread hfirst hearlier fun condition hc => Option.some.inj hc ▸ ?_) ?_
    · exact halias _
    · exact (sign hread hfirst (by decide) _).append (of_not_mem hread (clause.name.not_mem hname) _)

/-- An opening tag lacks what its first part and its value lack. -/
theorem opening (hread : OpensWith read first) (hfirst : first ∉ "\">".toList) {directive value : Text}
    (hfront : ∀ rest, Lacks read ("<ng-container ".toList ++ directive ++ "=\"".toList) rest)
    (hvalue : ∀ rest, Lacks read value ('"' :: rest)) (rest : Text) :
    Lacks read (Template.opening directive value) rest :=
  ((hfront _).append (hvalue _)).append (of_not_mem hread hfirst rest)

theorem element {directive value content : Text}
    (hopening : ∀ rest, Lacks read (Template.opening directive value) rest)
    (hcontent : ∀ rest, Lacks read content ('<' :: rest))
    (hclosing : ∀ rest, Lacks read closing rest) (rest : Text) :
    Lacks read (Template.element directive value content) rest :=
  (hopening _).append ((hcontent _).append (hclosing rest))

end Text.Lacks

/-! ## No tags in openings -/

namespace SelectMarker

theorem lacks_tag_before {text : Text} (h : Text.Lacks afterTag? text []) {c : Char} (hc : c ∈ stops)
    (rest : Text) : Text.Lacks afterTag? text (c :: rest) := h.before (afterTag?_stopsAt hc) rest

variable {earlier : List Text} (hearlier : ∀ condition ∈ earlier, Text.Lacks afterTag? condition [])
include hearlier

theorem lacks_tag_denials (rest : Text) :
    Text.Lacks afterTag? (Guard.conjunction earlier none) ('"' :: rest) := by
  refine .conjunction afterTag?_opensWith (by decide) (fun condition hc => ?_) nofun
  exact lacks_tag_before (hearlier condition hc) (by decide)

theorem lacks_tag_directive {header : BranchHeader} (h : header.InSelect) (rest : Text) :
    Text.Lacks afterTag? (header.directive earlier) ('"' :: rest) := by
  refine .directive afterTag?_opensWith (by decide) (by decide) header (fun condition hc => ?_)
    (lacks_tag_before h.no_tag (by decide) rest) (lacks_tag_before h.no_tag (by decide))
  exact lacks_tag_before (hearlier condition hc) (by decide)

omit hearlier

theorem lacks_tag_loop {header : LoopHeader} (h : header.InSelect) (rest : Text) :
    Text.Lacks afterTag? header.directive ('"' :: rest) := by
  have hfront : '<' ∉ "let ".toList ++ header.item.text ++ " of ".toList :=
    List.not_mem_append (List.not_mem_append (by decide) (header.item.not_mem (by decide))) (by decide)
  unfold LoopHeader.directive
  rw [h.no_track, List.append_nil]
  exact (Text.Lacks.of_not_mem afterTag?_opensWith hfront _).append
    (lacks_tag_before h.no_tag (by decide) rest)

/-- What is read as a tag is not read in an opening tag either, unless that itself is read. -/
theorem lacks_opening (hread : ∀ text, afterTag? text = none → read text = none) {directive value : Text}
    (hfirst : ∀ rest, read ("<ng-container ".toList ++ directive ++ rest) = none)
    (hdirective : '<' ∉ directive) (hvalue : ∀ rest, Text.Lacks afterTag? value ('"' :: rest))
    (rest : Text) : Text.Lacks read (opening directive value) rest := by
  have hopens : Text.OpensWith read '<' := fun text hhead => hread text (afterTag?_opensWith text hhead)
  refine .opening hopens (by decide) (fun rest => ?_) (fun rest => (hvalue rest).imp hread) rest
  have hbehind : '<' ∉ "ng-container ".toList ++ directive ++ "=\"".toList :=
    List.not_mem_append (List.not_mem_append (by decide) hdirective) (by decide)
  refine ⟨?_, .of_not_mem hopens hbehind rest⟩
  have := hfirst ("=\"".toList ++ rest)
  rwa [← List.append_assoc] at this

/-! ## No end of a select -/

theorem afterEnd?_of_tag {text : Text} (h : afterTag? text = none) :
    afterEnd? "select".toList text = none := (afterTag?_eq_none_iff.1 h).1

theorem lacks_end_closing (rest : Text) : Text.Lacks (afterEnd? "select".toList) closing rest := by
  have hbehind : '<' ∉ "/ng-container>".toList := by decide
  refine ⟨?_, .of_not_mem afterEnd?_opensWith hbehind _⟩
  rfl

theorem lacks_end_element {directive value content : Text} (hdirective : '<' ∉ directive)
    (hvalue : ∀ rest, Text.Lacks afterTag? value ('"' :: rest))
    (hcontent : ∀ rest, Text.Lacks (afterEnd? "select".toList) content ('<' :: rest)) (rest : Text) :
    Text.Lacks (afterEnd? "select".toList) (element directive value content) rest :=
  .element (lacks_opening (fun _ => afterEnd?_of_tag) (fun _ => rfl) hdirective hvalue) hcontent
    lacks_end_closing rest

end SelectMarker

/-- A literal of a template has no tag in it, nor has it one together with what follows it. -/
theorem Template.InSelect.lacks_literal {text : Literal} {rest' : Template}
    (h : (Template.literal text rest').InSelect) {rest : Text} (hrest : AtTag rest) :
    Text.Lacks afterTag? text.text (rest'.image ++ rest) := by
  obtain ⟨more, hmore, heq⟩ := rest'.exists_image_eq hrest
  have hrun := Text.Lacks.before_tag (afterTag?_stopsAt (by decide)) h.2.1 hmore
  rw [heq]
  exact (Text.Lacks.append_iff.1 hrun).1

mutual

theorem Template.lacks_end (template : Template) (h : template.InSelect) {rest : Text}
    (hrest : AtTag rest) : Text.Lacks (afterEnd? "select".toList) template.image rest := by
  have hloop : '<' ∉ "*ngFor".toList := by decide
  match template with
  | .nil => trivial
  | .literal text rest' =>
    exact ((h.lacks_literal hrest).imp fun _ => afterEnd?_of_tag).append (rest'.lacks_end h.2.2 hrest)
  | .loop header body rest' =>
    obtain ⟨hheader, hbody, hrest'⟩ := h
    have helement := lacks_end_element hloop (lacks_tag_loop hheader) fun _ =>
      body.lacks_end hbody (.cons _)
    exact (helement _).append (rest'.lacks_end hrest' hrest)
  | .chain header content more rest' =>
    obtain ⟨hheader, hcontent, hmore, hrest'⟩ := h
    have helement := content.lacks_end_branch hcontent (lacks_tag_directive (List.forall_mem_nil _) hheader)
    have hfurther := more.lacks_end hmore <| List.forall_mem_singleton.2 hheader.no_tag
    exact (helement _).append ((hfurther _).append (rest'.lacks_end hrest' hrest))

theorem Template.lacks_end_branch (content : Template) (h : content.InSelect) {value : Text}
    (hvalue : ∀ rest, Text.Lacks afterTag? value ('"' :: rest)) (rest : Text) :
    Text.Lacks (afterEnd? "select".toList) (element "*ngIf".toList value content.image.trimStart) rest :=
  lacks_end_element (by decide) hvalue
    (fun _ => (content.lacks_end h (.cons _)).of_suffix (Text.trimStart_suffix _)) rest

theorem Branches.lacks_end (more : Branches) (h : more.InSelect) {earlier : List Text}
    (hearlier : ∀ condition ∈ earlier, Text.Lacks afterTag? condition []) (rest : Text) :
    Text.Lacks (afterEnd? "select".toList) (more.markup Text.trimStart earlier) rest := by
  have hline : ∀ rest, Text.Lacks (afterEnd? "select".toList) ['\n'] rest := fun _ => ⟨rfl, trivial⟩
  match more with
  | .done => trivial
  | .elseIf _ _ header content more =>
    obtain ⟨hheader, hcontent, hmore⟩ := h
    have helement := content.lacks_end_branch hcontent (lacks_tag_directive hearlier hheader)
    have hfurther := more.lacks_end hmore <|
      List.forall_mem_append.2 ⟨hearlier, List.forall_mem_singleton.2 hheader.no_tag⟩
    exact (hline _).append ((helement _).append (hfurther rest))
  | .otherwise _ _ content =>
    exact (hline _).append (content.lacks_end_branch h (lacks_tag_denials hearlier) rest)

end

/-! ## No property binding -/

namespace PropertyBinding

theorem readBinding_opensWith : Text.OpensWith readBinding '[' := fun _ hhead =>
  readBinding_beginsWith.none hhead

theorem readBinding_stopsAt {c : Char} (halpha : c.isAlphanum = false) (hc : c ∉ "]=\"".toList) :
    Text.StopsAt readBinding c := by
  intro d text rest hread
  rw [← List.cons_append, readBinding_append_cons halpha hc (List.cons_ne_nil _ _), hread]
  rfl

theorem readBinding_left {text rest : Text} (h : readBinding (text ++ rest) = none) :
    readBinding text = none := by
  rw [Option.eq_none_iff_forall_not_mem]
  rintro ⟨name, left⟩ hread
  obtain ⟨hname, rfl⟩ := readBinding_eq_some_iff.1 hread
  rw [List.append_assoc, readBinding_eq_some_iff.2 ⟨hname, rfl⟩] at h
  cases h

theorem readBinding_quote {text : Text} (h : readBinding (text ++ ['"']) = none) (rest : Text) :
    readBinding (text ++ '"' :: rest) = none := by
  rw [Option.eq_none_iff_forall_not_mem]
  rintro ⟨name, left⟩ hread
  obtain ⟨hname, htext⟩ := readBinding_eq_some_iff.1 hread
  have hshape : binding name ++ left = ('[' :: (name ++ [']', '='])) ++ '"' :: left := by simp [binding]
  have hfree : '"' ∉ '[' :: (name ++ [']', '=']) := by
    refine List.not_mem_cons_of_ne_of_not_mem (by decide) (List.not_mem_append (fun hm => ?_) (by decide))
    have := hname.alphanum hm
    revert this
    decide
  obtain ⟨front, back, hfront, hquote⟩ := List.eq_append_cons_of_mem
    (List.mem_append_right text (List.mem_singleton_self '"'))
  have hwhole : front ++ '"' :: (back ++ rest) = ('[' :: (name ++ [']', '='])) ++ '"' :: left := by
    rw [← hshape, ← htext, ← List.cons_append, ← List.append_assoc, ← hfront, List.append_assoc]
    rfl
  obtain ⟨rfl, -⟩ := Text.first_unique hquote hfree hwhole
  have hbinding : text ++ ['"'] = binding name ++ back := by
    rw [hfront]
    simp [binding]
  rw [readBinding_eq_some_iff.2 ⟨hname, hbinding⟩] at h
  cases h

theorem lacks_binding_left {text rest : Text} (h : Text.Lacks readBinding text rest) :
    Text.Lacks readBinding text [] := h.left fun _ _ => readBinding_left

theorem lacks_binding_quote {text : Text} (h : Text.Lacks readBinding text ['"']) (rest : Text) :
    Text.Lacks readBinding text ('"' :: rest) := by
  induction text with
  | nil => trivial
  | cons c text ih =>
    have hfirst : readBinding (c :: text ++ ['"']) = none := h.1
    exact ⟨readBinding_quote hfirst rest, ih h.2⟩

theorem lacks_binding_of_no_quote {text : Text} (h : '"' ∉ text) : Text.Lacks readBinding text [] := by
  induction text with
  | nil => trivial
  | cons c text ih =>
    refine ⟨?_, ih fun hm => h (List.mem_cons_of_mem _ hm)⟩
    rw [Option.eq_none_iff_forall_not_mem]
    rintro ⟨name, left⟩ hread
    obtain ⟨-, htext⟩ := readBinding_eq_some_iff.1 hread
    rw [List.append_nil] at htext
    exact h (htext ▸ by simp [binding])

theorem lacks_binding_before {text : Text} (h : Text.Lacks readBinding text []) {c : Char}
    (hc : c ∈ ['<', ')', ';', '-']) (rest : Text) : Text.Lacks readBinding text (c :: rest) := by
  have hstops : ∀ c ∈ ['<', ')', ';', '-'], c.isAlphanum = false ∧ c ∉ "]=\"".toList := by decide
  exact h.before (readBinding_stopsAt (hstops c hc).1 (hstops c hc).2) rest

theorem lacks_binding_of_free {text : Text} (h : '[' ∉ text) (rest : Text) :
    Text.Lacks readBinding text rest := .of_not_mem readBinding_opensWith h rest

theorem lacks_binding_condition {header : BranchHeader} (h : header.InSelect) :
    Text.Lacks readBinding header.condition.text [] :=
  lacks_binding_left (Text.Lacks.append_iff.1 h.no_binding).1

variable {earlier : List Text} (hearlier : ∀ condition ∈ earlier, Text.Lacks readBinding condition [])
include hearlier

theorem lacks_binding_denials (rest : Text) :
    Text.Lacks readBinding (Guard.conjunction earlier none) ('"' :: rest) := by
  refine .conjunction readBinding_opensWith (by decide) (fun condition hc => ?_) nofun
  exact lacks_binding_before (hearlier condition hc) (by decide)

theorem lacks_binding_directive {header : BranchHeader} (h : header.InSelect) (rest : Text) :
    Text.Lacks readBinding (header.directive earlier) ('"' :: rest) := by
  refine .directive readBinding_opensWith (by decide) (by decide) header (fun condition hc => ?_)
    (lacks_binding_quote (Text.Lacks.append_iff.1 h.no_binding).1 rest)
    (lacks_binding_before (lacks_binding_condition h) (by decide))
  exact lacks_binding_before (hearlier condition hc) (by decide)

omit hearlier

theorem lacks_binding_branch {value content : Text}
    (hvalue : ∀ rest, Text.Lacks readBinding value ('"' :: rest))
    (hcontent : ∀ rest, Text.Lacks readBinding content ('<' :: rest)) (rest : Text) :
    Text.Lacks readBinding (element "*ngIf".toList value content.trimStart) rest :=
  .element (.opening readBinding_opensWith (by decide) (lacks_binding_of_free (by decide)) hvalue)
    (fun rest => (hcontent rest).of_suffix (Text.trimStart_suffix _)) (lacks_binding_of_free (by decide)) rest

theorem lacks_binding_trim {text : Text} (h : ∀ rest, Text.Lacks readBinding text ('<' :: rest))
    (rest : Text) : Text.Lacks readBinding text.trim ('<' :: rest) := by
  obtain ⟨before, after, -, -, htext⟩ := Text.exists_blanks_trim text
  have hall := h rest
  rw [htext] at hall
  have htrim := (Text.Lacks.append_iff.1 (Text.Lacks.append_iff.1 hall).2).1
  exact lacks_binding_before (lacks_binding_left htrim) (by decide) rest

theorem lacks_binding_between {header : LoopHeader} (h : header.InSelect) {content : Text}
    (hcontent : ∀ rest, Text.Lacks readBinding content ('<' :: rest)) (rest : Text) :
    Text.Lacks readBinding (header.between content.trim) rest := by
  have hfront : '[' ∉ "<!--F:".toList ++ header.item.text ++ ":".toList :=
    List.not_mem_append (List.not_mem_append (by decide) (header.item.not_mem (by decide))) (by decide)
  have hiterable := lacks_binding_before (lacks_binding_of_no_quote h.no_quote) (c := '-') (by decide)
  refine .append (.append (.append (lacks_binding_of_free hfront _) (hiterable _))
    (lacks_binding_of_free (by decide) _)) ?_
  exact (lacks_binding_trim hcontent _).append (lacks_binding_of_free (by decide) rest)

end PropertyBinding

mutual

theorem Template.lacks_binding (template : Template) (h : template.InSelect) {rest : Text}
    (hrest : AtTag rest) : Text.Lacks PropertyBinding.readBinding template.marked rest := by
  match template with
  | .nil => trivial
  | .literal text rest' =>
    obtain ⟨more, hmore, heq⟩ := rest'.exists_marked_eq hrest
    have hrun := Text.Lacks.before_tag
      (PropertyBinding.readBinding_stopsAt (by decide) (by decide))
      (PropertyBinding.lacks_binding_of_no_quote (h.leading_no_quote)) hmore
    have hall := rest'.lacks_binding h.2.2 hrest
    refine .append ?_ hall
    rw [heq]
    exact (Text.Lacks.append_iff.1 hrun).1
  | .loop header body rest' =>
    obtain ⟨hheader, hbody, hrest'⟩ := h
    have hbetween := PropertyBinding.lacks_binding_between hheader fun _ =>
      body.lacks_binding hbody (.cons _)
    exact (hbetween _).append (rest'.lacks_binding hrest' hrest)
  | .chain header content more rest' =>
    obtain ⟨hheader, hcontent, hmore, hrest'⟩ := h
    have helement := PropertyBinding.lacks_binding_branch
      (PropertyBinding.lacks_binding_directive (List.forall_mem_nil _) hheader) fun _ =>
        content.lacks_binding hcontent (.cons _)
    have hfurther := more.lacks_binding hmore <|
      List.forall_mem_singleton.2 (PropertyBinding.lacks_binding_condition hheader)
    exact (helement _).append ((hfurther _).append (rest'.lacks_binding hrest' hrest))

theorem Branches.lacks_binding (more : Branches) (h : more.InSelect) {earlier : List Text}
    (hearlier : ∀ condition ∈ earlier, Text.Lacks PropertyBinding.readBinding condition [])
    (rest : Text) : Text.Lacks PropertyBinding.readBinding (more.marked earlier) rest := by
  have hline : ∀ rest, Text.Lacks PropertyBinding.readBinding ['\n'] rest := fun _ => ⟨rfl, trivial⟩
  match more with
  | .done => trivial
  | .elseIf _ _ header content more =>
    obtain ⟨hheader, hcontent, hmore⟩ := h
    have helement := PropertyBinding.lacks_binding_branch
      (PropertyBinding.lacks_binding_directive hearlier hheader) fun _ =>
        content.lacks_binding hcontent (.cons _)
    have hfurther := more.lacks_binding hmore <| List.forall_mem_append.2
      ⟨hearlier, List.forall_mem_singleton.2 (PropertyBinding.lacks_binding_condition hheader)⟩
    exact (hline _).append ((helement _).append (hfurther rest))
  | .otherwise _ _ content =>
    have helement := PropertyBinding.lacks_binding_branch
      (PropertyBinding.lacks_binding_denials hearlier) fun _ => content.lacks_binding h (.cons _)
    exact (hline _).append (helement rest)

end

end FlowTemplate
