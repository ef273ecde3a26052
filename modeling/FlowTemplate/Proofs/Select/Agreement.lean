/-
What the compiler writes for a loop against what is found of it in a select. Nothing ties the two
together: a loop that was read from a template stands between markers only if its variable is a word,
its element has no track expression, and nothing in it ends the element or the select too early
(`SelectMarker.compile_loop_iff`).
-/
import FlowTemplate.Proofs.Attribute
import FlowTemplate.Proofs.Select.Compile
import Mathlib.Data.List.Forall2

namespace FlowTemplate

open Template Markup

/-! ## Loops that can be marked -/

namespace Loop

/-- What a loop is meant to be in a select: its trimmed content between markers. -/
def marked (loop : Loop) : Text :=
  "<!--F:".toList ++ loop.item ++ ":".toList ++ loop.iterable ++ "-->".toList ++ loop.content.trim ++
    "<!--/F-->".toList

/-- What stands behind `of` in the element of a loop. -/
def value (loop : Loop) : Text :=
  loop.iterable ++ (loop.track?.map ("; trackBy: ".toList ++ ·)).getD []

variable {loop : Loop}

theorem value_of_no_track (h : loop.track? = none) : loop.value = loop.iterable := by
  rw [value, h]
  exact List.append_nil _

/-- A track expression would stand where the marker of the loop goes on. -/
theorem no_track_of_value {back more : Text}
    (h : loop.value ++ ("-->".toList ++ back) = loop.iterable ++ ("-->".toList ++ more)) :
    loop.track? = none := by
  cases hkey : loop.track? with
  | none => rfl
  | some key =>
    unfold value at h
    rw [hkey, List.append_assoc] at h
    injection List.append_cancel_left h with hsign
    exact absurd hsign (by decide)

theorem value_ne_nil (h : loop.iterable ≠ []) : loop.value ≠ [] := List.append_ne_nil_of_left_ne_nil h _

theorem quote_value (hiterable : '"' ∉ loop.iterable) (htrack : ∀ key ∈ loop.track?, '"' ∉ key) :
    '"' ∉ loop.value := by
  refine List.not_mem_append hiterable ?_
  cases hkey : loop.track? with
  | none => exact List.not_mem_nil
  | some key => exact List.not_mem_append (by decide) (htrack key hkey)

theorem value_trimmed (hnamed : loop.Named) (hne : loop.iterable ≠ [])
    (hiterable : loop.iterable.trim = loop.iterable) (htrack : ∀ key ∈ loop.track?, key.trim = key) :
    loop.value.trim = loop.value := by
  cases hkey : loop.track? with
  | none => rw [value_of_no_track hkey, hiterable]
  | some key =>
    have hends := Text.trim_append_of_ends hiterable (htrack key hkey) hne
      (fun hnil => hnamed.track (hnil ▸ hkey)) "; trackBy: ".toList
    rw [value, hkey]
    exact hends

/-- A loop whose element is found as it was written. -/
structure Markable (loop : Loop) : Prop where
  no_dollar : '$' ∉ loop.item
  no_track : loop.track? = none
  /-- No select ends in what the loop runs over. -/
  iterable : Text.Lacks (SelectMarker.afterEnd? "select".toList) loop.iterable []
  /-- No select ends in the content. -/
  no_end : Text.Lacks (SelectMarker.afterEnd? "select".toList) loop.content []
  /-- No container ends in the content. -/
  no_closing : Text.Lacks SelectMarker.afterClosing? loop.content []

end Loop

namespace SelectMarker

/-! ## The element of a loop -/

/-- The element of a loop whose directive says `let item of value`. -/
def loopElement (item value content : Text) : Text :=
  loopHead item ++ (' ' :: value ++ '"' :: '>' :: (content ++ closing))

theorem loopElement_append (item value content rest : Text) :
    loopElement item value content ++ rest =
      loopHead item ++ (' ' :: value ++ '"' :: '>' :: (content ++ (closing ++ rest))) := by
  simp only [loopElement, List.append_assoc, List.cons_append]

theorem lacks_end_before {text : Text} (h : Text.Lacks (afterEnd? "select".toList) text []) {c : Char}
    (hc : c ∈ stops) (rest : Text) : Text.Lacks (afterEnd? "select".toList) text (c :: rest) :=
  h.before (afterEnd?_select_stopsAt hc) rest

theorem loopHead_eq (item : Text) :
    loopHead item = '<' :: 'n' :: ("g-container *ngFor=\"let ".toList ++ item ++ " of".toList) := by
  have hfront : "<ng-container *ngFor=\"let ".toList = '<' :: 'n' :: "g-container *ngFor=\"let ".toList := by
    decide
  unfold loopHead
  rw [hfront, List.cons_append, List.cons_append, List.cons_append, List.cons_append]

theorem lacks_end_head (item : Name) (rest : Text) :
    Text.Lacks (afterEnd? "select".toList) (loopHead item.text) rest := by
  have hfree : '<' ∉ 'n' :: ("g-container *ngFor=\"let ".toList ++ item.text ++ " of".toList) :=
    List.not_mem_cons_of_ne_of_not_mem (by decide) <|
      List.not_mem_append (List.not_mem_append (by decide) (item.not_mem (by decide))) (by decide)
  have hslash : ∀ text : Text, Text.after? ['/'] ('n' :: text) = none := fun _ => rfl
  rw [loopHead_eq, Text.Lacks, List.cons_append, afterEnd?_cons, if_pos rfl, hslash]
  exact ⟨rfl, .of_not_mem afterEnd?_opensWith hfree rest⟩

theorem lacks_end_quote (rest : Text) : Text.Lacks (afterEnd? "select".toList) ['"', '>'] rest :=
  .of_not_mem afterEnd?_opensWith (by decide) rest

/-- No select ends in the element of a loop, if none does in its value or its content. -/
theorem lacks_end_loopElement (item : Name) {value content : Text}
    (hvalue : Text.Lacks (afterEnd? "select".toList) value [])
    (hcontent : Text.Lacks (afterEnd? "select".toList) content []) (rest : Text) :
    Text.Lacks (afterEnd? "select".toList) (loopElement item.text value content) rest := by
  have hblank : ∀ rest, Text.Lacks (afterEnd? "select".toList) [' '] rest :=
    .of_not_mem afterEnd?_opensWith (by decide)
  have hinside : Text.Lacks (afterEnd? "select".toList) (content ++ closing) rest :=
    (lacks_end_before hcontent (by decide) _).append (lacks_end_closing rest)
  have hfront : Text.Lacks (afterEnd? "select".toList) (' ' :: value)
      (['"', '>'] ++ (content ++ closing) ++ rest) :=
    (hblank _).append (lacks_end_before hvalue (by decide) _)
  exact (lacks_end_head item _).append (hfront.append ((lacks_end_quote _).append hinside))

theorem markLoops_of_readLoop_none {item found : Text} (h : readLoop (loopHead item ++ found) = none) :
    ∃ more, markLoops (loopHead item ++ found) = '<' :: 'n' :: more := by
  have hletter : ∀ text : Text, readLoop ('n' :: text) = none := fun text =>
    readLoop_opensWith ('n' :: text) fun heq => absurd (Option.some.inj heq) (by decide)
  rw [loopHead_eq, List.cons_append, List.cons_append] at h ⊢
  rw [markLoops_eq_rewrite, Segment.rewrite_cons h, Segment.rewrite_cons (hletter _)]
  exact ⟨_, rfl⟩

/-! ## How far the select goes -/

/-- A select goes on in the content of a loop up to the first tag that ends one, or up to its own. -/
theorem exists_readUpTo?_content (content : Text) :
    ∃ part behind left,
      readUpTo? (afterEnd? "select".toList) (content ++ (closing ++ "</select>".toList)) = some (part, left) ∧
      content ++ closing = part ++ behind ∧
      (part.length < content.length ∨ Text.Lacks (afterEnd? "select".toList) content []) := by
  by_cases hcontent : Text.Lacks (afterEnd? "select".toList) content (closing ++ "</select>".toList)
  · have hend : readUpTo? (afterEnd? "select".toList) "</select>".toList = some ([], []) := by decide
    have hread := (hcontent.append (lacks_end_closing _)).readUpTo?
    rw [hend, List.append_assoc, Option.map_some] at hread
    exact ⟨_, [], [], hread, by rw [List.append_nil, List.append_nil],
      .inr (hcontent.left fun _ _ => afterEnd?_left)⟩
  · obtain ⟨part, c, back, left, hpart, hread⟩ := Text.Lacks.exists_readUpTo?_of_not hcontent
    refine ⟨part, c :: back ++ closing, left, hread, by rw [hpart, List.append_assoc], .inl ?_⟩
    rw [hpart, List.length_append, List.length_cons]
    omega

/-- What a select with a loop in it is found to hold: a tag that is cut short within what the loop runs
over, or the whole tag and a part of the content, and perhaps what closes the element. -/
theorem exists_readUpTo?_loopElement (item : Name) {value : Text} (hquote : '"' ∉ value) (content : Text) :
    ∃ found left,
      readUpTo? (afterEnd? "select".toList) (loopElement item.text value content ++ "</select>".toList) =
        some (loopHead item.text ++ found, left) ∧
      ('"' ∉ found ∨ ∃ part behind, found = ' ' :: value ++ '"' :: '>' :: part ∧
        content ++ closing = part ++ behind ∧ Text.Lacks (afterEnd? "select".toList) value [] ∧
        (part.length < content.length ∨ Text.Lacks (afterEnd? "select".toList) content [])) := by
  have hhead := lacks_end_head item
  rw [loopElement_append]
  by_cases hvalue : Text.Lacks (afterEnd? "select".toList) (' ' :: value)
      ('"' :: '>' :: (content ++ (closing ++ "</select>".toList)))
  · obtain ⟨part, behind, left, hread, hpart, hlength⟩ := exists_readUpTo?_content content
    have hfront : Text.Lacks (afterEnd? "select".toList) (' ' :: value ++ ['"', '>'])
        (content ++ (closing ++ "</select>".toList)) := hvalue.append (lacks_end_quote _)
    have hfound := hfront.readUpTo?
    rw [hread, Option.map_some] at hfound
    simp only [List.append_assoc, List.cons_append, List.nil_append] at hfound
    refine ⟨' ' :: value ++ '"' :: '>' :: part, left, ?_, .inr ⟨part, behind, rfl, hpart, ?_, hlength⟩⟩
    · rw [(hhead _).readUpTo?, List.cons_append, hfound]
      rfl
    · exact (hvalue.left fun _ _ => afterEnd?_left).2
  · obtain ⟨found, c, back, left, hfound, hread⟩ := Text.Lacks.exists_readUpTo?_of_not hvalue
    refine ⟨found, left, by rw [(hhead _).readUpTo?, hread]; rfl, .inl fun hmem => ?_⟩
    have hmem' : '"' ∈ ' ' :: value := hfound ▸ List.mem_append_left _ hmem
    exact List.not_mem_cons_of_ne_of_not_mem (by decide) hquote hmem'

/-! ## How far the body goes -/

/-- A tag that closes a container begins with an angle and a slash, in any letter case. -/
theorem shape_of_spells {name : Text} (h : Spells "</ng-container>".toList name) :
    name.length = closing.length ∧ ∃ more, name = '<' :: '/' :: more := by
  have hsign : ∀ sign c : Char, sign.toNat < 'a'.toNat → isLetter sign c = true → c = sign := by
    intro sign c hsign hletter
    by_contra hne
    rw [isLetter_sign hsign hne] at hletter
    cases hletter
  have hletters : "</ng-container>".toList = '<' :: '/' :: "ng-container>".toList := by decide
  have hlength : "</ng-container>".toList.length = closing.length := rfl
  refine ⟨hlength ▸ (List.Forall₂.length_eq h).symm, ?_⟩
  rw [hletters, Spells] at h
  obtain ⟨angle, behind, hangle, hbehind, rfl⟩ := List.forall₂_cons_left_iff.1 h
  obtain ⟨slash, more, hslash, -, rfl⟩ := List.forall₂_cons_left_iff.1 hbehind
  rw [hsign _ _ (by decide) hangle, hsign _ _ (by decide) hslash]
  exact ⟨more, rfl⟩

/-- Behind a trimmed body the output goes on with a marker, and not with a closing tag. -/
theorem trim_append_ne_of_tag (body rest left more : Text) :
    body.trim ++ (markerEnd ++ left) ≠ Text.trim (body ++ '<' :: '/' :: rest) ++ more := by
  obtain ⟨blanks, hblanks, hstart⟩ := Text.exists_trimEnd_append_blank body.trimStart
  have hend : Text.trimEnd ('/' :: rest) = '/' :: rest.trimEnd :=
    Text.trimEnd_append_cons (by decide) [] rest
  have hshape : Text.trim (body ++ '<' :: '/' :: rest) =
      body.trim ++ (blanks ++ '<' :: '/' :: rest.trimEnd) := by
    rw [Text.trim_append_cons (by decide), hend, hstart, List.append_assoc]
    rfl
  have hmarker : markerEnd = '<' :: '!' :: "--/F-->".toList := by decide
  rw [hshape, hmarker, List.append_assoc]
  intro h
  have hparts := List.append_cancel_left h
  cases blanks with
  | nil =>
    injection hparts with _ hparts
    injection hparts with hslash
    exact absurd hslash (by decide)
  | cons b blanks =>
    injection hparts with hb
    exact absurd (hblanks b List.mem_cons_self) (hb ▸ by decide)

/-- **A body that ends at another tag is not the content.** What is found of the content up to a tag that
closes a container goes up to the tag behind it, if trimming leaves the same of the two. -/
theorem eq_of_trim_eq {content part behind body back left more : Text}
    (hpart : content ++ closing = part ++ behind)
    (hbody : readUpTo? afterClosing? part = some (body, back))
    (htrim : body.trim ++ (markerEnd ++ left) = content.trim ++ (markerEnd ++ more)) :
    body = content ∧ content.length ≤ part.length ∧ Text.Lacks afterClosing? content [] := by
  obtain ⟨tag, rfl, htag, hlacks⟩ := Text.Lacks.of_readUpTo? hbody
  obtain ⟨name, hname, rfl⟩ := afterAnyCase?_eq_some htag
  obtain ⟨hlength, inside, rfl⟩ := shape_of_spells hname
  suffices heq : body = content by
    subst heq
    exact ⟨rfl, by simp, hlacks.left fun _ _ => afterAnyCase?_left⟩
  rw [List.append_assoc] at hpart
  have hsame := congrArg List.length hpart
  simp only [List.length_append, hlength] at hsame
  rcases List.append_eq_append_iff.1 hpart with ⟨extra, hextra, -⟩ | ⟨rest, hcontent, hrest⟩
  · -- The tag that is found is as long as the one behind the content.
    have hle := congrArg List.length hextra
    rw [List.length_append] at hle
    obtain rfl : extra = [] := List.length_eq_zero_iff.1 (by omega)
    rw [hextra, List.append_nil]
  · match rest with
    | [] => rw [hcontent, List.append_nil]
    | [_] =>
      rw [closing_eq] at hrest
      injection hrest with _ hrest
      injection hrest with hslash
      exact absurd hslash (by decide)
    | c :: d :: rest =>
      simp only [List.cons_append, List.cons.injEq] at hrest
      obtain ⟨rfl, rfl, -⟩ := hrest
      exact absurd (hcontent ▸ htrim) (trim_append_ne_of_tag body rest _ _)

/-! ## Marked and meant -/

theorem ofLoop_defaultTag {loop : Loop} (h : loop.track? ≠ some []) :
    Container.ofLoop Container.defaultTag loop = loopElement loop.item loop.value loop.content := by
  have hopening := opening_loop loop.item loop.value (loop.content ++ closing)
  rw [Container.ofLoop, Container.loopExpression_eq loop h, Container.render_defaultTag]
  unfold loopElement element
  rw [← hopening]
  simp only [Loop.value, List.append_assoc]
  rfl

theorem markLoop_append (item iterable body rest : Text) :
    markLoop ⟨item, iterable, body⟩ ++ rest =
      markerStart ++ item ++ [':'] ++ (iterable ++ ("-->".toList ++ (body.trim ++ (markerEnd ++ rest)))) := by
  simp only [markLoop, List.append_assoc]

theorem markLoop_eq_marked (loop : Loop) :
    markLoop ⟨loop.item, loop.iterable, loop.content⟩ = loop.marked := by
  have hcolon : ":".toList = [':'] := by decide
  unfold Loop.marked markLoop markerStart markerEnd
  rw [hcolon]

/-- A markable loop in a select comes to stand between its markers. -/
theorem compile_of_markable {loop : Loop} (h : loop.Markable) (hnamed : loop.Named)
    (hne : loop.iterable ≠ []) (htrimmed : loop.iterable.trim = loop.iterable)
    (hquote : '"' ∉ loop.iterable) :
    compile (select (loopElement loop.item loop.iterable loop.content)) = select loop.marked := by
  let item : Name := ⟨loop.item, hnamed.item⟩
  have hlacks := lacks_end_loopElement item h.iterable h.no_end "</select>".toList
  have hread : readLoop (loopElement loop.item loop.iterable loop.content) =
      some (⟨loop.item, loop.iterable, loop.content⟩, []) := by
    have hcontent := readUpTo?_closing_of_lacks h.no_closing []
    rw [List.append_nil] at hcontent
    unfold loopElement
    rw [readLoop_value item hne htrimmed hquote, if_neg h.no_dollar, hcontent, Option.map_some]
  rw [compile_select_of_lacks hlacks, markLoops_of_read hread, markLoop_eq_marked]
  exact congrArg select (List.append_nil _)

/-- A loop that comes to stand between its markers is markable. -/
theorem markable_of_compile {loop : Loop} (hnamed : loop.Named) (hne : loop.value ≠ [])
    (htrimmed : loop.value.trim = loop.value) (hquote : '"' ∉ loop.value)
    (h : compile (select (loopElement loop.item loop.value loop.content)) = select loop.marked) :
    loop.Markable := by
  let item : Name := ⟨loop.item, hnamed.item⟩
  obtain ⟨found, left, hread, hfound⟩ := exists_readUpTo?_loopElement item hquote loop.content
  rw [compile_select_of hread] at h
  have hsame : markLoops (loopHead loop.item ++ found) ++ ("</select>".toList ++ compile left) =
      loop.marked ++ "</select>".toList := List.append_cancel_left h
  have hsome : readLoop (loopHead loop.item ++ found) ≠ none := by
    intro hnone
    obtain ⟨more, hmore⟩ := markLoops_of_readLoop_none hnone
    rw [hmore, ← markLoop_eq_marked, markLoop_append] at hsame
    injection hsame with _ hsame
    injection hsame with hletter
    exact absurd hletter (by decide)
  rcases hfound with hfree | ⟨part, behind, rfl, hpart, hvalue, hlength⟩
  · refine absurd ?_ hsome
    rw [readLoop_head item, readUntil?_of_not_mem hfree]
    simp
  · have hloop := readLoop_value item hne htrimmed hquote part
    by_cases hdollar : '$' ∈ loop.item
    · exact absurd (hloop.trans (if_pos hdollar)) hsome
    rw [if_neg hdollar] at hloop
    cases hbody : readUpTo? afterClosing? part with
    | none => exact absurd (hloop.trans (by rw [hbody]; rfl)) hsome
    | some cut =>
      obtain ⟨body, back⟩ := cut
      rw [hbody, Option.map_some] at hloop
      rw [markLoops_of_read hloop, List.append_assoc, markLoop_append, ← markLoop_eq_marked,
        markLoop_append] at hsame
      have hvalues := List.append_cancel_left hsame
      have htrack := Loop.no_track_of_value hvalues
      rw [Loop.value_of_no_track htrack] at hvalues hvalue
      have hbodies := List.append_cancel_left (List.append_cancel_left hvalues)
      obtain ⟨-, hle, hclosing⟩ := eq_of_trim_eq hpart hbody hbodies
      exact ⟨hdollar, htrack, hvalue, hlength.resolve_left (Nat.not_lt.2 hle), hclosing⟩

/-! ## Loops that were read -/

/-- **A loop that was read stands between markers exactly if it is markable.** Take any loop that is read
from a template, without double quotes in its expressions, around any content. What the compiler writes
for it becomes its trimmed content between markers in a select if and only if its variable has no dollar
sign, it has no track expression, no select ends in what it runs over, and neither a select nor a
container ends in the content. -/
theorem compile_loop_iff {text : Text} {block : Block} {loop : Loop}
    (h : (Loop.ofBlock text block).result = .ok loop) (hiterable : '"' ∉ loop.iterable)
    (htrack : ∀ key ∈ loop.track?, '"' ∉ key) (content : Text) :
    compile (select (Container.ofLoop Container.defaultTag { loop with content })) =
        select (Loop.marked { loop with content }) ↔
      Loop.Markable { loop with content } := by
  have hnamed := Loop.ofBlock_named h
  have hother : Loop.Named { loop with content } := ⟨hnamed.item, hnamed.track⟩
  obtain ⟨hne, htrimmed, hkey⟩ := Loop.ofBlock_trimmed h
  rw [ofLoop_defaultTag hother.track]
  constructor
  · exact markable_of_compile hother (Loop.value_ne_nil hne) (Loop.value_trimmed hother hne htrimmed hkey)
      (Loop.quote_value hiterable htrack)
  · intro hmarkable
    rw [Loop.value_of_no_track hmarkable.no_track]
    exact compile_of_markable hmarkable hother hne htrimmed hiterable

theorem compile_loop_sample :
    compile (select (Container.ofLoop Container.defaultTag
        ⟨['o'], "g['os']".toList, " <option></option> ".toList, none⟩)) =
      "<select><!--F:o:g['os']--><option></option><!--/F--></select>".toList := by
  have hloop : (Loop.ofBlock "@for (o of g['os']) \x7bx\x7d".toList
      ⟨"for".toList, 0, ⟨5, 19⟩, ⟨20, 23⟩⟩).result =
      .ok ⟨['o'], "g['os']".toList, ['x'], none⟩ := by decide +kernel
  have hmarkable : Loop.Markable ⟨['o'], "g['os']".toList, " <option></option> ".toList, none⟩ :=
    ⟨by decide, rfl, by decide +kernel, by decide +kernel, by decide +kernel⟩
  exact ((compile_loop_iff hloop (by decide) nofun _).2 hmarkable).trans (by decide +kernel)

/-- A loop whose variable begins with a dollar sign stays an element. -/
theorem not_compile_loop_of_dollar :
    ¬ ∀ (text : Text) (block : Block) (loop : Loop), (Loop.ofBlock text block).result = .ok loop →
      '"' ∉ loop.iterable → (∀ key ∈ loop.track?, '"' ∉ key) → ∀ content : Text, '<' ∉ content →
      compile (select (Container.ofLoop Container.defaultTag { loop with content })) =
        select (Loop.marked { loop with content }) := by
  intro h
  have hloop : (Loop.ofBlock "@for ($o of os) \x7bx\x7d".toList
      ⟨"for".toList, 0, ⟨5, 15⟩, ⟨16, 19⟩⟩).result =
      .ok ⟨['$', 'o'], ['o', 's'], ['x'], none⟩ := by decide +kernel
  have hcompiled := h _ _ _ hloop (by decide) nofun ['x'] (by decide)
  have hleft : compile (select (Container.ofLoop Container.defaultTag ⟨['$', 'o'], ['o', 's'], ['x'], none⟩)) =
      "<select><ng-container *ngFor=\"let $o of os\">x</ng-container></select>".toList := by decide +kernel
  rw [hleft] at hcompiled
  revert hcompiled
  decide +kernel

end SelectMarker

end FlowTemplate
