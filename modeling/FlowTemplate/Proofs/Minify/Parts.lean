/-
The parts of a template where white space is reduced. Tags stay as they are, and the text between them
keeps all but blanks, none of which a tag could begin or end with. So no tag is gained or lost: the reduced
template is cut at the tags of the template (`parts_minifySpace`). From that follow that only blanks are lost
(`minifySpace_loses_blanks`) and that reducing again changes nothing (`minifySpace_minifySpace`).
-/
import FlowTemplate.Proofs.Minify.Space
import FlowTemplate.Proofs.Minify.Tag
import Mathlib.Data.List.Chain

namespace FlowTemplate

namespace Text

variable {text : Text} {c : Char}

/-! ## Single spaces -/

/-- The only blanks are spaces, and none stands beside another. -/
def SingleSpaced (text : Text) : Prop :=
  (∀ c ∈ text, isBlank c = true → c = ' ') ∧ ¬ [' ', ' '] <:+: text

theorem singleSpaced_nil : SingleSpaced [] := ⟨nofun, by decide⟩

theorem singleSpaced_cons_iff : SingleSpaced (c :: text) ↔
    (isBlank c = true → c = ' ' ∧ ∀ d ∈ text.head?, isBlank d = false) ∧ SingleSpaced text := by
  constructor
  · rintro ⟨hspaces, hapart⟩
    refine ⟨fun hc => ⟨hspaces c List.mem_cons_self hc, fun d hd => ?_⟩, ?_, ?_⟩
    · by_contra hblank
      rw [Bool.not_eq_false] at hblank
      obtain rfl := hspaces c List.mem_cons_self hc
      obtain rfl := hspaces d (List.mem_cons_of_mem _ (List.mem_of_mem_head? hd)) hblank
      obtain ⟨more, rfl⟩ := List.head?_eq_some_iff.1 hd
      exact hapart ⟨[], more, rfl⟩
    · exact fun d hd => hspaces d (List.mem_cons_of_mem c hd)
    · exact fun hwithin => hapart (hwithin.trans (List.suffix_cons c text).isInfix)
  · rintro ⟨hfirst, hspaces, hapart⟩
    refine ⟨List.forall_mem_cons.2 ⟨fun hc => (hfirst hc).1, hspaces⟩, fun hwithin => ?_⟩
    rcases List.infix_cons_iff.1 hwithin with ⟨more, hmore⟩ | hwithin
    · obtain ⟨rfl, rfl⟩ := List.cons.inj hmore
      exact absurd ((hfirst rfl).2 ' ' rfl) (by decide)
    · exact hapart hwithin

theorem head_collapse (h : ∀ c ∈ text.head?, isBlank c = false) :
    ∀ c ∈ text.collapse.head?, isBlank c = false := by
  cases text with
  | nil => exact h
  | cons c text => rwa [collapse_cons_of_not_blank (h c rfl)]

theorem singleSpaced_collapse (text : Text) : SingleSpaced text.collapse := by
  induction text using collapsing with
  | nil => exact singleSpaced_nil
  | dropped c d cs hc hd ih => rwa [collapse_cons_cons_of_blank hc hd]
  | space c cs hc hcs ih =>
    rw [collapse_cons_of_blank hc hcs]
    exact singleSpaced_cons_iff.2 ⟨fun _ => ⟨rfl, head_collapse hcs⟩, ih⟩
  | other c cs hc ih =>
    rw [collapse_cons_of_not_blank hc]
    exact singleSpaced_cons_iff.2 ⟨fun hblank => absurd hblank (by simp [hc]), ih⟩

theorem SingleSpaced.collapse (h : SingleSpaced text) : text.collapse = text := by
  induction text with
  | nil => rfl
  | cons c text ih =>
    obtain ⟨hfirst, hrest⟩ := singleSpaced_cons_iff.1 h
    by_cases hc : isBlank c = true
    · obtain ⟨rfl, hhead⟩ := hfirst hc
      rw [collapse_cons_of_blank hc hhead, ih hrest]
    · rw [collapse_cons_of_not_blank (by simpa using hc), ih hrest]

theorem Blank.eq_nil_of_front {blanks : Text} (h : blanks.Blank) (hfront : blanks <+: text)
    (hhead : ∀ c ∈ text.head?, isBlank c = false) : blanks = [] := by
  obtain ⟨rest, rfl⟩ := hfront
  cases blanks with
  | nil => rfl
  | cons b blanks =>
    have := hhead b rfl
    rw [h b List.mem_cons_self] at this
    cases this

theorem Blank.eq_nil_of_back {blanks : Text} (h : blanks.Blank) (hback : blanks <:+ text)
    (hlast : ∀ c ∈ text.getLast?, isBlank c = false) : blanks = [] := by
  obtain ⟨front, rfl⟩ := hback
  rcases List.eq_nil_or_concat blanks with rfl | ⟨blanks, b, rfl⟩
  · rfl
  · have := hlast b (by rw [List.concat_eq_append, ← List.append_assoc, List.getLast?_concat]; rfl)
    rw [h b (by simp)] at this
    cases this

theorem last_collapse (h : ∀ c ∈ text.getLast?, isBlank c = false) :
    ∀ c ∈ text.collapse.getLast?, isBlank c = false := by
  rcases List.eq_nil_or_concat text with rfl | ⟨words, c, rfl⟩
  · exact h
  · rw [List.concat_eq_append] at h ⊢
    have hc : isBlank c = false := h c List.getLast?_concat
    have hsplit := collapse_append_cons hc words []
    rw [collapse_nil] at hsplit
    rw [hsplit, List.getLast?_concat]
    rintro d ⟨⟩
    exact hc

/-! ## What is not blank -/

/-- The text without its blanks. -/
def withoutBlanks (text : Text) : Text := text.filter fun c => !isBlank c

@[simp] theorem withoutBlanks_append (front back : Text) :
    withoutBlanks (front ++ back) = withoutBlanks front ++ withoutBlanks back := List.filter_append ..

theorem Blank.withoutBlanks {blanks : Text} (h : blanks.Blank) : blanks.withoutBlanks = [] :=
  List.filter_eq_nil_iff.2 fun c hc => by simp [h c hc]

@[simp] theorem withoutBlanks_collapse (text : Text) : text.collapse.withoutBlanks = text.withoutBlanks := by
  have hspace : isBlank ' ' = true := by decide
  induction text using collapsing with
  | nil => rfl
  | dropped c d cs hc hd ih =>
    rw [collapse_cons_cons_of_blank hc hd, ih]
    simp [withoutBlanks, hc]
  | space c cs hc hcs ih =>
    rw [collapse_cons_of_blank hc hcs]
    simpa [withoutBlanks, hc, hspace] using ih
  | other c cs hc ih =>
    rw [collapse_cons_of_not_blank hc]
    simpa [withoutBlanks, hc] using ih

theorem mem_collapse_iff (hc : isBlank c = false) : c ∈ text.collapse ↔ c ∈ text := by
  have hmem : ∀ t : Text, c ∈ t ↔ c ∈ t.withoutBlanks := fun t => by simp [withoutBlanks, hc]
  rw [hmem, withoutBlanks_collapse, ← hmem]

/-- What collapsed text has behind a front without blanks is what stood behind that, collapsed. -/
theorem exists_of_collapse_eq_append {front back : Text} (hfront : ∀ c ∈ front, isBlank c = false)
    (h : text.collapse = front ++ back) : ∃ rest, text = front ++ rest ∧ rest.collapse = back := by
  obtain ⟨rest, rfl⟩ := prefix_of_prefix_collapse hfront ⟨back, h.symm⟩
  rw [collapse_append_of_not_blank hfront] at h
  exact ⟨rest, rfl, List.append_cancel_left h⟩

theorem exists_of_suffix_collapse {t : Text} (ht : t ≠ []) (h : t <:+ collapse text) :
    ∃ back, back <:+ text ∧ collapse back = t := by
  -- A suffix that is not the whole comes from the text behind the first character.
  have hstep : ∀ {c d : Char} {cs : Text}, collapse (c :: cs) = d :: collapse cs → t <:+ collapse (c :: cs) →
      (t <:+ collapse cs → ∃ back, back <:+ cs ∧ collapse back = t) →
      ∃ back, back <:+ c :: cs ∧ collapse back = t := by
    intro c d cs hcollapse h ih
    rw [hcollapse] at h
    rcases List.suffix_cons_iff.1 h with rfl | h
    · exact ⟨c :: cs, List.suffix_rfl, hcollapse⟩
    · obtain ⟨back, hback, heq⟩ := ih h
      exact ⟨back, hback.trans (List.suffix_cons c _), heq⟩
  induction text using collapsing with
  | nil => exact absurd (List.suffix_nil.1 h) ht
  | dropped c d cs hc hd ih =>
    rw [collapse_cons_cons_of_blank hc hd] at h
    obtain ⟨back, hback, heq⟩ := ih h
    exact ⟨back, hback.trans (List.suffix_cons c _), heq⟩
  | space c cs hc hcs ih => exact hstep (collapse_cons_of_blank hc hcs) h ih
  | other c cs hc ih => exact hstep (collapse_cons_of_not_blank hc cs) h ih

end Text

namespace Minify

open Markup

variable {text rest w head tail : Text} {segments : List (Segment Unit)}

/-! ## Where tags begin -/

/-- The front of a tag, up to the end of its name. -/
def IsHead (head : Text) : Prop :=
  ∃ slash name : Text, (slash = [] ∨ slash = ['/']) ∧ IsName name ∧ head = '<' :: (slash ++ name)

/-- Text behind the name of a tag in which the tag comes to its end. -/
def Closes (tail : Text) : Prop :=
  ['>'] <+: tail ∨ ['/', '>'] <+: tail ∨ (∃ c ∈ tail.head?, isBlank c = true) ∧ '>' ∈ tail

theorem IsHead.exists_eq_cons (h : IsHead head) : ∃ name, head = '<' :: name ∧ '<' ∉ name := by
  obtain ⟨slash, name, hslash, hname, rfl⟩ := h
  refine ⟨slash ++ name, rfl, List.not_mem_append ?_ (hname.continues.not_mem (by decide))⟩
  rcases hslash with rfl | rfl <;> decide

theorem IsHead.not_blank (h : IsHead head) : ∀ c ∈ head, isBlank c = false := by
  obtain ⟨slash, name, hslash, hname, rfl⟩ := h
  intro c hc
  by_contra hblank
  rw [Bool.not_eq_false] at hblank
  rcases List.mem_cons.1 hc with rfl | hc
  · revert hblank
    decide
  rcases List.mem_append.1 hc with hc | hc
  · rcases hslash with rfl | rfl
    · cases hc
    · obtain rfl := List.mem_singleton.1 hc
      revert hblank
      decide
  · exact hname.continues.not_mem (Markup.continuesName_of_isBlank hblank) hc

theorem begins_iff : (∃ w, IsTag w ∧ w <+: text) ↔ ∃ head tail, IsHead head ∧ Closes tail ∧ text = head ++ tail := by
  constructor
  · rintro ⟨_, ⟨slash, name, inside, hslash, hname, -, hinside, rfl⟩, rest, rfl⟩
    refine ⟨_, inside ++ '>' :: rest, ⟨slash, name, hslash, hname, rfl⟩, ?_, by simp⟩
    rcases hinside with rfl | rfl | ⟨c, hc, hblank⟩
    · exact .inl ⟨rest, rfl⟩
    · exact .inr (.inl ⟨rest, rfl⟩)
    · refine .inr (.inr ⟨⟨c, ?_, hblank⟩, by simp⟩)
      rw [List.head?_append, Option.mem_def.1 hc]
      rfl
  · rintro ⟨_, tail, ⟨slash, name, hslash, hname, rfl⟩, hcloses, rfl⟩
    suffices h : ∃ inside rest : Text, '>' ∉ inside ∧
        (inside = [] ∨ inside = ['/'] ∨ ∃ c ∈ inside.head?, isBlank c = true) ∧ tail = inside ++ '>' :: rest by
      obtain ⟨inside, rest, hfree, hinside, rfl⟩ := h
      exact ⟨_, ⟨slash, name, inside, hslash, hname, hfree, hinside, rfl⟩, rest, by simp⟩
    rcases hcloses with ⟨rest, rfl⟩ | ⟨rest, rfl⟩ | ⟨⟨c, hc, hblank⟩, hangle⟩
    · exact ⟨[], rest, List.not_mem_nil, .inl rfl, rfl⟩
    · exact ⟨['/'], rest, by decide, .inr (.inl rfl), rfl⟩
    · obtain ⟨inside, rest, rfl, hfree⟩ := List.eq_append_cons_of_mem hangle
      refine ⟨inside, rest, hfree, .inr (.inr ⟨c, ?_, hblank⟩), rfl⟩
      cases inside with
      | nil =>
        obtain rfl := Option.some.inj hc
        revert hblank
        decide
      | cons d inside => exact hc

/-- A tag that comes to its end in collapsed text or behind it does so in the text, or behind it. -/
theorem Closes.of_collapse {behind again : Text} (hbehind : ∀ c ∈ behind.head?, c = '<')
    (hagain : '>' ∈ behind → '>' ∈ again) (h : Closes (text.collapse ++ behind)) : Closes (text ++ again) := by
  have hangle : isBlank '>' = false ∧ isBlank '/' = false ∧ isBlank '<' = false := by decide
  have hpart : ∀ w : Text, (∀ c ∈ w, isBlank c = false) → w <+: text.collapse → w <+: text ++ again :=
    fun w hw h => (Text.prefix_of_prefix_collapse hw h).trans (List.prefix_append text again)
  cases text with
  | nil =>
    -- Nothing of the text is there: what follows begins with an opening angle.
    cases behind with
    | nil => rcases h with h | h | ⟨⟨c, hc, -⟩, -⟩ <;> simp at *
    | cons c behind =>
      obtain rfl := hbehind c rfl
      rcases h with h | h | ⟨⟨c, hc, hblank⟩, -⟩
      · simp at h
      · simp at h
      · obtain rfl := Option.some.inj hc
        simp [hangle] at hblank
  | cons d text =>
    obtain ⟨e, more, hcollapse⟩ := List.exists_cons_of_ne_nil
      (mt Text.collapse_eq_nil_iff.1 (List.cons_ne_nil d text))
    rcases h with h | h | ⟨⟨c, hc, hblank⟩, hclose⟩
    · rw [hcollapse, List.cons_append, List.cons_prefix_cons] at h
      obtain ⟨rfl, -⟩ := h
      exact .inl (hpart ['>'] (by simp [hangle]) ⟨more, hcollapse.symm⟩)
    · refine .inr (.inl (hpart ['/', '>'] (by simp [hangle]) ?_))
      rw [hcollapse, List.cons_append, List.cons_prefix_cons] at h
      obtain ⟨rfl, h⟩ := h
      cases more with
      | nil =>
        obtain ⟨after, rfl⟩ := h
        exact absurd (hbehind '>' rfl) (by decide)
      | cons f more =>
        obtain ⟨rfl, -⟩ := List.cons_prefix_cons.1 h
        exact ⟨more, hcollapse.symm⟩
    · have hd : isBlank d = true := by
        by_contra hd
        rw [Text.collapse_cons_of_not_blank (by simpa using hd)] at hc
        obtain rfl := Option.some.inj hc
        exact hd hblank
      refine .inr (.inr ⟨⟨d, rfl, hd⟩, ?_⟩)
      rcases List.mem_append.1 hclose with hclose | hclose
      · exact List.mem_append_left again ((Text.mem_collapse_iff hangle.1).1 hclose)
      · exact List.mem_append_right _ (hagain hclose)

/-- Behind collapsed text that a tag follows, or nothing, no tag begins in it that would not begin in the
text. -/
theorem begins_of_collapse {behind again : Text} (hne : text ≠ []) (hbehind : ∀ c ∈ behind.head?, c = '<')
    (hagain : '>' ∈ behind → '>' ∈ again) (h : ∃ w, IsTag w ∧ w <+: text.collapse ++ behind) :
    ∃ w, IsTag w ∧ w <+: text ++ again := by
  obtain ⟨head, tail, hhead, hcloses, heq⟩ := begins_iff.1 h
  -- The front of the tag has one opening angle, so it ends in the collapsed text.
  obtain ⟨more, hcollapse, rfl⟩ : ∃ more, text.collapse = head ++ more ∧ tail = more ++ behind := by
    rcases List.append_eq_append_iff.1 heq with ⟨beyond, hbeyond, rfl⟩ | ⟨more, hmore, rfl⟩
    · cases beyond with
      | nil => exact ⟨[], by rw [hbeyond, List.append_nil, List.append_nil], rfl⟩
      | cons c beyond =>
        obtain rfl := hbehind c rfl
        obtain ⟨name, rfl, hname⟩ := hhead.exists_eq_cons
        obtain ⟨d, front, hfront⟩ := List.exists_cons_of_ne_nil (mt Text.collapse_eq_nil_iff.1 hne)
        rw [hfront] at hbeyond
        obtain ⟨-, rfl⟩ := List.cons.inj hbeyond
        exact absurd (List.mem_append_right _ List.mem_cons_self) hname
    · exact ⟨more, hmore, rfl⟩
  obtain ⟨rest, rfl, rfl⟩ := Text.exists_of_collapse_eq_append hhead.not_blank hcollapse
  exact begins_iff.2 ⟨head, rest ++ again, hhead, hcloses.of_collapse hbehind hagain, List.append_assoc ..⟩

/-! ## Parts of the reduced template -/

/-- Text as a part by itself, if there is any. -/
def gapOf (text : Text) : List (Segment Unit) := if text.isEmpty then [] else [.gap text]

/-- The parts of the reduced template. Behind a tag or not, gaps of which nothing is left are gone. -/
def reduceParts (afterTag : Bool) : List (Segment Unit) → List (Segment Unit)
  | [] => []
  | .hit value tag :: rest => .hit value tag :: reduceParts true rest
  | .gap text :: rest => gapOf (minifyGap afterTag (!rest.isEmpty) text) ++ reduceParts false rest

@[simp] theorem flatMap_text_gapOf (text : Text) : (gapOf text).flatMap Segment.text = text := by
  cases text <;> simp [gapOf, Segment.text]

theorem flatMap_text_reduceParts (afterTag : Bool) (segments : List (Segment Unit)) :
    (reduceParts afterTag segments).flatMap Segment.text = minifyParts afterTag segments := by
  induction segments generalizing afterTag with
  | nil => rfl
  | cons segment rest ih =>
    cases segment with
    | hit value w => simp [reduceParts, minifyParts, ih, Segment.text]
    | gap g => simp [reduceParts, minifyParts, ih]

theorem behind_gap {g : Text} (h : Segment.Alternates (.gap g :: segments)) :
    segments = [] ∨ ∃ w rest, segments = .hit () w :: rest := by
  match segments with
  | [] => exact .inl rfl
  | .hit _ w :: rest => exact .inr ⟨w, rest, rfl⟩
  | .gap _ :: _ => exact Bool.noConfusion ((List.isChain_cons_cons.1 h).1 rfl)

theorem text_ne_nil_reduceParts (afterTag : Bool) (h : ∀ segment ∈ segments, segment.text ≠ []) :
    ∀ segment ∈ reduceParts afterTag segments, segment.text ≠ [] := by
  induction segments generalizing afterTag with
  | nil => exact h
  | cons segment rest ih =>
    obtain ⟨hfirst, hrest⟩ := List.forall_mem_cons.1 h
    cases segment with
    | hit value w => exact List.forall_mem_cons.2 ⟨hfirst, ih true hrest⟩
    | gap g =>
      intro part hpart
      rcases List.mem_append.1 hpart with hpart | hpart
      · cases hgap : minifyGap afterTag (!rest.isEmpty) g with
        | nil => simp [hgap, gapOf] at hpart
        | cons c cs =>
          simp only [hgap, gapOf, List.isEmpty_cons, Bool.false_eq_true, if_false, List.mem_singleton] at hpart
          rw [hpart]
          exact List.cons_ne_nil c cs
      · exact ih false hrest part hpart

theorem alternates_reduceParts (afterTag : Bool) (h : Segment.Alternates segments) :
    Segment.Alternates (reduceParts afterTag segments) := by
  induction segments generalizing afterTag with
  | nil => exact h
  | cons segment rest ih =>
    have hrest := h.of_cons
    cases segment with
    | hit value w => exact List.isChain_cons.2 ⟨fun _ _ hgap => Bool.noConfusion hgap, ih true hrest⟩
    | gap g =>
      rw [reduceParts, gapOf]
      split
      · exact ih false hrest
      · refine List.isChain_cons.2 ⟨fun next hnext _ => ?_, ih false hrest⟩
        rcases behind_gap h with rfl | ⟨w, rest, rfl⟩
        · cases hnext
        · obtain rfl := Option.some.inj hnext
          rfl

/-- **No tag is gained or lost.** -/
theorem leftmost_reduceParts (afterTag : Bool) (halternates : Segment.Alternates segments)
    (h : Segment.Leftmost (fun _ w => IsTag w) segments) :
    Segment.Leftmost (fun _ w => IsTag w) (reduceParts afterTag segments) := by
  induction segments generalizing afterTag with
  | nil => trivial
  | cons segment rest ih =>
    have hrest := halternates.of_cons
    cases segment with
    | hit value w => exact ⟨h.1, ih true hrest h.2⟩
    | gap g =>
      rw [reduceParts, gapOf]
      split
      · exact ih false hrest h.2
      refine ⟨fun t ht hs value w hw hbegins => ?_, ih false hrest h.2⟩
      obtain ⟨before, middle, behind, hshrinks⟩ := exists_shrinks afterTag (!rest.isEmpty) g
      have hgap := hshrinks.text_eq
      rw [hshrinks.minify_eq] at hs
      obtain ⟨back, hback, rfl⟩ := Text.exists_of_suffix_collapse ht hs
      have hne : back ≠ [] := mt Text.collapse_eq_nil_iff.2 ht
      change w <+: Text.collapse back ++ (reduceParts false rest).flatMap Segment.text at hbegins
      rw [flatMap_text_reduceParts] at hbegins
      obtain ⟨v, hv, htag⟩ : ∃ v, IsTag v ∧ v <+: back ++ (behind ++ rest.flatMap Segment.text) := by
        refine begins_of_collapse hne ?_ ?_ ⟨w, hw, hbegins⟩
        · rcases behind_gap halternates with rfl | ⟨tag, more, rfl⟩
          · exact fun c hc => nomatch hc
          · obtain ⟨front, rfl, -⟩ := h.2.1.ends
            exact fun c hc => (Option.some.inj hc).symm
        · rcases behind_gap halternates with rfl | ⟨tag, more, rfl⟩
          · exact fun hangle => nomatch hangle
          · obtain ⟨front, rfl, -⟩ := h.2.1.ends
            exact fun _ => by simp [Segment.text]
      have hsuffix : back ++ behind <:+ g := by
        obtain ⟨front, rfl⟩ := hback
        exact ⟨before ++ front, by simp [hgap]⟩
      refine h.1 (back ++ behind) (List.append_ne_nil_of_left_ne_nil hne _) hsuffix () v hv ?_
      rwa [List.append_assoc]

theorem readTag_reads : readTag.Reads fun _ w => IsTag w := fun _ _ _ => readTag_eq_some_iff

theorem isCut_parts (template : Text) : Segment.IsCut (fun _ w => IsTag w) template (parts template) :=
  Segment.isCut_ofText readTag_reads (fun _ _ hw => hw.ne_nil) template

/-- **The reduced template is cut at the tags of the template.** -/
theorem parts_minifySpace (template : Text) : parts (minifySpace template) = reduceParts false (parts template) := by
  obtain ⟨-, hne, halternates, hleftmost⟩ := isCut_parts template
  exact (Segment.ofText_eq_iff readTag_reads fun _ _ hw => hw.ne_nil).2
    ⟨flatMap_text_reduceParts false (parts template), text_ne_nil_reduceParts false hne,
      alternates_reduceParts false halternates, leftmost_reduceParts false halternates hleftmost⟩

/-! ## Reducing again -/

/-- Single spaces, none of them at an end that is removed, stay. -/
theorem minifyGap_eq_self {afterTag beforeTag : Bool} {g : Text} (h : g.SingleSpaced)
    (hlast : afterTag = true → ∀ c ∈ g.getLast?, isBlank c = false)
    (hhead : beforeTag = true → ∀ c ∈ g.head?, isBlank c = false) : minifyGap afterTag beforeTag g = g := by
  rcases eq_or_ne g [] with rfl | hne
  · cases afterTag <;> cases beforeTag <;> rfl
  obtain ⟨before, behind, hbefore, hbehind, htext⟩ := g.exists_blanks_trim
  match afterTag, beforeTag with
  | false, false => exact h.collapse
  | true, true => rw [minifyGap, Text.trim_eq_self_iff.2 ⟨hhead rfl, hlast rfl⟩, h.collapse]
  | true, false =>
    have htrim : g.trim ≠ [] := fun htrim =>
      hne ((Text.Blank.of_trim htrim).eq_nil_of_back List.suffix_rfl (hlast rfl))
    obtain rfl : behind = [] := by
      refine hbehind.eq_nil_of_back ⟨before ++ g.trim, ?_⟩ (hlast rfl)
      rw [List.append_assoc, ← htext]
    have hspace := spaceFor_append_collapse hbefore htrim g.head_trim []
    rw [← htext, ← List.append_nil (before ++ g.trim), List.append_assoc, ← htext, h.collapse] at hspace
    rw [minifyGap, if_neg (by simpa using mt Text.collapse_eq_nil_iff.1 htrim), hspace]
  | false, true =>
    have htrim : g.trim ≠ [] := fun htrim =>
      hne ((Text.Blank.of_trim htrim).eq_nil_of_front List.prefix_rfl (hhead rfl))
    obtain rfl : before = [] := hbefore.eq_nil_of_front ⟨_, htext.symm⟩ (hhead rfl)
    have hspace := collapse_append_spaceFor hbehind htrim g.last_trim []
    rw [← htext, ← List.nil_append (g.trim ++ behind), ← htext, h.collapse] at hspace
    rw [minifyGap, if_neg (by simpa using mt Text.collapse_eq_nil_iff.1 htrim), hspace]

theorem minifyGap_minifyGap (afterTag beforeTag : Bool) (g : Text) :
    minifyGap afterTag beforeTag (minifyGap afterTag beforeTag g) = minifyGap afterTag beforeTag g := by
  obtain ⟨before, middle, behind, hshrinks⟩ := exists_shrinks afterTag beforeTag g
  rw [hshrinks.minify_eq]
  exact minifyGap_eq_self (Text.singleSpaced_collapse middle)
    (fun h => Text.last_collapse (hshrinks.last h)) fun h => Text.head_collapse (hshrinks.head h)

theorem minifyParts_reduceParts (afterTag : Bool) (h : Segment.Alternates segments) :
    minifyParts afterTag (reduceParts afterTag segments) = minifyParts afterTag segments := by
  induction segments generalizing afterTag with
  | nil => rfl
  | cons segment rest ih =>
    have hrest := h.of_cons
    cases segment with
    | hit value w => exact congrArg (w ++ ·) (ih true hrest)
    | gap g =>
      rw [reduceParts, gapOf, minifyParts]
      split
      case isTrue hnil =>
        -- The gap is gone, and a tag comes first now: it is the same behind a tag or not.
        rw [List.isEmpty_iff.1 hnil]
        rcases behind_gap h with rfl | ⟨w, rest, rfl⟩
        · rfl
        · exact ih false hrest
      case isFalse =>
        have hempty : (reduceParts false rest).isEmpty = rest.isEmpty := by
          rcases behind_gap h with rfl | ⟨w, rest, rfl⟩ <;> rfl
        change minifyGap afterTag (!(reduceParts false rest).isEmpty) _ ++
          minifyParts false (reduceParts false rest) = _
        rw [hempty, minifyGap_minifyGap, ih false hrest]

/-- **Reducing the white space of a reduced template changes nothing.** -/
theorem minifySpace_minifySpace (template : Text) : minifySpace (minifySpace template) = minifySpace template := by
  rw [minifySpace, parts_minifySpace, minifyParts_reduceParts false (isCut_parts template).alternates]
  rfl

/-! ## What is lost -/

/-- The tags among the parts, in their order. -/
def tagsOf (parts : List (Segment Unit)) : List Text :=
  parts.filterMap fun
    | .hit _ tag => some tag
    | .gap _ => none

theorem tagsOf_reduceParts (afterTag : Bool) (segments : List (Segment Unit)) :
    tagsOf (reduceParts afterTag segments) = tagsOf segments := by
  induction segments generalizing afterTag with
  | nil => rfl
  | cons segment rest ih =>
    cases segment with
    | hit value w => exact congrArg (w :: ·) (ih true)
    | gap g =>
      rw [reduceParts, gapOf]
      split <;> exact ih false

theorem withoutBlanks_minifyGap (afterTag beforeTag : Bool) (g : Text) :
    (minifyGap afterTag beforeTag g).withoutBlanks = g.withoutBlanks := by
  obtain ⟨before, middle, behind, hshrinks⟩ := exists_shrinks afterTag beforeTag g
  rw [hshrinks.minify_eq, hshrinks.text_eq, Text.withoutBlanks_collapse, Text.withoutBlanks_append,
    Text.withoutBlanks_append, hshrinks.before_blank.withoutBlanks, hshrinks.behind_blank.withoutBlanks,
    List.nil_append, List.append_nil]

theorem withoutBlanks_minifyParts (afterTag : Bool) (segments : List (Segment Unit)) :
    (minifyParts afterTag segments).withoutBlanks = Text.withoutBlanks (segments.flatMap Segment.text) := by
  induction segments generalizing afterTag with
  | nil => rfl
  | cons segment rest ih =>
    rw [List.flatMap_cons, Text.withoutBlanks_append]
    cases segment with
    | hit value w => rw [minifyParts, Text.withoutBlanks_append, ih, Segment.text]
    | gap g => rw [minifyParts, Text.withoutBlanks_append, ih, withoutBlanks_minifyGap, Segment.text]

theorem singleSpaced_of_mem_reduceParts {afterTag : Bool} {g : Text}
    (h : Segment.gap g ∈ reduceParts afterTag segments) : g.SingleSpaced := by
  induction segments generalizing afterTag with
  | nil => cases h
  | cons segment rest ih =>
    cases segment with
    | hit value w => exact ih ((List.mem_cons.1 h).resolve_left nofun)
    | gap text =>
      rcases List.mem_append.1 h with h | h
      · obtain ⟨before, middle, behind, hshrinks⟩ := exists_shrinks afterTag (!rest.isEmpty) text
        rw [hshrinks.minify_eq, gapOf] at h
        split at h
        · cases h
        · obtain rfl := Segment.gap.inj (List.mem_singleton.1 h)
          exact Text.singleSpaced_collapse middle
      · exact ih h

/-- **Only blanks are lost.** A template is cut into its leftmost tags and the text between them. The reduced
template has the same tags in the same order and, blanks aside, the same text; the blanks left outside of
its tags are single spaces. -/
theorem minifySpace_loses_blanks (template : Text) :
    Segment.IsCut (fun _ w => IsTag w) template (parts template) ∧
    (parts (minifySpace template)).flatMap Segment.text = minifySpace template ∧
    tagsOf (parts (minifySpace template)) = tagsOf (parts template) ∧
    (minifySpace template).withoutBlanks = template.withoutBlanks ∧
    ∀ g, .gap g ∈ parts (minifySpace template) → g.SingleSpaced := by
  refine ⟨isCut_parts template, (isCut_parts _).text_eq, ?_, ?_, fun g hg => ?_⟩
  · rw [parts_minifySpace, tagsOf_reduceParts]
  · rw [minifySpace, withoutBlanks_minifyParts, (isCut_parts template).text_eq]
  · rw [parts_minifySpace] at hg
    exact singleSpaced_of_mem_reduceParts hg

end Minify

end FlowTemplate
