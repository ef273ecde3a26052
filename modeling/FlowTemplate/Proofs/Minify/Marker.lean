/-
Markers of loops in a minified template. Blanks do not touch a marker, except in what it is a marker of, so
the markers that a text shows are left when its white space is reduced (`Shows.minifySpace`). Comments do:
where a text leaves one open, the marker behind it is taken for the end of that comment
(`Shows.removeComments_of_open`). Where it does not, the marker stays (`Shows.removeComments_of_not_open`).
-/
import FlowTemplate.Proofs.Minify.Comment
import FlowTemplate.Proofs.Minify.Space
import FlowTemplate.Proofs.Minify.Tag
import Mathlib.Data.List.Chain

namespace FlowTemplate

open Template (AtTag)

namespace Text

variable {a : Text}

theorem joint_nil (a : Text) : Joint a [] := .inr AtTag.nil

theorem joint_of_getLast? (h : a.getLast? = some '>') (b : Text) : Joint a b :=
  .inl fun c hc => by rw [h] at hc; exact (Option.some.inj hc).symm

end Text

namespace Minify

open Markup
open SelectMarker (markerStart markerEnd)

variable {text rest inside w a b m : Text} {ms : List Text}

/-! ## Markers as they are read -/

/-- A marker of a loop: the end marker, or one that begins a loop up to its end. -/
def readMarker : Recogniser Text := fun text =>
  ((Text.after? markerEnd text).map fun rest => (markerEnd, rest)).or do
    let inside ← Text.after? markerStart text
    let (loop, rest) ← readUpTo? (Text.after? commentEnd) inside
    some (markerStart ++ (loop ++ commentEnd), rest)

/-- The markers of loops in a text, in order. -/
def markers (text : Text) : List Text := Text.occurrences readMarker text

/-- Whether a marker begins at the front of a text. -/
def AtMarker (text : Text) : Prop := markerStart <+: text ∨ markerEnd <+: text

/-- A marker without other angles, and with single spaces. -/
def IsMarker (m : Text) : Prop :=
  m = markerEnd ∨ ∃ inside : Text, '<' ∉ inside ∧ '>' ∉ inside ∧ inside.collapse = inside ∧
    m = markerStart ++ (inside ++ commentEnd)

theorem readMarker_of_not_atMarker (h : ¬ AtMarker text) : readMarker text = none := by
  rw [AtMarker, not_or] at h
  rw [readMarker, Text.after?_eq_none_iff.2 h.1, Text.after?_eq_none_iff.2 h.2]
  rfl

namespace IsMarker

theorem frame (h : IsMarker m) : ∃ front, m = '<' :: (front ++ ['>']) ∧ '<' ∉ front ∧ '>' ∉ front := by
  obtain rfl | ⟨inside, hopen, hclose, -, rfl⟩ := h
  · exact ⟨"!--/F--".toList, by decide, by decide, by decide⟩
  · have hstart : markerStart = '<' :: "!--F:".toList := by decide
    have hend : commentEnd = ['-', '-'] ++ ['>'] := by decide
    refine ⟨"!--F:".toList ++ (inside ++ ['-', '-']), ?_, ?_, ?_⟩
    · rw [hstart, hend, List.cons_append, List.append_assoc, List.append_assoc]
    · exact List.not_mem_append (by decide) (List.not_mem_append hopen (by decide))
    · exact List.not_mem_append (by decide) (List.not_mem_append hclose (by decide))

theorem readMarker (h : IsMarker m) (rest : Text) : readMarker (m ++ rest) = some (m, rest) := by
  obtain rfl | ⟨inside, -, hclose, -, rfl⟩ := h
  · rw [Minify.readMarker, Text.after?_append]
    rfl
  · have hend : ¬ markerEnd <+: markerStart ++ (inside ++ (commentEnd ++ rest)) := fun hfound =>
      absurd (List.prefix_of_prefix_length_le (List.prefix_append markerStart _) hfound (by decide))
        (by decide)
    rw [List.append_assoc, List.append_assoc, Minify.readMarker, Text.after?_eq_none_iff.2 hend,
      Text.after?_append]
    simp [readUpTo?_commentEnd hclose]

theorem atTag (h : IsMarker m) (rest : Text) : AtTag (m ++ rest) := by
  obtain ⟨front, rfl, -⟩ := h.frame
  exact AtTag.cons _

theorem readComment (h : IsMarker m) (rest : Text) : Minify.readComment (m ++ rest) = none := by
  have hmarker : ∃ inside, m ++ rest = commentStart ++ inside ∧ isMarker inside = true := by
    obtain rfl | ⟨inside, -, -, -, rfl⟩ := h
    · exact ⟨"/F-->".toList ++ rest, rfl, isMarker_iff.2 (.inr (List.prefix_append markerEnd rest))⟩
    · refine ⟨"F:".toList ++ (inside ++ commentEnd ++ rest), rfl, isMarker_iff.2 (.inl ?_)⟩
      exact List.prefix_append markerStart _
  obtain ⟨inside, htext, hinside⟩ := hmarker
  rw [htext, readComment_start, if_pos hinside]

theorem removeComments_append (h : IsMarker m) (rest : Text) :
    removeComments (m ++ rest) = m ++ removeComments rest := by
  have hnone := h.readComment rest
  obtain ⟨front, rfl, hopen, -⟩ := h.frame
  have hfree : '<' ∉ front ++ ['>'] := List.not_mem_append hopen (by decide)
  simp only [removeComments, Segment.replace_eq_rewrite] at hnone ⊢
  rw [List.cons_append] at hnone ⊢
  rw [Segment.rewrite_cons hnone, Segment.rewrite_append_of_not_mem readComment_beginsWith hfree,
    List.cons_append]

theorem collapse_append (h : IsMarker m) (rest : Text) :
    Text.collapse (m ++ rest) = m ++ rest.collapse := by
  obtain rfl | ⟨inside, -, -, hinside, rfl⟩ := h
  · exact Text.collapse_append_of_not_blank (by decide) rest
  · have hend : commentEnd = '-' :: ['-', '>'] := by decide
    rw [List.append_assoc, Text.collapse_append_of_not_blank (by decide), List.append_assoc, hend,
      List.cons_append, Text.collapse_append_cons (by decide), hinside,
      Text.collapse_append_of_not_blank (by decide)]
    simp

/-- No marker goes across a place with no opening angle before it, no closing one behind it, or where a tag
ends or begins. -/
theorem eq_nil_of_append {back : Text} (h : IsMarker (a ++ back)) (ha : a ≠ [])
    (hab : '<' ∉ a ∨ '>' ∉ back ++ b ∨ Text.Joint a (back ++ b)) : back = [] := by
  obtain ⟨front, hfront, hopen, hclose⟩ := h.frame
  obtain ⟨c, a, rfl⟩ := List.exists_cons_of_ne_nil ha
  rcases List.eq_nil_or_concat back with rfl | ⟨back, d, rfl⟩
  · rfl
  exfalso
  rw [List.concat_eq_append, ← List.append_assoc, List.cons_append, List.cons_append] at hfront
  obtain ⟨rfl, hinside⟩ := List.cons.inj hfront
  obtain ⟨rfl, hangle⟩ := List.append_inj' hinside rfl
  obtain rfl : d = '>' := by simpa using hangle
  rw [List.mem_append, not_or] at hopen hclose
  rcases hab with hm | hm | hlast | htag
  · exact hm List.mem_cons_self
  · exact hm (by simp)
  · have hend := hlast _ (List.getLast?_eq_getLast_of_ne_nil (List.cons_ne_nil '<' a))
    rcases List.mem_cons.1 (List.getLast_mem (List.cons_ne_nil '<' a)) with heq | hmem
    · rw [hend] at heq
      exact absurd heq (by decide)
    · exact hclose.1 (hend ▸ hmem)
  · cases back with
    | nil => exact absurd (htag '>' rfl) (by decide)
    | cons e back => exact hopen.2 (htag e rfl ▸ List.mem_cons_self)

end IsMarker

theorem IsTag.joint_left (h : IsTag w) (b : Text) : Text.Joint w b := by
  obtain ⟨front, rfl, -⟩ := h.ends
  exact Text.joint_of_getLast? (by rw [← List.cons_append, List.getLast?_concat]) b

theorem IsTag.joint_right (h : IsTag w) (a b : Text) : Text.Joint a (w ++ b) := by
  obtain ⟨front, rfl, -⟩ := h.ends
  exact .inr (AtTag.cons _)

/-! ## Texts with their markers -/

/-- The markers that a text shows. -/
inductive Shows : Text → List Text → Prop
  | nil : Shows [] []
  | gap {c : Char} {text : Text} {ms : List Text} (h : ¬ AtMarker (c :: text)) (rest : Shows text ms) :
    Shows (c :: text) ms
  | marker {m text : Text} {ms : List Text} (h : IsMarker m) (rest : Shows text ms) :
    Shows (m ++ text) (m :: ms)

namespace Shows

theorem markers_eq (h : Shows text ms) : markers text = ms := by
  induction h with
  | nil => rfl
  | @gap c text ms h _ ih =>
    rw [← ih, markers, Text.occurrences, Segment.ofText_cons (readMarker_of_not_atMarker h), markers,
      Text.occurrences]
    cases Segment.ofText readMarker text with
    | nil => rfl
    | cons segment rest => cases segment <;> rfl
  | @marker m text ms h _ ih =>
    obtain ⟨front, hfront, -⟩ := h.frame
    rw [markers, Text.occurrences, Segment.ofText_hit (by simp [hfront]) (h.readMarker text), ← ih]
    rfl

theorem of_clear (h : Clear text) : Shows text [] := by
  induction text with
  | nil => exact .nil
  | cons c text ih =>
    refine .gap ?_ (ih (h.of_part (List.suffix_cons c text).isInfix))
    rintro (hmarker | hmarker)
    · exact h _ (by decide) hmarker.isInfix
    · exact h _ (by decide) hmarker.isInfix

theorem not_atMarker_append {c : Char} {cs : Text} (h : ¬ AtMarker (c :: cs)) (hab : Text.Joint (c :: cs) b) :
    ¬ AtMarker (c :: cs ++ b) := by
  rw [AtMarker, not_or] at h ⊢
  exact h.imp (mt (hab.prefix_left (by decide) (by decide) (List.cons_ne_nil c cs)))
    (mt (hab.prefix_left (by decide) (by decide) (List.cons_ne_nil c cs)))

theorem append {ns : List Text} (ha : Shows a ms) (hb : Shows b ns) (hab : Text.Joint a b) :
    Shows (a ++ b) (ms ++ ns) := by
  induction ha with
  | nil => exact hb
  | @gap c text ms h _ ih =>
    exact .gap (not_atMarker_append h hab) (ih (hab.of_suffix (List.suffix_cons c text)))
  | @marker m text ms h _ ih =>
    rw [List.append_assoc, List.cons_append]
    exact .marker h (ih (hab.of_suffix (List.suffix_append m text)))

/-- A text that a marker goes across the end of has its opening angle, the text behind its closing one, and
no tag ends or begins there. -/
theorem split (h : Shows (a ++ b) ms) (hab : '<' ∉ a ∨ '>' ∉ b ∨ Text.Joint a b) :
    ∃ ns ks, ms = ns ++ ks ∧ Shows a ns ∧ Shows b ks := by
  generalize htext : a ++ b = text at h
  induction h generalizing a with
  | nil =>
    obtain ⟨rfl, rfl⟩ := List.append_eq_nil_iff.1 htext
    exact ⟨[], [], rfl, .nil, .nil⟩
  | @gap c text ms h hrest ih =>
    cases a with
    | nil =>
      rw [List.nil_append] at htext
      exact ⟨[], ms, rfl, .nil, htext ▸ .gap h hrest⟩
    | cons d a =>
      obtain ⟨rfl, rfl⟩ := List.cons.inj htext
      obtain ⟨ns, ks, rfl, ha, hb⟩ := ih (hab.imp (fun hm hc => hm (List.mem_cons_of_mem _ hc))
        (Or.imp_right fun hj => hj.of_suffix (List.suffix_cons _ a))) rfl
      refine ⟨ns, ks, rfl, .gap (fun hmarker => h ?_) ha, hb⟩
      exact hmarker.imp (·.trans (List.prefix_append (d :: a) b)) (·.trans (List.prefix_append (d :: a) b))
  | @marker m text ms h hrest ih =>
    by_cases hnil : a = []
    · rw [hnil, List.nil_append] at htext
      exact ⟨[], m :: ms, rfl, hnil ▸ .nil, htext ▸ .marker h hrest⟩
    rcases List.append_eq_append_iff.1 htext with ⟨more, rfl, rfl⟩ | ⟨more, rfl, rfl⟩
    · obtain rfl := h.eq_nil_of_append hnil hab
      rw [List.append_nil] at h
      have hlast : Shows a [a] := by simpa using Shows.marker h .nil
      exact ⟨[a], ms, by rw [List.append_nil]; rfl, hlast, hrest⟩
    · obtain ⟨ns, ks, rfl, ha, hb⟩ := ih (a := more) (hab.imp (fun hm hc => hm (List.mem_append_right m hc))
        (Or.imp_right fun hj => hj.of_suffix (List.suffix_append m more))) rfl
      exact ⟨m :: ns, ks, rfl, .marker h ha, hb⟩

/-! ### White space -/

theorem eq_nil (h : Shows text ms) (hopen : '<' ∉ text) : ms = [] := by
  induction h with
  | nil => rfl
  | gap _ _ ih => exact ih fun hm => hopen (List.mem_cons_of_mem _ hm)
  | marker h =>
    obtain ⟨front, rfl, -⟩ := h.frame
    exact absurd (List.mem_append_left _ List.mem_cons_self) hopen

theorem of_blanks {before behind : Text} (h : Shows (before ++ (text ++ behind)) ms)
    (hbefore : before.Blank) (hbehind : behind.Blank) : Shows text ms := by
  obtain ⟨_, ks, rfl, hfront, h⟩ := h.split (.inl (hbefore.not_mem (by decide)))
  obtain ⟨ns, _, rfl, h, hback⟩ := h.split (.inr (.inl (hbehind.not_mem (by decide))))
  rw [hfront.eq_nil (hbefore.not_mem (by decide)), hback.eq_nil (hbehind.not_mem (by decide)),
    List.nil_append, List.append_nil]
  exact h

theorem not_atMarker_collapse (h : ¬ AtMarker text) : ¬ AtMarker text.collapse := by
  rw [AtMarker, not_or] at h ⊢
  exact h.imp (mt (Text.prefix_of_prefix_collapse (by decide)))
    (mt (Text.prefix_of_prefix_collapse (by decide)))

theorem collapse (h : Shows text ms) : Shows text.collapse ms := by
  induction h with
  | nil => exact .nil
  | @gap c text ms h _ ih =>
    have hgap := not_atMarker_collapse h
    by_cases hc : isBlank c = true
    · cases text with
      | nil =>
        rw [Text.collapse_cons_of_blank hc (by simp)] at hgap ⊢
        exact .gap hgap ih
      | cons d text =>
        by_cases hd : isBlank d = true
        · rwa [Text.collapse_cons_cons_of_blank hc hd]
        · rw [Text.collapse_cons_of_blank hc (by simpa using hd)] at hgap ⊢
          exact .gap hgap ih
    · rw [Text.collapse_cons_of_not_blank (by simpa using hc)] at hgap ⊢
      exact .gap hgap ih
  | marker h _ ih =>
    rw [h.collapse_append]
    exact .marker h ih

theorem minifyGap (h : Shows text ms) (afterTag beforeTag : Bool) :
    Shows (Minify.minifyGap afterTag beforeTag text) ms := by
  obtain ⟨before, middle, behind, hshrinks⟩ := exists_shrinks afterTag beforeTag text
  rw [hshrinks.text_eq] at h
  rw [hshrinks.minify_eq]
  exact (h.of_blanks hshrinks.before_blank hshrinks.behind_blank).collapse

theorem minifyParts {segments : List (Segment Unit)} (h : Shows (segments.flatMap Segment.text) ms)
    (halternates : Segment.Alternates segments) (htags : ∀ value w, .hit value w ∈ segments → IsTag w)
    (afterTag : Bool) : Shows (Minify.minifyParts afterTag segments) ms := by
  induction segments generalizing ms afterTag with
  | nil => exact h
  | cons segment segments ih =>
    have hrest := fun ms (h : Shows _ ms) => ih h halternates.tail
      fun value w hw => htags value w (List.mem_cons_of_mem _ hw)
    rw [List.flatMap_cons] at h
    cases segment with
    | hit value w =>
      have htag : IsTag w := htags value w List.mem_cons_self
      obtain ⟨ns, ks, rfl, hw, hback⟩ := h.split (.inr (.inr (htag.joint_left _)))
      exact hw.append (hrest ks hback true) (htag.joint_left _)
    | gap g =>
      have hjoint : ∀ a, Text.Joint a (segments.flatMap Segment.text) ∧
          Text.Joint a (Minify.minifyParts false segments) := by
        cases segments with
        | nil => exact fun a => ⟨Text.joint_nil a, Text.joint_nil a⟩
        | cons segment segments =>
          cases segment with
          | gap more => exact Bool.noConfusion ((List.isChain_cons_cons.1 halternates).1 rfl)
          | hit value w =>
            have htag : IsTag w := htags value w (by simp)
            exact fun a => ⟨htag.joint_right a _, htag.joint_right a _⟩
      obtain ⟨ns, ks, rfl, hg, hback⟩ := h.split (.inr (.inr (hjoint g).1))
      exact (hg.minifyGap _ _).append (hrest ks hback false) (hjoint _).2

/-- **Where white space is reduced, markers stay.** -/
theorem minifySpace (h : Shows text ms) : Shows (Minify.minifySpace text) ms := by
  have hflat : (parts text).flatMap Segment.text = text := Segment.flatMap_text_ofText readTag text
  rw [← hflat] at h
  refine h.minifyParts (Segment.alternates_ofText readTag_consumes text) (fun value w hw => ?_) false
  exact isTag_of_hit_mem hw

/-! ### Comments -/

/-- What comes up at the front of a text was there before, or in front of a comment. -/
theorem exists_comment_in_front (h : w <+: removeComments text) (hnot : ¬ w <+: text) :
    ∃ front rest, front <+: w ∧ text = front ++ rest ∧ readComment rest ≠ none := by
  induction w generalizing text with
  | nil => exact absurd List.nil_prefix hnot
  | cons d w ih =>
    cases hread : readComment text with
    | some found => exact ⟨[], text, List.nil_prefix, rfl, by rw [hread]; exact Option.some_ne_none _⟩
    | none =>
      cases text with
      | nil => exact absurd h hnot
      | cons c cs =>
        rw [removeComments_cons hread, List.cons_prefix_cons] at h
        obtain ⟨rfl, hback⟩ := h
        rw [List.cons_prefix_cons, not_and] at hnot
        obtain ⟨front, rest, hfront, rfl, hrest⟩ := ih hback (hnot rfl)
        exact ⟨d :: front, rest, List.cons_prefix_cons.2 ⟨rfl, hfront⟩, rfl, hrest⟩

/-- No marker comes up where comments are taken away from a clear text. -/
theorem not_atMarker_removeComments {c : Char} {cs : Text} (hclear : Clear (c :: cs))
    (hstart : ¬ commentStart <+: c :: cs) (hb : AtTag b) (hnone : readComment b = none) :
    ¬ AtMarker (removeComments (c :: cs ++ b)) := by
  have hliteral : ∀ w ∈ [markerStart, markerEnd], w ∈ glued ∧ '<' ∉ w.tail ∧ ∀ front ∈ w.inits,
      front = [] ∨ front = w ∨ front ++ commentStart ∈ glued ∨ commentStart <+: front := by decide
  suffices h : ∀ w ∈ [markerStart, markerEnd], ¬ w <+: removeComments (c :: cs ++ b) by
    rintro (hmarker | hmarker)
    · exact h _ (by simp) hmarker
    · exact h _ (by simp) hmarker
  intro w hw hfound
  obtain ⟨hglued, htail, hfronts⟩ := hliteral w hw
  have hnot : ¬ w <+: c :: cs ++ b := fun hbegin =>
    hclear w hglued (Text.prefix_of_atTag htail hb (List.cons_ne_nil c cs) hbegin).isInfix
  obtain ⟨front, rest, hfront, htext, hrest⟩ := exists_comment_in_front hfound hnot
  have hcomment : commentStart <+: rest := by
    by_contra hfalse
    exact hrest (readComment_of_no_start hfalse)
  rcases List.append_eq_append_iff.1 htext with ⟨more, rfl, hb'⟩ | ⟨more, hmore, rfl⟩
  · cases more with
    | nil => exact hrest (by rw [← hnone, hb']; rfl)
    | cons d more =>
      obtain rfl : d = '<' := hb d (by rw [hb']; rfl)
      refine htail ?_
      obtain ⟨behind, rfl⟩ := hfront
      simp
  · by_cases hmorenil : more = []
    · rw [hmorenil, List.nil_append] at hrest
      exact hrest hnone
    have hinside := Text.prefix_of_atTag (by decide) hb hmorenil hcomment
    rcases hfronts front ((List.mem_inits _ _).2 hfront) with rfl | rfl | hmem | hbegin
    · exact hstart (by rw [hmore]; exact hinside)
    · exact hnot ⟨more ++ b, htext.symm⟩
    · refine hclear _ hmem ?_
      rw [hmore]
      exact ((List.prefix_append_right_inj front).2 hinside).isInfix
    · exact hstart (hbegin.trans ⟨more, hmore.symm⟩)

/-- A clear text shows no markers up to where it leaves a comment open. -/
theorem exists_unclosed (hclear : Clear a) : ∃ back, back <:+ a ∧
    (if Open a then commentStart <+: back ∧ readComment back = none else back = []) ∧
      ∀ b ms, AtTag b → readComment b = none → Shows (removeComments (back ++ b)) ms →
        Shows (removeComments (a ++ b)) ms := by
  induction a using Segment.reading readComment_consumes with
  | nil => exact ⟨[], List.suffix_rfl, by rw [if_neg not_open_nil], fun _ _ _ _ h => h⟩
  | gap c cs hnone ih =>
    by_cases hstart : commentStart <+: c :: cs
    · have hopen : Open (c :: cs) := (open_cons hnone).2 (.inl hstart)
      exact ⟨c :: cs, List.suffix_rfl, by rw [if_pos hopen]; exact ⟨hstart, hnone⟩, fun _ _ _ _ h => h⟩
    · have hsuffix := List.suffix_cons c cs
      obtain ⟨back, hback, hopen, hshows⟩ := ih (hclear.of_part hsuffix.isInfix)
      have hiff : Open (c :: cs) ↔ Open cs := (open_cons hnone).trans (or_iff_right hstart)
      refine ⟨back, hback.trans hsuffix, by simpa only [hiff] using hopen, fun b ms hb hb' h => ?_⟩
      have hmarker := not_atMarker_removeComments hclear hstart hb hb'
      have hread : readComment (c :: (cs ++ b)) = none := readComment_of_no_start fun hfound =>
        hstart (Text.prefix_of_atTag (by decide) hb (List.cons_ne_nil c cs) hfound)
      rw [List.cons_append, removeComments_cons hread] at hmarker ⊢
      exact .gap hmarker (hshows b ms hb hb' h)
  | hit value w rest hw hread ih =>
    have hsuffix := List.suffix_append w rest
    obtain ⟨back, hback, hopen, hshows⟩ := ih (hclear.of_part hsuffix.isInfix)
    refine ⟨back, hback.trans hsuffix, by simpa only [open_hit hw hread] using hopen, fun b ms hb hb' h => ?_⟩
    have hmore := readComment_append hread b
    rw [List.append_assoc] at hmore ⊢
    rw [removeComments_comment hw hmore]
    exact hshows b ms hb hb' h

/-- Behind a text that leaves no comment open the markers stay. -/
theorem removeComments_of_not_open (hclear : Clear a) (hopen : ¬ Open a) (hb : AtTag b)
    (hnone : readComment b = none) (h : Shows (removeComments b) ms) :
    Shows (removeComments (a ++ b)) ms := by
  obtain ⟨back, -, hback, hshows⟩ := exists_unclosed hclear
  rw [if_neg hopen] at hback
  exact hshows b ms hb hnone (by rwa [hback])

/-- Behind a text that leaves a comment open, the first end belongs to that. -/
theorem removeComments_of_open {front : Text} (hclear : Clear a) (hopen : Open a)
    (hb : AtTag (front ++ (commentEnd ++ b))) (hnone : readComment (front ++ (commentEnd ++ b)) = none)
    (hangle : '>' ∉ front) (h : Shows (removeComments b) ms) :
    Shows (removeComments (a ++ (front ++ (commentEnd ++ b)))) ms := by
  obtain ⟨back, hsuffix, hback, hshows⟩ := exists_unclosed hclear
  rw [if_pos hopen] at hback
  obtain ⟨⟨inside, rfl⟩, hback⟩ := hback
  have hread := readComment_unclosed (hclear.of_part hsuffix.isInfix) hback (.inr hb)
  rw [readUpTo?_commentEnd hangle] at hread
  obtain ⟨v, hv, htext⟩ := readComment_consumes _ _ _ hread
  refine hshows _ ms hb hnone ?_
  rw [List.append_assoc, htext]
  rw [htext] at hread
  rwa [removeComments_comment hv hread]

theorem removeComments_unclosed (hclear : Clear a) (hopen : Open a) : Shows (removeComments a) [] := by
  obtain ⟨back, hsuffix, hback, hshows⟩ := exists_unclosed hclear
  rw [if_pos hopen] at hback
  have hbackClear : Clear back := hclear.of_part hsuffix.isInfix
  obtain ⟨⟨inside, rfl⟩, hback⟩ := hback
  have hstays : removeComments (commentStart ++ inside) = commentStart ++ inside := by
    rw [removeComments, Segment.replace_eq_rewrite]
    exact Segment.rewrite_of_none fun t ht => readComment_behind_unclosed hbackClear hback ht
  have hall := hshows [] [] AtTag.nil rfl
  rw [List.append_nil, List.append_nil, hstays] at hall
  exact hall (of_clear hbackClear)

theorem removeComments_marker (hm : IsMarker m) (h : Shows (removeComments rest) ms) :
    Shows (removeComments (m ++ rest)) (m :: ms) := by
  rw [hm.removeComments_append]
  exact .marker hm h

end Shows

end Minify

end FlowTemplate
