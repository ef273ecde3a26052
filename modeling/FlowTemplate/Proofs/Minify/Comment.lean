/-
Comments and where they end. A comment that is no marker goes to the first end behind its start, and more
text behind does not undo it (`readComment_append`). A text may leave a comment open (`Open`). What is left
open at the end of a tag goes on into the text behind, up to the first end there (`open_append_iff`).
-/
import FlowTemplate.Minify.Comment
import FlowTemplate.Proofs.Select.Basic

namespace FlowTemplate

open Template (AtTag)

namespace Text

variable {w a b : Text}

/-- A literal that begins a tag, if anything does in it, is not found across the beginning of a tag. -/
theorem prefix_of_atTag (hw : '<' ∉ w.tail) (hb : AtTag b) (ha : a ≠ []) (h : w <+: a ++ b) : w <+: a := by
  rcases List.prefix_or_prefix_of_prefix h (List.prefix_append a b) with h | ⟨more, rfl⟩
  · exact h
  rw [List.prefix_append_right_inj] at h
  cases more with
  | nil => rw [List.append_nil]
  | cons c more =>
    obtain ⟨behind, rfl⟩ := h
    obtain rfl : c = '<' := hb c rfl
    rw [List.tail_append_of_ne_nil ha] at hw
    exact absurd (List.mem_append_right _ List.mem_cons_self) hw

/-- Two texts that meet where a tag or a comment ends or begins. -/
def Joint (a b : Text) : Prop := (∀ c ∈ a.getLast?, c = '>') ∨ AtTag b

theorem Joint.of_suffix {t : Text} (h : Joint a b) (ht : t <:+ a) : Joint t b := by
  refine h.imp_left fun hlast c hc => hlast c ?_
  obtain ⟨front, rfl⟩ := ht
  rw [List.getLast?_append, Option.mem_def.1 hc]
  rfl

theorem Joint.prefix_left (h : Joint a b) (hopen : '<' ∉ w.tail) (hclose : '>' ∉ w.dropLast) (ha : a ≠ [])
    (hw : w <+: a ++ b) : w <+: a := by
  rcases h with hlast | htag
  · rcases List.prefix_or_prefix_of_prefix hw (List.prefix_append a b) with hw | ⟨more, rfl⟩
    · exact hw
    cases more with
    | nil => rw [List.append_nil]
    | cons c more =>
      have hangle := hlast _ (List.getLast?_eq_getLast_of_ne_nil ha)
      refine absurd ?_ hclose
      rw [List.dropLast_append_of_ne_nil (List.cons_ne_nil c more), ← hangle]
      exact List.mem_append_left _ (List.getLast_mem ha)
  · exact prefix_of_atTag hopen htag ha hw

theorem isSome_after?_iff : (after? w a).isSome = true ↔ w <+: a := by
  rw [Option.isSome_iff_exists]
  exact exists_congr fun rest => after?_eq_some_iff.trans eq_comm

theorem after?_eq_none_iff : after? w a = none ↔ ¬ w <+: a := by
  rw [← isSome_after?_iff, Option.not_isSome_iff_eq_none]

end Text

namespace Markup

theorem readUpTo?_append_literal (literal rest : Text) :
    readUpTo? (Text.after? literal) (literal ++ rest) = some ([], rest) := by
  have hfound := Text.after?_append literal rest
  cases htext : literal ++ rest with
  | nil =>
    rw [htext] at hfound
    rw [readUpTo?, hfound]
    rfl
  | cons c cs =>
    rw [htext] at hfound
    rw [readUpTo?, hfound]

/-- More text behind a literal that was found does not undo the search. -/
theorem readUpTo?_append_of_eq_some {literal text before rest : Text}
    (h : readUpTo? (Text.after? literal) text = some (before, rest)) (more : Text) :
    readUpTo? (Text.after? literal) (text ++ more) = some (before, rest ++ more) := by
  obtain ⟨back, rfl, hback, hlacks⟩ := Text.Lacks.of_readUpTo? h
  obtain rfl := Text.after?_eq_some_iff.1 hback
  have hlong : Text.Lacks (Text.after? literal) before (literal ++ (rest ++ more)) := by
    clear h hback
    induction before with
    | nil => trivial
    | cons c before ih =>
      refine ⟨Text.after?_eq_none_iff.2 fun hbegin => ?_, ih hlacks.2⟩
      refine Text.after?_eq_none_iff.1 hlacks.1 (List.prefix_of_prefix_length_le hbegin ?_ ?_)
      · exact ⟨more, by simp⟩
      · simp only [List.length_cons, List.length_append]
        omega
  rw [List.append_assoc, List.append_assoc, hlong.readUpTo?, readUpTo?_append_literal]
  simp

end Markup

namespace Minify

open Markup

variable {text rest inside w a b : Text}

/-! ## Comments as they are read -/

def commentStart : Text := "<!--".toList

def commentEnd : Text := "-->".toList

theorem commentEnd_ne_nil : commentEnd ≠ [] := by decide

/-- The inside of a comment makes it a marker if the comment begins as one. -/
theorem isMarker_iff : isMarker inside = true ↔
    SelectMarker.markerStart <+: commentStart ++ inside ∨
      SelectMarker.markerEnd <+: commentStart ++ inside := by
  have hstart : SelectMarker.markerStart = commentStart ++ "F:".toList := by decide
  have hend : SelectMarker.markerEnd = commentStart ++ "/F-->".toList := by decide
  rw [hstart, hend, List.prefix_append_right_inj, List.prefix_append_right_inj, isMarker,
    Bool.or_eq_true, Text.isSome_after?_iff, Text.isSome_after?_iff]

theorem readComment_start (inside : Text) :
    readComment (commentStart ++ inside) = if isMarker inside then none else
      (readUpTo? (Text.after? commentEnd) inside).map fun (_, rest) => ((), rest) := by
  have hafter : Text.after? "<!--".toList (commentStart ++ inside) = some inside := Text.after?_append _ _
  rw [readComment, hafter]
  simp only [Option.bind_eq_bind, Option.bind_some, Option.map_eq_bind]
  rfl

theorem readComment_of_no_start (h : ¬ commentStart <+: text) : readComment text = none := by
  have hafter : Text.after? "<!--".toList text = none := Text.after?_eq_none_iff.2 h
  rw [readComment, hafter]
  rfl

theorem exists_of_readComment {value : Unit} (h : readComment text = some (value, rest)) :
    ∃ inside, text = commentStart ++ inside ∧ isMarker inside = false ∧
      ∃ before, readUpTo? (Text.after? commentEnd) inside = some (before, rest) := by
  by_cases hstart : commentStart <+: text
  · obtain ⟨inside, rfl⟩ := hstart
    rw [readComment_start] at h
    split at h
    · cases h
    next hmarker =>
      obtain ⟨⟨before, left⟩, hread, heq⟩ := Option.map_eq_some_iff.1 h
      cases heq
      exact ⟨inside, rfl, Bool.eq_false_iff.2 hmarker, before, hread⟩
  · rw [readComment_of_no_start hstart] at h
    cases h

theorem readUpTo?_commentEnd (h : '>' ∉ inside) (rest : Text) :
    readUpTo? (Text.after? commentEnd) (inside ++ (commentEnd ++ rest)) = some (inside, rest) := by
  have hshort : ∀ front ∈ commentEnd.inits, front ≠ [] → '>' ∉ front → ¬ commentEnd <+: front ++ commentEnd := by
    decide
  have hlacks : Text.Lacks (Text.after? commentEnd) inside (commentEnd ++ rest) := by
    refine Text.Lacks.of_suffixes fun t hne ht => Text.after?_eq_none_iff.2 fun hfound => ?_
    have hfree : '>' ∉ t := fun hm => h (ht.subset hm)
    rcases List.prefix_or_prefix_of_prefix hfound (List.prefix_append t _) with ⟨more, rfl⟩ | hfront
    · exact hfree (List.mem_append_left _ (by decide))
    · refine hshort t ((List.mem_inits _ _).2 hfront) hne hfree ?_
      refine List.prefix_of_prefix_length_le hfound ?_ (by rw [List.length_append]; omega)
      exact ⟨rest, List.append_assoc _ _ _⟩
  rw [hlacks.readUpTo?, readUpTo?_append_literal]
  simp

theorem readComment_beginsWith : readComment.BeginsWith '<' := by
  intro text value rest h
  obtain ⟨inside, rfl, -⟩ := exists_of_readComment h
  rfl

theorem readComment_consumes : readComment.Consumes := by
  intro text value rest h
  obtain ⟨inside, rfl, -, before, hread⟩ := exists_of_readComment h
  obtain ⟨back, rfl, hback⟩ := readUpTo?_eq_some hread
  obtain rfl := Text.after?_eq_some_iff.1 hback
  exact ⟨commentStart ++ (before ++ commentEnd), by simp [commentStart], by simp⟩

theorem readComment_append {value : Unit} (h : readComment text = some (value, rest)) (more : Text) :
    readComment (text ++ more) = some (value, rest ++ more) := by
  obtain ⟨inside, rfl, hmarker, before, hread⟩ := exists_of_readComment h
  obtain ⟨back, rfl, hback⟩ := readUpTo?_eq_some hread
  obtain rfl := Text.after?_eq_some_iff.1 hback
  suffices hmore : isMarker (before ++ (commentEnd ++ rest) ++ more) = false by
    rw [List.append_assoc, readComment_start, hmore, readUpTo?_append_of_eq_some hread]
    rfl
  -- A text with the end of a comment in it is no part of the front of a marker.
  have hshort : ∀ literal ∈ ["F:".toList, "/F-->".toList], ∀ front ∈ literal.inits,
      commentEnd <:+: front → front = literal := by decide
  have hbegin : ∀ literal ∈ ["F:".toList, "/F-->".toList],
      literal <+: before ++ (commentEnd ++ rest) ++ more → literal <+: before ++ (commentEnd ++ rest) := by
    intro literal hliteral hfound
    rcases List.prefix_or_prefix_of_prefix hfound (List.prefix_append _ more) with hfound | hfound
    · exact hfound
    · rw [hshort literal hliteral _ ((List.mem_inits _ _).2 hfound) ⟨before, rest, by simp⟩]
  rw [isMarker, Bool.or_eq_false_iff] at hmarker ⊢
  simp only [← Bool.not_eq_true, Text.isSome_after?_iff] at hmarker ⊢
  exact hmarker.imp (mt (hbegin _ (by simp))) (mt (hbegin _ (by simp)))

theorem removeComments_cons {c : Char} {cs : Text} (h : readComment (c :: cs) = none) :
    removeComments (c :: cs) = c :: removeComments cs := by
  simp only [removeComments, Segment.replace_eq_rewrite]
  exact Segment.rewrite_cons h

theorem removeComments_comment {value : Unit} (hw : w ≠ []) (h : readComment (w ++ rest) = some (value, rest)) :
    removeComments (w ++ rest) = removeComments rest := by
  simp only [removeComments, Segment.replace_eq_rewrite]
  exact Segment.rewrite_hit hw h

/-! ## Comments left open -/

/-- Whether a text leaves a comment open: it has the start of one outside of its comments. -/
def Open (text : Text) : Prop :=
  ∃ segment ∈ Segment.ofText readComment text, segment.isGap = true ∧ commentStart <:+: segment.text

instance decidableOpen : Decidable (Open text) :=
  inferInstanceAs (Decidable (∃ segment ∈ Segment.ofText readComment text,
    segment.isGap = true ∧ commentStart <:+: segment.text))

theorem not_open_nil : ¬ Open [] := by
  rintro ⟨segment, hmem, -⟩
  cases hmem

theorem open_hit {value : Unit} (hw : w ≠ []) (h : readComment (w ++ rest) = some (value, rest)) :
    Open (w ++ rest) ↔ Open rest := by
  rw [Open, Segment.ofText_hit hw h, Open]
  simp [Segment.isGap]

theorem head?_of_hit_mem {value : Unit} (h : Segment.hit value w ∈ Segment.ofText readComment text) :
    w.head? = some '<' := by
  obtain ⟨front, rest, -, hread⟩ := Segment.of_hit_mem readComment_consumes h
  have hne : w ≠ [] := Segment.text_ne_nil readComment_consumes text _ h
  rw [← List.head?_append_of_ne_nil w hne]
  exact readComment_beginsWith _ _ _ hread

/-- Segments that do not begin with a gap are none, or begin with a comment. -/
theorem atTag_of_segments {segments : List (Segment Unit)} (front : List (Segment Unit))
    (h : Segment.ofText readComment text = front ++ segments)
    (hgap : ∀ segment ∈ segments.head?, segment.isGap = false) :
    AtTag (segments.flatMap Segment.text) := by
  cases segments with
  | nil => exact AtTag.nil
  | cons segment segments =>
    cases segment with
    | gap g => exact Bool.noConfusion (hgap _ rfl)
    | hit value w =>
      have hmem : Segment.hit value w ∈ Segment.ofText readComment text := by rw [h]; simp
      have hne : w ≠ [] := Segment.text_ne_nil readComment_consumes text _ hmem
      intro c hc
      rw [List.flatMap_cons, Segment.text, List.head?_append_of_ne_nil _ hne,
        head?_of_hit_mem hmem] at hc
      exact (Option.some.inj hc).symm

theorem open_cons {c : Char} {cs : Text} (h : readComment (c :: cs) = none) :
    Open (c :: cs) ↔ commentStart <+: c :: cs ∨ Open cs := by
  have hsingle : ¬ commentStart <:+: [c] := fun hc => absurd hc.length_le (by simp [commentStart])
  have hflat := Segment.flatMap_text_ofText readComment cs
  have halternates := Segment.alternates_ofText readComment_consumes cs
  rw [Open, Segment.ofText_cons h, Open]
  cases hcs : Segment.ofText readComment cs with
  | nil =>
    obtain rfl : cs = [] := by rw [← hflat, hcs]; rfl
    simpa [Segment.consGap, Segment.isGap, Segment.text, hsingle] using mt List.IsPrefix.isInfix hsingle
  | cons segment segments =>
    rw [hcs] at hflat halternates
    cases segment with
    | hit value w =>
      have hfront : ¬ commentStart <+: c :: cs := by
        intro hc
        have htag : AtTag cs := hflat ▸ atTag_of_segments [] hcs (by simp [Segment.isGap])
        exact hsingle (Text.prefix_of_atTag (by decide) htag (List.cons_ne_nil c []) hc).isInfix
      simp [Segment.consGap, Segment.isGap, Segment.text, hsingle, hfront]
    | gap g =>
      have htag : AtTag (segments.flatMap Segment.text) := by
        refine atTag_of_segments [.gap g] hcs fun segment hs => ?_
        obtain ⟨more, rfl⟩ := List.head?_eq_some_iff.1 hs
        exact (List.isChain_cons_cons.1 halternates).1 rfl
      have hfront : commentStart <+: c :: cs ↔ commentStart <+: c :: g := by
        rw [← hflat, List.flatMap_cons, Segment.text, ← List.cons_append]
        exact ⟨Text.prefix_of_atTag (by decide) htag (List.cons_ne_nil c g),
          fun hg => hg.trans (List.prefix_append _ _)⟩
      simp [Segment.consGap, Segment.isGap, Segment.text, hfront, List.infix_cons_iff, or_assoc]

/-! ## Open comments and more text -/

/-- The markers of loops, and what becomes one of them if a comment is taken away. -/
def glued : List Text :=
  [SelectMarker.markerStart, SelectMarker.markerEnd, '<' :: commentStart, "<!".toList ++ commentStart,
    "<!-".toList ++ commentStart]

/-- A text without markers of loops, and without a comment behind the front of a tag, where taking the
comment away could make one. -/
def Clear (text : Text) : Prop := ∀ w ∈ glued, ¬ w <:+: text

instance decidableClear : Decidable (Clear text) :=
  inferInstanceAs (Decidable (∀ w ∈ glued, ¬ w <:+: text))

theorem Clear.of_part (h : Clear b) (hab : a <:+: b) : Clear a := fun w hw hwa => h w hw (hwa.trans hab)

/-- Two clear texts that meet at a tag are clear, if no comment begins the second behind a text. -/
theorem Clear.append (ha : Clear a) (hb : Clear b) (hab : Text.Joint a b)
    (hcomment : commentStart <+: b → ∀ c ∈ a.getLast?, c = '>') : Clear (a ++ b) := by
  have hclose : ∀ w ∈ glued, '>' ∉ w.dropLast := by decide
  have hopen : ∀ w ∈ glued, ∀ g ∈ w.tail.tails, g.head? = some '<' → g = commentStart := by decide
  intro w hw hwithin
  rcases List.infix_append_iff_ne_nil.1 hwithin with
    hwithin | hwithin | ⟨front, back, hfront, hback, rfl, hsuffix, hbegin⟩
  · exact ha w hw hwithin
  · exact hb w hw hwithin
  have hlast : ∀ c ∈ a.getLast?, c = '>' := by
    refine hab.elim id fun htag => hcomment ?_
    obtain ⟨c, cs, rfl⟩ := List.exists_cons_of_ne_nil hback
    rwa [← hopen _ hw (c :: cs)]
    · rw [List.mem_tails, List.tail_append_of_ne_nil hfront]
      exact List.suffix_append _ _
    · obtain ⟨behind, rfl⟩ := hbegin
      exact congrArg some (htag c rfl)
  refine hclose _ hw ?_
  obtain ⟨before, rfl⟩ := hsuffix
  have hangle := hlast (front.getLast hfront) (by
    rw [List.getLast?_append_of_ne_nil _ hfront]; exact List.getLast?_eq_getLast_of_ne_nil hfront)
  rw [List.dropLast_append_of_ne_nil hback, ← hangle]
  exact List.mem_append_left _ (List.getLast_mem hfront)

theorem Clear.isMarker (h : Clear (commentStart ++ inside)) : isMarker inside = false := by
  rw [Bool.eq_false_iff, Ne, isMarker_iff]
  rintro (hmarker | hmarker)
  · exact h _ (by decide) hmarker.isInfix
  · exact h _ (by decide) hmarker.isInfix

theorem open_append_of_not (h : ¬ Open a) (hab : Text.Joint a b) : Open (a ++ b) ↔ Open b := by
  induction a using Segment.reading readComment_consumes with
  | nil => rfl
  | gap c cs hnone ih =>
    rw [open_cons hnone, not_or] at h
    have hstart : ¬ commentStart <+: c :: cs ++ b := fun hfound =>
      h.1 (hab.prefix_left (by decide) (by decide) (List.cons_ne_nil c cs) hfound)
    rw [List.cons_append] at hstart ⊢
    rw [open_cons (readComment_of_no_start hstart), ih h.2 (hab.of_suffix (List.suffix_cons c cs))]
    exact or_iff_right hstart
  | hit value w rest hw hread ih =>
    have hmore := readComment_append hread b
    rw [open_hit hw hread] at h
    rw [List.append_assoc] at hmore ⊢
    rw [open_hit hw hmore, ih h (hab.of_suffix (List.suffix_append w rest))]

/-- Whether a comment that was open in front of the text is open behind it, or another one is. -/
def StaysOpen (text : Text) : Prop :=
  ∀ found ∈ readUpTo? (Text.after? commentEnd) text, Open found.2

theorem lacks_commentEnd (hab : Text.Joint a b) (h : readUpTo? (Text.after? commentEnd) a = none) :
    Text.Lacks (Text.after? commentEnd) a b := by
  refine Text.Lacks.of_suffixes fun t hne ht => Text.after?_eq_none_iff.2 fun hfound => ?_
  obtain ⟨behind, rfl⟩ := (hab.of_suffix ht).prefix_left (by decide) (by decide) hne hfound
  obtain ⟨front, rfl⟩ := ht
  obtain ⟨before, rest, hread, -⟩ :=
    readUpTo?_of_append commentEnd_ne_nil front behind
  rw [hread] at h
  cases h

theorem readUpTo?_unclosed (hclear : Clear (commentStart ++ inside))
    (hnone : readComment (commentStart ++ inside) = none) :
    readUpTo? (Text.after? commentEnd) inside = none := by
  rw [readComment_start, hclear.isMarker] at hnone
  exact Option.map_eq_none_iff.1 hnone

/-- Such a comment goes up to the first end in what follows. -/
theorem readComment_unclosed (hclear : Clear (commentStart ++ inside))
    (hnone : readComment (commentStart ++ inside) = none) (hab : Text.Joint (commentStart ++ inside) b) :
    readComment (commentStart ++ (inside ++ b)) =
      (readUpTo? (Text.after? commentEnd) b).map fun (_, rest) => ((), rest) := by
  have hliteral : ∀ w ∈ glued, '<' ∉ w.tail → ¬ w <+: commentStart ++ inside ++ b := by
    intro w hw hopen hfound
    have hclose : ∀ w ∈ glued, '>' ∉ w.dropLast := by decide
    exact hclear w hw (hab.prefix_left hopen (hclose w hw) (by simp [commentStart]) hfound).isInfix
  have hmarker : isMarker (inside ++ b) = false := by
    rw [Bool.eq_false_iff, Ne, isMarker_iff, ← List.append_assoc]
    exact not_or.2 ⟨hliteral _ (by decide) (by decide), hliteral _ (by decide) (by decide)⟩
  have hsearch := lacks_commentEnd (hab.of_suffix (List.suffix_append _ _)) (readUpTo?_unclosed hclear hnone)
  rw [readComment_start, hmarker, hsearch.readUpTo?, if_neg Bool.false_ne_true, Option.map_map]
  rfl

theorem readComment_behind_unclosed {t : Text} (hclear : Clear (commentStart ++ inside))
    (hnone : readComment (commentStart ++ inside) = none) (ht : t <:+ commentStart ++ inside) :
    readComment t = none := by
  rw [Option.eq_none_iff_forall_not_mem]
  rintro ⟨value, rest⟩ hread
  obtain ⟨behind, rfl, -, before, hend⟩ := exists_of_readComment hread
  obtain ⟨back, rfl, hback⟩ := readUpTo?_eq_some hend
  obtain rfl := Text.after?_eq_some_iff.1 hback
  have hbehind : before ++ (commentEnd ++ rest) <:+ inside := by
    refine List.suffix_of_suffix_length_le ((List.suffix_append _ _).trans ht) (List.suffix_append _ _) ?_
    have hlength := ht.length_le
    simp only [List.length_append] at hlength ⊢
    omega
  obtain ⟨front, rfl⟩ := hbehind
  obtain ⟨found, left, hfound, -⟩ := readUpTo?_of_append commentEnd_ne_nil (front ++ before) rest
  rw [List.append_assoc, readUpTo?_unclosed hclear hnone] at hfound
  cases hfound

theorem open_append_of_open (h : Open a) (hclear : Clear a) (hab : Text.Joint a b) :
    Open (a ++ b) ↔ StaysOpen b := by
  induction a using Segment.reading readComment_consumes with
  | nil => exact absurd h not_open_nil
  | gap c cs hnone ih =>
    by_cases hstart : commentStart <+: c :: cs
    · obtain ⟨inside, hinside⟩ := hstart
      rw [← hinside] at hnone hclear hab ⊢
      have hread := readComment_unclosed hclear hnone hab
      rw [StaysOpen, List.append_assoc]
      cases hfound : readUpTo? (Text.after? commentEnd) b with
      | none =>
        rw [hfound] at hread
        have hopen : Open (commentStart ++ (inside ++ b)) := (open_cons hread).2 (.inl (List.prefix_append _ _))
        exact iff_of_true hopen nofun
      | some found =>
        rw [hfound] at hread
        obtain ⟨v, hv, htext⟩ := readComment_consumes _ _ _ hread
        rw [htext] at hread ⊢
        rw [open_hit hv hread]
        simp
    · rw [open_cons hnone, or_iff_right hstart] at h
      have hmore : ¬ commentStart <+: c :: (cs ++ b) := fun hfound =>
        hstart (hab.prefix_left (by decide) (by decide) (List.cons_ne_nil c cs) hfound)
      have hsuffix := List.suffix_cons c cs
      rw [List.cons_append, open_cons (readComment_of_no_start hmore), or_iff_right hmore,
        ih h (hclear.of_part hsuffix.isInfix) (hab.of_suffix hsuffix)]
  | hit value w rest hw hread ih =>
    have hmore := readComment_append hread b
    have hsuffix := List.suffix_append w rest
    rw [open_hit hw hread] at h
    rw [List.append_assoc] at hmore ⊢
    rw [open_hit hw hmore, ih h (hclear.of_part hsuffix.isInfix) (hab.of_suffix hsuffix)]

/-- **Behind two texts a comment is open** if the second leaves one open, or an open one goes on in it. -/
theorem open_append_iff (ha : Clear a) (hab : Text.Joint a b) :
    Open (a ++ b) ↔ if Open a then StaysOpen b else Open b := by
  split
  next h => exact open_append_of_open h ha hab
  next h => exact open_append_of_not h hab

theorem removeComments_append (h : ¬ Open a) (hab : Text.Joint a b) :
    removeComments (a ++ b) = removeComments a ++ removeComments b := by
  induction a using Segment.reading readComment_consumes with
  | nil => rfl
  | gap c cs hnone ih =>
    rw [open_cons hnone, not_or] at h
    have hmore : readComment (c :: (cs ++ b)) = none := readComment_of_no_start fun hfound =>
      h.1 (hab.prefix_left (by decide) (by decide) (List.cons_ne_nil c cs) hfound)
    rw [List.cons_append, removeComments_cons hmore, ih h.2 (hab.of_suffix (List.suffix_cons c cs)),
      removeComments_cons hnone, List.cons_append]
  | hit value w rest hw hread ih =>
    have hmore := readComment_append hread b
    rw [open_hit hw hread] at h
    rw [List.append_assoc] at hmore ⊢
    rw [removeComments_comment hw hmore, ih h (hab.of_suffix (List.suffix_append w rest)),
      removeComments_comment hw hread]

/-! ### Texts without dashes -/

theorem clear_of_no_dash (h : '-' ∉ text) : Clear text := by
  have hdash : ∀ w ∈ glued, '-' ∈ w := by decide
  exact fun w hw hwithin => h (hwithin.subset (hdash w hw))

theorem not_open_of_no_dash (h : '-' ∉ text) : ¬ Open text := by
  rintro ⟨segment, hmem, -, hstart⟩
  exact Segment.not_mem_of_mem h hmem (hstart.subset (by decide))

theorem staysOpen_of_no_dash (h : '-' ∉ text) : StaysOpen text := by
  have hnone : readUpTo? (Text.after? commentEnd) text = none :=
    readUpTo?_eq_none fun back hback => Text.after?_eq_none_iff.2 fun hfound =>
      h (hback.subset (hfound.subset (by decide)))
  rw [StaysOpen, hnone]
  exact nofun

end Minify

end FlowTemplate
