/-
More text behind a loop does not undo it (`readLoop_more`), so a text with a loop in it is never left as it
is when loops are marked in it and in what follows (`not_prefix_markLoops`).
-/
import FlowTemplate.Proofs.Select.Loops

namespace FlowTemplate

open Markup

namespace Text

theorem dropWhile_more {p : Char → Bool} {text : Text} (h : text.dropWhile p ≠ []) (more : Text) :
    (text ++ more).dropWhile p = text.dropWhile p ++ more := by
  rw [List.dropWhile_append, if_neg (by simpa using h)]

theorem takeWhile_more {p : Char → Bool} {text : Text} (h : text.dropWhile p ≠ []) (more : Text) :
    (text ++ more).takeWhile p = text.takeWhile p := by
  rw [List.takeWhile_append, if_neg fun hlength => h ?_]
  have hall := congrArg List.length (List.takeWhile_append_dropWhile (p := p) (l := text))
  rw [List.length_append, hlength] at hall
  exact List.length_eq_zero_iff.1 (by omega)

theorem afterBlanks?_more {text rest : Text} (h : afterBlanks? text = some rest) (hne : rest ≠ [])
    (more : Text) : afterBlanks? (text ++ more) = some (rest ++ more) := by
  cases text with
  | nil => cases h
  | cons c cs =>
    rw [afterBlanks?] at h
    rw [List.cons_append, afterBlanks?]
    split at h
    next hc =>
      cases h
      rw [if_pos hc, trimStart, dropWhile_more hne]
      rfl
    next => cases h

theorem after?_more {literal text rest : Text} (h : after? literal text = some rest) (more : Text) :
    after? literal (text ++ more) = some (rest ++ more) := by
  rw [after?_eq_some_iff.1 h, List.append_assoc, after?_append]

theorem after?_trimStart_more {c : Char} {text rest : Text}
    (h : after? [c] text.trimStart = some rest) (more : Text) :
    after? [c] (trimStart (text ++ more)) = some (rest ++ more) := by
  have hne : text.dropWhile isBlank ≠ [] := by
    have htrim : text.trimStart = c :: rest := after?_eq_some_iff.1 h
    rw [trimStart] at htrim
    exact htrim ▸ List.cons_ne_nil c rest
  rw [trimStart, dropWhile_more hne]
  exact after?_more h more

/-- What a text lacks before a text it also lacks before the front of that, if more text behind does not
undo what is read. -/
theorem Lacks.shorten {α : Type} {read : Text → Option α}
    (hread : ∀ text rest : Text, read (text ++ rest) = none → read text = none) {text front rest : Text}
    (h : Lacks read text (front ++ rest)) : Lacks read text front := by
  induction text with
  | nil => trivial
  | cons c text ih =>
    rw [Lacks, ← List.append_assoc, ← List.cons_append] at h
    exact ⟨hread _ _ h.1, ih h.2⟩

end Text

namespace SelectMarker

theorem readUntil?_more {c : Char} {text before after : Text}
    (h : readUntil? c text = some (before, after)) (more : Text) :
    readUntil? c (text ++ more) = some (before, after ++ more) := by
  obtain ⟨rfl, hfree⟩ := readUntil?_eq_some_iff.1 h
  exact readUntil?_eq_some_iff.2 ⟨by simp, hfree⟩

theorem afterAnyCase?_more {letters text rest : Text} (h : afterAnyCase? letters text = some rest)
    (more : Text) : afterAnyCase? letters (text ++ more) = some (rest ++ more) := by
  obtain ⟨name, hname, rfl⟩ := afterAnyCase?_eq_some h
  rw [List.append_assoc, afterAnyCase?_append hname]

theorem ne_nil_of_afterAnyCase? {letter : Char} {letters text rest : Text}
    (h : afterAnyCase? (letter :: letters) text = some rest) : text ≠ [] := by
  rintro rfl
  cases h

theorem readUpTo?_closing_more {text before after : Text}
    (h : readUpTo? afterClosing? text = some (before, after)) (more : Text) :
    readUpTo? afterClosing? (text ++ more) = some (before, after ++ more) := by
  obtain ⟨back, rfl, hback, hlacks⟩ := Text.Lacks.of_readUpTo? h
  obtain ⟨tail, rfl⟩ : ∃ tail, back = '<' :: tail := List.head?_eq_some_iff.1 <| by
    by_contra hhead
    rw [afterClosing?_of_tag (afterTag?_opensWith _ hhead)] at hback
    cases hback
  have hfound : afterClosing? ('<' :: (tail ++ more)) = some (after ++ more) := afterAnyCase?_more hback more
  have hletters : ∀ letter ∈ "/ng-container>".toList, isLetter letter '<' = false := by decide
  have hlacks : Text.Lacks afterClosing? before ('<' :: (tail ++ more)) :=
    (hlacks.left fun _ _ => afterAnyCase?_left).before (afterAnyCase?_stopsAt hletters) _
  have hread : readUpTo? afterClosing? ('<' :: (tail ++ more)) = some ([], after ++ more) := by
    rw [readUpTo?, hfound]
  rw [List.append_assoc, List.cons_append, hlacks.readUpTo?, hread]
  simp

theorem readLoop_more {text rest : Text} {loop : LoopElement} (h : readLoop text = some (loop, rest))
    (more : Text) : readLoop (text ++ more) = some (loop, rest ++ more) := by
  simp only [readLoop, Option.bind_eq_bind, Option.bind_eq_some_iff] at h
  obtain ⟨tag, htag, gap, hgap, directive, hdirective, sign, hsign, quote, hquote, binder, hbinder, named,
    hnamed, h⟩ := h
  split at h
  next => cases h
  next hitem =>
    simp only [Option.bind_eq_some_iff] at h
    obtain ⟨word, hword, source, hsource, ⟨inside, left⟩, hinside, iterable, hiterable, ⟨between, body⟩,
      hangle, ⟨content, back⟩, hbody, h⟩ := h
    cases h
    have hbehind : named.dropWhile isWord ≠ [] := by
      intro hnil
      rw [hnil] at hword
      cases hword
    have hnamed' := Text.afterBlanks?_more hnamed (fun hnil => hbehind (by rw [hnil]; rfl)) more
    have hitem' : ¬ ((named ++ more).takeWhile isWord).isEmpty = true := by
      rwa [Text.takeWhile_more hbehind]
    have hword' : Text.afterBlanks? ((named ++ more).dropWhile isWord) = some (word ++ more) := by
      rw [Text.dropWhile_more hbehind]
      exact Text.afterBlanks?_more hword (ne_nil_of_afterAnyCase? hsource) more
    have hbody' := readUpTo?_closing_more hbody more
    rw [afterClosing?] at hbody'
    simp only [readLoop, Option.bind_eq_bind, afterAnyCase?_more htag more,
      Text.afterBlanks?_more hgap (ne_nil_of_afterAnyCase? hdirective) more, afterAnyCase?_more hdirective more,
      Text.after?_trimStart_more hsign more, Text.after?_trimStart_more hquote more,
      afterAnyCase?_more hbinder more, hnamed', if_neg hitem', hword', afterAnyCase?_more hsource more,
      readUntil?_more hinside more, hiterable, readUntil?_more hangle more, hbody', Option.bind_some]
    rw [Text.takeWhile_more hbehind]

theorem readLoop_left {text rest : Text} (h : readLoop (text ++ rest) = none) : readLoop text = none := by
  rw [Option.eq_none_iff_forall_not_mem]
  rintro ⟨loop, left⟩ hread
  rw [readLoop_more hread rest] at h
  cases h

theorem not_prefix_markLoops {text : Text} (h : ¬ Text.Lacks readLoop text []) (rest tail : Text) :
    ¬ text <+: markLoops (text ++ rest) ++ tail := by
  induction text with
  | nil => exact absurd trivial h
  | cons c text ih =>
    rw [List.cons_append]
    cases hread : readLoop (c :: (text ++ rest)) with
    | none =>
      have hleft : readLoop (c :: (text ++ [])) = none := by
        rw [← List.cons_append] at hread
        rw [List.append_nil, readLoop_left hread]
      have hlacks : ¬ Text.Lacks readLoop text [] := fun hlacks => h ⟨hleft, hlacks⟩
      have hfirst : markLoops (c :: (text ++ rest)) = c :: markLoops (text ++ rest) := by
        rw [markLoops_eq_rewrite, Segment.rewrite_cons hread, ← markLoops_eq_rewrite]
      rw [hfirst, List.cons_append]
      exact fun hprefix => ih hlacks (List.cons_prefix_cons.1 hprefix).2
    | some found =>
      obtain ⟨loop, left⟩ := found
      obtain ⟨opening, inside, closing, hopening, -, -, htext⟩ := readLoop_eq_some hread
      obtain ⟨d, ds, rfl, hd⟩ := hopening.opens_tag
      have hmarker : ∃ marker, markLoop loop = '<' :: '!' :: marker := ⟨_, rfl⟩
      obtain ⟨marker, hmarker⟩ := hmarker
      rw [markLoops_of_read hread, hmarker]
      cases text with
      | nil =>
        have hone : readLoop [c] = none := by
          rw [Option.eq_none_iff_forall_not_mem]
          rintro ⟨other, back⟩ hother
          obtain ⟨opening, _, _, hopening, -, -, heq⟩ := readLoop_eq_some hother
          obtain ⟨_, _, rfl, -⟩ := hopening.opens_tag
          cases heq
        exact fun _ => h ⟨hone, trivial⟩
      | cons e text =>
        intro hprefix
        obtain ⟨-, hprefix⟩ := List.cons_prefix_cons.1 hprefix
        obtain ⟨rfl, -⟩ := List.cons_prefix_cons.1 hprefix
        exact hd (List.cons.inj (List.cons.inj htext).2).1.symm

end SelectMarker

end FlowTemplate
