/-
Partners of delimiters. The partner of an opening delimiter is told by counting alone: up to it a text has
opened more groups of the kind than it has closed, and with it as many. The search for the end of a group
finds the partner and nothing else (`findClosing_partner`), so groups of one kind lie inside each other,
and what stands in front of a group or behind it has no part in where the group ends.
-/
import FlowTemplate.Proofs.Translation
import Mathlib.Combinatorics.Enumerative.DyckWord

namespace FlowTemplate

theorem Text.exists_eq_append_cons {text : Text} {index : Nat} {c : Char} (h : text[index]? = some c) :
    ∃ front back, text = front ++ c :: back ∧ front.length = index := by
  obtain ⟨hlt, rfl⟩ := List.getElem?_eq_some_iff.1 h
  refine ⟨text.take index, text.drop (index + 1), ?_, List.length_take_of_le (Nat.le_of_lt hlt)⟩
  rw [List.getElem_cons_drop, List.take_append_drop]

theorem Text.slice_append_cons (front : Text) (c : Char) (back : Text) (n : Nat) :
    (front ++ c :: back).slice front.length (front.length + 1 + n) = c :: back.take n := by
  have hslice := Text.slice_append front (c :: back) 0 (n + 1)
  rw [Nat.add_zero, ← Nat.add_assoc, Nat.add_right_comm] at hslice
  rw [hslice]
  rfl

theorem Text.slice_between (front inside rest : Text) (c d : Char) :
    (front ++ c :: (inside ++ d :: rest)).slice (front.length + 1) (front.length + 1 + inside.length) =
      inside := by
  have hslice := Text.slice_middle (front ++ [c]) inside (d :: rest)
  rwa [List.length_append, List.length_singleton, List.append_assoc, List.singleton_append] at hslice

namespace Delimiter

variable {kind : Delimiter} {text front back : Text} {index closing : Nat}

/-! ## Balanced words -/

/-- What a character counts for in the nesting of groups. Characters that are no delimiter of the kind
count for nothing. -/
def step? (kind : Delimiter) (c : Char) : Option DyckStep :=
  if c = kind.opener then some .U else if c = kind.closer then some .D else none

theorem step?_eq_up_iff {c : Char} : kind.step? c = some .U ↔ c = kind.opener := by
  unfold step?
  split
  · simp_all
  · split <;> simp_all

theorem step?_eq_down_iff {c : Char} : kind.step? c = some .D ↔ c = kind.closer := by
  unfold step?
  split
  next h => simp [h]
  next => split <;> simp_all

theorem count_up (kind : Delimiter) (text : Text) :
    (text.filterMap kind.step?).count .U = text.count kind.opener := by
  rw [List.count_filterMap, List.count_eq_countP]
  refine List.countP_congr fun c _ => ?_
  rw [beq_iff_eq, beq_iff_eq, step?_eq_up_iff]

theorem count_down (kind : Delimiter) (text : Text) :
    (text.filterMap kind.step?).count .D = text.count kind.closer := by
  rw [List.count_filterMap, List.count_eq_countP]
  refine List.countP_congr fun c _ => ?_
  rw [beq_iff_eq, beq_iff_eq, step?_eq_down_iff]

/-- A text is balanced if its delimiters of the kind are a balanced word, all other characters left
out. -/
theorem balanced_iff_exists_dyckWord :
    kind.Balanced text ↔ ∃ word : DyckWord, word.toList = text.filterMap kind.step? := by
  constructor
  · intro h
    refine ⟨⟨text.filterMap kind.step?, by rw [count_up, count_down, h.closed], fun n => ?_⟩, rfl⟩
    -- The first steps of the word are the delimiters of a front of the text.
    obtain ⟨first, second, rfl, hfirst, -⟩ := List.filterMap_eq_append_iff.1
      (List.take_append_drop n (text.filterMap kind.step?)).symm
    rw [← hfirst, count_up, count_down]
    exact h.never_below first (List.prefix_append _ _)
  · rintro ⟨word, hword⟩
    refine ⟨?_, ?_⟩
    · rw [← count_up, ← count_down, ← hword, word.count_U_eq_count_D]
    · rintro first ⟨second, rfl⟩
      have htake : word.toList.take (first.filterMap kind.step?).length =
          first.filterMap kind.step? := by
        rw [hword, List.filterMap_append, List.take_left]
      have hcount := word.count_D_le_count_U (first.filterMap kind.step?).length
      rwa [htake, count_up, count_down] at hcount

/-! ## Partners -/

/-- Two offsets are those of an opening delimiter and its partner: the text from the one to the other,
both with it, opens as often as it closes, and each shorter text from the first one on opens more often
than it closes. -/
structure Partners (kind : Delimiter) (text : Text) (index closing : Nat) : Prop where
  behind : index < closing
  inside : closing < text.length
  even : (text.slice index (closing + 1)).count kind.opener =
    (text.slice index (closing + 1)).count kind.closer
  ahead : ∀ stop, index < stop → stop ≤ closing →
    (text.slice index stop).count kind.closer < (text.slice index stop).count kind.opener

instance : Decidable (kind.Partners text index closing) :=
  decidable_of_iff
    (index < closing ∧ closing < text.length ∧
      (text.slice index (closing + 1)).count kind.opener =
        (text.slice index (closing + 1)).count kind.closer ∧
      ∀ stop < closing + 1, index < stop →
        (text.slice index stop).count kind.closer < (text.slice index stop).count kind.opener)
    ⟨fun ⟨hbehind, hinside, heven, hahead⟩ => ⟨hbehind, hinside, heven, fun stop hlt hle =>
        hahead stop (Nat.lt_succ_of_le hle) hlt⟩,
      fun h => ⟨h.behind, h.inside, h.even, fun stop hle hlt =>
        h.ahead stop hlt (Nat.le_of_lt_succ hle)⟩⟩

theorem Balanced.partners {inside : Text} (h : kind.Balanced inside) (front rest : Text) :
    kind.Partners (front ++ kind.opener :: (inside ++ kind.closer :: rest)) front.length
      (front.length + 1 + inside.length) := by
  have hslice := Text.slice_append_cons front kind.opener (inside ++ kind.closer :: rest)
  refine ⟨by omega, by simp only [List.length_append, List.length_cons]; omega, ?_, ?_⟩
  · have htake : (inside ++ kind.closer :: rest).take (inside.length + 1) = inside ++ [kind.closer] := by
      rw [List.take_length_add_append]
      rfl
    rw [Nat.add_assoc _ inside.length 1, hslice, htake]
    simp [List.count_append, h.closed]
  · intro stop hlt hle
    obtain ⟨n, rfl⟩ : ∃ n, stop = front.length + 1 + n := Nat.exists_eq_add_of_le hlt
    rw [hslice, List.take_append_of_le_length (by omega)]
    have := h.never_below _ (inside.take_prefix n)
    simp only [List.count_cons, beq_iff_eq, opener_ne_closer, reduceIte, Nat.add_zero]
    omega

/-- Behind an opener the partner is the closer in front of which the text is balanced. -/
theorem partners_iff :
    kind.Partners (front ++ kind.opener :: back) front.length closing ↔
      ∃ inside rest, back = inside ++ kind.closer :: rest ∧ kind.Balanced inside ∧
        closing = front.length + 1 + inside.length := by
  have hslice := Text.slice_append_cons front kind.opener back
  constructor
  · intro h
    obtain ⟨n, rfl⟩ : ∃ n, closing = front.length + 1 + n := Nat.exists_eq_add_of_le h.behind
    have hlt : n < back.length := by
      have := h.inside
      simp only [List.length_append, List.length_cons] at this
      omega
    have hahead : ∀ m ≤ n, (back.take m).count kind.closer ≤ (back.take m).count kind.opener := by
      intro m hm
      have := h.ahead (front.length + 1 + m) (by omega) (by omega)
      rw [hslice] at this
      simpa [List.count_cons, Nat.lt_succ_iff] using this
    have heven := h.even
    rw [Nat.add_assoc _ n 1, hslice, List.take_succ_eq_append_getElem hlt] at heven
    simp only [List.count_cons, List.count_append, List.count_nil, Nat.zero_add, beq_iff_eq,
      opener_ne_closer, reduceIte, Nat.add_zero] at heven
    have hcount := hahead n (Nat.le_refl n)
    have hcloser : back[n] = kind.closer := by
      by_contra hne
      rw [if_neg hne] at heven
      omega
    rw [hcloser, if_neg closer_ne_opener, if_pos rfl] at heven
    refine ⟨back.take n, back.drop (n + 1), ?_, ⟨by omega, ?_⟩, ?_⟩
    · rw [← hcloser, List.getElem_cons_drop, List.take_append_drop]
    · intro first hfirst
      have hle := hfirst.length_le
      rw [List.length_take] at hle
      rw [List.prefix_iff_eq_take.1 hfirst, List.take_take]
      exact hahead _ (by omega)
    · rw [List.length_take_of_le (Nat.le_of_lt hlt)]
  · rintro ⟨inside, rest, rfl, hbalanced, rfl⟩
    exact hbalanced.partners front rest

theorem Partners.opener_at (h : kind.Partners text index closing) :
    text[index]? = some kind.opener := by
  have hlt : index < text.length := Nat.lt_trans h.behind h.inside
  obtain ⟨front, back, htext, hfront⟩ :=
    Text.exists_eq_append_cons (List.getElem?_eq_getElem hlt)
  have hfirst := h.ahead (index + 1) (Nat.lt_succ_self index) h.behind
  have hslice := Text.slice_append_cons front text[index] back 0
  rw [← htext, hfront, Nat.add_zero, List.take_zero] at hslice
  rw [hslice] at hfirst
  have hopener : text[index] = kind.opener := by
    by_contra hne
    simp [List.count_cons, hne] at hfirst
  rw [List.getElem?_eq_getElem hlt, hopener]

/-- The second one is a closer, and between them the text is balanced. -/
theorem Partners.exists_inside (h : kind.Partners text index closing) :
    ∃ front inside rest, text = front ++ kind.opener :: (inside ++ kind.closer :: rest) ∧
      front.length = index ∧ closing = index + 1 + inside.length ∧ kind.Balanced inside := by
  obtain ⟨front, back, rfl, rfl⟩ := Text.exists_eq_append_cons h.opener_at
  obtain ⟨inside, rest, rfl, hbalanced, hclosing⟩ := partners_iff.1 h
  exact ⟨front, inside, rest, rfl, rfl, hclosing, hbalanced⟩

/-! ## The search for a partner -/

/-- The search from an opener counts in what is behind it. -/
theorem findClosing_append_cons (kind : Delimiter) (front back : Text) :
    findClosing (front ++ kind.opener :: back) front.length =
      match kind.closingOffset? 1 back with
      | none => .error (.unbalanced front.length)
      | some offset => .ok (front.length + 1 + offset) := by
  cases hoffset : kind.closingOffset? 1 back <;>
    simp only [findClosing, List.drop_left, ofOpener?_opener, hoffset]

theorem findClosing_eq_ok_iff (h : text[index]? = some kind.opener) :
    findClosing text index = .ok closing ↔ kind.Partners text index closing := by
  obtain ⟨front, back, rfl, rfl⟩ := Text.exists_eq_append_cons h
  rw [findClosing_append_cons, partners_iff]
  constructor
  · intro hfound
    split at hfound
    · cases hfound
    next offset hoffset =>
      cases hfound
      obtain ⟨inside, rest, hback, rfl, hbalanced⟩ := closingOffset?_one_iff.1 hoffset
      exact ⟨inside, rest, hback, hbalanced, rfl⟩
  · rintro ⟨inside, rest, hback, hbalanced, rfl⟩
    rw [closingOffset?_one_iff.2 ⟨inside, rest, hback, rfl, hbalanced⟩]

theorem findClosing_eq_unbalanced_iff (h : text[index]? = some kind.opener) :
    findClosing text index = .error (.unbalanced index) ↔
      ¬ ∃ closing, kind.Partners text index closing := by
  simp only [← findClosing_eq_ok_iff h]
  rcases findClosing_of_opener kind h with ⟨closing, hok⟩ | herror
  · exact iff_of_false (by rw [hok]; exact nofun) (not_not.2 ⟨closing, hok⟩)
  · exact iff_of_true herror (by rw [herror]; exact nofun)

theorem Balanced.exists_partner {before after : Text}
    (h : kind.Balanced (before ++ kind.opener :: after)) :
    ∃ inside rest, after = inside ++ kind.closer :: rest ∧ kind.Balanced inside := by
  cases hoffset : kind.closingOffset? 1 after with
  | some offset =>
    obtain ⟨inside, rest, hafter, -, hbalanced⟩ := closingOffset?_one_iff.1 hoffset
    exact ⟨inside, rest, hafter, hbalanced⟩
  | none =>
    -- Otherwise its level would still be open at the end of the text.
    rw [balanced_iff_level?, level?_append, Option.bind_eq_some_iff] at h
    obtain ⟨below, -, hlevel⟩ := h
    have hafter : kind.level? (below + 1) after = some 0 := by
      simpa [Delimiter.level?, levelAfter] using hlevel
    exact absurd (lt_level_of_no_closing Nat.one_pos hoffset hafter) (Nat.not_lt_zero below)

/-- A group that opens between two partners closes between them. -/
theorem Partners.exists_inner {inner : Nat} (h : kind.Partners text index closing)
    (hlt : index < inner) (hinner : inner < closing) (hopener : text[inner]? = some kind.opener) :
    ∃ last, kind.Partners text inner last ∧ last < closing := by
  obtain ⟨front, inside, rest, rfl, rfl, rfl, hbalanced⟩ := h.exists_inside
  obtain ⟨n, rfl⟩ : ∃ n, inner = front.length + 1 + n := Nat.exists_eq_add_of_le hlt
  have hn : inside[n]? = some kind.opener := by
    rw [List.getElem?_append_right (by omega), Nat.add_assoc, Nat.add_sub_cancel_left, Nat.add_comm 1,
      List.getElem?_cons_succ, List.getElem?_append_left (by omega)] at hopener
    exact hopener
  obtain ⟨before, after, rfl, rfl⟩ := Text.exists_eq_append_cons hn
  obtain ⟨within, behind, rfl, hwithin⟩ := hbalanced.exists_partner
  have hfront : (front ++ kind.opener :: before).length = front.length + 1 + before.length := by
    simp only [List.length_append, List.length_cons]
    omega
  refine ⟨front.length + 1 + before.length + 1 + within.length, ?_, ?_⟩
  · have hpartners := hwithin.partners (front ++ kind.opener :: before) (behind ++ kind.closer :: rest)
    rw [hfront] at hpartners
    simpa using hpartners
  · simp only [List.length_append, List.length_cons]
    omega

theorem Partners.append (h : kind.Partners text index closing) (more : Text) :
    kind.Partners (text ++ more) index closing := by
  obtain ⟨front, inside, rest, rfl, rfl, rfl, hbalanced⟩ := h.exists_inside
  simpa using hbalanced.partners front (rest ++ more)

/-- **The end of a group.** From an opening delimiter the search finds its partner: the one offset up to
which the text has opened more than it has closed, and with which it has closed all, so that the
delimiters of the kind in between are a balanced word. It fails exactly if there is none. Groups of the
kind that open inside close inside, and what stands behind the text or in front of it makes no
difference but that it moves the offset. -/
theorem findClosing_partner (h : text[index]? = some kind.opener) :
    (∀ closing, findClosing text index = .ok closing ↔ kind.Partners text index closing) ∧
    (findClosing text index = .error (.unbalanced index) ↔
      ¬ ∃ closing, kind.Partners text index closing) ∧
    ∀ closing, findClosing text index = .ok closing →
      (∃ word : DyckWord, word.toList = (text.slice (index + 1) closing).filterMap kind.step?) ∧
      (∀ inner, index < inner → inner < closing → text[inner]? = some kind.opener →
        ∃ last, findClosing text inner = .ok last ∧ last < closing) ∧
      (∀ more, findClosing (text ++ more) index = .ok closing) ∧
      ∀ front : Text, findClosing (front ++ text) (front.length + index) = .ok (front.length + closing) := by
  refine ⟨fun closing => findClosing_eq_ok_iff h, findClosing_eq_unbalanced_iff h, fun closing hok => ?_⟩
  have hpartners := (findClosing_eq_ok_iff h).1 hok
  refine ⟨?_, fun inner hlt hinner hopener => ?_, fun more => ?_, fun front => ?_⟩
  · obtain ⟨front, inside, rest, rfl, rfl, rfl, hbalanced⟩ := hpartners.exists_inside
    rw [Text.slice_between]
    exact balanced_iff_exists_dyckWord.1 hbalanced
  · obtain ⟨last, hlast, hlt⟩ := hpartners.exists_inner hlt hinner hopener
    exact ⟨last, (findClosing_eq_ok_iff hopener).2 hlast, hlt⟩
  · have hmore := hpartners.append more
    exact (findClosing_eq_ok_iff hmore.opener_at).2 hmore
  · rw [findClosing_append, hok]
    rfl

/-- A group of braces with another one and a stray parenthesis in it, behind a closed group. -/
theorem findClosing_partner_sample :
    "a\x7bb\x7d\x7bc(\x7b\x7dd\x7d".toList[4]? = some brace.opener ∧
      brace.Partners "a\x7bb\x7d\x7bc(\x7b\x7dd\x7d".toList 4 10 ∧
      (∃ last, findClosing "a\x7bb\x7d\x7bc(\x7b\x7dd\x7d".toList 7 = .ok last ∧ last < 10) ∧
      findClosing ("a\x7bb\x7d\x7bc(\x7b\x7dd\x7d".toList ++ "\x7b".toList) 4 = .ok 10 ∧
      findClosing ("\x7d\x7d".toList ++ "a\x7bb\x7d\x7bc(\x7b\x7dd\x7d".toList) 6 = .ok 12 := by
  have hopener : "a\x7bb\x7d\x7bc(\x7b\x7dd\x7d".toList[4]? = some brace.opener := by decide
  obtain ⟨hfound, -, hstable⟩ := findClosing_partner hopener
  have hpartners : brace.Partners "a\x7bb\x7d\x7bc(\x7b\x7dd\x7d".toList 4 10 := by decide +kernel
  obtain ⟨-, hinner, hmore, hfront⟩ := hstable 10 ((hfound 10).2 hpartners)
  exact ⟨hopener, hpartners, hinner 7 (by omega) (by omega) (by decide), hmore _, hfront "\x7d\x7d".toList⟩

end Delimiter

end FlowTemplate
