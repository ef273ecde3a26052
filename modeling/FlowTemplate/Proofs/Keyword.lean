/-
Keywords as they stand in texts. Whether a text mentions a keyword is a condition on its cuts, and at a
seam behind which no name goes on a text mentions what its two parts mention (`mentions_append_iff`).
Everything else about keywords follows: where the first one is cut off, that a search with offsets
finds the same one, and which keywords are listed as left in a compiled text.
-/
import FlowTemplate.Proofs.Pass
import FlowTemplate.Proofs.Segment
import FlowTemplate.Unresolved

namespace FlowTemplate

namespace Text

/-- A keyword is spelled with characters of names, which an at sign is not. -/
def IsKeyword (keyword : Text) : Prop := ∀ c ∈ keyword, continuesName c = true

instance {keyword : Text} : Decidable keyword.IsKeyword :=
  inferInstanceAs (Decidable (∀ c ∈ keyword, continuesName c = true))

theorem IsKeyword.at_not_mem {keyword : Text} (h : keyword.IsKeyword) : '@' ∉ keyword := fun hm =>
  absurd (h _ hm) (by decide)

variable {keyword text before rest a b : Text}

/-! ## Mentions -/

/-- A keyword stands somewhere in a text. -/
def Mentions (text keyword : Text) : Prop :=
  ∃ before rest : Text, text = before ++ ('@' :: keyword ++ rest) ∧ nameEnds rest = true

theorem nameEnds_append_of_ne_nil (h : a ≠ []) (b : Text) : nameEnds (a ++ b) = nameEnds a := by
  obtain ⟨c, cs, rfl⟩ := List.exists_cons_of_ne_nil h
  rfl

theorem nameEnds_append (ha : nameEnds a = true) (hb : nameEnds b = true) :
    nameEnds (a ++ b) = true := by
  cases a with
  | nil => exact hb
  | cons c cs => exact ha

theorem nameEnds_of_append (h : nameEnds (a ++ b) = true) : nameEnds a = true := by
  cases a with
  | nil => rfl
  | cons c cs => exact h

theorem Mentions.at_mem (h : text.Mentions keyword) : '@' ∈ text := by
  obtain ⟨before, rest, rfl, -⟩ := h
  simp

theorem Mentions.append_left (h : b.Mentions keyword) (a : Text) : Mentions (a ++ b) keyword := by
  obtain ⟨before, rest, rfl, hends⟩ := h
  exact ⟨a ++ before, rest, by rw [List.append_assoc], hends⟩

theorem Mentions.append_right (h : a.Mentions keyword) (hb : nameEnds b = true) :
    Mentions (a ++ b) keyword := by
  obtain ⟨before, rest, rfl, hends⟩ := h
  exact ⟨before, rest ++ b, by simp, nameEnds_append hends hb⟩

/-- **Mentions at a seam.** If no name goes on behind the seam, a keyword stands on one side of it. -/
theorem mentions_append_iff (hk : keyword.IsKeyword) (hb : nameEnds b = true) :
    Mentions (a ++ b) keyword ↔ a.Mentions keyword ∨ b.Mentions keyword := by
  constructor
  · rintro ⟨before, rest, htext, hends⟩
    rcases List.append_eq_append_iff.1 htext with ⟨x, rfl, rfl⟩ | ⟨x, rfl, hx⟩
    · exact .inr ⟨x, rest, rfl, hends⟩
    -- The keyword begins before the seam. Would it go on behind, so would a name.
    rcases List.append_eq_append_iff.1 hx with ⟨y, rfl, rfl⟩ | ⟨y, hy, rfl⟩
    · exact .inl ⟨before, y, rfl, nameEnds_of_append hends⟩
    · cases y with
      | nil =>
        rw [List.append_nil] at hy
        exact .inl ⟨before, [], by rw [List.append_nil, hy], rfl⟩
      | cons c cs =>
        cases x with
        | nil =>
          rw [List.nil_append] at hy
          rw [← hy]
          exact .inr ⟨[], rest, rfl, hends⟩
        | cons d ds =>
          have hc : c ∈ keyword := by
            rw [(List.cons.inj hy).2]
            exact List.mem_append_right _ List.mem_cons_self
          simp [nameEnds, hk c hc] at hb
  · rintro (ha | hb')
    · exact ha.append_right hb
    · exact hb'.append_left a

theorem mentions_cons_iff {c : Char} (h : afterKeyword? keyword (c :: text) = none) :
    Mentions (c :: text) keyword ↔ text.Mentions keyword := by
  refine ⟨?_, fun hm => hm.append_left [c]⟩
  rintro ⟨before, rest, htext, hends⟩
  cases before with
  | nil =>
    have hsome := afterKeyword?_eq_some_iff.2 ⟨htext, hends⟩
    rw [h] at hsome
    cases hsome
  | cons d ds => exact ⟨ds, rest, (List.cons.inj htext).2, hends⟩

theorem mentions_silent_append_iff (h : Pass.Silent keyword a) :
    Mentions (a ++ b) keyword ↔ b.Mentions keyword := by
  refine ⟨?_, fun hb => hb.append_left a⟩
  induction a with
  | nil => exact id
  | cons c cs ih => exact fun hm => ih h.2 ((mentions_cons_iff (h.1 b)).1 hm)

/-! ## The first mention -/

/-- A text cut at the first place where a keyword stands. -/
def cutKeyword? (keyword : Text) : Text → Option (Text × Text)
  | [] => none
  | c :: cs =>
    match afterKeyword? keyword (c :: cs) with
    | some rest => some ([], rest)
    | none => (cutKeyword? keyword cs).map fun (before, rest) => (c :: before, rest)

theorem cutKeyword?_keyword (hrest : nameEnds rest = true) :
    cutKeyword? keyword ('@' :: keyword ++ rest) = some ([], rest) := by
  have hsome : afterKeyword? keyword ('@' :: keyword ++ rest) = some rest :=
    afterKeyword?_eq_some_iff.2 ⟨rfl, hrest⟩
  rw [List.cons_append] at hsome ⊢
  rw [cutKeyword?, hsome]

theorem cutKeyword?_eq_some (h : cutKeyword? keyword text = some (before, rest)) :
    text = before ++ ('@' :: keyword ++ rest) ∧ nameEnds rest = true ∧ ¬ before.Mentions keyword := by
  induction text generalizing before with
  | nil => cases h
  | cons c cs ih =>
    rw [cutKeyword?] at h
    split at h
    next found hfound =>
      cases h
      obtain ⟨htext, hends⟩ := afterKeyword?_eq_some_iff.1 hfound
      exact ⟨htext, hends, fun hm => List.not_mem_nil hm.at_mem⟩
    next hnone =>
      obtain ⟨⟨before, rest⟩, hcut, heq⟩ := Option.map_eq_some_iff.1 h
      cases heq
      obtain ⟨rfl, hends, hfree⟩ := ih hcut
      refine ⟨rfl, hends, fun hm => ?_⟩
      obtain ⟨front, back, heq, hback⟩ := hm
      cases front with
      | nil =>
        -- A mention at the front would have been read there.
        have hsome : afterKeyword? keyword (c :: (before ++ ('@' :: keyword ++ rest))) = some _ :=
          afterKeyword?_eq_some_iff.2 ⟨by
            rw [← List.cons_append, heq, List.nil_append, List.append_assoc],
            nameEnds_append hback rfl⟩
        rw [hnone] at hsome
        cases hsome
      | cons d ds => exact hfree ⟨ds, back, (List.cons.inj heq).2, hback⟩

theorem afterKeyword?_eq_none_of_not_mentions (hk : keyword.IsKeyword) {c : Char} {cs : Text}
    (h : ¬ Mentions (c :: cs) keyword) (rest : Text) :
    afterKeyword? keyword (c :: (cs ++ ('@' :: keyword ++ rest))) = none := by
  rw [Option.eq_none_iff_forall_not_mem]
  intro back hback
  obtain ⟨htext, hback⟩ := afterKeyword?_eq_some_iff.1 hback
  rcases List.append_eq_append_iff.1 ((List.cons_append).trans htext) with
    ⟨x, hx, hrest⟩ | ⟨x, hx, -⟩
  · -- The keyword would end behind the characters before the mention.
    cases x with
    | nil =>
      rw [List.append_nil] at hx
      exact h ⟨[], [], by rw [List.nil_append, List.append_nil, ← hx], rfl⟩
    | cons d ds =>
      obtain rfl : '@' = d := (List.cons.inj hrest).1
      have hkeyword : keyword = cs ++ '@' :: ds := (List.cons.inj hx).2
      exact hk.at_not_mem (by simp [hkeyword])
  · rw [← List.cons_append, hx, List.append_assoc] at htext
    rw [← List.append_cancel_left htext] at hback
    exact h ⟨[], x, hx, nameEnds_of_append hback⟩

theorem cutKeyword?_eq_some_iff (hk : keyword.IsKeyword) :
    cutKeyword? keyword text = some (before, rest) ↔
      text = before ++ ('@' :: keyword ++ rest) ∧ nameEnds rest = true ∧ ¬ before.Mentions keyword := by
  refine ⟨cutKeyword?_eq_some, ?_⟩
  rintro ⟨rfl, hends, hfree⟩
  induction before with
  | nil => exact cutKeyword?_keyword hends
  | cons c cs ih =>
    have hnone := afterKeyword?_eq_none_of_not_mentions hk hfree rest
    have hcs : ¬ Mentions cs keyword := fun hm => hfree (hm.append_left [c])
    rw [List.cons_append, cutKeyword?, hnone, ih hcs]
    rfl

theorem cutKeyword?_eq_none_iff : cutKeyword? keyword text = none ↔ ¬ text.Mentions keyword := by
  induction text with
  | nil => exact ⟨fun _ hm => List.not_mem_nil hm.at_mem, fun _ => rfl⟩
  | cons c cs ih =>
    rw [cutKeyword?]
    split
    next rest hsome =>
      obtain ⟨htext, hends⟩ := afterKeyword?_eq_some_iff.1 hsome
      exact ⟨fun h => (Option.some_ne_none _ h).elim, fun h => absurd ⟨[], rest, htext, hends⟩ h⟩
    next hnone => rw [Option.map_eq_none_iff, ih, mentions_cons_iff hnone]

theorem offsetOf?_afterKeyword? (keyword text : Text) :
    offsetOf? (fun t => (afterKeyword? keyword t).isSome) text =
      (cutKeyword? keyword text).map fun (before, _) => before.length := by
  induction text with
  | nil => rfl
  | cons c cs ih =>
    rw [offsetOf?, cutKeyword?]
    cases afterKeyword? keyword (c :: cs) with
    | some rest => rfl
    | none =>
      rw [ih]
      cases cutKeyword? keyword cs <;> rfl

end Text

theorem Construct.isKeyword (construct : Construct) : construct.keyword.IsKeyword := by
  cases construct <;> decide

/-! ## Keywords left in a text -/

namespace Unresolved

theorem isKeyword_of_mem {keyword : Text} (h : keyword ∈ keywords) : keyword.IsKeyword := by
  have hall : ∀ keyword ∈ keywords, keyword.IsKeyword := by decide
  exact hall keyword h

theorem readKeyword_eq_some {text word rest : Text} (h : readKeyword text = some (word, rest)) :
    word ∈ keywords ∧ text = '@' :: word ++ rest ∧ nameEnds rest = true := by
  obtain ⟨found, hmem, h⟩ := List.exists_of_findSome?_eq_some h
  obtain ⟨after, hafter, heq⟩ := Option.map_eq_some_iff.1 h
  cases heq
  exact ⟨hmem, afterKeyword?_eq_some_iff.1 hafter⟩

theorem readKeyword_eq_none {text keyword : Text} (h : readKeyword text = none)
    (hk : keyword ∈ keywords) : afterKeyword? keyword text = none := by
  rw [readKeyword, List.findSome?_eq_none_iff] at h
  simpa using h keyword hk

theorem readKeyword_consumes : readKeyword.Consumes := fun _ word _ h =>
  ⟨'@' :: word, List.cons_ne_nil _ _, (readKeyword_eq_some h).2.1⟩

theorem keyword_unique {keyword word rest back : Text} (hk : keyword.IsKeyword)
    (hw : word.IsKeyword) (hrest : nameEnds rest = true) (hback : nameEnds back = true)
    (h : keyword ++ rest = word ++ back) : keyword = word := by
  -- What one keyword has more than the other would go on with the name of the other.
  have hnil : ∀ {more front : Text}, nameEnds (more ++ front) = true → (∀ c ∈ more, continuesName c = true) →
      more = [] := by
    intro more front hends hmore
    cases more with
    | nil => rfl
    | cons c cs => simp [nameEnds, hmore c List.mem_cons_self] at hends
  rcases List.append_eq_append_iff.1 h with ⟨more, rfl, rfl⟩ | ⟨more, rfl, rfl⟩
  · rw [hnil hrest fun c hc => hw c (List.mem_append_right _ hc), List.append_nil]
  · rw [hnil hback fun c hc => hk c (List.mem_append_right _ hc), List.append_nil]

theorem hit_mem_iff {text keyword : Text} (hk : keyword ∈ keywords) :
    (∃ w, Segment.hit keyword w ∈ Segment.ofText readKeyword text) ↔ text.Mentions keyword := by
  induction text using Segment.reading readKeyword_consumes with
  | nil =>
    refine ⟨fun h => ?_, fun h => absurd h.at_mem List.not_mem_nil⟩
    obtain ⟨_, h⟩ := h
    cases h
  | gap c cs hnone ih =>
    simp only [Segment.ofText_cons hnone, Segment.hit_mem_consGap, ih,
      Text.mentions_cons_iff (readKeyword_eq_none hnone hk)]
  | hit word w rest hw hsome ih =>
    obtain ⟨hword, htext, hends⟩ := readKeyword_eq_some hsome
    obtain rfl : w = '@' :: word := List.append_cancel_right htext
    have hfree : ¬ Text.Mentions word keyword := fun hm =>
      (isKeyword_of_mem hword).at_not_mem hm.at_mem
    simp only [Segment.ofText_hit hw hsome, List.mem_cons, Segment.hit.injEq, exists_or, ih]
    constructor
    · rintro (⟨_, rfl, -⟩ | hm)
      · exact ⟨[], rest, rfl, hends⟩
      · exact hm.append_left _
    · rintro ⟨before, back, htext, hback⟩
      cases before with
      | nil =>
        have heq : word ++ rest = keyword ++ back := (List.cons.inj htext).2
        exact .inl ⟨_, (keyword_unique (isKeyword_of_mem hk) (isKeyword_of_mem hword) hback hends
          heq.symm), rfl⟩
      | cons c cs =>
        have hm : Text.Mentions (word ++ rest) keyword :=
          ⟨cs, back, (List.cons.inj htext).2, hback⟩
        rw [Text.mentions_append_iff (isKeyword_of_mem hk) hends] at hm
        exact .inr (hm.resolve_left hfree)

theorem mem_withOffsets_iff {α : Type} {segments : List (Segment α)} {segment : Segment α}
    {offset : Nat} :
    (∃ n, (n, segment) ∈ Segment.withOffsets offset segments) ↔ segment ∈ segments := by
  induction segments generalizing offset with
  | nil => simp [Segment.withOffsets]
  | cons first rest ih =>
    simp only [Segment.withOffsets, List.mem_cons, Prod.mk.injEq, exists_or, ih, exists_and_right,
      exists_eq, true_and]

/-- **What is left.** A keyword is listed for the texts that mention it. -/
theorem exists_mem_find_iff {text keyword : Text} (hk : keyword ∈ keywords) :
    (∃ item ∈ find text, item.keyword = keyword) ↔ text.Mentions keyword := by
  rw [← hit_mem_iff hk]
  simp only [find, Text.occurrencesWithOffsets, List.mem_map, List.mem_filterMap]
  constructor
  · rintro ⟨_, ⟨⟨offset, word⟩, ⟨⟨n, segment⟩, hmem, hsegment⟩, rfl⟩, rfl⟩
    cases segment with
    | gap text => cases hsegment
    | hit found w =>
      cases hsegment
      exact ⟨w, mem_withOffsets_iff.1 ⟨_, hmem⟩⟩
  · rintro ⟨w, hmem⟩
    obtain ⟨n, hn⟩ : ∃ n, (n, Segment.hit keyword w) ∈ Segment.withOffsets 0 _ :=
      mem_withOffsets_iff.2 hmem
    exact ⟨_, ⟨(n, keyword), ⟨(n, .hit keyword w), hn, rfl⟩, rfl⟩, rfl⟩

end Unresolved

end FlowTemplate
