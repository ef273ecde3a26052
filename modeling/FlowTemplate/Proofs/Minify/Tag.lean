/-
Tags where white space is reduced. The reader of tags knows no quotes: a tag ends at its first closing
angle (`readTag_eq_some_iff`), so behind such an angle it makes no difference what follows
(`readTag_append`).
-/
import FlowTemplate.Minify.Space
import FlowTemplate.Proofs.Markup
import FlowTemplate.Proofs.Segment

namespace FlowTemplate.Minify

open Markup

/-- A text that is taken for a tag: it ends at its only closing angle. -/
def IsTag (w : Text) : Prop :=
  ∃ slash name inside : Text, (slash = [] ∨ slash = ['/']) ∧ IsName name ∧ '>' ∉ inside ∧
    (inside = [] ∨ inside = ['/'] ∨ ∃ c ∈ inside.head?, isBlank c = true) ∧
    w = '<' :: (slash ++ (name ++ (inside ++ ['>'])))

variable {text rest w : Text}

theorem IsTag.ends (h : IsTag w) : ∃ front, w = '<' :: (front ++ ['>']) ∧ '>' ∉ front := by
  obtain ⟨slash, name, inside, hslash, hname, hinside, -, rfl⟩ := h
  refine ⟨slash ++ (name ++ inside), by simp, List.not_mem_append ?_ (List.not_mem_append ?_ hinside)⟩
  · rcases hslash with rfl | rfl <;> decide
  · exact hname.continues.not_mem (by decide)

theorem IsTag.ne_nil (h : IsTag w) : w ≠ [] := by
  obtain ⟨front, rfl, -⟩ := h.ends
  exact List.cons_ne_nil _ _

theorem readTag_of_isTag (h : IsTag w) (rest : Text) : readTag (w ++ rest) = some ((), rest) := by
  obtain ⟨slash, name, inside, hslash, hname, hfree, hinside, rfl⟩ := h
  obtain ⟨c, cs, hcons⟩ := List.exists_cons_of_ne_nil (readName?_eq_some hname).1
  have hc : '/' ≠ c := by
    rintro rfl
    exact hname.continues.not_mem (by decide) (hcons ▸ List.mem_cons_self)
  have hsource : '<' :: (slash ++ (name ++ (inside ++ ['>']))) ++ rest =
      ['<'] ++ (slash ++ (name ++ (inside ++ '>' :: rest))) := by simp
  have hslashRead : (Text.after? ['/'] (slash ++ (name ++ (inside ++ '>' :: rest)))).getD
      (slash ++ (name ++ (inside ++ '>' :: rest))) = name ++ (inside ++ '>' :: rest) := by
    rcases hslash with rfl | rfl
    · rw [hcons]
      simp [Text.after?, List.isPrefixOf?, hc]
    · rw [Text.after?_append, Option.getD_some]
  have hstop : ∀ c ∈ (inside ++ '>' :: rest).head?, Markup.continuesName c = false := by
    rintro d hd
    rcases hinside with rfl | rfl | ⟨e, he, hblank⟩
    · cases hd
      decide
    · cases hd
      decide
    · rw [List.head?_append, Option.mem_def.1 he, Option.some_or] at hd
      cases hd
      exact Markup.continuesName_of_isBlank hblank
  rw [hsource, readTag, Text.after?_append]
  simp only [bind, Option.bind_some, hslashRead, hname.readName? hstop]
  rcases hinside with rfl | rfl | ⟨e, he, hblank⟩
  · rfl
  · rfl
  · have hread : readUntil? '>' (inside ++ '>' :: rest) = some (inside, rest) :=
      readUntil?_eq_some_iff.2 ⟨rfl, hfree⟩
    obtain ⟨more, rfl⟩ := List.head?_eq_some_iff.1 (Option.mem_def.1 he)
    have hangle : e ≠ '>' := fun h => hfree (h ▸ List.mem_cons_self)
    have hslash : e ≠ '/' := by
      rintro rfl
      revert hblank
      decide
    rw [List.cons_append] at hread ⊢
    split
    next heq => exact absurd (List.cons.inj heq).1 hangle
    next heq => exact absurd (List.cons.inj heq).1 hslash
    next c tail _ _ heq =>
      obtain ⟨rfl, -⟩ := List.cons.inj heq
      rw [if_pos hblank, hread]
      rfl
    next heq => cases heq

theorem isName_of_readName? {name : Text} (h : readName? text = some (name, rest)) : IsName name := by
  cases text with
  | nil => cases h
  | cons c cs =>
    rw [readName?] at h
    split at h
    next hc =>
      cases h
      simpa [IsName, readName?, hc] using fun d hd => List.mem_takeWhile_imp hd
    next => cases h

theorem exists_isTag_of_readTag (h : readTag text = some ((), rest)) : ∃ w, IsTag w ∧ text = w ++ rest := by
  simp only [readTag, Option.bind_eq_bind, Option.bind_eq_some_iff] at h
  obtain ⟨behind, hopen, ⟨name, left⟩, hname, h⟩ := h
  rw [Text.after?_eq_some_iff] at hopen
  obtain ⟨slash, hslash, hbehind⟩ : ∃ slash : Text, (slash = [] ∨ slash = ['/']) ∧
      behind = slash ++ (name ++ left) := by
    have hsplit := (readName?_eq_some hname).2.2
    cases hafter : Text.after? ['/'] behind with
    | none =>
      rw [hafter, Option.getD_none] at hsplit
      exact ⟨[], .inl rfl, hsplit⟩
    | some more =>
      rw [hafter, Option.getD_some] at hsplit
      exact ⟨['/'], .inr rfl, by rw [← hsplit]; exact Text.after?_eq_some_iff.1 hafter⟩
  suffices hend : ∃ inside : Text, '>' ∉ inside ∧
      (inside = [] ∨ inside = ['/'] ∨ ∃ c ∈ inside.head?, isBlank c = true) ∧
      left = inside ++ '>' :: rest by
    obtain ⟨inside, hfree, hinside, rfl⟩ := hend
    exact ⟨_, ⟨slash, name, inside, hslash, isName_of_readName? hname, hfree, hinside, rfl⟩, by
      rw [hopen, hbehind]; simp⟩
  dsimp only at h
  split at h
  · cases h
    exact ⟨[], List.not_mem_nil, .inl rfl, rfl⟩
  · cases h
    exact ⟨['/'], by decide, .inr (.inl rfl), rfl⟩
  next c tail hangle _ =>
    split at h
    next hblank =>
      obtain ⟨⟨inside, after⟩, hread, heq⟩ := Option.map_eq_some_iff.1 h
      cases heq
      obtain ⟨hleft, hfree⟩ := readUntil?_eq_some_iff.1 hread
      refine ⟨inside, hfree, .inr (.inr ⟨c, ?_, hblank⟩), hleft⟩
      cases inside with
      | nil => exact (hangle (List.cons.inj hleft).1).elim
      | cons d inside => exact congrArg some (List.cons.inj hleft).1.symm
    next => cases h
  · cases h

theorem readTag_eq_some_iff : readTag text = some ((), rest) ↔ ∃ w, IsTag w ∧ text = w ++ rest := by
  refine ⟨exists_isTag_of_readTag, ?_⟩
  rintro ⟨w, hw, rfl⟩
  exact readTag_of_isTag hw rest

theorem readTag_consumes : readTag.Consumes := by
  rintro text ⟨⟩ rest h
  obtain ⟨w, hw, rfl⟩ := readTag_eq_some_iff.1 h
  exact ⟨w, hw.ne_nil, rfl⟩

theorem readTag_beginsWith : readTag.BeginsWith '<' := by
  rintro text ⟨⟩ rest h
  obtain ⟨w, hw, rfl⟩ := readTag_eq_some_iff.1 h
  obtain ⟨front, rfl, -⟩ := hw.ends
  rfl

theorem isTag_of_hit_mem (h : Segment.hit () w ∈ parts text) : IsTag w := by
  obtain ⟨front, rest, -, hread⟩ := Segment.of_hit_mem readTag_consumes h
  obtain ⟨v, hv, heq⟩ := readTag_eq_some_iff.1 hread
  rwa [List.append_cancel_right heq]

theorem readTag_append (h : '>' ∈ text) (rest : Text) :
    readTag (text ++ rest) = (readTag text).map fun (value, left) => (value, left ++ rest) := by
  cases hread : readTag text with
  | some result =>
    obtain ⟨⟨⟩, left⟩ := result
    obtain ⟨w, hw, rfl⟩ := readTag_eq_some_iff.1 hread
    rw [List.append_assoc, readTag_of_isTag hw]
    rfl
  | none =>
    refine Option.eq_none_iff_forall_not_mem.2 ?_
    rintro ⟨⟨⟩, left⟩ hmem
    obtain ⟨w, hw, heq⟩ := readTag_eq_some_iff.1 hmem
    obtain ⟨front, rfl, hfree⟩ := hw.ends
    rcases List.append_eq_append_iff.1 heq with ⟨more, hmore, -⟩ | ⟨more, rfl, -⟩
    · cases more using List.reverseRecOn with
      | nil =>
        rw [List.append_nil] at hmore
        rw [← hmore, ← List.append_nil ('<' :: (front ++ ['>'])), readTag_of_isTag hw] at hread
        cases hread
      | append_singleton more c =>
        have hfront : '<' :: front = text ++ more := by
          rw [← List.append_assoc, ← List.cons_append] at hmore
          exact (List.append_inj' hmore rfl).1
        refine absurd ?_ (List.not_mem_cons_of_ne_of_not_mem (by decide) hfree : '>' ∉ '<' :: front)
        rw [hfront]
        exact List.mem_append_left _ h
    · rw [readTag_of_isTag hw] at hread
      cases hread

end FlowTemplate.Minify
