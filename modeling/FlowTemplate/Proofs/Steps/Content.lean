/-
Where keywords and contents stand. The offsets that are listed for a keyword are those at which it stands, since
no keyword begins inside another (`mem_keywordOffsets_iff`). The content of a block or of a branch stands in its
body right in front of the closing brace, where no name goes on (`Span.Holds`), so a keyword of the content is a
keyword of the text.
-/
import FlowTemplate.Proofs.Location
import FlowTemplate.Proofs.Unresolved

namespace FlowTemplate

open Delimiter

/-! ## The keywords of a text -/

section

variable {α : Type} {read : Recogniser α} {text keyword : Text} {offset : Nat}

/-- Nothing is read inside of what is read. -/
def Recogniser.Apart (read : Recogniser α) : Prop :=
  ∀ value w rest, read (w ++ rest) = some (value, rest) → ∀ inside, 0 < inside → inside < w.length →
    read ((w ++ rest).drop inside) = none

/-- Occurrences that do not meet are at all the offsets at which one is read. -/
theorem Recogniser.Apart.mem_offsets_iff (hapart : read.Apart) (hread : read.Consumes) {start : Nat} :
    offset ∈ (text.occurrencesFrom read start).map (·.1) ↔
      ∃ distance, offset = start + distance ∧ (read (text.drop distance)).isSome = true := by
  induction text using Segment.reading hread generalizing start with
  | nil =>
    refine ⟨fun h => absurd h List.not_mem_nil, ?_⟩
    rintro ⟨distance, -, h⟩
    obtain ⟨⟨value, rest⟩, hsome⟩ := Option.isSome_iff_exists.1 h
    rw [List.drop_nil] at hsome
    obtain ⟨w, hw, hnil⟩ := hread _ _ _ hsome
    exact absurd (List.append_eq_nil_iff.1 hnil.symm).1 hw
  | gap c cs hnone ih =>
    rw [Text.occurrencesFrom_cons hnone, ih]
    constructor
    · rintro ⟨distance, rfl, h⟩
      exact ⟨distance + 1, by omega, h⟩
    · rintro ⟨distance, rfl, h⟩
      cases distance with
      | zero => rw [List.drop_zero, hnone] at h; cases h
      | succ further => exact ⟨further, by omega, h⟩
  | hit value w rest hw hsome ih =>
    rw [Text.occurrencesFrom_hit hw hsome, List.map_cons, List.mem_cons, ih]
    constructor
    · rintro (rfl | ⟨distance, rfl, h⟩)
      · exact ⟨0, rfl, by rw [List.drop_zero, hsome]; rfl⟩
      · exact ⟨w.length + distance, Nat.add_assoc _ _ _, by rwa [List.drop_length_add_append]⟩
    · rintro ⟨distance, rfl, h⟩
      rcases Nat.eq_zero_or_pos distance with rfl | hpos
      · exact .inl rfl
      rcases Nat.lt_or_ge distance w.length with hlt | hge
      · rw [hapart value w rest hsome distance hpos hlt] at h
        cases h
      · obtain ⟨further, rfl⟩ := Nat.exists_eq_add_of_le hge
        rw [List.drop_length_add_append] at h
        exact .inr ⟨further, (Nat.add_assoc _ _ _).symm, h⟩

/-- A keyword that is read at the front of a text, with nothing to tell about it. -/
def readOne (keyword : Text) : Recogniser Unit := fun text => (afterKeyword? keyword text).map ((), ·)

theorem readOne_eq_some_iff {rest : Text} :
    readOne keyword text = some ((), rest) ↔ text = '@' :: keyword ++ rest ∧ nameEnds rest = true := by
  simp only [readOne, Option.map_eq_some_iff, Prod.mk.injEq, true_and, exists_eq_right,
    afterKeyword?_eq_some_iff]

theorem readOne_consumes (keyword : Text) : (readOne keyword).Consumes := fun _ _ _ h =>
  ⟨'@' :: keyword, List.cons_ne_nil _ _, (readOne_eq_some_iff.1 h).1⟩

/-- No keyword begins inside another: the at sign would be a character of the keyword. -/
theorem readOne_apart (hk : keyword.IsKeyword) : (readOne keyword).Apart := by
  intro _ w rest hsome inside hpos hlt
  obtain rfl := List.append_cancel_right (readOne_eq_some_iff.1 hsome).1
  obtain ⟨further, rfl⟩ : ∃ further, inside = further + 1 := ⟨inside - 1, by omega⟩
  rw [List.length_cons, Nat.add_lt_add_iff_right] at hlt
  rw [Option.eq_none_iff_forall_not_mem]
  rintro ⟨⟨⟩, back⟩ hback
  have hat := (readOne_eq_some_iff.1 hback).1
  rw [List.cons_append, List.drop_succ_cons, List.drop_append_of_le_length (Nat.le_of_lt hlt),
    List.drop_eq_getElem_cons hlt] at hat
  exact hk.at_not_mem ((List.cons.inj hat).1 ▸ List.getElem_mem hlt)

theorem keywordOffsets_eq (keyword text : Text) :
    keywordOffsets keyword text = (text.occurrencesFrom (readOne keyword) 0).map (·.1) := rfl

theorem mem_keywordOffsets_iff (hk : keyword.IsKeyword) :
    offset ∈ keywordOffsets keyword text ↔ text.KeywordAt keyword offset := by
  rw [keywordOffsets_eq, (readOne_apart hk).mem_offsets_iff (readOne_consumes keyword)]
  simp only [readOne, Option.isSome_map, Text.isSome_afterKeyword?_iff, Nat.zero_add, exists_eq_left']

theorem head?_keywordOffsets_iff (hk : keyword.IsKeyword) :
    (keywordOffsets keyword text).head? = some offset ↔ text.FirstKeyword keyword 0 offset := by
  have hordered : (keywordOffsets keyword text).Pairwise (· < ·) :=
    List.pairwise_map.2 (Text.pairwise_occurrencesFrom (readOne_consumes keyword) 0 text).2
  constructor
  · intro h
    obtain ⟨more, hoffsets⟩ := List.head?_eq_some_iff.1 h
    have hstands : offset ∈ keywordOffsets keyword text := by
      rw [hoffsets]
      exact List.mem_cons_self
    refine ⟨Nat.zero_le _, (mem_keywordOffsets_iff hk).1 hstands, fun earlier _ hlt hearlier => ?_⟩
    have hlisted := (mem_keywordOffsets_iff hk).2 hearlier
    rw [hoffsets] at hordered hlisted
    rcases List.mem_cons.1 hlisted with rfl | hmore
    · exact Nat.lt_irrefl _ hlt
    · exact Nat.lt_asymm hlt ((List.pairwise_cons.1 hordered).1 earlier hmore)
  · rintro ⟨-, hstands, hleast⟩
    have hlisted := (mem_keywordOffsets_iff hk).2 hstands
    obtain ⟨first, more, hoffsets⟩ := List.exists_cons_of_ne_nil (List.ne_nil_of_mem hlisted)
    have hfirst : text.KeywordAt keyword first := (mem_keywordOffsets_iff hk).1 (by
      rw [hoffsets]
      exact List.mem_cons_self)
    rw [hoffsets] at hordered hlisted ⊢
    rcases List.mem_cons.1 hlisted with rfl | hmore
    · rfl
    · exact absurd hfirst
        (hleast first (Nat.zero_le _) ((List.pairwise_cons.1 hordered).1 offset hmore))

end

/-! ## Where contents stand -/

namespace Text

variable {text keyword : Text} {offset : Nat}

/-- A keyword that stands in a text stands in a longer one, if no name goes on behind the text. -/
theorem KeywordAt.frame (h : text.KeywordAt keyword offset) (front : Text) {c : Char}
    (hc : continuesName c = false) (rest : Text) :
    (front ++ (text ++ c :: rest)).KeywordAt keyword (front.length + offset) := by
  have hlt := h.lt_length
  refine ⟨?_, ?_⟩
  · rw [List.drop_length_add_append, List.drop_append_of_le_length (by omega)]
    exact h.1.trans (List.prefix_append _ _)
  · rw [Nat.add_assoc, List.getElem?_append_right (Nat.le_add_right _ _), Nat.add_sub_cancel_left]
    rcases Nat.lt_or_ge (offset + (keyword.length + 1)) text.length with hinside | hbehind
    · rw [List.getElem?_append_left hinside]
      exact h.2
    · rw [List.getElem?_append_right hbehind,
        show offset + (keyword.length + 1) - text.length = 0 by omega]
      rintro d hd
      obtain rfl : c = d := Option.some.inj hd
      simpa [continuesName] using hc

end Text

/-- A content stands in a body of a text, right in front of the closing brace. -/
def Span.Holds (body : Span) (text content : Text) : Prop :=
  ∃ front rest, text = front ++ (content ++ brace.closer :: rest) ∧ body.start < front.length ∧
    front.length + content.length + 1 = body.stop

section

variable {text content : Text} {body : Span}

theorem Span.Holds.wide (h : body.Holds text content) : body.start < body.stop := by
  obtain ⟨front, rest, -, hstart, hstop⟩ := h
  omega

theorem Delimiter.Partners.holds {opening closing : Nat} (h : brace.Partners text opening closing)
    (hcontent : content <:+ (⟨opening, closing + 1⟩ : Span).innerText text) :
    (⟨opening, closing + 1⟩ : Span).Holds text content := by
  obtain ⟨front, inside, rest, rfl, rfl, rfl, -⟩ := h.exists_inside
  have hinner : Span.innerText ⟨front.length, front.length + 1 + inside.length + 1⟩
      (front ++ brace.opener :: (inside ++ brace.closer :: rest)) = inside :=
    Text.slice_between front inside rest brace.opener brace.closer
  rw [hinner] at hcontent
  obtain ⟨blanks, rfl⟩ := hcontent
  refine ⟨front ++ brace.opener :: blanks, rest, by simp, ?_, ?_⟩ <;>
    simp only [List.length_append, List.length_cons] <;> omega

theorem expectGroup_holds {index : Nat} (h : expectGroup text index '{' = .ok body)
    (hcontent : content <:+ body.innerText text) : body.Holds text content := by
  simp only [expectGroup] at h
  split at h
  next hopens =>
    cases hclosing : findClosing text (skipBlanks text index) with
    | error fault => rw [hclosing] at h; cases h
    | ok closing =>
      rw [hclosing] at h
      cases h
      have hpartners : brace.Partners text (skipBlanks text index) closing :=
        (findClosing_eq_ok_iff hopens).1 hclosing
      exact hpartners.holds hcontent
  · cases h

theorem Block.groups_holds {index : Nat} {header : Span} (h : Block.groups text index = .ok (header, body))
    (hcontent : content <:+ body.innerText text) : body.Holds text content := by
  exact expectGroup_holds (Block.groups_eq_ok_iff.1 h).2 hcontent

theorem locate_holds {keyword : Text} {start : Nat} {block : Block}
    (h : locate text keyword start = .ok (some block)) (hcontent : content <:+ block.bodyText text) :
    block.body.Holds text content := by
  have hlocates := locates_locate text keyword start
  rw [h] at hlocates
  cases hlocates with
  | block first blanks closes between ends => exact ends.holds hcontent

end

theorem start_of_first {text keyword : Text} {start offset : Nat} {block : Block}
    (hfirst : text.FirstKeyword keyword start offset)
    (h : locate text keyword start = .ok (some block)) : block.start = offset := by
  rw [locate_of_first hfirst] at h
  cases hread : Block.ofKeywordAt text keyword offset with
  | error fault => rw [hread] at h; cases h
  | ok found =>
    rw [hread] at h
    cases h
    exact (Block.ofKeywordAt_ok hread).2.1

theorem position_of_first {text keyword header : Text} {start offset position : Nat}
    (hfirst : text.FirstKeyword keyword start offset)
    (h : locate text keyword start = .error (.malformedHeader position header)) : position = offset := by
  rw [locate_of_first hfirst] at h
  cases hread : Block.ofKeywordAt text keyword offset with
  | ok found => rw [hread] at h; cases h
  | error fault =>
    rw [hread] at h
    cases h
    rcases Block.ofKeywordAt_error hread with ⟨_, h⟩ | ⟨_, h⟩
    · cases h
    · exact (Fault.malformedHeader.inj h).1

theorem Loop.content_ofBlock {text : Text} {block : Block} {loop : Loop}
    (h : (Loop.ofBlock text block).result = .ok loop) : loop.content = block.bodyText text := by
  rw [Loop.result_ofBlock] at h
  split at h
  · cases h
  · cases h
    rfl

namespace Chain

variable {text : Text} {branch : Branch} {stop next : Nat}

theorem exists_body (h : continuation text stop = .ok (some (branch, next))) :
    ∃ body : Span, body.stop = next ∧ stop ≤ body.start ∧ body.Holds text branch.content := by
  rcases continuation_cases h with
    ⟨rest, header, body, hrest, hgroups, rfl, rfl⟩ | ⟨rest, body, hrest, hgroup, rfl, rfl⟩
  · have hlength := (afterElseIf?_suffix hrest).length_le
    rw [List.length_drop] at hlength
    obtain ⟨hindex, hheader, hbehind, hbody⟩ := Block.groups_ok hgroups
    have := hheader.wide
    have := hbody.inside
    have := hbody.wide
    exact ⟨body, rfl, by omega, Block.groups_holds hgroups (Text.trimStart_suffix _)⟩
  · have hlength := (afterElse?_suffix hrest).length_le
    rw [List.length_drop] at hlength
    obtain ⟨hindex, hbody⟩ := expectGroup_ok hgroup
    have := hbody.inside
    have := hbody.wide
    exact ⟨body, rfl, by omega, expectGroup_holds hgroup (Text.trimStart_suffix _)⟩

/-- Branches that stand in a text one behind the other, from the end of the branch before them up to the end
of the last one. -/
inductive Row (text : Text) : Nat → List Branch → Nat → Prop
  | nil (stop : Nat) : Row text stop [] stop
  | cons {stop next finish : Nat} {branch : Branch} {more : List Branch}
    (first : continuation text stop = .ok (some (branch, next))) (rest : Row text next more finish) :
    Row text stop (branch :: more) finish

theorem row_of_continueFrom {fuel : Nat} {last : Branch} {branches : List Branch} {finish : Nat}
    (h : (continueFrom text fuel last stop).result = .ok (branches, finish)) :
    Row text stop branches finish := by
  induction fuel generalizing last stop branches with
  | zero =>
    cases h
    exact .nil _
  | succ fuel ih =>
    rcases continueFrom_cases h with ⟨rfl, rfl⟩ | ⟨branch, next, rest, -, hfirst, rfl, hrest⟩
    · exact .nil _
    · exact .cons hfirst (ih hrest)

theorem Row.le {branches : List Branch} {finish : Nat} (h : Row text stop branches finish) :
    stop ≤ finish := by
  induction h with
  | nil stop => exact Nat.le_refl stop
  | cons first rest ih => exact Nat.le_trans (Nat.le_of_lt (continuation_ok first).1) ih

end Chain

end FlowTemplate
