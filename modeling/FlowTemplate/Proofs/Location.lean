/-
Where the first block is. From an offset on there is one answer to what a block begins with: no keyword,
or the first keyword and behind it, each after blanks, a group in parentheses and a group in braces, or
the place where one of them is missing or open (`Locates`). Each of these is told by the characters at
offsets of the text and by partners of delimiters, and the search finds it (`locate_first_block`).
-/
import FlowTemplate.Proofs.Partner
import FlowTemplate.Proofs.Template.Reading
import Mathlib.Data.Nat.Find

namespace FlowTemplate

open Delimiter

namespace Text

variable {text keyword : Text} {start stop offset : Nat}

/-! ## The first keyword -/

/-- A keyword stands at an offset of a text, behind an at sign and in front of no word character and no
dollar sign. -/
def KeywordAt (text keyword : Text) (offset : Nat) : Prop :=
  '@' :: keyword <+: text.drop offset ∧
    ∀ c ∈ text[offset + (keyword.length + 1)]?, isWord c = false ∧ c ≠ '$'

instance : Decidable (text.KeywordAt keyword offset) :=
  @instDecidableAnd _ _ inferInstance (Option.decidableForallMem _)

/-- The first place from an offset on at which a keyword stands. -/
structure FirstKeyword (text keyword : Text) (start offset : Nat) : Prop where
  from_start : start ≤ offset
  stands : text.KeywordAt keyword offset
  least : ∀ earlier, start ≤ earlier → earlier < offset → ¬ text.KeywordAt keyword earlier

theorem nameEnds_iff_head? {text : Text} :
    nameEnds text = true ↔ ∀ c ∈ text.head?, isWord c = false ∧ c ≠ '$' := by
  cases text <;> simp [nameEnds, continuesName]

theorem isSome_afterKeyword?_iff :
    (afterKeyword? keyword (text.drop offset)).isSome = true ↔ text.KeywordAt keyword offset := by
  have hnext : ∀ rest, text.drop offset = '@' :: keyword ++ rest →
      text[offset + (keyword.length + 1)]? = rest.head? := by
    intro rest h
    rw [← List.getElem?_drop, h, List.getElem?_append_right (by simp), List.head?_eq_getElem?]
    simp
  rw [Option.isSome_iff_exists]
  simp only [afterKeyword?_eq_some_iff, nameEnds_iff_head?]
  constructor
  · rintro ⟨rest, hrest, hends⟩
    exact ⟨⟨rest, hrest.symm⟩, by rwa [hnext rest hrest]⟩
  · rintro ⟨⟨rest, hrest⟩, hends⟩
    exact ⟨rest, hrest.symm, by rwa [← hnext rest hrest.symm]⟩

theorem KeywordAt.lt_length (h : text.KeywordAt keyword offset) :
    offset + keyword.length < text.length := by
  have := h.1.length_le
  rw [List.length_cons, List.length_drop] at this
  omega

/-- The least place at which a condition holds is the one that is found. -/
theorem offsetOf?_eq_some_iff {p : Text → Bool} {n : Nat} :
    offsetOf? p text = some n ↔
      n < text.length ∧ p (text.drop n) = true ∧ ∀ m < n, p (text.drop m) = false := by
  induction text generalizing n with
  | nil => simp [offsetOf?]
  | cons c cs ih =>
    rw [offsetOf?]
    by_cases hp : p (c :: cs) = true
    · rw [if_pos hp, Option.some.injEq]
      constructor
      · rintro rfl
        exact ⟨Nat.succ_pos _, hp, fun m hm => absurd hm (Nat.not_lt_zero m)⟩
      · rintro ⟨-, -, hleast⟩
        by_contra hne
        have := hleast 0 (Nat.pos_of_ne_zero (Ne.symm hne))
        rw [List.drop_zero, hp] at this
        cases this
    · rw [if_neg hp, Option.map_eq_some_iff]
      constructor
      · rintro ⟨n, hn, rfl⟩
        obtain ⟨hlt, hfound, hleast⟩ := ih.1 hn
        refine ⟨Nat.succ_lt_succ hlt, hfound, fun m hm => ?_⟩
        cases m with
        | zero => exact Bool.eq_false_iff.2 hp
        | succ m => exact hleast m (Nat.lt_of_succ_lt_succ hm)
      · rintro ⟨hlt, hfound, hleast⟩
        cases n with
        | zero => exact absurd hfound hp
        | succ n =>
          exact ⟨n, ih.2 ⟨Nat.lt_of_succ_lt_succ hlt, hfound, fun m hm =>
            hleast (m + 1) (Nat.succ_lt_succ hm)⟩, rfl⟩

theorem offsetOf?_drop_eq_some_iff {distance : Nat} :
    offsetOf? (fun t => (afterKeyword? keyword t).isSome) (text.drop start) = some distance ↔
      text.FirstKeyword keyword start (start + distance) := by
  simp only [offsetOf?_eq_some_iff, List.drop_drop, isSome_afterKeyword?_iff, Bool.eq_false_iff, ne_eq]
  constructor
  · rintro ⟨-, hstands, hleast⟩
    refine ⟨Nat.le_add_right _ _, hstands, fun earlier hle hlt => ?_⟩
    obtain ⟨m, rfl⟩ : ∃ m, earlier = start + m := Nat.exists_eq_add_of_le hle
    exact hleast m (Nat.lt_of_add_lt_add_left hlt)
  · rintro ⟨-, hstands, hleast⟩
    have := hstands.lt_length
    refine ⟨by rw [List.length_drop]; omega, hstands, fun m hm => ?_⟩
    exact hleast (start + m) (Nat.le_add_right _ _) (Nat.add_lt_add_left hm start)

theorem exists_firstKeyword (h : ∃ offset, start ≤ offset ∧ text.KeywordAt keyword offset) :
    ∃ offset, text.FirstKeyword keyword start offset :=
  ⟨Nat.find h, (Nat.find_spec h).1, (Nat.find_spec h).2, fun _ hle hlt hstands =>
    Nat.find_min h hlt ⟨hle, hstands⟩⟩

/-! ## Blanks between offsets -/

/-- From one offset up to another a text has blanks only, and there it ends or goes on with another
character. -/
structure BlankTo (text : Text) (start stop : Nat) : Prop where
  le : start ≤ stop
  inside : stop ≤ text.length
  blank : (text.slice start stop).Blank
  stops : ∀ c ∈ text[stop]?, isBlank c = false

instance : Decidable (text.BlankTo start stop) :=
  letI : Decidable (∀ c ∈ text[stop]?, isBlank c = false) := Option.decidableForallMem _
  decidable_of_iff (start ≤ stop ∧ stop ≤ text.length ∧ (text.slice start stop).Blank ∧
      ∀ c ∈ text[stop]?, isBlank c = false)
    ⟨fun ⟨hle, hinside, hblank, hstops⟩ => ⟨hle, hinside, hblank, hstops⟩, fun h =>
      ⟨h.le, h.inside, h.blank, h.stops⟩⟩

theorem blankTo_iff :
    text.BlankTo start stop ↔
      ∃ front blanks rest : Text, text = front ++ (blanks ++ rest) ∧ front.length = start ∧
        start + blanks.length = stop ∧ blanks.Blank ∧ ∀ c ∈ rest.head?, isBlank c = false := by
  constructor
  · rintro ⟨hle, hinside, hblank, hstops⟩
    have hfront : (text.take start).length = start :=
      List.length_take_of_le (Nat.le_trans hle hinside)
    have hmiddle : text.take start ++ text.slice start stop = text.take stop := by
      rw [slice, ← Nat.min_eq_left hle, ← List.take_take, Nat.min_eq_left hle,
        List.take_append_drop]
    have hlength := congrArg List.length hmiddle
    rw [List.length_append, hfront, List.length_take_of_le hinside] at hlength
    refine ⟨text.take start, text.slice start stop, text.drop stop, ?_, hfront, hlength, hblank, ?_⟩
    · rw [← List.append_assoc, hmiddle, List.take_append_drop]
    · rwa [List.head?_drop]
  · rintro ⟨front, blanks, rest, rfl, rfl, rfl, hblank, hhead⟩
    refine ⟨Nat.le_add_right _ _, by simp only [List.length_append]; omega, ?_, ?_⟩
    · rwa [slice_middle]
    · rwa [← List.append_assoc, ← List.length_append, ← List.head?_drop, List.drop_left]

theorem BlankTo.skipBlanks_eq (h : text.BlankTo start stop) : skipBlanks text start = stop := by
  obtain ⟨front, blanks, rest, rfl, rfl, rfl, hblank, hhead⟩ := blankTo_iff.1 h
  rw [← Nat.add_zero front.length, skipBlanks_append, skipBlanks_of_blank hblank hhead, Nat.add_zero]

theorem exists_blankTo (h : start ≤ text.length) : ∃ stop, text.BlankTo start stop := by
  obtain ⟨blanks, hblank, hrest⟩ := exists_blank_append_trimStart (text.drop start)
  refine ⟨start + blanks.length, blankTo_iff.2 ⟨text.take start, blanks, trimStart (text.drop start),
    ?_, List.length_take_of_le h, rfl, hblank, head_trimStart _⟩⟩
  rw [← hrest, List.take_append_drop]

end Text

/-! ## The search for a group -/

section

variable (kind : Delimiter) {text : Text} {start opening closing : Nat}
  (blanks : text.BlankTo start opening)
include blanks

theorem expectGroup_of_partners (h : kind.Partners text opening closing) :
    expectGroup text start kind.opener = .ok ⟨opening, closing + 1⟩ := by
  simp only [expectGroup, blanks.skipBlanks_eq]
  rw [if_pos h.opener_at, (findClosing_eq_ok_iff h.opener_at).2 h]
  rfl

theorem expectGroup_of_unclosed (hopens : text[opening]? = some kind.opener)
    (hnever : ¬ ∃ closing, kind.Partners text opening closing) :
    expectGroup text start kind.opener = .error (.unbalanced opening) := by
  simp only [expectGroup, blanks.skipBlanks_eq]
  rw [if_pos hopens, (findClosing_eq_unbalanced_iff hopens).2 hnever]
  rfl

theorem expectGroup_of_missing (hmissing : text[opening]? ≠ some kind.opener) :
    expectGroup text start kind.opener = .error (.malformedHeader opening []) := by
  simp only [expectGroup, blanks.skipBlanks_eq]
  rw [if_neg hmissing]

end

/-! ## The search for a block -/

/-- What is found of the first block with a keyword at or after an offset of a text. The header and the
body are the groups with their delimiters; a group that is missing is reported where the keyword stands,
with the text up to the character that stands in its place, and an open one where it opens. -/
inductive Locates (text keyword : Text) (start : Nat) : Except Fault (Option Block) → Prop
  | nowhere (absent : ∀ offset, start ≤ offset → ¬ text.KeywordAt keyword offset) :
    Locates text keyword start (.ok none)
  | noHeader {offset header : Nat} (first : text.FirstKeyword keyword start offset)
    (blanks : text.BlankTo (offset + 1 + keyword.length) header)
    (missing : text[header]? ≠ some '(') :
    Locates text keyword start (.error (.malformedHeader offset (text.slice offset header)))
  | openHeader {offset header : Nat} (first : text.FirstKeyword keyword start offset)
    (blanks : text.BlankTo (offset + 1 + keyword.length) header)
    (opens : text[header]? = some '(')
    (never : ¬ ∃ closing, paren.Partners text header closing) :
    Locates text keyword start (.error (.unbalanced header))
  | noBody {offset header closing body : Nat} (first : text.FirstKeyword keyword start offset)
    (blanks : text.BlankTo (offset + 1 + keyword.length) header)
    (closes : paren.Partners text header closing)
    (between : text.BlankTo (closing + 1) body)
    (missing : text[body]? ≠ some '{') :
    Locates text keyword start (.error (.malformedHeader offset (text.slice offset body)))
  | openBody {offset header closing body : Nat} (first : text.FirstKeyword keyword start offset)
    (blanks : text.BlankTo (offset + 1 + keyword.length) header)
    (closes : paren.Partners text header closing)
    (between : text.BlankTo (closing + 1) body)
    (opens : text[body]? = some '{')
    (never : ¬ ∃ closing, brace.Partners text body closing) :
    Locates text keyword start (.error (.unbalanced body))
  | block {offset header closing body last : Nat} (first : text.FirstKeyword keyword start offset)
    (blanks : text.BlankTo (offset + 1 + keyword.length) header)
    (closes : paren.Partners text header closing)
    (between : text.BlankTo (closing + 1) body)
    (ends : brace.Partners text body last) :
    Locates text keyword start (.ok (some ⟨keyword, offset, ⟨header, closing + 1⟩, ⟨body, last + 1⟩⟩))

/-- The spans of a block: behind its keyword the header, behind that the body, and only blanks in
between. -/
structure Block.Ordered (block : Block) (text : Text) : Prop where
  header_after : block.start < block.header.start
  header_wide : block.header.start < block.header.stop
  body_after : block.header.stop ≤ block.body.start
  body_wide : block.body.start < block.body.stop
  inside : block.body.stop ≤ text.length
  blank_before : (text.slice (block.start + 1 + block.keyword.length) block.header.start).Blank
  blank_between : (text.slice block.header.stop block.body.start).Blank

section

variable {text keyword : Text} {start offset : Nat}

theorem locate_of_first (h : text.FirstKeyword keyword start offset) :
    locate text keyword start = (Block.ofKeywordAt text keyword offset).map some := by
  obtain ⟨distance, rfl⟩ : ∃ distance, offset = start + distance := Nat.exists_eq_add_of_le h.from_start
  simp only [locate, Text.offsetOf?_drop_eq_some_iff.2 h]

theorem Locates.locate_eq {outcome : Except Fault (Option Block)}
    (h : Locates text keyword start outcome) : locate text keyword start = outcome := by
  cases h with
  | nowhere absent =>
    cases hfound : Text.offsetOf? (fun t => (afterKeyword? keyword t).isSome) (text.drop start) with
    | none => simp only [locate, hfound]
    | some distance =>
      have hfirst := Text.offsetOf?_drop_eq_some_iff.1 hfound
      exact absurd hfirst.stands (absent _ hfirst.from_start)
  | noHeader first blanks missing =>
    have hheader : expectGroup text _ '(' = _ := expectGroup_of_missing paren blanks missing
    rw [locate_of_first first, Block.ofKeywordAt, Block.groups, hheader]
    rfl
  | openHeader first blanks opens never =>
    have hheader : expectGroup text _ '(' = _ := expectGroup_of_unclosed paren blanks opens never
    rw [locate_of_first first, Block.ofKeywordAt, Block.groups, hheader]
    rfl
  | noBody first blanks closes between missing =>
    have hheader : expectGroup text _ '(' = _ := expectGroup_of_partners paren blanks closes
    have hbody : expectGroup text _ '{' = _ := expectGroup_of_missing brace between missing
    rw [locate_of_first first, Block.ofKeywordAt, Block.groups, hheader]
    simp only [bind, Except.bind, hbody]
    rfl
  | openBody first blanks closes between opens never =>
    have hheader : expectGroup text _ '(' = _ := expectGroup_of_partners paren blanks closes
    have hbody : expectGroup text _ '{' = _ := expectGroup_of_unclosed brace between opens never
    rw [locate_of_first first, Block.ofKeywordAt, Block.groups, hheader]
    simp only [bind, Except.bind, hbody]
    rfl
  | block first blanks closes between ends =>
    have hheader : expectGroup text _ '(' = _ := expectGroup_of_partners paren blanks closes
    have hbody : expectGroup text _ '{' = _ := expectGroup_of_partners brace between ends
    rw [locate_of_first first, Block.ofKeywordAt, Block.groups, hheader]
    simp only [bind, Except.bind, hbody]
    rfl

theorem exists_locates (text keyword : Text) (start : Nat) :
    ∃ outcome, Locates text keyword start outcome := by
  by_cases hsome : ∃ offset, start ≤ offset ∧ text.KeywordAt keyword offset
  · obtain ⟨offset, first⟩ := Text.exists_firstKeyword hsome
    have hbehind : offset + 1 + keyword.length ≤ text.length := by
      have := first.stands.lt_length
      omega
    obtain ⟨header, blanks⟩ := Text.exists_blankTo hbehind
    by_cases hheader : text[header]? = some '('
    · by_cases hcloses : ∃ closing, paren.Partners text header closing
      · obtain ⟨closing, closes⟩ := hcloses
        obtain ⟨body, between⟩ := Text.exists_blankTo closes.inside
        by_cases hbody : text[body]? = some '{'
        · by_cases hends : ∃ last, brace.Partners text body last
          · obtain ⟨last, ends⟩ := hends
            exact ⟨_, .block first blanks closes between ends⟩
          · exact ⟨_, .openBody first blanks closes between hbody hends⟩
        · exact ⟨_, .noBody first blanks closes between hbody⟩
      · exact ⟨_, .openHeader first blanks hheader hcloses⟩
    · exact ⟨_, .noHeader first blanks hheader⟩
  · exact ⟨_, .nowhere fun offset hle hstands => hsome ⟨offset, hle, hstands⟩⟩

theorem locates_locate (text keyword : Text) (start : Nat) :
    Locates text keyword start (locate text keyword start) := by
  obtain ⟨outcome, h⟩ := exists_locates text keyword start
  rwa [h.locate_eq]

end

/-- **The first block.** The search answers what is told of the text and nothing else: what comes first
decides, the least offset at which the keyword stands, then the header, then the body. A block that is
found lies in the text with its parts in order. -/
theorem locate_first_block (text keyword : Text) (start : Nat) :
    (∀ outcome, locate text keyword start = outcome ↔ Locates text keyword start outcome) ∧
    ∀ block, locate text keyword start = .ok (some block) →
      block.keyword = keyword ∧ start ≤ block.start ∧ block.Ordered text := by
  refine ⟨fun outcome => ⟨fun h => h ▸ locates_locate text keyword start, Locates.locate_eq⟩, ?_⟩
  intro block hblock
  have h := locates_locate text keyword start
  rw [hblock] at h
  cases h with
  | block first blanks closes between ends =>
    refine ⟨rfl, first.from_start, ?_, ?_, between.le, ?_, ends.inside, blanks.blank, between.blank⟩
    · have := blanks.le
      simp only
      omega
    · exact Nat.lt_succ_of_lt closes.behind
    · exact Nat.lt_succ_of_lt ends.behind

/-- A block behind a longer name, with delimiters of the other kind in its groups. -/
theorem locate_first_block_sample :
    locate "@iffy @if (a\x7b()) \x7bb)\x7d.".toList "if".toList 1 =
        .ok (some ⟨"if".toList, 6, ⟨10, 16⟩, ⟨17, 21⟩⟩) ∧
      Block.Ordered ⟨"if".toList, 6, ⟨10, 16⟩, ⟨17, 21⟩⟩ "@iffy @if (a\x7b()) \x7bb)\x7d.".toList := by
  obtain ⟨hfound, hordered⟩ := locate_first_block "@iffy @if (a\x7b()) \x7bb)\x7d.".toList "if".toList 1
  have hearlier : ∀ n < 6, 1 ≤ n →
      ¬ Text.KeywordAt "@iffy @if (a\x7b()) \x7bb)\x7d.".toList "if".toList n := by decide
  have hlocate := (hfound _).2 (.block ⟨by decide, by decide, fun n hle hlt => hearlier n hlt hle⟩
    (by decide) (show paren.Partners _ 10 15 by decide) (by decide)
    (show brace.Partners _ 17 20 by decide))
  exact ⟨hlocate, (hordered _ hlocate).2.2⟩

end FlowTemplate
