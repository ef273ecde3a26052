/-
Where keywords are left. Two keywords share no character, so the list has every place at which one
stands, in the order of the text (`mem_occurrencesFrom_iff`). A place is told by line and column: what
stands before it ends as many lines as it has line feeds, and its last line reaches up to the column
(`Text.splitOn_append`). So a place can be read off the list again (`find_exact`).
-/
import FlowTemplate.Proofs.Keyword

namespace FlowTemplate

namespace Text

variable {separator : Char}

/-! ## Lines -/

/-- What a text has behind the last separator in it. -/
def lastPart (separator : Char) (text : Text) : Text := text.rtakeWhile (· ≠ separator)

theorem lastPart_concat (text : Text) (c : Char) :
    lastPart separator (text ++ [c]) = if c = separator then [] else lastPart separator text ++ [c] := by
  simp [lastPart, List.rtakeWhile_concat]

theorem lastPart_append {more : Text} (h : separator ∉ more) (text : Text) :
    lastPart separator (text ++ more) = lastPart separator text ++ more := by
  induction more using List.reverseRecOn with
  | nil => simp
  | append_singleton more c ih =>
    simp only [List.mem_append, List.mem_singleton, not_or] at h
    rw [← List.append_assoc, lastPart_concat, if_neg (Ne.symm h.2), ih h.1, List.append_assoc]

theorem exists_splitOn_eq (separator : Char) (text : Text) :
    ∃ parts, splitOn separator text = text.takeWhile (· ≠ separator) :: parts := by
  induction text with
  | nil => exact ⟨[], rfl⟩
  | cons c text ih =>
    obtain ⟨parts, hparts⟩ := ih
    by_cases hc : c = separator
    · exact ⟨splitOn separator text, by simp [splitOn, hc]⟩
    · exact ⟨parts, by simp [splitOn, hc, hparts]⟩

theorem splitOn_cons {c : Char} {text part : Text} {parts : List Text}
    (h : splitOn separator text = part :: parts) :
    splitOn separator (c :: text) = if c = separator then [] :: part :: parts else (c :: part) :: parts := by
  rw [splitOn, h]

/-- **The parts of two texts one after another.** The first text ends as many parts as it has
separators, and the part it leaves open goes on with the first part of the second text. -/
theorem splitOn_append {rest part : Text} {parts : List Text} (front : Text)
    (h : splitOn separator rest = part :: parts) :
    ∃ before, splitOn separator (front ++ rest) = before ++ (lastPart separator front ++ part) :: parts ∧
      before.length = front.count separator ∧
      before.flatMap (· ++ [separator]) ++ lastPart separator front = front := by
  induction front using List.reverseRecOn generalizing rest part parts with
  | nil => exact ⟨[], h, rfl, rfl⟩
  | append_singleton front c ih =>
    have hcons := splitOn_cons (c := c) h
    rw [List.append_assoc, List.singleton_append, lastPart_concat, List.count_append]
    by_cases hc : c = separator
    · rw [if_pos hc] at hcons ⊢
      obtain ⟨before, hsplit, hlength, hfront⟩ := ih hcons
      refine ⟨before ++ [lastPart separator front], by simp [hsplit], by simp [hlength, hc], ?_⟩
      rw [List.append_nil, List.flatMap_append, List.flatMap_singleton, ← List.append_assoc, hfront, hc]
    · rw [if_neg hc] at hcons ⊢
      obtain ⟨before, hsplit, hlength, hfront⟩ := ih hcons
      refine ⟨before, by simp [hsplit], by simp [hlength, hc], ?_⟩
      rw [← List.append_assoc, hfront]

/-! ## Occurrences with their offsets -/

variable {α : Type} {read : Recogniser α}

/-- The occurrences in a text that begins at an offset. -/
def occurrencesFrom (read : Recogniser α) (offset : Nat) (text : Text) : List (Nat × α) :=
  (Segment.withOffsets offset (Segment.ofText read text)).filterMap fun
    | (_, .gap _) => none
    | (offset, .hit value _) => some (offset, value)

theorem occurrencesWithOffsets_eq (text : Text) :
    text.occurrencesWithOffsets read = occurrencesFrom read 0 text := rfl

theorem occurrencesFrom_cons {c : Char} {cs : Text} (h : read (c :: cs) = none) (offset : Nat) :
    occurrencesFrom read offset (c :: cs) = occurrencesFrom read (offset + 1) cs := by
  rw [occurrencesFrom, Segment.ofText_cons h, occurrencesFrom]
  match Segment.ofText read cs with
  | [] => rfl
  | .gap text :: rest =>
    simp only [Segment.consGap, Segment.withOffsets, Segment.text, List.length_cons,
      List.filterMap_cons_none]
    rw [Nat.add_assoc, Nat.add_comm 1]
  | .hit value w :: rest => rfl

theorem occurrencesFrom_hit {value : α} {w rest : Text} (hw : w ≠ [])
    (h : read (w ++ rest) = some (value, rest)) (offset : Nat) :
    occurrencesFrom read offset (w ++ rest) =
      (offset, value) :: occurrencesFrom read (offset + w.length) rest := by
  rw [occurrencesFrom, Segment.ofText_hit hw h]
  rfl

/-- Occurrences stand behind each other, from the offset on. -/
theorem pairwise_occurrencesFrom (hread : read.Consumes) (offset : Nat) (text : Text) :
    (∀ found ∈ occurrencesFrom read offset text, offset ≤ found.1) ∧
      (occurrencesFrom read offset text).Pairwise fun first second => first.1 < second.1 := by
  induction text using Segment.reading hread generalizing offset with
  | nil => exact ⟨fun _ h => absurd h List.not_mem_nil, List.Pairwise.nil⟩
  | gap c cs hnone ih =>
    rw [occurrencesFrom_cons hnone]
    obtain ⟨hfrom, hordered⟩ := ih (offset + 1)
    exact ⟨fun found h => Nat.le_of_succ_le (hfrom found h), hordered⟩
  | hit value w rest hw hsome ih =>
    rw [occurrencesFrom_hit hw hsome]
    obtain ⟨hfrom, hordered⟩ := ih (offset + w.length)
    have hlt : offset < offset + w.length := Nat.lt_add_of_pos_right (List.length_pos_iff.2 hw)
    refine ⟨?_, List.pairwise_cons.2 ⟨fun found h => Nat.lt_of_lt_of_le hlt (hfrom found h), hordered⟩⟩
    rintro found (_ | ⟨_, h⟩)
    · exact Nat.le_refl offset
    · exact Nat.le_trans (Nat.le_of_lt hlt) (hfrom found h)

end Text

namespace Unresolved

/-! ## The keywords of a text -/

/-- A keyword stands at an offset of a text, behind an at sign and in front of no word character and no
dollar sign. -/
def StandsAt (text : Text) (offset : Nat) (keyword : Text) : Prop :=
  (keyword = "if".toList ∨ keyword = "for".toList ∨ keyword = "else".toList) ∧
    ∃ front back, text = front ++ ('@' :: keyword ++ back) ∧ front.length = offset ∧
      ∀ c ∈ back.head?, isWord c = false ∧ c ≠ '$'

theorem standsAt_iff {text keyword : Text} {offset : Nat} :
    StandsAt text offset keyword ↔ keyword ∈ keywords ∧ ∃ front back,
      text = front ++ ('@' :: keyword ++ back) ∧ front.length = offset ∧ nameEnds back = true := by
  have hends : ∀ back : Text, nameEnds back = true ↔ ∀ c ∈ back.head?, isWord c = false ∧ c ≠ '$' := by
    intro back
    cases back <;> simp [nameEnds, continuesName]
  simp only [StandsAt, hends, keywords, List.mem_cons, List.not_mem_nil, or_false]

/-- A keyword that stands behind a character at which none is read stands further on. -/
theorem standsAt_cons_iff {c : Char} {cs keyword : Text} {offset : Nat}
    (h : readKeyword (c :: cs) = none) :
    StandsAt (c :: cs) offset keyword ↔ ∃ n, offset = n + 1 ∧ StandsAt cs n keyword := by
  simp only [standsAt_iff]
  constructor
  · rintro ⟨hk, front, back, htext, rfl, hback⟩
    cases front with
    | nil =>
      have hsome := afterKeyword?_eq_some_iff.2 ⟨htext, hback⟩
      rw [readKeyword_eq_none h hk] at hsome
      cases hsome
    | cons d front => exact ⟨front.length, rfl, hk, front, back, (List.cons.inj htext).2, rfl, hback⟩
  · rintro ⟨n, rfl, hk, front, back, rfl, rfl, hback⟩
    exact ⟨hk, c :: front, back, rfl, rfl, hback⟩

/-- Behind a keyword the next one stands in what follows: none begins inside another. -/
theorem standsAt_keyword_iff {word rest keyword : Text} {offset : Nat} (hword : word ∈ keywords)
    (hrest : nameEnds rest = true) :
    StandsAt ('@' :: word ++ rest) offset keyword ↔
      offset = 0 ∧ keyword = word ∨
        ∃ n, offset = ('@' :: word).length + n ∧ StandsAt rest n keyword := by
  have hkeyword := fun {keyword : Text} (hk : keyword ∈ keywords) => isKeyword_of_mem hk
  simp only [standsAt_iff]
  constructor
  · rintro ⟨hk, front, back, htext, rfl, hback⟩
    cases front with
    | nil =>
      have heq : word ++ rest = keyword ++ back := (List.cons.inj htext).2
      exact .inl ⟨rfl, (keyword_unique (hkeyword hword) (hkeyword hk) hrest hback heq).symm⟩
    | cons d front =>
      have htail : word ++ rest = front ++ ('@' :: keyword ++ back) := (List.cons.inj htext).2
      rcases List.append_eq_append_iff.1 htail with ⟨more, rfl, rfl⟩ | ⟨more, rfl, hmore⟩
      · have hlength : (d :: (word ++ more)).length = ('@' :: word).length + more.length := by
          simp only [List.length_cons, List.length_append]
          omega
        exact .inr ⟨more.length, hlength, hk, more, back, rfl, rfl, hback⟩
      · cases more with
        | nil => exact .inr ⟨0, by simp, hk, [], back, hmore.symm, rfl, hback⟩
        | cons e more =>
          -- The other at sign would be a character of the keyword.
          obtain ⟨rfl, -⟩ := List.cons.inj hmore
          exact absurd (List.mem_append_right _ List.mem_cons_self) (hkeyword hword).at_not_mem
  · rintro (⟨rfl, rfl⟩ | ⟨n, rfl, hk, front, back, rfl, rfl, hback⟩)
    · exact ⟨hword, [], rest, rfl, rfl, hrest⟩
    · have htext : '@' :: word ++ (front ++ ('@' :: keyword ++ back)) =
          '@' :: word ++ front ++ ('@' :: keyword ++ back) := (List.append_assoc _ _ _).symm
      exact ⟨hk, '@' :: word ++ front, back, htext, List.length_append, hback⟩

/-- **Every keyword is found where it stands.** -/
theorem mem_occurrencesFrom_iff {text keyword : Text} {offset n : Nat} :
    (n, keyword) ∈ Text.occurrencesFrom readKeyword offset text ↔
      ∃ distance, n = offset + distance ∧ StandsAt text distance keyword := by
  induction text using Segment.reading readKeyword_consumes generalizing offset with
  | nil =>
    refine ⟨fun h => absurd h List.not_mem_nil, ?_⟩
    rintro ⟨distance, -, -, front, back, htext, -⟩
    simp at htext
  | gap c cs hnone ih =>
    simp only [Text.occurrencesFrom_cons hnone, ih, standsAt_cons_iff hnone]
    constructor
    · rintro ⟨distance, rfl, h⟩
      exact ⟨distance + 1, by omega, distance, rfl, h⟩
    · rintro ⟨distance, rfl, m, rfl, h⟩
      exact ⟨m, by omega, h⟩
  | hit word w rest hw hsome ih =>
    obtain ⟨hword, htext, hends⟩ := readKeyword_eq_some hsome
    obtain rfl : w = '@' :: word := List.append_cancel_right htext
    simp only [Text.occurrencesFrom_hit hw hsome, List.mem_cons, Prod.mk.injEq, ih,
      standsAt_keyword_iff hword hends]
    constructor
    · rintro (⟨rfl, rfl⟩ | ⟨distance, rfl, h⟩)
      · exact ⟨0, rfl, .inl ⟨rfl, rfl⟩⟩
      · exact ⟨('@' :: word).length + distance, Nat.add_assoc _ _ _, .inr ⟨distance, rfl, h⟩⟩
    · rintro ⟨distance, rfl, ⟨rfl, rfl⟩ | ⟨m, rfl, h⟩⟩
      · exact .inl ⟨rfl, rfl⟩
      · exact .inr ⟨m, (Nat.add_assoc _ _ _).symm, h⟩

/-! ## Their places -/

/-- The offset of the place that an item tells: the lines before its own, each with its line feed, and
what its own line has before its column. -/
def offset (item : Unresolved) (text : Text) : Nat :=
  (((text.splitOn '\n').take (item.line - 1)).flatMap (· ++ ['\n'])).length + (item.column - 1)

/-- An item stands on an earlier line than another one, or further to the left on the same line. -/
def Precedes (first second : Unresolved) : Prop :=
  first.line < second.line ∨ first.line = second.line ∧ first.column < second.column

/-- What an item tells is true of a text: the line is there, the keyword stands in it from the column on,
and the snippet is what the line has from there, cut to forty characters. -/
structure TellsTruth (item : Unresolved) (text : Text) : Prop where
  line_pos : 0 < item.line
  column_pos : 0 < item.column
  exists_line : ∃ line, (text.splitOn '\n')[item.line - 1]? = some line ∧
    '@' :: item.keyword <+: line.drop (item.column - 1) ∧
    item.snippet = (line.drop (item.column - 1)).take 40
  no_lineFeed : '\n' ∉ item.snippet
  keyword_front : '@' :: item.keyword <+: item.snippet

theorem atOffset_eq (front rest keyword : Text) :
    atOffset (front ++ rest) front.length keyword =
      ⟨keyword, front.count '\n' + 1, (front.lastPart '\n').length + 1,
        (rest.takeWhile (· ≠ '\n')).take 40⟩ := by
  simp only [atOffset, List.take_left, List.drop_left, Text.lastPart, List.rtakeWhile,
    List.length_reverse, snippetLength]

theorem offset_atOffset (front rest keyword : Text) :
    (atOffset (front ++ rest) front.length keyword).offset (front ++ rest) = front.length := by
  obtain ⟨parts, hparts⟩ := Text.exists_splitOn_eq '\n' rest
  obtain ⟨before, hsplit, hlength, hfront⟩ := Text.splitOn_append front hparts
  rw [atOffset_eq, offset, hsplit]
  simp only [Nat.add_sub_cancel, ← hlength, List.take_left]
  rw [← List.length_append, hfront]

theorem tellsTruth_atOffset {front keyword back : Text} (hk : keyword ∈ keywords) :
    (atOffset (front ++ ('@' :: keyword ++ back)) front.length keyword).TellsTruth
      (front ++ ('@' :: keyword ++ back)) := by
  obtain ⟨parts, hparts⟩ := Text.exists_splitOn_eq '\n' ('@' :: keyword ++ back)
  obtain ⟨before, hsplit, hlength, -⟩ := Text.splitOn_append front hparts
  have hword : ∀ keyword ∈ keywords, '\n' ∉ '@' :: keyword ∧ ('@' :: keyword).length ≤ 40 := by decide
  obtain ⟨hfree, hshort⟩ := hword keyword hk
  have hline : ('@' :: keyword ++ back).takeWhile (· ≠ '\n') =
      '@' :: keyword ++ back.takeWhile (· ≠ '\n') :=
    List.takeWhile_append_of_pos fun c hc => decide_eq_true fun heq => hfree (heq ▸ hc)
  have hsnippet : ('@' :: keyword ++ back.takeWhile (· ≠ '\n')).take 40 =
      '@' :: keyword ++ (back.takeWhile (· ≠ '\n')).take (40 - ('@' :: keyword).length) := by
    rw [List.take_append, List.take_of_length_le hshort]
  rw [atOffset_eq, hline]
  refine ⟨Nat.succ_pos _, Nat.succ_pos _, ⟨front.lastPart '\n' ++ ('@' :: keyword ++
    back.takeWhile (· ≠ '\n')), ?_, ?_, ?_⟩, ?_, ?_⟩
  · rw [hsplit, hline, Nat.add_sub_cancel, ← hlength, List.getElem?_append_right (Nat.le_refl _),
      Nat.sub_self]
    rfl
  · rw [Nat.add_sub_cancel, List.drop_left]
    exact List.prefix_append _ _
  · rw [Nat.add_sub_cancel, List.drop_left]
  · intro hm
    rcases List.mem_append.1 (hsnippet ▸ hm) with hm | hm
    · exact hfree hm
    · exact absurd (List.mem_takeWhile_imp (List.mem_of_mem_take hm)) (by decide)
  · rw [hsnippet]
    exact List.prefix_append _ _

/-- What stands further on in a text stands on a later line or further to the right. -/
theorem precedes_atOffset {front more : Text} (hmore : more ≠ []) (first second rest : Text) :
    (atOffset (front ++ (more ++ rest)) front.length first).Precedes
      (atOffset (front ++ (more ++ rest)) (front ++ more).length second) := by
  have hsecond := atOffset_eq (front ++ more) rest second
  rw [List.append_assoc] at hsecond
  rw [atOffset_eq, hsecond]
  by_cases hline : '\n' ∈ more
  · refine .inl (Nat.succ_lt_succ ?_)
    rw [List.count_append]
    exact Nat.lt_add_of_pos_right (List.count_pos_iff.2 hline)
  · refine .inr ⟨?_, Nat.succ_lt_succ ?_⟩
    · rw [List.count_append, List.count_eq_zero_of_not_mem hline, Nat.add_zero]
    · rw [Text.lastPart_append hline, List.length_append]
      exact Nat.lt_add_of_pos_right (List.length_pos_iff.2 hmore)

theorem mem_find_iff {text : Text} {item : Unresolved} :
    item ∈ find text ↔ ∃ n keyword, StandsAt text n keyword ∧ item = atOffset text n keyword := by
  simp only [find, Text.occurrencesWithOffsets_eq, List.mem_map, Prod.exists, mem_occurrencesFrom_iff,
    Nat.zero_add, exists_eq_left', @eq_comm _ item]

theorem pairwise_find (text : Text) : (find text).Pairwise Precedes := by
  rw [find, List.pairwise_map, Text.occurrencesWithOffsets_eq]
  refine (Text.pairwise_occurrencesFrom readKeyword_consumes 0 text).2.imp_of_mem ?_
  rintro ⟨n, first⟩ ⟨m, second⟩ hfirst hsecond hlt
  obtain ⟨_, rfl, -, front, back, rfl, rfl, -⟩ := mem_occurrencesFrom_iff.1 hfirst
  obtain ⟨_, rfl, -, longer, rest, htext, rfl, -⟩ := mem_occurrencesFrom_iff.1 hsecond
  simp only [Nat.zero_add] at hlt ⊢
  have hlonger : longer <+: front ++ ('@' :: first ++ back) := htext ▸ List.prefix_append longer _
  obtain ⟨more, rfl⟩ : front <+: longer :=
    List.prefix_of_prefix_length_le (List.prefix_append _ _) hlonger (Nat.le_of_lt hlt)
  rw [htext, List.append_assoc]
  exact precedes_atOffset (by rintro rfl; simp at hlt) first second _

/-- **What is left is listed at its place.** Each keyword that stands in a text, in front of no word
character and no dollar sign, is listed once, and nothing else is; the list goes from line to line and
from left to right; and every item tells the line and the column of its keyword, and what follows it
there. -/
theorem find_exact (text : Text) :
    (∀ n keyword, StandsAt text n keyword →
      ∃! item, item ∈ find text ∧ item.keyword = keyword ∧ item.offset text = n) ∧
    (∀ item ∈ find text, StandsAt text (item.offset text) item.keyword ∧ item.TellsTruth text) ∧
    (find text).Pairwise Precedes := by
  have hoffset : ∀ {n keyword}, StandsAt text n keyword →
      (atOffset text n keyword).offset text = n := by
    rintro n keyword ⟨-, front, back, rfl, rfl, -⟩
    exact offset_atOffset front _ keyword
  refine ⟨fun n keyword h => ?_, fun item hitem => ?_, pairwise_find text⟩
  · refine ⟨atOffset text n keyword, ⟨mem_find_iff.2 ⟨n, keyword, h, rfl⟩, rfl, hoffset h⟩, ?_⟩
    rintro item ⟨hitem, rfl, rfl⟩
    obtain ⟨m, word, hword, rfl⟩ := mem_find_iff.1 hitem
    rw [hoffset hword]
    rfl
  · obtain ⟨n, keyword, h, rfl⟩ := mem_find_iff.1 hitem
    refine ⟨(hoffset h).symm ▸ h, ?_⟩
    obtain ⟨hk, front, back, rfl, rfl, -⟩ := standsAt_iff.1 h
    exact tellsTruth_atOffset hk

/-- A keyword behind longer names, in the last line and in front of another one. -/
theorem find_exact_sample :
    StandsAt "a @iffy\n@else$ @else@for".toList 15 "else".toList ∧
    (∃! item, item ∈ find "a @iffy\n@else$ @else@for".toList ∧ item.keyword = "else".toList ∧
      item.offset "a @iffy\n@else$ @else@for".toList = 15) ∧
    (⟨"else".toList, 2, 8, "@else@for".toList⟩ : Unresolved).TellsTruth
      "a @iffy\n@else$ @else@for".toList := by
  have hstands : StandsAt "a @iffy\n@else$ @else@for".toList 15 "else".toList :=
    ⟨.inr (.inr rfl), "a @iffy\n@else$ ".toList, "@for".toList, by decide, rfl,
      by rintro c ⟨⟩; decide⟩
  have hlisted : (⟨"else".toList, 2, 8, "@else@for".toList⟩ : Unresolved) ∈
      find "a @iffy\n@else$ @else@for".toList := by decide +kernel
  obtain ⟨honce, htrue, -⟩ := find_exact "a @iffy\n@else$ @else@for".toList
  exact ⟨hstands, honce 15 _ hstands, (htrue _ hlisted).2⟩

end Unresolved

end FlowTemplate
