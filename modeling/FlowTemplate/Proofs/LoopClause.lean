/-
The grammar of loop headers. A loop clause names a variable and what it runs over, a track clause the
expression that tells the elements apart. A clause is read exactly where one is written
(`clause?_eq_some_iff`, `trackClause?_eq_some_iff`), however often its words come again in it, and it is
written in one way only (`Clause.source_injective`). So a located block is a loop exactly if its header
begins with a loop clause (`Loop.ofBlock_grammar`).
-/
import FlowTemplate.Proofs.Attribute
import FlowTemplate.Proofs.Outline.Group

namespace FlowTemplate

namespace Text

variable {text rest gap gap' rest' : Text} {c : Char}

theorem Blank.append_inj (hgap : gap.Blank) (hgap' : gap'.Blank)
    (hrest : ∀ c ∈ rest.head?, isBlank c = false) (hrest' : ∀ c ∈ rest'.head?, isBlank c = false)
    (h : gap ++ rest = gap' ++ rest') : gap = gap' ∧ rest = rest' := by
  have htrim := congrArg trimStart h
  rw [hgap.trimStart_append, hgap'.trimStart_append, trimStart_of_head hrest,
    trimStart_of_head hrest'] at htrim
  subst htrim
  exact ⟨List.append_cancel_right h, rfl⟩

theorem afterBlanks?_eq_some_iff :
    afterBlanks? text = some rest ↔
      ∃ gap : Text, gap.Blank ∧ gap ≠ [] ∧ text = gap ++ rest ∧ ∀ c ∈ rest.head?, isBlank c = false := by
  constructor
  · intro h
    obtain ⟨gap, hgap, hne, htext⟩ := afterBlanks?_eq_some h
    refine ⟨gap, hgap, hne, htext, ?_⟩
    rw [afterBlanks?_eq_trimStart h]
    exact head_trimStart text
  · rintro ⟨gap, hgap, hne, rfl, hhead⟩
    rw [afterBlanks?_append hgap hne, trimStart_of_head hhead]

/-- A text cut at the first of a character, by what is in front of that and what is behind. -/
theorem cut_eq (c : Char) (text : Text) :
    (cut c text).1 = text.takeWhile (· != c) ∧
      (cut c text).2.getD [] = (text.dropWhile (· != c)).tail := by
  induction text with
  | nil => exact ⟨rfl, rfl⟩
  | cons d text ih =>
    rw [cut]
    by_cases h : d = c
    · simp [h]
    · simp [h, ih.1, ih.2]

end Text

namespace Loop

open Template

/-! ## Clauses -/

/-- A loop clause `item of iterable`. The iterable may be any text that begins with no blank. -/
structure Clause where
  item : Name
  beforeOf : Gap
  afterOf : Gap
  iterable : Text
  ne_nil : iterable ≠ []
  head : ∀ c ∈ iterable.head?, isBlank c = false

/-- A track clause `track key`. The key may be any text that begins with no blank. -/
structure KeyClause where
  afterTrack : Gap
  key : Text
  ne_nil : key ≠ []
  head : ∀ c ∈ key.head?, isBlank c = false

/-- A loop clause as it is written. -/
def Clause.source (clause : Clause) : Text :=
  clause.item.text ++
    (clause.beforeOf.text ++ ("of".toList ++ (clause.afterOf.text ++ clause.iterable)))

/-- A track clause as it is written. -/
def KeyClause.source (clause : KeyClause) : Text :=
  "track".toList ++ (clause.afterTrack.text ++ clause.key)

variable {text item iterable key : Text}

theorem readIdentifier?_eq_some_append {name rest : Text}
    (h : readIdentifier? text = some (name, rest)) : text = name ++ rest := by
  cases text with
  | nil => cases h
  | cons c cs =>
    rw [readIdentifier?] at h
    split at h
    · cases h
      rw [List.cons_append, List.takeWhile_append_dropWhile]
    · cases h

theorem exists_of_clause? (h : clause? text = some (item, iterable)) :
    ∃ clause : Clause, clause.source = text ∧ clause.item.text = item ∧ clause.iterable = iterable := by
  simp only [clause?, Option.bind_eq_bind, Option.bind_eq_some_iff] at h
  obtain ⟨⟨name, behind⟩, hname, rest, hgap, back, hof, found, hblanks, h⟩ := h
  split at h
  · cases h
  next hempty =>
    obtain ⟨rfl, rfl⟩ : name = item ∧ found = iterable := by simpa using h
    obtain ⟨gap, hblank, hne, (hbehind : behind = gap ++ rest), -⟩ :=
      Text.afterBlanks?_eq_some_iff.1 hgap
    obtain ⟨gap', hblank', hne', hback, hhead⟩ := Text.afterBlanks?_eq_some_iff.1 hblanks
    have hbehind : behind = gap ++ ("of".toList ++ (gap' ++ found)) := by
      rw [hbehind, Text.after?_eq_some_iff.1 hof, hback]
    have htext : text = name ++ (gap ++ ("of".toList ++ (gap' ++ found))) := by
      rw [readIdentifier?_eq_some_append hname, hbehind]
    exact ⟨⟨⟨name, readIdentifier?_eq_some hname⟩, ⟨⟨gap, hblank⟩, hne⟩, ⟨⟨gap', hblank'⟩, hne'⟩,
      found, fun hnil => hempty (List.isEmpty_iff.2 hnil), hhead⟩, htext.symm, rfl, rfl⟩

theorem head_of_append (rest : Text) : ∀ c ∈ ("of".toList ++ rest).head?, isBlank c = false := by
  rintro _ ⟨⟩
  decide

theorem clause?_source (clause : Clause) :
    clause? clause.source = some (clause.item.text, clause.iterable) := by
  have hbefore := Text.afterBlanks?_eq_some_iff.2
    ⟨clause.beforeOf.text, clause.beforeOf.blank, clause.beforeOf.ne_nil, rfl,
      head_of_append (clause.afterOf.text ++ clause.iterable)⟩
  have hafter := Text.afterBlanks?_eq_some_iff.2
    ⟨clause.afterOf.text, clause.afterOf.blank, clause.afterOf.ne_nil, rfl, clause.head⟩
  have hne : clause.iterable.isEmpty = false := by simpa using clause.ne_nil
  simp only [clause?, Clause.source, bind, readIdentifier?_name clause.item (clause.beforeOf.head _),
    Option.bind_some, hbefore, Text.after?_append, hafter, hne]
  rfl

theorem clause?_eq_some_iff :
    clause? text = some (item, iterable) ↔
      ∃ clause : Clause, clause.source = text ∧ clause.item.text = item ∧ clause.iterable = iterable := by
  refine ⟨exists_of_clause?, ?_⟩
  rintro ⟨clause, rfl, rfl, rfl⟩
  exact clause?_source clause

theorem trackClause?_eq_some_iff :
    trackClause? text = some key ↔ ∃ clause : KeyClause, clause.source = text ∧ clause.key = key := by
  simp only [trackClause?, Option.bind_eq_bind, Option.bind_eq_some_iff, Text.after?_eq_some_iff,
    Text.afterBlanks?_eq_some_iff]
  constructor
  · rintro ⟨behind, rfl, found, ⟨gap, hblank, hne, rfl, hhead⟩, h⟩
    split at h
    · cases h
    next hempty =>
      cases h
      exact ⟨⟨⟨⟨gap, hblank⟩, hne⟩, key, fun hnil => hempty (List.isEmpty_iff.2 hnil), hhead⟩, rfl, rfl⟩
  · rintro ⟨clause, rfl, rfl⟩
    have hne : clause.key.isEmpty = false := by simpa using clause.ne_nil
    exact ⟨_, rfl, clause.key, ⟨clause.afterTrack.text, clause.afterTrack.blank,
      clause.afterTrack.ne_nil, rfl, clause.head⟩, by rw [hne]; rfl⟩

theorem Clause.source_injective : Function.Injective Clause.source := by
  intro first second h
  have hread := clause?_source first
  rw [h, clause?_source second] at hread
  obtain ⟨⟨item, hitem⟩, ⟨⟨before, hbefore⟩, hbeforeNe⟩, ⟨⟨after, hafter⟩, hafterNe⟩, iterable, hne, hhead⟩ :=
    first
  obtain ⟨⟨item', hitem'⟩, ⟨⟨before', hbefore'⟩, hbeforeNe'⟩, ⟨⟨after', hafter'⟩, hafterNe'⟩, iterable',
    hne', hhead'⟩ := second
  cases hread
  obtain ⟨rfl, hbehind⟩ := Text.Blank.append_inj hbefore hbefore' (head_of_append _)
    (head_of_append _) (List.append_cancel_left h)
  obtain rfl : after = after' := List.append_cancel_right (List.append_cancel_left hbehind)
  rfl

/-! ## Headers -/

/-- The text before the first semicolon of a header. -/
def clauseText (header : Text) : Text := Text.trim (header.takeWhile (· != ';'))

/-- The text behind the first semicolon of a header. There is none without a semicolon. -/
def keyText (header : Text) : Text := Text.trim (header.dropWhile (· != ';')).tail

/-- The text before the first semicolon has none, nor has what a clause there runs over. -/
theorem semicolon_not_mem_iterable {clause : Clause} {header : Text}
    (h : clause.source = clauseText header) : ';' ∉ clause.iterable := by
  intro hm
  have hsource : ';' ∈ clause.source := by simp [Clause.source, hm]
  rw [h] at hsource
  have := List.mem_takeWhile_imp (Text.mem_of_mem_trim hsource)
  exact absurd this (by decide)

theorem trim_of_suffix_trim {back whole : Text} (hback : back <:+ whole.trim)
    (hhead : ∀ c ∈ back.head?, isBlank c = false) : back.trim = back := by
  refine Text.trim_eq_self_iff.2 ⟨hhead, fun c hc => Text.last_trim whole c ?_⟩
  obtain ⟨front, hfront⟩ := hback
  obtain ⟨hne, rfl⟩ := List.mem_getLast?_eq_getLast hc
  rw [← hfront, List.getLast?_append_of_ne_nil _ hne]
  exact hc

theorem Clause.trim_iterable {clause : Clause} {header : Text} (h : clause.source = clauseText header) :
    clause.iterable.trim = clause.iterable := by
  have hback : clause.iterable <:+ clauseText header :=
    ⟨clause.item.text ++ (clause.beforeOf.text ++ ("of".toList ++ clause.afterOf.text)), by
      rw [← h]; simp [Clause.source]⟩
  exact trim_of_suffix_trim hback clause.head

theorem KeyClause.trim_key {clause : KeyClause} {header : Text} (h : clause.source = keyText header) :
    clause.key.trim = clause.key := by
  have hback : clause.key <:+ keyText header :=
    ⟨"track".toList ++ clause.afterTrack.text, h ▸ List.append_assoc _ _ _⟩
  exact trim_of_suffix_trim hback clause.head

/-- The track expression of a header is the one that its track clause names. -/
theorem trackOf_eq_some_iff {header key : Text} :
    trackOf ((header.cut ';').2.getD []) = some key ↔
      ∃ clause : KeyClause, clause.source = keyText header ∧ clause.key = key := by
  have hrest : Text.trim ((header.cut ';').2.getD []) = keyText header := by
    rw [(Text.cut_eq ';' header).2]
    rfl
  rw [trackOf, hrest]
  constructor
  · intro h
    split at h
    · cases h
    · obtain ⟨found, hfound, rfl⟩ := Option.map_eq_some_iff.1 h
      obtain ⟨clause, hclause, rfl⟩ := trackClause?_eq_some_iff.1 hfound
      exact ⟨clause, hclause, (KeyClause.trim_key hclause).symm⟩
  · rintro ⟨clause, hclause, rfl⟩
    have hfound : trackClause? (keyText header) = some clause.key :=
      trackClause?_eq_some_iff.2 ⟨clause, hclause, rfl⟩
    have hne : ¬ (keyText header).isEmpty = true := by
      rw [← hclause, List.isEmpty_iff]
      exact List.append_ne_nil_of_left_ne_nil (by decide) _
    rw [if_neg hne, hfound, Option.map_some, KeyClause.trim_key hclause]

theorem result_ofBlock_clauseText (text : Text) (block : Block) :
    (ofBlock text block).result =
      match clause? (clauseText (block.headerText text).trim) with
      | none => .error (.malformedHeader block.start (block.headerText text).trim)
      | some (item, iterable) =>
        .ok ⟨item, iterable.trim, block.bodyText text,
          trackOf (((block.headerText text).trim.cut ';').2.getD [])⟩ := by
  have hclauseText : Text.trim ((block.headerText text).trim.cut ';').1 =
      clauseText (block.headerText text).trim := by
    rw [(Text.cut_eq ';' _).1]
    rfl
  have hresult := result_ofBlock text block
  rw [hclauseText] at hresult
  exact hresult

/-- A loop is what its clause names. -/
theorem result_ofBlock_of_clause {text : Text} {block : Block} {clause : Clause}
    (h : clause.source = clauseText (block.headerText text).trim) :
    (ofBlock text block).result = .ok ⟨clause.item.text, clause.iterable, block.bodyText text,
      trackOf (((block.headerText text).trim.cut ';').2.getD [])⟩ := by
  have hfound : clause? (clauseText (block.headerText text).trim) =
      some (clause.item.text, clause.iterable) := clause?_eq_some_iff.2 ⟨clause, h, rfl, rfl⟩
  rw [result_ofBlock_clauseText, hfound]
  simp only [Clause.trim_iterable h]

/-- A header without a clause is reported where its block begins. -/
theorem result_ofBlock_of_no_clause {text : Text} {block : Block}
    (h : ¬ ∃ clause : Clause, clause.source = clauseText (block.headerText text).trim) :
    (ofBlock text block).result =
      .error (.malformedHeader block.start (block.headerText text).trim) := by
  rw [result_ofBlock_clauseText]
  cases hfound : clause? (clauseText (block.headerText text).trim) with
  | some parts =>
    obtain ⟨clause, hclause, -, -⟩ := exists_of_clause? hfound
    exact absurd ⟨clause, hclause⟩ h
  | none => rfl

/-- **The grammar of loops.** A located block is a loop exactly if a loop clause stands in front of the
first semicolon of its header. The clause is one in only one way, and what it names is what the loop is
read as; behind the semicolon only a track clause counts. Every other header is reported at the at
sign. -/
theorem ofBlock_grammar {text : Text} {start : Nat} {block : Block}
    (h : locate text "for".toList start = .ok (some block)) :
    let header := (block.headerText text).trim
    text[block.start]? = some '@' ∧
    ((∃ loop, (ofBlock text block).result = .ok loop) ↔
      ∃ clause : Clause, clause.source = clauseText header) ∧
    (∀ clause : Clause, clause.source = clauseText header →
      (∀ other : Clause, other.source = clauseText header → other = clause) ∧
      clause.iterable.trim = clause.iterable ∧ ';' ∉ clause.iterable ∧
      ∃ loop, (ofBlock text block).result = .ok loop ∧
        loop.item = clause.item.text ∧ loop.iterable = clause.iterable ∧
        (∀ key, loop.track? = some key ↔
          ∃ track : KeyClause, track.source = keyText header ∧ track.key = key) ∧
        loop.content = block.bodyText text) ∧
    ((¬ ∃ clause : Clause, clause.source = clauseText header) →
      (ofBlock text block).result = .error (.malformedHeader block.start header)) := by
  intro header
  obtain ⟨before, groups, rest, htext, hstart, -, -, -⟩ := Block.exists_groups (by decide) h
  have hat : text[block.start]? = some '@' := by
    rw [htext, hstart]
    simp
  refine ⟨hat, ⟨?_, ?_⟩, ?_, result_ofBlock_of_no_clause⟩
  · rintro ⟨loop, hloop⟩
    by_contra hnone
    rw [result_ofBlock_of_no_clause hnone] at hloop
    cases hloop
  · rintro ⟨clause, hclause⟩
    exact ⟨_, result_ofBlock_of_clause hclause⟩
  · intro clause hclause
    exact ⟨fun other hother => Clause.source_injective (hother.trans hclause.symm),
      Clause.trim_iterable hclause, semicolon_not_mem_iterable hclause, _,
      result_ofBlock_of_clause hclause, rfl, rfl, fun key => trackOf_eq_some_iff, rfl⟩

/-- A loop whose variable is named like the word behind it, and whose key has a semicolon. The one before
it has no body. -/
def grammarSampleText : Text :=
  "<b>@for (x) @for ( of  of of\n of ; track  a;b ) \x7b y \x7d".toList

theorem ofBlock_grammar_sample :
    locate grammarSampleText "for".toList 4 = .ok (some ⟨"for".toList, 12, ⟨17, 47⟩, ⟨48, 53⟩⟩) ∧
      ∃ loop, (ofBlock grammarSampleText ⟨"for".toList, 12, ⟨17, 47⟩, ⟨48, 53⟩⟩).result = .ok loop ∧
        loop.item = "of".toList ∧ loop.iterable = "of\n of".toList ∧ loop.track? = some "a;b".toList ∧
        loop.content = " y ".toList := by
  have hlocate : locate grammarSampleText "for".toList 4 =
      .ok (some ⟨"for".toList, 12, ⟨17, 47⟩, ⟨48, 53⟩⟩) := by decide +kernel
  obtain ⟨-, -, hread, -⟩ := ofBlock_grammar hlocate
  let clause : Clause := ⟨⟨"of".toList, by decide⟩, ⟨⟨"  ".toList, by decide⟩, by decide⟩,
    ⟨⟨" ".toList, by decide⟩, by decide⟩, "of\n of".toList, by decide, by rintro c ⟨⟩; decide⟩
  obtain ⟨-, -, -, loop, hloop, hitem, hiterable, htrack, hcontent⟩ :=
    hread clause (by decide +kernel)
  refine ⟨hlocate, loop, hloop, hitem, hiterable, (htrack _).2 ?_, hcontent.trans (by decide +kernel)⟩
  exact ⟨⟨⟨⟨"  ".toList, by decide⟩, by decide⟩, "a;b".toList, by decide, by rintro c ⟨⟩; decide⟩,
    by decide +kernel, rfl⟩

end Loop

end FlowTemplate
