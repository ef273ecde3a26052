/-
Printed chains: branches written one behind the other, with blanks wherever the grammar has a place
for them. What stands in a header only has to close its parentheses, and what stands in a body its
braces, so both may hold text that looks like control flow. Read back, a printed chain gives its
branches and ends where it was printed, unless the text behind it goes on with one branch more
(`Printed.ofBlock_printed`).
-/
import FlowTemplate.Proofs.Outline.Arm

namespace FlowTemplate

open Delimiter Template

namespace Printed

/-! ## What is printed -/

/-- A condition in its header, with an alias clause or without one. Without one the condition does not
look as if it had one. -/
structure Header extends Layout where
  condition : Text
  ne_nil : condition ≠ []
  trimmed : condition.trim = condition
  parens : paren.Balanced condition
  alias? : Option AliasClause
  plain : alias? = none → ¬ EndsInAlias condition

/-- A content in its braces, behind blanks that are not part of it. -/
structure Body where
  blanks : Blanks
  content : Text
  braces : brace.Balanced content
  head : ∀ c ∈ content.head?, isBlank c = false

/-- The branches of a chain behind its first one. Nothing follows an `@else`. -/
inductive Arms where
  | done
  | elseIf (beforeElse : Blanks) (beforeIf : Gap) (header : Header) (body : Body) (more : Arms)
  | otherwise (beforeElse beforeBody : Blanks) (body : Body)

end Printed

/-- A chain: a branch with a condition, and those that continue it. -/
structure Printed where
  header : Printed.Header
  body : Printed.Body
  more : Printed.Arms

namespace Printed

/-! ## As text -/

def Header.source (header : Header) : Text :=
  header.wrap (header.condition ++ (header.alias?.map AliasClause.source).getD [])

def Body.source (body : Body) : Text := inBraces (body.blanks.text ++ body.content)

/-- The branches as they are written, each behind the one before. -/
def Arms.source : Arms → Text
  | done => []
  | elseIf beforeElse beforeIf header body more =>
    beforeElse.text ++ ("@else".toList ++ (beforeIf.text ++ ("if".toList ++
      (header.source ++ (body.source ++ more.source)))))
  | otherwise beforeElse beforeBody body =>
    beforeElse.text ++ ("@else".toList ++ (beforeBody.text ++ body.source))

end Printed

/-- A chain as it is written. -/
def Printed.source (chain : Printed) : Text :=
  "@if".toList ++ (chain.header.source ++ (chain.body.source ++ chain.more.source))

namespace Printed

/-! ## As branches -/

/-- The branch that a header and a body print. -/
def branch (header : Header) (body : Body) : Branch :=
  ⟨some header.condition, body.content, header.alias?.map fun clause => clause.name.text⟩

def Arms.branches : Arms → List Branch
  | done => []
  | elseIf _ _ header body more => branch header body :: more.branches
  | otherwise _ _ body => [⟨none, body.content, none⟩]

/-- Whether the last branch is an `@else`. -/
def Arms.EndsInElse : Arms → Prop
  | done => False
  | elseIf _ _ _ _ more => more.EndsInElse
  | otherwise _ _ _ => True

end Printed

/-- The branches of a chain in order. -/
def Printed.branches (chain : Printed) : List Branch :=
  branch chain.header chain.body :: chain.more.branches

/-- A text that goes on with an `@else if` before a parenthesis or an `@else` before a brace. -/
def Chain.GoesOn (text : Text) : Prop :=
  (∃ blanks gap more rest : Text, blanks.Blank ∧ gap.Blank ∧ gap ≠ [] ∧ more.Blank ∧
    text = blanks ++ ("@else".toList ++ (gap ++ ("if".toList ++ (more ++ '(' :: rest))))) ∨
  ∃ blanks more rest : Text, blanks.Blank ∧ more.Blank ∧
    text = blanks ++ ("@else".toList ++ (more ++ '{' :: rest))

theorem Chain.goesOn_iff {text : Text} :
    GoesOn text ↔ (afterElseIf? text).isSome ∨ (afterElse? text).isSome := by
  simp only [Option.isSome_iff_exists, afterElseIf?_eq_some_iff, afterElse?_eq_some_iff,
    List.head?_eq_some_iff]
  constructor
  · rintro (⟨blanks, gap, more, rest, hblanks, hgap, hne, hmore, rfl⟩ |
      ⟨blanks, more, rest, hblanks, hmore, rfl⟩)
    · exact .inl ⟨_, blanks, gap, more, hblanks, hgap, hne, hmore, rfl, rest, rfl⟩
    · exact .inr ⟨_, blanks, more, hblanks, hmore, rfl, rest, rfl⟩
  · rintro (⟨_, blanks, gap, more, hblanks, hgap, hne, hmore, rfl, rest, rfl⟩ |
      ⟨_, blanks, more, hblanks, hmore, rfl, rest, rfl⟩)
    · exact .inl ⟨blanks, gap, more, rest, hblanks, hgap, hne, hmore, rfl⟩
    · exact .inr ⟨blanks, more, rest, hblanks, hmore, rfl⟩

instance {text : Text} : Decidable (Chain.GoesOn text) := decidable_of_iff _ Chain.goesOn_iff.symm

theorem Arm.read_eq_none {text : Text} (h : ¬ Chain.GoesOn text) : Arm.read text = none := by
  rw [Chain.goesOn_iff, not_or, Option.not_isSome_iff_eq_none, Option.not_isSome_iff_eq_none] at h
  rw [Arm.read, h.1, h.2]
  rfl

namespace Printed

/-! ## The groups of a branch -/

/-- The group of a header behind `blanks`. -/
def Header.group (blanks : Blanks) (header : Header) : Group .paren where
  blanks := blanks
  inside := header.atStart.text ++
    ((header.condition ++ (header.alias?.map AliasClause.source).getD []) ++ header.atEnd.text)
  balanced := by
    refine (header.atStart.blank.balanced _).append (Balanced.append ?_ (header.atEnd.blank.balanced _))
    refine header.parens.append ?_
    cases header.alias? with
    | none => exact .nil
    | some clause => exact clause.source_balanced paren

/-- The group of a body behind `blanks`. -/
def Body.group (blanks : Blanks) (body : Body) : Group .brace where
  blanks := blanks
  inside := body.blanks.text ++ body.content
  balanced := (body.blanks.blank.balanced _).append body.braces

/-- The groups of a branch, where `beforeHeader` stands before the parenthesis. -/
def groups (beforeHeader : Blanks) (header : Header) (body : Body) : Groups :=
  ⟨header.group beforeHeader, body.group header.beforeBody⟩

theorem source_groups (header : Header) (body : Body) :
    (groups header.beforeHeader header body).source = header.source ++ body.source := by
  simp [groups, Groups.source, Group.source, Header.group, Body.group, Header.source, Body.source,
    Layout.wrap, inBraces, opener, closer]

theorem source_groups_unpadded (header : Header) (body : Body) :
    header.beforeHeader.text ++ (groups ⟨[], .nil⟩ header body).source =
      header.source ++ body.source := by
  simp [groups, Groups.source, Group.source, Header.group, Body.group, Header.source, Body.source,
    Layout.wrap, inBraces, opener, closer]

theorem Body.trimStart_inside (body : Body) : (body.blanks.text ++ body.content).trimStart = body.content := by
  rw [body.blanks.blank.trimStart_append, Text.trimStart_of_head body.head]

theorem branch_ofGroups (beforeHeader : Blanks) (header : Header) (body : Body) :
    (Arm.ofGroups (groups beforeHeader header body)).branch = branch header body := by
  have hcondition := ofHeader_withAlias header.ne_nil header.trimmed header.alias? header.plain
    header.atStart.blank header.atEnd.blank
  simp only [Arm.branch, Arm.ofGroups, groups, Arm.content, Header.group, Body.group, hcondition,
    body.trimStart_inside, branch]

/-! ## Reading -/

/-- A further branch is read with what follows it left over. -/
theorem read_elseIf (beforeElse : Blanks) (beforeIf : Gap) (header : Header) (body : Body) (rest : Text) :
    Arm.read (beforeElse.text ++ ("@else".toList ++ (beforeIf.text ++ ("if".toList ++
        (header.source ++ (body.source ++ rest)))))) =
      some (.ok (Arm.ofGroups (groups ⟨[], .nil⟩ header body), rest)) := by
  have hahead : Chain.afterElseIf? (beforeElse.text ++ ("@else".toList ++ (beforeIf.text ++
      ("if".toList ++ (header.source ++ (body.source ++ rest)))))) =
      some ((groups ⟨[], .nil⟩ header body).source ++ rest) := by
    refine Chain.afterElseIf?_eq_some_iff.2 ⟨beforeElse.text, beforeIf.text, header.beforeHeader.text,
      beforeElse.blank, beforeIf.blank, beforeIf.ne_nil, header.beforeHeader.blank, ?_, rfl⟩
    rw [← List.append_assoc header.source, ← source_groups_unpadded, List.append_assoc]
  rw [Arm.read_of_elseIf hahead, Groups.read_source]
  rfl

theorem read_otherwise (beforeElse beforeBody : Blanks) (body : Body) (rest : Text) :
    Arm.read (beforeElse.text ++ ("@else".toList ++ (beforeBody.text ++ (body.source ++ rest)))) =
      some (.ok (⟨none, body.group ⟨[], .nil⟩⟩, rest)) := by
  have hbody : body.source = (body.group ⟨[], .nil⟩).source := by
    simp [Body.source, Body.group, Group.source, inBraces, opener, closer]
  have hahead : Chain.afterElse? (beforeElse.text ++ ("@else".toList ++ (beforeBody.text ++
      (body.source ++ rest)))) = some ((body.group ⟨[], .nil⟩).source ++ rest) := by
    refine Chain.afterElse?_eq_some_iff.2 ⟨beforeElse.text, beforeBody.text, beforeElse.blank,
      beforeBody.blank, ?_, rfl⟩
    rw [hbody]
  rw [Arm.read_of_else hahead, Group.read_source]
  rfl

/-- The branches behind the first one are read to their end. -/
theorem readAll_source (arms : Arms) {rest : Text} (h : arms.EndsInElse ∨ ¬ Chain.GoesOn rest) :
    ((Arm.readAll (arms.source ++ rest)).arms.map Arm.branch = arms.branches) ∧
      (Arm.readAll (arms.source ++ rest)).rest = rest := by
  induction arms with
  | done =>
    have hgoes : ¬ Chain.GoesOn rest := h.resolve_left id
    rw [Arms.source, List.nil_append, Arm.readAll_of_none (Arm.read_eq_none hgoes)]
    exact ⟨rfl, rfl⟩
  | elseIf beforeElse beforeIf header body more ih =>
    obtain ⟨harms, hrest⟩ := ih h
    have hread := read_elseIf beforeElse beforeIf header body (more.source ++ rest)
    simp only [Arms.source, List.append_assoc] at hread ⊢
    rw [Arm.readAll_of_ok hread, if_neg (by simp [Arm.ofGroups])]
    simp only [List.map_cons, branch_ofGroups, harms, hrest, Arms.branches, and_self]
  | otherwise beforeElse beforeBody body =>
    have hread := read_otherwise beforeElse beforeBody body rest
    have hbranch : (Arm.mk none (body.group ⟨[], .nil⟩)).branch = ⟨none, body.content, none⟩ := by
      simp only [Arm.branch, Arm.content, Body.group, body.trimStart_inside]
    simp only [Arms.source, List.append_assoc] at hread ⊢
    rw [Arm.readAll_of_ok hread, if_pos (by rfl)]
    simp only [List.map_cons, List.map_nil, hbranch, Arms.branches, and_self]

/-- **A printed chain is read back as its branches**, and ends where it was printed. Text without an at
sign may stand before it, and behind it any text that does not go on with one branch more. -/
theorem ofBlock_printed (chain : Printed) {before after : Text} (hbefore : '@' ∉ before)
    (hafter : chain.more.EndsInElse ∨ ¬ Chain.GoesOn after) :
    ∃ block, locate (before ++ (chain.source ++ after)) "if".toList 0 = .ok (some block) ∧
      block.start = before.length ∧
      (Chain.ofBlock (before ++ (chain.source ++ after)) block).result =
        .ok (chain.branches, (before ++ chain.source).length) := by
  let first := groups chain.header.beforeHeader chain.header chain.body
  let behind := chain.more.source ++ after
  have htext : before ++ (chain.source ++ after) =
      before ++ ('@' :: "if".toList ++ (first.source ++ behind)) := by
    have hat : "@if".toList = '@' :: "if".toList := rfl
    simp only [Printed.source, first, behind, source_groups, List.append_assoc, hat]
  have hends : nameEnds (first.source ++ behind) = true := by
    have := nameEnds_header chain.header.beforeHeader (first.header.inside ++ ')' ::
      (first.body.source ++ behind))
    simpa [first, groups, Groups.source, Group.source, Header.group, opener, closer] using this
  have hcut : Text.cutKeyword? "if".toList (before ++ (chain.source ++ after)) =
      some (before, first.source ++ behind) :=
    (Text.cutKeyword?_eq_some_iff (by decide)).2 ⟨htext, hends, fun hm => hbefore hm.at_mem⟩
  obtain ⟨block, hlocate, hstart, hstop, hheader, hbody⟩ :=
    Block.locate_of_read (by decide) hcut (Groups.read_source first behind)
  refine ⟨block, hlocate, hstart, ?_⟩
  obtain ⟨harms, hrest⟩ := readAll_source chain.more hafter
  have hsplit : before ++ (chain.source ++ after) =
      (before ++ ('@' :: "if".toList ++ first.source)) ++ behind := by
    rw [htext]
    simp only [List.append_assoc]
  have hlength : (before ++ (chain.source ++ after)).length - after.length =
      (before ++ chain.source).length := by
    rw [← List.append_assoc, List.length_append, Nat.add_sub_cancel]
  rw [hsplit] at hheader hbody
  have hresult := Chain.result_ofBlock_readAll hstop hheader hbody
  rw [← hsplit, hrest, hlength] at hresult
  rw [hresult, List.map_cons, branch_ofGroups, harms]
  rfl

/-- Two branches. The condition of the first one ends like an alias clause in front of its alias, and the
contents look like control flow. -/
def sample : Printed where
  header :=
    { Layout.spaced with
      condition := "a; as b".toList
      ne_nil := by decide
      trimmed := by decide
      parens := by decide
      alias? := some ⟨⟨[], .nil⟩, Gap.space.toBlanks, Gap.space, ⟨['c'], by decide⟩⟩
      plain := by simp }
  body := ⟨Gap.space.toBlanks, "@else \x7bx\x7d".toList, by decide, fun _ hc => Option.some.inj hc ▸ by decide⟩
  more := .elseIf Gap.space.toBlanks Gap.space
    { Layout.spaced with
      condition := "f(\x7b)".toList
      ne_nil := by decide
      trimmed := by decide
      parens := by decide
      alias? := none
      plain := fun _ hends => absurd hends.semicolon_mem (by decide) }
    ⟨⟨[], .nil⟩, "@if (q) \x7by\x7d".toList, by decide, fun _ hc => Option.some.inj hc ▸ by decide⟩ .done

theorem ofBlock_printed_sample :
    '@' ∉ "<p>".toList ∧ (sample.more.EndsInElse ∨ ¬ Chain.GoesOn " @else".toList) ∧
      ∃ block, locate ("<p>".toList ++ (sample.source ++ " @else".toList)) "if".toList 0 =
          .ok (some block) ∧ block.start = 3 ∧
        (Chain.ofBlock ("<p>".toList ++ (sample.source ++ " @else".toList)) block).result =
          .ok ([⟨some "a; as b".toList, "@else \x7bx\x7d".toList, some ['c']⟩,
            ⟨some "f(\x7b)".toList, "@if (q) \x7by\x7d".toList, none⟩], 65) := by
  have hbefore : '@' ∉ "<p>".toList := by decide
  have hafter : sample.more.EndsInElse ∨ ¬ Chain.GoesOn " @else".toList := .inr (by decide)
  exact ⟨hbefore, hafter, ofBlock_printed sample hbefore hafter⟩

example : sample.source =
    "@if (a; as b; as c) \x7b @else \x7bx\x7d\x7d @else if (f(\x7b)) \x7b@if (q) \x7by\x7d\x7d".toList := by
  decide

end Printed

end FlowTemplate
