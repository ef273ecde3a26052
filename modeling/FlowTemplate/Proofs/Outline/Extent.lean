/-
How far a chain goes. Whatever stands around a located block, its chain is a stretch of the text: the
block, and behind it one continuation after another, each of them blanks, a keyword and the groups that
its branch is read from. The stretch is as long as it can be, because a continuation is read wherever one
stands (`Continuation.exists_read_iff`); only an `@else` ends a chain before the text does
(`Chain.ofBlock_standing`).
-/
import FlowTemplate.Proofs.Outline.Arm

namespace FlowTemplate

open Delimiter Template

/-! ## Groups and the blanks in front of them -/

namespace Group

variable {kind : Delimiter}

/-- A group with more blanks in front of it. -/
def padded (group : Group kind) (blanks : Blanks) : Group kind :=
  { group with blanks := ⟨blanks.text ++ group.blanks.text, blanks.blank.append group.blanks.blank⟩ }

theorem source_padded (blanks : Blanks) (group : Group kind) :
    (group.padded blanks).source = blanks.text ++ group.source := by
  simp [padded, source]

/-- A group without the blanks in front of it. -/
def bare (group : Group kind) : Group kind := { group with blanks := ⟨[], .nil⟩ }

theorem source_eq_bare (group : Group kind) :
    group.source = group.blanks.text ++ group.bare.source := by
  simp [bare, source]

theorem head_bare (group : Group kind) (rest : Text) :
    (group.bare.source ++ rest).head? = some kind.opener := by
  simp [bare, source]

end Group

/-! ## What continues a chain -/

/-- A continuation of a chain as it stands in a text: an `@else if` with a header and a body, or an
`@else` with a body. -/
inductive Continuation where
  | elseIf (blanks : Blanks) (gap : Gap) (groups : Groups)
  | otherwise (blanks : Blanks) (body : Group .brace)

namespace Continuation

variable {text rest : Text}

/-- A continuation as it is written. -/
def source : Continuation → Text
  | elseIf blanks gap groups =>
    blanks.text ++ ("@else".toList ++ (gap.text ++ ("if".toList ++ groups.source)))
  | otherwise blanks body => blanks.text ++ ("@else".toList ++ body.source)

/-- The groups of a continuation. -/
def arm : Continuation → Arm
  | elseIf _ _ groups => .ofGroups groups
  | otherwise _ body => ⟨none, body⟩

/-- The branch that a continuation spells. -/
def branch (next : Continuation) : Branch := next.arm.branch

theorem of_read {arm : Arm} (h : Arm.read text = some (.ok (arm, rest))) :
    ∃ next : Continuation, text = next.source ++ rest ∧ next.branch = arm.branch := by
  rcases Arm.read_eq_some_iff.1 h with ⟨ahead, hahead, houtcome⟩ | ⟨ahead, hahead, houtcome⟩
  · obtain ⟨blanks, gap, more, hblanks, hgap, hne, hmore, rfl, -⟩ :=
      Chain.afterElseIf?_eq_some_iff.1 hahead
    cases hread : Groups.read ahead with
    | error why => rw [hread] at houtcome; cases houtcome
    | ok found =>
      obtain ⟨groups, left⟩ := found
      rw [hread] at houtcome
      cases houtcome
      refine ⟨.elseIf ⟨blanks, hblanks⟩ ⟨⟨gap, hgap⟩, hne⟩
        ⟨groups.header.padded ⟨more, hmore⟩, groups.body⟩, ?_, rfl⟩
      rw [Groups.read_eq_ok_iff.1 hread]
      simp only [source, Groups.source, Group.source_padded, List.append_assoc]
  · obtain ⟨blanks, more, hblanks, hmore, rfl, -⟩ := Chain.afterElse?_eq_some_iff.1 hahead
    cases hread : Group.read .brace ahead with
    | error why => rw [hread] at houtcome; cases houtcome
    | ok found =>
      obtain ⟨body, left⟩ := found
      rw [hread] at houtcome
      cases houtcome
      refine ⟨.otherwise ⟨blanks, hblanks⟩ (body.padded ⟨more, hmore⟩), ?_, rfl⟩
      rw [Group.read_eq_ok_iff.1 hread]
      simp only [source, Group.source_padded, List.append_assoc]

theorem exists_read_source (next : Continuation) (rest : Text) :
    ∃ arm, Arm.read (next.source ++ rest) = some (.ok (arm, rest)) := by
  cases next with
  | elseIf blanks gap groups =>
    let bareGroups : Groups := ⟨groups.header.bare, groups.body⟩
    have hahead : Chain.afterElseIf? ((elseIf blanks gap groups).source ++ rest) =
        some (bareGroups.source ++ rest) := by
      refine Chain.afterElseIf?_eq_some_iff.2 ⟨blanks.text, gap.text, groups.header.blanks.text,
        blanks.blank, gap.blank, gap.ne_nil, groups.header.blanks.blank, ?_, ?_⟩
      · simp only [source, Groups.source, bareGroups, Group.source_eq_bare groups.header, List.append_assoc]
      · rw [Groups.source, List.append_assoc]
        exact groups.header.head_bare _
    exact ⟨.ofGroups bareGroups, by rw [Arm.read_of_elseIf hahead, Groups.read_source]; rfl⟩
  | otherwise blanks body =>
    have hahead : Chain.afterElse? ((otherwise blanks body).source ++ rest) =
        some (body.bare.source ++ rest) := by
      refine Chain.afterElse?_eq_some_iff.2 ⟨blanks.text, body.blanks.text, blanks.blank,
        body.blanks.blank, ?_, body.head_bare _⟩
      simp only [source, Group.source_eq_bare body, List.append_assoc]
    exact ⟨⟨none, body.bare⟩, by rw [Arm.read_of_else hahead, Group.read_source]; rfl⟩

theorem exists_read_iff :
    (∃ arm rest, Arm.read text = some (.ok (arm, rest))) ↔
      ∃ (next : Continuation) (rest : Text), text = next.source ++ rest := by
  constructor
  · rintro ⟨arm, rest, h⟩
    obtain ⟨next, htext, -⟩ := of_read h
    exact ⟨next, rest, htext⟩
  · rintro ⟨next, rest, rfl⟩
    obtain ⟨arm, h⟩ := next.exists_read_source rest
    exact ⟨arm, rest, h⟩

/-- The arms that are read one after another are continuations that stand one behind the other. All but
the last one have a condition, and if that has one too, no continuation stands behind it. -/
theorem exists_of_readAll (text : Text) :
    ∃ more : List Continuation,
      text = more.flatMap source ++ (Arm.readAll text).rest ∧
      (Arm.readAll text).arms.map Arm.branch = more.map branch ∧
      (∀ next ∈ more.dropLast, next.branch.isElse = false) ∧
      ((∀ last ∈ more.getLast?, last.branch.isElse = false) →
        ∀ (next : Continuation) (rest : Text), (Arm.readAll text).rest ≠ next.source ++ rest) := by
  induction text using Arm.reading with
  | ends text h =>
    have hnone : ¬ ∃ arm rest, Arm.read text = some (.ok (arm, rest)) := by simp [h]
    rw [Arm.readAll_of_none h]
    exact ⟨[], rfl, rfl, by simp, fun _ next rest htext => hnone (exists_read_iff.2 ⟨next, rest, htext⟩)⟩
  | broken text why h =>
    -- What is broken is no continuation, so none is missed there.
    have hnone : ¬ ∃ arm rest, Arm.read text = some (.ok (arm, rest)) := by simp [h]
    rw [Arm.readAll_of_broken h]
    exact ⟨[], rfl, rfl, by simp, fun _ next rest htext => hnone (exists_read_iff.2 ⟨next, rest, htext⟩)⟩
  | arm text arm rest h ih =>
    obtain ⟨next, htext, hbranch⟩ := of_read h
    have helse : next.branch.isElse = arm.header?.isNone := by rw [hbranch, Arm.isElse_branch]
    rw [Arm.readAll_of_ok h]
    by_cases hnone : arm.header?.isNone
    · rw [if_pos hnone]
      refine ⟨[next], by simpa using htext, by simp [hbranch], by simp, fun hlast => ?_⟩
      have := hlast next rfl
      rw [helse, hnone] at this
      cases this
    · rw [if_neg hnone]
      obtain ⟨more, hrest, hbranches, hinner, hmaximal⟩ := ih
      have hfirst : next.branch.isElse = false := by rw [helse]; exact Bool.eq_false_iff.2 hnone
      refine ⟨next :: more, ?_, by simp [hbranch, hbranches], ?_, fun hlast => hmaximal ?_⟩
      · rw [List.flatMap_cons, List.append_assoc, ← hrest]
        exact htext
      · cases more with
        | nil => simp
        | cons second more =>
          rw [List.dropLast_cons_cons]
          exact List.forall_mem_cons.2 ⟨hfirst, hinner⟩
      · intro last hmem
        refine hlast last ?_
        cases more with
        | nil => cases hmem
        | cons second more => rwa [List.getLast?_cons_cons]

end Continuation

/-! ## A chain in its text -/

/-- A chain as it stands in a text: what is before it, the groups of its block, its continuations, and
what is behind it. -/
structure StandingChain where
  before : Text
  first : Groups
  more : List Continuation
  after : Text

namespace StandingChain

/-- The block that begins a chain. -/
def block (chain : StandingChain) : Text := "@if".toList ++ chain.first.source

/-- The chain from its at sign to the end of its last body. -/
def source (chain : StandingChain) : Text := chain.block ++ chain.more.flatMap Continuation.source

/-- The text around a chain, with the chain in it. -/
def text (chain : StandingChain) : Text := chain.before ++ (chain.source ++ chain.after)

/-- The branches of a chain in order. -/
def branches (chain : StandingChain) : List Branch :=
  (Arm.ofGroups chain.first).branch :: chain.more.map Continuation.branch

/-- The offset just past a chain. -/
def stop (chain : StandingChain) : Nat := (chain.before ++ chain.source).length

/-- A chain is what is read from a block of a text: its pieces stand end to end from the block on, each
spells its branch, and nothing that would continue the chain is left out. -/
structure IsChainOf (chain : StandingChain) (text : Text) (block : Block) : Prop where
  text_eq : chain.text = text
  start_eq : block.start = chain.before.length
  block_stop_eq : block.stop = (chain.before ++ chain.block).length
  read : (Chain.ofBlock text block).result = .ok (chain.branches, chain.stop)
  first : ∃ branch ∈ chain.branches.head?, branch.isElse = false
  inner : ∀ branch ∈ chain.branches.dropLast, branch.isElse = false
  stop_ge : block.stop ≤ chain.stop
  stop_le : chain.stop ≤ text.length
  /-- Behind a last branch with a condition stands no continuation. -/
  maximal : (∀ last ∈ chain.branches.getLast?, last.isElse = false) →
    ∀ (next : Continuation) (rest : Text), chain.after ≠ next.source ++ rest

end StandingChain

/-- **A chain is a stretch of its text, and as long as it can be.** Every block that is located in a text
begins one, whatever stands around it. -/
theorem Chain.ofBlock_standing {text : Text} {start : Nat} {block : Block}
    (h : locate text "if".toList start = .ok (some block)) :
    ∃ chain : StandingChain, chain.IsChainOf text block := by
  obtain ⟨before, groups, behind, htext, hstart, hstop, hheader, hbody⟩ :=
    Block.exists_groups (by decide) h
  obtain ⟨more, hmore, hbranches, hinner, hmaximal⟩ := Continuation.exists_of_readAll behind
  let chain : StandingChain := ⟨before, groups, more, (Arm.readAll behind).rest⟩
  have hsplit : text = (chain.before ++ chain.block) ++ behind := by
    rw [htext]
    simp only [chain, StandingChain.block, List.append_assoc]
    rfl
  have hwhole : chain.text = text := by
    rw [hsplit, hmore]
    simp only [chain, StandingChain.text, StandingChain.source, List.append_assoc]
  have hlength : text.length = chain.stop + (Arm.readAll behind).rest.length := by
    rw [← hwhole, StandingChain.text, ← List.append_assoc, List.length_append]
    rfl
  have hblock : block.stop = (chain.before ++ chain.block).length := hstop
  refine ⟨chain, hwhole, hstart, hblock, ?_, ⟨_, rfl, rfl⟩, ?_, ?_, ?_, ?_⟩
  · rw [hsplit] at hheader hbody
    have hresult := Chain.result_ofBlock_readAll hblock hheader hbody
    rw [← hsplit, hlength, Nat.add_sub_cancel, List.map_cons, hbranches] at hresult
    exact hresult
  · cases more with
    | nil => simp [chain, StandingChain.branches]
    | cons next more =>
      simp only [chain, StandingChain.branches, List.map_cons, List.dropLast_cons_cons]
      refine List.forall_mem_cons.2 ⟨rfl, ?_⟩
      rw [← List.map_cons, ← List.map_dropLast]
      exact List.forall_mem_map.2 hinner
  · rw [hblock, StandingChain.stop, StandingChain.source, ← List.append_assoc]
    exact (List.prefix_append _ _).length_le
  · rw [hlength]
    exact Nat.le_add_right ..
  · intro hlast
    refine hmaximal fun last hmem => hlast last.branch ?_
    cases more with
    | nil => cases hmem
    | cons next more =>
      simp only [chain, StandingChain.branches, List.map_cons, List.getLast?_cons_cons]
      rw [← List.map_cons, List.getLast?_map]
      exact Option.mem_map_of_mem _ hmem

/-- Two chains. The last `@else if` of the second one does not close its header. -/
def StandingChain.sampleText : Text :=
  "@if (a) \x7bx\x7d @if (b; as c) \x7b y \x7d @else if (d) \x7bz\x7d @else if (e \x7bw\x7d".toList

theorem Chain.ofBlock_standing_sample :
    locate StandingChain.sampleText "if".toList 5 =
        .ok (some ⟨"if".toList, 12, ⟨16, 25⟩, ⟨26, 31⟩⟩) ∧
      ∃ chain : StandingChain,
        chain.IsChainOf StandingChain.sampleText ⟨"if".toList, 12, ⟨16, 25⟩, ⟨26, 31⟩⟩ := by
  have hlocate : locate StandingChain.sampleText "if".toList 5 =
      .ok (some ⟨"if".toList, 12, ⟨16, 25⟩, ⟨26, 31⟩⟩) := by decide +kernel
  exact ⟨hlocate, Chain.ofBlock_standing hlocate⟩

end FlowTemplate
