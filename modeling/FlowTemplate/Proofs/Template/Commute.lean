/-
The two passes in either order. Run over the chains first, the compiler meets loops as they are
written, in bodies whose first blanks are gone; then the pass over loops goes into the containers
that stand for the chains. Both orders make the image of the template.

A condition need not be read as it was meant: one that ends in an alias clause of its own is read as
a shorter condition with an alias. So templates are texts here (`Written`), and each of them is the
source of a tree (`Written.exists_template`).
-/
import FlowTemplate.Proofs.Template.Compile

namespace FlowTemplate

open Delimiter Template

/-! ## Compiled chains -/

theorem Guard.conjunction_balanced {earlier : List Text} {own : Option Text}
    (hearlier : ∀ condition ∈ earlier, brace.Balanced condition)
    (hown : ∀ condition ∈ own, brace.Balanced condition) :
    brace.Balanced (conjunction earlier own) := by
  have hand : brace.Balanced " && ".toList := by decide
  have hdeny : ∀ condition, brace.Balanced condition → brace.Balanced (deny condition) := by
    intro condition h
    have hopen : brace.Balanced "!(".toList := by decide
    have hclose : brace.Balanced ")".toList := by decide
    exact (hopen.append h).append hclose
  have hjoin : ∀ parts : List Text, (∀ part ∈ parts, brace.Balanced part) →
      brace.Balanced (parts.flatMap (" && ".toList ++ ·)) := by
    intro parts hparts
    induction parts with
    | nil => exact .nil
    | cons part parts ih =>
      rw [List.flatMap_cons]
      exact (hand.append (hparts part List.mem_cons_self)).append
        (ih fun part h => hparts part (List.mem_cons_of_mem _ h))
  cases earlier with
  | nil =>
    rw [conjunction_nil]
    cases own with
    | none => exact .nil
    | some condition => exact hown condition rfl
  | cons first earlier =>
    rw [conjunction_cons]
    refine (hdeny first (hearlier first List.mem_cons_self)).append (hjoin _ fun part hpart => ?_)
    rcases List.mem_append.1 hpart with hpart | hpart
    · obtain ⟨condition, hmem, rfl⟩ := List.mem_map.1 hpart
      exact hdeny condition (hearlier condition (List.mem_cons_of_mem _ hmem))
    · exact hown part (Option.mem_toList.1 hpart)

namespace Template.BranchHeader

variable (header : BranchHeader) {earlier : List Text}

theorem directive_balanced (h : ∀ condition ∈ earlier, brace.Balanced condition) :
    brace.Balanced (header.directive earlier) := by
  have hown : ∀ condition ∈ some header.condition.text, brace.Balanced condition := by
    rintro condition ⟨⟩
    exact header.condition.braces
  refine (Guard.conjunction_balanced h hown).append ?_
  cases header.alias? with
  | none => exact .nil
  | some clause =>
    have hlet : brace.Balanced "; let ".toList := by decide
    exact hlet.append (clause.name.balanced _)

theorem directive_no_at (h : ∀ condition ∈ earlier, '@' ∉ condition) :
    '@' ∉ header.directive earlier := by
  have hconjunction : '@' ∉ Guard.conjunction earlier (some header.condition.text) := by
    refine (Guard.not_mem_conjunction_iff (by decide) (by decide) _ _).2 ⟨h, ?_⟩
    rintro condition ⟨⟩
    exact header.condition.no_at
  refine List.not_mem_append hconjunction ?_
  cases header.alias? with
  | none => exact List.not_mem_nil
  | some clause => exact List.not_mem_append (by decide) (clause.name.not_mem (by decide))

theorem forall_mem_append_condition {P : Text → Prop} (h : ∀ condition ∈ earlier, P condition)
    (hown : P header.condition.text) : ∀ condition ∈ earlier ++ [header.condition.text], P condition := by
  intro condition hmem
  rcases List.mem_append.1 hmem with hmem | hmem
  · exact h condition hmem
  · rw [List.mem_singleton.1 hmem]
    exact hown

end Template.BranchHeader

theorem Template.branch_balanced {guard content : Text} (hguard : brace.Balanced guard)
    (hcontent : brace.Balanced content) :
    brace.Balanced (Template.element "*ngIf".toList guard content.trimStart) := by
  have hdirective : brace.Balanced "*ngIf".toList := by decide
  exact element_balanced hdirective hguard hcontent.trimStart

mutual

theorem Template.elements_balanced {loop : LoopHeader → Text → Text} (hloop : FramesLoops loop)
    (template : Template) : brace.Balanced (template.elements loop) := by
  match template with
  | .nil => exact .nil
  | .literal text rest => exact text.braces.append (rest.elements_balanced hloop)
  | .loop header body rest =>
    exact (hloop.balanced header _ (body.elements_balanced hloop)).append
      (rest.elements_balanced hloop)
  | .chain header content more rest =>
    have hfirst := branch_balanced (header.directive_balanced (List.forall_mem_nil _))
      (content.elements_balanced hloop)
    have hmore := more.elements_balanced hloop (List.forall_mem_singleton.2 header.condition.braces)
    exact hfirst.append (hmore.append (rest.elements_balanced hloop))

theorem Branches.elements_balanced {loop : LoopHeader → Text → Text} (hloop : FramesLoops loop)
    (more : Branches) {earlier : List Text} (h : ∀ condition ∈ earlier, brace.Balanced condition) :
    brace.Balanced (more.elements loop earlier) := by
  have hline : brace.Balanced ['\n'] := by decide
  match more with
  | .done => exact .nil
  | .elseIf _ _ header content more =>
    have hfirst := branch_balanced (header.directive_balanced h) (content.elements_balanced hloop)
    have hmore := more.elements_balanced hloop
      (header.forall_mem_append_condition h header.condition.braces)
    exact hline.append (hfirst.append hmore)
  | .otherwise _ _ content =>
    have hguard : brace.Balanced (Guard.conjunction earlier none) :=
      Guard.conjunction_balanced h (by simp)
    exact hline.append (branch_balanced hguard (content.elements_balanced hloop))

end

/-! ## The pass over loops behind the pass over chains -/

/-- The pass over loops goes into the element of a branch. -/
theorem Pass.Becomes.branch {limit : Nat} {guard content output : Text} (hguard : '@' ∉ guard)
    (hcontent : Becomes .loops Container.defaultTag limit (fun _ => True) content output) :
    Becomes .loops Container.defaultTag limit (fun _ => True)
      (Template.element "*ngIf".toList guard content.trimStart)
      (Template.element "*ngIf".toList guard output.trimStart) := by
  have hopening : '@' ∉ opening "*ngIf".toList guard :=
    List.not_mem_append (List.not_mem_append (by decide) hguard) (by decide)
  have hclosing : '@' ∉ closing := by decide
  exact (of_silent (.of_not_mem hopening)).append
    (hcontent.trimStart.append (of_silent (.of_not_mem hclosing)) fun _ _ => trivial) fun _ _ => trivial

mutual

/-- The pass over loops compiles the loops of a template whose chains are compiled. -/
theorem Template.elements_becomes (template : Template) {limit : Nat}
    (h : template.loopDepth ≤ limit) :
    Pass.Becomes .loops Container.defaultTag limit (fun _ => True)
      (template.elements LoopHeader.block) (template.elements LoopHeader.element) := by
  match template with
  | .nil => exact .nil
  | .literal text rest =>
    exact (Pass.Becomes.of_silent (.of_not_mem text.no_at)).append (rest.elements_becomes h)
      fun _ _ => trivial
  | .loop header body rest =>
    simp only [loopDepth, Nat.max_le] at h
    obtain ⟨limit, rfl⟩ : ∃ less, limit = less + 1 := ⟨limit - 1, by omega⟩
    have hbody := (body.elements_becomes (by omega : body.loopDepth ≤ limit)).result trivial
    exact (Pass.Becomes.loop header (body.elements_balanced framesLoops_block) hbody).append
      (rest.elements_becomes h.2) fun _ _ => trivial
  | .chain header content more rest =>
    simp only [loopDepth, Nat.max_le] at h
    obtain ⟨hcontent, hmore, hrest⟩ := h
    have hfirst := Pass.Becomes.branch (header.directive_no_at (List.forall_mem_nil _))
      (content.elements_becomes hcontent)
    have hmore := more.elements_becomes hmore (List.forall_mem_singleton.2 header.condition.no_at)
    exact hfirst.append (hmore.append (rest.elements_becomes hrest) fun _ _ => trivial)
      fun _ _ => trivial

theorem Branches.elements_becomes (more : Branches) {limit : Nat} (hdepth : more.loopDepth ≤ limit)
    {earlier : List Text} (h : ∀ condition ∈ earlier, '@' ∉ condition) :
    Pass.Becomes .loops Container.defaultTag limit (fun _ => True)
      (more.elements LoopHeader.block earlier) (more.elements LoopHeader.element earlier) := by
  have hline : Pass.Becomes .loops Container.defaultTag limit (fun _ => True) ['\n'] ['\n'] :=
    .of_silent (.of_not_mem (by decide))
  match more with
  | .done => exact .nil
  | .elseIf _ _ header content more =>
    simp only [Branches.loopDepth, Nat.max_le] at hdepth
    have hfirst := Pass.Becomes.branch (header.directive_no_at h) (content.elements_becomes hdepth.1)
    have hmore := more.elements_becomes hdepth.2
      (header.forall_mem_append_condition h header.condition.no_at)
    exact hline.append (hfirst.append hmore fun _ _ => trivial) fun _ _ => trivial
  | .otherwise _ _ content =>
    have hguard : '@' ∉ Guard.conjunction earlier none :=
      (Guard.not_mem_conjunction_iff (by decide) (by decide) _ _).2 ⟨h, by simp⟩
    exact hline.append (Pass.Becomes.branch hguard (content.elements_becomes hdepth)) fun _ _ => trivial

end

/-- Both orders of the passes compile a template to its image. -/
theorem Template.passes_source (template : Template) (limits : NestingLimits)
    (hloops : template.loopDepth < limits.loops) (hchains : template.chainDepth < limits.chains) :
    (Compiler.compileLoops limits Container.defaultTag template.source >>=
        Compiler.compileChains limits Container.defaultTag).result = .ok template.image ∧
      (Compiler.compileChains limits Container.defaultTag template.source >>=
        Compiler.compileLoops limits Container.defaultTag).result = .ok template.image := by
  obtain ⟨loops, chains⟩ := limits
  obtain ⟨loops, rfl⟩ : ∃ less, loops = less + 1 := ⟨loops - 1, by simp at hloops; omega⟩
  obtain ⟨chains, rfl⟩ : ∃ less, chains = less + 1 := ⟨chains - 1, by simp at hchains; omega⟩
  have hloopsFirst := (template.becomes_afterLoops (Nat.le_of_lt_succ hloops)).result trivial
  have hchainsSecond := (template.becomes_image (Nat.le_of_lt_succ hchains)).result .nil
  have hchainsFirst := (template.becomes_elements framesLoops_block
    (Nat.le_of_lt_succ hchains)).result .nil
  have hloopsSecond := (template.elements_becomes (Nat.le_of_lt_succ hloops)).result trivial
  rw [← template.image_eq_elements] at hloopsSecond
  constructor
  · rw [Traced.result_bind, Compiler.compileLoops, hloopsFirst]
    exact hchainsSecond
  · rw [Traced.result_bind, Compiler.compileChains, source, hchainsFirst]
    exact hloopsSecond

/-! ## Written templates -/

namespace Template

/-- A branch header with any expression as its condition, perhaps one that reads as if it had an
alias clause. -/
structure ConditionHeader extends Layout where
  condition : Expression
  alias? : Option AliasClause

def ConditionHeader.source (header : ConditionHeader) : Text :=
  header.wrap (header.condition.text ++ (header.alias?.map AliasClause.source).getD [])

/-- What is written as the condition is read as one, with an alias if it ends in an alias clause. -/
theorem ConditionHeader.exists_header (header : ConditionHeader) :
    ∃ read : BranchHeader, read.source = header.source := by
  obtain ⟨layout, condition, alias?⟩ := header
  by_cases hplain : alias? = none → ¬ EndsInAlias condition.text
  · exact ⟨⟨layout, condition, alias?, hplain⟩, rfl⟩
  obtain ⟨rfl, hends⟩ := Classical.not_imp.1 hplain
  obtain ⟨expression, blanks, gap, name, hne, hblanks, hgap, hgapNe, hname, htext⟩ := not_not.1 hends
  obtain ⟨before, after, hbefore, hafter, hexpression⟩ := Text.exists_blanks_trim expression
  let clause : AliasClause := ⟨⟨after, hafter⟩, ⟨blanks, hblanks⟩, ⟨⟨gap, hgap⟩, hgapNe⟩, ⟨name, hname⟩⟩
  have hcut : condition.text = before ++ (expression.trim ++ clause.source) := by
    have htail : clause.source =
        after ++ ';' :: (blanks ++ ("as".toList ++ (gap ++ name))) := rfl
    rw [htext, htail, ← List.append_assoc expression.trim, ← List.append_assoc before, ← hexpression]
  have hbalanced : ∀ kind : Delimiter, kind.Balanced expression.trim := fun kind => by
    have hrest := (hcut ▸ condition.balanced kind).of_append_left (hbefore.balanced kind)
    exact hrest.of_append_right (clause.source_balanced kind)
  have hneTrim : expression.trim ≠ [] := by
    intro hnil
    obtain ⟨c, cs, rfl⟩ := List.exists_cons_of_ne_nil hne
    have hblank := Text.Blank.of_trim hnil c List.mem_cons_self
    rw [condition.head c (by rw [htext]; rfl)] at hblank
    cases hblank
  have hno : '@' ∉ expression.trim := fun hm => condition.no_at <| by
    rw [htext]
    exact List.mem_append_left _ (Text.mem_of_mem_trim hm)
  -- The blanks in front of the expression count as those behind the parenthesis.
  refine ⟨{
    beforeHeader := layout.beforeHeader
    atStart := ⟨layout.atStart.text ++ before, layout.atStart.blank.append hbefore⟩
    atEnd := layout.atEnd
    beforeBody := layout.beforeBody
    condition := ⟨expression.trim, hneTrim, Text.trim_trim expression, hno, hbalanced .paren,
      hbalanced .brace⟩
    alias? := some clause
    plain := nofun }, ?_⟩
  simp only [BranchHeader.source, ConditionHeader.source, Layout.wrap, hcut, Option.map_some,
    Option.map_none, Option.getD_some, Option.getD_none, List.append_assoc, List.append_nil]

end Template

mutual

/-- A text that is written as a sequence of literals, loops and chains, with at most `loops` loops
and at most `chains` chains inside each other. -/
inductive Written : Nat → Nat → Text → Prop
  | nil {loops chains} : Written loops chains []
  | literal {loops chains rest} (text : Literal) (hrest : Written loops chains rest) :
      Written loops chains (text.text ++ rest)
  | loop {loops chains body rest} (header : LoopHeader) (hbody : Written loops chains body)
      (hrest : Written (loops + 1) chains rest) :
      Written (loops + 1) chains (header.block body ++ rest)
  | chain {loops chains content more rest} (header : ConditionHeader)
      (hcontent : Written loops chains content) (hmore : WrittenBranches loops chains more)
      (hrest : Written loops (chains + 1) rest) :
      Written loops (chains + 1)
        ("@if".toList ++ (header.source ++ (Template.inBraces content ++ (more ++ rest))))

/-- The further branches of a chain, in whose contents at most so many loops and chains are inside
each other. -/
inductive WrittenBranches : Nat → Nat → Text → Prop
  | done {loops chains} : WrittenBranches loops chains []
  | elseIf {loops chains content more} (beforeElse : Blanks) (beforeIf : Gap)
      (header : ConditionHeader) (hcontent : Written loops chains content)
      (hmore : WrittenBranches loops chains more) :
      WrittenBranches loops chains (beforeElse.text ++ ("@else".toList ++ (beforeIf.text ++
        ("if".toList ++ (header.source ++ (Template.inBraces content ++ more))))))
  | otherwise {loops chains content} (beforeElse beforeBody : Blanks)
      (hcontent : Written loops chains content) :
      WrittenBranches loops chains
        (beforeElse.text ++ ("@else".toList ++ (beforeBody.text ++ Template.inBraces content)))

end

mutual

/-- What is written is the source of a tree that is nested as deep. -/
theorem Written.exists_template {loops chains : Nat} {text : Text} (h : Written loops chains text) :
    ∃ template : Template, template.source = text ∧ template.loopDepth ≤ loops ∧
      template.chainDepth ≤ chains := by
  match h with
  | .nil => exact ⟨.nil, rfl, Nat.zero_le _, Nat.zero_le _⟩
  | .literal text hrest =>
    obtain ⟨rest, rfl, hloops, hchains⟩ := hrest.exists_template
    exact ⟨.literal text rest, rfl, hloops, hchains⟩
  | .loop header hbody hrest =>
    obtain ⟨body, rfl, hbodyLoops, hbodyChains⟩ := hbody.exists_template
    obtain ⟨rest, rfl, hloops, hchains⟩ := hrest.exists_template
    exact ⟨.loop header body rest, rfl, Nat.max_le.2 ⟨Nat.succ_le_succ hbodyLoops, hloops⟩,
      Nat.max_le.2 ⟨hbodyChains, hchains⟩⟩
  | .chain header hcontent hmore hrest =>
    obtain ⟨read, hread⟩ := header.exists_header
    obtain ⟨content, rfl, hcontentLoops, hcontentChains⟩ := hcontent.exists_template
    obtain ⟨more, rfl, hmoreLoops, hmoreChains⟩ := hmore.exists_branches
    obtain ⟨rest, rfl, hloops, hchains⟩ := hrest.exists_template
    refine ⟨.chain read content more rest, ?_, Nat.max_le.2 ⟨hcontentLoops, Nat.max_le.2
      ⟨hmoreLoops, hloops⟩⟩, Nat.max_le.2 ⟨Nat.succ_le_succ hcontentChains, Nat.max_le.2
      ⟨hmoreChains, hchains⟩⟩⟩
    simp only [Template.source, Template.write, hread]

theorem WrittenBranches.exists_branches {loops chains : Nat} {text : Text}
    (h : WrittenBranches loops chains text) :
    ∃ more : Branches, more.write LoopHeader.block = text ∧ more.loopDepth ≤ loops ∧
      more.chainDepth ≤ chains + 1 := by
  match h with
  | .done => exact ⟨.done, rfl, Nat.zero_le _, Nat.zero_le _⟩
  | .elseIf beforeElse beforeIf header hcontent hmore =>
    obtain ⟨read, hread⟩ := header.exists_header
    obtain ⟨content, rfl, hcontentLoops, hcontentChains⟩ := hcontent.exists_template
    obtain ⟨more, rfl, hmoreLoops, hmoreChains⟩ := hmore.exists_branches
    refine ⟨.elseIf beforeElse beforeIf read content more, ?_,
      Nat.max_le.2 ⟨hcontentLoops, hmoreLoops⟩,
      Nat.max_le.2 ⟨Nat.succ_le_succ hcontentChains, hmoreChains⟩⟩
    simp only [Template.source, Branches.write, hread]
  | .otherwise beforeElse beforeBody hcontent =>
    obtain ⟨content, rfl, hcontentLoops, hcontentChains⟩ := hcontent.exists_template
    exact ⟨.otherwise beforeElse beforeBody content, rfl, hcontentLoops,
      Nat.succ_le_succ hcontentChains⟩

end

/-- **The passes commute on what is written as a template.** Below the limits of both passes, the
loops can be compiled before the chains or behind them. -/
theorem Written.passes_commute {loops chains : Nat} {text : Text} (h : Written loops chains text)
    (limits : NestingLimits) (hloops : loops < limits.loops) (hchains : chains < limits.chains) :
    ∃ output,
      (Compiler.compileLoops limits Container.defaultTag text >>=
        Compiler.compileChains limits Container.defaultTag).result = .ok output ∧
      (Compiler.compileChains limits Container.defaultTag text >>=
        Compiler.compileLoops limits Container.defaultTag).result = .ok output := by
  obtain ⟨template, rfl, hloopDepth, hchainDepth⟩ := h.exists_template
  exact ⟨template.image, template.passes_source limits (Nat.lt_of_le_of_lt hloopDepth hloops)
    (Nat.lt_of_le_of_lt hchainDepth hchains)⟩

/-- A loop and a chain in a branch whose condition is read as one with an alias. -/
theorem Written.passes_commute_sample :
    ∃ output,
      (Compiler.compileLoops .default Container.defaultTag
          "@if (a; as b) \x7b @for (x of xs) \x7b@if (c) \x7by\x7d\x7d\x7d @else \x7bno\x7d".toList >>=
        Compiler.compileChains .default Container.defaultTag).result = .ok output ∧
      (Compiler.compileChains .default Container.defaultTag
          "@if (a; as b) \x7b @for (x of xs) \x7b@if (c) \x7by\x7d\x7d\x7d @else \x7bno\x7d".toList >>=
        Compiler.compileLoops .default Container.defaultTag).result = .ok output := by
  have hinner : Written 0 1 _ := .chain
    ⟨.spaced, ⟨['c'], by decide, by decide, by decide, by decide, by decide⟩, none⟩
    (.literal ⟨['y'], by decide, by decide⟩ .nil) .done .nil
  have hloop : Written 1 1 _ := .literal ⟨[' '], by decide, by decide⟩ (.loop
    { Layout.spaced with
      item := ⟨['x'], by decide⟩
      beforeOf := .space
      afterOf := .space
      iterable := ⟨"xs".toList, by decide, by decide, by decide, by decide, by decide⟩
      no_semicolon := by decide
      track? := none } hinner .nil)
  have helse : WrittenBranches 1 1 _ := .otherwise Gap.space.toBlanks Gap.space.toBlanks
    (.literal ⟨['n', 'o'], by decide, by decide⟩ .nil)
  obtain ⟨text, hwritten, htext⟩ : ∃ text, Written 1 2 text ∧ text =
      "@if (a; as b) \x7b @for (x of xs) \x7b@if (c) \x7by\x7d\x7d\x7d @else \x7bno\x7d".toList :=
    ⟨_, .chain ⟨.spaced, ⟨"a; as b".toList, by decide, by decide, by decide, by decide, by decide⟩,
      none⟩ hloop helse .nil, by decide +kernel⟩
  rw [← htext]
  exact hwritten.passes_commute .default (by decide) (by decide)

end FlowTemplate
