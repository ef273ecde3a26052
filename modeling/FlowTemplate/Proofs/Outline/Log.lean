/-
What passes log. A pass logs that it leaves text as it is exactly where its outline says so, at every
depth (`Outline.logs_run_iff`), and what it leaves is what is found in its output. So the keywords that
are listed as unresolved in a compiled template are those that the log speaks of.
-/
import FlowTemplate.Proofs.Outline.Mention

namespace FlowTemplate

open Fault

/-! ## Logs of composed computations -/

/-- A computation logs an event of some kind. -/
def Traced.Logs {α : Type} (p : Event → Prop) (computation : Traced α) : Prop :=
  ∃ event ∈ computation.events, p event

namespace Traced

variable {α β : Type} {p : Event → Prop} {value : α}

theorem not_logs_pure : ¬ (pure value : Traced α).Logs p := fun ⟨_, h, _⟩ => List.not_mem_nil h

theorem logs_log {event : Event} : (log event).Logs p ↔ p event := by
  simp [Logs, log]

theorem logs_attempt {computation : Traced α} : computation.attempt.Logs p ↔ computation.Logs p :=
  Iff.rfl

/-- Behind a value both parts of a composed computation log what they do by themselves. -/
theorem logs_bind_of_ok {first : Traced α} (h : first.result = .ok value) (next : α → Traced β) :
    (first >>= next).Logs p ↔ first.Logs p ∨ (next value).Logs p := by
  simp only [Logs, events_bind, h, List.mem_append, or_and_right, exists_or]

theorem exists_ok_mapM {f : α → Traced β} {list : List α}
    (h : ∀ a ∈ list, ∃ b, (f a).result = .ok b) : ∃ bs, (list.mapM f).result = .ok bs := by
  cases hresult : (list.mapM f).result with
  | ok bs => exact ⟨bs, rfl⟩
  | error fault =>
    rw [result_mapM] at hresult
    obtain ⟨a, ha, hfault⟩ := Except.mapM_error hresult
    obtain ⟨b, hb⟩ := h a ha
    rw [hb] at hfault
    cases hfault

theorem logs_mapM {f : α → Traced β} {list : List α} (h : ∀ a ∈ list, ∃ b, (f a).result = .ok b) :
    (list.mapM f).Logs p ↔ ∃ a ∈ list, (f a).Logs p := by
  induction list with
  | nil => exact iff_of_false not_logs_pure (by simp)
  | cons a list ih =>
    obtain ⟨⟨b, hb⟩, hlist⟩ := List.forall_mem_cons.1 h
    obtain ⟨bs, hbs⟩ := exists_ok_mapM hlist
    rw [List.mapM_cons, logs_bind_of_ok hb, logs_bind_of_ok hbs, ih hlist,
      or_iff_left not_logs_pure]
    simp

end Traced

open Traced

/-- An event by which a pass over the construct leaves a keyword of it as text. Only a loop can have a
header for which its whole block is left. -/
def Construct.LeftBy (construct : Construct) : Event → Prop
  | .passStopped keyword _ => keyword = construct.keyword
  | .keywordSkipped keyword _ => keyword = construct.keyword
  | .blockLeft keyword _ => construct = .loops ∧ keyword = construct.keyword
  | _ => False

/-! ## Logs of single blocks -/

theorem Loop.not_logs_ofBlock (construct : Construct) (text : Text) (block : Block) :
    ¬ (ofBlock text block).Logs construct.LeftBy := by
  rintro ⟨event, hmem, hleft⟩
  simp only [ofBlock] at hmem
  split at hmem
  · cases hmem
  · rw [events_bind, result_track] at hmem
    simp only [events_pure, List.append_nil, track] at hmem
    split at hmem
    · cases hmem
    · split at hmem
      · cases hmem
      · obtain rfl := List.mem_singleton.1 hmem
        exact hleft

namespace Chain

theorem not_logs_continueFrom (construct : Construct) (text : Text) (fuel : Nat) (last : Branch)
    (stop : Nat) : ¬ (continueFrom text fuel last stop).Logs construct.LeftBy := by
  induction fuel generalizing last stop with
  | zero => exact not_logs_pure
  | succ fuel ih =>
    rw [continueFrom]
    split
    · exact not_logs_pure
    · split
      · exact not_logs_pure
      next branch next _ =>
        rintro ⟨event, hmem, hleft⟩
        rw [events_bind] at hmem
        rcases List.mem_append.1 hmem with hmem | hmem
        · exact ih branch next ⟨event, hmem, hleft⟩
        · split at hmem <;> cases hmem
      · rw [logs_bind_of_ok (result_log _), logs_log]
        exact fun h => h.elim id not_logs_pure
      · rintro ⟨_, h, _⟩
        exact List.not_mem_nil h

theorem not_logs_ofBlock (construct : Construct) (text : Text) (block : Block) :
    ¬ (ofBlock text block).Logs construct.LeftBy := by
  rintro ⟨event, hmem, hleft⟩
  rw [ofBlock, events_bind] at hmem
  rcases List.mem_append.1 hmem with hmem | hmem
  · exact not_logs_continueFrom _ _ _ _ _ ⟨event, hmem, hleft⟩
  · split at hmem <;> cases hmem

end Chain

namespace Construct

variable {construct : Construct} {tag pre back rest : Text} {inner : Text → Traced Text} {block : Block}
  {groups : Groups} {piece : Piece construct} {m : Text → Text}

/-- The compilation of a piece logs what the compilation of its contents does. -/
theorem logs_compileBlock_iff (hstop : block.stop = pre.length)
    (hheader : block.headerText (pre ++ back) = groups.header.inside)
    (hbody : block.bodyText (pre ++ back) = groups.body.inside)
    (hread : construct.read groups back = some (piece, rest))
    (hinner : ∀ content ∈ piece.contents, (inner content).result = .ok (m content)) :
    (construct.compileBlock tag inner (pre ++ back) block).Logs construct.LeftBy ↔
      ∃ content ∈ piece.contents, (inner content).Logs construct.LeftBy := by
  cases construct with
  | loops =>
    obtain ⟨loop, hloop, rfl, rfl⟩ := readLoop_eq_some hread
    have hresult : (Loop.ofBlock (pre ++ rest) block).result = .ok loop := by
      rw [Loop.result_ofBlock_eq, hheader, hbody, hloop]
    have hcontent := hinner loop.content (List.mem_singleton.2 rfl)
    rw [compileBlock, logs_bind_of_ok hresult, logs_bind_of_ok hcontent,
      or_iff_right (Loop.not_logs_ofBlock _ _ _), or_iff_left not_logs_pure]
    simp only [Piece.contents, List.mem_singleton, exists_eq_left]
  | chains =>
    cases hread
    have hresult := Chain.result_ofBlock_readAll hstop hheader hbody
    generalize Arm.ofGroups groups :: (Arm.readAll back).arms = arms at hinner hresult ⊢
    have hbranches : ∀ branch ∈ arms.map Arm.branch, ∃ compiled, (do
        let content ← inner branch.content
        return { branch with content } : Traced Branch).result = .ok compiled := by
      intro branch hbranch
      obtain ⟨arm, harm, rfl⟩ := List.mem_map.1 hbranch
      rw [result_bind, Arm.content_branch, hinner arm.content (List.mem_map_of_mem harm)]
      exact ⟨_, rfl⟩
    obtain ⟨compiled, hcompiled⟩ := exists_ok_mapM hbranches
    rw [compileBlock, logs_bind_of_ok hresult, or_iff_right (Chain.not_logs_ofBlock _ _ _),
      logs_bind_of_ok hcompiled, or_iff_left not_logs_pure, logs_mapM hbranches]
    simp only [Piece.contents, List.mem_map, exists_exists_and_eq_and, Arm.content_branch]
    refine exists_congr fun arm => and_congr_right fun harm => ?_
    have hcontent := hinner arm.content (List.mem_map_of_mem harm)
    rw [logs_bind_of_ok hcontent, or_iff_left not_logs_pure]

end Construct

/-! ## Logs of passes -/

namespace Pass

variable {construct : Construct} {compileBlock : Text → Block → Traced (Text × Nat)}
  {text output : Text} {cursor : Nat}

theorem logs_of_unbalanced {position : Nat} (h : cursor < text.length)
    (hlocate : locate text construct.keyword cursor = .error (.unbalanced position)) (fuel : Nat) :
    (runFrom construct compileBlock text (fuel + 1) cursor output).Logs construct.LeftBy := by
  rw [runFrom, if_neg (Nat.not_le.2 h), hlocate]
  exact (logs_bind_of_ok (result_log _) _).2 (.inl (logs_log.2 rfl))

theorem logs_of_malformedHeader {position : Nat} {header : Text} (h : cursor < text.length)
    (hlocate : locate text construct.keyword cursor = .error (.malformedHeader position header))
    (fuel : Nat) :
    (runFrom construct compileBlock text (fuel + 1) cursor output).Logs construct.LeftBy := by
  rw [runFrom, if_neg (Nat.not_le.2 h), hlocate]
  exact (logs_bind_of_ok (result_log _) _).2 (.inl (logs_log.2 rfl))

theorem logs_of_rejected {compileBlock : Text → Block → Traced (Text × Nat)} {block : Block}
    {position : Nat} {header : Text} (h : cursor < text.length)
    (hlocate : locate text Construct.loops.keyword cursor = .ok (some block))
    (hblock : (compileBlock text block).result = .error (.malformedHeader position header))
    (fuel : Nat) :
    (runFrom .loops compileBlock text (fuel + 1) cursor output).Logs Construct.loops.LeftBy := by
  rw [runFrom, if_neg (Nat.not_le.2 h), hlocate]
  refine (logs_bind_of_ok (result_attempt _) _).2 (.inr ?_)
  rw [hblock]
  exact (logs_bind_of_ok (result_log _) _).2 (.inl (logs_log.2 ⟨rfl, rfl⟩))

theorem logs_of_block {p : Event → Prop} {block : Block} {markup : Text} {stop : Nat}
    (h : cursor < text.length)
    (hlocate : locate text construct.keyword cursor = .ok (some block))
    (hblock : (compileBlock text block).result = .ok (markup, stop)) (fuel : Nat) :
    (runFrom construct compileBlock text (fuel + 1) cursor output).Logs p ↔
      (compileBlock text block).Logs p ∨
        (runFrom construct compileBlock text fuel stop
          (output ++ text.slice cursor block.start ++ markup)).Logs p := by
  rw [runFrom, if_neg (Nat.not_le.2 h), hlocate]
  refine (logs_bind_of_ok (result_attempt _) _).trans (or_congr logs_attempt ?_)
  rw [hblock]

/-- The first block of a text, where the text stands behind another. -/
theorem locate_of_read_at {keyword before after back : Text} (hk : keyword.IsKeyword) {groups : Groups}
    (hcut : Text.cutKeyword? keyword text = some (before, after))
    (h : Groups.read after = .ok (groups, back)) (pre : Text) :
    ∃ block, locate (pre ++ text) keyword pre.length = .ok (some block) ∧
      pre ++ text = pre ++ (before ++ ('@' :: keyword ++ groups.source)) ++ back ∧
      block.stop = (pre ++ (before ++ ('@' :: keyword ++ groups.source))).length ∧
      block.headerText (pre ++ text) = groups.header.inside ∧
      block.bodyText (pre ++ text) = groups.body.inside := by
  obtain ⟨block, hlocate, -, hstop, hheader, hbody⟩ := Block.locate_of_read hk hcut h
  obtain ⟨-, -, hwithin⟩ := locate_ok hlocate
  refine ⟨_, locate_append_of_eq hlocate pre, ?_, ?_, ?_, ?_⟩
  · rw [((Text.cutKeyword?_eq_some_iff hk).1 hcut).1, Groups.read_eq_ok_iff.1 h]
    simp
  · simp only [Block.shift_stop, hstop, List.length_append]
  · rw [← hheader]
    exact Span.innerText_shift pre text hwithin.header.stop_pos
  · rw [← hbody]
    exact Span.innerText_shift pre text hwithin.body.stop_pos

/-- Over a piece a pass logs what it does over the contents and behind the piece. -/
theorem logs_of_piece {tag pre before after back left output : Text} {groups : Groups}
    {piece : Piece construct} {limit fuel : Nat} {m : Text → Text}
    (hcut : Text.cutKeyword? construct.keyword text = some (before, after))
    (hblock : Groups.read after = .ok (groups, back))
    (hread : construct.read groups back = some (piece, left))
    (hok : ∀ content ∈ piece.contents, (run construct tag limit content).result = .ok (m content))
    (h : pre.length < (pre ++ text).length) :
    ∃ front written, front ++ left = pre ++ text ∧
      ((runFrom construct
          (fun whole block => construct.compileBlock tag (run construct tag limit) whole block)
          (pre ++ text) (fuel + 1) pre.length output).Logs construct.LeftBy ↔
        (∃ content ∈ piece.contents, (run construct tag limit content).Logs construct.LeftBy) ∨
        (runFrom construct
          (fun whole block => construct.compileBlock tag (run construct tag limit) whole block)
          (front ++ left) fuel front.length written).Logs construct.LeftBy) := by
  obtain ⟨block, hlocate, htext, hstop, hheader, hbody⟩ :=
    locate_of_read_at construct.isKeyword hcut hblock pre
  obtain ⟨front, hfront⟩ : left <:+ pre ++ text := by
    rw [htext]
    exact (Construct.read_suffix hread).trans (List.suffix_append _ _)
  have hlength : (pre ++ text).length - left.length = front.length := by
    rw [← hfront, List.length_append, Nat.add_sub_cancel]
  have hcompile : (construct.compileBlock tag (run construct tag limit) (pre ++ text) block).result =
      .ok (piece.markup tag m, front.length) := by
    rw [← hlength]
    rw [htext] at hheader hbody ⊢
    exact (Construct.result_compileBlock_of_read hstop hheader hbody hread
      fun content hmem => (hok content hmem).trans (if_pos Nat.one_pos).symm).trans
      (if_pos fun _ _ => Nat.one_pos)
  have hlogs : (construct.compileBlock tag (run construct tag limit) (pre ++ text)
      block).Logs construct.LeftBy ↔
      ∃ content ∈ piece.contents, (run construct tag limit content).Logs construct.LeftBy := by
    rw [htext] at hheader hbody ⊢
    exact Construct.logs_compileBlock_iff hstop hheader hbody hread hok
  refine ⟨front, output ++ Text.slice (pre ++ text) pre.length block.start ++ piece.markup tag m,
    hfront, ?_⟩
  rw [logs_of_block h hlocate hcompile, hlogs, hfront]

end Pass

namespace Outline

variable {construct : Construct} {text : Text}

/-- Before a keyword a pass is not at the end of its text, and it has a step left. -/
theorem exists_step {before after : Text} {fuel : Nat}
    (cut : Text.cutKeyword? construct.keyword text = some (before, after))
    (hfuel : text.length ≤ fuel) (pre : Text) :
    pre.length < (pre ++ text).length ∧ ∃ less, fuel = less + 1 := by
  have := length_after_lt cut
  rw [List.length_append]
  exact ⟨by omega, fuel - 1, by omega⟩

/-- A pass logs that it leaves a keyword if and only if its outline says so, wherever its text stands
and whatever was written before. -/
theorem logs_runFrom_iff (outline : Outline construct text) (tag : Text) (limit : Nat)
    (hdepth : outline.depth < limit + 1) (pre output : Text) (fuel : Nat) (hfuel : text.length ≤ fuel) :
    (Pass.runFrom construct
      (fun whole block => construct.compileBlock tag (Pass.run construct tag limit) whole block)
      (pre ++ text) fuel pre.length output).Logs construct.LeftBy ↔ outline.Leaves := by
  have hk := construct.isKeyword
  induction outline generalizing limit pre output fuel with
  | @plain text cut =>
    refine iff_of_false ?_ id
    cases fuel with
    | zero => exact not_logs_pure
    | succ fuel =>
      rw [Pass.runFrom, locate_append_of_eq (Block.locate_of_no_cut cut) pre]
      split <;> exact not_logs_pure
  | @stopped text before after cut groups =>
    obtain ⟨hahead, less, rfl⟩ := exists_step cut hfuel pre
    obtain ⟨fault, hlocate, ⟨position, rfl⟩, -⟩ := Block.locate_of_no_read hk cut groups
    exact iff_of_true (Pass.logs_of_unbalanced hahead (locate_append_of_eq hlocate pre) less) trivial
  | @skipped text before after why cut groups opens rest ih =>
    obtain ⟨hahead, less, rfl⟩ := exists_step cut hfuel pre
    obtain ⟨position, header, hlocate, -⟩ := Pass.locate_of_skipped cut groups opens
    exact iff_of_true (Pass.logs_of_malformedHeader hahead (locate_append_of_eq hlocate pre) less) trivial
  | @rejected text before after back groups cut block piece rest ih =>
    obtain ⟨hahead, less, rfl⟩ := exists_step cut hfuel pre
    obtain ⟨block, hlocate, -, -, hheader, hbody⟩ := Pass.locate_of_read_at hk cut block pre
    obtain ⟨header, hcompile⟩ : ∃ header, (construct.compileBlock tag (Pass.run construct tag limit)
        (pre ++ text) block).result = .error (.malformedHeader block.start header) :=
      Construct.result_compileBlock_of_no_read hheader hbody piece
    cases construct with
    | loops => exact iff_of_true (Pass.logs_of_rejected hahead hlocate hcompile less) trivial
    | chains => cases piece
  | @compiled text before after back left groups piece cut block read contents rest ihContents ih =>
    obtain ⟨hahead, less, rfl⟩ := exists_step cut hfuel pre
    rw [depth_compiled_lt_iff] at hdepth
    obtain ⟨hcontents, hrest⟩ := hdepth
    have hcontent : ∀ content (hmem : content ∈ piece.contents),
        (contents content hmem).depth < limit := fun content hmem => by
      rw [← onMembers_of_mem (fun content h => (contents content h).depth) hmem]
      exact hcontents content hmem
    have hok : ∀ content ∈ piece.contents, (Pass.run construct tag limit content).result =
        .ok (onMembers (fun content h => (contents content h).markup tag) content) := by
      intro content hmem
      rw [onMembers_of_mem _ hmem, (contents content hmem).result_run, if_pos (hcontent content hmem)]
    have hless : left.length ≤ less := by
      have hafter := length_after_lt cut
      rw [Groups.read_eq_ok_iff.1 block, List.length_append] at hafter
      have := (Construct.read_suffix read).length_le
      omega
    obtain ⟨front, written, hfront, hlogs⟩ := Pass.logs_of_piece cut block read hok hahead
    refine hlogs.trans (or_congr (exists_congr fun content => ?_)
      (ih limit hrest front written less hless))
    rw [← exists_prop]
    refine exists_congr fun hmem => ?_
    have hdepth := hcontent content hmem
    cases limit with
    | zero => exact absurd hdepth (Nat.not_lt_zero _)
    | succ limit => exact ihContents content hmem limit hdepth [] [] content.length (Nat.le_refl _)

/-- A pass below its limit logs that it leaves a keyword if and only if its outline says so. -/
theorem logs_run_iff (outline : Outline construct text) (tag : Text) {limit : Nat}
    (hdepth : outline.depth < limit) :
    (Pass.run construct tag limit text).Logs construct.LeftBy ↔ outline.Leaves := by
  cases limit with
  | zero => exact absurd hdepth (Nat.not_lt_zero _)
  | succ limit => exact outline.logs_runFrom_iff tag limit hdepth [] [] text.length (Nat.le_refl _)

end Outline

/-! ## The log and what is left -/

namespace Compiler

/-- **What is left is what was logged.** Every template has an outline for each pass (`Outline.of`). If
both are less deep than the limits and no header that either pass compiles has an at sign, the log is
that of one pass behind the other. In the compiled template a loop keyword is found if and only if the
pass over loops logged, at some depth, that it left one, and a branch keyword if and only if the pass
over chains did. -/
theorem unresolved_iff_logged {limits : NestingLimits} {text : Text} (loops : Outline .loops text)
    (chains : Outline .chains (loops.markup Container.defaultTag)) (hloops : loops.depth < limits.loops)
    (hchains : chains.depth < limits.chains)
    (hfree : ∀ header ∈ loops.headers ++ chains.headers, '@' ∉ header) :
    ∃ compiled, (compile limits Container.defaultTag text).result = .ok compiled ∧
      (compile limits Container.defaultTag text).events =
        (compileLoops limits Container.defaultTag text).events ++
          (compileChains limits Container.defaultTag (loops.markup Container.defaultTag)).events ∧
      ((∃ item ∈ Unresolved.find compiled, item.keyword = Construct.loops.keyword) ↔
        (compileLoops limits Container.defaultTag text).Logs Construct.loops.LeftBy) ∧
      ((∃ item ∈ Unresolved.find compiled, item.keyword = Construct.chains.keyword) ↔
        (compileChains limits Container.defaultTag (loops.markup Container.defaultTag)).Logs
          Construct.chains.LeftBy) := by
  have htag : '@' ∉ Container.defaultTag := by decide
  have hfirst : (compileLoops limits Container.defaultTag text).result = .ok _ :=
    (loops.result_run Container.defaultTag limits.loops).trans (if_pos hloops)
  have hsecond : (compileChains limits Container.defaultTag _).result = .ok _ :=
    (chains.result_run Container.defaultTag limits.chains).trans (if_pos hchains)
  obtain ⟨hfirstFree, hsecondFree⟩ := List.forall_mem_append.1 hfree
  have hboth : (compileLoops limits Container.defaultTag text >>=
      compileChains limits Container.defaultTag).result = .ok (chains.markup Container.defaultTag) := by
    rw [result_bind, hfirst]
    exact hsecond
  refine ⟨chains.markup Container.defaultTag, compile_of_passes hfirst hsecond, ?_, ?_, ?_⟩
  · rw [compile, events_bind, result_attempt, hboth]
    simp only [attempt, events_bind, hfirst, events_pure, List.append_nil]
  · rw [Unresolved.exists_mem_find_iff (by decide), chains.mentions_loops_iff htag hsecondFree,
      loops.mentions_markup_iff htag hfirstFree]
    exact (loops.logs_run_iff Container.defaultTag hloops).symm
  · rw [Unresolved.exists_mem_find_iff (by decide), chains.mentions_markup_iff htag hsecondFree]
    exact (chains.logs_run_iff Container.defaultTag hchains).symm

/-- The groups of a loop ` (x of y) {z}`. -/
def sampleLoop : Groups where
  header := ⟨Template.Gap.space.toBlanks, "x of y".toList, by decide⟩
  body := ⟨Template.Gap.space.toBlanks, ['z'], by decide⟩

theorem read_sampleLoop : Construct.loops.read sampleLoop " @if".toList =
    some (.loop sampleLoop ⟨['x'], ['y'], ['z'], none⟩ rfl, " @if".toList) := by
  change Construct.readLoop sampleLoop _ = _
  exact Construct.readLoop_of_ofHeader? rfl _

/-- The outline of a text for the pass over loops. -/
def sampleLoops : Outline .loops "@for (x of y) {z} @if".toList :=
  .compiled (Text.cutKeyword?_keyword rfl) (Groups.read_source sampleLoop " @if".toList) read_sampleLoop
    (fun content h => .plain (by rw [List.mem_singleton.1 h]; rfl)) (.plain rfl)

theorem cut_sampleLoops :
    Text.cutKeyword? Construct.chains.keyword (sampleLoops.markup Container.defaultTag) =
      some ("<ng-container *ngFor=\"let x of y\">z</ng-container> ".toList, []) := by
  decide

/-- The outline of what becomes of the text, for the pass over chains. -/
def sampleChains : Outline .chains (sampleLoops.markup Container.defaultTag) :=
  have atEnd : Groups.read [] = .error .atEnd := rfl
  .skipped cut_sampleLoops atEnd (by decide) (.plain rfl)

theorem unresolved_iff_logged_sample :
    sampleLoops.depth < NestingLimits.default.loops ∧
      sampleChains.depth < NestingLimits.default.chains ∧
      (∀ header ∈ sampleLoops.headers ++ sampleChains.headers, '@' ∉ header) ∧
      ∃ compiled,
        (compile .default Container.defaultTag "@for (x of y) {z} @if".toList).result = .ok compiled ∧
        (compile .default Container.defaultTag "@for (x of y) {z} @if".toList).events =
          (compileLoops .default Container.defaultTag "@for (x of y) {z} @if".toList).events ++
            (compileChains .default Container.defaultTag
              (sampleLoops.markup Container.defaultTag)).events ∧
        ((∃ item ∈ Unresolved.find compiled, item.keyword = Construct.loops.keyword) ↔
          (compileLoops .default Container.defaultTag "@for (x of y) {z} @if".toList).Logs
            Construct.loops.LeftBy) ∧
        ((∃ item ∈ Unresolved.find compiled, item.keyword = Construct.chains.keyword) ↔
          (compileChains .default Container.defaultTag
            (sampleLoops.markup Container.defaultTag)).Logs Construct.chains.LeftBy) := by
  have hloops : sampleLoops.depth < NestingLimits.default.loops := by decide
  have hchains : sampleChains.depth < NestingLimits.default.chains := by decide
  have hfree : ∀ header ∈ sampleLoops.headers ++ sampleChains.headers, '@' ∉ header := by decide
  exact ⟨hloops, hchains, hfree, unresolved_iff_logged sampleLoops sampleChains hloops hchains hfree⟩

end Compiler

end FlowTemplate
