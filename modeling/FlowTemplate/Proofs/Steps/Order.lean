/-
The order of the steps of a pass. What is noted over the content of a body lies in the body, the branches of a
chain stand one behind the other, and a pass goes on behind what it has read; so the steps come in the order of
the text, and no keyword is met twice, neither by the pass itself nor in a body (`Pass.steps_in_order`).
-/
import FlowTemplate.Proofs.Pass
import FlowTemplate.Proofs.Steps.Basic
import FlowTemplate.Proofs.Steps.Content

namespace FlowTemplate

/-- The steps meet keywords of a text one behind the other, from one offset of it up to another. -/
structure Text.InOrder (text keyword : Text) (start stop : Nat) (steps : List Nat) : Prop where
  increasing : steps.Pairwise (· < ·)
  between : ∀ step ∈ steps, start ≤ step ∧ step < stop
  stands : ∀ step ∈ steps, text.KeywordAt keyword step

namespace Text.InOrder

variable {text keyword : Text} {start middle stop : Nat} {steps more : List Nat}

theorem nil : text.InOrder keyword start stop [] where
  increasing := .nil
  between := nofun
  stands := nofun

theorem singleton (h : text.KeywordAt keyword start) : text.InOrder keyword start (start + 1) [start] where
  increasing := List.pairwise_singleton _ _
  between step hstep := by
    obtain rfl := List.mem_singleton.1 hstep
    exact ⟨Nat.le_refl step, Nat.lt_succ_self step⟩
  stands step hstep := by
    obtain rfl := List.mem_singleton.1 hstep
    exact h

theorem widen {before behind : Nat} (h : text.InOrder keyword start stop steps) (hbefore : before ≤ start)
    (hbehind : stop ≤ behind) : text.InOrder keyword before behind steps where
  increasing := h.increasing
  between step hstep := ⟨Nat.le_trans hbefore (h.between step hstep).1,
    Nat.lt_of_lt_of_le (h.between step hstep).2 hbehind⟩
  stands := h.stands

/-- Steps in one part of a text and steps in the next are in order. -/
theorem append (h : text.InOrder keyword start middle steps) (hmore : text.InOrder keyword middle stop more)
    (hstart : start ≤ middle) (hstop : middle ≤ stop) :
    text.InOrder keyword start stop (steps ++ more) where
  increasing := List.pairwise_append.2 ⟨h.increasing, hmore.increasing, fun step hstep next hnext =>
    Nat.lt_of_lt_of_le (h.between step hstep).2 (hmore.between next hnext).1⟩
  between step hstep := by
    rcases List.mem_append.1 hstep with hfirst | hnext
    · exact (h.widen (Nat.le_refl start) hstop).between step hfirst
    · exact (hmore.widen hstart (Nat.le_refl stop)).between step hnext
  stands step hstep := (List.mem_append.1 hstep).elim (h.stands step) (hmore.stands step)

/-- Steps over the content of a body are steps over the body. -/
theorem of_content {content : Text} {body : Span} (hbody : body.Holds text content)
    (h : content.InOrder keyword 0 content.length steps) :
    text.InOrder keyword (body.start + 1) body.stop (steps.map (body.stop - 1 - content.length + ·)) := by
  obtain ⟨front, rest, rfl, hstart, hstop⟩ := hbody
  rw [show body.stop - 1 - content.length = front.length by omega]
  refine ⟨List.pairwise_map.2 (h.increasing.imp fun hlt => Nat.add_lt_add_left hlt _), ?_, ?_⟩
  · intro step hstep
    obtain ⟨inside, hinside, rfl⟩ := List.mem_map.1 hstep
    have := (h.between inside hinside).2
    omega
  · intro step hstep
    obtain ⟨inside, hinside, rfl⟩ := List.mem_map.1 hstep
    exact (h.stands inside hinside).frame front (by decide) rest

end Text.InOrder

namespace Stepped

variable {inner : Text → Stepped Text} {tag text keyword : Text}

/-- The steps of two computations are in order, if those of the second come behind those of the first. -/
theorem inOrder_bind {α β : Type} {first : Stepped α} {next : α → Stepped β} {start middle stop : Nat}
    (hfirst : text.InOrder keyword start middle first.steps)
    (hnext : ∀ value, first.traced.result = .ok value → text.InOrder keyword middle stop (next value).steps)
    (hstart : start ≤ middle) (hstop : middle ≤ stop) :
    text.InOrder keyword start stop (first >>= next).steps := by
  refine hfirst.append ?_ hstart hstop
  split
  next value hvalue => exact hnext value hvalue
  next => exact .nil

/-- A search that finds a keyword is one step, at the first one. -/
theorem steps_search (text keyword : Text) (start : Nat) :
    (locate text keyword start = .ok none ∧ (search text keyword start).steps = [] ∧
        ∀ offset, ¬ text.FirstKeyword keyword start offset) ∨
      locate text keyword start ≠ .ok none ∧ ∃ offset, text.FirstKeyword keyword start offset ∧
        (search text keyword start).steps = [offset] := by
  cases hfound : Text.offsetOf? (fun t => (afterKeyword? keyword t).isSome) (text.drop start) with
  | none =>
    have hnone : locate text keyword start = .ok none := by simp only [locate, hfound]
    refine .inl ⟨hnone, by simp only [search, hnone], fun offset hfirst => ?_⟩
    obtain ⟨distance, rfl⟩ := Nat.exists_eq_add_of_le hfirst.from_start
    rw [Text.offsetOf?_drop_eq_some_iff.2 hfirst] at hfound
    cases hfound
  | some distance =>
    have hsome : locate text keyword start ≠ .ok none := by
      intro hnone
      simp only [locate, hfound] at hnone
      cases hread : Block.ofKeywordAt text keyword (start + distance) <;> rw [hread] at hnone <;> cases hnone
    refine .inr ⟨hsome, start + distance, Text.offsetOf?_drop_eq_some_iff.1 hfound, ?_⟩
    simp only [search, hfound]
    rfl

/-- The step of a search lies behind the cursor, and what is found begins at it. -/
theorem inOrder_search {cursor : Nat} (hcursor : cursor ≤ text.length) :
    ∃ behind, cursor ≤ behind ∧ behind ≤ text.length ∧
      text.InOrder keyword cursor behind (search text keyword cursor).steps ∧
      (∀ block, locate text keyword cursor = .ok (some block) → block.start + 1 = behind) ∧
      ∀ position header, locate text keyword cursor = .error (.malformedHeader position header) →
        position + 1 = behind := by
  rcases steps_search text keyword cursor with ⟨hnone, hsteps, -⟩ | ⟨-, offset, hfirst, hsteps⟩
  · rw [hsteps, hnone]
    exact ⟨cursor, Nat.le_refl _, hcursor, .nil, fun _ h => (by cases h), fun _ _ h => (by cases h)⟩
  · have hkeyword : text.InOrder keyword cursor (offset + 1) [offset] :=
      (Text.InOrder.singleton hfirst.stands).widen hfirst.from_start (Nat.le_refl _)
    have hinside : offset + 1 ≤ text.length := by
      have := hfirst.stands.lt_length
      omega
    rw [hsteps]
    exact ⟨offset + 1, Nat.le_succ_of_le hfirst.from_start, hinside, hkeyword,
      fun _ h => congrArg (· + 1) (start_of_first hfirst h),
      fun _ _ h => congrArg (· + 1) (position_of_first hfirst h)⟩

/-- What a pass asks of the compilation of contents: its steps are in order, and it fails only for
nesting. -/
structure Orderly (keyword : Text) (inner : Text → Stepped Text) : Prop where
  inOrder : ∀ content : Text, content.InOrder keyword 0 content.length (inner content).steps
  error : ∀ content fault, (inner content).traced.result = .error fault → fault = .nestingTooDeep

theorem Orderly.inOrder_compileContent (hinner : Orderly keyword inner) {body : Span} {content : Text}
    (hbody : body.Holds text content) :
    text.InOrder keyword (body.start + 1) body.stop (compileContent inner body.stop content).steps :=
  .of_content hbody (hinner.inOrder content)

/-- The steps over the branches of a chain are in order, since each branch stands behind the one before. -/
theorem Orderly.inOrder_compileBranches (hinner : Orderly keyword inner) {body : Span} {branch : Branch}
    {more : List Branch} {finish : Nat} (hbody : body.Holds text branch.content)
    (hmore : Chain.Row text body.stop more finish) :
    text.InOrder keyword (body.start + 1) finish
      (compileBranches inner text body.stop (branch :: more)).steps := by
  induction more generalizing body branch with
  | nil =>
    cases hmore
    exact inOrder_bind (hinner.inOrder_compileContent hbody) (fun _ _ => .nil) hbody.wide (Nat.le_refl _)
  | cons second more ih =>
    have hle := hmore.le
    refine inOrder_bind (hinner.inOrder_compileContent hbody) (fun _ _ => ?_) hbody.wide hle
    cases hmore with
    | cons first rest =>
      obtain ⟨next, rfl, hbehind, hnext⟩ := Chain.exists_body first
      rw [nextStop, first]
      exact inOrder_bind ((ih hnext rest).widen (Nat.le_succ_of_le hbehind) (Nat.le_refl _))
        (fun _ _ => .nil) hle (Nat.le_refl _)

theorem Orderly.compileBranches_error (hinner : Orderly keyword inner) {stop : Nat} {branches : List Branch}
    {fault : Fault} (h : (compileBranches inner text stop branches).traced.result = .error fault) :
    fault = .nestingTooDeep := by
  rw [traced_compileBranches, Traced.result_mapM] at h
  simp only [Traced.result_bind, Traced.result_pure] at h
  obtain ⟨content, hcontent⟩ :=
    Construct.exists_error_of_branches (fun content => (inner content).traced) h
  exact hinner.error content fault hcontent

/-- Where a pass goes on after a block with this result. -/
def resume (text : Text) (block : Block) : Except Fault (Text × Nat) → Nat
  | .ok (_, stop) => stop
  | .error (.malformedHeader _ _) => block.stop
  | .error _ => text.length

theorem Orderly.resume_bounds (hinner : Orderly keyword inner) (construct : Construct) (tag : Text)
    {block : Block} (hb : block.Within text) :
    block.stop ≤ resume text block (compileBlock tag inner text block construct).traced.result ∧
      resume text block (compileBlock tag inner text block construct).traced.result ≤ text.length := by
  have hlocal := construct.compileBlock_local tag hinner.error
  have hinside : block.stop ≤ text.length := hb.body.inside
  cases hresult : (compileBlock tag inner text block construct).traced.result with
  | ok made =>
    rw [traced_compileBlock] at hresult
    exact hlocal.ok text block made.1 made.2 hb hresult
  | error fault =>
    rw [traced_compileBlock] at hresult
    rcases hlocal.error text block fault hb hresult with rfl | ⟨header, rfl⟩
    · exact ⟨hinside, Nat.le_refl _⟩
    · exact ⟨Nat.le_refl _, hinside⟩

/-- A pass goes on behind a chain that it has compiled, and nowhere if it could not compile it. -/
theorem Orderly.le_resume_of_chain (hinner : Orderly keyword inner) (tag : Text) {block : Block}
    {branches : List Branch} {finish : Nat}
    (hchain : (Chain.ofBlock text block).result = .ok (branches, finish)) (hinside : finish ≤ text.length) :
    finish ≤ resume text block (compileBlock tag inner text block .chains).traced.result := by
  simp only [compileBlock, traced_bind, traced_ofTraced, traced_pure, Traced.result_bind,
    Traced.result_pure, hchain]
  simp only [bind, Except.bind]
  split
  next fault hcompiled =>
    obtain rfl := hinner.compileBranches_error hcompiled
    exact hinside
  next compiled hcompiled => exact Nat.le_refl finish

/-- The steps over a block lie behind its keyword, and in front of the place where the pass goes on. -/
theorem Orderly.inOrder_compileBlock {construct : Construct} (hinner : Orderly construct.keyword inner)
    (tag : Text) {start : Nat} {block : Block}
    (hlocate : locate text construct.keyword start = .ok (some block)) :
    text.InOrder construct.keyword (block.start + 1)
      (resume text block (compileBlock tag inner text block construct).traced.result)
      (compileBlock tag inner text block construct).steps := by
  obtain ⟨-, -, hb⟩ := locate_ok hlocate
  have hresume := (hinner.resume_bounds construct tag hb).1
  have hbody : block.start + 1 ≤ block.body.start + 1 := Nat.le_succ_of_le hb.start_lt_body
  have hwide : block.body.start + 1 ≤ block.stop := Nat.le_of_lt hb.body.wide
  have hfront : block.start + 1 ≤ block.stop := Nat.le_trans hbody hwide
  cases construct with
  | loops =>
    refine inOrder_bind .nil (fun loop hloop => ?_) (Nat.le_refl _) (Nat.le_trans hfront hresume)
    have hcontent : loop.content = block.bodyText text := Loop.content_ofBlock hloop
    have hholds : block.body.Holds text loop.content := locate_holds hlocate (by rw [hcontent])
    exact (inOrder_bind (hinner.inOrder_compileContent hholds) (fun _ _ => .nil) hwide
      (Nat.le_refl _)).widen hbody hresume
  | chains =>
    obtain ⟨branches, finish, hchain, hle, hinside⟩ := Chain.ofBlock_ok hb
    obtain ⟨rest, hrest, hcontinue⟩ := Chain.ofBlock_cases hchain
    cases hrest
    have hholds : block.body.Holds text (Branch.ofParts text block.header block.body).content :=
      locate_holds hlocate (Text.trimStart_suffix _)
    have hbranches := hinner.inOrder_compileBranches hholds (Chain.row_of_continueFrom hcontinue)
    have hfinish := hinner.le_resume_of_chain tag hchain hinside
    refine inOrder_bind .nil (fun value hvalue => ?_) (Nat.le_refl _) (Nat.le_trans hfront hresume)
    obtain rfl := Except.ok.inj (hchain.symm.trans hvalue)
    exact (inOrder_bind hbranches (fun _ _ => .nil) (Nat.le_trans hwide hle) (Nat.le_refl _)).widen
      hbody hfinish

/-- The steps of a pass lie behind its cursor. -/
theorem Orderly.inOrder_runFrom {construct : Construct} (hinner : Orderly construct.keyword inner)
    (fuel cursor : Nat) (output : Text) :
    text.InOrder construct.keyword cursor text.length
      (runFrom construct (fun whole block => compileBlock tag inner whole block construct) text fuel cursor
        output).steps := by
  induction fuel generalizing cursor output with
  | zero => exact .nil
  | succ fuel ih =>
    rw [runFrom]
    split
    · exact .nil
    next hcursor =>
      obtain ⟨behind, hge, hle, hsearch, hblock, hposition⟩ :=
        inOrder_search (Nat.le_of_not_le hcursor)
      refine inOrder_bind hsearch (fun found hfound => ?_) hge hle
      obtain rfl : locate text construct.keyword cursor = found := Except.ok.inj hfound
      cases hl : locate text construct.keyword cursor with
      | error fault =>
        rcases locate_error hl with ⟨position, rfl⟩ | ⟨position, header, rfl, -, hinside⟩
        · exact .nil
        · obtain rfl := hposition position header hl
          refine inOrder_bind .nil (fun _ _ => ?_) (Nat.le_refl _) hle
          exact (ih _ _).widen (by omega) (Nat.le_refl _)
      | ok found =>
        cases found with
        | none => exact .nil
        | some block =>
          obtain rfl := hblock block hl
          have hb := (locate_ok hl).2.2
          obtain ⟨hstop, hresume⟩ := hinner.resume_bounds construct tag hb
          refine inOrder_bind (hinner.inOrder_compileBlock tag hl) (fun result hresult => ?_)
            (Nat.le_trans hb.start_lt_stop hstop) hresume
          obtain rfl := Except.ok.inj hresult
          rcases (compileBlock tag inner text block construct).traced.result with
            (_ | _ | _ | _ | _ | _) | made
          case error.malformedHeader =>
            exact inOrder_bind .nil (fun _ _ => ih _ _) (Nat.le_refl _) hb.body.inside
          case ok => exact ih _ _
          all_goals exact .nil

theorem orderly_run (construct : Construct) (tag : Text) (limit : Nat) :
    Orderly construct.keyword (run construct tag limit) := by
  have herror : ∀ limit content fault, (run construct tag limit content).traced.result = .error fault →
      fault = .nestingTooDeep := fun limit content fault h =>
    Pass.run_error (traced_run construct tag limit content ▸ h)
  induction limit with
  | zero => exact ⟨fun content => .nil, herror 0⟩
  | succ limit ih => exact ⟨fun content => ih.inOrder_runFrom content.length 0 [], herror (limit + 1)⟩

theorem head?_steps_run (construct : Construct) (tag : Text) (limit : Nat) (text : Text) :
    (run construct tag (limit + 1) text).steps.head? = (keywordOffsets construct.keyword text).head? := by
  rw [run]
  cases hlength : text.length with
  | zero =>
    rw [List.length_eq_zero_iff.1 hlength]
    rfl
  | succ fuel =>
    rw [runFrom, if_neg (by omega), steps_bind]
    rcases steps_search text construct.keyword 0 with
      ⟨hnone, hsteps, hnever⟩ | ⟨-, offset, hfirst, hsteps⟩
    · have hoffsets : (keywordOffsets construct.keyword text).head? = none :=
        Option.eq_none_iff_forall_not_mem.2 fun offset hoffset =>
          hnever offset ((head?_keywordOffsets_iff construct.isKeyword).1 hoffset)
      rw [hsteps, hoffsets]
      simp only [search, hnone]
      rfl
    · rw [hsteps, (head?_keywordOffsets_iff construct.isKeyword).2 hfirst]
      rfl

end Stepped

/-- **Each keyword once.** A pass that notes its steps is the pass, and its steps come in the order of the
text: each is at an offset at which the keyword stands, no two are at the same one, and there are no more of
them than places where the keyword stands. A pass that may go into its text at all begins with the first of
these places. -/
theorem Pass.steps_in_order (construct : Construct) (tag : Text) (limit : Nat) (text : Text) :
    (Stepped.run construct tag limit text).traced = Pass.run construct tag limit text ∧
    (Stepped.run construct tag limit text).steps.Pairwise (· < ·) ∧
    (∀ step ∈ (Stepped.run construct tag limit text).steps,
      text.KeywordAt construct.keyword step ∧ step ∈ keywordOffsets construct.keyword text) ∧
    (Stepped.run construct tag limit text).steps.length ≤ (keywordOffsets construct.keyword text).length ∧
    (Stepped.run construct tag (limit + 1) text).steps.head? =
      (keywordOffsets construct.keyword text).head? := by
  have horder := (Stepped.orderly_run construct tag limit).inOrder text
  have hmem : ∀ step ∈ (Stepped.run construct tag limit text).steps,
      step ∈ keywordOffsets construct.keyword text := fun step hstep =>
    (mem_keywordOffsets_iff construct.isKeyword).2 (horder.stands step hstep)
  refine ⟨Stepped.traced_run construct tag limit text, horder.increasing,
    fun step hstep => ⟨horder.stands step hstep, hmem step hstep⟩, ?_,
    Stepped.head?_steps_run construct tag limit text⟩
  have hnodup : (Stepped.run construct tag limit text).steps.Nodup := horder.increasing.imp Nat.ne_of_lt
  exact (List.subperm_of_subset hnodup hmem).length_le

/-- A chain, its branches, and behind it a block whose header is missing. -/
example :
    (Stepped.run .chains [] 3 "@if (a) \x7b  @if (b) \x7b\x7d\x7d @else \x7b@if\x7d @if".toList).steps =
      [0, 11, 30, 35] := by decide

end FlowTemplate
