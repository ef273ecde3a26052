/-
Passes along the outline of a text. A pass makes of a text what its outline says, as long as the outline
is less deep than the limit (`Outline.result_run`), so the cursor and the output written so far have no
part in the result: it is a recursion on what is left of the text.
-/
import FlowTemplate.Proofs.Outline.Basic

namespace FlowTemplate

open Fault

theorem foldr_max_lt_iff {list : List Nat} {start n : Nat} :
    list.foldr max start < n ↔ (∀ x ∈ list, x < n) ∧ start < n := by
  induction list with
  | nil => simp
  | cons x list ih => rw [List.foldr_cons, Nat.max_lt, ih, List.forall_mem_cons, and_assoc]

/-! ## Blocks -/

namespace Construct

variable {construct : Construct} {tag : Text} {inner : Text → Traced Text} {block : Block}
  {pre back rest : Text} {groups : Groups} {piece : Piece construct} {m : Text → Text} {n : Nat}
  {d : Text → Nat}

/-- A loop with a header that spells none is not compiled. -/
theorem result_compileBlock_of_no_read {text : Text}
    (hheader : block.headerText text = groups.header.inside)
    (hbody : block.bodyText text = groups.body.inside) (hread : construct.read groups back = none) :
    ∃ header, (construct.compileBlock tag inner text block).result =
      .error (.malformedHeader block.start header) := by
  cases construct with
  | loops =>
    refine ⟨(block.headerText text).trim, ?_⟩
    rw [result_compileBlock_loops, Loop.result_ofBlock_eq, hheader, hbody,
      readLoop_eq_none_iff.1 hread]
    rfl
  | chains => cases hread

/-- A piece is compiled to its markup, if none of its contents is too deep. -/
theorem result_compileBlock_of_read (hstop : block.stop = pre.length)
    (hheader : block.headerText (pre ++ back) = groups.header.inside)
    (hbody : block.bodyText (pre ++ back) = groups.body.inside)
    (hread : construct.read groups back = some (piece, rest))
    (hinner : ∀ content ∈ piece.contents, (inner content).result =
      if d content < n then .ok (m content) else .error .nestingTooDeep) :
    (construct.compileBlock tag inner (pre ++ back) block).result =
      if ∀ content ∈ piece.contents, d content < n then
        .ok (piece.markup tag m, (pre ++ back).length - rest.length)
      else .error .nestingTooDeep := by
  cases construct with
  | loops =>
    obtain ⟨loop, hloop, rfl, rfl⟩ := readLoop_eq_some hread
    have hend : block.stop = (pre ++ rest).length - rest.length := by
      rw [hstop, List.length_append, Nat.add_sub_cancel]
    have hcontent := hinner loop.content (List.mem_singleton.2 rfl)
    rw [result_compileBlock_loops, Loop.result_ofBlock_eq, hheader, hbody, hloop]
    simp only [bind, Except.bind, Piece.contents, List.forall_mem_singleton]
    rw [hcontent, hend]
    by_cases hd : d loop.content < n
    · rw [if_pos hd, if_pos hd]
      rfl
    · rw [if_neg hd, if_neg hd]
  | chains =>
    cases hread
    generalize harms : Arm.ofGroups groups :: (Arm.readAll back).arms = arms at hinner ⊢
    have hbranches : ∀ branch ∈ arms.map Arm.branch,
        (do
          let content ← (inner branch.content).result
          return { branch with content } : Except Fault Branch) =
        if d branch.content < n then .ok { branch with content := m branch.content }
        else .error .nestingTooDeep := by
      intro branch hbranch
      obtain ⟨arm, harm, rfl⟩ := List.mem_map.1 hbranch
      rw [Arm.content_branch, hinner arm.content (List.mem_map_of_mem harm)]
      split <;> rfl
    rw [result_compileBlock_chains, Chain.result_ofBlock_readAll hstop hheader hbody, harms]
    change (do
      let compiled ← (arms.map Arm.branch).mapM _
      return (Container.ofChain tag compiled, _) : Except Fault (Text × Nat)) = _
    rw [Except.mapM_of_ite hbranches]
    simp only [Piece.contents, Piece.markup, List.forall_mem_map, List.map_map, Function.comp_def,
      Arm.content_branch]
    split <;> rfl

end Construct

/-! ## The steps of a pass -/

namespace Pass

variable {construct : Construct} {tag text before after back rest : Text} {limit : Nat}
  {groups : Groups}

theorem take_drop_of_eq {front : Text} {n : Nat} (htext : text = front ++ rest)
    (hn : n = front.length) : text.take n = front ∧ text.drop n = rest := by
  subst htext hn
  exact ⟨List.take_left, List.drop_left⟩

/-- A text whose first block has been read: what stands before the block, the block, and the rest. -/
theorem text_of_block (hcut : Text.cutKeyword? construct.keyword text = some (before, after))
    (hblock : Groups.read after = .ok (groups, back)) :
    text = (before ++ ('@' :: construct.keyword ++ groups.source)) ++ back := by
  rw [((Text.cutKeyword?_eq_some_iff construct.isKeyword).1 hcut).1, Groups.read_eq_ok_iff.1 hblock]
  simp

theorem drop_of_read {front : Text} (htext : text = front ++ back) {piece : Piece construct}
    (hread : construct.read groups back = some (piece, rest)) :
    text.drop (text.length - rest.length) = rest := by
  have hsuffix : rest <:+ text := by
    rw [htext]
    exact (Construct.read_suffix hread).trans (List.suffix_append _ _)
  exact (List.suffix_iff_eq_drop.1 hsuffix).symm

/-- A keyword that begins no block: the fault says where the text behind it begins. -/
theorem locate_of_skipped (hcut : Text.cutKeyword? construct.keyword text = some (before, after))
    {why : NoGroup} (hgroups : Groups.read after = .error why) (hopens : why ≠ .unclosed) :
    ∃ position header,
      locate text construct.keyword 0 = .error (.malformedHeader position header) ∧
      text.take (position + construct.keyword.length + 1) = before ++ ('@' :: construct.keyword) ∧
      text.drop (position + construct.keyword.length + 1) = after := by
  obtain ⟨fault, hlocate, hreports, hposition⟩ :=
    Block.locate_of_no_read construct.isKeyword hcut hgroups
  obtain ⟨position, header, rfl⟩ : ∃ position header, fault = .malformedHeader position header := by
    cases why with
    | unclosed => exact absurd rfl hopens
    | atEnd | otherwise => exact hreports
  obtain rfl := hposition _ _ rfl
  obtain ⟨htext, -, -⟩ := (Text.cutKeyword?_eq_some_iff construct.isKeyword).1 hcut
  rw [← List.append_assoc] at htext
  exact ⟨_, header, hlocate, take_drop_of_eq htext (by simp; omega)⟩

theorem run_of_plain (hcut : Text.cutKeyword? construct.keyword text = none) :
    (run construct tag (limit + 1) text).result = .ok text := by
  rw [run_eq_outcome, outcome_eq (run_local construct tag limit), move, Block.locate_of_no_cut hcut]

/-- A text in which a group of the first block does not close stays. -/
theorem run_of_stopped (hcut : Text.cutKeyword? construct.keyword text = some (before, after))
    (hgroups : Groups.read after = .error .unclosed) :
    (run construct tag (limit + 1) text).result = .ok text := by
  obtain ⟨fault, hlocate, ⟨position, rfl⟩, -⟩ :=
    Block.locate_of_no_read construct.isKeyword hcut hgroups
  rw [run_eq_outcome, outcome_eq (run_local construct tag limit), move, hlocate]

/-- A pass goes on behind a keyword that begins no block. -/
theorem run_of_skipped (hcut : Text.cutKeyword? construct.keyword text = some (before, after))
    {why : NoGroup} (hgroups : Groups.read after = .error why) (hopens : why ≠ .unclosed) :
    (run construct tag (limit + 1) text).result =
      (run construct tag (limit + 1) after).result.map fun output =>
        before ++ ('@' :: construct.keyword ++ output) := by
  obtain ⟨position, header, hlocate, htake, hdrop⟩ := locate_of_skipped hcut hgroups hopens
  rw [run_eq_outcome, outcome_eq (run_local construct tag limit), move, hlocate]
  simp only [Text.slice_zero, htake, hdrop, List.append_assoc]
  rfl

/-- A pass goes on behind a block with a header that spells nothing. -/
theorem run_of_rejected (hcut : Text.cutKeyword? construct.keyword text = some (before, after))
    (hblock : Groups.read after = .ok (groups, back)) (hread : construct.read groups back = none) :
    (run construct tag (limit + 1) text).result =
      (run construct tag (limit + 1) back).result.map fun output =>
        before ++ ('@' :: construct.keyword ++ (groups.source ++ output)) := by
  obtain ⟨block, hlocate, -, hstop, hheader, hbody⟩ :=
    Block.locate_of_read construct.isKeyword hcut hblock
  obtain ⟨header, hcompile⟩ : ∃ header,
      (construct.compileBlock tag (run construct tag limit) text block).result = _ :=
    Construct.result_compileBlock_of_no_read hheader hbody hread
  obtain ⟨htake, hdrop⟩ := take_drop_of_eq (text_of_block hcut hblock) hstop
  rw [run_eq_outcome, outcome_eq (run_local construct tag limit), move, hlocate]
  simp only [hcompile, Text.slice_zero, htake, hdrop, List.append_assoc]
  rfl

/-- A pass puts its markup in the place of a piece and goes on behind it, if none of the contents is
too deep. -/
theorem run_of_piece (hcut : Text.cutKeyword? construct.keyword text = some (before, after))
    (hblock : Groups.read after = .ok (groups, back)) {piece : Piece construct}
    (hread : construct.read groups back = some (piece, rest)) {d : Text → Nat} {m : Text → Text}
    (hinner : ∀ content ∈ piece.contents, (run construct tag limit content).result =
      if d content < limit then .ok (m content) else .error .nestingTooDeep) :
    (run construct tag (limit + 1) text).result =
      if ∀ content ∈ piece.contents, d content < limit then
        (run construct tag (limit + 1) rest).result.map fun output =>
          before ++ (piece.markup tag m ++ output)
      else .error .nestingTooDeep := by
  obtain ⟨block, hlocate, hstart, hstop, hheader, hbody⟩ :=
    Block.locate_of_read construct.isKeyword hcut hblock
  have htext := text_of_block hcut hblock
  have htake : text.take block.start = before :=
    (take_drop_of_eq ((Text.cutKeyword?_eq_some_iff construct.isKeyword).1 hcut).1 hstart).1
  have hdrop := drop_of_read htext hread
  rw [htext] at hheader hbody
  have hcompile : (construct.compileBlock tag (run construct tag limit) (_ ++ back) block).result = _ :=
    Construct.result_compileBlock_of_read hstop hheader hbody hread hinner
  rw [← htext] at hcompile
  rw [run_eq_outcome, outcome_eq (run_local construct tag limit), move, hlocate]
  simp only [hcompile]
  by_cases hall : ∀ content ∈ piece.contents, d content < limit
  · simp only [if_pos hall, Text.slice_zero, htake, hdrop, List.append_assoc]
    rfl
  · simp only [if_neg hall]

end Pass

/-! ## A whole pass -/

namespace Outline

variable {construct : Construct} {text : Text} {tag : Text}

theorem depth_compiled_lt_iff {before after back left : Text} {groups : Groups}
    {piece : Piece construct} {cut : Text.cutKeyword? construct.keyword text = some (before, after)}
    {block : Groups.read after = .ok (groups, back)}
    {read : construct.read groups back = some (piece, left)}
    {contents : ∀ content ∈ piece.contents, Outline construct content}
    {rest : Outline construct left} {limit : Nat} :
    (compiled cut block read contents rest).depth < limit + 1 ↔
      (∀ content ∈ piece.contents,
        onMembers (fun content h => (contents content h).depth) content < limit) ∧
      rest.depth < limit + 1 := by
  simp only [depth, foldr_max_lt_iff, List.forall_mem_map, Nat.add_lt_add_iff_right]

theorem result_run (outline : Outline construct text) (tag : Text) (limit : Nat) :
    (Pass.run construct tag limit text).result =
      if outline.depth < limit then .ok (outline.markup tag) else .error .nestingTooDeep := by
  -- The rest has the same limit, and the contents of a piece have one less.
  induction outline generalizing limit with
  | plain cut =>
    cases limit with
    | zero => rfl
    | succ limit => exact Pass.run_of_plain cut
  | stopped cut groups =>
    cases limit with
    | zero => rfl
    | succ limit => exact Pass.run_of_stopped cut groups
  | skipped cut groups opens rest ih =>
    cases limit with
    | zero => rfl
    | succ limit =>
      rw [Pass.run_of_skipped cut groups opens, ih, Except.map_ite]
      rfl
  | rejected cut block piece rest ih =>
    cases limit with
    | zero => rfl
    | succ limit =>
      rw [Pass.run_of_rejected cut block piece, ih, Except.map_ite]
      rfl
  | @compiled text before after back left groups piece cut block read contents rest ihContents ih =>
    cases limit with
    | zero => rfl
    | succ limit =>
      have hinner : ∀ content ∈ piece.contents, (Pass.run construct tag limit content).result =
          if onMembers (fun content h => (contents content h).depth) content < limit then
            .ok (onMembers (fun content h => (contents content h).markup tag) content)
          else .error .nestingTooDeep := by
        intro content hmem
        rw [onMembers_of_mem _ hmem, onMembers_of_mem _ hmem]
        exact ihContents content hmem limit
      rw [Pass.run_of_piece cut block read hinner, ih, Except.map_ite]
      simp only [depth_compiled_lt_iff, markup, ite_and]

theorem markup_unique (first second : Outline construct text) (tag : Text) :
    first.markup tag = second.markup tag := by
  have hfirst := first.result_run tag (max first.depth second.depth + 1)
  have hsecond := second.result_run tag (max first.depth second.depth + 1)
  rw [if_pos (by omega)] at hfirst hsecond
  exact Except.ok.inj (hfirst.symm.trans hsecond)

end Outline

theorem Piece.markup_congr {construct : Construct} (piece : Piece construct) (tag : Text)
    {f g : Text → Text} (h : ∀ content ∈ piece.contents, f content = g content) :
    piece.markup tag f = piece.markup tag g := by
  cases piece with
  | loop groups found read => rw [markup, markup, h found.content (List.mem_singleton.2 rfl)]
  | chain arms broken =>
    have harms : ∀ arm ∈ arms, f arm.content = g arm.content :=
      fun arm harm => h arm.content (List.mem_map_of_mem harm)
    rw [markup, markup, List.map_congr_left fun arm harm => by rw [harms arm harm]]

namespace Pass

/-- What a pass makes of a text, by recursion on what is left of it: up to the first keyword the text
stays, and what follows the piece or the keyword is compiled by itself. -/
def compiled (construct : Construct) (tag text : Text) : Text :=
  (Outline.of construct text).markup tag

/-- How many texts are nested in a text for a pass, the text itself not counted. -/
def nesting (construct : Construct) (text : Text) : Nat := (Outline.of construct text).depth

/-- One round of a pass, where `next` says what becomes of the texts within the text and behind its
first block. A search for the first block can only end with the two faults that have their own cases,
and every block that was located begins a chain. -/
def round (construct : Construct) (tag : Text) (next : Text → Text) (text : Text) : Text :=
  match locate text construct.keyword 0 with
  | .ok none => text
  | .error (.malformedHeader position _) =>
    text.take (position + construct.keyword.length + 1) ++
      next (text.drop (position + construct.keyword.length + 1))
  | .error _ => text
  | .ok (some block) =>
    match construct with
    | .loops =>
      match (Loop.ofBlock text block).result with
      | .error _ => text.take block.stop ++ next (text.drop block.stop)
      | .ok loop =>
        text.take block.start ++
          (Container.ofLoop tag { loop with content := next loop.content } ++
            next (text.drop block.stop))
    | .chains =>
      match (Chain.ofBlock text block).result with
      | .error _ => text
      | .ok (branches, stop) =>
        text.take block.start ++
          (Container.ofChain tag
              (branches.map fun branch => { branch with content := next branch.content }) ++
            next (text.drop stop))

section

variable {construct : Construct} {tag text before after back rest : Text} {groups : Groups}
  {next : Text → Text}

theorem round_of_plain (hcut : Text.cutKeyword? construct.keyword text = none) :
    round construct tag next text = text := by
  rw [round, Block.locate_of_no_cut hcut]

theorem round_of_stopped (hcut : Text.cutKeyword? construct.keyword text = some (before, after))
    (hgroups : Groups.read after = .error .unclosed) : round construct tag next text = text := by
  obtain ⟨fault, hlocate, ⟨position, rfl⟩, -⟩ :=
    Block.locate_of_no_read construct.isKeyword hcut hgroups
  rw [round, hlocate]

theorem round_of_skipped (hcut : Text.cutKeyword? construct.keyword text = some (before, after))
    {why : NoGroup} (hgroups : Groups.read after = .error why) (hopens : why ≠ .unclosed) :
    round construct tag next text = before ++ ('@' :: construct.keyword ++ next after) := by
  obtain ⟨position, header, hlocate, htake, hdrop⟩ := locate_of_skipped hcut hgroups hopens
  simp only [round, hlocate, htake, hdrop, List.append_assoc]

theorem round_of_rejected (hcut : Text.cutKeyword? construct.keyword text = some (before, after))
    (hblock : Groups.read after = .ok (groups, back)) (hread : construct.read groups back = none) :
    round construct tag next text =
      before ++ ('@' :: construct.keyword ++ (groups.source ++ next back)) := by
  obtain ⟨block, hlocate, -, hstop, hheader, hbody⟩ :=
    Block.locate_of_read construct.isKeyword hcut hblock
  obtain ⟨htake, hdrop⟩ := take_drop_of_eq (text_of_block hcut hblock) hstop
  cases construct with
  | loops =>
    have hnone := Construct.readLoop_eq_none_iff.1 hread
    simp only [round, hlocate, Loop.result_ofBlock_eq, hheader, hbody, hnone, htake, hdrop,
      List.append_assoc]
  | chains => cases hread

theorem round_of_piece (hcut : Text.cutKeyword? construct.keyword text = some (before, after))
    (hblock : Groups.read after = .ok (groups, back)) {piece : Piece construct}
    (hread : construct.read groups back = some (piece, rest)) :
    round construct tag next text = before ++ (piece.markup tag next ++ next rest) := by
  obtain ⟨block, hlocate, hstart, hstop, hheader, hbody⟩ :=
    Block.locate_of_read construct.isKeyword hcut hblock
  have htext := text_of_block hcut hblock
  have hfront : text.take block.start = before :=
    (take_drop_of_eq ((Text.cutKeyword?_eq_some_iff construct.isKeyword).1 hcut).1 hstart).1
  cases construct with
  | loops =>
    obtain ⟨loop, hloop, rfl, rfl⟩ := Construct.readLoop_eq_some hread
    have hdrop := (take_drop_of_eq htext hstop).2
    simp only [round, hlocate, Loop.result_ofBlock_eq, hheader, hbody, hloop, hfront, hdrop,
      Piece.markup]
  | chains =>
    cases hread
    have hrest := drop_of_read htext (rfl : Construct.chains.read groups back = some _)
    rw [htext] at hheader hbody
    have hchain := Chain.result_ofBlock_readAll hstop hheader hbody
    rw [← htext] at hchain
    simp only [round, hlocate, hchain, hfront, hrest, Piece.markup, List.map_map, Function.comp_def,
      Arm.content_branch]

end

variable {construct : Construct} {tag text : Text}

/-- What a pass makes of a text is what a round makes of it, if it goes on like this. -/
theorem compiled_eq_round (construct : Construct) (tag text : Text) :
    compiled construct tag text = round construct tag (compiled construct tag) text := by
  have hunique : ∀ {text : Text} (outline : Outline construct text),
      outline.markup tag = compiled construct tag text :=
    fun outline => outline.markup_unique _ tag
  rw [compiled]
  cases Outline.of construct text with
  | plain cut => exact (round_of_plain cut).symm
  | stopped cut groups => exact (round_of_stopped cut groups).symm
  | skipped cut groups opens rest =>
    rw [round_of_skipped cut groups opens, Outline.markup, hunique]
  | rejected cut block piece rest => rw [round_of_rejected cut block piece, Outline.markup, hunique]
  | @compiled _ before after back left groups piece cut block read contents rest =>
    have hcontents := piece.markup_congr tag fun content hmem =>
      (onMembers_of_mem (fun content h => (contents content h).markup tag) hmem).trans (hunique _)
    rw [round_of_piece cut block read, Outline.markup, hunique, hcontents]

theorem eq_compiled_of_round {next : Text → Text}
    (hnext : ∀ text, next text = round construct tag next text) (text : Text) :
    next text = compiled construct tag text := by
  rw [compiled]
  induction Outline.of construct text with
  | plain cut => rw [hnext, round_of_plain cut, Outline.markup]
  | stopped cut groups => rw [hnext, round_of_stopped cut groups, Outline.markup]
  | skipped cut groups opens rest ih =>
    rw [hnext, round_of_skipped cut groups opens, Outline.markup, ih]
  | rejected cut block piece rest ih =>
    rw [hnext, round_of_rejected cut block piece, Outline.markup, ih]
  | @compiled _ before after back left groups piece cut block read contents rest ihContents ih =>
    have hcontents := piece.markup_congr tag fun content hmem =>
      (ihContents content hmem).trans
        (onMembers_of_mem (fun content h => (contents content h).markup tag) hmem).symm
    rw [hnext, round_of_piece cut block read, Outline.markup, hcontents, ih]

/-- **A pass is a recursion on texts.** With nesting below the limit a pass, for all its cursor and
output so far, makes of every text what `compiled` does, and `compiled` is the one function that goes
on from round to round. A round knows no offsets but those in its own text: a text without the keyword,
or whose first block does not close, stays; behind a keyword that begins no block, and behind a loop
with a header that spells none, it goes on with what is left; and in the place of a block or chain
stands its markup, with the same done to each content, followed by what becomes of the text behind
it. -/
theorem run_eq_compiled (construct : Construct) (tag : Text) :
    (∀ limit text, (run construct tag limit text).result =
      if nesting construct text < limit then .ok (compiled construct tag text)
      else .error .nestingTooDeep) ∧
    ∀ next : Text → Text,
      (∀ text, next text = round construct tag next text) ↔ next = compiled construct tag := by
  refine ⟨fun limit text => (Outline.of construct text).result_run tag limit, fun next => ⟨?_, ?_⟩⟩
  · exact fun hnext => funext (eq_compiled_of_round hnext)
  · rintro rfl
    exact compiled_eq_round construct tag

end Pass

end FlowTemplate
