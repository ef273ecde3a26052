/-
How deep blocks are nested for a pass, counted along its own readings. A text holds the bodies of the
blocks that are read from it one after another, and a chain of blocks goes from a text to one that it
holds (`Pass.Nested`). The longest such chain is the depth of the outline (`Outline.nested_iff`), so a
pass fails if and only if one is too long for its limit, and the compiler gives back its input then.
-/
import FlowTemplate.Proofs.Outline.Mention
import FlowTemplate.Proofs.Outline.Siblings

namespace FlowTemplate

open Fault Delimiter

/-! ## Blocks inside each other -/

/-- The bodies of the construct that a located block begins, and the offset behind it. There are none
if the block begins no construct. -/
def Construct.contents? (text : Text) (block : Block) : Construct → Option (List Text × Nat)
  | loops =>
    match (Loop.ofBlock text block).result with
    | .ok loop => some ([loop.content], block.stop)
    | .error _ => none
  | chains =>
    match (Chain.ofBlock text block).result with
    | .ok (branches, stop) => some (branches.map Branch.content, stop)
    | .error _ => none

namespace Pass

/-- `content` is a body of one of the constructs that a pass reads from a text, one after another. -/
inductive Holds (construct : Construct) (content : Text) : Text → Prop
  /-- It is a body of the first construct. -/
  | first {text block contents stop} (located : locate text construct.keyword 0 = .ok (some block))
    (read : construct.contents? text block = some (contents, stop)) (mem : content ∈ contents) :
    Holds construct content text
  /-- It is a body of a construct behind the first one. -/
  | later {text block contents stop} (located : locate text construct.keyword 0 = .ok (some block))
    (read : construct.contents? text block = some (contents, stop))
    (rest : Holds construct content (text.drop stop)) : Holds construct content text
  /-- The first block begins no construct, and the reading goes on behind it. -/
  | rejected {text block} (located : locate text construct.keyword 0 = .ok (some block))
    (read : construct.contents? text block = none)
    (rest : Holds construct content (text.drop block.stop)) : Holds construct content text
  /-- The first keyword begins no block, and the reading goes on behind it. -/
  | skipped {text position header}
    (located : locate text construct.keyword 0 = .error (.malformedHeader position header))
    (rest : Holds construct content (text.drop (position + construct.keyword.length + 1))) :
    Holds construct content text

/-- So many constructs are nested in a text, each in a body of the one before. -/
inductive Nested (construct : Construct) : Nat → Text → Prop
  | zero {text} : Nested construct 0 text
  | succ {n content text} (holds : Holds construct content text) (inner : Nested construct n content) :
    Nested construct (n + 1) text

/-- No chain of nested constructs in the text is too long for a limit, which counts the text too. -/
def StaysWithin (construct : Construct) (limit : Nat) (text : Text) : Prop :=
  ∀ n, Nested construct n text → n < limit

end Pass

/-! ## Along an outline -/

namespace Construct

variable {construct : Construct} {block : Block} {pre back rest : Text} {groups : Groups}
  {piece : Piece construct}

theorem contents?_of_no_read {text : Text} (hheader : block.headerText text = groups.header.inside)
    (hbody : block.bodyText text = groups.body.inside) (hread : construct.read groups back = none) :
    construct.contents? text block = none := by
  cases construct with
  | loops =>
    simp only [contents?, Loop.result_ofBlock_eq, hheader, hbody, readLoop_eq_none_iff.1 hread]
  | chains => cases hread

theorem contents?_of_read (hstop : block.stop = pre.length)
    (hheader : block.headerText (pre ++ back) = groups.header.inside)
    (hbody : block.bodyText (pre ++ back) = groups.body.inside)
    (hread : construct.read groups back = some (piece, rest)) :
    construct.contents? (pre ++ back) block =
      some (piece.contents, (pre ++ back).length - rest.length) := by
  cases construct with
  | loops =>
    obtain ⟨loop, hloop, rfl, rfl⟩ := readLoop_eq_some hread
    simp only [contents?, Loop.result_ofBlock_eq, hheader, hbody, hloop, hstop, List.length_append,
      Nat.add_sub_cancel]
    rfl
  | chains =>
    cases hread
    simp only [contents?, Chain.result_ofBlock_readAll hstop hheader hbody, List.map_map,
      Function.comp_def, Arm.content_branch]
    rfl

end Construct

namespace Pass

variable {construct : Construct} {content text before after back left : Text} {groups : Groups}

/-- What a text holds is decided by its first block. -/
theorem holds_iff :
    Holds construct content text ↔
      match locate text construct.keyword 0 with
      | .ok (some block) =>
        match construct.contents? text block with
        | some (contents, stop) => content ∈ contents ∨ Holds construct content (text.drop stop)
        | none => Holds construct content (text.drop block.stop)
      | .error (.malformedHeader position _) =>
        Holds construct content (text.drop (position + construct.keyword.length + 1))
      | _ => False := by
  constructor
  · rintro (⟨hlocate, hread, hmem⟩ | ⟨hlocate, hread, hrest⟩ | ⟨hlocate, hread, hrest⟩ |
      ⟨hlocate, hrest⟩)
    · simp only [hlocate, hread, hmem, true_or]
    · simp only [hlocate, hread, hrest, or_true]
    · simp only [hlocate, hread, hrest]
    · simp only [hlocate, hrest]
  · intro h
    split at h
    next block hlocate =>
      split at h
      next contents stop hread =>
        rcases h with hmem | hrest
        · exact .first hlocate hread hmem
        · exact .later hlocate hread hrest
      next hread => exact .rejected hlocate hread h
    next position header hlocate => exact .skipped hlocate h
    next => exact h.elim

theorem holds_of_plain (hcut : Text.cutKeyword? construct.keyword text = none) :
    ¬ Holds construct content text := by
  rw [holds_iff, Block.locate_of_no_cut hcut]
  exact not_false

theorem holds_of_stopped (hcut : Text.cutKeyword? construct.keyword text = some (before, after))
    (hgroups : Groups.read after = .error .unclosed) : ¬ Holds construct content text := by
  obtain ⟨fault, hlocate, ⟨position, rfl⟩, -⟩ :=
    Block.locate_of_no_read construct.isKeyword hcut hgroups
  rw [holds_iff, hlocate]
  exact not_false

theorem holds_of_skipped (hcut : Text.cutKeyword? construct.keyword text = some (before, after))
    {why : NoGroup} (hgroups : Groups.read after = .error why) (hopens : why ≠ .unclosed) :
    Holds construct content text ↔ Holds construct content after := by
  obtain ⟨position, header, hlocate, -, hdrop⟩ := locate_of_skipped hcut hgroups hopens
  rw [holds_iff, hlocate]
  simp only [hdrop]

theorem holds_of_rejected (hcut : Text.cutKeyword? construct.keyword text = some (before, after))
    (hblock : Groups.read after = .ok (groups, back)) (hread : construct.read groups back = none) :
    Holds construct content text ↔ Holds construct content back := by
  obtain ⟨block, hlocate, -, hstop, hheader, hbody⟩ :=
    Block.locate_of_read construct.isKeyword hcut hblock
  have hdrop := (take_drop_of_eq (text_of_block hcut hblock) hstop).2
  rw [holds_iff, hlocate]
  simp only [Construct.contents?_of_no_read hheader hbody hread, hdrop]

theorem holds_of_piece (hcut : Text.cutKeyword? construct.keyword text = some (before, after))
    (hblock : Groups.read after = .ok (groups, back)) {piece : Piece construct}
    (hread : construct.read groups back = some (piece, left)) :
    Holds construct content text ↔ content ∈ piece.contents ∨ Holds construct content left := by
  obtain ⟨block, hlocate, -, hstop, hheader, hbody⟩ :=
    Block.locate_of_read construct.isKeyword hcut hblock
  have htext := text_of_block hcut hblock
  have hdrop := drop_of_read htext hread
  rw [htext] at hheader hbody
  have hcontents := Construct.contents?_of_read hstop hheader hbody hread
  rw [← htext] at hcontents
  rw [holds_iff, hlocate]
  simp only [hcontents, hdrop]

theorem nested_succ_iff {n : Nat} :
    Nested construct (n + 1) text ↔ ∃ content, Holds construct content text ∧ Nested construct n content := by
  constructor
  · rintro ⟨⟩
    exact ⟨_, ‹_›, ‹_›⟩
  · rintro ⟨content, hholds, hinner⟩
    exact .succ hholds hinner

end Pass

/-- **The depth of an outline is the length of the longest chain of nested constructs.** -/
theorem Outline.nested_iff {construct : Construct} {text : Text} (outline : Outline construct text)
    (n : Nat) : Pass.Nested construct n text ↔ n ≤ outline.depth := by
  cases n with
  | zero => exact ⟨fun _ => Nat.zero_le _, fun _ => .zero⟩
  | succ n =>
  rw [Pass.nested_succ_iff]
  induction outline generalizing n with
  | plain cut => simp [Pass.holds_of_plain cut, depth]
  | stopped cut groups => simp [Pass.holds_of_stopped cut groups, depth]
  | skipped cut groups opens rest ih =>
    simp only [Pass.holds_of_skipped cut groups opens]
    exact ih n
  | rejected cut block piece rest ih =>
    simp only [Pass.holds_of_rejected cut block piece]
    exact ih n
  | @compiled text before after back left groups piece cut block read contents rest ihContents ih =>
    have hinner : ∀ content ∈ piece.contents, (Pass.Nested construct n content ↔
        ¬ onMembers (fun content h => (contents content h).depth) content < n) := by
      intro content hmem
      rw [onMembers_of_mem _ hmem, Nat.not_lt]
      cases n with
      | zero => exact ⟨fun _ => Nat.zero_le _, fun _ => .zero⟩
      | succ n => exact Pass.nested_succ_iff.trans (ihContents content hmem n)
    rw [← Nat.not_lt, depth_compiled_lt_iff, not_and_or, Nat.not_lt, ← ih n]
    simp only [Pass.holds_of_piece cut block read, or_and_right, exists_or, not_forall]
    exact or_congr_left <| exists_congr fun content =>
      (and_congr_right (hinner content)).trans exists_prop.symm

namespace Pass

variable {construct : Construct} {text : Text} {limit : Nat}

theorem staysWithin_iff : StaysWithin construct limit text ↔ nesting construct text < limit := by
  have hnested := (Outline.of construct text).nested_iff
  exact ⟨fun h => h _ ((hnested _).2 (Nat.le_refl _)),
    fun h n hn => Nat.lt_of_le_of_lt ((hnested n).1 hn) h⟩

instance : Decidable (StaysWithin construct limit text) := decidable_of_iff' _ staysWithin_iff

/-- A pass fails if and only if a chain of nested constructs is too long for its limit. -/
theorem result_run (construct : Construct) (tag : Text) (limit : Nat) (text : Text) :
    (run construct tag limit text).result =
      if StaysWithin construct limit text then .ok (compiled construct tag text)
      else .error .nestingTooDeep := by
  simp only [staysWithin_iff]
  exact (Outline.of construct text).result_run tag limit

end Pass

/-! ## Loops in a branch -/

theorem Text.cutKeyword?_append_of_nameEnds {keyword text before after more : Text}
    (hk : keyword.IsKeyword) (h : cutKeyword? keyword text = some (before, after))
    (hmore : nameEnds more = true) :
    cutKeyword? keyword (text ++ more) = some (before, after ++ more) := by
  obtain ⟨rfl, hends, hfree⟩ := (cutKeyword?_eq_some_iff hk).1 h
  exact (cutKeyword?_eq_some_iff hk).2 ⟨by simp, nameEnds_append hends hmore, hfree⟩

/-- A group that does not close does not close with more text behind in which no closer stands. -/
theorem Delimiter.cutClosing?_append_of_none {kind : Delimiter} {text more : Text}
    (h : kind.cutClosing? text = none) (hmore : kind.closer ∉ more) :
    kind.cutClosing? (text ++ more) = none := by
  rw [Option.eq_none_iff_forall_not_mem] at h ⊢
  rintro ⟨inside, rest⟩ hcut
  obtain ⟨htext, hbalanced⟩ := cutClosing?_eq_some_iff.1 hcut
  rcases List.append_eq_append_iff.1 htext with ⟨x, rfl, rfl⟩ | ⟨x, rfl, hx⟩
  · exact hmore (List.mem_append_right _ List.mem_cons_self)
  · cases x with
    | nil =>
      rw [List.nil_append] at hx
      exact hmore (hx ▸ List.mem_cons_self)
    | cons c cs =>
      obtain ⟨rfl, -⟩ := List.cons.inj hx
      exact h _ (cutClosing?_eq_some_iff.2 ⟨rfl, hbalanced⟩)

/-- All braces that open in a text close in it. -/
def Text.ClosesBraces (text : Text) : Prop := ∃ depth, brace.level? depth text = some 0

theorem Text.ClosesBraces.of_append {a b : Text} (h : ClosesBraces (a ++ b)) : b.ClosesBraces := by
  obtain ⟨depth, hlevel⟩ := h
  rw [level?_append, Option.bind_eq_some_iff] at hlevel
  obtain ⟨level, -, hlevel⟩ := hlevel
  exact ⟨level, hlevel⟩

namespace Group

variable {kind : Delimiter} {text after : Text} {why : NoGroup}

theorem ne_unclosed (hcloses : text.ClosesBraces) (h : read .brace text = .error why) :
    why ≠ .unclosed := by
  rintro rfl
  obtain ⟨cs, htrim, hcut⟩ := read_eq_unclosed_iff.1 h
  obtain ⟨blanks, -, htext⟩ := text.exists_blank_append_trimStart
  rw [htext, htrim] at hcloses
  obtain ⟨depth, hlevel⟩ := hcloses.of_append
  rw [level?, if_neg fun h => absurd h.1 (by decide)] at hlevel
  have hopen : brace.levelAfter depth brace.opener = depth + 1 := if_pos rfl
  rw [hopen] at hlevel
  exact Nat.not_lt_zero _ (lt_level_of_no_closing Nat.one_pos (Option.map_eq_none_iff.1 hcut) hlevel)

/-- Where no group is read, none is read with a closing brace behind, and one that is unclosed stays
so. -/
theorem read_append_closing (h : read kind text = .error why)
    (hunclosed : why = .unclosed → kind.closer ∉ '}' :: after) :
    ∃ found, read kind (text ++ '}' :: after) = .error found ∧ (found = .unclosed ↔ why = .unclosed) := by
  cases why with
  | atEnd =>
    have hblank : text.Blank := List.dropWhile_eq_nil_iff.1 (read_eq_atEnd_iff.1 h)
    have htrim : Text.trimStart (text ++ '}' :: after) = '}' :: after := by
      rw [hblank.trimStart_append]
      exact Text.trimStart_of_head (by simp; decide)
    exact ⟨.otherwise, read_eq_otherwise_iff.2 ⟨'}', after, htrim, by cases kind <;> decide⟩,
      iff_of_false nofun nofun⟩
  | otherwise =>
    refine ⟨.otherwise, ?_, iff_of_false nofun nofun⟩
    rw [read_append _ fun why hwhy => by rw [h] at hwhy; cases hwhy; exact not_not.2 rfl, h]
    rfl
  | unclosed =>
    obtain ⟨cs, htrim, hcut⟩ := read_eq_unclosed_iff.1 h
    have hmore : Text.trimStart (text ++ '}' :: after) = kind.opener :: (cs ++ '}' :: after) := by
      rw [Text.trimStart_append_of_ne_nil (by simp [htrim]), htrim, List.cons_append]
    exact ⟨.unclosed, read_eq_unclosed_iff.2
      ⟨_, hmore, cutClosing?_append_of_none hcut (hunclosed rfl)⟩, Iff.rfl⟩

end Group

/-- The same for a header and a body, in a text that closes its braces. -/
theorem Groups.read_append_closing {text after : Text} {why : NoGroup} (hcloses : text.ClosesBraces)
    (hparen : ')' ∉ after) (h : read text = .error why) :
    ∃ found, read (text ++ '}' :: after) = .error found ∧ (found = .unclosed ↔ why = .unclosed) := by
  rcases read_eq_error_iff.1 h with hheader | ⟨header, left, hheader, hbody⟩
  · have hcloser : ')' ∉ '}' :: after := List.not_mem_cons_of_ne_of_not_mem (by decide) hparen
    obtain ⟨found, hfound, hiff⟩ := Group.read_append_closing hheader fun _ => hcloser
    exact ⟨found, read_of_no_header hfound, hiff⟩
  · have htext := Group.read_eq_ok_iff.1 hheader
    rw [htext] at hcloses
    have hne := Group.ne_unclosed hcloses.of_append hbody
    have hcloser : why = .unclosed → '}' ∉ '}' :: after := fun hunclosed => absurd hunclosed hne
    obtain ⟨found, hfound, hiff⟩ := Group.read_append_closing hbody hcloser
    have hmore : Group.read .paren (text ++ '}' :: after) = .ok (header, left ++ '}' :: after) := by
      rw [htext, List.append_assoc, Group.read_source]
    exact ⟨found, read_eq_error_iff.2 (.inr ⟨header, _, hmore, hfound⟩), hiff⟩

/-- Behind a text that closes its braces, a closing brace and text without control flow add nothing to
how deep loops are nested. -/
theorem Outline.exists_closing {text after : Text} (outline : Outline .loops text)
    (hcloses : text.ClosesBraces) (hat : '@' ∉ after) (hparen : ')' ∉ after) :
    ∃ whole : Outline .loops (text ++ '}' :: after), whole.depth = outline.depth := by
  have hk := Construct.loops.isKeyword
  have hends : nameEnds ('}' :: after) = true := by simp [nameEnds]; decide
  -- Each reading leaves a rest of the text, which closes its braces as well.
  have hrest : ∀ {text before rest : Text}, text.ClosesBraces →
      Text.cutKeyword? Construct.loops.keyword text = some (before, rest) → rest.ClosesBraces := by
    intro text before rest hcloses hcut
    rw [((Text.cutKeyword?_eq_some_iff hk).1 hcut).1] at hcloses
    exact hcloses.of_append.of_append
  induction outline with
  | @plain text cut =>
    have hfree : '@' ∉ '}' :: after := List.not_mem_cons_of_ne_of_not_mem (by decide) hat
    have hnone : Text.cutKeyword? Construct.loops.keyword (text ++ '}' :: after) = none := by
      rw [Text.cutKeyword?_eq_none_iff] at cut ⊢
      rw [Text.mentions_append_iff hk hends]
      exact fun h => h.elim cut fun hm => hfree hm.at_mem
    exact ⟨.plain hnone, rfl⟩
  | stopped cut groups =>
    obtain ⟨found, hfound, hiff⟩ := Groups.read_append_closing (hrest hcloses cut) hparen groups
    obtain rfl := hiff.2 rfl
    exact ⟨.stopped (Text.cutKeyword?_append_of_nameEnds hk cut hends) hfound, rfl⟩
  | skipped cut groups opens rest ih =>
    obtain ⟨found, hfound, hiff⟩ := Groups.read_append_closing (hrest hcloses cut) hparen groups
    obtain ⟨whole, hdepth⟩ := ih (hrest hcloses cut)
    exact ⟨.skipped (Text.cutKeyword?_append_of_nameEnds hk cut hends) hfound (mt hiff.1 opens) whole,
      hdepth⟩
  | rejected cut block piece rest ih =>
    have hback := Groups.read_eq_ok_iff.1 block ▸ hrest hcloses cut
    obtain ⟨whole, hdepth⟩ := ih hback.of_append
    exact ⟨.rejected (Text.cutKeyword?_append_of_nameEnds hk cut hends)
      (Groups.read_ok_append block _) (Construct.read_none_append piece _) whole, hdepth⟩
  | @compiled text before rest back left groups piece cut block read contents outline _ ih =>
    have hback := Groups.read_eq_ok_iff.1 block ▸ hrest hcloses cut
    obtain ⟨loop, hloop, rfl, rfl⟩ := Construct.readLoop_eq_some read
    obtain ⟨whole, hdepth⟩ := ih hback.of_append
    refine ⟨.compiled (Text.cutKeyword?_append_of_nameEnds hk cut hends)
      (Groups.read_ok_append block _) (Construct.readLoop_of_ofHeader? hloop _) contents whole, ?_⟩
    simp only [depth, hdepth]

/-- The body of a branch and what follows it: either no search for a loop runs off the end of the body, or
nothing behind it can end one. -/
theorem Outline.exists_body {body after : Text} (inside : Outline .loops body)
    (behind : Outline .loops after) (hcloses : body.ClosesBraces)
    (h : inside.StaysInside ∧ '@' ∉ inside.tail ∨ '@' ∉ after ∧ ')' ∉ after) :
    ∃ whole : Outline .loops (body ++ '}' :: after),
      ∀ limit, whole.depth < limit ↔ inside.depth < limit ∧ behind.depth < limit := by
  rcases h with ⟨hinside, htail⟩ | ⟨hat, hparen⟩
  · have hbrace : ∀ text, Text.Mentions (['}'] ++ text) Construct.loops.keyword ↔
        text.Mentions Construct.loops.keyword :=
      fun _ => Text.mentions_silent_append_iff (.of_not_mem (by decide))
    obtain ⟨closed, -, hclosed⟩ := behind.exists_prepend hbrace
    have hends : Construct.loops = .chains → Chain.Ends ('}' :: after) := fun h => absurd h (by decide)
    obtain ⟨whole, hwhole⟩ := inside.exists_append hinside htail hends closed
    exact ⟨whole, fun limit => by rw [hwhole.depth, hclosed]⟩
  · obtain ⟨whole, hwhole⟩ := inside.exists_closing hcloses hat hparen
    have hbehind : ¬ 1 ≤ behind.depth := by
      rw [← behind.nested_iff, Pass.nested_succ_iff]
      rintro ⟨content, hholds, -⟩
      exact Pass.holds_of_plain (Text.cutKeyword?_eq_none_iff.2 fun hm => hat hm.at_mem) hholds
    refine ⟨whole, fun limit => ?_⟩
    rw [hwhole]
    omega

/-- **A branch adds nothing to how deep loops are nested.** Loops in a text with a branch are nested as
deep as in what stands before it, in its body or in what stands behind it. -/
theorem Pass.nested_branch_iff {before after : Text} {groups : Groups} (front : Outline .loops before)
    (inside : Outline .loops groups.body.inside) (hfront : front.StaysInside) (htail : '@' ∉ front.tail)
    (hheader : ¬ groups.header.inside.Mentions Construct.loops.keyword)
    (hbody : inside.StaysInside ∧ '@' ∉ inside.tail ∨ '@' ∉ after ∧ ')' ∉ after) (n : Nat) :
    Nested .loops n (before ++ ("@if".toList ++ (groups.source ++ after))) ↔
      Nested .loops n before ∨ Nested .loops n groups.body.inside ∨ Nested .loops n after := by
  have hk := Construct.loops.isKeyword
  let behind := Outline.of .loops after
  let start := "@if".toList ++ (groups.header.source ++ (groups.body.blanks.text ++ ['{']))
  have htext : "@if".toList ++ (groups.source ++ after) = start ++ (groups.body.inside ++ '}' :: after) := by
    simp only [start, Groups.source, Group.source, opener, closer, List.append_assoc,
      List.cons_append, List.nil_append]
  have hif : Text.Sealed Construct.loops.keyword "@if".toList False :=
    .of_silent (.of_other (by decide) (by decide))
  have hsource := (groups.header.sealed_source hk).congr (iff_false_intro hheader)
  have hopen : Text.Sealed Construct.loops.keyword (groups.body.blanks.text ++ ['{']) False :=
    .of_free (List.not_mem_append (groups.body.blanks.blank.not_mem (by decide)) (by decide))
  have hstart : Text.Sealed Construct.loops.keyword start False :=
    (hif.append (hsource.append hopen)).congr (by simp)
  obtain ⟨closed, hclosed⟩ := inside.exists_body behind ⟨0, groups.body.balanced.level?⟩ hbody
  obtain ⟨branch, -, hbranch⟩ := closed.exists_prepend
    fun text => (hstart text).trans (false_or _).to_iff
  have hends : Construct.loops = .chains → Chain.Ends (start ++ (groups.body.inside ++ '}' :: after)) :=
    fun h => absurd h (by decide)
  obtain ⟨whole, hwhole⟩ := front.exists_append hfront htail hends branch
  rw [htext, whole.nested_iff, front.nested_iff, inside.nested_iff, behind.nested_iff, ← Nat.not_lt,
    hwhole.depth, hbranch, hclosed]
  omega

/-! ## The compiler at its limits -/

theorem Compiler.result_compile (limits : NestingLimits) (tag text : Text) :
    (compile limits tag text).result = .ok
      (if Pass.StaysWithin .loops limits.loops text ∧
          Pass.StaysWithin .chains limits.chains (Pass.compiled .loops tag text) then
        Pass.compiled .chains tag (Pass.compiled .loops tag text)
      else text) := by
  rw [compile, Traced.result_bind, Traced.result_attempt, Traced.result_bind, compileLoops,
    Pass.result_run]
  by_cases hloops : Pass.StaysWithin .loops limits.loops text
  · simp only [hloops, if_true, true_and, bind, Except.bind, compileChains, Pass.result_run]
    by_cases hchains : Pass.StaysWithin .chains limits.chains (Pass.compiled .loops tag text)
    · simp only [hchains, if_true]
      rfl
    · simp only [hchains, if_false]
      rfl
  · simp only [hloops, if_false, false_and]
    rfl

/-- **Too deep nesting is all or nothing.** If every chain of constructs that are nested in each
other's bodies stays within the limit, for loops in the text and for branches in what the pass over
loops makes of it, the compiler is one pass behind the other as they are without limits; otherwise it
gives back the text, also when only the second pass fails. Branches do not count as loops: around a
branch whose pieces are read apart, loops are nested as deep as in the deepest piece. -/
theorem Compiler.compile_all_or_nothing (limits : NestingLimits) (tag text : Text) :
    ((compile limits tag text).result = .ok
      (if Pass.StaysWithin .loops limits.loops text ∧
          Pass.StaysWithin .chains limits.chains (Pass.compiled .loops tag text) then
        Pass.compiled .chains tag (Pass.compiled .loops tag text)
      else text)) ∧
    (∀ construct text, ∃ enough, ∀ limit, enough ≤ limit →
      (Pass.run construct tag limit text).result = .ok (Pass.compiled construct tag text)) ∧
    ∀ (before after : Text) (groups : Groups) (front : Outline .loops before)
      (inside : Outline .loops groups.body.inside), front.StaysInside → '@' ∉ front.tail →
      ¬ groups.header.inside.Mentions Construct.loops.keyword →
      inside.StaysInside ∧ '@' ∉ inside.tail ∨ '@' ∉ after ∧ ')' ∉ after → ∀ n,
      (Pass.Nested .loops n (before ++ ("@if".toList ++ (groups.source ++ after))) ↔
        Pass.Nested .loops n before ∨ Pass.Nested .loops n groups.body.inside ∨
          Pass.Nested .loops n after) := by
  refine ⟨result_compile limits tag text,
    fun construct text => ⟨Pass.nesting construct text + 1, fun limit hlimit => ?_⟩,
    fun before after groups front inside => Pass.nested_branch_iff front inside⟩
  rw [Pass.result_run, if_pos (Pass.staysWithin_iff.2 hlimit)]

/-- The groups of a branch with a loop in its body. -/
def Pass.branchGroups : Groups where
  header := ⟨Template.Gap.space.toBlanks, "open".toList, by decide⟩
  body := ⟨Template.Gap.space.toBlanks, "@for (x of xs) \x7bx\x7d".toList, by decide⟩

/-- Here the pass over loops finishes, and only the one over chains fails. -/
theorem Compiler.compile_all_or_nothing_sample :
    (Pass.run .loops Container.defaultTag 2 "@for (x of xs) \x7b@if (a) \x7bb\x7d\x7d".toList).result =
      .ok "<ng-container *ngFor=\"let x of xs\">@if (a) \x7bb\x7d</ng-container>".toList ∧
    (compile ⟨2, 1⟩ Container.defaultTag "@for (x of xs) \x7b@if (a) \x7bb\x7d\x7d".toList).result =
      .ok "@for (x of xs) \x7b@if (a) \x7bb\x7d\x7d".toList ∧
    ∀ n, Pass.Nested .loops n ([' '] ++ ("@if".toList ++ (Pass.branchGroups.source ++ ['.']))) ↔
      Pass.Nested .loops n [' '] ∨ Pass.Nested .loops n "@for (x of xs) \x7bx\x7d".toList ∨
        Pass.Nested .loops n ['.'] := by
  have hloops : (Pass.run .loops Container.defaultTag 2
      "@for (x of xs) \x7b@if (a) \x7bb\x7d\x7d".toList).result =
      .ok "<ng-container *ngFor=\"let x of xs\">@if (a) \x7bb\x7d</ng-container>".toList := by
    decide +kernel
  have hchains : (Pass.run .chains Container.defaultTag 1
      "<ng-container *ngFor=\"let x of xs\">@if (a) \x7bb\x7d</ng-container>".toList).result =
      .error .nestingTooDeep := by
    decide +kernel
  obtain ⟨hresult, -, hnested⟩ := compile_all_or_nothing ⟨2, 1⟩ Container.defaultTag
    "@for (x of xs) \x7b@if (a) \x7bb\x7d\x7d".toList
  have hplain : Text.cutKeyword? Construct.loops.keyword [' '] = none := rfl
  refine ⟨hloops, ?_, hnested [' '] ['.'] Pass.branchGroups (.plain hplain) (.of .loops _) trivial
    (by change '@' ∉ [' ']; decide) (fun hm => absurd hm.at_mem (by decide)) (.inr (by decide))⟩
  rw [Pass.result_run] at hloops hchains
  split at hloops
  next =>
    rw [Except.ok.inj hloops] at hresult
    rw [hresult, if_neg fun h => ?_]
    rw [if_pos h.2] at hchains
    cases hchains
  next => cases hloops

end FlowTemplate
