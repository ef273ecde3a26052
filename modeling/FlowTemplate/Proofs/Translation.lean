/-
Reading does not depend on what stands before it. A text read from the end of a text put in front
of it gives the same groups, blocks, branches and loops, with every offset moved by the length of
that text.
-/
import FlowTemplate.Proofs.Reading

namespace FlowTemplate

/-! ## Moved offsets -/

namespace Fault

/-- The fault `distance` characters further on. -/
def shift (distance : Nat) : Fault → Fault
  | unbalanced position => unbalanced (distance + position)
  | malformedHeader position header => malformedHeader (distance + position) header
  | brokenContinuation position => brokenContinuation (distance + position)
  | pastEnd index => pastEnd (distance + index)
  | noOpener index => noOpener (distance + index)
  | nestingTooDeep => nestingTooDeep

/-- A reading `distance` characters further on: a fault moves with it, and a value as `move` says. -/
def shiftReading {α β : Type} (distance : Nat) (move : α → β) : Except Fault α → Except Fault β
  | .ok value => .ok (move value)
  | .error fault => .error (fault.shift distance)

end Fault

open Fault

namespace Span

/-- The span `distance` characters further on. -/
def shift (distance : Nat) (span : Span) : Span := ⟨distance + span.start, distance + span.stop⟩

theorem innerText_shift (pre text : Text) {span : Span} (h : 0 < span.stop) :
    (span.shift pre.length).innerText (pre ++ text) = span.innerText text := by
  obtain ⟨start, stop⟩ := span
  cases stop with
  | zero => cases h
  | succ last =>
    change (pre ++ text).slice (pre.length + start + 1) (pre.length + last) = _
    rw [Nat.add_assoc, Text.slice_append]
    rfl

theorem Encloses.stop_pos {span : Span} {text : Text} (h : span.Encloses text) : 0 < span.stop :=
  Nat.lt_of_le_of_lt (Nat.zero_le _) h.wide

end Span

/-- The block `distance` characters further on. -/
def Block.shift (distance : Nat) (block : Block) : Block :=
  { block with
    start := distance + block.start
    header := block.header.shift distance
    body := block.body.shift distance }

@[simp] theorem Block.shift_start (distance : Nat) (block : Block) :
    (block.shift distance).start = distance + block.start := rfl

@[simp] theorem Block.shift_stop (distance : Nat) (block : Block) :
    (block.shift distance).stop = distance + block.stop := rfl

/-! ## Groups and blocks -/

theorem findClosing_append (pre text : Text) (index : Nat) :
    findClosing (pre ++ text) (pre.length + index) =
      shiftReading pre.length (pre.length + ·) (findClosing text index) := by
  unfold findClosing
  rw [List.drop_length_add_append]
  split
  · rfl
  next c cs hc =>
    cases Delimiter.ofOpener? c with
    | none => rfl
    | some kind =>
      cases hk : kind.closingOffset? 1 cs with
      | none => simp [hk, shiftReading, Fault.shift]
      | some offset => simp [hk, shiftReading]; omega

theorem skipBlanks_append (pre text : Text) (index : Nat) :
    skipBlanks (pre ++ text) (pre.length + index) = pre.length + skipBlanks text index := by
  simp only [skipBlanks, List.drop_length_add_append, Nat.add_assoc]

theorem expectGroup_append (pre text : Text) (index : Nat) (opener : Char) :
    expectGroup (pre ++ text) (pre.length + index) opener =
      shiftReading pre.length (Span.shift pre.length) (expectGroup text index opener) := by
  simp only [expectGroup, skipBlanks_append, findClosing_append]
  rw [List.getElem?_append_right (by omega), Nat.add_sub_cancel_left]
  split
  · cases findClosing text (skipBlanks text index) <;> rfl
  · rfl

namespace Block

theorem groups_append (pre text : Text) (index : Nat) :
    groups (pre ++ text) (pre.length + index) =
      shiftReading pre.length (fun (header, body) => (header.shift pre.length, body.shift pre.length))
        (groups text index) := by
  unfold groups
  rw [expectGroup_append]
  cases expectGroup text index '(' with
  | error fault => rfl
  | ok header =>
    simp only [shiftReading, bind, Except.bind]
    have : (header.shift pre.length).stop = pre.length + header.stop := rfl
    rw [this, expectGroup_append]
    cases expectGroup text header.stop '{' <;> rfl

theorem ofKeywordAt_append (pre text keyword : Text) (start : Nat) :
    ofKeywordAt (pre ++ text) keyword (pre.length + start) =
      shiftReading pre.length (shift pre.length) (ofKeywordAt text keyword start) := by
  unfold ofKeywordAt
  rw [show pre.length + start + 1 + keyword.length = pre.length + (start + 1 + keyword.length) by omega,
    groups_append]
  cases hg : groups text (start + 1 + keyword.length) with
  | ok spans => rfl
  | error fault =>
    rcases groups_error hg with ⟨position, rfl⟩ | ⟨position, header, rfl⟩
    · rfl
    · simp [shiftReading, Fault.shift]

end Block

theorem locate_append (pre text keyword : Text) (start : Nat) :
    locate (pre ++ text) keyword (pre.length + start) =
      shiftReading pre.length (Option.map (Block.shift pre.length)) (locate text keyword start) := by
  unfold locate
  rw [List.drop_length_add_append]
  split
  · rfl
  next distance hd =>
    rw [Nat.add_assoc, Block.ofKeywordAt_append]
    cases Block.ofKeywordAt text keyword (start + distance) <;> rfl

/-- Behind a text that it does not look at, the first block is found as in a text by itself. -/
theorem locate_append_of_eq {text keyword : Text} {found : Except Fault (Option Block)}
    (h : locate text keyword 0 = found) (pre : Text) :
    locate (pre ++ text) keyword pre.length =
      shiftReading pre.length (Option.map (Block.shift pre.length)) found := by
  rw [← h, ← locate_append, Nat.add_zero]

/-! ## Chains and loops -/

theorem Branch.ofParts_append (pre text : Text) {header body : Span} (hh : 0 < header.stop)
    (hb : 0 < body.stop) :
    Branch.ofParts (pre ++ text) (header.shift pre.length) (body.shift pre.length) =
      Branch.ofParts text header body := by
  simp only [Branch.ofParts, Span.innerText_shift pre text hh, Span.innerText_shift pre text hb]

theorem Branch.ofElse_append (pre text : Text) {body : Span} (hb : 0 < body.stop) :
    Branch.ofElse (pre ++ text) (body.shift pre.length) = Branch.ofElse text body := by
  simp only [Branch.ofElse, Span.innerText_shift pre text hb]

namespace Chain

theorem asContinuation_shiftReading {α β : Type} (distance index : Nat) (move : α → β)
    (result : Except Fault α) :
    asContinuation (distance + index) (shiftReading distance move result) =
      shiftReading distance move (asContinuation index result) := by
  rcases result with (_ | _ | _ | _ | _ | _) | _ <;> rfl

/-- What is ahead at an offset lies as far from the end of the text as it did. -/
theorem length_sub_append (pre : Text) {text rest : Text} {index : Nat}
    (h : rest <:+ text.drop index) :
    (pre ++ text).length - rest.length = pre.length + (text.length - rest.length) := by
  have := h.length_le
  rw [List.length_drop] at this
  rw [List.length_append]
  omega

theorem continuation_append (pre text : Text) (index : Nat) :
    continuation (pre ++ text) (pre.length + index) =
      shiftReading pre.length (Option.map fun (branch, next) => (branch, pre.length + next))
        (continuation text index) := by
  simp only [continuation, List.drop_length_add_append]
  split
  next rest hrest =>
    rw [length_sub_append pre (afterElseIf?_suffix hrest), Block.groups_append,
      ← asContinuation_shiftReading]
    congr 1
    cases hg : Block.groups text (text.length - rest.length) with
    | error fault => rfl
    | ok spans =>
      obtain ⟨header, body⟩ := spans
      obtain ⟨-, hh, -, hb⟩ := Block.groups_ok hg
      simp only [shiftReading, Except.map, Option.map_some,
        Branch.ofParts_append pre text hh.stop_pos hb.stop_pos]
      rfl
  next =>
    split
    next rest hrest =>
      rw [length_sub_append pre (afterElse?_suffix hrest), expectGroup_append,
        ← asContinuation_shiftReading]
      congr 1
      cases hg : expectGroup text (text.length - rest.length) '{' with
      | error fault => rfl
      | ok body =>
        simp only [shiftReading, Except.map, Option.map_some,
          Branch.ofElse_append pre text (expectGroup_ok hg).2.stop_pos]
        rfl
    next => rfl

theorem continueFrom_append (pre text : Text) (fuel : Nat) (last : Branch) (stop : Nat) :
    (continueFrom (pre ++ text) fuel last (pre.length + stop)).result =
      (continueFrom text fuel last stop).result.map fun (branches, finish) =>
        (branches, pre.length + finish) := by
  induction fuel generalizing last stop with
  | zero => rfl
  | succ fuel ih =>
    rw [result_continueFrom_succ, result_continueFrom_succ, continuation_append]
    split
    · rfl
    · cases continuation text stop with
      | error fault => rfl
      | ok found =>
        cases found with
        | none => rfl
        | some found =>
          simp only [shiftReading, Option.map_some, ih]
          cases (continueFrom text fuel found.1 found.2).result <;> rfl

theorem ofBlock_append (pre text : Text) {block : Block} (hb : block.Within text) :
    (ofBlock (pre ++ text) (block.shift pre.length)).result =
      (ofBlock text block).result.map fun (branches, stop) => (branches, pre.length + stop) := by
  have hparts : Branch.ofParts (pre ++ text) (block.shift pre.length).header
      (block.shift pre.length).body = .ofParts text block.header block.body :=
    Branch.ofParts_append pre text hb.header.stop_pos hb.body.stop_pos
  rw [result_ofBlock, result_ofBlock, hparts, Block.shift_stop, continueFrom_append,
    continueFrom_fuel text (pre ++ text).length text.length _ _ (by simp; omega) (by omega)]
  cases (continueFrom text text.length (.ofParts text block.header block.body) block.stop).result <;>
    rfl

end Chain

theorem Loop.ofBlock_append (pre text : Text) {block : Block} (hb : block.Within text) :
    (Loop.ofBlock (pre ++ text) (block.shift pre.length)).result =
      shiftReading pre.length id (Loop.ofBlock text block).result := by
  have hheader : (block.shift pre.length).headerText (pre ++ text) = block.headerText text :=
    Span.innerText_shift pre text hb.header.stop_pos
  have hbody : (block.shift pre.length).bodyText (pre ++ text) = block.bodyText text :=
    Span.innerText_shift pre text hb.body.stop_pos
  rw [result_ofBlock, result_ofBlock, hheader, hbody]
  cases clause? ((block.headerText text).trim.cut ';').1.trim <;> rfl

end FlowTemplate
