/-
Passes step by step. What a pass does next is its `move`, and all that can come of one is told once
(`move_cases`, `move_append`). A pass keeps a cursor and the output so far, but what it makes of the rest
of its text depends on neither: restarted at its cursor it is a pass over the rest (`result_runFrom`). So
a pass follows a recursion on what is left of the text (`outcome_eq`), and the only fault it can end with
is that blocks are nested too deep (`run_error`).
-/
import FlowTemplate.Compiler
import FlowTemplate.Proofs.Container
import FlowTemplate.Proofs.Except
import FlowTemplate.Proofs.Translation

namespace FlowTemplate

open Fault

namespace Traced

variable {α β : Type}

theorem result_mapM (f : α → Traced β) (list : List α) :
    (list.mapM f).result = list.mapM fun a => (f a).result := by
  induction list with
  | nil => rfl
  | cons a list ih => simp only [List.mapM_cons, result_bind, ih, result_pure]; rfl

end Traced

namespace Construct

variable {tag : Text} {inner : Text → Traced Text} {text : Text} {block : Block}

theorem result_compileBlock_loops :
    (loops.compileBlock tag inner text block).result = (do
      let loop ← (Loop.ofBlock text block).result
      let content ← (inner loop.content).result
      return (Container.ofLoop tag { loop with content }, block.stop)) := by
  simp only [compileBlock, Traced.result_bind, Traced.result_pure]
  rfl

theorem result_compileBlock_chains :
    (chains.compileBlock tag inner text block).result = (do
      let (chain, stop) ← (Chain.ofBlock text block).result
      let compiled ← chain.mapM fun branch => do
        let content ← (inner branch.content).result
        return { branch with content }
      return (Container.ofChain tag compiled, stop)) := by
  simp only [compileBlock, Traced.result_bind, Traced.result_pure, Traced.result_mapM]
  rfl

/-- A chain fails with the fault of one of its contents. -/
theorem exists_error_of_branches (inner : Text → Traced Text) {chain : List Branch} {fault : Fault}
    (h : (chain.mapM fun branch => do
      let content ← (inner branch.content).result
      return { branch with content }) = .error fault) :
    ∃ content, (inner content).result = .error fault := by
  obtain ⟨branch, -, hbranch⟩ := Except.mapM_error h
  cases hc : (inner branch.content).result with
  | error found => rw [hc] at hbranch; cases hbranch; exact ⟨_, hc⟩
  | ok content => rw [hc] at hbranch; cases hbranch

/-- A chain has its first branch also after its contents are compiled. -/
theorem exists_cons_of_branches {first : Branch} {chain compiled : List Branch}
    (h : ((first :: chain).mapM fun branch => do
      let content ← (inner branch.content).result
      return { branch with content }) = .ok compiled) :
    ∃ branch more, compiled = branch :: more := by
  rw [List.mapM_cons] at h
  obtain ⟨branch, -, h⟩ := Except.bind_eq_ok_iff.1 h
  obtain ⟨more, -, h⟩ := Except.bind_eq_ok_iff.1 h
  exact ⟨branch, more, (Except.ok.inj h).symm⟩

/-- **What comes of a block**: its header cannot be read, one of its contents cannot be compiled, or
there is markup for it, which begins with a tag, and an offset behind the block. -/
theorem compileBlock_cases (construct : Construct) (tag : Text) (inner : Text → Traced Text)
    (hb : block.Within text) :
    (∃ header, (construct.compileBlock tag inner text block).result =
      .error (.malformedHeader block.start header)) ∨
    (∃ content fault, (inner content).result = .error fault ∧
      (construct.compileBlock tag inner text block).result = .error fault) ∨
    ∃ markup stop, (construct.compileBlock tag inner text block).result = .ok (markup, stop) ∧
      markup.head? = some '<' ∧ block.stop ≤ stop ∧ stop ≤ text.length := by
  cases construct with
  | loops =>
    rw [result_compileBlock_loops]
    cases hl : (Loop.ofBlock text block).result with
    | error fault =>
      obtain ⟨header, rfl⟩ := Loop.ofBlock_error hl
      exact .inl ⟨header, rfl⟩
    | ok loop =>
      cases hc : (inner loop.content).result with
      | error fault => exact .inr (.inl ⟨_, fault, hc, by simp only [bind, Except.bind, hc]⟩)
      | ok content =>
        refine .inr (.inr ⟨_, _, by simp only [bind, Except.bind, hc]; rfl, rfl, ?_, ?_⟩)
        · exact Nat.le_refl _
        · exact hb.body.inside
  | chains =>
    rw [result_compileBlock_chains]
    obtain ⟨branches, stop, hchain, hge, hle⟩ := Chain.ofBlock_ok hb
    rw [hchain]
    simp only [bind, Except.bind]
    split
    next fault hm =>
      obtain ⟨content, hcontent⟩ := exists_error_of_branches inner hm
      exact .inr (.inl ⟨content, fault, hcontent, rfl⟩)
    next compiled hm =>
      obtain ⟨branch, more, rfl⟩ := exists_cons_of_branches hm
      exact .inr (.inr ⟨_, stop, rfl, by rw [Container.ofChain_cons]; rfl, hge, hle⟩)

/-- What a pass asks of the compilation of single blocks: it does not depend on what stands before
the block, it goes past the block, and it fails only for a header that cannot be read and for
nesting. -/
structure Local (compileBlock : Text → Block → Traced (Text × Nat)) : Prop where
  append : ∀ pre text block, block.Within text →
    (compileBlock (pre ++ text) (block.shift pre.length)).result =
      shiftReading pre.length (fun (markup, stop) => (markup, pre.length + stop))
        (compileBlock text block).result
  ok : ∀ text block markup stop, block.Within text →
    (compileBlock text block).result = .ok (markup, stop) → block.stop ≤ stop ∧ stop ≤ text.length
  error : ∀ text block fault, block.Within text → (compileBlock text block).result = .error fault →
    fault = .nestingTooDeep ∨ ∃ header, fault = .malformedHeader block.start header

theorem compileBlock_local (construct : Construct) (tag : Text) {inner : Text → Traced Text}
    (hinner : ∀ text fault, (inner text).result = .error fault → fault = .nestingTooDeep) :
    Local fun text block => construct.compileBlock tag inner text block where
  append pre text block hb := by
    cases construct with
    | loops =>
      rw [result_compileBlock_loops, result_compileBlock_loops, Loop.ofBlock_append pre text hb]
      cases (Loop.ofBlock text block).result with
      | error fault => rfl
      | ok loop =>
        simp only [shiftReading, id, bind, Except.bind]
        cases hc : (inner loop.content).result with
        | error fault => rw [hinner _ _ hc]; rfl
        | ok content => rfl
    | chains =>
      rw [result_compileBlock_chains, result_compileBlock_chains, Chain.ofBlock_append pre text hb]
      obtain ⟨branches, stop, hchain, -⟩ := Chain.ofBlock_ok hb
      rw [hchain]
      simp only [Except.map, bind, Except.bind]
      split
      next fault hm =>
        obtain ⟨content, hcontent⟩ := exists_error_of_branches inner hm
        rw [hinner _ _ hcontent]
        rfl
      next compiled hm => rfl
  ok text block markup stop hb h := by
    rcases construct.compileBlock_cases tag inner hb with
      ⟨_, hresult⟩ | ⟨_, _, -, hresult⟩ | ⟨_, _, hresult, -, hbounds⟩
    · cases hresult.symm.trans h
    · cases hresult.symm.trans h
    · cases hresult.symm.trans h
      exact hbounds
  error text block fault hb h := by
    rcases construct.compileBlock_cases tag inner hb with
      ⟨header, hresult⟩ | ⟨_, _, hcontent, hresult⟩ | ⟨_, _, hresult, -⟩
    · cases hresult.symm.trans h
      exact .inr ⟨header, rfl⟩
    · cases hresult.symm.trans h
      exact .inl (hinner _ _ hcontent)
    · cases hresult.symm.trans h

end Construct

namespace Pass

variable {construct : Construct} {compileBlock : Text → Block → Traced (Text × Nat)}

/-! ## One step -/

/-- What a pass does next. -/
inductive Move where
  /-- The rest of the text stays as it is. -/
  | rest
  /-- The pass fails. -/
  | fail (fault : Fault)
  /-- The text up to `stop` becomes `made`, and the pass goes on there. -/
  | advance (made : Text) (stop : Nat)

/-- The move `distance` characters further on. -/
def Move.shift (distance : Nat) : Move → Move
  | rest => rest
  | fail fault => fail fault
  | advance made stop => advance made (distance + stop)

/-- What a pass does next at a cursor in front of the end of its text. -/
def move (construct : Construct) (compileBlock : Text → Block → Traced (Text × Nat)) (text : Text)
    (cursor : Nat) : Move :=
  match locate text construct.keyword cursor with
  | .error (.unbalanced _) => .rest
  | .error (.malformedHeader position _) =>
    .advance (text.slice cursor (position + construct.keyword.length + 1))
      (position + construct.keyword.length + 1)
  | .error fault => .fail fault
  | .ok none => .rest
  | .ok (some block) =>
    match (compileBlock text block).result with
    | .error (.malformedHeader _ _) => .advance (text.slice cursor block.stop) block.stop
    | .error fault => .fail fault
    | .ok (markup, stop) => .advance (text.slice cursor block.start ++ markup) stop

/-- One step of a pass is its next move. -/
theorem result_runFrom_succ (text : Text) (fuel cursor : Nat) (output : Text) :
    (runFrom construct compileBlock text (fuel + 1) cursor output).result =
      if text.length ≤ cursor then .ok (output ++ text.drop cursor)
      else
        match move construct compileBlock text cursor with
        | .rest => .ok (output ++ text.drop cursor)
        | .fail fault => .error fault
        | .advance made stop =>
          (runFrom construct compileBlock text fuel stop (output ++ made)).result := by
  rw [runFrom, move]
  split
  · rfl
  · cases locate text construct.keyword cursor with
    | error fault =>
      cases fault with
      | unbalanced position => simp [Except.map]
      | malformedHeader position header => simp only [Traced.result_bind, Traced.result_log]; rfl
      | brokenContinuation | pastEnd | noOpener | nestingTooDeep => rfl
    | ok found =>
      cases found with
      | none => rfl
      | some block =>
        simp only [Traced.result_bind, Traced.result_attempt]
        rcases (compileBlock text block).result with (_ | _ | _ | _ | _ | _) | ⟨markup, stop⟩
        case ok => simp only [← List.append_assoc]; rfl
        all_goals rfl

/-- **What can come of a step.** A pass leaves the rest as it is, or fails for nesting, or it goes on
further behind in its text. -/
theorem move_cases (construct : Construct) (hlocal : Construct.Local compileBlock) (text : Text) (cursor : Nat) :
    move construct compileBlock text cursor = .rest ∨
    move construct compileBlock text cursor = .fail .nestingTooDeep ∨
    ∃ made stop, move construct compileBlock text cursor = .advance made stop ∧ cursor < stop ∧
      stop ≤ text.length := by
  rw [move]
  cases hl : locate text construct.keyword cursor with
  | error fault =>
    rcases locate_error hl with ⟨position, rfl⟩ | ⟨position, header, rfl, hge, hle⟩
    · exact .inl rfl
    · exact .inr (.inr ⟨_, _, rfl, by omega, hle⟩)
  | ok found =>
    cases found with
    | none => exact .inl rfl
    | some block =>
      obtain ⟨-, hge, hb⟩ := locate_ok hl
      have hahead : cursor < block.stop := Nat.lt_of_le_of_lt hge hb.start_lt_stop
      dsimp only
      cases hc : (compileBlock text block).result with
      | error fault =>
        rcases hlocal.error text block fault hb hc with rfl | ⟨header, rfl⟩
        · exact .inr (.inl rfl)
        · exact .inr (.inr ⟨_, _, rfl, hahead, hb.body.inside⟩)
      | ok result =>
        obtain ⟨markup, stop⟩ := result
        obtain ⟨hstop, hle⟩ := hlocal.ok text block markup stop hb hc
        exact .inr (.inr ⟨_, _, rfl, Nat.lt_of_lt_of_le hahead hstop, hle⟩)

/-- What stands in front of the cursor moves the step and changes nothing else about it. -/
theorem move_append (construct : Construct) (hlocal : Construct.Local compileBlock) (pre text : Text)
    (cursor : Nat) :
    move construct compileBlock (pre ++ text) (pre.length + cursor) =
      (move construct compileBlock text cursor).shift pre.length := by
  rw [move, move, locate_append]
  cases hl : locate text construct.keyword cursor with
  | error fault =>
    rcases locate_error hl with ⟨position, rfl⟩ | ⟨position, header, rfl, -⟩
    · rfl
    · simp only [shiftReading, Fault.shift, Nat.add_assoc, Text.slice_append, Move.shift]
  | ok found =>
    cases found with
    | none => rfl
    | some block =>
      obtain ⟨-, -, hb⟩ := locate_ok hl
      simp only [shiftReading, Option.map_some, hlocal.append pre text block hb, Block.shift_stop,
        Block.shift_start, Text.slice_append]
      cases hc : (compileBlock text block).result with
      | error fault =>
        rcases hlocal.error text block fault hb hc with rfl | ⟨header, rfl⟩ <;> rfl
      | ok result => rfl

/-! ## A whole pass -/

/-- What a pass makes of a text. -/
def outcome (construct : Construct) (compileBlock : Text → Block → Traced (Text × Nat))
    (text : Text) : Except Fault Text :=
  (runFrom construct compileBlock text text.length 0 []).result

theorem run_eq_outcome (construct : Construct) (tag : Text) (limit : Nat) (text : Text) :
    (run construct tag (limit + 1) text).result =
      outcome construct (fun text block => construct.compileBlock tag (run construct tag limit) text block)
        text := rfl

@[simp] theorem outcome_nil : outcome construct compileBlock [] = .ok [] := rfl

/-- A pass restarted at its cursor is a pass over the rest. -/
theorem result_runFrom (hlocal : Construct.Local compileBlock) (text output : Text) {fuel cursor : Nat}
    (hcursor : cursor ≤ text.length) (hfuel : text.length ≤ fuel + cursor) :
    (runFrom construct compileBlock text fuel cursor output).result =
      (outcome construct compileBlock (text.drop cursor)).map (output ++ ·) := by
  -- Both runs take the same first step, and what that leaves is shorter.
  induction hn : text.length - cursor using Nat.strong_induction_on
    generalizing text output fuel cursor with
  | _ n ih =>
  subst hn
  rcases Nat.eq_or_lt_of_le hcursor with rfl | hlt
  · rw [List.drop_length, outcome_nil]
    cases fuel with
    | zero => simp [runFrom, Except.map]
    | succ fuel =>
      rw [result_runFrom_succ, if_pos (Nat.le_refl _)]
      simp [Except.map]
  obtain ⟨fuel, rfl⟩ : ∃ less, fuel = less + 1 := ⟨fuel - 1, by omega⟩
  obtain ⟨less, hless⟩ : ∃ less, (text.drop cursor).length = less + 1 :=
    ⟨(text.drop cursor).length - 1, by simp; omega⟩
  have hmove : move construct compileBlock text cursor =
      (move construct compileBlock (text.drop cursor) 0).shift cursor := by
    have happend := move_append construct hlocal (text.take cursor) (text.drop cursor) 0
    rwa [List.take_append_drop, List.length_take_of_le hcursor] at happend
  rw [outcome, hless, result_runFrom_succ, result_runFrom_succ, if_neg (Nat.not_le.2 hlt),
    if_neg (by omega), hmove]
  rcases move_cases construct hlocal (text.drop cursor) 0 with
    hfirst | hfirst | ⟨made, stop, hfirst, hpos, hstop⟩ <;> rw [hfirst]
  · simp [Move.shift, Except.map]
  · rfl
  · rw [List.length_drop] at hstop hless
    have hinside : cursor + stop ≤ text.length := by omega
    have hahead : text.length - (cursor + stop) < text.length - cursor := by omega
    have hbehind : stop ≤ (text.drop cursor).length := by rwa [List.length_drop]
    have henough : (text.drop cursor).length ≤ less + stop := by rw [List.length_drop]; omega
    have hrest := ih _ (by rw [List.length_drop]; omega) (text.drop cursor) ([] ++ made) hbehind henough rfl
    simp only [Move.shift]
    rw [ih _ hahead text (output ++ made) hinside (by omega) rfl, hrest, List.drop_drop, Except.map_map]
    simp

/-- **The recursion of a pass.** What the first step leaves of the text is compiled by itself. -/
theorem outcome_eq (hlocal : Construct.Local compileBlock) (text : Text) :
    outcome construct compileBlock text =
      match move construct compileBlock text 0 with
      | .rest => .ok text
      | .fail fault => .error fault
      | .advance made stop => (outcome construct compileBlock (text.drop stop)).map (made ++ ·) := by
  rcases Nat.eq_zero_or_pos text.length with hzero | hpos
  · obtain rfl := List.length_eq_zero_iff.1 hzero
    rfl
  obtain ⟨less, hlen⟩ : ∃ less, text.length = less + 1 := ⟨text.length - 1, by omega⟩
  rw [outcome, hlen, result_runFrom_succ, if_neg (by omega)]
  rcases move_cases construct hlocal text 0 with
    hfirst | hfirst | ⟨made, stop, hfirst, hahead, hstop⟩ <;> rw [hfirst]
  · rfl
  · exact result_runFrom hlocal text made hstop (by omega)

theorem outcome_error (hlocal : Construct.Local compileBlock) {text : Text} {fault : Fault}
    (h : outcome construct compileBlock text = .error fault) : fault = .nestingTooDeep := by
  induction hn : text.length using Nat.strong_induction_on generalizing text with
  | _ n ih =>
  subst hn
  rw [outcome_eq hlocal] at h
  rcases move_cases construct hlocal text 0 with
    hfirst | hfirst | ⟨made, stop, hfirst, hahead, hstop⟩ <;> rw [hfirst] at h
  · cases h
  · exact (Except.error.inj h).symm
  · exact ih _ (by simp; omega) (Except.map_eq_error_iff.1 h) rfl

theorem run_error {tag text : Text} {limit : Nat} {fault : Fault}
    (h : (run construct tag limit text).result = .error fault) : fault = .nestingTooDeep := by
  induction limit generalizing text fault with
  | zero => cases h; rfl
  | succ limit ih =>
    exact outcome_error (construct.compileBlock_local tag fun _ _ hf => ih hf) h

theorem run_local (construct : Construct) (tag : Text) (limit : Nat) :
    Construct.Local fun text block => construct.compileBlock tag (run construct tag limit) text block :=
  construct.compileBlock_local tag fun _ _ h => run_error h

/-- A pass over a text that begins with a block which can be compiled. -/
theorem run_of_block {tag text markup : Text} {limit stop : Nat} {block : Block}
    (hl : locate text construct.keyword 0 = .ok (some block)) (hstart : block.start = 0)
    (hc : (construct.compileBlock tag (run construct tag limit) text block).result =
      .ok (markup, stop)) :
    (run construct tag (limit + 1) text).result =
      (run construct tag (limit + 1) (text.drop stop)).result.map (markup ++ ·) := by
  rw [run_eq_outcome, outcome_eq (run_local construct tag limit), move, hl]
  simp only [hc, hstart]
  rfl

/-! ## Text without a keyword -/

/-- A text in which the keyword stands nowhere, whatever follows it. -/
def Silent (keyword : Text) : Text → Prop
  | [] => True
  | c :: cs => (∀ text, afterKeyword? keyword (c :: cs ++ text) = none) ∧ Silent keyword cs

theorem Silent.append {keyword a b : Text} (ha : Silent keyword a) (hb : Silent keyword b) :
    Silent keyword (a ++ b) := by
  induction a with
  | nil => exact hb
  | cons c cs ih =>
    exact ⟨fun text => by simpa using ha.1 (b ++ text), ih ha.2⟩

theorem Silent.of_not_mem {keyword text : Text} (h : '@' ∉ text) : Silent keyword text := by
  induction text with
  | nil => trivial
  | cons c cs ih =>
    simp only [List.mem_cons, not_or] at h
    refine ⟨fun text => ?_, ih h.2⟩
    rw [Option.eq_none_iff_forall_not_mem]
    intro rest hrest
    obtain ⟨heq, -⟩ := afterKeyword?_eq_some_iff.1 hrest
    exact h.1 (List.cons.inj heq).1.symm

theorem Silent.of_other {keyword text : Text} {c d : Char} (h : c ≠ d) (hfree : '@' ∉ c :: text) :
    Silent (d :: keyword) ('@' :: c :: text) := by
  refine ⟨fun rest => ?_, Silent.of_not_mem hfree⟩
  rw [Option.eq_none_iff_forall_not_mem]
  intro found hfound
  obtain ⟨heq, -⟩ := afterKeyword?_eq_some_iff.1 hfound
  exact h (List.cons.inj (List.cons.inj heq).2).1

theorem locate_of_silent {keyword pre : Text} (h : Silent keyword pre) (text : Text) :
    locate (pre ++ text) keyword 0 =
      shiftReading pre.length (Option.map (Block.shift pre.length)) (locate text keyword 0) := by
  have hoffset : Text.offsetOf? (fun t => (afterKeyword? keyword t).isSome) (pre ++ text) =
      (Text.offsetOf? (fun t => (afterKeyword? keyword t).isSome) text).map (pre.length + ·) := by
    induction pre with
    | nil => simp
    | cons c cs ih =>
      rw [List.cons_append, Text.offsetOf?, ← List.cons_append, h.1 text, ih h.2]
      cases Text.offsetOf? (fun t => (afterKeyword? keyword t).isSome) text with
      | none => rfl
      | some offset => simp; omega
  simp only [locate, List.drop_zero, hoffset]
  cases Text.offsetOf? (fun t => (afterKeyword? keyword t).isSome) text with
  | none => rfl
  | some distance =>
    simp only [Option.map_some, Nat.zero_add, Block.ofKeywordAt_append]
    cases Block.ofKeywordAt text keyword distance <;> rfl

/-- The move of a pass over a text with another one in front that it copies. -/
def Move.behind (pre : Text) : Move → Move
  | rest => rest
  | fail fault => fail fault
  | advance made stop => advance (pre ++ made) (pre.length + stop)

theorem move_of_silent (hlocal : Construct.Local compileBlock) {pre : Text}
    (h : Silent construct.keyword pre) (text : Text) :
    move construct compileBlock (pre ++ text) 0 = (move construct compileBlock text 0).behind pre := by
  rw [move, move, locate_of_silent h]
  cases hl : locate text construct.keyword 0 with
  | error fault =>
    rcases locate_error hl with ⟨position, rfl⟩ | ⟨position, header, rfl, -⟩
    · rfl
    · simp only [shiftReading, Fault.shift, Nat.add_assoc, Text.slice_zero,
        List.take_length_add_append, Move.behind]
  | ok found =>
    cases found with
    | none => rfl
    | some block =>
      obtain ⟨-, -, hb⟩ := locate_ok hl
      simp only [shiftReading, Option.map_some, hlocal.append pre text block hb, Block.shift_stop,
        Block.shift_start, Text.slice_zero, List.take_length_add_append]
      cases hc : (compileBlock text block).result with
      | error fault =>
        rcases hlocal.error text block fault hb hc with rfl | ⟨header, rfl⟩ <;> rfl
      | ok result => simp only [List.append_assoc, Move.behind]

/-- A pass copies a text without its keyword and goes on behind it. -/
theorem run_append_of_silent {tag pre : Text} (h : Silent construct.keyword pre) (limit : Nat)
    (text : Text) :
    (run construct tag (limit + 1) (pre ++ text)).result =
      (run construct tag (limit + 1) text).result.map (pre ++ ·) := by
  have hlocal := run_local construct tag limit
  rw [run_eq_outcome, run_eq_outcome, outcome_eq hlocal (pre ++ text), outcome_eq hlocal text,
    move_of_silent hlocal h]
  cases move construct _ text 0 with
  | rest | fail fault => rfl
  | advance made stop =>
    simp only [Move.behind, List.drop_length_add_append, Except.map_map, List.append_assoc]

/-! ## Texts one after another -/

/-- A pass makes `output` of `text` where it stands at the front, and what follows comes out as it
does by itself, if it is one of the texts `After`. -/
def Becomes (construct : Construct) (tag : Text) (limit : Nat) (After : Text → Prop)
    (text output : Text) : Prop :=
  ∀ rest, After rest → (run construct tag (limit + 1) (text ++ rest)).result =
    (run construct tag (limit + 1) rest).result.map (output ++ ·)

variable {tag : Text} {limit : Nat} {After : Text → Prop}

namespace Becomes

theorem nil : Becomes construct tag limit After [] [] := fun rest _ => by
  rw [List.nil_append]
  cases (run construct tag (limit + 1) rest).result <;> rfl

theorem append {a a' b b' : Text} (ha : Becomes construct tag limit After a a')
    (hb : Becomes construct tag limit After b b') (hafter : ∀ rest, After rest → After (b ++ rest)) :
    Becomes construct tag limit After (a ++ b) (a' ++ b') := fun rest hrest => by
  rw [List.append_assoc, ha _ (hafter rest hrest), hb rest hrest, Except.map_map]
  simp only [List.append_assoc]

theorem of_silent {text : Text} (h : Silent construct.keyword text) :
    Becomes construct tag limit After text text := fun rest _ => run_append_of_silent h limit rest

theorem result {text output : Text} (h : Becomes construct tag limit After text output)
    (hnil : After []) : (run construct tag (limit + 1) text).result = .ok output := by
  have := h [] hnil
  rw [List.append_nil] at this
  rw [this, run_eq_outcome, outcome_nil]
  simp [Except.map]

end Becomes

theorem run_of_no_at {text : Text} (h : '@' ∉ text) :
    (run construct tag (limit + 1) text).result = .ok text := by
  have hbecomes : Becomes construct tag limit (fun _ => True) text text :=
    .of_silent (.of_not_mem h)
  exact hbecomes.result trivial

/-- A text whose only at sign begins a block that cannot be read comes out as it went in. -/
theorem run_of_unread {text : Text} {fault : Fault} (h : '@' ∉ text)
    (hl : locate ('@' :: text) construct.keyword 0 = .error fault) :
    (run construct tag (limit + 1) ('@' :: text)).result = .ok ('@' :: text) := by
  rw [run_eq_outcome, outcome_eq (run_local construct tag limit), move, hl]
  rcases locate_error hl with ⟨position, rfl⟩ | ⟨position, header, rfl, -⟩
  · rfl
  · simp only [Text.slice_zero, List.drop_succ_cons, List.take_succ_cons]
    generalize position + construct.keyword.length = n
    have hrest : '@' ∉ text.drop n := fun hm => h (List.mem_of_mem_drop hm)
    have hkept := @run_of_no_at construct tag limit _ hrest
    rw [run_eq_outcome] at hkept
    simp only [hkept, Except.map, List.cons_append, List.take_append_drop]

/-! ## Blanks at the front -/

/-- What a step makes of the front of a text begins as the text does, or with a tag. -/
theorem head_move {text made : Text} {stop : Nat}
    (h : move construct (fun text block => construct.compileBlock tag (run construct tag limit) text block)
      text 0 = .advance made stop) :
    made.head? = text.head? ∨ made.head? = some '<' := by
  have htake : ∀ {n : Nat}, 0 < n → (text.slice 0 n).head? = text.head? := fun hn =>
    (List.head?_take).trans (if_neg (Nat.ne_of_gt hn))
  rw [move] at h
  cases hl : locate text construct.keyword 0 with
  | error fault =>
    rw [hl] at h
    rcases locate_error hl with ⟨position, rfl⟩ | ⟨position, header, rfl, -⟩ <;> cases h
    exact .inl (htake (Nat.succ_pos _))
  | ok found =>
    cases found with
    | none => rw [hl] at h; cases h
    | some block =>
      rw [hl] at h
      simp only at h
      obtain ⟨-, -, hb⟩ := locate_ok hl
      rcases construct.compileBlock_cases tag (run construct tag limit) hb with
        ⟨header, hresult⟩ | ⟨content, fault, hcontent, hresult⟩ | ⟨markup, stop, hresult, hhead, -⟩ <;>
        rw [hresult] at h
      · cases h
        exact .inl (htake (Nat.lt_of_le_of_lt (Nat.zero_le _) hb.start_lt_stop))
      · obtain rfl := run_error hcontent
        cases h
      · cases h
        rw [List.head?_append, hhead]
        rcases Nat.eq_zero_or_pos block.start with hzero | hpos
        · rw [hzero]
          exact .inr rfl
        · rw [htake hpos]
          cases text with
          | nil => exact .inr rfl
          | cons c cs => exact .inl rfl

/-- A pass puts no blanks in front of a text. -/
theorem head_run {text output : Text}
    (hhead : ∀ c ∈ text.head?, isBlank c = false)
    (h : (run construct tag (limit + 1) text).result = .ok output) :
    ∀ c ∈ output.head?, isBlank c = false := by
  have hlocal := run_local construct tag limit
  rw [run_eq_outcome, outcome_eq hlocal] at h
  rcases move_cases construct hlocal text 0 with
    hfirst | hfirst | ⟨made, stop, hfirst, hpos, hstop⟩ <;> rw [hfirst] at h
  · cases h
    exact hhead
  · cases h
  · obtain ⟨c, cs, rfl⟩ := List.exists_cons_of_length_pos (Nat.lt_of_lt_of_le hpos hstop)
    obtain ⟨rest, -, rfl⟩ := Except.map_eq_ok_iff.1 h
    rw [List.head?_append]
    rcases head_move hfirst with hmade | hmade <;> rw [hmade]
    · exact hhead
    · intro d hd
      cases hd
      decide

/-- Blanks at the front can be trimmed before a pass or after it. -/
theorem run_trimStart (construct : Construct) (tag : Text) (limit : Nat) (text : Text) :
    (run construct tag (limit + 1) text.trimStart).result =
      (run construct tag (limit + 1) text).result.map Text.trimStart := by
  obtain ⟨blanks, hb, htext⟩ := Text.exists_blank_append_trimStart text
  conv_rhs => rw [htext]
  rw [run_append_of_silent (Silent.of_not_mem (hb.not_mem (by decide)))]
  cases hr : (run construct tag (limit + 1) text.trimStart).result with
  | error fault => rfl
  | ok output =>
    have := Text.trimStart_of_head (head_run (Text.head_trimStart text) hr)
    simp only [Except.map, hb.trimStart_append, this]

/-- So what a text becomes without its first blanks is what it becomes with them, trimmed. -/
theorem Becomes.trimStart {text output : Text}
    (h : Becomes construct tag limit (fun _ => True) text output) :
    Becomes construct tag limit (fun _ => True) text.trimStart output.trimStart := by
  obtain ⟨blanks, hb, htext⟩ := Text.exists_blank_append_trimStart text
  have hsilent : Silent construct.keyword blanks := .of_not_mem (hb.not_mem (by decide))
  have hstart := h.result trivial
  rw [htext, run_append_of_silent hsilent] at hstart
  cases hrun : (run construct tag (limit + 1) text.trimStart).result with
  | error fault => rw [hrun] at hstart; cases hstart
  | ok made =>
    rw [hrun] at hstart
    obtain rfl : blanks ++ made = output := Except.ok.inj hstart
    have hmade : made.trimStart = made :=
      Text.trimStart_of_head (head_run (Text.head_trimStart text) hrun)
    rw [hb.trimStart_append, hmade]
    intro rest hrest
    have hboth := h rest hrest
    rw [htext, List.append_assoc, run_append_of_silent hsilent] at hboth
    -- The blanks stand in front of both sides.
    refine Except.map_injective (List.append_right_injective blanks) (hboth.trans ?_)
    simp only [Except.map_map, List.append_assoc]

end Pass

/-- The compiler is one pass behind the other, if neither meets its limit. -/
theorem Compiler.compile_of_passes {limits : NestingLimits} {tag text loops chains : Text}
    (hloops : (Pass.run .loops tag limits.loops text).result = .ok loops)
    (hchains : (Pass.run .chains tag limits.chains loops).result = .ok chains) :
    (compile limits tag text).result = .ok chains := by
  have hboth : (compileLoops limits tag text >>= compileChains limits tag).result = .ok chains := by
    rw [Traced.result_bind, show (compileLoops limits tag text).result = .ok loops from hloops]
    exact hchains
  rw [compile, Traced.result_bind, Traced.result_attempt, hboth]
  rfl

end FlowTemplate
