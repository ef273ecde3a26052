/-
When the guards of a chain hold. A guard pastes the condition of its branch behind the denials of the
conditions before, without parentheses. So the denials reach its first disjunct only: a branch whose
condition is a disjunction is also shown when a later disjunct holds, whatever held before
(`Overruns`). Apart from that the guards of a chain hold one at a time.
-/
import FlowTemplate.Proofs.Container
import FlowTemplate.Proofs.Guard.Formula
import FlowTemplate.Proofs.Reading
import Mathlib.Data.List.Forall2
import Mathlib.Data.Nat.Find

namespace FlowTemplate

open Formula

/-! ## What a guard reads as -/

namespace Token

theorem lex_deny (condition : Text) :
    lex (Guard.deny condition) = .not :: .opening :: (lex condition ++ [.closing]) := by
  change lexFrom [] ('!' :: '(' :: (condition ++ [')'])) = _
  rw [lexFrom, lexFrom, lexFrom_append (ends_closing [])]
  · rfl
  all_goals simp

theorem lex_joinWith (first : Text) (rest : List Text) :
    lex (Text.joinWith " && ".toList (first :: rest)) =
      lex first ++ rest.flatMap fun part => .and :: lex part := by
  induction rest generalizing first with
  | nil => simp [Text.joinWith]
  | cons second rest ih =>
    have hjoin : Text.joinWith " && ".toList (first :: second :: rest) =
        first ++ (" && ".toList ++ Text.joinWith " && ".toList (second :: rest)) := by
      rw [Text.joinWith_cons, Text.joinWith_cons, List.flatMap_cons, List.append_assoc]
    rw [hjoin, lex, lexFrom_append (ends_and _), ih]
    simp [lex]

end Token

namespace Formula

/-- The denials of conditions, all of them together. -/
def denials (first : Formula) : List Formula → Formula
  | [] => .not first
  | second :: rest => .and (.not first) (denials second rest)

theorem eval_denials (first : Formula) (rest : List Formula) (v : Text → Bool) :
    (denials first rest).eval v = (first :: rest).all fun formula => !formula.eval v := by
  induction rest generalizing first with
  | nil => simp [denials, eval]
  | cons second rest ih => rw [denials, eval, ih, eval, List.all_cons, List.all_cons, List.all_cons]

/-- What stands in front of a disjunction joins its first disjunct. -/
def join (front : Formula) : Formula → Formula
  | .or left right => .or (front.join left) right
  | formula => .and front formula

theorem disjuncts_ne_nil (formula : Formula) : formula.disjuncts ≠ [] := by
  induction formula with
  | atom | not | and => exact List.cons_ne_nil _ _
  | or left right ihl ihr =>
    intro h
    exact ihl (List.append_eq_nil_iff.1 h).1

theorem any_disjuncts (formula : Formula) (v : Text → Bool) :
    (formula.disjuncts.any fun disjunct => disjunct.eval v) = formula.eval v := by
  induction formula with
  | atom | not | and => simp [disjuncts]
  | or left right ihl ihr => rw [disjuncts, List.any_append, ihl, ihr, eval]

theorem eval_join (front formula : Formula) (v : Text → Bool) :
    (front.join formula).eval v =
      (front.eval v && formula.eval v || formula.disjuncts.tail.any fun disjunct => disjunct.eval v) := by
  induction formula with
  | atom | not | and => simp [join, disjuncts, eval]
  | or left right ihl ihr =>
    rw [join, eval, ihl, disjuncts, List.tail_append_of_ne_nil left.disjuncts_ne_nil,
      List.any_append, any_disjuncts, eval]
    cases front.eval v <;> cases left.eval v <;> cases right.eval v <;> simp

theorem reads_join {front : List Token} {first : Formula} (hfront : Reads .conjunction front first)
    (formula : Formula) : Reads .disjunction (front ++ .and :: formula.tokens) (first.join formula) := by
  induction formula with
  | atom name => exact (hfront.and ((reads_tokens _).2.1 (by simp [rank]))).conjunction
  | not formula => exact (hfront.and ((reads_tokens _).2.1 (by simp [rank]))).conjunction
  | and left right => exact (hfront.and ((reads_tokens _).2.1 (by simp [rank]))).conjunction
  | or left right ihl _ =>
    have := ihl.or (reads_tokens right).1
    rwa [List.append_assoc] at this

/-- The denials of conditions read as they should, whatever the conditions are. -/
theorem reads_denials {conditions : List Text} {formulas : List Formula} {condition : Text}
    {formula : Formula} (h : Spells condition formula)
    (hs : List.Forall₂ Spells conditions formulas) :
    Reads .conjunction (Token.lex (Guard.conjunction (condition :: conditions) none))
      (denials formula formulas) := by
  have hdeny : ∀ {condition formula}, Spells condition formula →
      Reads .conjunction (Token.lex (Guard.deny condition)) (.not formula) := by
    intro condition formula hspells
    rw [Token.lex_deny, hspells]
    exact (Reads.group (reads_tokens formula).1).not.denial
  induction hs generalizing condition formula with
  | nil => simpa [Guard.conjunction, Text.joinWith, denials] using hdeny h
  | @cons next nextFormula conditions formulas hnext _ ih =>
    have hrest := (hdeny h).and (ih hnext)
    simp only [Guard.conjunction, List.map_cons, Option.toList_none, List.append_nil,
      Token.lex_joinWith, List.flatMap_cons] at hrest ⊢
    exact hrest

/-- A guard without a condition of its own says that all conditions before fail. -/
theorem means_denials {conditions : List Text} {formulas : List Formula}
    (hs : List.Forall₂ Spells conditions formulas) (hne : conditions ≠ []) :
    ∃ meaning, Means (Guard.conjunction conditions none) meaning ∧
      ∀ v, meaning.eval v = formulas.all fun formula => !formula.eval v := by
  cases hs with
  | nil => exact absurd rfl hne
  | cons h hs => exact ⟨_, (reads_denials h hs).conjunction, eval_denials _ _⟩

/-- A guard with a condition of its own also holds where a disjunct of this but the first does. -/
theorem means_conjunction {conditions : List Text} {formulas : List Formula} {own : Text}
    {formula : Formula} (hs : List.Forall₂ Spells conditions formulas) (h : Spells own formula) :
    ∃ meaning, Means (Guard.conjunction conditions (some own)) meaning ∧
      ∀ v, meaning.eval v = ((formulas.all fun formula => !formula.eval v) && formula.eval v ||
        decide (0 < formulas.length) && formula.disjuncts.tail.any fun disjunct => disjunct.eval v) := by
  cases hs with
  | nil =>
    refine ⟨formula, ?_, fun v => by simp⟩
    rw [Guard.conjunction_nil, Option.getD_some, Means, h]
    exact (reads_tokens formula).1
  | @cons first firstFormula rest formulas hfirst hrest =>
    refine ⟨(denials firstFormula formulas).join formula, ?_, fun v => ?_⟩
    · have hlex : Token.lex (Guard.conjunction (first :: rest) (some own)) =
          Token.lex (Guard.conjunction (first :: rest) none) ++ .and :: Token.lex own := by
        simp only [Guard.conjunction, List.map_cons, List.cons_append, Token.lex_joinWith,
          Option.toList_some, Option.toList_none, List.append_nil, List.flatMap_append,
          List.flatMap_cons, List.flatMap_nil, List.append_assoc]
      rw [Means, hlex, h]
      exact reads_join (reads_denials hfirst hrest) formula
    · rw [eval_join, eval_denials]
      simp

end Formula

/-! ## Which branches are shown -/

namespace Chain

/-- The chains that are written with `@if`: the first branch has a condition, and an `@else` is the
last one. -/
structure Proper (chain : List Branch) : Prop where
  first : ∃ branch condition, chain[0]? = some branch ∧ branch.condition? = some condition
  last : ∀ i branch, chain[i]? = some branch → branch.condition? = none → i + 1 = chain.length

/-- The formulas that the conditions of a chain spell, by the place of the branch. -/
def Spelled (chain : List Branch) (formulas : Nat → Formula) : Prop :=
  ∀ i branch condition, chain[i]? = some branch → branch.condition? = some condition →
    Spells condition (formulas i)

/-- A branch is shown if its guard reads as a formula that holds. -/
def Shown (chain : List Branch) (v : Text → Bool) (i : Nat) : Prop :=
  ∃ guard meaning, (Guard.ofChain chain)[i]? = some guard ∧ Means guard meaning ∧
    meaning.eval v = true

/-- A disjunct of a condition but the first one holds although an earlier condition does. -/
def Overruns (chain : List Branch) (formulas : Nat → Formula) (v : Text → Bool) (i : Nat) : Prop :=
  (∃ branch condition, chain[i]? = some branch ∧ branch.condition? = some condition) ∧
    (∃ j < i, (formulas j).eval v = true) ∧
    ∃ disjunct ∈ (formulas i).disjuncts.tail, disjunct.eval v = true

variable {chain : List Branch} {formulas : Nat → Formula}

theorem Proper.condition (h : Proper chain) {i j : Nat} (hj : j < i) (hi : i < chain.length) :
    ∃ branch condition, chain[j]? = some branch ∧ branch.condition? = some condition := by
  have hbranch : chain[j]? = some chain[j] := List.getElem?_eq_getElem (by omega)
  cases hc : chain[j].condition? with
  | none =>
    have := h.last j _ hbranch hc
    omega
  | some condition => exact ⟨_, condition, hbranch, hc⟩

/-- In a chain that is read an `@else` is the last branch. -/
theorem continueFrom_last {text : Text} {fuel : Nat} {last : Branch} {stop finish : Nat}
    {branches : List Branch}
    (h : (continueFrom text fuel last stop).result = .ok (branches, finish)) :
    ∀ i branch, (last :: branches)[i]? = some branch → branch.condition? = none →
      i = branches.length := by
  have hone : ∀ (only : Branch) i branch, [only][i]? = some branch → i = 0 := by
    intro only i branch hbranch
    have := (List.getElem?_eq_some_iff.1 hbranch).1
    simpa using this
  induction fuel generalizing last stop branches finish with
  | zero =>
    cases h
    exact fun i branch hbranch _ => hone last i branch hbranch
  | succ fuel ih =>
    rcases continueFrom_cases h with ⟨rfl, -⟩ | ⟨found, next, rest, helse, -, rfl, hrest⟩
    · exact fun i branch hbranch _ => hone last i branch hbranch
    · intro i branch hbranch hcondition
      cases i with
      | zero =>
        obtain rfl : last = branch := Option.some.inj hbranch
        simp [Branch.isElse, hcondition] at helse
      | succ i => exact congrArg (· + 1) (ih hrest i branch hbranch hcondition)

/-- Every chain that is read is proper. -/
theorem ofBlock_proper {text : Text} {block : Block} {branches : List Branch} {stop : Nat}
    (h : (ofBlock text block).result = .ok (branches, stop)) : Proper branches := by
  obtain ⟨rest, rfl, hrest⟩ := ofBlock_cases h
  exact ⟨⟨_, _, rfl, rfl⟩, fun i branch hbranch hcondition =>
    congrArg (· + 1) (continueFrom_last hrest i branch hbranch hcondition)⟩

/-- The conditions before a branch, with their formulas. -/
theorem Proper.spells_before (h : Proper chain) (hs : Spelled chain formulas) {i : Nat}
    (hi : i < chain.length) :
    List.Forall₂ Spells ((chain.take i).filterMap Branch.condition?)
      ((List.range i).map formulas) := by
  induction i with
  | zero => exact .nil
  | succ i ih =>
    obtain ⟨branch, condition, hbranch, hcondition⟩ := h.condition (Nat.lt_succ_self i) hi
    have hlast : List.Forall₂ Spells [condition] [formulas i] :=
      .cons (hs i branch condition hbranch hcondition) .nil
    rw [List.take_add_one, hbranch, Option.toList_some, List.filterMap_append, List.range_succ,
      List.map_append]
    have hone : [branch].filterMap Branch.condition? = [condition] := by simp [hcondition]
    rw [hone]
    exact List.rel_append (ih (by omega)) hlast

/-- What holds of the meaning of a guard decides whether its branch is shown. -/
theorem shown_iff {v : Text → Bool} {i : Nat} {guard : Text} {meaning : Formula}
    (hguard : (Guard.ofChain chain)[i]? = some guard) (hmeans : Means guard meaning) :
    Shown chain v i ↔ meaning.eval v = true := by
  constructor
  · rintro ⟨found, other, hfound, hother, htrue⟩
    rw [hguard, Option.some.injEq] at hfound
    subst hfound
    rw [← htrue]
    exact hmeans.eval_unique hother v
  · exact fun htrue => ⟨guard, meaning, hguard, hmeans, htrue⟩

/-- Every guard reads as a formula. -/
theorem Proper.guard_means (h : Proper chain) (hs : Spelled chain formulas) {i : Nat} {branch : Branch}
    (hbranch : chain[i]? = some branch) :
    ∃ guard meaning, (Guard.ofChain chain)[i]? = some guard ∧ Means guard meaning ∧ ∀ v,
      meaning.eval v = match branch.condition? with
        | none => ((List.range i).map formulas).all fun formula => !formula.eval v
        | some _ => ((((List.range i).map formulas).all fun formula => !formula.eval v) &&
            (formulas i).eval v || decide (0 < i) &&
            (formulas i).disjuncts.tail.any fun disjunct => disjunct.eval v) := by
  obtain ⟨hi, -⟩ := List.getElem?_eq_some_iff.1 hbranch
  have hbefore := h.spells_before hs hi
  have hguard := Guard.ofChain_getElem? chain i
  rw [hbranch, Option.map_some] at hguard
  cases hc : branch.condition? with
  | none =>
    have hne : (chain.take i).filterMap Branch.condition? ≠ [] := by
      obtain ⟨first, condition, hfirst, hcondition⟩ := h.first
      rcases Nat.eq_zero_or_pos i with rfl | hpos
      · rw [hbranch, Option.some.injEq] at hfirst
        rw [hfirst, hcondition] at hc
        cases hc
      · intro hnil
        rw [hnil] at hbefore
        have := hbefore.length_eq
        simp at this
        omega
    obtain ⟨meaning, hmeans, heval⟩ := means_denials hbefore hne
    rw [hc] at hguard
    exact ⟨_, meaning, hguard, hmeans, heval⟩
  | some condition =>
    obtain ⟨meaning, hmeans, heval⟩ := means_conjunction hbefore (hs i branch condition hbranch hc)
    rw [hc] at hguard
    refine ⟨_, meaning, hguard, hmeans, fun v => ?_⟩
    rw [heval, List.length_map, List.length_range]

/-- A branch with a condition is shown where it should be, and where it overruns. -/
theorem Proper.shown_condition_iff (h : Proper chain) (hs : Spelled chain formulas)
    (v : Text → Bool) {i : Nat} {branch : Branch} {condition : Text}
    (hbranch : chain[i]? = some branch) (hcondition : branch.condition? = some condition) :
    Shown chain v i ↔
      ((formulas i).eval v = true ∧ ∀ j < i, (formulas j).eval v = false) ∨
        Overruns chain formulas v i := by
  obtain ⟨guard, meaning, hguard, hmeans, heval⟩ := h.guard_means hs hbranch
  rw [shown_iff hguard hmeans, heval, hcondition]
  simp only [Bool.or_eq_true, Bool.and_eq_true, List.all_eq_true, List.mem_map, List.mem_range,
    forall_exists_index, and_imp, forall_apply_eq_imp_iff₂, Bool.not_eq_true', decide_eq_true_eq,
    List.any_eq_true]
  constructor
  · rintro (⟨hbefore, hown⟩ | ⟨hpos, disjunct, hmem, hdisjunct⟩)
    · exact .inl ⟨hown, hbefore⟩
    · by_cases hearlier : ∃ j < i, (formulas j).eval v = true
      · exact .inr ⟨⟨branch, condition, hbranch, hcondition⟩, hearlier, disjunct, hmem, hdisjunct⟩
      · refine .inl ⟨?_, fun j hj => ?_⟩
        · rw [← any_disjuncts, List.any_eq_true]
          exact ⟨disjunct, List.mem_of_mem_tail hmem, hdisjunct⟩
        · rw [Bool.eq_false_iff]
          exact fun htrue => hearlier ⟨j, hj, htrue⟩
  · rintro (⟨hown, hbefore⟩ | ⟨-, ⟨j, hj, -⟩, disjunct, hmem, hdisjunct⟩)
    · exact .inl ⟨hbefore, hown⟩
    · exact .inr ⟨by omega, disjunct, hmem, hdisjunct⟩

/-- An `@else` is shown where all conditions fail. -/
theorem Proper.shown_else_iff (h : Proper chain) (hs : Spelled chain formulas)
    (v : Text → Bool) {i : Nat} {branch : Branch} (hbranch : chain[i]? = some branch)
    (helse : branch.condition? = none) :
    Shown chain v i ↔ ∀ j < i, (formulas j).eval v = false := by
  obtain ⟨guard, meaning, hguard, hmeans, heval⟩ := h.guard_means hs hbranch
  rw [shown_iff hguard hmeans, heval, helse]
  simp

theorem Proper.shown_first (h : Proper chain) (hs : Spelled chain formulas) (v : Text → Bool)
    {i : Nat} (hi : i < chain.length) (hearlier : ∃ j < i, (formulas j).eval v = true) :
    ∃ j < i, (formulas j).eval v = true ∧ Shown chain v j := by
  classical
  let j := Nat.find hearlier
  obtain ⟨hj, htrue⟩ := Nat.find_spec hearlier
  obtain ⟨branch, condition, hbranch, hcondition⟩ := h.condition hj hi
  refine ⟨j, hj, htrue, (h.shown_condition_iff hs v hbranch hcondition).2 (.inl ⟨htrue, ?_⟩)⟩
  intro k hk
  rw [Bool.eq_false_iff]
  exact fun hktrue => Nat.find_min hearlier hk ⟨by omega, hktrue⟩

/-- Two branches that are shown at once are one, unless a branch overruns. -/
theorem Proper.shown_unique (h : Proper chain) (hs : Spelled chain formulas) {v : Text → Bool}
    (hv : ∀ i, ¬ Overruns chain formulas v i) {i j : Nat} (hi : Shown chain v i)
    (hj : Shown chain v j) : i = j := by
  -- What is shown first fails for everything behind it.
  have key : ∀ {i j : Nat}, i < j → Shown chain v i → Shown chain v j → False := by
    intro i j hlt hi hj
    have hlen : j < chain.length := by
      obtain ⟨guard, -, hguard, -⟩ := hj
      rw [Guard.ofChain_getElem?] at hguard
      obtain ⟨branch, hbranch, -⟩ := Option.map_eq_some_iff.1 hguard
      exact (List.getElem?_eq_some_iff.1 hbranch).1
    obtain ⟨branch, condition, hbranch, hcondition⟩ := h.condition hlt hlen
    have hown : (formulas i).eval v = true :=
      (((h.shown_condition_iff hs v hbranch hcondition).1 hi).resolve_right (hv i)).1
    have hbranch' : chain[j]? = some chain[j] := List.getElem?_eq_getElem hlen
    have hfails : (formulas i).eval v = false := by
      cases hc : chain[j].condition? with
      | none => exact (h.shown_else_iff hs v hbranch' hc).1 hj i hlt
      | some condition =>
        exact (((h.shown_condition_iff hs v hbranch' hc).1 hj).resolve_right (hv j)).2 i hlt
    rw [hown] at hfails
    cases hfails
  rcases Nat.lt_trichotomy i j with hlt | rfl | hgt
  · exact (key hlt hi hj).elim
  · rfl
  · exact (key hgt hj hi).elim

theorem Proper.not_shown_unique (h : Proper chain) (hs : Spelled chain formulas) {v : Text → Bool}
    {i : Nat} (hi : Overruns chain formulas v i) :
    ∃ j < i, Shown chain v j ∧ Shown chain v i := by
  obtain ⟨branch, condition, hbranch, hcondition⟩ := hi.1
  obtain ⟨j, hj, -, hshown⟩ := h.shown_first hs v (List.getElem?_eq_some_iff.1 hbranch).1 hi.2.1
  exact ⟨j, hj, hshown, (h.shown_condition_iff hs v hbranch hcondition).2 (.inr hi)⟩

/-- **When the guards of a chain say what they should.** Every guard reads as a formula, in one way up
to its value. The guard of an `@else` always holds where all conditions fail, and the guard of a
condition holds where this is the first one that does, unless the branch overruns. So at most one
branch is shown, and exactly one of a chain that ends in `@else`, where no branch overruns, and
nowhere else. -/
theorem Proper.guards_exact (h : Proper chain) (hs : Spelled chain formulas) (v : Text → Bool) :
    (∀ i branch, chain[i]? = some branch →
      (∃ guard meaning, (Guard.ofChain chain)[i]? = some guard ∧ Means guard meaning ∧
        ∀ other, Means guard other → other.eval v = meaning.eval v) ∧
      (branch.condition? = none → (Shown chain v i ↔ ∀ j < i, (formulas j).eval v = false)) ∧
      (branch.condition? ≠ none →
        ((Shown chain v i ↔ (formulas i).eval v = true ∧ ∀ j < i, (formulas j).eval v = false) ↔
          ¬ Overruns chain formulas v i))) ∧
    ((∀ i j, Shown chain v i → Shown chain v j → i = j) ↔ ∀ i, ¬ Overruns chain formulas v i) ∧
    ((∃ branch, chain.getLast? = some branch ∧ branch.condition? = none) →
      ((∃! i, Shown chain v i) ↔ ∀ i, ¬ Overruns chain formulas v i)) := by
  have hunique : (∀ i j, Shown chain v i → Shown chain v j → i = j) →
      ∀ i, ¬ Overruns chain formulas v i := by
    intro hunique i hi
    obtain ⟨j, hj, hshown, hboth⟩ := h.not_shown_unique hs hi
    exact absurd (hunique j i hshown hboth) (by omega)
  refine ⟨fun i branch hbranch => ⟨?_, fun hc => h.shown_else_iff hs v hbranch hc, fun hc => ?_⟩,
    ⟨hunique, fun hv i j => h.shown_unique hs hv⟩, fun hlast => ⟨fun hone => ?_, fun hv => ?_⟩⟩
  · obtain ⟨guard, meaning, hguard, hmeans, -⟩ := h.guard_means hs hbranch
    exact ⟨guard, meaning, hguard, hmeans, fun other hother => hother.eval_unique hmeans v⟩
  · obtain ⟨condition, hcondition⟩ := Option.ne_none_iff_exists'.1 hc
    rw [h.shown_condition_iff hs v hbranch hcondition]
    constructor
    · intro hiff hi
      obtain ⟨j, hj, htrue⟩ := hi.2.1
      have := (hiff.1 (.inr hi)).2 j hj
      rw [htrue] at this
      cases this
    · exact fun hi => ⟨fun hshown => hshown.resolve_right hi, .inl⟩
  · exact hunique fun i j hi hj => hone.unique hi hj
  · -- Where no condition holds the last branch is shown.
    obtain ⟨branch, hbranch, helse⟩ := hlast
    rw [List.getLast?_eq_getElem?] at hbranch
    have hlen := (List.getElem?_eq_some_iff.1 hbranch).1
    have hshown : ∃ i, Shown chain v i := by
      by_cases hearlier : ∃ j < chain.length - 1, (formulas j).eval v = true
      · obtain ⟨j, -, -, hj⟩ := h.shown_first hs v hlen hearlier
        exact ⟨j, hj⟩
      · refine ⟨_, (h.shown_else_iff hs v hbranch helse).2 fun j hj => ?_⟩
        rw [Bool.eq_false_iff]
        exact fun htrue => hearlier ⟨j, hj, htrue⟩
    obtain ⟨i, hi⟩ := hshown
    exact ⟨i, hi, fun j hj => h.shown_unique hs hv hj hi⟩

/-- A chain in which the second condition is a disjunction. -/
def overrun : List Branch :=
  [⟨some ['a'], ['A'], none⟩, ⟨some "b || c".toList, ['B'], none⟩, ⟨none, ['C'], none⟩]

/-- Its conditions as formulas. -/
def overrunFormulas : Nat → Formula
  | 0 => .atom ['a']
  | _ => .or (.atom ['b']) (.atom ['c'])

theorem overrun_proper : Proper overrun where
  first := ⟨_, _, rfl, rfl⟩
  last
  | 0, _, rfl, h => nomatch h
  | 1, _, rfl, h => nomatch h
  | 2, _, rfl, _ => rfl

theorem overrun_spelled : Spelled overrun overrunFormulas
  | 0, _, _, rfl, rfl => by unfold Spells; decide +kernel
  | 1, _, _, rfl, rfl => by unfold Spells; decide +kernel
  | 2, _, _, rfl, h => nomatch h

theorem overrun_overruns : Overruns overrun overrunFormulas (fun _ => true) 1 :=
  ⟨⟨_, _, rfl, rfl⟩, ⟨0, by decide, rfl⟩, .atom ['c'], by decide, rfl⟩

/-- With `b` alone one branch of the chain is shown, but with all three atoms there are more. -/
theorem guards_exact_overrun :
    Proper overrun ∧ Spelled overrun overrunFormulas ∧
      (∃! i, Shown overrun (fun name => name = ['b']) i) ∧
      ¬ ∃! i, Shown overrun (fun _ => true) i := by
  refine ⟨overrun_proper, overrun_spelled, ?_, fun hone => ?_⟩
  · refine ((overrun_proper.guards_exact overrun_spelled _).2.2 ⟨_, rfl, rfl⟩).2 ?_
    rintro i ⟨-, -, disjunct, hmem, htrue⟩
    cases i with
    | zero => cases hmem
    | succ i =>
      obtain rfl : disjunct = .atom ['c'] := List.mem_singleton.1 hmem
      exact absurd htrue (by decide)
  · exact ((overrun_proper.guards_exact overrun_spelled _).2.2 ⟨_, rfl, rfl⟩).1 hone 1
      overrun_overruns

/-- So the guard of a branch does not always say that its condition is the first one that holds. -/
theorem not_guards_exact_of_disjunction :
    ¬ ∀ (chain : List Branch) (formulas : Nat → Formula) (v : Text → Bool), Proper chain →
      Spelled chain formulas → ∀ i branch, chain[i]? = some branch → branch.condition? ≠ none →
      (Shown chain v i ↔ (formulas i).eval v = true ∧ ∀ j < i, (formulas j).eval v = false) := by
  intro h
  have hshown : Shown overrun (fun _ => true) 1 :=
    (overrun_proper.shown_condition_iff overrun_spelled _ rfl rfl).2 (.inr overrun_overruns)
  have := ((h overrun overrunFormulas (fun _ => true) overrun_proper overrun_spelled 1 _ rfl
    nofun).1 hshown).2 0 (by decide)
  cases this

end Chain

end FlowTemplate
