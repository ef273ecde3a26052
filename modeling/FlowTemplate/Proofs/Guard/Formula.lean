/-
Conditions as boolean formulas. A text is cut into operators, parentheses and the names between them,
and `Reads` is the usual grammar: a denial binds tighter than a conjunction, and a conjunction tighter
than a disjunction. The grammar does not say how a run of one operator is grouped, but all readings of
a text have one value (`Reads.eval_unique`), which a single run over the tokens computes.
-/
import FlowTemplate.Proofs.Text

namespace FlowTemplate

/-! ## Tokens -/

/-- What a condition is written with. -/
inductive Token where
  | name (text : Text)
  | not
  | and
  | or
  | opening
  | closing
  deriving DecidableEq, Repr

namespace Token

/-- The name in a run of characters that are no operators, unless the run is blank. -/
def ofRun (run : Text) : List Token := if run.trim = [] then [] else [.name run.trim]

/-- The tokens of a text behind a run of characters that are no operators. The sign `!=`, a single `&`
and a single `|` are no operators but parts of names. -/
def lexFrom (run : Text) : Text → List Token
  | [] => ofRun run
  | '&' :: '&' :: cs => ofRun run ++ .and :: lexFrom [] cs
  | '|' :: '|' :: cs => ofRun run ++ .or :: lexFrom [] cs
  | '!' :: '=' :: cs => lexFrom (run ++ ['!', '=']) cs
  | '!' :: cs => ofRun run ++ .not :: lexFrom [] cs
  | '(' :: cs => ofRun run ++ .opening :: lexFrom [] cs
  | ')' :: cs => ofRun run ++ .closing :: lexFrom [] cs
  | c :: cs => lexFrom (run ++ [c]) cs

/-- The tokens of a text. -/
def lex (text : Text) : List Token := lexFrom [] text

/-- A text that ends every run behind which it stands: `rest` are its tokens but for that run. -/
structure Ends (text : Text) (rest : List Token) : Prop where
  head : ∀ c ∈ text.head?, c ≠ '&' ∧ c ≠ '|' ∧ c ≠ '='
  tokens : ∀ run, lexFrom run text = ofRun run ++ rest

/-- What stands behind an operator of two characters does not complete its first one. -/
theorem Ends.cons_ne {back : Text} {rest : List Token} (h : Ends back rest) {text : Text} {d : Char}
    (hd : d = '&' ∨ d = '|' ∨ d = '=') (hne : ∀ cs, text ≠ d :: cs) :
    ∀ cs, text ++ back ≠ d :: cs := by
  intro cs hcs
  cases text with
  | nil =>
    obtain ⟨h₁, h₂, h₃⟩ := h.head d (by rw [← List.nil_append back, hcs]; rfl)
    rcases hd with rfl | rfl | rfl
    · exact h₁ rfl
    · exact h₂ rfl
    · exact h₃ rfl
  | cons c text => exact hne text (by rw [(List.cons.inj hcs).1])

theorem lexFrom_append {run text back : Text} {rest : List Token} (h : Ends back rest) :
    lexFrom run (text ++ back) = lexFrom run text ++ rest := by
  fun_induction lexFrom run text with
  | case1 run => exact h.tokens run
  | case2 run cs ih | case3 run cs ih | case4 run cs ih | case6 run cs ih | case7 run cs ih =>
    simp [lexFrom, ih]
  | case5 run cs hne ih =>
    have := h.cons_ne (.inr (.inr rfl)) hne
    rw [List.cons_append, lexFrom, ih]
    · simp
    · exact this
  | case8 run c cs hand hor hneq hnot hopen hclose ih =>
    rw [List.cons_append, lexFrom, ih]
    · exact fun more hc => h.cons_ne (.inl rfl) (fun cs => hand cs hc) more
    · exact fun more hc => h.cons_ne (.inr (.inl rfl)) (fun cs => hor cs hc) more
    · exact fun more hc => absurd hc hnot
    · exact hnot
    · exact hopen
    · exact hclose

theorem ofRun_append_blank {blanks : Text} (h : blanks.Blank) (run : Text) :
    ofRun (run ++ blanks) = ofRun run := by
  rw [ofRun, Text.trim_append_blank h, ofRun]

theorem ofRun_blank_append {blanks : Text} (h : blanks.Blank) (run : Text) :
    ofRun (blanks ++ run) = ofRun run := by
  rw [ofRun, Text.trim, h.trimStart_append, ofRun, Text.trim]

theorem lexFrom_blank_append {blanks : Text} (h : blanks.Blank) (run text : Text) :
    lexFrom (blanks ++ run) text = lexFrom run text := by
  fun_induction lexFrom run text with
  | case1 run => exact ofRun_blank_append h run
  | case2 run cs ih | case3 run cs ih | case6 run cs ih | case7 run cs ih =>
    simp only [lexFrom, ofRun_blank_append h]
  | case4 run cs ih => rw [lexFrom, List.append_assoc, ih]
  | case5 run cs hne ih =>
    rw [lexFrom, ofRun_blank_append h]
    exact hne
  | case8 run c cs hand hor hneq hnot hopen hclose ih =>
    rw [lexFrom, List.append_assoc, ih]
    all_goals assumption

theorem ends_closing (text : Text) : Ends (')' :: text) (.closing :: lex text) where
  head c hc := by
    cases hc
    decide
  tokens run := by rw [lexFrom, lex]

theorem ends_and (text : Text) : Ends (" && ".toList ++ text) (.and :: lex text) where
  head c hc := by
    cases hc
    decide
  tokens run := by
    have hblank : Text.Blank [' '] := by decide
    have hrun := lexFrom_blank_append hblank [] text
    change lexFrom run (' ' :: '&' :: '&' :: ' ' :: text) = _
    rw [lexFrom, lexFrom, ofRun_append_blank hblank, lexFrom]
    · exact congrArg (fun tokens => ofRun run ++ .and :: tokens) hrun
    all_goals simp

end Token

/-! ## Formulas -/

/-- A boolean formula over named atoms. -/
inductive Formula where
  | atom (name : Text)
  | not (formula : Formula)
  | and (left right : Formula)
  | or (left right : Formula)
  deriving DecidableEq, Repr

namespace Formula

/-- The truth of a formula where `v` says which atoms hold. -/
def eval (v : Text → Bool) : Formula → Bool
  | atom name => v name
  | not formula => !formula.eval v
  | and left right => left.eval v && right.eval v
  | or left right => left.eval v || right.eval v

/-- How tight the outermost operator of a formula binds. -/
def rank : Formula → Nat
  | or _ _ => 0
  | and _ _ => 1
  | not _ => 2
  | atom _ => 2

/-- The formula as an operand that needs at least the given rank, in parentheses if it has less. -/
def operand (tokens : List Token) (rank needed : Nat) : List Token :=
  if rank < needed then .opening :: (tokens ++ [.closing]) else tokens

/-- A formula as it is written, with no more parentheses than the ranks of its operators require. -/
def tokens : Formula → List Token
  | atom name => [.name name]
  | not formula => .not :: operand formula.tokens formula.rank 2
  | and left right => operand left.tokens left.rank 1 ++ .and :: operand right.tokens right.rank 1
  | or left right => left.tokens ++ .or :: right.tokens

/-- A text that spells a formula, with any blanks around its tokens. -/
def Spells (text : Text) (formula : Formula) : Prop := Token.lex text = formula.tokens

/-- The disjuncts of a formula. -/
def disjuncts : Formula → List Formula
  | or left right => left.disjuncts ++ right.disjuncts
  | formula => [formula]

/-! ## Reading -/

/-- What a phrase may be an operand of. -/
inductive Level where
  | denial
  | conjunction
  | disjunction

/-- The grammar of conditions: which formulas a list of tokens reads as. -/
inductive Reads : Level → List Token → Formula → Prop where
  | atom (name : Text) : Reads .denial [.name name] (.atom name)
  | group {tokens : List Token} {formula : Formula} (h : Reads .disjunction tokens formula) :
    Reads .denial (.opening :: (tokens ++ [.closing])) formula
  | not {tokens : List Token} {formula : Formula} (h : Reads .denial tokens formula) :
    Reads .denial (.not :: tokens) (.not formula)
  | denial {tokens : List Token} {formula : Formula} (h : Reads .denial tokens formula) :
    Reads .conjunction tokens formula
  | and {left right : List Token} {first second : Formula} (hl : Reads .conjunction left first)
    (hr : Reads .conjunction right second) :
    Reads .conjunction (left ++ .and :: right) (.and first second)
  | conjunction {tokens : List Token} {formula : Formula} (h : Reads .conjunction tokens formula) :
    Reads .disjunction tokens formula
  | or {left right : List Token} {first second : Formula} (hl : Reads .disjunction left first)
    (hr : Reads .disjunction right second) :
    Reads .disjunction (left ++ .or :: right) (.or first second)

/-- A text means a formula if it reads as it. -/
def Means (text : Text) (formula : Formula) : Prop := Reads .disjunction (Token.lex text) formula

theorem Reads.operand {level : Level} {tokens : List Token} {formula : Formula} {rank needed : Nat}
    (h : Reads .disjunction tokens formula) (hrank : needed ≤ rank → Reads level tokens formula)
    (hgroup : ∀ {group}, Reads .denial group formula → Reads level group formula) :
    Reads level (Formula.operand tokens rank needed) formula := by
  unfold Formula.operand
  split
  · exact hgroup h.group
  next hle => exact hrank (by omega)

/-- What is written with the fewest parentheses reads as the formula it was written for. -/
theorem reads_tokens (formula : Formula) :
    Reads .disjunction formula.tokens formula ∧
      (1 ≤ formula.rank → Reads .conjunction formula.tokens formula) ∧
      (2 ≤ formula.rank → Reads .denial formula.tokens formula) := by
  induction formula with
  | atom name =>
    have h := Reads.atom name
    exact ⟨h.denial.conjunction, fun _ => h.denial, fun _ => h⟩
  | not formula ih =>
    have h : Reads .denial (Formula.not formula).tokens (.not formula) :=
      .not (.operand ih.1 ih.2.2 id)
    exact ⟨h.denial.conjunction, fun _ => h.denial, fun _ => h⟩
  | and left right ihl ihr =>
    have h : Reads .conjunction (Formula.and left right).tokens (.and left right) :=
      .and (.operand ihl.1 ihl.2.1 .denial) (.operand ihr.1 ihr.2.1 .denial)
    exact ⟨h.conjunction, fun _ => h, fun hr => by simp [rank] at hr⟩
  | or left right ihl ihr =>
    exact ⟨ihl.1.or ihr.1, fun hr => by simp [rank] at hr, fun hr => by simp [rank] at hr⟩

/-! ## One value for all readings -/

/-- What is known of one level of parentheses: the disjunction of the conjunctions that are complete,
the conjunction that is being read, and whether the next operand is denied. -/
structure Tally where
  sum : Bool
  product : Bool
  denied : Bool

namespace Tally

/-- Nothing is read yet. -/
def start : Tally := ⟨false, true, false⟩

def value (tally : Tally) : Bool := tally.sum || tally.product

/-- Goes on with an operand. -/
def take (tally : Tally) (operand : Bool) : Tally :=
  ⟨tally.sum, tally.product && (operand ^^ tally.denied), false⟩

/-- Goes on with a token, where `outer` are the levels around the one that is being read. -/
def step (v : Text → Bool) : Tally × List Tally → Token → Tally × List Tally
  | (tally, outer), .name text => (tally.take (v text), outer)
  | (tally, outer), .not => ({ tally with denied := !tally.denied }, outer)
  | (tally, outer), .and => (tally, outer)
  | (tally, outer), .or => (⟨tally.value, true, false⟩, outer)
  | (tally, outer), .opening => (start, tally :: outer)
  | (tally, around :: outer), .closing => (around.take tally.value, outer)
  | (tally, []), .closing => (tally, [])

/-- Goes on with a list of tokens. -/
def run (v : Text → Bool) (tokens : List Token) (state : Tally × List Tally) : Tally × List Tally :=
  tokens.foldl (step v) state

@[simp] theorem run_nil (v : Text → Bool) (state : Tally × List Tally) : run v [] state = state := rfl

@[simp] theorem run_cons (v : Text → Bool) (token : Token) (tokens : List Token)
    (state : Tally × List Tally) : run v (token :: tokens) state = run v tokens (step v state token) :=
  rfl

@[simp] theorem run_append (v : Text → Bool) (front back : List Token) (state : Tally × List Tally) :
    run v (front ++ back) state = run v back (run v front state) := List.foldl_append

end Tally

/-- What a phrase of a level does to the tally: it gives an operand, or disjuncts more. -/
def Level.Tallies (v : Text → Bool) (tokens : List Token) (result : Bool) : Level → Prop
  | .denial => ∀ tally outer, Tally.run v tokens (tally, outer) = (tally.take result, outer)
  | .conjunction => ∀ tally outer, tally.denied = false →
    Tally.run v tokens (tally, outer) = (tally.take result, outer)
  | .disjunction => ∀ tally outer, tally.denied = false → tally.product = true →
    ∃ after, Tally.run v tokens (tally, outer) = (after, outer) ∧ after.denied = false ∧
      after.value = (tally.sum || result)

theorem Reads.tallies {level : Level} {tokens : List Token} {formula : Formula}
    (h : Reads level tokens formula) (v : Text → Bool) : level.Tallies v tokens (formula.eval v) := by
  induction h with
  | atom name => exact fun tally outer => rfl
  | @group tokens formula _ ih =>
    intro tally outer
    obtain ⟨after, hrun, -, hvalue⟩ := ih Tally.start (tally :: outer) rfl rfl
    simp only [Tally.run_cons, Tally.run_append, Tally.run_nil, Tally.step, hrun, hvalue]
    rfl
  | @not tokens formula _ ih =>
    intro tally outer
    rw [Tally.run_cons, Tally.step, ih]
    cases hd : tally.denied <;> simp [Tally.take, eval, hd]
  | denial _ ih => exact fun tally outer _ => ih tally outer
  | @and left right first second _ _ ihl ihr =>
    intro tally outer hdenied
    rw [Tally.run_append, ihl tally outer hdenied, Tally.run_cons, Tally.step, ihr _ outer rfl]
    simp [Tally.take, eval, hdenied, Bool.and_assoc]
  | conjunction _ ih =>
    intro tally outer hdenied hproduct
    refine ⟨_, ih tally outer hdenied, rfl, ?_⟩
    simp [Tally.take, Tally.value, hdenied, hproduct]
  | @or left right first second _ _ ihl ihr =>
    intro tally outer hdenied hproduct
    obtain ⟨between, hleft, -, hvalue⟩ := ihl tally outer hdenied hproduct
    obtain ⟨after, hright, hafter, hresult⟩ := ihr ⟨between.value, true, false⟩ outer rfl rfl
    refine ⟨after, ?_, hafter, ?_⟩
    · rw [Tally.run_append, hleft, Tally.run_cons, Tally.step, hright]
    · rw [hresult, hvalue, eval, Bool.or_assoc]

/-- **All readings have one value.** The grammar leaves open how a run of one operator is grouped, and
that changes nothing. -/
theorem Reads.eval_unique {tokens : List Token} {first second : Formula}
    (h₁ : Reads .disjunction tokens first) (h₂ : Reads .disjunction tokens second)
    (v : Text → Bool) : first.eval v = second.eval v := by
  obtain ⟨after, hrun, -, hfirst⟩ := h₁.tallies v Tally.start [] rfl rfl
  obtain ⟨other, hother, -, hsecond⟩ := h₂.tallies v Tally.start [] rfl rfl
  rw [hrun] at hother
  obtain rfl : after = other := congrArg Prod.fst hother
  simpa [Tally.start] using hfirst.symm.trans hsecond

end Formula

end FlowTemplate
