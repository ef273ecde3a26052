/-
A pass that notes its steps. It is written as the pass is, with a step for each search that finds a keyword,
noted by the offset of that keyword in the text given to the pass; a body is a text of its own, so what is
noted over a body is moved to where the body stands. Without its steps it is the pass (`traced_run`).
-/
import FlowTemplate.Pass

namespace FlowTemplate

/-- A computation with its steps, each noted by an offset. -/
structure Stepped (α : Type) where
  steps : List Nat
  traced : Traced α

namespace Stepped

variable {α β : Type}

instance : Monad Stepped where
  pure value := ⟨[], pure value⟩
  bind first next :=
    { steps := first.steps ++ (match first.traced.result with
        | .ok value => (next value).steps
        | .error _ => [])
      traced := first.traced >>= fun value => (next value).traced }

/-- A computation in which nothing is searched. -/
def ofTraced (computation : Traced α) : Stepped α := ⟨[], computation⟩

/-- Runs a computation to its end: its steps are kept, and a fault becomes a value. -/
def attempt (computation : Stepped α) : Stepped (Except Fault α) :=
  ⟨computation.steps, computation.traced.attempt⟩

@[simp] theorem traced_pure (value : α) : (pure value : Stepped α).traced = pure value := rfl

@[simp] theorem traced_ofTraced (computation : Traced α) : (ofTraced computation).traced = computation := rfl

@[simp] theorem traced_attempt (computation : Stepped α) :
    computation.attempt.traced = computation.traced.attempt := rfl

theorem steps_bind (first : Stepped α) (next : α → Stepped β) :
    (first >>= next).steps = first.steps ++ (match first.traced.result with
      | .ok value => (next value).steps
      | .error _ => []) := rfl

@[simp] theorem traced_bind (first : Stepped α) (next : α → Stepped β) :
    (first >>= next).traced = first.traced >>= fun value => (next value).traced := rfl

/-- The search for a block. It is one step if it returns a block or a fault, noted at the keyword that it
found, and no step if there is no keyword any more. -/
def search (text keyword : Text) (start : Nat) : Stepped (Except Fault (Option Block)) where
  steps := match locate text keyword start with
    | .ok none => []
    | _ => [start +
        (Text.offsetOf? (fun t => (afterKeyword? keyword t).isSome) (text.drop start)).getD 0]
  traced := pure (locate text keyword start)

/-- The compilation of the content of a body that ends at `stop`. The content ends in front of the closing
brace, and from its length follows where it begins, also if blanks were trimmed there. -/
def compileContent (inner : Text → Stepped Text) (stop : Nat) (content : Text) : Stepped Text where
  steps := (inner content).steps.map (stop - 1 - content.length + ·)
  traced := (inner content).traced

/-- The end of the branch that continues a chain at `stop`. -/
def nextStop (text : Text) (stop : Nat) : Nat :=
  match Chain.continuation text stop with
  | .ok (some (_, next)) => next
  | _ => stop

/-- The compilation of the branches of a chain the first of which ends at `stop`. -/
def compileBranches (inner : Text → Stepped Text) (text : Text) :
    Nat → List Branch → Stepped (List Branch)
  | _, [] => pure []
  | stop, branch :: more => do
    let content ← compileContent inner stop branch.content
    let compiled ← compileBranches inner text (nextStop text stop) more
    return { branch with content } :: compiled

/-- The compilation of the construct that a block begins. -/
def compileBlock (tag : Text) (inner : Text → Stepped Text) (text : Text) (block : Block) :
    Construct → Stepped (Text × Nat)
  | .loops => do
    let loop ← ofTraced (Loop.ofBlock text block)
    let content ← compileContent inner block.stop loop.content
    return (Container.ofLoop tag { loop with content }, block.stop)
  | .chains => do
    let (chain, stop) ← ofTraced (Chain.ofBlock text block)
    let compiled ← compileBranches inner text block.stop chain
    return (Container.ofChain tag compiled, stop)

/-- A pass over `text` from the offset `cursor` on, behind the `output` written so far. -/
def runFrom (construct : Construct) (compileBlock : Text → Block → Stepped (Text × Nat)) (text : Text) :
    Nat → Nat → Text → Stepped Text
  | 0, cursor, output => pure (output ++ text.drop cursor)
  | fuel + 1, cursor, output =>
    if text.length ≤ cursor then pure (output ++ text.drop cursor)
    else do
      match ← search text construct.keyword cursor with
      | .error (.unbalanced position) =>
        ofTraced (Traced.log (.passStopped construct.keyword (.unbalanced position)))
        return output ++ text.drop cursor
      | .error (.malformedHeader position header) =>
        ofTraced (Traced.log (.keywordSkipped construct.keyword (.malformedHeader position header)))
        let resume := position + construct.keyword.length + 1
        runFrom construct compileBlock text fuel resume (output ++ text.slice cursor resume)
      | .error fault => ofTraced (Traced.fail fault)
      | .ok none => pure (output ++ text.drop cursor)
      | .ok (some block) =>
        match ← (compileBlock text block).attempt with
        | .error (.malformedHeader position header) =>
          ofTraced (Traced.log (.blockLeft construct.keyword (.malformedHeader position header)))
          runFrom construct compileBlock text fuel block.stop (output ++ text.slice cursor block.stop)
        | .error fault => ofTraced (Traced.fail fault)
        | .ok (markup, stop) =>
          runFrom construct compileBlock text fuel stop (output ++ text.slice cursor block.start ++ markup)

/-- A pass over a text in which no more than `limit` texts are nested, the text itself counted. -/
def run (construct : Construct) (tag : Text) : Nat → Text → Stepped Text
  | 0, _ => ofTraced (Traced.fail .nestingTooDeep)
  | limit + 1, text =>
    runFrom construct (fun whole block => compileBlock tag (run construct tag limit) whole block construct)
      text text.length 0 []

/-! ## It is the pass -/

section

variable {inner : Text → Stepped Text} {tag text : Text}

theorem traced_compileBranches (stop : Nat) (branches : List Branch) :
    (compileBranches inner text stop branches).traced =
      branches.mapM fun branch => do
        let content ← (inner branch.content).traced
        return { branch with content } := by
  induction branches generalizing stop with
  | nil => rfl
  | cons branch more ih =>
    simp only [compileBranches, compileContent, traced_bind, traced_pure, ih, List.mapM_cons, bind_assoc,
      pure_bind]

theorem traced_compileBlock (construct : Construct) (block : Block) :
    (compileBlock tag inner text block construct).traced =
      construct.compileBlock tag (fun content => (inner content).traced) text block := by
  cases construct with
  | loops => rfl
  | chains =>
    simp only [compileBlock, Construct.compileBlock, traced_bind, traced_ofTraced, traced_pure,
      traced_compileBranches]

theorem traced_runFrom (construct : Construct) (compileBlock : Text → Block → Stepped (Text × Nat))
    (fuel cursor : Nat) (output : Text) :
    (runFrom construct compileBlock text fuel cursor output).traced =
      Pass.runFrom construct (fun whole block => (compileBlock whole block).traced) text fuel cursor
        output := by
  induction fuel generalizing cursor output with
  | zero => rfl
  | succ fuel ih =>
    rw [runFrom, Pass.runFrom]
    split
    · rfl
    · simp only [traced_bind, search, pure_bind]
      rcases locate text construct.keyword cursor with (_ | _ | _ | _ | _ | _) | (_ | block)
      case ok.some =>
        simp only [traced_bind, traced_attempt]
        congr 1
        funext result
        rcases result with (_ | _ | _ | _ | _ | _) | _ <;> simp only [traced_bind, traced_ofTraced, ih]
      all_goals simp only [traced_bind, traced_ofTraced, traced_pure, ih]

theorem traced_run (construct : Construct) (tag : Text) (limit : Nat) (text : Text) :
    (run construct tag limit text).traced = Pass.run construct tag limit text := by
  induction limit generalizing text with
  | zero => rfl
  | succ limit ih =>
    simp only [run, Pass.run, traced_runFrom, traced_compileBlock, ih]

end

end Stepped

end FlowTemplate
