/-
Concatenations as scripts. A script is a chain of operands: text in single quotes with the escapes of
script literals, or an expression in parentheses, to which a text is assigned. Its value is a sequence
of UTF-16 code units, since an escape may stand for half a character. A value with interpolated
expressions stands for its own text, whatever is assigned to them, exactly if it is not empty and no
text around its expressions has a quote, a backslash or a line break (`evaluate_concatenation_iff`).
-/
import FlowTemplate.Proofs.Interpolation.Reading
import FlowTemplate.Proofs.Container
import FlowTemplate.Text.Numeral

namespace FlowTemplate.Interpolation

namespace Script

/-! ## Evaluation -/

/-- The code units of a code point. -/
def codeUnits (n : Nat) : List Nat :=
  if n < 0x10000 then [n]
  else [0xD800 + (n - 0x10000) / 0x400, 0xDC00 + (n - 0x10000) % 0x400]

/-- The code units of a text. -/
def units (text : Text) : List Nat := text.flatMap fun c => codeUnits c.toNat

/-- Whether a character may stand between operands: white space and line ends. -/
def isSpace (c : Char) : Bool :=
  let n := c.toNat
  (0x09 ≤ n && n ≤ 0x0D) || n == 0x20 || n == 0xA0 || n == 0x1680 || (0x2000 ≤ n && n ≤ 0x200A) ||
    n == 0x2028 || n == 0x2029 || n == 0x202F || n == 0x205F || n == 0x3000 || n == 0xFEFF

/-- Where in a script a reader stands. -/
inductive State where
  /-- Before an operand. -/
  | operand
  /-- Behind an operand. -/
  | behind
  /-- In parentheses, behind a part of the expression. -/
  | group (expression : Text)
  /-- In a literal. -/
  | literal
  /-- Behind a backslash. -/
  | escape
  /-- Behind an escaped carriage return, to which a line feed belongs. -/
  | lineEnd
  /-- Behind an escaped zero, which no digit may follow. -/
  | zero
  /-- Before `left + 1` hexadecimal digits. -/
  | digits (left value : Nat)
  /-- Behind the letter of a code point. -/
  | point
  /-- Behind the brace of a code point. -/
  | braced
  /-- In the digits of a code point in braces. -/
  | pointDigits (value : Nat)
  deriving DecidableEq, Repr

/-- What a letter behind a backslash stands for, any other character for itself. -/
def escapedChar (c : Char) : Char :=
  if c = 'n' then '\n'
  else if c = 't' then '\t'
  else if c = 'r' then '\r'
  else if c = 'b' then '\x08'
  else if c = 'v' then '\x0b'
  else if c = 'f' then '\x0c'
  else c

/-- One character in a literal. -/
def onLiteral (c : Char) : Option (List Nat × State) :=
  if c = '\'' then some ([], .behind)
  else if c = '\\' then some ([], .escape)
  else if c = '\n' ∨ c = '\r' then none
  else some (codeUnits c.toNat, .literal)

/-- The character behind a backslash. A line end stands for nothing, and of the digits only a zero is
an escape. -/
def onEscape (c : Char) : Option (List Nat × State) :=
  if c = 'x' then some ([], .digits 1 0)
  else if c = 'u' then some ([], .point)
  else if c = '0' then some ([0], .zero)
  else if c.isDigit then none
  else if c = '\r' then some ([], .lineEnd)
  else if c = '\n' ∨ c = '\u2028' ∨ c = '\u2029' then some ([], .literal)
  else some (codeUnits (escapedChar c).toNat, .literal)

/-- One hexadecimal digit of an escape with a fixed number of them. -/
def onDigit (left value : Nat) (c : Char) : Option (List Nat × State) :=
  if Text.Numeral.digitValue c < 16 then
    match left with
    | 0 => some ([16 * value + Text.Numeral.digitValue c], .literal)
    | left + 1 => some ([], .digits left (16 * value + Text.Numeral.digitValue c))
  else none

/-- One hexadecimal digit of a code point in braces, which has an upper bound. -/
def onPointDigit (value : Nat) (c : Char) : Option (List Nat × State) :=
  if Text.Numeral.digitValue c < 16 ∧ 16 * value + Text.Numeral.digitValue c ≤ 0x10FFFF then
    some ([], .pointDigits (16 * value + Text.Numeral.digitValue c))
  else none

/-- One character of a script: the units it completes, and where the reader stands behind it. -/
def step (assigned : Text → Text) : State → Char → Option (List Nat × State)
  | .operand, c =>
    if c = '\'' then some ([], .literal)
    else if c = '(' then some ([], .group [])
    else if isSpace c then some ([], .operand)
    else none
  | .behind, c =>
    if c = '+' then some ([], .operand)
    else if isSpace c then some ([], .behind)
    else none
  | .group expression, c =>
    if c = ')' then some (units (assigned expression), .behind)
    else some ([], .group (expression ++ [c]))
  | .literal, c => onLiteral c
  | .escape, c => onEscape c
  | .lineEnd, c => if c = '\n' then some ([], .literal) else onLiteral c
  | .zero, c => if c.isDigit then none else onLiteral c
  | .digits left value, c => onDigit left value c
  | .point, c => if c = '{' then some ([], .braced) else onDigit 3 0 c
  | .braced, c => onPointDigit 0 c
  | .pointDigits value, c => if c = '}' then some (codeUnits value, .literal) else onPointDigit value c

/-- The value of the rest of a script. It ends behind an operand. -/
def run (assigned : Text → Text) : State → Text → Option (List Nat)
  | .behind, [] => some []
  | _, [] => none
  | state, c :: cs =>
    match step assigned state c with
    | some (value, next) => (run assigned next cs).map (value ++ ·)
    | none => none

/-- The value of a script, if it has one. -/
def evaluate (assigned : Text → Text) (script : Text) : Option (List Nat) := run assigned .operand script

example : evaluate id "'\\x41\\u\x7b1F600\x7d' + (x)".toList = some [0x41, 0xD83D, 0xDE00, 0x78] := by decide

/-! ## Runs -/

variable {assigned : Text → Text}

theorem run_cons {state next : State} {c : Char} {cs : Text} {value : List Nat}
    (h : step assigned state c = some (value, next)) :
    run assigned state (c :: cs) = (run assigned next cs).map (value ++ ·) := by
  rw [run, h]

theorem run_skip {state next : State} {c : Char} {cs : Text}
    (h : step assigned state c = some ([], next)) :
    run assigned state (c :: cs) = run assigned next cs := by
  rw [run_cons h]
  exact Option.map_id'

/-- The first character of a script that has a value. -/
theorem step_of_run {state : State} {c : Char} {cs : Text} {value : List Nat}
    (h : run assigned state (c :: cs) = some value) :
    ∃ front next back, step assigned state c = some (front, next) ∧ run assigned next cs = some back ∧
      value = front ++ back := by
  cases hstep : step assigned state c with
  | none =>
    rw [run, hstep] at h
    cases h
  | some found =>
    obtain ⟨front, next⟩ := found
    rw [run_cons hstep, Option.map_eq_some_iff] at h
    obtain ⟨back, hback, rfl⟩ := h
    exact ⟨front, next, back, rfl, hback, rfl⟩

theorem run_group {expression : Text} (h : ')' ∉ expression) (front rest : Text) :
    run assigned (.group front) (expression ++ ')' :: rest) =
      (run assigned .behind rest).map (units (assigned (front ++ expression)) ++ ·) := by
  induction expression generalizing front with
  | nil =>
    rw [List.append_nil]
    exact run_cons rfl
  | cons c expression ih =>
    simp only [List.mem_cons, not_or] at h
    have hstep : step assigned (.group front) c = some ([], .group (front ++ [c])) := by
      rw [step, if_neg (Ne.symm h.1)]
    rw [List.cons_append, run_skip hstep, ih h.2, List.append_assoc]
    rfl

/-- The operands behind the first one. -/
def chain (segments : List (Segment Text)) : Text := (segments.map operand).flatMap (" + ".toList ++ ·)

theorem run_chain_cons (segment : Segment Text) (more : List (Segment Text)) :
    run assigned .behind (chain (segment :: more)) =
      run assigned .operand (operand segment ++ chain more) := by
  have hplus : " + ".toList = [' ', '+', ' '] := rfl
  rw [chain, List.map_cons, List.flatMap_cons, hplus, List.append_assoc]
  exact (run_skip rfl).trans ((run_skip rfl).trans (run_skip rfl))

theorem run_gap (gap rest : Text) :
    run assigned .operand (operand (.gap gap) ++ rest) = run assigned .literal (gap ++ '\'' :: rest) := by
  have htext : operand (.gap gap) ++ rest = '\'' :: (gap ++ '\'' :: rest) := by simp [operand]
  rw [htext]
  exact run_skip rfl

theorem run_hit {expression : Text} (h : ')' ∉ expression) (w rest : Text) :
    run assigned .operand (operand (.hit expression w) ++ rest) =
      (run assigned .behind rest).map (units (assigned expression) ++ ·) := by
  have htext : operand (.hit expression w) ++ rest = '(' :: (expression ++ ')' :: rest) := by simp [operand]
  rw [htext, run_skip rfl, run_group h, List.nil_append]

/-! ## Plain literals -/

/-- A text that stands for itself in a literal. -/
def Plain (text : Text) : Prop := ∀ c ∈ text, c ≠ '\'' ∧ c ≠ '\\' ∧ c ≠ '\n' ∧ c ≠ '\r'

theorem step_literal {c : Char} (h : c ≠ '\'' ∧ c ≠ '\\' ∧ c ≠ '\n' ∧ c ≠ '\r') :
    step assigned .literal c = some (codeUnits c.toNat, .literal) := by
  obtain ⟨hquote, hbackslash, hfeed, hreturn⟩ := h
  simp [step, onLiteral, hquote, hbackslash, hfeed, hreturn]

theorem run_plain {text : Text} (h : Plain text) (rest : Text) :
    run assigned .literal (text ++ '\'' :: rest) = (run assigned .behind rest).map (units text ++ ·) := by
  induction text with
  | nil => exact run_cons rfl
  | cons c cs ih =>
    obtain ⟨hc, hcs⟩ := List.forall_mem_cons.1 h
    rw [List.cons_append, run_cons (step_literal hc), ih hcs, Option.map_map]
    congr 1
    funext value
    simp [units]

/-- An expression that closes no parenthesis and escapes nothing, as names and members of names do. -/
def Simple (expression : Text) : Prop := ')' ∉ expression ∧ '\\' ∉ expression

/-- What stands in a value in the place of a segment. -/
def shows (assigned : Text → Text) : Segment Text → Text :=
  Segment.replacement fun expression _ => assigned expression

/-- What an operand has to be like to be evaluated to what it shows. -/
def Faithful : Segment Text → Prop
  | .gap gap => Plain gap
  | .hit expression _ => Simple expression

theorem run_operand {segment : Segment Text} (h : Faithful segment) (rest : Text) :
    run assigned .operand (operand segment ++ rest) =
      (run assigned .behind rest).map (units (shows assigned segment) ++ ·) := by
  cases segment with
  | gap gap => rw [run_gap, run_plain h]; rfl
  | hit expression w => exact run_hit h.1 w rest

theorem run_chain {segments : List (Segment Text)} (h : ∀ segment ∈ segments, Faithful segment) :
    run assigned .behind (chain segments) = some (units (segments.flatMap (shows assigned))) := by
  induction segments with
  | nil => rfl
  | cons segment more ih =>
    obtain ⟨hsegment, hmore⟩ := List.forall_mem_cons.1 h
    rw [run_chain_cons, run_operand hsegment, ih hmore]
    simp [units]

/-! ## Quotes -/

/-- How many of the units are quotes or backslashes. -/
def marks (value : List Nat) : Nat := value.countP fun n => n = 39 ∨ n = 92

/-- Whether a backslash has been read whose escape is not complete. -/
def pending : State → Nat
  | .escape | .digits _ _ | .point | .braced | .pointDigits _ => 1
  | _ => 0

theorem marks_codeUnits (n : Nat) : marks (codeUnits n) ≤ 1 := by
  unfold codeUnits
  split
  · exact (List.countP_le_length).trans (le_refl _)
  · have hhigh : ∀ m, ¬ (0xD800 + m = 39 ∨ 0xD800 + m = 92) ∧ ¬ (0xDC00 + m = 39 ∨ 0xDC00 + m = 92) := by
      omega
    simp [marks, hhigh]

theorem eq_of_mem_codeUnits {n m : Nat} (h : m ∈ codeUnits n) (hm : m < 0xD800) : m = n := by
  unfold codeUnits at h
  split at h
  · exact List.mem_singleton.1 h
  · simp only [List.mem_cons, List.not_mem_nil, or_false] at h
    omega

theorem eq_of_mem_char {c d : Char} (h : d.toNat ∈ codeUnits c.toNat) (hd : d.toNat < 0xD800) : c = d :=
  (Char.toNat_inj.1 (eq_of_mem_codeUnits h hd)).symm

theorem marks_char {c : Char} (hquote : c ≠ '\'') (hbackslash : c ≠ '\\') :
    marks (codeUnits c.toNat) = 0 := by
  refine List.countP_eq_zero.2 fun m hm hmark => ?_
  rcases of_decide_eq_true hmark with rfl | rfl
  · exact hquote (eq_of_mem_char (d := '\'') hm (by decide))
  · exact hbackslash (eq_of_mem_char (d := '\\') hm (by decide))

theorem marks_units (text : Text) : marks (units text) = text.count '\'' + text.count '\\' := by
  induction text with
  | nil => rfl
  | cons c cs ih =>
    have hsplit : marks (units (c :: cs)) = marks (codeUnits c.toNat) + marks (units cs) :=
      List.countP_append
    rw [hsplit, ih, List.count_cons, List.count_cons]
    by_cases hquote : c = '\''
    · subst hquote
      simp [marks, codeUnits]
      omega
    by_cases hbackslash : c = '\\'
    · subst hbackslash
      simp [marks, codeUnits]
      omega
    · simp [marks_char hquote hbackslash, hquote, hbackslash]

theorem marks_onLiteral {c : Char} {value : List Nat} {next : State}
    (h : onLiteral c = some (value, next)) : marks value + pending next ≤ [c].count '\\' := by
  unfold onLiteral at h
  split at h
  · cases h
    simp [marks, pending]
  split at h
  next hbackslash =>
    cases h
    simp [hbackslash, marks, pending]
  split at h
  · cases h
  next hquote hbackslash _ =>
    cases h
    rw [marks_char hquote hbackslash]
    exact Nat.zero_le _

theorem marks_onEscape {c : Char} {value : List Nat} {next : State}
    (h : onEscape c = some (value, next)) : marks value + pending next ≤ 1 := by
  unfold onEscape at h
  repeat' split at h
  all_goals cases h
  all_goals first | exact marks_codeUnits _ | simp [marks, pending]

theorem marks_onDigit {left n : Nat} {c : Char} {value : List Nat} {next : State}
    (h : onDigit left n c = some (value, next)) : marks value + pending next ≤ 1 := by
  unfold onDigit at h
  repeat' split at h
  all_goals cases h
  · exact List.countP_le_length
  · simp [marks, pending]

theorem marks_onPointDigit {n : Nat} {c : Char} {value : List Nat} {next : State}
    (h : onPointDigit n c = some (value, next)) : marks value + pending next ≤ 1 := by
  unfold onPointDigit at h
  split at h
  all_goals cases h
  simp [marks, pending]

/-- A quote or a backslash comes into the value only with a backslash. -/
theorem marks_step {state next : State} {c : Char} {value : List Nat}
    (h : step (fun _ => []) state c = some (value, next)) :
    marks value + pending next ≤ pending state + [c].count '\\' := by
  have hbare : marks [] = 0 := rfl
  cases state with
  | operand | behind | group =>
    simp only [step] at h
    repeat' split at h
    all_goals cases h
    all_goals exact Nat.zero_le _
  | literal => exact (marks_onLiteral h).trans (Nat.le_add_left _ _)
  | escape => exact (marks_onEscape h).trans (Nat.le_add_right _ _)
  | lineEnd =>
    simp only [step] at h
    split at h
    · cases h
      exact Nat.zero_le _
    · exact (marks_onLiteral h).trans (Nat.le_add_left _ _)
  | zero =>
    simp only [step] at h
    split at h
    · cases h
    · exact (marks_onLiteral h).trans (Nat.le_add_left _ _)
  | digits left n => exact (marks_onDigit h).trans (Nat.le_add_right _ _)
  | point =>
    simp only [step] at h
    split at h
    · cases h
      exact Nat.le_add_right _ _
    · exact (marks_onDigit h).trans (Nat.le_add_right _ _)
  | braced => exact (marks_onPointDigit h).trans (Nat.le_add_right _ _)
  | pointDigits n =>
    simp only [step] at h
    split at h
    · cases h
      exact (marks_codeUnits n).trans (Nat.le_add_right _ _)
    · exact (marks_onPointDigit h).trans (Nat.le_add_right _ _)

/-- **No more quotes and backslashes come out of a script than backslashes stand in it.** -/
theorem marks_run {state : State} {script : Text} {value : List Nat}
    (h : run (fun _ => []) state script = some value) :
    marks value ≤ pending state + script.count '\\' := by
  induction script generalizing state value with
  | nil =>
    cases state <;> cases h
    exact Nat.zero_le _
  | cons c cs ih =>
    obtain ⟨front, next, back, hstep, hback, rfl⟩ := step_of_run h
    have hfront := marks_step hstep
    have hrest := ih hback
    have hmarks : marks (front ++ back) = marks front + marks back := List.countP_append
    rw [← List.singleton_append, List.count_append, hmarks]
    omega

/-! ## Lengths -/

/-- Whether a literal is being read. -/
def InLiteral : State → Prop
  | .operand | .behind | .group _ => False
  | _ => True

/-- Half units that an escape has in hand: those of what has been read of it, less one for its
backslash. -/
def slack : State → Nat
  | .escape | .digits _ _ | .point => 1
  | .braced => 2
  | .pointDigits _ => 3
  | _ => 0

/-- A character is as long as what it completes, and half a unit longer for a backslash. -/
def Pays (credit : Nat) (c : Char) (value : List Nat) (next : State) : Prop :=
  InLiteral next ∧
    2 * value.length + [c].count '\\' + slack next ≤ 2 * (codeUnits c.toNat).length + credit

theorem length_codeUnits_pos (n : Nat) : 1 ≤ (codeUnits n).length := by
  unfold codeUnits
  split <;> simp

theorem length_codeUnits_le (n : Nat) : (codeUnits n).length ≤ 2 := by
  unfold codeUnits
  split <;> simp

theorem length_escapedChar (c : Char) : (codeUnits (escapedChar c).toNat).length ≤ (codeUnits c.toNat).length := by
  unfold escapedChar
  repeat' split
  all_goals first | exact le_refl _ | exact length_codeUnits_pos _

theorem pays_onLiteral {c : Char} {value : List Nat} {next : State} (hquote : c ≠ '\'')
    (h : onLiteral c = some (value, next)) : Pays 0 c value next := by
  have hlength := length_codeUnits_pos c.toNat
  unfold onLiteral at h
  rw [if_neg hquote] at h
  split at h
  next =>
    cases h
    have hcount : [c].count '\\' ≤ 1 := List.count_le_length
    refine ⟨trivial, ?_⟩
    simp only [List.length_nil, slack]
    omega
  next hbackslash =>
    split at h
    · cases h
    · cases h
      refine ⟨trivial, ?_⟩
      simp [slack, hbackslash]

theorem pays_onEscape {c : Char} {value : List Nat} {next : State}
    (h : onEscape c = some (value, next)) : Pays 1 c value next := by
  have hlength := length_codeUnits_pos c.toNat
  have hescaped := length_escapedChar c
  have hcount : [c].count '\\' ≤ 1 := List.count_le_length
  unfold onEscape at h
  repeat' split at h
  all_goals cases h
  all_goals
    refine ⟨trivial, ?_⟩
    simp only [List.length_nil, List.length_singleton, slack]
    omega

theorem pays_onDigit {left n : Nat} {c : Char} {value : List Nat} {next : State}
    (h : onDigit left n c = some (value, next)) : Pays 1 c value next := by
  have hlength := length_codeUnits_pos c.toNat
  have hcount : [c].count '\\' ≤ 1 := List.count_le_length
  unfold onDigit at h
  repeat' split at h
  all_goals cases h
  all_goals
    refine ⟨trivial, ?_⟩
    simp only [List.length_nil, List.length_singleton, slack]
    omega

theorem pays_onPointDigit {n : Nat} {c : Char} {value : List Nat} {next : State}
    (h : onPointDigit n c = some (value, next)) : Pays 2 c value next := by
  have hlength := length_codeUnits_pos c.toNat
  have hcount : [c].count '\\' ≤ 1 := List.count_le_length
  unfold onPointDigit at h
  split at h
  all_goals cases h
  refine ⟨trivial, ?_⟩
  simp only [List.length_nil, slack]
  omega

theorem pays_step {state next : State} {c : Char} {value : List Nat} (hstate : InLiteral state)
    (hquote : c ≠ '\'') (h : step assigned state c = some (value, next)) : Pays (slack state) c value next := by
  have hlength := length_codeUnits_pos c.toNat
  have hcount : [c].count '\\' ≤ 1 := List.count_le_length
  cases state with
  | operand | behind | group => exact hstate.elim
  | literal => exact pays_onLiteral hquote h
  | escape => exact pays_onEscape h
  | lineEnd =>
    simp only [step] at h
    split at h
    · cases h
      refine ⟨trivial, ?_⟩
      simp only [List.length_nil, slack]
      omega
    · exact pays_onLiteral hquote h
  | zero =>
    simp only [step] at h
    split at h
    · cases h
    · exact pays_onLiteral hquote h
  | digits left n => exact pays_onDigit h
  | point =>
    simp only [step] at h
    split at h
    · cases h
      refine ⟨trivial, ?_⟩
      simp only [List.length_nil, slack]
      omega
    · exact pays_onDigit h
  | braced => exact pays_onPointDigit h
  | pointDigits n =>
    simp only [step] at h
    split at h
    · cases h
      have hpair := length_codeUnits_le n
      refine ⟨trivial, ?_⟩
      simp only [slack]
      omega
    · obtain ⟨hnext, hpays⟩ := pays_onPointDigit h
      exact ⟨hnext, hpays.trans (Nat.le_succ _)⟩

theorem step_quote {state next : State} {value : List Nat} (hstate : InLiteral state)
    (h : step assigned state '\'' = some (value, next)) : value = [] ∧ next = .behind ∨ 39 ∈ value := by
  have hdigit : ¬ Text.Numeral.digitValue '\'' < 16 := by decide
  cases state with
  | operand | behind | group => exact hstate.elim
  | literal =>
    cases h
    exact .inl ⟨rfl, rfl⟩
  | escape =>
    cases h
    exact .inr (by decide)
  | lineEnd =>
    cases h
    exact .inl ⟨rfl, rfl⟩
  | zero =>
    cases h
    exact .inl ⟨rfl, rfl⟩
  | digits | point | braced | pointDigits => simp [step, onDigit, onPointDigit, hdigit] at h

/-- **A text without quotes is read up to the end of its literal.** What it stands for is no longer than
the text, and shorter if that has a backslash. -/
theorem read_literal {text rest : Text} {state : State} {value : List Nat} (hstate : InLiteral state)
    (htext : '\'' ∉ text) (hvalue : 39 ∉ value)
    (h : run assigned state (text ++ '\'' :: rest) = some value) :
    ∃ front back, value = front ++ back ∧ run assigned .behind rest = some back ∧
      2 * front.length + text.count '\\' ≤ 2 * (units text).length + slack state := by
  induction text generalizing state value with
  | nil =>
    obtain ⟨front, next, back, hstep, hback, rfl⟩ := step_of_run h
    rcases step_quote hstate hstep with ⟨rfl, rfl⟩ | hmem
    · exact ⟨[], back, rfl, hback, Nat.zero_le _⟩
    · exact absurd (List.mem_append_left _ hmem) hvalue
  | cons c cs ih =>
    simp only [List.mem_cons, not_or] at htext
    obtain ⟨front, next, more, hstep, hmore, rfl⟩ := step_of_run h
    obtain ⟨hnext, hpays⟩ := pays_step hstate (Ne.symm htext.1) hstep
    obtain ⟨middle, back, rfl, hback, hlength⟩ :=
      ih hnext htext.2 (fun hm => hvalue (List.mem_append_right _ hm)) hmore
    refine ⟨front ++ middle, back, (List.append_assoc _ _ _).symm, hback, ?_⟩
    rw [← List.singleton_append, List.count_append]
    simp only [units, List.flatMap_append, List.length_append] at hlength ⊢
    simp only [List.flatMap_singleton]
    omega

/-- A text without quotes and backslashes is read only if it has no line break. -/
theorem plain_of_run {text rest : Text} {value : List Nat} (hquote : '\'' ∉ text) (hbackslash : '\\' ∉ text)
    (h : run assigned .literal (text ++ '\'' :: rest) = some value) : Plain text := by
  induction text generalizing value with
  | nil => exact fun _ hm => absurd hm List.not_mem_nil
  | cons c cs ih =>
    simp only [List.mem_cons, not_or] at hquote hbackslash
    obtain ⟨front, next, back, hstep, hback, rfl⟩ := step_of_run h
    rw [step, onLiteral, if_neg (Ne.symm hquote.1), if_neg (Ne.symm hbackslash.1)] at hstep
    split at hstep
    · cases hstep
    next hbreak =>
      cases hstep
      rw [not_or] at hbreak
      exact List.forall_mem_cons.2
        ⟨⟨Ne.symm hquote.1, Ne.symm hbackslash.1, hbreak⟩, ih hquote.2 hbackslash.2 hback⟩

/-! ## Concatenations -/

/-- Assigns the empty text to every expression. -/
def silent : Text → Text := fun _ => []

theorem count_chain {segments : List (Segment Text)}
    (hhits : ∀ expression w, .hit expression w ∈ segments → Simple expression) :
    (chain segments).count '\\' = (segments.flatMap (shows silent)).count '\\' := by
  induction segments with
  | nil => rfl
  | cons segment more ih =>
    have hmore := ih fun expression w hm => hhits expression w (List.mem_cons_of_mem _ hm)
    have hplus : " + ".toList.count '\\' = 0 := by decide
    rw [chain, List.map_cons, List.flatMap_cons, List.flatMap_cons, List.count_append, List.count_append,
      List.count_append, ← hmore, hplus, Nat.zero_add]
    refine congrArg (· + _) ?_
    cases segment with
    | gap gap => simp [operand, shows, Segment.replacement, List.count_append]
    | hit expression w =>
      have hfree : expression.count '\\' = 0 :=
        List.count_eq_zero.2 (hhits expression w List.mem_cons_self).2
      simp [operand, shows, Segment.replacement, List.count_append, hfree, silent]

/-- **Operands whose gaps have no quotes are read one by one.** -/
theorem read_chain {segments : List (Segment Text)} {value : List Nat}
    (hhits : ∀ expression w, .hit expression w ∈ segments → Simple expression)
    (hgaps : ∀ gap, .gap gap ∈ segments → '\'' ∉ gap) (hvalue : 39 ∉ value)
    (h : run silent .behind (chain segments) = some value) :
    (∀ gap, .gap gap ∈ segments → ∃ rest back, run silent .literal (gap ++ '\'' :: rest) = some back) ∧
      2 * value.length + (segments.flatMap (shows silent)).count '\\' ≤
        2 * (units (segments.flatMap (shows silent))).length := by
  induction segments generalizing value with
  | nil =>
    cases h
    exact ⟨fun _ hm => absurd hm List.not_mem_nil, le_refl _⟩
  | cons segment more ih =>
    have hmorehits := fun expression w hm => hhits expression w (List.mem_cons_of_mem segment hm)
    have hmoregaps := fun gap hm => hgaps gap (List.mem_cons_of_mem segment hm)
    rw [run_chain_cons] at h
    cases segment with
    | gap gap =>
      rw [run_gap] at h
      have hstate : InLiteral .literal := trivial
      obtain ⟨front, back, rfl, hback, hlength⟩ :=
        read_literal hstate (hgaps gap List.mem_cons_self) hvalue h
      obtain ⟨hread, hmore⟩ :=
        ih hmorehits hmoregaps (fun hm => hvalue (List.mem_append_right _ hm)) hback
      refine ⟨fun other hm => ?_, ?_⟩
      · rcases List.mem_cons.1 hm with heq | hm
        · cases heq
          exact ⟨chain more, _, h⟩
        · exact hread other hm
      · have hshows : shows silent (.gap gap) = gap := rfl
        simp only [List.flatMap_cons, hshows, units, List.flatMap_append, List.length_append,
          List.count_append, slack] at hlength hmore ⊢
        omega
    | hit expression w =>
      rw [run_hit (hhits expression w List.mem_cons_self).1, Option.map_eq_some_iff] at h
      obtain ⟨back, hback, rfl⟩ := h
      obtain ⟨hread, hmore⟩ := ih hmorehits hmoregaps hvalue hback
      refine ⟨fun gap hm => ?_, hmore⟩
      rcases List.mem_cons.1 hm with heq | hm
      · cases heq
      · exact hread gap hm

/-- Only plain gaps are read as themselves when nothing is assigned: all quotes and backslashes of what is
read come from them. -/
theorem plain_of_run_chain {segments : List (Segment Text)}
    (hhits : ∀ expression w, .hit expression w ∈ segments → Simple expression)
    (h : run silent .behind (chain segments) = some (units (segments.flatMap (shows silent)))) :
    ∀ gap, .gap gap ∈ segments → Plain gap := by
  have hpending : pending .behind = 0 := rfl
  have hmarks := marks_run h
  rw [marks_units, count_chain hhits, hpending] at hmarks
  have hquote : '\'' ∉ segments.flatMap (shows silent) := List.count_eq_zero.1 (by omega)
  have hvalue : 39 ∉ units (segments.flatMap (shows silent)) := by
    intro hm
    obtain ⟨c, hc, hunit⟩ := List.mem_flatMap.1 hm
    obtain rfl := eq_of_mem_char (d := '\'') hunit (by decide)
    exact hquote hc
  have hfree : ∀ {c : Char}, c ∉ segments.flatMap (shows silent) → ∀ gap, .gap gap ∈ segments → c ∉ gap :=
    fun hc gap hm hin => hc (List.mem_flatMap.2 ⟨_, hm, hin⟩)
  obtain ⟨hread, hlength⟩ := read_chain hhits (hfree hquote) hvalue h
  have hbackslash : '\\' ∉ segments.flatMap (shows silent) := List.count_eq_zero.1 (by omega)
  intro gap hm
  obtain ⟨rest, back, hback⟩ := hread gap hm
  exact plain_of_run (hfree hquote gap hm) (hfree hbackslash gap hm) hback

theorem evaluate_concatenation {value : Text} (h : value ≠ []) :
    evaluate assigned (concatenation value) =
      run assigned .behind (chain (Segment.ofText readExpression value)) := by
  rw [evaluate, concatenation]
  cases hsegments : Segment.ofText readExpression value with
  | nil =>
    have htext := Segment.flatMap_text_ofText readExpression value
    rw [hsegments] at htext
    exact absurd htext.symm h
  | cons segment more =>
    rw [run_chain_cons, List.map_cons, Text.joinWith_cons]
    rfl

/-- **A value stands for its own text**, with every expression replaced by what is assigned to it, exactly
if there is something in it and all text around the expressions is plain. -/
theorem evaluate_concatenation_iff {value : Text}
    (h : ∀ expression ∈ Text.occurrences readExpression value, Simple expression) :
    (∀ assigned : Text → Text, evaluate assigned (concatenation value) =
        some (units (Text.replace readExpression assigned value))) ↔
      value ≠ [] ∧ ∀ gap, .gap gap ∈ Segment.ofText readExpression value → Plain gap := by
  have hhits : ∀ expression w, .hit expression w ∈ Segment.ofText readExpression value →
      Simple expression := fun expression w hm => h expression (List.mem_filterMap.2 ⟨_, hm, rfl⟩)
  have hreplace : ∀ assigned, Text.replace readExpression assigned value =
      (Segment.ofText readExpression value).flatMap (shows assigned) := fun assigned =>
    Segment.replace_eq_rewrite assigned value
  constructor
  · intro heval
    have hne : value ≠ [] := by
      rintro rfl
      cases heval silent
    have hrun := heval silent
    rw [evaluate_concatenation hne, hreplace] at hrun
    exact ⟨hne, plain_of_run_chain hhits hrun⟩
  · rintro ⟨hne, hplain⟩ assigned
    rw [evaluate_concatenation hne, hreplace]
    refine run_chain fun segment hm => ?_
    cases segment with
    | gap gap => exact hplain gap hm
    | hit expression w => exact hhits expression w hm

theorem evaluate_concatenation_iff_sample :
    (∀ expression ∈ Text.occurrences readExpression "Hi \x7b\x7b user.name \x7d\x7d!".toList,
        Simple expression) ∧
      ∀ assigned : Text → Text, evaluate assigned (concatenation "Hi \x7b\x7b user.name \x7d\x7d!".toList) =
        some (units (Text.replace readExpression assigned "Hi \x7b\x7b user.name \x7d\x7d!".toList)) := by
  have hsegments : Segment.ofText readExpression "Hi \x7b\x7b user.name \x7d\x7d!".toList =
      [.gap "Hi ".toList, .hit "user.name".toList "\x7b\x7b user.name \x7d\x7d".toList, .gap ['!']] := by rfl
  have hsimple : ∀ expression ∈ Text.occurrences readExpression "Hi \x7b\x7b user.name \x7d\x7d!".toList,
      Simple expression := by
    unfold Simple
    decide
  refine ⟨hsimple, (evaluate_concatenation_iff hsimple).2 ⟨by decide, fun gap hm => ?_⟩⟩
  have hplain : Plain "Hi ".toList ∧ Plain ['!'] := by
    unfold Plain
    decide
  rw [hsegments] at hm
  simp only [List.mem_cons, List.not_mem_nil, or_false, reduceCtorEq, false_or, Segment.gap.injEq] at hm
  rcases hm with rfl | rfl
  · exact hplain.1
  · exact hplain.2

/-- A single quote in a value ends the literal before its time. -/
theorem not_evaluate_concatenation : ¬ ∀ value : Text, '"' ∉ value →
    (∀ expression ∈ Text.occurrences readExpression value, Simple expression) →
    ∀ assigned : Text → Text, evaluate assigned (concatenation value) =
      some (units (Text.replace readExpression assigned value)) := by
  intro h
  have hsimple : ∀ expression ∈ Text.occurrences readExpression "it's \x7b\x7b x \x7d\x7d".toList,
      Simple expression := by
    unfold Simple
    decide
  have heval := h "it's \x7b\x7b x \x7d\x7d".toList (by decide) hsimple silent
  revert heval
  decide

end Script

end FlowTemplate.Interpolation
