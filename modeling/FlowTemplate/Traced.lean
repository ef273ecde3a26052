/-
Computations that keep a log. A compilation records every place where it leaves the template as it
is, and the record outlives a failure: the events up to a fault are kept beside the fault.
-/
import FlowTemplate.Fault

namespace FlowTemplate

/-- A place where compilation leaves text as it is, in the order in which they are met. -/
inductive Event where
  /-- A group does not close, so the pass over the text ends here. -/
  | passStopped (keyword : Text) (fault : Fault)
  /-- A keyword starts no block and stays as text. -/
  | keywordSkipped (keyword : Text) (fault : Fault)
  /-- A block whose header cannot be read stays as text. -/
  | blockLeft (keyword : Text) (fault : Fault)
  /-- An `@else` cannot be read, so the chain ends before it. -/
  | chainEnded (fault : Fault)
  /-- The second clause of a loop header is no track clause. -/
  | trackIgnored (clause : Text)
  /-- The blocks are nested too deep, so the template stays as it is. -/
  | templateLeft
  deriving DecidableEq, Repr

namespace Event

/-- The wording of an event. -/
def message : Event → Text
  | passStopped keyword fault => "Stopping @".toList ++ keyword ++ " pass: ".toList ++ fault.message
  | keywordSkipped keyword fault => "Skipping @".toList ++ keyword ++ ": ".toList ++ fault.message
  | blockLeft keyword fault =>
    "Leaving @".toList ++ keyword ++ " block as text: ".toList ++ fault.message
  | chainEnded fault => "@if chain ends early: ".toList ++ fault.message
  | trackIgnored clause => "Ignoring unrecognised track clause ".toList ++ clause.quoted
  | templateLeft => "Nesting too deep to compile, leaving template unchanged".toList

end Event

/-- What a computation logged, and its value or the fault it ended with. -/
structure Traced (α : Type) where
  events : List Event
  result : Except Fault α

namespace Traced

variable {α β : Type}

/-- Goes on with the value of the first computation, unless that ended with a fault. -/
def bind (first : Traced α) (next : α → Traced β) : Traced β :=
  match first.result with
  | .error fault => ⟨first.events, .error fault⟩
  | .ok value => ⟨first.events ++ (next value).events, (next value).result⟩

instance : Monad Traced where
  pure value := ⟨[], .ok value⟩
  bind := bind

instance : LawfulMonad Traced := LawfulMonad.mk' Traced
  (by
    intro α ⟨events, result⟩
    cases result <;> simp [Functor.map, bind])
  (by
    intro α β value next
    simp [Bind.bind, Pure.pure, bind])
  (by
    intro α β γ ⟨events, result⟩ next last
    cases result with
    | error fault => rfl
    | ok value =>
      simp only [Bind.bind, bind]
      cases (next value).result <;> simp)

/-- Logs one event. -/
def log (event : Event) : Traced Unit := ⟨[event], .ok ()⟩

/-- Ends with a fault. -/
def fail (fault : Fault) : Traced α := ⟨[], .error fault⟩

/-- A computation that logs nothing. -/
def ofExcept (result : Except Fault α) : Traced α := ⟨[], result⟩

/-- Runs a computation to its end: its log is kept, and a fault becomes a value. -/
def attempt (computation : Traced α) : Traced (Except Fault α) :=
  ⟨computation.events, .ok computation.result⟩

/-! ## The result of a composed computation -/

@[simp] theorem result_pure (value : α) : (pure value : Traced α).result = .ok value := rfl

@[simp] theorem events_pure (value : α) : (pure value : Traced α).events = [] := rfl

@[simp] theorem result_log (event : Event) : (log event).result = .ok () := rfl

@[simp] theorem result_fail (fault : Fault) : (fail fault : Traced α).result = .error fault := rfl

@[simp] theorem result_attempt (computation : Traced α) :
    computation.attempt.result = .ok computation.result := rfl

/-- The result is that of the same steps taken without a log. -/
@[simp] theorem result_bind (first : Traced α) (next : α → Traced β) :
    (first >>= next).result = first.result >>= fun value => (next value).result := by
  cases first with
  | mk events result => cases result <;> rfl

@[simp] theorem result_map (f : α → β) (computation : Traced α) :
    (f <$> computation).result = computation.result.map f := by
  cases computation with
  | mk events result => cases result <;> rfl

/-- Nothing is logged after a fault, and nothing logged before it is lost. -/
theorem events_bind (first : Traced α) (next : α → Traced β) :
    (first >>= next).events =
      first.events ++ (match first.result with
        | .ok value => (next value).events
        | .error _ => []) := by
  cases first with
  | mk events result => cases result <;> simp [Bind.bind, bind]

end Traced

end FlowTemplate
