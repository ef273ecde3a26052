/-
Arguments of a command line. An option has one or more names, short ones of a single letter or long
ones, and may take a value: the rest of its argument or the next argument. Short options without a
value can share one argument. Two hyphens end the options.
-/
import FlowTemplate.Text.Basic

namespace FlowTemplate.CommandLine

/-- An option of a command: what it means, its names with their hyphens, and whether it takes a
value. -/
structure OptionForm (α : Type) where
  meaning : α
  names : List String
  takesValue : Bool

/-- An option as it was given, with its value if it takes one. -/
structure Given (α : Type) where
  meaning : α
  value : Text
  deriving Repr

/-- Arguments that were read: the options in order, and the rest. -/
structure Arguments (α : Type) where
  options : List (Given α)
  operands : List Text
  deriving Repr

namespace Arguments

variable {α : Type}

/-- The option with a name. -/
def form? (forms : List (OptionForm α)) (name : Text) : Option (OptionForm α) :=
  forms.find? fun form => form.names.any fun other => other.toList = name

/-- The arguments with one more option in front. -/
def withOption (given : Given α) (arguments : Arguments α) : Arguments α :=
  { arguments with options := given :: arguments.options }

/-- The arguments with more options in front. -/
def withOptions (given : List (Given α)) (arguments : Arguments α) : Arguments α :=
  { arguments with options := given ++ arguments.options }

/-- The short options in one argument, given by its letters: the options, and the one at the end
that takes the next argument as its value, if there is one. -/
def readLetters? (forms : List (OptionForm α)) : Text → Option (List (Given α) × Option α)
  | [] => some ([], none)
  | letter :: letters => do
    let form ← form? forms ['-', letter]
    if form.takesValue then
      if letters.isEmpty then some ([], some form.meaning)
      else some ([⟨form.meaning, letters⟩], none)
    else
      let (options, pending?) ← readLetters? forms letters
      some (⟨form.meaning, []⟩ :: options, pending?)

/-- Whether an argument is an option: it begins with a hyphen and does not end there. -/
def isOption : Text → Bool
  | '-' :: _ :: _ => true
  | _ => false

/-- Two hyphens. -/
def twoHyphens : Text := ['-', '-']

/-- Reads arguments, or says that they are wrong. If options and operands are `mixed`, options may
follow an operand; else the first operand ends them. -/
def read? (forms : List (OptionForm α)) (mixed : Bool) : List Text → Option (Arguments α)
  | [] => some ⟨[], []⟩
  | argument :: rest =>
    if argument = twoHyphens then some ⟨[], rest⟩
    else if isOption argument then
      let (name, value?) := argument.cut '='
      match (form? forms name).filter fun _ => 2 < name.length, value? with
      | some form, some value =>
        if form.takesValue then
          (read? forms mixed rest).map (withOption ⟨form.meaning, value⟩)
        else none
      | some form, none =>
        if form.takesValue then
          match rest with
          | [] => none
          | value :: rest => (read? forms mixed rest).map (withOption ⟨form.meaning, value⟩)
        else (read? forms mixed rest).map (withOption ⟨form.meaning, []⟩)
      | none, _ =>
        if argument.take 2 = twoHyphens then none
        else
          match readLetters? forms argument.tail with
          | none => none
          | some (options, none) => (read? forms mixed rest).map (withOptions options)
          | some (options, some meaning) =>
            match rest with
            | [] => none
            | value :: rest =>
              (read? forms mixed rest).map fun arguments =>
                withOptions options (withOption ⟨meaning, value⟩ arguments)
    else if mixed then
      (read? forms mixed rest).map fun arguments =>
        { arguments with operands := argument :: arguments.operands }
    else some ⟨[], argument :: rest⟩

end Arguments

end FlowTemplate.CommandLine
