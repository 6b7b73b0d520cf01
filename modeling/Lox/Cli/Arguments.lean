/-! Options and plain arguments of a command line. An option is long (`--name`) or short
(`-n`); short ones may be joined, and a value may be joined to its option. -/

namespace Lox.Cli

/-- An option that a command line may hold. -/
structure OptionForm (α : Type) where
  option : α
  long : String
  short : Option Char := none
  takesValue : Bool := false

/-- An option as it was given; one that takes no value has the empty one. -/
structure Given (α : Type) where
  option : α
  value : String := ""
  deriving DecidableEq, Repr

namespace Arguments

/-- What an argument with options in it says, and which option still wants a value. -/
structure OptionText (α : Type) where
  given : List (Given α)
  wanting : Option α := none

variable {α : Type}

/-- A long option, perhaps with a value after `=`. -/
def long (forms : List (OptionForm α)) (name : String) (value : Option String) :
    Option (OptionText α) :=
  match forms.find? (·.long == name) with
  | none => none
  | some form =>
    match form.takesValue, value with
    | true, some value => some { given := [⟨form.option, value⟩] }
    | true, none => some { given := [], wanting := some form.option }
    | false, none => some { given := [⟨form.option, ""⟩] }
    | false, some _ => none

/-- Short options joined together. One that takes a value takes the rest for it. -/
def cluster (forms : List (OptionForm α)) : List Char → Option (OptionText α)
  | [] => some { given := [] }
  | c :: rest =>
    match forms.find? (·.short == some c) with
    | none => none
    | some form =>
      if form.takesValue then
        if rest.isEmpty then some { given := [], wanting := some form.option }
        else some { given := [⟨form.option, String.ofList rest⟩] }
      else (cluster forms rest).map fun later =>
        { later with given := ⟨form.option, ""⟩ :: later.given }

/-- Reads an argument that begins with a dash. -/
def optionText (forms : List (OptionForm α)) (argument : List Char) : Option (OptionText α) :=
  let name := argument.takeWhile (· ≠ '=')
  let value := match argument.dropWhile (· ≠ '=') with
    | _ :: value => some (String.ofList value)
    | [] => none
  match argument with
  | '-' :: '-' :: _ => long forms (String.ofList name) value
  | _ => cluster forms (argument.drop 1)

def isOptionText (argument : List Char) : Bool :=
  argument.head? = some '-' && argument.length > 1

/-- Separates options from plain arguments; `none` is a usage error. After `--` all arguments
are plain. Unless they are interspersed, all arguments from the first plain one on are. -/
def separate (forms : List (OptionForm α)) (interspersed : Bool) :
    List String → Option (List (Given α) × List String)
  | [] => some ([], [])
  | argument :: rest =>
    if argument = "--" then some ([], rest)
    else if isOptionText argument.toList then
      match optionText forms argument.toList with
      | none => none
      | some { given, wanting := none } =>
        (separate forms interspersed rest).map fun (later, plain) => (given ++ later, plain)
      | some { given, wanting := some option } =>
        match rest with
        | [] => none
        | value :: rest =>
          (separate forms interspersed rest).map fun (later, plain) =>
            (given ++ ⟨option, value⟩ :: later, plain)
    else if interspersed then
      (separate forms interspersed rest).map fun (later, plain) => (later, argument :: plain)
    else some ([], argument :: rest)

/-- The last value given for an option. -/
def last? [BEq α] (given : List (Given α)) (option : α) : Option String :=
  (given.reverse.find? (·.option == option)).map (·.value)

end Arguments

end Lox.Cli
