import ShapeSchema.Settings.Reading

/-!
The arguments of a command line. Options may stand before and after other arguments, take their
value from the next argument or after an equals sign, and of a repeated option the last one counts.
-/

namespace ShapeSchema.CommandLine

structure DeriveOptions where
  target : String
  /-- Whether the schema is wrapped as a validator; the settings decide where nothing is said. -/
  wrap? : Option Bool
  collection? : Option String
  /-- Whether an existing collection is modified. -/
  modify : Bool
  indent? : Option Int
  config? : Option String
deriving DecidableEq

/-- What a command line asks for. -/
inductive Command where
  | derive (options : DeriveOptions)
  | compare (left right : String) (unordered : List String)
  | config (path? : Option String)
  | help
deriving DecidableEq

/-- Arguments in order, sorted into options and others. -/
structure Sorted where
  /-- The options, with the value of those that take one. -/
  options : List (String × String)
  others : List String

namespace Sorted

def valuesOf (option : String) (sorted : Sorted) : List String :=
  (sorted.options.filter (·.1 = option)).map (·.2)

def value? (option : String) (sorted : Sorted) : Option String :=
  (sorted.valuesOf option).getLast?

def has (option : String) (sorted : Sorted) : Bool :=
  (sorted.value? option).isSome

def withOption (option value : String) (sorted : Sorted) : Sorted :=
  { sorted with options := (option, value) :: sorted.options }

def withOther (argument : String) (sorted : Sorted) : Sorted :=
  { sorted with others := argument :: sorted.others }

end Sorted

def isOption (argument : String) : Bool :=
  argument.startsWith "-" && argument ≠ "-"

/-- The name of an option and the value after its equals sign. -/
def splitOption (argument : String) : String × Option String :=
  let cs := argument.toList
  (String.ofList (cs.takeWhile (· != '=')),
    match cs.dropWhile (· != '=') with
    | _ :: value => some (String.ofList value)
    | [] => none)

/-- Sorts arguments, where some options take a value and others, the flags, take none. Two dashes
end the options. -/
def sort? (flags valued : List String) : List String → Option Sorted
  | [] => some ⟨[], []⟩
  | argument :: rest =>
    if argument = "--" then some ⟨[], rest⟩
    else if isOption argument then
      let (option, value?) := splitOption argument
      if flags.contains option then
        match value? with
        | none => (sort? flags valued rest).map (·.withOption option "")
        | some _ => none
      else if valued.contains option then
        match value?, rest with
        | some value, rest => (sort? flags valued rest).map (·.withOption option value)
        | none, value :: rest => (sort? flags valued rest).map (·.withOption option value)
        | none, [] => none
      else none
    else (sort? flags valued rest).map (·.withOther argument)

def wrapFlags : List String := ["--validator", "--raw"]

def deriveCommand? (arguments : List String) : Option Command := do
  let sorted ← sort? ("--help" :: "--collmod" :: wrapFlags)
    ["--collection", "--indent", "--config"] arguments
  if sorted.has "--help" then return .help
  let [target] := sorted.others | none
  let indent? ← match sorted.value? "--indent" with
    | none => some none
    | some text => (Coercions.lenient.readIndent (.text text)).toOption.map some
  let wrap? := (sorted.options.filter (wrapFlags.contains ·.1)).getLast?.map (·.1 == "--validator")
  return .derive {
    target, wrap?, indent?
    collection? := sorted.value? "--collection"
    modify := sorted.has "--collmod"
    config? := sorted.value? "--config" }

def compareCommand? (arguments : List String) : Option Command := do
  let sorted ← sort? ["--help"] ["--unordered"] arguments
  if sorted.has "--help" then return .help
  let [left, right] := sorted.others | none
  return .compare left right (sorted.valuesOf "--unordered")

def configCommand? (arguments : List String) : Option Command := do
  let sorted ← sort? ["--help"] ["--config"] arguments
  if sorted.has "--help" then return .help
  let [] := sorted.others | none
  return .config (sorted.value? "--config")

/-- The module and the name that a target is written for: they stand before and after its first
colon. -/
def splitTarget? (target : String) : Option (String × String) :=
  let cs := target.toList
  match cs.takeWhile (· != ':'), cs.dropWhile (· != ':') with
  | file@(_ :: _), _ :: name@(_ :: _) => some (String.ofList file, String.ofList name)
  | _, _ => none

def namedCommand? : List String → Option Command
  | "derive" :: arguments => deriveCommand? arguments
  | "compare" :: arguments => compareCommand? arguments
  | "config" :: arguments => configCommand? arguments
  | _ => none

/-- What a command line asks for, none if it is not written as it has to be. -/
def Command.ofArguments? : List String → Option Command
  | "--help" :: _ => some .help
  | "--" :: arguments | arguments => namedCommand? arguments

end ShapeSchema.CommandLine
