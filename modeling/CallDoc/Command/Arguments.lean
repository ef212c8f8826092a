import CallDoc.Text.Basic

/-!
The arguments of the command. They name one of three tasks, then options and values in any
order; after two dashes everything is a value.
-/
namespace CallDoc

open Text

/-- What the command is asked to do. -/
inductive Task
  /-- Report on the documentation in files. -/
  | doc (files : List Text) (format : Text) (raw plain : Bool)
  /-- Write the documentation in files with its sections as field lists. -/
  | normalize (files : List Text)
  /-- Read values of a type, with the given enumerations known by name. -/
  | convert (type : Text) (enums : List Text) (values : List Text)
  deriving DecidableEq, Repr

/-- An option or a value as it was given. -/
inductive Argument
  | flag (name : Text)
  | option (name value : Text)
  | positional (t : Text)
  deriving DecidableEq, Repr

namespace Argument

/-- The options that take a value, by their short and long names. -/
def valued (task name : Text) : Bool :=
  (task == "doc".toList && ["f".toList, "format".toList].contains name) ||
    (task == "convert".toList && ["t".toList, "type".toList, "enum".toList].contains name)

/-- The letters of the short options. -/
def letters (task : Text) : Text :=
  if task = "doc".toList then ['f', 'v']
  else if task = "convert".toList then ['t', 'v']
  else ['v']

/-- The short options in one argument; the value of the last may follow at once. -/
def short? (task : Text) : Text → List Text → Option (List Argument × List Text)
  | [], rest => some ([], rest)
  | c :: t, rest =>
    if valued task [c] then
      match t, rest with
      | [], value :: rest => some ([option [c] value], rest)
      | [], [] => none
      | '=' :: value, rest => some ([option [c] value], rest)
      | value, rest => some ([option [c] value], rest)
    else (short? task t rest).map fun (more, rest) => (flag [c] :: more, rest)

/-- The first of the arguments, and those after it. A dash before a character that is no
option's letter begins a value, such as a negative number. -/
def next? (task argument : Text) (rest : List Text) : Option (List Argument × List Text) :=
  match argument with
  | '-' :: '-' :: long =>
    match splitFirst? '=' long with
    | some (name, value) => some ([option name value], rest)
    | none =>
      if valued task long then
        match rest with
        | value :: rest => some ([option long value], rest)
        | [] => none
      else some ([flag long], rest)
  | '-' :: c :: t =>
    if (letters task).contains c then short? task (c :: t) rest
    else some ([positional argument], rest)
  | _ => some ([positional argument], rest)

/-- The arguments of a task; no more of them are read than there are. -/
def readWithin (task : Text) : (steps : Nat) → List Text → Option (List Argument)
  | _, [] => some []
  | 0, _ => none
  | steps + 1, argument :: rest =>
    if argument = "--".toList then some (rest.map positional)
    else
      (next? task argument rest).bind fun (read, rest) =>
        (readWithin task steps rest).map (read ++ ·)

def values (arguments : List Argument) : List Text :=
  arguments.filterMap fun
    | positional t => some t
    | _ => none

/-- The values given for an option under one of its names. -/
def given (names : List Text) (arguments : List Argument) : List Text :=
  arguments.filterMap fun
    | option name t => if names.contains name then some t else none
    | _ => none

def hasFlag (name : Text) (arguments : List Argument) : Bool :=
  arguments.contains (flag name)

end Argument

namespace Task

/-- The files that the task is given by their names, patterns or directories. -/
def files : Task → List Text
  | doc files _ _ _ | normalize files => files
  | convert _ _ _ => []

/-- The standard input is read in place of files: none are named, or a single dash is. -/
def isInput (files : List Text) : Bool := files == [] || files == [['-']]

def readsInput : Task → Bool
  | doc files _ _ _ | normalize files => isInput files
  | convert _ _ _ => false

/-- The task that the arguments name, if they name one. -/
def ofArguments? (arguments : List Text) : Option Task :=
  match arguments.dropWhile fun a => a == "-v".toList || a == "--verbose".toList with
  | [] => none
  | task :: rest =>
    (Argument.readWithin task rest.length rest).bind fun arguments =>
      let values := Argument.values arguments
      if task = "doc".toList then
        let format := (Argument.given ["f".toList, "format".toList] arguments).getLast?
        some (.doc values (format.getD "text".toList) (Argument.hasFlag "raw".toList arguments)
          (Argument.hasFlag "plain".toList arguments))
      else if task = "normalize".toList then some (.normalize values)
      else if task = "convert".toList then
        (Argument.given ["t".toList, "type".toList] arguments).getLast?.map fun type =>
          .convert type (Argument.given ["enum".toList] arguments) values
      else none

end Task
end CallDoc
