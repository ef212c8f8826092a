import CallDoc.Command.Arguments
import CallDoc.Command.FileSystem
import CallDoc.Docstring
import CallDoc.Report
import CallDoc.Type.Reduce
import CallDoc.Value.Synthesis

/-!
What the command does: it reads documentation files and writes reports, or converts values.
A file that cannot be read as documentation is left out with a warning, and makes the
command fail at its end. What the command has from outside comes in as its surroundings: the
files, the search for the paths that match a pattern, the standard input, and the logger, which
writes between the command's own messages.
-/
namespace CallDoc

open Text

/-- The output of the command. -/
structure Outcome where
  code : Nat
  out : Text
  err : Text
  deriving DecidableEq, Repr

/-- A failure of the command with the failure that caused it. -/
structure Failure where
  message : Text
  cause : Option Text
  deriving DecidableEq, Repr

namespace Failure

def ofError (e : Error) : Failure := ⟨e.message, none⟩

/-- The failure as it is reported. -/
def report (f : Failure) : Text :=
  "Error: ".toList ++ f.message ++ ['\n'] ++
    f.cause.elim [] fun cause => "\nCaused by:\n    ".toList ++ cause ++ ['\n']

end Failure

/-- A text to read, with the name of where it comes from. -/
structure Source where
  name : Text
  content : Text
  deriving DecidableEq, Repr

/-- What the command has from outside. -/
structure Surroundings (ι : Type) where
  files : FileSystem ι
  /-- The paths that match a pattern, or why the pattern is refused. -/
  matching : Text → Except Text (List Text)
  /-- The standard input, or why it cannot be read. -/
  input : Except Text Text
  /-- What the logger writes on the standard error while a source is read as documentation. -/
  readingLog : Source → Text
  /-- What it writes while a parser for a type is made. -/
  typeLog : Text → Text

namespace Command

variable {ι : Type}

/-- The endings of file names that are taken when a directory or a pattern is given. -/
def isDocumentation (path : Text) : Bool :=
  (Path.extension? path).any fun e => ["txt".toList, "rst".toList].contains e

/-- The paths among which an argument that is not a file is looked up. -/
def candidates (around : Surroundings ι) (argument : Text) : Except Failure (List Text) :=
  if around.files.isDirectory argument then
    (around.files.entries argument).mapError fun cause =>
      ⟨"failed to read directory: ".toList ++ argument, some cause⟩
  else
    (around.matching argument).mapError fun cause =>
      ⟨"invalid glob pattern: ".toList ++ argument, some cause⟩

/-- The files that an argument stands for. A file named in full is taken whatever its name;
of a directory and of the matches of a pattern only documentation is. -/
def filesOf (around : Surroundings ι) (argument : Text) : Except Failure (List Text) :=
  if around.files.isFile argument then .ok [argument]
  else
    (candidates around argument).map fun paths =>
      paths.filter fun path => around.files.isFile path && isDocumentation path

/-- The path put in its place among sorted paths, unless an equal one is there. -/
def insertPath (path : Text) : List Text → List Text
  | [] => [path]
  | other :: more =>
    let a := Path.components path
    let b := Path.components other
    if a = b then other :: more
    else if Path.componentsBefore a b then path :: other :: more
    else other :: insertPath path more

/-- The files that the arguments stand for, in order, and warnings about arguments that
stand for none; or the failure that ended the search, with the warnings before it. -/
def expand (around : Surroundings ι) (found : List Text) :
    List Text → Text × Except Failure (List Text)
  | [] => ([], .ok found)
  | argument :: more =>
    match filesOf around argument with
    | .error f => ([], .error f)
    | .ok paths =>
      let warning :=
        if paths.isEmpty then
          "warning: no docstring files matched: ".toList ++ argument ++ ['\n']
        else []
      let rest := expand around (paths.foldl (fun found path => insertPath path found) found) more
      (warning ++ rest.1, rest.2)

/-- The text at a path. -/
def readSource (files : FileSystem ι) (path : Text) : Except Failure Source :=
  match files.read path with
  | .ok content => .ok ⟨path, content⟩
  | .error cause => .error ⟨"failed to read ".toList ++ path, some cause⟩

/-- The standard input as a source. -/
def readInput (input : Except Text Text) : Except Failure Source :=
  match input with
  | .ok content => .ok ⟨['-'], content⟩
  | .error cause => .error ⟨"failed to read stdin".toList, some cause⟩

/-- The texts to read, after the warnings about arguments. Without arguments, or with a
single dash, the standard input is read. -/
def sources (around : Surroundings ι) (arguments : List Text) :
    Text × Except Failure (List Source) :=
  if Task.isInput arguments then ([], (readInput around.input).map fun source => [source])
  else
    let paths := expand around [] arguments
    (paths.1, paths.2.bind fun paths => paths.mapM (readSource around.files))

/-- The line that announces one of several texts; all but the first have an empty line
before it. -/
def header (first : Bool) (source : Source) : Text :=
  (if first then [] else ['\n']) ++ "==> ".toList ++ source.name ++ " <==\n".toList

/-- What reading the sources one after the other has written so far. -/
structure Progress where
  out : Text
  err : Text
  failed : Nat

/-- The progress with one more source, which is at the given place among all. What is logged while
it is read comes before the warning about it. -/
def docStep (log : Source → Text) (reader : DocReader) (format : ReportFormat) (headers : Bool)
    (p : Progress) (place : Nat) (source : Source) : Progress :=
  let p := { p with err := p.err ++ log source }
  match reader.readText source.content with
  | .ok doc =>
    let head := if headers then header (place == 0) source else []
    { p with out := p.out ++ head ++ doc.report format source.name }
  | .error e =>
    { p with
      err := p.err ++ "warning: skipping ".toList ++ source.name ++ ": ".toList ++
        e.message ++ ['\n']
      failed := p.failed + 1 }

/-- The progress through all sources from the given place on. -/
def docAll (log : Source → Text) (reader : DocReader) (format : ReportFormat) (headers : Bool)
    (p : Progress) : (place : Nat) → List Source → Progress
  | _, [] => p
  | place, source :: more =>
    docAll log reader format headers (docStep log reader format headers p place source)
      (place + 1) more

/-- The failure at the end when some sources could not be read. -/
def unreadable (failed total : Nat) : Failure :=
  ⟨ofNat failed ++ " of ".toList ++ ofNat total ++ " docstring(s) failed to parse".toList, none⟩

/-- Reports on the given sources. -/
def docSources (log : Source → Text) (reader : DocReader) (format : ReportFormat)
    (sources : List Source) : Outcome :=
  let headers := format != .json && 1 < sources.length
  let p := docAll log reader format headers ⟨[], [], 0⟩ 0 sources
  if p.failed = 0 then ⟨0, p.out, p.err⟩
  else ⟨1, p.out, p.err ++ (unreadable p.failed sources.length).report⟩

/-- The canonical form of each source. -/
def normalizeAll (headers : Bool) : (place : Nat) → List Source → Text
  | _, [] => []
  | place, source :: more =>
    (if headers then header (place == 0) source else []) ++
      DocReader.standard.canonical source.content ++ '\n' :: normalizeAll headers (place + 1) more

/-- The outcome of a task on sources that have been found, or not. -/
def withSources (found : Text × Except Failure (List Source)) (task : List Source → Outcome) :
    Outcome :=
  match found.2 with
  | .error f => ⟨1, [], found.1 ++ f.report⟩
  | .ok sources =>
    let outcome := task sources
    { outcome with err := found.1 ++ outcome.err }

/-- The registry with an enumeration given as `NAME=MEMBER,...`. -/
def addEnum (registry : Registry) (given : Text) : Except Failure Registry :=
  match splitFirst? '=' given with
  | none =>
    .error ⟨"invalid --enum ".toList ++ given ++ ": expected NAME=MEMBER,...".toList, none⟩
  | some (name, members) =>
    let members := ((splitOn ',' members).map trim).filter fun m => !m.isEmpty
    .ok (registry.register (trim name) (.enumeration (trim name) members))

/-- The parser for values of a type. -/
def parserFor (registry : Registry) (type : Text) : Except Error ValueParser := do
  let ns := registry.namespaceOf
  let type ← ns.resolve "VALUE".toList (some type) none
  Synthesis.synthesize ns .empty type

/-- Values as JSON, or what is wrong with them. -/
def convertIn (registry : Registry) (type : Text) (values : List Text) : Outcome :=
  match parserFor registry type with
  | .error e => ⟨1, [], (Failure.ofError e).report⟩
  | .ok parser =>
    match parser.parse values with
    | .ok value => ⟨0, value.json ++ ['\n'], []⟩
    | .error e => ⟨2, [], "error: argument VALUE: ".toList ++ e.message ++ ['\n']⟩

/-- Values of a type with the given enumerations. Nothing is logged before these are known. -/
def convert (log : Text → Text) (type : Text) (enums values : List Text) : Outcome :=
  match enums.foldlM addEnum Registry.standard with
  | .error f => ⟨1, [], f.report⟩
  | .ok registry =>
    let outcome := convertIn registry type values
    { outcome with err := log type ++ outcome.err }

/-- Does what the task asks. -/
def perform (around : Surroundings ι) : Task → Outcome
  | .doc files format raw plain =>
    match ReportFormat.ofName? format plain with
    | none => ⟨1, [], (Failure.mk (ReportFormat.unknown format) none).report⟩
    | some format =>
      let reader := if raw then DocReader.raw else DocReader.standard
      withSources (sources around files) (docSources around.readingLog reader format)
  | .normalize files =>
    withSources (sources around files) fun sources =>
      ⟨0, normalizeAll (1 < sources.length) 0 sources, []⟩
  | .convert type enums values => convert around.typeLog type enums values

end Command
end CallDoc
