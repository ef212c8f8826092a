import CallDoc.Command.Run

/-!
The command line. It collects what the arguments can mean, hands it to `Command.run` as a
tree, and writes what comes back.
-/
namespace CallDoc.Main

open Text

/-- How far below a directory a search of any depth goes. -/
def deepest : Nat := 40

def isDirectory (path : Text) : IO Bool := (System.mkFilePath [String.ofList path]).isDir

def entries (path : Text) : IO (List Text) := do
  let found ← (System.mkFilePath [String.ofList path]).readDir
  return found.toList.map fun entry => entry.fileName.toList

def joined (trees : List FileTree) : FileTree :=
  ⟨trees.flatMap FileTree.files, trees.flatMap FileTree.directories⟩

/-- What there is from a path on along the parts of a pattern, which an argument that names
a single path is as well. Files count only where `wanted` holds. -/
def along (wanted : Text → Bool) : (depth : Nat) → (parts : List Text) → (path : Text) →
    IO FileTree
  | 0, _, _ => return ⟨[], []⟩
  | depth + 1, parts, path => do
    if ← isDirectory path then
      let here : FileTree := ⟨[], [Path.steps path]⟩
      match parts with
      | [] =>
        let files ← (← entries path).mapM fun name => do
          let file := Path.join path name
          if ← isDirectory file then return ⟨[], []⟩ else along wanted depth [] file
        return joined (here :: files)
      | part :: more =>
        if Glob.isWild part then
          let names ← entries path
          let fits := names.filter fun name =>
            name == part || Glob.matchTokens (Glob.tokens part) name
          let found ← (fits ++ Glob.dots part).mapM fun name =>
            along wanted depth more (Path.join path name)
          let deeper ← if Glob.isDeep part then
              names.mapM fun name => along wanted depth parts (Path.join path name)
            else pure []
          return joined (here :: found ++ deeper)
        else return joined [here, ← along wanted depth more (Path.join path part)]
    else if wanted path && (← (System.mkFilePath [String.ofList path]).pathExists) then
      let content ← IO.FS.readFile (System.mkFilePath [String.ofList path])
      return ⟨[(Path.steps path, content.toList)], []⟩
    else return ⟨[], []⟩

/-- What an argument can mean: the file that it names, or all that it can match. -/
def meant (argument : Text) : IO FileTree :=
  let wanted := fun path => Command.isDocumentation path || Path.steps path == Path.steps argument
  let (start, parts) := Glob.parts argument
  along wanted (parts.length + deepest) parts start

def perform (task : Task) : IO UInt32 := do
  let input ← if task.readsInput then (← IO.getStdin).readToEnd else pure ""
  let trees ← if task.readsInput then pure [] else task.files.mapM meant
  let outcome := Command.run (joined trees) input.toList task
  IO.print (String.ofList outcome.out)
  IO.eprint (String.ofList outcome.err)
  return outcome.code.toUInt32

def usage : String :=
  "usage: calldoc doc [-f text|json] [--raw] [--plain] [FILE]...\n" ++
  "       calldoc normalize [FILE]...\n" ++
  "       calldoc convert -t TYPE [--enum NAME=MEMBER,...]... [VALUE]..."

end CallDoc.Main

def main (arguments : List String) : IO UInt32 :=
  match CallDoc.Task.ofArguments? (arguments.map String.toList) with
  | some task => CallDoc.Main.perform task
  | none => do
    IO.eprintln CallDoc.Main.usage
    return 2
