/-
The program: reads the files that a command line names, runs it as a function, writes what changed
and prints what it says.
-/
import FlowTemplate.CommandLine.Run

namespace FlowTemplate.CommandLine

/-- What a file name stands for on disk. -/
def look (name : String) : IO (Option FileNode) := do
  try
    return some (.file (← IO.FS.readBinFile name).toList)
  catch problem =>
    match problem with
    | .inappropriateType _ _ _ => return some .directory
    | _ => return none

/-- The tree with what stands on disk along the way to a place. -/
def readAlong (tree : FileTree) (parts : List Text) : IO FileTree := do
  let mut tree := tree
  for n in List.range parts.length do
    let here := parts.take (n + 1)
    if (tree.find? here).isNone then
      match ← look (String.ofList (tree.absoluteName here)) with
      | some node => tree := tree.put here node
      | none => return tree
  return tree

/-- The paths that a command line names. -/
def namedPaths (request : Request) : List Path :=
  match request with
  | .compile request =>
    request.input :: (request.output?.toList ++ request.config?.toList)
  | .check request => request.input :: request.config?.toList
  | _ => []

/-- The files on disk that a request can depend on, seen from the working directory. -/
def readWorkspace (request : Request) : IO Workspace := do
  let directory := (Path.ofText (toString (← IO.currentDir)).toList).parts
  let start : Workspace := ⟨⟨[], []⟩, directory⟩
  let configs := (List.range (directory.length + 1)).map fun n =>
    directory.take n ++ [Config.fileName]
  let named := (namedPaths request).filterMap fun path =>
    match start.resolve path with
    | .inside parts => some parts
    | .outside => none
  let mut tree := start.tree
  for parts in directory :: configs ++ named do
    tree ← readAlong tree parts
  return { start with tree }

/-- Writes a file and the directories on the way to it. -/
def writeFile (tree : FileTree) (parts : List Text) (bytes : List UInt8) : IO Unit := do
  IO.FS.createDirAll (String.ofList (tree.absoluteName parts.dropLast))
  IO.FS.writeBinFile (String.ofList (tree.absoluteName parts)) ⟨bytes.toArray⟩

/-- How the program is called. -/
def usage : String :=
  "Usage: atflow [--version] compile INPUT [-o FILE] [-e NAME] [--minify/--no-minify] [-c FILE] [-v]
       atflow check INPUT [-c FILE] [-v]"

/-- Runs the program. -/
def runProgram (arguments : List String) : IO UInt32 := do
  let words := arguments.map String.toList
  let request := Request.ofArguments words
  match request with
  | .wrong => IO.eprintln usage
  | .help => IO.println usage
  | _ => pure ()
  let workspace ← readWorkspace request
  match run words workspace with
  | .error _ =>
    IO.eprintln "Error: the output file cannot be written"
    return 1
  | .ok outcome =>
    for (parts, bytes) in workspace.tree.changesSince outcome.tree do
      writeFile outcome.tree parts bytes
    IO.print (String.ofList outcome.output)
    if let some line := outcome.error? then IO.eprintln (String.ofList line)
    return UInt32.ofNat outcome.exitCode

end FlowTemplate.CommandLine

/-- The entry of the program. -/
def main (arguments : List String) : IO UInt32 :=
  FlowTemplate.CommandLine.runProgram arguments
