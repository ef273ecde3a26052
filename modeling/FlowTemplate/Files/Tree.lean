/-
File trees: a directory with everything in it, as a value, and a directory in it from which relative
paths start. Paths are followed as a file system follows them: every name but the last must be that
of a directory. What lies outside the tree is not known, except that there are directories around it.
-/
import FlowTemplate.Files.Path

namespace FlowTemplate

/-- What a name in a tree stands for. -/
inductive FileNode where
  | directory
  | file (bytes : List UInt8)
  deriving DecidableEq, Repr

/-- A directory with everything in it. -/
structure FileTree where
  /-- The absolute name of the directory, which is empty for the top of a file system. -/
  root : Text
  /-- What is in the directory, by the names that lead there from it. -/
  entries : List (List Text × FileNode)
  deriving Repr

/-- Where a path leads: to a place in a tree, whether something is there or not, or out of it. -/
inductive Place where
  | inside (parts : List Text)
  | outside
  deriving DecidableEq, Repr

namespace FileTree

/-- What is at a place in the tree. -/
def find? (tree : FileTree) : List Text → Option FileNode
  | [] => some .directory
  | parts => tree.entries.lookup parts

/-- What is at a place. Outside there are directories only. -/
def node? (tree : FileTree) : Place → Option FileNode
  | .outside => some .directory
  | .inside parts => tree.find? parts

/-- The directory around a place. The top of a file system is inside itself. -/
def around (tree : FileTree) : Place → Place
  | .outside => .outside
  | .inside [] => if tree.root.isEmpty then .inside [] else .outside
  | .inside parts => .inside parts.dropLast

/-- The tree with something put at a place. -/
def put (tree : FileTree) (parts : List Text) (node : FileNode) : FileTree :=
  { tree with entries := (parts, node) :: tree.entries.filter fun (name, _) => name ≠ parts }

/-- The tree with a file and every directory on the way to it. -/
def putWithParents (tree : FileTree) (parts : List Text) (node : FileNode) : FileTree :=
  let parents := (List.range parts.length).map fun n => parts.take n
  let tree := parents.foldl (fun tree parent =>
    if (tree.find? parent).isSome then tree else tree.put parent .directory) tree
  tree.put parts node

/-- The absolute name of a place in the tree. -/
def absoluteName (tree : FileTree) (parts : List Text) : Text :=
  tree.root ++ parts.flatMap ('/' :: ·)

/-- The files of a tree that another one does not have, or has with other bytes. -/
def changesSince (before after : FileTree) : List (List Text × List UInt8) :=
  after.entries.filterMap fun (parts, node) =>
    match node with
    | .directory => none
    | .file bytes => if before.find? parts = some (.file bytes) then none else some (parts, bytes)

end FileTree

/-- A file tree and the directory in it from which relative paths start. -/
structure Workspace where
  tree : FileTree
  directory : List Text
  deriving Repr

/-- Why a file cannot be written. -/
inductive WriteFault where
  /-- The path is that of a directory. -/
  | isDirectory
  /-- The directory for the file cannot be made, because a file has its name. -/
  | fileExists
  /-- A name on the way is that of a file. -/
  | notDirectory
  deriving DecidableEq, Repr

namespace Workspace

/-- The place at which following a path starts. -/
def start (workspace : Workspace) (path : Path) : Place :=
  if path.absolute then if workspace.tree.root.isEmpty then .inside [] else .outside
  else .inside workspace.directory

/-- One step along a path, from a place that must be a directory. -/
def step? (workspace : Workspace) (place : Place) (name : Text) : Option Place :=
  match workspace.tree.node? place with
  | some .directory =>
    if name = Path.up then some (workspace.tree.around place)
    else
      match place with
      | .outside => none
      | .inside parts => some (.inside (parts ++ [name]))
  | _ => none

/-- What a path leads to. -/
def node? (workspace : Workspace) (path : Path) : Option FileNode :=
  (path.parts.foldlM workspace.step? (workspace.start path)).bind workspace.tree.node?

/-- The place that a path names, whatever there is on the way. -/
def resolve (workspace : Workspace) (path : Path) : Place :=
  path.parts.foldl (fun place name =>
    if name = Path.up then workspace.tree.around place
    else
      match place with
      | .outside => .outside
      | .inside parts => .inside (parts ++ [name])) (workspace.start path)

/-- The tree and the place after one step along a path on which missing directories are made. -/
def makeStep (tree : FileTree) (place : Place) (name : Text) (last : Bool) :
    Except WriteFault (FileTree × Place) :=
  if name = Path.up then .ok (tree, tree.around place)
  else
    match place with
    | .outside => .ok (tree, .outside)
    | .inside parts =>
      let here := parts ++ [name]
      match tree.find? here with
      | some .directory => .ok (tree, .inside here)
      | some (.file _) => .error (if last then .fileExists else .notDirectory)
      | none => .ok (tree.put here .directory, .inside here)

/-- The tree and the place after following names on whose way missing directories are made. -/
def makeDirectories (tree : FileTree) (place : Place) :
    List Text → Except WriteFault (FileTree × Place)
  | [] => .ok (tree, place)
  | name :: names => do
    let (tree, place) ← makeStep tree place name names.isEmpty
    makeDirectories tree place names

/-- The tree with a file written at a path, and missing directories on the way made. -/
def write (workspace : Workspace) (path : Path) (bytes : List UInt8) :
    Except WriteFault FileTree := do
  let (tree, around) ←
    makeDirectories workspace.tree (workspace.start path) path.parent.parts
  match path.parts.getLast? with
  | none => throw .isDirectory
  | some name =>
    if name = Path.up then throw .isDirectory
    match around with
    | .outside => return tree
    | .inside parts =>
      let here := parts ++ [name]
      if tree.find? here = some .directory then throw .isDirectory
      return tree.put here (.file bytes)

end Workspace

end FlowTemplate
