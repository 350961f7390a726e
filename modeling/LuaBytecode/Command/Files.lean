import LuaBytecode.Bytes

/-!
The files that the command reads. Reading is described by its outcome for each path, so that the command
can be run over the files of a machine and over a tree that is held in memory alike.
-/

namespace LuaBytecode.Command

inductive FileProblem where
  | notFound
  | notADirectory
  | isADirectory
  | invalidPath
  | nameTooLong
  | denied
  | other (text : String)
  deriving DecidableEq

namespace FileProblem

def reason : FileProblem → String
  | .notFound => "no such file or directory"
  | .notADirectory => "not a directory"
  | .isADirectory => "is a directory"
  | .invalidPath => "invalid argument"
  | .nameTooLong => "file name too long"
  | .denied => "permission denied"
  | .other text => text

def action : FileProblem → String
  | .isADirectory => "read "
  | _ => "open "

def message (path : Bytes) (problem : FileProblem) : Bytes :=
  utf8 problem.action ++ path ++ utf8 (": " ++ problem.reason)

def lookupMessage (path : Bytes) (problem : FileProblem) : Bytes :=
  utf8 "stat " ++ path ++ utf8 (": " ++ problem.reason)

end FileProblem

abbrev Files := Bytes → Except FileProblem Bytes

def Files.lookup (files : Files) (path : Bytes) : Option FileProblem :=
  match files path with
  | .ok _ | .error .isADirectory | .error .denied => none
  | .error problem => some problem

def pathParts : Bytes → List Bytes
  | [] => [[]]
  | b :: rest =>
    if b = Bytes.ofChar '/' then [] :: pathParts rest
    else
      match pathParts rest with
      | part :: parts => (b :: part) :: parts
      | [] => [[b]]

structure FileTree where
  workingDirectory : List Bytes := []
  directories : List (List Bytes) := []
  files : List (List Bytes × Bytes) := []

namespace FileTree

def start (tree : FileTree) (path : Bytes) : List Bytes :=
  if path.head? = some (Bytes.ofChar '/') then [] else tree.workingDirectory

def step (names : List Bytes) (part : Bytes) : List Bytes :=
  if part = [] || part = utf8 "." then names
  else if part = utf8 ".." then names.dropLast
  else names ++ [part]

def locate (tree : FileTree) (path : Bytes) : List Bytes :=
  (pathParts path).foldl step (tree.start path)

def addDirectory (tree : FileTree) (path : Bytes) : FileTree :=
  { tree with directories := tree.locate path :: tree.directories }

def addFile (tree : FileTree) (path content : Bytes) : FileTree :=
  { tree with files := (tree.locate path, content) :: tree.files }

inductive Node where
  | directory (names : List Bytes)
  | file (content : Bytes)

def longestName : Nat := 255

def pathBound : Nat := 4096

def isDirectory (tree : FileTree) (names : List Bytes) : Bool :=
  names.isPrefixOf tree.workingDirectory || tree.directories.any names.isPrefixOf
    || tree.files.any (names.isPrefixOf ·.1)

def node? (tree : FileTree) (names : List Bytes) : Option Node :=
  match tree.files.find? (·.1 = names) with
  | some (_, content) => some (.file content)
  | none => if tree.isDirectory names then some (.directory names) else none

def follow (tree : FileTree) (node : Node) (part : Bytes) : Except FileProblem Node :=
  match node with
  | .file _ => .error .notADirectory
  | .directory names =>
    if longestName < part.length then .error .nameTooLong
    else
      match tree.node? (step names part) with
      | some node => .ok node
      | none => .error .notFound

def read (tree : FileTree) : Files := fun path => do
  if path.contains 0 then throw .invalidPath
  if path = [] then throw .notFound
  if pathBound ≤ path.length then throw .nameTooLong
  match ← (pathParts path).foldlM tree.follow (.directory (tree.start path)) with
  | .file content => return content
  | .directory _ => throw .isADirectory

end FileTree

end LuaBytecode.Command
