import LuaBytecode.Chunk.Basic

/-!
The names of functions in a listing. Names are kept by the path of child indices that leads to a function, and
the functions of a chunk are named from the root on.
-/

namespace LuaBytecode.Listing

/--
Names by path: the name at this place, and those behind each index.
-/
inductive Names where
  | node (name : Bytes) (inside : Array Names)

namespace Names

def empty : Names :=
  .node [] #[]

def get : Names → List Nat → Bytes
  | .node name _, [] => name
  | .node _ inside, i :: path => (inside.getD i empty).get path

def set (name : Bytes) : List Nat → Names → Names
  | [], .node _ inside => .node name inside
  | i :: path, .node own inside =>
    let inside := inside ++ Array.replicate (i + 1 - inside.size) empty
    .node own (inside.modify i (set name path))

end Names

mutual

/--
Names the function at the path and those inside it.
-/
def nameFunction (path : List Nat) : Prototype → Names → Names
  | f@{ functions, .. }, names =>
    let base := names.get path
    -- Only the root has no name yet; those inside it are named before they are visited.
    if base = [] then
      let base := utf8 (if f.isMain then "main" else "top")
      nameFunctions path (utf8 "F") 0 functions (names.set base path)
    else
      nameFunctions path base 0 functions names

def nameFunctions (path : List Nat) (stem : Bytes) (i : Nat) : List Prototype → Names → Names
  | [], names => names
  | f :: rest, names =>
    let name := stem ++ utf8 "[" ++ Bytes.digits 10 i ++ utf8 "]"
    let names := nameFunction (path ++ [i]) f (names.set name (path ++ [i]))
    nameFunctions path stem (i + 1) rest names

end

def Names.ofRoot (root : Prototype) : Names :=
  nameFunction [] root .empty

end LuaBytecode.Listing
