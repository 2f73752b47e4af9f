import VersionedTypes.Command.Input

/-!
# Workspaces

A workspace is a tree of files with a standard input, held in memory. Commands read from it as they
read from a directory.

* `Entry`, `Tree`, `Tree.entry?`, `Tree.walk`: the place that a path leads to;
* `systemTree`: what is there in any case;
* `Workspace`, `Workspace.find`;
* **`Workspace.read`**: the standard input is used up by the first reading.
-/

namespace VersionedTypes.Command

/-! ## Trees of files -/

/-- What a name in a directory stands for. -/
inductive Entry where
  | directory
  | file (content : ByteArray)
  /-- The standard input under a name of its own. -/
  | standardInput

/-- Files by their paths. -/
abbrev Tree := List (List String × Entry)

/-- The components of a path. -/
def components (path : String) : List String := path.splitOn "/"

/-- The bytes that a name may have. -/
def maxNameSize : Nat := 255

/-- The bytes that a path may have. -/
def maxPathSize : Nat := 4095

namespace Tree

/-- The entry at a path. Whatever has an entry below it is a directory. -/
def entry? (t : Tree) (path : List String) : Option Entry :=
  if path.isEmpty then some .directory
  else
    match t.find? fun e => e.1 == path with
    | some e => some e.2
    | none => if t.any fun e => path.isPrefixOf e.1 then some .directory else none

/-- Follow a path from a directory or a file on. Above the tree there are directories, but no known
names. -/
def walk (t : Tree) (here : List String) : List String → Except InputError Entry
  | [] =>
    match t.entry? here with
    | some entry => .ok entry
    | none => .error .notFound
  | name :: names =>
    match t.entry? here with
    | none => .error .notFound
    | some (.file _) | some .standardInput => .error .notDirectory
    | some .directory =>
      if name.isEmpty ∨ name = "." then t.walk here names
      else if name = ".." then
        if here.isEmpty then walk [] [] names else t.walk here.dropLast names
      else if maxNameSize < name.utf8ByteSize then .error .nameTooLong
      else t.walk (here ++ [name]) names

end Tree

/-- What is there in any case: some directories, a file without content, and the standard input. -/
def systemTree : Tree :=
  [(["dev", "null"], .file .empty), (["dev", "stdin"], .standardInput),
    (["dev", "fd", "0"], .standardInput), (["bin"], .directory), (["etc"], .directory),
    (["home"], .directory), (["lib"], .directory), (["proc"], .directory), (["tmp"], .directory),
    (["usr"], .directory), (["var"], .directory)]

/-! ## Workspaces -/

/-- Files and a standard input. -/
structure Workspace where
  entries : Tree
  standardInput : ByteArray := .empty

namespace Workspace

/-- The workspace with one more entry. -/
def add (w : Workspace) (path : String) (entry : Entry) : Workspace :=
  { w with entries := w.entries ++ [((components path).filter fun c => !c.isEmpty, entry)] }

/-- The entry that a path leads to, from the root of the system or from the workspace on. -/
def find (w : Workspace) (path : String) : Except InputError Entry :=
  if path.toList.contains '\x00' then .error .nulInName
  else if path.isEmpty then .error .notFound
  else if maxPathSize < path.utf8ByteSize then .error .nameTooLong
  else if path.startsWith "/" then systemTree.walk [] (components path)
  else w.entries.walk [] (components path)

/-- Read all that is left of the standard input. -/
def readInput : StateM Workspace (Except InputError String) := do
  let w ← get
  set { w with standardInput := .empty }
  pure (decodeText w.standardInput)

/-- Read the text at a place. -/
def read (place : Place) : StateM Workspace (Except InputError String) := do
  match place with
  | .standardInput => readInput
  | .file path =>
    match (← get).find path with
    | .ok (.file content) => pure (decodeText content)
    | .ok .standardInput => readInput
    | .ok .directory => pure (.error .directory)
    | .error e => pure (.error e)

end Workspace

end VersionedTypes.Command
