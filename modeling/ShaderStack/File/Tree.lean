import ShaderStack.File.Fault
import ShaderStack.Text.Blank

/-! Where paths lead among files and directories. A path is walked name by name, and the first
step that cannot be taken is its fault. -/
namespace ShaderStack

inductive FileNode
  | directory
  | file (data : ByteArray)

/-- The names on the way from the root. -/
abbrev FilePlace := List (List Char)

/-- What stands at each place. The root is always a directory; paths that do not begin with a
slash begin at `here`. -/
structure FileTree where
  nodes : List (FilePlace × FileNode)
  here : FilePlace := []

namespace FileTree

/-- The bytes that a name may have. -/
def nameLimit : Nat := 255

/-- The bytes that a path may have. -/
def pathLimit : Nat := 4095

def node? (t : FileTree) (place : FilePlace) : Option FileNode :=
  if place.isEmpty then some .directory else t.nodes.lookup place

def isDirectory (t : FileTree) (place : FilePlace) : Bool :=
  match t.node? place with
  | some .directory => true
  | _ => false

/-- Steps are taken in directories. No name and a dot stay there, two dots lead back. -/
def step (t : FileTree) (place : FilePlace) (name : List Char) : Except FileFault FilePlace :=
  if !t.isDirectory place then .error .notADirectory
  else if name = [] ∨ name = ['.'] then .ok place
  else if name = ['.', '.'] then .ok place.dropLast
  else if nameLimit < (String.ofList name).utf8ByteSize then .error .nameTooLong
  else if (t.node? (place ++ [name])).isSome then .ok (place ++ [name])
  else .error .missing

/-- Where a path begins: at the root when nothing stands before its first slash. -/
def origin (t : FileTree) (names : List (List Char)) : FilePlace :=
  if names.head? = some [] then [] else t.here

/-- The names between the slashes of a path. -/
def names (path : String) : Except FileFault (List (List Char)) :=
  if path.toList.contains '\x00' then .error .endInside
  else if path.isEmpty then .error .missing
  else if pathLimit < path.utf8ByteSize then .error .nameTooLong
  else .ok (Text.splitBy (· == '/') path.toList)

/-- What a file holds. A slash after its name asks for a directory. -/
def read (t : FileTree) (path : String) : Except FileFault ByteArray := do
  let names ← names path
  match t.node? (← names.foldlM t.step (t.origin names)) with
  | some (.file data) => return data
  | some .directory => throw .isDirectory
  | none => throw .missing

/-- Whether a file can be written: the directory of its last name must be there, and the name
must not be that of a directory. -/
def checkWrite (t : FileTree) (path : String) : Except FileFault Unit := do
  let names ← names path
  match names.reverse.dropWhile List.isEmpty with
  | [] => throw .isDirectory
  | last :: before =>
    let place ← before.reverse.foldlM t.step (t.origin names)
    if !t.isDirectory place then throw .notADirectory
    if names.getLast? = some [] then throw .isDirectory
    match t.step place last with
    | .ok found => if t.isDirectory found then throw .isDirectory
    | .error .missing => return
    | .error fault => throw fault

end FileTree
end ShaderStack
