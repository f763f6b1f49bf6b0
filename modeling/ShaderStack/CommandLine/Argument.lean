import ShaderStack.Scene.Basic
import ShaderStack.Text.Field

/-! Values of command-line arguments. -/
namespace ShaderStack

inductive ArgumentError
  | unknownScene (word : String)
  | noSizeSeparator
  | width
  | height
  | emptySize
  | noExtension
  | wrongExtension (found : String)
  deriving DecidableEq, Repr

def ArgumentError.message : ArgumentError → String
  | unknownScene word =>
    let names := ", ".intercalate (SceneKind.all.map SceneKind.name)
    s!"unknown scene '{word}'; expected one of {names}"
  | noSizeSeparator => "expected WIDTHxHEIGHT"
  | width => "invalid width in surface size"
  | height => "invalid height in surface size"
  | emptySize => "surface size must be greater than zero"
  | noExtension => "export path has no extension; expected .png"
  | wrongExtension found => s!"unsupported export format '.{found}'; expected .png"

namespace Argument

def scene (value : String) : Except ArgumentError SceneKind :=
  let word := Text.keyword value
  match SceneKind.all.find? fun kind => kind.name == word with
  | some kind => .ok kind
  | none => .error (.unknownScene word)

def side (fault : ArgumentError) (text : List Char) : Except ArgumentError UInt32 :=
  match Text.natural? UInt32.size (Text.trim text) with
  | some n => .ok (UInt32.ofNat n)
  | none => .error fault

def isSizeSeparator (c : Char) : Bool := c == 'x' || c == 'X'

/-- Width and height on the two sides of the first separator. -/
def size (value : String) : Except ArgumentError (UInt32 × UInt32) := do
  let text := Text.trim value.toList
  match text.dropWhile fun c => !isSizeSeparator c with
  | [] => throw .noSizeSeparator
  | _ :: rest =>
    let width ← side .width (text.takeWhile fun c => !isSizeSeparator c)
    let height ← side .height rest
    if width = 0 ∨ height = 0 then throw .emptySize
    return (width, height)

/-- A path whose extension says that it is a picture. -/
def exportPath (value : String) : Except ArgumentError String :=
  match Text.Path.extension? value.toList with
  | none => .error .noExtension
  | some found =>
    let found := Text.lowercase (String.ofList found)
    if found = "png" then .ok value else .error (.wrongExtension found)

/-- A number of frames. -/
def frames? (value : String) : Option Nat := do
  let n ← Text.integer? value.toList
  if 0 ≤ n ∧ n < UInt32.size then some n.toNat else none

end Argument
end ShaderStack
