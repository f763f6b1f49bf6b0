import ShaderStack.Device.Call
import ShaderStack.Text.Blank

/-! Program builds without a GPU.

A stage compiles when it has an entry point and no `#error` line. Locations are given to the
inputs that the texts declare and use; the others are elided, the way a driver optimizes them
out. -/
namespace ShaderStack

/-- Locations of a linked program's inputs. -/
structure Linkage where
  attributes : List (String × Location) := []
  uniforms : List (String × Location) := []
  deriving DecidableEq, Repr

namespace Linkage

open Text

/-- The first line, counted from one, that starts with an `#error` directive. -/
def errorLine? (source : List Char) : Option Nat :=
  ((lines source).findIdx? fun line => "#error".toList.isPrefixOf (trimLeft line)).map (· + 1)

def checkStage (stage : BuildStage) (source : String) : Except RenderError Unit :=
  match errorLine? source.toList with
  | some line =>
    .error (.buildFailure stage s!"ERROR: 0:{line}: '#error' : user error directive")
  | none =>
    if occurs "void main".toList source.toList then .ok ()
    else .error (.buildFailure stage "ERROR: 0:0: 'main' : missing entry point")

/-- The statement of a line that ends in a semicolon. -/
def statement? (line : List Char) : Option (List Char) :=
  match (trim line).reverse with
  | ';' :: rest => some rest.reverse
  | _ => none

/-- The last word of a statement whose first word is `keyword`, without an array bound. -/
def declaredName? (keyword : String) (line : List Char) : Option String := do
  match words (← statement? line) with
  | first :: rest =>
    if first = keyword.toList then
      let name ← rest.getLast?
      some (String.ofList (name.takeWhile (· != '[')))
    else none
  | [] => none

/-- Names declared with `keyword`, in source order. -/
def declarations (keyword : String) (source : String) : List String :=
  (lines source.toList).filterMap (declaredName? keyword)

/-- The whole words of a text outside of line comments. -/
def codeWords (source : String) : List String :=
  (lines source.toList).flatMap fun line =>
    (splitBy (fun c => !isIdentifierChar c) (beforeComment line)).map String.ofList

/-- Uses of a name outside of line comments. -/
def references (source name : String) : Nat := (codeWords source).count name

/-- Numbers the names in order, each once. -/
def locate (known : List (String × Location)) : List String → List (String × Location)
  | [] => known
  | name :: rest =>
    if (known.lookup name).isSome then locate known rest
    else locate (known ++ [(name, known.length)]) rest

/-- A uniform is used if a stage that declares it mentions it again. -/
def usesUniform (declaring other name : String) : Bool :=
  1 < references declaring name ||
    ((declarations "uniform" other).contains name && 1 < references other name)

def attributeNames (vertex : String) : List String :=
  (declarations "in" vertex).filter fun name => 1 < references vertex name

def uniformNames (vertex fragment : String) : List String :=
  (declarations "uniform" vertex).filter (usesUniform vertex fragment) ++
    (declarations "uniform" fragment).filter (usesUniform fragment vertex)

def ofSources (vertex fragment : String) : Linkage :=
  { attributes := locate [] (attributeNames vertex)
    uniforms := locate [] (uniformNames vertex fragment) }

/-- Builds a program from its two stages; the vertex stage is checked first. -/
def build (vertex fragment : String) : Except RenderError Linkage := do
  checkStage .vertex vertex
  checkStage .fragment fragment
  return ofSources vertex fragment

end Linkage
end ShaderStack
