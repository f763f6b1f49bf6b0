import ShaderStack.Toml.Value

/-! Building the tables of a document: what may be added where.

A table is defined once. A parent that was only implied by longer headers may still get a header,
and a table made by dotted keys may only be extended by more of them. -/
namespace ShaderStack.Toml

/-- A dotted key: the tables that it goes through, and the last part. -/
structure KeyPath where
  parents : List String
  key : String
  deriving DecidableEq, Repr

namespace Entries

def has (es : Entries) (key : String) : Bool := es.any (·.1 == key)

def erase (es : Entries) (key : String) : Entries := es.filter (·.1 != key)

/-- Puts another value where the key was first written. -/
def replace (es : Entries) (key : String) (value : Value) : Entries :=
  es.map fun entry => if entry.1 == key then (key, value) else entry

/-- Whether a path may go through a table. A dotted key cannot reach into a table that is defined
elsewhere. -/
def admits (dotted : Bool) : Origin → Bool
  | .inlined => false
  | .headed => !dotted
  | .implied | .dotted => true

/-- Changes the table at the end of a path and makes the tables on the way that are missing. The
change is told how the table came to be. -/
def under (dotted : Bool) (change : Origin → Entries → Option Entries) :
    List String → Origin → Entries → Option Entries
  | [], origin, es => change origin es
  | name :: rest, _, es =>
    match es.lookup name with
    | none => do
      let origin := if dotted then Origin.dotted else Origin.implied
      return es ++ [(name, .table origin (← under dotted change rest origin []))]
    | some (.table origin inner) =>
      if admits dotted origin then do
        return es.replace name (.table origin (← under dotted change rest origin inner))
      else none
    | some (.tables elements) => do
      let last ← elements.getLast?
      return es.replace name
        (.tables (elements.dropLast ++ [← under dotted change rest .headed last]))
    | some _ => none

/-- Adds an entry to a table. Keys are unique, and a dotted key adds only to tables that dotted
keys made. -/
def insert (path : KeyPath) (value : Value) (origin : Origin) (es : Entries) : Option Entries :=
  under true
    (fun reached inner =>
      if !path.parents.isEmpty && reached ≠ .dotted then none
      else if has inner path.key then none
      else some (inner ++ [(path.key, value)]))
    path.parents origin es

/-- A table between braces. -/
def ofPairs (pairs : List (KeyPath × Value)) : Option Entries :=
  pairs.foldlM (fun es (path, value) => insert path value .inlined es) []

/-- Adds the lines below a header to its table. -/
def insertAll (lines : List (KeyPath × Value)) (es : Entries) : Option Entries :=
  lines.foldlM (fun es (path, value) => insert path value .headed es) es

/-- Defines the table of a header. One that was only implied moves to the end. -/
def define (header : KeyPath) (lines : List (KeyPath × Value)) (root : Entries) :
    Option Entries :=
  under false
    (fun _ es =>
      match es.lookup header.key with
      | none => do return es ++ [(header.key, .table .headed (← insertAll lines []))]
      | some (.table .implied inner) => do
        return es.erase header.key ++ [(header.key, .table .headed (← insertAll lines inner))]
      | some _ => none)
    header.parents .headed root

/-- Adds the table of a repeated header. -/
def append (header : KeyPath) (lines : List (KeyPath × Value)) (root : Entries) :
    Option Entries :=
  under false
    (fun _ es => do
      let element ← insertAll lines []
      match es.lookup header.key with
      | none => return es ++ [(header.key, .tables [element])]
      | some (.tables elements) =>
        return es.replace header.key (.tables (elements ++ [element]))
      | some _ => none)
    header.parents .headed root

end Entries
end ShaderStack.Toml
