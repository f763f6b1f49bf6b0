import ShaderStack.Number.Double

/-! Values of a TOML document. -/
namespace ShaderStack.Toml

/-- How a table came to be, which decides what may still be added to it. -/
inductive Origin
  /-- Between braces: complete as it stands. -/
  | inlined
  /-- By a header of its own, or the document itself. -/
  | headed
  /-- As a parent in some header. -/
  | implied
  /-- As a parent in a dotted key. -/
  | dotted
  deriving DecidableEq, Repr

inductive Value
  | text (s : String)
  | integer (n : Int)
  | real (x : Double)
  | flag (b : Bool)
  /-- A date, a time or both. -/
  | moment
  | list (items : List Value)
  /-- Entries in the order in which they were first written. -/
  | table (origin : Origin) (entries : List (String × Value))
  /-- Tables under a repeated header; the last one is open. -/
  | tables (elements : List (List (String × Value)))

abbrev Entries := List (String × Value)

/-- What a value holds, if it is a sequence. -/
def Value.items? : Value → Option (List Value)
  | list items => some items
  | tables elements => some (elements.map (table .headed))
  | _ => none

end ShaderStack.Toml
