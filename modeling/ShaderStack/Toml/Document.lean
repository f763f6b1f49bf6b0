import ShaderStack.Toml.Scalar
import ShaderStack.Toml.Table

/-! TOML documents: lines of keys and values under headers. -/
namespace ShaderStack.Toml

open Reader

def isBareKeyChar (c : Char) : Bool := c.isAlphanum || c == '-' || c == '_'

def keyPart : Reader String :=
  basicString <|> literalString <|> do
    let first ← satisfy isBareKeyChar
    return String.ofList (first :: (← takeWhile isBareKeyChar))

/-- Parts of a dotted key and brackets around a value number less than this. -/
def nestingLimit : Nat := 80

/-- A key with the blank space around its parts. -/
def keyPath : Reader KeyPath := do
  let parts ← separated (blanks *> keyPart <* blanks) (char '.')
  match parts.reverse with
  | [] => failure
  | key :: parents =>
    if parts.length < nestingLimit then return ⟨parents.reverse, key⟩ else failure

/-- A key, an equals sign and a value. -/
def pair (value : Reader Value) : Reader (KeyPath × Value) := do
  let path ← keyPath
  char '='
  blanks
  return (path, ← value)

/-- Values between square brackets, over any number of lines; the last one may have a comma. -/
def listOf (value : Reader Value) : Reader Value := do
  char '['
  let items ← separated (anyBlanks *> value <* anyBlanks) (char ',')
  if !items.isEmpty then discard (maybe (char ','))
  anyBlanks
  char ']'
  return .list items

/-- Keys and values between braces, on one line. -/
def tableOf (value : Reader Value) : Reader Value := do
  char '\x7b'
  let pairs ← separated (pair value <* blanks) (char ',')
  blanks
  char '\x7d'
  match Entries.ofPairs pairs with
  | some entries => return .table .inlined entries
  | none => failure

/-- A value with at most `depth` brackets around any part of it. -/
def value : Nat → Reader Value
  | 0 => scalar
  | depth + 1 => scalar <|> listOf (value depth) <|> tableOf (value depth)

inductive Header
  | table (path : KeyPath)
  | element (path : KeyPath)

inductive Line
  | empty
  | header (h : Header)
  | entry (path : KeyPath) (value : Value)

def header : Reader Header :=
  (do
    literal ['[', '[']
    let path ← keyPath
    literal [']', ']']
    return .element path) <|>
  (do
    char '['
    let path ← keyPath
    char ']'
    return .table path)

/-- One line with its end and the blank space that starts the next one. -/
def line : Reader Line :=
  (newline *> pure Line.empty <|>
    comment *> lineEnd *> pure Line.empty <|>
    Line.header <$> header <* restOfLine <|>
    (fun (path, v) => Line.entry path v) <$> pair (value (nestingLimit - 1)) <* restOfLine) <* blanks

def lines : Reader (List Line) :=
  maybe (char '\ufeff') *> blanks *> many line <* atEnd

/-- The entries before the first header, and each header with the entries below it. -/
def sections : List Line → List (KeyPath × Value) × List (Header × List (KeyPath × Value))
  | [] => ([], [])
  | .empty :: rest => sections rest
  | .entry path value :: rest =>
    let (entries, headed) := sections rest
    ((path, value) :: entries, headed)
  | .header h :: rest =>
    let (entries, headed) := sections rest
    ([], (h, entries) :: headed)

def Header.apply (entries : List (KeyPath × Value)) (root : Entries) : Header → Option Entries
  | table path => Entries.define path entries root
  | element path => Entries.append path entries root

/-- The tables that a document defines, if it is well formed. -/
def ofText? (text : String) : Option Entries := do
  let (ls, _) ← lines.run text.toList
  let (top, headed) := sections ls
  headed.foldlM (fun root (h, entries) => h.apply entries root) (← Entries.insertAll top [])

end ShaderStack.Toml
