import ShaderStack.Number.Decimal
import ShaderStack.Text.Blank
import ShaderStack.Text.Visible

/-! Fields of settings and arguments: keywords, whole numbers, parts of file paths, and the quotation of
a text in a message. -/
namespace ShaderStack.Text

section Keywords

def lowercase (s : String) : String := String.ofList (s.toList.map Char.toLower)

def trimmed (s : String) : String := String.ofList (trim s.toList)

/-- The space around a keyword and the case of its ASCII letters do not count. -/
def keyword (s : String) : String := lowercase (trimmed s)

end Keywords

section Integers

/-- ASCII digits and nothing else. -/
def digits? (text : List Char) : Option Nat :=
  if !text.isEmpty && text.all Char.isDigit then some (Decimal.natOfDigits text) else none

/-- A number below `limit`; the only sign is a plus. -/
def natural? (limit : Nat) (text : List Char) : Option Nat := do
  let n ←
    match text with
    | '+' :: rest => digits? rest
    | _ => digits? text
  if n < limit then some n else none

def integer? (text : List Char) : Option Int :=
  match text with
  | '-' :: rest => (digits? rest).map fun n => - (n : Int)
  | '+' :: rest => (digits? rest).map Int.ofNat
  | _ => (digits? text).map Int.ofNat

end Integers

namespace Path

/-- The names between slashes. Empty ones and single dots do not count. -/
def components (path : List Char) : List (List Char) :=
  (splitBy (· == '/') path).filter fun name => !name.isEmpty && name != ['.']

/-- The last name, unless it leads to a parent directory. -/
def fileName? (path : List Char) : Option (List Char) := do
  let name ← (components path).getLast?
  if name = ['.', '.'] then none else some name

/-- What follows the last dot of the file name. A dot at its start does not count. -/
def extension? (path : List Char) : Option (List Char) := do
  let name ← fileName? path
  let after := (name.reverse.takeWhile (· != '.')).reverse
  if name.length ≤ after.length + 1 then none else some after

end Path

section Quotation

def hexDigits (n : Nat) : String := String.ofList (Nat.toDigits 16 n)

def escapeChar (c : Char) : String :=
  if c = '"' then "\\\""
  else if c = '\\' then "\\\\"
  else if c = '\n' then "\\n"
  else if c = '\r' then "\\r"
  else if c = '\t' then "\\t"
  else if c = '\x00' then "\\0"
  else if isVisible c then String.singleton c
  else "\\u\x7b" ++ hexDigits c.toNat ++ "\x7d"

/-- Text between double quotes, with escapes for all that cannot be seen. -/
def quoted (s : String) : String := "\"" ++ String.join (s.toList.map escapeChar) ++ "\""

end Quotation

end ShaderStack.Text
