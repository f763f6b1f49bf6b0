import ShaderStack.Text.Blank

/-! The preamble of a shader text: version, extension and precision lines, with blank and
comment lines between them. Declarations are inserted right after it. -/
namespace ShaderStack.Preamble

/-- How much of one line belongs to the preamble. -/
inductive Extent
  | whole
  /-- A precision statement with more text behind its semicolon. -/
  | upTo (count : Nat)
  | nothing
  deriving DecidableEq, Repr

/-- The number of characters up to and including the first semicolon. -/
def throughSemicolon (line : List Char) : Option Nat :=
  (line.findIdx? (· == ';')).map (· + 1)

def startsWith (start : String) (line : List Char) : Bool := start.toList.isPrefixOf line

def extent (line : List Char) : Extent :=
  let trimmed := Text.trim line
  if startsWith "precision" trimmed then
    match throughSemicolon line with
    | some count => if Text.isAllBlank (line.drop count) then .whole else .upTo count
    | none => .whole
  else if trimmed.isEmpty || startsWith "#version" trimmed || startsWith "#extension" trimmed ||
      startsWith "//" trimmed then .whole
  else .nothing

/-- Cuts lines where the preamble ends. Both parts joined together are the lines joined. -/
def splitLines : List (List Char) → List Char × List Char
  | [] => ([], [])
  | line :: more =>
    match extent line with
    | .whole => let (preamble, rest) := splitLines more; (line ++ preamble, rest)
    | .upTo count => (line.take count, line.drop count ++ more.flatten)
    | .nothing => ([], line ++ more.flatten)

/-- The preamble of a text, and the rest. -/
def split (body : List Char) : List Char × List Char := splitLines (Text.linesInclusive body)

def isMargin (c : Char) : Bool := c == ' ' || c == '\t'

/-- The preamble on lines of its own, the declarations one a line, and the rest without the
margin it starts with. -/
def insert (declarations : List (List Char)) (body : List Char) : List Char :=
  let (preamble, rest) := split body
  let lineBreak := if preamble.isEmpty || preamble.getLast? = some '\n' then [] else ['\n']
  preamble ++ lineBreak ++ declarations.flatMap (· ++ ['\n']) ++ rest.dropWhile isMargin

end ShaderStack.Preamble
