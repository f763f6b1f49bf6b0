/-! White space and the cutting of source text into lines and words.

Text is handled as a list of characters, so every cut lies between two characters. -/
namespace ShaderStack.Text

/-- The characters with the Unicode property White_Space. -/
def isBlank (c : Char) : Bool :=
  let n := c.toNat
  (0x9 ≤ n && n ≤ 0xd) || n == 0x20 || n == 0x85 || n == 0xa0 || n == 0x1680 ||
    (0x2000 ≤ n && n ≤ 0x200a) || n == 0x2028 || n == 0x2029 || n == 0x202f ||
    n == 0x205f || n == 0x3000

def trimLeft (cs : List Char) : List Char := cs.dropWhile isBlank

def trimRight (cs : List Char) : List Char := (cs.reverse.dropWhile isBlank).reverse

def trim (cs : List Char) : List Char := trimRight (trimLeft cs)

def isAllBlank (cs : List Char) : Bool := cs.all isBlank

/-- Lines with their newlines; joined together they are the text again. -/
def linesInclusive : List Char → List (List Char)
  | [] => []
  | c :: cs =>
    if c = '\n' then ['\n'] :: linesInclusive cs
    else
      match linesInclusive cs with
      | [] => [[c]]
      | line :: more => (c :: line) :: more

/-- A line without its newline and without a carriage return before that. -/
def withoutLineEnd (line : List Char) : List Char :=
  match line.reverse with
  | '\n' :: '\r' :: rest => rest.reverse
  | '\n' :: rest => rest.reverse
  | _ => line

def lines (cs : List Char) : List (List Char) := (linesInclusive cs).map withoutLineEnd

/-- The pieces between separators, empty ones included; there is always one. -/
def splitBy (separates : Char → Bool) : List Char → List (List Char)
  | [] => [[]]
  | c :: cs =>
    if separates c then [] :: splitBy separates cs
    else
      match splitBy separates cs with
      | [] => [[c]]
      | piece :: more => (c :: piece) :: more

/-- The runs of characters that are not white space. -/
def words (cs : List Char) : List (List Char) :=
  (splitBy isBlank cs).filter fun word => !word.isEmpty

/-- What precedes the first two slashes in a row. -/
def beforeComment : List Char → List Char
  | '/' :: '/' :: _ => []
  | c :: cs => c :: beforeComment cs
  | [] => []

/-- Whether `part` occurs as a contiguous run. -/
def occurs (part : List Char) : List Char → Bool
  | [] => part.isEmpty
  | c :: cs => part.isPrefixOf (c :: cs) || occurs part cs

def isIdentifierChar (c : Char) : Bool := c.isAlphanum || c == '_'

/-- A letter or underscore followed by letters, digits and underscores, all of them ASCII. -/
def isIdentifier : List Char → Bool
  | [] => false
  | c :: cs => (c.isAlpha || c == '_') && cs.all isIdentifierChar

end ShaderStack.Text
