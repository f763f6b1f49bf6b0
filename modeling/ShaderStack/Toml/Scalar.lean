import ShaderStack.Toml.Reader
import ShaderStack.Toml.Value

/-! Blank space, strings, numbers and dates of a TOML document. -/
namespace ShaderStack.Toml

open Reader

/-- Controls other than the tab never stand for themselves. -/
def isPlain (c : Char) : Bool := c == '\t' || (0x20 ≤ c.toNat && c.toNat ≠ 0x7f)

def blanks : Reader Unit := discard (takeWhile fun c => c == ' ' || c == '\t')

def newline : Reader Unit := char '\n' <|> literal ['\r', '\n']

def comment : Reader Unit := char '#' *> discard (takeWhile isPlain)

/-- A newline, or the end of the document. -/
def lineEnd : Reader Unit := newline <|> atEnd

/-- What may follow a header or a value on its line. -/
def restOfLine : Reader Unit := blanks *> discard (maybe comment) *> lineEnd

/-- Blank space that may run over lines and hold comments. -/
def anyBlanks : Reader Unit :=
  blanks *> discard (many (maybe comment *> newline *> blanks))

/-! Strings. -/

def isHexDigit (c : Char) : Bool :=
  c.isDigit || ('a' ≤ c && c ≤ 'f') || ('A' ≤ c && c ≤ 'F')

def hexDigitValue (c : Char) : Nat :=
  if c.isDigit then c.toNat - '0'.toNat else c.toLower.toNat - 'a'.toNat + 10

/-- A run of digits read in a base of at most 16. -/
def natOfBase (base : Nat) (digits : List Char) : Nat :=
  digits.foldl (fun total c => base * total + hexDigitValue c) 0

/-- The character with the code point that `count` digits give, if there is one. -/
def codePoint (count : Nat) : Reader Char := do
  let n := natOfBase 16 (← exactly isHexDigit count)
  if n.isValidChar then return Char.ofNat n else failure

/-- An escape, from its backslash on. -/
def escape : Reader Char := do
  char '\\'
  match ← satisfy fun _ => true with
  | 'b' => return '\x08'
  | 't' => return '\t'
  | 'n' => return '\n'
  | 'f' => return '\x0c'
  | 'r' => return '\r'
  | '"' => return '"'
  | '\\' => return '\\'
  | 'u' => codePoint 4
  | 'U' => codePoint 8
  | _ => failure

def basicChar : Reader Char := satisfy (fun c => isPlain c && c != '"' && c != '\\') <|> escape

def basicString : Reader String := do
  char '"'
  let content ← many basicChar
  char '"'
  return String.ofList content

def literalChar : Reader Char := satisfy fun c => isPlain c && c != '\''

def literalString : Reader String := do
  char '\''
  let content ← many literalChar
  char '\''
  return String.ofList content

def lineBreak : Reader (List Char) := newline *> pure ['\n']

/-- A backslash at the end of a line, which swallows the blank space up to the next text. -/
def continuation : Reader (List Char) := do
  char '\\'
  blanks
  newline
  discard (many (newline <|> discard (satisfy fun c => c == ' ' || c == '\t')))
  return []

/-- Up to two quotes may end the content of a string over several lines, right before the three
that close it. -/
def closing (quote : Char) : Reader (List Char) := do
  literal [quote, quote, quote]
  upTo (satisfy (· == quote)) 2

/-- A string over several lines. A newline right after the opening quotes does not count. -/
def multiLine (quote : Char) (part : Reader (List Char)) : Reader String := do
  literal [quote, quote, quote]
  discard (maybe newline)
  let inner : Reader (List Char) := do
    notAhead [quote, quote, quote]
    return [← satisfy (· == quote)]
  let content ← many (part <|> inner)
  let last ← closing quote
  return String.ofList (content.flatten ++ last)

def string : Reader String :=
  multiLine '"' (continuation <|> (fun c => [c]) <$> basicChar <|> lineBreak) <|>
    basicString <|>
    multiLine '\'' ((fun c => [c]) <$> literalChar <|> lineBreak) <|>
    literalString

/-! Numbers. -/

/-- Digits with single underscores between them, which are dropped. -/
def digitRun (isDigit : Char → Bool) : Reader (List Char) := do
  let first ← satisfy isDigit
  return first :: (← many (satisfy isDigit <|> char '_' *> satisfy isDigit))

/-- Whether a number is negative. -/
def sign : Reader Bool :=
  char '-' *> pure true <|> char '+' *> pure false <|> pure false

/-- Decimal digits without a leading zero. -/
def wholePart : Reader (List Char) := do
  let digits ← maybe (notAhead ['0'] *> digitRun Char.isDigit)
  match digits with
  | some digits => return digits
  | none => return [← satisfy (· == '0')]

/-- Integers have 64 bits. -/
def bounded (n : Int) : Reader Int :=
  if -0x8000000000000000 ≤ n ∧ n < 0x8000000000000000 then pure n else failure

def based (mark : Char) (base : Nat) (isDigit : Char → Bool) : Reader Int := do
  literal ['0', mark]
  bounded (natOfBase base (← digitRun isDigit))

def integer : Reader Int :=
  based 'x' 16 isHexDigit <|>
    based 'o' 8 (fun c => '0' ≤ c && c ≤ '7') <|>
    based 'b' 2 (fun c => c == '0' || c == '1') <|>
    do
      let negative ← sign
      let n : Int := natOfBase 10 (← wholePart)
      bounded (if negative then -n else n)

def exponent : Reader Int := do
  discard (satisfy fun c => c == 'e' || c == 'E')
  let negative ← sign
  let n : Int := natOfBase 10 (← digitRun Char.isDigit)
  return if negative then -n else n

/-- A number with a fraction, an exponent or both. One that overflows upwards is refused. -/
def decimal : Reader Double := do
  let negative ← sign
  let whole ← wholePart
  let fraction ← maybe (char '.' *> digitRun Char.isDigit)
  let power ← maybe exponent
  if fraction.isNone && power.isNone then failure
  let x := Double.ofDecimal (.ofDigits negative whole (fraction.getD []) (power.getD 0))
  if x = .infinity then failure else return x

def special : Reader Double := do
  let negative ← sign
  let x ← literal ['i', 'n', 'f'] *> pure Double.infinity <|>
    literal ['n', 'a', 'n'] *> pure Double.nan
  return x.withSign negative

/-! Dates and times. -/

/-- A number of two digits within bounds. -/
def twoDigits (low high : Nat) : Reader Nat := do
  let n := natOfBase 10 (← exactly Char.isDigit 2)
  if low ≤ n ∧ n ≤ high then return n else failure

def daysInMonth (year month : Nat) : Nat :=
  let leap := year % 4 = 0 ∧ (year % 100 ≠ 0 ∨ year % 400 = 0)
  if month = 2 then if leap then 29 else 28
  else if month = 4 ∨ month = 6 ∨ month = 9 ∨ month = 11 then 30
  else 31

def date : Reader Unit := do
  let year := natOfBase 10 (← exactly Char.isDigit 4)
  char '-'
  let month ← twoDigits 1 12
  char '-'
  discard (twoDigits 1 (daysInMonth year month))

def time : Reader Unit := do
  discard (twoDigits 0 23)
  char ':'
  discard (twoDigits 0 59)
  char ':'
  discard (twoDigits 0 60)
  discard (maybe (char '.' *> satisfy Char.isDigit *> takeWhile Char.isDigit))

def offset : Reader Unit :=
  discard (satisfy fun c => c == 'Z' || c == 'z') <|> do
    discard (satisfy fun c => c == '+' || c == '-')
    discard (twoDigits 0 23)
    char ':'
    discard (twoDigits 0 59)

def moment : Reader Unit :=
  (do
    date
    discard (maybe (do
      discard (satisfy fun c => c == 'T' || c == 't' || c == ' ')
      time
      discard (maybe offset)))) <|>
  time

/-- Every value that is not a container. -/
def scalar : Reader Value :=
  Value.text <$> string <|>
    moment *> pure .moment <|>
    Value.real <$> decimal <|>
    Value.real <$> special <|>
    Value.integer <$> integer <|>
    literal ['t', 'r', 'u', 'e'] *> pure (.flag true) <|>
    literal ['f', 'a', 'l', 's', 'e'] *> pure (.flag false)

end ShaderStack.Toml
