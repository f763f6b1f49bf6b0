/-! Reading from the front of a text. -/
namespace ShaderStack.Toml

/-- Takes a part from the front of a text and leaves the rest, or refuses. -/
abbrev Reader := StateT (List Char) Option

namespace Reader

variable {α : Type}

def satisfy (p : Char → Bool) : Reader Char
  | c :: rest => if p c then some (c, rest) else none
  | [] => none

def char (c : Char) : Reader Unit := discard (satisfy (· == c))

def takeWhile (p : Char → Bool) : Reader (List Char) := fun text =>
  some (text.takeWhile p, text.dropWhile p)

def literal (word : List Char) : Reader Unit := fun text =>
  if word.isPrefixOf text then some ((), text.drop word.length) else none

/-- Succeeds, without taking anything, unless the text goes on with `word`. -/
def notAhead (word : List Char) : Reader Unit := fun text =>
  if word.isPrefixOf text then none else some ((), text)

def atEnd : Reader Unit := fun text => if text.isEmpty then some ((), text) else none

/-- Takes nothing where `item` refuses. -/
def maybe (item : Reader α) : Reader (Option α) := (some <$> item) <|> pure none

/-- At most `limit` items. -/
def upTo (item : Reader α) : Nat → Reader (List α)
  | 0 => pure []
  | limit + 1 => do
    match ← maybe item with
    | some first => return first :: (← upTo item limit)
    | none => return []

/-- As many items as there are. An item takes at least one character, so the length of the text
bounds their number. -/
def many (item : Reader α) : Reader (List α) := do upTo item (← get).length

/-- Items with a separator between every two. -/
def separated (item : Reader α) (separator : Reader Unit) : Reader (List α) := do
  match ← maybe item with
  | some first => return first :: (← many (separator *> item))
  | none => return []

/-- Exactly `count` characters of a class. -/
def exactly (p : Char → Bool) : Nat → Reader (List Char)
  | 0 => pure []
  | count + 1 => do return (← satisfy p) :: (← exactly p count)

end Reader
end ShaderStack.Toml
