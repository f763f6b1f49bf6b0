import ShaderStack.CommandLine.Argument

/-! The command line: words, options and their values.

Arguments are settled one after another: the value of an option is checked when the next argument
is read, so of several faults the first one on the line is reported. An option that does not exist
is reported before anything that is still unsettled. -/
namespace ShaderStack

/-- Why a command line gives no command. -/
inductive UsageError
  | help
  | version
  | noCommand
  | unknownCommand
  | unknownArgument
  /-- An option without its value. -/
  | emptyValue
  | invalidValue
  /-- A value for an option that takes none. -/
  | surplusValue
  | repeatedOption
  | missingArgument
  deriving DecidableEq, Repr

def UsageError.name : UsageError → String
  | help => "DisplayHelp"
  | version => "DisplayVersion"
  | noCommand => "DisplayHelpOnMissingArgumentOrSubcommand"
  | unknownCommand => "InvalidSubcommand"
  | unknownArgument => "UnknownArgument"
  | emptyValue => "InvalidValue"
  | invalidValue => "ValueValidation"
  | surplusValue => "TooManyValues"
  | repeatedOption => "ArgumentConflict"
  | missingArgument => "MissingRequiredArgument"

structure ReplayOptions where
  frames : Nat := 3
  settings : Option String := none
  width : UInt32 := 100
  height : UInt32 := 100
  picture : Option String := none
  json : Bool := false
  deriving DecidableEq, Repr

inductive CommandLine
  | scenes
  | compile (scene : SceneKind)
  | replay (scene : SceneKind) (options : ReplayOptions)
  deriving DecidableEq, Repr

/-- One argument as it is spelled. -/
inductive Spelling
  /-- Two dashes: all that follows are plain words. -/
  | escape
  | long (name : String) (value : Option String)
  | short (letter : Char)
  | word

/-- The text before and after the first equals sign. -/
def splitAtEquals (text : List Char) : String × Option String :=
  let name := String.ofList (text.takeWhile (· != '='))
  match text.dropWhile (· != '=') with
  | _ :: value => (name, some (String.ofList value))
  | [] => (name, none)

def Spelling.ofText (text : String) : Spelling :=
  match text.toList with
  | ['-', '-'] => escape
  | '-' :: '-' :: rest =>
    let (name, value) := splitAtEquals rest
    long name value
  | '-' :: letter :: _ => short letter
  | _ => word

/-- What one command understands. -/
structure Grammar (σ : Type) where
  /-- Options with a value. -/
  valued : List String
  flags : List String
  /-- The one plain word that is understood. -/
  positional : Option String
  /-- Takes the checked value of an argument in; flags have none. -/
  assign : String → String → σ → Except UsageError σ

/-- How far a command line was read. -/
structure Scan (σ : Type) where
  result : σ
  /-- Names of the arguments that are settled. -/
  settled : List String := []
  /-- An argument that is not settled yet, with its value if it has one. -/
  pending : Option (String × Option String) := none
  /-- Whether the plain word was given. -/
  positioned : Bool := false

namespace Grammar

variable {σ : Type}

def give (g : Grammar σ) (name value : String) (s : Scan σ) : Except UsageError (Scan σ) :=
  if s.settled.contains name then .error .repeatedOption
  else do return { s with result := ← g.assign name value s.result, settled := name :: s.settled }

def settle (g : Grammar σ) (s : Scan σ) : Except UsageError (Scan σ) :=
  match s.pending with
  | none => .ok s
  | some (_, none) => .error .emptyValue
  | some (name, some value) => g.give name value { s with pending := none }

/-- Settles what was pending and ends in `outcome`. -/
def leave (g : Grammar σ) (s : Scan σ) (outcome : UsageError) : Except UsageError (Scan σ) := do
  discard (g.settle s)
  throw outcome

def takeWord (g : Grammar σ) (word : String) (s : Scan σ) : Except UsageError (Scan σ) := do
  match g.positional with
  | none => throw .unknownArgument
  | some name =>
    if s.positioned then throw .unknownArgument
    return { ← g.settle s with pending := some (name, some word), positioned := true }

def takeLong (g : Grammar σ) (name : String) (value : Option String) (s : Scan σ) :
    Except UsageError (Scan σ) := do
  if g.valued.contains name then
    let s ← g.settle s
    match value with
    | some value => g.give name value s
    | none => return { s with pending := some (name, none) }
  else if g.flags.contains name || name = "help" then
    if value.isSome then throw .surplusValue
    if name = "help" then g.leave s .help
    else g.give name "" (← g.settle s)
  else throw .unknownArgument

/-- A word is the value of an option that waits for one, else the plain argument. -/
def takeValue (g : Grammar σ) (word : String) (s : Scan σ) : Except UsageError (Scan σ) :=
  match s.pending with
  | some (name, none) => .ok { s with pending := some (name, some word) }
  | _ => g.takeWord word s

/-- Reads arguments; the flag tells whether two dashes came before. -/
def scan (g : Grammar σ) : Bool → List String → Scan σ → Except UsageError (Scan σ)
  | _, [], s => g.settle s
  | true, a :: rest, s => do g.scan true rest (← g.takeWord a s)
  | false, a :: rest, s =>
    match Spelling.ofText a with
    | .escape => g.scan true rest s
    | .long name value => do g.scan false rest (← g.takeLong name value s)
    | .short letter => if letter = 'h' then g.leave s .help else .error .unknownArgument
    | .word => do g.scan false rest (← g.takeValue a s)

def read (g : Grammar σ) (initial : σ) (arguments : List String) : Except UsageError σ := do
  return (← g.scan false arguments { result := initial }).result

end Grammar

namespace CommandLine

/-- Checks a value; the reason why it is refused is not part of the error. -/
def checked : Except ArgumentError α → Except UsageError α
  | .ok a => .ok a
  | .error _ => .error .invalidValue

def sceneWord : String := "SCENE"

/-- Requires the scene that a command is about. -/
def withScene (make : SceneKind → CommandLine) : Option SceneKind → Except UsageError CommandLine
  | some scene => .ok (make scene)
  | none => .error .missingArgument

def scenesGrammar : Grammar Unit :=
  { valued := [], flags := [], positional := none, assign := fun _ _ s => .ok s }

def compileGrammar : Grammar (Option SceneKind) :=
  { valued := [], flags := [], positional := some sceneWord
    assign := fun _ value _ => do return some (← checked (Argument.scene value)) }

def assignReplay (name value : String) (s : Option SceneKind × ReplayOptions) :
    Except UsageError (Option SceneKind × ReplayOptions) := do
  let (scene, options) := s
  match name with
  | "frames" =>
    match Argument.frames? value with
    | some frames => return (scene, { options with frames })
    | none => throw .invalidValue
  | "config" =>
    if value.isEmpty then throw .emptyValue
    return (scene, { options with settings := some value })
  | "size" =>
    let (width, height) ← checked (Argument.size value)
    return (scene, { options with width, height })
  | "export" => return (scene, { options with picture := some (← checked (Argument.exportPath value)) })
  | "json" => return (scene, { options with json := true })
  | _ => return (some (← checked (Argument.scene value)), options)

def replayGrammar : Grammar (Option SceneKind × ReplayOptions) :=
  { valued := ["frames", "config", "size", "export"], flags := ["json"]
    positional := some sceneWord, assign := assignReplay }

def names : List String := ["scenes", "compile", "replay", "help"]

/-- Help on the whole or on one command. -/
def helpOn : List String → UsageError
  | [] => .help
  | [name] => if names.contains name then .help else .unknownCommand
  | _ => .unknownCommand

/-- What precedes the command can only ask for help or the version, or be wrong. -/
def leading (argument : String) (rest : List String) : UsageError :=
  match Spelling.ofText argument with
  | .escape =>
    match rest with
    | [] => .noCommand
    | word :: _ => if names.contains word then .unknownArgument else .unknownCommand
  | .long name value =>
    if name = "help" ∨ name = "version" then
      if value.isSome then .surplusValue else if name = "help" then .help else .version
    else .unknownArgument
  | .short letter =>
    if letter = 'h' then .help else if letter = 'V' then .version else .unknownArgument
  | .word => .unknownCommand

/-- The command that a command line asks for. -/
def ofArguments : List String → Except UsageError CommandLine
  | [] => .error .noCommand
  | "scenes" :: rest => do
    scenesGrammar.read () rest
    return .scenes
  | "compile" :: rest => do withScene .compile (← compileGrammar.read none rest)
  | "replay" :: rest => do
    let (scene, options) ← replayGrammar.read (none, {}) rest
    withScene (fun scene => .replay scene options) scene
  | "help" :: rest => .error (helpOn rest)
  | argument :: rest => .error (leading argument rest)

end CommandLine
end ShaderStack
