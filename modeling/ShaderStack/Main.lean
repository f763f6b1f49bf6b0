import ShaderStack.CommandLine.Run
import ShaderStack.Picture.Png

/-! The program: reads the arguments and files, prints, and writes the picture. -/
namespace ShaderStack.Main

def usage : String :=
  "Compile and replay shader template scenes\n\n" ++
    "usage:\n" ++
    "  scenes\n" ++
    "  compile SCENE\n" ++
    "  replay SCENE [--frames N] [--config FILE] [--size WIDTHxHEIGHT] [--export PATH] [--json]\n"

def version : String := "0.1.0\n"

def numbered (e : IO.Error) (code : UInt32) : FileFault :=
  match (min code (0 - code)).toNat with
  | 20 => .notADirectory
  | 21 => .isDirectory
  | 36 => .nameTooLong
  | _ => .other e.toString

/-- Some calls give the number of their fault negated. -/
def fault : IO.Error → FileFault
  | .noFileOrDirectory _ _ _ => .missing
  | e@(.inappropriateType _ code _) => numbered e code
  | e@(.invalidArgument _ code _) => numbered e code
  | e => .other e.toString

/-- Runs a file action and keeps its fault. -/
def guarded (action : IO α) : IO (Except FileFault α) := do
  try
    return .ok (← action)
  catch e =>
    return .error (fault e)

def readSettings : Option String → IO (Except FileFault ByteArray)
  | some path => guarded (IO.FS.readBinFile path)
  | none => return .error .missing

/-- Prints an outcome and gives the exit code. -/
def report (o : Outcome) : IO UInt32 := do
  IO.print o.output
  match o.ending with
  | .failed chain =>
    IO.eprintln (": ".intercalate ("Error" :: chain))
    return 1
  | .crashed => return 101
  | _ => return 0

def finish (o : Outcome) : IO UInt32 := do
  match o.ending with
  | .save path picture =>
    report (o.afterSave (← guarded (IO.FS.writeBinFile path (Png.encode picture))))
  | _ => report o

def refuse (e : UsageError) : IO UInt32 := do
  match e with
  | .help =>
    IO.print usage
    return 0
  | .version =>
    IO.print version
    return 0
  | e =>
    IO.eprint s!"error: {e.name}\n\n{usage}"
    return 2

end ShaderStack.Main

def main (arguments : List String) : IO UInt32 := do
  match ShaderStack.CommandLine.ofArguments arguments with
  | .error e => ShaderStack.Main.refuse e
  | .ok command =>
    ShaderStack.Main.finish (command.run (← ShaderStack.Main.readSettings command.settingsPath?))
