import ShaderStack.CommandLine.Usage
import ShaderStack.File.Tree
import ShaderStack.Scene.Replay
import ShaderStack.Settings.Check

/-! What commands print and leave behind. -/
namespace ShaderStack

/-- How a command ends, apart from what it prints. -/
inductive Ending
  | done
  /-- A picture is to be written; the command goes on after that. -/
  | save (path : String) (picture : Picture)
  | failed (chain : List String)
  /-- A frame cap has no interval; nothing is reported. -/
  | crashed

structure Outcome where
  output : String
  ending : Ending

namespace Outcome

/-- The outcome after a picture was written, or was not. -/
def afterSave (written : Except FileFault Unit) (o : Outcome) : Outcome :=
  match o.ending with
  | .save path _ =>
    match written with
    | .ok () => { output := o.output ++ s!"exported {path}\n", ending := .done }
    | .error fault => { o with ending := .failed (ReplayError.write path fault).chain }
  | _ => o

end Outcome

namespace CommandLine

def padLeft (width : Nat) (s : String) : String := "".pushn ' ' (width - s.length) ++ s

def padRight (width : Nat) (s : String) : String := s.pushn ' ' (width - s.length)

def sceneList : String :=
  "Bundled scenes:\n" ++ String.join (SceneKind.all.map fun kind =>
    s!"  {padRight 16 kind.name} {kind.description}\n")

/-- The generated sources of a pass. -/
def passSources (p : Pass) : String :=
  s!"// ---- {p.label} vertex ({p.target.title}) ----\n{p.vertex.compile.source}\n" ++
    s!"// ---- {p.label} fragment ----\n{p.fragment.compile.source}\n"

def jsonObject (fields : List (String × String)) : String :=
  "\x7b" ++ ",".intercalate (fields.map fun (key, value) => s!"\"{key}\":{value}") ++ "\x7d"

/-- Totals by name, in alphabetical order. -/
def statsJson (s : CallStats) : String :=
  jsonObject [("buffer_uploads", toString s.bufferUploads), ("draws", toString s.draws),
    ("framebuffers", toString s.framebuffers), ("links", toString s.links),
    ("reads", toString s.reads), ("texture_uploads", toString s.textureUploads),
    ("uniform_pushes", toString s.uniformPushes), ("vertex_pointers", toString s.vertexPointers)]

def reportLine (json : Bool) (r : FrameReport) : String :=
  if json then
    jsonObject [("drawn", toString r.drawn), ("frame", toString r.frame),
      ("stats", statsJson r.stats)] ++ "\n"
  else
    s!"frame {padLeft 3 (toString r.frame)}: drawn={r.drawn} draws={r.stats.draws} " ++
      s!"buffer_uploads={r.stats.bufferUploads} texture_uploads={r.stats.textureUploads} " ++
      s!"uniforms={r.stats.uniformPushes} links={r.stats.links}\n"

def failure (output : String) (e : ReplayError) : Outcome :=
  match e with
  | .schedule (.unboundedInterval _) => { output, ending := .crashed }
  | e => { output, ending := .failed e.chain }

/-- Reads the last frame back, and makes the picture if one is asked for. -/
def finishReplay (options : ReplayOptions) (settings : Settings) (output : String) (r : Replay) :
    Outcome :=
  match r.read settings.readback .readback with
  | .error e => failure output e
  | .ok (_, r) =>
    match options.picture with
    | none => { output, ending := .done }
    | some path =>
      match r.picture with
      | .error e => failure output e
      | .ok picture => { output, ending := .save path picture }

def replayScene (scene : SceneKind) (options : ReplayOptions) (settings : Settings) : Outcome :=
  match Replay.start scene settings options.width options.height with
  | .error e => failure "" e
  | .ok r =>
    let (reports, r) := r.play options.frames
    finishReplay options settings (String.join (reports.map (reportLine options.json))) r

def compileScene (kind : SceneKind) : Outcome :=
  match (Scene.build kind).run.run {} with
  | (.ok scene, _) => { output := String.join (scene.passes.map passSources), ending := .done }
  | (.error e, _) => failure "" (.build kind e)

/-- The file that a command reads its settings from. -/
def settingsPath? : CommandLine → Option String
  | replay _ options => options.settings
  | _ => none

/-- Runs a command. The file is what its settings path gave. -/
def run (file : Except FileFault ByteArray) : CommandLine → Outcome
  | scenes => { output := sceneList, ending := .done }
  | compile kind => compileScene kind
  | replay kind options =>
    match options.settings with
    | none => replayScene kind options {}
    | some path =>
      match Settings.ofFile file with
      | .ok settings => replayScene kind options settings
      | .error e => failure "" (.settings path e)

/-- Runs a command among files. With the outcome comes the picture that was written, if any, and
its path. -/
def runAmong (files : FileTree) (c : CommandLine) : Outcome × Option (String × Picture) :=
  let o := c.run ((c.settingsPath?.map files.read).getD (.error .missing))
  match o.ending with
  | .save path picture =>
    let written := files.checkWrite path
    (o.afterSave written, if written.isOk then some (path, picture) else none)
  | _ => (o, none)

end CommandLine
end ShaderStack
