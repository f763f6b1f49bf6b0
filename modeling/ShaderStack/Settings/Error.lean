import ShaderStack.File.Fault
import ShaderStack.Settings.Basic
import ShaderStack.Text.Field
import ShaderStack.Toml.Value

/-! Why settings are refused. -/
namespace ShaderStack

/-- Why a document does not give settings. -/
inductive DecodeFault
  | malformed
  | wrongType (found : Toml.Value) (expected : String)
  | outOfRange (found : Int) (expected : String)
  /-- A choice that is neither a word nor a table with a single key. -/
  | notAChoice
  | unknownChoice (found : String) (choices : List String)
  | missingVersion
  | schedule (found : String)
  | fps (found : String)

/-- How error messages name a value. -/
def Toml.Value.phrase : Toml.Value → String
  | text s => "string " ++ Text.quoted s
  | integer n => s!"integer `{n}`"
  | real x => s!"floating point `{x.textWithPoint}`"
  | flag b => s!"boolean `{b}`"
  | list _ | tables _ => "sequence"
  | moment | table _ _ => "map"

namespace DecodeFault

def inTicks (word : String) : String := "`" ++ word ++ "`"

def choiceText : List String → String
  | [a, b] => s!"{inTicks a} or {inTicks b}"
  | choices => "one of " ++ ", ".intercalate (choices.map inTicks)

/-- What the document means when it is wrong; faults of its form have no text of their own. -/
def message? : DecodeFault → Option String
  | malformed | outOfRange _ _ | notAChoice => none
  | wrongType found expected => s!"invalid type: {found.phrase}, expected {expected}"
  | unknownChoice found choices =>
    s!"unknown variant {inTicks found}, expected {choiceText choices}"
  | missingVersion => "missing field `version`"
  | schedule found => s!"invalid schedule '{Text.keyword found}'"
  | fps found =>
    let why :=
      if (Text.keyword found).isEmpty then "cannot parse float from empty string"
      else "invalid float literal"
    s!"invalid fps '{found}': {why}"

end DecodeFault

/-- Why decoded settings cannot be used. -/
inductive SettingsFault
  | version (found : UInt32)
  | negativeFps
  | fpsOnDemand
  | emptyReadback
  | luminance
  | formatMismatch (type : PixelType) (internal : InternalFormat)
  | floatDisabled (internal : InternalFormat)
  deriving DecidableEq, Repr

def SettingsFault.message : SettingsFault → String
  | version found => s!"unsupported config version {found}; expected 1"
  | negativeFps => "stack.fps must be >= 0"
  | fpsOnDemand => "stack.fps only applies to the continuous schedule"
  | emptyReadback => "readback width and height must be > 0"
  | luminance => "readback format 'luminance' cannot be read back"
  | formatMismatch type internal =>
    s!"readback data_type {type.title} does not match internal_format {internal.title}"
  | floatDisabled internal =>
    s!"readback internal_format {internal.title} needs the matching stack float extension"

inductive SettingsError
  | decode (fault : DecodeFault)
  | invalid (fault : SettingsFault)
  | file (fault : FileFault)

namespace SettingsError

/-- The message without the place in the document. -/
def message : SettingsError → String
  | decode _ => "failed to parse configuration: "
  | invalid fault => "invalid configuration: " ++ fault.message
  | file fault => "failed to read configuration: " ++ fault.message

/-- The messages of the error and its causes. The diagnostics of a document are its reader's own. -/
def chain : SettingsError → List String
  | file fault => [(file fault).message, fault.message]
  | error => [error.message]

end SettingsError
end ShaderStack
