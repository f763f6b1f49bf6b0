import ShaderStack.Settings.Error
import ShaderStack.Toml.Document

/-! Settings from a TOML document.

Entries are decoded in the order in which they were written, so the first fault is the one that
is reported. Unknown keys are ignored. -/
namespace ShaderStack

abbrev Decoded := Except DecodeFault

namespace Toml.Value

def expectFlag : Value → Decoded Bool
  | flag b => .ok b
  | v => .error (.wrongType v "a boolean")

def expectText : Value → Decoded String
  | text s => .ok s
  | v => .error (.wrongType v "a string")

/-- An integer from `low` up to `high`. -/
def expectInt (low high : Int) (expected : String) : Value → Decoded Int
  | integer n => if low ≤ n ∧ n ≤ high then .ok n else .error (.outOfRange n expected)
  | v => .error (.wrongType v expected)

def expectUInt32 (v : Value) : Decoded UInt32 := do
  return UInt32.ofNat (← v.expectInt 0 4294967295 "u32").toNat

def expectInt32 (v : Value) : Decoded Int32 := do
  return Int32.ofInt (← v.expectInt (-2147483648) 2147483647 "i32")

def isEmptyContainer : Value → Bool
  | list items => items.isEmpty
  | table _ entries => entries.isEmpty
  | tables elements => elements.isEmpty
  | _ => false

/-- One of a list of words: the word itself, or a table with the word as its only key and nothing
below it. -/
def expectChoice (choices : List α) (name : α → String) (v : Value) : Decoded α :=
  let find (word : String) : Decoded α :=
    match choices.find? fun choice => name choice == word with
    | some choice => .ok choice
    | none => .error (.unknownChoice word (choices.map name))
  match v with
  | text s => find s
  | table _ [(word, payload)] => do
    let choice ← find word
    if payload.isEmptyContainer then return choice else throw .notAChoice
  | _ => .error .notAChoice

/-- Changes a section entry by entry. A section may also be written as a sequence of the values of
its keys; a date is a section without any known key. -/
def foldSection (title : String) (keys : List String) (field : σ → String → Value → Decoded σ)
    (initial : σ) (v : Value) : Decoded σ :=
  match v, v.items? with
  | table _ entries, _ => entries.foldlM (fun s (key, value) => field s key value) initial
  | moment, _ => .ok initial
  | _, some items => (keys.zip items).foldlM (fun s (key, value) => field s key value) initial
  | _, none => .error (.wrongType v ("struct " ++ title))

end Toml.Value

namespace Pace

def ofText? (s : String) : Option Pace :=
  match Text.keyword s with
  | "continuous" | "always" | "raf" => some continuous
  | "on-demand" | "ondemand" | "on_demand" | "demand" => some onDemand
  | _ => none

def decode (v : Toml.Value) : Decoded Pace := do
  let s ← v.expectText
  match ofText? s with
  | some pace => return pace
  | none => throw (.schedule s)

end Pace

/-- A single-precision number as text: a decimal literal, or a word for what is not finite. -/
def Single.ofText? (text : List Char) : Option Single :=
  let (negative, rest) := Decimal.takeSign text
  match String.ofList rest with
  | "inf" | "infinity" => some (.ofMagnitude negative BinaryFormat.single.infinity)
  | "nan" => some .nan
  | _ => (Decimal.ofText? text).map Single.ofDecimal

/-- A frame cap: a number, its text, or a word for no cap. -/
def decodeFps : Toml.Value → Decoded (Option Single)
  | .text s =>
    match Text.keyword s with
    | "uncapped" | "off" | "none" => .ok none
    | word =>
      match Single.ofText? word.toList with
      | some x => .ok (some x)
      | none => .error (.fps s)
  | .integer n => .ok (some (.ofInt n))
  | .real x => .ok (some x.toSingle)
  | v => .error (.wrongType v "a frame rate as a number or \"uncapped\"")

namespace StackSettings

def keys : List String := ["float_extension", "half_float_extension", "clear", "schedule", "fps"]

def field (s : StackSettings) (key : String) (v : Toml.Value) : Decoded StackSettings := do
  match key with
  | "float_extension" => return { s with float := ← v.expectFlag }
  | "half_float_extension" => return { s with halfFloat := ← v.expectFlag }
  | "clear" => return { s with clear := ← v.expectFlag }
  | "schedule" => return { s with pace := ← Pace.decode v }
  | "fps" => return { s with fps := ← decodeFps v }
  | _ => return s

def decode (v : Toml.Value) : Decoded StackSettings := v.foldSection "StackSection" keys field {}

end StackSettings

namespace ProgramSettings

def keys : List String := ["cache", "mode"]

def field (s : ProgramSettings) (key : String) (v : Toml.Value) : Decoded ProgramSettings := do
  match key with
  | "cache" => return { s with cache := ← v.expectFlag }
  | "mode" => return { s with mode := some (← v.expectChoice DrawMode.all DrawMode.name) }
  | _ => return s

def decode (v : Toml.Value) : Decoded ProgramSettings :=
  v.foldSection "ProgramSection" keys field {}

end ProgramSettings

namespace ReadConfig

def keys : List String :=
  ["x", "y", "width", "height", "format", "data_type", "internal_format"]

def field (c : ReadConfig) (key : String) (v : Toml.Value) : Decoded ReadConfig := do
  match key with
  | "x" => return { c with x := ← v.expectInt32 }
  | "y" => return { c with y := ← v.expectInt32 }
  | "width" => return { c with width := some (← v.expectUInt32) }
  | "height" => return { c with height := some (← v.expectUInt32) }
  | "format" => return { c with format := ← v.expectChoice TextureFormat.all TextureFormat.name }
  | "data_type" => return { c with dataType := ← v.expectChoice PixelType.all PixelType.name }
  | "internal_format" =>
    return { c with internalFormat := ← v.expectChoice InternalFormat.all InternalFormat.name }
  | _ => return c

def decode (v : Toml.Value) : Decoded ReadConfig := v.foldSection "ReadConfig" keys field {}

end ReadConfig

namespace Settings

/-- The settings so far, and the version once it is known. -/
def field (s : Option UInt32 × Settings) (entry : String × Toml.Value) :
    Decoded (Option UInt32 × Settings) := do
  let (version, settings) := s
  match entry with
  | ("version", v) => return (some (← v.expectUInt32), settings)
  | ("stack", v) => return (version, { settings with stack := ← StackSettings.decode v })
  | ("program", v) => return (version, { settings with program := ← ProgramSettings.decode v })
  | ("readback", v) => return (version, { settings with readback := ← ReadConfig.decode v })
  | _ => return s

/-- Settings as a document gives them; the version has no default. -/
def decode (text : String) : Decoded Settings := do
  match Toml.ofText? text with
  | none => throw .malformed
  | some entries =>
    match ← entries.foldlM field (none, {}) with
    | (some version, settings) => return { settings with version }
    | (none, _) => throw .missingVersion

end Settings
end ShaderStack
