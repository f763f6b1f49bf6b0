import ShaderStack.Settings.Decode

/-! Checking settings, and reading checked settings from text and files. -/
namespace ShaderStack
namespace Settings

/-- Half-float targets are also there with the full float extension. -/
def allowsFloatTarget (s : Settings) (internal : InternalFormat) : Bool :=
  if internal.isHalfFloat then s.stack.halfFloat || s.stack.float else s.stack.float

def checkFps (s : Settings) : Except SettingsFault Unit :=
  match s.stack.fps with
  | none => .ok ()
  | some fps =>
    if !fps.isFinite || (fps.isNegative && !fps.isZero) then .error .negativeFps
    else if s.stack.pace = .onDemand ∧ fps.isPositive then .error .fpsOnDemand
    else .ok ()

def checkReadback (s : Settings) : Except SettingsFault Unit :=
  let c := s.readback
  if c.width = some 0 ∨ c.height = some 0 then .error .emptyReadback
  else if c.format = .luminance then .error .luminance
  else if c.internalFormat.isFloat != (c.dataType == .float) then
    .error (.formatMismatch c.dataType c.internalFormat)
  else if c.internalFormat.isFloat && !s.allowsFloatTarget c.internalFormat then
    .error (.floatDisabled c.internalFormat)
  else .ok ()

/-- Whether the settings can be used; the first fault is the one that is reported. -/
def validate (s : Settings) : Except SettingsFault Unit := do
  if s.version ≠ 1 then throw (.version s.version)
  s.checkFps
  s.checkReadback

def ofText (text : String) : Except SettingsError Settings :=
  match decode text with
  | .error fault => .error (.decode fault)
  | .ok s =>
    match s.validate with
    | .error fault => .error (.invalid fault)
    | .ok () => .ok s

/-- Settings from the bytes of a file, or from the reason why there are none. -/
def ofFile : Except FileFault ByteArray → Except SettingsError Settings
  | .error fault => .error (.file fault)
  | .ok bytes =>
    match String.fromUTF8? bytes with
    | some text => ofText text
    | none => .error (.file .notText)

end Settings
end ShaderStack
