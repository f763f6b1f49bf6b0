import ShaderStack.Shader.Texture

/-! Why a backing value does not fit the shape that a token declares. -/
namespace ShaderStack

inductive TokenError
  | signedIndices (type : DataType) (found : ElementKind)
  | notAnAttribute (type : DataType)
  | integersExpected (type : DataType) (found : ElementKind)
  | partialVertex (type : DataType) (length : Nat)
  | samplerAsUniform
  | wrongType (declared found : DataType)
  | luminanceFloats
  | pixelElement (found : ElementKind)
  | partialTexel (length components : Nat)
  | texelCount (width height : UInt32) (texels : Nat)
  | notAnIdentifier (name : String)
  deriving DecidableEq, Repr

namespace TokenError

/-- The kind of token that was refused. -/
def token : TokenError → String
  | signedIndices type _ => type.name ++ " attribute"
  | notAnAttribute type => type.name ++ " attribute"
  | integersExpected type _ => type.name ++ " attribute"
  | partialVertex type _ => type.name ++ " attribute"
  | wrongType declared _ => declared.name ++ " uniform"
  | samplerAsUniform => "sampler2D uniform"
  | luminanceFloats => "sampler2D uniform"
  | pixelElement _ => "sampler2D uniform"
  | partialTexel _ _ => "sampler2D uniform"
  | texelCount _ _ _ => "sampler2D uniform"
  | notAnIdentifier _ => "scope"

def reason : TokenError → String
  | signedIndices _ found => s!"element-array buffers need unsigned indices, got {found.name}"
  | notAnAttribute _ => "matrices and samplers cannot be vertex attributes"
  | integersExpected _ found => s!"expected an integer buffer, got {found.name}"
  | partialVertex type length =>
    s!"buffer length {length} is not a multiple of {type.components} components"
  | samplerAsUniform => "samplers are built with Token::sampler2d"
  | wrongType _ found => s!"accessor produced a {found.name} value"
  | luminanceFloats => "luminance textures need u8 pixel data"
  | pixelElement found => s!"pixel data must be u8 or f32, got {found.name}"
  | partialTexel length components =>
    s!"{length} values do not split into {components}-component texels"
  | texelCount width height texels =>
    s!"{width}x{height} texels do not match {texels} supplied"
  | notAnIdentifier name => s!"'{name}' is not a valid GLSL identifier"

def message (e : TokenError) : String := s!"invalid token shape for {e.token}: {e.reason}"

end TokenError

/-- Whether `data` may back an attribute of `type` in the given buffer. -/
def checkAttribute (type : DataType) (target : BufferTarget) (data : HostArray) :
    Except TokenError Unit :=
  if target = .elementArray then
    match IndexType.ofElement? data.kind with
    | some _ => .ok ()
    | none => .error (.signedIndices type data.kind)
  else if type.isMatrix || type = .sampler2D then .error (.notAnAttribute type)
  else if type.keepsIntegers && !data.kind.isInteger then
    .error (.integersExpected type data.kind)
  else if data.length % type.components ≠ 0 then .error (.partialVertex type data.length)
  else .ok ()

/-- Whether a value of type `found` may back a uniform of type `declared`. -/
def checkUniform (declared found : DataType) : Except TokenError Unit :=
  if found = declared then .ok () else .error (.wrongType declared found)

/-- The texel layout in which `data` fills a texture exactly. -/
def textureLayout (options : SamplerOptions) (data : HostArray) :
    Except TokenError TextureLayout :=
  if data.kind ≠ .u8 ∧ data.kind ≠ .f32 then .error (.pixelElement data.kind)
  else if data.kind = .f32 ∧ options.format = .luminance then .error .luminanceFloats
  else
    let components := options.format.components
    if data.length % components ≠ 0 then .error (.partialTexel data.length components)
    else
      let texels := data.length / components
      let height := options.height.getD 1
      let width := options.width.getD
        (if height = 0 then 0 else UInt32.ofNat (texels / height.toNat))
      if width.toNat * height.toNat ≠ texels then .error (.texelCount width height texels)
      else .ok ⟨width, height, options.format, data.kind⟩

end ShaderStack
