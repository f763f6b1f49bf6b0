import ShaderStack.Shader.HostArray

/-! Pixel formats, and the shape in which pixel data fills a texture. -/
namespace ShaderStack

/-- Channels of one texel. -/
inductive TextureFormat
  | red
  | rg
  | rgb
  | rgba
  | luminance
  deriving DecidableEq, Repr

namespace TextureFormat

def all : List TextureFormat := [red, rg, rgb, rgba, luminance]

def name : TextureFormat → String
  | red => "red"
  | rg => "rg"
  | rgb => "rgb"
  | rgba => "rgba"
  | luminance => "luminance"

def ofName? (name : String) : Option TextureFormat := all.find? fun format => format.name == name

def components : TextureFormat → Nat
  | red | luminance => 1
  | rg => 2
  | rgb => 3
  | rgba => 4

end TextureFormat

inductive TextureFilter
  | nearest
  | linear
  deriving DecidableEq, Repr

namespace TextureFilter

def name : TextureFilter → String
  | nearest => "nearest"
  | linear => "linear"

def ofName? (name : String) : Option TextureFilter :=
  [nearest, linear].find? fun filter => filter.name == name

end TextureFilter

inductive TextureWrap
  | clampToEdge
  | repeated
  | mirroredRepeat
  deriving DecidableEq, Repr

namespace TextureWrap

def name : TextureWrap → String
  | clampToEdge => "clamp-to-edge"
  | repeated => "repeat"
  | mirroredRepeat => "mirrored-repeat"

def ofName? (name : String) : Option TextureWrap :=
  [clampToEdge, repeated, mirroredRepeat].find? fun wrap => wrap.name == name

end TextureWrap

structure TextureParameters where
  minFilter : TextureFilter := .nearest
  magFilter : TextureFilter := .nearest
  wrap : TextureWrap := .clampToEdge
  deriving DecidableEq, Repr

/-- Sized storage formats of textures and renderbuffers. -/
inductive InternalFormat
  | r8
  | rg8
  | rgb8
  | rgba8
  | luminance
  | r16f
  | rg16f
  | rgba16f
  | r32f
  | rg32f
  | rgb32f
  | rgba32f
  deriving DecidableEq, Repr

namespace InternalFormat

def all : List InternalFormat :=
  [r8, rg8, rgb8, rgba8, luminance, r16f, rg16f, rgba16f, r32f, rg32f, rgb32f, rgba32f]

def name : InternalFormat → String
  | r8 => "R8"
  | rg8 => "RG8"
  | rgb8 => "RGB8"
  | rgba8 => "RGBA8"
  | luminance => "LUMINANCE"
  | r16f => "R16F"
  | rg16f => "RG16F"
  | rgba16f => "RGBA16F"
  | r32f => "R32F"
  | rg32f => "RG32F"
  | rgb32f => "RGB32F"
  | rgba32f => "RGBA32F"

def ofName? (name : String) : Option InternalFormat :=
  all.find? fun format => format.name == name

/-- The capitalised word that error messages use. -/
def title : InternalFormat → String
  | r8 => "R8"
  | rg8 => "Rg8"
  | rgb8 => "Rgb8"
  | rgba8 => "Rgba8"
  | luminance => "Luminance"
  | r16f => "R16F"
  | rg16f => "Rg16F"
  | rgba16f => "Rgba16F"
  | r32f => "R32F"
  | rg32f => "Rg32F"
  | rgb32f => "Rgb32F"
  | rgba32f => "Rgba32F"

def isHalfFloat : InternalFormat → Bool
  | r16f | rg16f | rgba16f => true
  | _ => false

def isFloat : InternalFormat → Bool
  | r16f | rg16f | rgba16f | r32f | rg32f | rgb32f | rgba32f => true
  | _ => false

end InternalFormat

/-- Component type of a pixel transfer. -/
inductive PixelType
  | unsignedByte
  | float
  deriving DecidableEq, Repr

namespace PixelType

def all : List PixelType := [unsignedByte, float]

def name : PixelType → String
  | unsignedByte => "UNSIGNED_BYTE"
  | float => "FLOAT"

def ofName? (name : String) : Option PixelType := all.find? fun type => type.name == name

/-- The capitalised word that error messages use. -/
def title : PixelType → String
  | unsignedByte => "UnsignedByte"
  | float => "Float"

def byteSize : PixelType → Nat
  | unsignedByte => 1
  | float => 4

end PixelType

/-- Level zero of a texture. -/
structure TextureImage where
  internal : InternalFormat
  width : UInt32
  height : UInt32
  format : TextureFormat
  pixelType : PixelType
  deriving DecidableEq, Repr

/-- How a sampler reads its pixels. An omitted height is one row, an omitted width is
whatever the data fill. -/
structure SamplerOptions where
  name : Option String := none
  width : Option UInt32 := none
  height : Option UInt32 := none
  format : TextureFormat := .rgba
  magFilter : TextureFilter := .nearest
  minFilter : TextureFilter := .nearest
  wrap : TextureWrap := .clampToEdge
  deriving DecidableEq, Repr

def SamplerOptions.parameters (o : SamplerOptions) : TextureParameters :=
  ⟨o.minFilter, o.magFilter, o.wrap⟩

/-- Resolved texel layout of pixel data. -/
structure TextureLayout where
  width : UInt32
  height : UInt32
  format : TextureFormat
  element : ElementKind
  deriving DecidableEq, Repr

namespace TextureLayout

/-- Byte texels of every format, and float texels of all but luminance, have storage. -/
def storage? : ElementKind → TextureFormat → Option (InternalFormat × PixelType)
  | .u8, .red => some (.r8, .unsignedByte)
  | .u8, .rg => some (.rg8, .unsignedByte)
  | .u8, .rgb => some (.rgb8, .unsignedByte)
  | .u8, .rgba => some (.rgba8, .unsignedByte)
  | .u8, .luminance => some (.luminance, .unsignedByte)
  | .f32, .red => some (.r32f, .float)
  | .f32, .rg => some (.rg32f, .float)
  | .f32, .rgb => some (.rgb32f, .float)
  | .f32, .rgba => some (.rgba32f, .float)
  | _, _ => none

def image? (layout : TextureLayout) : Option TextureImage := do
  let (internal, pixelType) ← storage? layout.element layout.format
  some ⟨internal, layout.width, layout.height, layout.format, pixelType⟩

end TextureLayout
end ShaderStack
