import ShaderStack.Render.Readback

/-! Pictures: rows of four-channel pixels, from the top down. -/
namespace ShaderStack

structure Picture where
  width : Nat
  height : Nat
  /-- The byte at an offset; a picture has `height * width * 4` of them. -/
  byteAt : Nat → UInt8

namespace Picture

def rowBytes (p : Picture) : Nat := 4 * p.width

/-- Red, green, blue and alpha of a pixel, counted row by row. -/
def pixel (p : Picture) (index : Nat) : List UInt8 :=
  (List.range 4).map fun channel => p.byteAt (4 * index + channel)

/-- Whether every pixel is the first one. -/
def isUniform (p : Picture) : Bool :=
  (List.range (p.height * p.width)).all fun index => p.pixel index == p.pixel 0

/-- A readback of four-channel bytes, whose rows start at the bottom. -/
def ofReadback (width height : Nat) (pixels : PixelBuffer) : Picture :=
  { width, height
    byteAt := fun offset =>
      let row := offset / (4 * width)
      pixels.byteAt ((height - 1 - row) * (4 * width) + offset % (4 * width)) }

end Picture
end ShaderStack
