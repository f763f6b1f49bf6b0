import ShaderStack.Number.Machine

/-! Matrices of the cube scenes, column by column. -/
namespace ShaderStack.Motion

/-- A rotation about Y, then X, pushed four units away from the viewer. -/
def model (seconds : Single) : Vector Single 16 :=
  let t := seconds.toMachine
  let sy := t.sin
  let cy := t.cos
  let sx := (t * 0.5).sin
  let cx := (t * 0.5).cos
  #v[cy, sx * sy, -cx * sy, 0,
    0, cx, sx, 0,
    sy, -sx * cy, cx * cy, 0,
    0, 0, -4, 1].map Single.ofMachine

/-- A quarter of a half turn of view, between the planes 0.1 and 100. -/
def projection (aspect : Single) : Vector Single 16 :=
  let near : Float32 := 0.1
  let far : Float32 := 100
  let focal := 1 / (Float32.ofBits 0x3f490fdb / 2).tan
  let depth := 1 / (near - far)
  #v[focal / aspect.toMachine, 0, 0, 0,
    0, focal, 0, 0,
    0, 0, (far + near) * depth, -1,
    0, 0, 2 * far * near * depth, 0].map Single.ofMachine

end ShaderStack.Motion
