import ShaderStack.Render.World

/-! What a token reads at the moment. -/
namespace ShaderStack

inductive TokenValue
  | buffer (data : HostArray) (options : AttributeOptions)
  | uniform (value : UniformValue) (name : Option String)
  | pixels (data : HostArray) (options : SamplerOptions)
  | surface (texture : Option Handle) (options : SamplerOptions)
  | scope (name : String)

/-- Reads a token's accessor once. -/
def Token.read (t : Token) : Engine δ TokenValue := do
  match t.kind with
  | .vertexAttribute a => return .buffer (← Engine.readHost a.value) a.options
  | .uniform u => return .uniform (← Engine.readHost u.value) u.name
  | .sampler s =>
    match ← Engine.readHost s.value with
    | .pixels data => return .pixels data s.options
    | .surface id => return .surface ((← get).textureOf? id) s.options
  | .scope name => return .scope name

end ShaderStack
