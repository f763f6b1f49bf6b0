import ShaderStack.Shader.Host
import ShaderStack.Shader.TokenError
import ShaderStack.Text.Blank

/-! Tokens: immutable descriptors of values bound to shader inputs.

A token pairs an accessor with the shape that the shader declares. Building one reads the
accessor once and checks what it gives; nothing here touches a graphics device. -/
namespace ShaderStack

inductive TokenType
  | vertexAttribute
  | uniform
  | sampler2D
  | scope
  deriving DecidableEq, Repr

namespace TokenType

def name : TokenType → String
  | vertexAttribute => "attribute"
  | uniform => "uniform"
  | sampler2D => "sampler2D"
  | scope => "scope"

/-- The capitalised word that error messages use. -/
def title : TokenType → String
  | vertexAttribute => "Attribute"
  | uniform => "Uniform"
  | sampler2D => "Sampler2D"
  | scope => "Scope"

end TokenType

structure AttributeOptions where
  /-- A name asked for; a synthesized one is given when another token has it. -/
  name : Option String := none
  target : BufferTarget := .array
  /-- Topology for programs that leave theirs open. -/
  mode : Option DrawMode := none
  deriving DecidableEq, Repr

structure AttributeToken where
  type : DataType
  value : Accessor HostArray
  options : AttributeOptions

structure UniformToken where
  type : DataType
  value : Accessor UniformValue
  name : Option String := none

structure SamplerToken where
  value : Accessor TextureSource
  options : SamplerOptions

inductive TokenKind
  | vertexAttribute (token : AttributeToken)
  | uniform (token : UniformToken)
  | sampler (token : SamplerToken)
  /-- A name that some other text declares. -/
  | scope (name : String)

structure Token where
  id : Identity
  kind : TokenKind

/-- Building a token reads the host and may be refused. -/
abbrev Authoring (α : Type) := ExceptT TokenError (StateM Host) α

namespace TokenKind

def type : TokenKind → TokenType
  | vertexAttribute _ => .vertexAttribute
  | uniform _ => .uniform
  | sampler _ => .sampler2D
  | scope _ => .scope

/-- The declared type; scope references declare nothing. -/
def dataType? : TokenKind → Option DataType
  | vertexAttribute t => some t.type
  | uniform t => some t.type
  | sampler _ => some .sampler2D
  | scope _ => none

def explicitName? : TokenKind → Option String
  | vertexAttribute t => t.options.name
  | uniform t => t.name
  | sampler t => t.options.name
  | scope name => some name

def rename (name : String) : TokenKind → TokenKind
  | vertexAttribute t => vertexAttribute { t with options.name := some name }
  | uniform t => uniform { t with name := some name }
  | sampler t => sampler { t with options.name := some name }
  | scope _ => scope name

end TokenKind

namespace Token

def type (t : Token) : TokenType := t.kind.type

def dataType? (t : Token) : Option DataType := t.kind.dataType?

def explicitName? (t : Token) : Option String := t.kind.explicitName?

def ofKind (kind : TokenKind) : StateM Host Token := do return ⟨← Host.mint, kind⟩

/-- An attribute backed by a host array, or an index buffer when the options target one. -/
def vertexAttribute (type : DataType) (value : Accessor HostArray) (options : AttributeOptions) :
    Authoring Token := do
  let data ← (value : StateM Host HostArray)
  checkAttribute type options.target data
  ofKind (.vertexAttribute ⟨type, value, options⟩)

/-- An index buffer that feeds an indexed draw instead of a shader input. -/
def indices (value : Accessor HostArray) : Authoring Token :=
  vertexAttribute (.vector .integer .one) value { target := .elementArray }

def uniform (type : DataType) (value : Accessor UniformValue) (name : Option String) :
    Authoring Token := do
  if type = .sampler2D then throw .samplerAsUniform
  let current ← (value : StateM Host UniformValue)
  checkUniform type current.dataType
  ofKind (.uniform ⟨type, value, name⟩)

/-- For accessors that give values of `type` by construction. -/
def uniformOfType (type : DataType) (value : Accessor UniformValue) (name : Option String) :
    StateM Host Token :=
  ofKind (.uniform ⟨type, value, name⟩)

def sampler (value : Accessor TextureSource) (options : SamplerOptions) : Authoring Token := do
  match ← (value : StateM Host TextureSource) with
  | .pixels data => discard (textureLayout options data)
  | .surface _ => pure ()
  ofKind (.sampler ⟨value, options⟩)

def scope (name : String) : Authoring Token := do
  if Text.isIdentifier name.toList then ofKind (.scope name) else throw (.notAnIdentifier name)

/-- A distinct token that shares the accessor and asks for `name`. -/
def withName (t : Token) (name : String) : StateM Host Token := ofKind (t.kind.rename name)

end Token
end ShaderStack
