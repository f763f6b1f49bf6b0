import ShaderStack.Shader.Naming
import ShaderStack.Shader.Preamble

/-! Compilation of a template: the final source and the tokens that it declares. -/
namespace ShaderStack

/-- Tokens stand in the order of their first occurrence. -/
structure CompiledShader where
  template : Identity
  source : String
  tokens : List NamedToken

namespace NamedToken

/-- Array attributes are shader inputs, uniforms and samplers are uniforms; index buffers and
scope references are not declared. -/
def declaration? (n : NamedToken) : Option String :=
  match n.token.kind with
  | .vertexAttribute t =>
    if t.options.target = .array then some s!"in {t.type.name} {n.name};" else none
  | .uniform t => some s!"uniform {t.type.name} {n.name};"
  | .sampler _ => some s!"uniform {DataType.sampler2D.name} {n.name};"
  | .scope _ => none

end NamedToken

namespace CompiledShader

/-- The name that a token was given; every token of the compilation has one. -/
def nameIn (tokens : List NamedToken) (t : Token) : String :=
  match tokens.find? fun n => n.token.id = t.id with
  | some n => n.name
  | none => ""

def pieceText (tokens : List NamedToken) : Piece → List Char
  | .text segment => segment.toList
  | .token slot => (nameIn tokens slot).toList

/-- All texts in order, each slot replaced by its token's name. -/
def bodyText (tokens : List NamedToken) (pieces : List Piece) : List Char :=
  pieces.flatMap (pieceText tokens)

def sourceText (tokens : List NamedToken) (body : List Char) : List Char :=
  match tokens.filterMap NamedToken.declaration? with
  | [] => body
  | declarations => Preamble.insert (declarations.map String.toList) body

def nameOf? (shader : CompiledShader) (id : Identity) : Option String :=
  (shader.tokens.find? fun n => n.token.id = id).map NamedToken.name

/-- The names that the source declares as inputs. -/
def declaredNames (shader : CompiledShader) : List String :=
  (shader.tokens.filter fun n => n.declaration?.isSome).map NamedToken.name

end CompiledShader

/-- A pure function of the template: names every token, splices the names in and declares the
inputs after the preamble. -/
def Template.compile (t : Template) : CompiledShader :=
  let pieces := t.body.pieces
  let tokens := nameTokens (distinctTokens (pieces.filterMap Piece.token?))
  { template := t.id
    source := String.ofList (CompiledShader.sourceText tokens
      (CompiledShader.bodyText tokens pieces))
    tokens }

end ShaderStack
