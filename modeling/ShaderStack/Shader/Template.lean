import ShaderStack.Shader.Token

/-! Shader templates: text interleaved with tokens and nested templates.

A body ends in a text and has one text before every slot, so there is always one text more
than there are slots. -/
namespace ShaderStack

/-- `text₀ slot₀ text₁ slot₁ … textₙ`. -/
inductive TemplateBody
  | text (segment : String)
  | token (segment : String) (slot : Token) (rest : TemplateBody)
  | nested (segment : String) (id : Identity) (inner : TemplateBody) (rest : TemplateBody)

/-- The identity belongs to the place where the template is written: evaluating that place
again gives a template of the same identity. -/
structure Template where
  id : Identity
  body : TemplateBody

inductive TemplatePart
  | text (segment : String)
  | token (slot : Token)
  | template (slot : Template)

/-- A template read from left to right, with nested templates spliced in. -/
inductive Piece
  | text (segment : String)
  | token (slot : Token)

namespace TemplateBody

def empty : TemplateBody := text ""

/-- Text goes to the last segment; a slot closes it and opens an empty one. -/
def push (part : TemplatePart) : TemplateBody → TemplateBody
  | text segment =>
    match part with
    | .text more => text (segment ++ more)
    | .token slot => token segment slot empty
    | .template slot => nested segment slot.id slot.body empty
  | token segment slot rest => token segment slot (rest.push part)
  | nested segment id inner rest => nested segment id inner (rest.push part)

def ofParts (parts : List TemplatePart) : TemplateBody :=
  parts.foldl (fun body part => body.push part) empty

def segments : TemplateBody → List String
  | text segment => [segment]
  | token segment _ rest => segment :: rest.segments
  | nested segment _ _ rest => segment :: rest.segments

def slots : TemplateBody → List TemplatePart
  | text _ => []
  | token _ slot rest => .token slot :: rest.slots
  | nested _ id inner rest => .template ⟨id, inner⟩ :: rest.slots

@[simp] theorem length_segments (body : TemplateBody) :
    body.segments.length = body.slots.length + 1 := by
  induction body with
  | text => rfl
  | token _ _ _ ih => simp [segments, slots, ih]
  | nested _ _ _ _ _ ih => simp [segments, slots, ih]

end TemplateBody

def Piece.ofSegment (segment : String) : List Piece :=
  if segment.isEmpty then [] else [.text segment]

/-- Nested templates join the enclosing text, and empty texts vanish. -/
def TemplateBody.pieces : TemplateBody → List Piece
  | text segment => Piece.ofSegment segment
  | token segment slot rest => Piece.ofSegment segment ++ .token slot :: rest.pieces
  | nested segment _ inner rest => Piece.ofSegment segment ++ inner.pieces ++ rest.pieces

def Piece.token? : Piece → Option Token
  | token slot => some slot
  | text _ => none

/-- Keeps the first token of every identity. -/
def distinctTokens : List Token → List Token
  | [] => []
  | t :: ts => t :: (distinctTokens ts).filter fun other => other.id ≠ t.id

end ShaderStack
