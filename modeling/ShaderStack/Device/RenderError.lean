import ShaderStack.Shader.Token

/-! Failures of devices, programs, render targets and readbacks. -/
namespace ShaderStack

/-- The step of a program build that fails. -/
inductive BuildStage
  | vertex
  | fragment
  | link
  deriving DecidableEq, Repr

def BuildStage.name : BuildStage → String
  | vertex => "vertex"
  | fragment => "fragment"
  | link => "link"

/-- Why an object could not be made. -/
inductive ResourceFault
  /-- The device gave nothing for an allocation. -/
  | refused (method : String)
  | emptyTexture (width height : UInt32)
  | incompleteTexture
  | incompleteReadback (internal : InternalFormat)
  | notAnIndexToken (type : TokenType)
  | notAnIndexBuffer
  | token (error : TokenError)
  deriving DecidableEq, Repr

def ResourceFault.message : ResourceFault → String
  | refused method => s!"{method}: injected failure"
  | emptyTexture width height =>
    s!"render texture needs a non-empty size, got {width}x{height}"
  | incompleteTexture => "render texture framebuffer is incomplete"
  | incompleteReadback internal =>
    s!"readback framebuffer with {internal.title} is incomplete"
  | notAnIndexToken type => s!"{type.title} token cannot feed an indexed draw"
  | notAnIndexBuffer => "index token must target the element array"
  | token error => error.message

/-- Why a readback is refused. -/
inductive ReadbackFault
  | emptyRegion (width height : UInt32)
  | luminance
  | formatMismatch (internal : InternalFormat) (type : PixelType)
  | emptyInput
  deriving DecidableEq, Repr

def ReadbackFault.message : ReadbackFault → String
  | emptyRegion width height => s!"region {width}x{height} is empty"
  | luminance => "luminance cannot be read back"
  | formatMismatch internal type => s!"{internal.title} target cannot be read as {type.title}"
  | emptyInput => "computation input is empty"

inductive RenderError
  | noContext
  | buildFailure (stage : BuildStage) (log : String)
  | resource (fault : ResourceFault)
  | readback (fault : ReadbackFault)
  deriving DecidableEq, Repr

def RenderError.message : RenderError → String
  | noContext => "context unsupported: headless surface has no graphics context"
  | buildFailure stage log => s!"program build failed ({stage.name}): {log}"
  | resource fault => "gpu resource allocation failed: " ++ fault.message
  | readback fault => "invalid readback: " ++ fault.message

end ShaderStack
