import ShaderStack.Shader.UniformValue
import ShaderStack.Shader.Texture

/-! Host state that live values are read from.

Tokens do not hold values but accessors, which read the host's cells each time they are asked.
Identities of arrays, tokens and templates are drawn from one counter. -/
namespace ShaderStack

/-- Names a rendered surface: a render texture of this library by its key, or a surface that
the host owns by its name. -/
inductive SurfaceId
  | renderTexture (key : Nat)
  | external (name : String)
  deriving DecidableEq, Repr

/-- What a sampler reads: host pixels, or the content of a rendered surface. -/
inductive TextureSource
  | pixels (data : HostArray)
  | surface (id : SurfaceId)
  deriving DecidableEq, Repr

/-- Named cells of live values. -/
structure Host where
  buffers : List (String × HostArray) := []
  values : List (String × UniformValue) := []
  sources : List (String × TextureSource) := []
  nextIdentity : Identity := 1
  deriving DecidableEq

/-- An accessor may draw a fresh identity, when it builds a new array on every read. -/
abbrev Accessor (α : Type) := StateM Host α

/-- Replaces the value of a key in place, or adds the key at the end. -/
def assign [DecidableEq κ] (key : κ) (value : α) : List (κ × α) → List (κ × α)
  | [] => [(key, value)]
  | (k, v) :: rest => if k = key then (key, value) :: rest else (k, v) :: assign key value rest

namespace Host

def mint : StateM Host Identity :=
  modifyGet fun host => (host.nextIdentity, { host with nextIdentity := host.nextIdentity + 1 })

def allocate (contents : ArrayContents) : StateM Host HostArray := do
  return contents.allocate (← mint)

/-- Stands in for a cell that was never set. -/
def emptyArray : HostArray := ⟨0, .u8, []⟩

def buffer (host : Host) (name : String) : HostArray :=
  (host.buffers.lookup name).getD emptyArray

def value (host : Host) (name : String) : UniformValue :=
  (host.values.lookup name).getD (.ofInt32 0)

def source (host : Host) (name : String) : TextureSource :=
  (host.sources.lookup name).getD (.pixels emptyArray)

def setBuffer (name : String) (data : HostArray) : StateM Host Unit :=
  modify fun host => { host with buffers := assign name data host.buffers }

def setValue (name : String) (value : UniformValue) : StateM Host Unit :=
  modify fun host => { host with values := assign name value host.values }

def setSource (name : String) (source : TextureSource) : StateM Host Unit :=
  modify fun host => { host with sources := assign name source host.sources }

end Host

namespace Accessor

/-- Reads the current allocation of a buffer cell. -/
def buffer (name : String) : Accessor HostArray := do return (← get).buffer name

/-- Copies the contents of a buffer cell to a new allocation on every read. -/
def freshBuffer (name : String) : Accessor HostArray := do
  Host.allocate ((← get).buffer name).contents

def value (name : String) : Accessor UniformValue := do return (← get).value name

def source (name : String) : Accessor TextureSource := do return (← get).source name

/-- Copies the pixels of a source cell to a new allocation on every read. -/
def freshSource (name : String) : Accessor TextureSource := do
  match (← get).source name with
  | .pixels data => return .pixels (← Host.allocate data.contents)
  | .surface id => return .surface id

end Accessor
end ShaderStack
