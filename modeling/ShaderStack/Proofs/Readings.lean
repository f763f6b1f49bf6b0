import ShaderStack.Device.Call
import ShaderStack.Shader.Token

/-! Reading tokens.

An accessor may give other values in every frame. Within a frame it is calm: whatever else is read
before, it gives the same contents in the declared shape, and an array that was seen before has not
changed. -/
namespace ShaderStack

/-- What a token gives, up to the identities of arrays. -/
inductive Reading
  | array (contents : ArrayContents)
  | value (value : UniformValue)
  | surface (id : SurfaceId)
  | nothing

namespace Token

def reading (t : Token) (host : Host) : Reading :=
  match t.kind with
  | .vertexAttribute a => .array (a.value.run host).1.contents
  | .uniform u => .value (u.value.run host).1
  | .sampler s =>
    match (s.value.run host).1 with
    | .pixels data => .array data.contents
    | .surface id => .surface id
  | .scope _ => .nothing

/-- The array that a token gives, if it gives one. -/
def arrays (t : Token) (host : Host) : List HostArray :=
  match t.kind with
  | .vertexAttribute a => [(a.value.run host).1]
  | .sampler s =>
    match (s.value.run host).1 with
    | .pixels data => [data]
    | .surface _ => []
  | .uniform _ | .scope _ => []

/-- The host after the token was read. -/
def after (t : Token) (host : Host) : Host :=
  match t.kind with
  | .vertexAttribute a => (a.value.run host).2
  | .uniform u => (u.value.run host).2
  | .sampler s => (s.value.run host).2
  | .scope _ => host

/-- The value has the declared shape, which is what building the token asks for. -/
def Fits (t : Token) (host : Host) : Prop :=
  match t.kind with
  | .vertexAttribute a =>
    (checkAttribute a.type a.options.target (a.value.run host).1).isOk
  | .uniform u => (checkUniform u.type (u.value.run host).1.dataType).isOk
  | .sampler s =>
    match (s.value.run host).1 with
    | .pixels data => (textureLayout s.options data).isOk
    | .surface _ => True
  | .scope _ => True

end Token

/-- The start of a frame: the tokens in use, the arrays that were uploaded last, the host and the
textures of its surfaces. -/
structure Moment where
  tokens : List Token
  arrays : List HostArray
  host : Host
  surfaces : SurfaceId → Option Handle

namespace Moment

/-- The host after some reads, with all arrays that were seen. -/
inductive Reaches (m : Moment) : List HostArray → Host → Prop
  | start : Reaches m m.arrays m.host
  | read {seen : List HostArray} {host : Host} {t : Token} (before : Reaches m seen host)
      (member : t ∈ m.tokens) : Reaches m (t.arrays host ++ seen) (t.after host)

/-- Whatever is read in whatever order, values fit and stay as they are, and so do arrays. -/
structure Calm (m : Moment) : Prop where
  fits : ∀ seen host, m.Reaches seen host → ∀ t ∈ m.tokens, t.Fits host
  stable : ∀ seen host, m.Reaches seen host → ∀ t ∈ m.tokens, t.reading host = t.reading m.host
  faithful : ∀ seen host, m.Reaches seen host → ∀ t ∈ m.tokens, ∀ a ∈ t.arrays host, ∀ b ∈ seen,
    a.sameBuffer b → a = b

/-- Accessors that read the host and change nothing are calm if their values fit and arrays of one
allocation are one. -/
theorem calm_of_readers {m : Moment} (known : List HostArray)
    (readers : ∀ t ∈ m.tokens, ∀ host, t.after host = host) (fits : ∀ t ∈ m.tokens, t.Fits m.host)
    (uploaded : ∀ a ∈ m.arrays, a ∈ known) (given : ∀ t ∈ m.tokens, ∀ a ∈ t.arrays m.host, a ∈ known)
    (distinct : ∀ a ∈ known, ∀ b ∈ known, a.sameBuffer b → a = b) : m.Calm := by
  have still (seen : List HostArray) (host : Host) (reaches : m.Reaches seen host) :
      host = m.host ∧ ∀ a ∈ seen, a ∈ known := by
    induction reaches with
    | start => exact ⟨rfl, uploaded⟩
    | read before member ih =>
      obtain ⟨rfl, seen⟩ := ih
      refine ⟨readers _ member _, fun a here => ?_⟩
      exact (List.mem_append.mp here).elim (given _ member a) (seen a)
  constructor
  · intro seen host reaches t member
    obtain ⟨rfl, _⟩ := still seen host reaches
    exact fits t member
  · intro seen host reaches t member
    obtain ⟨rfl, _⟩ := still seen host reaches
    rfl
  · intro seen host reaches t member a here b there
    obtain ⟨rfl, old⟩ := still seen host reaches
    exact distinct a (given t member a here) b (old b there)

end Moment
end ShaderStack
