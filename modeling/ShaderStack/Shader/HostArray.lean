import ShaderStack.Shader.DataType
import ShaderStack.Number.Single

/-! Typed host arrays with an identity.

Two arrays share a buffer exactly when they are one allocation. Equal contents do not make
arrays the same: a new allocation counts as a change. -/
namespace ShaderStack

/-- An identity is handed out once and never again. -/
abbrev Identity := Nat

/-- The low `kind.byteSize` bytes of each word are the element's bit pattern. -/
structure HostArray where
  allocation : Identity
  kind : ElementKind
  words : List UInt32
  deriving DecidableEq, Repr

namespace HostArray

def length (a : HostArray) : Nat := a.words.length

def isEmpty (a : HostArray) : Bool := a.words.isEmpty

/-- The low `count` bytes of a word, least significant first. -/
def littleEndian : Nat → UInt32 → List UInt8
  | 0, _ => []
  | count + 1, word => word.toUInt8 :: littleEndian count (word >>> 8)

def bytes (a : HostArray) : List UInt8 := a.words.flatMap (littleEndian a.kind.byteSize)

def sameBuffer (a b : HostArray) : Bool := a.allocation = b.allocation

@[simp] theorem length_littleEndian (count : Nat) (word : UInt32) :
    (littleEndian count word).length = count := by
  induction count generalizing word with
  | zero => rfl
  | succ count ih => simp [littleEndian, ih]

theorem length_bytes (a : HostArray) : a.bytes.length = a.kind.byteSize * a.length := by
  simp [bytes, length, List.length_flatMap, List.map_const', Nat.mul_comm]

end HostArray

/-- Contents of an array before it is allocated. -/
structure ArrayContents where
  kind : ElementKind
  words : List UInt32
  deriving DecidableEq, Repr

def ArrayContents.allocate (c : ArrayContents) (allocation : Identity) : HostArray :=
  ⟨allocation, c.kind, c.words⟩

def HostArray.contents (a : HostArray) : ArrayContents := ⟨a.kind, a.words⟩

def ArrayContents.ofSingles (values : List Single) : ArrayContents :=
  ⟨.f32, values.map Single.bits⟩

end ShaderStack
