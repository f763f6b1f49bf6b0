import ShaderStack.Number.Single

/-! Single-precision operations that the machine carries out. -/
namespace ShaderStack
namespace Single

def toMachine (x : Single) : Float32 := Float32.ofBits x.bits

def ofMachine (x : Float32) : Single := ⟨x.toBits⟩

def add (x y : Single) : Single := ofMachine (x.toMachine + y.toMachine)

end Single
end ShaderStack
