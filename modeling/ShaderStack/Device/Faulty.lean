import ShaderStack.Device.Call

/-! A device some of whose calls fail on purpose.

The calls of each method are counted from one. A call that the plan names does not reach the
device underneath. -/
namespace ShaderStack

structure FaultyDevice (δ : Type) where
  inner : δ
  plan : List (String × List Nat) := []
  counts : List (String × Nat) := []

namespace FaultyDevice

variable {δ : Type}

def callCount (d : FaultyDevice δ) (method : String) : Nat := (d.counts.lookup method).getD 0

/-- Counts a call and tells whether the plan makes it fail. -/
def strike (method : String) (d : FaultyDevice δ) : Bool × FaultyDevice δ :=
  let n := d.callCount method + 1
  (((d.plan.lookup method).getD []).contains n, { d with counts := assign method n d.counts })

instance [GraphicsDevice δ] : GraphicsDevice (FaultyDevice δ) where
  allocate a d :=
    let (fails, d) := d.strike a.method
    if fails then (.error (.resource (.refused a.method)), d)
    else
      let (answer, inner) := GraphicsDevice.allocate a d.inner
      (answer, { d with inner })
  lookup l d :=
    let (fails, d) := d.strike l.method
    if fails then (none, d)
    else
      let (answer, inner) := GraphicsDevice.lookup l d.inner
      (answer, { d with inner })
  probe p d :=
    let (fails, d) := d.strike p.method
    if fails then (false, d)
    else
      let (answer, inner) := GraphicsDevice.probe p d.inner
      (answer, { d with inner })
  command c d := { d with inner := GraphicsDevice.command c d.inner }
  read r d :=
    let (answer, inner) := GraphicsDevice.read r d.inner
    (answer, { d with inner })

end FaultyDevice
end ShaderStack
