import ShaderStack.Device.Call

/-! Requests to draw again, one per render target whose content changed. -/
namespace ShaderStack

/-- Sources that ask for a redraw, each at most once, oldest first. -/
structure RedrawRequests where
  sources : List Handle := []
  deriving DecidableEq, Repr

namespace RedrawRequests

def request (source : Handle) (r : RedrawRequests) : RedrawRequests :=
  if source ∈ r.sources then r else ⟨r.sources ++ [source]⟩

def isPending (r : RedrawRequests) : Bool := !r.sources.isEmpty

/-- Whether there were requests; afterwards there are none. -/
def take (r : RedrawRequests) : Bool × RedrawRequests := (r.isPending, {})

def discard (sources : List Handle) (r : RedrawRequests) : RedrawRequests :=
  ⟨r.sources.filter fun source => source ∉ sources⟩

end RedrawRequests

/-- Identifies the requests of one stack. -/
abbrev RedrawKey := Nat

/-- A listener on a surface: each new content requests a redraw under the texture that the
surface had when it was subscribed to. -/
structure Subscription where
  redraw : RedrawKey
  source : Handle
  deriving DecidableEq, Repr

end ShaderStack
