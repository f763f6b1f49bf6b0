import ShaderStack.Device.Call

/-! An insertion-ordered map from binding slots to updates.

A slot keeps the place of its first registration; registering it again replaces its update. A
flush runs every update once, in order, and keeps the state that each is left in. -/
namespace ShaderStack

/-- The place on the device that an update writes to. -/
inductive BindingSlot
  | vertexAttribute (location : Location)
  | elements
  | uniform (location : Location)
  deriving DecidableEq, Repr

structure UpdateQueue (α : Type) where
  entries : List (BindingSlot × α) := []

namespace UpdateQueue

variable {α : Type}

def slots (q : UpdateQueue α) : List BindingSlot := q.entries.map Prod.fst

def length (q : UpdateQueue α) : Nat := q.entries.length

def isEmpty (q : UpdateQueue α) : Bool := q.entries.isEmpty

/-- Whether an update was replaced, and the queue with the new one. -/
def register (slot : BindingSlot) (update : α) (q : UpdateQueue α) : Bool × UpdateQueue α :=
  (q.slots.contains slot, ⟨assign slot update q.entries⟩)

def flushEntries {m : Type → Type} [Monad m] (run : α → m α) :
    List (BindingSlot × α) → m (List (BindingSlot × α))
  | [] => pure []
  | (slot, update) :: rest => do
    let update ← run update
    let rest ← flushEntries run rest
    pure ((slot, update) :: rest)

def flush {m : Type → Type} [Monad m] (run : α → m α) (q : UpdateQueue α) :
    m (UpdateQueue α) := do
  let entries ← flushEntries run q.entries
  pure ⟨entries⟩

end UpdateQueue
end ShaderStack
