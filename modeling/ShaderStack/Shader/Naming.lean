import ShaderStack.Shader.Template

/-! Names of the tokens of one compilation.

Names that tokens ask for are claimed first, in order. The other tokens are then numbered in
their namespace, stepping around every claimed name. -/
namespace ShaderStack

structure NamedToken where
  name : String
  token : Token

namespace Naming

/-- Attributes are numbered apart from uniforms and samplers. -/
inductive Namespace
  | attributes
  | uniforms
  deriving DecidableEq, Repr

def Namespace.lead : Namespace → String
  | attributes => "a_"
  | uniforms => "u_"

def Namespace.ofKind : TokenKind → Namespace
  | .vertexAttribute _ => attributes
  | _ => uniforms

def numbered (space : Namespace) (n : Nat) : String := space.lead ++ toString n

/-- Scope references keep their own name and claim nothing. Another token gets the name it asks
for unless an earlier one has it. -/
def claim (taken : List String) : List Token → List (Token × Option String)
  | [] => []
  | t :: ts =>
    match t.kind, t.explicitName? with
    | .scope name, _ => (t, some name) :: claim taken ts
    | _, some name =>
      if name ∈ taken then (t, none) :: claim taken ts
      else (t, some name) :: claim (name :: taken) ts
    | _, none => (t, none) :: claim taken ts

/-- The names that are claimed by tokens other than scope references. -/
def claimedNames (claims : List (Token × Option String)) : List String :=
  claims.filterMap fun (t, name) =>
    match t.kind with
    | .scope _ => none
    | _ => name

/-- The first number from `start` on whose name is free. One of `taken.length + 1` different
names is free. -/
def freeNumber (space : Namespace) (taken : List String) (start : Nat) : Nat :=
  ((List.range' start (taken.length + 1)).find? fun n => numbered space n ∉ taken).getD start

/-- The next number to try in each namespace. -/
structure Counters where
  attributes : Nat := 0
  uniforms : Nat := 0

def Counters.get (c : Counters) : Namespace → Nat
  | .attributes => c.attributes
  | .uniforms => c.uniforms

def Counters.set (c : Counters) (n : Nat) : Namespace → Counters
  | .attributes => { c with attributes := n }
  | .uniforms => { c with uniforms := n }

/-- Numbers the tokens that are still without a name. -/
def fill (taken : List String) (counters : Counters) :
    List (Token × Option String) → List NamedToken
  | [] => []
  | (t, some name) :: rest => ⟨name, t⟩ :: fill taken counters rest
  | (t, none) :: rest =>
    let space := Namespace.ofKind t.kind
    let n := freeNumber space taken (counters.get space)
    ⟨numbered space n, t⟩ :: fill taken (counters.set (n + 1) space) rest

end Naming

/-- Gives each of the distinct tokens its name. -/
def nameTokens (tokens : List Token) : List NamedToken :=
  let claims := Naming.claim [] tokens
  Naming.fill (Naming.claimedNames claims) {} claims

end ShaderStack
