import ShaderStack.Device.Recording

/-! Log entries: events as a name and arguments.

The full entry of a call names its method and lists all arguments and the answer. The brief entry
keeps only calls that change state, and of uploads only their size. -/
namespace ShaderStack

inductive Datum
  | nothing
  | flag (b : Bool)
  | integer (n : Int)
  | text (s : String)
  | real (x : Single)
  | bytes (data : List UInt8)
  | list (items : List Datum)

namespace Datum

def natural (n : Nat) : Datum := integer n

def handle? : Option Handle → Datum
  | some h => natural h
  | none => nothing

def reals (xs : List Single) : Datum := list (xs.map real)

def integers (ns : List Int32) : Datum := list (ns.map fun n => integer n.toInt)

def layout (l : VertexLayout) : Datum :=
  list [integer l.components.toInt, text l.element.name, flag l.integer, integer l.stride.toInt]

def parameters (p : TextureParameters) : Datum :=
  list [text p.minFilter.name, text p.magFilter.name, text p.wrap.name]

def image (i : TextureImage) : Datum :=
  list [text i.internal.name, natural i.width.toNat, natural i.height.toNat, text i.format.name,
    text i.pixelType.name]

end Datum

/-- A name and its arguments. -/
structure LogEntry where
  name : String
  arguments : List Datum

namespace Command

open Datum

def full : Command → LogEntry
  | deleteProgram p => ⟨"delete_program", [natural p]⟩
  | useProgram p => ⟨"use_program", [handle? p]⟩
  | bindVertexArray v => ⟨"bind_vertex_array", [handle? v]⟩
  | deleteVertexArray v => ⟨"delete_vertex_array", [natural v]⟩
  | bindBuffer target b => ⟨"bind_buffer", [text target.name, handle? b]⟩
  | bufferData target data => ⟨"buffer_data", [text target.name, bytes data]⟩
  | deleteBuffer b => ⟨"delete_buffer", [natural b]⟩
  | vertexPointer location l => ⟨"vertex_attrib_pointer", [natural location, layout l]⟩
  | uniform location (.floats n values) =>
    ⟨"uniform_f32", [natural location, natural n, reals values]⟩
  | uniform location (.integers n values) =>
    ⟨"uniform_i32", [natural location, natural n, integers values]⟩
  | uniform location (.matrix n values) =>
    ⟨"uniform_matrix", [natural location, natural n, reals values]⟩
  | activeTexture unit => ⟨"active_texture", [natural unit.toNat]⟩
  | bindTexture t => ⟨"bind_texture", [handle? t]⟩
  | textureParameters p => ⟨"texture_parameters", [parameters p]⟩
  | textureImage i pixels =>
    ⟨"tex_image_2d", [image i, match pixels with | some data => bytes data | none => nothing]⟩
  | deleteTexture t => ⟨"delete_texture", [natural t]⟩
  | bindFramebuffer f => ⟨"bind_framebuffer", [handle? f]⟩
  | framebufferTexture t => ⟨"framebuffer_texture", [natural t]⟩
  | renderbufferStorage r internal w h =>
    ⟨"renderbuffer_storage",
      [natural r, text internal.name, natural w.toNat, natural h.toNat]⟩
  | framebufferRenderbuffer r => ⟨"framebuffer_renderbuffer", [natural r]⟩
  | deleteFramebuffer f => ⟨"delete_framebuffer", [natural f]⟩
  | deleteRenderbuffer r => ⟨"delete_renderbuffer", [natural r]⟩
  | viewport x y w h =>
    ⟨"viewport", [integer x.toInt, integer y.toInt, natural w.toNat, natural h.toNat]⟩
  | clear color depth => ⟨"clear", [reals color.channels, real depth]⟩
  | drawArrays mode first count =>
    ⟨"draw_arrays", [text mode.name, integer first.toInt, integer count.toInt]⟩
  | drawElements mode count type =>
    ⟨"draw_elements", [text mode.name, integer count.toInt, text type.name]⟩

def brief? : Command → Option LogEntry
  | deleteProgram p => some ⟨"DeleteProgram", [natural p]⟩
  | useProgram p => some ⟨"UseProgram", [handle? p]⟩
  | bindVertexArray v => some ⟨"BindVertexArray", [handle? v]⟩
  | deleteVertexArray v => some ⟨"DeleteVertexArray", [natural v]⟩
  | bindBuffer target b => some ⟨"BindBuffer", [text target.name, handle? b]⟩
  | bufferData target data => some ⟨"BufferData", [text target.name, natural data.length]⟩
  | deleteBuffer b => some ⟨"DeleteBuffer", [natural b]⟩
  | vertexPointer location l => some ⟨"VertexAttribPointer", [natural location, layout l]⟩
  | uniform location (.floats _ values) => some ⟨"UniformF32", [natural location, reals values]⟩
  | uniform location (.integers _ values) =>
    some ⟨"UniformI32", [natural location, integers values]⟩
  | uniform location (.matrix n _) => some ⟨"UniformMatrix", [natural location, natural n]⟩
  | activeTexture unit => some ⟨"ActiveTexture", [natural unit.toNat]⟩
  | bindTexture t => some ⟨"BindTexture", [handle? t]⟩
  | textureParameters p => some ⟨"TexParameters", [parameters p]⟩
  | textureImage i pixels => some ⟨"TexImage2D", [image i, flag pixels.isSome]⟩
  | deleteTexture t => some ⟨"DeleteTexture", [natural t]⟩
  | bindFramebuffer f => some ⟨"BindFramebuffer", [handle? f]⟩
  | framebufferTexture _ => none
  | renderbufferStorage _ internal w h =>
    some ⟨"RenderbufferStorage", [text internal.name, natural w.toNat, natural h.toNat]⟩
  | framebufferRenderbuffer _ => none
  | deleteFramebuffer f => some ⟨"DeleteFramebuffer", [natural f]⟩
  | deleteRenderbuffer _ => none
  | viewport _ _ w h => some ⟨"Viewport", [natural w.toNat, natural h.toNat]⟩
  | clear _ _ => some ⟨"Clear", []⟩
  | drawArrays mode first count =>
    some ⟨"DrawArrays", [text mode.name, integer first.toInt, integer count.toInt]⟩
  | drawElements mode count type =>
    some ⟨"DrawElements", [text mode.name, integer count.toInt, text type.name]⟩

end Command

namespace Event

open Datum

/-- A build failure is the device's own answer and leaves no entry; a refused allocation does. -/
def full? : Event → Option LogEntry
  | allocation a (.ok h) => some ⟨a.method, [natural h]⟩
  | allocation _ (.error (.buildFailure _ _)) => none
  | allocation a (.error _) => some ⟨a.method, [nothing]⟩
  | lookup (.attributeLocation p name) answer =>
    some ⟨"attribute_location", [natural p, text name, handle? answer]⟩
  | lookup (.uniformLocation p name) answer =>
    some ⟨"uniform_location", [natural p, text name, handle? answer]⟩
  | probe .framebufferComplete answer => some ⟨"framebuffer_complete", [flag answer]⟩
  | probe (.enableExtension name) answer => some ⟨"enable_extension", [text name, flag answer]⟩
  | command c => some c.full
  | read r =>
    some ⟨"read_pixels",
      [integer r.x.toInt, integer r.y.toInt, natural r.width.toNat, natural r.height.toNat,
        text r.format.name, text r.pixelType.name, natural r.bytes]⟩
  | callback _ => none

def brief? : Event → Option LogEntry
  | allocation (.program _ _) (.ok h) => some ⟨"LinkProgram", [natural h]⟩
  | allocation _ _ => none
  | lookup _ _ => none
  | probe _ _ => none
  | command c => c.brief?
  | read r => some ⟨"ReadPixels", [natural r.width.toNat, natural r.height.toNat]⟩
  | callback _ => none

end Event

namespace LogEntry

/-- Entries of one such kind, in a row, come from a collection without an order of its own. -/
def deletionKind (e : LogEntry) : Nat :=
  if e.name = "delete_program" ∨ e.name = "DeleteProgram" then 1
  else if e.name = "delete_framebuffer" ∨ e.name = "delete_renderbuffer" ∨
      e.name = "DeleteFramebuffer" then 2
  else 0

/-- The object that an entry is about. -/
def object (e : LogEntry) : Int :=
  match e.arguments with
  | .integer n :: _ => n
  | _ => 0

def precedes (a b : LogEntry) : Bool :=
  a.name < b.name || (a.name == b.name && a.object ≤ b.object)

/-- Sorts every run of program deletions, and of framebuffer and renderbuffer deletions, by name
and object. -/
def sortDeletions (entries : List LogEntry) : List LogEntry :=
  let runs := entries.splitBy fun a b => a.deletionKind = b.deletionKind && a.deletionKind ≠ 0
  runs.flatMap fun run => run.mergeSort precedes

end LogEntry
end ShaderStack
