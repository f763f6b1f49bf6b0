import ShaderStack.Device.Log

/-! Device calls over an OpenGL function table.

Every call becomes a sequence of entry points with numeric constants. The library behind the
table is scripted: it says which build steps fail, where inputs are located, and what a
framebuffer's status is. Object names come from one counter, shaders and programs included. -/
namespace ShaderStack.OpenGL

/-- What the library answers. A log that is there makes its build step fail. -/
structure Script where
  embedded : Bool := true
  extensions : List String := []
  vertexLog : Option String := none
  fragmentLog : Option String := none
  linkLog : Option String := none
  attributes : List (String × Int) := []
  uniforms : List (String × Int) := []
  status : Nat := 36053

/-- Whether a version text is that of an embedded profile. -/
def isEmbeddedVersion (version : String) : Bool := Text.occurs " ES ".toList version.toList

structure Table where
  script : Script := {}
  calls : Array LogEntry := #[]
  nextName : Nat := 1

/-! Numeric constants of the interface. -/

def texture2D : Nat := 0x0DE1
def renderbufferTarget : Nat := 0x8D41
def framebufferTarget : Nat := 0x8D40
def colorAttachment0 : Nat := 0x8CE0
def framebufferCompleteStatus : Nat := 0x8CD5
def vertexShader : Nat := 0x8B31
def fragmentShader : Nat := 0x8B30
def texture0 : UInt32 := 0x84C0
def dynamicDraw : Nat := 0x88E8
def depthTest : Nat := 0x0B71
def lessOrEqual : Nat := 0x0203
def colorAndDepthBits : Nat := 0x4000 + 0x0100
def unpackAlignment : Nat := 0x0CF5
def packAlignment : Nat := 0x0D05
def textureMinFilter : Nat := 0x2801
def textureMagFilter : Nat := 0x2800
def textureWrapS : Nat := 0x2802
def textureWrapT : Nat := 0x2803

def bufferTarget : BufferTarget → Nat
  | .array => 0x8892
  | .elementArray => 0x8893

def elementType : ElementKind → Nat
  | .i8 => 0x1400
  | .u8 => 0x1401
  | .i16 => 0x1402
  | .u16 => 0x1403
  | .i32 => 0x1404
  | .u32 => 0x1405
  | .f32 => 0x1406

def indexType : IndexType → Nat
  | .u8 => 0x1401
  | .u16 => 0x1403
  | .u32 => 0x1405

def drawMode : DrawMode → Nat
  | .points => 0
  | .lines => 1
  | .lineLoop => 2
  | .lineStrip => 3
  | .triangles => 4
  | .triangleStrip => 5
  | .triangleFan => 6

def internalFormat : InternalFormat → Nat
  | .r8 => 0x8229
  | .rg8 => 0x822B
  | .rgb8 => 0x8051
  | .rgba8 => 0x8058
  | .luminance => 0x1909
  | .r16f => 0x822D
  | .rg16f => 0x822F
  | .rgba16f => 0x881A
  | .r32f => 0x822E
  | .rg32f => 0x8230
  | .rgb32f => 0x8815
  | .rgba32f => 0x8814

def pixelFormat : TextureFormat → Nat
  | .red => 0x1903
  | .rg => 0x8227
  | .rgb => 0x1907
  | .rgba => 0x1908
  | .luminance => 0x1909

def pixelType : PixelType → Nat
  | .unsignedByte => 0x1401
  | .float => 0x1406

def filter : TextureFilter → Nat
  | .nearest => 0x2600
  | .linear => 0x2601

def wrap : TextureWrap → Nat
  | .clampToEdge => 0x812F
  | .repeated => 0x2901
  | .mirroredRepeat => 0x8370

open Datum

/-- A word that the interface takes as signed. -/
def signed (n : Nat) : Datum := integer (UInt32.ofNat n).toInt32.toInt

/-- No object is spelled zero. -/
def name? (h : Option Handle) : Datum := natural (h.getD 0)

namespace Table

def call (name : String) (arguments : List Datum) (t : Table) : Table :=
  { t with calls := t.calls.push ⟨name, arguments⟩ }

/-- A new name, logged as the last argument of the entry point that makes it. -/
def make (name : String) (arguments : List Datum) (t : Table) : Nat × Table :=
  let t' := t.call name (arguments ++ [natural t.nextName])
  (t.nextName, { t' with nextName := t.nextName + 1 })

def makeOne (name : String) (t : Table) : Nat × Table := t.make name [natural 1]

def deleteOne (name : String) (object : Handle) (t : Table) : Table :=
  t.call name [natural 1, natural object]

/-- A compiled shader, or the log of the failure after the shader was deleted. -/
def compileStage (stage : BuildStage) (kind : Nat) (source : String) (log : Option String)
    (t : Table) : Except RenderError Nat × Table :=
  let (shader, t) := t.make "glCreateShader" [natural kind]
  let t := t.call "glShaderSource" [natural shader, natural 1, text source]
  let t := t.call "glCompileShader" [natural shader]
  match log with
  | some log => (.error (.buildFailure stage log), t.call "glDeleteShader" [natural shader])
  | none => (.ok shader, t)

def linkStages (vertex fragment : Nat) (t : Table) : Except RenderError Handle × Table :=
  let (program, t) := t.make "glCreateProgram" []
  let t := t.call "glAttachShader" [natural program, natural vertex]
  let t := t.call "glAttachShader" [natural program, natural fragment]
  let t := t.call "glLinkProgram" [natural program]
  let t := t.call "glDetachShader" [natural program, natural vertex]
  let t := t.call "glDetachShader" [natural program, natural fragment]
  let t := t.call "glDeleteShader" [natural vertex]
  let t := t.call "glDeleteShader" [natural fragment]
  match t.script.linkLog with
  | some log => (.error (.buildFailure .link log), t.call "glDeleteProgram" [natural program])
  | none => (.ok program, t)

def build (vertex fragment : String) (t : Table) : Except RenderError Handle × Table :=
  match t.compileStage .vertex vertexShader vertex t.script.vertexLog with
  | (.error e, t) => (.error e, t)
  | (.ok vs, t) =>
    match t.compileStage .fragment fragmentShader fragment t.script.fragmentLog with
    | (.error e, t) => (.error e, t.call "glDeleteShader" [natural vs])
    | (.ok fs, t) => t.linkStages vs fs

def allocate (a : Allocation) (t : Table) : Except RenderError Handle × Table :=
  let made (name : String) : Except RenderError Handle × Table :=
    let (object, t) := t.makeOne name
    (.ok object, t)
  match a with
  | .program vertex fragment => t.build vertex fragment
  | .vertexArray => made "glGenVertexArrays"
  | .buffer => made "glGenBuffers"
  | .texture => made "glGenTextures"
  | .framebuffer => made "glGenFramebuffers"
  | .renderbuffer => made "glGenRenderbuffers"

/-- A location is there when the library does not answer with a negative number. -/
def lookup (l : Lookup) (t : Table) : Option Location × Table :=
  let ask (method : String) (program : Handle) (name : String) (known : List (String × Int)) :
      Option Location × Table :=
    let answer := (known.lookup name).getD (-1)
    (if answer < 0 then none else some answer.toNat,
      t.call method [natural program, text name, integer answer])
  match l with
  | .attributeLocation program name =>
    ask "glGetAttribLocation" program name t.script.attributes
  | .uniformLocation program name =>
    ask "glGetUniformLocation" program name t.script.uniforms

/-- An extension may be listed with or without its family name. Float colour buffers are part of
every desktop version. -/
def probe (p : Probe) (t : Table) : Bool × Table :=
  match p with
  | .framebufferComplete =>
    (t.script.status = framebufferCompleteStatus,
      t.call "glCheckFramebufferStatus" [natural framebufferTarget, natural t.script.status])
  | .enableExtension name =>
    (t.script.extensions.contains name || t.script.extensions.contains ("GL_" ++ name) ||
      !t.script.embedded, t)

/-- Values in whole groups of `width`; what is left over is not sent. -/
def sendGroups (name : String) (location : Location) (width : Nat) (flags : List Datum)
    (values : List Datum) (t : Table) : Table :=
  let count := values.length / width
  t.call name ([signed location, natural count] ++ flags ++ [list (values.take (count * width))])

/-- Vectors have one to four components and matrices two to four columns; nothing else is sent. -/
def pushUniform (location : Location) (push : UniformPush) (t : Table) : Table :=
  match push with
  | .floats n values =>
    if 1 ≤ n ∧ n ≤ 4 then
      t.sendGroups s!"glUniform{n}fv" location n [] (values.map real)
    else t
  | .integers n values =>
    if 1 ≤ n ∧ n ≤ 4 then
      t.sendGroups s!"glUniform{n}iv" location n [] (values.map fun v => integer v.toInt)
    else t
  | .matrix n values =>
    if 2 ≤ n ∧ n ≤ 4 then
      t.sendGroups s!"glUniformMatrix{n}fv" location (n * n) [natural 0] (values.map real)
    else t

def textureParameter (parameter value : Nat) (t : Table) : Table :=
  t.call "glTexParameteri" [natural texture2D, natural parameter, natural value]

def command (c : Command) (t : Table) : Table :=
  match c with
  | .deleteProgram p => t.call "glDeleteProgram" [natural p]
  | .useProgram p => t.call "glUseProgram" [name? p]
  | .bindVertexArray v => t.call "glBindVertexArray" [name? v]
  | .deleteVertexArray v => t.deleteOne "glDeleteVertexArrays" v
  | .bindBuffer target b => t.call "glBindBuffer" [natural (bufferTarget target), name? b]
  | .bufferData target data =>
    t.call "glBufferData" [natural (bufferTarget target), bytes data, natural dynamicDraw]
  | .deleteBuffer b => t.deleteOne "glDeleteBuffers" b
  | .vertexPointer location layout =>
    let t := t.call "glEnableVertexAttribArray" [natural location]
    let size := integer layout.components.toInt
    let type := natural (elementType layout.element)
    if layout.integer then
      t.call "glVertexAttribIPointer" [natural location, size, type, natural 0, natural 0]
    else
      t.call "glVertexAttribPointer"
        [natural location, size, type, natural 0, natural 0, natural 0]
  | .uniform location push => t.pushUniform location push
  | .activeTexture unit => t.call "glActiveTexture" [natural (texture0 + unit).toNat]
  | .bindTexture texture => t.call "glBindTexture" [natural texture2D, name? texture]
  | .textureParameters p =>
    let t := t.textureParameter textureMinFilter (filter p.minFilter)
    let t := t.textureParameter textureMagFilter (filter p.magFilter)
    let t := t.textureParameter textureWrapS (wrap p.wrap)
    t.textureParameter textureWrapT (wrap p.wrap)
  | .textureImage i pixels =>
    let t := t.call "glPixelStorei" [natural unpackAlignment, natural 1]
    t.call "glTexImage2D"
      [natural texture2D, natural 0, natural (internalFormat i.internal), signed i.width.toNat,
        signed i.height.toNat, natural 0, natural (pixelFormat i.format),
        natural (pixelType i.pixelType), flag pixels.isSome]
  | .deleteTexture texture => t.deleteOne "glDeleteTextures" texture
  | .bindFramebuffer f => t.call "glBindFramebuffer" [natural framebufferTarget, name? f]
  | .framebufferTexture texture =>
    t.call "glFramebufferTexture2D"
      [natural framebufferTarget, natural colorAttachment0, natural texture2D, natural texture,
        natural 0]
  | .renderbufferStorage r internal width height =>
    let t := t.call "glBindRenderbuffer" [natural renderbufferTarget, natural r]
    let t := t.call "glRenderbufferStorage"
      [natural renderbufferTarget, natural (internalFormat internal), signed width.toNat,
        signed height.toNat]
    t.call "glBindRenderbuffer" [natural renderbufferTarget, natural 0]
  | .framebufferRenderbuffer r =>
    t.call "glFramebufferRenderbuffer"
      [natural framebufferTarget, natural colorAttachment0, natural renderbufferTarget, natural r]
  | .deleteFramebuffer f => t.deleteOne "glDeleteFramebuffers" f
  | .deleteRenderbuffer r => t.deleteOne "glDeleteRenderbuffers" r
  | .viewport x y width height =>
    t.call "glViewport"
      [integer x.toInt, integer y.toInt, signed width.toNat, signed height.toNat]
  | .clear color depth =>
    let t := t.call "glClearColor" (color.channels.map real)
    let t := t.call "glClearDepthf" [real depth]
    let t := t.call "glEnable" [natural depthTest]
    let t := t.call "glDepthFunc" [natural lessOrEqual]
    t.call "glClear" [natural colorAndDepthBits]
  | .drawArrays mode first count =>
    t.call "glDrawArrays" [natural (drawMode mode), integer first.toInt, integer count.toInt]
  | .drawElements mode count type =>
    t.call "glDrawElements"
      [natural (drawMode mode), integer count.toInt, natural (indexType type), natural 0]

/-- The library stores nothing. -/
def read (r : PixelRead) (t : Table) : Readback × Table :=
  let t := t.call "glPixelStorei" [natural packAlignment, natural 1]
  (fun _ => none,
    t.call "glReadPixels"
      [integer r.x.toInt, integer r.y.toInt, signed r.width.toNat, signed r.height.toNat,
        natural (pixelFormat r.format), natural (pixelType r.pixelType)])

instance : GraphicsDevice Table where
  allocate := allocate
  lookup := lookup
  probe := probe
  command := command
  read := read

end Table
end ShaderStack.OpenGL
