import ShaderStack.Picture.Basic

/-! Pictures as PNG files, with their pixel data stored rather than compressed. -/
namespace ShaderStack.Png

def bigEndian (n : Nat) : List UInt8 :=
  [UInt8.ofNat (n >>> 24), UInt8.ofNat (n >>> 16), UInt8.ofNat (n >>> 8), UInt8.ofNat n]

/-- One bit of the reflected CRC-32. -/
def crcBit (crc : UInt32) : UInt32 :=
  if crc &&& 1 = 1 then (crc >>> 1) ^^^ 0xedb88320 else crc >>> 1

def crcByte (crc : UInt32) (byte : UInt8) : UInt32 :=
  Nat.repeat crcBit 8 (crc ^^^ byte.toUInt32)

def crc32 (data : ByteArray) : UInt32 :=
  data.foldl crcByte 0xffffffff ^^^ 0xffffffff

/-- Both sums of Adler-32, modulo 65521. -/
def adlerStep (sums : Nat × Nat) (byte : UInt8) : Nat × Nat :=
  let a := (sums.1 + byte.toNat) % 65521
  (a, (sums.2 + a) % 65521)

def adler32 (data : ByteArray) : Nat :=
  let (a, b) := data.foldl adlerStep (1, 0)
  b * 0x10000 + a

def ofList (bytes : List UInt8) : ByteArray := ⟨bytes.toArray⟩

/-- Length, type and data of a chunk, and the check sum of type and data. -/
def chunk (type : String) (data : ByteArray) : ByteArray :=
  let body := type.toUTF8 ++ data
  ofList (bigEndian data.size) ++ body ++ ofList (bigEndian (crc32 body).toNat)

/-- Every row of the picture after a byte that says that it is not filtered. -/
def rows (p : Picture) : ByteArray :=
  (List.range p.height).foldl
    (fun out row =>
      (List.range p.rowBytes).foldl (fun out i => out.push (p.byteAt (row * p.rowBytes + i)))
        (out.push 0))
    ByteArray.empty

/-- The most bytes that a stored block holds. -/
def blockLimit : Nat := 65535

/-- A stored block; the first byte tells whether it is the last one. -/
def block (last : Bool) (data : ByteArray) : ByteArray :=
  let low := UInt8.ofNat data.size
  let high := UInt8.ofNat (data.size / 256)
  ofList [if last then 1 else 0, low, high, ~~~low, ~~~high] ++ data

/-- The data as a stream of stored blocks with its check sum. -/
def stored (data : ByteArray) : ByteArray :=
  let count := max 1 ((data.size + blockLimit - 1) / blockLimit)
  let blocks := (List.range count).foldl
    (fun out i =>
      out ++ block (i + 1 = count) (data.extract (i * blockLimit) ((i + 1) * blockLimit)))
    ByteArray.empty
  ofList [0x78, 0x01] ++ blocks ++ ofList (bigEndian (adler32 data))

/-- Eight bits a channel, with alpha, not interlaced. -/
def encode (p : Picture) : ByteArray :=
  ofList [0x89, 0x50, 0x4e, 0x47, 0x0d, 0x0a, 0x1a, 0x0a] ++
    chunk "IHDR" (ofList (bigEndian p.width ++ bigEndian p.height ++ [8, 6, 0, 0, 0])) ++
    chunk "IDAT" (stored (rows p)) ++
    chunk "IEND" ByteArray.empty

end ShaderStack.Png
