/-! Why files cannot be read or written. -/
namespace ShaderStack

inductive FileFault
  | missing
  | notADirectory
  | isDirectory
  | nameTooLong
  /-- No path can hold the character that ends one. -/
  | endInside
  | notText
  | other (reason : String)
  deriving DecidableEq, Repr

def FileFault.message : FileFault → String
  | missing => "No such file or directory (os error 2)"
  | notADirectory => "Not a directory (os error 20)"
  | isDirectory => "Is a directory (os error 21)"
  | nameTooLong => "File name too long (os error 36)"
  | endInside => "file name contained an unexpected NUL byte"
  | notText => "stream did not contain valid UTF-8"
  | other reason => reason

end ShaderStack
