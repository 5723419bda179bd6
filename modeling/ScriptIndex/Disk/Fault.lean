/-!
# Failures of reading a file
-/
namespace ScriptIndex

inductive ReadFault where
  | notFound
  | notDirectory
  | isDirectory
  | longName
  | notText
  | zeroByte
  deriving DecidableEq, Repr

def ReadFault.message : ReadFault → String
  | notFound => "No such file or directory (os error 2)"
  | notDirectory => "Not a directory (os error 20)"
  | isDirectory => "Is a directory (os error 21)"
  | longName => "File name too long (os error 36)"
  | notText => "stream did not contain valid UTF-8"
  | zeroByte => "file name contained an unexpected NUL byte"

end ScriptIndex
