import ScriptBlocks.FileSystem
import ScriptBlocks.Text.Lines
import ScriptBlocks.Text.Utf8

/-!
# Text files

A text file is read as UTF-8 with unified newlines.
-/

namespace ScriptBlocks.TextFile

/-- Why a file has no text. -/
inductive ReadError where
  | file (error : FileError)
  | notUtf8 (fault : Utf8.Fault)
  deriving DecidableEq, Repr

/-- The fault in words: the byte, or the range of bytes, that is refused and why. -/
def faultMessage (fault : Utf8.Fault) : String :=
  let what :=
    if fault.width = 1 then
      let byte := String.ofList (Text.hexDigits 2 fault.byte.toNat)
      s!"byte 0x{byte} in position {fault.start}"
    else s!"bytes in position {fault.start}-{fault.start + fault.width - 1}"
  "'utf-8' codec can't decode " ++ what ++ ": " ++ fault.reason.message

def ReadError.message : ReadError → String
  | file error => error.message
  | notUtf8 fault => faultMessage fault

/-- The text of bytes. -/
def textOfBytes (bytes : List UInt8) : Except ReadError (List Char) :=
  match Utf8.decode bytes with
  | .ok s => .ok (Text.unifyNewlines s)
  | .error fault => .error (.notUtf8 fault)

/-- The text of the file that a path leads to. -/
def read (fs : FileSystem) (p : Path) : Except ReadError (List Char) :=
  match fs.read p with
  | .ok bytes => textOfBytes bytes
  | .error error => .error (.file error)

end ScriptBlocks.TextFile
