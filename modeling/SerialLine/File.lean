import SerialLine.Error
/-!
Files as far as configurations are concerned: what a path leads to, reading it as text, and
writing text to it.
-/

set_option autoImplicit false

namespace SerialLine

/-- What a path leads to. -/
inductive File
  | missing
  | directory
  | bytes (content : List UInt8)
  deriving DecidableEq

namespace File

def notFound : IoError := ⟨.notFound, "No such file or directory (os error 2)"⟩

def isDirectory : IoError := ⟨.isADirectory, "Is a directory (os error 21)"⟩

def ofText (text : String) : File := .bytes text.toUTF8.toList

/-- The content of a file that holds text. -/
def readText : File → Except IoError String
  | .missing => .error notFound
  | .directory => .error isDirectory
  | .bytes content =>
    match String.fromUTF8? (ByteArray.mk content.toArray) with
    | some text => .ok text
    | none => .error ⟨.invalidData, "stream did not contain valid UTF-8"⟩

end File

/-- Where a file is to be written. -/
inductive Destination
  /-- A file, new or old, in a folder that exists. -/
  | file
  | directory
  | missingFolder
  deriving DecidableEq

/-- The file that holds a text once it is written. -/
def Destination.write (text : String) : Destination → Except IoError File
  | .file => .ok (File.ofText text)
  | .directory => .error File.isDirectory
  | .missingFolder => .error File.notFound

end SerialLine
