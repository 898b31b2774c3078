/- Texture/Main
   digest: The program: arguments and files in, files and lines out. -/

import Texture.CommandLine

set_option autoImplicit false
set_option relaxedAutoImplicit false

namespace Texture.CommandLine

/-- The text of an open file; what cannot be read as text counts as empty. -/
def readText (file : IO.FS.Handle) : IO String := do
  try
    return (String.fromUTF8? (← file.readBinToEnd)).getD ""
  catch _ => return ""

def readText? (path : String) : IO (Option String) := do
  try
    return some (← readText (← IO.FS.Handle.mk path .read))
  catch _ => return none

def Content.bytes : Content → ByteArray
  | .text s => s.toUTF8
  | .picture p => p.toFile

def makeDirectory (directory : String) : IO (Option String) := do
  try
    IO.FS.createDirAll directory
    return none
  catch _ => return some (directoryFailure directory)

def writeTarget (target kind : String) (content : Content) : IO (Option String) := do
  let failure ← match directoryOf target with
    | some directory => makeDirectory directory
    | none => pure none
  match failure with
  | some message => return some message
  | none =>
    try
      IO.FS.writeBinFile target content.bytes
      return none
    catch _ => return some (writeFailure kind target)

def fail (message : String) : IO UInt32 := do
  IO.eprintln (failureText message)
  return 1

def report : Outcome → IO UInt32
  | .failure message => fail message
  | .listing text => do
    IO.print text
    return 0
  | .file target kind content => do
    match ← writeTarget target kind content with
    | some message => fail message
    | none =>
      IO.eprintln (writtenLine target)
      return 0

end Texture.CommandLine

/-- Carries out the command of the arguments. Bad usage ends with two, a failure with one. -/
def main (words : List String) : IO UInt32 := do
  match Texture.CommandLine.parse words with
  | none =>
    IO.eprintln
      "usage: texture <svg|render|inspect> --in FILE [--out FILE] [--resolution N] [--root ID]"
    return 2
  | some command =>
    Texture.CommandLine.report
      (Texture.CommandLine.run command (← Texture.CommandLine.readText? command.source))
