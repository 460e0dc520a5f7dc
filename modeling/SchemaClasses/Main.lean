import SchemaClasses.Command.Execute
import SchemaClasses.Document.FileTree

/-!
# The program

Runs a command line on the files of this machine.
-/

namespace SchemaClasses

/-- Whether there is something at a path. -/
def pathExists (path : String) : IO Bool := do
  try
    discard <| IO.FS.realPath path
    return true
  catch _ => return false

/-- Access to the files of this machine. -/
def machineFiles : FileAccess IO where
  absolute? path := do
    if path = "" ∨ !(← pathExists path) then return none
    else
      let absolute ← IO.FS.realPath path
      return some ((FileTree.splitPath absolute.toString).filter fun segment => segment ≠ "")
  read path := do
    match path.text? with
    | none => return .missing
    | some path =>
      if path = "" ∨ !(← pathExists path) then return .missing
      else
        try return .bytes (← IO.FS.readBinFile path)
        catch _ => return .unreadable
  write path text := do
    try
      IO.FS.writeFile path text
      return true
    catch _ => return false

/-- What the program says about a command line that it cannot read. -/
def usage : String :=
  "usage: (flatten | inline | models) SOURCE [--base-uri URI] [--no-inline] [--output FILE]" ++
    " [--pretty] [--verbose] [--format FORMAT] [--root-name NAME]\n"

end SchemaClasses

open SchemaClasses in
/-- Runs the command line that the program was started with. -/
def main (arguments : List String) : IO UInt32 := do
  match Invocation.ofArguments? arguments with
  | none =>
    (← IO.getStderr).putStr usage
    return 2
  | some invocation =>
    let result ← invocation.run machineFiles
    (← IO.getStdout).putStr result.stdout
    (← IO.getStderr).putStr result.stderr
    return UInt32.ofNat result.exitCode
