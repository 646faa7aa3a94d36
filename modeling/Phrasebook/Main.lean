/-
  Phrasebook.Main
  ────────────────────────────────
  **THE PROGRAM.**

  Runs the errand of a command line against the file system, and writes its
  outcome.
-/
import Phrasebook.Cli.Program

namespace Phrasebook

/-- The number of an error of the system; some come with the sign turned. -/
def systemCode (code : UInt32) : UInt32 :=
  if code < 0x80000000 then code else 0 - code

/-- The wording of an error of the system. -/
def systemText (code : UInt32) (details : String) : String :=
  details.capitalize ++ " (os error " ++ toString (systemCode code) ++ ")"

/-- Why a file could not be read. -/
def readErrorOf : IO.Error → ReadError
  | .noFileOrDirectory _ _ _ => .missing
  | .inappropriateType _ code details | .permissionDenied _ code details
  | .invalidArgument _ code details | .resourceExhausted _ code details
  | .otherError code details => .failed (systemText code details)
  | e => .failed (toString e)

/-- The text of a file. -/
def readFileAt (path : String) : IO Reading := do
  if path.contains '\x00' then return .error FileTree.nulInName
  try
    let bytes ← IO.FS.readBinFile path
    match String.fromUTF8? bytes with
    | some text => pure (.ok text)
    | none => pure (.error FileTree.notText)
  catch e => pure (.error (readErrorOf e))

/-- Do an errand. -/
def Errand.perform {α : Type} : Errand α → IO α
  | .done a => pure a
  | .read path next => do
    let answer ← readFileAt path
    (next answer).perform
  | .announce _ next => next.perform

/-- More files than can import one another in a row: each takes a frame of
the stack, which ends long before. -/
def importDepth : Nat := 1000000

end Phrasebook

open Phrasebook

/-- Run the command line. -/
def main (args : List String) : IO UInt32 := do
  let outcome ← (Cli.program importDepth args).perform
  let output ← IO.getStdout
  let errors ← IO.getStderr
  for line in outcome.output do
    output.putStrLn line
  for complaint in outcome.complaints do
    errors.putStrLn complaint.text
  pure outcome.code.toUInt32
