/-
The command line. Everything that is decided is decided by `Invocation.run`; what is
left here is to fetch what it is run on and to print what it gives back. The host has no
window and no sound: it grants every call, and its keyboard is a key script on standard
input, one line to a frame.
-/

import Chip8.Program

namespace Chip8

/-- What a path leads to on the disk. Only files are told apart from nothing. -/
def diskEntry (path : String) : IO (Option Entry) := do
  try
    let contents ← IO.FS.readBinFile path
    return some (.file contents.toList)
  catch _ => return none

/-- The frames of the key script on standard input. It is left alone if it is not needed. -/
def scriptFrames (options : Options) : IO (List Frame) := do
  if options.disassemble then return []
  return Frame.ofScript (← (← IO.getStdin).readToEnd)

/-- The host without a window. -/
def silentHost : Host :=
  { Host.willing with renderer := "none", drawingVersion := "none", speaker := "none" }

end Chip8

open Chip8 in
/-- Runs the program on the files of the disk and the keys of standard input. -/
def main (arguments : List String) : IO UInt32 := do
  let options := (Options.parse arguments).options
  let assets := "assets"
  let named ← diskEntry options.rom
  let asset ← diskEntry (assetPath assets options.rom)
  let activity := Invocation.run {
    arguments := arguments
    files := fun path =>
      if path = options.rom then named
      else if path = assetPath assets options.rom then asset
      else none
    assets := assets
    host := silentHost
    frames := ← scriptFrames options
    seed := UInt64.ofNat (← IO.monoNanosNow) }
  let stdout ← IO.getStdout
  let stderr ← IO.getStderr
  for line in activity.output do stdout.putStrLn line
  for record in activity.log do stderr.putStrLn record.line
  return activity.exit.code
