import DaemonLink.Program
import Std.Time.Format

/-!
# The command line

The outer layer. It looks up on the disk what a run can ask about, lets the
program run on a machine that holds just that, and prints what came of it.
-/

namespace DaemonLink.Main

/-- What is at a path on the disk, if it can be told. -/
def lookUp (path : String) : IO (Option Happening) := do
  try
    let data ← IO.FS.readBinFile path
    pure (some (.fileAppears (text path) data.data.toList))
  catch _ =>
    try
      let _ ← IO.FS.realPath path
      pure (some (.directoryAppears (text path)))
    catch _ => pure none

/-- A machine with what the words of a command line could name. -/
def machine (words : List String) : IO Host := do
  let defaults : Arguments := {}
  let mut h := Host.new .bare FileTree.root
  for path in (String.fromUTF8? ⟨defaults.configPath.toArray⟩).toList ++ words do
    match ← lookUp path with
    | some what => h := h.after what
    | none => pure ()
  pure h

/-- The present moment and thread. -/
def stampNow : IO Stamp := do
  let now ← Std.Time.PlainDateTime.now
  pure ⟨text (now.format "uuuu-MM-dd HH:mm:ss"), decimal (← IO.getTID).toNat⟩

/-- Print bytes as they are. -/
def print (stream : IO.FS.Stream) (bytes : Bytes) : IO Unit := do
  stream.write ⟨bytes.toArray⟩
  stream.flush

end DaemonLink.Main

/-- Run the program on the words after its name. -/
def main (words : List String) : IO UInt32 := do
  let h ← DaemonLink.Main.machine words
  let stamp ← DaemonLink.Main.stampNow
  match DaemonLink.Program.run (words.map DaemonLink.text) stamp h with
  | .error _ => do
      DaemonLink.Main.print (← IO.getStderr)
        (DaemonLink.text "nipc: a document would have to be read here\n")
      pure DaemonLink.ExitCode.internal.code.toUInt32
  | .ok ended => do
      DaemonLink.Main.print (← IO.getStdout) ended.out
      DaemonLink.Main.print (← IO.getStderr) (ended.err.flatMap DaemonLink.Output.bytes)
      pure ended.exit.code.toUInt32
