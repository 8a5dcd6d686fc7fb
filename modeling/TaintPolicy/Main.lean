import Std.Time.DateTime.Timestamp
import TaintPolicy.Command.Run

/-!
# The program

Runs one command on the real file system.
-/

namespace TaintPolicy.Main

def attempt {α : Type} (act : IO α) : IO (Option α) := do
  try return some (← act)
  catch _ => return none

def now : IO Timestamp := do
  let t ← Std.Time.Timestamp.now
  let nanos := t.toNanosecondsSinceUnixEpoch.val
  return ⟨nanos.fdiv 1000000000, (nanos.emod 1000000000).toNat⟩

def seed : IO String := do
  let bytes ← IO.getRandomBytes 16
  return toString bytes.toList

def host : Host IO where
  read path := do
    return (← attempt (IO.FS.readBinFile path)).bind String.fromUTF8?
  holds path := return (← attempt (IO.FS.realPath path)).isSome
  absolute path := return (← attempt (IO.FS.realPath path)).map toString
  write path text := return (← attempt (IO.FS.writeFile path text)).isSome
  now := now
  seed := seed

end TaintPolicy.Main

def main (args : List String) : IO UInt32 := do
  let outcome ← TaintPolicy.Command.run TaintPolicy.Main.host args
  IO.print outcome.output
  match outcome.complaint with
  | some c => IO.eprintln ("Error: " ++ c.message)
  | none => if outcome.exit = 2 then IO.eprintln "Usage: sentinel [OPTIONS] <COMMAND>"
  return outcome.exit.toUInt32
