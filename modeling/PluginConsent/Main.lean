import PluginConsent.CommandLine.Run
import PluginConsent.Files.Snapshot

/-!
The command line. It works on a snapshot of files: the first line of standard input is the snapshot
before the command, and what follows is the input of the command itself. The first line of standard
output is the snapshot after it, and what follows is what the command prints.
-/

namespace PluginConsent.CommandLine

partial def readRest (input : IO.FS.Stream) (done : ByteArray) : IO ByteArray := do
  let chunk ← input.read 65536
  if chunk.isEmpty then return done
  readRest input (done ++ chunk)

/-- Without a variable for it, or if the snapshot lacks it, the working directory is the root. The
account is told from its name. -/
def surroundings (t : Tree) : IO Surroundings := do
  let directory := (← IO.getEnv "PWD").getD "/"
  let cwd := (t.locate .root directory).toOption.getD []
  let account := if (← IO.getEnv "USER") = some "root" then Account.privileged else .owner
  return ⟨.ofLocation cwd, ← IO.getEnv "HOME", account⟩

def serve (args : List String) : IO UInt32 := do
  let input ← IO.getStdin
  match Tree.ofSnapshot? (← input.getLine) with
  | none =>
    (← IO.getStderr).putStrLn "error: the first line of the input must be a snapshot of files"
    return 1
  | some t =>
    let rest ← readRest input ByteArray.empty
    let env : Environment := ⟨← surroundings t, none, ← IO.getEnv "PLUGIN_PERMS_LOG", rest⟩
    let (t', out) := run env t args
    IO.println t'.snapshot
    IO.print out.stdout
    IO.eprint out.stderr
    return UInt32.ofNat out.code

end PluginConsent.CommandLine

def main (args : List String) : IO UInt32 := PluginConsent.CommandLine.serve args
