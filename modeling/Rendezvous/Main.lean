import Rendezvous.Peer.Document
import Rendezvous.Text.Pieces

/-!
# The command line

Checks a configuration before it is handed to the controller: reads the file, fills in the defaults
of the namespace, and prints either how much is configured or why the file cannot be used.
-/

namespace Rendezvous

/-- What the command line asks for. -/
structure Arguments where
  /-- The file with the configuration. -/
  file : String := "/etc/peering/config.yaml"
  /-- The namespace of the workloads. -/
  space : Option String := none
deriving DecidableEq, Repr, Inhabited

namespace Arguments

/-- Read the words of a command line. -/
def ofWords? (a : Arguments) : List String → Option Arguments
  | [] => some a
  | [_] => none
  | option :: value :: words =>
    if option = "--config" ∨ option = "-c" then ofWords? { a with file := value } words
    else if option = "--namespace" ∨ option = "-n" then
      ofWords? { a with space := some value } words
    else none

/-- What is told about the content of the file, and whether it can be used. -/
def report (a : Arguments) (content : Option ByteArray) : String × Bool :=
  let path : DiskPath := (Text.splitAt '/' a.file.toList).map String.ofList
  match Config.ofContent path content (Config.spaceOrDefault a.space) with
  | .ok c =>
    (toString c.groups.length ++ " peer group(s), " ++ toString c.peers.length ++ " peer(s)", true)
  | .error e => (e.message, false)

end Arguments

end Rendezvous

/-- Check the configuration that the command line names. -/
def main (words : List String) : IO UInt32 := do
  match Rendezvous.Arguments.ofWords? {} words with
  | none =>
    IO.eprintln "usage: rendezvous [--config FILE] [--namespace NAME]"
    return 2
  | some arguments =>
    let content ← try some <$> IO.FS.readBinFile arguments.file catch _ => pure none
    let (text, isUsable) := arguments.report content
    if isUsable then IO.println text else IO.eprintln text
    return if isUsable then 0 else 1
