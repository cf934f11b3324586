import Rendezvous.Address.Error
import Rendezvous.Time.Duration

/-!
# Failures

What can go wrong between the controller and the nodes: a command that did not run or did not end
well, a cache that does not answer, and a resolution that comes to no result for one of these
reasons.
-/

namespace Rendezvous

/-- Why a command brought no output. -/
inductive ExecError where
  /-- The workload could not be reached. -/
  | transport (text : String)
  /-- The command ended with a code, or by a signal, which has none. -/
  | commandFailed (code : Option Int) (stderr : String)
  /-- The command took longer than it was allowed to. -/
  | timeout (after : Duration)
deriving DecidableEq, Repr

namespace ExecError

/-- An exit code, or the lack of one. -/
def codeText : Option Int → String
  | some code => s!"Some({code})"
  | none => "None"

/-- The sentence shown for a failed command. -/
def message : ExecError → String
  | .transport text => "Transport error: " ++ text
  | .commandFailed code stderr => s!"Command exited with {codeText code}: {stderr}"
  | .timeout after => "Command timed out after " ++ after.text

end ExecError

/-- Why the cache did not answer. -/
inductive CacheError where
  /-- It could not be reached. -/
  | unavailable (text : String)
  /-- Reading or writing it failed. -/
  | io (text : String)
deriving DecidableEq, Repr

/-- The sentence shown for a cache that did not answer. -/
def CacheError.message : CacheError → String
  | .unavailable text => "Cache unavailable: " ++ text
  | .io text => "Cache IO error: " ++ text

/-- Why a node was not resolved. -/
inductive ResolveError where
  /-- A command on a node failed. -/
  | execution (node : String) (source : ExecError)
  /-- A probe of a node came back blank. -/
  | emptyIdentity (node : String)
  /-- An identifier, an IP address or an address of a node is malformed. -/
  | format (node : String) (source : FormatError)
  /-- The cache did not answer. -/
  | cache (source : CacheError)
  /-- The controller is shutting down. -/
  | cancelled
deriving DecidableEq, Repr

namespace ResolveError

/-- The sentence shown for a failed resolution. -/
def message : ResolveError → String
  | .execution node source => s!"Remote execution failed on {node}: " ++ source.message
  | .emptyIdentity node => "Empty identity returned by " ++ node
  | .format node source => s!"Invalid address for {node}: " ++ source.message
  | .cache source => source.message
  | .cancelled => "Resolution cancelled"

/-- Whether the failure may go away by itself. -/
def isTransient : ResolveError → Bool
  | .execution .. | .emptyIdentity _ | .cache _ => true
  | .format .. | .cancelled => false

/-- Whether something was malformed. -/
def isFormat : ResolveError → Bool
  | .format .. => true
  | _ => false

end ResolveError

end Rendezvous
