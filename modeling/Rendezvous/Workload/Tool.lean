import Rendezvous.Failure
import Rendezvous.Text.Blank
import Rendezvous.Text.Lossy
import Rendezvous.Text.Pieces
import Rendezvous.Workload.Request
import Rendezvous.Workload.StatefulSet

/-!
# The cluster tool

The program through which the controller reaches the cluster: what its runs mean. A run that does
not start is a failure of transport, a run that does not end with success is a failed command, and
only the output of a successful run counts.
-/

namespace Rendezvous

/-- Why a program did not start. -/
inductive LaunchError where
  /-- There is no program of that name. -/
  | notFound
  /-- What has that name cannot be run. -/
  | notPermitted
deriving DecidableEq, Repr

/-- The words of the system for a program that did not start. -/
def LaunchError.text : LaunchError → String
  | .notFound => "No such file or directory (os error 2)"
  | .notPermitted => "Permission denied (os error 13)"

/-- One run of the tool. -/
inductive ToolRun where
  /-- It did not start. -/
  | notStarted (binary : String) (e : LaunchError)
  /-- It ended with a code, or by a signal, and had printed something. -/
  | ended (code : Option Int) (stdout stderr : List UInt8)
deriving DecidableEq, Repr

namespace ToolRun

/-- The failure of a run that did not start. -/
def launchFailure (binary : String) (e : LaunchError) : ExecError :=
  .transport s!"{binary}: {e.text}"

/-- What a run prints to its error output, trimmed. -/
def complaint (stderr : List UInt8) : String :=
  Text.trim (Text.decodeLossy stderr)

/-- The answer to a command that was run through the tool. -/
def answer : ToolRun → Except ExecError String
  | .notStarted binary e => .error (launchFailure binary e)
  | .ended (some 0) stdout _ => .ok (Text.decodeLossy stdout)
  | .ended code _ stderr => .error (.commandFailed code (complaint stderr))

end ToolRun

/-- Why the workloads of a namespace could not be listed. -/
inductive ListError where
  /-- The tool did not start. -/
  | notStarted (e : ExecError)
  /-- The tool did not end with success. -/
  | refused (complaint : String)
  /-- The output is no list of workloads. -/
  | malformed
deriving DecidableEq, Repr

/-- The sentence shown for workloads that could not be listed. -/
def ListError.message : ListError → String
  | .notStarted e => e.message
  | .refused complaint => "kubectl get statefulsets failed: " ++ complaint
  | .malformed => StatefulSet.parseFailure

/-- The arguments by which the workloads of a namespace are listed. -/
def listArgs (space : String) : List String :=
  ["get", "statefulsets", "-n", space, "-o", "json"]

/-- The workloads listed by a run of the tool. -/
def ToolRun.workloads : ToolRun → Except ListError (List StatefulSet)
  | .notStarted binary e => .error (.notStarted (launchFailure binary e))
  | .ended (some 0) stdout _ =>
    match StatefulSet.parseList? (Text.decodeLossy stdout) with
    | some sets => .ok sets
    | none => .error .malformed
  | .ended _ _ stderr => .error (.refused (complaint stderr))

end Rendezvous
