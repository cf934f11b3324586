import Rendezvous.Json.Reader
import Rendezvous.Json.Record

/-!
# Stateful sets

The workloads of a namespace as the cluster lists them: a name and three counts. A list is read as a
whole or not at all; counts are integers of 32 bits, and a count that is not given is zero.
-/

namespace Rendezvous

/-- The observed counts of one workload. -/
structure StatefulSet where
  /-- The name of the workload. -/
  name : String
  /-- The pods it is to have. -/
  replicas : Int := 0
  /-- The pods that are ready. -/
  readyReplicas : Int := 0
  /-- The pods of the current revision. -/
  currentReplicas : Int := 0
deriving DecidableEq, Repr, Inhabited

namespace StatefulSet

/-- Whether a workload runs and all its pods are ready. -/
def isReady (s : StatefulSet) : Bool :=
  0 < s.currentReplicas && s.replicas == s.readyReplicas

/-- The name of the first pod. -/
def podName (s : StatefulSet) : String := s.name ++ "-0"

/-- Read a count. -/
def count? (j : Json) : Option Int :=
  j.intIn? (-0x80000000) 0x7FFFFFFF

/-- Read the three counts of a status. -/
def status? (j : Json) : Option (Int × Int × Int) :=
  match j.fields? ["replicas", "readyReplicas", "currentReplicas"] with
  | some [replicas, ready, current] => do
    return (← Record.orDefault 0 count? replicas, ← Record.orDefault 0 count? ready,
      ← Record.orDefault 0 count? current)
  | _ => none

/-- Read the name in the metadata of a workload. -/
def name? (j : Json) : Option String :=
  match j.fields? ["name"] with
  | some [some name] => name.string?
  | _ => none

/-- Read one workload. -/
def ofJson? (j : Json) : Option StatefulSet :=
  match j.fields? ["metadata", "status"] with
  | some [some metadata, status] => do
    let name ← name? metadata
    let (replicas, ready, current) ← Record.orDefault (0, 0, 0) status? status
    return ⟨name, replicas, ready, current⟩
  | _ => none

/-- Read the items of a list of workloads. -/
def listOfJson? (j : Json) : Option (List StatefulSet) :=
  match j.fields? ["items"] with
  | some [items] => Record.orDefault [] (fun j => j.items?.bind (·.mapM ofJson?)) items
  | _ => none

/-- Read the text of a list of workloads. -/
def parseList? (s : String) : Option (List StatefulSet) :=
  (Json.read? s).bind listOfJson?

/-- What is reported for a text that is no list of workloads. -/
def parseFailure : String := "Failed to parse StatefulSet list"

end StatefulSet

end Rendezvous
