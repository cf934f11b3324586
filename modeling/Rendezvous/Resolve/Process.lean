import Rendezvous.Resolve.Address

/-!
# Processing a node

A node is processed by resolving it and then telling its group all known addresses. What comes of
the telling does not change what came of the resolving.
-/

namespace Rendezvous.Resolve

/-- Tell the group of a node all known addresses. There is nothing to do for a node without a group,
and nothing to tell when the cache does not list its records. -/
def propagate (s : Settings) (node : String) : Routine (Option PropagationReport) :=
  match s.config.groupOf? node with
  | none => pure none
  | some group => do
    match ← Routine.consult .cacheList with
    | .error _ => pure none
    | .ok records => some <$> Routine.perform (.propagate (group.trustWrites records))

/-- Resolve a node and tell its group. -/
def process (s : Settings) (p : Peer) : Attempt Resolution := do
  if ← (Routine.consult .isCancelled : Routine _) then throw .cancelled
  let resolution ← resolve s p
  if p.nodeType.advertises then
    let _ ← (propagate s p.nodeName : Routine _)
  pure resolution

end Rendezvous.Resolve
