import Rendezvous.Proofs.Resolve.Conduct
import Rendezvous.Proofs.Routine.Discipline

/-!
# Resolving is disciplined

Whatever it is answered, resolving a node takes one lock at a time and gives it back, and records only
values of the node itself and of the dependencies that are brought into it by name.
-/

namespace Rendezvous

open Routine

theorem discipline_consult {keys : String → Prop} {held : Option String} {q : Query}
    (hq : q.Within keys) : Keeps (discipline keys) (· = held) (consult q) := by
  rintro s rfl
  refine ensures_consult.2 ⟨?_, fun _ _ h => h⟩
  cases q with
  | cacheSet key value lifetime => exact hq key value lifetime rfl
  | _ => exact trivial

theorem discipline_run {keys : String → Prop} {held : Option String} (request : Request) :
    Keeps (discipline keys) (· = held) (perform (.run request)) := by
  rintro s rfl
  exact ensures_perform.2 ⟨trivial, fun _ _ h => h⟩

/-- To disciplined surroundings, asking a node for its identifier is a command like any other. -/
theorem discipline_peerIdOf {keys : String → Prop} {held : Option String} (p : Peer) :
    Keeps (discipline keys) (· = held) (Resolve.peerIdOf p).run := by
  unfold Resolve.peerIdOf
  refine (discipline_consult (by simp [Query.Within])).run_lift.run_bind fun known => ?_
  cases known with
  | some id => exact keeps_run_pure id
  | none =>
    refine Keeps.run_bind (Attempt.keeps_probe (discipline_run _)) fun id => ?_
    refine Keeps.run_bind ?_ fun _ => keeps_run_pure id
    exact (discipline_consult (by simp [Query.Within])).run_lift

theorem discipline_conduct (keys : String → Prop) :
    Conduct (discipline keys) keys fun held s => s = held where
  asks {held q} hq := by
    refine discipline_consult ?_
    rintro key value lifetime rfl
    exact hq
  runs _ := discipline_run _
  takes hs := ⟨hs, fun _ h => h⟩
  gives hs := ⟨hs, fun _ h => h⟩
  tells := by
    rintro writes s rfl
    exact ensures_perform.2 ⟨rfl, fun _ _ h => h⟩
  identifies p := discipline_peerIdOf p

namespace Resolve

theorem tidy_dependencyAddress {keys : String → Prop} (s : Settings) {p : Peer}
    (dns : Option String) (h : keys p.nodeName) :
    Tidy keys none (dependencyAddress s p dns).run :=
  tidy_iff.2 ((discipline_conduct keys).dependencyAddress s dns h)

theorem tidy_ownAddress (keys : String → Prop) (p : Peer) : Tidy keys none (ownAddress p).run :=
  tidy_iff.2 ((discipline_conduct keys).ownAddress p)

theorem tidy_resolve (s : Settings) (p : Peer) : Tidy p.Keys none (resolve s p).run :=
  tidy_iff.2 ((discipline_conduct p.Keys).resolve s p fun _ h => h)

theorem tidy_process (s : Settings) (p : Peer) : Tidy p.Keys none (process s p).run :=
  tidy_iff.2 ((discipline_conduct p.Keys).process s p fun _ h => h)

end Resolve

end Rendezvous
