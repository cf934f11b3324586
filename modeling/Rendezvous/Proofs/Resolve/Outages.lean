import Rendezvous.Proofs.Pool.Alone
import Rendezvous.Proofs.Routine.Outages
import Rendezvous.Resolve.Process

/-!
# Resolving with a cache that fails

Whatever calls of the cache fail, resolving goes on as if the cache had no record, had taken the
record, or had no records to list. Neither resolving nor processing a node ever fails because of the
cache.
-/

namespace Rendezvous

open Routine

namespace Attempt

variable {α β : Type} {x : Attempt α}

/-- An attempt does not care whether the cache fails, and never fails because of it. -/
def Unfazed (x : Attempt α) : Prop :=
  x.run.Indifferent fun result => ∀ c, result ≠ .error (.cache c)

theorem unfazed_pure (a : α) : Unfazed (pure a) :=
  .done fun _ => by simp

theorem unfazed_throw {e : ResolveError} (he : ∀ c, e ≠ .cache c) :
    Unfazed (throw e : Attempt α) := by
  refine .done fun c hc => ?_
  exact he c (Except.error.inj hc)

theorem Unfazed.bind {f : α → Attempt β} (h : Unfazed x) (hf : ∀ a, Unfazed (f a)) :
    Unfazed (x >>= f) := by
  unfold Unfazed
  rw [ExceptT.run_bind]
  refine Indifferent.bind h fun result hresult => ?_
  cases result with
  | ok a => exact hf a
  | error e =>
    refine .done fun c hc => ?_
    exact hresult c (congrArg Except.error (Except.error.inj hc))

theorem Unfazed.map {f : α → β} (h : Unfazed x) : Unfazed (f <$> x) := by
  rw [map_eq_pure_bind]
  exact h.bind fun a => unfazed_pure (f a)

theorem unfazed_lift {r : Routine α} (h : r.Indifferent fun _ => True) :
    Unfazed (liftM r : Attempt α) := by
  unfold Unfazed
  rw [ExceptT.run_liftM, map_eq_pure_bind]
  exact h.bind fun a _ => .done fun _ => by simp

theorem unfazed_ofFormat (node : String) (y : Except FormatError α) :
    Unfazed (ofFormat node y) := by
  cases y with
  | ok a => exact unfazed_pure a
  | error e => exact unfazed_throw (by simp)

theorem unfazed_execute (request : Request) : Unfazed (execute request) := by
  unfold execute
  refine (unfazed_lift (indifferent_perform (by simp))).bind fun answer => ?_
  cases answer with
  | ok output => exact unfazed_pure output
  | error e => exact unfazed_throw (by simp)

theorem Unfazed.locked {node : String} (h : Unfazed x) : Unfazed (locked node x) := by
  unfold Unfazed Attempt.locked
  rw [ExceptT.run_mk]
  refine (indifferent_perform (by simp)).bind fun _ _ => ?_
  refine Indifferent.bind h fun result hresult => ?_
  exact (indifferent_perform (by simp)).bind fun _ _ => .done hresult

end Attempt

namespace Resolve

open Attempt

/-! ## The cache -/

/-- Looking up takes a failure for a missing record. -/
theorem indifferent_lookup (node : String) : (lookup node).Indifferent fun _ => True := by
  refine indifferent_consult_bind (fun e a b ha hb => .inl ?_) fun _ => indifferent_pure trivial
  obtain rfl := Option.some.inj ha
  obtain rfl := Option.some.inj hb
  rfl

/-- Storing goes on however the cache has taken the record. -/
theorem indifferent_store (s : Settings) (p : Peer) (address : MultiAddress) :
    (store s p address).Indifferent fun _ => True :=
  indifferent_consult_bind (fun _ _ _ _ _ => .inl rfl) fun _ =>
    @indifferent_consult (.register p.nodeName address.text p.space) fun _ => rfl

/-- Without records, there is nothing to pass on. -/
theorem trustWrites_nil (g : PeerGroup) : g.trustWrites [] = [] := by
  unfold PeerGroup.trustWrites
  rw [List.flatMap_eq_nil_iff]
  intro p _
  rfl

/-- Nobody is told anything when the cache lists nothing, and nothing comes of it. -/
theorem indifferent_propagate_bind {β : Type} {P : β → Prop} {r : Routine β} (s : Settings)
    (node : String) (h : r.Indifferent P) : (propagate s node >>= fun _ => r).Indifferent P := by
  unfold propagate
  split
  · exact h
  · refine .consult (fun e a b ha hb => .inr ?_) fun records => ?_
    · obtain rfl := Option.some.inj ha
      obtain rfl := Option.some.inj hb
      show Routine.ask (.propagate (PeerGroup.trustWrites _ [])) (fun _ => r) =
        .ask (.propagate []) fun _ => r
      rw [trustWrites_nil]
    · cases records with
      | error e => exact h
      | ok records => exact .other (by simp) fun _ => h

/-! ## Probes -/

theorem unfazed_probe {α : Type} (p : Peer) (command : Command)
    (read : String → Except FormatError α) :
    Unfazed (do
      let output ← execute (.main p command)
      if (Text.trim output).isEmpty then throw (.emptyIdentity p.nodeName)
      ofFormat p.nodeName (read output)) := by
  refine (unfazed_execute _).bind fun output => ?_
  by_cases hempty : (Text.trim output).isEmpty = true
  · rw [if_pos hempty, ExceptT.bind_throw]
    exact unfazed_throw (by simp)
  · rw [if_neg hempty]
    exact unfazed_ofFormat _ _

theorem unfazed_probeIdentity (p : Peer) : Unfazed (probeIdentity p) := by
  have h := unfazed_probe p .peerInfo fun output => truncatePeerId (Text.trim output) peerIdLength
  unfold probeIdentity
  simpa using h

theorem unfazed_probeIp (p : Peer) : Unfazed (probeIp p) :=
  unfazed_probe p .nodeIp Host.parseIp

theorem unfazed_peerIdOf (p : Peer) : Unfazed (peerIdOf p) := by
  unfold peerIdOf
  refine (unfazed_lift (indifferent_consult fun _ => rfl)).bind fun known => ?_
  cases known with
  | some id => exact unfazed_pure id
  | none =>
    refine (unfazed_probeIdentity p).bind fun id => ?_
    exact (unfazed_lift (indifferent_consult fun _ => rfl)).bind fun _ => unfazed_pure id

theorem unfazed_hostOf (p : Peer) (dns : Option String) : Unfazed (hostOf p dns) := by
  cases dns with
  | some dns => exact unfazed_pure _
  | none => exact unfazed_probeIp p

theorem unfazed_ownHost (p : Peer) : Unfazed (ownHost p) := by
  unfold ownHost
  split
  · exact unfazed_probeIp p
  · exact unfazed_pure _

/-! ## Addresses -/

theorem unfazed_cachedAddress (p : Peer) (dns : Option String) :
    Unfazed (cachedAddress p dns) := by
  unfold cachedAddress
  refine (unfazed_lift (indifferent_lookup p.nodeName)).bind fun known => ?_
  cases known with
  | none => exact unfazed_pure none
  | some value =>
    dsimp only
    split
    · refine (unfazed_ofFormat _ _).bind fun address => ?_
      cases dns with
      | none => exact unfazed_pure _
      | some dns => exact (unfazed_ofFormat _ _).map
    · refine (unfazed_ofFormat _ _).bind fun id => ?_
      exact (unfazed_hostOf p dns).bind fun host => (unfazed_ofFormat _ _).map

theorem unfazed_probeDependency (s : Settings) (p : Peer) (dns : Option String) :
    Unfazed (probeDependency s p dns) := by
  unfold probeDependency
  refine (unfazed_peerIdOf p).bind fun id => (unfazed_hostOf p dns).bind fun host => ?_
  refine (unfazed_ofFormat _ _).bind fun address => ?_
  exact (unfazed_lift (indifferent_store s p address)).bind fun _ => unfazed_pure address

theorem unfazed_dependencyAddress (s : Settings) (p : Peer) (dns : Option String) :
    Unfazed (dependencyAddress s p dns) := by
  unfold dependencyAddress
  refine (unfazed_cachedAddress p dns).bind fun known => ?_
  cases known with
  | some address => exact unfazed_pure address
  | none =>
    refine Unfazed.locked ((unfazed_cachedAddress p dns).bind fun known => ?_)
    cases known with
    | some address => exact unfazed_pure address
    | none => exact unfazed_probeDependency s p dns

theorem unfazed_probeOwn (p : Peer) : Unfazed (probeOwn p) := by
  unfold probeOwn
  refine (unfazed_peerIdOf p).bind fun id => (unfazed_ownHost p).bind fun host => ?_
  refine (unfazed_ofFormat _ _).bind fun address => ?_
  exact (unfazed_lift (indifferent_consult fun _ => rfl)).bind fun _ => unfazed_pure address

theorem unfazed_ownAddress (p : Peer) : Unfazed (ownAddress p) := by
  unfold ownAddress
  refine (unfazed_lift (indifferent_consult fun _ => rfl)).bind fun known => ?_
  cases known with
  | some address => exact unfazed_pure address
  | none =>
    refine Unfazed.locked ((unfazed_lift (indifferent_lookup p.nodeName)).bind fun value => ?_)
    cases value with
    | some value => exact unfazed_ofFormat _ _
    | none => exact unfazed_probeOwn p

/-! ## Resolving and processing -/

theorem unfazed_segment (s : Settings) (p : Peer) (i : Nat) (entry : String) :
    Unfazed (segment s p i entry) := by
  unfold segment
  split
  · exact unfazed_ofFormat _ _
  · exact unfazed_dependencyAddress s _ _

theorem unfazed_assembleFrom (s : Settings) (p : Peer) (i : Nat) (entries : List String)
    (connections : Connections) : Unfazed (assembleFrom s p i entries connections) := by
  induction entries generalizing i connections with
  | nil => exact unfazed_pure connections
  | cons entry entries ih =>
    unfold assembleFrom
    refine (unfazed_segment s p i entry).bind fun address => ?_
    exact (unfazed_ofFormat _ _).bind fun connections => ih (i + 1) connections

theorem unfazed_connect (s : Settings) (p : Peer) : Unfazed (connect s p) := by
  unfold connect
  split
  · exact unfazed_pure none
  · split
    · exact (unfazed_execute _).bind fun _ => unfazed_pure none
    · refine (unfazed_assembleFrom s p 0 p.connectsTo .empty).bind fun connections => ?_
      exact (unfazed_execute _).bind fun _ => unfazed_pure _

theorem unfazed_resolveAnew (s : Settings) (p : Peer) : Unfazed (resolveAnew s p) := by
  unfold resolveAnew
  dsimp only
  split
  · refine (unfazed_ownAddress p).map.bind fun own => (unfazed_connect s p).bind fun connections => ?_
    cases own with
    | none => exact unfazed_pure _
    | some address =>
      refine (unfazed_lift (indifferent_store s p address)).bind fun _ => ?_
      exact (unfazed_lift (indifferent_consult fun _ => rfl)).bind fun _ => unfazed_pure _
  · rw [pure_bind]
    exact (unfazed_connect s p).bind fun connections => unfazed_pure _

theorem unfazed_resolve (s : Settings) (p : Peer) : Unfazed (resolve s p) := by
  unfold resolve
  refine (unfazed_lift (indifferent_lookup p.nodeName)).bind fun known => ?_
  cases known with
  | some value =>
    exact (unfazed_lift (indifferent_consult fun _ => rfl)).bind fun _ => unfazed_pure _
  | none => exact unfazed_resolveAnew s p

theorem unfazed_process (s : Settings) (p : Peer) : Unfazed (process s p) := by
  unfold process
  refine (unfazed_lift (indifferent_consult fun _ => rfl)).bind fun cancelled => ?_
  dsimp only
  split
  · rw [ExceptT.bind_throw]
    exact unfazed_throw (by simp)
  · refine (unfazed_resolve s p).bind fun resolution => ?_
    split
    · unfold Unfazed
      rw [ExceptT.run_bind, ExceptT.run_liftM, bind_map_left]
      exact indifferent_propagate_bind s p.nodeName (unfazed_pure resolution)
    · exact unfazed_pure resolution

end Resolve

/-! ## One node after another -/

namespace ControllerState

variable {σ : Type}

/-- Process peers one after another. -/
def processAll (w : Outside σ) (fault : Nat → Option CacheError)
    (amiss : CacheError → (q : Query) → Option q.Answer) (s : Settings) :
    List Peer → ControllerState σ → List (Ending (Except ResolveError Resolution)) × ControllerState σ
  | [], state => ([], state)
  | p :: peers, state =>
    let played := state.play w fault amiss (Resolve.process s p).run
    let rest := played.2.processAll w fault amiss s peers
    (played.1 :: rest.1, rest.2)

/-- Whichever calls of the cache fail, processing peers one after another comes to the same results,
has the same commands run in the same order, and leaves the same behind, as when each failed reading
finds no record, each failed recording is taken and stores nothing, and each failed listing is empty.
No resolving and no processing ever fails because of the cache. -/
theorem cache_faults_are_misses (w : Outside σ) (fault : Nat → Option CacheError) (s : Settings)
    (peers : List Peer) (state : ControllerState σ) :
    state.processAll w fault Query.failure s peers = state.processAll w fault Query.blank s peers ∧
      ∀ p t c, ¬ Ends (Resolve.resolve s p).run t (.error (.cache c)) ∧
        ¬ Ends (Resolve.process s p).run t (.error (.cache c)) := by
  constructor
  · induction peers generalizing state with
    | nil => rfl
    | cons p peers ih =>
      rw [processAll, processAll, play_eq_of_indifferent (Resolve.unfazed_process s p), ih]
  · intro p t c
    exact ⟨fun h => (Resolve.unfazed_resolve s p).of_ends h c rfl,
      fun h => (Resolve.unfazed_process s p).of_ends h c rfl⟩

/-- Two nodes of a group. -/
def pairSettings : Settings :=
  { config := ⟨[{ peers := [{ nodeName := "da-one" }, { nodeName := "da-two" }] }]⟩ }

/-- The cache fails whenever it is asked: twice when a record of the node is looked for, when one is
stored, and when all of them are listed. -/
theorem cache_faults_are_misses_always :
    let processed := fun amiss => (⟨{}, [], 0, []⟩ : ControllerState _).processAll
      (.steady sampleAnswer) (fun _ => some cacheDown) amiss pairSettings [{ nodeName := "da-one" }]
    processed Query.failure = processed Query.blank ∧
      (processed Query.failure).1.map (fun ending =>
        ending.value?.bind fun result => result.toOption.bind (·.address)) = [some sampleAddress] ∧
      (processed Query.failure).2.asked = 4 ∧
      (processed Query.failure).2.requests.map (·.command) = [.peerInfo, .nodeIp] := by
  intro processed
  refine ⟨(cache_faults_are_misses _ _ _ _ _).1, ?_, ?_, ?_⟩
  · decide +kernel
  · decide +kernel
  · decide +kernel

end ControllerState

end Rendezvous
