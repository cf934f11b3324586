import Rendezvous.Proofs.Resolve.Attempts
import Rendezvous.Resolve.Process

/-!
# How resolving conducts itself

Resolving a node asks for few kinds of things: plain answers from memory, commands that do not ask
for an identifier, a lock when it has none, its release, a propagation when it has no lock, and the
identifier of a node whose lock it has. Surroundings that let it have each of these let it have all
that resolving puts together from them. They need not let it have more than it is there for: which
peers it probes, which nodes it configures and whom it tells is known beforehand.
-/

namespace Rendezvous

open Routine Attempt

/-- Whether a question is not about identifiers that have been probed, and does not record a value of
a key outside `keys`. -/
def Query.Plain (keys : String → Prop) : Query → Prop
  | .recallId _ => False
  | .noteId .. => False
  | .cacheSet key _ _ => keys key
  | _ => True

/-- The surroundings let a task have what resolving asks for. `At held` holds of the states in which
a task that has this lock, or none, is between two of its errands. -/
structure Conduct {σ : Type} (M : Surroundings σ) (keys : String → Prop)
    (At : Option String → σ → Prop) : Prop where
  /-- Answers from memory. -/
  asks : ∀ {held} {q : Query}, q.Plain keys → Keeps M (At held) (Routine.consult q)
  /-- Commands. -/
  runs : ∀ {held} {request : Request}, request.command ≠ .peerInfo →
    Keeps M (At held) (perform (.run request))
  /-- A lock, if it has none. -/
  takes : ∀ {node s}, At none s →
    M.allows s (.acquire node) ∧ ∀ s', M.answers s (.acquire node) () s' → At (some node) s'
  /-- The release of the lock that it has. -/
  gives : ∀ {node s}, At (some node) s →
    M.allows s (.release node) ∧ ∀ s', M.answers s (.release node) () s' → At none s'
  /-- A propagation, if it has no lock. -/
  tells : ∀ {writes}, Keeps M (At none) (perform (.propagate writes))
  /-- The identifier of a node whose lock it has. -/
  identifies : ∀ p : Peer, Keeps M (At (some p.nodeName)) (Resolve.peerIdOf p).run

/-- The peer of a dependency's name has that name. -/
@[simp] theorem Resolve.dependency_nodeName (s : Settings) (name : String) (dependent : Peer) :
    (dependency s name dependent).nodeName = name := by
  unfold dependency
  cases hfind : s.config.find? name with
  | some p =>
    have hname := List.find?_some hfind
    exact eq_of_beq hname
  | none => rfl

/-- Whether resolving a peer makes it look for a dependency by its name: it is listed, it is no
address already, and it is not injected. -/
def Peer.Lists (p : Peer) (node : String) : Prop :=
  p.connectsAsEnvVar = false ∧ node ∈ p.connectsTo ∧ isLiteralAddress node = false

/-- The keys that resolving a peer is entitled to: its own name and the names of the dependencies
that it looks for. -/
def Peer.Keys (p : Peer) (key : String) : Prop := key = p.nodeName ∨ p.Lists key

/-! ## What a task is there for -/

/-- What a task may do. -/
structure Scope where
  /-- The keys of the values that it may record. -/
  keys : String → Prop := fun _ => True
  /-- The peers that it may ask for their identifiers and IP addresses. -/
  probes : Peer → Prop := fun _ => True
  /-- The commands by which it may configure nodes. -/
  configures : Request → Prop
  /-- The writes that it may have spread. -/
  tells : List TrustWrite → Prop := fun _ => True

/-- Resolving a peer and telling its group needs no more than that. -/
structure Scope.Covers (scope : Scope) (s : Settings) (p : Peer) : Prop where
  keys : ∀ key, p.Keys key → scope.keys key
  own : scope.probes p
  listed : ∀ name, p.Lists name → scope.probes (Resolve.dependency s name p)
  injects : ∀ dependency, scope.configures (.setup p (.envVarFile dependency p.nodeType))
  writes : ∀ text, scope.configures (.setup p (.writeConnections text))
  told : ∀ g records, s.config.groupOf? p.nodeName = some g → scope.tells (g.trustWrites records)

/-- The surroundings let a task have what it asks for within a scope. `At held` holds of the states in
which a task that has this lock, or none, is between two of its errands. -/
structure Leeway {σ : Type} (M : Surroundings σ) (scope : Scope) (At : Option String → σ → Prop) :
    Prop where
  /-- Answers from memory. -/
  asks : ∀ {held} {q : Query}, q.Plain scope.keys → Keeps M (At held) (Routine.consult q)
  /-- The IP address of a node. -/
  locates : ∀ {held} {p : Peer}, scope.probes p →
    Keeps M (At held) (perform (.run (.main p .nodeIp)))
  /-- The identifier of a node whose lock it has. -/
  identifies : ∀ {p : Peer}, scope.probes p →
    Keeps M (At (some p.nodeName)) (Resolve.peerIdOf p).run
  /-- Commands that configure a node. -/
  configures : ∀ {held} {request : Request}, scope.configures request →
    Keeps M (At held) (perform (.run request))
  /-- A lock, if it has none. -/
  takes : ∀ {node s}, At none s →
    M.allows s (.acquire node) ∧ ∀ s', M.answers s (.acquire node) () s' → At (some node) s'
  /-- The release of the lock that it has. -/
  gives : ∀ {node s}, At (some node) s →
    M.allows s (.release node) ∧ ∀ s', M.answers s (.release node) () s' → At none s'
  /-- A propagation, if it has no lock. -/
  tells : ∀ {writes}, scope.tells writes → Keeps M (At none) (perform (.propagate writes))

namespace Leeway

variable {σ : Type} {M : Surroundings σ} {scope : Scope} {At : Option String → σ → Prop}
  {held : Option String} {s : Settings} {p : Peer}

/-- A lock is given back however the attempt under it ends. -/
theorem locked {α : Type} (l : Leeway M scope At) {node : String} {body : Attempt α}
    (h : Keeps M (At (some node)) body.run) : Keeps M (At none) (Attempt.locked node body).run := by
  intro s hs
  have htakes : M.allows s (.acquire node) ∧
      ∀ s', M.answers s (.acquire node) () s' → At (some node) s' := l.takes hs
  obtain ⟨hallowed, htaken⟩ := htakes
  refine ensures_locked.2 ⟨hallowed, fun s' hs' => ?_⟩
  exact (h s' (htaken s' hs')).mono fun result s'' hs'' => l.gives hs''

/-! ### Probes -/

theorem lookup (l : Leeway M scope At) (node : String) :
    Keeps M (At held) (Resolve.lookup node) :=
  (l.asks (by simp [Query.Plain])).bind fun _ => keeps_pure _

theorem store (l : Leeway M scope At) (s : Settings) (address : MultiAddress)
    (hkey : scope.keys p.nodeName) : Keeps M (At held) (Resolve.store s p address) :=
  (l.asks (by simpa [Query.Plain] using hkey)).bind fun _ => l.asks (by simp [Query.Plain])

theorem hostOf (l : Leeway M scope At) (dns : Option String) (hp : scope.probes p) :
    Keeps M (At held) (Resolve.hostOf p dns).run := by
  cases dns with
  | some dns => exact keeps_run_pure _
  | none => exact keeps_probe (l.locates hp)

theorem ownHost (l : Leeway M scope At) (hp : scope.probes p) :
    Keeps M (At held) (Resolve.ownHost p).run := by
  unfold Resolve.ownHost
  split
  · exact keeps_probe (l.locates hp)
  · exact keeps_run_pure _

/-! ### Addresses -/

theorem cachedAddress (l : Leeway M scope At) (dns : Option String) (hp : scope.probes p) :
    Keeps M (At held) (Resolve.cachedAddress p dns).run := by
  unfold Resolve.cachedAddress
  refine (l.lookup p.nodeName).run_lift.run_bind fun known => ?_
  cases known with
  | none => exact keeps_run_pure none
  | some value =>
    dsimp only
    split
    · refine .run_bind (keeps_ofFormat _ _) fun address => ?_
      cases dns with
      | none => exact keeps_run_pure _
      | some dns => exact (keeps_ofFormat _ _).run_map
    · refine .run_bind (keeps_ofFormat _ _) fun id => ?_
      exact (l.hostOf dns hp).run_bind fun host => (keeps_ofFormat _ _).run_map

theorem probeDependency (l : Leeway M scope At) (s : Settings) (dns : Option String)
    (hp : scope.probes p) (hkey : scope.keys p.nodeName) :
    Keeps M (At (some p.nodeName)) (Resolve.probeDependency s p dns).run := by
  unfold Resolve.probeDependency
  refine (l.identifies hp).run_bind fun id => (l.hostOf dns hp).run_bind fun host => ?_
  refine .run_bind (keeps_ofFormat _ _) fun address => ?_
  exact (l.store s address hkey).run_lift.run_bind fun _ => keeps_run_pure address

theorem dependencyAddress (l : Leeway M scope At) (s : Settings) (dns : Option String)
    (hp : scope.probes p) (hkey : scope.keys p.nodeName) :
    Keeps M (At none) (Resolve.dependencyAddress s p dns).run := by
  unfold Resolve.dependencyAddress
  refine (l.cachedAddress dns hp).run_bind fun known => ?_
  cases known with
  | some address => exact keeps_run_pure address
  | none =>
    refine l.locked ((l.cachedAddress dns hp).run_bind fun known => ?_)
    cases known with
    | some address => exact keeps_run_pure address
    | none => exact l.probeDependency s dns hp hkey

theorem probeOwn (l : Leeway M scope At) (hp : scope.probes p) :
    Keeps M (At (some p.nodeName)) (Resolve.probeOwn p).run := by
  unfold Resolve.probeOwn
  refine (l.identifies hp).run_bind fun id => (l.ownHost hp).run_bind fun host => ?_
  refine .run_bind (keeps_ofFormat _ _) fun address => ?_
  exact (l.asks (by simp [Query.Plain])).run_lift.run_bind fun _ => keeps_run_pure address

theorem ownAddress (l : Leeway M scope At) (hp : scope.probes p) :
    Keeps M (At none) (Resolve.ownAddress p).run := by
  unfold Resolve.ownAddress
  refine (l.asks (by simp [Query.Plain])).run_lift.run_bind fun known => ?_
  cases known with
  | some address => exact keeps_run_pure address
  | none =>
    refine l.locked ((l.lookup p.nodeName).run_lift.run_bind fun value => ?_)
    cases value with
    | some value => exact keeps_ofFormat _ _
    | none => exact l.probeOwn hp

/-! ### Connections -/

theorem segment (l : Leeway M scope At) (i : Nat) {entry : String}
    (h : isLiteralAddress entry = false →
      scope.keys entry ∧ scope.probes (Resolve.dependency s entry p)) :
    Keeps M (At none) (Resolve.segment s p i entry).run := by
  unfold Resolve.segment
  split
  · exact keeps_ofFormat _ _
  · rename_i hname
    obtain ⟨hkey, hprobe⟩ := h (by simpa using hname)
    exact l.dependencyAddress s _ hprobe (by rwa [Resolve.dependency_nodeName])

theorem assembleFrom (l : Leeway M scope At) (i : Nat) {entries : List String}
    (connections : Connections)
    (h : ∀ entry ∈ entries, isLiteralAddress entry = false →
      scope.keys entry ∧ scope.probes (Resolve.dependency s entry p)) :
    Keeps M (At none) (Resolve.assembleFrom s p i entries connections).run := by
  induction entries generalizing i connections with
  | nil => exact keeps_run_pure connections
  | cons entry entries ih =>
    unfold Resolve.assembleFrom
    refine (l.segment i (h entry List.mem_cons_self)).run_bind fun address => ?_
    refine .run_bind (keeps_ofFormat _ _) fun connections => ?_
    exact ih (i + 1) connections fun entry he => h entry (List.mem_cons_of_mem _ he)

theorem connect (l : Leeway M scope At) (h : scope.Covers s p) :
    Keeps M (At none) (Resolve.connect s p).run := by
  unfold Resolve.connect
  split
  · exact keeps_run_pure none
  · split
    · refine Keeps.run_bind ?_ fun _ => keeps_run_pure none
      exact keeps_execute (l.configures (h.injects _))
    · rename_i hconnects
      refine Keeps.run_bind ?_ fun connections => ?_
      · refine l.assembleFrom 0 .empty fun entry he hname => ?_
        have hlists : p.Lists entry := ⟨by simpa using hconnects, he, hname⟩
        exact ⟨h.keys entry (Or.inr hlists), h.listed entry hlists⟩
      · refine Keeps.run_bind ?_ fun _ => keeps_run_pure _
        exact keeps_execute (l.configures (h.writes _))

/-! ### Calls -/

theorem resolveAnew (l : Leeway M scope At) (h : scope.Covers s p) :
    Keeps M (At none) (Resolve.resolveAnew s p).run := by
  unfold Resolve.resolveAnew
  dsimp only
  split
  · refine (l.ownAddress h.own).run_map.run_bind fun own => ?_
    refine (l.connect h).run_bind fun connections => ?_
    cases own with
    | none => exact keeps_run_pure _
    | some address =>
      refine (l.store s address (h.keys _ (Or.inl rfl))).run_lift.run_bind fun _ => ?_
      exact (l.asks (by simp [Query.Plain])).run_lift.run_bind fun _ => keeps_run_pure _
  · rw [pure_bind]
    exact (l.connect h).run_bind fun connections => keeps_run_pure _

theorem resolve (l : Leeway M scope At) (h : scope.Covers s p) :
    Keeps M (At none) (Resolve.resolve s p).run := by
  unfold Resolve.resolve
  refine (l.lookup p.nodeName).run_lift.run_bind fun known => ?_
  cases known with
  | some value =>
    exact (l.asks (by simp [Query.Plain])).run_lift.run_bind fun _ => keeps_run_pure _
  | none => exact l.resolveAnew h

theorem propagate (l : Leeway M scope At) {node : String}
    (h : ∀ g records, s.config.groupOf? node = some g → scope.tells (g.trustWrites records)) :
    Keeps M (At none) (Resolve.propagate s node) := by
  unfold Resolve.propagate
  split
  · exact keeps_pure none
  · rename_i group hgroup
    refine (l.asks (by simp [Query.Plain])).bind fun records => ?_
    cases records with
    | error e => exact keeps_pure none
    | ok records => exact (l.tells (h group records hgroup)).map

theorem process (l : Leeway M scope At) (h : scope.Covers s p) :
    Keeps M (At none) (Resolve.process s p).run := by
  unfold Resolve.process
  refine (l.asks (by simp [Query.Plain])).run_lift.run_bind fun cancelled => ?_
  dsimp only
  split
  · rw [ExceptT.bind_throw]
    exact keeps_run_throw _
  · refine (l.resolve h).run_bind fun resolution => ?_
    split
    · exact (l.propagate h.told).run_lift.run_bind fun _ => keeps_run_pure resolution
    · exact keeps_run_pure resolution

end Leeway

/-! ## Conduct as leeway -/

namespace Conduct

variable {σ : Type} {M : Surroundings σ} {keys : String → Prop} {At : Option String → σ → Prop}

/-- Everything but the keys. -/
def scope (keys : String → Prop) : Scope :=
  { keys, configures := fun request => request.command ≠ .peerInfo }

theorem covers {s : Settings} {p : Peer} (h : ∀ key, p.Keys key → keys key) :
    (scope keys).Covers s p where
  keys := h
  own := trivial
  listed _ _ := trivial
  injects _ := by simp [scope, Request.setup]
  writes _ := by simp [scope, Request.setup, Command.writeConnections]
  told _ _ _ := trivial

theorem leeway (c : Conduct M keys At) : Leeway M (scope keys) At where
  asks := c.asks
  locates _ := c.runs (by simp [Request.main])
  identifies _ := c.identifies _
  configures := c.runs
  takes := c.takes
  gives := c.gives
  tells _ := c.tells

theorem dependencyAddress (c : Conduct M keys At) (s : Settings) {p : Peer} (dns : Option String)
    (h : keys p.nodeName) : Keeps M (At none) (Resolve.dependencyAddress s p dns).run :=
  c.leeway.dependencyAddress s dns trivial h

theorem ownAddress (c : Conduct M keys At) (p : Peer) :
    Keeps M (At none) (Resolve.ownAddress p).run :=
  c.leeway.ownAddress trivial

theorem assembleFrom (c : Conduct M keys At) (s : Settings) (p : Peer) (i : Nat)
    (entries : List String) (connections : Connections)
    (h : ∀ entry ∈ entries, isLiteralAddress entry = false → keys entry) :
    Keeps M (At none) (Resolve.assembleFrom s p i entries connections).run :=
  c.leeway.assembleFrom i connections fun entry he hname => ⟨h entry he hname, trivial⟩

theorem resolve (c : Conduct M keys At) (s : Settings) (p : Peer)
    (h : ∀ key, p.Keys key → keys key) : Keeps M (At none) (Resolve.resolve s p).run :=
  c.leeway.resolve (covers h)

theorem process (c : Conduct M keys At) (s : Settings) (p : Peer)
    (h : ∀ key, p.Keys key → keys key) : Keeps M (At none) (Resolve.process s p).run :=
  c.leeway.process (covers h)

end Conduct

end Rendezvous
