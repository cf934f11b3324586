import Rendezvous.Proofs.Peer.Validation
import Rendezvous.Proofs.Pool.Alone
import Rendezvous.Proofs.Pool.Records
import Rendezvous.Proofs.Resolve.Discipline

/-!
# Who writes the connections of a node

A call that resolves a peer anew runs the command that brings its dependencies into it. A call that
finds the peer recorded does not; the record may come from another peer that lists it as a dependency
and came first.
-/

namespace Rendezvous

/-- The command that brings the dependencies into a peer, for the connections that were put
together. -/
def Peer.upstream? (p : Peer) (connections : Option Connections) : Option Command :=
  match p.connectsTo with
  | [] => none
  | dependency :: _ =>
    if p.connectsAsEnvVar then some (.envVarFile dependency p.nodeType)
    else connections.map fun c => .writeConnections c.text

/-- Something that is done for a peer. -/
inductive Call where
  /-- It is resolved. -/
  | resolve (p : Peer)
  /-- It is resolved and its group is told. -/
  | process (p : Peer)

namespace Call

/-- The peer. -/
def peer : Call → Peer
  | .resolve p => p
  | .process p => p

/-- The routine. -/
def routine (s : Settings) : Call → Routine (Except ResolveError Resolution)
  | .resolve p => (Resolve.resolve s p).run
  | .process p => (Resolve.process s p).run

theorem tidy_routine (s : Settings) (c : Call) : (c.routine s).Tidy c.peer.Keys none := by
  cases c with
  | resolve p => exact Resolve.tidy_resolve s p
  | process p => exact Resolve.tidy_process s p

end Call

namespace Resolve

open Routine

variable {t : List TaskEvent} {s : Settings} {p : Peer}

/-- Bringing dependencies into a peer runs a command on its setup container. -/
theorem ends_connect {connections : Option Connections} (hup : p.connectsTo ≠ [])
    (h : Ends (connect s p).run t (.ok connections)) :
    ∃ command output, p.upstream? connections = some command ∧
      .answered (.setup p command) (.ok output) ∈ t := by
  unfold connect at h
  cases hlist : p.connectsTo with
  | nil => exact absurd hlist hup
  | cons dependency rest =>
    simp only [hlist] at h
    by_cases henv : p.connectsAsEnvVar = true
    · rw [if_pos henv] at h
      obtain ⟨t₁, output, t₂, rfl, h₁, h₂⟩ := ends_run_bind_ok.1 h
      refine ⟨.envVarFile dependency p.nodeType, output, by simp [Peer.upstream?, hlist, henv], ?_⟩
      rw [ends_execute h₁]
      simp
    · rw [if_neg henv] at h
      obtain ⟨t₁, assembled, t₂, rfl, -, h₂⟩ := ends_run_bind_ok.1 h
      obtain ⟨t₃, output, t₄, rfl, h₃, h₄⟩ := ends_run_bind_ok.1 h₂
      obtain ⟨rfl, hconnections⟩ := ends_run_pure.1 h₄
      obtain rfl := Except.ok.inj hconnections
      refine ⟨.writeConnections assembled.text, output, by simp [Peer.upstream?, hlist, henv], ?_⟩
      rw [ends_execute h₃]
      simp

/-- What resolving anew comes to, it comes to by bringing the dependencies in. -/
theorem ends_resolveAnew {res : Resolution} (h : Ends (resolveAnew s p).run t (.ok res)) :
    res.cached = false ∧ ∃ t₁ t₂ t₃, t = t₁ ++ t₂ ++ t₃ ∧
      Ends (connect s p).run t₂ (.ok res.connections) := by
  unfold resolveAnew at h
  dsimp only at h
  split at h
  · obtain ⟨t₁, own, t', rfl, -, h'⟩ := ends_run_bind_ok.1 h
    obtain ⟨t₂, connections, t₃, rfl, h₂, h₃⟩ := ends_run_bind_ok.1 h'
    cases own with
    | none =>
      obtain ⟨-, hres⟩ := ends_run_pure.1 h₃
      obtain rfl := Except.ok.inj hres
      exact ⟨rfl, t₁, t₂, t₃, (List.append_assoc ..).symm, h₂⟩
    | some address =>
      obtain ⟨t₄, -, t₅, rfl, -, h₅⟩ := ends_run_bind_ok.1 h₃
      obtain ⟨t₆, -, t₇, rfl, -, h₇⟩ := ends_run_bind_ok.1 h₅
      obtain ⟨-, hres⟩ := ends_run_pure.1 h₇
      obtain rfl := Except.ok.inj hres
      exact ⟨rfl, t₁, t₂, _, (List.append_assoc ..).symm, h₂⟩
  · rw [pure_bind] at h
    obtain ⟨t₂, connections, t₃, rfl, h₂, h₃⟩ := ends_run_bind_ok.1 h
    obtain ⟨-, hres⟩ := ends_run_pure.1 h₃
    obtain rfl := Except.ok.inj hres
    exact ⟨rfl, [], t₂, t₃, rfl, h₂⟩

/-- A call has found its peer recorded: it was answered so before it recorded anything, and has
started no command. -/
def FoundRecorded (p : Peer) (t : List TaskEvent) : Prop :=
  (∃ t₁ value t₂, t = t₁ ++ .consulted (.cacheGet p.nodeName) (.ok (some value)) :: t₂ ∧
    ∀ key value lifetime answer, .consulted (.cacheSet key value lifetime) answer ∉ t₁) ∧
  ∀ request, .called request ∉ t

/-- A call has run the command that brings the dependencies into its peer. -/
def BroughtIn (p : Peer) (res : Resolution) (t : List TaskEvent) : Prop :=
  ∃ command output, p.upstream? res.connections = some command ∧
    .answered (.setup p command) (.ok output) ∈ t

theorem ends_resolve {res : Resolution} (hup : p.connectsTo ≠ [])
    (h : Ends (resolve s p).run t (.ok res)) :
    (res.cached = true ∧ FoundRecorded p t) ∨ (res.cached = false ∧ BroughtIn p res t) := by
  unfold resolve at h
  obtain ⟨t₁, known, t₂, rfl, h₁, h₂⟩ := ends_run_bind_ok.1 h
  rw [ends_run_lift] at h₁
  unfold lookup at h₁
  obtain ⟨t₃, answer, t₄, rfl, h₃, h₄⟩ := ends_bind.1 h₁
  obtain rfl := ends_consult.1 h₃
  obtain ⟨rfl, rfl⟩ := ends_pure.1 h₄
  cases hknown : knownValue answer with
  | some value =>
    simp only [hknown] at h₂
    obtain ⟨t₅, u, t₆, rfl, h₅, h₆⟩ := ends_run_bind_ok.1 h₂
    obtain rfl := ends_consult.1 (ends_run_lift.1 h₅)
    obtain ⟨rfl, hres⟩ := ends_run_pure.1 h₆
    obtain rfl := Except.ok.inj hres
    obtain rfl := knownValue_eq_some hknown
    exact Or.inl ⟨rfl, ⟨[], value, _, rfl, by simp⟩, by simp⟩
  | none =>
    simp only [hknown] at h₂
    obtain ⟨hcached, t₅, t₆, t₇, rfl, h₆⟩ := ends_resolveAnew h₂
    obtain ⟨command, output, hcommand, hmem⟩ := ends_connect hup h₆
    refine Or.inr ⟨hcached, command, output, hcommand, ?_⟩
    simp [hmem]

/-- Telling a group starts no command of its own. -/
theorem ends_propagate {node : String} {report : Option PropagationReport}
    (h : Ends (propagate s node) t report) : ∀ request, .called request ∉ t := by
  unfold propagate at h
  split at h
  · obtain ⟨rfl, -⟩ := ends_pure.1 h
    simp
  · obtain ⟨t₁, records, t₂, rfl, h₁, h₂⟩ := ends_bind.1 h
    obtain rfl := ends_consult.1 h₁
    cases records with
    | error e =>
      obtain ⟨rfl, -⟩ := ends_pure.1 h₂
      simp
    | ok records =>
      dsimp only at h₂
      rw [map_eq_pure_bind] at h₂
      obtain ⟨t₃, told, t₄, rfl, h₃, h₄⟩ := ends_bind.1 h₂
      obtain rfl := (@ends_perform _ (.propagate _) _).1 h₃
      obtain ⟨rfl, -⟩ := ends_pure.1 h₄
      simp [Effect.events]

theorem ends_process {res : Resolution} (hup : p.connectsTo ≠ [])
    (h : Ends (process s p).run t (.ok res)) :
    (res.cached = true ∧ FoundRecorded p t) ∨ (res.cached = false ∧ BroughtIn p res t) := by
  unfold process at h
  obtain ⟨t₁, cancelled, t₂, rfl, h₁, h₂⟩ := ends_run_bind_ok.1 h
  rw [ends_run_lift, ends_consult] at h₁
  subst h₁
  dsimp only at h₂
  split at h₂
  · rw [ExceptT.bind_throw] at h₂
    exact absurd (ends_run_throw.1 h₂).2 (by simp)
  · obtain ⟨t₃, res', t₄, rfl, h₃, h₄⟩ := ends_run_bind_ok.1 h₂
    have htold : res' = res ∧ ∀ request, .called request ∉ t₄ := by
      split at h₄
      · obtain ⟨t₅, report, t₆, rfl, h₅, h₆⟩ := ends_run_bind_ok.1 h₄
        obtain ⟨rfl, hres⟩ := ends_run_pure.1 h₆
        rw [List.append_nil]
        exact ⟨(Except.ok.inj hres).symm, ends_propagate (ends_run_lift.1 h₅)⟩
      · obtain ⟨rfl, hres⟩ := ends_run_pure.1 h₄
        exact ⟨(Except.ok.inj hres).symm, by simp⟩
    obtain ⟨rfl, hquiet⟩ := htold
    rcases ends_resolve hup h₃ with ⟨hcached, ⟨t₅, value, t₆, rfl, hnone⟩, hcalled⟩ | ⟨hcached, hin⟩
    · refine Or.inl ⟨hcached, ⟨.consulted .isCancelled cancelled :: t₅, value, t₆ ++ t₄, by simp, ?_⟩,
        ?_⟩
      · simpa using hnone
      · intro request hmem
        rw [List.singleton_append, List.mem_cons, List.mem_append] at hmem
        rcases hmem with hmem | hmem | hmem
        · exact absurd hmem (by simp)
        · exact hcalled request hmem
        · exact hquiet request hmem
    · obtain ⟨command, output, hcommand, hmem⟩ := hin
      exact Or.inr ⟨hcached, command, output, hcommand, by simp [hmem]⟩

end Resolve

theorem Call.ends_routine {s : Settings} {c : Call} {t : List TaskEvent} {res : Resolution}
    (hup : c.peer.connectsTo ≠ []) (h : (c.routine s).Ends t (.ok res)) :
    (res.cached = true ∧ Resolve.FoundRecorded c.peer t) ∨
      (res.cached = false ∧ Resolve.BroughtIn c.peer res t) := by
  cases c with
  | resolve p => exact Resolve.ends_resolve hup h
  | process p => exact Resolve.ends_process hup h

/-! ## Calls side by side -/

/-- Calls that begin with nothing recorded and nothing noted. -/
def Pool.calling (s : Settings) (faults : CacheFaults) (calls : List Call) :
    Pool (Except ResolveError Resolution) :=
  { memory := { faults }, tasks := calls.map fun c => .ready (c.routine s) }

namespace Pool

variable {w : World} {s : Settings} {faults : CacheFaults} {calls : List Call}
  {log : List (Nat × TaskEvent)} {p : Pool (Except ResolveError Resolution)} {i : Nat} {c : Call}

theorem calling_tasks (hcall : calls[i]? = some c) :
    (calling s faults calls).tasks[i]? = some (.ready (c.routine s)) := by
  simp [calling, hcall]

/-- There are no other tasks than the calls. -/
theorem call_of_own (hrun : Run (Step w) (calling s faults calls) log p) {e : TaskEvent}
    (he : (i, e) ∈ log) : ∃ c, calls[i]? = some c := by
  by_contra hnone
  have hcalls : calls[i]? = none := by
    cases hc : calls[i]? with
    | none => rfl
    | some c => exact absurd ⟨c, hc⟩ hnone
  have hstart : (calling s faults calls).tasks[i]? = none := by simp [calling, hcalls]
  have hown := own_eq_nil hrun hstart
  rw [← mem_own, hown] at he
  exact absurd he List.not_mem_nil

/-- A call records only what its peer entitles it to. -/
theorem keys_of_recorded (hrun : Run (Step w) (calling s faults calls) log p)
    (hcall : calls[i]? = some c) {key value : String} {lifetime : Duration}
    {answer : Except CacheError Unit}
    (he : (i, .consulted (.cacheSet key value lifetime) answer) ∈ log) : c.peer.Keys key := by
  obtain ⟨a, ha⟩ : ∃ a, p.tasks[i]? = some a := by
    rw [← Option.isSome_iff_exists, isSome_task hrun, calling_tasks hcall]
    rfl
  obtain ⟨t, r, started, hown, hreaches, hstarted⟩ :=
    (task_follows hrun (calling_tasks hcall) ha).cut
  rw [← mem_own, hown, List.mem_append] at he
  rcases he with he | he
  · exact (Routine.Ensures.reaches (c.tidy_routine s) hreaches).2 _ _ he key value lifetime rfl
  · rcases hstarted _ he with ⟨request, hrequest⟩ | ⟨writes, hwrites⟩
    · exact absurd hrequest (by simp)
    · exact absurd hwrites (by simp)

/-- What a call that has ended with a resolution has gone through. -/
theorem ends_of_ended (hrun : Run (Step w) (calling s faults calls) log p)
    (hcall : calls[i]? = some c) {result : Except ResolveError Resolution}
    (hended : p.tasks[i]? = some (.ended (.value result))) :
    (c.routine s).Ends (own i log) result :=
  task_follows hrun (calling_tasks hcall) hended

/-! ## Two peers that are to connect to each other -/

/-- The one of the two. -/
def twin : Peer := { nodeName := "da-one", connectsTo := ["da-two"] : Peer }.withDefaults "default"

/-- The other one. -/
def otherTwin : Peer :=
  { nodeName := "da-two", connectsTo := ["da-one"] : Peer }.withDefaults "default"

/-- The settings with only the two. -/
def twinSettings : Settings := { config := ⟨[{ peers := [twin, otherTwin] }]⟩ }

/-- The two are resolved, the one first. Both calls go well, and no command is started in the setup
container of the other one. -/
theorem twins_run :
    ∃ log p, Run (Step (.still 0 sampleAnswer))
        (calling twinSettings {} [.resolve twin, .resolve otherTwin]) log p ∧
      p.tasks[0]? = some (.ended (.value
        (.ok ⟨"da-one", some sampleAddress, some ⟨sampleAddress⟩, false⟩))) ∧
      p.tasks[1]? = some (.ended (.value (.ok ⟨"da-two", some sampleAddress, none, true⟩))) ∧
      ∀ j command, (j, .called (.setup otherTwin command)) ∉ log := by
  have hfinish : ∃ x ∈ finishAll? 0 sampleAnswer [0, 1]
      (calling twinSettings {} [.resolve twin, .resolve otherTwin]),
      x.2.ending? 0 =
        some (.value (.ok ⟨"da-one", some sampleAddress, some ⟨sampleAddress⟩, false⟩)) ∧
      x.2.ending? 1 = some (.value (.ok ⟨"da-two", some sampleAddress, none, true⟩)) ∧
      ∀ e ∈ x.1, ∀ request ∈ e.2.called?,
        request.node = otherTwin.nodeName → request.container ≠ otherTwin.setupContainer := by
    decide +kernel
  obtain ⟨⟨log, p⟩, hx, hfirst, hsecond, hquiet⟩ := hfinish
  refine ⟨log, p, ?_, ending?_eq_some.1 hfirst, ending?_eq_some.1 hsecond, ?_⟩
  · exact (finishAll?_run rfl (fun _ => rfl) hx).mono .turn
  · intro j command hmem
    exact hquiet _ hmem _ rfl rfl rfl

/-! ## The writes -/

/-- Whenever configured peers are resolved or processed, each once and in any interleaving, a peer
with dependencies that this went well for has had its connections written by its own call, unless
its call was answered from the cache. The record is then due to another peer, one that lists it as a
dependency, and the call starts no command. -/
theorem upstream_written_unless_recorded (hvalid : s.config.validate = .ok ())
    (hpeers : ∀ c ∈ calls, c.peer ∈ s.config.peers) (honce : (calls.map Call.peer).Nodup)
    (hrun : Run (Step w) (calling s faults calls) log p) (hcall : calls[i]? = some c)
    {res : Resolution} (hended : p.tasks[i]? = some (.ended (.value (.ok res))))
    (hup : c.peer.connectsTo ≠ []) :
    (res.cached = false ∧ ∃ command output, c.peer.upstream? res.connections = some command ∧
      (i, .answered (.setup c.peer command) (.ok output)) ∈ log) ∨
    (res.cached = true ∧ (∀ request, (i, .called request) ∉ log) ∧
      ∃ before value after j other lifetime,
        log = before ++ (i, .consulted (.cacheGet c.peer.nodeName) (.ok (some value))) :: after ∧
        calls[j]? = some other ∧
        (j, .consulted (.cacheSet c.peer.nodeName value lifetime) (.ok ())) ∈ before ∧
        other.peer ≠ c.peer ∧ other.peer.Lists c.peer.nodeName) := by
  rcases Call.ends_routine hup (ends_of_ended hrun hcall hended) with
    ⟨hcached, ⟨t₁, value, t₂, hown, hfirst⟩, hquiet⟩ | ⟨hcached, command, output, hcommand, hmem⟩
  · refine Or.inr ⟨hcached, fun request hmem => hquiet request (mem_own.2 hmem), ?_⟩
    obtain ⟨before, after, rfl, hbefore⟩ := eq_append_of_own hown
    obtain ⟨j, lifetime, hset⟩ := backed_of_run hrun rfl before i _ value after rfl
    have hlog : (j, TaskEvent.consulted (.cacheSet c.peer.nodeName value lifetime) (.ok ())) ∈
        before ++ (i, .consulted (.cacheGet c.peer.nodeName) (.ok (some value))) :: after :=
      List.mem_append_left _ hset
    obtain ⟨other, hother⟩ := call_of_own hrun hlog
    -- The call itself looks before it records anything, and no other call is its peer's.
    have hij : j ≠ i := by
      rintro rfl
      rw [← mem_own, hbefore] at hset
      exact hfirst _ _ _ _ hset
    have hne : other.peer ≠ c.peer := by
      intro heq
      have hj : (calls.map Call.peer)[j]? = some c.peer := by simp [hother, heq]
      have hi : (calls.map Call.peer)[i]? = some c.peer := by simp [hcall]
      obtain ⟨hlt, -⟩ := List.getElem?_eq_some_iff.1 hj
      exact hij ((List.getElem?_inj hlt honce).1 (hj.trans hi.symm))
    refine ⟨before, value, after, j, other, lifetime, rfl, hother, hset, hne, ?_⟩
    rcases keys_of_recorded hrun hother hlog with hname | hlists
    · have hotherPeer := hpeers other (List.mem_of_getElem? hother)
      have hpeer := hpeers c (List.mem_of_getElem? hcall)
      exact absurd (Config.eq_of_nodeName hvalid hotherPeer hpeer hname.symm) hne
    · exact hlists
  · exact Or.inl ⟨hcached, command, output, hcommand, mem_own.1 hmem⟩

/-- A peer that another one has recorded is resolved without its connections having been written. -/
theorem upstream_not_written_if_recorded :
    twinSettings.config.validate = .ok () ∧ twinSettings.config.peers = [twin, otherTwin] ∧
    (∀ request, ∃ output, sampleAnswer request = .ok output) ∧ otherTwin.connectsTo ≠ [] ∧
    ∃ log p res, Run (Step (.still 0 sampleAnswer))
        (calling twinSettings {} [.resolve twin, .resolve otherTwin]) log p ∧
      p.tasks[1]? = some (.ended (.value (.ok res))) ∧
      ∀ j command, (j, .called (.setup otherTwin command)) ∉ log := by
  refine ⟨by decide +kernel, rfl, ?_, by decide, ?_⟩
  · intro request
    unfold sampleAnswer
    split <;> exact ⟨_, rfl⟩
  · obtain ⟨log, p, hrun, -, hsecond, hquiet⟩ := twins_run
    exact ⟨log, p, _, hrun, hsecond, hquiet⟩

/-- Of the two, the one that comes first has its connections written. -/
theorem upstream_written_unless_recorded_twins :
    ∃ log p, Run (Step (.still 0 sampleAnswer))
        (calling twinSettings {} [.resolve twin, .resolve otherTwin]) log p ∧
      ∃ command output, twin.upstream? (some ⟨sampleAddress⟩) = some command ∧
        (0, .answered (.setup twin command) (.ok output)) ∈ log := by
  obtain ⟨log, p, hrun, hfirst, -, -⟩ := twins_run
  have h := upstream_written_unless_recorded (c := .resolve twin) (by decide +kernel) (by decide)
    (by decide) hrun rfl hfirst (by decide)
  rcases h with ⟨-, hwritten⟩ | ⟨hcached, -⟩
  · exact ⟨log, p, hrun, hwritten⟩
  · exact absurd hcached (by simp)

end Pool

end Rendezvous
