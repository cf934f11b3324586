import Rendezvous.Proofs.Peer.Validation
import Rendezvous.Proofs.Pool.Alone
import Rendezvous.Proofs.Pool.TaskAccounts
import Rendezvous.Proofs.Propagation.SpreadingPools
import Rendezvous.Proofs.Resolve.CallCosts

/-!
# Every member of a group learns of every node that is processed

A node that is processed is recorded before the records are listed, so that its address goes to every
other member of its group: a record of it is in the list, whoever has recorded it last, and no task
goes on before all commands have been started. As long as each node tells one identifier, all records
of it have this identifier.
-/

namespace Rendezvous

open Routine

/-! ## Nodes with one identifier -/

/-- Each node has one identifier, and so has every address that can stand for it. -/
def Belief.fixed (ids : String → String) : Belief where
  id node i := i = ids node ∧ i.length = peerIdLength
  address node a := MultiAddress.parse a.text = .ok a ∧ a.peerId = ids node
  reads h := h.1
  minted := by
    rintro node i host a ⟨rfl, hlength⟩ ha
    exact ⟨MultiAddress.parse_text ha, MultiAddress.peerId_of_ofHost hlength ha⟩

theorem Belief.fixed_record {ids : String → String} {node value : String} :
    (Belief.fixed ids).Record node value ↔
      hasLead value = true ∧ ∃ a, MultiAddress.parse value = .ok a ∧ a.peerId = ids node := by
  constructor
  · rintro ⟨hlead, a, ha, -, hid⟩
    exact ⟨hlead, a, ha, hid⟩
  · rintro ⟨hlead, a, ha, hid⟩
    exact ⟨hlead, a, ha, MultiAddress.parse_text ha, hid⟩

namespace Resolve

variable {B : Belief} {g : PeerGroup} {p t : Peer} {node : String} {writes : List TrustWrite}
  {w : TrustWrite}

/-- A member whose record is listed is announced to every other member. -/
theorem Announces.mem (h : Announces B g p.nodeName writes) (hp : p ∈ g.peers) (ht : t ∈ g.peers)
    (hne : t.nodeName ≠ p.nodeName) :
    ∃ address, B.Record p.nodeName address ∧
      ⟨p.nodeName, .main t (.appendTrustedPeer address g.trustedPeersDir)⟩ ∈ writes := by
  obtain ⟨records, rfl, hbelieved, value, hvalue⟩ := h
  cases hfind : records.find? (·.1 == p.nodeName) with
  | none => exact absurd (List.find?_eq_none.1 hfind _ hvalue) (by simp)
  | some record =>
    have hname : record.1 = p.nodeName := by simpa using List.find?_some hfind
    have hrecord := hbelieved record (List.mem_of_find?_eq_some hfind)
    rw [hname] at hrecord
    have husable : PeerGroup.usableAddress? records p = some record.2 :=
      PeerGroup.usableAddress?_eq_some.2 ⟨by rw [hfind]; rfl, hrecord.1⟩
    exact ⟨record.2, hrecord, PeerGroup.mem_trustWrites.2
      ⟨p, hp, t, ht, hne, record.2, husable, rfl⟩⟩

/-- What is announced is the record of one member to another one. -/
theorem Announces.due (h : Announces B g node writes) (hw : w ∈ writes) :
    ∃ p ∈ g.peers, ∃ t ∈ g.peers, t.nodeName ≠ p.nodeName ∧ ∃ address, B.Record p.nodeName address ∧
      w = ⟨p.nodeName, .main t (.appendTrustedPeer address g.trustedPeersDir)⟩ := by
  obtain ⟨records, rfl, hbelieved, -⟩ := h
  obtain ⟨p, hp, t, ht, hne, address, husable, rfl⟩ := PeerGroup.mem_trustWrites.1 hw
  refine ⟨p, hp, t, ht, hne, address, ?_, rfl⟩
  obtain ⟨hfind, -⟩ := PeerGroup.usableAddress?_eq_some.1 husable
  obtain ⟨record, hrecord, rfl⟩ := Option.map_eq_some_iff.1 hfind
  have hname : record.1 = p.nodeName := by simpa using List.find?_some hrecord
  rw [← hname]
  exact hbelieved record (List.mem_of_find?_eq_some hrecord)

/-- The terms of processing a node: the lists of trusted peers are only written to tell a group. -/
def heralding (s : Settings) (B : Belief) : Terms where
  may _ request := ∀ address dir, request.command ≠ .appendTrustedPeer address dir
  tells writes := ∃ node g, s.config.groupOf? node = some g ∧ Announces B g node writes

theorem heralding_lets (s : Settings) (B : Belief) (p : Peer) (f : Finding) :
    (heralding s B).Lets B p f where
  identify := by
    intro known _ _ _ address dir
    simp [Request.main]
  identified := by
    intro id _
    refine ⟨fun h => absurd h (by simp [heralding]), fun h => absurd h (by simp [heralding]), ?_⟩
    intro known _ _ address dir
    simp [Request.main]

theorem heralding_covers (s : Settings) (B : Belief) (p : Peer) : (heralding s B).Covers B p where
  own _ := heralding_lets s B p _
  others _ := by
    refine ⟨fun d _ => heralding_lets s B d _, ?_⟩
    intro known command hcommand address dir
    show command ≠ _
    rintro rfl
    exact hcommand

/-- What comes of processing a node that is not stopped is what comes of resolving it, whatever comes
of telling its group. -/
theorem ends_process_resolve {s : Settings} {t : List TaskEvent}
    {result : Except ResolveError Resolution} (h : Ends (process s p).run t result)
    (hcancelled : .consulted .isCancelled true ∉ t) :
    ∃ t₁ t₂, t = .consulted .isCancelled false :: (t₁ ++ t₂) ∧ Ends (resolve s p).run t₁ result := by
  unfold process at h
  rw [ExceptT.run_bind, ends_bind] at h
  obtain ⟨t₁, first, t₂, rfl, h₁, h₂⟩ := h
  rw [ExceptT.run_liftM, map_eq_pure_bind, ends_bind] at h₁
  obtain ⟨t₃, cancelled, t₄, rfl, h₃, h₄⟩ := h₁
  obtain rfl := ends_consult.1 h₃
  obtain ⟨rfl, rfl⟩ := ends_pure.1 h₄
  cases cancelled with
  | true => exact absurd (by simp) hcancelled
  | false =>
    simp only [Bool.false_eq_true, if_false] at h₂
    rw [ExceptT.run_bind, ends_bind] at h₂
    obtain ⟨t₅, resolved, t₆, rfl, h₅, h₆⟩ := h₂
    refine ⟨t₅, t₆, by simp, ?_⟩
    cases resolved with
    | error e =>
      obtain ⟨rfl, rfl⟩ := ends_pure.1 h₆
      exact h₅
    | ok res =>
      have hresult : result = .ok res := by
        by_cases hown : p.nodeType.advertises = true
        · simp only [hown, if_true] at h₆
          rw [ExceptT.run_bind, ends_bind] at h₆
          obtain ⟨t₇, told, t₈, rfl, h₇, h₈⟩ := h₆
          rw [ExceptT.run_liftM, map_eq_pure_bind, ends_bind] at h₇
          obtain ⟨t₉, report, t₁₀, rfl, -, h₉⟩ := h₇
          obtain ⟨rfl, rfl⟩ := ends_pure.1 h₉
          exact (ends_pure.1 h₈).2
        · simp only [hown] at h₆
          exact (ends_pure.1 h₆).2
      rw [hresult]
      exact h₅

end Resolve

theorem Memory.consult_cancelled {m m' : Memory} {now : Instant} {q : Query} {answer : q.Answer}
    (h : m.consult now q = some (answer, m')) :
    m'.cancelled = m.cancelled ∧
      ∀ b, TaskEvent.consulted q answer = .consulted .isCancelled b → b = m.cancelled := by
  cases q with
  | cacheSet key value lifetime =>
    refine ⟨?_, fun b he => absurd he (by simp)⟩
    by_cases hfault : m.faults.set = true
    · simp only [consult, hfault, if_true, Option.some.injEq, Prod.mk.injEq] at h
      rw [← h.2]
    · simp only [consult, hfault, Bool.false_eq_true, if_false, Option.map_eq_some_iff,
        Prod.mk.injEq] at h
      obtain ⟨cache, -, -, rfl⟩ := h
      rfl
  | isCancelled =>
    obtain ⟨rfl, rfl⟩ := Prod.mk.inj (Option.some.inj h)
    refine ⟨rfl, fun b he => ?_⟩
    cases he
    rfl
  | _ =>
    obtain ⟨-, rfl⟩ := Prod.mk.inj (Option.some.inj h)
    exact ⟨rfl, fun b he => absurd he (by simp)⟩

namespace SpreadingPool

variable {α : Type} {w : World} {B : Belief} {lifetime : Duration} {c c' : SpreadingPool α}
  {log shown : List SpreadEvent} {st : Nat → TaskAccount α}

/-! ## What steps keep -/

/-- Nothing begins to shut down by itself. -/
theorem Step.uncancelled (step : Step w c shown c') (h : c.pool.memory.cancelled = false) :
    c'.pool.memory.cancelled = false ∧ ∀ i, .task i (.consulted .isCancelled true) ∉ shown := by
  cases step with
  | @turn _ shown turn hstill =>
    have hparts : ∀ {i e}, .task i e ∈ shown.map (fun e => SpreadEvent.task e.1 e.2) →
        (i, e) ∈ shown := by
      intro i e hmem
      obtain ⟨e', he', heq⟩ := List.mem_map.1 hmem
      obtain ⟨rfl, rfl⟩ : e'.1 = i ∧ e'.2 = e := by simpa using heq
      exact he'
    cases turn with
    | @consult i q next now answer memory ht hnow hm =>
      obtain ⟨hsame, hanswer⟩ := Memory.consult_cancelled hm
      refine ⟨hsame.trans h, fun j hmem => ?_⟩
      have hevent := List.mem_singleton.1 (hparts hmem)
      have hcancelled := hanswer true (Prod.mk.inj hevent).2.symm
      rw [h] at hcancelled
      exact absurd hcancelled (by simp)
    | _ => exact ⟨h, fun j hmem => absurd (hparts hmem) (by simp)⟩
  | spread ht hstep => exact ⟨h, by simp⟩
  | report ht hover => exact ⟨h, by simp⟩
  | drop ht hon hcut => exact ⟨h, by simp⟩
  | forget node => exact ⟨h, by simp⟩

theorem uncancelled_run (h : Run (Step w) c log c') (hstart : c.pool.memory.cancelled = false) :
    ∀ i, .task i (.consulted .isCancelled true) ∉ log := by
  have hall : c'.pool.memory.cancelled = false ∧
      ∀ i, .task i (.consulted .isCancelled true) ∉ log := by
    refine h.preserves (P := fun log c' => c'.pool.memory.cancelled = false ∧
      ∀ i, .task i (.consulted .isCancelled true) ∉ log) ⟨hstart, by simp⟩ ?_
    rintro log c shown c' ⟨hon, hlog⟩ step
    obtain ⟨hon', hshown⟩ := step.uncancelled hon
    refine ⟨hon', fun i hmem => ?_⟩
    rcases List.mem_append.1 hmem with hmem | hmem
    · exact hlog i hmem
    · exact hshown i hmem
  exact hall.2

/-- Only records are followed, so that forgetting what is noted does no harm. -/
theorem Step.inLine (hw : w.Trusty B lifetime)
    (hfree : ∀ i node, ¬ (st i).terms.Tracks (.id node) ∧ ¬ (st i).terms.Tracks (.own node))
    (step : Step w c shown c') (h : Pool.InLine w B lifetime c.pool st) :
    (Pool.InLine w B lifetime c'.pool fun i => (st i).after (own i (parts shown))) ∧
      ∀ e ∈ parts shown, (st e.1).Licenses e.2 := by
  cases step with
  | turn turn hstill =>
    rw [parts_tasks]
    exact turn.inLine hw h
  | @spread i run next f shown ht hstep =>
    rw [parts_writes]
    have hrest : Activity.InLine w B lifetime (st i) (.propagating run next) := h.tasks ht
    exact ⟨h.step (t := []) (c.pool.set_tasks ht (.propagating f.run next)) (by simp) h.memory
      (fun _ hf => hf) hrest (h.sound i), by simp⟩
  | report ht hover => exact (Pool.Turn.report ht (Or.inl ⟨hover, rfl⟩)).inLine hw h
  | drop ht hon hcut => exact ⟨h.drop ht hcut, by simp [parts]⟩
  | forget node => exact ⟨h.forget fun i => hfree i node, by simp [parts]⟩

theorem inLine_run (hw : w.Trusty B lifetime)
    (hfree : ∀ i node, ¬ (st i).terms.Tracks (.id node) ∧ ¬ (st i).terms.Tracks (.own node))
    (h : Run (Step w) c log c') (hstart : Pool.InLine w B lifetime c.pool st) :
    (Pool.InLine w B lifetime c'.pool fun i => (st i).after (own i (parts log))) ∧
      ∀ e ∈ parts log, ∃ L, { st e.1 with ledger := L }.Licenses e.2 := by
  refine h.preserves (P := fun log c' =>
    (Pool.InLine w B lifetime c'.pool fun i => (st i).after (own i (parts log))) ∧
      ∀ e ∈ parts log, ∃ L, { st e.1 with ledger := L }.Licenses e.2) ⟨hstart, by simp [parts]⟩ ?_
  rintro log c shown c' ⟨hline, hlog⟩ step
  have hfree' : ∀ i node, ¬ ((st i).after (own i (parts log))).terms.Tracks (.id node) ∧
      ¬ ((st i).after (own i (parts log))).terms.Tracks (.own node) := hfree
  obtain ⟨hline', hshown⟩ := step.inLine hw hfree' hline
  refine ⟨?_, fun e he => ?_⟩
  · have hsame : ∀ i, (st i).after (own i (parts (log ++ shown))) =
        ((st i).after (own i (parts log))).after (own i (parts shown)) := by
      intro i
      rw [parts_append, own_append, TaskAccount.after_append]
    simp only [hsame]
    exact hline'
  · rw [parts_append] at he
    rcases List.mem_append.1 he with he | he
    · exact hlog e he
    · exact ⟨_, hshown e he⟩

/-! ## Processing peers side by side -/

/-- Peers that are processed side by side; one can be processed more than once. -/
def start (m : Memory) (s : Settings) (ps : List Peer) :
    SpreadingPool (Except ResolveError Resolution) where
  pool := { memory := m, tasks := ps.map fun p => .ready (Resolve.process s p).run }

variable {m : Memory} {s : Settings} {ps : List Peer} {ids : String → String}
  {d : SpreadingPool (Except ResolveError Resolution)}

theorem start_task {i : Nat} {p : Peer} (hp : ps[i]? = some p) :
    (start m s ps).pool.tasks[i]? = some (.ready (Resolve.process s p).run) := by
  show (ps.map _)[i]? = _
  rw [List.getElem?_map, hp]
  rfl

theorem start_orderly : Orderly [] (start m s ps) := by
  refine ⟨?_, by simp⟩
  intro i a ha
  obtain ⟨p, -, rfl⟩ : ∃ p ∈ ps, .ready (Resolve.process s p).run = a :=
    List.mem_map.1 (List.mem_of_getElem? ha)
  intro writes hmem
  exact absurd hmem (by simp [parts])

/-- What the processing of some peers has achieved after some events. -/
structure Informs (s : Settings) (ids : String → String) (ps : List Peer) (log : List SpreadEvent)
    (d : SpreadingPool (Except ResolveError Resolution)) : Prop where
  /-- An address of a peer that has been processed, with the identifier of the one that has come of it,
  has been sent to each other member of its group. -/
  reached : ∀ {i p res g t}, ps[i]? = some p → d.pool.tasks[i]? = some (.ended (.value (.ok res))) →
    p.nodeType.advertises = true → g ∈ s.config.groups → p ∈ g.peers → t ∈ g.peers → t ≠ p →
    ∃ text a address a', res.address = some text ∧ MultiAddress.parse text = .ok a ∧
      MultiAddress.parse address = .ok a' ∧ a'.peerId = a.peerId ∧
      .write i (.sent ⟨p.nodeName, .main t (.appendTrustedPeer address g.trustedPeersDir)⟩) ∈ log
  /-- What is sent is an address of a member of a group, and it goes to another member. -/
  within : ∀ {i w}, .write i (.sent w) ∈ log → ∃ g ∈ s.config.groups, ∃ p ∈ g.peers, ∃ t ∈ g.peers,
    t ≠ p ∧ ∃ address a, MultiAddress.parse address = .ok a ∧ a.peerId = ids p.nodeName ∧
      w = ⟨p.nodeName, .main t (.appendTrustedPeer address g.trustedPeersDir)⟩
  /-- Resolving does not write lists of trusted peers. -/
  elsewhere : ∀ {i request address dir}, .task i (.called request) ∈ log →
    request.command ≠ .appendTrustedPeer address dir
  /-- What comes of processing a peer is what comes of resolving it. -/
  result : ∀ {i p result}, ps[i]? = some p → d.pool.tasks[i]? = some (.ended (.value result)) →
    ∃ t₁ t₂, own i (parts log) = .consulted .isCancelled false :: (t₁ ++ t₂) ∧
      Ends (Resolve.resolve s p).run t₁ result

/-- Whatever comes of the writes and in whichever order everything happens, every member of a group
learns of every node of the group that is processed. -/
theorem processed_nodes_reach_groups (hvalid : s.config.validate = .ok ())
    (hw : w.Trusty (.fixed ids) s.lifetime) (hm : m.Faithful w (.fixed ids))
    (hon : m.cancelled = false) (h : Run (Step w) (start m s ps) log d) :
    Informs s ids ps log d := by
  let st : Nat → TaskAccount (Except ResolveError Resolution) := fun i =>
    { terms := Resolve.heralding s (.fixed ids)
      aim := fun result L => ∀ p, ps[i]? = some p → Resolve.Heralded s (.fixed ids) p result L }
  have hline : Pool.InLine w (.fixed ids) s.lifetime (start m s ps).pool st := by
    refine ⟨hm, ?_, fun i => Ledger.sound_new m _⟩
    intro i a ha
    have hsome : ∃ p, ps[i]? = some p := by
      obtain ⟨hi, -⟩ := List.getElem?_eq_some_iff.1 ha
      have hlt : i < ps.length := by simpa [start] using hi
      exact ⟨_, List.getElem?_eq_getElem hlt⟩
    obtain ⟨p, hp⟩ := hsome
    obtain rfl := Option.some.inj ((start_task hp).symm.trans ha)
    have hpaid : Ledger.Paid (Resolve.heralding s (.fixed ids)) {} :=
      ⟨fun h => absurd h (by simp [Resolve.heralding]), rfl⟩
    refine (Resolve.costs_process hpaid (fun _ => Resolve.heralding_covers s _ p)
      fun _ g writes hg hwrites => ⟨_, g, hg, hwrites⟩).mono ?_
    rintro result L ⟨-, hheralded⟩ p' hp'
    obtain rfl := Option.some.inj (hp.symm.trans hp')
    exact hheralded
  have hfree : ∀ i node, ¬ (st i).terms.Tracks (.id node) ∧ ¬ (st i).terms.Tracks (.own node) := by
    intro i node
    simp [st, Resolve.heralding, Terms.Tracks, Finding.isRecord]
  obtain ⟨hend, hlicensed⟩ := inLine_run hw hfree h hline
  have hdealt := orderly_run start_orderly h
  have hnames : ∀ {g : PeerGroup} {p t : Peer}, g ∈ s.config.groups → p ∈ g.peers → t ∈ g.peers →
      (t.nodeName ≠ p.nodeName ↔ t ≠ p) := by
    intro g p t hg hp ht
    have hmem : ∀ {q : Peer}, q ∈ g.peers → q ∈ s.config.peers :=
      fun hq => List.mem_flatMap.2 ⟨g, hg, hq⟩
    exact not_congr ⟨Config.eq_of_nodeName hvalid (hmem ht) (hmem hp), congrArg _⟩
  constructor
  case reached =>
    intro i p res g t hp hended hown hg hpg htg hne
    have haim := hend.tasks hended p hp
    obtain ⟨⟨text, htext, hrecord⟩, htold⟩ := haim res rfl hown
    obtain ⟨writes, hwrites, hannounces⟩ := htold g (Config.groupOf?_eq_some hvalid hg hpg)
    obtain ⟨-, a, ha, hid⟩ := Belief.fixed_record.1 hrecord
    obtain ⟨address, hbelieved, hmem⟩ :=
      hannounces.mem hpg htg ((hnames hg hpg htg).2 hne)
    obtain ⟨-, a', ha', hid'⟩ := Belief.fixed_record.1 hbelieved
    have hsent := hdealt.dealt hended
    rcases Ledger.mem_told_foldl hwrites with hnone | hstarted
    · exact absurd hnone List.not_mem_nil
    · exact ⟨text, a, address, a', htext, ha, ha', hid'.trans hid.symm, hsent writes hstarted _ hmem⟩
  case within =>
    intro i w hsent
    obtain ⟨writes, htold, hmem⟩ := hdealt.told hsent
    obtain ⟨_, node, g, hgroup, hannounces⟩ := hlicensed (i, .told writes) (mem_own.1 htold)
    obtain ⟨p, hp, t, ht, hne, address, hbelieved, rfl⟩ := hannounces.due hmem
    have hg : g ∈ s.config.groups := List.mem_of_find?_eq_some hgroup
    obtain ⟨-, a, ha, hid⟩ := Belief.fixed_record.1 hbelieved
    exact ⟨g, hg, p, hp, t, ht, (hnames hg hp ht).1 hne, address, a, ha, hid, rfl⟩
  case elsewhere =>
    intro i request address dir hmem
    obtain ⟨_, -, hmay⟩ := hlicensed (i, .called request) (mem_parts.2 hmem)
    exact hmay address dir
  case result =>
    intro i p result hp hended
    have hfollows := Pool.task_follows (pool_run h) (start_task hp) hended
    refine Resolve.ends_process_resolve hfollows fun hmem => ?_
    exact uncancelled_run h hon i (mem_parts.1 (mem_own.1 hmem))

/-! ## A group of three -/

/-- The settings with three peers in one group. -/
def trioSettings : Settings := { config := ⟨[Fanout.trio]⟩ }

/-- The identifier that all of them have. -/
def trioIdentifier : String := "12D3KooWAbCdEfGhIjKlMnOpQrStUvWxYz123456789abcdefghi"

/-- A memory with a record of one of them. -/
def trioMemory : Memory :=
  { cache := .ofRecords 0 [("da-one", "/dns/da-one/tcp/2121/p2p/" ++ trioIdentifier)] }

/-- The writes that a routine tells first, if it only asks the memory before, and what it goes on
with. -/
def firstTold? (now : Instant) :
    Routine α → Memory → Option (List TrustWrite × (PropagationReport → Routine α))
  | .ask (.consult q) next, m =>
    match m.consult now q with
    | some (answer, m') => firstTold? now (next answer) m'
    | none => none
  | .ask (.propagate writes) next, _ => some (writes, next)
  | _, _ => none

/-- The turn of a task that is ready leaves all propagations alone. -/
theorem still_of_ready {p p' : Pool α} {i : Nat} {r : Routine α} {a : Activity α}
    (ht : p.tasks[i]? = some (.ready r))
    (htasks : ∀ j, p'.tasks[j]? = if i = j then some a else p.tasks[j]?) : Still p p' := by
  intro j run next hj
  have hij : i ≠ j := by
    rintro rfl
    exact absurd (Option.some.inj (ht.symm.trans hj)) (by simp)
  rw [htasks, if_neg hij]
  exact hj

/-- A task can come to the first writes that it tells. -/
theorem exists_told {now : Instant} {i : Nat} {r : Routine α} {writes : List TrustWrite}
    {next : PropagationReport → Routine α} {m : Memory} (hnow : w.timely now)
    (ht : c.pool.tasks[i]? = some (.ready r)) (hm : c.pool.memory = m)
    (h : firstTold? now r m = some (writes, next)) :
    ∃ log c', Run (Step w) c log c' ∧
      c'.pool.tasks[i]? = some (.propagating (.start writes) next) ∧
      c'.unsent i = List.range writes.length := by
  induction r generalizing c m with
  | done a => exact absurd h (by simp [firstTold?])
  | ask e next' ih =>
    cases e with
    | consult q =>
      cases hanswer : m.consult now q with
      | none => exact absurd h (by simp [firstTold?, hanswer])
      | some x =>
        obtain ⟨answer, m'⟩ := x
        have hrest : firstTold? now (next' answer) m' = some (writes, next) := by
          rw [← h, firstTold?, hanswer]
        have htasks := Pool.set_tasks { c.pool with memory := m' } ht (.ready (next' answer))
        have hstep := Run.single (Step.turn (.consult ht hnow (hm ▸ hanswer)) (still_of_ready ht htasks))
        have hready : ({ c.pool with memory := m' }.set i (.ready (next' answer))).tasks[i]? =
            some (.ready (next' answer)) := by
          rw [htasks, if_pos rfl]
        obtain ⟨log, c', hrun, htold, hunsent⟩ := ih answer (c := ⟨_, _⟩) hready rfl hrest
        exact ⟨_, c', hstep.trans hrun, htold, hunsent⟩
    | propagate writes' =>
      obtain ⟨rfl, rfl⟩ := Prod.mk.inj (Option.some.inj h)
      have htasks := c.pool.set_tasks ht (.propagating (.start writes') next')
      refine ⟨_, _, .single (.turn (.tell ht) (still_of_ready ht htasks)), ?_, ?_⟩
      · show (c.pool.set i _).tasks[i]? = _
        rw [htasks, if_pos rfl]
      · show (own i [(i, .told writes')]).foldl announce _ = _
        rw [own_self]
        rfl
    | _ => exact absurd h (by simp [firstTold?])

/-- A propagation of a task can take any course that it can take by itself. -/
theorem exists_spread {i : Nat} {f f' : Fanout} {next : PropagationReport → Routine α}
    {flog : List FanoutEvent} (h : Run Fanout.Step f flog f')
    (ht : c.pool.tasks[i]? = some (.propagating f.run next)) (hunsent : c.unsent i = f.unsent) :
    ∃ c', Run (Step w) c (flog.map (.write i)) c' ∧
      c'.pool.tasks[i]? = some (.propagating f'.run next) ∧ c'.unsent i = f'.unsent := by
  induction h with
  | refl => exact ⟨c, .refl c, ht, hunsent⟩
  | @tail f₁ f₂ flog shown _ step ih =>
    obtain ⟨c₁, hrun, ht₁, hunsent₁⟩ := ih
    have hstep : Fanout.Step ⟨f₁.run, c₁.unsent i⟩ shown f₂ := by
      rw [hunsent₁]
      exact step
    refine ⟨⟨c₁.pool.set i (.propagating f₂.run next), Function.update c₁.unsent i f₂.unsent⟩,
      ?_, ?_, Function.update_self i f₂.unsent c₁.unsent⟩
    · rw [List.map_append]
      exact hrun.tail (.spread ht₁ hstep)
    · show (c₁.pool.set i _).tasks[i]? = _
      rw [c₁.pool.set_tasks ht₁, if_pos rfl]

theorem trusty_trio : World.Trusty (.still 0 sampleAnswer) (.fixed fun _ => trioIdentifier)
    trioSettings.lifetime where
  told := by
    rintro request answer id rfl htold
    obtain ⟨hcommand, output, houtput, hcut⟩ := toldId?_eq_some.1 htold
    have hanswer : sampleAnswer request = .ok trioIdentifier := by
      rw [sampleAnswer, hcommand]
      rfl
    obtain rfl := Except.ok.inj (hanswer.symm.trans houtput)
    have hid : truncatePeerId (Text.trim trioIdentifier) peerIdLength = .ok trioIdentifier := by
      decide +kernel
    obtain rfl := Except.ok.inj (hid.symm.trans hcut)
    exact ⟨rfl, by decide⟩
  span := by
    rintro t t' rfl rfl
    decide

theorem faithful_trio : trioMemory.Faithful (.still 0 sampleAnswer) (.fixed fun _ => trioIdentifier) where
  faults := rfl
  ids node id h := absurd h (by simp [trioMemory])
  addresses node a h := absurd h (by simp [trioMemory])
  records := by
    intro r hr
    obtain rfl := List.mem_singleton.1 hr
    refine ⟨?_, Belief.fixed_record.2 ⟨by decide, ?_⟩⟩
    · rintro t rfl
      decide
    · have hread : ((MultiAddress.parse ("/dns/da-one/tcp/2121/p2p/" ++ trioIdentifier)).toOption.map
          MultiAddress.peerId) = some trioIdentifier := by decide +kernel
      obtain ⟨a, ha, hid⟩ := Option.map_eq_some_iff.1 hread
      cases hparse : MultiAddress.parse ("/dns/da-one/tcp/2121/p2p/" ++ trioIdentifier) with
      | error e =>
        rw [hparse] at ha
        exact absurd ha (by simp [Except.toOption])
      | ok a' =>
        rw [hparse] at ha
        obtain rfl := Option.some.inj ha
        exact ⟨a', rfl, hid⟩

/-- One of three is processed, and the two others learn of it although both writes fail. -/
theorem processed_nodes_reach_groups_trio :
    ∃ log d, Run (Step (.still 0 sampleAnswer)) (start trioMemory trioSettings [{ nodeName := "da-one" }])
        log d ∧
      Informs trioSettings (fun _ => trioIdentifier) [{ nodeName := "da-one" }] log d ∧
      ∃ res, d.pool.tasks[0]? = some (.ended (.value (.ok res))) := by
  have htold : ∃ writes next res, firstTold? 0
      (Resolve.process trioSettings { nodeName := "da-one" }).run trioMemory = some (writes, next) ∧
      ∀ report, next report = .done (.ok res) :=
    ⟨_, _, _, rfl, fun _ => rfl⟩
  obtain ⟨writes, next, res, htold, hdone⟩ := htold
  let w : World := .still 0 sampleAnswer
  let c₀ := start trioMemory trioSettings [{ nodeName := "da-one" }]
  obtain ⟨log₁, c₁, hrun₁, ht₁, hunsent₁⟩ := exists_told (w := w) (c := c₀) rfl
    (start_task (i := 0) rfl) rfl htold
  obtain ⟨flog, f, hcourse, hover, -⟩ :=
    Fanout.exists_course (fun _ => .failed (.commandFailed (some 1) "no space")) (.start writes)
  obtain ⟨c₂, hrun₂, ht₂, -⟩ := exists_spread (w := w) hcourse ht₁ hunsent₁
  have hreport := (hrun₁.trans hrun₂).tail (.report ht₂ hover)
  have ht₃ : (c₂.pool.set 0 (.ready (next f.run.report))).tasks[0]? =
      some (.ready (.done (.ok res))) := by
    rw [c₂.pool.set_tasks ht₂, if_pos rfl, hdone]
  have htasks := Pool.set_tasks _ ht₃ (.ended (.value (.ok res)))
  have hfinish := hreport.tail (.turn (.finish ht₃) (still_of_ready ht₃ htasks))
  have hvalid : trioSettings.config.validate = .ok () := by decide +kernel
  refine ⟨_, _, hfinish, ?_, res, ?_⟩
  · exact processed_nodes_reach_groups hvalid trusty_trio faithful_trio rfl hfinish
  · show (Pool.set _ 0 _).tasks[0]? = _
    rw [htasks, if_pos rfl]

end SpreadingPool

end Rendezvous
