import Rendezvous.Proofs.Pool.Records
import Rendezvous.Proofs.Resolve.Conduct
import Rendezvous.Proofs.Resolve.Solo

/-!
# Where a resolution stops

A resolution of a peer that is not recorded goes through its steps in a fixed order: the peer itself is
asked, then each listed node that is not recorded, and last the connections are written. Which steps
there are depends on what is noted and recorded when they are reached. The first step that fails is the
last one that is taken. What has been recorded by then is recorded of nodes that were resolved
completely.
-/

namespace Rendezvous

namespace Resolve

/-! ## Steps -/

/-- A step that can fail: a command whose answer is made use of, a listed address that is read, and an
identifier that is put at a host. -/
inductive Chore where
  | call (request : Request)
  | read (node text : String)
  | join (node : String)

/-- The command of a step, if it has one. -/
def Chore.request? : Chore → Option Request
  | call request => some request
  | _ => none

/-- Whether a result is one. -/
def fate {α : Type} (result : Except ResolveError α) : Except ResolveError Unit :=
  result.map fun _ => ()

/-- What a step comes to that is a command, by its answer: an identifier or an IP address is to be read
from it if the command asks for one. -/
def verdict (request : Request) (answer : Except ExecError String) : Except ResolveError Unit :=
  match request.command with
  | .peerInfo =>
    fate (Probes.reading request.node answer fun output =>
      truncatePeerId (Text.trim output) peerIdLength)
  | .nodeIp => fate (Probes.reading request.node answer Host.parseIp)
  | _ => fate (answer.mapError (.execution request.node))

/-- Steps are taken one after another until one fails, with these commands and answers. -/
inductive WorkOff : List Chore → List Exchange → Except ResolveError Unit → Prop where
  | done : WorkOff [] [] (.ok ())
  | called {request : Request} {answer : Except ExecError String} {chores : List Chore}
      {made : List Exchange} {result : Except ResolveError Unit}
      (h : verdict request answer = .ok ()) (hrest : WorkOff chores made result) :
      WorkOff (.call request :: chores) ((request, answer) :: made) result
  | failed {request : Request} {answer : Except ExecError String} {chores : List Chore}
      {e : ResolveError} (h : verdict request answer = .error e) :
      WorkOff (.call request :: chores) [(request, answer)] (.error e)
  | read {node text : String} {a : MultiAddress} {chores : List Chore} {made : List Exchange}
      {result : Except ResolveError Unit} (h : MultiAddress.parse text = .ok a)
      (hrest : WorkOff chores made result) : WorkOff (.read node text :: chores) made result
  | unread {node text : String} {e : FormatError} {chores : List Chore}
      (h : MultiAddress.parse text = .error e) :
      WorkOff (.read node text :: chores) [] (.error (.format node e))
  | joined {node : String} {chores : List Chore} {made : List Exchange}
      {result : Except ResolveError Unit} (hrest : WorkOff chores made result) :
      WorkOff (.join node :: chores) made result
  | unjoined {node : String} {chores : List Chore} (e : FormatError) :
      WorkOff (.join node :: chores) [] (.error (.format node e))

namespace WorkOff

variable {chores chores' : List Chore} {made made' : List Exchange}
  {result : Except ResolveError Unit} {e : ResolveError}

/-- After steps that did not fail come others. -/
theorem append (h : WorkOff chores made (.ok ())) (h' : WorkOff chores' made' result) :
    WorkOff (chores ++ chores') (made ++ made') result := by
  generalize hok : Except.ok () = first at h
  induction h with
  | done => exact h'
  | called hverdict _ ih => exact .called hverdict (ih hok)
  | failed _ => exact absurd hok (by simp)
  | read ha _ ih => exact .read ha (ih hok)
  | unread _ => exact absurd hok (by simp)
  | joined _ ih => exact .joined (ih hok)
  | unjoined _ => exact absurd hok (by simp)

/-- After a step that has failed there are no others. -/
theorem cut (h : WorkOff chores made (.error e)) (more : List Chore) :
    WorkOff (chores ++ more) made (.error e) := by
  generalize hfailed : Except.error e = result at h
  induction h with
  | done => exact absurd hfailed (by simp)
  | called hverdict _ ih => exact .called hverdict (ih hfailed)
  | failed hverdict => exact .failed hverdict
  | read ha _ ih => exact .read ha (ih hfailed)
  | unread ha => exact .unread ha
  | joined _ ih => exact .joined (ih hfailed)
  | unjoined e' => exact .unjoined e'

/-- The commands are the first ones of the steps. -/
theorem requests_prefix (h : WorkOff chores made result) :
    made.map Prod.fst <+: chores.filterMap Chore.request? := by
  induction h with
  | done => exact List.prefix_rfl
  | called _ _ ih => exact (List.cons_prefix_cons).2 ⟨rfl, ih⟩
  | failed _ => exact ⟨_, rfl⟩
  | read _ _ ih => exact ih
  | unread _ => exact List.nil_prefix
  | joined _ ih => exact ih
  | unjoined _ => exact List.nil_prefix

/-- Only commands of the steps are run. -/
theorem call_mem (h : WorkOff chores made result) {x : Exchange} (hx : x ∈ made) :
    .call x.1 ∈ chores := by
  obtain ⟨c, hc, hrequest⟩ := List.mem_filterMap.1
    (h.requests_prefix.subset (List.mem_map_of_mem hx))
  cases c with
  | call request => exact Option.some.inj hrequest ▸ hc
  | read node text => exact absurd hrequest (by simp [Chore.request?])
  | join node => exact absurd hrequest (by simp [Chore.request?])

end WorkOff

theorem fate_map {α β : Type} (result : Except ResolveError α) (f : α → β) :
    fate (result.map f) = fate result := by
  cases result <;> rfl

variable {w : World} {s : Settings} {p d : Peer} {m m' : Memory} {dns : Option String}

/-! ## The steps of a node -/

/-- The steps that put the address of a node together: its identifier is asked for unless it is noted,
and its IP address unless a DNS name stands for it. -/
def asking (d : Peer) (m : Memory) (pinned : Bool) : List Chore :=
  (if (m.memos.ids.get? d.nodeName).isSome then [] else [.call (.main d .peerInfo)]) ++
    ((if pinned then [] else [.call (.main d .nodeIp)]) ++ [.join d.nodeName])

/-- The steps for the own address of a peer. -/
def ownChores (p : Peer) (m : Memory) : List Chore :=
  if (m.memos.addresses.get? p.nodeName).isSome then []
  else asking p m (!p.dnsConnections.isEmpty)

theorem workOff_single {request : Request} {answer : Except ExecError String} :
    WorkOff [.call request] [(request, answer)] (verdict request answer) := by
  cases h : verdict request answer with
  | ok u => exact .called h .done
  | error e => exact .failed h

theorem Identified.workOff {result : Except ResolveError String} {made : List Exchange}
    (h : Identified d m result m' made) :
    WorkOff (if (m.memos.ids.get? d.nodeName).isSome then [] else [.call (.main d .peerInfo)]) made
      (fate result) := by
  cases h with
  | noted h =>
    rw [h]
    exact .done
  | told hnone h =>
    rw [hnone, ← h]
    exact workOff_single
  | refused hnone h =>
    rw [hnone, ← h]
    exact workOff_single

theorem Hosted.workOff {result : Except ResolveError Host} {made : List Exchange}
    (h : Hosted d dns result made) :
    WorkOff (if dns.isSome then [] else [.call (.main d .nodeIp)]) made (fate result) := by
  cases h with
  | pinned name => exact .done
  | told answer => exact workOff_single

theorem Composed.workOff {result : Except ResolveError MultiAddress} {made : List Exchange}
    (h : Composed d dns m result m' made) :
    WorkOff (asking d m dns.isSome) made (fate result) := by
  cases h with
  | unidentified hid => exact hid.workOff.cut _
  | unhosted hid hhost => exact hid.workOff.append (hhost.workOff.cut _)
  | @unjoined id host e _ _ _ hid hhost ha =>
    have hjoin : WorkOff [.join d.nodeName] [] (.error (.format d.nodeName e)) := .unjoined e
    have hall := hid.workOff.append (hhost.workOff.append hjoin)
    rwa [List.append_nil] at hall
  | joined hid hhost ha =>
    have hjoin : WorkOff [.join d.nodeName] [] (.ok ()) := .joined .done
    have hall := hid.workOff.append (hhost.workOff.append hjoin)
    rwa [List.append_nil] at hall

theorem Owned.workOff {result : Except ResolveError MultiAddress} {made : List Exchange}
    (h : Owned p m result m' made) : WorkOff (ownChores p m) made (fate result) := by
  have hdns : p.ownDns?.isSome = !p.dnsConnections.isEmpty := by
    unfold Peer.ownDns?
    cases p.dnsConnections.isEmpty <;> rfl
  unfold ownChores
  rw [← hdns]
  cases h with
  | pending h =>
    rw [h]
    exact .done
  | lost hnone hprobe =>
    rw [hnone]
    exact hprobe.workOff
  | probed hnone hprobe =>
    rw [hnone]
    exact hprobe.workOff

/-! ## Listed entries -/

/-- One listed entry that a resolution has come to. -/
structure Visit where
  /-- Its place in the list. -/
  position : Nat
  /-- The entry. -/
  entry : String
  /-- The memory in which it was reached. -/
  before : Memory
  /-- Whether there was a record of a node of this name. -/
  found : Bool
  /-- The commands that it took, with their answers. -/
  made : List Exchange
  /-- The address, if there is one. -/
  outcome : Except ResolveError MultiAddress
  /-- The memory in which it was left. -/
  after : Memory

namespace Visit

/-- The steps for an entry: an address is read, nothing is asked of a node that is recorded, and any
other node is asked. -/
def chores (s : Settings) (p : Peer) (v : Visit) : List Chore :=
  if isLiteralAddress v.entry then [.read p.nodeName v.entry]
  else if v.found then []
  else asking (dependency s v.entry p) v.before (p.dnsFor? v.position).isSome

/-- The entry is the name of a node that was not recorded, and it was resolved to the end. -/
def Completed (v : Visit) : Prop :=
  isLiteralAddress v.entry = false ∧ v.found = false ∧ ∃ a, v.outcome = .ok a

/-- What happens at an entry: an address is read, the record of a node is found at some instant, or
there is none at some instant and the node is asked, in vain or so that it is recorded. -/
inductive Made (w : World) (s : Settings) (p : Peer) : Visit → Prop where
  | read {i : Nat} {entry : String} {m : Memory} (hliteral : isLiteralAddress entry = true) :
      Made w s p ⟨i, entry, m, false, [], (MultiAddress.parse entry).mapError (.format p.nodeName), m⟩
  | found {i : Nat} {entry value : String} {m : Memory} {now : Instant} {a : MultiAddress}
      (hname : isLiteralAddress entry = false) (hnow : w.timely now)
      (hvalue : m.cache.get? now entry = some value)
      (hfrom : FromRecord (dependency s entry p) (p.dnsFor? i) value a []) :
      Made w s p ⟨i, entry, m, true, [], .ok a, m⟩
  | lost {i : Nat} {entry : String} {m m' : Memory} {now : Instant} {e : ResolveError}
      {made : List Exchange} (hname : isLiteralAddress entry = false) (hnow : w.timely now)
      (hnone : m.cache.get? now entry = none)
      (hprobe : Composed (dependency s entry p) (p.dnsFor? i) m (.error e) m' made) :
      Made w s p ⟨i, entry, m, false, made, .error e, m'⟩
  | probed {i : Nat} {entry : String} {m m' : Memory} {now now' expiry : Instant} {a : MultiAddress}
      {made : List Exchange} (hname : isLiteralAddress entry = false) (hnow : w.timely now)
      (hnone : m.cache.get? now entry = none)
      (hprobe : Composed (dependency s entry p) (p.dnsFor? i) m (.ok a) m' made)
      (hnow' : w.timely now') (hexpiry : Instant.after? now' s.lifetime = some expiry) :
      Made w s p ⟨i, entry, m, false, made, .ok a, m'.record (dependency s entry p) a expiry⟩

variable {v : Visit}

theorem Made.workOff (h : v.Made w s p) : WorkOff (v.chores s p) v.made (fate v.outcome) := by
  cases h with
  | @read i entry m hliteral =>
    rw [chores, if_pos hliteral]
    cases ha : MultiAddress.parse entry with
    | ok a => exact .read ha .done
    | error e => exact .unread ha
  | found hname _ _ _ =>
    simp only [chores, hname, Bool.false_eq_true, if_false, if_true]
    exact .done
  | lost hname _ _ hprobe =>
    simp only [chores, hname, Bool.false_eq_true, if_false]
    exact hprobe.workOff
  | probed hname _ _ hprobe _ _ =>
    simp only [chores, hname, Bool.false_eq_true, if_false]
    exact hprobe.workOff

/-- An entry changes the records only if it was resolved to the end. -/
theorem Made.recorded (h : v.Made w s p) :
    (v.after.cache = v.before.cache ∧ v.after.registry = v.before.registry) ∨
      v.Completed ∧ ∃ text space expiry,
        v.after.cache.records = v.before.cache.records.put v.entry ⟨text, expiry⟩ ∧
        v.after.registry = v.before.registry.register v.entry text space := by
  cases h with
  | read _ => exact .inl ⟨rfl, rfl⟩
  | found _ _ _ _ => exact .inl ⟨rfl, rfl⟩
  | lost _ _ _ hprobe => exact .inl (by rw [hprobe.memory]; exact ⟨rfl, rfl⟩)
  | @probed i entry m m' _ _ expiry a _ hname _ _ hprobe _ _ =>
    refine .inr ⟨⟨hname, rfl, a, rfl⟩, a.text, (dependency s entry p).space, expiry, ?_, ?_⟩
    · rw [hprobe.memory, Memory.record, dependency_nodeName]
    · rw [hprobe.memory, Memory.record, dependency_nodeName]

end Visit

/-- All records are whole addresses. -/
def Whole (m : Memory) : Prop :=
  ∀ key r, m.cache.records.get? key = some r → WholeAddress r.value

theorem Whole.of_cache (hm : Whole m) (h : m'.cache = m.cache) : Whole m' := by
  unfold Whole
  rwa [h]

theorem Whole.record {a : MultiAddress} {text : String} (hm : Whole m)
    (ha : MultiAddress.parse text = .ok a) (d : Peer) (expiry : Instant) :
    Whole (m.record d a expiry) :=
  Table.forall_put hm ⟨a.hasLead_text, a, MultiAddress.parse_text ha⟩

/-- What is found is a whole address. -/
theorem Whole.of_get? {now : Instant} {key value : String} (hm : Whole m)
    (hvalue : m.cache.get? now key = some value) : WholeAddress value := by
  obtain ⟨r, hr, rfl⟩ := TimedCache.get?_eq_some hvalue
  exact hm key r hr

/-- What an attempt for the address of an entry comes to is what happens at a visit. -/
theorem visit_of_segmented {i : Nat} {entry : String} {result : Except ResolveError MultiAddress}
    {made : List Exchange} (hm : Whole m) (h : Segmented w s p i entry m result m' made) :
    ∃ v : Visit, v.position = i ∧ v.entry = entry ∧ v.before = m ∧ v.made = made ∧
      v.outcome = result ∧ v.after = m' ∧ v.Made w s p ∧ Whole m' := by
  cases h with
  | literal hliteral ha =>
    refine ⟨_, rfl, rfl, rfl, rfl, ?_, rfl, .read hliteral, hm⟩
    rw [ha]
    rfl
  | unread hliteral ha =>
    refine ⟨_, rfl, rfl, rfl, rfl, ?_, rfl, .read hliteral, hm⟩
    rw [ha]
    rfl
  | dependency hname h =>
    cases h with
    | found hnow hvalue hfrom =>
      rw [dependency_nodeName] at hvalue
      have hlead := (hm.of_get? hvalue).1
      -- An address that is recorded whole gives the answer without a command.
      obtain rfl : made = [] := by
        cases hfrom with
        | whole _ _ _ => rfl
        | pinned _ _ _ _ => rfl
        | bare hbare _ _ _ => simp [hbare] at hlead
      exact ⟨_, rfl, rfl, rfl, rfl, rfl, rfl, .found hname hnow hvalue hfrom, hm⟩
    | spoiled hnow hvalue hvoid =>
      rw [dependency_nodeName] at hvalue
      exact absurd (hm.of_get? hvalue) hvoid
    | lost hnow hnone hprobe =>
      rw [dependency_nodeName] at hnone
      have hcache := congrArg Memory.cache hprobe.memory
      exact ⟨_, rfl, rfl, rfl, rfl, rfl, rfl, .lost hname hnow hnone hprobe, hm.of_cache hcache⟩
    | @probed _ _ expiry a m₁ _ hnow hnone hprobe hnow' hexpiry =>
      rw [dependency_nodeName] at hnone
      have hcache := congrArg Memory.cache hprobe.memory
      have hrecord : Whole (m₁.record (dependency s entry p) a expiry) := by
        cases hprobe with
        | joined hid hhost ha => exact (hm.of_cache hcache).record ha _ expiry
      exact ⟨_, rfl, rfl, rfl, rfl, rfl, rfl, .probed hname hnow hnone hprobe hnow' hexpiry, hrecord⟩

/-- The entries from position `i` on are come to one after another, up to the first one that has no
address. -/
inductive Course (w : World) (s : Settings) (p : Peer) : Nat → Memory → List Visit → Memory →
    Prop where
  | nil (i : Nat) (m : Memory) : Course w s p i m [] m
  | failed {v : Visit} {e : ResolveError} (hv : v.Made w s p) (hfailed : v.outcome = .error e) :
      Course w s p v.position v.before [v] v.after
  | cons {v : Visit} {a : MultiAddress} {visits : List Visit} {m : Memory} (hv : v.Made w s p)
      (hok : v.outcome = .ok a) (hrest : Course w s p (v.position + 1) v.after visits m) :
      Course w s p v.position v.before (v :: visits) m

namespace Course

variable {i : Nat} {visits : List Visit}

/-- What is recorded anew is recorded of a node that was resolved to the end. -/
theorem records (h : Course w s p i m visits m') (key : String) :
    m'.cache.records.get? key = m.cache.records.get? key ∨
      ∃ v ∈ visits, v.entry = key ∧ v.Completed := by
  have hvisit : ∀ {v : Visit}, v.Made w s p →
      v.after.cache.records.get? key = v.before.cache.records.get? key ∨
        v.entry = key ∧ v.Completed := by
    intro v hv
    rcases hv.recorded with ⟨hcache, -⟩ | ⟨hcompleted, text, space, expiry, hput, -⟩
    · exact .inl (by rw [hcache])
    · by_cases hkey : key = v.entry
      · exact .inr ⟨hkey.symm, hcompleted⟩
      · rw [hput, Table.get?_put, if_neg hkey]
        exact .inl rfl
  induction h with
  | nil i m => exact .inl rfl
  | @failed v e hv _ =>
    refine (hvisit hv).imp_right fun hnew => ⟨v, List.mem_singleton_self v, hnew⟩
  | @cons v a visits m hv _ _ ih =>
    rcases ih with hsame | ⟨v', hmem, hnew⟩
    · rw [hsame]
      exact (hvisit hv).imp_right fun hnew => ⟨v, List.mem_cons_self, hnew⟩
    · exact .inr ⟨v', List.mem_cons_of_mem _ hmem, hnew⟩

/-- What is registered anew is registered of a node that was resolved to the end. -/
theorem registered (h : Course w s p i m visits m') {r : Registration}
    (hr : r ∈ m'.registry.entries) :
    r ∈ m.registry.entries ∨ ∃ v ∈ visits, v.entry = r.node ∧ v.Completed := by
  have hvisit : ∀ {v : Visit}, v.Made w s p → r ∈ v.after.registry.entries →
      r ∈ v.before.registry.entries ∨ v.entry = r.node ∧ v.Completed := by
    intro v hv hr
    rcases hv.recorded with ⟨-, hregistry⟩ | ⟨hcompleted, text, space, expiry, -, hregister⟩
    · exact .inl (by rwa [← hregistry])
    · rw [hregister, Registry.register] at hr
      split at hr
      · exact .inl hr
      · rcases List.mem_append.1 hr with hr | hr
        · exact .inl hr
        · exact .inr ⟨by rw [List.mem_singleton.1 hr], hcompleted⟩
  induction h with
  | nil i m => exact .inl hr
  | @failed v e hv _ =>
    exact (hvisit hv hr).imp_right fun hnew => ⟨v, List.mem_singleton_self v, hnew⟩
  | @cons v a visits m hv _ _ ih =>
    rcases ih hr with hr | ⟨v', hmem, hnew⟩
    · exact (hvisit hv hr).imp_right fun hnew => ⟨v, List.mem_cons_self, hnew⟩
    · exact .inr ⟨v', List.mem_cons_of_mem _ hmem, hnew⟩

end Course

/-- An attempt for the addresses of the entries comes to the first ones of them, and to all of them if
none fails. -/
theorem course_of_assembled {i : Nat} {entries : List String}
    {result : Except ResolveError (List MultiAddress)} {made : List Exchange} (hm : Whole m)
    (h : Assembled w s p i entries m result m' made) :
    ∃ visits, Course w s p i m visits m' ∧ visits.map Visit.entry <+: entries ∧
      made = visits.flatMap Visit.made ∧
      WorkOff (visits.flatMap (Visit.chores s p)) made (fate result) ∧
      ∀ addresses, result = .ok addresses →
        visits.map Visit.entry = entries ∧ visits.map Visit.outcome = addresses.map .ok := by
  induction h with
  | nil i m =>
    refine ⟨[], .nil i m, List.prefix_rfl, rfl, .done, fun addresses haddresses => ?_⟩
    obtain rfl := Except.ok.inj haddresses
    exact ⟨rfl, rfl⟩
  | failed hsegment =>
    obtain ⟨v, rfl, rfl, rfl, rfl, hfailed, rfl, hv, -⟩ := visit_of_segmented hm hsegment
    have hwork := hv.workOff
    rw [hfailed] at hwork
    refine ⟨[v], .failed hv hfailed, ⟨_, rfl⟩, ?_, ?_, fun _ heq => absurd heq (by simp)⟩
    · rw [List.flatMap_cons, List.flatMap_nil, List.append_nil]
    · rwa [List.flatMap_cons, List.flatMap_nil, List.append_nil]
  | failsLater hsegment _ ih =>
    obtain ⟨v, rfl, rfl, rfl, rfl, hok, rfl, hv, hafter⟩ := visit_of_segmented hm hsegment
    obtain ⟨visits, hcourse, hprefix, rfl, hwork, -⟩ := ih hafter
    have hfirst := hv.workOff
    rw [hok] at hfirst
    exact ⟨v :: visits, .cons hv hok hcourse, List.cons_prefix_cons.2 ⟨rfl, hprefix⟩, rfl,
      hfirst.append hwork, fun _ heq => absurd heq (by simp)⟩
  | cons hsegment _ ih =>
    obtain ⟨v, rfl, rfl, rfl, rfl, hok, rfl, hv, hafter⟩ := visit_of_segmented hm hsegment
    obtain ⟨visits, hcourse, hprefix, rfl, hwork, hall⟩ := ih hafter
    have hfirst := hv.workOff
    rw [hok] at hfirst
    refine ⟨v :: visits, .cons hv hok hcourse, List.cons_prefix_cons.2 ⟨rfl, hprefix⟩, rfl,
      hfirst.append hwork, fun addresses haddresses => ?_⟩
    obtain rfl := Except.ok.inj haddresses
    obtain ⟨hentries, houtcomes⟩ := hall _ rfl
    exact ⟨by rw [List.map_cons, hentries], by rw [List.map_cons, List.map_cons, hok, houtcomes]⟩

/-! ## The whole resolution -/

/-- The entries that a resolution comes to if nothing fails: none of them if the only one is left as an
environment value. -/
def listed (p : Peer) : List String :=
  if p.connectsAsEnvVar then [] else p.connectsTo

/-- The last step, after all entries: the environment value or the connections are written, if there are
any. -/
def closing (p : Peer) (visits : List Visit) : List Chore :=
  match p.connectsTo with
  | [] => []
  | entry :: _ =>
    if p.connectsAsEnvVar then [.call (.setup p (.envVarFile entry p.nodeType))]
    else
      let addresses := visits.filterMap fun v => v.outcome.toOption
      [.call (.setup p (.writeConnections (Connections.ofAddresses addresses).text))]

/-- The steps that bring the dependencies into a peer, when it comes to these entries. -/
def bringing (s : Settings) (p : Peer) (visits : List Visit) : List Chore :=
  visits.flatMap (Visit.chores s p) ++
    if visits.map Visit.entry = listed p then closing p visits else []

/-- A command writes a file. -/
def Writes (request : Request) : Prop :=
  ∃ content path, request.command = .writeFile content path

theorem not_writes_of_asking {pinned : Bool} {request : Request}
    (h : .call request ∈ asking d m pinned) : ¬ Writes request := by
  rintro ⟨content, path, hcommand⟩
  unfold asking at h
  simp only [List.mem_append, List.mem_singleton, reduceCtorEq, or_false] at h
  rcases h with h | h
  · split at h
    · exact absurd h List.not_mem_nil
    · rw [Chore.call.inj (List.mem_singleton.1 h)] at hcommand
      exact absurd hcommand (by simp [Request.main])
  · split at h
    · exact absurd h List.not_mem_nil
    · rw [Chore.call.inj (List.mem_singleton.1 h)] at hcommand
      exact absurd hcommand (by simp [Request.main])

theorem not_writes_of_ownChores {request : Request} (h : .call request ∈ ownChores p m) :
    ¬ Writes request := by
  unfold ownChores at h
  split at h
  · exact absurd h List.not_mem_nil
  · exact not_writes_of_asking h

theorem not_writes_of_visits {visits : List Visit} {request : Request}
    (h : .call request ∈ visits.flatMap (Visit.chores s p)) : ¬ Writes request := by
  obtain ⟨v, -, hv⟩ := List.mem_flatMap.1 h
  unfold Visit.chores at hv
  split at hv
  · exact absurd (List.mem_singleton.1 hv) (by simp)
  · split at hv
    · exact absurd hv List.not_mem_nil
    · exact not_writes_of_asking hv

/-- What has come of bringing the dependencies into a peer. -/
structure Brought (w : World) (s : Settings) (p : Peer) (m : Memory) (visits : List Visit)
    (made : List Exchange) (result : Except ResolveError Unit) (m' : Memory) : Prop where
  course : Course w s p 0 m visits m'
  calls : ∃ last, made = visits.flatMap Visit.made ++ last
  entries : visits.map Visit.entry <+: listed p
  steps : WorkOff (bringing s p visits) made result
  unfinished : visits.map Visit.entry ≠ listed p → ∃ e, result = .error e
  written : ∀ x ∈ made, Writes x.1 →
    visits.map Visit.entry = p.connectsTo ∧ ∀ v ∈ visits, ∃ a, v.outcome = .ok a

/-- All entries have come to these addresses. -/
theorem addresses_of_outcomes {visits : List Visit} {addresses : List MultiAddress}
    (h : visits.map Visit.outcome = addresses.map .ok) :
    (visits.filterMap fun v => v.outcome.toOption) = addresses ∧
      ∀ v ∈ visits, ∃ a, v.outcome = .ok a := by
  constructor
  · have hsome := congrArg (List.filterMap Except.toOption) h
    simpa [List.filterMap_map, Function.comp_def, Except.toOption] using hsome
  · intro v hv
    have hmem : v.outcome ∈ addresses.map .ok := h ▸ List.mem_map_of_mem hv
    obtain ⟨a, -, ha⟩ := List.mem_map.1 hmem
    exact ⟨a, ha.symm⟩

theorem brought_of_connected {result : Except ResolveError (Option Connections)}
    {made : List Exchange} (hm : Whole m) (h : Connected w s p m result m' made) :
    ∃ visits, Brought w s p m visits made (fate result) m' := by
  cases h with
  | nothing hlist =>
    have hlisted : listed p = [] := by simp [listed, hlist]
    have hsteps : bringing s p [] = [] := by simp [bringing, closing, hlisted, hlist]
    exact ⟨[], .nil 0 m, ⟨[], rfl⟩, List.nil_prefix, hsteps ▸ .done,
      fun hne => absurd hlisted.symm hne, by simp⟩
  | @injected entry entries answer hlist henv =>
    have hlisted : listed p = [] := by simp [listed, henv]
    have hsteps : bringing s p [] = [.call (.setup p (.envVarFile entry p.nodeType))] := by
      simp [bringing, closing, hlisted, hlist, henv]
    refine ⟨[], .nil 0 m, ⟨_, rfl⟩, List.nil_prefix, ?_, fun hne => absurd hlisted.symm hne, ?_⟩
    · rw [hsteps, fate_map]
      exact workOff_single
    · intro x hx hwrites
      obtain ⟨content, path, hcommand⟩ := hwrites
      rw [List.mem_singleton.1 hx] at hcommand
      exact absurd hcommand (by simp [Request.setup])
  | unassembled hlist henv h =>
    obtain ⟨visits, hcourse, hprefix, hmade, hwork, -⟩ := course_of_assembled hm h
    have hlisted : listed p = p.connectsTo := by simp [listed, henv]
    refine ⟨visits, hcourse, ⟨[], by rw [hmade, List.append_nil]⟩, hlisted ▸ hprefix, hwork.cut _,
      fun _ => ⟨_, rfl⟩, ?_⟩
    intro x hx hwrites
    exact absurd hwrites (not_writes_of_visits (hwork.call_mem hx))
  | @written addresses _ made answer hlist henv h =>
    obtain ⟨visits, hcourse, hprefix, hmade, hwork, hall⟩ := course_of_assembled hm h
    obtain ⟨hentries, houtcomes⟩ := hall addresses rfl
    obtain ⟨haddresses, hok⟩ := addresses_of_outcomes houtcomes
    have hlisted : listed p = p.connectsTo := by simp [listed, henv]
    have hclosing : closing p visits =
        [.call (.setup p (.writeConnections (Connections.ofAddresses addresses).text))] := by
      obtain ⟨entry, entries, hcons⟩ := List.exists_cons_of_ne_nil hlist
      simp [closing, hcons, henv, haddresses]
    refine ⟨visits, hcourse, ⟨_, by rw [hmade]⟩, hlisted ▸ hprefix, ?_,
      fun hne => absurd (hentries.trans hlisted.symm) hne, fun _ _ _ => ⟨hentries, hok⟩⟩
    rw [bringing, if_pos (hentries.trans hlisted.symm), hclosing, fate_map]
    exact hwork.append workOff_single

/-- A resolution stops at the first step that fails. -/
structure StopsAtFailure (w : World) (s : Settings) (p : Peer) (m : Memory) (visits : List Visit)
    (made : List Exchange) (result : Except ResolveError Resolution) (m' : Memory) : Prop where
  /-- The own address comes first, and then the entries. -/
  course : ∃ own m₁ first m₂ last, Owned p m own m₁ first ∧ Course w s p 0 m₁ visits m₂ ∧
    made = first ++ (visits.flatMap Visit.made ++ last)
  /-- The entries are come to in the order of the list. -/
  entries : visits.map Visit.entry <+: listed p
  /-- It takes the steps up to the first one that fails. -/
  steps : WorkOff (ownChores p m ++ bringing s p visits) made (fate result)
  /-- It fails if it does not come to all entries. -/
  unfinished : visits.map Visit.entry ≠ listed p → ∃ e, result = .error e
  /-- The connections are written only when all entries have addresses. -/
  written : ∀ x ∈ made, Writes x.1 →
    visits.map Visit.entry = p.connectsTo ∧ ∀ v ∈ visits, ∃ a, v.outcome = .ok a
  /-- When it fails, it has recorded only nodes that were resolved to the end. -/
  recorded : ∀ e, result = .error e → ∀ key,
    m'.cache.records.get? key = m.cache.records.get? key ∨
      ∃ v ∈ visits, v.entry = key ∧ v.Completed
  /-- It has registered no others. -/
  registered : ∀ e, result = .error e → ∀ r ∈ m'.registry.entries,
    r ∈ m.registry.entries ∨ ∃ v ∈ visits, v.entry = r.node ∧ v.Completed

/-- Finding the own address of a peer changes no records. -/
theorem Owned.records {own : Except ResolveError MultiAddress} {made : List Exchange}
    (h : Owned p m own m' made) : m'.cache = m.cache ∧ m'.registry = m.registry := by
  rw [h.memory]
  exact ⟨rfl, rfl⟩

theorem Owned.not_writes {own : Except ResolveError MultiAddress} {made : List Exchange}
    (h : Owned p m own m' made) {x : Exchange} (hx : x ∈ made) : ¬ Writes x.1 :=
  not_writes_of_ownChores (h.workOff.call_mem hx)

/-- When the peer has its own address, the resolution fails where its dependencies do. -/
theorem stopsAtFailure_of_brought {a : MultiAddress} {m₁ m₂ : Memory} {first made : List Exchange}
    {visits : List Visit} {result : Except ResolveError Resolution}
    (howned : Owned p m (.ok a) m₁ first) (hbrought : Brought w s p m₁ visits made (fate result) m₂)
    (hend : ∀ e, result = .error e → m' = m₂) :
    StopsAtFailure w s p m visits (first ++ made) result m' := by
  obtain ⟨hcache, hregistry⟩ := howned.records
  obtain ⟨last, hcalls⟩ := hbrought.calls
  refine ⟨⟨_, _, _, _, last, howned, hbrought.course, by rw [hcalls]⟩, hbrought.entries,
    howned.workOff.append hbrought.steps, fun hne => ?_, fun x hx hwrites => ?_,
    fun e he key => ?_, fun e he r hr => ?_⟩
  · obtain ⟨e, he⟩ := hbrought.unfinished hne
    cases result with
    | ok res => exact absurd he (by simp [fate, Except.map])
    | error e' => exact ⟨e', rfl⟩
  · rcases List.mem_append.1 hx with hx | hx
    · exact absurd hwrites (howned.not_writes hx)
    · exact hbrought.written x hx hwrites
  · rw [hend e he, ← hcache]
    exact hbrought.course.records key
  · rw [hend e he] at hr
    rw [← hregistry]
    exact hbrought.course.registered hr

theorem stopsAtFailure_of_resolvedAnew {result : Except ResolveError Resolution}
    {made : List Exchange} (hm : Whole m) (h : ResolvedAnew w s p m result m' made) :
    ∃ visits, StopsAtFailure w s p m visits made result m' := by
  cases h with
  | unowned howned =>
    obtain ⟨hcache, hregistry⟩ := howned.records
    refine ⟨[], ⟨_, _, _, _, [], howned, .nil 0 _, by simp⟩, List.nil_prefix, howned.workOff.cut _,
      fun _ => ⟨_, rfl⟩, fun x hx hwrites => ?_, fun _ _ key => ?_, fun _ _ r hr => ?_⟩
    · exact absurd hwrites (howned.not_writes hx)
    · exact .inl (by rw [hcache])
    · exact .inl (by rwa [hregistry] at hr)
  | unconnected howned hconnected =>
    have hm₁ := hm.of_cache howned.records.1
    obtain ⟨visits, hbrought⟩ := brought_of_connected hm₁ hconnected
    exact ⟨visits, stopsAtFailure_of_brought howned hbrought fun _ _ => rfl⟩
  | resolved howned hconnected =>
    have hm₁ := hm.of_cache howned.records.1
    obtain ⟨visits, hbrought⟩ := brought_of_connected hm₁ hconnected
    exact ⟨visits, stopsAtFailure_of_brought howned hbrought fun _ heq => absurd heq (by simp)⟩

/-- A peer that is not among its own dependencies is neither recorded nor registered by a resolution
that fails. -/
theorem StopsAtFailure.own {visits : List Visit} {made : List Exchange} {e : ResolveError}
    (h : StopsAtFailure w s p m visits made (.error e) m') (hself : p.nodeName ∉ p.connectsTo) :
    m'.cache.records.get? p.nodeName = m.cache.records.get? p.nodeName ∧
      ∀ r ∈ m'.registry.entries, r.node = p.nodeName → r ∈ m.registry.entries := by
  have hnot : ¬ ∃ v ∈ visits, v.entry = p.nodeName ∧ v.Completed := by
    rintro ⟨v, hv, hentry, -⟩
    have hlisted : v.entry ∈ listed p := h.entries.subset (List.mem_map_of_mem hv)
    unfold listed at hlisted
    split at hlisted
    · exact absurd hlisted List.not_mem_nil
    · exact hself (hentry ▸ hlisted)
  refine ⟨(h.recorded e rfl p.nodeName).resolve_right hnot, fun r hr hnode => ?_⟩
  exact (h.registered e rfl r hr).resolve_right (hnode ▸ hnot)

/-- When a peer that makes itself known and is not recorded is resolved and nothing else runs, its own
address comes first, then the addresses of the listed nodes that are not recorded, and last what is
written into it, if it has dependencies. Nothing comes after the first step that fails: what has been
recorded then is recorded of listed nodes that were resolved to the end, and the connections have been
written only if all entries have addresses. -/
theorem resolve_stops_at_first_failure {log : List (Nat × TaskEvent)}
    {pool : Pool (Except ResolveError Resolution)} {result : Except ResolveError Resolution}
    (hda : p.nodeType = .da) (hworks : m.Working) (hm : Whole m)
    (hnone : ∀ now, w.timely now → m.cache.get? now p.nodeName = none)
    (hrun : Run (Pool.Turn w) (Pool.alone m (resolve s p).run) log pool)
    (hended : pool.tasks[0]? = some (.ended (.value result))) :
    ∃ visits, StopsAtFailure w s p m visits (exchanges log) result pool.memory ∧
      requests log = (exchanges log).map Prod.fst ∧
      requests log <+: (ownChores p m ++ bringing s p visits).filterMap Chore.request? ∧
      ∀ e, result = .error e → p.nodeName ∉ p.connectsTo →
        pool.memory.cache.records.get? p.nodeName = m.cache.records.get? p.nodeName ∧
          ∀ r ∈ pool.memory.registry.entries, r.node = p.nodeName → r ∈ m.registry.entries := by
  have hadvertises : p.nodeType.advertises = true := by rw [hda]; rfl
  obtain ⟨hanew, hrequests⟩ :=
    Attempt.comes_alone (comes_resolve hworks hadvertises hnone) hrun hended
  obtain ⟨visits, hstops⟩ := stopsAtFailure_of_resolvedAnew hm hanew
  refine ⟨visits, hstops, hrequests, ?_, ?_⟩
  · rw [hrequests]
    exact hstops.steps.requests_prefix
  · rintro e rfl hself
    exact hstops.own hself

/-- The answers of nodes of which one does not tell its IP address. -/
def lostAnswer (request : Request) : Except ExecError String :=
  if request = .main (.withDefaults { nodeName := "da-lost" } "") .nodeIp then
    .error (.transport "gone")
  else sampleAnswer request

/-- A peer with a node that is recorded, one that is not, one that cannot be reached and one more. -/
def cutPeer : Peer where
  nodeName := "da-own"
  connectsTo := ["da-named", "da-new", "da-lost", "da-next"]

/-- The memory in which one node is recorded. -/
def namedMemory : Memory where
  cache := .ofRecords 0 [("da-named", sampleAddress)]

theorem whole_namedMemory : Whole namedMemory := by
  intro key r hr
  have hmem := Table.mem_entries_of_get? hr
  have hvalue : r.value = sampleAddress :=
    congrArg (fun e => e.2.value) (List.mem_singleton.1 hmem)
  obtain ⟨a, ha, htext⟩ := exists_parse_sampleAddress
  rw [hvalue]
  exact ⟨htext ▸ a.hasLead_text, a, ha⟩

/-- The resolution of such a peer fails at the node that cannot be reached: the node before it has been
recorded, the one after it has not been asked, and nothing has been written. -/
theorem resolve_stops_at_first_failure_cut : ∃ log pool e visits,
    Run (Pool.Turn (.still 0 lostAnswer))
      (Pool.alone namedMemory (resolve { config := ⟨[]⟩ } cutPeer).run) log pool ∧
    pool.tasks[0]? = some (.ended (.value (.error e))) ∧
    StopsAtFailure (.still 0 lostAnswer) { config := ⟨[]⟩ } cutPeer namedMemory visits
      (exchanges log) (.error e) pool.memory ∧
    (requests log).map (fun request => (request.node, request.command)) =
      [("da-own", .peerInfo), ("da-own", .nodeIp), ("da-new", .peerInfo), ("da-new", .nodeIp),
        ("da-lost", .peerInfo), ("da-lost", .nodeIp)] ∧
    pool.memory.cache.get? 0 "da-new" = some sampleAddress ∧
    pool.memory.cache.get? 0 "da-own" = none := by
  have hfinish : ∃ x ∈ Pool.finish? 0 lostAnswer 0 (resolve { config := ⟨[]⟩ } cutPeer).run
        (Pool.alone namedMemory (resolve { config := ⟨[]⟩ } cutPeer).run),
      x.2.ending? 0 = some (.value (.error (.execution "da-lost" (.transport "gone")))) ∧
      (requests x.1).map (fun request => (request.node, request.command)) =
        [("da-own", .peerInfo), ("da-own", .nodeIp), ("da-new", .peerInfo), ("da-new", .nodeIp),
          ("da-lost", .peerInfo), ("da-lost", .nodeIp)] ∧
      x.2.memory.cache.get? 0 "da-new" = some sampleAddress ∧
      x.2.memory.cache.get? 0 "da-own" = none := by
    decide +kernel
  obtain ⟨⟨log, pool⟩, hx, hended, hrequests, hnew, hown⟩ := hfinish
  have hrun : Run (Pool.Turn (.still 0 lostAnswer)) _ log pool :=
    Pool.finish?_run rfl (fun _ => rfl) hx rfl
  have hnone : ∀ now, (World.still 0 lostAnswer).timely now →
      namedMemory.cache.get? now cutPeer.nodeName = none := by
    rintro _ rfl
    decide +kernel
  have hended' := Pool.ending?_eq_some.1 hended
  obtain ⟨visits, hstops, -⟩ :=
    resolve_stops_at_first_failure rfl ⟨rfl, rfl⟩ whole_namedMemory hnone hrun hended'
  exact ⟨log, pool, _, visits, hrun, hended', hstops, hrequests, hnew, hown⟩

/-- A peer without dependencies is resolved, and nothing is written into it. -/
theorem resolve_without_dependencies : ∃ log pool res,
    Run (Pool.Turn (.still 0 sampleAnswer))
      (Pool.alone {} (resolve { config := ⟨[]⟩ } { nodeName := "da-one" }).run) log pool ∧
    pool.tasks[0]? = some (.ended (.value (.ok res))) ∧
    (requests log).map (fun request => (request.node, request.command)) =
      [("da-one", .peerInfo), ("da-one", .nodeIp)] := by
  have hfinish : ∃ x ∈ Pool.finish? 0 sampleAnswer 0
        (resolve { config := ⟨[]⟩ } { nodeName := "da-one" }).run
        (Pool.alone {} (resolve { config := ⟨[]⟩ } { nodeName := "da-one" }).run),
      x.2.ending? 0 = some (.value (.ok ⟨"da-one", some sampleAddress, none, false⟩)) ∧
      (requests x.1).map (fun request => (request.node, request.command)) =
        [("da-one", .peerInfo), ("da-one", .nodeIp)] := by
    decide +kernel
  obtain ⟨⟨log, pool⟩, hx, hended, hrequests⟩ := hfinish
  have hrun : Run (Pool.Turn (.still 0 sampleAnswer)) _ log pool :=
    Pool.finish?_run rfl (fun _ => rfl) hx rfl
  exact ⟨log, pool, _, hrun, Pool.ending?_eq_some.1 hended, hrequests⟩

end Resolve

end Rendezvous
