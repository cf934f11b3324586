import Rendezvous.Proofs.Pool.Service

/-!
# What is noted stays noted

An identifier that was noted for a node is dropped when the node is forgotten and at no other time:
not when the address of the node is recorded, and not when the record ends. Until then the node is not
asked for its identifier again. A noted own address is also dropped by the call that has recorded it
as the address of its own peer, but not by one that has recorded the node as a dependency.
-/

namespace Rendezvous

/-! ## What was noted last -/

namespace ServiceEvent

/-- The identifier that is noted for a node after an event, by the one noted before. -/
def nextId (node : String) (known : Option String) : ServiceEvent → Option String
  | .task _ (.consulted (.noteId other id) _) => if node = other then some id else known
  | .forgot other => if node = other then none else known
  | _ => known

/-- The own address that is noted for a node after an event, by the one noted before. -/
def nextAddress (node : String) (known : Option MultiAddress) : ServiceEvent → Option MultiAddress
  | .task _ (.consulted (.noteAddress other a) _) => if node = other then some a else known
  | .task _ (.consulted (.dropAddress other) _) => if node = other then none else known
  | .forgot other => if node = other then none else known
  | _ => known

end ServiceEvent

/-- The identifier that was noted last for a node, unless the node was forgotten afterwards. -/
def lastId (log : List ServiceEvent) (node : String) : Option String :=
  log.foldl (ServiceEvent.nextId node) none

/-- The own address that was noted last for a node, unless it was dropped or the node was forgotten
afterwards. -/
def lastAddress (log : List ServiceEvent) (node : String) : Option MultiAddress :=
  log.foldl (ServiceEvent.nextAddress node) none

theorem lastId_append (log shown : List ServiceEvent) (node : String) :
    lastId (log ++ shown) node = shown.foldl (ServiceEvent.nextId node) (lastId log node) :=
  List.foldl_append

theorem lastAddress_append (log shown : List ServiceEvent) (node : String) :
    lastAddress (log ++ shown) node =
      shown.foldl (ServiceEvent.nextAddress node) (lastAddress log node) :=
  List.foldl_append

/-! ## Questions to the memory -/

namespace Memory

variable {m m' : Memory} {now : Instant} {q : Query} {answer : q.Answer}

/-- A question changes what is noted as its event says. -/
theorem consult_memos (h : m.consult now q = some (answer, m')) (i : Nat) (node : String) :
    m'.memos.ids.get? node =
        ServiceEvent.nextId node (m.memos.ids.get? node) (.task i (.consulted q answer)) ∧
      m'.memos.addresses.get? node =
        ServiceEvent.nextAddress node (m.memos.addresses.get? node)
          (.task i (.consulted q answer)) := by
  cases q with
  | noteId other id =>
    obtain ⟨-, rfl⟩ := Prod.mk.inj (Option.some.inj h)
    exact ⟨Table.get?_put .., rfl⟩
  | noteAddress other a =>
    obtain ⟨-, rfl⟩ := Prod.mk.inj (Option.some.inj h)
    exact ⟨rfl, Table.get?_put ..⟩
  | dropAddress other =>
    obtain ⟨-, rfl⟩ := Prod.mk.inj (Option.some.inj h)
    exact ⟨rfl, Table.get?_erase ..⟩
  | cacheSet key value lifetime =>
    rw [consult_set_memos h]
    exact ⟨rfl, rfl⟩
  | _ =>
    obtain ⟨-, rfl⟩ := Prod.mk.inj (Option.some.inj h)
    exact ⟨rfl, rfl⟩

end Memory

namespace Pool

variable {s : Settings} {w : World} {g : Nat → Stance} {p p' : Pool Upshot}
  {log shown : List ServiceEvent} {memory : Memory}

/-! ## Steps -/

/-- Events of tasks that are not answers of the memory change nothing that is noted. -/
theorem foldl_of_not_consulted {β : Type} {next : β → ServiceEvent → β}
    (hnext : ∀ known i e, (∀ q answer, e ≠ .consulted q answer) → next known (.task i e) = known)
    {events : List (Nat × TaskEvent)} (h : ∀ i q answer, (i, .consulted q answer) ∉ events)
    (known : β) : (events.map fun e => ServiceEvent.task e.1 e.2).foldl next known = known := by
  induction events with
  | nil => rfl
  | cons e events ih =>
    have he : ∀ q answer, e.2 ≠ .consulted q answer := by
      intro q answer heq
      exact h e.1 q answer (heq ▸ List.mem_cons_self)
    rw [List.map_cons, List.foldl_cons, hnext known e.1 e.2 he]
    exact ih fun i q answer hmem => h i q answer (List.mem_cons_of_mem _ hmem)

/-- A step of a service changes what is noted as its events say. -/
theorem Service.memos (h : Service s w p shown p') (node : String) :
    p'.memory.memos.ids.get? node =
        shown.foldl (ServiceEvent.nextId node) (p.memory.memos.ids.get? node) ∧
      p'.memory.memos.addresses.get? node =
        shown.foldl (ServiceEvent.nextAddress node) (p.memory.memos.addresses.get? node) := by
  cases h with
  | turn h =>
    rcases h.memory_cases with ⟨hsame, hnot⟩ | ⟨i, q, answer, now, rfl, hm⟩
    · rw [hsame]
      constructor
      · refine (foldl_of_not_consulted (fun known i e he => ?_) hnot _).symm
        cases e with
        | consulted q answer => exact absurd rfl (he q answer)
        | _ => rfl
      · refine (foldl_of_not_consulted (fun known i e he => ?_) hnot _).symm
        cases e with
        | consulted q answer => exact absurd rfl (he q answer)
        | _ => rfl
    · exact Memory.consult_memos hm i node
  | forget other => exact ⟨Table.get?_erase .., Table.get?_erase ..⟩
  | _ => exact ⟨rfl, rfl⟩

/-! ## Runs -/

/-- An event fits what was noted before it: what is recalled was noted last, and a node is asked for
its identifier only if none is noted. -/
def Fits (before : List ServiceEvent) : ServiceEvent → Prop
  | .task _ (.consulted (.recallId node) known) => known = lastId before node
  | .task _ (.consulted (.recallAddress node) known) => known = lastAddress before node
  | .task _ (.called request) => request.command = .peerInfo → lastId before request.node = none
  | _ => True

/-- The memos of a pool are those of what has happened to it. -/
structure Remembers (log : List ServiceEvent) (p : Pool Upshot) : Prop where
  ids : ∀ node, p.memory.memos.ids.get? node = lastId log node
  addresses : ∀ node, p.memory.memos.addresses.get? node = lastAddress log node

theorem Remembers.step (h : Remembers log p) (step : Service s w p shown p') :
    Remembers (log ++ shown) p' := by
  refine ⟨fun node => ?_, fun node => ?_⟩
  · rw [lastId_append, ← h.ids node]
    exact (step.memos node).1
  · rw [lastAddress_append, ← h.addresses node]
    exact (step.memos node).2

/-- What a step shows fits the memos. -/
theorem Remembers.fits (h : Remembers log p) (ho : Orderly p g) (step : Service s w p shown p')
    {e : ServiceEvent} (he : e ∈ shown) : Fits log e := by
  cases step with
  | turn turn =>
    obtain ⟨g', hshift⟩ := turn.shift ho
    obtain ⟨⟨i, e'⟩, he', rfl⟩ := List.mem_map.1 he
    rcases turn.memory_cases with ⟨-, hnot⟩ | ⟨j, q, answer, now, rfl, hm⟩
    · cases e' with
      | consulted q answer => exact absurd he' (hnot i q answer)
      | called request =>
        intro hcommand
        -- The task seeks the identifier, so that none is noted.
        rw [← h.ids]
        exact ho.seeks (hshift.called he' hcommand)
      | _ => trivial
    · obtain ⟨rfl, rfl⟩ := Prod.mk.inj (List.mem_singleton.1 he')
      cases q with
      | recallId node =>
        obtain ⟨rfl, -⟩ := Prod.mk.inj (Option.some.inj hm)
        exact h.ids node
      | recallAddress node =>
        obtain ⟨rfl, -⟩ := Prod.mk.inj (Option.some.inj hm)
        exact h.addresses node
      | _ => trivial
  | forget node =>
    obtain rfl := List.mem_singleton.1 he
    trivial
  | _ => exact absurd he List.not_mem_nil

/-- However calls are mixed, however records come and go: what is noted of a node is what was noted
last, unless the node was forgotten afterwards or, for its own address, the call that noted it has
recorded it. As long as an identifier is noted, it is what every call goes by, and the node is not
asked for another one. -/
theorem memos_kept_until_forgotten (run : Run (Service s w) { memory } log p)
    (hempty : memory.memos = {}) :
    (∀ node, p.memory.memos.ids.get? node = lastId log node) ∧
      (∀ node, p.memory.memos.addresses.get? node = lastAddress log node) ∧
      ∀ before e after, log = before ++ e :: after → Fits before e := by
  have hall : (∃ g, Orderly p g) ∧ Remembers log p ∧
      ∀ before e after, log = before ++ e :: after → Fits before e := by
    refine run.preserves (P := fun log p => (∃ g, Orderly p g) ∧ Remembers log p ∧
      ∀ before e after, log = before ++ e :: after → Fits before e) ?_ ?_
    · refine ⟨⟨fun _ => .free, errands_orderly s memory []⟩, ⟨fun node => ?_, fun node => ?_⟩, by simp⟩
      · rw [hempty]
        rfl
      · rw [hempty]
        rfl
    · rintro log p shown p' ⟨⟨g, ho⟩, hmemos, hfits⟩ step
      refine ⟨step.orderly ho, hmemos.step step, ?_⟩
      rcases step.shown_cases with rfl | ⟨e, rfl⟩
      · rwa [List.append_nil]
      · intro before x after hlog
        exact forall_split_snoc hfits (hmemos.fits ho step List.mem_cons_self) hlog
  exact ⟨hall.2.1.ids, hall.2.1.addresses, hall.2.2⟩

/-- A node is resolved and recorded for a second. Two seconds later the record is gone, but the node is
not asked for its identifier: the address that is recorded then has the one that was noted at first. -/
theorem memos_kept_past_record :
    ∃ before after p₁ p, Run (Service { config := ⟨[]⟩, lifetime := .ofMillis 1000 } .any)
        { memory := {} } before p₁ ∧
      Run (Service { config := ⟨[]⟩, lifetime := .ofMillis 1000 } .any) p₁ after p ∧
      p₁.memory.cache.get? 0 "da-one" = some sampleAddress ∧
      p₁.memory.cache.get? 2000000000 "da-one" = none ∧
      p.memory.cache.get? 2000000000 "da-one" = some sampleAddress ∧
      (∀ i request, .task i (.called request) ∈ after → request.command ≠ .peerInfo) ∧
      p.memory.memos.ids.get? "da-one" = some sampleId := by
  let s : Settings := { config := ⟨[]⟩, lifetime := .ofMillis 1000 }
  let c : Errand := .resolve { nodeName := "da-one" }
  have hfinish : ∃ x ∈ finish? 0 sampleAnswer 0 (c.routine s)
        (Pool.spawn { memory := {} } (c.routine s)),
      ∃ y ∈ finish? 2000000000 laterAnswer x.2.tasks.length (c.routine s)
        (x.2.spawn (c.routine s)),
        x.2.memory.cache.get? 0 "da-one" = some sampleAddress ∧
        x.2.memory.cache.get? 2000000000 "da-one" = none ∧
        y.2.memory.cache.get? 2000000000 "da-one" = some sampleAddress ∧
        (∀ e ∈ y.1, ∀ request ∈ e.2.called?, request.command ≠ .peerInfo) ∧
        lastId ((x.1 ++ y.1).map fun e => .task e.1 e.2) "da-one" = some sampleId := by
    decide +kernel
  obtain ⟨⟨before, p₁⟩, hx, ⟨after, p⟩, hy, hstored, hgone, hagain, hcalls, hlast⟩ := hfinish
  have first : Run (Service s .any) { memory := {} } _ p₁ :=
    Service.run_of_finish? trivial (fun _ => trivial) hx
  have second : Run (Service s .any) p₁ _ p :=
    Service.run_of_finish? trivial (fun _ => trivial) hy
  refine ⟨_, _, p₁, p, first, second, hstored, hgone, hagain, ?_, ?_⟩
  · intro i request hmem
    obtain ⟨⟨j, e⟩, he, heq⟩ := List.mem_map.1 hmem
    obtain ⟨rfl, rfl⟩ := ServiceEvent.task.inj heq
    exact hcalls _ he request rfl
  · rw [(memos_kept_until_forgotten (first.trans second) rfl).1, ← List.map_append]
    exact hlast

end Pool

end Rendezvous
