import Rendezvous.Proofs.Pool.Records
import Rendezvous.Proofs.Pool.Service
import Rendezvous.Proofs.Resolve.IdSources

/-!
# After a node has become ready anew

When what was noted about a node has been dropped, a call that begins after that comes upon an
identifier of the node in three ways: the node tells it when it is asked again, its record is still
there, or a call that was under way has left it behind. The last one is a flaw: what a node was asked
for before it was forgotten is noted when it is told, and the next call takes it for what the node is
now.

Which identifiers have a source is not the same for all: a call that is under way may go on with what
it has, while the others come upon no more than what the memory holds.
-/

namespace Rendezvous

open Routine

/-- Every call can be vouched for. -/
theorem Errand.sourced (K : IdSources) (s : Settings) (c : Errand) :
    (c.routine s).Ensures K.surroundings (fun _ _ => True) () := by
  have hcall : ∀ {α : Type} {x : Attempt α}, Vouches K (fun _ => True) x →
      x.run.Ensures K.surroundings (fun _ _ => True) () :=
    fun h => Ensures.mono h fun _ _ _ => trivial
  cases c with
  | resolve p => exact hcall ((Resolve.vouches_resolve s p).map fun _ h => h)
  | process p => exact hcall ((Resolve.vouches_process s p).map fun _ h => h)
  | assemble p => exact hcall ((Resolve.vouches_assembleFrom s p 0 _ _).map fun _ h => h)

/-! ## Tasks -/

namespace Activity

variable {α : Type} {K : IdSources} {a a' : Activity α} {shown : List TaskEvent}

/-- While only what has a source comes to the task from here on, it passes nothing else on. -/
def Sourced (K : IdSources) : Activity α → Prop
  | .ready r => r.Ensures K.surroundings (fun _ _ => True) ()
  | .calling request next => ∀ answer, K.Admits (.answered request answer) →
      (next answer).Ensures K.surroundings (fun _ _ => True) ()
  | .propagating _ next => ∀ report, (next report).Ensures K.surroundings (fun _ _ => True) ()
  | .ended _ => True

theorem Sourced.move (h : a.Sourced K) (move : Move a shown a')
    (hadmits : ∀ e ∈ shown, K.Admits e) : a'.Sourced K ∧ ∀ e ∈ shown, K.Lets e := by
  have hsingle : ∀ {e : TaskEvent}, K.Lets e → ∀ e' ∈ [e], K.Lets e' := by
    intro e he e' he'
    rwa [List.mem_singleton.1 he']
  cases move with
  | finish a => exact ⟨trivial, by simp⟩
  | @consult q next answer =>
    obtain ⟨hallows, hnext⟩ := ensures_ask.1 h
    exact ⟨hnext answer () hadmits, hallows answer⟩
  | call request next =>
    obtain ⟨-, hnext⟩ := ensures_ask.1 h
    refine ⟨fun answer hanswer => hnext answer () fun e he => ?_, hsingle fun _ _ => False.elim⟩
    rcases List.mem_cons.1 he with rfl | he
    · exact fun _ _ => False.elim
    · rwa [List.mem_singleton.1 he]
  | answer request next answer =>
    exact ⟨h answer (hadmits _ List.mem_cons_self), hsingle fun _ _ => False.elim⟩
  | acquire node next =>
    obtain ⟨hallows, hnext⟩ := ensures_ask.1 h
    exact ⟨hnext () () hadmits, hallows ()⟩
  | release node next =>
    obtain ⟨hallows, hnext⟩ := ensures_ask.1 h
    exact ⟨hnext () () hadmits, hallows ()⟩
  | tell writes next =>
    obtain ⟨hallows, hnext⟩ := ensures_ask.1 h
    refine ⟨fun report => hnext report () fun e he => ?_, hsingle ?_⟩
    · rcases List.mem_cons.1 he with rfl | he
      · exact fun _ _ => False.elim
      · rw [List.mem_singleton.1 he]
        exact fun _ _ => False.elim
    · exact hallows {} _ List.mem_cons_self
  | write run run' next => exact ⟨h, by simp⟩
  | report run next report => exact ⟨h report, hsingle fun _ _ => False.elim⟩
  | drop hon hcut => exact ⟨trivial, by simp⟩

end Activity

/-! ## The memory -/

/-- A task leaves an identifier of a node in the memory. -/
def TaskEvent.Leaves (node id : String) : TaskEvent → Prop
  | .consulted (.noteId other known) _ => other = node ∧ known = id
  | .consulted (.noteAddress other a) _ => other = node ∧ Bears a.text id
  | .consulted (.cacheSet key value _) _ => key = node ∧ Bears value id
  | _ => False

/-- What a task leaves in the memory it passes on. -/
theorem TaskEvent.Leaves.passes {e : TaskEvent} {node id : String} (h : e.Leaves node id) :
    e.Passes node id := by
  unfold Leaves at h
  split at h
  · exact h
  · exact h
  · exact h
  · exact h.elim

namespace Memory

variable {K : IdSources} {m m' : Memory} {now : Instant} {q : Query} {answer : q.Answer}

/-- The memory holds only identifiers that have a source. -/
structure Sourced (K : IdSources) (m : Memory) : Prop where
  ids : ∀ node i, m.memos.ids.get? node = some i → K.id node i
  addresses : ∀ node a, m.memos.addresses.get? node = some a → K.Text node a.text
  records : ∀ r ∈ m.cache.records.entries, K.Text r.1 r.2.value

/-- What comes out of the memory has a source. -/
theorem Sourced.admits (h : m.Sourced K) (hm : m.consult now q = some (answer, m')) :
    K.Admits (.consulted q answer) := by
  cases q with
  | cacheGet key =>
    rintro node i ⟨rfl, value, rfl, hi⟩
    obtain ⟨r, hr, rfl⟩ := TimedCache.get?_eq_some (consult_get hm rfl)
    exact h.records _ (Table.mem_entries_of_get? hr) i hi
  | cacheList =>
    rintro node i ⟨records, value, rfl, hmem, hi⟩
    obtain ⟨hlist, -⟩ := Prod.mk.inj (Option.some.inj hm)
    split at hlist
    · exact absurd hlist (by simp)
    · obtain rfl := Except.ok.inj hlist
      obtain ⟨r, hr, heq⟩ := List.mem_map.1 hmem
      obtain ⟨rfl, rfl⟩ := Prod.mk.inj heq
      exact h.records r (List.mem_filter.1 hr).1 i hi
  | recallId other =>
    rintro node i ⟨rfl, rfl⟩
    obtain ⟨hnoted, -⟩ := Prod.mk.inj (Option.some.inj hm)
    exact h.ids other i hnoted
  | recallAddress other =>
    rintro node i ⟨rfl, a, rfl, hi⟩
    obtain ⟨hnoted, -⟩ := Prod.mk.inj (Option.some.inj hm)
    exact h.addresses other a hnoted i hi
  | _ => exact fun _ _ => False.elim

/-- The memory takes in what is left in it, and nothing else. -/
theorem Sourced.consult (h : m.Sourced K) (hm : m.consult now q = some (answer, m'))
    (hleft : ∀ node i, (TaskEvent.consulted q answer).Leaves node i → K.id node i) :
    m'.Sourced K := by
  cases q with
  | noteId other i =>
    obtain ⟨-, rfl⟩ := Prod.mk.inj (Option.some.inj hm)
    exact ⟨Table.forall_put h.ids (hleft other i ⟨rfl, rfl⟩), h.addresses, h.records⟩
  | noteAddress other a =>
    obtain ⟨-, rfl⟩ := Prod.mk.inj (Option.some.inj hm)
    exact ⟨h.ids, Table.forall_put h.addresses fun i hi => hleft other i ⟨rfl, hi⟩, h.records⟩
  | dropAddress other =>
    obtain ⟨-, rfl⟩ := Prod.mk.inj (Option.some.inj hm)
    exact ⟨h.ids, Table.forall_erase other h.addresses, h.records⟩
  | cacheSet key value lifetime =>
    have hsame := consult_set_memos hm
    refine ⟨hsame ▸ h.ids, hsame ▸ h.addresses, ?_⟩
    rcases consult_cache hm with hcache | ⟨key', value', lifetime', expiry, heq, hput⟩
    · rw [hcache]
      exact h.records
    · rw [hput]
      obtain ⟨rfl, rfl, -⟩ := Query.cacheSet.inj (TaskEvent.consulted.inj heq).1
      intro r hr
      rcases List.mem_append.1 hr with hr | hr
      · exact h.records r (List.mem_filter.1 hr).1
      · rw [List.mem_singleton.1 hr]
        exact fun i hi => hleft key i ⟨rfl, hi⟩
  | _ =>
    obtain ⟨-, rfl⟩ := Prod.mk.inj (Option.some.inj hm)
    exact ⟨h.ids, h.addresses, h.records⟩

end Memory

namespace Pool

variable {K M : IdSources} {own : Nat → IdSources} {s : Settings} {w : World} {p p' q : Pool Upshot}
  {shown log before after : List ServiceEvent} {memory : Memory} {node id : String}

/-! ## Runs -/

/-- A task that has passed on only what has a source goes on to do so, if only that comes to it. -/
theorem Service.sourced_task (h : Service s w p shown p') (j : Nat)
    (hj : ∀ a, p.tasks[j]? = some a → a.Sourced K)
    (hadmits : ∀ e, .task j e ∈ shown → K.Admits e) :
    (∀ a, p'.tasks[j]? = some a → a.Sourced K) ∧ ∀ e, .task j e ∈ shown → K.Lets e := by
  rcases h.step_or_call with ⟨events, step, hshown⟩ | ⟨c, rfl, rfl⟩
  · rcases step.move j with ⟨hsame, hnone⟩ | ⟨a, a', ha, ha', move⟩
    · rw [hsame]
      refine ⟨hj, fun e he => ?_⟩
      have hmem := mem_own.2 ((hshown j e).1 he)
      rw [hnone] at hmem
      exact absurd hmem List.not_mem_nil
    · have hevents : ∀ e ∈ own j events, K.Admits e := fun e he =>
        hadmits e ((hshown j e).2 (mem_own.1 he))
      obtain ⟨hsourced, hlets⟩ := (hj a ha).move move hevents
      refine ⟨fun a'' ha'' => ?_, fun e he => hlets e (mem_own.2 ((hshown j e).1 he))⟩
      rw [ha'] at ha''
      rwa [← Option.some.inj ha'']
  · refine ⟨fun a ha => ?_, by simp⟩
    rw [tasks_spawn] at ha
    split at ha
    · obtain rfl := Option.some.inj ha
      exact c.sourced K s
    · exact hj a ha

/-- A task to which only what has a source has come passes nothing else on. -/
theorem sourced_of_run (run : Run (Service s w) { memory } log p) (j : Nat)
    (hadmits : ∀ e, .task j e ∈ log → K.Admits e) :
    ∀ a, p.tasks[j]? = some a → a.Sourced K := by
  refine run.preserves (P := fun log (p : Pool Upshot) => (∀ e, .task j e ∈ log → K.Admits e) →
    ∀ a, p.tasks[j]? = some a → a.Sourced K) (fun _ a ha => absurd ha (by simp)) ?_ hadmits
  intro log p shown p' ih step hadmits
  have hbefore := ih fun e he => hadmits e (List.mem_append_left _ he)
  exact (step.sourced_task j hbefore fun e he => hadmits e (List.mem_append_right _ he)).1

/-- The memory of a pool holds only what has a source in `M`, and each task passes on only what has a
source for this task. -/
structure Sourced (M : IdSources) (own : Nat → IdSources) (p : Pool Upshot) : Prop where
  memory : p.memory.Sourced M
  tasks : ∀ (j : Nat) (a : Activity Upshot), p.tasks[j]? = some a → a.Sourced (own j)

/-- If every task may come upon what the memory holds and upon what nodes tell it, and leaves in the
memory only what that may hold, then this stays so. -/
theorem Service.sourced (h : Service s w p shown p') (hp : p.Sourced M own)
    (hshared : ∀ j e, M.Admits e → (own j).Admits e)
    (htold : ∀ j request answer, .task j (.answered request answer) ∈ shown →
      (own j).Admits (.answered request answer))
    (hleft : ∀ j e, .task j e ∈ shown → (own j).Lets e → ∀ node i, e.Leaves node i → M.id node i) :
    p'.Sourced M own ∧ ∀ j e, .task j e ∈ shown → (own j).Admits e ∧ (own j).Lets e := by
  have hadmits : ∀ j e, .task j e ∈ shown → (own j).Admits e := by
    intro j e he
    cases h with
    | turn turn =>
      obtain ⟨⟨j', e'⟩, hmem, heq⟩ := List.mem_map.1 he
      obtain ⟨rfl, rfl⟩ := ServiceEvent.task.inj heq
      rcases turn.memory_cases with ⟨-, hnot⟩ | ⟨i, q, answer, now, rfl, hm⟩
      · cases e' with
        | consulted q answer => exact absurd hmem (hnot j' q answer)
        | answered request answer => exact htold j' request answer he
        | _ => exact fun _ _ => False.elim
      · obtain ⟨rfl, rfl⟩ := Prod.mk.inj (List.mem_singleton.1 hmem)
        exact hshared _ _ (hp.memory.admits hm)
    | forget other => exact absurd (List.mem_singleton.1 he) (by simp)
    | _ => exact absurd he List.not_mem_nil
  have htasks := fun j => h.sourced_task j (hp.tasks j) (hadmits j)
  have hmemory : p'.memory.Sourced M := by
    cases h with
    | turn turn =>
      rcases turn.memory_cases with ⟨hsame, -⟩ | ⟨i, q, answer, now, rfl, hm⟩
      · rw [hsame]
        exact hp.memory
      · refine hp.memory.consult hm ?_
        exact hleft i _ List.mem_cons_self ((htasks i).2 _ List.mem_cons_self)
    | forget other =>
      exact ⟨Table.forall_erase other hp.memory.ids, Table.forall_erase other hp.memory.addresses,
        hp.memory.records⟩
    | cancel => exact ⟨hp.memory.ids, hp.memory.addresses, hp.memory.records⟩
    | _ => exact hp.memory
  exact ⟨⟨hmemory, fun j => (htasks j).1⟩, fun j e he => ⟨hadmits j e he, (htasks j).2 e he⟩⟩

theorem sourced_run (run : Run (Service s w) p log q) (hp : p.Sourced M own)
    (hshared : ∀ j e, M.Admits e → (own j).Admits e)
    (htold : ∀ j request answer, .task j (.answered request answer) ∈ log →
      (own j).Admits (.answered request answer))
    (hleft : ∀ j e, .task j e ∈ log → (own j).Lets e → ∀ node i, e.Leaves node i → M.id node i) :
    q.Sourced M own ∧ ∀ j e, .task j e ∈ log → (own j).Admits e ∧ (own j).Lets e := by
  induction run with
  | refl => exact ⟨hp, by simp⟩
  | @tail t u log shown run step ih =>
    obtain ⟨ht, hlog⟩ := ih
      (fun j request answer he => htold j request answer (List.mem_append_left _ he))
      fun j e he => hleft j e (List.mem_append_left _ he)
    obtain ⟨hu, hshown⟩ := step.sourced ht hshared
      (fun j request answer he => htold j request answer (List.mem_append_right _ he))
      fun j e he => hleft j e (List.mem_append_right _ he)
    refine ⟨hu, fun j e he => ?_⟩
    rcases List.mem_append.1 he with he | he
    · exact hlog j e he
    · exact hshown j e he

/-- A task that is waiting for a command after a step was waiting before it, or has just started the
command. -/
theorem Service.calling (h : Service s w p shown p') {i : Nat} {request : Request}
    {next : Except ExecError String → Routine Upshot}
    (ha : p'.tasks[i]? = some (.calling request next)) :
    p.tasks[i]? = some (.calling request next) ∨ .task i (.called request) ∈ shown := by
  rcases h.step_or_call with ⟨events, step, hshown⟩ | ⟨c, rfl, -⟩
  · rcases step.move i with ⟨hsame, -⟩ | ⟨a, a', -, ha', move⟩
    · rw [hsame] at ha
      exact .inl ha
    · rw [ha'] at ha
      obtain rfl := Option.some.inj ha
      generalize hevents : own i events = own at move
      cases move with
      | call request next =>
        have hmem : .called request ∈ own i events := by simp [hevents]
        exact .inr ((hshown i _).2 (mem_own.1 hmem))
  · rw [tasks_spawn] at ha
    split at ha
    · exact absurd (Option.some.inj ha) (by simp)
    · exact .inl ha

/-- A task whose command is answered was waiting for it. -/
theorem Service.answered (h : Service s w p shown p') {i : Nat} {request : Request}
    {answer : Except ExecError String} (hmem : .task i (.answered request answer) ∈ shown) :
    ∃ next, p.tasks[i]? = some (.calling request next) := by
  rcases h.step_or_call with ⟨events, step, hshown⟩ | ⟨c, -, rfl⟩
  · have hown := mem_own.2 ((hshown i _).1 hmem)
    rcases step.move i with ⟨-, hnone⟩ | ⟨a, a', ha, -, move⟩
    · rw [hnone] at hown
      exact absurd hown List.not_mem_nil
    · generalize own i events = own at move hown
      cases move with
      | answer request' next answer' =>
        obtain ⟨rfl, -⟩ := TaskEvent.answered.inj (List.mem_singleton.1 hown)
        exact ⟨next, ha⟩
      | _ => simp at hown
  · exact absurd hmem List.not_mem_nil

/-- A command for which a task is waiting was started in the same run, or before it. -/
theorem called_of_calling (run : Run (Service s w) p log q) {i : Nat} {request : Request}
    {next : Except ExecError String → Routine Upshot}
    (h : q.tasks[i]? = some (.calling request next)) :
    .task i (.called request) ∈ log ∨ p.tasks[i]? = some (.calling request next) := by
  induction run with
  | refl => exact .inr h
  | tail run step ih =>
    rcases step.calling h with h | hcalled
    · exact (ih h).imp_left (List.mem_append_left _)
    · exact .inl (List.mem_append_right _ hcalled)

/-- A command that is answered was started in the same run, or before it. -/
theorem called_before_answered (run : Run (Service s w) p log q) {i : Nat} {request : Request}
    {answer : Except ExecError String} (h : .task i (.answered request answer) ∈ log) :
    [ServiceEvent.task i (.called request), .task i (.answered request answer)].Sublist log ∨
      ∃ next, p.tasks[i]? = some (.calling request next) := by
  induction run with
  | refl => exact absurd h List.not_mem_nil
  | tail run step ih =>
    rcases List.mem_append.1 h with h | h
    · exact (ih h).imp_left fun hlog => hlog.trans (List.sublist_append_left _ _)
    · obtain ⟨next, hnext⟩ := step.answered h
      rcases called_of_calling run hnext with hcalled | hcalling
      · exact .inl ((List.singleton_sublist.2 hcalled).append (List.singleton_sublist.2 h))
      · exact .inr ⟨next, hcalling⟩

/-! ## Origins -/

/-- A node was asked for its identifier, and then told it. -/
def Told (log : List ServiceEvent) (node id : String) : Prop :=
  ∃ i request answer,
    [ServiceEvent.task i (.called request), .task i (.answered request answer)].Sublist log ∧
      (TaskEvent.answered request answer).Brings node id

/-- A call that is under way has the identifier of a node from before, or is just asking for it:
`before` is what has happened until then, `p` the pool that it has come to, and `after` what has
happened since then. -/
def UnderWay (before : List ServiceEvent) (p : Pool Upshot) (after : List ServiceEvent) (i : Nat)
    (node id : String) : Prop :=
  ∃ a, p.tasks[i]? = some a ∧ (∀ ending, a ≠ .ended ending) ∧
    ((∃ e, .task i e ∈ before ∧ e.Brings node id) ∨
      ∃ request next answer, a = .calling request next ∧
        .task i (.answered request answer) ∈ after ∧
          (TaskEvent.answered request answer).Brings node id)

/-- Where an identifier of a node that the memory holds can come from after what was noted about the
node has been dropped. -/
inductive Origin (node id : String) (before : List ServiceEvent) (p : Pool Upshot)
    (after : List ServiceEvent) : Prop where
  /-- The node was asked again. -/
  | told (h : Told after node id)
  /-- There is a record. -/
  | recorded {r : TimedValue} (hr : (node, r) ∈ p.memory.cache.records.entries)
      (h : Bears r.value id)
  /-- A call that was under way has left it behind. -/
  | leftBehind {i : Nat} {e : TaskEvent} (h : UnderWay before p after i node id)
      (he : .task i e ∈ after) (hleft : e.Leaves node id)

/-- Of the node that is forgotten, the identifiers that have an origin have a source; of the others,
whatever has the length of one. -/
def originSources (node : String) (before : List ServiceEvent) (p : Pool Upshot)
    (after : List ServiceEvent) : IdSources where
  id other i := i.length = peerIdLength ∧ (other = node → Origin node i before p after)
  proper h := h.1

/-- A call has the same sources, and what it has itself from before. -/
def ownSources (node : String) (before : List ServiceEvent) (p : Pool Upshot)
    (after : List ServiceEvent) (j : Nat) : IdSources where
  id other i := i.length = peerIdLength ∧
    (other = node → Origin node i before p after ∨ UnderWay before p after j node i)
  proper h := h.1

/-- Nothing is noted at first, so that no more than identifiers come up. -/
theorem proper_of_run (first : Run (Service s w) { memory } before p) (hempty : memory.memos = {}) :
    p.Sourced .any (fun _ => .any) ∧ ∀ i e, .task i e ∈ before → IdSources.any.Admits e := by
  have hstart : Sourced .any (fun _ => .any) { memory } := by
    refine ⟨⟨fun node i hi => ?_, fun node a _ i hi => hi.length, fun r _ i hi => hi.length⟩, ?_⟩
    · rw [hempty] at hi
      exact absurd hi (by simp)
    · intro j a ha
      exact absurd ha (by simp)
  obtain ⟨hp, hbefore⟩ := sourced_run first hstart (fun _ _ h => h)
    (fun _ request answer _ => admits_answered request answer)
    fun _ _ _ hlets node i hleft => hlets node i hleft.passes
  exact ⟨hp, fun i e he => (hbefore i e he).1⟩

/-- When the node has just been forgotten, what is left of it has an origin or belongs to a call that
is under way. -/
theorem sourced_forget (first : Run (Service s w) { memory } before p) (hempty : memory.memos = {})
    (node : String) (after : List ServiceEvent) :
    (p.forget node).Sourced (originSources node before p after) (ownSources node before p after) := by
  obtain ⟨hp, hbefore⟩ := proper_of_run first hempty
  have hforgotten : ∀ {α : Type} (t : Table α) {other : String} {a : α},
      (t.erase node).get? other = some a → other ≠ node ∧ t.get? other = some a := by
    intro α t other a h
    rw [Table.get?_erase] at h
    split at h
    · exact absurd h (by simp)
    · rename_i hne
      exact ⟨hne, h⟩
  refine ⟨⟨fun other i hi => ?_, fun other a ha i hi => ?_, fun r hr i hi => ?_⟩, fun j a ha => ?_⟩
  · obtain ⟨hne, hi⟩ := hforgotten _ hi
    exact ⟨hp.memory.ids other i hi, fun heq => absurd heq hne⟩
  · obtain ⟨hne, ha⟩ := hforgotten _ ha
    exact ⟨hi.length, fun heq => absurd heq hne⟩
  · refine ⟨hi.length, ?_⟩
    rintro rfl
    exact .recorded hr hi
  · by_cases hended : ∃ ending, a = .ended ending
    · obtain ⟨ending, rfl⟩ := hended
      trivial
    · refine sourced_of_run first j ?_ a ha
      intro e he other i hi
      refine ⟨hbefore j e he other i hi, ?_⟩
      rintro rfl
      exact .inr ⟨a, ha, fun ending heq => hended ⟨ending, heq⟩, .inl ⟨e, he, hi⟩⟩

/-- What a node tells a call after it has been forgotten has an origin if the node was asked since
then, and otherwise the call was asking it then. -/
theorem admits_told (run : Run (Service s w) (p.forget node) after q) {j : Nat} {request : Request}
    {answer : Except ExecError String} (h : .task j (.answered request answer) ∈ after) :
    (ownSources node before p after j).Admits (.answered request answer) := by
  intro other id hbrings
  refine ⟨admits_answered request answer other id hbrings, ?_⟩
  rintro rfl
  rcases called_before_answered run h with horder | ⟨next, hcalling⟩
  · exact .inl (.told ⟨j, request, answer, horder, hbrings⟩)
  · exact .inr ⟨_, hcalling, by simp, .inr ⟨request, next, answer, rfl, h, hbrings⟩⟩

/-- A call may come upon whatever the memory holds. -/
theorem admits_own {e : TaskEvent} (h : (originSources node before p after).Admits e) (j : Nat) :
    (ownSources node before p after j).Admits e := by
  intro other i hi
  obtain ⟨hlength, horigin⟩ := h other i hi
  exact ⟨hlength, fun heq => .inl (horigin heq)⟩

/-- What a call that is under way has from before is in the memory only if the call leaves it there. -/
theorem origin_of_leaves {j : Nat} {e : TaskEvent} (he : .task j e ∈ after)
    (h : (ownSources node before p after j).Lets e) {other i : String} (hleft : e.Leaves other i) :
    (originSources node before p after).id other i := by
  obtain ⟨hlength, hcases⟩ := h other i hleft.passes
  refine ⟨hlength, ?_⟩
  rintro rfl
  rcases hcases rfl with horigin | hunder
  · exact horigin
  · exact .leftBehind hunder he hleft

/-- However calls are mixed, and whenever what was noted about a node is dropped: an identifier of the
node that a later call finds or passes on was told by the node when it was asked after that, stands in
a record that is not dropped with the notes, or was left behind by a call that was under way. A call
that was under way itself may also have it from before. -/
theorem origins_after_forgetting (first : Run (Service s w) { memory } before p)
    (hempty : memory.memos = {}) (second : Run (Service s w) (p.forget node) after q)
    {past later : List ServiceEvent} {i : Nat} {e : TaskEvent}
    (hafter : after = past ++ .task i e :: later) (h : e.Brings node id ∨ e.Passes node id) :
    (p.tasks.length ≤ i → Origin node id before p (past ++ [.task i e])) ∧
      (Origin node id before p (past ++ [.task i e]) ∨
        UnderWay before p (past ++ [.task i e]) i node id) := by
  obtain ⟨u, upTo⟩ := Service.run_upTo second hafter
  have hstart := sourced_forget first hempty node (past ++ [.task i e])
  obtain ⟨-, hall⟩ := sourced_run upTo hstart (fun j _ hadmits => admits_own hadmits j)
    (fun _ _ _ hmem => admits_told upTo hmem) fun _ _ he hlets _ _ => origin_of_leaves he hlets
  obtain ⟨hadmits, hlets⟩ := hall i e (List.mem_append_right _ List.mem_cons_self)
  have hcases : Origin node id before p (past ++ [.task i e]) ∨
      UnderWay before p (past ++ [.task i e]) i node id := by
    rcases h with hbrings | hpasses
    · exact (hadmits node id hbrings).2 rfl
    · exact (hlets node id hpasses).2 rfl
  refine ⟨fun hlater => hcases.resolve_right ?_, hcases⟩
  rintro ⟨a, ha, -⟩
  rw [List.getElem?_eq_none hlater] at ha
  exact absurd ha (by simp)

/-! ## A flaw -/

/-- The answers of nodes that tell their identifiers and are gone then. -/
def partialAnswer (request : Request) : Except ExecError String :=
  match request.command with
  | .nodeIp => .error (.transport "gone")
  | _ => sampleAnswer request

/-- Where no node is asked for its identifier, none tells it. -/
theorem not_told {log : List (Nat × TaskEvent)}
    (h : ∀ e ∈ log, e.2.called?.map Request.command ≠ some .peerInfo) (node id : String) :
    ¬ Told (log.map fun e => .task e.1 e.2) node id := by
  rintro ⟨i, request, answer, horder, -, htold⟩
  obtain ⟨hcommand, -⟩ := toldId?_eq_some.1 htold
  obtain ⟨⟨j, e⟩, hmem, heq⟩ := List.mem_map.1 (horder.subset List.mem_cons_self)
  obtain ⟨rfl, rfl⟩ := ServiceEvent.task.inj heq
  exact h _ hmem (congrArg some hcommand)

/-- A node is being asked for its identifier when it becomes ready anew. It tells the one that it had
and is gone. The next call records this one, and the node is not asked again. -/
theorem origins_after_forgetting_left_behind :
    ∃ before after past later e p q,
      Run (Service { config := ⟨[]⟩ } .any) { memory := {} } before p ∧
      Run (Service { config := ⟨[]⟩ } .any) (p.forget "da-one") after q ∧
      p.memory.cache = {} ∧ p.tasks.length = 1 ∧
      after = past ++ .task 1 e :: later ∧ e.record? = some ("da-one", sampleAddress) ∧
      (∀ id, ¬ Told (past ++ [.task 1 e]) "da-one" id) ∧
      ∃ e', .task 0 e' ∈ past ∧ e'.Leaves "da-one" sampleId := by
  let s : Settings := { config := ⟨[]⟩ }
  let c : Errand := .resolve { nodeName := "da-one" }
  have hplay : ∃ x ∈ runTask? 0 (fun _ => none) 0 (c.routine s)
        (Pool.spawn { memory := {} } (c.routine s)),
      x.2.memory.cache = {} ∧ x.2.tasks.length = 1 ∧
      ∃ y ∈ ((x.2.forget "da-one").answer? 0 (.ok sampleId)).bind (finishAll? 0 partialAnswer [0]),
      ∃ z ∈ finish? 0 sampleAnswer y.2.tasks.length (c.routine s) (y.2.spawn (c.routine s)),
        (∀ e ∈ y.1 ++ z.1, e.2.called?.map Request.command ≠ some .peerInfo) ∧
        ∃ e ∈ z.1, e.1 = 1 ∧ e.2.record? = some ("da-one", sampleAddress) := by
    decide +kernel
  obtain ⟨⟨asking, p⟩, hx, hcache, hone, ⟨rest, t⟩, hy, ⟨next, q⟩, hz, hquiet, ⟨i, e⟩, he, rfl,
    hrecord⟩ := hplay
  dsimp only at hcache hone hquiet he hrecord
  obtain ⟨u, hanswer, hrest⟩ := Option.bind_eq_some_iff.1 hy
  have first : Run (Service s .any) { memory := {} } _ p :=
    Service.run_of_call (runTask?_run trivial (by simp) hx rfl)
  obtain ⟨request, turn⟩ := answer?_turn (w := .any) (fun _ => trivial) hanswer
  have hanswered : Run (Service s .any) (p.forget "da-one") _ t :=
    Service.run_of_turns ((Run.single turn).trans (finishAll?_run trivial (fun _ => trivial) hrest))
  have second := hanswered.trans (Service.run_of_finish? trivial (fun _ => trivial) hz)
  obtain ⟨past, later, rfl⟩ := List.append_of_mem he
  let known : List (Nat × TaskEvent) := (0, .answered request (.ok sampleId)) :: (rest ++ past)
  have hlog : [(0, TaskEvent.answered request (.ok sampleId))] ++ rest ++ (past ++ (1, e) :: later) =
      known ++ (1, e) :: later := by
    simp [known]
  rw [← List.map_append, hlog, List.map_append, List.map_cons (l := later)] at second
  have hknown : ∀ x ∈ known ++ [(1, e)], x.2.called?.map Request.command ≠ some .peerInfo := by
    intro x hx
    simp only [known, List.cons_append, List.mem_cons, List.mem_append, List.not_mem_nil,
      or_false] at hx
    rcases hx with rfl | (hx | hx) | rfl
    · simp [TaskEvent.called?]
    · exact hquiet x (by simp [hx])
    · exact hquiet x (by simp [hx])
    · exact hquiet _ (by simp)
  have huntold := not_told hknown "da-one"
  rw [List.map_append] at huntold
  have hid : Bears sampleAddress sampleId := bears_of_toOption (by decide +kernel)
  obtain ⟨horigin, -⟩ := origins_after_forgetting first rfl second rfl
    (TaskEvent.brings_or_passes_of_record? hrecord hid)
  refine ⟨_, _, _, _, e, p, q, first, second, hcache, hone, rfl, hrecord, huntold, ?_⟩
  cases horigin hone.le with
  | told h => exact absurd h (huntold _)
  | recorded hr _ =>
    rw [hcache] at hr
    exact absurd hr List.not_mem_nil
  | @leftBehind j e' h he' hleft =>
    -- the only call that was under way is the first one
    obtain ⟨a, ha, -⟩ := h
    obtain ⟨hj, -⟩ := List.getElem?_eq_some_iff.1 ha
    obtain rfl : j = 0 := by omega
    rcases List.mem_append.1 he' with he' | he'
    · exact ⟨e', he', hleft⟩
    · exact absurd (ServiceEvent.task.inj (List.mem_singleton.1 he')).1 (by simp)

end Pool

end Rendezvous
