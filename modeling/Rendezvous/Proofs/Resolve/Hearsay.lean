import Rendezvous.Proofs.Pool.Service

/-!
# Notes are what nodes have told

An identifier is noted right after the node has told it, by the task that was told. So whatever happens
to the calls of a service, the notes that are there at any time hold what the nodes have answered, cut
to the length of an identifier. Records have no part in this: an identifier that is read from a record
is not noted.
-/

namespace Rendezvous

/-- A node has answered with this output when it was asked for its identifier. -/
def Heard (log : List ServiceEvent) (node output : String) : Prop :=
  ∃ i request, .task i (.answered request (.ok output)) ∈ log ∧ request.node = node ∧
    request.command = .peerInfo

/-- An identifier is the beginning of what was heard from a node. -/
def Attested (heard : String → String → Prop) (node id : String) : Prop :=
  ∃ output, heard node output ∧ truncatePeerId (Text.trim output) peerIdLength = .ok id

theorem Attested.mono {heard heard' : String → String → Prop} {node id : String}
    (h : Attested heard node id) (hmore : ∀ node output, heard node output → heard' node output) :
    Attested heard' node id := by
  obtain ⟨output, hheard, hcut⟩ := h
  exact ⟨output, hmore node output hheard, hcut⟩

variable {heard heard' : String → String → Prop}

/-! ## Tasks -/

namespace Stance

variable {s : Stance} {node id : String}

/-- No answer of the memory is taken for what a node tells. -/
theorem eq_told_of_after_consult {q : Query} {answer : q.Answer}
    (h : s.after (.consult q) answer = .told node id) : s = .told node id := by
  cases q with
  | recallId other =>
    cases answer with
    | none => exact absurd h (by simp [after])
    | some known => exact h
  | noteId other known => exact absurd h (by simp [after])
  | _ => exact h

/-- A task was told an identifier before a command, or is told it by the answer. -/
theorem told_of_after_run {request : Request} {answer : Except ExecError String}
    (h : s.after (.run request) answer = .told node id) :
    s = .told node id ∨ request.node = node ∧ toldId? request answer = some id := by
  rw [after_run] at h
  cases hid : toldId? request answer with
  | none =>
    rw [hid] at h
    exact .inl h
  | some known =>
    rw [hid] at h
    obtain ⟨rfl, rfl⟩ := Stance.told.inj h
    exact .inr ⟨rfl, rfl⟩

end Stance

namespace Activity

variable {α : Type} {a a' : Activity α} {shown : List TaskEvent}

/-- A task minds the custody of identifiers, and what it was told and is about to note was heard. -/
def Relays (heard : String → String → Prop) (a : Activity α) : Prop :=
  ∃ stance, a.Minds stance ∧ ∀ node id, stance = .told node id → Attested heard node id

/-- A task that has no lock was told nothing. -/
theorem relays_of_free (h : a.Minds .free) : a.Relays heard :=
  ⟨.free, h, fun _ _ heq => absurd heq (by simp)⟩

theorem Relays.mono (h : a.Relays heard)
    (hmore : ∀ node output, heard node output → heard' node output) : a.Relays heard' := by
  obtain ⟨stance, hminds, htold⟩ := h
  exact ⟨stance, hminds, fun node id heq => (htold node id heq).mono hmore⟩

/-- What a task notes was heard, and what it is told is heard then. -/
theorem Relays.move (h : a.Relays heard) (move : Move a shown a')
    (hmore : ∀ node output, heard node output → heard' node output)
    (hanswered : ∀ request output, .answered request (.ok output) ∈ shown →
      request.command = .peerInfo → heard' request.node output) :
    a'.Relays heard' ∧
      ∀ node id answer, .consulted (.noteId node id) answer ∈ shown → Attested heard node id := by
  obtain ⟨stance, hminds, htold⟩ := h
  have htold' : ∀ node id, stance = .told node id → Attested heard' node id :=
    fun node id heq => (htold node id heq).mono hmore
  cases move with
  | finish a => exact ⟨relays_of_free rfl, by simp⟩
  | @consult q next answer =>
    obtain ⟨hallows, hnext⟩ := Routine.minded_ask.1 hminds
    refine ⟨⟨stance.after (.consult q) answer, hnext answer, fun node id heq => ?_⟩, ?_⟩
    · exact htold' node id (Stance.eq_told_of_after_consult heq)
    · intro node id answer' hmem
      obtain ⟨rfl, -⟩ := TaskEvent.consulted.inj (List.mem_singleton.1 hmem)
      exact htold node id (Stance.eq_told_of_allows_note hallows)
  | call request next => exact ⟨⟨stance, hminds, htold'⟩, by simp⟩
  | answer request next answer =>
    obtain ⟨-, hnext⟩ := Routine.minded_ask.1 hminds
    refine ⟨⟨stance.after (.run request) answer, hnext answer, fun node id heq => ?_⟩, by simp⟩
    rcases Stance.told_of_after_run heq with hbefore | ⟨rfl, hid⟩
    · exact htold' node id hbefore
    · obtain ⟨hcommand, output, rfl, hcut⟩ := toldId?_eq_some.1 hid
      exact ⟨output, hanswered request output List.mem_cons_self hcommand, hcut⟩
  | acquire node next =>
    obtain ⟨-, hnext⟩ := Routine.minded_ask.1 hminds
    exact ⟨⟨.holding node, hnext (), fun _ _ heq => absurd heq (by simp)⟩, by simp⟩
  | release node next =>
    obtain ⟨-, hnext⟩ := Routine.minded_ask.1 hminds
    exact ⟨relays_of_free (hnext ()), by simp⟩
  | tell writes next =>
    obtain ⟨hallows, hnext⟩ := Routine.minded_ask.1 hminds
    obtain rfl := Stance.eq_free_of_allows_propagate hallows
    exact ⟨relays_of_free ⟨rfl, hnext⟩, by simp⟩
  | write run run' next => exact ⟨⟨stance, hminds, htold'⟩, by simp⟩
  | report run next report => exact ⟨relays_of_free (hminds.2 report), by simp⟩
  | drop hon hcut => exact ⟨relays_of_free rfl, by simp⟩

end Activity

/-! ## Runs -/

namespace Pool

variable {s : Settings} {w : World} {p p' : Pool Upshot} {log shown : List ServiceEvent}
  {memory : Memory}

/-- The tasks of a pool relay what they are told, and all notes were heard. -/
structure Relays (heard : String → String → Prop) (p : Pool Upshot) : Prop where
  tasks : ∀ (i : Nat) (a : Activity Upshot), p.tasks[i]? = some a → a.Relays heard
  notes : ∀ node id, p.memory.memos.ids.get? node = some id → Attested heard node id

/-- A step leaves a task relaying what it is told; what the task notes was heard. -/
theorem Service.relays_task (h : Service s w p shown p') (i : Nat)
    (hi : ∀ a, p.tasks[i]? = some a → a.Relays heard)
    (hmore : ∀ node output, heard node output → heard' node output)
    (hanswered : ∀ request output, .task i (.answered request (.ok output)) ∈ shown →
      request.command = .peerInfo → heard' request.node output) :
    (∀ a, p'.tasks[i]? = some a → a.Relays heard') ∧
      ∀ node id answer, .task i (.consulted (.noteId node id) answer) ∈ shown →
        Attested heard node id := by
  rcases h.step_or_call with ⟨events, step, hshown⟩ | ⟨c, rfl, rfl⟩
  · rcases step.move i with ⟨hsame, hnone⟩ | ⟨a, a', ha, ha', move⟩
    · refine ⟨fun a ha => (hi a (hsame ▸ ha)).mono hmore, fun node id answer hmem => ?_⟩
      have hown := mem_own.2 ((hshown i _).1 hmem)
      rw [hnone] at hown
      exact absurd hown List.not_mem_nil
    · obtain ⟨hrelays, hnoted⟩ := (hi a ha).move move hmore fun request output hmem =>
        hanswered request output ((hshown i _).2 (mem_own.1 hmem))
      refine ⟨fun b hb => ?_, fun node id answer hmem => ?_⟩
      · rw [ha'] at hb
        rwa [← Option.some.inj hb]
      · exact hnoted node id answer (mem_own.2 ((hshown i _).1 hmem))
  · refine ⟨fun a ha => ?_, by simp⟩
    rw [tasks_spawn] at ha
    split at ha
    · obtain rfl := Option.some.inj ha
      exact Activity.relays_of_free (c.minded s)
    · exact (hi a ha).mono hmore

theorem Service.relays (h : Service s w p shown p') (hp : p.Relays heard)
    (hmore : ∀ node output, heard node output → heard' node output)
    (hanswered : ∀ i request output, .task i (.answered request (.ok output)) ∈ shown →
      request.command = .peerInfo → heard' request.node output) : p'.Relays heard' := by
  have htask := fun i => h.relays_task i (hp.tasks i) hmore (hanswered i)
  have hnotes : ∀ node id, p.memory.memos.ids.get? node = some id → Attested heard' node id :=
    fun node id hid => (hp.notes node id hid).mono hmore
  refine ⟨fun i => (htask i).1, ?_⟩
  cases h with
  | turn turn =>
    rcases turn.memory_cases with ⟨hsame, -⟩ | ⟨i, q, answer, now, rfl, hm⟩
    · rw [hsame]
      exact hnotes
    · rcases Memory.consult_ids hm with hids | ⟨node, id, rfl, hids⟩
      · rw [hids]
        exact hnotes
      · rw [hids]
        exact Table.forall_put hnotes
          (((htask i).2 node id answer List.mem_cons_self).mono hmore)
  | forget other => exact Table.forall_erase other hnotes
  | _ => exact hnotes

/-- Whatever happens to the calls of a service, all notes were heard. -/
theorem relays_of_run (run : Run (Service s w) { memory } log p) (hempty : memory.memos = {}) :
    p.Relays (Heard log) := by
  refine run.preserves (P := fun log (p : Pool Upshot) => p.Relays (Heard log)) ?_ ?_
  · refine ⟨fun i a ha => absurd ha (by simp), fun node id hid => ?_⟩
    rw [hempty] at hid
    exact absurd hid (by simp)
  · intro log p shown p' hp step
    refine step.relays hp ?_ ?_
    · rintro node output ⟨i, request, hmem, hrequest⟩
      exact ⟨i, request, List.mem_append_left _ hmem, hrequest⟩
    · intro i request output hmem hcommand
      exact ⟨i, request, List.mem_append_right _ hmem, rfl, hcommand⟩

end Pool

end Rendezvous
