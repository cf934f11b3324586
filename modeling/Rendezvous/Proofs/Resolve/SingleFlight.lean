import Rendezvous.Proofs.Pool.Alone
import Rendezvous.Proofs.Pool.Orderly

/-!
# One probe at a time

However many calls go on at once, a node is asked for its identifier by one of them at a time, and
once it has told one that is accepted it is not asked again: as long as nothing is forgotten, the
identifier stays noted, whatever becomes of the cache.
-/

namespace Rendezvous

/-- A call to the assembler. -/
inductive Errand where
  /-- A peer is resolved. -/
  | resolve (p : Peer)
  /-- A peer is resolved and its group is told. -/
  | process (p : Peer)
  /-- The connections of a peer are put together. -/
  | assemble (p : Peer)

namespace Errand

/-- The routine of a call. -/
def routine (s : Settings) : Errand → Routine (Except ResolveError (Resolution ⊕ Connections))
  | .resolve p => (Sum.inl <$> Resolve.resolve s p : Attempt _).run
  | .process p => (Sum.inl <$> Resolve.process s p : Attempt _).run
  | .assemble p => (Sum.inr <$> Resolve.assemble s p : Attempt _).run

/-- Every call minds the custody of identifiers. -/
theorem minded (s : Settings) (c : Errand) : (c.routine s).Minded .free := by
  have hkeeps : (c.routine s).Keeps custody (Stance.At none) := by
    cases c with
    | resolve p => exact (custody_conduct.resolve s p fun _ _ => trivial).run_map
    | process p => exact (custody_conduct.process s p fun _ _ => trivial).run_map
    | assemble p =>
      exact (custody_conduct.assembleFrom s p 0 _ _ fun _ _ _ => trivial).run_map
  exact (hkeeps .free (Stance.at_none.2 rfl)).mono fun _ _ h => Stance.at_none.1 h

end Errand

namespace Pool

/-- The pool of some calls that have not begun. -/
def errands (s : Settings) (memory : Memory) (calls : List Errand) :
    Pool (Except ResolveError (Resolution ⊕ Connections)) :=
  { memory, tasks := calls.map fun c => .ready (c.routine s) }

theorem errands_orderly (s : Settings) (memory : Memory) (calls : List Errand) :
    Orderly (errands s memory calls) fun _ => .free := by
  refine ⟨?_, fun _ => rfl, Table.distinct_empty, ?_, ?_⟩
  · intro i a ha
    obtain ⟨c, -, rfl⟩ : ∃ c, calls[i]? = some c ∧ .ready (c.routine s) = a := by
      simpa [errands] using ha
    exact c.minded s
  · intro node i
    simp [errands, Stance.node?]
  · intro i node h
    exact absurd h (by simp)

variable {α : Type} {w : World} {p p' : Pool α} {g : Nat → Stance}
  {shown log before after : List (Nat × TaskEvent)}

theorem Undisturbed.shown_le (h : Undisturbed w p shown p') : shown = [] ∨ ∃ e, shown = [e] := by
  cases h with
  | turn h => exact h.shown_cases
  | drop _ _ _ => exact Or.inl rfl
  | cancel => exact Or.inl rfl

/-- A node has told an identifier that was accepted. -/
def Identified (log : List (Nat × TaskEvent)) (node : String) : Prop :=
  ∃ i request answer id, (i, TaskEvent.answered request answer) ∈ log ∧ request.node = node ∧
    toldId? request answer = some id

/-- No node was asked for its identifier after it had told one, and what a node has told is noted or
about to be. -/
structure Flown (log : List (Nat × TaskEvent)) (p : Pool α) (g : Nat → Stance) : Prop where
  /-- The pool is in order. -/
  orderly : Orderly p g
  /-- What a node has told is noted, or a task has it. -/
  identified : ∀ {node}, Identified log node →
    (p.noted? node).isSome ∨ ∃ i id, g i = .told node id
  /-- No node was asked in vain. -/
  asked : ∀ before e after, log = before ++ e :: after → ∀ i request, e = (i, .called request) →
    request.command = .peerInfo → ¬ Identified before request.node

/-- A node whose identifier is sought has not told one. -/
theorem Flown.not_identified (h : Flown log p g) {i : Nat} {node : String}
    (hi : g i = .seeking node) : ¬ Identified log node := by
  intro hidentified
  rcases h.identified hidentified with hnoted | ⟨j, id, hj⟩
  · rw [h.orderly.seeks hi] at hnoted
    exact absurd hnoted (by simp)
  · have hi' : (g i).node? = some node := by
      rw [hi]
      rfl
    have hj' : (g j).node? = some node := by
      rw [hj]
      rfl
    have hij : i = j := h.orderly.eq_of_node? hi' hj'
    rw [hij, hj] at hi
    exact absurd hi (by simp)

theorem Flown.keep (h : Flown log p g) (step : Undisturbed w p shown p') :
    ∃ g', Flown (log ++ shown) p' g' := by
  obtain ⟨g', hshift⟩ := step.shift h.orderly
  refine ⟨g', hshift.orderly, ?_, ?_⟩
  · rintro node ⟨i, request, answer, id, hmem, rfl, htold⟩
    rcases List.mem_append.1 hmem with hmem | hmem
    · rcases h.identified ⟨i, request, answer, id, hmem, rfl, htold⟩ with hnoted | ⟨j, id', hj⟩
      · exact Or.inl (hshift.noted hnoted)
      · rcases hshift.told hj with hj' | hnoted
        · exact Or.inr ⟨j, id', hj'⟩
        · exact Or.inl hnoted
    · exact Or.inr ⟨i, id, hshift.answered hmem htold⟩
  · rcases step.shown_le with rfl | ⟨e, rfl⟩
    · rw [List.append_nil]
      exact h.asked
    · intro before x after hlog
      refine forall_split_snoc (P := fun before x => ∀ i request, x = (i, .called request) →
        request.command = .peerInfo → ¬ Identified before request.node) h.asked ?_ hlog
      rintro i request rfl hcommand
      exact h.not_identified (hshift.called List.mem_cons_self hcommand)

/-- What is promised about the probes of identifiers, by what has happened and what the tasks are
at. -/
structure SingleFlight (log : List (Nat × TaskEvent)) (p : Pool α) : Prop where
  /-- No two tasks are asking a node for its identifier. -/
  in_flight : ∀ {i j : Nat} {request request' : Request}
    {next next' : Except ExecError String → Routine α},
    p.tasks[i]? = some (.calling request next) → p.tasks[j]? = some (.calling request' next') →
    request.command = .peerInfo → request'.command = .peerInfo → request.node = request'.node →
    i = j
  /-- After a node has told an identifier that is accepted, it is not asked again. -/
  after_accepted : ∀ {before after : List (Nat × TaskEvent)} {i : Nat} {request : Request}
    {output id : String},
    log = before ++ (i, .answered request (.ok output)) :: after → request.command = .peerInfo →
    truncatePeerId (Text.trim output) peerIdLength = .ok id →
    ∀ j request', (j, .called request') ∈ after → request'.command = .peerInfo →
      request'.node ≠ request.node

/-- However many peers are resolved, processed or connected at once, in any interleaving, with any
memory to begin with and calls being cut off where they wait: if nothing is forgotten, a node is
asked for its identifier by one call at a time, and not again after it has told one. -/
theorem identity_single_flight {s : Settings} {memory : Memory} {calls : List Errand}
    {p : Pool (Except ResolveError (Resolution ⊕ Connections))}
    (h : Run (Undisturbed w) (errands s memory calls) log p) : SingleFlight log p := by
  obtain ⟨g, hflown⟩ : ∃ g, Flown log p g := by
    refine h.preserves (P := fun log p => ∃ g, Flown log p g) ?_ ?_
    · refine ⟨_, errands_orderly s memory calls, ?_, by simp⟩
      rintro node ⟨_, _, _, _, hmem, -⟩
      exact absurd hmem List.not_mem_nil
    · rintro log p shown p' ⟨g, hflown⟩ step
      exact hflown.keep step
  refine ⟨?_, ?_⟩
  · intro i j request request' next next' hi hj hcommand hcommand' hnode
    have hseeking := Stance.eq_seeking_of_allows
      (Routine.minded_ask.1 (hflown.orderly.minds hi)).1 hcommand
    have hseeking' := Stance.eq_seeking_of_allows
      (Routine.minded_ask.1 (hflown.orderly.minds hj)).1 hcommand'
    have hi' : (g i).node? = some request.node := by
      rw [hseeking]
      rfl
    have hj' : (g j).node? = some request.node := by
      rw [hseeking', hnode]
      rfl
    exact hflown.orderly.eq_of_node? hi' hj'
  · rintro before after i request output id rfl hcommand haccepted j request' hmem hcommand' hnode
    obtain ⟨mid, rest, rfl⟩ := List.append_of_mem hmem
    refine hflown.asked (before ++ (i, .answered request (.ok output)) :: mid) _ rest (by simp) j
      request' rfl hcommand' ?_
    refine ⟨i, request, .ok output, id, by simp, hnode.symm, ?_⟩
    exact toldId?_eq_some.2 ⟨hcommand, output, rfl, haccepted⟩

/-- The cache takes nothing. A node that has told its identifier to the call of its dependent is then
resolved itself, and only asked for its IP address. -/
theorem identity_single_flight_cache_down :
    ∃ before after output p, Run (Undisturbed (.still 0 sampleAnswer))
        (errands { config := ⟨[]⟩ } { faults := { set := true } }
          [.assemble { nodeName := "a", connectsTo := ["b"] }, .resolve { nodeName := "b" }])
        (before ++ (0, .answered (.main (.withDefaults { nodeName := "b" } "") .peerInfo)
          (.ok output)) :: after) p ∧
      (∃ j, (j, .called (.main { nodeName := "b" } .nodeIp)) ∈ after) ∧
      ∀ j request, (j, .called request) ∈ after → request.command = .peerInfo →
        request.node ≠ "b" := by
  have hfinish : ∃ x ∈ finishAll? 0 sampleAnswer [0, 1]
      (errands { config := ⟨[]⟩ } { faults := { set := true } }
        [.assemble { nodeName := "a", connectsTo := ["b"] }, .resolve { nodeName := "b" }]),
      x.1[5]?.map (fun e => (e.1, e.2.answered?)) =
        some (0, some (.main (.withDefaults { nodeName := "b" } "") .peerInfo,
          .ok "12D3KooWAbCdEfGhIjKlMnOpQrStUvWxYz123456789abcdefghi")) ∧
      (x.1.drop 6)[11]?.bind (·.2.called?) = some (.main { nodeName := "b" } .nodeIp) := by
    decide +kernel
  obtain ⟨⟨log, p⟩, hx, hanswered, hcalled⟩ := hfinish
  obtain ⟨⟨i, e⟩, he, hanswer⟩ := Option.map_eq_some_iff.1 hanswered
  obtain ⟨⟨j, e'⟩, he', hcall⟩ := Option.bind_eq_some_iff.1 hcalled
  obtain ⟨rfl, hanswer⟩ := Prod.mk.inj hanswer
  rw [TaskEvent.answered?_eq_some] at hanswer
  rw [TaskEvent.called?_eq_some] at hcall
  subst hanswer hcall
  have hrun : Run (Undisturbed (.still 0 sampleAnswer)) _ log p :=
    (finishAll?_run (w := .still 0 sampleAnswer) rfl (fun _ => rfl) hx).mono .turn
  obtain ⟨hlt, hget⟩ := List.getElem?_eq_some_iff.1 he
  have hlog : log = log.take 5 ++ log[5] :: log.drop 6 := by
    rw [List.getElem_cons_drop, List.take_append_drop]
  rw [hget] at hlog
  rw [hlog] at hrun
  refine ⟨log.take 5, log.drop 6, _, p, hrun, ⟨j, List.mem_of_getElem? he'⟩, ?_⟩
  have haccepted : truncatePeerId
      (Text.trim "12D3KooWAbCdEfGhIjKlMnOpQrStUvWxYz123456789abcdefghi") peerIdLength =
        .ok "12D3KooWAbCdEfGhIjKlMnOpQrStUvWxYz123456789abcdefghi" := by
    decide +kernel
  exact (identity_single_flight hrun).after_accepted rfl rfl haccepted

end Pool

end Rendezvous
