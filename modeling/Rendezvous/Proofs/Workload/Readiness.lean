import Rendezvous.Proofs.Workload.WatchedQueues

/-!
# From readiness to dispatch

A drain dispatches the wanted nodes of which a change to ready was received since the drain before
it began, each of them once, and beside those only what earlier dispatches have left behind.
-/

namespace Rendezvous

open scoped List

namespace WatchedQueue

variable {settings : Settings} {policy : RetryPolicy} {log : List WatchEvent} {v : WatchedQueue}

/-- A configured node whose name begins as it should was reported to have become ready, and no drain
has begun since. -/
def IsCalled (settings : Settings) (log : List WatchEvent) (node : String) : Prop :=
  Text.startsWith node settings.nodeLead = true ∧ ⟨node, true⟩ ∈ freshReceipts log

/-- The peers that have arrived are those of the called nodes. -/
theorem mem_newcomers_iff (h : ∀ p, .queue (.enqueued p) ∉ log) {p : Peer} :
    p ∈ newcomers (queueEvents settings log) ↔
      IsCalled settings log p.nodeName ∧ settings.config.find? p.nodeName = some p := by
  rw [newcomers_queueEvents settings h, List.mem_filterMap]
  constructor
  · rintro ⟨⟨node, ready⟩, he, hwanted⟩
    obtain ⟨hready, hlead, hfind⟩ := Settings.wanted?_eq_some.1 hwanted
    simp only at hready hlead hfind
    obtain rfl := Config.nodeName_of_find? hfind
    subst hready
    exact ⟨⟨hlead, he⟩, hfind⟩
  · rintro ⟨⟨hlead, he⟩, hfind⟩
    exact ⟨⟨p.nodeName, true⟩, he, Settings.wanted?_eq_some.2 ⟨rfl, hlead, hfind⟩⟩

/-- A called node is due once, as it is configured and with no retries. -/
theorem due_of_called {q : RetryQueue} (hq : q.Sound)
    (hnew : ∀ {p : Peer}, p ∈ q.arrivals ↔
      IsCalled settings log p.nodeName ∧ settings.config.find? p.nodeName = some p)
    {pulled now : Instant} (hle : pulled ≤ now) {p : Peer}
    (hcalled : IsCalled settings log p.nodeName)
    (hfind : settings.config.find? p.nodeName = some p) :
    ((q.pullArrivals pulled).due now).filter (fun w => w.node = p.nodeName) = [⟨p, 0⟩] := by
  obtain ⟨later, earlier, harrivals, hlast⟩ :=
    List.eq_append_cons_of_mem (List.mem_reverse.2 (hnew.2 ⟨hcalled, hfind⟩))
  rw [List.reverse_eq_iff, List.reverse_append, List.reverse_cons, List.append_assoc,
    List.singleton_append] at harrivals
  -- an arrival of the node that came later would be the same peer
  have hother : ∀ p' ∈ later.reverse, p'.nodeName ≠ p.nodeName := by
    intro p' hp' hname
    have hfind' := (hnew.1 (harrivals ▸ List.mem_append_right _ (List.mem_cons_of_mem _ hp'))).2
    rw [hname, hfind, Option.some.injEq] at hfind'
    exact hlast (hfind' ▸ List.mem_reverse.1 hp')
  obtain ⟨e, he, hdue, hitem⟩ := hq.latest_pending pulled harrivals hother
  have hmem : ⟨p, 0⟩ ∈ (q.pullArrivals pulled).due now :=
    List.mem_map.2 ⟨e, List.mem_filter.2 ⟨he, by simpa [hdue] using hle⟩, hitem⟩
  exact filter_node_eq ((hq.pullArrivals pulled).due_nodup now) hmem

/-- What readiness leads to, by what was seen of a watched queue. -/
structure Led (settings : Settings) (policy : RetryPolicy) (log : List WatchEvent) : Prop where
  /-- The changes that were received are the first ones of the listings, in their order. -/
  reported : receipts log <+: changesAfter [] (listings log)
  /-- What a drain takes out when it begins is what it dispatches until the next one begins. -/
  drained : ∀ {before now ws after}, log = before ++ .queue (.drained now ws) :: after →
    dispatches (untilDrain (queueEvents settings after)) = ws
  /-- A drain dispatches each configured node that was called since the drain before it began, once
  and with no retries. -/
  dispatched : ∀ {before now ws after}, log = before ++ .queue (.drained now ws) :: after →
    ∀ p ∈ settings.config.peers, IsCalled settings before p.nodeName →
      ∃ found, settings.config.find? p.nodeName = some found ∧
        ws.filter (fun w => w.node = p.nodeName) = [⟨found, 0⟩] ∧
          (settings.config.validate = .ok () → found = p)
  /-- Whatever else a drain dispatches was left behind by an earlier dispatch of its node and is
  due. -/
  others : ∀ {before now ws after}, log = before ++ .queue (.drained now ws) :: after → ∀ w ∈ ws,
    (IsCalled settings before w.node ∧ settings.config.find? w.node = some w.peer ∧
        w.retries = 0) ∨
      ∃ due ≤ now, LeftBehind policy (queueEvents settings before) due w
  /-- A change of a node that has ceased to be ready, is not configured or is not named as it should
  be changes nothing. -/
  ignored : ∀ e : WorkloadEvent,
    e.ready = false ∨ Text.startsWith e.node settings.nodeLead = false ∨
        settings.config.find? e.node = none →
      ∀ s : Scenario, s.settings = settings → s.workloadEvent e.node e.ready = (false, s)

/-- Readiness leads to dispatch, however listings, receipts and drains follow each other: the changes
of readiness are received in order; a drain dispatches each configured node whose change to ready
was received since the last one, once and with no retries, and beside those only what earlier
dispatches have left; and any other change leaves everything as it is. -/
theorem readiness_leads_to_dispatch {memory : Memory}
    (h : Run Step { settings, memory, stage := .idle { policy } } log v) :
    Led settings policy log := by
  obtain ⟨-, -, hsent, hmoves, hunadded⟩ := seen_of_run h
  have hbefore : ∀ {before now ws after}, log = before ++ .queue (.drained now ws) :: after →
      ∀ p, .queue (.enqueued p) ∉ before := by
    intro before now ws after hlog p hp
    exact hunadded p (hlog ▸ List.mem_append_left _ hp)
  have hevents : ∀ {before now ws after}, log = before ++ .queue (.drained now ws) :: after →
      queueEvents settings log =
        queueEvents settings before ++ .drained now ws :: queueEvents settings after := by
    intro before now ws after hlog
    rw [hlog, queueEvents_drain]
  refine ⟨⟨v.inbox, hsent⟩, ?_, ?_, ?_, ?_⟩
  · intro before now ws after hlog
    obtain ⟨q, pulled, -, -, -, -, hdispatches, -⟩ := QueueStage.Moves.drain hmoves (hevents hlog)
    exact hdispatches
  · intro before now ws after hlog p hp hcalled
    obtain ⟨q, pulled, hq, harrivals, hle, rfl, -, -⟩ :=
      QueueStage.Moves.drain hmoves (hevents hlog)
    obtain ⟨found, hfind, hvalid⟩ := Config.find?_nodeName hp
    have hname := Config.nodeName_of_find? hfind
    rw [← hname] at hcalled hfind ⊢
    refine ⟨found, hfind, due_of_called hq ?_ hle hcalled hfind, hvalid⟩
    intro p
    rw [harrivals]
    exact mem_newcomers_iff (hbefore hlog)
  · intro before now ws after hlog w hw
    refine (QueueStage.Moves.dispatched_cases hmoves (hevents hlog) hw).imp_left ?_
    rintro ⟨p, hp, rfl⟩
    obtain ⟨hcalled, hfind⟩ := (mem_newcomers_iff (hbefore hlog)).1 hp
    exact ⟨hcalled, hfind, rfl⟩
  · rintro e hignored s rfl
    refine Scenario.workloadEvent_of_unwanted ?_
    unfold Settings.wanted?
    rcases hignored with hready | hlead | hfind
    · simp [hready]
    · simp [hlead]
    · simp [hfind]

/-- A workload is listed twice, first not ready and then ready, and the change is received; the drain
after that dispatches its node. -/
theorem readiness_leads_to_dispatch_once :
    ∃ before ws after v, Run Step
        { settings := { config := { groups := [{ peers := [{ nodeName := "da-0" }] }] } }
          memory := {}, stage := .idle {} }
        (before ++ .queue (.drained 0 ws) :: after) v ∧
      listings before = [⟨"da", 1, 0, 1⟩, ⟨"da", 1, 1, 1⟩] ∧
      ws.filter (fun w => w.node = "da-0") = [⟨{ nodeName := "da-0" }, 0⟩] := by
  let item : WorkItem := ⟨{ nodeName := "da-0" }, 0⟩
  have hlisted := Run.single (Step.poll
    { settings := { config := { groups := [{ peers := [{ nodeName := "da-0" }] }] } }
      memory := {}, stage := .idle {} }
    (some [⟨"da", 1, 0, 1⟩]))
  have hready := hlisted.tail (Step.poll _ (some [⟨"da", 1, 1, 1⟩]))
  have hreceived := hready.tail (Step.receive (e := ⟨"da-0", true⟩) rfl)
  have hbegun : QueueStage.Move (.idle (RetryQueue.enqueue {} item.peer)) _ _ :=
    .begin _ (Nat.le_refl 0)
  have hrun := hreceived.tail (.work hbegun (by simp [beginning]))
  let seen : List WatchEvent :=
    [.listed ⟨"da", 1, 0, 1⟩, .listed ⟨"da", 1, 1, 1⟩, .received ⟨"da-0", true⟩,
      .queue (.pulled 0 item.peer)]
  obtain ⟨found, hfind, honce, -⟩ :=
    @Led.dispatched _ _ _ (readiness_leads_to_dispatch hrun) seen 0 [item]
      [.queue (.dispatched item)] rfl { nodeName := "da-0" } (by decide) ⟨by decide, by decide⟩
  obtain rfl := Option.some.inj hfind
  exact ⟨seen, [item], [.queue (.dispatched item)], _, hrun, rfl, honce⟩

end WatchedQueue

end Rendezvous
