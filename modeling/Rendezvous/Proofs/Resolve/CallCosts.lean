import Rendezvous.Proofs.Resolve.Ledgers
import Rendezvous.Resolve.Process

/-!
# What commands resolving costs

Each attempt to resolve a node starts at most one command that brings nothing to keep: every other one
is answered with something that is noted or recorded at once. A finding therefore pays for the command
that brought it, and the attempt itself pays for the one that did not.
-/

namespace Rendezvous

open Routine Attempt

/-- The terms let a node be probed for an address that is then kept as a finding, as long as neither
what is asked for nor the address is known. -/
structure Terms.Lets (T : Terms) (B : Belief) (p : Peer) (f : Finding) : Prop where
  identify : ∀ known, .id p.nodeName ∉ known → f ∉ known → .record p.nodeName ∉ known →
    T.may known (.main p .peerInfo)
  identified : ∀ i, B.id p.nodeName i → T.Grants (.id p.nodeName) ∧ T.Grants f ∧
    ∀ known, f ∉ known → .record p.nodeName ∉ known → T.may known (.main p .nodeIp)

/-- Whether a command leaves the dependencies of a node where it finds them. -/
def Command.Connects : Command → Prop
  | .writeFile .. | .envVarFile .. => True
  | _ => False

/-- The terms cover all that resolving a peer anew can need. -/
structure Terms.Covers (T : Terms) (B : Belief) (p : Peer) : Prop where
  own : p.nodeType.advertises = true → T.Lets B p (.own p.nodeName)
  others : (p.nodeType.advertises = true → ∃ a, B.address p.nodeName a) →
    (∀ d : Peer, p.Lists d.nodeName → T.Lets B d (.record d.nodeName)) ∧
      ∀ known command, command.Connects → T.may known (.setup p command)

/-- After a success there is something left to pay with, after a failure perhaps nothing. -/
def Ledger.Tallied {α : Type} (T : Terms) : Except ResolveError α → Ledger → Prop
  | .ok _, L => L.Paid T
  | .error _, L => L.Spent T

namespace Resolve

variable {T : Terms} {B : Belief} {s : Settings} {L : Ledger} {p : Peer} {dns : Option String}

theorem costs_ask {q : Query} {Q : q.Answer → Ledger → Prop}
    (hallows : L.Allows T B s.lifetime (.consult q))
    (h : ∀ answer, L.Fair B (.consult q) answer → Q answer (L.consult T q answer)) :
    Ensures (underLedger T B s.lifetime) Q L (consult q) := by
  refine ensures_consult.2 ⟨hallows, ?_⟩
  rintro answer L' ⟨hfair, rfl⟩
  exact h answer hfair

/-! ## Records -/

theorem costs_lookup (node : String) :
    Ensures (underLedger T B s.lifetime) (fun known L' =>
      (known = none ∧ .record node ∉ L.known ∧ L' = L) ∨
        ∃ value, known = some value ∧ B.Record node value ∧ L' = L.learn T (.record node)) L
      (lookup node) := by
  unfold lookup
  refine ensures_bind.2 (costs_ask trivial fun answer hfair => ensures_pure.2 ?_)
  rcases hfair with ⟨value, rfl, hrecord⟩ | ⟨rfl, hnone⟩
  · exact Or.inr ⟨value, by simp [knownValue, hrecord.ne_empty], hrecord, rfl⟩
  · exact Or.inl ⟨rfl, hnone, rfl⟩

/-- A record that is there is found, and costs nothing. -/
theorem costs_cachedAddress (hL : L.Paid T) (p : Peer) (dns : Option String) :
    Ensures (underLedger T B s.lifetime) (fun result L' =>
      (result = .ok none ∧ .record p.nodeName ∉ L.known ∧ L' = L) ∨
        (result ≠ .ok none ∧ L'.Paid T)) L (cachedAddress p dns).run := by
  unfold cachedAddress
  refine ensures_run_bind.2 (ensures_run_lift.2 ((costs_lookup p.nodeName).mono ?_))
  rintro known L' (⟨rfl, hnone, rfl⟩ | ⟨value, rfl, ⟨hlead, a, ha, -⟩, rfl⟩)
  · exact ensures_run_pure.2 (Or.inl ⟨rfl, hnone, rfl⟩)
  · have hpaid := hL.learn (f := .record p.nodeName)
    dsimp only
    rw [if_pos hlead, ha]
    refine ensures_run_bind.2 (ensures_ofFormat.2 ?_)
    cases dns with
    | none => exact ensures_run_pure.2 (Or.inr ⟨by simp, hpaid⟩)
    | some name =>
      have hsome : ∀ x : Except FormatError MultiAddress,
          (x.mapError (ResolveError.format p.nodeName)).map some ≠ .ok none := by
        intro x
        cases x with
        | error e => exact fun h => absurd h (by simp [Except.mapError, Except.map])
        | ok a' => exact fun h => absurd h (by simp [Except.mapError, Except.map])
      refine ensures_run_map.2 (ensures_ofFormat.2 (Or.inr ⟨?_, hpaid⟩))
      exact hsome (MultiAddress.ofHost (.dns name) a.peerId)

/-- Storing an address keeps it. -/
theorem costs_store {a : MultiAddress} (ha : B.address p.nodeName a) :
    Ensures (underLedger T B s.lifetime) (fun _ L' => L' = L.keep T (.record p.nodeName)) L
      (store s p a) := by
  unfold store
  refine ensures_bind.2 (costs_ask ⟨rfl, a, rfl, ha⟩ fun answer _ => ?_)
  exact costs_ask (q := .register p.nodeName a.text p.space) trivial fun _ _ => rfl

/-! ## Probes -/

/-- A node that is asked for its identifier costs one command, and what it tells is believed. -/
theorem costs_probeIdentity (hL : L.Paid T) (hmay : T.may L.known (.main p .peerInfo)) :
    Ensures (underLedger T B s.lifetime) (fun result L' =>
      L' = L.call ∧ ∀ id, result = .ok id → B.id p.nodeName id) L (probeIdentity p).run := by
  refine ensures_probe.2 ⟨⟨hL, hmay⟩, ?_⟩
  rintro answer L' ⟨hfair, rfl⟩
  refine ⟨rfl, fun id hid => hfair id (toldId?_eq_some.2 ⟨rfl, ?_⟩)⟩
  cases answer with
  | error e => exact absurd hid (by simp)
  | ok output =>
    dsimp only at hid
    split at hid
    · exact absurd hid (by simp)
    · refine ⟨output, rfl, ?_⟩
      cases hcut : truncatePeerId (Text.trim output) peerIdLength with
      | error e => exact absurd hid (by simp [hcut, Except.mapError])
      | ok id' =>
        rw [hcut] at hid
        exact congrArg Except.ok (Except.ok.inj hid)

theorem costs_probeIp (hL : L.Paid T) (hmay : T.may L.known (.main p .nodeIp)) :
    Ensures (underLedger T B s.lifetime) (fun _ L' => L' = L.call) L (probeIp p).run := by
  refine ensures_probe.2 ⟨⟨hL, hmay⟩, ?_⟩
  rintro answer L' ⟨-, rfl⟩
  rfl

/-- The identifier of a node is noted or pays for having been asked for. -/
theorem costs_peerIdOf (hL : L.Paid T)
    (hmay : .id p.nodeName ∉ L.known → T.may L.known (.main p .peerInfo))
    (hgrants : ∀ i, B.id p.nodeName i → T.Grants (.id p.nodeName)) :
    Ensures (underLedger T B s.lifetime) (fun result L' =>
      Ledger.Tallied T result L' ∧ ∀ id, result = .ok id → B.id p.nodeName id ∧
        L'.known ⊆ insert (.id p.nodeName) L.known) L (peerIdOf p).run := by
  unfold peerIdOf
  refine ensures_run_bind.2 (ensures_run_lift.2 (costs_ask trivial ?_))
  rintro known ⟨hbelieved, hnew⟩
  cases known with
  | some id =>
    refine ensures_run_pure.2 ⟨hL, fun id' hid => ⟨?_, Finset.subset_insert _ _⟩⟩
    rw [← Except.ok.inj hid]
    exact hbelieved id rfl
  | none =>
    refine ensures_run_bind.2 ((costs_probeIdentity hL (hmay (hnew rfl))).mono ?_)
    rintro result L' ⟨rfl, htold⟩
    cases result with
    | error e => exact ⟨hL.call, by simp⟩
    | ok id =>
      have hid := htold id rfl
      refine ensures_run_bind.2 (ensures_run_lift.2 (costs_ask hid fun _ _ => ?_))
      refine ensures_run_pure.2 ⟨hL.call.keep_new (hnew rfl) (hgrants id hid), fun id' heq => ?_⟩
      rw [← Except.ok.inj heq]
      exact ⟨hid, Ledger.learn_known⟩

/-- The host of a node costs at most one command and brings no finding. -/
theorem costs_hostOf (hL : L.Paid T) (hmay : T.may L.known (.main p .nodeIp)) :
    Ensures (underLedger T B s.lifetime) (fun _ L' => L'.Spent T ∧ L'.known = L.known) L
      (hostOf p dns).run := by
  cases dns with
  | some name => exact ensures_run_pure.2 ⟨hL.spent, rfl⟩
  | none =>
    refine (costs_probeIp hL hmay).mono ?_
    rintro result L' rfl
    exact ⟨hL.call, rfl⟩

theorem costs_ownHost (hL : L.Paid T) (hmay : T.may L.known (.main p .nodeIp)) :
    Ensures (underLedger T B s.lifetime) (fun _ L' => L'.Spent T ∧ L'.known = L.known) L
      (ownHost p).run := by
  unfold ownHost
  split
  · refine (costs_probeIp hL hmay).mono ?_
    rintro result L' rfl
    exact ⟨hL.call, rfl⟩
  · exact ensures_run_pure.2 ⟨hL.spent, rfl⟩

/-- An address that is put together from an identifier and a host is kept as a finding, which pays for
the host. -/
theorem costs_addressed {β : Type} {f : Finding} {host : Attempt Host}
    {next : MultiAddress → Attempt β} {Q : Except ResolveError β → Ledger → Prop} (hL : L.Paid T)
    (hlets : T.Lets B p f) (hf : f ∉ L.known) (hrecord : .record p.nodeName ∉ L.known)
    (hne : f ≠ .id p.nodeName)
    (hhost : ∀ {L : Ledger}, L.Paid T → T.may L.known (.main p .nodeIp) →
      Ensures (underLedger T B s.lifetime) (fun _ L' => L'.Spent T ∧ L'.known = L.known) L host.run)
    (herror : ∀ e L', L'.Spent T → Q (.error e) L')
    (hnext : ∀ a L', B.address p.nodeName a → L'.Spent T → f ∉ L'.known → T.Grants f →
      Ensures (underLedger T B s.lifetime) Q L' (next a).run) :
    Ensures (underLedger T B s.lifetime) Q L
      (do
        let id ← peerIdOf p
        let host ← host
        let address ← ofFormat p.nodeName (MultiAddress.ofHost host id)
        next address : Attempt β).run := by
  have hidentify : .id p.nodeName ∉ L.known → T.may L.known (.main p .peerInfo) :=
    fun hid => hlets.identify _ hid hf hrecord
  refine ensures_run_bind.2 ((costs_peerIdOf hL hidentify fun i hi =>
    (hlets.identified i hi).1).mono ?_)
  rintro result L₁ ⟨htally, hid⟩
  cases result with
  | error e => exact herror e L₁ htally
  | ok id =>
    obtain ⟨hbelieved, hknown⟩ := hid id rfl
    obtain ⟨-, hgrants, hmay⟩ := hlets.identified id hbelieved
    have hunknown : ∀ {g : Finding}, g ≠ .id p.nodeName → g ∉ L.known → g ∉ L₁.known := by
      intro g hg hnew hmem
      rcases Finset.mem_insert.1 (hknown hmem) with heq | hmem
      · exact hg heq
      · exact hnew hmem
    have hf₁ := hunknown hne hf
    have hrecord₁ := hunknown (by simp) hrecord
    refine ensures_run_bind.2 ((hhost htally (hmay _ hf₁ hrecord₁)).mono ?_)
    rintro result L₂ ⟨hspent, hsame⟩
    cases result with
    | error e => exact herror e L₂ hspent
    | ok host =>
      refine ensures_run_bind.2 (ensures_ofFormat.2 ?_)
      cases hof : MultiAddress.ofHost host id with
      | error e => exact herror _ L₂ hspent
      | ok a =>
        refine hnext a L₂ (B.minted hbelieved hof) hspent (fun hmem => ?_) hgrants
        rw [hsame] at hmem
        exact hf₁ hmem

/-! ## Dependencies -/

theorem costs_probeDependency (hL : L.Paid T) (hlets : T.Lets B p (.record p.nodeName))
    (hnew : .record p.nodeName ∉ L.known) :
    Ensures (underLedger T B s.lifetime) (Ledger.Tallied T) L (probeDependency s p dns).run := by
  refine costs_addressed hL hlets hnew hnew (by simp) costs_hostOf (fun _ _ h => h) ?_
  intro a L₁ ha hspent hfresh hgrants
  refine ensures_run_bind.2 (ensures_run_lift.2 ((costs_store ha).mono ?_))
  rintro u L₂ rfl
  exact ensures_run_pure.2 (hspent.keep_new hfresh hgrants)

theorem costs_dependencyAddress (hL : L.Paid T) (hlets : T.Lets B p (.record p.nodeName)) :
    Ensures (underLedger T B s.lifetime) (Ledger.Tallied T) L (dependencyAddress s p dns).run := by
  -- What the cache answers is the same with the lock and without.
  have hknown : ∀ {known : Option MultiAddress} {L' : Ledger},
      (Except.ok (ε := ResolveError) known = .ok none ∧ .record p.nodeName ∉ L.known ∧ L' = L) ∨
        (Except.ok (ε := ResolveError) known ≠ .ok none ∧ L'.Paid T) → L'.Paid T := by
    rintro known L' (⟨-, -, rfl⟩ | ⟨-, hpaid⟩)
    · exact hL
    · exact hpaid
  unfold dependencyAddress
  refine ensures_run_bind.2 ((costs_cachedAddress hL p dns).mono ?_)
  intro result L₁ h₁
  cases result with
  | error e =>
    rcases h₁ with ⟨h, -⟩ | ⟨-, hpaid⟩
    · exact absurd h (by simp)
    · exact hpaid.spent
  | ok known =>
    cases known with
    | some a => exact ensures_run_pure.2 (hknown h₁)
    | none =>
      refine ensures_locked.2 ⟨trivial, ?_⟩
      rintro L₂ ⟨-, rfl⟩
      have hpaid := hknown h₁
      refine ensures_run_bind.2 ((costs_cachedAddress hpaid p dns).mono ?_)
      intro result L₃ h₃
      have hrelease : ∀ {r : Except ResolveError MultiAddress} {L' : Ledger},
          Ledger.Tallied T r L' →
          (underLedger T B s.lifetime).allows L' (.release p.nodeName) ∧
            ∀ L'', (underLedger T B s.lifetime).answers L' (.release p.nodeName) () L'' →
              Ledger.Tallied T r L'' := by
        intro r L' htally
        refine ⟨trivial, ?_⟩
        rintro L'' ⟨-, rfl⟩
        exact htally
      rcases h₃ with ⟨rfl, hnew, rfl⟩ | ⟨hfound, hpaid'⟩
      · exact (costs_probeDependency hpaid hlets hnew).mono fun _ _ => hrelease
      · cases result with
        | error e => exact hrelease hpaid'.spent
        | ok known =>
          cases known with
          | none => exact absurd rfl hfound
          | some a => exact ensures_run_pure.2 (hrelease (r := .ok a) hpaid')

theorem costs_segment (hL : L.Paid T) {i : Nat} {entry : String}
    (hlets : isLiteralAddress entry = false →
      ∀ d : Peer, d.nodeName = entry → T.Lets B d (.record d.nodeName)) :
    Ensures (underLedger T B s.lifetime) (Ledger.Tallied T) L (segment s p i entry).run := by
  unfold segment
  by_cases hliteral : isLiteralAddress entry = true
  · rw [if_pos hliteral]
    refine ensures_ofFormat.2 ?_
    cases MultiAddress.parse entry with
    | error e => exact hL.spent
    | ok a => exact hL
  · rw [if_neg hliteral]
    have hname : isLiteralAddress entry = false := by simpa using hliteral
    exact costs_dependencyAddress hL (hlets hname _ (dependency_nodeName s entry p))

theorem costs_assembleFrom (hL : L.Paid T) {i : Nat} {entries : List String}
    {connections : Connections}
    (hlets : ∀ entry ∈ entries, isLiteralAddress entry = false →
      ∀ d : Peer, d.nodeName = entry → T.Lets B d (.record d.nodeName)) :
    Ensures (underLedger T B s.lifetime) (Ledger.Tallied T) L
      (assembleFrom s p i entries connections).run := by
  induction entries generalizing i connections L with
  | nil => exact ensures_run_pure.2 hL
  | cons entry entries ih =>
    rw [List.forall_mem_cons] at hlets
    unfold assembleFrom
    refine ensures_run_bind.2 ((costs_segment hL hlets.1).mono ?_)
    intro result L₁ htally
    cases result with
    | error e => exact htally
    | ok a =>
      refine ensures_run_bind.2 (ensures_ofFormat.2 ?_)
      cases connections.push a.text with
      | error e => exact htally.spent
      | ok connections => exact ih htally hlets.2

/-- Bringing the dependencies in ends with the one command that nothing has to pay for. -/
theorem costs_connect (hL : L.Paid T)
    (hlets : ∀ d : Peer, p.Lists d.nodeName → T.Lets B d (.record d.nodeName))
    (hmay : ∀ known command, command.Connects → T.may known (.setup p command)) :
    Ensures (underLedger T B s.lifetime) (fun _ L' => L'.Spent T) L (connect s p).run := by
  have hsetup : ∀ {L : Ledger} {command : Command} {α : Type} {next : String → α}, L.Paid T →
      command.Connects →
      Ensures (underLedger T B s.lifetime) (fun _ L' => L'.Spent T) L
        (do
          let output ← execute (.setup p command)
          pure (next output) : Attempt α).run := by
    intro L command α next hL hcommand
    refine ensures_run_bind.2 (ensures_execute.2 ⟨⟨hL, hmay _ _ hcommand⟩, ?_⟩)
    rintro answer L' ⟨-, rfl⟩
    cases answer with
    | error e => exact hL.call
    | ok output => exact ensures_run_pure.2 hL.call
  unfold connect
  cases hlist : p.connectsTo with
  | nil => exact ensures_run_pure.2 hL.spent
  | cons dependency rest =>
    dsimp only
    by_cases henv : p.connectsAsEnvVar = true
    · rw [if_pos henv]
      exact hsetup hL trivial
    · rw [if_neg henv]
      refine ensures_run_bind.2 ((costs_assembleFrom hL ?_).mono ?_)
      · rintro entry hentry hname d rfl
        exact hlets d ⟨by simpa using henv, hentry, hname⟩
      · intro result L₁ htally
        cases result with
        | error e => exact htally
        | ok connections => exact hsetup htally trivial

/-! ## The own address -/

theorem costs_probeOwn (hL : L.Paid T) (hlets : T.Lets B p (.own p.nodeName))
    (hnew : .own p.nodeName ∉ L.known) (hgone : .record p.nodeName ∉ L.known) :
    Ensures (underLedger T B s.lifetime) (fun result L' =>
      Ledger.Tallied T result L' ∧ ∀ a, result = .ok a → B.address p.nodeName a) L
      (probeOwn p).run := by
  refine costs_addressed hL hlets hnew hgone (by simp) costs_ownHost
    (fun _ _ h => ⟨h, by simp⟩) ?_
  intro a L₁ ha hspent hfresh hgrants
  refine ensures_run_bind.2 (ensures_run_lift.2 (costs_ask ha fun _ _ => ?_))
  refine ensures_run_pure.2 ⟨hspent.keep_new hfresh hgrants, fun a' heq => ?_⟩
  rw [← Except.ok.inj heq]
  exact ha

/-- The own address of a node is noted or recorded, or pays for the probe. -/
theorem costs_ownAddress (hL : L.Paid T) (hlets : T.Lets B p (.own p.nodeName)) :
    Ensures (underLedger T B s.lifetime) (fun result L' =>
      Ledger.Tallied T result L' ∧ ∀ a, result = .ok a → B.address p.nodeName a) L
      (ownAddress p).run := by
  unfold ownAddress
  refine ensures_run_bind.2 (ensures_run_lift.2 (costs_ask trivial fun noted hnoted => ?_))
  cases noted with
  | some a =>
    refine ensures_run_pure.2 ⟨hL, fun a' heq => ?_⟩
    rw [← Except.ok.inj heq]
    exact hnoted a rfl
  | none =>
    refine ensures_locked.2 ⟨trivial, ?_⟩
    rintro L₁ ⟨-, rfl⟩
    have hkeep : ∀ {r : Except ResolveError MultiAddress} {L' : Ledger},
        (Ledger.Tallied T r L' ∧ ∀ a, r = .ok a → B.address p.nodeName a) →
        (underLedger T B s.lifetime).allows L' (.release p.nodeName) ∧
          ∀ L'', (underLedger T B s.lifetime).answers L' (.release p.nodeName) () L'' →
            Ledger.Tallied T r L'' ∧ ∀ a, r = .ok a → B.address p.nodeName a := by
      intro r L' h
      refine ⟨trivial, ?_⟩
      rintro L'' ⟨-, rfl⟩
      exact h
    -- An own address that was known and is not noted any more has been recorded.
    have hnone : (L.consult T (.recallAddress p.nodeName) none).Paid T ∧
        (.record p.nodeName ∉ (L.consult T (.recallAddress p.nodeName) none).known →
          .own p.nodeName ∉ (L.consult T (.recallAddress p.nodeName) none).known) := by
      by_cases hown : .own p.nodeName ∈ L.known
      · have hlearn : L.consult T (.recallAddress p.nodeName) none =
            L.learn T (.record p.nodeName) := if_pos ⟨rfl, hown⟩
        rw [hlearn]
        exact ⟨hL.learn, fun h => absurd Ledger.mem_learn_record h⟩
      · have hsame : L.consult T (.recallAddress p.nodeName) none = L := if_neg fun h => hown h.2
        rw [hsame]
        exact ⟨hL, fun _ => hown⟩
    obtain ⟨hpaid, hnew⟩ := hnone
    refine ensures_run_bind.2 (ensures_run_lift.2 ((costs_lookup p.nodeName).mono ?_))
    rintro known L₂ (⟨rfl, hgone, rfl⟩ | ⟨value, rfl, ⟨-, a, ha, hbelieved⟩, rfl⟩)
    · exact (costs_probeOwn hpaid hlets (hnew hgone) hgone).mono fun _ _ => hkeep
    · refine ensures_ofFormat.2 ?_
      rw [ha]
      refine hkeep (r := .ok a) ⟨hpaid.learn, fun a' heq => ?_⟩
      rw [← Except.ok.inj heq]
      exact hbelieved

/-! ## Resolving and telling -/

/-- A node that makes itself known comes to an address that is believed, and it is recorded. -/
def Located (B : Belief) (p : Peer) (result : Except ResolveError Resolution) (L : Ledger) : Prop :=
  ∀ res, result = .ok res → p.nodeType.advertises = true →
    .record p.nodeName ∈ L.known ∧ ∃ text, res.address = some text ∧ B.Record p.nodeName text

theorem costs_resolveAnew (hL : L.Paid T) (hcovers : T.Covers B p) :
    Ensures (underLedger T B s.lifetime) (fun result L' => L'.Spent T ∧ Located B p result L') L
      (resolveAnew s p).run := by
  have hfail : ∀ {e : ResolveError} {L' : Ledger}, L'.Spent T →
      L'.Spent T ∧ Located B p (.error e) L' :=
    fun h => ⟨h, fun res hres => absurd hres (by simp)⟩
  unfold resolveAnew
  by_cases hown : p.nodeType.advertises = true
  · rw [if_pos hown]
    refine ensures_run_bind.2 (ensures_run_map.2 ((costs_ownAddress hL (hcovers.own hown)).mono ?_))
    rintro result L₁ ⟨htally, ha⟩
    cases result with
    | error e => exact hfail htally
    | ok a =>
      have hbelieved := ha a rfl
      obtain ⟨hlets, hmay⟩ := hcovers.others fun _ => ⟨a, hbelieved⟩
      refine ensures_run_bind.2 ((costs_connect htally hlets hmay).mono ?_)
      intro result L₂ hspent
      cases result with
      | error e => exact hfail hspent
      | ok connections =>
        refine ensures_run_bind.2 (ensures_run_lift.2 ((costs_store hbelieved).mono ?_))
        rintro u L₃ rfl
        have hrecord := @Ledger.mem_learn_record T L₂ p.nodeName
        refine ensures_run_bind.2 (ensures_run_lift.2 (costs_ask hrecord fun _ _ => ?_))
        refine ensures_run_pure.2 ⟨hspent.keep, fun res hres _ => ⟨hrecord, a.text, ?_⟩⟩
        obtain rfl := Except.ok.inj hres
        exact ⟨rfl, B.record_text hbelieved⟩
  · rw [if_neg hown]
    obtain ⟨hlets, hmay⟩ := hcovers.others fun h => absurd h hown
    refine ensures_run_bind.2 (ensures_run_pure.2 ?_)
    refine ensures_run_bind.2 ((costs_connect hL hlets hmay).mono ?_)
    intro result L₁ hspent
    cases result with
    | error e => exact hfail hspent
    | ok connections => exact ensures_run_pure.2 ⟨hspent, fun _ _ h => absurd h hown⟩

/-- Resolving a node that is recorded costs nothing. -/
theorem costs_resolve (hL : L.Paid T) (hcovers : .record p.nodeName ∉ L.known → T.Covers B p) :
    Ensures (underLedger T B s.lifetime) (fun result L' => L'.Spent T ∧ Located B p result L') L
      (resolve s p).run := by
  unfold resolve
  refine ensures_run_bind.2 (ensures_run_lift.2 ((costs_lookup p.nodeName).mono ?_))
  rintro known L₁ (⟨rfl, hnone, rfl⟩ | ⟨value, rfl, hrecord, rfl⟩)
  · exact costs_resolveAnew hL (hcovers hnone)
  · refine ensures_run_bind.2 (ensures_run_lift.2
      (costs_ask (q := .register p.nodeName value p.space) trivial fun _ _ => ?_))
    refine ensures_run_pure.2 ⟨hL.learn.spent, fun res hres _ => ⟨Ledger.mem_learn_record, value, ?_⟩⟩
    obtain rfl := Except.ok.inj hres
    exact ⟨rfl, hrecord⟩

/-- Writes that tell a group records that are believed, one of a node among them. -/
def Announces (B : Belief) (g : PeerGroup) (node : String) (writes : List TrustWrite) : Prop :=
  ∃ records, writes = g.trustWrites records ∧ (∀ r ∈ records, B.Record r.1 r.2) ∧
    ∃ value, (node, value) ∈ records

theorem costs_propagate {node : String} (hL : L.Spent T) (hrecord : .record node ∈ L.known)
    (htells : ∀ g writes, s.config.groupOf? node = some g → Announces B g node writes →
      T.tells writes) :
    Ensures (underLedger T B s.lifetime) (fun _ L' => L'.Spent T ∧
      ∀ g, s.config.groupOf? node = some g → ∃ writes ∈ L'.told, Announces B g node writes) L
      (propagate s node) := by
  unfold propagate
  cases hgroup : s.config.groupOf? node with
  | none => exact ensures_pure.2 ⟨hL, by simp⟩
  | some g =>
    refine ensures_bind.2 (costs_ask trivial fun answer hfair => ?_)
    obtain ⟨records, rfl, hbelieved, hlisted⟩ := hfair
    have hwrites : Announces B g node (g.trustWrites records) :=
      ⟨records, rfl, hbelieved, hlisted node hrecord⟩
    dsimp only
    rw [map_eq_pure_bind]
    refine ensures_bind.2 ((@ensures_perform Ledger (underLedger T B s.lifetime) _
      (.propagate (g.trustWrites records)) _).2 ⟨htells g _ hgroup hwrites, ?_⟩)
    rintro report L' ⟨-, rfl⟩
    refine ensures_pure.2 ⟨hL, fun g' hg' => ⟨_, List.mem_cons_self, ?_⟩⟩
    rw [← Option.some.inj hg']
    exact hwrites

/-- A node that makes itself known comes to an address that is believed, and its group is told of
it. -/
def Heralded (s : Settings) (B : Belief) (p : Peer) (result : Except ResolveError Resolution)
    (L : Ledger) : Prop :=
  ∀ res, result = .ok res → p.nodeType.advertises = true →
    (∃ text, res.address = some text ∧ B.Record p.nodeName text) ∧
      ∀ g, s.config.groupOf? p.nodeName = some g →
        ∃ writes ∈ L.told, Announces B g p.nodeName writes

/-- Processing a node costs what resolving it costs, and tells its group of it. -/
theorem costs_process (hL : L.Paid T) (hcovers : .record p.nodeName ∉ L.known → T.Covers B p)
    (htells : p.nodeType.advertises = true → ∀ g writes, s.config.groupOf? p.nodeName = some g →
      Announces B g p.nodeName writes → T.tells writes) :
    Ensures (underLedger T B s.lifetime) (fun result L' => L'.Spent T ∧ Heralded s B p result L') L
      (process s p).run := by
  unfold process
  refine ensures_run_bind.2 (ensures_run_lift.2 (costs_ask trivial fun cancelled _ => ?_))
  cases cancelled with
  | true => exact ensures_run_throw.2 ⟨hL.spent, fun res hres => absurd hres (by simp)⟩
  | false =>
    refine ensures_run_bind.2 ((costs_resolve hL hcovers).mono ?_)
    rintro result L₁ ⟨hspent, hrecorded⟩
    cases result with
    | error e => exact ⟨hspent, fun res hres => absurd hres (by simp)⟩
    | ok res =>
      by_cases hown : p.nodeType.advertises = true
      · obtain ⟨hrecord, haddress⟩ := hrecorded res rfl hown
        dsimp only
        rw [if_pos hown]
        refine ensures_run_bind.2 (ensures_run_lift.2
          ((costs_propagate hspent hrecord (htells hown)).mono ?_))
        rintro report L₂ ⟨hspent, htold⟩
        refine ensures_run_pure.2 ⟨hspent, fun res' hres' _ => ⟨?_, htold⟩⟩
        rw [← Except.ok.inj hres']
        exact haddress
      · dsimp only
        rw [if_neg hown]
        exact ensures_run_pure.2 ⟨hspent, fun _ _ h => absurd h hown⟩

end Resolve

end Rendezvous
