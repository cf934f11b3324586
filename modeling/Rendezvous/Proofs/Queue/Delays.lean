import Rendezvous.Proofs.Queue.Punctuality
import Rendezvous.Proofs.Time.Seconds

/-!
# The delays of retries

The exponent of a delay has 32 bits and a sign, so it is the number of the retries before it up to
retry number `2 ^ 31`, and negative from the next one on. Up to there, and for a factor from one
upwards, no retry is made earlier after its attempt than the first one after its own.
-/

namespace Rendezvous

namespace Double

theorem bits_least {x y : Float} (hx : bits x ≤ infinityBits) (hy : bits y ≤ infinityBits) :
    bits (Backoff.least x y) = min (bits x) (bits y) := by
  unfold Backoff.least
  rw [isNaN_eq_false hx, isNaN_eq_false hy, if_neg (by decide), if_neg (by decide)]
  by_cases hless : y < x
  · rw [if_pos hless]
    exact (Nat.min_eq_right ((lt_iff hy hx).1 hless).le).symm
  · rw [if_neg hless]
    exact (Nat.min_eq_left (Nat.le_of_not_lt (mt (lt_iff hy hx).2 hless))).symm

theorem least_of_isNaN {x y : Float} (hx : x.isNaN = true) : Backoff.least x y = y := by
  unfold Backoff.least
  rw [if_pos hx]

end Double

open Double

/-! ## Exponents -/

theorem Backoff.exponent_eq {n : Nat} (h : n ≤ 2 ^ 31) :
    Backoff.exponent n = ((n - 1 : Nat) : Int) := by
  unfold Backoff.exponent
  rw [Int.bmod_def]
  omega

theorem Backoff.exponent_wrapped {n : Nat} (h : 2 ^ 31 < n) (h' : n ≤ 2 ^ 32) :
    Backoff.exponent n = (n : Int) - 1 - 2 ^ 32 := by
  unfold Backoff.exponent
  rw [Int.bmod_def]
  omega

/-! ## Delays -/

namespace RetryPolicy

variable {p : RetryPolicy} {n : Nat}

/-- The seconds before a retry, which are not rounded to nanoseconds yet. -/
def delaySeconds (p : RetryPolicy) (n : Nat) : Float :=
  Backoff.least
    (p.initialDelay.toSeconds * Backoff.power p.backoffFactor (Backoff.exponent n))
    p.maxDelay.toSeconds

/-- Nothing is lost before the first retry, where the power is one, and no other power makes the
delay less. -/
theorem bits_delaySeconds (hfactor : 1.0 ≤ p.backoffFactor) (hn : n ≤ 2 ^ 31) :
    bits (p.delaySeconds 1) ≤ bits (p.delaySeconds n) ∧
      bits (p.delaySeconds n) ≤ bits p.maxDelay.toSeconds := by
  have hinitial := Duration.bits_toSeconds_le p.initialDelay
  have hmax := Duration.bits_toSeconds_le p.maxDelay
  have hpower := (oneOrMore_of_le hfactor).power (n - 1)
  have hone : Backoff.power p.backoffFactor (Backoff.exponent 1) = 1.0 := by
    rw [Backoff.exponent_eq (by decide)]
    exact power_zero _
  have hfirst : bits (p.initialDelay.toSeconds * 1.0) = bits p.initialDelay.toSeconds :=
    bits_mul_one hinitial
  unfold delaySeconds
  rw [hone, bits_least (hfirst ▸ hinitial) hmax, hfirst, Backoff.exponent_eq hn]
  rcases mul_cases hinitial hpower.2 hpower.1 with ⟨hnan, -⟩ | ⟨hle, hle'⟩
  · rw [least_of_isNaN hnan]
    omega
  · rw [bits_least hle' hmax]
    omega

theorem backoff?_first_le (hfactor : 1.0 ≤ p.backoffFactor) (hn : n ≤ 2 ^ 31) {delay : Duration}
    (h : p.backoff? n = some delay) :
    ∃ first, p.backoff? 1 = some first ∧ first.nanos ≤ delay.nanos := by
  obtain ⟨hle, hmax⟩ := bits_delaySeconds hfactor hn
  exact Duration.ofSeconds?_mono hle (hmax.trans (Duration.bits_toSeconds_le _)) h

theorem backoff?_le_longest (hfactor : 1.0 ≤ p.backoffFactor) (hn : n ≤ 2 ^ 31)
    {longest : Duration} (h : Duration.ofSeconds? p.maxDelay.toSeconds = some longest) :
    ∃ delay, p.backoff? n = some delay ∧ delay.nanos ≤ longest.nanos :=
  Duration.ofSeconds?_mono (bits_delaySeconds hfactor hn).2 (Duration.bits_toSeconds_le _) h

end RetryPolicy

/-! ## Every retry is made -/

namespace QueueStage

variable {s t : QueueStage} {log : List QueueEvent} {policy : RetryPolicy} {now due : Instant}
  {w : WorkItem} {q : RetryQueue}

/-- Just one item waits in a queue after the arrivals are pulled, and it is due. -/
structure Alone (policy : RetryPolicy) (now : Instant) (w : WorkItem) (q : RetryQueue) : Prop where
  policy_eq : q.policy = policy
  pending : ∃ slot, (q.pullArrivals now).pending = [(slot, w)] ∧ slot.due ≤ now

theorem Alone.begin (h : Alone policy now w q) :
    ∃ queue : RetryQueue, Drain.begin q now now = { queue, waiting := [(0, w)] } ∧
      queue.policy = policy ∧ queue.arrivals = [] ∧ queue.pending = [] := by
  obtain ⟨slot, hpending, hdue⟩ := h.pending
  refine ⟨(Drain.begin q now now).queue, ?_, ?_, Drain.begin_arrivals q now now, ?_⟩
  · simp [Drain.begin, RetryQueue.takeDue, hpending, hdue]
  · rw [← h.policy_eq]
    exact RetryQueue.pullArrivals_policy q now
  · rw [Drain.begin_queue]
    simp [RetryQueue.takeDue, hpending, hdue]

theorem schedule_alone (h : q.pending = []) (w : WorkItem) (due : Instant) :
    (q.schedule w due).pending = [(⟨due, q.seq + 1⟩, w)] := by
  unfold RetryQueue.schedule
  rw [h]
  cases q.index.get? w.node <;> rfl

/-- How an attempt ends whose probe comes back blank. -/
def blank (w : WorkItem) : WorkEnding := .value (.error (.emptyIdentity w.node))

/-- The drain when the attempt at the only item has failed. -/
def attempted (queue : RetryQueue) (w : WorkItem) : Drain :=
  { queue, waiting := [], ended := [(w, blank w)] }

theorem Alone.attempt (h : Alone policy now w q) :
    ∃ log queue, Run Move (.idle q) log (.draining (attempted queue w)) ∧
      queue.policy = policy ∧ queue.arrivals = [] ∧ queue.pending = [] := by
  obtain ⟨queue, hbegin, hqueue⟩ := h.begin
  have hbegun := Run.single (Move.begin q (Nat.le_refl now))
  rw [hbegin] at hbegun
  have hfree : 0 < queue.policy.slots := by
    unfold RetryPolicy.slots
    omega
  have hended := (hbegun.tail (.work (.start (w := (0, w)) List.mem_cons_self hfree))).tail
    (.work (.finish (w := (0, w)) List.mem_cons_self (blank w)))
  have hattempted : (Drain.place { queue, waiting := [(0, w)] } (0, w)).finish 0 (blank w) =
      attempted queue w := by
    simp [attempted, Drain.place, Drain.finish]
  rw [hattempted] at hended
  exact ⟨_, queue, hended, hqueue⟩

theorem settle?_attempted (hretries : w.retries < q.policy.maxRetries) {delay : Duration}
    (hdelay : q.policy.backoff? (w.retries + 1) = some delay)
    (hdue : Instant.after? now delay = some due) :
    Drain.settle? { attempted q w with ended := [] } now w (blank w) =
      some { queue := q.schedule w.retry due, waiting := [], report := { retried := [w.node] } } := by
  have hverdict : RetryQueue.verdict q.policy w (.emptyIdentity w.node) = .retry := by
    simp [RetryQueue.verdict, ResolveError.isFormat, hretries]
  have hretry : q.retry? w now = some (q.schedule w.retry due) := by
    rw [RetryQueue.retry?_eq, hdelay, Option.bind_some, hdue, Option.map_some]
  simp [attempted, Drain.settle?, blank, hverdict, hretry]

/-- A drain attempts the only item, which fails and is alone again when its retry is due. -/
theorem Alone.round (h : Alone policy now w q) (hretries : w.retries < policy.maxRetries)
    {delay : Duration} (hdelay : policy.backoff? (w.retries + 1) = some delay)
    (hdue : Instant.after? now delay = some due) :
    ∃ log q', Run Move (.idle q) (log ++ [.settled now w (blank w), .scheduled due w.retry])
      (.idle q') ∧ Alone policy due w.retry q' := by
  obtain ⟨log, queue, hended, rfl, harrivals, hpending⟩ := h.attempt
  have hfate : Fate.of queue.policy w (blank w) = .retried := by
    simp [Fate.of, blank, ResolveError.isFormat, hretries]
  have hleft : leftover? (attempted queue w).queue.policy now w (blank w) =
      some (due, w.retry) := by
    simp [attempted, leftover?, hfate, hdelay, hdue]
  have hjoin := @Drain.Move.join (attempted queue w) _ now w (blank w) [] [] rfl
    (settle?_attempted hretries hdelay hdue)
  rw [settlement, hleft] at hjoin
  have hclosed := (hended.tail (.work hjoin)).tail (.close rfl)
  rw [List.append_nil] at hclosed
  refine ⟨_, _, hclosed, rfl, ⟨due, queue.seq + 1⟩, ?_, Nat.le_refl _⟩
  -- nothing has arrived in the meantime, so nothing is pulled
  rw [RetryQueue.pullArrivals_eq]
  simp only [Drain.close, RetryQueue.schedule, harrivals, List.foldl_nil]
  exact schedule_alone hpending w.retry due

/-- A peer whose attempts all fail is retried until no retries are left, or the clock ends. -/
theorem alone_reached (hfactor : 1.0 ≤ policy.backoffFactor) {longest : Duration}
    (hlongest : Duration.ofSeconds? policy.maxDelay.toSeconds = some longest) (p : Peer) {n : Nat}
    (hn : n ≤ policy.maxRetries) (hlast : n ≤ 2 ^ 31)
    (hclock : n * longest.nanos < Instant.secsLimit * nanosPerSec) :
    ∃ log q now, Run Move (.idle { policy }) log (.idle q) ∧ Alone policy now ⟨p, n⟩ q ∧
      now ≤ n * longest.nanos := by
  induction n with
  | zero =>
    refine ⟨_, _, 0, .single (.enqueue _ p), ⟨rfl, ⟨0, 1⟩, ?_, Nat.le_refl _⟩, Nat.zero_le _⟩
    exact schedule_alone rfl ⟨p, 0⟩ 0
  | succ n ih =>
    rw [Nat.succ_mul] at hclock ⊢
    obtain ⟨log, q, now, hrun, halone, hnow⟩ := ih (by omega) (by omega) (by omega)
    obtain ⟨delay, hdelay, hle⟩ := RetryPolicy.backoff?_le_longest hfactor hlast hlongest
    have hdue : Instant.after? now delay = some (now + delay.nanos) := by
      unfold Instant.after?
      exact if_pos ((Nat.add_le_add hnow hle).trans_lt hclock)
    obtain ⟨more, q', hround, halone'⟩ := halone.round hn hdelay hdue
    exact ⟨_, _, _, hrun.trans hround, halone', Nat.add_le_add hnow hle⟩

/-! ## Every delay that is scheduled -/

/-- What a queue promises about the delay before retry number `n`. -/
structure Spaced (policy : RetryPolicy) (n : Nat) (delay : Duration) : Prop where
  /-- The retries are counted from one, and are no more than the policy allows. -/
  counted : 1 ≤ n ∧ n ≤ policy.maxRetries
  /-- The delay is that of this number, -/
  delay_eq : policy.backoff? n = some delay
  /-- whose exponent is the number of the retries before it, up to retry number `2 ^ 31` -/
  exponent : n ≤ 2 ^ 31 → Backoff.exponent n = (n : Int) - 1
  /-- and from there on, as far as retries are counted in 32 bits, is negative. -/
  wrapped : 2 ^ 31 < n → n < 2 ^ 32 → Backoff.exponent n = (n : Int) - 1 - 2 ^ 32 ∧
    Backoff.exponent n < 0
  /-- As long as it is not, a factor from one upwards makes no delay shorter than the first one. -/
  first_le : 1.0 ≤ policy.backoffFactor → n ≤ 2 ^ 31 →
    ∃ first, policy.backoff? 1 = some first ∧ first.nanos ≤ delay.nanos

/-- Whatever has happened to a queue, an item that is retried is scheduled after the delay of the
retry, and the delays of the first `2 ^ 31` retries are as they are meant to be. -/
theorem retries_spaced (h : Run Move (.idle { policy }) log s) {before after : List QueueEvent}
    {ending : WorkEnding} (hlog : log = before ++ .settled now w ending :: after)
    (hfate : Fate.of policy w ending = .retried) :
    ∃ delay rest, after = .scheduled (now + delay.nanos) w.retry :: rest ∧
      Spaced policy (w.retries + 1) delay := by
  obtain ⟨delay, rest, u, hdelay, hafter, -⟩ := Moves.retried h hlog hfate
  refine ⟨delay, rest, hafter, ?_, hdelay, fun hle => ?_, fun hlarge hlimit => ?_, ?_⟩
  · exact ⟨Nat.le_add_left 1 _, Fate.retries_lt hfate⟩
  · rw [Backoff.exponent_eq hle]
    omega
  · rw [Backoff.exponent_wrapped hlarge hlimit.le]
    omega
  · exact fun hfactor hle => RetryPolicy.backoff?_first_le hfactor hle hdelay

/-- A node never answers and is retried for some four thousand years, with delays that have doubled
from five seconds to a minute. Then a retry is due at once. -/
theorem retries_spaced_wrapped : ∃ log s now,
    Run Move (.idle { policy := { maxRetries := 4294967295 } })
      (log ++ [.settled now ⟨{ nodeName := "da-one" }, 2147483648⟩
          (blank ⟨{ nodeName := "da-one" }, 2147483648⟩),
        .scheduled now ⟨{ nodeName := "da-one" }, 2147483649⟩]) s ∧
    Spaced { maxRetries := 4294967295 } 2147483649 ⟨0⟩ := by
  let policy : RetryPolicy := { maxRetries := 4294967295 }
  let w : WorkItem := ⟨{ nodeName := "da-one" }, 2147483648⟩
  have hlongest : Duration.ofSeconds? policy.maxDelay.toSeconds = some ⟨60000000000⟩ := by
    decide +kernel
  have hdelay : policy.backoff? (w.retries + 1) = some ⟨0⟩ := by decide +kernel
  obtain ⟨log, q, now, hrun, halone, hnow⟩ := alone_reached (by decide +kernel) hlongest w.peer
    (n := w.retries) (by decide) (by decide) (by decide)
  have hdue : Instant.after? now ⟨0⟩ = some now :=
    if_pos (hnow.trans_lt (by decide))
  obtain ⟨more, q', hround, -⟩ := halone.round (by decide) hdelay hdue
  have hall := hrun.trans hround
  rw [← List.append_assoc] at hall
  obtain ⟨delay, rest, -, hspaced⟩ := retries_spaced hall rfl rfl
  obtain rfl := Option.some.inj (hspaced.delay_eq.symm.trans hdelay)
  exact ⟨_, _, now, hall, hspaced⟩

end QueueStage

end Rendezvous
