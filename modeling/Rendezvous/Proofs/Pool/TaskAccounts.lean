import Mathlib.Logic.Function.Basic
import Rendezvous.Proofs.Pool.Tasks
import Rendezvous.Proofs.Resolve.Ledgers

/-!
# Tasks that are kept in line with a ledger

Each task of a pool has an account: the terms of its work, a ledger of what it has found and done, and
what it is to come to. As long as the memory is faithful and every task ensures its aim in
surroundings that go by its ledger, whatever task has a turn finds the memory in line with its own
ledger, and leaves it in line with all the others.
-/

namespace Rendezvous

open Routine

/-! ## Accounts -/

/-- What a task has to keep to, what it is to come to, and what it has found and done. -/
structure TaskAccount (α : Type) where
  /-- The terms of its work. -/
  terms : Terms := {}
  /-- What it is to come to. -/
  aim : α → Ledger → Prop := fun _ _ => True
  /-- What it has found and done. -/
  ledger : Ledger := {}

namespace Ledger

variable {T : Terms} {L : Ledger} {q : Query} {answer : q.Answer} {t : List TaskEvent}

/-- From an answer of the memory at most one thing is learnt, or one is kept. -/
theorem consult_cases (L : Ledger) (T : Terms) (q : Query) (answer : q.Answer) :
    L.consult T q answer = L ∨ (∃ f, L.consult T q answer = L.learn T f) ∨
      ∃ f, (TaskEvent.consulted q answer).found? = some f ∧ L.consult T q answer = L.keep T f := by
  unfold consult
  cases q with
  | cacheGet node =>
    dsimp only
    split
    · exact Or.inr (Or.inl ⟨_, rfl⟩)
    · exact Or.inl rfl
  | recallAddress node =>
    dsimp only
    split
    · exact Or.inr (Or.inl ⟨_, rfl⟩)
    · exact Or.inl rfl
  | cacheSet node value lifetime => exact Or.inr (Or.inr ⟨_, rfl, rfl⟩)
  | noteId node id => exact Or.inr (Or.inr ⟨_, rfl, rfl⟩)
  | noteAddress node a => exact Or.inr (Or.inr ⟨_, rfl, rfl⟩)
  | _ => exact Or.inl rfl

/-- The propagations of a ledger have been started. -/
theorem mem_told_foldl {writes : List TrustWrite} (h : writes ∈ (t.foldl (note T) L).told) :
    writes ∈ L.told ∨ .told writes ∈ t := by
  induction t generalizing L with
  | nil => exact Or.inl h
  | cons e t ih =>
    rw [List.foldl_cons] at h
    rcases ih h with hmem | hmem
    · cases e with
      | told writes' =>
        rcases List.mem_cons.1 hmem with rfl | hmem
        · exact Or.inr List.mem_cons_self
        · exact Or.inl hmem
      | consulted q answer =>
        have htold : (L.consult T q answer).told = L.told := by
          rcases consult_cases L T q answer with h | ⟨f, h⟩ | ⟨f, -, h⟩
          · rw [h]
          · rw [h, learn_told]
          · rw [h]
            exact learn_told
        refine Or.inl ?_
        rw [← htold]
        exact hmem
      | _ => exact Or.inl hmem
    · exact Or.inr (List.mem_cons_of_mem _ hmem)

theorem known_note (T : Terms) (L : Ledger) (e : TaskEvent) : L.known ⊆ (L.note T e).known := by
  cases e with
  | consulted q answer =>
    show L.known ⊆ (L.consult T q answer).known
    rcases L.consult_cases T q answer with h | ⟨f, h⟩ | ⟨f, -, h⟩
    · rw [h]
    · rw [h]
      exact known_learn
    · rw [h]
      exact @known_learn T L f
  | _ => exact Finset.Subset.refl _

/-- As long as nothing is kept, no command is made up for. -/
theorem idle_note {e : TaskEvent} (he : e.found? = none) : L.idle ≤ (L.note T e).idle := by
  cases e with
  | called request => exact Nat.le_succ L.idle
  | consulted q answer =>
    show L.idle ≤ (L.consult T q answer).idle
    rcases L.consult_cases T q answer with h | ⟨f, h⟩ | ⟨f, hf, -⟩
    · rw [h]
    · rw [h, learn_idle]
    · rw [he] at hf
      exact absurd hf (by simp)
  | _ => exact le_refl _

end Ledger

namespace Ledger

variable {T : Terms} {L : Ledger} {m m' : Memory}

/-- A ledger is in line with a memory and with its terms. -/
structure Sound (m : Memory) (T : Terms) (L : Ledger) : Prop where
  /-- What is known is kept. -/
  backed : m.Backs L
  /-- Only what is followed is known. -/
  tracked : ∀ f ∈ L.known, T.Tracks f
  /-- There are no more commands than there may be. -/
  spent : L.Spent T

theorem Sound.mono (h : L.Sound m T) (hkeep : ∀ f, m.Has f → m'.Has f) : L.Sound m' T :=
  ⟨h.backed.mono hkeep, h.tracked, h.spent⟩

theorem Sound.consult (h : L.Sound m T) {q : Query} {answer : q.Answer}
    (hbacked : m'.Backs (L.consult T q answer)) : (L.consult T q answer).Sound m' T := by
  have htracked : ∀ f, ∀ g ∈ (L.learn T f).known, T.Tracks g := by
    intro f
    rw [Ledger.learn]
    split
    · rename_i htracks
      intro g hg
      rcases Finset.mem_insert.1 hg with rfl | hg
      · exact htracks
      · exact h.tracked g hg
    · exact h.tracked
  rcases L.consult_cases T q answer with heq | ⟨f, heq⟩ | ⟨f, -, heq⟩
  · rw [heq] at hbacked ⊢
    exact ⟨hbacked, h.tracked, h.spent⟩
  · rw [heq] at hbacked ⊢
    exact ⟨hbacked, htracked f, h.spent.learn⟩
  · rw [heq] at hbacked ⊢
    exact ⟨hbacked, htracked f, h.spent.keep⟩

theorem Sound.call (h : L.Sound m T) (hpaid : L.Paid T) : L.call.Sound m T :=
  ⟨h.backed, h.tracked, hpaid.call⟩

theorem Sound.grant (h : L.Sound m T) : L.grant.Sound m T :=
  ⟨h.backed, h.tracked, h.spent.grant.spent⟩

/-- What is forgotten of a node does no harm to a ledger that does not follow it. -/
theorem Sound.forget (h : L.Sound m T) {node : String} (hid : ¬ T.Tracks (.id node))
    (hown : ¬ T.Tracks (.own node)) : L.Sound { m with memos := m.memos.forget node } T := by
  refine ⟨fun f hf => Memory.has_forget (h.backed f hf) ?_ ?_, h.tracked, h.spent⟩
  · rintro rfl
    exact hid (h.tracked _ hf)
  · rintro rfl
    exact hown (h.tracked _ hf)

theorem Sound.cancel (h : L.Sound m T) : L.Sound { m with cancelled := true } T :=
  h.mono fun f hf => by cases f <;> exact hf

theorem sound_new (m : Memory) (T : Terms) : Sound m T {} :=
  ⟨fun _ hf => absurd hf (Finset.notMem_empty _), fun _ hf => absurd hf (Finset.notMem_empty _),
    fun _ => Nat.zero_le _⟩

end Ledger

namespace TaskAccount

variable {α : Type} {st : TaskAccount α} {m : Memory}

/-- The account when its task has gone through some events. -/
def after (st : TaskAccount α) (t : List TaskEvent) : TaskAccount α :=
  { st with ledger := t.foldl (Ledger.note st.terms) st.ledger }

@[simp] theorem after_nil (st : TaskAccount α) : st.after [] = st := rfl

theorem after_append (st : TaskAccount α) (t t' : List TaskEvent) :
    st.after (t ++ t') = (st.after t).after t' := by
  simp [after, List.foldl_append]

/-- What the task may start. -/
def Licenses (st : TaskAccount α) : TaskEvent → Prop
  | .called request => st.ledger.Paid st.terms ∧ st.terms.may st.ledger.known request
  | .told writes => st.terms.tells writes
  | _ => True

/-- The ledger is in line with the memory and with its terms. -/
def Sound (m : Memory) (st : TaskAccount α) : Prop := st.ledger.Sound m st.terms

end TaskAccount

/-! ## Tasks in line with their accounts -/

/-- What is left of a task comes to its aim, in surroundings that go by its ledger. -/
def Activity.InLine {α : Type} (w : World) (B : Belief) (lifetime : Duration) (st : TaskAccount α) :
    Activity α → Prop
  | .ready r => r.Ensures (underLedger st.terms B lifetime) st.aim st.ledger
  | .calling request next => ∀ answer, w.brings request answer →
    (next answer).Ensures (underLedger st.terms B lifetime) st.aim st.ledger
  | .propagating _ next => ∀ report,
    (next report).Ensures (underLedger st.terms B lifetime) st.aim st.ledger
  | .ended (.value a) => st.aim a st.ledger
  | .ended _ => True

namespace Pool

variable {α : Type} {w : World} {B : Belief} {lifetime : Duration} {p p' : Pool α}
  {st : Nat → TaskAccount α} {shown : List (Nat × TaskEvent)} {i : Nat}

/-- The memory is faithful, and every task is on the way to its aim and in line with its ledger. -/
structure InLine (w : World) (B : Belief) (lifetime : Duration) (p : Pool α)
    (st : Nat → TaskAccount α) : Prop where
  /-- The memory is faithful. -/
  memory : p.memory.Faithful w B
  /-- Every task is on the way to its aim. -/
  tasks : ∀ {i} {a : Activity α}, p.tasks[i]? = some a → a.InLine w B lifetime (st i)
  /-- Every ledger is in line with the memory. -/
  sound : ∀ i, (st i).Sound p.memory

/-- One task goes on and takes nothing from the memory. -/
theorem InLine.step (h : InLine w B lifetime p st) {t : List TaskEvent} {a' : Activity α}
    (htasks : ∀ j, p'.tasks[j]? = if i = j then some a' else p.tasks[j]?)
    (hshown : ∀ j, own j shown = if i = j then t else [])
    (hmemory : p'.memory.Faithful w B) (hkeep : ∀ f, p.memory.Has f → p'.memory.Has f)
    (hline : a'.InLine w B lifetime ((st i).after t))
    (hsound : ((st i).after t).Sound p'.memory) :
    InLine w B lifetime p' fun j => (st j).after (own j shown) := by
  refine ⟨hmemory, ?_, ?_⟩
  · intro j a ha
    rw [htasks] at ha
    rw [hshown]
    by_cases hij : i = j
    · subst hij
      rw [if_pos rfl, Option.some.injEq] at ha
      subst ha
      rwa [if_pos rfl]
    · rw [if_neg hij] at ha
      rw [if_neg hij]
      exact h.tasks ha
  · intro j
    rw [hshown]
    by_cases hij : i = j
    · subst hij
      rwa [if_pos rfl]
    · rw [if_neg hij]
      exact Ledger.Sound.mono (h.sound j) hkeep

/-- A turn of a task keeps the pool in line, and the task starts only what it may. -/
theorem Turn.inLine (hw : w.Trusty B lifetime) (h : Turn w p shown p')
    (ht : InLine w B lifetime p st) :
    (InLine w B lifetime p' fun j => (st j).after (own j shown)) ∧
      ∀ e ∈ shown, (st e.1).Licenses e.2 := by
  have hone : ∀ (i : Nat) (e : TaskEvent) (j : Nat), own j [(i, e)] = if i = j then [e] else [] := by
    intro i e j
    by_cases hj : i = j
    · subst hj
      rw [if_pos rfl, own_self]
    · rw [if_neg hj, own_other (Ne.symm hj)]
  cases h with
  | @finish i a ha =>
    refine ⟨ht.step (t := []) (p.set_tasks ha _) (by simp) ht.memory (fun _ h => h) ?_ (ht.sound i),
      by simp⟩
    have hdone : Routine.Ensures (underLedger (st i).terms B lifetime) (st i).aim (st i).ledger
      (.done a) := ht.tasks ha
    show (st i).aim a (st i).ledger
    exact ensures_done.1 hdone
  | @consult i q next now answer memory ha hnow hm =>
    obtain ⟨hallows, hnext⟩ := ensures_ask.1 (ht.tasks ha)
    obtain ⟨hfair, hfaithful, hbacks, hkeep⟩ :=
      ht.memory.consult hw (ht.sound i).backed hallows hnow hm
    refine ⟨ht.step (set_tasks { p with memory } ha _) (hone i _) hfaithful hkeep ?_
      (Ledger.Sound.consult (ht.sound i) hbacks), by simp [TaskAccount.Licenses]⟩
    exact hnext answer _ ⟨hfair, rfl⟩
  | @call i request next ha =>
    obtain ⟨⟨hpaid, hmay⟩, hnext⟩ := ensures_ask.1 (ht.tasks ha)
    refine ⟨ht.step (p.set_tasks ha _) (hone i _) ht.memory (fun _ h => h) ?_
      (Ledger.Sound.call (ht.sound i) hpaid), ?_⟩
    · intro answer hbrings
      exact hnext answer _ ⟨fun id htold => hw.told request answer id hbrings htold, rfl⟩
    · intro e he
      obtain rfl := List.mem_singleton.1 he
      exact ⟨hpaid, hmay⟩
  | @answer i request next answer ha hbrings =>
    refine ⟨ht.step (p.set_tasks ha _) (hone i _) ht.memory (fun _ h => h) ?_ (ht.sound i),
      by simp [TaskAccount.Licenses]⟩
    exact ht.tasks ha answer hbrings
  | @acquire i node next ha hfree =>
    obtain ⟨-, hnext⟩ := ensures_ask.1 (ht.tasks ha)
    refine ⟨ht.step (set_tasks { p with locks := p.locks.put node i } ha _) (hone i _) ht.memory
      (fun _ h => h) ?_ (ht.sound i), by simp [TaskAccount.Licenses]⟩
    exact hnext () _ ⟨trivial, rfl⟩
  | @release i node next ha =>
    obtain ⟨-, hnext⟩ := ensures_ask.1 (ht.tasks ha)
    refine ⟨ht.step (set_tasks { p with locks := p.locks.erase node } ha _) (hone i _) ht.memory
      (fun _ h => h) ?_ (ht.sound i), by simp [TaskAccount.Licenses]⟩
    exact hnext () _ ⟨trivial, rfl⟩
  | @tell i writes next ha =>
    obtain ⟨htells, hnext⟩ := ensures_ask.1 (ht.tasks ha)
    refine ⟨ht.step (p.set_tasks ha _) (hone i _) ht.memory (fun _ h => h) ?_
      ⟨(ht.sound i).backed, (ht.sound i).tracked, (ht.sound i).spent⟩, ?_⟩
    · intro report
      exact hnext report _ ⟨trivial, rfl⟩
    · intro e he
      obtain rfl := List.mem_singleton.1 he
      exact htells
  | @write i run run' next ha hrun =>
    have hrest : Activity.InLine w B lifetime (st i) (.propagating run next) := ht.tasks ha
    exact ⟨ht.step (t := []) (p.set_tasks ha (.propagating run' next)) (by simp) ht.memory
      (fun _ h => h) hrest (ht.sound i), by simp⟩
  | @report i run run' next ha hrun =>
    refine ⟨ht.step (p.set_tasks ha _) (hone i _) ht.memory (fun _ h => h) ?_ (ht.sound i),
      by simp [TaskAccount.Licenses]⟩
    exact ht.tasks ha run'.report

/-- Nothing that is kept in the memory is lost by a turn. -/
theorem Turn.keeps (hw : w.Trusty B lifetime) (h : Turn w p shown p') (ht : InLine w B lifetime p st)
    (f : Finding) (hf : p.memory.Has f) : p'.memory.Has f := by
  cases h with
  | @consult i q next now answer memory ha hnow hm =>
    obtain ⟨hallows, -⟩ := ensures_ask.1 (ht.tasks ha)
    obtain ⟨-, -, -, hkeep⟩ := ht.memory.consult hw (ht.sound i).backed hallows hnow hm
    exact hkeep f hf
  | _ => exact hf

/-! ## What comes from outside -/

/-- A task that is cut off is no longer on the way to anything. -/
theorem InLine.drop (h : InLine w B lifetime p st) {a : Activity α} (ha : p.tasks[i]? = some a)
    {ending : Ending α} (hcut : ending.value? = none) :
    InLine w B lifetime (p.drop i ending) st := by
  refine ⟨h.memory, ?_, h.sound⟩
  intro j b hb
  have htasks := p.set_tasks ha (.ended ending) j
  rw [show (p.drop i ending).tasks = (p.set i (.ended ending)).tasks from rfl, htasks] at hb
  by_cases hij : i = j
  · rw [if_pos hij, Option.some.injEq] at hb
    subst hb
    cases ending with
    | value a => exact absurd hcut (by simp [Ending.value?])
    | crashed => trivial
    | aborted => trivial
  · rw [if_neg hij] at hb
    exact h.tasks hb

/-- A new task has an account of its own. -/
theorem InLine.spawn (h : InLine w B lifetime p st) {r : Routine α} {new : TaskAccount α}
    (hr : r.Ensures (underLedger new.terms B lifetime) new.aim new.ledger)
    (hnew : new.Sound p.memory) :
    InLine w B lifetime (p.spawn r) (Function.update st p.tasks.length new) := by
  refine ⟨h.memory, ?_, ?_⟩
  · intro i a ha
    rw [tasks_spawn] at ha
    split at ha
    · rename_i hi
      obtain rfl := Option.some.inj ha
      rw [hi, Function.update_self]
      exact hr
    · rename_i hi
      rw [Function.update_of_ne hi]
      exact h.tasks ha
  · intro i
    by_cases hi : i = p.tasks.length
    · rw [hi, Function.update_self]
      exact hnew
    · rw [Function.update_of_ne hi]
      exact h.sound i

theorem InLine.cancel (h : InLine w B lifetime p st) : InLine w B lifetime p.cancel st :=
  ⟨Memory.faithful_cancel h.memory, h.tasks, fun i => Ledger.Sound.cancel (h.sound i)⟩

theorem InLine.forget (h : InLine w B lifetime p st) {node : String}
    (hfree : ∀ i, ¬ (st i).terms.Tracks (.id node) ∧ ¬ (st i).terms.Tracks (.own node)) :
    InLine w B lifetime (p.forget node) st :=
  ⟨Memory.faithful_forget h.memory node, h.tasks, fun i =>
    Ledger.Sound.forget (h.sound i) (hfree i).1 (hfree i).2⟩

end Pool

end Rendezvous
