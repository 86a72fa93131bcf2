import Mathlib.Logic.Function.Iterate
import Mathlib.Logic.Relation
import ExamSystem.Transactions

/-!
# Row locks

Transactions that lock rows one after the other and hold the locks until they
end. Rows have ranks, and a row may have a guard, a row that has to be held
before it. Where every program locks upwards, no cycle of transactions waits.
Nothing here is about a particular program.
-/

namespace RowLocks

/-! ## Modes -/

inductive Mode
  | keyShare | share | noKeyUpdate | update
  deriving DecidableEq, Repr

def Mode.level : Mode → Nat
  | .keyShare => 0
  | .share => 1
  | .noKeyUpdate => 2
  | .update => 3

def Mode.Conflicts (a b : Mode) : Prop := 3 ≤ a.level + b.level

instance (a b : Mode) : Decidable (a.Conflicts b) := inferInstanceAs (Decidable (3 ≤ _))

theorem Mode.Conflicts.symm {a b : Mode} (h : a.Conflicts b) : b.Conflicts a := by
  unfold Mode.Conflicts at *
  omega

/-- A stronger lock conflicts with everything that a weaker one conflicts with. -/
theorem Mode.Conflicts.mono {a b c : Mode} (h : a.Conflicts b) (hle : a.level ≤ c.level) :
    c.Conflicts b := by
  unfold Mode.Conflicts at *
  omega

example : Mode.keyShare.Conflicts .update ∧ ¬ Mode.keyShare.Conflicts .noKeyUpdate ∧
    ¬ Mode.share.Conflicts .share ∧
    Mode.share.Conflicts .noKeyUpdate ∧ Mode.noKeyUpdate.Conflicts .noKeyUpdate := by decide

/-! ## Programs -/

/-- A transaction as it reads and locks. What follows a statement depends on the
state that the statement sees. -/
inductive Prog (σ κ ε α : Type)
  | done (a : α)
  | fail (e : ε)
  | read (next : σ → Prog σ κ ε α)
  | lock (k : κ) (mode : Mode) (next : σ → Prog σ κ ε α)

namespace Prog

variable {σ κ ε α β : Type}

def bind : Prog σ κ ε α → (α → Prog σ κ ε β) → Prog σ κ ε β
  | done a, f => f a
  | fail e, _ => fail e
  | read next, f => read fun s => (next s).bind f
  | lock k mode next, f => lock k mode fun s => (next s).bind f

instance : Monad (Prog σ κ ε) where
  pure := done
  bind := bind

@[simp] theorem pure_eq (a : α) : (pure a : Prog σ κ ε α) = done a := rfl

/-- A query that locks nothing. -/
def select (q : σ → α) : Prog σ κ ε α := read fun s => done (q s)

def selectFor (k : κ) (mode : Mode) (q : σ → α) : Prog σ κ ε α := lock k mode fun s => done (q s)

def touch (k : κ) (mode : Mode) : Prog σ κ ε Unit := selectFor k mode fun _ => ()

def ofExcept : Except ε α → Prog σ κ ε α
  | .ok a => done a
  | .error e => fail e

end Prog

/-! ## Locking upwards -/

/-- The order of the rows. A row with a guard has no place in the order: it is
locked under its guard alone. -/
class Ranked (κ : Type) where
  rank : κ → Nat
  guard : κ → Option κ

open Ranked

section
variable {σ κ ε α β : Type} [Ranked κ] {held : List (κ × Mode)} {k : κ} {mode : Mode}

def Covers (held : List (κ × Mode)) (k : κ) (mode : Mode) : Prop := ∃ a, (k, a) ∈ held ∧
    mode.level ≤ a.level

/-- The rows in the order that are held so far rank below `n`. -/
def Below (n : Nat) (held : List (κ × Mode)) : Prop := ∀ p ∈ held, guard p.1 = none → rank p.1 < n

def Admits (held : List (κ × Mode)) (k : κ) (mode : Mode) : Prop :=
  Covers held k mode ∨ (∃ g, guard k = some g ∧ (g, .update) ∈ held) ∨
    (guard k = none ∧ Below (rank k) held)

/-- Every path of the program locks what it may, whatever it sees as the states
go on along `R`; `Q` is what is known at its end. -/
def Prog.Climbs (R : σ → σ → Prop) (Q : α → List (κ × Mode) → σ → Prop) :
    Prog σ κ ε α → List (κ × Mode) → σ → Prop
  | .done a, held, s => Q a held s
  | .fail _, _, _ => True
  | .read next, held, s => ∀ s', R s s' → (next s').Climbs R Q held s'
  | .lock k mode next, held, s => Admits held k mode ∧ ∀ s', R s s' →
      (next s').Climbs R Q ((k, mode) :: held) s'

variable {R : σ → σ → Prop} {Q : α → List (κ × Mode) → σ → Prop} {s : σ}

theorem climbs_mono {Q' : α → List (κ × Mode) → σ → Prop} (h : ∀ a held s, Q a held s → Q' a held s)
    {p : Prog σ κ ε α} (hp : p.Climbs R Q held s) : p.Climbs R Q' held s := by
  induction p generalizing held s with
  | done a => exact h a held s hp
  | fail e => exact trivial
  | read next ih => exact fun s' hs => ih s' (hp s' hs)
  | lock k mode next ih => exact ⟨hp.1, fun s' hs => ih s' (hp.2 s' hs)⟩

theorem climbs_bind {Q : β → List (κ × Mode) → σ → Prop} {p : Prog σ κ ε α} {f : α → Prog σ κ ε β}
    (hp : p.Climbs R (fun a held s => (f a).Climbs R Q held s) held s) :
    (p >>= f).Climbs R Q held s := by
  induction p generalizing held s with
  | done a => exact hp
  | fail e => exact trivial
  | read next ih => exact fun s' hs => ih s' (hp s' hs)
  | lock k mode next ih => exact ⟨hp.1, fun s' hs => ih s' (hp.2 s' hs)⟩

theorem climbs_ofExcept {x : Except ε α} (h : ∀ a, x = .ok a → Q a held s) :
    (Prog.ofExcept x : Prog σ κ ε α).Climbs R Q held s := by
  cases x with
  | ok a => exact h a rfl
  | error e => exact trivial

/-! ### Rules

A command is followed through its statements with what it holds, `H`, and what
is known of the values it has read. -/

/-- From `H` every path of the program locks what it may, and ends in `Q`. -/
def Prog.Spec (R : σ → σ → Prop) (H : List (κ × Mode) → σ → Prop) (p : Prog σ κ ε α)
    (Q : α → List (κ × Mode) → σ → Prop) : Prop :=
  ∀ held s, H held s → p.Climbs R Q held s

/-- The program locks what it may, keeps `H`, and returns a value of `φ`. -/
def Prog.Keeps (R : σ → σ → Prop) (H : List (κ × Mode) → σ → Prop) (φ : α → Prop) (p : Prog σ κ ε α) :
    Prop :=
  p.Spec R H fun a held s => φ a ∧ H held s

variable {H H' : List (κ × Mode) → σ → Prop} {φ : α → Prop} {p : Prog σ κ ε α}

theorem Prog.Spec.mono {Q' : α → List (κ × Mode) → σ → Prop} (h : p.Spec R H Q)
    (hpre : ∀ held s, H' held s → H held s) (hpost : ∀ a held s, Q a held s → Q' a held s) :
    p.Spec R H' Q' :=
  fun held s hs => climbs_mono hpost (h held s (hpre held s hs))

theorem Prog.Keeps.mono {φ' : α → Prop} (h : p.Keeps R H φ) (hφ : ∀ a, φ a → φ' a) : p.Keeps R H φ' :=
  Prog.Spec.mono h (fun _ _ hs => hs) fun a _ _ ha => ⟨hφ a ha.1, ha.2⟩

theorem keeps_done {a : α} (h : φ a) : (Prog.done a : Prog σ κ ε α).Keeps R H φ := fun _ _ hs => ⟨h, hs⟩

theorem Prog.Keeps.bind {f : α → Prog σ κ ε β} {Q : β → List (κ × Mode) → σ → Prop} (hp : p.Keeps R H φ)
    (hf : ∀ a, φ a → (f a).Spec R H Q) : (p >>= f).Spec R H Q :=
  fun held s hs => climbs_bind (climbs_mono (fun a held s ha => hf a ha.1 held s ha.2) (hp held s hs))

theorem keeps_ofExcept {x : Except ε α} (h : ∀ a, x = .ok a → φ a) :
    (Prog.ofExcept x : Prog σ κ ε α).Keeps R H φ :=
  fun _ _ hs => climbs_ofExcept fun a ha => ⟨h a ha, hs⟩

theorem keeps_select {q : σ → α} (hR : ∀ held s s', H held s → R s s' → H held s')
    (hq : ∀ held s, H held s → φ (q s)) :
    (Prog.select q : Prog σ κ ε α).Keeps R H φ :=
  fun held s hs s' hs' => ⟨hq held s' (hR held s s' hs hs'), hR held s s' hs hs'⟩

theorem keeps_selectFor {q : σ → α}
    (h : ∀ held s, H held s → Admits held k mode ∧ ∀ s', R s s' → H ((k, mode) :: held) s')
    (hq : ∀ held s, H held s → φ (q s)) : (Prog.selectFor k mode q : Prog σ κ ε α).Keeps R H φ := by
  intro held s hs
  obtain ⟨hadmits, hnext⟩ := h held s hs
  exact ⟨hadmits, fun s' hs' => ⟨hq _ _ (hnext s' hs'), hnext s' hs'⟩⟩

theorem Prog.Spec.bind {f : α → Prog σ κ ε β} {Q : α → List (κ × Mode) → σ → Prop}
    {Q' : β → List (κ × Mode) → σ → Prop} (hp : p.Spec R H Q) (hf : ∀ a, (f a).Spec R (Q a) Q') :
    (p >>= f).Spec R H Q' :=
  fun held s hs => climbs_bind (climbs_mono (fun a held s ha => hf a held s ha) (hp held s hs))

theorem below_cons {n : Nat} {p : κ × Mode} (h : Below n held) (hp : guard p.1 = none → rank p.1 < n) :
    Below n (p :: held) := by
  intro q hq
  rcases List.mem_cons.mp hq with rfl | hq
  · exact hp
  · exact h q hq

theorem Below.mono {n m : Nat} (h : Below n held) (hle : n ≤ m) : Below m held :=
  fun p hp hg => Nat.lt_of_lt_of_le (h p hp hg) hle

theorem below_nil (n : Nat) : Below n ([] : List (κ × Mode)) := fun _ hp => absurd hp List.not_mem_nil

end

/-! ## The machine -/

/-- A transaction in flight: its locks, what it saw last, and what it has to do. -/
structure Task (σ κ ε α : Type) where
  held : List (κ × Mode)
  view : σ
  rest : Prog σ κ ε α

abbrev Machine (ι σ κ ε α : Type) := ι → Task σ κ ε α

section
variable {ι σ κ ε α : Type}

def begin (progs : ι → Prog σ κ ε α) (views : ι → σ) : Machine ι σ κ ε α :=
  fun i => ⟨[], views i, progs i⟩

/-- A step of one transaction. It may be aborted at any time, and its end
releases its locks. -/
inductive TaskStep (R : σ → σ → Prop) (free : κ → Mode → Prop) : Task σ κ ε α → Task σ κ ε α → Prop
  | read {held : List (κ × Mode)} {s s' : σ} {next : σ → Prog σ κ ε α} (h : R s s') :
      TaskStep R free ⟨held, s, .read next⟩ ⟨held, s', next s'⟩
  | lock {held : List (κ × Mode)} {s s' : σ} {k : κ} {mode : Mode} {next : σ → Prog σ κ ε α}
      (hfree : free k mode) (h : R s s') :
      TaskStep R free ⟨held, s, .lock k mode next⟩ ⟨(k, mode) :: held, s', next s'⟩
  | finish {held : List (κ × Mode)} {s : σ} {a : α} : TaskStep R free ⟨held, s, .done a⟩ ⟨[],
      s, .done a⟩
  | abort {t : Task σ κ ε α} (e : ε) : TaskStep R free t ⟨[], t.view, .fail e⟩

variable (m : Machine ι σ κ ε α)

def Free (i : ι) (k : κ) (mode : Mode) : Prop := ∀ j ≠ i, ∀ a, (k, a) ∈ (m j).held → ¬ a.Conflicts mode

def Requests (i : ι) (k : κ) (mode : Mode) : Prop := ∃ next, (m i).rest = .lock k mode next

/-- A transaction waits for another that holds a conflicting lock on the row it
is about to lock. -/
def Waits (i j : ι) : Prop := i ≠ j ∧ ∃ k mode a, Requests m i k mode ∧ (k, a) ∈ (m j).held ∧
    a.Conflicts mode

def Step (R : σ → σ → Prop) (m m' : Machine ι σ κ ε α) : Prop :=
  ∃ i, TaskStep R (Free m i) (m i) (m' i) ∧ ∀ j ≠ i, m' j = m j

abbrev Runs (R : σ → σ → Prop) : Machine ι σ κ ε α → Machine ι σ κ ε α → Prop :=
  Relation.ReflTransGen (Step R)

end

/-! ### One transaction at a time -/

section
variable {ι σ κ ε α : Type}

def Task.advance (t : Task σ κ ε α) : Task σ κ ε α :=
  match t.rest with
  | .read next => ⟨t.held, t.view, next t.view⟩
  | .lock k mode next => ⟨(k, mode) :: t.held, t.view, next t.view⟩
  | _ => t

def Task.request (t : Task σ κ ε α) : Option (κ × Mode) :=
  match t.rest with
  | .lock k mode _ => some (k, mode)
  | _ => none

variable {R : σ → σ → Prop} {m : Machine ι σ κ ε α} {i : ι}

theorem requests_of_request {k : κ} {mode : Mode} (h : (m i).request = some (k, mode)) :
    Requests m i k mode := by
  unfold Task.request at h
  split at h
  · rename_i next hrest
    obtain ⟨rfl, rfl⟩ := Prod.mk.inj (Option.some.inj h)
    exact ⟨next, hrest⟩
  · cases h

theorem Task.advance_step (hR : ∀ s, R s s) {free : κ → Mode → Prop} (hfree : ∀ k mode, free k mode)
    (t : Task σ κ ε α) :
    t.advance = t ∨ TaskStep R free t t.advance := by
  obtain ⟨held, s, rest⟩ := t
  cases rest with
  | done a => exact .inl rfl
  | fail e => exact .inl rfl
  | read next => exact .inr (.read (hR s))
  | lock k mode next => exact .inr (.lock (hfree k mode) (hR s))

theorem advance_runs [DecidableEq ι] (hR : ∀ s, R s s) (hfree : ∀ j ≠ i, (m j).held = []) :
    Runs R m (Function.update m i (m i).advance) := by
  have hlock : ∀ k mode, Free m i k mode :=
    fun k mode j hj a ha => absurd (hfree j hj ▸ ha) List.not_mem_nil
  rcases (m i).advance_step hR hlock with hsame | hstep
  · rw [hsame, Function.update_eq_self]
  · refine .single ⟨i, ?_, fun j hj => Function.update_of_ne hj _ _⟩
    rwa [Function.update_self]

/-- A transaction goes on while the others hold nothing. -/
theorem advances_run [DecidableEq ι] (hR : ∀ s, R s s) (hfree : ∀ j ≠ i, (m j).held = []) (n : Nat) :
    Runs R m (Function.update m i (Task.advance^[n] (m i))) := by
  induction n with
  | zero => rw [Function.iterate_zero, id_eq, Function.update_eq_self]
  | succ n ih =>
    have hnext := advance_runs (m := Function.update m i (Task.advance^[n] (m i))) hR
      fun j hj => (congrArg Task.held (Function.update_of_ne hj _ _)).trans (hfree j hj)
    rw [Function.update_self, Function.update_idem,
      ← Function.iterate_succ_apply' Task.advance n] at hnext
    exact ih.trans hnext

end

/-! ## The discipline -/

section
variable {ι σ κ ε α : Type} [Ranked κ] {R : σ → σ → Prop} {m m' : Machine ι σ κ ε α}

/-- Every transaction locks upwards, holds the guards of its rows, and shares no
row in conflicting modes. -/
structure Disciplined (R : σ → σ → Prop) (m : Machine ι σ κ ε α) : Prop where
  climbs : ∀ i, (m i).rest.Climbs R (fun _ _ _ => True) (m i).held (m i).view
  guarded : ∀ i k mode g, (k, mode) ∈ (m i).held → guard k = some g → (g, .update) ∈ (m i).held
  compatible : ∀ i j, i ≠ j → ∀ k a b, (k, a) ∈ (m i).held → (k, b) ∈ (m j).held → ¬ a.Conflicts b

theorem begin_disciplined {progs : ι → Prog σ κ ε α} {views : ι → σ}
    (h : ∀ i s, (progs i).Climbs R (fun _ _ _ => True) [] s) : Disciplined R (begin progs views) :=
  ⟨fun i => h i (views i), fun _ _ _ _ hk => absurd hk List.not_mem_nil,
    fun _ _ _ _ _ _ hk => absurd hk List.not_mem_nil⟩

/-- A covered row may be asked for again: its guard is held still. -/
theorem Disciplined.guard_held (h : Disciplined R m) {i : ι} {k g : κ} {mode : Mode}
    (ha : Admits (m i).held k mode) (hg : guard k = some g) : (g, .update) ∈ (m i).held := by
  rcases ha with ⟨a, hk, -⟩ | ⟨g', hg', hheld⟩ | ⟨hnone, -⟩
  · exact h.guarded i k a g hk hg
  · obtain rfl := Option.some.inj (hg.symm.trans hg')
    exact hheld
  · rw [hg] at hnone
    cases hnone

theorem Disciplined.taskStep (h : Disciplined R m) {i : ι} (hs : TaskStep R (Free m i) (m i) (m' i)) :
    (m' i).rest.Climbs R (fun _ _ _ => True) (m' i).held (m' i).view ∧
      (∀ k mode g, (k, mode) ∈ (m' i).held → guard k = some g → (g, .update) ∈ (m' i).held) ∧
      ∀ j ≠ i, ∀ k a b, (k, a) ∈ (m' i).held → (k, b) ∈ (m j).held → ¬ a.Conflicts b := by
  have hclimbs := h.climbs i
  have hguarded := h.guarded i
  have hguard : ∀ k g mode, Admits (m i).held k mode → guard k = some g → (g, .update) ∈ (m i).held :=
    fun _ _ _ ha hg => h.guard_held ha hg
  have hcompatible := fun j (hj : j ≠ i) => h.compatible i j hj.symm
  have hnil : ∀ {P : κ → Mode → Prop} {k : κ} {a : Mode}, (k, a) ∈ ([] : List (κ × Mode)) → P k a :=
    fun hk => absurd hk List.not_mem_nil
  generalize m i = t at *
  generalize m' i = t' at *
  cases hs with
  | read hR => exact ⟨hclimbs _ hR, hguarded, hcompatible⟩
  | @lock held s s' k mode next hfree hR =>
    refine ⟨hclimbs.2 s' hR, ?_, ?_⟩
    · intro k' mode' g hk hg
      rcases List.mem_cons.mp hk with heq | hk
      · obtain ⟨rfl, rfl⟩ := Prod.mk.inj heq
        exact List.mem_cons_of_mem _ (hguard k' g mode' hclimbs.1 hg)
      · exact List.mem_cons_of_mem _ (hguarded k' mode' g hk hg)
    · intro j hj k' a b hk hb hconflict
      rcases List.mem_cons.mp hk with heq | hk
      · obtain ⟨rfl, rfl⟩ := Prod.mk.inj heq
        exact hfree j hj b hb hconflict.symm
      · exact hcompatible j hj k' a b hk hb hconflict
  | finish => exact ⟨trivial, fun _ _ _ hk => absurd hk List.not_mem_nil,
      fun _ _ _ _ _ hk => absurd hk List.not_mem_nil⟩
  | abort e => exact ⟨trivial, fun _ _ _ hk => absurd hk List.not_mem_nil,
      fun _ _ _ _ _ hk => absurd hk List.not_mem_nil⟩

theorem Disciplined.step (h : Disciplined R m) (hs : Step R m m') : Disciplined R m' := by
  obtain ⟨i, hstep, hrest⟩ := hs
  obtain ⟨hclimbs, hguarded, hcompatible⟩ := h.taskStep hstep
  refine ⟨fun j => ?_, fun j => ?_, fun j l hne => ?_⟩
  · by_cases hj : j = i
    · subst hj
      exact hclimbs
    · rw [hrest j hj]
      exact h.climbs j
  · by_cases hj : j = i
    · subst hj
      exact hguarded
    · rw [hrest j hj]
      exact h.guarded j
  · by_cases hj : j = i
    · subst hj
      rw [hrest l hne.symm]
      exact hcompatible l hne.symm
    · by_cases hl : l = i
      · subst hl
        rw [hrest j hj]
        exact fun k a b ha hb hconflict => hcompatible j hj k b a hb ha hconflict.symm
      · rw [hrest j hj, hrest l hl]
        exact h.compatible j l hne

theorem Disciplined.runs (h : Disciplined R m) (hr : Runs R m m') : Disciplined R m' := by
  induction hr with
  | refl => exact h
  | tail _ hs ih => exact ih.step hs

/-! ## No cycle waits -/

/-- A row that is waited for has a place in the order, and the one who waits
holds only rows below it. -/
theorem Disciplined.waits_below (h : Disciplined R m) {i j : ι} {k : κ} {mode a : Mode} (hne : i ≠ j)
    (hreq : Requests m i k mode) (hheld : (k, a) ∈ (m j).held) (hconflict : a.Conflicts mode) :
    guard k = none ∧ Below (rank k) (m i).held := by
  obtain ⟨next, hrest⟩ := hreq
  have hclimbs := h.climbs i
  rw [hrest] at hclimbs
  rcases hclimbs.1 with ⟨b, hb, hle⟩ | ⟨g, hg, hupdate⟩ | hbelow
  · -- the row is held in a mode that already excludes the other's
    exact absurd (hconflict.symm.mono hle) (h.compatible i j hne k b a hb hheld)
  · have hother := h.guarded j k a g hheld hg
    exact absurd (by decide : Mode.update.Conflicts .update) (h.compatible i j hne g _ _ hupdate hother)
  · exact hbelow

omit [Ranked κ] in
theorem Requests.unique {i : ι} {k k' : κ} {mode mode' : Mode} (h : Requests m i k mode)
    (h' : Requests m i k' mode') :
    k = k' := by
  obtain ⟨_, hrest⟩ := h
  obtain ⟨_, hrest'⟩ := h'
  rw [hrest] at hrest'
  injection hrest'

/-- Along a chain of waiting transactions the rank of the row they wait for grows. -/
theorem Disciplined.chain (h : Disciplined R m) {i j : ι} (hw : Relation.TransGen (Waits m) i j)
    {k k' : κ} {mode mode' : Mode} (hreq : Requests m i k mode) (hreq' : Requests m j k' mode')
    (hwaits : ∃ l, Waits m j l) : rank k < rank k' := by
  induction hw generalizing k' mode' with
  | @single j hij =>
    obtain ⟨hne, k₁, mode₁, a, hreq₁, hheld, hconflict⟩ := hij
    obtain rfl := hreq.unique hreq₁
    obtain ⟨hnone, -⟩ := h.waits_below hne hreq₁ hheld hconflict
    obtain ⟨l, hne', k₂, mode₂, b, hreq₂, hheld', hconflict'⟩ := hwaits
    obtain rfl := hreq'.unique hreq₂
    exact (h.waits_below hne' hreq₂ hheld' hconflict').2 _ hheld hnone
  | @tail j l _ hjl ih =>
    have hchain := hjl
    obtain ⟨hne, k₁, mode₁, a, hreq₁, hheld, hconflict⟩ := hjl
    obtain ⟨hnone, -⟩ := h.waits_below hne hreq₁ hheld hconflict
    obtain ⟨_, hne', k₂, mode₂, b, hreq₂, hheld', hconflict'⟩ := hwaits
    obtain rfl := hreq'.unique hreq₂
    exact Nat.lt_trans (ih hreq₁ ⟨l, hchain⟩)
      ((h.waits_below hne' hreq₂ hheld' hconflict').2 _ hheld hnone)

theorem Disciplined.acyclic (h : Disciplined R m) (i : ι) : ¬ Relation.TransGen (Waits m) i i := by
  intro hw
  obtain ⟨j, hij, -⟩ := Relation.TransGen.head'_iff.mp hw
  have hwaits := hij
  obtain ⟨-, k, mode, -, hreq, -⟩ := hij
  exact Nat.lt_irrefl _ (h.chain hw hreq hreq ⟨j, hwaits⟩)

end

end RowLocks
