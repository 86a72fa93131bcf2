import ExamSystem.Transactions

/-!
# Transactions that interleave

A transaction is a program of statements. A statement reads the committed state
with the transaction's own writes on top, takes the locks it needs and writes;
the writes are applied to the committed state when the transaction commits.
Statements of different transactions interleave in any order, and a statement
waits while another transaction holds one of its locks.

A transaction is verified against what the others may do between its
statements: `Prog.wp` carries a relation on committed states that every commit
of another transaction respects, given the locks held so far. Nothing here is
about a particular program.
-/

namespace Interleaving

/-- What a write does to a state and which keys it locks, and the integrity
that the database demands of a committed state. -/
class Journal (σ δ : Type) (κ : outParam Type) where
  apply : σ → δ → σ
  keys : δ → List κ
  intact : σ → Bool

section
variable {σ δ κ : Type} [Journal σ δ κ]

def applyAll (s : σ) (log : List δ) : σ := log.foldl Journal.apply s

@[simp] theorem applyAll_nil (s : σ) : applyAll s ([] : List δ) = s := rfl

@[simp] theorem applyAll_cons (s : σ) (w : δ) (log : List δ) :
    applyAll s (w :: log) = applyAll (Journal.apply s w) log := rfl

theorem applyAll_append (s : σ) (log log' : List δ) :
    applyAll s (log ++ log') = applyAll (applyAll s log) log' :=
  List.foldl_append

theorem applyAll_invariant {P : σ → Prop} {log : List δ}
    (hw : ∀ w ∈ log, ∀ s, P s → P (Journal.apply s w)) {s : σ} (h : P s) :
    P (applyAll s log) := by
  induction log generalizing s with
  | nil => exact h
  | cons w log ih =>
    exact ih (fun v hv => hw v (List.mem_cons_of_mem w hv)) (hw w List.mem_cons_self s h)

end

/-! ## Programs -/

inductive Prog (σ δ κ ε α : Type)
  | done (a : α)
  | fail (e : ε)
  | stmt (locks : σ → List κ) (writes : σ → List δ) (next : σ → Prog σ δ κ ε α)

namespace Prog

variable {σ δ κ ε α β : Type}

def bind : Prog σ δ κ ε α → (α → Prog σ δ κ ε β) → Prog σ δ κ ε β
  | done a, f => f a
  | fail e, _ => fail e
  | stmt locks writes next, f => stmt locks writes fun s => (next s).bind f

instance : Monad (Prog σ δ κ ε) where
  pure := done
  bind := bind

@[simp] theorem pure_eq (a : α) : (pure a : Prog σ δ κ ε α) = done a := rfl

@[simp] theorem done_bind (a : α) (f : α → Prog σ δ κ ε β) : (done a >>= f) = f a := rfl

@[simp] theorem fail_bind (e : ε) (f : α → Prog σ δ κ ε β) : (fail e >>= f) = fail e := rfl

@[simp] theorem stmt_bind (locks : σ → List κ) (writes : σ → List δ) (next : σ → Prog σ δ κ ε α)
    (f : α → Prog σ δ κ ε β) :
    (stmt locks writes next >>= f) = stmt locks writes fun s => next s >>= f := rfl

theorem bind_assoc {γ : Type} (p : Prog σ δ κ ε α) (f : α → Prog σ δ κ ε β) (g : β → Prog σ δ κ ε γ) :
    (p >>= f) >>= g = p >>= fun a => f a >>= g := by
  induction p with
  | done a => rfl
  | fail e => rfl
  | stmt locks writes next ih =>
    simp only [stmt_bind]
    congr 1
    exact funext ih

/-- A query. -/
def select (q : σ → α) : Prog σ δ κ ε α := stmt (fun _ => []) (fun _ => []) fun s => done (q s)

def lock (ks : List κ) : Prog σ δ κ ε Unit := stmt (fun _ => ks) (fun _ => []) fun _ => done ()

/-! ### Writes along every path -/

/-- Every write of the program satisfies `P`. -/
def Emits (P : δ → Prop) : Prog σ δ κ ε α → Prop
  | done _ => True
  | fail _ => True
  | stmt _ writes next => ∀ s, (∀ w ∈ writes s, P w) ∧ Emits P (next s)

/-- Every path makes at most `n` writes that `p` selects. -/
def Budget (p : δ → Bool) : Nat → Prog σ δ κ ε α → Prop
  | _, done _ => True
  | _, fail _ => True
  | n, stmt _ writes next => ∀ s, (writes s).countP p ≤ n ∧ Budget p (n - (writes s).countP p) (next s)

section
variable {P : δ → Prop}

@[simp] theorem emits_done (a : α) : (done a : Prog σ δ κ ε α).Emits P := trivial

@[simp] theorem emits_fail (e : ε) : (fail e : Prog σ δ κ ε α).Emits P := trivial

@[simp] theorem emits_select (q : σ → α) : (select q : Prog σ δ κ ε α).Emits P :=
  fun _ => ⟨by simp, trivial⟩

@[simp] theorem emits_lock (ks : List κ) : (lock ks : Prog σ δ κ ε Unit).Emits P :=
  fun _ => ⟨by simp, trivial⟩

theorem emits_bind {p : Prog σ δ κ ε α} {f : α → Prog σ δ κ ε β} (hp : p.Emits P)
    (hf : ∀ a, (f a).Emits P) : (p >>= f).Emits P := by
  induction p with
  | done a => exact hf a
  | fail e => exact trivial
  | stmt locks writes next ih => exact fun s => ⟨(hp s).1, ih s (hp s).2⟩

theorem emits_of_bind {p : Prog σ δ κ ε α} {f : α → Prog σ δ κ ε β} (h : (p >>= f).Emits P) :
    p.Emits P := by
  induction p with
  | done a => exact trivial
  | fail e => exact trivial
  | stmt locks writes next ih => exact fun s => ⟨(h s).1, ih s (h s).2⟩

theorem emits_imp {Q : δ → Prop} (h : ∀ w, P w → Q w) {p : Prog σ δ κ ε α} (hp : p.Emits P) :
    p.Emits Q := by
  induction p with
  | done a => exact trivial
  | fail e => exact trivial
  | stmt locks writes next ih => exact fun s => ⟨fun w hw => h w ((hp s).1 w hw), ih s (hp s).2⟩

end

section
variable {q : δ → Bool} {n m : Nat}

@[simp] theorem budget_done (a : α) : (done a : Prog σ δ κ ε α).Budget q n := trivial

@[simp] theorem budget_fail (e : ε) : (fail e : Prog σ δ κ ε α).Budget q n := trivial

theorem budget_mono (h : n ≤ m) {p : Prog σ δ κ ε α} (hp : p.Budget q n) : p.Budget q m := by
  induction p generalizing n m with
  | done a => exact trivial
  | fail e => exact trivial
  | stmt locks writes next ih =>
    exact fun s => ⟨Nat.le_trans (hp s).1 h, ih s (Nat.sub_le_sub_right h _) (hp s).2⟩

theorem budget_bind {p : Prog σ δ κ ε α} {f : α → Prog σ δ κ ε β} (hp : p.Budget q n)
    (hf : ∀ a, (f a).Budget q m) :
    (p >>= f).Budget q (n + m) := by
  induction p generalizing n with
  | done a => exact budget_mono (Nat.le_add_left m n) (hf a)
  | fail e => exact trivial
  | stmt locks writes next ih =>
    intro s
    have hn := (hp s).1
    refine ⟨by omega, ?_⟩
    rw [Nat.sub_add_comm hn]
    exact ih s (hp s).2

/-- A program that makes no such write fits every budget. -/
theorem budget_of_emits {p : Prog σ δ κ ε α} (hp : p.Emits fun w => q w = false) : p.Budget q n := by
  induction p generalizing n with
  | done a => exact trivial
  | fail e => exact trivial
  | stmt locks writes next ih =>
    intro s
    have hz : (writes s).countP q = 0 := by
      rw [List.countP_eq_zero]
      intro w hw
      rw [(hp s).1 w hw]
      decide
    exact ⟨by omega, ih s (hp s).2⟩

end

/-! ### Alone -/

def exec [Journal σ δ κ] : Prog σ δ κ ε α → σ → Except ε (α × σ)
  | done a, s => .ok (a, s)
  | fail e, _ => .error e
  | stmt _ writes next, s => (next s).exec (applyAll s (writes s))

section
variable [Journal σ δ κ]

@[simp] theorem exec_done (a : α) (s : σ) : (done a : Prog σ δ κ ε α).exec s = .ok (a, s) := rfl

@[simp] theorem exec_fail (e : ε) (s : σ) : (fail e : Prog σ δ κ ε α).exec s = .error e := rfl

@[simp] theorem exec_select (q : σ → α) (s : σ) :
    (select q : Prog σ δ κ ε α).exec s = .ok (q s, s) := rfl

@[simp] theorem exec_lock (ks : List κ) (s : σ) : (lock ks : Prog σ δ κ ε Unit).exec s = .ok
      ((), s) := rfl

end

end Prog

/-! ## The machine -/

variable {σ δ κ ε ρ α : Type}

structure Running (σ δ κ ε ρ α : Type) where
  request : ρ
  log : List δ
  held : List κ
  rest : Prog σ δ κ ε α

/-- A commit: the reply and the states around it, and the keys that the other
transactions in flight hold at that moment. -/
structure Commit (σ κ ρ α : Type) where
  request : ρ
  reply : α
  before : σ
  after : σ
  others : List κ

structure Machine (σ δ κ ε ρ α : Type) where
  committed : σ
  slots : List (Option (Running σ δ κ ε ρ α))
  history : List (Commit σ κ ρ α)

inductive Event (ρ : Type)
  | start (r : ρ)
  | advance (i : Nat)
  | cancel (i : Nat)

namespace Machine

def idle (s : σ) : Machine σ δ κ ε ρ α := ⟨s, [], []⟩

def slot (m : Machine σ δ κ ε ρ α) (i : Nat) : Option (Running σ δ κ ε ρ α) := m.slots[i]?.join

def put (m : Machine σ δ κ ε ρ α) (i : Nat) (o : Option (Running σ δ κ ε ρ α)) : Machine σ δ κ ε ρ α :=
  { m with slots := m.slots.set i o }

def heldBy (o : Option (Running σ δ κ ε ρ α)) : List κ := (o.map (·.held)).getD []

/-- The keys that the transactions other than the `i`th hold. -/
def others (m : Machine σ δ κ ε ρ α) (i : Nat) : List κ := (m.slots.set i none).flatMap heldBy

variable [Journal σ δ κ] [DecidableEq κ]

def needs (locks : σ → List κ) (writes : σ → List δ) (view : σ) : List κ :=
  locks view ++ (writes view).flatMap (Journal.keys σ)

/-- One step. A statement that needs a key of another transaction waits, and a
commit that breaks the integrity of the database rolls back. -/
def step (prog : ρ → Prog σ δ κ ε α) (m : Machine σ δ κ ε ρ α) : Event ρ → Machine σ δ κ ε ρ α
  | .start r => { m with slots := m.slots ++ [some ⟨r, [], [], prog r⟩] }
  | .cancel i => m.put i none
  | .advance i =>
    match m.slot i with
    | none => m
    | some t =>
      match t.rest with
      | .fail _ => m.put i none
      | .done a =>
        if Journal.intact δ (applyAll m.committed t.log) then
          { committed := applyAll m.committed t.log, slots := m.slots.set i none
            history := m.history ++ [⟨t.request, a, m.committed, applyAll m.committed t.log,
                m.others i⟩] }
        else m.put i none
      | .stmt locks writes next =>
        let view := applyAll m.committed t.log
        if ∀ k ∈ needs locks writes view, k ∉ m.others i then
          m.put i (some ⟨t.request, t.log ++ writes view, needs locks writes view ++ t.held, next view⟩)
        else m

def run (prog : ρ → Prog σ δ κ ε α) (m : Machine σ δ κ ε ρ α) (es : List (Event ρ)) :
    Machine σ δ κ ε ρ α :=
  es.foldl (step prog) m

end Machine

end Interleaving
