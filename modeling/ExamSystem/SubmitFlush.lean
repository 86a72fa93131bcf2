import Mathlib.Data.List.Basic

/-!
# The save queue of a page

The debounced queue of one question: a save waits for its timer, joins the
chain of saves in flight, and settles when the chain reaches it. Only the save
scheduled last sets the status.
-/

namespace ExamSystem

inductive SaveStatus
  | idle | pending | inflight | saved | failed
  deriving DecidableEq, Repr

/-- A scheduled save; its generation is its number among the question's saves. -/
structure QueuedSave (α : Type) where
  save : α
  generation : Nat
  deriving DecidableEq, Repr

/-- The entries of one question in the maps of the queue's scope. The head of
`inflight` executes, the others wait for it to settle. -/
structure SaveQueue (α : Type) where
  pending : Option (QueuedSave α)
  inflight : List (QueuedSave α)
  status : SaveStatus
  generation : Nat
  deriving DecidableEq, Repr

namespace SaveQueue

variable {α : Type}

def empty : SaveQueue α := { pending := none, inflight := [], status := .idle, generation := 0 }

def setStatus (q : SaveQueue α) (generation : Nat) (status : SaveStatus) : SaveQueue α :=
  if q.generation = generation then { q with status := status } else q

def scheduleSave (q : SaveQueue α) (save : α) : SaveQueue α :=
  { q with
    pending := some { save := save, generation := q.generation + 1 }
    status := .pending
    generation := q.generation + 1 }

def fire (q : SaveQueue α) : Option (SaveQueue α) :=
  q.pending.map fun e => { q with pending := none, inflight := q.inflight ++ [e] }

def settle (q : SaveQueue α) (ok : Bool) : SaveQueue α :=
  match q.inflight with
  | [] => q
  | e :: rest => { q.setStatus e.generation (if ok then .saved else .failed) with inflight := rest }

/-! ## The chain of a queue -/

/-- The saves that have not settled, in the order in which they will execute. -/
def chain (q : SaveQueue α) : List (QueuedSave α) := q.inflight ++ q.pending.toList

def waiting (q : SaveQueue α) : List (QueuedSave α) := q.inflight.tail ++ q.pending.toList

@[simp] theorem setStatus_chain (q : SaveQueue α) (g : Nat) (s : SaveStatus) :
    (q.setStatus g s).chain = q.chain := by
  unfold setStatus
  split <;> rfl

@[simp] theorem setStatus_waiting (q : SaveQueue α) (g : Nat) (s : SaveStatus) :
    (q.setStatus g s).waiting = q.waiting := by
  unfold setStatus
  split <;> rfl

@[simp] theorem setStatus_inflight (q : SaveQueue α) (g : Nat) (s : SaveStatus) :
    (q.setStatus g s).inflight = q.inflight := by
  unfold setStatus
  split <;> rfl

@[simp] theorem setStatus_pending (q : SaveQueue α) (g : Nat) (s : SaveStatus) :
    (q.setStatus g s).pending = q.pending := by
  unfold setStatus
  split <;> rfl

@[simp] theorem setStatus_generation (q : SaveQueue α) (g : Nat) (s : SaveStatus) :
    (q.setStatus g s).generation = q.generation := by
  unfold setStatus
  split <;> rfl

theorem waiting_subset_chain (q : SaveQueue α) : q.waiting ⊆ q.chain := by
  intro e he
  rcases List.mem_append.mp he with he | he
  · exact List.mem_append.mpr (.inl (List.mem_of_mem_tail he))
  · exact List.mem_append.mpr (.inr he)

/-- Generations grow along the chain up to the current one, and a save that was
the last one leaves nothing behind it. -/
structure Sound (q : SaveQueue α) : Prop where
  increasing : (q.chain.map (·.generation)).Pairwise (· < ·)
  bounded : ∀ e ∈ q.chain, e.generation ≤ q.generation
  settled : q.status = .saved → q.chain = []

theorem empty_sound : (empty : SaveQueue α).Sound := by
  refine ⟨List.Pairwise.nil, ?_, ?_⟩
  · intro e he
    cases he
  · intro _
    rfl

theorem Sound.scheduleSave {q : SaveQueue α} (h : q.Sound) (save : α) :
    (q.scheduleSave save).Sound := by
  have hinflight : ∀ e ∈ q.inflight, e.generation ≤ q.generation := fun e he =>
    h.bounded e (List.mem_append.mpr (.inl he))
  refine ⟨?_, ?_, fun hs => by cases hs⟩
  · simp only [chain, SaveQueue.scheduleSave, Option.toList_some, List.map_append, List.map_cons,
      List.map_nil, List.pairwise_append]
    refine ⟨?_, List.pairwise_singleton _ _, ?_⟩
    · exact h.increasing.sublist ((List.sublist_append_left _ _).map _)
    · intro g hg g' hg'
      obtain ⟨e, he, rfl⟩ := List.mem_map.mp hg
      rw [List.mem_singleton.mp hg']
      exact Nat.lt_succ_of_le (hinflight e he)
  · intro e he
    rcases List.mem_append.mp he with he | he
    · exact Nat.le_succ_of_le (hinflight e he)
    · rw [List.mem_singleton.mp he]
      exact Nat.le_refl _

theorem Sound.setStatus {q : SaveQueue α} (h : q.Sound) (g : Nat) {s : SaveStatus} (hs : s ≠ .saved) :
    (q.setStatus g s).Sound := by
  refine ⟨?_, ?_, ?_⟩
  · rw [setStatus_chain]
    exact h.increasing
  · rw [setStatus_chain, setStatus_generation]
    exact h.bounded
  · rw [setStatus_chain]
    unfold SaveQueue.setStatus
    split
    · intro he
      exact absurd he hs
    · exact h.settled

theorem fire_chain {q q' : SaveQueue α} (h : q.fire = some q') : q'.chain = q.chain := by
  obtain ⟨e, he, rfl⟩ := Option.map_eq_some_iff.mp h
  simp [chain, he]

theorem Sound.fire {q q' : SaveQueue α} (h : q.Sound) (hf : q.fire = some q') : q'.Sound := by
  have hchain := fire_chain hf
  obtain ⟨e, he, rfl⟩ := Option.map_eq_some_iff.mp hf
  refine ⟨?_, ?_, ?_⟩
  · rw [hchain]
    exact h.increasing
  · rw [hchain]
    exact h.bounded
  · intro hs
    rw [hchain]
    exact h.settled hs

theorem Sound.head_lt {q : SaveQueue α} (h : q.Sound) {e w : QueuedSave α} {rest : List (QueuedSave α)}
    (he : q.inflight = e :: rest) (hw : w ∈ q.waiting) : e.generation < w.generation := by
  have hinc := h.increasing
  simp only [chain, he, List.cons_append, List.map_cons, List.pairwise_cons] at hinc
  simp only [waiting, he, List.tail_cons] at hw
  exact hinc.1 _ (List.mem_map_of_mem hw)

section
variable {q : SaveQueue α} {e : QueuedSave α} {rest : List (QueuedSave α)}
    (he : q.inflight = e :: rest) (ok : Bool)
include he

theorem settle_cons :
    q.settle ok =
      { q.setStatus e.generation (if ok then .saved else .failed) with inflight := rest } := by
  unfold settle
  rw [he]

@[simp] theorem settle_generation : (q.settle ok).generation = q.generation := by
  rw [settle_cons he ok]
  simp

theorem settle_chain : (q.settle ok).chain = q.waiting := by
  rw [settle_cons he ok]
  simp [chain, waiting, he]

theorem settle_status :
    (q.settle ok).status =
      if e.generation = q.generation then (if ok then .saved else .failed) else q.status := by
  rw [settle_cons he ok]
  unfold setStatus
  by_cases hg : q.generation = e.generation
  · rw [if_pos hg, if_pos hg.symm]
  · rw [if_neg hg, if_neg (Ne.symm hg)]

end

theorem Sound.waiting_lt {q : SaveQueue α} (h : q.Sound) {e w : QueuedSave α}
    {rest : List (QueuedSave α)} (he : q.inflight = e :: rest) (hw : w ∈ q.waiting) :
    e.generation < w.generation ∧ w.generation ≤ q.generation :=
  ⟨h.head_lt he hw, h.bounded w (waiting_subset_chain q hw)⟩

theorem Sound.settle {q : SaveQueue α} (h : q.Sound) {e : QueuedSave α} {rest : List (QueuedSave α)}
    (he : q.inflight = e :: rest) (ok : Bool) : (q.settle ok).Sound := by
  have hchain : q.chain = e :: q.waiting := by simp [chain, waiting, he]
  have hinc := h.increasing
  rw [hchain, List.map_cons, List.pairwise_cons] at hinc
  refine ⟨?_, ?_, ?_⟩
  · rw [settle_chain he]
    exact hinc.2
  · intro x hx
    rw [settle_chain he] at hx
    rw [settle_generation he]
    exact h.bounded x (waiting_subset_chain q hx)
  · intro hs
    rw [settle_status he] at hs
    rw [settle_chain he]
    -- an older save leaves the status alone, and the current one is the last of the chain
    by_cases hg : e.generation = q.generation
    · refine List.eq_nil_iff_forall_not_mem.mpr fun x hx => ?_
      have := h.waiting_lt he hx
      omega
    · rw [if_neg hg] at hs
      have hnil := h.settled hs
      rw [hchain] at hnil
      cases hnil

end SaveQueue

end ExamSystem
