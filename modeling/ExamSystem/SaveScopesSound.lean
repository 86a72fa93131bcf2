import ExamSystem.SaveLanes

/-!
# The save queue of a page keeps its promises

An event makes steps of the lanes only, so what a lane keeps holds of every
question of every scope: one save at a time, in the order of scheduling, none
that was superseded, and a clean flush means that the latest saves succeeded.
-/

namespace ExamSystem.SaveScopes

open Tx

variable {α : Type}

/-! ## The lanes of the hook -/

namespace Hook

def scheduledIn (w : Hook α) (scope : Nat) (questionId : String) : List (Scheduled α) :=
  w.journal.filterMap fun
    | .scheduled s => if s.scope = scope ∧ s.questionId = questionId then some s else none
    | _ => none

def startedIn (w : Hook α) (scope : Nat) (questionId : String) : List (Scheduled α) :=
  w.journal.filterMap fun
    | .started s => if s.scope = scope ∧ s.questionId = questionId then some s else none
    | _ => none

def succeededIn (w : Hook α) (scope : Nat) (questionId : String) : List (Scheduled α) :=
  w.journal.filterMap fun
    | .succeeded s => if s.scope = scope ∧ s.questionId = questionId then some s else none
    | _ => none

def operationIn (operations : List (Operation α)) (scope : Nat) (questionId : String) (promise : Nat) :
    Option (Operation α) :=
  operations[promise]?.filter fun o => o.scope = scope ∧ o.questionId = questionId

def lane (w : Hook α) (scope : Nat) (questionId : String) : Lane α :=
  { scope := scope
    questionId := questionId
    pending := OrderedMap.lookup (w.scopes scope).pending questionId
    inflight := OrderedMap.lookup (w.scopes scope).inflight questionId
    status := OrderedMap.lookup (w.scopes scope).statuses questionId
    generation := OrderedMap.lookup (w.scopes scope).questionGenerations questionId
    timers := w.timers.filter fun t => t.scope = scope ∧ t.questionId = questionId
    operation := operationIn w.operations scope questionId
    scheduled := w.scheduledIn scope questionId
    started := w.startedIn scope questionId
    succeeded := w.succeededIn scope questionId }

variable {w : Hook α} {scope scope' : Nat} {questionId questionId' : String} {promise : Nat}
    {o : Operation α}

theorem operationIn_eq_some {operations : List (Operation α)} :
    operationIn operations scope questionId promise = some o ↔
      operations[promise]? = some o ∧ o.scope = scope ∧ o.questionId = questionId := by
  simp [operationIn, Option.filter_eq_some_iff]

theorem operationIn_own (h : w.operations[promise]? = some o) :
    (w.lane o.scope o.questionId).operation promise = some o := operationIn_eq_some.mpr ⟨h, rfl, rfl⟩

theorem operationIn_set (h : w.operations[promise]? = some o) (phase : Phase) (scope : Nat)
    (questionId : String) :
    operationIn (w.operations.set promise { o with phase := phase }) scope questionId =
      if o.scope = scope ∧ o.questionId = questionId then
        Function.update (operationIn w.operations scope questionId) promise
          (some { o with phase := phase })
      else operationIn w.operations scope questionId := by
  have hlt : promise < w.operations.length := (List.getElem?_eq_some_iff.mp h).1
  funext i
  by_cases hi : i = promise
  · subst hi
    by_cases hl : o.scope = scope ∧ o.questionId = questionId
    · rw [if_pos hl, Function.update_self]
      simp [operationIn, hlt, Option.filter, hl]
    · rw [if_neg hl, operationIn, operationIn, List.getElem?_set_self hlt, h]
      simp [Option.filter, hl]
  · have hset : operationIn (w.operations.set promise { o with phase := phase }) scope questionId i =
        operationIn w.operations scope questionId i := by
      simp [operationIn, List.getElem?_set_ne (Ne.symm hi)]
    rw [hset]
    by_cases hl : o.scope = scope ∧ o.questionId = questionId
    · rw [if_pos hl, Function.update_of_ne hi]
    · rw [if_neg hl]

theorem operationIn_append (operations : List (Operation α)) (o : Operation α) (scope : Nat)
    (questionId : String) :
    operationIn (operations ++ [o]) scope questionId =
      if o.scope = scope ∧ o.questionId = questionId then
        Function.update (operationIn operations scope questionId) operations.length (some o)
      else operationIn operations scope questionId := by
  funext i
  rcases Nat.lt_trichotomy i operations.length with hlt | rfl | hgt
  · have happ : operationIn (operations ++ [o]) scope questionId i = operationIn operations scope
        questionId i := by
      simp [operationIn, List.getElem?_append_left hlt]
    rw [happ]
    split
    · rw [Function.update_of_ne (by omega)]
    · rfl
  · by_cases hl : o.scope = scope ∧ o.questionId = questionId
    · rw [if_pos hl, Function.update_self]
      simp [operationIn, Option.filter, hl]
    · rw [if_neg hl]
      simp [operationIn, Option.filter, hl]
  · have hnone : operations[i]? = none := List.getElem?_eq_none (by omega)
    have happ : (operations ++ [o])[i]? = none := List.getElem?_eq_none (by simp; omega)
    split
    · rw [Function.update_of_ne (by omega)]
      simp [operationIn, hnone, happ]
    · simp [operationIn, hnone, happ]

theorem lane_inScope_other (f : SaveScopeState α → SaveScopeState α) (h : scope' ≠ scope) :
    (w.inScope scope f).lane scope' questionId' = w.lane scope' questionId' := by
  simp [lane, inScope, Function.update_of_ne h, scheduledIn, startedIn, succeededIn]

theorem lane_inScope (f : SaveScopeState α → SaveScopeState α) (q : String) :
    (w.inScope scope f).lane scope q =
      { w.lane scope q with
        pending := OrderedMap.lookup (f (w.scopes scope)).pending q
        inflight := OrderedMap.lookup (f (w.scopes scope)).inflight q
        status := OrderedMap.lookup (f (w.scopes scope)).statuses q
        generation := OrderedMap.lookup (f (w.scopes scope)).questionGenerations q } := by
  simp [lane, inScope, scheduledIn, startedIn, succeededIn]

/-- A change of the maps that leaves a question alone leaves its lane. -/
theorem lane_inScope_keep (f : SaveScopeState α → SaveScopeState α) {q : String}
    (h : ∀ s : SaveScopeState α, OrderedMap.lookup (f s).pending q = OrderedMap.lookup s.pending q ∧
      OrderedMap.lookup (f s).inflight q = OrderedMap.lookup s.inflight q ∧
      OrderedMap.lookup (f s).statuses q = OrderedMap.lookup s.statuses q ∧
      OrderedMap.lookup (f s).questionGenerations q = OrderedMap.lookup s.questionGenerations q) :
    (w.inScope scope f).lane scope' q = w.lane scope' q := by
  by_cases hs : scope' = scope
  · subst hs
    obtain ⟨h₁, h₂, h₃, h₄⟩ := h (w.scopes scope')
    rw [lane_inScope, h₁, h₂, h₃, h₄]
    rfl
  · exact lane_inScope_other f hs

theorem setStatus_eq (status : SaveStatus) :
    w.setStatus scope questionId status =
      { w.inScope scope fun s => { s with statuses := OrderedMap.set s.statuses questionId status } with
        failedQuestionIds := (w.setStatus scope questionId status).failedQuestionIds } := by
  unfold setStatus
  dsimp only
  split
  · rfl
  · split <;> rfl

theorem lane_setStatus_eq (status : SaveStatus) :
    (w.setStatus scope questionId status).lane scope' questionId' =
      (w.inScope scope fun s =>
        { s with statuses := OrderedMap.set s.statuses questionId status }).lane
        scope'
        questionId' := by
  rw [setStatus_eq]
  rfl

theorem lane_setStatus (status : SaveStatus) :
    (w.setStatus scope questionId status).lane scope questionId =
      { w.lane scope questionId with status := some status } := by
  rw [lane_setStatus_eq, lane_inScope]
  simp only [OrderedMap.lookup_set_same]
  rfl

theorem lane_setStatus_other (status : SaveStatus) (h : ¬(scope = scope' ∧ questionId = questionId')) :
    (w.setStatus scope questionId status).lane scope' questionId' = w.lane scope' questionId' := by
  rw [lane_setStatus_eq]
  by_cases hq : questionId = questionId'
  · exact lane_inScope_other _ fun hs => h ⟨hs.symm, hq⟩
  · exact lane_inScope_keep _ fun s => ⟨rfl, rfl, OrderedMap.lookup_set_other _ _ (Ne.symm hq), rfl⟩

theorem setStatus_operations (status : SaveStatus) :
    (w.setStatus scope questionId status).operations = w.operations := by
  rw [setStatus_eq]
  rfl

theorem setStatusIfCurrent_operations (status : SaveStatus) :
    (w.setStatusIfCurrent o status).operations = w.operations := by
  unfold setStatusIfCurrent
  split
  · exact setStatus_operations status
  · rfl

theorem lane_setStatusIfCurrent (status : SaveStatus) :
    (w.setStatusIfCurrent o status).lane o.scope o.questionId =
      { w.lane o.scope o.questionId with
        status := (w.lane o.scope o.questionId).statusAfter o status } := by
  unfold setStatusIfCurrent
  by_cases hc : OrderedMap.lookup (w.scopes o.scope).questionGenerations
    o.questionId = some o.questionGeneration
  · have hs : (w.lane o.scope o.questionId).statusAfter o status = some status := if_pos hc
    rw [if_pos hc, lane_setStatus, hs]
  · have hs : (w.lane o.scope o.questionId).statusAfter o status =
      (w.lane o.scope o.questionId).status := if_neg hc
    rw [if_neg hc, hs]

theorem lane_setPhase_eq (phase : Phase) :
    (w.setPhase promise o phase).lane scope questionId =
      { w.lane scope questionId with
        operation := operationIn (w.operations.set promise { o with phase := phase }) scope
          questionId } := rfl

theorem lane_setPhase (h : w.operations[promise]? = some o) (phase : Phase) :
    (w.setPhase promise o phase).lane o.scope o.questionId =
      { w.lane o.scope o.questionId with
        operation := Function.update (w.lane o.scope o.questionId).operation promise
          (some { o with phase := phase }) } := by
  rw [lane_setPhase_eq, operationIn_set h, if_pos ⟨rfl, rfl⟩]
  rfl

/-! ### The journal of a lane -/

theorem lane_scheduled (x : Scheduled α) :
    (w.record (.scheduled x)).lane x.scope x.questionId =
      { w.lane x.scope x.questionId with scheduled := (w.lane x.scope x.questionId).scheduled ++
          [x] } := by
  simp [lane, record, scheduledIn, startedIn, succeededIn]

theorem lane_started :
    (w.record (.started o.scheduled)).lane o.scope o.questionId =
      { w.lane o.scope o.questionId with started := (w.lane o.scope o.questionId).started ++
          [o.scheduled] } := by
  simp [lane, record, scheduledIn, startedIn, succeededIn, Operation.scheduled]

theorem lane_succeeded :
    (w.record (.succeeded o.scheduled)).lane o.scope o.questionId =
      { w.lane o.scope o.questionId with succeeded := (w.lane o.scope o.questionId).succeeded ++
          [o.scheduled] } := by
  simp [lane, record, scheduledIn, startedIn, succeededIn, Operation.scheduled]

theorem lane_failed (x : Scheduled α) :
    (w.record (.failed x)).lane scope questionId = w.lane scope questionId := by
  simp [lane, record, scheduledIn, startedIn, succeededIn]

theorem lane_record_other (x : Scheduled α) {h : Happened α}
    (hh : h = .scheduled x ∨ h = .started x ∨ h = .succeeded x)
    (hl : ¬(x.scope = scope ∧ x.questionId = questionId)) :
    (w.record h).lane scope questionId = w.lane scope questionId := by
  rcases hh with rfl | rfl | rfl <;> simp [lane, record, scheduledIn, startedIn, succeededIn, hl]

/-! ### What an operation does to its lane -/

theorem lane_execute (h : w.operations[promise]? = some o) :
    (w.execute promise o).lane o.scope o.questionId = (w.lane o.scope o.questionId).execute
      promise o := by
  have h' : (w.setStatusIfCurrent o .inflight).operations[promise]? = some o := by
    rw [setStatusIfCurrent_operations]
    exact h
  unfold execute
  rw [lane_started, lane_setPhase h', lane_setStatusIfCurrent]
  rfl

theorem lane_settle (h : w.operations[promise]? = some o) (ok : Bool) :
    (w.settle promise o ok).lane o.scope o.questionId = (w.lane o.scope o.questionId).settle
      promise o ok := by
  have h' : ∀ status, (w.setStatusIfCurrent o status).operations[promise]? = some o := by
    intro status
    rw [setStatusIfCurrent_operations]
    exact h
  unfold settle
  cases ok with
  | true =>
    rw [if_pos rfl, if_pos rfl, lane_succeeded, lane_setPhase (h' _), lane_setStatusIfCurrent]
    rfl
  | false =>
    rw [if_neg (by decide), if_neg (by decide), lane_failed, lane_setPhase (h' _),
      lane_setStatusIfCurrent]
    rfl

theorem lane_resolve (h : w.operations[promise]? = some o) (ok : Bool) :
    (w.resolve promise o ok).lane o.scope o.questionId = (w.lane o.scope o.questionId).resolve
      promise o ok := by
  unfold resolve Lane.resolve
  rw [lane_inScope, lane_setPhase h]
  by_cases hin : OrderedMap.lookup (w.scopes o.scope).inflight o.questionId = some promise
  · have hlane : (w.lane o.scope o.questionId).inflight = some promise := hin
    have hset : OrderedMap.lookup ((w.setPhase promise o (.resolved ok)).scopes o.scope).inflight
        o.questionId = some promise := hin
    rw [if_pos hset, if_pos hlane, OrderedMap.lookup_delete_same]
    rfl
  · have hlane : (w.lane o.scope o.questionId).inflight ≠ some promise := hin
    have hset : OrderedMap.lookup ((w.setPhase promise o (.resolved ok)).scopes o.scope).inflight
        o.questionId ≠ some promise := hin
    rw [if_neg hset, if_neg hlane]
    rfl

/-! ### What an operation does to other lanes -/

section
variable (hl : ¬(o.scope = scope ∧ o.questionId = questionId))
include hl

theorem lane_setStatusIfCurrent_other (status : SaveStatus) :
    (w.setStatusIfCurrent o status).lane scope questionId = w.lane scope questionId := by
  unfold setStatusIfCurrent
  split
  · exact lane_setStatus_other status hl
  · rfl

theorem lane_setPhase_other (h : w.operations[promise]? = some o) (phase : Phase) :
    (w.setPhase promise o phase).lane scope questionId = w.lane scope questionId := by
  rw [lane_setPhase_eq, operationIn_set h, if_neg hl]
  rfl

theorem lane_execute_other (h : w.operations[promise]? = some o) :
    (w.execute promise o).lane scope questionId = w.lane scope questionId := by
  have h' : (w.setStatusIfCurrent o .inflight).operations[promise]? = some o := by
    rw [setStatusIfCurrent_operations]
    exact h
  unfold execute
  rw [lane_record_other o.scheduled (.inr (.inl rfl)) hl, lane_setPhase_other hl h',
    lane_setStatusIfCurrent_other hl]

theorem lane_settle_other (h : w.operations[promise]? = some o) (ok : Bool) :
    (w.settle promise o ok).lane scope questionId = w.lane scope questionId := by
  have h' : ∀ status, (w.setStatusIfCurrent o status).operations[promise]? = some o := by
    intro status
    rw [setStatusIfCurrent_operations]
    exact h
  unfold settle
  cases ok with
  | true =>
    rw [if_pos rfl, if_pos rfl, lane_record_other o.scheduled (.inr (.inr rfl)) hl,
      lane_setPhase_other hl (h' _), lane_setStatusIfCurrent_other hl]
  | false =>
    rw [if_neg (by decide), if_neg (by decide), lane_failed, lane_setPhase_other hl (h' _),
      lane_setStatusIfCurrent_other hl]

theorem lane_resolve_other (h : w.operations[promise]? = some o) (ok : Bool) :
    (w.resolve promise o ok).lane scope questionId = w.lane scope questionId := by
  unfold resolve
  by_cases hs : scope = o.scope
  · subst hs
    have hq : questionId ≠ o.questionId := fun hn => hl ⟨rfl, hn.symm⟩
    rw [lane_inScope, lane_setPhase_other hl h]
    split
    · rw [OrderedMap.lookup_delete_other _ hq]
      rfl
    · rfl
  · rw [lane_inScope_other _ hs, lane_setPhase_other hl h]

end

/-! ### A save that runs -/

theorem lane_clearTimeout (timer : Nat) :
    (w.clearTimeout timer).lane scope questionId =
      { w.lane scope questionId with
        timers := ((w.clearTimeout timer).lane scope questionId).timers } := rfl

theorem mem_lane_clearTimeout {timer : Nat} {t : Timer α} :
    t ∈ ((w.clearTimeout timer).lane scope questionId).timers ↔
    t ∈ (w.lane scope questionId).timers ∧ t.id ≠ timer := by
  simp only [lane, clearTimeout, List.mem_filter, decide_eq_true_eq]
  tauto

/-- The promise of a save that `runSave` makes. -/
def newOperation (w : Hook α) (scope : Nat) (questionId : String) (save : α)
    (questionGeneration : Nat) : Operation α :=
  { scope := scope
    questionId := questionId
    save := save
    questionGeneration := questionGeneration
    previous := OrderedMap.lookup (w.scopes scope).inflight questionId
    phase := .waiting }

def withOperation (w : Hook α) (o : Operation α) : Hook α :=
  { w with operations := w.operations ++ [o] }

theorem lane_withOperation_eq :
    (w.withOperation o).lane scope questionId =
      { w.lane scope questionId with
        operation := operationIn (w.operations ++ [o]) scope questionId } := rfl

theorem withOperation_last : (w.withOperation o).operations[w.operations.length]? = some o := by
  simp [withOperation]

theorem runSave_eq (save : α) (g : Nat) :
    w.runSave scope questionId save g =
      ((if (w.newOperation scope questionId save g).previous = none then
          (w.withOperation (w.newOperation scope questionId save g)).execute w.operations.length
            (w.newOperation scope questionId save g)
        else w.withOperation (w.newOperation scope questionId save g)).inScope scope fun s =>
        { s with inflight := OrderedMap.set s.inflight questionId w.operations.length }) := rfl

theorem lane_setInflight (p : Nat) :
    (w.inScope scope fun s => { s with inflight := OrderedMap.set s.inflight questionId p }).lane
      scope questionId = { w.lane scope questionId with inflight := some p } := by
  rw [lane_inScope, OrderedMap.lookup_set_same]
  rfl

theorem lane_setInflight_other (p : Nat) (h : ¬(scope = scope' ∧ questionId = questionId')) :
    (w.inScope scope fun s => { s with inflight := OrderedMap.set s.inflight questionId p }).lane
      scope' questionId' = w.lane scope' questionId' := by
  by_cases hq : questionId = questionId'
  · exact lane_inScope_other _ fun hs => h ⟨hs.symm, hq⟩
  · exact lane_inScope_keep _ fun s => ⟨rfl, OrderedMap.lookup_set_other _ _ (Ne.symm hq), rfl, rfl⟩

theorem lane_deletePending :
    (w.inScope scope fun s => { s with pending := OrderedMap.delete s.pending questionId }).lane
      scope questionId = { w.lane scope questionId with pending := none } := by
  rw [lane_inScope, OrderedMap.lookup_delete_same]
  rfl

theorem lane_deletePending_other (h : ¬(scope = scope' ∧ questionId = questionId')) :
    (w.inScope scope fun s => { s with pending := OrderedMap.delete s.pending questionId }).lane
      scope' questionId' = w.lane scope' questionId' := by
  by_cases hq : questionId = questionId'
  · exact lane_inScope_other _ fun hs => h ⟨hs.symm, hq⟩
  · exact lane_inScope_keep _ fun s => ⟨OrderedMap.lookup_delete_other _ (Ne.symm hq), rfl, rfl, rfl⟩

theorem lane_launch {e : PendingEntry α} :
    (w.launch scope questionId e.save e.questionGeneration).lane scope questionId =
      let l := (w.lane scope questionId).launch w.operations.length e (w.lane scope questionId).timers
      if (w.lane scope questionId).inflight = none then
        l.execute w.operations.length ((w.lane scope questionId).operationOf e)
      else l := by
  generalize ho : (w.lane scope questionId).operationOf e = o
  have hown : o.scope = scope ∧ o.questionId = questionId := by rw [← ho]; exact ⟨rfl, rfl⟩
  have hprevious : o.previous = (w.lane scope questionId).inflight := by rw [← ho]; rfl
  let w' := w.inScope scope fun s => { s with pending := OrderedMap.delete s.pending questionId }
  have hnew : w'.newOperation scope questionId e.save e.questionGeneration = o := by
    rw [← ho]
    simp [newOperation, Lane.operationOf, lane, w', inScope]
  have hlane : (w'.withOperation o).lane o.scope o.questionId =
      { w.lane o.scope o.questionId with
        pending := none
        operation := Function.update (w.lane o.scope o.questionId).operation w.operations.length
          (some o) } := by
    rw [lane_withOperation_eq, operationIn_append, if_pos ⟨rfl, rfl⟩]
    have hdelete : w'.lane o.scope o.questionId =
        { w.lane o.scope o.questionId with pending := none } := by
      rw [hown.1, hown.2]
      exact lane_deletePending
    rw [hdelete]
    rfl
  have hlaunch : w.launch scope questionId e.save e.questionGeneration =
      (if o.previous = none then (w'.withOperation o).execute w.operations.length o
        else w'.withOperation o).inScope scope
        fun s => { s with inflight := OrderedMap.set s.inflight questionId w.operations.length } := by
    rw [← hnew]
    rfl
  have hlast : (w'.withOperation o).operations[w.operations.length]? = some o := withOperation_last
  obtain ⟨rfl, rfl⟩ := hown
  rw [hlaunch, lane_setInflight, hprevious]
  dsimp only
  by_cases hp : (w.lane o.scope o.questionId).inflight = none
  · rw [if_pos hp, if_pos hp, lane_execute hlast, hlane]
    simp only [Lane.launch, ho]
    rfl
  · rw [if_neg hp, if_neg hp, hlane]
    simp only [Lane.launch, ho]

theorem lane_launch_other (save : α) (g : Nat) (h : ¬(scope = scope' ∧ questionId = questionId')) :
    (w.launch scope questionId save g).lane scope' questionId' = w.lane scope' questionId' := by
  let w' := w.inScope scope fun s => { s with pending := OrderedMap.delete s.pending questionId }
  let o := w'.newOperation scope questionId save g
  have ho : ¬(o.scope = scope' ∧ o.questionId = questionId') := h
  have hlane : (w'.withOperation o).lane scope' questionId' = w.lane scope' questionId' := by
    rw [lane_withOperation_eq, operationIn_append, if_neg ho]
    exact lane_deletePending_other h
  have hlaunch : w.launch scope questionId save g =
      (if o.previous = none then (w'.withOperation o).execute w.operations.length o
        else w'.withOperation o).inScope scope
        fun s => { s with inflight := OrderedMap.set s.inflight questionId w.operations.length } := rfl
  have hlast : (w'.withOperation o).operations[w.operations.length]? = some o := withOperation_last
  rw [hlaunch, lane_setInflight_other _ h]
  split
  · rw [lane_execute_other ho hlast, hlane]
  · exact hlane

end Hook

/-! ## Every event moves the lanes -/

structure Lane.Moves (l l' : Lane α) : Prop where
  steps : Relation.ReflTransGen Lane.Step l l'
  generation : l'.generation = l.generation

namespace Lane.Moves

variable {l l' l'' : Lane α}

theorem refl (l : Lane α) : l.Moves l := ⟨.refl, rfl⟩

theorem of_eq (h : l' = l) : l.Moves l' := h ▸ refl l

theorem trans (h : l.Moves l') (h' : l'.Moves l'') : l.Moves l'' :=
  ⟨h.steps.trans h'.steps, h'.generation.trans h.generation⟩

theorem single (h : l.Step l') (hg : l'.generation = l.generation) : l.Moves l' := ⟨.single h, hg⟩

end Lane.Moves

theorem Lane.Sound.steps {l l' : Lane α} (h : l.Sound) (hs : Relation.ReflTransGen Lane.Step l l') :
    l'.Sound :=
  closure_invariant (fun _ _ hl hstep => hl.step hstep) hs h

namespace Hook

variable {w w' : Hook α} {scope scope' : Nat} {questionId questionId' : String} {promise : Nat}
    {o : Operation α}

def Moves (w w' : Hook α) : Prop := ∀ scope questionId, (w.lane scope questionId).Moves
      (w'.lane scope questionId)

theorem Moves.trans {w'' : Hook α} (h : w.Moves w') (h' : w'.Moves w'') : w.Moves w'' :=
  fun s q => (h s q).trans (h' s q)

theorem moves_clearTimeout (timer : Nat) : w.Moves (w.clearTimeout timer) := by
  intro s q
  rw [lane_clearTimeout]
  refine .single (.lose _ fun t ht => ?_) rfl
  exact (mem_lane_clearTimeout.mp ht).1

theorem cleared_clearTimeout {e : PendingEntry α} (he : (w.lane scope questionId).pending = some e) :
    (w.lane scope questionId).Cleared ((w.clearTimeout e.timer).lane scope questionId).timers := by
  intro t ht
  obtain ⟨hmem, hid⟩ := mem_lane_clearTimeout.mp ht
  refine ⟨hmem, fun x hx => ?_⟩
  rw [he] at hx
  cases hx
  exact hid

theorem moves_launch {e : PendingEntry α} (he : (w.lane scope questionId).pending = some e) :
    w.Moves ((w.clearTimeout e.timer).launch scope questionId e.save e.questionGeneration) := by
  intro s q
  by_cases hl : scope = s ∧ questionId = q
  · obtain ⟨rfl, rfl⟩ := hl
    rw [lane_launch]
    dsimp only
    have hfresh : ∀ j, w.operations.length ≤ j → (w.lane scope questionId).operation j = none := by
      intro j hj
      simp [lane, operationIn, List.getElem?_eq_none hj]
    have hlaunch : (w.lane scope questionId).Moves
        ((w.lane scope questionId).launch w.operations.length e
        ((w.clearTimeout e.timer).lane scope questionId).timers) :=
      .single (.launch _ e _ he (cleared_clearTimeout he) hfresh) rfl
    split
    · -- with nothing in flight the save starts at once
      rename_i hp
      refine hlaunch.trans (.single (.execute _ _ ?_ rfl ?_) rfl)
      · exact Function.update_self ..
      · intro p o' hprevious
        have hp' : (w.lane scope questionId).inflight = some p := hprevious
        rw [show (w.lane scope questionId).inflight = none from hp] at hp'
        cases hp'
    · exact hlaunch
  · rw [lane_launch_other _ _ hl]
    exact moves_clearTimeout _ s q

theorem moves_drain :
    ∀ (entries : List (String × PendingEntry α)) (w : Hook α), (entries.map Prod.fst).Nodup →
    (∀ e ∈ entries, (w.lane scope e.1).pending = some e.2) →
    w.Moves (entries.foldl
        (fun w e => (w.clearTimeout e.2.timer).launch scope e.1 e.2.save e.2.questionGeneration) w)
  | [], w, _, _ => fun s q => .refl _
  | e :: entries, w, hnodup, h => by
    rw [List.map_cons, List.nodup_cons] at hnodup
    refine (moves_launch (h e (by simp))).trans (moves_drain entries _ hnodup.2 fun x hx => ?_)
    have hne : ¬(scope = scope ∧ e.1 = x.1) := fun hn => hnodup.1 (hn.2 ▸ List.mem_map_of_mem hx)
    rw [lane_launch_other _ _ hne]
    exact h x (List.mem_cons_of_mem _ hx)

theorem moves_drainPending (w : Hook α) (scope : Nat) : w.Moves (w.drainPending scope) :=
  moves_drain _ w (w.scopes scope).pending.nodup fun _ he => OrderedMap.lookup_of_mem he

/-! ### Timers that are cleared -/

theorem clear_all (entries : List (String × PendingEntry α)) : ∀ w : Hook α,
    ∃ timers, entries.foldl (fun w e => w.clearTimeout e.2.timer) w = { w with timers := timers } ∧
      ∀ t ∈ timers, t ∈ w.timers ∧ ∀ e ∈ entries, t.id ≠ e.2.timer := by
  induction entries with
  | nil => exact fun w => ⟨w.timers, rfl, fun t ht => ⟨ht, fun _ he => by cases he⟩⟩
  | cons e entries ih =>
    intro w
    obtain ⟨timers, heq, hmem⟩ := ih (w.clearTimeout e.2.timer)
    refine ⟨timers, heq, fun t ht => ?_⟩
    obtain ⟨hw, hall⟩ := hmem t ht
    obtain ⟨hw, hid⟩ := List.mem_filter.mp hw
    refine ⟨hw, fun x hx => ?_⟩
    rcases List.mem_cons.mp hx with rfl | hx
    · exact of_decide_eq_true hid
    · exact hall x hx

theorem moves_cancelPending (w : Hook α) : w.Moves w.cancelPending := by
  intro s q
  obtain ⟨timers, heq, hmem⟩ := clear_all (w.scopes w.active).pending.rows w
  have hcancel : w.cancelPending =
      ({ w with timers := timers } : Hook α).inScope w.active fun s =>
        { s with pending := .empty } := by
    unfold cancelPending
    dsimp only
    rw [heq]
  rw [hcancel]
  by_cases hs : s = w.active
  · subst hs
    rw [lane_inScope, OrderedMap.lookup_empty]
    refine .single (.cancel (timers.filter fun t => t.scope = w.active ∧
        t.questionId = q) fun t ht => ?_) rfl
    obtain ⟨ht, hl⟩ := List.mem_filter.mp ht
    obtain ⟨hw, hall⟩ := hmem t ht
    exact ⟨List.mem_filter.mpr ⟨hw, hl⟩, fun e he => hall _ (OrderedMap.mem_of_lookup he)⟩
  · rw [lane_inScope_other _ hs]
    refine .single (.lose (timers.filter fun t => t.scope = s ∧ t.questionId = q) fun t ht => ?_) rfl
    obtain ⟨ht, hl⟩ := List.mem_filter.mp ht
    exact List.mem_filter.mpr ⟨(hmem t ht).1, hl⟩

theorem cancelPending_active (w : Hook α) : w.cancelPending.active = w.active := by
  obtain ⟨timers, heq, -⟩ := clear_all (w.scopes w.active).pending.rows w
  unfold cancelPending
  dsimp only
  rw [heq]
  rfl

/-! ### A new save -/

def superseded (w : Hook α) (questionId : String) : Hook α :=
  match OrderedMap.lookup (w.scopes w.active).pending questionId with
  | some existing => w.clearTimeout existing.timer
  | none => w

theorem superseded_eq (w : Hook α) (questionId : String) :
    w.superseded questionId = { w with timers := (w.superseded questionId).timers } := by
  unfold superseded
  split <;> rfl

theorem mem_superseded {t : Timer α} (h : t ∈ (w.superseded questionId).timers) :
    t ∈ w.timers ∧ ∀ e, (w.lane w.active questionId).pending = some e → t.id ≠ e.timer := by
  unfold superseded at h
  split at h
  · rename_i existing hex
    obtain ⟨ht, hid⟩ := List.mem_filter.mp h
    refine ⟨ht, fun e he => ?_⟩
    have : some existing = some e := hex.symm.trans he
    cases this
    exact of_decide_eq_true hid
  · rename_i hnone
    refine ⟨h, fun e he => ?_⟩
    have : none = some e := hnone.symm.trans he
    cases this

theorem scheduleSave_eq (w : Hook α) (questionId : String) (save : α) :
    ∃ t : Timer α, (t.scope = w.active ∧ t.questionId = questionId) ∧
      t.questionGeneration = (w.lane w.active questionId).generation.getD 0 + 1 ∧
      w.scheduleSave questionId save =
        let w₁ := (w.superseded questionId).inScope w.active fun s =>
          { s with
            questionGenerations :=
              OrderedMap.set s.questionGenerations questionId t.questionGeneration }
        let w₂ := w₁.setStatus w.active questionId .pending
        let w₃ : Hook α := { w₂ with nextTimer := w₂.nextTimer + 1, timers := w₂.timers ++ [t] }
        (w₃.inScope w.active fun s =>
          { s with pending := OrderedMap.set s.pending questionId t.entry }).record
          (.scheduled t.scheduled) := by
  let g := (OrderedMap.lookup ((w.superseded questionId).scopes w.active).questionGenerations
      questionId).getD 0 + 1
  let w₁ := (w.superseded questionId).inScope w.active fun s =>
    { s with questionGenerations := OrderedMap.set s.questionGenerations questionId g }
  let w₂ := w₁.setStatus w.active questionId .pending
  refine ⟨{ id := w₂.nextTimer, scope := w.active, questionId := questionId, save := save,
            questionGeneration := g },
    ⟨rfl, rfl⟩, ?_, rfl⟩
  change (OrderedMap.lookup ((w.superseded questionId).scopes w.active).questionGenerations
      questionId).getD 0 + 1 = _
  rw [superseded_eq]
  rfl

theorem lane_superseded :
    (w.superseded questionId).lane scope' questionId' =
      { w.lane scope' questionId' with
        timers := ((w.superseded questionId).lane scope' questionId').timers } := by
  rw [superseded_eq]
  rfl

theorem lane_setGeneration (g : Nat) :
    (w.inScope scope fun s =>
        { s with questionGenerations := OrderedMap.set s.questionGenerations questionId g }).lane
          scope questionId =
      { w.lane scope questionId with generation := some g } := by
  rw [lane_inScope, OrderedMap.lookup_set_same]
  rfl

theorem lane_setPending (e : PendingEntry α) :
    (w.inScope scope fun s => { s with pending := OrderedMap.set s.pending questionId e }).lane
      scope questionId = { w.lane scope questionId with pending := some e } := by
  rw [lane_inScope, OrderedMap.lookup_set_same]
  rfl

theorem lane_setGeneration_other (g : Nat) (h : ¬(scope = scope' ∧ questionId = questionId')) :
    (w.inScope scope fun s =>
        { s with questionGenerations := OrderedMap.set s.questionGenerations questionId g }).lane
          scope' questionId' =
      w.lane scope' questionId' := by
  by_cases hq : questionId = questionId'
  · exact lane_inScope_other _ fun hs => h ⟨hs.symm, hq⟩
  · exact lane_inScope_keep _ fun s => ⟨rfl, rfl, rfl, OrderedMap.lookup_set_other _ _ (Ne.symm hq)⟩

theorem lane_setPending_other (e : PendingEntry α) (h : ¬(scope = scope' ∧ questionId = questionId')) :
    (w.inScope scope fun s => { s with pending := OrderedMap.set s.pending questionId e }).lane
      scope' questionId' = w.lane scope' questionId' := by
  by_cases hq : questionId = questionId'
  · exact lane_inScope_other _ fun hs => h ⟨hs.symm, hq⟩
  · exact lane_inScope_keep _ fun s => ⟨OrderedMap.lookup_set_other _ _ (Ne.symm hq), rfl, rfl, rfl⟩

theorem lane_scheduleSave (w : Hook α) (questionId : String) (save : α) :
    ∃ t timers, (w.scheduleSave questionId save).lane w.active questionId =
      (w.lane w.active questionId).schedule t timers ∧
      t.questionGeneration = (w.lane w.active questionId).generation.getD 0 + 1 ∧
      (w.lane w.active questionId).Step ((w.lane w.active questionId).schedule t timers) := by
  obtain ⟨t, ⟨hscope, hquestion⟩, hg, heq⟩ := scheduleSave_eq w questionId save
  let timers := ((w.superseded questionId).timers ++ [t]).filter fun t => t.scope = w.active ∧
    t.questionId = questionId
  refine ⟨t, timers, ?_, hg, .schedule t timers ⟨hscope, hquestion⟩ hg fun x hx => ?_⟩
  · have hjournal : ∀ v : Hook α, (v.record (.scheduled t.scheduled)).lane w.active questionId =
        { v.lane w.active questionId with scheduled := (v.lane w.active questionId).scheduled ++
            [t.scheduled] } := by
      intro v
      rw [← hscope, ← hquestion]
      exact lane_scheduled t.scheduled
    have htimers : ∀ (v : Hook α) (n : Nat),
        ({ v with nextTimer := n, timers := v.timers ++ [t] } : Hook α).lane w.active questionId =
          { v.lane w.active questionId with
            timers := (v.timers ++ [t]).filter fun t => t.scope = w.active ∧
            t.questionId = questionId } := fun _ _ => rfl
    rw [heq]
    dsimp only
    rw [hjournal, lane_setPending, htimers, lane_setStatus, lane_setGeneration, lane_superseded,
      setStatus_eq]
    rfl
  · obtain ⟨hx, hl⟩ := List.mem_filter.mp hx
    rcases List.mem_append.mp hx with hx | hx
    · obtain ⟨ht, hid⟩ := mem_superseded hx
      exact .inr ⟨List.mem_filter.mpr ⟨ht, hl⟩, hid⟩
    · exact .inl (List.mem_singleton.mp hx)

theorem moves_scheduleSave_other (w : Hook α) (save : α)
    (h : ¬(w.active = scope ∧ questionId = questionId')) :
    (w.lane scope questionId').Moves ((w.scheduleSave questionId save).lane scope questionId') := by
  obtain ⟨t, ⟨hscope, hquestion⟩, hg, heq⟩ := scheduleSave_eq w questionId save
  have hown : ¬(t.scheduled.scope = scope ∧ t.scheduled.questionId = questionId') := by
    change ¬(t.scope = scope ∧ t.questionId = questionId')
    rw [hscope, hquestion]
    exact h
  have htimers : ∀ (v : Hook α) (n : Nat),
      ({ v with nextTimer := n, timers := v.timers ++ [t] } : Hook α).lane scope questionId' =
        v.lane scope questionId' := by
    intro v n
    have hfilter : (v.timers ++ [t]).filter (fun t => t.scope = scope ∧ t.questionId = questionId') =
        v.timers.filter fun t => t.scope = scope ∧ t.questionId = questionId' := by
      have hnil : [t].filter (fun t => t.scope = scope ∧ t.questionId = questionId') = [] := by
        rw [List.filter_eq_nil_iff]
        simpa [hscope, hquestion] using h
      rw [List.filter_append, hnil, List.append_nil]
    simp only [lane, hfilter, scheduledIn, startedIn, succeededIn]
  rw [heq]
  dsimp only
  rw [lane_record_other t.scheduled (.inl rfl) hown, lane_setPending_other _ h, htimers,
    lane_setStatus_other _ h, lane_setGeneration_other _ h, lane_superseded]
  refine .single (.lose _ fun x hx => ?_) rfl
  obtain ⟨hx, hl⟩ := List.mem_filter.mp hx
  exact List.mem_filter.mpr ⟨(mem_superseded hx).1, hl⟩

/-! ### The active scope -/

theorem setStatus_active (status : SaveStatus) :
    (w.setStatus scope questionId status).active = w.active := by
  rw [setStatus_eq]
  rfl

theorem setStatusIfCurrent_active (status : SaveStatus) :
    (w.setStatusIfCurrent o status).active = w.active := by
  unfold setStatusIfCurrent
  split
  · exact setStatus_active status
  · rfl

theorem launch_active (save : α) (g : Nat) : (w.launch scope questionId save g).active = w.active := by
  unfold launch
  rw [runSave_eq]
  split
  · exact setStatusIfCurrent_active .inflight
  · rfl

theorem drainPending_active (w : Hook α) (scope : Nat) : (w.drainPending scope).active = w.active := by
  have hfold : ∀ (entries : List (String × PendingEntry α)) (w : Hook α), (entries.foldl
      (fun w e => (w.clearTimeout e.2.timer).launch scope e.1 e.2.save e.2.questionGeneration)
        w).active = w.active := by
    intro entries
    induction entries with
    | nil => exact fun _ => rfl
    | cons e entries ih => exact fun w => (ih _).trans (launch_active _ _)
  exact hfold _ w

theorem flushRound_active (w : Hook α) (scope : Nat) (start now : Int) :
    (w.flushRound scope start now).2.active = w.active := by
  have hdrain := drainPending_active w scope
  unfold flushRound
  dsimp only
  split
  · exact hdrain
  · split <;> exact hdrain

theorem fire_active (t : Timer α) : (w.fire t).active = w.active := by
  unfold fire
  dsimp only
  split
  · exact launch_active _ _
  · rfl

theorem switchScope_active (w : Hook α) (scopeKey : Option String) :
    w.active ≤ (w.switchScope scopeKey).active := by
  unfold switchScope
  split
  · exact Nat.le_refl _
  · exact Nat.le_succ_of_le (Nat.le_of_eq (cancelPending_active w).symm)

/-! ### Every event -/

/-- Every lane is sound, and the scopes that come later are as they will be made. -/
structure Sound (w : Hook α) : Prop where
  lanes : ∀ scope questionId, (w.lane scope questionId).Sound
  later : ∀ scope, w.active < scope → ∀ questionId, (w.lane scope questionId).generation = none

theorem Sound.moves (h : w.Sound) (hm : w.Moves w') (hactive : w.active ≤ w'.active) : w'.Sound := by
  refine ⟨fun s q => (h.lanes s q).steps (hm s q).steps, fun s hs q => ?_⟩
  rw [(hm s q).generation]
  exact h.later s (Nat.lt_of_le_of_lt hactive hs) q

theorem moves_fire (h : w.Sound) {t : Timer α} (ht : t ∈ w.timers) : w.Moves (w.fire t) := by
  have hown : t ∈ (w.lane t.scope t.questionId).timers := List.mem_filter.mpr ⟨ht, by simp⟩
  have hpending : (w.lane t.scope t.questionId).pending = some t.entry :=
    (h.lanes _ _).debounced.carries t hown
  have hlaunch : w.Moves
      ((w.clearTimeout t.id).launch t.scope t.questionId t.save t.questionGeneration) :=
    moves_launch (e := t.entry) hpending
  unfold fire
  by_cases hm : w.mounted = true
  · rw [if_pos (show (w.clearTimeout t.id).mounted = true from hm)]
    exact hlaunch
  · rw [if_neg (show ¬(w.clearTimeout t.id).mounted = true from hm)]
    exact moves_clearTimeout t.id

theorem moves_execute (ho : w.operations[promise]? = some o) (hw : o.phase = .waiting)
    {previous : Nat} (hp : o.previous = some previous) (hr : w.isResolved previous = true) :
    w.Moves (w.execute promise o) := by
  intro s q
  by_cases hl : o.scope = s ∧ o.questionId = q
  · obtain ⟨rfl, rfl⟩ := hl
    rw [lane_execute ho]
    refine .single (.execute _ _ (operationIn_own ho) hw fun p o' hprevious hop => ?_) rfl
    rw [hp] at hprevious
    cases hprevious
    have hop : w.operations[previous]? = some o' := (operationIn_eq_some.mp hop).1
    unfold isResolved at hr
    rw [hop] at hr
    exact hr
  · exact .of_eq (lane_execute_other hl ho)

theorem moves_settle (ho : w.operations[promise]? = some o) (hr : o.phase = .running) (ok : Bool) :
    w.Moves (w.settle promise o ok) := by
  intro s q
  by_cases hl : o.scope = s ∧ o.questionId = q
  · obtain ⟨rfl, rfl⟩ := hl
    rw [lane_settle ho]
    exact .single (.settle _ _ ok (operationIn_own ho) hr) rfl
  · exact .of_eq (lane_settle_other hl ho ok)

theorem moves_resolve (ho : w.operations[promise]? = some o) {ok : Bool} (hs : o.phase = .settled ok) :
    w.Moves (w.resolve promise o ok) := by
  intro s q
  by_cases hl : o.scope = s ∧ o.questionId = q
  · obtain ⟨rfl, rfl⟩ := hl
    rw [lane_resolve ho]
    exact .single (.resolve _ _ ok (operationIn_own ho) hs) rfl
  · exact .of_eq (lane_resolve_other hl ho ok)

theorem moves_flushRound (w : Hook α) (scope : Nat) (start now : Int) :
    w.Moves (w.flushRound scope start now).2 := by
  have hdrain := moves_drainPending w scope
  unfold flushRound
  dsimp only
  split
  · exact hdrain
  · split
    · exact hdrain
    · exact fun s q => hdrain s q

theorem moves_switchScope (h : w.Sound) (scopeKey : Option String) :
    w.Moves (w.switchScope scopeKey) := by
  unfold switchScope
  split
  · exact fun s q => .refl _
  · have hcancel := moves_cancelPending w
    intro s q
    refine (hcancel s q).trans (.of_eq ?_)
    by_cases hs : s = w.active + 1
    · subst hs
      have hsound := (h.lanes (w.active + 1) q).steps (hcancel _ q).steps
      have hnone := (hcancel (w.active + 1) q).generation.trans (h.later _ (Nat.lt_succ_self _) q)
      obtain ⟨hpending, hinflight, hstatus, -⟩ := hsound.untouched hnone
      change (w.cancelPending.inScope (w.cancelPending.active + 1) fun _ => createScopeState
          scopeKey _).lane _ q = _
      rw [cancelPending_active, lane_inScope]
      ext1
      case pending => exact hpending.symm
      case inflight => exact hinflight.symm
      case status => exact hstatus.symm
      case generation => exact hnone.symm
      all_goals rfl
    · refine lane_inScope_other (w := w.cancelPending) (fun _ => createScopeState scopeKey _) ?_
      rw [cancelPending_active]
      exact hs

theorem moves_step (h : w.Sound) {e : Event α} {r : Option (Nat × FlushResult)}
    (hx : e.step w = .ok (r, w')) (he : ∀ questionId save, e ≠ .scheduleSave questionId save) :
    w.Moves w' ∧ w.active ≤ w'.active := by
  cases e with
  | scheduleSave questionId save => exact absurd rfl (he questionId save)
  | timer index =>
    simp only [Event.step, bind_eq_ok, orThrow_eq_ok, pure_eq_ok, Prod.mk.injEq] at hx
    obtain ⟨t, ht, -, rfl⟩ := hx
    exact ⟨moves_fire h (List.mem_of_getElem? ht), Nat.le_of_eq (fire_active t).symm⟩
  | execute promise =>
    simp only [Event.step, bind_eq_ok, orThrow_eq_ok, require_eq_ok, pure_eq_ok, Prod.mk.injEq] at hx
    obtain ⟨o, ho, -, hw, previous, hp, -, hr, -, rfl⟩ := hx
    exact ⟨moves_execute ho hw hp hr, Nat.le_of_eq (setStatusIfCurrent_active .inflight).symm⟩
  | settle promise ok =>
    simp only [Event.step, bind_eq_ok, orThrow_eq_ok, require_eq_ok, pure_eq_ok, Prod.mk.injEq] at hx
    obtain ⟨o, ho, -, hr, -, rfl⟩ := hx
    exact ⟨moves_settle ho hr ok, Nat.le_of_eq (setStatusIfCurrent_active _).symm⟩
  | resolve promise =>
    simp only [Event.step, bind_eq_ok, orThrow_eq_ok] at hx
    obtain ⟨o, ho, hx⟩ := hx
    split at hx
    · rename_i ok hs
      cases hx
      exact ⟨moves_resolve ho hs, Nat.le_refl _⟩
    · cases hx
  | flush start now =>
    have hw : (w.flushRound w.active start now).2 = w' := congrArg Prod.snd (Except.ok.inj hx)
    rw [← hw]
    exact ⟨moves_flushRound w w.active start now,
      Nat.le_of_eq (flushRound_active w w.active start now).symm⟩
  | settledRound index now =>
    simp only [Event.step, bind_eq_ok, orThrow_eq_ok, require_eq_ok] at hx
    obtain ⟨f, -, -, -, hx⟩ := hx
    let v : Hook α := { w with flushes := w.flushes.eraseIdx index }
    have hw : (v.flushRound f.scope f.start now).2 = w' := congrArg Prod.snd (Except.ok.inj hx)
    have hactive : (v.flushRound f.scope f.start now).2.active = w.active :=
      flushRound_active v f.scope f.start now
    rw [← hw]
    exact ⟨fun s q => moves_flushRound v f.scope f.start now s q, Nat.le_of_eq hactive.symm⟩
  | timeout index =>
    simp only [Event.step, bind_eq_ok, orThrow_eq_ok, pure_eq_ok, Prod.mk.injEq] at hx
    obtain ⟨f, -, -, rfl⟩ := hx
    exact ⟨fun s q => .refl _, Nat.le_refl _⟩
  | switchScope scopeKey =>
    cases hx
    exact ⟨moves_switchScope h scopeKey, switchScope_active w scopeKey⟩
  | mount =>
    cases hx
    exact ⟨fun s q => .refl _, Nat.le_refl _⟩
  | unmount =>
    cases hx
    exact ⟨fun s q => moves_cancelPending w s q, Nat.le_of_eq (cancelPending_active w).symm⟩

theorem step_lanes (h : w.Sound) {e : Event α} {r : Option (Nat × FlushResult)}
    (hx : e.step w = .ok (r, w')) :
    w'.Sound ∧ ∀ scope questionId, Relation.ReflTransGen Lane.Step (w.lane scope questionId)
        (w'.lane scope questionId) := by
  by_cases he : ∀ questionId save, e ≠ .scheduleSave questionId save
  · obtain ⟨hm, hactive⟩ := moves_step h hx he
    exact ⟨h.moves hm hactive, fun s q => (hm s q).steps⟩
  · obtain ⟨questionId, save, rfl⟩ : ∃ questionId save, e = .scheduleSave questionId save := by
      by_contra hn
      exact he fun questionId save heq => hn ⟨questionId, save, heq⟩
    cases hx
    have hsteps : ∀ s q, Relation.ReflTransGen Lane.Step (w.lane s q)
            ((w.scheduleSave questionId save).lane s q) := by
      intro s q
      by_cases hl : w.active = s ∧ questionId = q
      · obtain ⟨rfl, rfl⟩ := hl
        obtain ⟨t, timers, hlane, -, hstep⟩ := lane_scheduleSave w questionId save
        rw [hlane]
        exact .single hstep
      · exact (moves_scheduleSave_other w save hl).steps
    refine ⟨⟨fun s q => (h.lanes s q).steps (hsteps s q), fun s hs q => ?_⟩, hsteps⟩
    have hactive : (w.scheduleSave questionId save).active = w.active := by
      obtain ⟨t, -, -, heq⟩ := scheduleSave_eq w questionId save
      rw [heq]
      dsimp only
      exact (setStatus_active .pending).trans (by rw [superseded_eq]; rfl)
    rw [hactive] at hs
    rw [(moves_scheduleSave_other w save fun hl => by omega).generation]
    exact h.later s hs q

theorem start_sound (scopeKey : Option String) : (start scopeKey : Hook α).Sound := by
  have hlane : ∀ s q, (start scopeKey : Hook α).lane s q = .empty s q := by
    intro s q
    ext1
    case operation =>
      funext i
      simp [lane, operationIn, start, Lane.empty]
    all_goals rfl
  refine ⟨fun s q => ?_, fun _ _ _ => rfl⟩
  rw [hlane]
  exact Lane.empty_sound s q

/-! ## What a run keeps -/

theorem run_sound (scopeKey : Option String) (events : List (Event α)) :
    (run Event.step (start scopeKey) events).Sound :=
  run_invariant Event.step (fun _ _ _ _ h hx => (step_lanes h hx).1) events _ (start_sound scopeKey)

theorem run_lanes (h : w.Sound) (events : List (Event α)) (scope : Nat) (questionId : String) :
    Relation.ReflTransGen Lane.Step (w.lane scope questionId)
      ((run Event.step w events).lane scope questionId) :=
  run_relation Event.step
    (R := fun w w' : Hook α => Relation.ReflTransGen Lane.Step (w.lane scope questionId)
        (w'.lane scope questionId))
    (fun _ => .refl) (fun _ _ _ h h' => h.trans h') (fun _ _ _ _ h hx => (step_lanes h hx).1)
    (fun _ _ _ _ h hx => (step_lanes h hx).2 scope questionId) events w h

theorem Sound.exclusive (h : w.Sound) {i j : Nat} {o o' : Operation α}
    (ho : w.operations[i]? = some o) (ho' : w.operations[j]? = some o')
    (hscope : o.scope = o'.scope) (hquestion : o.questionId = o'.questionId)
    (hr : o.phase = .running) (hr' : o'.phase = .running) : i = j := by
  have hown := operationIn_own ho'
  rw [← hscope, ← hquestion] at hown
  exact (h.lanes o.scope o.questionId).chain.exclusive (operationIn_own ho) hown hr hr'

theorem Sound.superseded (h : w.Sound) {e : PendingEntry α}
    (he : (w.lane w.active questionId).pending = some e) (save : α) (later : List (Event α)) :
    ∀ x ∈ (run Event.step (w.scheduleSave questionId save) later).startedIn w.active questionId,
      x.questionGeneration ≠ e.questionGeneration := by
  have hstep : Event.step (.scheduleSave questionId save) w = .ok (none,
    w.scheduleSave questionId save) := rfl
  have hsound := (step_lanes h hstep).1
  obtain ⟨t, timers, hlane, hg, -⟩ := lane_scheduleSave w questionId save
  have hgone : Lane.Gone e.questionGeneration
      ((w.scheduleSave questionId save).lane w.active questionId) := by
    rw [hlane]
    exact (h.lanes w.active questionId).debounced.gone he hg timers
  have hsteps := run_lanes hsound later w.active questionId
  have hlater := (hsound.lanes w.active questionId).steps hsteps
  exact hlater.recorded.not_started (closure_invariant (fun _ _ hl hs => hl.step hs) hsteps hgone)

theorem setStatusIfCurrent_old (status : SaveStatus) (hold : o.scope ≠ w.active) :
    (w.setStatusIfCurrent o status).failedQuestionIds = w.failedQuestionIds ∧
      ∀ s, s ≠ o.scope → (w.setStatusIfCurrent o status).scopes s = w.scopes s := by
  unfold setStatusIfCurrent
  split
  · unfold setStatus
    dsimp only
    rw [if_pos (.inr (Ne.symm hold))]
    exact ⟨rfl, fun s hs => Function.update_of_ne hs ..⟩
  · exact ⟨rfl, fun _ _ => rfl⟩

/-- What a promise of an old scope does stays in that scope. -/
theorem settle_old {e : Event α} {r : Option (Nat × FlushResult)}
    (ho : w.operations[promise]? = some o) (hold : o.scope ≠ w.active)
    (he : e = .execute promise ∨ (∃ ok, e = .settle promise ok) ∨ e = .resolve promise)
    (hx : e.step w = .ok (r, w')) :
    w'.active = w.active ∧ w'.failedQuestionIds = w.failedQuestionIds ∧ ∀ s, s ≠ o.scope →
    w'.scopes s = w.scopes s := by
  rcases he with rfl | ⟨ok, rfl⟩ | rfl
  · simp only [Event.step, bind_eq_ok, orThrow_eq_ok, require_eq_ok, pure_eq_ok, Prod.mk.injEq] at hx
    obtain ⟨x, hx, -, -, previous, -, -, -, -, rfl⟩ := hx
    cases ho.symm.trans hx
    exact ⟨setStatusIfCurrent_active .inflight, setStatusIfCurrent_old .inflight hold⟩
  · simp only [Event.step, bind_eq_ok, orThrow_eq_ok, require_eq_ok, pure_eq_ok, Prod.mk.injEq] at hx
    obtain ⟨x, hx, -, -, -, rfl⟩ := hx
    cases ho.symm.trans hx
    exact ⟨setStatusIfCurrent_active _, setStatusIfCurrent_old _ hold⟩
  · simp only [Event.step, bind_eq_ok, orThrow_eq_ok] at hx
    obtain ⟨x, hop, hx⟩ := hx
    cases ho.symm.trans hop
    split at hx
    · cases hx
      exact ⟨rfl, rfl, fun s hs => Function.update_of_ne hs ..⟩
    · cases hx

/-- A clean result of a flush finds every question saved. -/
theorem Sound.flushResult_saved (h : w.Sound) {timedOut : Bool}
    (hpending : (w.flushResult scope timedOut).pendingCount = 0)
    (hfailed : (w.flushResult scope timedOut).failedQuestionIds = []) {x : Scheduled α}
    (hlast : (w.scheduledIn scope questionId).getLast? = some x) :
    x ∈ w.startedIn scope questionId ∧ x ∈ w.succeededIn scope questionId := by
  have hlane := h.lanes scope questionId
  refine hlane.latest_succeeded ?_ hlast
  have hgeneration : (w.lane scope questionId).generation ≠ none := by
    rw [← hlane.recorded.latest]
    intro hn
    rw [Option.map_eq_none_iff] at hn
    rw [show (w.lane scope questionId).scheduled = w.scheduledIn scope questionId from rfl, hlast] at hn
    cases hn
  obtain ⟨status, hstatus⟩ := Option.ne_none_iff_exists'.mp fun hn => hgeneration
    (hlane.truthful.touched.mpr hn)
  have hlookup : OrderedMap.lookup (w.scopes scope).statuses questionId = some status := hstatus
  have htouched : questionId ∈ (OrderedMap.keys (w.scopes scope).statuses ++ OrderedMap.keys
      (w.scopes scope).inflight ++ OrderedMap.keys (w.scopes scope).pending).eraseDups := by
    rw [List.mem_eraseDups]
    exact List.mem_append.mpr
      (.inl (List.mem_append.mpr (.inl (OrderedMap.mem_keys_of_lookup hlookup))))
  have hcounted := List.filter_eq_nil_iff.mp (List.length_eq_zero_iff.mp hpending) questionId htouched
  have hlisted := List.filter_eq_nil_iff.mp hfailed questionId htouched
  have hbusy := hlane.truthful.busy
  rw [hstatus] at hbusy ⊢
  rw [hlookup] at hcounted hlisted
  cases status with
  | idle => exact absurd rfl hbusy
  | pending => simp at hcounted
  | inflight => simp at hcounted
  | saved => rfl
  | failed => simp at hlisted

theorem flush_result {e : Event α} {scope : Nat} {result : FlushResult}
    (hx : e.step w = .ok (some (scope, result), w')) :
    ∃ timedOut, result = w'.flushResult scope timedOut := by
  have hround : ∀ {v : Hook α} {s : Nat} {start now : Int},
      v.flushRound s start now = (some (scope, result), w') →
      ∃ timedOut, result = w'.flushResult scope timedOut := by
    intro v s start now h
    unfold flushRound at h
    dsimp only at h
    split at h
    · cases h
      exact ⟨false, rfl⟩
    · split at h
      · cases h
        exact ⟨true, rfl⟩
      · cases h
  cases e with
  | flush start now => exact hround (Except.ok.inj hx)
  | settledRound index now =>
    simp only [Event.step, bind_eq_ok, orThrow_eq_ok, require_eq_ok] at hx
    obtain ⟨f, -, -, -, hx⟩ := hx
    exact hround (Except.ok.inj hx)
  | timeout index =>
    simp only [Event.step, bind_eq_ok, orThrow_eq_ok] at hx
    obtain ⟨f, -, hx⟩ := hx
    cases hx
    exact ⟨true, rfl⟩
  | scheduleSave questionId save => cases hx
  | timer index =>
    simp only [Event.step, bind_eq_ok, orThrow_eq_ok, pure_eq_ok, Prod.mk.injEq] at hx
    obtain ⟨t, -, hn, -⟩ := hx
    cases hn
  | execute promise =>
    simp only [Event.step, bind_eq_ok, orThrow_eq_ok, require_eq_ok, pure_eq_ok, Prod.mk.injEq] at hx
    obtain ⟨o, -, -, -, previous, -, -, -, hn, -⟩ := hx
    cases hn
  | settle promise ok =>
    simp only [Event.step, bind_eq_ok, orThrow_eq_ok, require_eq_ok, pure_eq_ok, Prod.mk.injEq] at hx
    obtain ⟨o, -, -, -, hn, -⟩ := hx
    cases hn
  | resolve promise =>
    simp only [Event.step, bind_eq_ok, orThrow_eq_ok] at hx
    obtain ⟨o, -, hx⟩ := hx
    split at hx <;> cases hx
  | switchScope scopeKey => cases hx
  | mount => cases hx
  | unmount => cases hx

end Hook

open Hook in
/-- In every run, a scope runs one save of a question at a time and starts them
in the order in which they were scheduled, never one that was superseded; what
an old scope settles stays there; and a clean flush means that the latest save
of every question of its scope ran and succeeded. -/
theorem save_queue_sound (scopeKey : Option String) (events : List (Event α)) :
    let w := run Event.step (Hook.start scopeKey) events
    (∀ (i j : Nat) (o o' : Operation α), w.operations[i]? = some o → w.operations[j]? = some o' →
      o.scope = o'.scope →
      o.questionId = o'.questionId → o.phase = .running → o'.phase = .running → i = j) ∧
    (∀ scope questionId, (w.startedIn scope questionId).Sublist (w.scheduledIn scope questionId) ∧
      (w.scheduledIn scope questionId).Pairwise fun s t =>
        s.questionGeneration < t.questionGeneration) ∧
    (∀ (questionId : String) (save : α) (e : PendingEntry α) (later : List (Event α)),
      OrderedMap.lookup (w.scopes w.active).pending questionId = some e →
      ∀ x ∈ (run Event.step w (.scheduleSave questionId save :: later)).startedIn w.active questionId,
        x.questionGeneration ≠ e.questionGeneration) ∧
    (∀ (e : Event α) (promise : Nat) (o : Operation α) (r : Option (Nat × FlushResult))
        (w' : Hook α), w.operations[promise]? = some o → o.scope ≠ w.active →
      e = .execute promise ∨ (∃ ok, e = .settle promise ok) ∨ e = .resolve promise →
      e.step w = .ok (r, w') → w'.active = w.active ∧ w'.failedQuestionIds = w.failedQuestionIds ∧
        ∀ scope, scope ≠ o.scope → w'.scopes scope = w.scopes scope) ∧
    ∀ (e : Event α) (scope : Nat) (result : FlushResult) (w' : Hook α),
      e.step w = .ok (some (scope, result), w') → result.pendingCount = 0 →
      result.failedQuestionIds = [] →
        ∀ questionId x, (w'.scheduledIn scope questionId).getLast? = some x →
        x ∈ w'.startedIn scope questionId ∧ x ∈ w'.succeededIn scope questionId := by
  intro w
  have hsound : w.Sound := run_sound scopeKey events
  refine ⟨?_, ?_, ?_, ?_, ?_⟩
  · intro i j o o' ho ho' hscope hquestion hr hr'
    exact hsound.exclusive ho ho' hscope hquestion hr hr'
  · intro scope questionId
    have hrecorded := (hsound.lanes scope questionId).recorded
    exact ⟨hrecorded.in_order, hrecorded.ordered⟩
  · intro questionId save e later he
    exact hsound.superseded he save later
  · intro e promise o r w' ho hold he hx
    exact settle_old ho hold he hx
  · intro e scope result w' hx hpending hfailed questionId x hlast
    obtain ⟨timedOut, rfl⟩ := flush_result hx
    exact (step_lanes hsound hx).1.flushResult_saved hpending hfailed hlast

/-- A save that a later one superseded, a flush that drains the later one, and
its clean end. -/
def sampleEvents : List (Event Nat) :=
  [.scheduleSave "q" 1, .scheduleSave "q" 2, .flush 0 0, .settle 0 true, .resolve 0]

theorem save_queue_sound_sample :
    let w := run Event.step (Hook.start (some "attempt")) sampleEvents
    ∃ w', Event.step (.settledRound 0 5) w = .ok
      (some (0, { pendingCount := 0, failedQuestionIds := [], timedOut := false }), w') ∧
      (w'.scheduledIn 0 "q").map (·.save) = [1, 2] ∧ (w'.startedIn 0 "q").map (·.save) = [2] ∧
      ∀ x, (w'.scheduledIn 0 "q").getLast? = some x → x ∈ w'.succeededIn 0 "q" := by
  refine ⟨_, rfl, by decide, by decide, fun x hx => ?_⟩
  exact ((save_queue_sound (some "attempt") sampleEvents).2.2.2.2
      (.settledRound 0 5) 0 _ _ rfl rfl rfl "q" x hx).2

end ExamSystem.SaveScopes
