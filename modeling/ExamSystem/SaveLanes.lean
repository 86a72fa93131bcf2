import ExamSystem.SaveScopes
import Mathlib.Data.List.Sort

/-!
# The lane of one question

What the hook keeps of one question of one scope, and the steps that it makes.
The lanes of different questions and scopes share nothing, so what a run keeps
is proved of one lane.
-/

namespace ExamSystem.SaveScopes

variable {α : Type}

/-! ## A chain of promises -/

def Phase.succeeded : Phase → Bool
  | .settled ok => ok
  | .resolved ok => ok
  | _ => false

/-- The promises of a lane and the one that a new save waits for: each promise
waits for the one before it, so a save that has started finds all earlier ones
resolved. -/
structure Chain (inflight : Option Nat) (operation : Nat → Option (Operation α)) : Prop where
  idle : inflight = none → ∀ i o, operation i = some o → o.phase.isResolved = true
  last : ∀ p, inflight = some p → operation p ≠ none ∧ ∀ i o, operation i = some o → i ≤ p
  waits : ∀ i o, operation i = some o → o.phase = .waiting →
    (∀ p, o.previous = some p → p < i ∧ operation p ≠ none) ∧
      ∀ j o', operation j = some o' → j < i → o'.phase.isResolved = true ∨
      ∃ p, o.previous = some p ∧ j ≤ p
  turns : ∀ i o, operation i = some o → o.phase ≠ .waiting →
    ∀ j o', operation j = some o' → j < i → o'.phase.isResolved = true

namespace Chain

variable {inflight : Option Nat} {operation : Nat → Option (Operation α)} {i : Nat} {o : Operation α}

theorem empty : Chain none (fun _ => (none : Option (Operation α))) :=
  ⟨fun _ _ _ h => (by cases h), fun _ h => (by cases h), fun _ _ h => (by cases h),
    fun _ _ h => (by cases h)⟩

theorem update_some {o' : Operation α} {j : Nat}
    (h : Function.update operation i (some o) j = some o') :
    j = i ∧ o' = o ∨ j ≠ i ∧ operation j = some o' := by
  by_cases hj : j = i
  · rw [hj, Function.update_self] at h
    exact .inl ⟨hj, (Option.some.inj h).symm⟩
  · rw [Function.update_of_ne hj] at h
    exact .inr ⟨hj, h⟩

theorem update_ne_none {j : Nat} (h : operation j ≠ none) :
    Function.update operation i (some o) j ≠ none := by
  by_cases hj : j = i
  · rw [hj, Function.update_self]
    intro hn
    cases hn
  · rwa [Function.update_of_ne hj]

theorem exclusive (h : Chain inflight operation) {j : Nat} {o' : Operation α}
    (ho : operation i = some o) (ho' : operation j = some o') (hr : o.phase = .running)
    (hr' : o'.phase = .running) : i = j := by
  have hlt : ∀ {a b : Nat} {x y : Operation α}, operation a = some x → operation b = some y →
      x.phase = .running → y.phase = .running → ¬ a < b := by
    intro a b x y hx hy hxr hyr hab
    have hres := h.turns b y hy (by rw [hyr]; intro hn; cases hn) a x hx hab
    rw [hxr] at hres
    cases hres
  have h₁ := hlt ho ho' hr hr'
  have h₂ := hlt ho' ho hr' hr
  omega

theorem enqueue (h : Chain inflight operation) (hfresh : ∀ j, i ≤ j → operation j = none)
    (hprevious : o.previous = inflight) (hphase : o.phase = .waiting) :
    Chain (some i) (Function.update operation i (some o)) := by
  have hlt : ∀ {j : Nat} {o' : Operation α}, operation j = some o' → j < i := by
    intro j o' hj
    by_contra hn
    rw [hfresh j (by omega)] at hj
    cases hj
  have hne : ∀ {p : Nat}, operation p ≠ none → p < i := by
    intro p hp
    obtain ⟨o', ho'⟩ := Option.ne_none_iff_exists'.mp hp
    exact hlt ho'
  refine ⟨fun hn => (by cases hn), ?_, ?_, ?_⟩
  · intro p hp
    cases hp
    refine ⟨by simp, fun j o' hj => ?_⟩
    rcases update_some hj with ⟨rfl, -⟩ | ⟨-, hj⟩
    · exact Nat.le_refl _
    · exact Nat.le_of_lt (hlt hj)
  · intro j o' hj hw
    rcases update_some hj with ⟨rfl, rfl⟩ | ⟨-, hj⟩
    · refine ⟨fun p hp => ?_, fun k ok hk hkj => ?_⟩
      · have hlast := (h.last p (hprevious ▸ hp)).1
        exact ⟨hne hlast, update_ne_none hlast⟩
      · rcases update_some hk with ⟨rfl, -⟩ | ⟨-, hk⟩
        · omega
        · cases hin : inflight with
          | none => exact .inl (h.idle hin k ok hk)
          | some p => exact .inr ⟨p, hprevious.trans hin, (h.last p hin).2 k ok hk⟩
    · have hji := hlt hj
      obtain ⟨h₁, h₂⟩ := h.waits j o' hj hw
      refine ⟨fun p hp => ⟨(h₁ p hp).1, update_ne_none (h₁ p hp).2⟩, fun k ok hk hkj => ?_⟩
      rcases update_some hk with ⟨rfl, -⟩ | ⟨-, hk⟩
      · omega
      · exact h₂ k ok hk hkj
  · intro j o' hj hw k ok hk hkj
    rcases update_some hj with ⟨rfl, rfl⟩ | ⟨-, hj⟩
    · exact absurd hphase hw
    · have hji := hlt hj
      rcases update_some hk with ⟨rfl, -⟩ | ⟨-, hk⟩
      · omega
      · exact h.turns j o' hj hw k ok hk hkj

theorem setPhase (h : Chain inflight operation) (ho : operation i = some o)
    (hunresolved : o.phase.isResolved = false)
    (hearlier : ∀ j o', operation j = some o' → j < i → o'.phase.isResolved = true) {phase : Phase}
    (hphase : phase ≠ .waiting) :
    Chain inflight (Function.update operation i (some { o with phase := phase })) := by
  have hlater : ∀ j o', operation j = some o' → i < j → o'.phase = .waiting := by
    intro j o' hj hij
    by_contra hn
    rw [h.turns j o' hj hn i o ho hij] at hunresolved
    cases hunresolved
  refine ⟨?_, ?_, ?_, ?_⟩
  · intro hn
    rw [h.idle hn i o ho] at hunresolved
    cases hunresolved
  · intro p hp
    refine ⟨update_ne_none (h.last p hp).1, fun j o' hj => ?_⟩
    rcases update_some hj with ⟨rfl, -⟩ | ⟨-, hj⟩
    · exact (h.last p hp).2 j o ho
    · exact (h.last p hp).2 j o' hj
  · intro j o' hj hw
    rcases update_some hj with ⟨-, rfl⟩ | ⟨-, hj⟩
    · exact absurd hw hphase
    · obtain ⟨h₁, h₂⟩ := h.waits j o' hj hw
      refine ⟨fun p hp => ⟨(h₁ p hp).1, update_ne_none (h₁ p hp).2⟩, fun k x hk hkj => ?_⟩
      rcases update_some hk with ⟨rfl, -⟩ | ⟨-, hk⟩
      · rcases h₂ k o ho hkj with hres | hp
        · rw [hres] at hunresolved
          cases hunresolved
        · exact .inr hp
      · exact h₂ k x hk hkj
  · intro j o' hj hw k x hk hkj
    rcases update_some hj with ⟨rfl, -⟩ | ⟨-, hj⟩
    · rcases update_some hk with ⟨rfl, -⟩ | ⟨-, hk⟩
      · omega
      · exact hearlier k x hk hkj
    · have hlaterj := hlater j o' hj
      rcases update_some hk with ⟨rfl, -⟩ | ⟨-, hk⟩
      · exact absurd (hlaterj hkj) hw
      · exact h.turns j o' hj hw k x hk hkj

theorem execute (h : Chain inflight operation) (ho : operation i = some o) (hw : o.phase = .waiting)
    (hprevious : ∀ p o', o.previous = some p → operation p = some o' → o'.phase.isResolved = true) :
    Chain inflight (Function.update operation i (some { o with phase := .running })) := by
  obtain ⟨hfirst, hall⟩ := h.waits i o ho hw
  refine h.setPhase ho (by rw [hw]; rfl) ?_ (fun hn => by cases hn)
  intro j o' hj hji
  rcases hall j o' hj hji with hres | ⟨p, hp, hjp⟩
  · exact hres
  · obtain ⟨x, hx⟩ := Option.ne_none_iff_exists'.mp (hfirst p hp).2
    have hxres := hprevious p x hp hx
    rcases Nat.lt_or_eq_of_le hjp with hlt | rfl
    · refine h.turns p x hx ?_ j o' hj hlt
      intro hn
      rw [hn] at hxres
      cases hxres
    · rw [hx] at hj
      cases hj
      exact hxres

theorem settle (h : Chain inflight operation) (ho : operation i = some o) (hr : o.phase = .running)
    (ok : Bool) :
    Chain inflight (Function.update operation i (some { o with phase := .settled ok })) := by
  refine h.setPhase ho (by rw [hr]; rfl) ?_ (fun hn => by cases hn)
  exact h.turns i o ho (by rw [hr]; intro hn; cases hn)

theorem resolve (h : Chain inflight operation) (ho : operation i = some o) {ok : Bool}
    (hs : o.phase = .settled ok) :
    Chain (if inflight = some i then none else inflight)
      (Function.update operation i (some { o with phase := .resolved ok })) := by
  have hearlier := h.turns i o ho (by rw [hs]; intro hn; cases hn)
  have hset : Chain inflight (Function.update operation i (some { o with phase := .resolved ok })) :=
    h.setPhase ho (by rw [hs]; rfl) hearlier (fun hn => by cases hn)
  by_cases hin : inflight = some i
  · rw [if_pos hin]
    refine ⟨fun _ j o' hj => ?_, fun _ hn => (by cases hn), hset.waits, hset.turns⟩
    rcases update_some hj with ⟨-, rfl⟩ | ⟨hne, hj⟩
    · rfl
    · have hle := (h.last i hin).2 j o' hj
      exact hearlier j o' hj (by omega)
  · rw [if_neg hin]
    exact hset

end Chain

/-! ## Lanes and their steps -/

def Timer.entry (t : Timer α) : PendingEntry α :=
  { timer := t.id, save := t.save, questionGeneration := t.questionGeneration }

def Timer.scheduled (t : Timer α) : Scheduled α :=
  { scope := t.scope, questionId := t.questionId, save := t.save,
    questionGeneration := t.questionGeneration }

@[ext] structure Lane (α : Type) where
  scope : Nat
  questionId : String
  pending : Option (PendingEntry α)
  inflight : Option Nat
  status : Option SaveStatus
  generation : Option Nat
  timers : List (Timer α)
  operation : Nat → Option (Operation α)
  scheduled : List (Scheduled α)
  started : List (Scheduled α)
  succeeded : List (Scheduled α)

namespace Lane

def scheduledOf (l : Lane α) (e : PendingEntry α) : Scheduled α :=
  { scope := l.scope, questionId := l.questionId, save := e.save,
    questionGeneration := e.questionGeneration }

def operationOf (l : Lane α) (e : PendingEntry α) : Operation α :=
  { scope := l.scope
    questionId := l.questionId
    save := e.save
    questionGeneration := e.questionGeneration
    previous := l.inflight
    phase := .waiting }

def statusAfter (l : Lane α) (o : Operation α) (status : SaveStatus) : Option SaveStatus :=
  if l.generation = some o.questionGeneration then some status else l.status

def schedule (l : Lane α) (t : Timer α) (timers : List (Timer α)) : Lane α :=
  { l with
    pending := some t.entry
    status := some .pending
    generation := some t.questionGeneration
    timers := timers
    scheduled := l.scheduled ++ [t.scheduled] }

def launch (l : Lane α) (promise : Nat) (e : PendingEntry α) (timers : List (Timer α)) : Lane α :=
  { l with
    pending := none
    timers := timers
    inflight := some promise
    operation := Function.update l.operation promise (some (l.operationOf e)) }

def execute (l : Lane α) (promise : Nat) (o : Operation α) : Lane α :=
  { l with
    status := l.statusAfter o .inflight
    operation := Function.update l.operation promise (some { o with phase := .running })
    started := l.started ++ [o.scheduled] }

def settle (l : Lane α) (promise : Nat) (o : Operation α) (ok : Bool) : Lane α :=
  { l with
    status := l.statusAfter o (if ok then .saved else .failed)
    operation := Function.update l.operation promise (some { o with phase := .settled ok })
    succeeded := if ok then l.succeeded ++ [o.scheduled] else l.succeeded }

def resolve (l : Lane α) (promise : Nat) (o : Operation α) (ok : Bool) : Lane α :=
  { l with
    inflight := if l.inflight = some promise then none else l.inflight
    operation := Function.update l.operation promise (some { o with phase := .resolved ok }) }

def Cleared (l : Lane α) (timers : List (Timer α)) : Prop :=
  ∀ t ∈ timers, t ∈ l.timers ∧ ∀ e, l.pending = some e → t.id ≠ e.timer

inductive Step (l : Lane α) : Lane α → Prop
  | lose (timers : List (Timer α)) (h : timers ⊆ l.timers) : Step l { l with timers := timers }
  | cancel (timers : List (Timer α)) (h : l.Cleared timers) : Step l
    { l with pending := none, timers := timers }
  | schedule (t : Timer α) (timers : List (Timer α)) (ht : t.scope = l.scope ∧
      t.questionId = l.questionId)
      (hgeneration : t.questionGeneration = l.generation.getD 0 + 1)
      (h : ∀ x ∈ timers, x = t ∨ x ∈ l.timers ∧ ∀ e, l.pending = some e → x.id ≠ e.timer) : Step l
        (l.schedule t timers)
  | launch (promise : Nat) (e : PendingEntry α) (timers : List (Timer α)) (he : l.pending = some e)
      (h : l.Cleared timers) (hfresh : ∀ j, promise ≤ j → l.operation j = none) : Step l
        (l.launch promise e timers)
  | execute (promise : Nat) (o : Operation α) (ho : l.operation promise = some o)
      (hw : o.phase = .waiting)
      (hprevious : ∀ p o', o.previous = some p → l.operation p = some o' → o'.phase.isResolved = true) :
      Step l (l.execute promise o)
  | settle (promise : Nat) (o : Operation α) (ok : Bool) (ho : l.operation promise = some o)
      (hr : o.phase = .running) : Step l (l.settle promise o ok)
  | resolve (promise : Nat) (o : Operation α) (ok : Bool) (ho : l.operation promise = some o)
      (hs : o.phase = .settled ok) : Step l (l.resolve promise o ok)

/-! ## What the steps keep -/

/-- The pending entry of a lane is its youngest save, and a live timer carries
that entry. -/
structure Debounced (l : Lane α) : Prop where
  carries : ∀ t ∈ l.timers, l.pending = some t.entry
  current : ∀ e, l.pending = some e → l.generation = some e.questionGeneration
  younger : ∀ e, l.pending = some e → ∀ i o, l.operation i = some o →
    o.questionGeneration < e.questionGeneration
  bounded : ∀ i o, l.operation i = some o → o.questionGeneration ≤ l.generation.getD 0
  increasing : ∀ i j o o', l.operation i = some o → l.operation j = some o' → i < j →
    o.questionGeneration < o'.questionGeneration

structure Recorded (l : Lane α) : Prop where
  latest : l.scheduled.getLast?.map (·.questionGeneration) = l.generation
  ordered : l.scheduled.Pairwise fun s t => s.questionGeneration < t.questionGeneration
  pendingScheduled : ∀ e, l.pending = some e → l.scheduledOf e ∈ l.scheduled
  operationScheduled : ∀ i o, l.operation i = some o → o.scheduled ∈ l.scheduled
  startedOrdered : l.started.Pairwise fun s t => s.questionGeneration < t.questionGeneration
  startedPromise : ∀ s ∈ l.started, ∃ i o, l.operation i = some o ∧ o.scheduled = s ∧ o.phase ≠ .waiting
  ran : ∀ i o, l.operation i = some o → o.phase ≠ .waiting → o.scheduled ∈ l.started
  well : ∀ i o, l.operation i = some o → o.phase.succeeded = true → o.scheduled ∈ l.succeeded

structure Truthful (l : Lane α) : Prop where
  touched : l.generation = none ↔ l.status = none
  busy : l.status ≠ some .idle
  saved : l.status = some .saved →
    ∃ i o, l.operation i = some o ∧ l.generation = some o.questionGeneration ∧ o.phase.succeeded = true

structure Sound (l : Lane α) : Prop where
  chain : Chain l.inflight l.operation
  debounced : Debounced l
  recorded : Recorded l
  truthful : Truthful l

def empty (scope : Nat) (questionId : String) : Lane α :=
  { scope := scope
    questionId := questionId
    pending := none
    inflight := none
    status := none
    generation := none
    timers := []
    operation := fun _ => none
    scheduled := []
    started := []
    succeeded := [] }

theorem empty_sound (scope : Nat) (questionId : String) : (empty scope questionId : Lane α).Sound := by
  refine ⟨Chain.empty, ⟨?_, ?_, ?_, ?_, ?_⟩, ⟨rfl, List.Pairwise.nil, ?_, ?_, List.Pairwise.nil, ?_,
      ?_, ?_⟩, ⟨?_, ?_, ?_⟩⟩
  · exact fun _ ht => absurd ht List.not_mem_nil
  · exact fun _ he => by cases he
  · exact fun _ he => by cases he
  · exact fun _ _ ho => by cases ho
  · exact fun _ _ _ _ ho => by cases ho
  · exact fun _ he => by cases he
  · exact fun _ _ ho => by cases ho
  · exact fun _ hs => absurd hs List.not_mem_nil
  · exact fun _ _ ho => by cases ho
  · exact fun _ _ ho => by cases ho
  · exact ⟨fun _ => rfl, fun _ => rfl⟩
  · exact fun hn => by cases hn
  · exact fun hn => by cases hn

section
variable {l : Lane α} {i : Nat} {o : Operation α}

theorem update_phase {operation : Nat → Option (Operation α)} (ho : operation i = some o)
    {phase : Phase} {j : Nat} {o' : Operation α}
    (h : Function.update operation i (some { o with phase := phase }) j = some o') :
    ∃ x, operation j = some x ∧ x.scheduled = o'.scheduled ∧
    x.questionGeneration = o'.questionGeneration := by
  rcases Chain.update_some h with ⟨rfl, rfl⟩ | ⟨-, h⟩
  · exact ⟨o, ho, rfl, rfl⟩
  · exact ⟨o', h, rfl, rfl⟩

/-! ### The debounce -/

theorem Debounced.cleared (h : Debounced l) {timers : List (Timer α)} (hc : l.Cleared timers) :
    timers = [] := by
  refine List.eq_nil_iff_forall_not_mem.mpr fun t ht => ?_
  obtain ⟨hmem, hid⟩ := hc t ht
  exact hid t.entry (h.carries t hmem) rfl

theorem Debounced.lose (h : Debounced l) {timers : List (Timer α)} (hsub : timers ⊆ l.timers) :
    Debounced { l with timers := timers } :=
  ⟨fun t ht => h.carries t (hsub ht), h.current, h.younger, h.bounded, h.increasing⟩

theorem Debounced.cancel (h : Debounced l) {timers : List (Timer α)} (hc : l.Cleared timers) :
    Debounced { l with pending := none, timers := timers } := by
  refine ⟨fun t ht => ?_, fun _ he => (by cases he), fun _ he => (by cases he), h.bounded, h.increasing⟩
  rw [h.cleared hc] at ht
  cases ht

theorem Debounced.schedule (h : Debounced l) {t : Timer α} {timers : List (Timer α)}
    (hgeneration : t.questionGeneration = l.generation.getD 0 + 1)
    (ht : ∀ x ∈ timers, x = t ∨ x ∈ l.timers ∧ ∀ e, l.pending = some e → x.id ≠ e.timer) :
    Debounced (l.schedule t timers) := by
  refine ⟨fun x hx => ?_, fun e he => ?_, fun e he i o ho => ?_, fun i o ho => ?_, h.increasing⟩
  · rcases ht x hx with rfl | ⟨hmem, hid⟩
    · rfl
    · exact absurd rfl (hid x.entry (h.carries x hmem))
  · cases he
    rfl
  · cases he
    have hle := h.bounded i o ho
    change o.questionGeneration < t.questionGeneration
    omega
  · have hle := h.bounded i o ho
    change o.questionGeneration ≤ t.questionGeneration
    omega

theorem Debounced.launch (h : Debounced l) {promise : Nat} {e : PendingEntry α}
    {timers : List (Timer α)} (he : l.pending = some e) (hc : l.Cleared timers)
    (hfresh : ∀ j, promise ≤ j → l.operation j = none) :
    Debounced (l.launch promise e timers) := by
  have hcurrent := h.current e he
  refine ⟨fun t ht => ?_, fun _ he => (by cases he), fun _ he => (by cases he), fun i o ho => ?_,
    fun i j o o' ho ho' hij => ?_⟩
  · change t ∈ timers at ht
    rw [h.cleared hc] at ht
    cases ht
  · rcases Chain.update_some ho with ⟨rfl, rfl⟩ | ⟨-, ho⟩
    · change e.questionGeneration ≤ l.generation.getD 0
      rw [hcurrent]
      exact Nat.le_refl _
    · exact h.bounded i o ho
  · rcases Chain.update_some ho' with ⟨rfl, rfl⟩ | ⟨-, hj⟩
    · rcases Chain.update_some ho with ⟨rfl, rfl⟩ | ⟨-, hi⟩
      · omega
      · exact h.younger e he i o hi
    · rcases Chain.update_some ho with ⟨rfl, rfl⟩ | ⟨-, hi⟩
      · rw [hfresh j (by omega)] at hj
        cases hj
      · exact h.increasing i j o o' hi hj hij

theorem Debounced.setPhase (h : Debounced l) (ho : l.operation i = some o) {phase : Phase}
    {l' : Lane α} (hpending : l'.pending = l.pending) (hgeneration : l'.generation = l.generation)
    (htimers : l'.timers = l.timers)
    (hoperation : l'.operation = Function.update l.operation i (some { o with phase := phase })) :
    Debounced l' := by
  have hop : ∀ {j o'}, l'.operation j = some o' → ∃ x, l.operation j = some x ∧
      x.scheduled = o'.scheduled ∧ x.questionGeneration = o'.questionGeneration := by
    intro j o' hj
    rw [hoperation] at hj
    exact update_phase ho hj
  refine ⟨fun t ht => ?_, fun e he => ?_, fun e he j o' hj => ?_, fun j o' hj => ?_,
    fun j k x y hj hk hjk => ?_⟩
  · rw [hpending]
    exact h.carries t (htimers ▸ ht)
  · rw [hgeneration]
    exact h.current e (hpending ▸ he)
  · obtain ⟨x, hx, -, hg⟩ := hop hj
    rw [← hg]
    exact h.younger e (hpending ▸ he) j x hx
  · obtain ⟨x, hx, -, hg⟩ := hop hj
    rw [← hg, hgeneration]
    exact h.bounded j x hx
  · obtain ⟨x', hx, -, hgx⟩ := hop hj
    obtain ⟨y', hy, -, hgy⟩ := hop hk
    rw [← hgx, ← hgy]
    exact h.increasing j k x' y' hx hy hjk

/-! ### The journal -/

theorem Recorded.generation_le (h : Recorded l) {s : Scheduled α} (hs : s ∈ l.scheduled) :
    s.questionGeneration ≤ l.generation.getD 0 := by
  have hlatest := h.latest
  obtain ⟨init, last, hl⟩ : ∃ init last, l.scheduled = init ++ [last] := by
    rcases List.eq_nil_or_concat l.scheduled with hn | ⟨init, last, hl⟩
    · rw [hn] at hs
      cases hs
    · exact ⟨init, last, by simpa using hl⟩
  have hordered := h.ordered
  rw [hl] at hs hlatest hordered
  rw [List.getLast?_concat, Option.map_some] at hlatest
  rw [← hlatest, Option.getD_some]
  rcases List.mem_append.mp hs with hs | hs
  · exact Nat.le_of_lt ((List.pairwise_append.mp hordered).2.2 s hs last (by simp))
  · rw [List.mem_singleton.mp hs]

theorem Recorded.unique (h : Recorded l) {s t : Scheduled α} (hs : s ∈ l.scheduled)
    (ht : t ∈ l.scheduled) (hst : s.questionGeneration = t.questionGeneration) : s = t := by
  have hnodup : (l.scheduled.map (·.questionGeneration)).Nodup := by
    rw [List.nodup_iff_pairwise_ne, List.pairwise_map]
    exact h.ordered.imp fun hlt => Nat.ne_of_lt hlt
  exact List.inj_on_of_nodup_map hnodup hs ht hst

theorem Recorded.clear (h : Recorded l) {l' : Lane α}
    (hpending : ∀ e, l'.pending = some e → l.pending = some e)
    (hl : l' = { l with pending := l'.pending, timers := l'.timers }) : Recorded l' := by
  rw [hl]
  exact ⟨h.latest, h.ordered, fun e he => h.pendingScheduled e (hpending e he),
    h.operationScheduled, h.startedOrdered, h.startedPromise, h.ran, h.well⟩

theorem Recorded.schedule (h : Recorded l) {t : Timer α} {timers : List (Timer α)}
    (ht : t.scope = l.scope ∧ t.questionId = l.questionId)
    (hgeneration : t.questionGeneration = l.generation.getD 0 + 1) :
    Recorded (l.schedule t timers) := by
  refine ⟨?_, ?_, fun e he => ?_, fun i o ho => ?_, h.startedOrdered, h.startedPromise, h.ran, h.well⟩
  · change (l.scheduled ++ [t.scheduled]).getLast?.map _ = some t.questionGeneration
    rw [List.getLast?_concat]
    rfl
  · refine List.pairwise_append.mpr ⟨h.ordered, List.pairwise_singleton _ _, fun s hs x hx => ?_⟩
    rw [List.mem_singleton.mp hx]
    have hle := h.generation_le hs
    change s.questionGeneration < t.questionGeneration
    omega
  · cases he
    refine List.mem_append.mpr (.inr (List.mem_singleton.mpr ?_))
    simp only [scheduledOf, Timer.scheduled, Timer.entry, Lane.schedule, ht.1, ht.2]
  · exact List.mem_append.mpr (.inl (h.operationScheduled i o ho))

theorem Recorded.launch (h : Recorded l) {promise : Nat} {e : PendingEntry α}
    {timers : List (Timer α)} (he : l.pending = some e)
    (hfresh : ∀ j, promise ≤ j → l.operation j = none) : Recorded (l.launch promise e timers) := by
  have hfree := hfresh promise (Nat.le_refl _)
  refine ⟨h.latest, h.ordered, fun _ hn => (by cases hn), fun i o ho => ?_, h.startedOrdered,
    fun s hs => ?_, fun i o ho hp => ?_, fun i o ho hp => ?_⟩
  · rcases Chain.update_some ho with ⟨-, rfl⟩ | ⟨-, ho⟩
    · exact h.pendingScheduled e he
    · exact h.operationScheduled i o ho
  · obtain ⟨i, o, ho, hos, hp⟩ := h.startedPromise s hs
    refine ⟨i, o, ?_, hos, hp⟩
    change Function.update l.operation promise _ i = some o
    rw [Function.update_of_ne ?_, ho]
    rintro rfl
    rw [hfree] at ho
    cases ho
  · rcases Chain.update_some ho with ⟨-, rfl⟩ | ⟨-, ho⟩
    · exact absurd rfl hp
    · exact h.ran i o ho hp
  · rcases Chain.update_some ho with ⟨-, rfl⟩ | ⟨-, ho⟩
    · cases hp
    · exact h.well i o ho hp

theorem Recorded.startedPromise_update (h : Recorded l) (ho : l.operation i = some o) {phase : Phase}
    (hphase : phase ≠ .waiting) {s : Scheduled α} (hs : s ∈ l.started) :
    ∃ j x, Function.update l.operation i (some { o with phase := phase }) j = some x ∧ x.scheduled = s ∧
      x.phase ≠ .waiting := by
  obtain ⟨j, x, hx, hxs, hxp⟩ := h.startedPromise s hs
  by_cases hj : j = i
  · subst hj
    rw [ho] at hx
    cases hx
    exact ⟨j, _, Function.update_self .., hxs, hphase⟩
  · exact ⟨j, x, by rw [Function.update_of_ne hj]; exact hx, hxs, hxp⟩

theorem Recorded.execute (h : Recorded l) (hc : Chain l.inflight l.operation) (hd : Debounced l)
    (ho : l.operation i = some o) (hw : o.phase = .waiting) : Recorded (l.execute i o) := by
  have hrun : (Phase.running : Phase) ≠ .waiting := fun hn => by cases hn
  refine ⟨h.latest, h.ordered, h.pendingScheduled, fun j x hx => ?_, ?_, fun s hs => ?_,
    fun j x hx hp => ?_, fun j x hx hp => ?_⟩
  · obtain ⟨y, hy, hyx, -⟩ := update_phase ho hx
    rw [← hyx]
    exact h.operationScheduled j y hy
  · -- what started before is an earlier promise, since this one still waits
    refine List.pairwise_append.mpr ⟨h.startedOrdered, List.pairwise_singleton _ _, fun s hs x hx => ?_⟩
    rw [List.mem_singleton.mp hx]
    obtain ⟨j, y, hy, rfl, hyp⟩ := h.startedPromise s hs
    refine hd.increasing j i y o hy ho ?_
    rcases Nat.lt_trichotomy j i with hlt | rfl | hgt
    · exact hlt
    · rw [ho] at hy
      cases hy
      exact absurd hw hyp
    · have hres := hc.turns j y hy hyp i o ho hgt
      rw [hw] at hres
      cases hres
  · rcases List.mem_append.mp hs with hs | hs
    · exact h.startedPromise_update ho hrun hs
    · exact ⟨i, _, Function.update_self .., (List.mem_singleton.mp hs).symm, hrun⟩
  · rcases Chain.update_some hx with ⟨-, rfl⟩ | ⟨-, hx⟩
    · exact List.mem_append.mpr (.inr (List.mem_singleton.mpr rfl))
    · exact List.mem_append.mpr (.inl (h.ran j x hx hp))
  · rcases Chain.update_some hx with ⟨-, rfl⟩ | ⟨-, hx⟩
    · cases hp
    · exact h.well j x hx hp

theorem Recorded.settle (h : Recorded l) (ho : l.operation i = some o) (hr : o.phase = .running)
    (ok : Bool) :
    Recorded (l.settle i o ok) := by
  have hmem : ∀ s ∈ l.succeeded, s ∈ (l.settle i o ok).succeeded := by
    intro s hs
    cases ok with
    | true => exact List.mem_append.mpr (.inl hs)
    | false => exact hs
  refine ⟨h.latest, h.ordered, h.pendingScheduled, fun j x hx => ?_, h.startedOrdered,
    fun s hs => ?_, fun j x hx hp => ?_, fun j x hx hp => ?_⟩
  · obtain ⟨y, hy, hyx, -⟩ := update_phase ho hx
    rw [← hyx]
    exact h.operationScheduled j y hy
  · exact h.startedPromise_update ho (fun hn => by cases hn) hs
  · rcases Chain.update_some hx with ⟨-, rfl⟩ | ⟨-, hx⟩
    · exact h.ran i o ho (by rw [hr]; intro hn; cases hn)
    · exact h.ran j x hx hp
  · rcases Chain.update_some hx with ⟨-, rfl⟩ | ⟨-, hx⟩
    · cases ok with
      | true => exact List.mem_append.mpr (.inr (List.mem_singleton.mpr rfl))
      | false => cases hp
    · exact hmem _ (h.well j x hx hp)

theorem Recorded.resolve (h : Recorded l) (ho : l.operation i = some o) {ok : Bool}
    (hs : o.phase = .settled ok) :
    Recorded (l.resolve i o ok) := by
  refine ⟨h.latest, h.ordered, h.pendingScheduled, fun j x hx => ?_, h.startedOrdered,
    fun s hs => ?_, fun j x hx hp => ?_, fun j x hx hp => ?_⟩
  · obtain ⟨y, hy, hyx, -⟩ := update_phase ho hx
    rw [← hyx]
    exact h.operationScheduled j y hy
  · exact h.startedPromise_update ho (fun hn => by cases hn) hs
  · rcases Chain.update_some hx with ⟨-, rfl⟩ | ⟨-, hx⟩
    · exact h.ran i o ho (by rw [hs]; intro hn; cases hn)
    · exact h.ran j x hx hp
  · rcases Chain.update_some hx with ⟨-, rfl⟩ | ⟨-, hx⟩
    · exact h.well i o ho (by rw [hs]; exact hp)
    · exact h.well j x hx hp

/-! ### The status -/

/-- A status of the youngest save is not lost when another promise moves on. -/
theorem Truthful.setPhase (h : Truthful l) (ho : l.operation i = some o)
    (hunsettled : o.phase.succeeded = false) {phase : Phase} {status : SaveStatus}
    (hbusy : status ≠ .idle) (hsaved : status = .saved → phase.succeeded = true) {l' : Lane α}
    (hgeneration : l'.generation = l.generation) (hstatus : l'.status = l.statusAfter o status)
    (hoperation : l'.operation = Function.update l.operation i (some { o with phase := phase })) :
    Truthful l' := by
  unfold statusAfter at hstatus
  by_cases hcurrent : l.generation = some o.questionGeneration
  · rw [if_pos hcurrent] at hstatus
    refine ⟨?_, ?_, fun hs => ?_⟩
    · rw [hgeneration, hcurrent, hstatus]
      exact ⟨fun hn => (by cases hn), fun hn => (by cases hn)⟩
    · rw [hstatus]
      exact fun hn => hbusy (Option.some.inj hn)
    · rw [hstatus] at hs
      refine ⟨i, { o with phase := phase }, ?_, hgeneration.trans hcurrent, ?_⟩
      · rw [hoperation, Function.update_self]
      · exact hsaved (Option.some.inj hs)
  · rw [if_neg hcurrent] at hstatus
    refine ⟨?_, ?_, fun hs => ?_⟩
    · rw [hgeneration, hstatus]
      exact h.touched
    · rw [hstatus]
      exact h.busy
    · obtain ⟨j, x, hx, hg, hp⟩ := h.saved (hstatus ▸ hs)
      refine ⟨j, x, ?_, hgeneration.trans hg, hp⟩
      rw [hoperation, Function.update_of_ne ?_, hx]
      rintro rfl
      rw [ho] at hx
      cases hx
      rw [hunsettled] at hp
      cases hp

theorem Truthful.launch (h : Truthful l) {promise : Nat} {e : PendingEntry α} {timers : List (Timer α)}
    (hfresh : ∀ j, promise ≤ j → l.operation j = none) : Truthful (l.launch promise e timers) := by
  refine ⟨h.touched, h.busy, fun hs => ?_⟩
  obtain ⟨j, x, hx, hg, hp⟩ := h.saved hs
  refine ⟨j, x, ?_, hg, hp⟩
  change Function.update l.operation promise _ j = some x
  rw [Function.update_of_ne ?_, hx]
  rintro rfl
  rw [hfresh j (Nat.le_refl _)] at hx
  cases hx

theorem Truthful.resolve (h : Truthful l) (ho : l.operation i = some o) {ok : Bool}
    (hs : o.phase = .settled ok) :
    Truthful (l.resolve i o ok) := by
  refine ⟨h.touched, h.busy, fun hst => ?_⟩
  obtain ⟨j, x, hx, hg, hp⟩ := h.saved hst
  by_cases hj : j = i
  · subst hj
    rw [ho] at hx
    cases hx
    exact ⟨j, _, Function.update_self .., hg, by rw [hs] at hp; exact hp⟩
  · exact ⟨j, x, (Function.update_of_ne hj ..).trans hx, hg, hp⟩

/-! ### A superseded save -/

structure Gone (generation : Nat) (l : Lane α) : Prop where
  passed : generation < l.generation.getD 0
  unpending : ∀ e, l.pending = some e → e.questionGeneration ≠ generation
  never : ∀ i o, l.operation i = some o → o.questionGeneration ≠ generation

theorem Gone.setPhase {g : Nat} (h : Gone g l) (ho : l.operation i = some o) {phase : Phase}
    {l' : Lane α} (hpending : l'.pending = l.pending) (hgeneration : l'.generation = l.generation)
    (hoperation : l'.operation = Function.update l.operation i (some { o with phase := phase })) :
    Gone g l' := by
  refine ⟨hgeneration ▸ h.passed, fun e he => h.unpending e (hpending ▸ he), fun j x hx => ?_⟩
  rw [hoperation] at hx
  obtain ⟨y, hy, -, hg⟩ := update_phase ho hx
  rw [← hg]
  exact h.never j y hy

theorem Gone.step {g : Nat} (h : Gone g l) {l' : Lane α} (hs : l.Step l') : Gone g l' := by
  have hpassed := h.passed
  cases hs with
  | lose timers hsub => exact ⟨hpassed, h.unpending, h.never⟩
  | cancel timers hc => exact ⟨hpassed, fun _ he => (by cases he), h.never⟩
  | schedule t timers ht hgeneration htimers =>
    have hlt : g < t.questionGeneration := by omega
    refine ⟨hlt, fun e he => ?_, h.never⟩
    cases he
    exact Nat.ne_of_gt hlt
  | launch promise e timers he hc hfresh =>
    refine ⟨hpassed, fun _ he => (by cases he), fun j x hx => ?_⟩
    rcases Chain.update_some hx with ⟨-, rfl⟩ | ⟨-, hx⟩
    · exact h.unpending e he
    · exact h.never j x hx
  | execute promise o ho hw hprevious => exact h.setPhase ho rfl rfl rfl
  | settle promise o ok ho hr => exact h.setPhase ho rfl rfl rfl
  | resolve promise o ok ho hs => exact h.setPhase ho rfl rfl rfl

theorem Debounced.gone (h : Debounced l) {e : PendingEntry α} (he : l.pending = some e) {t : Timer α}
    (hgeneration : t.questionGeneration = l.generation.getD 0 + 1) (timers : List (Timer α)) :
    Gone e.questionGeneration (l.schedule t timers) := by
  have hcurrent := h.current e he
  rw [hcurrent, Option.getD_some] at hgeneration
  refine ⟨?_, fun x hx => ?_, fun j x hx => Nat.ne_of_lt (h.younger e he j x hx)⟩
  · change e.questionGeneration < t.questionGeneration
    omega
  · cases hx
    change t.questionGeneration ≠ e.questionGeneration
    omega

theorem Recorded.not_started (h : Recorded l) {g : Nat} (hg : Gone g l) :
    ∀ s ∈ l.started, s.questionGeneration ≠ g := by
  intro s hs
  obtain ⟨j, x, hx, rfl, -⟩ := h.startedPromise s hs
  exact hg.never j x hx

/-! ### Every step -/

theorem Sound.step (h : Sound l) {l' : Lane α} (hs : l.Step l') : Sound l' := by
  have htruthful := h.truthful
  cases hs with
  | lose timers hsub =>
    exact ⟨h.chain, h.debounced.lose hsub, h.recorded.clear (fun _ he => he) rfl,
      ⟨htruthful.touched, htruthful.busy, htruthful.saved⟩⟩
  | cancel timers hc =>
    exact ⟨h.chain, h.debounced.cancel hc, h.recorded.clear (fun _ he => by cases he) rfl,
      ⟨htruthful.touched, htruthful.busy, htruthful.saved⟩⟩
  | schedule t timers ht hgeneration htimers =>
    refine ⟨h.chain, h.debounced.schedule hgeneration htimers, h.recorded.schedule ht hgeneration, ?_⟩
    exact ⟨⟨fun hn => (by cases hn), fun hn => (by cases hn)⟩, fun hn => (by cases hn),
      fun hn => (by cases hn)⟩
  | launch promise e timers he hc hfresh =>
    exact ⟨h.chain.enqueue hfresh rfl rfl, h.debounced.launch he hc hfresh, h.recorded.launch he hfresh,
      htruthful.launch hfresh⟩
  | execute promise o ho hw hprevious =>
    refine ⟨h.chain.execute ho hw hprevious, h.debounced.setPhase ho rfl rfl rfl rfl,
      h.recorded.execute h.chain h.debounced ho hw, ?_⟩
    exact htruthful.setPhase ho (by rw [hw]; rfl) (fun hn => by cases hn)
      (fun hn => by cases hn) rfl rfl rfl
  | settle promise o ok ho hr =>
    refine ⟨h.chain.settle ho hr ok, h.debounced.setPhase ho rfl rfl rfl rfl,
      h.recorded.settle ho hr ok, ?_⟩
    refine htruthful.setPhase ho (by rw [hr]; rfl) ?_ ?_ rfl rfl rfl
    · cases ok <;> exact fun hn => by cases hn
    · cases ok with
      | true => exact fun _ => rfl
      | false => exact fun hn => by cases hn
  | resolve promise o ok ho hs =>
    exact ⟨h.chain.resolve ho hs, h.debounced.setPhase ho rfl rfl rfl rfl, h.recorded.resolve ho hs,
      htruthful.resolve ho hs⟩

theorem Sound.untouched (h : Sound l) (hg : l.generation = none) :
    l.pending = none ∧ l.inflight = none ∧ l.status = none ∧ ∀ i, l.operation i = none := by
  have hscheduled : l.scheduled = [] := by
    have hlatest := h.recorded.latest
    rw [hg, Option.map_eq_none_iff, List.getLast?_eq_none_iff] at hlatest
    exact hlatest
  have hnone : ∀ i, l.operation i = none := by
    intro i
    cases ho : l.operation i with
    | none => rfl
    | some o =>
      have hmem := h.recorded.operationScheduled i o ho
      rw [hscheduled] at hmem
      cases hmem
  refine ⟨?_, ?_, h.truthful.touched.mp hg, hnone⟩
  · cases he : l.pending with
    | none => rfl
    | some e =>
      have hcurrent := h.debounced.current e he
      rw [hg] at hcurrent
      cases hcurrent
  · cases hp : l.inflight with
    | none => rfl
    | some p => exact absurd (hnone p) (h.chain.last p hp).1

theorem Recorded.in_order (h : Recorded l) : l.started.Sublist l.scheduled := by
  have hsub : l.started ⊆ l.scheduled := by
    intro s hs
    obtain ⟨i, o, ho, rfl, -⟩ := h.startedPromise s hs
    exact h.operationScheduled i o ho
  have hnodup : l.started.Nodup := by
    rw [List.nodup_iff_pairwise_ne]
    exact h.startedOrdered.imp fun hlt hst => absurd hlt (by rw [hst]; exact Nat.lt_irrefl _)
  -- both lists are sorted by generation
  have : Std.Antisymm fun s t : Scheduled α => s.questionGeneration < t.questionGeneration :=
    ⟨fun _ _ hst hts => absurd hst (Nat.lt_asymm hts)⟩
  exact List.sublist_of_subperm_of_pairwise (List.subperm_of_subset hnodup hsub)
    h.startedOrdered h.ordered

theorem Sound.latest_succeeded (h : Sound l) (hs : l.status = some .saved) {s : Scheduled α}
    (hlast : l.scheduled.getLast? = some s) : s ∈ l.started ∧ s ∈ l.succeeded := by
  obtain ⟨i, o, ho, hg, hp⟩ := h.truthful.saved hs
  have hlatest := h.recorded.latest
  rw [hlast, hg, Option.map_some, Option.some.injEq] at hlatest
  have heq : o.scheduled = s :=
    h.recorded.unique (h.recorded.operationScheduled i o ho) (List.mem_of_getLast? hlast) hlatest.symm
  have hstarted : o.phase ≠ .waiting := by
    intro hn
    rw [hn] at hp
    cases hp
  rw [← heq]
  exact ⟨h.recorded.ran i o ho hstarted, h.recorded.well i o ho hp⟩

end

end Lane

end ExamSystem.SaveScopes
