import ExamSystem.AttemptRestore

/-!
# The restore of one attempt

A restore of an earlier visit that is still in flight shares its slot with the
restores of the current visit. Without one, the slot, the dedup identity and
the generation agree, and the failure of a restore is shown.
-/

namespace ExamSystem.AttemptRestore

open Tx

def Page.firstResumable (w : Page) : Bool := w.canResume && w.snapshot.any fun s => s.first

def Page.resumes (w : Page) (r : Request) : Response → Bool
  | .snapshot data =>
    match r.kind with
    | .load g => w.isCurrentLoad r g && data.attemptId == r.attemptId && data.canResume
    | .reconciliation g => w.isCurrentLoad r g && data.attemptId == r.attemptId && data.canResume
    | _ => false
  | _ => false

def Page.loadFails (w : Page) (r : Request) : Response → Bool
  | .snapshot _ => false
  | _ =>
    match r.kind with
    | .load g => w.isCurrentLoad r g
    | _ => false

/-- No snapshot that can be resumed arrives while a restore of its attempt from
an earlier visit is in flight, and the failure of a load hides none. -/
def Page.clears (w : Page) (r : Request) (response : Response) : Prop :=
  (w.resumes r response = true →
    (w.snapshot = none → w.loadError = false) ∧
      ∀ q ∈ w.requests, q.isRestore = true → q.attemptId = r.attemptId → q.generation = w.generation) ∧
  (w.loadFails r response = true → w.firstResumable = false)

def Event.clear (e : Event) (w : Page) : Prop :=
  match e with
  | .respond index response => ∀ r ∈ w.requests[index]?, w.clears r response
  | _ => True

instance (w : Page) (r : Request) (response : Response) : Decidable (w.clears r response) := by
  unfold Page.clears
  infer_instance

instance (e : Event) (w : Page) : Decidable (e.clear w) := by
  unfold Event.clear
  split <;> infer_instance

structure RestoreSafe (w : Page) : Prop where
  applied : ∀ s, w.snapshot = some s → w.attemptId = some s.requestedFor ∧ s.visit = w.generation
  exclusive : ∀ a, (w.requests.filter fun r => r.kind = .restore ∧ r.attemptId = a).length ≤ 1
  settled : w.requests = [] → w.firstResumable = true →
    (∃ a, w.attemptId = some a ∧ (a, w.generation) ∈ w.restores) ∧ w.surface = .restoreFailed ∧
      ∃ w', Event.retry.step w = .ok ((), w') ∧
        w'.requests.any (fun r => r.kind = .restore ∧ w.attemptId = some r.attemptId) = true

/-! ## The invariant -/

structure Coherent (w : Page) : Prop where
  applied : ∀ s, w.snapshot = some s → w.attemptId = some s.requestedFor ∧ s.visit = w.generation
  begun : ∀ r ∈ w.requests, r.generation ≤ w.generation
  loads : ∀ r ∈ w.requests, ∀ g, r.kind = .load g ∨ r.kind = .reconciliation g →
    g ≤ w.loadGeneration ∧ (g = w.loadGeneration → r.generation = w.generation ∧
      w.attemptId = some r.attemptId)
  slot : ∀ a, w.restoreInFlight = some a → ∃ r ∈ w.requests, r.isRestore = true ∧ r.attemptId = a
  owner : ∀ r ∈ w.requests, r.isRestore = true → r.generation = w.generation →
    w.attemptId = some r.attemptId ∧ w.restoredForAttempt = some r.attemptId ∧
    w.restoreInFlight = some r.attemptId
  performed : ∀ a, w.restoredForAttempt = some a →
    w.attemptId = some a ∧ (a, w.generation) ∈ w.restores ∧
      ∀ r ∈ w.requests, r.isRestore = true → r.attemptId = a → r.generation = w.generation
  exclusive : w.requests.Pairwise fun q r => q.isRestore = true → r.isRestore = true →
    q.attemptId ≠ r.attemptId
  fresh : w.snapshot = none → w.restoredForAttempt = none

structure Shown (w : Page) : Prop where
  loading : w.isLoading = true → w.attemptId = none ∨ ∃ r ∈ w.requests, r.kind = .load w.loadGeneration
  unhidden : w.loadError = true → w.firstResumable = false
  engaged : w.restoreState ≠ .idle → ∃ a, w.attemptId = some a ∧ w.restoredForAttempt = some a

structure Restored (w : Page) : Prop where
  identity : w.canResume = true → ∃ a, w.attemptId = some a ∧ w.restoredForAttempt = some a
  waiting : w.firstResumable = true →
    w.restoreState = .failed ∨ ∃ r ∈ w.requests, r.isRestore = true ∧ r.generation = w.generation

structure Pending (w : Page) : Prop where
  deps : w.effectDeps ≠ (w.attemptId, w.canResume)
  identity : w.restoredForAttempt ≠ w.attemptId
  free : ∀ a, w.attemptId = some a → ∀ r ∈ w.requests, r.isRestore = true → r.attemptId ≠ a

structure Settled (w : Page) : Prop extends Coherent w, Shown w where
  restored : Restored w ∨ Pending w

structure Sound (w : Page) : Prop extends Coherent w, Shown w, Restored w where
  deps : w.effectDeps = (w.attemptId, w.canResume)

/-! ## Requests -/

theorem mem_send {w : Page} {a : String} {k : RequestKind} {r : Request} :
    r ∈ (w.send a k).requests ↔
      r ∈ w.requests ∨ r =
        { id := w.nextRequest, attemptId := a, generation := w.generation, kind := k } := by
  simp [Page.send]

theorem mem_finish {w : Page} {i : Nat} {q : Request} (h : q ∈ (w.finish i).requests) :
    q ∈ w.requests :=
  List.mem_of_mem_eraseIdx h

theorem mem_finish_of_ne {w : Page} {i : Nat} {q r : Request} (hr : w.requests[i]? = some r)
    (hq : q ∈ w.requests) (hne : q ≠ r) : q ∈ (w.finish i).requests := by
  obtain ⟨j, hj⟩ := List.mem_iff_getElem?.mp hq
  refine List.mem_eraseIdx_iff_getElem?.mpr ⟨j, ?_, hj⟩
  rintro rfl
  rw [hr] at hj
  exact hne (Option.some.inj hj).symm

/-- No other restore of the attempt is in flight besides the one that ends. -/
theorem Coherent.alone {w : Page} (h : Coherent w) {i : Nat} {q r : Request}
    (hr : w.requests[i]? = some r) (hq : q ∈ (w.finish i).requests) (hrr : r.isRestore = true)
    (hqr : q.isRestore = true) : q.attemptId ≠ r.attemptId := by
  obtain ⟨j, hji, hj⟩ := List.mem_eraseIdx_iff_getElem?.mp hq
  obtain ⟨hi', hi⟩ := List.getElem?_eq_some_iff.mp hr
  obtain ⟨hj', hj⟩ := List.getElem?_eq_some_iff.mp hj
  have hpair := List.pairwise_iff_getElem.mp h.exclusive
  rcases Nat.lt_or_gt_of_ne hji with hlt | hlt
  · have := hpair j i hj' hi' hlt
    rw [hi, hj] at this
    exact this hqr hrr
  · have := hpair i j hi' hj' hlt
    rw [hi, hj] at this
    exact (this hrr hqr).symm

theorem Coherent.send_load {w : Page} (h : Coherent w) {a : String} {k : RequestKind} {g : Nat}
    (ha : w.attemptId = some a) (hk : k = .load g ∨ k = .reconciliation g)
    (hg : g ≤ w.loadGeneration) : Coherent (w.send a k) := by
  have hkind : ∀ n b m,
      ({ id := n, attemptId := b, generation := m, kind := k } : Request).isRestore = false := by
    intro n b m
    rcases hk with rfl | rfl <;> rfl
  refine ⟨h.applied, ?_, ?_, ?_, ?_, ?_, ?_, h.fresh⟩
  · intro r hr
    rcases mem_send.mp hr with hr | rfl
    · exact h.begun r hr
    · exact Nat.le_refl _
  · intro r hr g' hg'
    rcases mem_send.mp hr with hr | rfl
    · exact h.loads r hr g' hg'
    · have hgg : g' = g := by
        rcases hk with rfl | rfl <;> simpa [eq_comm] using hg'
      exact ⟨hgg ▸ hg, fun _ => ⟨rfl, ha⟩⟩
  · intro b hb
    obtain ⟨r, hr, hrb⟩ := h.slot b hb
    exact ⟨r, mem_send.mpr (.inl hr), hrb⟩
  · intro r hr hrr hgen
    rcases mem_send.mp hr with hr | rfl
    · exact h.owner r hr hrr hgen
    · rw [hkind] at hrr
      cases hrr
  · intro b hb
    obtain ⟨hb, hperf, hall⟩ := h.performed b hb
    refine ⟨hb, hperf, fun r hr hrr hrb => ?_⟩
    rcases mem_send.mp hr with hr | rfl
    · exact hall r hr hrr hrb
    · rfl
  · refine List.pairwise_append.mpr ⟨h.exclusive, List.pairwise_singleton _ _, ?_⟩
    intro q _ r hr _ hrr
    rw [List.mem_singleton.mp hr, hkind] at hrr
    cases hrr

theorem Coherent.supersede {w : Page} (h : Coherent w) (b c : Bool) :
    Coherent { w with loadGeneration := w.loadGeneration + 1, isLoading := b, loadError := c } := by
  refine { h with loads := fun r hr g hg => ?_ }
  have hle := (h.loads r hr g hg).1
  exact ⟨Nat.le_succ_of_le hle, fun he => absurd (he ▸ hle) (Nat.not_succ_le_self _)⟩

theorem Coherent.changeRoute {w : Page} (h : Coherent w) (a : Option String) :
    Coherent (w.changeRoute a) := by
  refine ⟨fun s hs => ?_, fun r hr => ?_, fun r hr g hg => ?_, h.slot, fun r hr _ hgen => ?_,
    fun b hb => ?_, h.exclusive, fun _ => rfl⟩
  · cases hs
  · exact Nat.le_succ_of_le (h.begun r hr)
  · have hle := (h.loads r hr g hg).1
    exact ⟨Nat.le_succ_of_le hle, fun he => absurd (he ▸ hle) (Nat.not_succ_le_self _)⟩
  · exact absurd (hgen ▸ h.begun r hr) (Nat.not_succ_le_self _)
  · cases hb

theorem performRestore_begins {w : Page} {a : String} (ha : w.attemptId = some a)
    (hslot : w.restoreInFlight ≠ some a) :
    w.performRestore =
      { w with
        restoreInFlight := some a
        restoreState := .restoring
        restoredForAttempt := some a
        restores := w.restores ++ [(a, w.generation)] }.send a .restore := by
  simp [Page.performRestore, ha, hslot]

theorem Coherent.performRestore {w : Page} (h : Coherent w) {a : String} (ha : w.attemptId = some a)
    (hs : w.snapshot ≠ none) (hfree : ∀ r ∈ w.requests, r.isRestore = true → r.attemptId ≠ a)
    (hslot : w.restoreInFlight ≠ some a) :
    Coherent w.performRestore := by
  rw [performRestore_begins ha hslot]
  refine ⟨h.applied, ?_, ?_, ?_, ?_, ?_, ?_, fun hn => absurd hn hs⟩
  · intro r hr
    rcases mem_send.mp hr with hr | rfl
    · exact h.begun r hr
    · exact Nat.le_refl _
  · intro r hr g hg
    rcases mem_send.mp hr with hr | rfl
    · exact h.loads r hr g hg
    · rcases hg with hg | hg <;> cases hg
  · intro b hb
    cases hb
    exact ⟨_, mem_send.mpr (.inr rfl), rfl, rfl⟩
  · intro r hr hrr hgen
    rcases mem_send.mp hr with hr | rfl
    · obtain ⟨hatt, -, -⟩ := h.owner r hr hrr hgen
      exact absurd (Option.some.inj (hatt.symm.trans ha)) (hfree r hr hrr)
    · exact ⟨ha, rfl, rfl⟩
  · intro b hb
    cases hb
    refine ⟨ha, List.mem_append_right _ (List.mem_singleton.mpr rfl), fun r hr hrr hra => ?_⟩
    rcases mem_send.mp hr with hr | rfl
    · exact absurd hra (hfree r hr hrr)
    · rfl
  · refine List.pairwise_append.mpr ⟨h.exclusive, List.pairwise_singleton _ _, ?_⟩
    intro q hq r hr hqr _
    rw [List.mem_singleton.mp hr]
    exact hfree q hq hqr

theorem Coherent.slot_free {w : Page} (h : Coherent w) {a : String}
    (hfree : ∀ r ∈ w.requests, r.isRestore = true → r.attemptId ≠ a) : w.restoreInFlight ≠ some a := by
  intro hslot
  obtain ⟨r, hr, hrr, hra⟩ := h.slot a hslot
  exact hfree r hr hrr hra

theorem Coherent.free_of_slot {w : Page} (h : Coherent w) {a : String}
    (hp : w.restoredForAttempt = some a) (hslot : w.restoreInFlight ≠ some a) :
    ∀ r ∈ w.requests, r.isRestore = true → r.attemptId ≠ a := by
  rintro r hr hrr rfl
  exact hslot (h.owner r hr hrr ((h.performed _ hp).2.2 r hr hrr rfl)).2.2

/-! ## The end of a request -/

theorem Coherent.finish_load {w : Page} (h : Coherent w) {i : Nat} {r : Request}
    (hr : w.requests[i]? = some r) (hrr : r.isRestore = false) : Coherent (w.finish i) := by
  refine { h with
    begun := fun q hq => h.begun q (mem_finish hq)
    loads := fun q hq => h.loads q (mem_finish hq)
    slot := fun a ha => ?_
    owner := fun q hq => h.owner q (mem_finish hq)
    performed := fun a ha => ?_
    exclusive := h.exclusive.sublist (List.eraseIdx_sublist _ _) }
  · obtain ⟨q, hq, hqr, hqa⟩ := h.slot a ha
    refine ⟨q, mem_finish_of_ne hr hq ?_, hqr, hqa⟩
    rintro rfl
    rw [hrr] at hqr
    cases hqr
  · obtain ⟨hatt, hperf, hall⟩ := h.performed a ha
    exact ⟨hatt, hperf, fun q hq => hall q (mem_finish hq)⟩

theorem releaseInFlightIfOwner_eq (w : Page) (r : Request) :
    w.releaseInFlightIfOwner r =
      { w with restoreInFlight := if w.restoreInFlight = some r.attemptId then none
        else w.restoreInFlight } := by
  unfold Page.releaseInFlightIfOwner
  split <;> rfl

theorem Coherent.finish_restore {w : Page} (h : Coherent w) {i : Nat} {r : Request}
    (hr : w.requests[i]? = some r) (hrr : r.isRestore = true) :
    Coherent ((w.finish i).releaseInFlightIfOwner r) := by
  rw [releaseInFlightIfOwner_eq]
  refine { h with
    begun := fun q hq => h.begun q (mem_finish hq)
    loads := fun q hq => h.loads q (mem_finish hq)
    slot := fun a ha => ?_
    owner := fun q hq hqr hgen => ?_
    performed := fun a ha => ?_
    exclusive := h.exclusive.sublist (List.eraseIdx_sublist _ _) }
  · replace ha : (if w.restoreInFlight = some r.attemptId then none
      else w.restoreInFlight) = some a := ha
    split at ha
    · cases ha
    · next hne =>
      obtain ⟨q, hq, hqr, rfl⟩ := h.slot a ha
      refine ⟨q, mem_finish_of_ne hr hq ?_, hqr, rfl⟩
      rintro rfl
      exact hne ha
  · obtain ⟨hatt, hrest, hslot⟩ := h.owner q (mem_finish hq) hqr hgen
    refine ⟨hatt, hrest, ?_⟩
    have hne : w.restoreInFlight ≠ some r.attemptId := by
      rw [hslot]
      exact fun he => h.alone hr hq hrr hqr (Option.some.inj he)
    exact (if_neg hne).trans hslot
  · obtain ⟨hatt, hperf, hall⟩ := h.performed a ha
    exact ⟨hatt, hperf, fun q hq => hall q (mem_finish hq)⟩

theorem mem_goOn {w : Page} {i : Nat} {q r : Request} {c : Option String}
    (hq : q ∈ (w.goOn i r c).requests) :
    q ∈ w.requests ∨ q = { r with kind := .reload c } :=
  List.mem_or_eq_of_mem_set hq

theorem mem_goOn_of_mem {w : Page} {i : Nat} {q r : Request} (c : Option String)
    (hr : w.requests[i]? = some r) (hq : q ∈ w.requests) : q ∈ (w.goOn i r c).requests ∨ q = r := by
  obtain ⟨j, hj⟩ := List.mem_iff_getElem?.mp hq
  by_cases hij : i = j
  · subst hij
    exact .inr (Option.some.inj (hj.symm.trans hr))
  · refine .inl (List.mem_iff_getElem?.mpr ⟨j, ?_⟩)
    rw [← hj]
    exact List.getElem?_set_ne hij

theorem mem_goOn_self {w : Page} {i : Nat} {r : Request} (c : Option String)
    (hr : w.requests[i]? = some r) :
    ({ r with kind := .reload c } : Request) ∈ (w.goOn i r c).requests :=
  List.mem_set (List.getElem?_eq_some_iff.mp hr).1 _

theorem Coherent.goOn {w : Page} (h : Coherent w) {i : Nat} {r : Request} (c : Option String)
    (hr : w.requests[i]? = some r) (hrr : r.isRestore = true) : Coherent (w.goOn i r c) := by
  have hmem := List.mem_of_getElem? hr
  refine { h with
    begun := fun q hq => ?_
    loads := fun q hq g hg => ?_
    slot := fun a ha => ?_
    owner := fun q hq hqr hgen => ?_
    performed := fun a ha => ?_
    exclusive := ?_ }
  · rcases mem_goOn hq with hq | rfl
    · exact h.begun q hq
    · exact h.begun r hmem
  · rcases mem_goOn hq with hq | rfl
    · exact h.loads q hq g hg
    · rcases hg with hg | hg <;> cases hg
  · obtain ⟨q, hq, hqr, hqa⟩ := h.slot a ha
    rcases mem_goOn_of_mem c hr hq with hq | rfl
    · exact ⟨q, hq, hqr, hqa⟩
    · exact ⟨_, mem_goOn_self c hr, rfl, hqa⟩
  · rcases mem_goOn hq with hq | rfl
    · exact h.owner q hq hqr hgen
    · exact h.owner r hmem hrr hgen
  · obtain ⟨hatt, hperf, hall⟩ := h.performed a ha
    refine ⟨hatt, hperf, fun q hq hqr hqa => ?_⟩
    rcases mem_goOn hq with hq | rfl
    · exact hall q hq hqr hqa
    · exact hall r hmem hrr hqa
  · -- the relation reads only what the two stages have in common
    let common : Request → Bool × String := fun q => (q.isRestore, q.attemptId)
    have hset : (w.goOn i r c).requests.map common = w.requests.map common := by
      rw [Page.goOn, List.map_set]
      refine List.ext_getElem? fun j => ?_
      rw [List.getElem?_set]
      split
      · next hij =>
        subst hij
        rw [List.getElem?_map, hr, List.length_map, if_pos (List.getElem?_eq_some_iff.mp hr).1,
          Option.map_some]
        exact congrArg some (Prod.ext hrr.symm rfl)
      · rfl
    have hpair : (w.requests.map common).Pairwise fun x y => x.1 = true → y.1 = true → x.2 ≠ y.2 :=
      List.pairwise_map.mpr h.exclusive
    rw [← hset] at hpair
    exact List.pairwise_map.mp hpair

/-! ## The effects of a render -/

theorem canResume_attempt {w : Page} (h : w.canResume = true) : ∃ a, w.attemptId = some a := by
  obtain ⟨hm, -⟩ := Bool.and_eq_true_iff.mp h
  obtain ⟨s, -, hs⟩ := (Option.any_eq_true _ _).mp hm
  exact ⟨_, (beq_iff_eq.mp hs).symm⟩

theorem canResume_snapshot {w : Page} (h : w.canResume = true) : w.snapshot ≠ none := by
  intro hn
  simp [Page.canResume, hn] at h

theorem Restored.of_not {w : Page} (h : w.canResume = false) : Restored w := by
  refine ⟨fun hcan => ?_, fun hfirst => ?_⟩
  · rw [h] at hcan
    cases hcan
  · rw [Page.firstResumable, h] at hfirst
    cases hfirst

theorem firstResumable_canResume {w : Page} (h : w.firstResumable = true) : w.canResume = true :=
  (Bool.and_eq_true_iff.mp h).1

theorem Sound.of_performRestore {w : Page} (hc : Coherent w) (hs : Shown w)
    (hd : w.effectDeps = (w.attemptId, w.canResume)) {a : String} (ha : w.attemptId = some a)
    (hn : w.snapshot ≠ none) (hfree : ∀ r ∈ w.requests, r.isRestore = true → r.attemptId ≠ a) :
    Sound w.performRestore := by
  have hslot := hc.slot_free hfree
  have hco := hc.performRestore ha hn hfree hslot
  rw [performRestore_begins ha hslot] at hco ⊢
  refine { hco with
    loading := fun hl => ?_
    unhidden := hs.unhidden
    engaged := fun _ => ⟨a, ha, rfl⟩
    identity := fun _ => ⟨a, ha, rfl⟩
    waiting := fun _ => .inr ⟨_, mem_send.mpr (.inr rfl), rfl, rfl⟩
    deps := hd }
  rcases hs.loading hl with hnone | ⟨r, hr, hk⟩
  · exact .inl hnone
  · exact .inr ⟨r, mem_send.mpr (.inl hr), hk⟩

theorem Settled.runEffects {w : Page} (h : Settled w) : Sound w.runEffects := by
  have hc : Coherent { w with effectDeps := (w.attemptId, w.canResume) } := { h.toCoherent with }
  have hs : Shown { w with effectDeps := (w.attemptId, w.canResume) } := { h.toShown with }
  have keep (hr : Restored w) : Sound { w with effectDeps := (w.attemptId, w.canResume) } :=
    { hc, hs with identity := hr.identity, waiting := hr.waiting, deps := rfl }
  unfold Page.runEffects
  split
  · next hd =>
    rcases h.restored with hr | hp
    · exact { h.toCoherent, h.toShown, hr with deps := hd }
    · exact absurd hd hp.deps
  · dsimp only
    split
    · next hor =>
      refine keep (.of_not (Bool.eq_false_iff.mpr fun hcan => ?_))
      obtain ⟨a, ha⟩ := canResume_attempt hcan
      rcases hor with hnone | hno
      · cases ha.symm.trans hnone
      · cases hcan.symm.trans hno
    · next hor =>
      have hcan : w.canResume = true := Bool.not_eq_false _ ▸ (not_or.mp hor).2
      obtain ⟨a, ha⟩ := canResume_attempt hcan
      split
      · next hid =>
        rcases h.restored with hr | hp
        · exact keep hr
        · exact absurd hid hp.identity
      · next hid =>
        rcases h.restored with hr | hp
        · obtain ⟨b, hb, hrb⟩ := hr.identity hcan
          exact absurd (hrb.trans hb.symm) hid
        · exact Sound.of_performRestore hc hs rfl ha (canResume_snapshot hcan) (hp.free a ha)

/-! ## The requests of the page -/

theorem Restored.loadSnapshot {w : Page} (h : Restored w) (hc : Coherent w)
    (he : w.restoreState ≠ .idle → ∃ a, w.attemptId = some a ∧ w.restoredForAttempt = some a)
    (hnone : w.attemptId = none → Shown w) : Settled w.loadSnapshot := by
  unfold Page.loadSnapshot
  split
  · next ha => exact { hc, hnone ha with restored := .inl h }
  · next a ha =>
    have hco := (hc.supersede true false).send_load (k := .load (w.loadGeneration + 1)) ha
      (.inl rfl) (Nat.le_refl _)
    refine { hco with
      loading := fun _ => .inr ⟨_, mem_send.mpr (.inr rfl), rfl⟩
      unhidden := fun hl => by cases hl
      engaged := he
      restored := .inl ⟨h.identity, fun hf => ?_⟩ }
    rcases h.waiting hf with hfail | ⟨r, hr, hrr, hgen⟩
    · exact .inl hfail
    · exact .inr ⟨r, mem_send.mpr (.inl hr), hrr, hgen⟩

theorem Coherent.opens {w : Page} (hc : Coherent w) (hn : w.snapshot = none)
    (hi : w.restoreState = .idle) :
    Settled w.loadSnapshot := by
  have hcan : w.canResume = false := Bool.eq_false_iff.mpr fun hcan => canResume_snapshot hcan hn
  refine (Restored.of_not hcan).loadSnapshot hc (fun he => absurd hi he) fun hnone => ?_
  refine ⟨fun _ => .inl hnone, fun _ => ?_, fun he => absurd hi he⟩
  rw [Page.firstResumable, hcan, Bool.false_and]

theorem Settled.sound {w : Page} (h : Settled w) (hd : w.effectDeps = (w.attemptId, w.canResume)) :
    Sound w := by
  rcases h.restored with hr | hp
  · exact { h.toCoherent, h.toShown, hr with deps := hd }
  · exact absurd hd hp.deps

theorem Sound.loadSnapshot {w : Page} (h : Sound w) : Sound w.loadSnapshot := by
  refine (h.toRestored.loadSnapshot h.toCoherent h.engaged fun _ => h.toShown).sound ?_
  unfold Page.loadSnapshot
  split
  · exact h.deps
  · exact h.deps

theorem Sound.reconcileAuthoritativeAttempt {w : Page} (h : Sound w) :
    Sound w.reconcileAuthoritativeAttempt := by
  unfold Page.reconcileAuthoritativeAttempt
  split
  · exact h
  · next a ha =>
    split
    · exact h
    · have hc : Coherent { w with reconciliationInFlight := some w.nextRequest } :=
        { h.toCoherent with }
      have hco := hc.send_load (k := .reconciliation w.loadGeneration) ha (.inr rfl) (Nat.le_refl _)
      refine { hco with
        loading := fun hl => ?_
        unhidden := h.unhidden
        engaged := h.engaged
        identity := h.identity
        waiting := fun hf => ?_
        deps := h.deps }
      · rcases h.loading hl with hnone | ⟨r, hr, hk⟩
        · exact .inl hnone
        · exact .inr ⟨r, mem_send.mpr (.inl hr), hk⟩
      · rcases h.waiting hf with hfail | ⟨r, hr, hrr, hgen⟩
        · exact .inl hfail
        · exact .inr ⟨r, mem_send.mpr (.inl hr), hrr, hgen⟩

theorem Sound.retry {w : Page} (h : Sound w) (hg : w.canResume = true ∨ w.restoreState = .failed) :
    Sound w.performRestore := by
  obtain ⟨a, ha, hrest⟩ : ∃ a, w.attemptId = some a ∧ w.restoredForAttempt = some a := by
    rcases hg with hcan | hfail
    · exact h.identity hcan
    · exact h.engaged (by rw [hfail]; exact fun he => by cases he)
  by_cases hslot : w.restoreInFlight = some a
  · have hsame : w.performRestore = w := by simp [Page.performRestore, ha, hslot]
    rw [hsame]
    exact h
  · refine Sound.of_performRestore h.toCoherent h.toShown h.deps ha (fun hn => ?_)
      (h.free_of_slot hrest hslot)
    cases (h.fresh hn).symm.trans hrest

/-! ## The answers -/

theorem Shown.loading_finish {w : Page} (h : Shown w) {i : Nat} {r : Request}
    (hr : w.requests[i]? = some r) (hk : r.kind ≠ .load w.loadGeneration) (hl : w.isLoading = true) :
    w.attemptId = none ∨ ∃ q ∈ (w.finish i).requests, q.kind = .load w.loadGeneration := by
  rcases h.loading hl with hnone | ⟨q, hq, hqk⟩
  · exact .inl hnone
  · refine .inr ⟨q, mem_finish_of_ne hr hq ?_, hqk⟩
    rintro rfl
    exact hk hqk

theorem Restored.finish_load {w : Page} (h : Restored w) {i : Nat} {r : Request}
    (hr : w.requests[i]? = some r) (hrr : r.isRestore = false) : Restored (w.finish i) := by
  refine ⟨h.identity, fun hf => ?_⟩
  rcases h.waiting hf with hfail | ⟨q, hq, hqr, hgen⟩
  · exact .inl hfail
  · refine .inr ⟨q, mem_finish_of_ne hr hq ?_, hqr, hgen⟩
    rintro rfl
    rw [hrr] at hqr
    cases hqr

theorem Sound.finish_load {w : Page} (h : Sound w) {i : Nat} {r : Request}
    (hr : w.requests[i]? = some r) (hrr : r.isRestore = false)
    (hk : r.kind ≠ .load w.loadGeneration) : Settled (w.finish i) := by
  have hco := h.toCoherent.finish_load hr hrr
  exact { hco with
    loading := h.loading_finish hr hk
    unhidden := h.unhidden
    engaged := h.engaged
    restored := .inl (h.toRestored.finish_load hr hrr) }

/-- A snapshot that a current load fetched is applied. -/
theorem Sound.applies {w : Page} (h : Sound w) {i : Nat} {r : Request} {g : Nat}
    {data : CandidateTakeSnapshot} {b : Bool} (hr : w.requests[i]? = some r)
    (hk : r.kind = .load g ∨ r.kind = .reconciliation g) (hcur : w.isCurrentLoad r g = true)
    (hclear : data.attemptId = r.attemptId → data.canResume = true →
      (w.snapshot = none → w.loadError = false) ∧ ∀ q ∈ w.requests, q.isRestore = true →
      q.attemptId = r.attemptId → q.generation = w.generation)
    (hload : b = true → w.attemptId = none ∨ ∃ q ∈ (w.finish i).requests,
      q.kind = .load w.loadGeneration) :
    Settled { (w.finish i).applySnapshot r data with isLoading := b } := by
  have hrr : r.isRestore = false := by
    rcases hk with hk | hk <;> simp [Request.isRestore, hk]
  obtain ⟨hg, hatt⟩ : g = w.loadGeneration ∧ w.attemptId = some r.attemptId := by
    simpa [Page.isCurrentLoad] using hcur
  have hgen := (((h.loads r (List.mem_of_getElem? hr) g hk).2) hg).1
  have hco := h.toCoherent.finish_load hr hrr
  set v : Page := { (w.finish i).applySnapshot r data with isLoading := b } with hv
  -- what a resumable snapshot says of the page that shows it
  have hres : v.canResume = true → data.attemptId = r.attemptId ∧ data.canResume = true := by
    intro hcan
    have hboth : some data.attemptId = w.attemptId ∧ data.canResume = true := by
      simpa [hv, Page.canResume, Page.snapshotMatchesRoute, Page.applySnapshot, Page.finish] using hcan
    exact ⟨Option.some.inj (hboth.1.trans hatt), hboth.2⟩
  have hfirst : v.firstResumable = true → w.snapshot = none ∧ v.canResume = true := by
    intro hf
    have hboth : v.canResume = true ∧ w.snapshot.isNone = true := by
      simpa [hv, Page.firstResumable, Page.applySnapshot, Page.finish] using hf
    exact ⟨Option.isNone_iff_eq_none.mp hboth.2, hboth.1⟩
  refine { hco with
    applied := fun s hs => ?_
    fresh := fun hn => by cases hn
    loading := hload
    unhidden := fun hl => Bool.eq_false_iff.mpr fun hf => ?_
    engaged := h.engaged
    restored := ?_ }
  · cases hs
    exact ⟨hatt, hgen⟩
  · obtain ⟨hn, hcan⟩ := hfirst hf
    obtain ⟨hd, hdr⟩ := hres hcan
    cases hl.symm.trans ((hclear hd hdr).1 hn)
  · by_cases hcan : v.canResume = true
    · obtain ⟨hd, hdr⟩ := hres hcan
      by_cases hid : w.restoredForAttempt = w.attemptId
      · refine .inl ⟨fun _ => ⟨_, hatt, hid.trans hatt⟩, fun hf => ?_⟩
        cases ((h.fresh (hfirst hf).1).symm.trans hid).trans hatt
      · have hfree : ∀ q ∈ w.requests, q.isRestore = true → q.attemptId ≠ r.attemptId := by
          intro q hq hqr hqa
          obtain ⟨-, hrest, -⟩ := h.owner q hq hqr ((hclear hd hdr).2 q hq hqr hqa)
          rw [hqa] at hrest
          exact hid (hrest.trans hatt.symm)
        refine .inr ⟨fun hdeps => ?_, hid, fun a ha q hq hqr => ?_⟩
        · have hold : w.canResume = true := (congrArg Prod.snd (h.deps.symm.trans hdeps)).trans hcan
          obtain ⟨a, ha, hra⟩ := h.identity hold
          exact hid (hra.trans ha.symm)
        · cases ha.symm.trans hatt
          exact hfree q (mem_finish hq) hqr
    · exact .inl (.of_not (Bool.eq_false_iff.mpr hcan))

theorem Sound.settleLoad {w : Page} (h : Sound w) {i : Nat} {r : Request} {g : Nat}
    {response : Response} (hr : w.requests[i]? = some r) (hk : r.kind = .load g)
    (hclear : w.clears r response) :
    Settled (w.settleLoad i r g response) := by
  have hrr : r.isRestore = false := by simp [Request.isRestore, hk]
  -- the page after a failed load
  have failed (hcur : w.isCurrentLoad r g = true) (hfails : w.firstResumable = false) :
      Settled { w.finish i with loadError := true, isLoading := false } := by
    have hco := h.toCoherent.finish_load hr hrr
    exact { hco with
      loading := fun hl => by cases hl
      unhidden := fun _ => hfails
      engaged := h.engaged
      restored := .inl { h.toRestored.finish_load hr hrr with } }
  unfold Page.settleLoad
  dsimp only
  split
  · next hcur =>
    replace hcur : w.isCurrentLoad r g = true := hcur
    split
    · next data =>
      refine h.applies hr (.inl hk) hcur (fun hd hdr => hclear.1 ?_) (fun hb => by cases hb)
      simp [Page.resumes, hk, hcur, hd, hdr]
    · next hns =>
      refine failed hcur (hclear.2 ?_)
      cases response with
      | snapshot data => exact absurd rfl (hns data)
      | acknowledged => simpa [Page.loadFails, hk] using hcur
      | failed code => simpa [Page.loadFails, hk] using hcur
  · next hcur =>
    refine h.finish_load hr hrr fun hkind => hcur ?_
    have hg : g = w.loadGeneration := by simpa [hk] using hkind
    have hatt := ((h.loads r (List.mem_of_getElem? hr) g (.inl hk)).2 hg).2
    simp [Page.isCurrentLoad, Page.finish, hg, hatt]

theorem Settled.reconciled {w : Page} (h : Settled w) (x : Option Nat) :
    Settled { w with reconciliationInFlight := x } := by
  refine { h.toCoherent, h.toShown with restored := ?_ }
  rcases h.restored with hr | hp
  · exact .inl { hr with }
  · exact .inr { hp with }

theorem Sound.settleReconciliation {w : Page} (h : Sound w) {i : Nat} {r : Request} {g : Nat}
    {response : Response} (hr : w.requests[i]? = some r) (hk : r.kind = .reconciliation g)
    (hclear : w.clears r response) :
    Settled (w.settleReconciliation i r g response) := by
  have hrr : r.isRestore = false := by simp [Request.isRestore, hk]
  have hne : r.kind ≠ .load w.loadGeneration := by simp [hk]
  have hend : Settled (w.finish i) := h.finish_load hr hrr hne
  have forget (v : Page) (hv : Settled v) :
      Settled (if v.reconciliationInFlight = some r.id then
          { v with reconciliationInFlight := none } else v) := by
    split
    · exact hv.reconciled none
    · exact hv
  unfold Page.settleReconciliation
  dsimp only
  refine forget _ ?_
  split
  · next data =>
    split
    · next hcur =>
      replace hcur : w.isCurrentLoad r g = true := hcur
      refine h.applies hr (.inr hk) hcur (fun hd hdr => hclear.1 ?_) fun hl =>
        h.loading_finish hr hne hl
      simp [Page.resumes, hk, hcur, hd, hdr]
    · exact hend
  · exact hend

/-- A restore of an earlier visit ends without effect on the page. -/
theorem Sound.finish_stale {w : Page} (h : Sound w) {i : Nat} {r : Request}
    (hr : w.requests[i]? = some r) (hrr : r.isRestore = true) (hst : w.isStale r = true) :
    Settled ((w.finish i).releaseInFlightIfOwner r) := by
  have hne : r.kind ≠ .load w.loadGeneration := by
    intro hk
    simp [Request.isRestore, hk] at hrr
  have hold : r.generation ≠ w.generation := by
    intro hgen
    have hatt := (h.owner r (List.mem_of_getElem? hr) hrr hgen).1
    simp [Page.isStale, hgen, hatt] at hst
  have hco := h.toCoherent.finish_restore hr hrr
  rw [releaseInFlightIfOwner_eq] at hco ⊢
  refine { hco with
    loading := h.loading_finish hr hne
    unhidden := h.unhidden
    engaged := h.engaged
    restored := .inl ⟨h.identity, fun hf => ?_⟩ }
  rcases h.waiting hf with hfail | ⟨q, hq, hqr, hgen⟩
  · exact .inl hfail
  · refine .inr ⟨q, mem_finish_of_ne hr hq ?_, hqr, hgen⟩
    rintro rfl
    exact hold hgen

theorem Sound.goOn {w : Page} (h : Sound w) {i : Nat} {r : Request} (c : Option String)
    (hr : w.requests[i]? = some r) (hrr : r.isRestore = true) : Settled (w.goOn i r c) := by
  have hco := h.toCoherent.goOn c hr hrr
  refine { hco with
    loading := fun hl => ?_
    unhidden := h.unhidden
    engaged := h.engaged
    restored := .inl ⟨h.identity, fun hf => ?_⟩ }
  · rcases h.loading hl with hnone | ⟨q, hq, hqk⟩
    · exact .inl hnone
    · rcases mem_goOn_of_mem c hr hq with hq | rfl
      · exact .inr ⟨q, hq, hqk⟩
      · simp [Request.isRestore, hqk] at hrr
  · rcases h.waiting hf with hfail | ⟨q, hq, hqr, hgen⟩
    · exact .inl hfail
    · rcases mem_goOn_of_mem c hr hq with hq | rfl
      · exact .inr ⟨q, hq, hqr, hgen⟩
      · exact .inr ⟨_, mem_goOn_self c hr, rfl, hgen⟩

theorem Sound.settleRestore {w : Page} (h : Sound w) {i : Nat} {r : Request} {response : Response}
    (hr : w.requests[i]? = some r) (hrr : r.isRestore = true) :
    Settled (w.settleRestore i r response) := by
  unfold Page.settleRestore
  split
  · next code =>
    split
    · next hst => exact h.finish_stale hr hrr hst
    · exact h.goOn _ hr hrr
  · exact h.goOn _ hr hrr

theorem Sound.fails {w : Page} (h : Sound w) {i : Nat} {r : Request} (hr : w.requests[i]? = some r)
    (hrr : r.isRestore = true) (hgen : r.generation = w.generation) :
    Settled ({ w.finish i with restoreState := .failed }.releaseInFlightIfOwner r) := by
  have hne : r.kind ≠ .load w.loadGeneration := by
    intro hk
    simp [Request.isRestore, hk] at hrr
  obtain ⟨hatt, hrest, -⟩ := h.owner r (List.mem_of_getElem? hr) hrr hgen
  have hco := h.toCoherent.finish_restore hr hrr
  rw [releaseInFlightIfOwner_eq] at hco ⊢
  exact { hco with
    loading := h.loading_finish hr hne
    unhidden := h.unhidden
    engaged := fun _ => ⟨_, hatt, hrest⟩
    restored := .inl ⟨h.identity, fun _ => .inl rfl⟩ }

theorem Sound.restores {w : Page} (h : Sound w) {i : Nat} {r : Request} (data : CandidateTakeSnapshot)
    (hr : w.requests[i]? = some r) (hrr : r.isRestore = true) (hgen : r.generation = w.generation) :
    Settled ({ (w.finish i).applySnapshot r data with restoreState := .idle }.releaseInFlightIfOwner
        r) := by
  have hne : r.kind ≠ .load w.loadGeneration := by
    intro hk
    simp [Request.isRestore, hk] at hrr
  obtain ⟨hatt, hrest, -⟩ := h.owner r (List.mem_of_getElem? hr) hrr hgen
  have hco := h.toCoherent.finish_restore hr hrr
  rw [releaseInFlightIfOwner_eq] at hco ⊢
  -- a restore begins only over a snapshot, so this one is not the first
  obtain ⟨s, hs⟩ : ∃ s, w.snapshot = some s := by
    refine Option.ne_none_iff_exists'.mp fun hn => ?_
    cases (h.fresh hn).symm.trans hrest
  have hfirst (v : Page)
      (hv : v.snapshot = ((w.finish i).applySnapshot r data).snapshot) : v.firstResumable = false := by
    simp [Page.firstResumable, hv, Page.applySnapshot, Page.finish, hs]
  exact { hco with
    applied := fun s hs => by
      cases hs
      exact ⟨hatt, hgen⟩
    fresh := fun hn => by cases hn
    loading := h.loading_finish hr hne
    unhidden := fun _ => hfirst _ rfl
    engaged := fun hi => absurd rfl hi
    restored := .inl ⟨fun _ => ⟨_, hatt, hrest⟩,
      fun hf => absurd hf (Bool.eq_false_iff.mp (hfirst _ rfl))⟩ }

theorem Sound.settleReload {w : Page} (h : Sound w) {i : Nat} {r : Request} {response : Response}
    (hr : w.requests[i]? = some r) (hrr : r.isRestore = true) :
    Settled (w.settleReload i r response) := by
  unfold Page.settleReload
  dsimp only
  split
  · next hst => exact h.finish_stale hr hrr hst
  · next hst =>
    have hgen : r.generation = w.generation := by
      have hst : ¬w.isStale r = true := hst
      simp only [Page.isStale, Bool.or_eq_true, decide_eq_true_eq, not_or, not_not] at hst
      exact hst.1
    split
    · next data =>
      split
      · exact h.fails hr hrr hgen
      · split
        · exact h.restores data hr hrr hgen
        · split
          · exact h.restores data hr hrr hgen
          · exact h.fails hr hrr hgen
    · exact h.fails hr hrr hgen

theorem Sound.settle {w : Page} (h : Sound w) {i : Nat} {r : Request} {response : Response}
    (hr : w.requests[i]? = some r) (hclear : w.clears r response) :
    Settled (w.settle i r response) := by
  unfold Page.settle
  split
  · next g hk => exact h.settleLoad hr hk hclear
  · next g hk => exact h.settleReconciliation hr hk hclear
  · next hk => exact h.settleRestore hr (by simp [Request.isRestore, hk])
  · next c hk => exact h.settleReload hr (by simp [Request.isRestore, hk])

/-! ## The run -/

theorem Coherent.of_empty {w : Page} (hs : w.snapshot = none) (hq : w.requests = [])
    (hf : w.restoreInFlight = none) (hr : w.restoredForAttempt = none) : Coherent w := by
  constructor <;> simp [hs, hq, hf, hr]

theorem Sound.start (a : Option String) : Sound (Page.start a) := by
  unfold Page.start
  refine ((Coherent.of_empty rfl rfl rfl rfl).opens rfl rfl).sound ?_
  unfold Page.loadSnapshot
  split <;> rfl

theorem Sound.step {w w' : Page} {e : Event} {u : Unit} (h : Sound w) (hclear : e.clear w)
    (hx : e.step w = .ok (u, w')) :
    Sound w' := by
  cases e with
  | navigate a =>
    simp only [Event.step, bind_eq_ok, require_eq_ok] at hx
    obtain ⟨-, -, hx⟩ := hx
    cases hx
    exact ((h.toCoherent.changeRoute a).opens rfl rfl).runEffects
  | load =>
    cases hx
    exact h.loadSnapshot
  | reconcile =>
    cases hx
    exact h.reconcileAuthoritativeAttempt
  | retry =>
    simp only [Event.step, bind_eq_ok, require_eq_ok] at hx
    obtain ⟨-, hg, hx⟩ := hx
    cases hx
    exact h.retry hg
  | respond i response =>
    simp only [Event.step, bind_eq_ok, orThrow_eq_ok] at hx
    obtain ⟨r, hr, hx⟩ := hx
    cases hx
    exact (h.settle hr (hclear r hr)).runEffects

theorem Sound.retry_sends {w : Page} (h : Sound w) (hn : w.requests = [])
    (hfail : w.restoreState = .failed) :
    ∃ w', Event.retry.step w = .ok ((), w') ∧
      w'.requests.any (fun r => r.kind = .restore ∧ w.attemptId = some r.attemptId) = true := by
  obtain ⟨a, ha, -⟩ := h.engaged (by rw [hfail]; exact fun he => by cases he)
  have hslot : w.restoreInFlight ≠ some a := h.slot_free (by simp [hn])
  refine ⟨w.performRestore, ?_, ?_⟩
  · simp [Event.step, require, hfail]
  · rw [performRestore_begins ha hslot]
    simp [Page.send, ha]

theorem Sound.surface {w : Page} (h : Sound w) (hn : w.requests = []) (hf : w.firstResumable = true) :
    w.restoreState = .failed ∧ w.surface = .restoreFailed := by
  have hfail : w.restoreState = .failed := by
    rcases h.waiting hf with hfail | ⟨r, hr, -⟩
    · exact hfail
    · simp [hn] at hr
  have hcan := firstResumable_canResume hf
  obtain ⟨a, ha⟩ := canResume_attempt hcan
  have hload : w.isLoading = false := by
    refine Bool.eq_false_iff.mpr fun hl => ?_
    rcases h.loading hl with hnone | ⟨r, hr, -⟩
    · cases hnone.symm.trans ha
    · simp [hn] at hr
  have herr : w.loadError = false := by
    refine Bool.eq_false_iff.mpr fun hl => ?_
    cases hf.symm.trans (h.unhidden hl)
  have hroute : w.snapshotMatchesRoute = true := (Bool.and_eq_true_iff.mp hcan).1
  exact ⟨hfail, by simp [Page.surface, hload, herr, hroute, hfail]⟩

theorem Sound.safe {w : Page} (h : Sound w) : RestoreSafe w := by
  refine ⟨h.applied, fun a => ?_, fun hn hf => ?_⟩
  · have hpair := h.exclusive.filter fun r => decide (r.kind = .restore ∧ r.attemptId = a)
    have hall : ∀ r ∈ w.requests.filter (fun r => decide (r.kind = .restore ∧ r.attemptId = a)),
        r.isRestore = true ∧ r.attemptId = a := by
      intro r hr
      obtain ⟨hk, ha⟩ := of_decide_eq_true (List.mem_filter.mp hr).2
      exact ⟨by simp [Request.isRestore, hk], ha⟩
    rcases hl : w.requests.filter (fun r => decide (r.kind = .restore ∧ r.attemptId = a)) with _ |
      ⟨q, _ | ⟨r, rest⟩⟩
    · rw [hl]
      exact Nat.zero_le _
    · rw [hl]
      exact Nat.le_refl _
    · rw [hl] at hpair hall
      obtain ⟨hq, hqa⟩ := hall q (by simp)
      obtain ⟨hr, hra⟩ := hall r (by simp)
      exact absurd (hqa.trans hra.symm) ((List.pairwise_cons.mp hpair).1 r (by simp) hq hr)
  · obtain ⟨hfail, hsurface⟩ := h.surface hn hf
    obtain ⟨a, ha, hrest⟩ := h.identity (firstResumable_canResume hf)
    exact ⟨⟨a, ha, (h.performed a hrest).2.1⟩, hsurface, h.retry_sends hn hfail⟩

/-- Along every run without such an answer the page restores safely. -/
theorem restore_safe (a : Option String) (es : List Event)
    (h : Along Event.step Event.clear (Page.start a) es) :
    RestoreSafe (run Event.step (Page.start a) es) :=
  (run_along (P := Sound) _ (fun _ _ _ _ hs hclear hx => hs.step hclear hx) es _ (.start a) h).safe

/-- A disrupted attempt whose restore fails twice, left for another attempt and
opened again, at the indices of its requests. -/
def returning : List Event :=
  let disrupted : Response := .snapshot { attemptId := "a", isEditable := false, canResume := true }
  [.respond 0 disrupted, .respond 0 (.failed "NETWORK"), .respond 0 (.failed "NETWORK"), .retry,
    .respond 0 .acknowledged,
    .respond 0 disrupted, .navigate (some "b"), .navigate (some "a"), .respond 1 disrupted,
    .respond 0 (.failed "NETWORK")]

theorem restore_safe_sample : RestoreSafe (run Event.step (Page.start (some "a")) returning) :=
  restore_safe (some "a") returning (by decide +kernel)

/-- The candidate returns while the command of the first visit is in flight and
the visit between has taken the slot. -/
def overlappingVisits : List Event :=
  [.respond 0 (.snapshot { attemptId := "a", isEditable := false, canResume := true }),
    .navigate (some "b"),
    .respond 1 (.snapshot { attemptId := "b", isEditable := false, canResume := true }),
    .navigate (some "a"),
    .respond 2 (.snapshot { attemptId := "a", isEditable := false, canResume := true })]

/-- The candidate returns while the restore of the first visit owns the slot,
and it ends. -/
def strandedVisit : List Event :=
  [.respond 0 (.snapshot { attemptId := "a", isEditable := false, canResume := true }),
    .navigate (some "b"),
    .navigate (some "a"), .respond 2 (.snapshot
      { attemptId := "a", isEditable := false, canResume := true }),
    .respond 1 (.failed "NETWORK"), .respond 0 .acknowledged,
    .respond 0 (.snapshot { attemptId := "a", isEditable := false, canResume := true })]

def hiddenFailure : List Event :=
  [.reconcile, .respond 1 (.snapshot { attemptId := "a", isEditable := false, canResume := true }),
    .respond 0 (.failed "NETWORK"), .respond 0 (.failed "NETWORK"), .respond 0 (.failed "NETWORK")]

theorem restore_unsafe :
    ¬RestoreSafe (run Event.step (Page.start (some "a")) overlappingVisits) ∧
      ¬RestoreSafe (run Event.step (Page.start (some "a")) strandedVisit) ∧
      ¬RestoreSafe (run Event.step (Page.start (some "a")) hiddenFailure) := by
  have hoverlap : ¬((run Event.step (Page.start (some "a")) overlappingVisits).requests.filter
      fun r => r.kind = .restore ∧ r.attemptId = "a").length ≤ 1 := by decide +kernel
  refine ⟨fun h => hoverlap (h.exclusive "a"), fun h => ?_, fun h => ?_⟩
  · have hsettled := (h.settled (by decide +kernel) (by decide +kernel)).2.1
    exact absurd hsettled (by decide +kernel)
  · have hsettled := (h.settled (by decide +kernel) (by decide +kernel)).2.1
    exact absurd hsettled (by decide +kernel)

end ExamSystem.AttemptRestore
