import Mathlib.Data.List.Nodup
import ExamSystem.Effects
import ExamSystem.StartSound

/-!
# The final result of an enrollment

Each closure of an attempt folds its result into the enrollment. The fold looks
at the order of the gradings where the strategy speaks of attempt numbers, and
leaves the intended result when the attempts are graded in turn.
-/

namespace ExamSystem

open Tx

/-! ## Selecting one completion -/

/-- What a graded attempt brings to its enrollment, and whether it waited for a grader. -/
structure Completion where
  attemptId : String
  attemptNo : Nat
  score : ℚ
  passed : Bool
  manual : Bool
  deriving DecidableEq

def selectNext (strategy : ScoreStrategy) (final : Option Completion) (c : Completion) :
    Option Completion :=
  match final, strategy with
  | none, _ => some c
  | some _, .latest => some c
  | some f, .highest => if f.score < c.score then some c else some f
  | some f, .first => some f

def selectAll (strategy : ScoreStrategy) (order : List Completion) : Option Completion :=
  order.foldl (selectNext strategy) none

theorem selectAll_first (c : Completion) (order : List Completion) :
    selectAll .first (c :: order) = some c := by
  have hkeep : ∀ order : List Completion, order.foldl (selectNext .first) (some c) = some c := by
    intro order
    induction order with
    | nil => rfl
    | cons d order ih => exact ih
  exact hkeep order

theorem selectAll_latest (c : Completion) (order : List Completion) :
    selectAll .latest (order ++ [c]) = some c := by
  rw [selectAll, List.foldl_append]
  cases order.foldl (selectNext .latest) none <;> rfl

theorem fold_highest :
    ∀ (order : List Completion) (f : Completion), ∃ before c after, f :: order = before ++ c :: after ∧
    order.foldl (selectNext .highest) (some f) = some c ∧ (∀ d ∈ before, d.score < c.score) ∧
    ∀ d ∈ after, d.score ≤ c.score
  | [], f => ⟨[], f, [], rfl, rfl, by simp, by simp⟩
  | d :: order, f => by
    rw [List.foldl_cons]
    by_cases h : f.score < d.score
    · rw [show selectNext .highest (some f) d = some d from if_pos h]
      obtain ⟨before, c, after, heq, hc, hbefore, hafter⟩ := fold_highest order d
      refine ⟨f :: before, c, after, congrArg (f :: ·) heq, hc, ?_, hafter⟩
      have hd : d.score ≤ c.score := by
        have hmem : d ∈ before ++ c :: after := heq ▸ List.mem_cons_self
        rcases List.mem_append.mp hmem with hmem | hmem
        · exact (hbefore d hmem).le
        · rcases List.mem_cons.mp hmem with rfl | hmem
          · exact le_rfl
          · exact hafter d hmem
      intro x hx
      rcases List.mem_cons.mp hx with rfl | hx
      · exact h.trans_le hd
      · exact hbefore x hx
    · rw [show selectNext .highest (some f) d = some f from if_neg h]
      obtain ⟨before, c, after, heq, hc, hbefore, hafter⟩ := fold_highest order f
      cases before with
      | nil =>
        obtain ⟨rfl, rfl⟩ := List.cons.inj heq
        refine ⟨[], f, d :: order, rfl, hc, by simp, fun x hx => ?_⟩
        rcases List.mem_cons.mp hx with rfl | hx
        · exact not_lt.mp h
        · exact hafter x hx
      | cons g before =>
        obtain ⟨rfl, rfl⟩ := List.cons.inj heq
        refine ⟨f :: d :: before, c, after, rfl, hc, fun x hx => ?_, hafter⟩
        rcases List.mem_cons.mp hx with rfl | hx
        · exact hbefore x (by simp)
        rcases List.mem_cons.mp hx with rfl | hx
        · exact (not_lt.mp h).trans_lt (hbefore f (by simp))
        · exact hbefore x (by simp [hx])

/-! ## The intended result -/

def topScores (order : List Completion) : List Completion :=
  order.filter fun c => ∀ d ∈ order, d.score ≤ c.score

theorem selectAll_highest (order : List Completion) :
    selectAll .highest order = (topScores order).head? := by
  cases order with
  | nil => rfl
  | cons f order =>
    obtain ⟨before, c, after, heq, hc, hbefore, hafter⟩ := fold_highest order f
    have hmem : ∀ d, d ∈ f :: order ↔ d ∈ before ∨ d = c ∨ d ∈ after := by
      intro d
      rw [heq, List.mem_append, List.mem_cons]
    have htop : ∀ d ∈ f :: order, d.score ≤ c.score := by
      intro d hd
      rcases (hmem d).mp hd with hd | rfl | hd
      · exact (hbefore d hd).le
      · exact le_rfl
      · exact hafter d hd
    have hnone : before.filter (fun d => ∀ x ∈ f :: order, x.score ≤ d.score) = [] := by
      rw [List.filter_eq_nil_iff]
      intro d hd hmax
      have hle : c.score ≤ d.score := of_decide_eq_true hmax c ((hmem c).mpr (.inr (.inl rfl)))
      exact absurd (hbefore d hd) hle.not_gt
    change order.foldl (selectNext .highest) (some f) = _
    rw [hc, topScores, heq, List.filter_append, ← heq, hnone, List.nil_append,
      List.filter_cons_of_pos (by simpa using htop)]
    rfl

/-- The completion that the strategy stands for: the lowest attempt number, the
highest one, or the lowest one of those with a maximal score. -/
def Intended (strategy : ScoreStrategy) (completions : List Completion) (c : Completion) : Prop :=
  match strategy with
  | .first => c ∈ completions ∧ ∀ d ∈ completions, c.attemptNo ≤ d.attemptNo
  | .latest => c ∈ completions ∧ ∀ d ∈ completions, d.attemptNo ≤ c.attemptNo
  | .highest => c ∈ topScores completions ∧ ∀ d ∈ topScores completions, c.attemptNo ≤ d.attemptNo

/-- The attempts are graded in turn: the lowest number before the others under
'first', the highest after them under 'latest', and under 'highest' the lowest
before the others with its score, if that is the maximal one. -/
def InTurn (strategy : ScoreStrategy) (order : List Completion) : Prop :=
  match strategy with
  | .first => ∀ c ∈ order.head?, ∀ d ∈ order, c.attemptNo ≤ d.attemptNo
  | .latest => ∀ c ∈ order.getLast?, ∀ d ∈ order, d.attemptNo ≤ c.attemptNo
  | .highest => ∀ c ∈ (topScores order).head?, ∀ d ∈ topScores order, c.attemptNo ≤ d.attemptNo

instance (strategy : ScoreStrategy) (order : List Completion) : Decidable (InTurn strategy order) :=
  match strategy with
  | .first => inferInstanceAs (Decidable (∀ c ∈ order.head?, ∀ d ∈ order, c.attemptNo ≤ d.attemptNo))
  | .latest => inferInstanceAs
      (Decidable (∀ c ∈ order.getLast?, ∀ d ∈ order, d.attemptNo ≤ c.attemptNo))
  | .highest =>
    inferInstanceAs (Decidable (∀ c ∈ (topScores order).head?,
        ∀ d ∈ topScores order, c.attemptNo ≤ d.attemptNo))

theorem mem_topScores {order : List Completion} {c : Completion} :
    c ∈ topScores order ↔ c ∈ order ∧ ∀ d ∈ order, d.score ≤ c.score := by
  simp [topScores]

theorem Intended.mem {strategy : ScoreStrategy} {completions : List Completion} {c : Completion}
    (h : Intended strategy completions c) : c ∈ completions := by
  cases strategy with
  | first => exact h.1
  | latest => exact h.1
  | highest => exact (mem_topScores.mp h.1).1

theorem Intended.congr {strategy : ScoreStrategy} {completions completions' : List Completion}
    {c : Completion} (hsame : ∀ d, d ∈ completions ↔ d ∈ completions')
    (h : Intended strategy completions c) :
    Intended strategy completions' c := by
  have htop : ∀ d, d ∈ topScores completions ↔ d ∈ topScores completions' := by
    intro d
    simp only [mem_topScores, hsame]
  cases strategy with
  | first => exact ⟨(hsame c).mp h.1, fun d hd => h.2 d ((hsame d).mpr hd)⟩
  | latest => exact ⟨(hsame c).mp h.1, fun d hd => h.2 d ((hsame d).mpr hd)⟩
  | highest => exact ⟨(htop c).mp h.1, fun d hd => h.2 d ((htop d).mpr hd)⟩

theorem Intended.unique {strategy : ScoreStrategy} {completions : List Completion} {c d : Completion}
    (hn : (completions.map (·.attemptNo)).Nodup) (hc : Intended strategy completions c)
    (hd : Intended strategy completions d) : c = d := by
  refine List.inj_on_of_nodup_map hn hc.mem hd.mem (le_antisymm ?_ ?_)
  · cases strategy with
    | first => exact hc.2 d hd.1
    | latest => exact hd.2 c hc.1
    | highest => exact hc.2 d hd.1
  · cases strategy with
    | first => exact hd.2 c hc.1
    | latest => exact hc.2 d hd.1
    | highest => exact hd.2 c hc.1

theorem selectAll_eq (strategy : ScoreStrategy) (order : List Completion) :
    selectAll strategy order =
      match strategy with
      | .first => order.head?
      | .latest => order.getLast?
      | .highest => (topScores order).head? := by
  cases strategy with
  | first =>
    cases order with
    | nil => rfl
    | cons c order => exact selectAll_first c order
  | latest =>
    rcases List.eq_nil_or_concat' order with rfl | ⟨order, c, rfl⟩
    · rfl
    · rw [selectAll_latest, List.getLast?_concat]
  | highest => exact selectAll_highest order

theorem selectAll_intended {strategy : ScoreStrategy} {order : List Completion} {c : Completion}
    (h : selectAll strategy order = some c) : Intended strategy order c ↔ InTurn strategy order := by
  rw [selectAll_eq] at h
  cases strategy with
  | first =>
    dsimp only at h
    unfold Intended InTurn
    simp only [h, Option.mem_some_iff, forall_eq', List.mem_of_head? h, true_and]
  | latest =>
    dsimp only at h
    unfold Intended InTurn
    simp only [h, Option.mem_some_iff, forall_eq', List.mem_of_getLast? h, true_and]
  | highest =>
    dsimp only at h
    unfold Intended InTurn
    simp only [h, Option.mem_some_iff, forall_eq', List.mem_of_head? h, true_and]

theorem selectAll_mem {strategy : ScoreStrategy} {order : List Completion} {c : Completion}
    (h : selectAll strategy order = some c) : c ∈ order := by
  rw [selectAll_eq] at h
  cases strategy with
  | first => exact List.mem_of_head? h
  | latest => exact List.mem_of_getLast? h
  | highest => exact (mem_topScores.mp (List.mem_of_head? h)).1

theorem selectAll_eq_none {strategy : ScoreStrategy} {order : List Completion}
    (h : selectAll strategy order = none) :
    order = [] := by
  cases order with
  | nil => rfl
  | cons c order =>
    rw [selectAll_eq] at h
    cases strategy with
    | first => cases h
    | latest => simp at h
    | highest =>
      obtain ⟨before, d, after, -, hd, -, -⟩ := fold_highest order c
      rw [← selectAll_highest] at h
      cases hd.symm.trans h

theorem inTurn_of_pairwise {order : List Completion}
    (h : order.Pairwise fun c d => c.attemptNo < d.attemptNo) (strategy : ScoreStrategy) :
    InTurn strategy order := by
  have hhead : ∀ l : List Completion, l.Pairwise (fun c d => c.attemptNo < d.attemptNo) →
      ∀ c ∈ l.head?, ∀ d ∈ l, c.attemptNo ≤ d.attemptNo := by
    intro l hl c hc d hd
    cases l with
    | nil => cases hc
    | cons b l =>
      obtain rfl := Option.some.inj hc
      rcases List.mem_cons.mp hd with rfl | hd
      · exact le_rfl
      · exact (List.rel_of_pairwise_cons hl hd).le
  cases strategy with
  | first => exact hhead order h
  | latest =>
    intro c hc d hd
    rcases List.eq_nil_or_concat' order with rfl | ⟨before, b, rfl⟩
    · cases hc
    · rw [List.getLast?_concat] at hc
      obtain rfl := Option.some.inj hc
      rcases List.mem_append.mp hd with hd | hd
      · exact ((List.pairwise_append.mp h).2.2 d hd b (by simp)).le
      · rw [List.mem_singleton.mp hd]
  | highest => exact hhead _ (h.sublist List.filter_sublist)

/-! ## The enrollment folds the completions -/

def ExamEnrollment.final (e : ExamEnrollment) : Option String × Option ℚ × Option Bool :=
  (e.finalAttemptId, e.finalScore, e.finalPassed)

def FinalIs (e : ExamEnrollment) (result : Option Completion) : Prop :=
  e.finalAttemptId = result.map (·.attemptId) ∧ e.finalScore = result.map (·.score) ∧
    e.finalPassed = result.map (·.passed)

theorem FinalIs.eq_final {e e' : ExamEnrollment} {result : Option Completion} (h : FinalIs e result)
    (h' : FinalIs e' result) : e.final = e'.final := by
  rw [ExamEnrollment.final, ExamEnrollment.final, h.1, h.2.1, h.2.2, h'.1, h'.2.1, h'.2.2]

theorem FinalIs.of_final {e e' : ExamEnrollment} {result : Option Completion} (h : FinalIs e result)
    (heq : e'.final = e.final) : FinalIs e' result := by
  obtain ⟨hid, hscore, hpassed⟩ : e'.finalAttemptId = e.finalAttemptId ∧ e'.finalScore = e.finalScore ∧
      e'.finalPassed = e.finalPassed := by simpa [ExamEnrollment.final] using heq
  exact ⟨hid.trans h.1, hscore.trans h.2.1, hpassed.trans h.2.2⟩

theorem FinalIs.project {e : ExamEnrollment} {result : Option Completion} (h : FinalIs e result)
    (strategy : ScoreStrategy) (target : EnrollmentStatus) (c : Completion) :
    FinalIs (e.project strategy target c.attemptId c.score c.passed)
      (selectNext strategy result c) := by
  obtain ⟨hid, hscore, hpassed⟩ := h
  unfold ExamEnrollment.project shouldSelectAttempt
  rw [hid, hscore]
  cases result with
  | none => exact ⟨rfl, rfl, rfl⟩
  | some f =>
    cases strategy with
    | latest => exact ⟨rfl, rfl, rfl⟩
    | first => exact ⟨rfl, rfl, hpassed⟩
    | highest =>
      by_cases hlt : f.score < c.score
      · simp only [Option.map_some, hlt, decide_true, if_true, selectNext]
        exact ⟨rfl, rfl, rfl⟩
      · simp only [Option.map_some, hlt, decide_false, Bool.false_eq_true, if_false, selectNext]
        exact ⟨rfl, rfl, hpassed⟩

def ExamAttempt.completion (a : ExamAttempt) : Completion :=
  { attemptId := a.id, attemptNo := a.attemptNo, score := a.score.getD 0, passed := a.passed.getD false
    manual := requiresManualGrading a.questionSnapshot }

def Db.Completes (db : Db) (c : Completion) : Prop :=
  ∃ a, db.findAttempt c.attemptId = some a ∧ a.status = .graded ∧ a.completion = c

/-- The graded attempts in the order they were graded in, and the result that
this order left on the enrollment. An attempt without a manual question is graded
after those of lower number only. -/
structure FinalSound (strategy : ScoreStrategy) (db : Db) (order : List Completion) : Prop where
  kept : db.exam.scoreStrategy = strategy
  ids : (order.map (·.attemptId)).Nodup
  rows : ∀ c, c ∈ order ↔ db.Completes c
  final : FinalIs db.enrollment (selectAll strategy order)
  turn : order.Pairwise fun c d => d.manual = false → c.attemptNo < d.attemptNo

theorem Initial.finalSound {db : Db} (h : Initial db) : FinalSound db.exam.scoreStrategy db [] := by
  refine ⟨rfl, List.nodup_nil, fun c => ?_, ?_, .nil⟩
  · constructor
    · intro hc
      cases hc
    · rintro ⟨a, ha, -⟩
      rw [h.findAttempt] at ha
      cases ha
  · exact ⟨h.unresolved.1, h.unresolved.2.1, h.unresolved.2.2⟩

/-- No attempt that is graded at once is at rest between submission and grade. -/
def Resting (db : Db) : Prop :=
  ∀ k a, db.findAttempt k = some a → a.status = .submitted →
    requiresManualGrading a.questionSnapshot = true

def Newest (db : Db) : Prop :=
  ∀ j k a b, db.findAttempt j = some a → db.findAttempt k = some b → a.Active → j ≠ k →
    b.attemptNo < a.attemptNo

section
variable {strategy : ScoreStrategy} {db db' : Db} {order : List Completion} {a : ExamAttempt}
  {f : ExamAttempt → ExamAttempt}

theorem FinalSound.congr (h : FinalSound strategy db order)
    (hexam : db'.exam.scoreStrategy = strategy) (hattempts : db'.attempts = db.attempts)
    (henr : db'.enrollment = db.enrollment) : FinalSound strategy db' order := by
  refine ⟨hexam, h.ids, fun c => ?_, henr ▸ h.final, h.turn⟩
  rw [h.rows, Db.Completes, Db.Completes, Db.findAttempt, Db.findAttempt, hattempts]

theorem FinalSound.update (h : FinalSound strategy db order) (hf : ∀ a, (f a).id = a.id)
    (ha : db.findAttempt a.id = some a) (hs : a.status ≠ .graded) (hs' : (f a).status ≠ .graded) :
    FinalSound strategy (db.updateAttempt a.id f) order := by
  refine ⟨h.kept, h.ids, fun c => ?_, h.final, h.turn⟩
  rw [h.rows, Db.Completes, Db.Completes, Db.findAttempt_updateAttempt db a.id hf]
  by_cases hid : c.attemptId = a.id
  · rw [if_pos hid, hid, ha]
    constructor
    · rintro ⟨x, hx, hg, -⟩
      obtain rfl := Option.some.inj hx
      exact absurd hg hs
    · rintro ⟨x, hx, hg, -⟩
      obtain rfl := Option.some.inj hx
      exact absurd hg hs'
  · rw [if_neg hid]

theorem FinalSound.create {input : StartAttemptInput} (h : FinalSound strategy db order)
    (hc : Creates db a input) :
    FinalSound strategy (db.create a) order := by
  refine ⟨h.kept, h.ids, fun c => ?_, h.final, h.turn⟩
  rw [h.rows, Db.Completes, Db.Completes,
    show (db.create a).findAttempt c.attemptId = _ from Db.findAttempt_append hc.fresh _]
  by_cases hid : c.attemptId = a.id
  · rw [if_pos hid, hid, hc.fresh]
    constructor
    · rintro ⟨x, hx, -⟩
      cases hx
    · rintro ⟨x, hx, hg, -⟩
      obtain rfl := Option.some.inj hx
      rw [hc.status] at hg
      cases hg
  · rw [if_neg hid]

theorem FinalSound.close [Host] {aggregated : GradingEntryAggregate} {now : Int}
    (h : FinalSound strategy db order) (hc : Closes db a aggregated now)
    (hturn : requiresManualGrading a.questionSnapshot = false →
      ∀ c ∈ order, c.attemptNo < a.attemptNo) :
    FinalSound strategy (db.close a aggregated now)
      (order ++ [(a.gradedRow aggregated now).completion]) := by
  have hnew : ∀ c ∈ order, c.attemptId ≠ a.id := by
    intro c hmem hid
    obtain ⟨x, hx, hg, -⟩ := (h.rows c).mp hmem
    rw [hid, hc.found] at hx
    obtain rfl := Option.some.inj hx
    rw [hc.submitted] at hg
    cases hg
  refine ⟨h.kept, ?_, fun c => ?_, ?_, ?_⟩
  · rw [List.map_append, List.nodup_append]
    refine ⟨h.ids, by simp, ?_⟩
    intro k hk k' hk'
    obtain ⟨c, hmem, rfl⟩ := List.mem_map.mp hk
    have hk' : k' = a.id := List.mem_singleton.mp hk'
    rw [hk']
    exact hnew c hmem
  · rw [List.mem_append, List.mem_singleton]
    by_cases hid : c.attemptId = a.id
    · have hrow : (db.close a aggregated now).findAttempt a.id = some (a.gradedRow aggregated now) :=
        findAttempt_close hc.found
      constructor
      · rintro (hmem | rfl)
        · exact absurd hid (hnew c hmem)
        · exact ⟨_, hrow, rfl, rfl⟩
      · rintro ⟨x, hx, -, rfl⟩
        rw [hid, hrow] at hx
        obtain rfl := Option.some.inj hx
        exact .inr rfl
    · have hother : (db.close a aggregated now).findAttempt c.attemptId = db.findAttempt c.attemptId :=
        (Db.findAttempt_updateAttempt (f := (·.gradedRow aggregated now)) db a.id
            (fun _ => rfl) c.attemptId).trans
          (if_neg hid)
      have hne : c ≠ (a.gradedRow aggregated now).completion :=
        fun heq => hid (congrArg (·.attemptId) heq)
      rw [h.rows c, or_iff_left hne, Db.Completes, Db.Completes, hother]
  · rw [selectAll, List.foldl_append]
    have hproject := h.final.project db.exam.scoreStrategy
      (enrollmentTarget db.exam db.enrollment aggregated.passed now)
        (a.gradedRow aggregated now).completion
    rw [h.kept] at hproject
    simp only [Db.close, h.kept]
    exact hproject
  · refine List.pairwise_append.mpr ⟨h.turn, List.pairwise_singleton _ _, fun c hmem d hd => ?_⟩
    rw [List.mem_singleton.mp hd]
    exact fun hm => hturn hm c hmem

theorem FinalSound.adjust {row : AttemptTimeAdjustment} {now : Int} (h : FinalSound strategy db order)
    (hadj : Adjusts db a row now) : FinalSound strategy (db.adjust a row) order := by
  have hs : a.status ≠ .graded := by rcases hadj.active with hs | hs <;> simp [hs]
  exact (h.update (f := (·.extend row.afterDeadline)) (fun _ => rfl) hadj.found hs hs).congr
    h.kept rfl rfl

theorem Resting.congr (h : Resting db) (hattempts : db'.attempts = db.attempts) : Resting db' := by
  intro k a ha
  rw [Db.findAttempt, hattempts] at ha
  exact h k a ha

theorem Resting.update (h : Resting db) (hf : ∀ a, (f a).id = a.id) (ha : db.findAttempt a.id = some a)
    (hs : (f a).status = .submitted → requiresManualGrading (f a).questionSnapshot = true) :
    Resting (db.updateAttempt a.id f) := by
  intro k b hb
  rw [Db.findAttempt_updateAttempt db a.id hf] at hb
  split at hb
  · rw [ha] at hb
    obtain rfl := Option.some.inj hb
    exact hs
  · exact h k b hb

theorem Resting.adjust {row : AttemptTimeAdjustment} {now : Int} (h : Resting db)
    (hadj : Adjusts db a row now) :
    Resting (db.adjust a row) :=
  (h.update (f := (·.extend row.afterDeadline)) (fun _ => rfl) hadj.found
      (h a.id a hadj.found)).congr rfl

theorem resting_close {aggregated : GradingEntryAggregate} {now : Int}
    (ha : db.findAttempt a.id = some a)
    (h : ∀ k b, k ≠ a.id → db.findAttempt k = some b → b.status = .submitted →
      requiresManualGrading b.questionSnapshot = true) : Resting (db.close a aggregated now) := by
  intro k b hb
  change (db.updateAttempt a.id (·.gradedRow aggregated now)).findAttempt k = some b at hb
  rw [Db.findAttempt_updateAttempt (f := (·.gradedRow aggregated now)) db a.id (fun _ => rfl)] at hb
  split at hb
  · rw [ha] at hb
    obtain rfl := Option.some.inj hb
    intro hs
    cases hs
  · rename_i hk
    exact h k b hk hb

end

section
variable [Host] {db db' : Db} {now : Int}

theorem RowStep.attemptNo {a a' : ExamAttempt} (h : RowStep now db db' a a') :
    a'.attemptNo = a.attemptNo := by
  cases h <;> rfl

theorem newest_change (h : Newest db) (hs : AttemptsSound db) (hc : Change now db db') :
    Newest db' := by
  have hbound : ∀ k b, db.findAttempt k = some b → b.attemptNo < db.enrollment.attemptCount + 1 := by
    intro k b hb
    have hmem : b.attemptNo ∈ List.range' 1 db.enrollment.attemptCount := by
      rw [← hs.numbers]
      exact List.mem_map_of_mem (Db.findAttempt_mem hb)
    rw [List.mem_range'_1] at hmem
    omega
  intro j k a b ha hb hact hne
  rcases hc.row_cases ha with ⟨input, hcreates, hdb⟩ | ⟨x, hx, hstep⟩
  · obtain ⟨_, _, hrow⟩ := hcreates.row
    have hno : a.attemptNo = db.enrollment.attemptCount + 1 := by rw [hrow]; rfl
    rcases hc.row_cases hb with ⟨input', hcreates', -⟩ | ⟨y, hy, hstep'⟩
    · rw [hdb] at ha hb
      have hk : k = a.id := hs.created hcreates hb (.inl hcreates'.status)
      exact absurd ((hs.created hcreates ha hact).trans hk.symm) hne
    · rw [hno, hstep'.attemptNo]
      exact hbound k y hy
  · rcases hc.row_cases hb with ⟨input, hcreates, -⟩ | ⟨y, hy, hstep'⟩
    · exact absurd (hstep.active hact) (idle_inactive hcreates.idle hx (hs.owned j x hx))
    · rw [hstep.attemptNo, hstep'.attemptNo]
      exact h j k x y hx hy (hstep.active hact) hne

theorem Reachable.newest (h : Reachable db) : Newest db := by
  refine (h.invariant (P := fun db => AttemptsSound db ∧ Newest db) ?_ ?_).2
  · intro db hi
    refine ⟨hi.attemptsSound, fun j k a b ha => ?_⟩
    rw [hi.findAttempt] at ha
    cases ha
  · exact fun now db db' hs hc => ⟨hs.1.change hc, newest_change hs.2 hs.1 hc⟩

end

/-! ## Runs -/

/-- The attempts that are graded in `db'` and were not in `db`. -/
def newlyGraded (db db' : Db) : List Completion :=
  (db'.attempts.filter fun a => a.status = .graded ∧ ∀ b ∈ db.findAttempt a.id,
    b.status ≠ .graded).map (·.completion)

section
variable [Host]

def gradings : Db → List Command → List Completion
  | _, [] => []
  | db, c :: cs => newlyGraded db (commit (c.step db) db) ++ gradings (commit (c.step db) db) cs

/-- The enrollment has the result that the strategy stands for, if any attempt is graded. -/
def HasIntended (strategy : ScoreStrategy) (graded : List Completion) (e : ExamEnrollment) : Prop :=
  (graded = [] ∧ FinalIs e none) ∨ ∃ c, Intended strategy graded c ∧ FinalIs e (some c)

def KeepsStrategy (strategy : ScoreStrategy) (cs : List Command) : Prop :=
  ∀ exam now, Command.examWrite exam now ∈ cs → exam.scoreStrategy = strategy

variable {strategy : ScoreStrategy} {db db' : Db} {order : List Completion} {now : Int}

def GradesOne (strategy : ScoreStrategy) (order : List Completion) (db' : Db) : Prop :=
  ∃ next : Option Completion, FinalSound strategy db' (order ++ next.toList)

omit [Host] in
theorem FinalSound.gradesOne (h : FinalSound strategy db order) : GradesOne strategy order db :=
  ⟨none, by rwa [Option.toList_none, List.append_nil]⟩

theorem FinalSound.closes {a : ExamAttempt} {aggregated : GradingEntryAggregate}
    (h : FinalSound strategy db order) (hc : Closes db a aggregated now)
    (hturn : requiresManualGrading a.questionSnapshot = false →
      ∀ c ∈ order, c.attemptNo < a.attemptNo) :
    GradesOne strategy order (db.close a aggregated now) :=
  ⟨some _, h.close hc hturn⟩

theorem FinalSound.settles {a : ExamAttempt} {t : Int} (h : FinalSound strategy db order)
    (hnew : Newest db) (hset : Settles db a t now db') : GradesOne strategy order db' := by
  have hfreeze : ∀ {events : List AttemptInterruptionEvent} {reason : Option SubmissionReason},
      Freezes db a events → FinalSound strategy (db.freeze a t reason events) order := by
    intro events reason hf
    have hs : a.status ≠ .graded := by rcases hf.events.active with hs | hs <;> simp [hs]
    exact (h.update (f := (·.submittedRow t reason)) (fun _ => rfl) hf.found hs
      (by simp [ExamAttempt.submittedRow, ExamAttempt.freeze])).congr h.kept rfl rfl
  cases hset with
  | held hf _ _ => exact (hfreeze hf).gradesOne
  | closed hf _ _ hc =>
    refine (hfreeze hf).closes hc fun _ c hmem => ?_
    obtain ⟨x, hx, hg, rfl⟩ := (h.rows c).mp hmem
    refine hnew a.id x.id a x hf.found hx hf.events.active fun hid => ?_
    obtain rfl : a = x := Option.some.inj (hf.found.symm.trans (hid ▸ hx))
    rcases hf.events.active with hs | hs <;> rw [hs] at hg <;> cases hg

theorem FinalSound.move {target : Option String} (h : FinalSound strategy db order) (hrest : Resting db)
    (hnew : Newest db) (hm : Move now target db db') : GradesOne strategy order db' := by
  have hmanual : ∀ {a : ExamAttempt}, db.findAttempt a.id = some a → a.status = .submitted →
      requiresManualGrading a.questionSnapshot = false → ∀ c ∈ order, c.attemptNo < a.attemptNo := by
    intro a ha hs hm
    rw [hrest a.id a ha hs] at hm
    cases hm
  cases hm with
  | stay => exact h.gradesOne
  | create hc _ _ _ => exact (h.create hc).gradesOne
  | touch ha hs =>
    exact (h.update (f := (·.touch now)) (fun _ => rfl) ha (by simp [hs])
        (by simp [ExamAttempt.touch, hs])).gradesOne
  | @save c a question record receipt hw _ _ =>
    have hid : a.id = c.context.attemptId := Db.findAttempt_id hw.found
    have hm := hw.acceptance.isMutable
    refine FinalSound.gradesOne ?_
    refine (h.update
        (f := (·.recordSave (applyAcceptedResult a.answers record c.request) c.context.checkedAt))
      (fun _ => rfl) (hid ▸ hw.found) hm.not_graded hm.not_graded).congr h.kept ?_ rfl
    rw [hid]
    rfl
  | @detect a freshId _ _ ha hs _ _ =>
    refine FinalSound.gradesOne ?_
    exact (h.update (f := (·.markDisrupted freshId now)) (fun _ => rfl) ha (by simp [hs])
      (by simp [ExamAttempt.markDisrupted])).congr h.kept rfl rfl
  | settle hset _ => exact h.settles hnew hset
  | @restore a _ _ _ ha hs _ _ _ =>
    refine FinalSound.gradesOne ?_
    exact (h.update (f := (·.restore now)) (fun _ => rfl) ha (by simp [hs])
        (by simp [ExamAttempt.restore])).congr h.kept
      rfl rfl
  | extend hadd => exact (h.adjust hadd.adjusts).gradesOne
  | score _ => exact FinalSound.gradesOne (h.congr h.kept rfl rfl)
  | @scoreLast a entry score comment graderId aggregated hsc hc =>
    have hscored : FinalSound strategy (db.updateEntry a.id entry.questionId
        (·.complete score comment graderId now)) order :=
      h.congr h.kept rfl rfl
    exact hscored.closes hc (hmanual hsc.found hsc.submitted)
  | close hc _ => exact h.closes hc (hmanual hc.found hc.submitted)

theorem Resting.settles {a : ExamAttempt} {t : Int} (h : Resting db) (hset : Settles db a t now db') :
    Resting db' := by
  cases hset with
  | @held reason events hf _ hm =>
    refine (h.update (f := (·.submittedRow t reason)) (fun _ => rfl) hf.found fun _ => ?_).congr rfl
    change requiresManualGrading a.questionSnapshot = true
    by_contra hno
    rw [freezeStatus, if_neg hno] at hm
    cases hm
  | @closed reason events aggregated hf _ _ hc =>
    refine resting_close hc.found fun k b hk hb => ?_
    change (db.updateAttempt a.id (·.submittedRow t reason)).findAttempt k = some b at hb
    rw [Db.findAttempt_updateAttempt (f := (·.submittedRow t reason)) db a.id (fun _ => rfl)] at hb
    exact h k b ((if_neg hk).symm.trans hb)

theorem Resting.move {target : Option String} (h : Resting db) (hm : Move now target db db') :
    Resting db' := by
  cases hm with
  | stay => exact h
  | @create a input _ hc _ _ _ =>
    intro k b hb
    rw [show (db.create a).findAttempt k = _ from Db.findAttempt_append hc.fresh k] at hb
    split at hb
    · obtain rfl := Option.some.inj hb
      intro hs
      rw [hc.status] at hs
      cases hs
    · exact h k b hb
  | @touch a ha hs => exact h.update (f := (·.touch now)) (fun _ => rfl) ha (h a.id a ha)
  | @save c a question record receipt hw _ _ =>
    have hid : a.id = c.context.attemptId := Db.findAttempt_id hw.found
    refine (h.update
        (f := (·.recordSave (applyAcceptedResult a.answers record c.request) c.context.checkedAt))
      (fun _ => rfl) (hid ▸ hw.found) (h _ a hw.found)).congr ?_
    rw [hid]
    rfl
  | @detect a freshId _ _ ha _ _ _ =>
    exact (h.update (f := (·.markDisrupted freshId now)) (fun _ => rfl) ha fun hs =>
        (by cases hs)).congr rfl
  | settle hset _ => exact h.settles hset
  | @restore a _ _ _ ha _ _ _ _ =>
    exact (h.update (f := (·.restore now)) (fun _ => rfl) ha fun hs => (by cases hs)).congr rfl
  | extend hadd => exact h.adjust hadd.adjusts
  | score _ => exact h.congr rfl
  | @scoreLast a entry score comment graderId aggregated _ hc =>
    have hscored : Resting (db.updateEntry a.id entry.questionId
        (·.complete score comment graderId now)) := h.congr rfl
    exact resting_close hc.found fun k b _ hb => hscored k b hb
  | close hc _ => exact resting_close hc.found fun k b _ hb => h k b hb

theorem FinalSound.step {c : Command} {u : Unit} (h : FinalSound strategy db order)
    (hr : Reachable db) (hrest : Resting db)
    (hkeep : ∀ exam now, c = .examWrite exam now → exam.scoreStrategy = strategy)
    (hx : c.step db = .ok (u, db')) :
    GradesOne strategy order db' ∧ Resting db' := by
  rcases step_moves hx with (⟨hm, -⟩ | ⟨a, row, -, hadd, -, -, hm⟩) | ⟨exam, now, rfl, -, rfl⟩
  · exact ⟨h.move hrest hr.newest hm, hrest.move hm⟩
  · have hadj := hadd.adjusts
    have hnew : Newest (db.adjust a row) := newest_change hr.newest hr.attemptsSound (.adjust hadj)
    exact ⟨(h.adjust hadj).move (hrest.adjust hadj) hnew hm, (hrest.adjust hadj).move hm⟩
  · exact ⟨FinalSound.gradesOne (h.congr (hkeep exam now rfl) rfl rfl), hrest.congr rfl⟩

omit [Host] in
theorem mem_newlyGraded (hn : (db'.attempts.map (·.id)).Nodup) {c : Completion} :
    c ∈ newlyGraded db db' ↔ db'.Completes c ∧ ∀ b ∈ db.findAttempt c.attemptId,
      b.status ≠ .graded := by
  simp only [newlyGraded, List.mem_map, List.mem_filter, decide_eq_true_eq]
  constructor
  · rintro ⟨a, ⟨hmem, hg, hnew⟩, rfl⟩
    exact ⟨⟨a, Rows.row_of_mem _ hn hmem, hg, rfl⟩, hnew⟩
  · rintro ⟨⟨a, ha, hg, rfl⟩, hnew⟩
    exact ⟨a, ⟨Db.findAttempt_mem ha, hg, hnew⟩, rfl⟩

omit [Host] in
theorem newlyGraded_eq {next : Option Completion} (h : FinalSound strategy db order)
    (h' : FinalSound strategy db' (order ++ next.toList)) (hn : (db'.attempts.map (·.id)).Nodup) :
    newlyGraded db db' = next.toList := by
  have hmem : ∀ c, c ∈ newlyGraded db db' ↔ c ∈ next.toList := by
    intro c
    rw [mem_newlyGraded hn, ← h'.rows, List.mem_append]
    constructor
    · rintro ⟨hold | hnext, hnew⟩
      · obtain ⟨b, hb, hg, -⟩ := (h.rows c).mp hold
        exact absurd hg (hnew b hb)
      · exact hnext
    · refine fun hnext => ⟨.inr hnext, fun b hb hg => ?_⟩
      have hid : b.id = c.attemptId := Db.findAttempt_id hb
      have hb' : b.completion ∈ order := (h.rows _).mpr ⟨b, by rw [← hid] at hb; exact hb, hg, rfl⟩
      have hdisjoint := (List.nodup_append.mp (List.map_append ▸ h'.ids)).2.2
      exact hdisjoint b.id (List.mem_map_of_mem (f := (·.attemptId)) hb') c.attemptId
        (List.mem_map_of_mem hnext) hid
  have hnodup : (newlyGraded db db').Nodup := by
    refine List.Nodup.of_map (·.attemptId) ?_
    rw [newlyGraded, List.map_map]
    exact (hn.sublist (List.filter_sublist.map _))
  have hperm : (newlyGraded db db').Perm next.toList :=
    (List.perm_ext_iff_of_nodup hnodup (by cases next <;> simp)).mpr hmem
  cases next with
  | none => exact List.perm_nil.mp hperm
  | some c => exact List.perm_singleton.mp hperm

theorem finalSound_run :
    ∀ (cs : List Command) (db : Db) (order : List Completion), Reachable db → Resting db →
    FinalSound strategy db order → KeepsStrategy strategy cs →
    FinalSound strategy (run Command.step db cs) (order ++ gradings db cs)
  | [], _, order, _, _, h, _ => by
    rw [gradings, List.append_nil]
    exact h
  | c :: cs, db, order, hr, hrest, h, hkeep => by
    have hstep : FinalSound strategy (commit (c.step db) db)
        (order ++ newlyGraded db (commit (c.step db) db)) ∧
        Resting (commit (c.step db) db) := by
      have hr' : Reachable (commit (c.step db) db) := reachable_run hr [c]
      rcases commit_cases (c.step db) db with he | ⟨u, db', hx, he⟩
      · rw [he] at hr' ⊢
        have hnone : FinalSound strategy db (order ++ (none : Option Completion).toList) := by
          rwa [Option.toList_none, List.append_nil]
        rw [newlyGraded_eq h hnone hr'.attemptsSound.ids]
        exact ⟨hnone, hrest⟩
      · rw [he] at hr' ⊢
        obtain ⟨⟨next, hnext⟩, hrest'⟩ :=
          h.step hr hrest (fun exam now hc => hkeep exam now (hc ▸ List.mem_cons_self)) hx
        rw [newlyGraded_eq h hnext hr'.attemptsSound.ids]
        exact ⟨hnext, hrest'⟩
    rw [gradings, ← List.append_assoc]
    exact finalSound_run cs _ _ (reachable_run hr [c]) hstep.2 hstep.1 fun exam now hmem =>
      hkeep exam now (List.mem_cons_of_mem c hmem)

theorem Initial.gradings (h₀ : Initial db) {cs : List Command}
    (hkeep : KeepsStrategy db.exam.scoreStrategy cs) :
    FinalSound db.exam.scoreStrategy (run Command.step db cs) (gradings db cs) := by
  have hrest : Resting db := by
    intro k a ha
    rw [h₀.findAttempt] at ha
    cases ha
  exact finalSound_run cs db [] h₀.reachable hrest h₀.finalSound hkeep

omit [Host] in
theorem FinalSound.numbers (h : FinalSound strategy db order) (hs : AttemptsSound db) :
    (order.map (·.attemptNo)).Nodup := by
  have hnumbers : (db.attempts.map (·.attemptNo)).Nodup := hs.numbers ▸ List.nodup_range'
  refine h.ids.of_map.map_on fun c hc d hd hno => ?_
  obtain ⟨a, ha, -, rfl⟩ := (h.rows c).mp hc
  obtain ⟨b, hb, -, rfl⟩ := (h.rows d).mp hd
  exact congrArg ExamAttempt.completion
    (List.inj_on_of_nodup_map hnumbers (Db.findAttempt_mem ha) (Db.findAttempt_mem hb) hno)

omit [Host] in
theorem FinalSound.selected (h : FinalSound strategy db order) {c : Completion} (hc : c ∈ order)
    (hfinal : FinalIs db.enrollment (some c)) : selectAll strategy order = some c := by
  cases hsel : selectAll strategy order with
  | none =>
    rw [selectAll_eq_none hsel] at hc
    cases hc
  | some d =>
    have hheld : FinalIs db.enrollment (some d) := hsel ▸ h.final
    have hid : d.attemptId = c.attemptId := Option.some.inj (hheld.1.symm.trans hfinal.1)
    rw [List.inj_on_of_nodup_map h.ids (selectAll_mem hsel) hc hid]

omit [Host] in
theorem FinalSound.hasIntended_iff (h : FinalSound strategy db order) :
    HasIntended strategy order db.enrollment ↔ InTurn strategy order := by
  constructor
  · rintro (⟨rfl, -⟩ | ⟨c, hc, hfinal⟩)
    · exact inTurn_of_pairwise .nil strategy
    · exact (selectAll_intended (h.selected hc.mem hfinal)).mp hc
  · intro hturn
    have hfinal := h.final
    cases hsel : selectAll strategy order with
    | none => exact .inl ⟨selectAll_eq_none hsel, hsel ▸ hfinal⟩
    | some c => exact .inr ⟨c, (selectAll_intended hsel).mpr hturn, hsel ▸ hfinal⟩

/-- From the assignment on and over every run with a fixed strategy: `gradings`
lists the graded attempts, each once and in the order they were graded in. The
enrollment has the intended result exactly when this order is in turn. Beside a
run that is in turn, another run that graded the same attempts leaves the same
result exactly when it is in turn, too. Attempts without a manual question are
always graded in turn, and so is a single one; and under 'highest' the result is
one of maximal score in any case. -/
theorem final_result_order (db : Db) (h₀ : Initial db) (cs : List Command)
    (hkeep : KeepsStrategy db.exam.scoreStrategy cs) :
    ((gradings db cs).map (·.attemptId)).Nodup ∧
    (∀ c, c ∈ gradings db cs ↔ (run Command.step db cs).Completes c) ∧
    (HasIntended db.exam.scoreStrategy (gradings db cs) (run Command.step db cs).enrollment ↔
      InTurn db.exam.scoreStrategy (gradings db cs)) ∧
    (∀ cs', KeepsStrategy db.exam.scoreStrategy cs' → (∀ c, c ∈ gradings db cs' ↔ c ∈ gradings db cs) →
      InTurn db.exam.scoreStrategy (gradings db cs) →
      ((run Command.step db cs').enrollment.final = (run Command.step db cs).enrollment.final ↔
        InTurn db.exam.scoreStrategy (gradings db cs'))) ∧
    ((∀ c ∈ gradings db cs, c.manual = false) ∨ (gradings db cs).length ≤ 1 →
      InTurn db.exam.scoreStrategy (gradings db cs)) ∧
    (db.exam.scoreStrategy = .highest → gradings db cs ≠ [] →
      ∃ c ∈ topScores (gradings db cs), FinalIs (run Command.step db cs).enrollment (some c)) := by
  have h := h₀.gradings hkeep
  refine ⟨h.ids, h.rows, h.hasIntended_iff, fun cs' hkeep' hsame hturn => ?_, fun hat => ?_,
    fun hhighest hne => ?_⟩
  · have h' := h₀.gradings hkeep'
    rw [← h'.hasIntended_iff]
    rcases h.hasIntended_iff.mpr hturn with ⟨hnil, hfinal⟩ | ⟨c, hc, hfinal⟩
    · have hnil' : gradings db cs' = [] := by
        rw [List.eq_nil_iff_forall_not_mem]
        intro c hmem
        rw [hsame, hnil] at hmem
        cases hmem
      have hfinal' := h'.final
      rw [hnil'] at hfinal' ⊢
      exact ⟨fun _ => .inl ⟨rfl, hfinal'⟩, fun _ => hfinal'.eq_final hfinal⟩
    · have hc' : Intended db.exam.scoreStrategy (gradings db cs') c := hc.congr fun d => (hsame d).symm
      constructor
      · exact fun heq => .inr ⟨c, hc', hfinal.of_final heq⟩
      · rintro (⟨hnil', -⟩ | ⟨d, hd, hfinal'⟩)
        · rw [hnil'] at hc'
          cases hc'.mem
        · rw [hd.unique (h'.numbers (reachable_run h₀.reachable cs').attemptsSound) hc'] at hfinal'
          exact hfinal'.eq_final hfinal
  · refine inTurn_of_pairwise ?_ _
    rcases hat with hauto | hlen
    · exact h.turn.imp_of_mem fun _ hd hturn => hturn (hauto _ hd)
    · match hg : gradings db cs, hlen with
      | [], _ => exact .nil
      | [c], _ => exact List.pairwise_singleton _ c
  · have hfinal := h.final
    rw [hhighest, selectAll_highest] at hfinal
    cases htop : (topScores (gradings db cs)).head? with
    | none =>
      rw [← selectAll_highest] at htop
      exact absurd (selectAll_eq_none htop) hne
    | some c => exact ⟨c, List.mem_of_head? htop, htop ▸ hfinal⟩

end

/-! ## Two grading orders -/

/-- The sample exam taking the latest attempt, before its first attempt. -/
def sampleLatest : Db := { sampleInitial with exam := { sampleExam with scoreStrategy := .latest } }

def sampleHandIns : List Command :=
  [sampleStartOf "first" 0, .submit "first" "candidate" 1000, sampleStartOf "second" 2000,
   .submit "second" "candidate" 3000]

def sampleGrade (attemptId : String) (score : ℚ) (now : Int) : Command :=
  .grade attemptId "q2" score "" "grader" now

/-- Both orders grade both attempts with the same scores; under 'latest' the
second attempt is final in one order, and the first one in the other. -/
theorem final_result_depends_on_order :
    let graded := run (@Command.step sampleHost) sampleLatest
    let inOrder := graded (sampleHandIns ++ [sampleGrade "first" 1 4000, sampleGrade "second" 3 5000])
    let reversed := graded (sampleHandIns ++ [sampleGrade "second" 3 4000, sampleGrade "first" 1 5000])
    inOrder.attempts.map (fun a => (a.id, a.attemptNo, a.status, a.score)) =
        [("first", 1, .graded, some 1), ("second", 2, .graded, some 3)] ∧
      reversed.attempts.map (fun a => (a.id, a.attemptNo, a.status, a.score)) =
        [("first", 1, .graded, some 1), ("second", 2, .graded, some 3)] ∧
      inOrder.enrollment.finalAttemptId = some "second" ∧
      reversed.enrollment.finalAttemptId = some "first" := by
  decide +kernel

/-- Two attempts are graded in turn, and the second one is final; graded the
other way round they leave another result. -/
theorem final_result_order_sample :
    let graded := @gradings sampleHost sampleLatest (sampleHandIns ++ [sampleGrade "first" 1 4000,
        sampleGrade "second" 3 5000])
    let reversed := sampleHandIns ++ [sampleGrade "second" 3 4000, sampleGrade "first" 1 5000]
    graded.map (·.attemptNo) = [1, 2] ∧
    HasIntended .latest graded (run (@Command.step sampleHost) sampleLatest
      (sampleHandIns ++ [sampleGrade "first" 1 4000, sampleGrade "second" 3 5000])).enrollment ∧
    ¬ HasIntended .latest (@gradings sampleHost sampleLatest reversed)
      (run (@Command.step sampleHost) sampleLatest reversed).enrollment := by
  let _ : Host := sampleHost
  intro graded reversed
  have hinit : Initial sampleLatest := ⟨rfl, rfl, rfl, rfl, rfl, rfl, rfl, rfl, ⟨rfl, rfl, rfl⟩⟩
  have hkeep : ∀ g g' : Command, (∀ exam now, .examWrite exam now ≠ g) →
      (∀ exam now, .examWrite exam now ≠ g') →
      KeepsStrategy .latest (sampleHandIns ++ [g, g']) := by
    intro g g' hg hg' exam now hmem
    rcases List.mem_append.mp hmem with hmem | hmem
    · simp [sampleHandIns, sampleStartOf] at hmem
    · rcases List.mem_cons.mp hmem with heq | hmem
      · exact absurd heq (hg exam now)
      · exact absurd (List.mem_singleton.mp hmem) (hg' exam now)
  have hgrade : ∀ attemptId score t exam now, Command.examWrite exam now ≠ sampleGrade attemptId
      score t := by
    intro attemptId score t exam now heq
    cases heq
  have hturn : graded.map (·.attemptNo) = [1, 2] := by decide +kernel
  obtain ⟨-, -, hiff, -⟩ :=
    final_result_order sampleLatest hinit _
      (hkeep _ _ (hgrade "first" 1 4000) (hgrade "second" 3 5000))
  obtain ⟨-, -, hiff', -⟩ :=
    final_result_order sampleLatest hinit _ (hkeep _ _ (hgrade "second" 3 4000)
        (hgrade "first" 1 5000))
  exact ⟨hturn, hiff.mpr (by decide +kernel), fun h => absurd (hiff'.mp h) (by decide +kernel)⟩

end ExamSystem
