import ExamSystem.Presentation
import ExamSystem.PublishSound

/-!
# Shuffling is harmless

A presentation written in memory is the one drawn from the same numbers as
lists, and it leaves every older array as it was. What grading reads of a
question is neither its options nor its order, so a presentation is graded as
the snapshot that it permutes.
-/

namespace ExamSystem.Presentation

open ArrayHeap

/-! ## Shuffling and maps -/

section
variable {α β : Type}

theorem map_swapIfInBounds (f : α → β) (items : Array α) (i j : Nat) :
    (items.swapIfInBounds i j).map f = (items.map f).swapIfInBounds i j := by
  unfold Array.swapIfInBounds
  by_cases hi : i < items.size
  · by_cases hj : j < items.size
    · simp [hi, hj, Array.swap_def]
    · simp [hi, hj]
  · simp [hi]

theorem shuffleFrom_map (f : α → β) : ∀ (i : Nat) (items : Array α) (draws : List Nat),
    shuffleFrom i (items.map f) draws = ((shuffleFrom i items draws).1.map f,
      (shuffleFrom i items draws).2)
  | 0, _, _ => rfl
  | i + 1, items, draws => by
    rw [shuffleFrom, ← map_swapIfInBounds, shuffleFrom_map f i]
    rfl

theorem shuffledCopy_map (f : α → β) (items : List α) (draws : List Nat) :
    ExamSystem.shuffledCopy (items.map f) draws =
      ((ExamSystem.shuffledCopy items draws).1.map f, (ExamSystem.shuffledCopy items draws).2) := by
  have harray : (items.map f).toArray = items.toArray.map f := by simp
  simp only [ExamSystem.shuffledCopy, harray, List.length_map, shuffleFrom_map, Array.toList_map]

end

/-! ## The memory program draws the same -/

section
variable {α : Type} {rng : RandomSource} {h h₀ : ArrayHeap α} {a n : Nat}

structure Shuffled (rng : RandomSource) (a i n : Nat) (h : ArrayHeap α) : Prop where
  has : (shuffleLoop rng a i h n).1.Has a
  draws : ∃ ds, ∀ rest, shuffleFrom i (h.read a) (ds ++ rest) = ((shuffleLoop rng a i h n).1.read a,
    rest)

theorem shuffleLoop_spec : ∀ (i n : Nat) (h : ArrayHeap α), h.Has a → Shuffled rng a i n h
  | 0, _, h, ha => ⟨ha, [], fun _ => rfl⟩
  | i + 1, n, h, ha => by
    obtain ⟨hhas, ds, hds⟩ := shuffleLoop_spec i (n + 1) (h.exchange a (i + 1) (rng.index n (i + 1)))
      ((exchange_has _ _ _ _ _).mpr ha)
    refine ⟨hhas, rng.index n (i + 1) :: ds, fun rest => ?_⟩
    have hindex : rng.index n (i + 1) % (i + 2) = rng.index n (i + 1) :=
      Nat.mod_eq_of_lt (by have := rng.index_le n (i + 1); omega)
    have hstep := hds rest
    rw [read_exchange ha] at hstep
    rw [List.cons_append, shuffleFrom, List.headD_cons, List.tail_cons, hindex, hstep]
    rfl

theorem shuffleLoop_keeps (ha : h₀.arrays.length ≤ a) :
    ∀ (i n : Nat) (h : ArrayHeap α), ArrayHeap.Keeps h₀ h →
    ArrayHeap.Keeps h₀ (shuffleLoop rng a i h n).1
  | 0, _, _, hk => hk
  | i + 1, n, _, hk => shuffleLoop_keeps ha i (n + 1) _ (hk.exchange ha _ _)

structure Copied (rng : RandomSource) (h : ArrayHeap α) (items n : Nat) : Prop where
  keeps : ArrayHeap.Keeps h (shuffledCopy rng h items n).2.1
  has : (shuffledCopy rng h items n).2.1.Has (shuffledCopy rng h items n).1
  draws : ∃ ds, ∀ rest, ExamSystem.shuffledCopy (h.read items).toList (ds ++ rest) =
    (((shuffledCopy rng h items n).2.1.read (shuffledCopy rng h items n).1).toList, rest)

theorem shuffledCopy_spec (h : ArrayHeap α) (items n : Nat) : Copied rng h items n := by
  have halloc := alloc_has h (h.read items)
  have hloop : Shuffled rng _ _ n _ := shuffleLoop_spec ((h.read items).size - 1) n _ halloc
  obtain ⟨hhas, ds, hds⟩ := hloop
  refine ⟨?_, ?_, ds, fun rest => ?_⟩
  · exact shuffleLoop_keeps (Nat.le_refl _) _ n _ (keeps_alloc h (h.read items))
  · simpa [shuffledCopy] using hhas
  · rw [read_alloc] at hds
    simp only [ExamSystem.shuffledCopy, Array.toArray_toList, Array.length_toList, hds rest]
    simp [shuffledCopy]

end

section
variable {rng : RandomSource}

theorem value_keeps {h h' : ArrayHeap AnswerOption} (hk : ArrayHeap.Keeps h h')
    {qs : List QuestionObject} (hqs : ∀ q ∈ qs, h.Has q.options) :
    qs.map (·.value h') = qs.map (·.value h) := by
  refine List.map_congr_left fun q hq => ?_
  simp only [QuestionObject.value, hk.read (hqs q hq)]

structure Copies (qs copies : List QuestionObject) (h h' : ArrayHeap AnswerOption) : Prop where
  keeps : ArrayHeap.Keeps h h'
  has : ∀ q ∈ copies, h'.Has q.options
  value : copies.map (·.value h') = qs.map (·.value h)

theorem copyEach_spec :
    ∀ (qs : List QuestionObject) (h : ArrayHeap AnswerOption), (∀ q ∈ qs, h.Has q.options) →
    Copies qs (copyEach qs h).1 h (copyEach qs h).2
  | [], h, _ => ⟨.refl h, fun _ hq => absurd hq List.not_mem_nil, rfl⟩
  | q :: qs, h, hqs => by
    have hk := keeps_alloc h (h.read q.options)
    have hrest : ∀ q' ∈ qs, h.Has q'.options := fun q' hq => hqs q' (List.mem_cons_of_mem q hq)
    obtain ⟨hkeeps, hhas, hvalue⟩ := copyEach_spec qs (h.alloc (h.read q.options)).2 fun q' hq =>
      hk.has (hrest q' hq)
    have hnew := alloc_has h (h.read q.options)
    refine ⟨hk.trans hkeeps, fun q' hq' => ?_, ?_⟩
    · rcases List.mem_cons.mp hq' with rfl | hq'
      · exact hkeeps.has hnew
      · exact hhas q' hq'
    · rw [value_keeps hk hrest] at hvalue
      simp only [copyEach, List.map_cons, hvalue]
      congr 1
      simp only [QuestionObject.value, hkeeps.read hnew, read_alloc]

theorem shuffleEach_spec :
    ∀ (qs : List QuestionObject) (h : ArrayHeap AnswerOption) (n : Nat), (∀ q ∈ qs, h.Has q.options) →
    ArrayHeap.Keeps h (shuffleEach rng qs h n).2.1 ∧ ∃ draws,
      (shuffleEach rng qs h n).1.map (·.value (shuffleEach rng qs h n).2.1) = shuffleOptions
        (qs.map (·.value h)) draws
  | [], h, _, _ => ⟨.refl h, [], rfl⟩
  | q :: qs, h, n, hqs => by
    have hrest : ∀ q' ∈ qs, h.Has q'.options := fun q' hq => hqs q' (List.mem_cons_of_mem q hq)
    have hq := hqs q List.mem_cons_self
    have hchoice : isChoice (q.value h) = isChoice q.fields := rfl
    simp only [shuffleEach, List.map_cons, shuffleOptions, hchoice]
    split
    · have hcopied : Copied rng h q.options n := shuffledCopy_spec h q.options n
      obtain ⟨hk, hhas, ds, hds⟩ := hcopied
      obtain ⟨hkeeps, draws, hdraws⟩ :=
        shuffleEach_spec qs _ (shuffledCopy rng h q.options n).2.2 fun q' hq' => hk.has (hrest q' hq')
      rw [value_keeps hk hrest] at hdraws
      refine ⟨hk.trans hkeeps, ds ++ draws, ?_⟩
      have hoptions : (q.value h).options = (h.read q.options).toList := rfl
      simp only [List.map_cons, hoptions, hds draws, ← hdraws]
      congr 1
      simp only [QuestionObject.value, hkeeps.read hhas]
    · obtain ⟨hkeeps, draws, hdraws⟩ := shuffleEach_spec qs h n hrest
      refine ⟨hkeeps, draws, ?_⟩
      simp only [List.map_cons, hdraws]
      congr 1
      simp only [QuestionObject.value, hkeeps.read hq]

theorem value_renumber (options : ArrayHeap AnswerOption) (items : List QuestionObject) :
    (items.mapIdx renumber).map (·.value options) = (items.map (·.value options)).mapIdx
      fun index q => { q with order := (index : Int) } := by
  refine List.ext_getElem? fun i => ?_
  simp only [List.getElem?_map, List.getElem?_mapIdx, Option.map_map]
  rfl

def drawQuestions (flags : ControlFlags) (questions : List QuestionSnapshot) (draws : List Nat) :
    List QuestionSnapshot × List Nat :=
  if flags.shuffleQuestions then
    let (shuffled, draws) := ExamSystem.shuffledCopy questions draws
    (shuffled.mapIdx fun index q => { q with order := index }, draws)
  else (questions, draws)

theorem orderQuestions_spec (flags : ControlFlags) {questions : ArrayHeap QuestionObject}
    {address : Nat} (n : Nat) (ha : questions.Has address) (options : ArrayHeap AnswerOption) :
    let result := orderQuestions rng flags questions address n
    ArrayHeap.Keeps questions result.2.1 ∧ result.2.1.Has result.1 ∧
      (∀ q ∈ (result.2.1.read result.1).toList, ∃ p ∈ (questions.read address).toList,
        q.options = p.options) ∧
      ∃ ds, ∀ rest, drawQuestions flags ((questions.read address).toList.map (·.value options))
        (ds ++ rest) = ((result.2.1.read result.1).toList.map (·.value options), rest) := by
  unfold orderQuestions drawQuestions
  by_cases hflag : flags.shuffleQuestions = true
  · have hcopied : Copied rng questions address n := shuffledCopy_spec questions address n
    obtain ⟨hk, hhas, ds, hds⟩ := hcopied
    simp only [hflag, if_true]
    refine ⟨hk.trans (keeps_alloc _ _), alloc_has _ _, ?_, ds, fun rest => ?_⟩
    · rw [read_alloc]
      intro q hq
      obtain ⟨i, hi, rfl⟩ := Array.mem_mapIdx.mp (Array.mem_toList_iff.mp hq)
      have hperm := shuffledCopy_perm (questions.read address).toList (ds ++ [])
      rw [hds []] at hperm
      exact ⟨_, hperm.subset (Array.mem_toList_iff.mpr (Array.getElem_mem hi)), rfl⟩
    · rw [shuffledCopy_map, hds rest, read_alloc, Array.toList_mapIdx, value_renumber]
  · simp only [hflag]
    exact ⟨.refl _, ha, fun q hq => ⟨q, hq, rfl⟩, [], fun _ => rfl⟩

theorem materialize_spec {mem : Memory} {published : Nat} (hs : mem.Stores published)
    (flags : ControlFlags) :
    let result := materializeAttemptPresentation rng mem published flags
    (ArrayHeap.Keeps mem.questions result.2.questions ∧ ArrayHeap.Keeps mem.options result.2.options) ∧
      ∃ draws, result.2.snapshot result.1 = ExamSystem.materializeAttemptPresentation
        (mem.snapshot published) flags draws := by
  obtain ⟨hkeeps, hhas, hvalue⟩ :=
    copyEach_spec (mem.questions.read published).toList mem.options hs.options
  let copied := copyEach (mem.questions.read published).toList mem.options
  let allocated := mem.questions.alloc copied.1.toArray
  let ordered := orderQuestions rng flags allocated.2 allocated.1 mem.drawn
  have hquestions : ArrayHeap.Keeps mem.questions allocated.2 := keeps_alloc _ _
  have hread : (allocated.2.read allocated.1).toList = copied.1 := by
    rw [show allocated.2.read allocated.1 = copied.1.toArray from read_alloc _ _]
  have horder : ArrayHeap.Keeps allocated.2 ordered.2.1 ∧ _ :=
    orderQuestions_spec flags mem.drawn (alloc_has _ _) copied.2
  obtain ⟨hordered, -, hsame, ds, hds⟩ := horder
  have hsnapshot : (allocated.2.read allocated.1).toList.map
      (·.value copied.2) = mem.snapshot published := by
    rw [hread]
    exact hvalue
  rw [hsnapshot] at hds
  have hhas' : ∀ q ∈ (ordered.2.1.read ordered.1).toList, copied.2.Has q.options := by
    intro q hq
    obtain ⟨p, hp, hopt⟩ := hsame q hq
    rw [hopt]
    exact hhas p (hread ▸ hp)
  have hpure : ∀ draws, ExamSystem.materializeAttemptPresentation (mem.snapshot published) flags draws =
      if flags.shuffleOptions then
        shuffleOptions (drawQuestions flags (mem.snapshot published) draws).1
          (drawQuestions flags (mem.snapshot published) draws).2
      else (drawQuestions flags (mem.snapshot published) draws).1 := fun _ => rfl
  by_cases hflag : flags.shuffleOptions = true
  · obtain ⟨hk, draws, hdraws⟩ :=
      shuffleEach_spec (ordered.2.1.read ordered.1).toList copied.2 ordered.2.2 hhas'
    have hresult : materializeAttemptPresentation rng mem published flags =
        let shuffled := shuffleEach rng (ordered.2.1.read ordered.1).toList copied.2 ordered.2.2
        let placed := ordered.2.1.alloc shuffled.1.toArray
        (placed.1, { questions := placed.2, options := shuffled.2.1, drawn := shuffled.2.2 }) :=
          if_pos hflag
    rw [hresult]
    refine ⟨⟨(hquestions.trans hordered).trans (keeps_alloc _ _), hkeeps.trans hk⟩, ds ++ draws, ?_⟩
    rw [hpure, if_pos hflag, hds draws]
    simp only [Memory.snapshot, read_alloc]
    exact hdraws
  · have hresult : materializeAttemptPresentation rng mem published flags =
        (ordered.1, { questions := ordered.2.1, options := copied.2, drawn := ordered.2.2 }) :=
          if_neg hflag
    rw [hresult]
    refine ⟨⟨hquestions.trans hordered, hkeeps⟩, ds ++ [], ?_⟩
    rw [hpure, if_neg hflag, hds []]
    rfl

end

/-! ## What a presentation changes -/

/-- A question and its presentation: the options of a choice question are
permuted and the order is renumbered, as the flags say. -/
structure Presented (flags : ControlFlags) (q q' : QuestionSnapshot) : Prop where
  fields : q' = { q with options := q'.options, order := q'.order }
  options : q'.options.Perm q.options
  unshuffled : ¬ (flags.shuffleOptions = true ∧ isChoice q = true) → q'.options = q.options
  order : flags.shuffleQuestions = false → q'.order = q.order

structure Presents (flags : ControlFlags) (questions presented : List QuestionSnapshot) : Prop where
  perm : ∃ drawn, drawn.Perm questions ∧ (flags.shuffleQuestions = false → drawn = questions) ∧
    List.Forall₂ (Presented flags) drawn presented
  order : flags.shuffleQuestions = true → ∀ i (h : i < presented.length), presented[i].order = i

structure WithOptions (q q' : QuestionSnapshot) : Prop where
  fields : q' = { q with options := q'.options }
  options : q'.options.Perm q.options
  choice : isChoice q = false → q'.options = q.options

theorem shuffleOptions_forall : ∀ (questions : List QuestionSnapshot) (draws : List Nat),
    List.Forall₂ WithOptions questions (shuffleOptions questions draws)
  | [], _ => .nil
  | q :: qs, draws => by
    unfold shuffleOptions
    by_cases hchoice : isChoice q = true
    · rw [if_pos hchoice]
      exact .cons ⟨rfl, shuffledCopy_perm q.options draws, fun h => by rw [hchoice] at h; cases h⟩
        (shuffleOptions_forall qs _)
    · rw [if_neg hchoice]
      exact .cons ⟨rfl, .refl _, fun _ => rfl⟩ (shuffleOptions_forall qs draws)

/-- The questions in their order, with the options still to come. -/
theorem drawQuestions_presents (flags : ControlFlags) (questions : List QuestionSnapshot)
    (draws : List Nat) :
    ∃ drawn, drawn.Perm questions ∧ (flags.shuffleQuestions = false → drawn = questions) ∧
      drawn.length = (drawQuestions flags questions draws).1.length ∧
      ∀ i (h : i < drawn.length) (h' : i < (drawQuestions flags questions draws).1.length),
        (drawQuestions flags questions draws).1[i] =
          { drawn[i] with order := if flags.shuffleQuestions then (i : Int) else drawn[i].order } := by
  unfold drawQuestions
  by_cases hflag : flags.shuffleQuestions = true
  · refine ⟨(ExamSystem.shuffledCopy questions draws).1, shuffledCopy_perm questions draws,
      fun h => ?_, ?_, ?_⟩
    · rw [hflag] at h
      cases h
    · simp [hflag]
    · intro i h h'
      simp [hflag]
  · refine ⟨questions, .refl _, fun _ => rfl, ?_, ?_⟩
    · simp [hflag]
    · intro i h h'
      simp [hflag]

theorem presents_materialize (flags : ControlFlags) (questions : List QuestionSnapshot)
    (draws : List Nat) :
    Presents flags questions (ExamSystem.materializeAttemptPresentation questions flags draws) := by
  obtain ⟨drawn, hperm, hsame, hlength, hdrawn⟩ := drawQuestions_presents flags questions draws
  let ordered := drawQuestions flags questions draws
  let presented := ExamSystem.materializeAttemptPresentation questions flags draws
  have hoptions : ordered.1.length = presented.length ∧
      ∀ i (h : i < ordered.1.length) (h' : i < presented.length),
      WithOptions ordered.1[i] presented[i] ∧
      (flags.shuffleOptions = false → presented[i].options = ordered.1[i].options) := by
    by_cases hflag : flags.shuffleOptions = true
    · have hpresented : presented = shuffleOptions ordered.1 ordered.2 := if_pos hflag
      obtain ⟨hlen, hall⟩ := List.forall₂_iff_get.mp (shuffleOptions_forall ordered.1 ordered.2)
      rw [hpresented]
      refine ⟨hlen, fun i h h' => ⟨hall i h h', fun hoff => ?_⟩⟩
      rw [hflag] at hoff
      cases hoff
    · have hpresented : presented = ordered.1 := if_neg hflag
      rw [hpresented]
      exact ⟨rfl, fun i h h' => ⟨⟨rfl, .refl _, fun _ => rfl⟩, fun _ => rfl⟩⟩
  obtain ⟨hlength', hoptions⟩ := hoptions
  refine ⟨⟨drawn, hperm, hsame, List.forall₂_iff_get.mpr ⟨hlength.trans hlength',
        fun i h h' => ?_⟩⟩, fun hflag i h => ?_⟩
  · obtain ⟨⟨hfields, hperm', hchoice⟩, hoff⟩ := hoptions i (hlength ▸ h) h'
    have hq := hdrawn i h (hlength ▸ h)
    rw [hq] at hfields hperm' hchoice hoff
    refine ⟨?_, hperm', fun hfixed => ?_, fun horder => ?_⟩
    · rw [List.get_eq_getElem, List.get_eq_getElem, hfields]
    · by_cases hshuffle : flags.shuffleOptions = true
      · have hfixed : isChoice drawn[i] = false := by simpa [hshuffle] using hfixed
        exact hchoice hfixed
      · exact hoff (by simpa using hshuffle)
    · rw [List.get_eq_getElem, List.get_eq_getElem, hfields, horder]
      rfl
  · have hi : i < ordered.1.length := hlength' ▸ h
    obtain ⟨⟨hfields, -, -⟩, -⟩ := hoptions i hi h
    rw [hfields, hdrawn i (hlength ▸ hi) hi, hflag]
    rfl

/-! ## Grading -/

section
variable [Host]

def frozenRecords (answers : List AnswerRecord) (questions : List QuestionSnapshot) (now : Int) :
    List AnswerRecord :=
  (buildSubmittedAnswersSnapshot answers questions).answers.map fun a =>
    { questionId := a.questionId, answer := a.value, version := 0, savedAt := now }

omit [Host] in
theorem lastAnswer_frozen (answers : List AnswerRecord) {questions : List QuestionSnapshot}
    (now : Int) {q : QuestionSnapshot} (hq : q ∈ questions) :
    lastAnswer (frozenRecords answers questions now) q.originalQuestionId = some (orNull
        (lastAnswer answers q.originalQuestionId)) := by
  have hvalue : ∀ r ∈ (frozenRecords answers questions now).reverse,
      r.answer = orNull (lastAnswer answers r.questionId) := by
    intro r hr
    simp only [frozenRecords, buildSubmittedAnswersSnapshot, List.mem_reverse, List.mem_map] at hr
    obtain ⟨_, ⟨p, _, rfl⟩, rfl⟩ := hr
    rfl
  have hsome : ((frozenRecords answers questions now).reverse.find? fun r => decide
      (r.questionId = q.originalQuestionId)).isSome := by
    rw [List.find?_isSome]
    refine ⟨_, List.mem_reverse.mpr
        (List.mem_map_of_mem (List.mem_map_of_mem ((List.mem_insertionSort _).mpr hq))), ?_⟩
    simp
  obtain ⟨r, hr⟩ := Option.isSome_iff_exists.mp hsome
  have hid : r.questionId = q.originalQuestionId := by simpa using List.find?_some hr
  rw [lastAnswer, hr, Option.map_some, hvalue r (List.mem_of_find?_eq_some hr), hid]

/-- The answers of an attempt are frozen against `questions` and graded. -/
def freezeAndGrade (attempt : ExamAttempt) (answers : List AnswerRecord)
    (questions : List QuestionSnapshot) (exam : Exam) (now : Int) :
    ScoreResult :=
  computeGradingResult
    { attempt with
      questionSnapshot := questions,
      submittedAnswers := some (buildSubmittedAnswersSnapshot answers questions) } exam now

theorem freezeAndGrade_results (attempt : ExamAttempt) (answers : List AnswerRecord)
    (questions : List QuestionSnapshot) (exam : Exam) (now : Int) :
    (freezeAndGrade attempt answers questions exam now).questionResults =
      questions.map fun q => gradeQuestion q
        (some (orNull (lastAnswer answers q.originalQuestionId))) := by
  refine List.map_congr_left fun q hq => ?_
  exact congrArg (gradeQuestion q) (lastAnswer_frozen answers now hq)

/-- A presentation has the results of the snapshot, in its own order. -/
theorem freezeAndGrade_perm (attempt : ExamAttempt) (answers : List AnswerRecord)
    (questions : List QuestionSnapshot) (exam : Exam) (now : Int) (flags : ControlFlags)
    (draws : List Nat) :
    (freezeAndGrade attempt answers
        (ExamSystem.materializeAttemptPresentation questions flags draws) exam
        now).questionResults.Perm
      (freezeAndGrade attempt answers questions exam now).questionResults := by
  rw [freezeAndGrade_results, freezeAndGrade_results]
  exact presentation_perm (fun _ _ => rfl) (fun _ _ => rfl) questions flags draws

theorem freezeAndGrade_total (attempt : ExamAttempt) (answers : List AnswerRecord)
    (questions : List QuestionSnapshot) (exam : Exam) (now : Int) :
    (freezeAndGrade attempt answers questions exam now).totalScore =
      sumScores ((freezeAndGrade attempt answers questions exam now).questionResults.map
          (·.score)) := rfl

theorem freezeAndGrade_ids (attempt : ExamAttempt) (answers : List AnswerRecord)
    (questions : List QuestionSnapshot) (exam : Exam) (now : Int) :
    (freezeAndGrade attempt answers questions exam now).questionResults.map (·.questionId) =
      questions.map (·.originalQuestionId) := by
  rw [freezeAndGrade_results, List.map_map]
  exact List.map_congr_left fun q _ => gradeQuestion_questionId q _

/-- For every stored snapshot, flags, random source and answers. -/
theorem presentation_harmless (rng : RandomSource) (mem : Memory) (published : Nat)
    (flags : ControlFlags) (hs : mem.Stores published)
    (hids : ((mem.snapshot published).map (·.originalQuestionId)).Nodup) :
    let questions := mem.snapshot published
    let result := materializeAttemptPresentation rng mem published flags
    let presented := result.2.snapshot result.1
    Presents flags questions presented ∧
    (result.2.snapshot published = questions ∧ ArrayHeap.Keeps mem.questions result.2.questions ∧
      ArrayHeap.Keeps mem.options result.2.options) ∧
    ∀ (attempt : ExamAttempt) (exam : Exam) (answers : List AnswerRecord) (now : Int),
      (freezeAndGrade attempt answers presented exam now).questionResults.Perm
        (freezeAndGrade attempt answers questions exam now).questionResults ∧
      (∀ r ∈ (freezeAndGrade attempt answers questions exam now).questionResults,
        ∀ r' ∈ (freezeAndGrade attempt answers presented exam now).questionResults,
        r'.questionId = r.questionId → r'.score = r.score) ∧
      (ExactSums →
        (freezeAndGrade attempt answers presented exam now).totalScore =
          (freezeAndGrade attempt answers questions exam now).totalScore) := by
  intro questions result presented
  have hspec : (ArrayHeap.Keeps mem.questions result.2.questions ∧
    ArrayHeap.Keeps mem.options result.2.options) ∧ _ := materialize_spec hs flags
  obtain ⟨⟨hkq, hko⟩, draws, hdraws⟩ := hspec
  have hpresented : presented = ExamSystem.materializeAttemptPresentation questions flags draws :=
    hdraws
  refine ⟨hpresented ▸ presents_materialize flags questions draws, ⟨?_, hkq, hko⟩, ?_⟩
  · show (result.2.questions.read published).toList.map (·.value result.2.options) = _
    rw [hkq.read hs.questions, value_keeps hko hs.options]
    rfl
  · intro attempt exam answers now
    have hperm := freezeAndGrade_perm attempt answers questions exam now flags draws
    rw [← hpresented] at hperm
    refine ⟨hperm, fun r hr r' hr' hid => ?_, fun hexact => ?_⟩
    · have hnodup : ((freezeAndGrade attempt answers questions exam now).questionResults.map
          (·.questionId)).Nodup := by
        rw [freezeAndGrade_ids]
        exact hids
      rw [List.inj_on_of_nodup_map hnodup (hperm.subset hr') hr hid]
    · rw [freezeAndGrade_total, freezeAndGrade_total, sumScores_exact hexact, sumScores_exact hexact]
      exact (hperm.map _).sum_eq

end

def constantSource : RandomSource where
  next _ := 1 / 2
  bounds _ := by norm_num

def sampleMemory : Memory where
  questions := ⟨[#[⟨sampleChoice, 0⟩, ⟨sampleText, 1⟩]]⟩
  options := ⟨[#[⟨js "a", js "A", none⟩, ⟨js "b", js "B", none⟩], #[]]⟩
  drawn := 0

def shufflingFlags : ControlFlags :=
  { sampleFlags with shuffleQuestions := true, shuffleOptions := true }

theorem sampleMemory_stores : sampleMemory.Stores 0 where
  questions := by simp [ArrayHeap.Has, sampleMemory]
  options := by simp [ArrayHeap.Has, ArrayHeap.read, sampleMemory]

theorem presentation_harmless_sample :
    let result := materializeAttemptPresentation constantSource sampleMemory 0 shufflingFlags
    Presents shufflingFlags (sampleMemory.snapshot 0) (result.2.snapshot result.1) :=
  (@presentation_harmless sampleHost constantSource sampleMemory 0 shufflingFlags
      sampleMemory_stores (by decide)).1

end ExamSystem.Presentation
