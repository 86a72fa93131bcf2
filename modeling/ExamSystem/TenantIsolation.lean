import ExamSystem.GateRoles

/-!
# Gates do not see across organizations

What a gate answers depends on the rows of the actor's organization alone, so
its answers say nothing about the rows of another.
-/

namespace ExamSystem.Authz

open Tx Tenancy Accounts Relation

/-! ## Two databases that one organization cannot tell apart -/

/-- The same rows of the organization, and the same profiles that its attempts name. -/
structure SameTenant (organizationId : String) (db db' : Db) : Prop where
  organization : organizationId ∈ db.organizations ↔ organizationId ∈ db'.organizations
  courses : Agree (·.organizationId = organizationId) db.courses.rows db'.courses.rows
  exams : Agree (·.organizationId = organizationId) db.exams.rows db'.exams.rows
  questions : Agree (·.organizationId = organizationId) db.questions.rows db'.questions.rows
  attempts : Agree (·.organizationId = organizationId) db.attempts.rows db'.attempts.rows
  incidents : Agree (·.organizationId = organizationId) db.incidents.rows db'.incidents.rows
  profiles : Agree (·.organizationId = organizationId) db.profiles.rows db'.profiles.rows
  enrollments : Agree (·.organizationId = organizationId) db.enrollments db'.enrollments
  proctors : Agree (·.organizationId = organizationId) db.proctorAssignments db'.proctorAssignments
  teachers : Agree (·.organizationId = organizationId) db.teacherCourseAssignments
    db'.teacherCourseAssignments
  graders : Agree (·.organizationId = organizationId) db.graderExamAssignments db'.graderExamAssignments
  named : ∀ a ∈ db.attempts.rows, a.organizationId = organizationId →
    db.profiles.get a.candidateId = db'.profiles.get a.candidateId

section
variable {organizationId id : String} {db db' : Db} {n m : Node}

theorem SameTenant.symm (h : SameTenant organizationId db db') : SameTenant organizationId db' db where
  organization := h.organization.symm
  courses := h.courses.symm
  exams := h.exams.symm
  questions := h.questions.symm
  attempts := h.attempts.symm
  incidents := h.incidents.symm
  profiles := h.profiles.symm
  enrollments := h.enrollments.symm
  proctors := h.proctors.symm
  teachers := h.teachers.symm
  graders := h.graders.symm
  named := fun a ha ho => (h.named a ((h.attempts a ho).mpr ha) ho).symm

theorem same_row {α β : Type} {key ownerId : α → String} {t u : Table key}
    (h : Agree (ownerId · = organizationId) t.rows u.rows) {f : α → β}
    (ho : (t.get id).map ownerId = some organizationId) : (t.get id).map f = (u.get id).map f := by
  obtain ⟨x, hx, hox⟩ := Option.map_eq_some_iff.mp ho
  have hfilter := h.get id
  have hkeep : (t.get id).filter (fun r => decide (ownerId r = organizationId)) = some x := by
    simp [hx, hox]
  rw [hkeep] at hfilter
  rw [hx, (Option.filter_eq_some_iff.mp hfilter.symm).1]

theorem same_parent (h : SameTenant organizationId db db') (ho : db.owner n = some organizationId) :
    db.parent n = db'.parent n := by
  cases n with
  | organization i => rfl
  | course i => exact same_row h.courses ho
  | exam i => exact same_row h.exams ho
  | question i => exact same_row h.questions ho
  | attempt i => exact same_row h.attempts ho
  | incident i => exact same_row h.incidents ho

theorem same_owner (h : SameTenant organizationId db db') (ho : db.owner n = some organizationId) :
    db'.owner n = some organizationId := by
  rw [← ho]
  cases n with
  | organization i =>
    simp only [Db.owner] at ho ⊢
    split at ho
    · rename_i hi
      cases ho
      simp [h.organization.mp hi, hi]
    · cases ho
  | course i => exact (same_row h.courses ho).symm
  | exam i => exact (same_row h.exams ho).symm
  | question i => exact (same_row h.questions ho).symm
  | attempt i => exact (same_row h.attempts ho).symm
  | incident i => exact (same_row h.incidents ho).symm

theorem owner_congr (h : SameTenant organizationId db db') :
    db.owner n = some organizationId ↔ db'.owner n = some organizationId :=
  ⟨same_owner h, same_owner h.symm⟩

theorem anchored_of_same (h : SameTenant organizationId db db') (ha : db.Anchored organizationId n) :
    db'.Anchored organizationId n := by
  have hholds : ∀ k, db.Holds organizationId k → db'.Holds organizationId k :=
    fun k hk => ⟨hk.1, same_owner h hk.2⟩
  have hparents : ∀ k l, db.Holds organizationId k → db'.Parent k l → db.Parent k l :=
    fun k l hk hl => (same_parent h hk.2).trans hl
  exact Throughout.congr ha hholds hparents

theorem anchored_congr (h : SameTenant organizationId db db') :
    db.Anchored organizationId n ↔ db'.Anchored organizationId n :=
  ⟨anchored_of_same h, anchored_of_same h.symm⟩

theorem reaches_of_same (h : SameTenant organizationId db db') (ha : db.Anchored organizationId n)
    (hm : db.Reaches n m) :
    db'.Reaches n m := by
  have hparents : ∀ k l, db.Holds organizationId k → db.Parent k l → db'.Parent k l :=
    fun k l hk hl => (same_parent h hk.2).symm.trans hl
  exact Throughout.reaches ha hparents hm

theorem reaches_congr (h : SameTenant organizationId db db') (ha : db.Anchored organizationId n) :
    db.Reaches n m ↔ db'.Reaches n m :=
  ⟨reaches_of_same h ha, reaches_of_same h.symm (anchored_of_same h ha)⟩

/-! ## Queries -/

theorem proctor_congr (h : SameTenant organizationId db db') (examId userId : String) :
    db.hasActiveProctorAssignment organizationId examId userId = db'.hasActiveProctorAssignment
      organizationId examId userId := by
  apply h.proctors.any
  intro a ha
  simp only [Proctors.Db.ofPair, decide_eq_true_eq] at ha
  exact ha.1.1

theorem teacher_congr (h : SameTenant organizationId db db') (courseId userId : String) :
    db.hasActiveTeacherAssignment organizationId courseId userId = db'.hasActiveTeacherAssignment
      organizationId courseId userId := by
  apply h.teachers.any
  intro a ha
  exact (decide_eq_true_eq.mp ha).1

theorem grader_congr (h : SameTenant organizationId db db') (examId userId : String) :
    db.hasActiveGraderAssignment organizationId examId userId = db'.hasActiveGraderAssignment
      organizationId examId userId := by
  apply h.graders.any
  intro a ha
  exact (decide_eq_true_eq.mp ha).1

theorem profile_congr (h : SameTenant organizationId db db') (userId : String) :
    db.findProfile organizationId userId = db'.findProfile organizationId userId := by
  apply h.profiles.find
  · intro p hp
    exact (decide_eq_true_eq.mp hp).1
  · intro p hp q hq hpu hqu
    have hpu := decide_eq_true_eq.mp hpu
    have hqu := decide_eq_true_eq.mp hqu
    apply List.inj_on_of_nodup_map db.profilesUnique hp hq
    rw [hpu.1, hpu.2, hqu.1, hqu.2]

theorem enrollment_congr (h : SameTenant organizationId db db') (examId candidateId : String) :
    db.findEnrollment organizationId examId candidateId = db'.findEnrollment organizationId examId
      candidateId := by
  apply h.enrollments.find
  · intro e he
    exact (decide_eq_true_eq.mp he).1
  · intro e he f hf hep hfp
    have hep := decide_eq_true_eq.mp hep
    have hfp := decide_eq_true_eq.mp hfp
    apply List.inj_on_of_nodup_map db.enrollmentsUnique he hf
    rw [hep.1, hep.2.1, hep.2.2, hfp.1, hfp.2.1, hfp.2.2]

theorem attemptProfile_congr (h : SameTenant organizationId db db')
    (ho : db.owner (.attempt id) = some organizationId) :
    db.attemptProfile id = db'.attemptProfile id := by
  obtain ⟨a, ha⟩ := (owner_found (t := db.attempts) rfl).mp ho
  obtain ⟨hget, hown⟩ := Option.filter_eq_some_iff.mp ha
  have hown : a.organizationId = organizationId := by simpa using hown
  have hget' : db'.attempts.get id = some a := by
    have hfilter := h.attempts.get id
    rw [ha] at hfilter
    exact (Option.filter_eq_some_iff.mp hfilter.symm).1
  simp only [Db.attemptProfile, hget, hget', Option.bind_some]
  exact h.named a (Table.mem_of_get hget) hown

end

/-! ## Gates -/

/-- Each query of a gate fails in both, or finds the same rows of the organization in both. -/
def SameReads (organizationId : String) (reads reads' : Reads) : Prop :=
  ∀ q, Option.Rel (SameTenant organizationId) (reads q) (reads' q)

section
variable {reads reads' : Reads} {ctx : RuntimeRequestContext} {request : GateRequest} {db db' : Db}
    {n : Node} {id : String}

/-- Two verdicts on the same facts are both successes or the same denial. -/
theorem Verdict.pair {α : Type} {found found' allowed allowed' : Prop} {good good' : α → Prop}
    {x y : Except Denial α} (h : Verdict found allowed good x)
    (h' : Verdict found' allowed' good' y) (hf : found ↔ found') (ha : allowed ↔ allowed') :
    (allowed ∧ ∃ r r', x = .ok r ∧ y = .ok r' ∧ good r ∧ good' r') ∨ ∃ d, x = .error d ∧
    y = .error d := by
  cases h with
  | resolved ha₁ hr =>
    cases h' with
    | resolved _ hr' => exact .inl ⟨ha₁, _, _, rfl, rfl, hr, hr'⟩
    | forbidden _ hn => exact absurd (ha.mp ha₁) hn
    | missing _ hn => exact absurd (ha.mp ha₁) hn
  | forbidden hf₁ hn =>
    cases h' with
    | resolved ha' _ => exact absurd (ha.mpr ha') hn
    | forbidden _ _ => exact .inr ⟨_, rfl, rfl⟩
    | missing hf' _ => exact absurd (hf.mp hf₁) hf'
  | missing hf₁ hn =>
    cases h' with
    | resolved ha' _ => exact absurd (ha.mpr ha') hn
    | forbidden hf' _ => exact absurd (hf.mpr hf') hf₁
    | missing _ _ => exact .inr ⟨_, rfl, rfl⟩

theorem SameReads.lookup (h : SameReads ctx.organizationId reads reads') (q : GateRead)
    {active : Db → String → String → String → Bool}
    (hactive : ∀ db db', SameTenant ctx.organizationId db db' →
      ∀ id, active db ctx.organizationId id ctx.actorId = active db' ctx.organizationId id
        ctx.actorId) (id : String) :
    ((reads q).map fun db => active db ctx.organizationId id ctx.actorId) =
      (reads' q).map fun db => active db ctx.organizationId id ctx.actorId := by
  have hq := h q
  generalize reads q = x at hq ⊢
  generalize reads' q = y at hq ⊢
  cases hq with
  | none => rfl
  | some hsame => rw [Option.map_some, Option.map_some, hactive _ _ hsame]

theorem assignmentScoped_congr {declared : Bool} {gate gate' : AssignmentGate}
    {resolvedId : ResolvedScope → Option String} {r r' : ResolvedScope}
    (hid : resolvedId r = resolvedId r') (hgate : ∀ id, gate ctx id = gate' ctx id) :
    assignmentScoped declared (if declared then some gate else none) resolvedId ctx r =
      assignmentScoped declared (if declared then some gate' else none) resolvedId ctx r' := by
  unfold assignmentScoped
  cases declared with
  | false => rfl
  | true => simp only [if_true, orThrow_some, ok_bind, hid, hgate]

theorem Resolves.same_exam {r r' : ResolvedScope} (hr : Resolves db n r) (hr' : Resolves db' n r')
    (h : SameTenant ctx.organizationId db db') (ha : db.Anchored ctx.organizationId n) :
    resolvedExamId r = resolvedExamId r' :=
  Option.ext fun e => (hr.exam e).trans ((reaches_congr h ha).trans (hr'.exam e).symm)

theorem Resolves.same_course {r r' : ResolvedScope} (hr : Resolves db n r) (hr' : Resolves db' n r')
    (h : SameTenant ctx.organizationId db db') (ha : db.Anchored ctx.organizationId n) :
    resolvedCourseId r = resolvedCourseId r' :=
  Option.ext fun c => (hr.course c).trans ((reaches_congr h ha).trans (hr'.course c).symm)

theorem scoped_gate_isolated (h : SameReads ctx.organizationId reads reads')
    (hctx : request.ctx = some ctx) (route : ScopedRoute) :
    requireScopedCapability route reads request = requireScopedCapability route reads' request := by
  unfold requireScopedCapability buildScopedCapabilityPreHandler
  simp only [hctx, orThrow_some, ok_bind]
  congr 1
  funext _
  cases hresolver : resolvers route.resolverKey with
  | none => rfl
  | some resolver =>
    obtain ⟨node, hnode⟩ :=
      Option.isSome_iff_exists.mp (nodeOf_isSome.trans (Option.isSome_of_eq_some hresolver))
    simp only [Option.map_some, orThrow_some, ok_bind]
    congr 1
    funext id
    have hproctor : ∀ i, proctorAssignmentGate reads ctx i = proctorAssignmentGate reads' ctx i :=
      h.lookup .proctor fun _ _ hs i => proctor_congr hs i ctx.actorId
    have hteacher : ∀ i, teacherAssignmentGate reads ctx i = teacherAssignmentGate reads' ctx i :=
      h.lookup .teacher fun _ _ hs i => teacher_congr hs i ctx.actorId
    have hgrader : ∀ i, graderAssignmentGate reads ctx i = graderAssignmentGate reads' ctx i :=
      h.lookup .grader fun _ _ hs i => grader_congr hs i ctx.actorId
    have hchain := h .chain
    generalize reads .chain = chain at hchain ⊢
    generalize reads' .chain = chain' at hchain ⊢
    cases hchain with
    | none =>
      rw [resolver_unavailable hresolver]
      rfl
    | some hsame =>
      rename_i db db'
      have hv := resolver_verdict db id hresolver hnode ctx.resolver
      have hv' := resolver_verdict db' id hresolver hnode ctx.resolver
      obtain ⟨ha, r, r', hr, hr', hres, hres'⟩ | ⟨d, hd, hd'⟩ :=
        hv.pair hv' (owner_congr hsame) (anchored_congr hsame)
      · rw [hr, hr', ok_bind, ok_bind]
        rw [assignmentScoped_congr (hres.same_exam hres' hsame ha) hproctor,
          assignmentScoped_congr (hres.same_course hres' hsame ha) hteacher,
          assignmentScoped_congr (hres.same_exam hres' hsame ha) hgrader]
      · rw [hd, hd', error_bind, error_bind]

theorem own_attempt_gate_isolated (h : SameReads ctx.organizationId reads reads')
    (hctx : request.ctx = some ctx) (permission : PermissionKey) (key : String) :
    requireOwnAttempt permission key reads request = requireOwnAttempt permission key reads'
      request := by
  unfold requireOwnAttempt
  simp only [hctx, orThrow_some, ok_bind]
  congr 1
  funext id
  have hchain := h .chain
  generalize reads .chain = chain at hchain ⊢
  generalize reads' .chain = chain' at hchain ⊢
  cases hchain with
  | none => rfl
  | some hsame =>
    rename_i db db'
    have hallowed : (db.Anchored ctx.organizationId (.attempt id) ∧
        ∀ p, db.attemptProfile id = some p → p.organizationId = ctx.organizationId) ↔
          db'.Anchored ctx.organizationId (.attempt id) ∧ ∀ p, db'.attemptProfile id = some p →
          p.organizationId = ctx.organizationId := by
      rw [← anchored_congr hsame]
      apply and_congr_right
      intro ha
      rw [attemptProfile_congr hsame (anchored_owner ha)]
    obtain ⟨ha, r, r', hr, hr', howner, howner'⟩ | ⟨d, hd, hd'⟩ :=
      (ownAttempt_verdict db id ctx.resolver).pair (ownAttempt_verdict db' id ctx.resolver)
        (owner_congr hsame) hallowed
    · rw [hr, hr', ok_bind, ok_bind, howner, howner', attemptProfile_congr hsame (anchored_owner ha.1)]
    · rw [hd, hd']

theorem eligibility_gate_isolated (h : SameReads ctx.organizationId reads reads')
    (hctx : request.ctx = some ctx) (permission : PermissionKey) (key : String)
    (mode : EligibilityDenialMode) :
    requireExamEligibility permission key mode reads request = requireExamEligibility permission key
      mode reads' request := by
  unfold requireExamEligibility
  simp only [hctx, orThrow_some, ok_bind]
  congr 1
  funext id
  have hchain := h .chain
  generalize reads .chain = chain at hchain ⊢
  generalize reads' .chain = chain' at hchain ⊢
  cases hchain with
  | none => rfl
  | some hsame =>
    rename_i db db'
    obtain ⟨-, r, r', hr, hr', hown, hown'⟩ | ⟨d, hd, hd'⟩ :=
      (eligibility_verdict db id ctx.resolver).pair (eligibility_verdict db' id ctx.resolver)
        (owner_congr hsame) (anchored_congr hsame)
    · have hsameOwn : r.ownership = r'.ownership := by
        rw [hown, hown']
        simp only [RuntimeRequestContext.resolver, profile_congr hsame, enrollment_congr hsame]
      rw [hr, hr', ok_bind, ok_bind, hsameOwn]
    · rw [hd, hd']

theorem score_gate_isolated (h : SameReads ctx.organizationId reads reads')
    (hctx : request.ctx = some ctx) :
    requireScoreCapability reads request = requireScoreCapability reads' request := by
  unfold requireScoreCapability
  simp only [hctx, orThrow_some, ok_bind]
  congr 1
  funext id
  have hteacher : ∀ i, teacherAssignmentGate reads ctx i = teacherAssignmentGate reads' ctx i :=
    h.lookup .teacher fun _ _ hs i => teacher_congr hs i ctx.actorId
  have hchain := h .chain
  generalize reads .chain = chain at hchain ⊢
  generalize reads' .chain = chain' at hchain ⊢
  cases hchain with
  | none => rfl
  | some hsame =>
    rename_i db db'
    obtain ⟨ha, r, r', hr, hr', ⟨hres, hscope, howner⟩, hres', hscope', howner'⟩ | ⟨d, hd, hd'⟩ :=
      (score_verdict db id ctx.resolver).pair (score_verdict db' id ctx.resolver)
        (owner_congr hsame) (anchored_congr hsame)
    · obtain ⟨c, hc⟩ := attempt_course ha
      obtain ⟨node, hnode, hid⟩ := course_node hscope hres hc
      obtain ⟨node', hnode', hid'⟩ := course_node hscope' hres' ((reaches_congr hsame ha).mp hc)
      simp only [hr, hr', ok_bind, hnode, hnode', orThrow_some, hid, hid', hteacher, howner, howner',
        attemptProfile_congr hsame (anchored_owner ha)]
    · rw [hd, hd', error_bind, error_bind]

/-- Tenant isolation: whatever a gate answers, it answers the same on any other rows of the
other organizations. -/
theorem gates_isolate_tenants (reads reads' : Reads) (request : GateRequest)
    (h : ∀ ctx, request.ctx = some ctx → SameReads ctx.organizationId reads reads') :
    (∀ route, requireScopedCapability route reads request = requireScopedCapability route
        reads' request) ∧
    (∀ permission key, requireOwnAttempt permission key reads request = requireOwnAttempt permission
        key reads' request) ∧
    (∀ permission key mode, requireExamEligibility permission key mode reads request =
        requireExamEligibility permission key mode reads' request) ∧
    requireScoreCapability reads request = requireScoreCapability reads' request := by
  cases hctx : request.ctx with
  | none =>
    have hanonymous : ∀ {α : Type} (f : RuntimeRequestContext → Except Denial α),
        (orThrow request.ctx .authRequired >>= f) = .error .authRequired := by
      intro α f
      rw [hctx]
      rfl
    simp only [requireScopedCapability, buildScopedCapabilityPreHandler, requireOwnAttempt,
      requireExamEligibility, requireScoreCapability, hanonymous, implies_true, and_self]
  | some ctx =>
    have hsame := h ctx hctx
    exact ⟨scoped_gate_isolated hsame hctx, own_attempt_gate_isolated hsame hctx,
      eligibility_gate_isolated hsame hctx, score_gate_isolated hsame hctx⟩

def sampleNeighbour : Db :=
  { sampleGateRows with
    organizations := ["org", "other"]
    courses := ⟨[⟨"course-2", "other"⟩, ⟨"course", "org"⟩], by decide⟩ }

theorem gates_isolate_tenants_sample :
    requireOwnAttempt .attemptSubmit "attemptId" sampleGateReads (sampleGateRequest sampleCandidate) =
      requireOwnAttempt .attemptSubmit "attemptId" (fun _ => some sampleNeighbour)
        (sampleGateRequest sampleCandidate) := by
  refine (gates_isolate_tenants _ _ _ ?_).2.1 _ _
  rintro _ ⟨⟩ q
  refine .some ⟨by decide, ?_, fun _ _ => .rfl, fun _ _ => .rfl, fun _ _ => .rfl, fun _ _ => .rfl,
    fun _ _ => .rfl, fun _ _ => .rfl,
    fun _ _ => .rfl, fun _ _ => .rfl, fun _ _ => .rfl, fun _ _ _ => rfl⟩
  rintro ⟨i, o⟩ ho
  have ho : o = "org" := ho
  subst ho
  simp [sampleGateRows, sampleNeighbour]

end

end ExamSystem.Authz
