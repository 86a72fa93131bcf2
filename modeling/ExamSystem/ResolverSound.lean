import ExamSystem.CapabilityGates
import ExamSystem.Tenancy

/-!
# A scope is an anchored resource

A resource is anchored in an organization when it and every parent of it, up to
the organization, are the organization's. The resolvers resolve exactly the
anchored ones.
-/

namespace ExamSystem.Authz

open Tx Relation Tenancy

/-! ## Resources and their parents -/

inductive Node
  | organization (id : String)
  | course (id : String)
  | exam (id : String)
  | question (id : String)
  | attempt (id : String)
  | incident (id : String)
  deriving DecidableEq, Repr

/-- A chain shows the id of every node but the organization, which it compares. -/
def Node.Named : Node → Prop
  | .organization _ => True
  | .course id | .exam id | .question id | .attempt id | .incident id => id ≠ ""

namespace Db

def parent (db : Db) : Node → Option Node
  | .organization _ => none
  | .course id => (db.courses.get id).map fun c => .organization c.organizationId
  | .exam id => (db.exams.get id).map fun e => .course e.courseId
  | .question id => (db.questions.get id).map fun q => .course q.courseId
  | .attempt id => (db.attempts.get id).map fun a => .exam a.examId
  | .incident id => (db.incidents.get id).map fun i => .exam i.examId

def owner (db : Db) : Node → Option String
  | .organization id => if id ∈ db.organizations then some id else none
  | .course id => (db.courses.get id).map (·.organizationId)
  | .exam id => (db.exams.get id).map (·.organizationId)
  | .question id => (db.questions.get id).map (·.organizationId)
  | .attempt id => (db.attempts.get id).map (·.organizationId)
  | .incident id => (db.incidents.get id).map (·.organizationId)

def Parent (db : Db) (n m : Node) : Prop := db.parent n = some m

def Holds (db : Db) (organizationId : String) (n : Node) : Prop :=
  n.Named ∧ db.owner n = some organizationId

def Anchored (db : Db) (organizationId : String) : Node → Prop :=
  Throughout db.Parent (db.Holds organizationId)

def Reaches (db : Db) : Node → Node → Prop := ReflTransGen db.Parent

end Db

section
variable {db : Db} {organizationId id : String} {n m : Node}

/-! ## Anchored resources, by their kind -/

theorem anchored_organization :
    db.Anchored organizationId (.organization id) ↔ id = organizationId ∧ id ∈ db.organizations := by
  unfold Db.Anchored
  rw [throughout_iff]
  have hnone : ∀ m, ¬ db.Parent (.organization id) m := nofun
  simp only [Db.Holds, Node.Named, Db.owner, hnone, false_implies, implies_true, and_true, true_and]
  by_cases hid : id ∈ db.organizations <;> simp [hid]

/-- A kind of resource whose rows are in a table and link to a parent each. -/
theorem anchored_child {α : Type} {key ownerId : α → String} {t : Table key} {parent : α → Node}
    (hnamed : n.Named ↔ id ≠ "") (howner : db.owner n = (t.get id).map ownerId)
    (hparent : db.parent n = (t.get id).map parent) :
    db.Anchored organizationId n ↔
      id ≠ "" ∧ ∃ x, (t.get id).filter (fun r => decide (ownerId r = organizationId)) = some x ∧
      db.Anchored organizationId (parent x) := by
  unfold Db.Anchored
  rw [throughout_iff]
  simp only [Db.Holds, Db.Parent, hnamed, howner, hparent, Option.map_eq_some_iff,
    Option.filter_eq_some_iff, decide_eq_true_eq]
  constructor
  · rintro ⟨⟨hid, x, hx, ho⟩, h⟩
    exact ⟨hid, x, ⟨hx, ho⟩, h _ ⟨x, hx, rfl⟩⟩
  · rintro ⟨hid, x, ⟨hx, ho⟩, h⟩
    refine ⟨⟨hid, x, hx, ho⟩, ?_⟩
    rintro m ⟨y, hy, rfl⟩
    rw [hx] at hy
    cases hy
    exact h

theorem anchored_course : db.Anchored organizationId (.course id) ↔
    id ≠ "" ∧ (∃ c, db.findCourse organizationId id = some c) ∧ organizationId ∈ db.organizations := by
  rw [anchored_child (n := .course id) (t := db.courses) Iff.rfl rfl rfl]
  simp only [anchored_organization]
  apply and_congr_right
  intro hid
  constructor
  · rintro ⟨c, hc, ho, horg⟩
    exact ⟨⟨c, hc⟩, ho ▸ horg⟩
  · rintro ⟨⟨c, hc⟩, horg⟩
    have ho : c.organizationId = organizationId := by simpa using (Option.filter_eq_some_iff.mp hc).2
    exact ⟨c, hc, ho, ho ▸ horg⟩

theorem anchored_exam : db.Anchored organizationId (.exam id) ↔
    id ≠ "" ∧ ∃ e, db.findExam organizationId id = some e ∧
    db.Anchored organizationId (.course e.courseId) :=
  anchored_child Iff.rfl rfl rfl

theorem anchored_question : db.Anchored organizationId (.question id) ↔
    id ≠ "" ∧ ∃ q, db.findQuestion organizationId id = some q ∧
    db.Anchored organizationId (.course q.courseId) :=
  anchored_child Iff.rfl rfl rfl

theorem anchored_attempt : db.Anchored organizationId (.attempt id) ↔
    id ≠ "" ∧ ∃ a, db.findAttempt organizationId id = some a ∧
    db.Anchored organizationId (.exam a.examId) :=
  anchored_child Iff.rfl rfl rfl

theorem anchored_incident : db.Anchored organizationId (.incident id) ↔
    id ≠ "" ∧ ∃ i, db.findIncident organizationId id = some i ∧
    db.Anchored organizationId (.exam i.examId) :=
  anchored_child Iff.rfl rfl rfl

/-! ## Chains -/

theorem verifyChain_eq_ok {ctx : ResolverContext} {nodes : List ChainNode}
    {ids : List (Option String)} {chain : List (ResourceType × String)} :
    verifyChain ctx nodes ids = .ok chain ↔ materializeChain nodes = some chain ∧
    ∀ id ∈ ids, id = some ctx.organizationId := by
  unfold verifyChain
  cases materializeChain nodes with
  | none => simp
  | some chain' =>
    dsimp only
    by_cases hnone : none ∈ ids
    · have hne : ¬ ∀ id ∈ ids, id = some ctx.organizationId := fun h => by cases h none hnone
      simp [hnone, hne]
    · rw [if_neg hnone]
      by_cases hall : ∀ id ∈ ids, id = some ctx.organizationId
      · have hany : ids.any (· ≠ some ctx.organizationId) = false := by simpa using hall
        rw [hany, if_neg Bool.false_ne_true, Except.ok.injEq, Option.some_inj]
        exact (and_iff_left hall).symm
      · have hany : ids.any (· ≠ some ctx.organizationId) = true := by simpa using hall
        rw [hany, if_pos rfl]
        simp only [reduceCtorEq, false_iff, not_and]
        exact fun _ => hall

/-- A chain that does not verify is forbidden, and says no more. -/
theorem verifyChain_denial {ctx : ResolverContext} {nodes : List ChainNode}
    {ids : List (Option String)} {reason : DenyReason}
    (h : verifyChain ctx nodes ids = .error reason) : reason.denial = .permissionDenied := by
  unfold verifyChain at h
  split at h
  · cases h
    rfl
  · split at h
    · cases h
      rfl
    · split at h <;> cases h
      rfl

theorem materializeNode_eq_some {type : ResourceType} {nodeId : Option String}
    {x : ResourceType × String} :
    materializeNode ⟨type, nodeId, some (some id)⟩ = some x ↔ nodeId = some id ∧ id ≠ "" ∧
    x = (type, id) := by
  unfold materializeNode
  cases nodeId with
  | none => simp
  | some nodeId =>
    dsimp only
    by_cases he : nodeId = ""
    · subst he
      simp
      rintro rfl
      simp
    · by_cases hl : nodeId = id
      · subst hl
        simp [he, eq_comm]
      · simp [he, hl, Ne.symm hl]

theorem materializeNode_root {type : ResourceType} {x : ResourceType × String} :
    materializeNode ⟨type, some id, none⟩ = some x ↔ id ≠ "" ∧ x = (type, id) := by
  unfold materializeNode
  by_cases he : id = "" <;> simp [he, eq_comm]

theorem courseTail_ok {x : ResourceType × String} :
    (materializeNode ⟨.course, (db.joinCourse (some id)).courseId, some (some id)⟩ = some x ∧
      (db.joinCourse (some id)).courseOrganizationId = some organizationId ∧
      (db.joinCourse (some id)).organizationId = some organizationId) ↔
    db.Anchored organizationId (.course id) ∧ x = (.course, id) := by
  rw [materializeNode_eq_some, anchored_course]
  simp only [Db.joinCourse, Db.findCourse, Option.bind_some, Option.filter_eq_some_iff,
    Option.map_eq_some_iff, decide_eq_true_eq]
  constructor
  · rintro ⟨⟨⟨c, hc, rfl⟩, hid, rfl⟩, ⟨c', hc', ho⟩, -, horg⟩
    exact ⟨⟨hid, ⟨c', hc', ho⟩, horg⟩, rfl⟩
  · rintro ⟨⟨hid, ⟨c, hc, ho⟩, horg⟩, rfl⟩
    exact ⟨⟨⟨c, hc, Table.key_get hc⟩, hid, rfl⟩, ⟨c, hc, ho⟩, ⟨c, hc, ho⟩, horg⟩

theorem examTail_ok {x y : ResourceType × String} :
    (materializeNode ⟨.exam, (db.joinExam id).examId, some (some id)⟩ = some x ∧
      materializeNode ⟨.course, (db.joinExam id).courseId,
        some (db.joinExam id).linkedCourseId⟩ = some y ∧
      (db.joinExam id).examOrganizationId = some organizationId ∧
      (db.joinExam id).courseOrganizationId = some organizationId ∧
      (db.joinExam id).organizationId = some organizationId) ↔
    db.Anchored organizationId (.exam id) ∧ x = (.exam, id) ∧
      ∃ e, db.exams.get id = some e ∧ y = (.course, e.courseId) := by
  rw [materializeNode_eq_some, anchored_exam]
  cases he : db.exams.get id with
  | none => simp [Db.joinExam, Db.findExam, he]
  | some e =>
    have hkey := Table.key_get he
    simp only [Db.joinExam, Db.findExam, he, Option.map_some, Option.filter_eq_some_iff,
      Option.some_inj, decide_eq_true_eq, hkey]
    constructor
    · rintro ⟨⟨-, hid, rfl⟩, hy, ho, hco, hoo⟩
      obtain ⟨hcourse, rfl⟩ := courseTail_ok.mp ⟨hy, hco, hoo⟩
      exact ⟨⟨hid, e, ⟨rfl, ho⟩, hcourse⟩, rfl, e, rfl, rfl⟩
    · rintro ⟨⟨hid, e', ⟨rfl, ho⟩, hcourse⟩, rfl, e'', rfl, rfl⟩
      obtain ⟨hy, hco, hoo⟩ := courseTail_ok.mpr ⟨hcourse, rfl⟩
      exact ⟨⟨trivial, hid, rfl⟩, hy, ho, hco, hoo⟩

theorem materializeChain_nil : materializeChain [] = some [] := rfl

theorem materializeChain_cons {node : ChainNode} {nodes : List ChainNode}
    {chain : List (ResourceType × String)} :
    materializeChain (node :: nodes) = some chain ↔
      ∃ x xs, materializeNode node = some x ∧ materializeChain nodes = some xs ∧ chain = x :: xs := by
  unfold materializeChain
  rw [List.mapM_cons]
  simp only [Option.bind_eq_bind, Option.bind_eq_some_iff, pure, Option.some_inj]
  constructor
  · rintro ⟨x, hx, xs, hxs, rfl⟩
    exact ⟨x, xs, hx, hxs, rfl⟩
  · rintro ⟨x, xs, hx, hxs, rfl⟩
    exact ⟨x, hx, xs, hxs, rfl⟩

theorem examChain_ok {type : ResourceType} {root : String} {chain : List (ResourceType × String)}
    {owner : Option String} :
    (materializeChain [⟨type, some root, none⟩, ⟨.exam, (db.joinExam id).examId, some (some id)⟩,
        ⟨.course, (db.joinExam id).courseId, some (db.joinExam id).linkedCourseId⟩] = some chain ∧
      ∀ o ∈ [owner, (db.joinExam id).examOrganizationId, (db.joinExam id).courseOrganizationId,
        (db.joinExam id).organizationId], o = some organizationId) ↔
    root ≠ "" ∧ owner = some organizationId ∧ db.Anchored organizationId (.exam id) ∧
      ∃ e, db.exams.get id = some e ∧ chain = [(type, root), (.exam, id), (.course, e.courseId)] := by
  simp only [materializeChain_cons, materializeChain_nil, materializeNode_root,
    List.forall_mem_cons, List.not_mem_nil, false_implies, implies_true, and_true]
  constructor
  · rintro ⟨⟨x, xs, ⟨hroot, rfl⟩, ⟨y, ys, hy, ⟨z, zs, hz, ⟨⟩, rfl⟩, rfl⟩, rfl⟩, ho, he, hc, hg⟩
    obtain ⟨hexam, rfl, e, hget, rfl⟩ := examTail_ok.mp ⟨hy, hz, he, hc, hg⟩
    exact ⟨hroot, ho, hexam, e, hget, rfl⟩
  · rintro ⟨hroot, ho, hexam, e, hget, rfl⟩
    obtain ⟨hy, hz, he, hc, hg⟩ := examTail_ok.mpr ⟨hexam, rfl, e, hget, rfl⟩
    exact ⟨⟨_, _, ⟨hroot, rfl⟩, ⟨_, _, hy, ⟨_, _, hz, rfl, rfl⟩, rfl⟩, rfl⟩, ho, he, hc, hg⟩

theorem courseChain_ok {type : ResourceType} {root : String} {chain : List (ResourceType × String)}
    {owner : Option String} :
    (materializeChain [⟨type, some root, none⟩, ⟨.course, (db.joinCourse (some id)).courseId,
          some (some id)⟩] = some chain ∧
      ∀ o ∈ [owner, (db.joinCourse (some id)).courseOrganizationId,
        (db.joinCourse (some id)).organizationId], o = some organizationId) ↔
    root ≠ "" ∧ owner = some organizationId ∧ db.Anchored organizationId (.course id) ∧
    chain = [(type, root), (.course, id)] := by
  simp only [materializeChain_cons, materializeChain_nil, materializeNode_root,
    List.forall_mem_cons, List.not_mem_nil, false_implies, implies_true, and_true]
  constructor
  · rintro ⟨⟨x, xs, ⟨hroot, rfl⟩, ⟨y, ys, hy, ⟨⟩, rfl⟩, rfl⟩, ho, hc, hg⟩
    obtain ⟨hcourse, rfl⟩ := courseTail_ok.mp ⟨hy, hc, hg⟩
    exact ⟨hroot, ho, hcourse, rfl⟩
  · rintro ⟨hroot, ho, hcourse, rfl⟩
    obtain ⟨hy, hc, hg⟩ := courseTail_ok.mpr ⟨hcourse, rfl⟩
    exact ⟨⟨_, _, ⟨hroot, rfl⟩, ⟨_, _, hy, rfl, rfl⟩, rfl⟩, ho, hc, hg⟩

/-! ## Verdicts -/

/-- What a resolver answers of a row that is there: it is found or missing, and allowed or forbidden. -/
inductive Verdict {α : Type} (found allowed : Prop) (good : α → Prop) : Except Denial α → Prop
  | resolved {r : α} (ha : allowed) (hr : good r) : Verdict found allowed good (.ok r)
  | forbidden (hf : found) (ha : ¬ allowed) : Verdict found allowed good (.error .permissionDenied)
  | missing (hf : ¬ found) (ha : ¬ allowed) : Verdict found allowed good (.error .resourceNotFound)

/-- The exam and the course that the assignment gates ask about are the ones reached. -/
structure Resolves (db : Db) (n : Node) (r : ResolvedScope) : Prop where
  exam : ∀ e, resolvedExamId r = some e ↔ db.Reaches n (.exam e)
  course : ∀ c, resolvedCourseId r = some c ↔ db.Reaches n (.course c)

theorem reaches_iff : db.Reaches n m ↔ n = m ∨ ∃ k, db.parent n = some k ∧ db.Reaches k m := by
  unfold Db.Reaches
  rw [ReflTransGen.cases_head_iff]
  rfl

theorem reaches_organization : db.Reaches (.organization id) m ↔ .organization id = m := by
  rw [reaches_iff]
  simp [Db.parent]

theorem reaches_course {c : CourseRow} (hc : db.courses.get id = some c) :
    db.Reaches (.course id) m ↔ .course id = m ∨ .organization c.organizationId = m := by
  rw [reaches_iff]
  simp [Db.parent, hc, reaches_organization]

theorem reaches_exam {e : ExamRow} (he : db.exams.get id = some e) :
    db.Reaches (.exam id) m ↔ .exam id = m ∨ db.Reaches (.course e.courseId) m := by
  rw [reaches_iff]
  simp [Db.parent, he]

theorem resolvedNode_iff {type : ResourceType} {scope : Scope} {r : ResolvedScope}
    (htypes : (r.chain.map (·.1)).Nodup) (hids : ∀ x ∈ r.chain, x.2 ≠ "")
    (hscope : r.scope = scope → ∃ x ∈ r.chain, x.1 = type) :
    resolvedNode type scope r = some id ↔ (type, id) ∈ r.chain := by
  unfold resolvedNode
  cases hf : r.chain.find? (·.1 = type) with
  | none =>
    have hnone : ∀ x ∈ r.chain, x.1 ≠ type := by simpa using List.find?_eq_none.mp hf
    have hne : r.scope ≠ scope := by
      intro hs
      obtain ⟨x, hx, hxt⟩ := hscope hs
      exact hnone x hx hxt
    simp only [Option.filter_none, if_neg hne, reduceCtorEq, false_iff]
    exact fun h => hnone _ h rfl
  | some x =>
    have hx := List.mem_of_find?_eq_some hf
    have hxt : x.1 = type := by simpa using List.find?_some hf
    have hkeep : (some x).filter (fun n : ResourceType × String => decide (n.2 ≠ "")) = some x := by
      simp [hids x hx]
    rw [hkeep]
    simp only [Option.some_inj]
    constructor
    · rintro rfl
      exact hxt ▸ hx
    · intro h
      rw [List.inj_on_of_nodup_map htypes hx h hxt]

theorem Resolves.of_chain {r : ResolvedScope} (htypes : (r.chain.map (·.1)).Nodup)
    (hids : ∀ x ∈ r.chain, x.2 ≠ "") (hexam : r.scope = .exam → ∃ x ∈ r.chain, x.1 = .exam)
    (hcourse : r.scope = .course → ∃ x ∈ r.chain, x.1 = .course)
    (hexams : ∀ e, (.exam, e) ∈ r.chain ↔ db.Reaches n (.exam e))
    (hcourses : ∀ c, (.course, c) ∈ r.chain ↔ db.Reaches n (.course c)) :
    Resolves db n r :=
  ⟨fun e => (resolvedNode_iff htypes hids hexam).trans (hexams e),
    fun c => (resolvedNode_iff htypes hids hcourse).trans (hcourses c)⟩

theorem course_reaches (h : db.Anchored organizationId (.course id)) :
    (∀ e, ¬ db.Reaches (.course id) (.exam e)) ∧ ∀ c, db.Reaches (.course id) (.course c) ↔ c = id := by
  obtain ⟨-, ⟨c, hc⟩, -⟩ := anchored_course.mp h
  have hget := (Option.filter_eq_some_iff.mp hc).1
  constructor
  · intro e
    simp [reaches_course hget]
  · intro x
    simp [reaches_course hget, eq_comm]

theorem exam_reaches (h : db.Anchored organizationId (.exam id)) {e : ExamRow}
    (he : db.exams.get id = some e) :
    (∀ x, db.Reaches (.exam id) (.exam x) ↔ x = id) ∧ ∀ c, db.Reaches (.exam id) (.course c) ↔
    c = e.courseId := by
  obtain ⟨-, e', he', hcourse⟩ := anchored_exam.mp h
  have hget := (Option.filter_eq_some_iff.mp he').1
  rw [he] at hget
  cases hget
  obtain ⟨hnone, hone⟩ := course_reaches hcourse
  constructor
  · intro x
    simp [reaches_exam he, hnone, eq_comm]
  · intro c
    simp [reaches_exam he, hone]

/-! ## What the resolvers answer -/

/-- A loaded chain is judged by whether its nodes and organizations agree. -/
theorem chain_verdict {α : Type} {ctx : ResolverContext} {nodes : List ChainNode}
    {ids : List (Option String)} {result : List (ResourceType × String) → α} {found allowed : Prop}
    {good : α → Prop} (hf : found)
    (hallowed : allowed ↔ ∃ chain, materializeChain nodes = some chain ∧
      ∀ o ∈ ids, o = some ctx.organizationId)
    (hgood : ∀ chain, materializeChain nodes = some chain →
      (∀ o ∈ ids, o = some ctx.organizationId) → good (result chain)) :
    Verdict found allowed good
      ((verifyChain ctx nodes ids >>= fun chain => pure (result chain)).mapError
        DenyReason.denial) := by
  cases hv : verifyChain ctx nodes ids with
  | ok chain =>
    obtain ⟨hchain, hids⟩ := verifyChain_eq_ok.mp hv
    exact .resolved (hallowed.mpr ⟨chain, hchain, hids⟩) (hgood chain hchain hids)
  | error reason =>
    have hd := verifyChain_denial hv
    simp only [error_bind, Except.mapError, hd]
    apply Verdict.forbidden hf
    rw [hallowed]
    rintro ⟨chain, hchain, hids⟩
    rw [verifyChain_eq_ok.mpr ⟨hchain, hids⟩] at hv
    cases hv

/-- A chain with a check of one more organization after it. -/
theorem guarded_verdict {α : Type} {ctx : ResolverContext} {nodes : List ChainNode}
    {ids : List (Option String)} {c : Prop} [Decidable c]
    {result : List (ResourceType × String) → α} {found allowed : Prop} {good : α → Prop}
    (hf : found) (hallowed : allowed ↔ c ∧ ∃ chain, materializeChain nodes = some chain ∧
      ∀ o ∈ ids, o = some ctx.organizationId) (hgood : ∀ chain, good (result chain)) :
    Verdict found allowed good ((verifyChain ctx nodes ids >>= fun chain =>
      require c .organizationMismatch >>= fun _ =>
        pure (result chain)).mapError DenyReason.denial) := by
  by_cases hc : c
  · simp only [require_true hc, ok_bind]
    exact chain_verdict hf (by rw [hallowed, and_iff_right hc]) fun chain _ _ => hgood chain
  · have ha : ¬ allowed := fun h => hc (hallowed.mp h).1
    simp only [require_false hc, error_bind]
    cases hv : verifyChain ctx nodes ids with
    | ok chain => exact .forbidden hf ha
    | error reason =>
      have hd := verifyChain_denial hv
      simp only [error_bind, Except.mapError, hd]
      exact .forbidden hf ha

theorem missing_verdict {α β : Type} {f : β → Except DenyReason α} {found allowed : Prop}
    {good : α → Prop} (hf : ¬ found) (ha : ¬ allowed) :
    Verdict found allowed good ((loadChain (some none) >>= f).mapError DenyReason.denial) :=
      .missing hf ha

theorem owner_found {α : Type} {key ownerId : α → String} {t : Table key}
    (howner : db.owner n = (t.get id).map ownerId) :
    db.owner n = some organizationId ↔
    ∃ x, (t.get id).filter (fun r => decide (ownerId r = organizationId)) = some x := by
  simp only [howner, Option.map_eq_some_iff, Option.filter_eq_some_iff, decide_eq_true_eq]

theorem anchored_owner (h : db.Anchored organizationId n) : db.owner n = some organizationId :=
  (h n .refl).2

def examChain (db : Db) (type : ResourceType) (id examId : String) : List ChainNode :=
  [⟨type, some id, none⟩, ⟨.exam, (db.joinExam examId).examId, some (some examId)⟩,
    ⟨.course, (db.joinExam examId).courseId, some (db.joinExam examId).linkedCourseId⟩]

def examOwners (db : Db) (owner examId : String) : List (Option String) :=
  [some owner, (db.joinExam examId).examOrganizationId, (db.joinExam examId).courseOrganizationId,
    (db.joinExam examId).organizationId]

theorem examChild_chain {α : Type} {key ownerId examId : α → String} {t : Table key}
    {type : ResourceType} {x : α} (hnamed : n.Named ↔ id ≠ "")
    (howner : db.owner n = (t.get id).map ownerId)
    (hparent : db.parent n = (t.get id).map fun x => .exam (examId x)) (htype : type ≠ .exam)
    (htype' : type ≠ .course) (hne : ∀ e, n ≠ .exam e) (hnc : ∀ c, n ≠ .course c)
    (hx : (t.get id).filter (fun r => decide (ownerId r = organizationId)) = some x) :
    (db.Anchored organizationId n ↔
      ∃ chain, materializeChain (examChain db type (key x) (examId x)) = some chain ∧
      ∀ o ∈ examOwners db (ownerId x) (examId x), o = some organizationId) ∧
    ∀ chain, materializeChain (examChain db type (key x) (examId x)) = some chain →
      (∀ o ∈ examOwners db (ownerId x) (examId x), o = some organizationId) →
      ∀ scope o i, Resolves db n ⟨scope, o, i, chain⟩ := by
  have hanchored : db.Anchored organizationId n ↔ _ := anchored_child hnamed howner hparent
  obtain ⟨hget, ho⟩ := Option.filter_eq_some_iff.mp hx
  have hkey := Table.key_get hget
  have ho : ownerId x = organizationId := by simpa using ho
  unfold examChain examOwners
  constructor
  · simp only [examChain_ok, hanchored, hx, hkey, ho, Option.some_inj, true_and]
    constructor
    · rintro ⟨hid, y, rfl, hexam⟩
      obtain ⟨-, e, he, -⟩ := anchored_exam.mp hexam
      exact ⟨_, hid, hexam, e, (Option.filter_eq_some_iff.mp he).1, rfl⟩
    · rintro ⟨chain, hid, hexam, -⟩
      exact ⟨hid, x, rfl, hexam⟩
  · intro chain hchain hids scope o i
    obtain ⟨hroot, -, hexam, e, he, rfl⟩ := examChain_ok.mp ⟨hchain, hids⟩
    obtain ⟨hexams, hcourses⟩ := exam_reaches hexam he
    obtain ⟨hexamId, e', he', hcourse⟩ := anchored_exam.mp hexam
    have hcourseId : e.courseId ≠ "" := by
      rw [(Option.filter_eq_some_iff.mp he').1] at he
      cases he
      exact (anchored_course.mp hcourse).1
    have hup : ∀ m, n ≠ m → (db.Reaches n m ↔ db.Reaches (.exam (examId x)) m) := by
      intro m hnm
      rw [reaches_iff]
      simp [hparent, hget, hnm]
    apply Resolves.of_chain
    · simp [htype, htype']
    · simp [hroot, hexamId, hcourseId]
    · simp
    · simp
    · intro y
      simp [hup _ (hne y), hexams, Ne.symm htype]
    · intro y
      simp [hup _ (hnc y), hcourses, Ne.symm htype']

/-- A resource of a table whose rows link to an exam each. -/
theorem examChild_verdict {α : Type} {key ownerId examId : α → String} {t : Table key}
    {type : ResourceType} {scope : Scope} (hnamed : n.Named ↔ id ≠ "")
    (howner : db.owner n = (t.get id).map ownerId)
    (hparent : db.parent n = (t.get id).map fun x => .exam (examId x)) (htype : type ≠ .exam)
    (htype' : type ≠ .course) (hne : ∀ e, n ≠ .exam e) (hnc : ∀ c, n ≠ .course c)
    (ctx : ResolverContext) :
    Verdict (db.owner n = some ctx.organizationId) (db.Anchored ctx.organizationId n) (Resolves db n)
      ((resolveAuthorizationChain ctx scope <| some <|
        ((t.get id).filter fun r => decide (ownerId r = ctx.organizationId)).map fun x =>
          ⟨key x, ownerId x, examOwners db (ownerId x) (examId x),
            examChain db type (key x) (examId x)⟩).mapError DenyReason.denial) := by
  have hanchored : db.Anchored ctx.organizationId n ↔ _ := anchored_child hnamed howner hparent
  have hfound : db.owner n = some ctx.organizationId ↔ _ := owner_found howner
  unfold resolveAuthorizationChain
  cases hx : (t.get id).filter fun r => decide (ownerId r = ctx.organizationId) with
  | none => exact missing_verdict (by simp [hfound, hx]) (by simp [hanchored, hx])
  | some x =>
    obtain ⟨hallowed, hgood⟩ := examChild_chain hnamed howner hparent htype htype' hne hnc hx
    simp only [Option.map_some, loadChain, orThrow_some, ok_bind]
    exact chain_verdict (hfound.mpr ⟨x, hx⟩) hallowed fun chain hchain hids =>
      hgood chain hchain hids _ _ _

theorem courseChild_allowed {α : Type} {key ownerId courseId : α → String} {t : Table key} {x : α}
    (type : ResourceType) (hnamed : n.Named ↔ id ≠ "")
    (howner : db.owner n = (t.get id).map ownerId)
    (hparent : db.parent n = (t.get id).map fun x => .course (courseId x))
    (hx : (t.get id).filter (fun r => decide (ownerId r = organizationId)) = some x) :
    db.Anchored organizationId n ↔ ∃ chain, materializeChain [⟨type, some (key x), none⟩,
        ⟨.course, (db.joinCourse (some (courseId x))).courseId,
          some (some (courseId x))⟩] = some chain ∧
      ∀ o ∈ [some (ownerId x), (db.joinCourse (some (courseId x))).courseOrganizationId,
        (db.joinCourse (some (courseId x))).organizationId],
        o = some organizationId := by
  have hanchored : db.Anchored organizationId n ↔ _ := anchored_child hnamed howner hparent
  obtain ⟨hget, ho⟩ := Option.filter_eq_some_iff.mp hx
  have ho : ownerId x = organizationId := by simpa using ho
  simp only [courseChain_ok, hanchored, hx, Table.key_get hget, ho, Option.some_inj, true_and]
  constructor
  · rintro ⟨hid, y, rfl, hcourse⟩
    exact ⟨_, hid, hcourse, rfl⟩
  · rintro ⟨chain, hid, hcourse, -⟩
    exact ⟨hid, x, rfl, hcourse⟩

/-- A resource of a table whose rows link to a course each. -/
theorem courseChild_verdict {α : Type} {key ownerId courseId : α → String} {t : Table key}
    {type : ResourceType} {scope : Scope} (hnamed : n.Named ↔ id ≠ "")
    (howner : db.owner n = (t.get id).map ownerId)
    (hparent : db.parent n = (t.get id).map fun x => .course (courseId x)) (htype : type ≠ .course)
    (hself : ∀ e, n = .exam e ↔ type = .exam ∧ e = id) (hnc : ∀ c, n ≠ .course c)
    (hscope : scope = .exam → type = .exam) (ctx : ResolverContext) :
    Verdict (db.owner n = some ctx.organizationId) (db.Anchored ctx.organizationId n) (Resolves db n)
      ((resolveAuthorizationChain ctx scope <| some <|
        ((t.get id).filter fun r => decide (ownerId r = ctx.organizationId)).map fun x =>
          { resourceId := key x
            resourceOrganizationId := ownerId x
            organizationIds :=
              [some (ownerId x), (db.joinCourse (some (courseId x))).courseOrganizationId,
              (db.joinCourse (some (courseId x))).organizationId]
            chain := [⟨type, some (key x), none⟩,
              ⟨.course, (db.joinCourse (some (courseId x))).courseId,
                some (some (courseId x))⟩] }).mapError DenyReason.denial) := by
  have hanchored : db.Anchored ctx.organizationId n ↔ _ := anchored_child hnamed howner hparent
  have hfound : db.owner n = some ctx.organizationId ↔ _ := owner_found howner
  unfold resolveAuthorizationChain
  cases hx : (t.get id).filter fun r => decide (ownerId r = ctx.organizationId) with
  | none => exact missing_verdict (by simp [hfound, hx]) (by simp [hanchored, hx])
  | some x =>
    obtain ⟨hget, -⟩ := Option.filter_eq_some_iff.mp hx
    have hkey := Table.key_get hget
    simp only [Option.map_some, loadChain, orThrow_some, ok_bind]
    apply chain_verdict (hfound.mpr ⟨x, hx⟩)
    · exact courseChild_allowed type hnamed howner hparent hx
    · intro chain hchain hids
      obtain ⟨hroot, -, hcourse, rfl⟩ := courseChain_ok.mp ⟨hchain, hids⟩
      obtain ⟨hexams, hcourses⟩ := course_reaches hcourse
      have hup : ∀ m, db.Reaches n m ↔ n = m ∨ db.Reaches (.course (courseId x)) m := by
        intro m
        rw [reaches_iff]
        simp [hparent, hget]
      apply Resolves.of_chain
      · simp [htype]
      · simp [hroot, (anchored_course.mp hcourse).1]
      · intro hs
        simp [hscope hs]
      · simp
      · intro y
        simp [hup, hself, hexams, hkey, eq_comm]
      · intro y
        simp [hup, hnc, hcourses, Ne.symm htype]

def nodeOf : ResourceType → Option (String → Node)
  | .attempt => some .attempt
  | .exam => some .exam
  | .course => some .course
  | .question => some .question
  | .incident => some .incident
  | _ => none

theorem course_verdict (ctx : ResolverContext) :
    Verdict (db.owner (.course id) = some ctx.organizationId)
      (db.Anchored ctx.organizationId (.course id)) (Resolves db (.course id))
      ((createCourseResolver ctx id (some db)).mapError DenyReason.denial) := by
  have hfound : db.owner (.course id) = some ctx.organizationId ↔ _ := owner_found (t := db.courses) rfl
  unfold createCourseResolver resolveAuthorizationChain
  simp only [Option.map_some]
  unfold Db.findCourse
  cases hx : (db.courses.get id).filter fun r => decide (r.organizationId = ctx.organizationId) with
  | none => exact missing_verdict (by simp [hfound, hx]) (by simp [anchored_course, Db.findCourse, hx])
  | some c =>
    obtain ⟨hget, ho⟩ := Option.filter_eq_some_iff.mp hx
    have hkey := Table.key_get hget
    have ho : c.organizationId = ctx.organizationId := by simpa using ho
    simp only [Option.map_some, loadChain, orThrow_some, ok_bind]
    have hchain : ∀ chain, (materializeChain [⟨.course, some c.id, none⟩] = some chain ∧
        ∀ o ∈ [some c.organizationId, (some c.organizationId).filter (· ∈ db.organizations)],
        o = some ctx.organizationId) ↔
        db.Anchored ctx.organizationId (.course id) ∧ chain = [(.course, id)] := by
      intro chain
      simp [materializeChain_cons, materializeChain_nil, materializeNode_root, anchored_course,
        Db.findCourse, hx, hkey, ho]
      tauto
    apply chain_verdict (hfound.mpr ⟨c, hx⟩)
    · simp only [hchain, exists_and_left, exists_eq, and_true]
    · intro chain hc hids
      obtain ⟨hcourse, rfl⟩ := (hchain chain).mp ⟨hc, hids⟩
      obtain ⟨hexams, hcourses⟩ := course_reaches hcourse
      apply Resolves.of_chain
      · simp
      · simp [(anchored_course.mp hcourse).1]
      · simp
      · simp
      · simp [hexams]
      · simp [hcourses]

/-- A resolver resolves the anchored resources and forbids the others that are there. -/
theorem resolver_verdict (db : Db) (id : String) {type : ResourceType} {resolver : ScopeResolver}
    {node : String → Node} (hr : resolvers type = some resolver) (hn : nodeOf type = some node)
    (ctx : ResolverContext) :
    Verdict (db.owner (node id) = some ctx.organizationId)
      (db.Anchored ctx.organizationId (node id)) (Resolves db (node id))
      ((resolver ctx id (some db)).mapError DenyReason.denial) := by
  cases type with
  | attempt =>
    cases hr
    cases hn
    apply examChild_verdict (n := .attempt id) (t := db.attempts) Iff.rfl rfl rfl <;> simp
  | incident =>
    cases hr
    cases hn
    apply examChild_verdict (n := .incident id) (t := db.incidents) Iff.rfl rfl rfl <;> simp
  | exam =>
    cases hr
    cases hn
    apply courseChild_verdict (n := .exam id) (t := db.exams) Iff.rfl rfl rfl <;> simp [eq_comm]
  | question =>
    cases hr
    cases hn
    apply courseChild_verdict (n := .question id) (t := db.questions) Iff.rfl rfl rfl <;> simp
  | course =>
    cases hr
    cases hn
    exact course_verdict ctx
  | _ => cases hr

theorem nodeOf_isSome {type : ResourceType} : (nodeOf type).isSome = (resolvers type).isSome := by
  cases type <;> rfl

/-! ## The owner of an attempt -/

def Db.attemptProfile (db : Db) (attemptId : String) : Option CandidateProfileRow :=
  (db.attempts.get attemptId).bind fun a => db.profiles.get a.candidateId

theorem attempt_chain {a : AttemptRow} (ha : db.findAttempt organizationId id = some a) :
    (db.Anchored organizationId (.attempt id) ↔
      ∃ chain, materializeChain (examChain db .attempt a.id a.examId) = some chain ∧
      ∀ o ∈ examOwners db a.organizationId a.examId, o = some organizationId) ∧
    ∀ chain, materializeChain (examChain db .attempt a.id a.examId) = some chain →
      (∀ o ∈ examOwners db a.organizationId a.examId, o = some organizationId) →
      ∀ scope o i, Resolves db (.attempt id) ⟨scope, o, i, chain⟩ := by
  apply examChild_chain (n := .attempt id) (t := db.attempts) Iff.rfl rfl rfl _ _ _ _ ha <;> simp

theorem score_verdict (db : Db) (id : String) (ctx : ResolverContext) :
    Verdict (db.owner (.attempt id) = some ctx.organizationId)
      (db.Anchored ctx.organizationId (.attempt id))
      (fun r : OwnedScope => Resolves db (.attempt id) r.toResolvedScope ∧ r.scope = .ownScore ∧
        r.ownerUserId = (db.attemptProfile id).map (·.userId))
      ((resolveScoreScope ctx id (some db)).mapError DenyReason.denial) := by
  have hfound : db.owner (.attempt id) = some ctx.organizationId ↔ _ :=
    owner_found (t := db.attempts) rfl
  unfold resolveScoreScope
  cases ha : db.findAttempt ctx.organizationId id with
  | none =>
    simp only [Option.map_some, ha, Option.map_none]
    exact missing_verdict (by rw [hfound]; unfold Db.findAttempt at ha; simp [ha])
      (by simp [anchored_attempt, ha])
  | some a =>
    obtain ⟨hallowed, hgood⟩ := attempt_chain ha
    have hget := (Option.filter_eq_some_iff.mp ha).1
    simp only [Option.map_some, ha, loadChain, orThrow_some, ok_bind]
    apply chain_verdict (hfound.mpr ⟨a, ha⟩) hallowed
    intro chain hchain hids
    exact ⟨hgood chain hchain hids _ _ _, rfl, by simp [Db.attemptProfile, hget]⟩

theorem ownAttempt_verdict (db : Db) (id : String) (ctx : ResolverContext) :
    Verdict (db.owner (.attempt id) = some ctx.organizationId)
      (db.Anchored ctx.organizationId (.attempt id) ∧ ∀ p, db.attemptProfile id = some p →
        p.organizationId = ctx.organizationId)
      (fun r : OwnedScope => r.ownerUserId = (db.attemptProfile id).map (·.userId))
      ((resolveOwnAttemptScope ctx id (some db)).mapError DenyReason.denial) := by
  have hfound : db.owner (.attempt id) = some ctx.organizationId ↔ _ :=
    owner_found (t := db.attempts) rfl
  unfold resolveOwnAttemptScope
  cases ha : db.findAttempt ctx.organizationId id with
  | none =>
    simp only [Option.map_some, ha, Option.map_none]
    exact missing_verdict (by rw [hfound]; unfold Db.findAttempt at ha; simp [ha])
      (by simp [anchored_attempt, ha])
  | some a =>
    obtain ⟨hallowed, -⟩ := attempt_chain ha
    have hget := (Option.filter_eq_some_iff.mp ha).1
    have hprofile : db.attemptProfile id = db.profiles.get a.candidateId := by
      simp [Db.attemptProfile, hget]
    simp only [Option.map_some, ha, loadChain, orThrow_some, ok_bind]
    apply guarded_verdict (hfound.mpr ⟨a, ha⟩)
    · rw [hallowed, and_comm, hprofile]
      apply and_congr_left'
      cases db.profiles.get a.candidateId <;> simp
    · intro chain
      rw [hprofile]

theorem eligibility_verdict (db : Db) (id : String) (ctx : ResolverContext) :
    Verdict (db.owner (.exam id) = some ctx.organizationId) (db.Anchored ctx.organizationId (.exam id))
      (fun r : ExamEligibilityResolvedScope => r.ownership =
        ⟨(db.findProfile ctx.organizationId ctx.actorId).map (·.id),
          (db.findProfile ctx.organizationId ctx.actorId).map (·.userId),
          ((db.findProfile ctx.organizationId ctx.actorId).bind fun p => db.findEnrollment
              ctx.organizationId id p.id).map (·.id)⟩)
      ((resolveExamEligibilityScope ctx id (some db)).mapError DenyReason.denial) := by
  have hfound : db.owner (.exam id) = some ctx.organizationId ↔ _ := owner_found (t := db.exams) rfl
  unfold resolveExamEligibilityScope
  cases he : db.findExam ctx.organizationId id with
  | none =>
    simp only [Option.map_some, he, Option.map_none]
    exact missing_verdict (by rw [hfound]; unfold Db.findExam at he; simp [he])
      (by simp [anchored_exam, he])
  | some e =>
    have hget := (Option.filter_eq_some_iff.mp he).1
    simp only [Option.map_some, he, loadChain, orThrow_some, ok_bind, Table.key_get hget]
    -- the query only joins a profile of the organization
    have hown : (db.findProfile ctx.organizationId ctx.actorId).all
        (·.organizationId = ctx.organizationId) = true := by
      cases hp : db.findProfile ctx.organizationId ctx.actorId with
      | none => rfl
      | some p =>
        have hq := List.find?_some hp
        simp only [decide_eq_true_eq] at hq
        simp [hq.1]
    apply guarded_verdict (hfound.mpr ⟨e, he⟩)
    · rw [and_iff_right hown]
      have hallowed := courseChild_allowed (n := .exam id) (t := db.exams) .exam Iff.rfl rfl rfl he
      rw [Table.key_get hget] at hallowed
      exact hallowed
    · intro chain
      rfl

end

end ExamSystem.Authz
