import ExamSystem.AnswerValidation
import ExamSystem.StoredAnswers

/-!
# Edits reach the store

What a visit to the exam page keeps true of one question: which saves are on
their way, which keys and versions they carry, and what a reply still to come
says about the store. From it, what a clean flush means for the last edit.
-/

namespace ExamSystem

open Tx

/-- The canonical form of an answer to a question of a snapshot, when it has one. -/
def canonicalAnswer (validateAnswerForQuestion : QuestionSnapshot → CanonicalizeAnswer)
    (questions : List QuestionSnapshot) (questionId : String) (answer : Json) : Option Json :=
  (findSnapshotQuestion questions questionId).bind fun question =>
    (validateAnswerForQuestion question answer).toOption

/-! ## The messages of one question -/

namespace Visit

def sent (v : Visit) (q : String) : List SentSave := v.requests.filter fun s => s.request.questionId = q

def answered (v : Visit) (q : String) : List SaveReply := v.replies.filter fun r => r.questionId = q

theorem mem_sent {v : Visit} {q : String} {s : SentSave} :
    s ∈ v.sent q ↔ s ∈ v.requests ∧ s.request.questionId = q := by
  simp [sent]

theorem mem_answered {v : Visit} {q : String} {r : SaveReply} :
    r ∈ v.answered q ↔ r ∈ v.replies ∧ r.questionId = q := by
  simp [answered]

@[simp] theorem setQuestion_same (v : Visit) (q : String) (p : QuestionPage) :
    (v.setQuestion q p).questions q = p := by
  simp [setQuestion]

theorem setQuestion_other (v : Visit) {q q' : String} (p : QuestionPage) (h : q' ≠ q) :
    (v.setQuestion q p).questions q' = v.questions q' := by
  simp [setQuestion, h]

theorem proceed_cons {v : Visit} {q : String} {p : QuestionPage} {e : QueuedSave Json}
    {rest : List (QueuedSave Json)} (hv : v.canSave = true) (hp : p.queue.inflight = e :: rest) :
    v.proceed q p =
      { v.setQuestion q { p with
          clientSeq := p.clientSeq + 1
          queue := p.queue.setStatus e.generation .inflight } with
        requests := v.requests ++ [
          { generation := e.generation
            request :=
              { attemptId := v.attemptId
                questionId := q
                answer := e.save
                clientSeq := p.clientSeq + 1
                baseVersion := p.version } }] } := by
  have hqueue : { p.queue.setStatus e.generation .inflight with inflight := e :: rest } =
      p.queue.setStatus e.generation .inflight := by
    rw [← hp]
    unfold SaveQueue.setStatus
    split <;> rfl
  simp only [proceed, hv, hp, QuestionPage.execute, if_true, hqueue]
  rfl

theorem proceed_sent {v : Visit} {q : String} {p : QuestionPage} {e : QueuedSave Json}
    {rest : List (QueuedSave Json)} (hv : v.canSave = true) (hp : p.queue.inflight = e :: rest) :
    (v.proceed q p).sent q = v.sent q ++ [
      { generation := e.generation
        request :=
          { attemptId := v.attemptId
            questionId := q
            answer := e.save
            clientSeq := p.clientSeq + 1
            baseVersion := p.version } }] := by
  rw [proceed_cons hv hp, sent, List.filter_append]
  simp [sent]

theorem proceed_nil {v : Visit} {q : String} {p : QuestionPage} (hp : p.queue.inflight = []) :
    v.proceed q p = v.setQuestion q p := by
  have hqueue : { p.queue with inflight := [] } = p.queue := by rw [← hp]
  simp only [proceed, hp, QuestionPage.execute, hqueue]
  simp [setQuestion]

theorem proceed_questions_other (v : Visit) {q q' : String} (p : QuestionPage) (h : q' ≠ q) :
    (v.proceed q p).questions q' = v.questions q' := v.setQuestion_other _ h

theorem proceed_sent_other (v : Visit) {q q' : String} (p : QuestionPage) (h : q' ≠ q) :
    (v.proceed q p).sent q' = v.sent q' := by
  have hnone : ∀ l : List SaveDraft, ((l.map fun d : SaveDraft =>
      ({ generation := d.generation
         request :=
          { attemptId := v.attemptId
            questionId := q
            answer := d.answer
            clientSeq := d.clientSeq
            baseVersion := d.baseVersion } } : SentSave)).filter fun s =>
              s.request.questionId = q') = [] := by
    intro l
    rw [List.filter_eq_nil_iff]
    intro s hm
    obtain ⟨d, -, rfl⟩ := List.mem_map.mp hm
    simpa using h.symm
  unfold sent
  refine (List.filter_append _ _).trans ?_
  rw [hnone, List.append_nil]

end Visit

theorem QuestionPage.receive_cases (p : QuestionPage) (response : SaveAnswerResponse) :
    (∃ n t, response = .accepted n t ∧ p.receive response = ({ p with version := n }, true)) ∨
      (∃ n t w, response = .rejected .staleVersion n t (some w) ∧
        p.receive response = ({ p with version := n, answer := some w }, true)) ∨
      p.receive response = (p, false) := by
  unfold QuestionPage.receive
  split
  · exact .inl ⟨_, _, rfl, rfl⟩
  · exact .inr (.inl ⟨_, _, _, rfl, rfl⟩)
  · exact .inr (.inr rfl)

/-! ## The invariant of one question -/

/-- The server stores the answer, and no request on its way can replace it. -/
structure Holds (q : String) (v : Visit) (answer : Json) : Prop where
  stored : v.db.storedAnswer v.attemptId q = some answer
  bases : ∀ s ∈ v.sent q, s.request.baseVersion < v.db.storedVersion v.attemptId q

section
variable (canonical : Json → Option Json) (q : String)

/-- A reply to the save of an answer tells the page what the server stores. -/
def Tells (v : Visit) (answer : Json) : SaveAnswerResponse → Prop
  | .accepted version _ =>
    version = v.db.storedVersion v.attemptId q ∧ ∃ w, canonical answer = some w ∧ Holds q v w
  | .rejected .staleVersion version _ (some w) => version = v.db.storedVersion v.attemptId q ∧
      Holds q v w
  | .rejected _ _ _ _ => True

structure QuestionSound (v : Visit) : Prop where
  queue : (v.questions q).queue.Sound
  sent_generation : ∀ s ∈ v.sent q, s.generation ≤ (v.questions q).queue.generation
  reply_generation : ∀ r ∈ v.answered q, r.generation ≤ (v.questions q).queue.generation
  keys : ((v.sent q).map (·.request.clientSeq)).Nodup
  fresh : ∀ s ∈ v.sent q, v.db.findAnswerReceipt v.attemptId q s.request.clientSeq = none
  sent_seq : ∀ s ∈ v.sent q, s.request.clientSeq ≤ (v.questions q).clientSeq
  known_seq : ∀ n, v.db.findAnswerReceipt v.attemptId q n ≠ none → n ≤ (v.questions q).clientSeq
  base_le : ∀ s ∈ v.sent q, s.request.baseVersion ≤ (v.questions q).version
  version_le : (v.questions q).version ≤ v.db.storedVersion v.attemptId q
  /-- The save scheduled last is of the answer entered last. -/
  edited : ∀ x, v.entered q = some x → q ∈ v.touched ∧ (v.questions q).queue.status ≠ .idle ∧
    ∀ e ∈ (v.questions q).queue.chain, e.generation = (v.questions q).queue.generation →
    canonical e.save = canonical x
  saved : (v.questions q).queue.status = .saved → ∀ x, v.entered q = some x →
    ∃ w, canonical x = some w ∧ Holds q v w

structure Paused (v : Visit) : Prop extends QuestionSound canonical q v where
  sent_lt : ∀ s ∈ v.sent q, ∀ w ∈ (v.questions q).queue.chain, s.generation < w.generation
  reply_lt : ∀ r ∈ v.answered q, ∀ w ∈ (v.questions q).queue.chain, r.generation < w.generation

/-- While the head of the chain executes: its request carries its answer and the
page's version, and its reply tells what is stored. -/
structure Running (v : Visit) : Prop extends QuestionSound canonical q v where
  sent_lt : ∀ s ∈ v.sent q, ∀ w ∈ (v.questions q).queue.waiting, s.generation < w.generation
  reply_lt : ∀ r ∈ v.answered q, ∀ w ∈ (v.questions q).queue.waiting, r.generation < w.generation
  sent_head : ∀ e, (v.questions q).queue.inflight.head? = some e →
    ∀ s ∈ v.sent q, s.generation = e.generation →
    s.request.answer = e.save ∧ s.request.baseVersion = (v.questions q).version
  reply_head : ∀ e, (v.questions q).queue.inflight.head? = some e →
    ∀ r ∈ v.answered q, r.generation = e.generation →
    Tells canonical q v e.save r.response

end

/-! ## One event at a time -/

section
variable {canonical : Json → Option Json} {q : String} {v v' : Visit}

theorem Holds.mono {w : Json} (h : Holds q v w) (hid : v'.attemptId = v.attemptId)
    (hk : Keeps v.db v'.db v.attemptId q) (hs : (v'.sent q).Sublist (v.sent q)) : Holds q v' w := by
  refine ⟨?_, fun s hm => ?_⟩
  · rw [hid, hk.answer]
    exact h.stored
  · rw [hid, hk.version]
    exact h.bases s (hs.subset hm)

theorem Tells.mono {answer : Json} {response : SaveAnswerResponse}
    (h : Tells canonical q v answer response)
    (hholds : ∀ w, Holds q v w →
      v'.db.storedVersion v'.attemptId q = v.db.storedVersion v.attemptId q ∧ Holds q v' w) :
    Tells canonical q v' answer response := by
  unfold Tells at h ⊢
  split at h
  · obtain ⟨hv, w, hw, hh⟩ := h
    obtain ⟨hversion, hh'⟩ := hholds w hh
    exact ⟨hv.trans hversion.symm, w, hw, hh'⟩
  · obtain ⟨hversion, hh'⟩ := hholds _ h.2
    exact ⟨h.1.trans hversion.symm, hh'⟩
  · trivial

/-- An event that leaves the page of a question alone: it may drop messages, and
turn a request into its reply. -/
theorem Running.change (h : Running canonical q v) (hp : v'.questions q = v.questions q)
    (he : v'.entered q = v.entered q) (ht : q ∈ v.touched → q ∈ v'.touched)
    (hs : (v'.sent q).Sublist (v.sent q))
    (hr : ∀ r ∈ v'.answered q, r ∈ v.answered q ∨ ∃ s ∈ v.sent q, r.generation = s.generation ∧
      ∀ e, (v.questions q).queue.inflight.head? = some e → s.generation = e.generation →
      Tells canonical q v' e.save r.response)
    (hfresh : ∀ s ∈ v'.sent q, v'.db.findAnswerReceipt v'.attemptId q s.request.clientSeq = none)
    (hknown : ∀ n, v'.db.findAnswerReceipt v'.attemptId q n ≠ none → n ≤ (v.questions q).clientSeq)
    (hversion : (v.questions q).version ≤ v'.db.storedVersion v'.attemptId q)
    (hholds : ∀ w, Holds q v w →
      v'.db.storedVersion v'.attemptId q = v.db.storedVersion v.attemptId q ∧ Holds q v' w) :
    Running canonical q v' := by
  constructor
  case toQuestionSound =>
    constructor
    case queue => rw [hp]; exact h.queue
    case sent_generation => rw [hp]; exact fun s hm => h.sent_generation s (hs.subset hm)
    case reply_generation =>
      rw [hp]
      intro r hm
      rcases hr r hm with hm | ⟨s, hm, hg, -⟩
      · exact h.reply_generation r hm
      · exact hg ▸ h.sent_generation s hm
    case keys => exact h.keys.sublist (hs.map _)
    case fresh => exact hfresh
    case sent_seq => rw [hp]; exact fun s hm => h.sent_seq s (hs.subset hm)
    case known_seq => rw [hp]; exact hknown
    case base_le => rw [hp]; exact fun s hm => h.base_le s (hs.subset hm)
    case version_le => rw [hp]; exact hversion
    case edited =>
      intro x hx
      rw [he] at hx
      obtain ⟨htouched, hstatus, hchain⟩ := h.edited x hx
      rw [hp]
      exact ⟨ht htouched, hstatus, hchain⟩
    case saved =>
      intro hsaved x hx
      rw [hp] at hsaved
      rw [he] at hx
      obtain ⟨w, hw, hh⟩ := h.saved hsaved x hx
      exact ⟨w, hw, (hholds w hh).2⟩
  case sent_lt => rw [hp]; exact fun s hm => h.sent_lt s (hs.subset hm)
  case reply_lt =>
    rw [hp]
    intro r hm w hw
    rcases hr r hm with hm | ⟨s, hm, hg, -⟩
    · exact h.reply_lt r hm w hw
    · exact hg ▸ h.sent_lt s hm w hw
  case sent_head => rw [hp]; exact fun e hhead s hm => h.sent_head e hhead s (hs.subset hm)
  case reply_head =>
    rw [hp]
    intro e hhead r hm hg
    rcases hr r hm with hm | ⟨s, -, hg', htells⟩
    · exact (h.reply_head e hhead r hm hg).mono hholds
    · exact htells e hhead (hg'.symm.trans hg)

/-- An event that also leaves the stored answer of the question alone. -/
theorem Running.frame (h : Running canonical q v) (hp : v'.questions q = v.questions q)
    (he : v'.entered q = v.entered q) (ht : q ∈ v.touched → q ∈ v'.touched)
    (hid : v'.attemptId = v.attemptId) (hk : Keeps v.db v'.db v.attemptId q)
    (hs : (v'.sent q).Sublist (v.sent q))
    (hr : ∀ r ∈ v'.answered q, r ∈ v.answered q ∨ ∃ s ∈ v.sent q, r.generation = s.generation ∧
      ∀ e, (v.questions q).queue.inflight.head? = some e → s.generation = e.generation →
      Tells canonical q v' e.save r.response) : Running canonical q v' := by
  apply h.change hp he ht hs hr
  · intro s hm
    rw [hid, hk.receipts]
    exact h.fresh s (hs.subset hm)
  · intro n hn
    rw [hid, hk.receipts] at hn
    exact h.known_seq n hn
  · rw [hid, hk.version]
    exact h.version_le
  · exact fun w hh => ⟨by rw [hid, hk.version], hh.mono hid hk hs⟩

theorem Running.schedule (h : Running canonical q v) {answer : Json} {entered : String → Option Json}
    (hanswer : ∀ x, entered q = some x → canonical answer = canonical x) :
    Running canonical q { v.schedule q answer with entered := entered } := by
  have hp : (v.schedule q answer).questions q = (v.questions q).saveAnswer answer :=
    v.setQuestion_same _ _
  have hlt : ∀ w ∈ ((v.questions q).queue.scheduleSave answer).waiting,
      w ∈ (v.questions q).queue.waiting ∨ w.generation = (v.questions q).queue.generation + 1 := by
    intro w hw
    rcases List.mem_append.mp hw with hw | hw
    · exact .inl (List.mem_append.mpr (.inl hw))
    · rw [List.mem_singleton.mp hw]
      exact .inr rfl
  constructor
  case toQuestionSound =>
    constructor
    case queue => rw [hp]; exact h.queue.scheduleSave answer
    case sent_generation => rw [hp]; exact fun s hm => Nat.le_succ_of_le (h.sent_generation s hm)
    case reply_generation => rw [hp]; exact fun r hm => Nat.le_succ_of_le (h.reply_generation r hm)
    case keys => exact h.keys
    case fresh => exact h.fresh
    case sent_seq => rw [hp]; exact h.sent_seq
    case known_seq => rw [hp]; exact h.known_seq
    case base_le => rw [hp]; exact h.base_le
    case version_le => rw [hp]; exact h.version_le
    case edited =>
      intro x hx
      rw [hp]
      refine ⟨?_, by simp [QuestionPage.saveAnswer, SaveQueue.scheduleSave], ?_⟩
      · show q ∈ if q ∈ v.touched then v.touched else v.touched ++ [q]
        split
        · assumption
        · simp
      · intro e hm hg
        rcases List.mem_append.mp hm with hm | hm
        · have hle := h.queue.bounded e (List.mem_append.mpr (.inl hm))
          replace hg : e.generation = (v.questions q).queue.generation + 1 := hg
          omega
        · rw [List.mem_singleton.mp hm]
          exact hanswer x hx
    case saved =>
      intro hsaved
      rw [hp] at hsaved
      cases hsaved
  case sent_lt =>
    rw [hp]
    intro s hm w hw
    rcases hlt w hw with hw | hw
    · exact h.sent_lt s hm w hw
    · have := h.sent_generation s hm
      omega
  case reply_lt =>
    rw [hp]
    intro r hm w hw
    rcases hlt w hw with hw | hw
    · exact h.reply_lt r hm w hw
    · have := h.reply_generation r hm
      omega
  case sent_head => rw [hp]; exact h.sent_head
  case reply_head =>
    rw [hp]
    exact fun e hhead r hm hg => (h.reply_head e hhead r hm hg).mono fun w hh => ⟨rfl,
      hh.stored, hh.bases⟩

/-- The executing save settles. When it was the one scheduled last and did not
fail, the store holds the answer entered last. -/
theorem Running.settle (h : Running canonical q v) {e : QueuedSave Json} {rest : List (QueuedSave Json)}
    (he : (v.questions q).queue.inflight = e :: rest) {p : QuestionPage} {ok : Bool}
    (hqueue : p.queue = (v.questions q).queue) (hseq : p.clientSeq = (v.questions q).clientSeq)
    (hbase : ∀ s ∈ v.sent q, s.request.baseVersion ≤ p.version)
    (hversion : p.version ≤ v.db.storedVersion v.attemptId q)
    (hok : ok = true → e.generation = (v.questions q).queue.generation → ∀ x, v.entered q = some x →
      ∃ w, canonical x = some w ∧ Holds q v w) :
    Paused canonical q (v.setQuestion q { p with queue := p.queue.settle ok }) := by
  have hp : (v.setQuestion q { p with queue := p.queue.settle ok }).questions q =
      { p with queue := (v.questions q).queue.settle ok } := by rw [Visit.setQuestion_same, hqueue]
  have hchain := SaveQueue.settle_chain he ok
  have hgeneration := SaveQueue.settle_generation he ok
  have hstatus := SaveQueue.settle_status he ok
  constructor
  case toQuestionSound =>
    constructor
    case queue => rw [hp]; exact h.queue.settle he ok
    case sent_generation =>
      rw [hp]
      exact fun s hm => hgeneration.symm ▸ h.sent_generation s hm
    case reply_generation =>
      rw [hp]
      exact fun r hm => hgeneration.symm ▸ h.reply_generation r hm
    case keys => exact h.keys
    case fresh => exact h.fresh
    case sent_seq =>
      rw [hp]
      exact fun s hm => hseq.symm ▸ h.sent_seq s hm
    case known_seq =>
      rw [hp]
      exact fun n hn => hseq.symm ▸ h.known_seq n hn
    case base_le => rw [hp]; exact hbase
    case version_le => rw [hp]; exact hversion
    case edited =>
      intro x hx
      obtain ⟨htouched, hidle, hsaves⟩ := h.edited x hx
      rw [hp]
      refine ⟨htouched, ?_, ?_⟩
      · show ((v.questions q).queue.settle ok).status ≠ .idle
        rw [hstatus]
        split
        · cases ok <;> simp
        · exact hidle
      · intro w hw hg
        replace hw : w ∈ ((v.questions q).queue.settle ok).chain := hw
        rw [hchain] at hw
        exact hsaves w (SaveQueue.waiting_subset_chain _ hw) (hg.trans hgeneration)
    case saved =>
      intro hsaved x hx
      rw [hp] at hsaved
      replace hsaved : ((v.questions q).queue.settle ok).status = .saved := hsaved
      rw [hstatus] at hsaved
      by_cases hg : e.generation = (v.questions q).queue.generation
      · rw [if_pos hg] at hsaved
        have hok' : ok = true := by
          cases ok
          · cases hsaved
          · rfl
        obtain ⟨w, hw, hholds⟩ := hok hok' hg x hx
        exact ⟨w, hw, hholds.stored, hholds.bases⟩
      · rw [if_neg hg] at hsaved
        obtain ⟨w, hw, hholds⟩ := h.saved hsaved x hx
        exact ⟨w, hw, hholds.stored, hholds.bases⟩
  case sent_lt =>
    rw [hp]
    intro s hm w hw
    replace hw : w ∈ ((v.questions q).queue.settle ok).chain := hw
    rw [hchain] at hw
    exact h.sent_lt s hm w hw
  case reply_lt =>
    rw [hp]
    intro r hm w hw
    replace hw : w ∈ ((v.questions q).queue.settle ok).chain := hw
    rw [hchain] at hw
    exact h.reply_lt r hm w hw

/-- The next save of the chain starts to execute: its request has a new key and
the page's version. -/
theorem Paused.proceed {p : QuestionPage} (h : Paused canonical q (v.setQuestion q p))
    (hv : v.canSave = true) :
    Running canonical q (v.proceed q p) := by
  have hp := v.setQuestion_same q p
  cases hi : p.queue.inflight with
  | nil =>
    rw [Visit.proceed_nil hi]
    have hsub := SaveQueue.waiting_subset_chain ((v.setQuestion q p).questions q).queue
    refine ⟨h.toQuestionSound, fun s hm w hw => h.sent_lt s hm w (hsub hw),
      fun r hm w hw => h.reply_lt r hm w (hsub hw), ?_, ?_⟩
    all_goals
      intro e hhead
      rw [hp, hi] at hhead
      cases hhead
  | cons e rest =>
    have hpage : (v.proceed q p).questions q =
        { p with clientSeq := p.clientSeq + 1, queue := p.queue.setStatus e.generation .inflight } := by
      rw [Visit.proceed_cons hv hi]
      exact v.setQuestion_same _ _
    have hsent := Visit.proceed_sent (q := q) hv hi
    have hdb : (v.proceed q p).db = v.db := by rw [Visit.proceed_cons hv hi]; rfl
    have hid : (v.proceed q p).attemptId = v.attemptId := by rw [Visit.proceed_cons hv hi]; rfl
    have hanswered : (v.proceed q p).answered q = v.answered q := by rw [Visit.proceed_cons hv hi]; rfl
    have hmem : e ∈ p.queue.chain := List.mem_append.mpr (.inl (by simp [hi]))
    have hqueue := h.queue
    have hsent_generation := h.sent_generation
    have hreply_generation := h.reply_generation
    have hsent_seq := h.sent_seq
    have hknown_seq := h.known_seq
    have hbase := h.base_le
    have hversion := h.version_le
    have hsent_lt := h.sent_lt
    have hreply_lt := h.reply_lt
    simp only [hp] at hqueue hsent_generation hreply_generation hsent_seq hknown_seq
    simp only [hp] at hbase hversion hsent_lt hreply_lt
    -- the queue is not settled: this save is in flight
    have hstatus : (p.queue.setStatus e.generation .inflight).status ≠ .saved := by
      intro hs
      have hnil := (hqueue.setStatus e.generation (s := .inflight) (by simp)).settled hs
      rw [SaveQueue.setStatus_chain] at hnil
      rw [hnil] at hmem
      cases hmem
    constructor
    case toQuestionSound =>
      constructor
      case queue => rw [hpage]; exact hqueue.setStatus e.generation (by simp)
      case sent_generation =>
        rw [hpage, hsent]
        intro s hm
        simp only [SaveQueue.setStatus_generation]
        rcases List.mem_append.mp hm with hm | hm
        · exact hsent_generation s hm
        · rw [List.mem_singleton.mp hm]
          exact hqueue.bounded e hmem
      case reply_generation =>
        rw [hpage, hanswered]
        simp only [SaveQueue.setStatus_generation]
        exact hreply_generation
      case keys =>
        rw [hsent, List.map_append, List.nodup_append]
        refine ⟨h.keys, List.nodup_singleton _, ?_⟩
        intro n hn n' hn'
        obtain ⟨s, hm, rfl⟩ := List.mem_map.mp hn
        rw [List.mem_singleton.mp hn']
        have := hsent_seq s hm
        show s.request.clientSeq ≠ p.clientSeq + 1
        omega
      case fresh =>
        rw [hsent, hdb, hid]
        intro s hm
        rcases List.mem_append.mp hm with hm | hm
        · exact h.fresh s hm
        · rw [List.mem_singleton.mp hm]
          by_contra hknown
          have := hknown_seq (p.clientSeq + 1) hknown
          omega
      case sent_seq =>
        rw [hpage, hsent]
        intro s hm
        rcases List.mem_append.mp hm with hm | hm
        · have := hsent_seq s hm
          show s.request.clientSeq ≤ p.clientSeq + 1
          omega
        · rw [List.mem_singleton.mp hm]
      case known_seq =>
        rw [hpage, hdb, hid]
        intro n hn
        have := hknown_seq n hn
        show n ≤ p.clientSeq + 1
        omega
      case base_le =>
        rw [hpage, hsent]
        intro s hm
        rcases List.mem_append.mp hm with hm | hm
        · exact hbase s hm
        · rw [List.mem_singleton.mp hm]
      case version_le => rw [hpage, hdb, hid]; exact hversion
      case edited =>
        intro x hx
        have hx' : v.entered q = some x := by
          rw [Visit.proceed_cons hv hi] at hx
          exact hx
        obtain ⟨htouched, hidle, hsaves⟩ := h.edited x hx'
        rw [hp] at hidle hsaves
        refine ⟨?_, ?_, ?_⟩
        · rw [Visit.proceed_cons hv hi]
          exact htouched
        · rw [hpage]
          show (p.queue.setStatus e.generation .inflight).status ≠ .idle
          unfold SaveQueue.setStatus
          split
          · simp
          · exact hidle
        · rw [hpage]
          simpa using hsaves
      case saved =>
        rw [hpage]
        intro hs
        exact absurd hs hstatus
    case sent_lt =>
      rw [hpage, hsent]
      intro s hm w hw
      simp only [SaveQueue.setStatus_waiting] at hw
      rcases List.mem_append.mp hm with hm | hm
      · exact hsent_lt s hm w (SaveQueue.waiting_subset_chain _ hw)
      · rw [List.mem_singleton.mp hm]
        exact hqueue.head_lt hi hw
    case reply_lt =>
      rw [hpage, hanswered]
      intro r hm w hw
      simp only [SaveQueue.setStatus_waiting] at hw
      exact hreply_lt r hm w (SaveQueue.waiting_subset_chain _ hw)
    case sent_head =>
      rw [hpage, hsent]
      intro e' hhead s hm hg
      obtain rfl : e = e' := by simpa [hi] using hhead
      rcases List.mem_append.mp hm with hm | hm
      · have := hsent_lt s hm e hmem
        omega
      · rw [List.mem_singleton.mp hm]
        exact ⟨rfl, rfl⟩
    case reply_head =>
      rw [hpage, hanswered]
      intro e' hhead r hm hg
      obtain rfl : e = e' := by simpa [hi] using hhead
      have := hreply_lt r hm e hmem
      omega

theorem QuestionSound.fire (h : QuestionSound canonical q v) {queue : SaveQueue Json}
    (hf : (v.questions q).queue.fire = some queue) :
    QuestionSound canonical q (v.setQuestion q { v.questions q with queue := queue }) := by
  have hp := v.setQuestion_same q { v.questions q with queue := queue }
  have hchain := SaveQueue.fire_chain hf
  have hqueue := h.queue.fire hf
  obtain ⟨e, he, rfl⟩ := Option.map_eq_some_iff.mp hf
  constructor
  case queue => rw [hp]; exact hqueue
  case sent_generation => rw [hp]; exact h.sent_generation
  case reply_generation => rw [hp]; exact h.reply_generation
  case keys => exact h.keys
  case fresh => exact h.fresh
  case sent_seq => rw [hp]; exact h.sent_seq
  case known_seq => rw [hp]; exact h.known_seq
  case base_le => rw [hp]; exact h.base_le
  case version_le => rw [hp]; exact h.version_le
  case edited =>
    intro x hx
    obtain ⟨htouched, hidle, hsaves⟩ := h.edited x hx
    rw [hp]
    refine ⟨htouched, hidle, ?_⟩
    rw [hchain]
    exact hsaves
  case saved =>
    intro hs x hx
    rw [hp] at hs
    obtain ⟨w, hw, hholds⟩ := h.saved hs x hx
    exact ⟨w, hw, hholds.stored, hholds.bases⟩

theorem Running.fire_first (h : Running canonical q v) {queue : SaveQueue Json}
    (hf : (v.questions q).queue.fire = some queue) (hi : (v.questions q).queue.inflight = []) :
    Paused canonical q (v.setQuestion q { v.questions q with queue := queue }) := by
  have hp := v.setQuestion_same q { v.questions q with queue := queue }
  have hwaiting : (v.questions q).queue.waiting = queue.chain := by
    rw [SaveQueue.fire_chain hf]
    simp [SaveQueue.waiting, SaveQueue.chain, hi]
  refine ⟨h.toQuestionSound.fire hf, ?_, ?_⟩
  · rw [hp, ← hwaiting]
    exact h.sent_lt
  · rw [hp, ← hwaiting]
    exact h.reply_lt

theorem Running.fire_behind (h : Running canonical q v) {queue : SaveQueue Json}
    (hf : (v.questions q).queue.fire = some queue) (hi : (v.questions q).queue.inflight ≠ []) :
    Running canonical q (v.setQuestion q { v.questions q with queue := queue }) := by
  have hp := v.setQuestion_same q { v.questions q with queue := queue }
  have hsound := h.toQuestionSound.fire hf
  obtain ⟨e, he, hqueue⟩ := Option.map_eq_some_iff.mp hf
  have hinflight : queue.inflight = (v.questions q).queue.inflight ++ [e] := by rw [← hqueue]
  have hwaiting : queue.waiting = (v.questions q).queue.waiting := by
    rw [← hqueue]
    simp [SaveQueue.waiting, he, List.tail_append_of_ne_nil hi]
  have hhead : queue.inflight.head? = (v.questions q).queue.inflight.head? := by
    rw [hinflight, List.head?_append_of_ne_nil _ hi]
  refine ⟨hsound, ?_, ?_, ?_, ?_⟩
  · rw [hp, hwaiting]
    exact h.sent_lt
  · rw [hp, hwaiting]
    exact h.reply_lt
  · rw [hp, hhead]
    exact h.sent_head
  · rw [hp, hhead]
    exact fun x hx r hm hg => (h.reply_head x hx r hm hg).mono fun w hh => ⟨rfl, hh.stored, hh.bases⟩

/-- The server answers a request of the question with a key it does not know. -/
theorem Running.serve (h : Running canonical q v) {s : SentSave} {i : Nat} {db' : Db}
    {reply : SaveReply} {canonicalize : CanonicalizeAnswer} (hs : v.requests[i]? = some s)
    (hq : s.request.questionId = q) (hid : s.request.attemptId = v.attemptId)
    (hserved : Served v.db db' s.request canonicalize reply.response)
    (hreply : reply.generation = s.generation)
    (hcanonical : ∀ w, canonicalize s.request.answer = .ok w → canonical s.request.answer = some w) :
    Running canonical q
      { v with requests := v.requests.eraseIdx i, db := db', replies := v.replies ++ [reply] } := by
  have hmem : s ∈ v.sent q := Visit.mem_sent.mpr ⟨List.mem_of_getElem? hs, hq⟩
  have hbase := h.base_le s hmem
  have hversion := h.version_le
  have hsub : ((v.requests.eraseIdx i).filter fun s => s.request.questionId = q).Sublist (v.sent q) :=
    (List.eraseIdx_sublist _ _).filter _
  have hanswered : ∀ r ∈ (v.replies ++ [reply]).filter fun r => r.questionId = q, r ∈ v.answered q ∨
      r = reply := by
    intro r hm
    rw [List.filter_append] at hm
    rcases List.mem_append.mp hm with hm | hm
    · exact .inl hm
    · exact .inr (List.mem_singleton.mp (List.mem_of_mem_filter hm))
  -- the reply is of the executing save exactly when the request was
  have hhead : ∀ e, (v.questions q).queue.inflight.head? = some e → s.generation = e.generation →
      s.request.answer = e.save ∧ s.request.baseVersion = (v.questions q).version :=
    fun e he hg => h.sent_head e he s hmem hg
  generalize hresponse : reply.response = response at hserved
  subst hq
  rw [← hid] at hversion
  cases hserved with
  | refused hk hreason =>
    refine h.frame rfl rfl id rfl (hid ▸ hk) hsub fun r hm => (hanswered r hm).imp_right ?_
    rintro rfl
    refine ⟨s, hmem, hreply, fun e _ _ => ?_⟩
    rw [hresponse]
    unfold Tells
    split <;> simp_all
  | stale hk hstale =>
    refine h.frame rfl rfl id rfl (hid ▸ hk) hsub fun r hm => (hanswered r hm).imp_right ?_
    rintro rfl
    refine ⟨s, hmem, hreply, fun e he hg => ?_⟩
    rw [hresponse]
    cases hstored : v.db.storedAnswer s.request.attemptId s.request.questionId with
    | none => trivial
    | some w =>
      have hversion' := hk.version
      refine ⟨?_, ?_, ?_⟩
      · rw [← hid]
        exact hversion'.symm
      · show db'.storedAnswer v.attemptId _ = _
        rw [← hid, hk.answer, hstored]
      · intro s' hm
        show _ < (db'.storedVersion v.attemptId _ : Int)
        rw [← hid, hversion']
        have := h.base_le s' (hsub.subset hm)
        have := (hhead e he hg).2
        omega
  | @accepted t w hcurrent hok hanswer hnext hreceipts =>
    rw [hid] at hcurrent hanswer hnext hreceipts hversion
    have hother : ∀ s' ∈ (v.requests.eraseIdx i).filter fun r =>
        r.request.questionId = s.request.questionId,
        s'.request.clientSeq ≠ s.request.clientSeq := by
      obtain ⟨hi, hget⟩ := List.getElem?_eq_some_iff.mp hs
      have hperm := (List.getElem_cons_eraseIdx_perm hi).filter fun r =>
        r.request.questionId = s.request.questionId
      rw [hget, List.filter_cons_of_pos (by simp)] at hperm
      have hnodup := ((hperm.map fun r => r.request.clientSeq).nodup_iff).mpr h.keys
      rw [List.map_cons, List.nodup_cons] at hnodup
      intro s' hm he
      exact hnodup.1 (List.mem_map.mpr ⟨s', hm, he⟩)
    refine h.change rfl rfl id hsub ?_ ?_ ?_ ?_ ?_
    · refine fun r hm => (hanswered r hm).imp_right ?_
      rintro rfl
      refine ⟨s, hmem, hreply, fun e he hg => ?_⟩
      rw [hresponse, hid]
      refine ⟨hnext.symm, w, ?_, hanswer, ?_⟩
      · rw [← (hhead e he hg).1]
        exact hcanonical w hok
      · intro s' hm
        show _ < (db'.storedVersion v.attemptId _ : Int)
        rw [hnext]
        have := h.base_le s' (hsub.subset hm)
        push_cast
        omega
    · intro s' hm
      exact (hreceipts _ (hother s' hm)).trans (h.fresh s' (hsub.subset hm))
    · intro n hn
      by_cases hseq : n = s.request.clientSeq
      · rw [hseq]
        exact h.sent_seq s hmem
      · rw [hreceipts n hseq] at hn
        exact h.known_seq n hn
    · show _ ≤ db'.storedVersion v.attemptId _
      rw [hnext]
      omega
    · -- what the store held was safe from this request
      intro x hh
      have := hh.bases s hmem
      omega

/-- The page takes the response to the executing save. The server's answer may
end the save scheduled last only when it is the answer entered last. -/
theorem Running.receive (h : Running canonical q v) {e : QueuedSave Json}
    {rest : List (QueuedSave Json)} (he : (v.questions q).queue.inflight = e :: rest)
    {response : SaveAnswerResponse} (htells : Tells canonical q v e.save response)
    (hfaithful : e.generation = (v.questions q).queue.generation → ∀ w ∈ response.adopted, ∀ x,
        v.entered q = some x → canonical x = some w) :
    Paused canonical q (v.setQuestion q
      { ((v.questions q).receive response).1 with
        queue := ((v.questions q).receive response).1.queue.settle
          ((v.questions q).receive response).2 }) := by
  have hbases : ∀ w, Holds q v w →
      ∀ s ∈ v.sent q, s.request.baseVersion ≤ v.db.storedVersion v.attemptId q :=
    fun w hh s hm => (hh.bases s hm).le
  rcases (v.questions q).receive_cases response with ⟨n, t, rfl, hp⟩ | ⟨n, t, w, rfl, hp⟩ | hp
  · obtain ⟨rfl, w, hw, hh⟩ := htells
    rw [hp]
    refine h.settle he rfl rfl (hbases w hh) (Nat.le_refl _) fun _ hg x hx => ⟨w, ?_, hh⟩
    rw [← (h.edited x hx).2.2 e (List.mem_append.mpr (.inl (by simp [he]))) hg]
    exact hw
  · obtain ⟨rfl, hh⟩ := htells
    rw [hp]
    exact h.settle he rfl rfl (hbases w hh) (Nat.le_refl _) fun _ hg x hx => ⟨w,
      hfaithful hg w rfl x hx, hh⟩
  · rw [hp]
    exact h.settle he rfl rfl h.base_le h.version_le fun hok => by cases hok

end

/-! ## Runs -/

structure Serving (a : ExamAttempt) (v : Visit) : Prop where
  same : v.attemptId = a.id
  saves : v.canSave = true
  attempt : ∃ b, v.db.findAttempt v.attemptId = some b ∧ b.questionSnapshot = a.questionSnapshot
  addressed : ∀ s ∈ v.requests, s.request.attemptId = v.attemptId

def Event.InTime [Host] : Event → Visit → Prop
  | .serve _ now, v => TakesSaves v.db v.attemptId now
  | _, _ => True

/-- The page never takes an answer of the server for the one entered last: the
stale response to the save scheduled last holds that answer, and a retry sends it. -/
def Event.Faithful (canonical : Json → Option Json) (q : String) : Event → Visit → Prop
  | .deliver index, v => ∀ r ∈ v.replies[index]?, r.questionId = q →
      r.generation = (v.questions q).queue.generation →
    ∀ w ∈ r.response.adopted, ∀ x ∈ v.entered q, canonical x = some w
  | .retry questionId, v => questionId = q → ∀ y ∈ (v.questions q).answer, ∀ x ∈ v.entered q,
      canonical y = canonical x
  | _, _ => True

instance [Host] : ∀ (e : Event) (v : Visit), Decidable (e.InTime v)
  | .serve _ _, _ => inferInstanceAs (Decidable (TakesSaves _ _ _))
  | .edit _ _, _ | .timer _, _ | .retry _, _ | .deliver _, _ | .fail _, _ =>
    inferInstanceAs (Decidable True)

instance (canonical : Json → Option Json) (q : String) :
    ∀ (e : Event) (v : Visit), Decidable (e.Faithful canonical q v)
  | .deliver _, _ => inferInstanceAs (Decidable (∀ r ∈ _, _))
  | .retry _, _ => inferInstanceAs (Decidable (_ → _))
  | .edit _ _, _ | .timer _, _ | .serve _ _, _ | .fail _, _ => inferInstanceAs (Decidable True)

section
variable {a : ExamAttempt} {canonical : Json → Option Json} {q q' : String} {v : Visit}

theorem Serving.proceed (h : Serving a v) (q : String) (p : QuestionPage) :
    Serving a (v.proceed q p) := by
  refine ⟨h.same, h.saves, h.attempt, fun s hm => ?_⟩
  rcases List.mem_append.mp hm with hm | hm
  · exact h.addressed s hm
  · obtain ⟨d, -, rfl⟩ := List.mem_map.mp hm
    rfl

theorem Running.setQuestion_other (h : Running canonical q v) (p : QuestionPage) (hq : q ≠ q') :
    Running canonical q (v.setQuestion q' p) :=
  h.frame (v.setQuestion_other p hq) rfl id rfl (.refl ..) (List.Sublist.refl _) fun _ hm => .inl hm

theorem Running.proceed_other (h : Running canonical q v) (p : QuestionPage) (hq : q ≠ q') :
    Running canonical q (v.proceed q' p) := by
  refine h.frame (v.proceed_questions_other p hq) rfl id rfl (.refl ..) ?_ fun _ hm => .inl hm
  rw [v.proceed_sent_other p hq]

theorem Running.schedule_any (h : Running canonical q v) {answer : Json}
    {entered : String → Option Json} (hother : q ≠ q' → entered q = v.entered q)
    (hanswer : q = q' → ∀ x, entered q = some x → canonical answer = canonical x) :
    Running canonical q { v.schedule q' answer with entered := entered } := by
  by_cases hq : q = q'
  · subst hq
    exact h.schedule (hanswer rfl)
  · refine h.frame (v.setQuestion_other _ hq) (hother hq) (fun ht => ?_) rfl (.refl ..)
      (List.Sublist.refl _)
      fun _ hm => .inl hm
    show q ∈ if q' ∈ v.touched then v.touched else v.touched ++ [q']
    split
    · exact ht
    · exact List.mem_append.mpr (.inl ht)

end

section
variable {validate : QuestionSnapshot → CanonicalizeAnswer} {a : ExamAttempt} {q q' : String}
    {v v' : Visit} {u : Unit}

structure Tracked (validate : QuestionSnapshot → CanonicalizeAnswer) (a : ExamAttempt) (q : String)
    (v : Visit) : Prop extends Serving a v where
  running : Running (canonicalAnswer validate a.questionSnapshot q) q v

theorem Tracked.proceed (h : Serving a v) {p : QuestionPage}
    (hother : q ≠ q' → Running (canonicalAnswer validate a.questionSnapshot q) q v)
    (hsame : q = q' → Paused (canonicalAnswer validate a.questionSnapshot q) q (v.setQuestion q p)) :
    Tracked validate a q (v.proceed q' p) := by
  refine ⟨h.proceed q' p, ?_⟩
  by_cases hq : q = q'
  · subst hq
    exact (hsame rfl).proceed h.saves
  · exact (hother hq).proceed_other p hq

variable [Host]

theorem Tracked.edit {answer : Json} (h : Tracked validate a q v)
    (hx : Event.step validate (.edit q' answer) v = .ok (u, v')) : Tracked validate a q v' := by
  obtain ⟨⟩ := hx
  refine ⟨⟨h.same, h.saves, h.attempt, h.addressed⟩,
    h.running.schedule_any (fun hq => ?_) fun hq x hx => ?_⟩
  · exact Function.update_of_ne hq _ _
  · subst hq
    rw [Function.update_self] at hx
    obtain rfl := Option.some.inj hx
    rfl

theorem Tracked.timer (h : Tracked validate a q v)
    (hx : Event.step validate (.timer q') v = .ok (u, v')) :
    Tracked validate a q v' := by
  simp only [Event.step, bind_eq_ok, orThrow_eq_ok] at hx
  obtain ⟨queue, hf, hx⟩ := hx
  split at hx
  · rename_i hi
    obtain ⟨-, rfl⟩ := Prod.mk.inj ((pure_eq_ok _ _).mp hx)
    refine .proceed h.toServing (fun _ => h.running) fun hq => ?_
    subst hq
    exact h.running.fire_first hf (by simpa using hi)
  · rename_i hi
    obtain ⟨-, rfl⟩ := Prod.mk.inj ((pure_eq_ok _ _).mp hx)
    refine ⟨⟨h.same, h.saves, h.attempt, h.addressed⟩, ?_⟩
    by_cases hq : q = q'
    · subst hq
      exact h.running.fire_behind hf (by simpa using hi)
    · exact h.running.setQuestion_other _ hq

theorem Tracked.retry (h : Tracked validate a q v)
    (hg : Event.Faithful (canonicalAnswer validate a.questionSnapshot q) q (.retry q') v)
    (hx : Event.step validate (.retry q') v = .ok (u, v')) : Tracked validate a q v' := by
  simp only [Event.step, bind_eq_ok, orThrow_eq_ok, require_eq_ok, exists_const] at hx
  obtain ⟨-, answer, hanswer, hx⟩ := hx
  obtain ⟨-, rfl⟩ := Prod.mk.inj ((pure_eq_ok _ _).mp hx)
  refine ⟨⟨h.same, h.saves, h.attempt, h.addressed⟩,
    h.running.schedule_any (fun _ => rfl) fun hq x hx => ?_⟩
  subst hq
  exact hg rfl answer hanswer x hx

theorem Tracked.deliver {index : Nat} (h : Tracked validate a q v)
    (hg : Event.Faithful (canonicalAnswer validate a.questionSnapshot q) q (.deliver index) v)
    (hx : Event.step validate (.deliver index) v = .ok (u, v')) : Tracked validate a q v' := by
  simp only [Event.step, bind_eq_ok, orThrow_eq_ok, require_eq_ok, exists_const] at hx
  obtain ⟨r, hr, hhead, hx⟩ := hx
  obtain ⟨-, rfl⟩ := Prod.mk.inj ((pure_eq_ok _ _).mp hx)
  have hsub : ∀ q, ((v.replies.eraseIdx index).filter fun r => r.questionId = q).Sublist
      (v.answered q) :=
    fun q => (List.eraseIdx_sublist _ _).filter _
  have hdrop : Running (canonicalAnswer validate a.questionSnapshot q) q
      { v with replies := v.replies.eraseIdx index } :=
    h.running.frame rfl rfl id rfl (.refl ..) (List.Sublist.refl _) fun x hm =>
      .inl ((hsub q).subset hm)
  have hserving : Serving a { v with replies := v.replies.eraseIdx index } :=
    ⟨h.same, h.saves, h.attempt, h.addressed⟩
  refine .proceed hserving (fun _ => hdrop) fun hq => ?_
  subst hq
  obtain ⟨e, he, hgen⟩ := Option.map_eq_some_iff.mp hhead
  obtain ⟨rest, hi⟩ := List.head?_eq_some_iff.mp he
  have htells := h.running.reply_head e he r (Visit.mem_answered.mpr ⟨List.mem_of_getElem? hr,
      rfl⟩) hgen.symm
  refine hdrop.receive hi (htells.mono fun w hh => ⟨rfl, hh.stored, hh.bases⟩) fun hcurrent w
    hw x hx => ?_
  exact hg r hr rfl (hgen.symm.trans hcurrent) w hw x hx

theorem Tracked.fail (h : Tracked validate a q v)
    (hx : Event.step validate (.fail q') v = .ok (u, v')) :
    Tracked validate a q v' := by
  simp only [Event.step, bind_eq_ok, require_eq_ok, exists_const] at hx
  obtain ⟨hne, hx⟩ := hx
  obtain ⟨-, rfl⟩ := Prod.mk.inj ((pure_eq_ok _ _).mp hx)
  refine .proceed h.toServing (fun _ => h.running) fun hq => ?_
  subst hq
  obtain ⟨e, rest, hi⟩ := List.exists_cons_of_ne_nil hne
  exact h.running.settle hi rfl rfl h.running.base_le h.running.version_le fun hok => by cases hok

theorem Tracked.serve {index : Nat} {now : Int} (h : Tracked validate a q v)
    (ht : TakesSaves v.db v.attemptId now)
    (hx : Event.step validate (.serve index now) v = .ok (u, v')) : Tracked validate a q v' := by
  simp only [Event.step, bind_eq_ok, orThrow_eq_ok] at hx
  obtain ⟨s, hs, hx⟩ := hx
  have hsub : ∀ q, ((v.requests.eraseIdx index).filter fun s => s.request.questionId = q).Sublist
      (v.sent q) :=
    fun q => (List.eraseIdx_sublist _ _).filter _
  have haddress := h.addressed s (List.mem_of_getElem? hs)
  have hrest : ∀ s ∈ v.requests.eraseIdx index, s.request.attemptId = v.attemptId :=
    fun s hm => h.addressed s (List.mem_of_mem_eraseIdx hm)
  split at hx
  · rename_i res db' hsave
    obtain ⟨-, rfl⟩ := Prod.mk.inj ((pure_eq_ok _ _).mp hx)
    have ht' : TakesSaves v.db s.request.attemptId now := haddress.symm ▸ ht
    obtain ⟨hothers, hsnapshot⟩ := serve_keeps ht' hsave
    obtain ⟨b, hb, hquestions⟩ := h.attempt
    rw [haddress] at hothers hsnapshot
    refine ⟨⟨h.same, h.saves, ?_, hrest⟩, ?_⟩
    · obtain ⟨b', hb', hq'⟩ := hsnapshot b hb
      exact ⟨b', hb', hq'.trans hquestions⟩
    · by_cases hq : s.request.questionId = q
      · obtain ⟨-, b', question, -, -, hb', hquestion, -⟩ := saveAttempt_ok ht' hsave
        obtain rfl : b = b' := Option.some.inj (hb.symm.trans (haddress ▸ hb'))
        have hfresh := h.running.fresh s (Visit.mem_sent.mpr ⟨List.mem_of_getElem? hs, hq⟩)
        rw [← haddress, ← hq] at hfresh
        have hserved := serve_served ht' hfresh hb' hquestion hsave
        refine h.running.serve hs hq haddress hserved rfl fun w hw => ?_
        rw [hq, hquestions] at hquestion
        simp [canonicalAnswer, hquestion, hw, Except.toOption]
      · have hnew : ∀ reply : SaveReply, reply.questionId = s.request.questionId →
            ∀ r ∈ (v.replies ++ [reply]).filter fun r => r.questionId = q, r ∈ v.answered q := by
          intro reply hreply r hm
          obtain ⟨hm, hrq⟩ := List.mem_filter.mp hm
          rcases List.mem_append.mp hm with hm | hm
          · exact List.mem_filter.mpr ⟨hm, hrq⟩
          · rw [List.mem_singleton.mp hm, hreply] at hrq
            exact absurd (of_decide_eq_true hrq) hq
        exact h.running.frame rfl rfl id rfl (hothers q (Ne.symm hq)) (hsub q) fun r hm =>
          .inl (hnew _ rfl r hm)
  · obtain ⟨-, rfl⟩ := Prod.mk.inj ((pure_eq_ok _ _).mp hx)
    exact ⟨⟨h.same, h.saves, h.attempt, hrest⟩,
      h.running.frame rfl rfl id rfl (.refl ..) (hsub q) fun _ hm => .inl hm⟩

theorem tracked_step (e : Event) (v : Visit) (u : Unit) (v' : Visit) (h : Tracked validate a q v)
    (hg : e.InTime v ∧ e.Faithful (canonicalAnswer validate a.questionSnapshot q) q v)
    (hx : e.step validate v = .ok (u, v')) : Tracked validate a q v' := by
  cases e with
  | edit q' answer => exact h.edit hx
  | timer q' => exact h.timer hx
  | retry q' => exact h.retry hg.2 hx
  | serve index now => exact h.serve hg.1 hx
  | deliver index => exact h.deliver hg.2 hx
  | fail q' => exact h.fail hx

end

/-! ## The page after its load -/

theorem le_findMaxClientSeq {db : Db} {attemptId q : String} {n : Int}
    (h : db.findAnswerReceipt attemptId q n ≠ none) :
    n ≤ (findMaxClientSeq db attemptId q).getD 0 := by
  obtain ⟨r, hr⟩ := Option.ne_none_iff_exists'.mp h
  obtain ⟨hm, rfl⟩ := Db.receiptsOf_found hr
  have hmem : r.clientSeq ∈ (db.receiptsOf attemptId q).map (·.clientSeq) := List.mem_map_of_mem hm
  obtain ⟨m, hmax⟩ := Option.isSome_iff_exists.mp (List.isSome_max?_of_mem hmem)
  rw [findMaxClientSeq, hmax]
  exact (List.max?_eq_some_iff.mp hmax).2 _ hmem

section
variable [Host] {db : Db} {a : ExamAttempt} {accepted : String → Nat} {q : String}

theorem lastRecord_eq (h : AnswersSound db a.id a accepted) (q : String) :
    lastRecord a.answers q = findRecord a.answers q :=
  Rows.row_reverse AnswerRecord.questionId h.one_record q

theorem takeQuestion_inProgress (h : AnswersSound db a.id a accepted) (hstatus : a.status = .inProgress)
    (question : QuestionSnapshot) :
    takeQuestion db a question =
      match findRecord a.answers question.originalQuestionId with
      | some r =>
        { id := question.originalQuestionId
          answerValue := r.answer
          currentClientSeq := findMaxClientSeq db a.id question.originalQuestionId
          currentVersion := some r.version }
      | none =>
        { id := question.originalQuestionId, answerValue := .null, currentClientSeq := none,
          currentVersion := none } := by
  have hlast := lastRecord_eq h question.originalQuestionId
  cases hrecord : findRecord a.answers question.originalQuestionId with
  | none => simp only [takeQuestion, hstatus, hlast, hrecord]
  | some r => simp only [takeQuestion, hstatus, hlast, hrecord]

/-- The page of a question after the load, from the record that is stored for it. -/
theorem load_page (h : AnswersSound db a.id a accepted) (hstatus : a.status = .inProgress)
    {snapshot : CandidateTakeSnapshot}
    (hs : snapshot.questions = a.questionSnapshot.map (takeQuestion db a))
    (hnull : ∀ r, findRecord a.answers q = some r → r.answer ≠ .null) :
    (Visit.load db a snapshot).questions q =
      match findRecord a.answers q with
      | some r =>
        { answer := some r.answer
          version := r.version
          clientSeq := (findMaxClientSeq db a.id q).getD 0
          queue := .empty }
      | none => .empty := by
  have hid : ∀ question, (takeQuestion db a question).id = question.originalQuestionId := by
    intro question
    rw [takeQuestion_inProgress h hstatus]
    split <;> rfl
  have hload : (Visit.load db a snapshot).questions q =
      ((a.questionSnapshot.find? fun question => question.originalQuestionId = q).map fun question =>
        QuestionPage.load (takeQuestion db a question)).getD .empty := by
    simp only [Visit.load, hs, List.find?_map, Function.comp_def, hid, Option.map_map]
  rw [hload]
  cases hfind : a.questionSnapshot.find? fun question => question.originalQuestionId = q with
  | none =>
    cases hrecord : findRecord a.answers q with
    | none => rfl
    | some r =>
      -- a record is of a question of the snapshot
      obtain ⟨question, hm, hq⟩ := h.in_snapshot r (Rows.mem_of_row _ hrecord)
      have := List.find?_eq_none.mp hfind question hm
      simp [hq, Rows.key_of_row _ hrecord] at this
  | some question =>
    have hq : question.originalQuestionId = q := by simpa using List.find?_some hfind
    show QuestionPage.load (takeQuestion db a question) = _
    rw [takeQuestion_inProgress h hstatus, hq]
    cases hrecord : findRecord a.answers q with
    | none => rfl
    | some r =>
      have hvalue : r.answer.isNull = false := by
        cases hr : r.answer <;> first | rfl | exact absurd hr (hnull r hrecord)
      simp [QuestionPage.load, hvalue]

/-- The loaded page knows the version and the keys of a question, unless its
stored answer is null. -/
theorem load_known (h : AnswersSound db a.id a accepted) (hstatus : a.status = .inProgress)
    {snapshot : CandidateTakeSnapshot}
    (hs : snapshot.questions = a.questionSnapshot.map (takeQuestion db a))
    (hnull : ∀ r, findRecord a.answers q = some r → r.answer ≠ .null) :
    ((Visit.load db a snapshot).questions q).version = versionOf a.answers q ∧
      ∀ n, db.findAnswerReceipt a.id q n ≠ none →
      n ≤ ((Visit.load db a snapshot).questions q).clientSeq := by
  rw [load_page h hstatus hs hnull]
  cases hrecord : findRecord a.answers q with
  | some r =>
    refine ⟨?_, fun n hn => le_findMaxClientSeq hn⟩
    rw [versionOf, hrecord]
    rfl
  | none =>
    refine ⟨?_, fun n hn => ?_⟩
    · rw [versionOf, hrecord]
      rfl
    · -- without a record no save was accepted
      obtain ⟨r, hr⟩ := Option.ne_none_iff_exists'.mp hn
      have hversions := h.receipt_versions q
      rw [h.no_record q ((Rows.row_eq_none _).mp hrecord)] at hversions
      have hnil := List.map_eq_nil_iff.mp hversions
      have hm := (Db.receiptsOf_found hr).1
      rw [hnil] at hm
      cases hm

theorem tracked_load {validate : QuestionSnapshot → CanonicalizeAnswer} {loadedAt : Int}
    {snapshot : CandidateTakeSnapshot} (hr : Reachable db) (ha : db.findAttempt a.id = some a)
    (hs : buildCandidateTakeSnapshot db a db.exam loadedAt = .ok snapshot)
    (hsaves : snapshot.canSave = true) (hnull : db.storedAnswer a.id q ≠ some .null) :
    Tracked validate a q (Visit.load db a snapshot) := by
  obtain ⟨accepted, h⟩ := hr.storedSound.sound a.id a ha
  simp only [buildCandidateTakeSnapshot, bind_eq_ok, pure_eq_ok] at hs
  obtain ⟨expired, -, hsnapshot⟩ := hs
  have hquestions : snapshot.questions = a.questionSnapshot.map (takeQuestion db a) := by
    rw [← hsnapshot]
  have hstatus : a.status = .inProgress := by
    rw [← hsnapshot] at hsaves
    simp only [Bool.and_eq_true, beq_iff_eq] at hsaves
    exact hsaves.1
  have hanswer : ∀ r, findRecord a.answers q = some r → r.answer ≠ .null := by
    intro r hrecord hnull'
    refine hnull ?_
    rw [Db.storedAnswer, storedRecord_of_found ha, hrecord, Option.map_some, hnull']
  obtain ⟨hversion, hknown⟩ := load_known h hstatus hquestions hanswer
  have hqueue : ((Visit.load db a snapshot).questions q).queue = .empty := by
    rw [load_page h hstatus hquestions hanswer]
    split <;> rfl
  have hstored : db.storedVersion a.id q = versionOf a.answers q := by
    rw [Db.storedVersion, storedRecord_of_found ha]
    rfl
  have hsent : ∀ s, s ∉ (Visit.load db a snapshot).sent q := fun s hm => by cases hm
  have hanswered : ∀ r, r ∉ (Visit.load db a snapshot).answered q := fun r hm => by cases hm
  refine ⟨⟨rfl, hsaves, ⟨a, ha, rfl⟩, fun s hm => by cases hm⟩, ?_⟩
  constructor
  case toQuestionSound =>
    constructor
    case queue =>
      rw [hqueue]
      exact SaveQueue.empty_sound
    case sent_generation => exact fun s hm => absurd hm (hsent s)
    case reply_generation => exact fun r hm => absurd hm (hanswered r)
    case keys => exact List.nodup_nil
    case fresh => exact fun s hm => absurd hm (hsent s)
    case sent_seq => exact fun s hm => absurd hm (hsent s)
    case known_seq => exact hknown
    case base_le => exact fun s hm => absurd hm (hsent s)
    case version_le => exact (hversion.trans hstored.symm).le
    case edited => exact fun x hx => by cases hx
    case saved => exact fun _ x hx => by cases hx
  case sent_lt => exact fun s hm => absurd hm (hsent s)
  case reply_lt => exact fun r hm => absurd hm (hanswered r)
  case sent_head => exact fun _ _ s hm => absurd hm (hsent s)
  case reply_head => exact fun _ _ r hm => absurd hm (hanswered r)

end

/-! ## A page that may not save -/

structure Locked (v : Visit) : Prop where
  locked : v.canSave = false
  requests : v.requests = []
  replies : v.replies = []
  unsaved : ∀ q, (v.questions q).queue.status ≠ .saved
  edited : ∀ q x, v.entered q = some x → q ∈ v.touched ∧ (v.questions q).queue.status ≠ .idle

theorem QuestionPage.execute_locked : ∀ (l : List (QueuedSave Json)) (p : QuestionPage),
    (p.execute false l).2 = none ∧
      ((p.execute false l).1.queue.status = p.queue.status ∨
        (p.execute false l).1.queue.status = .failed)
  | [], p => ⟨rfl, .inl rfl⟩
  | e :: rest, p => by
    have hstatus : ((p.queue.setStatus e.generation .inflight).setStatus e.generation
        .failed).status = p.queue.status ∨
        ((p.queue.setStatus e.generation .inflight).setStatus e.generation .failed).status =
          .failed := by
      unfold SaveQueue.setStatus
      by_cases hg : p.queue.generation = e.generation <;> simp [hg]
    obtain ⟨hnone, hrest⟩ := execute_locked rest
      { p with queue := (p.queue.setStatus e.generation .inflight).setStatus e.generation .failed }
    refine ⟨hnone, ?_⟩
    rcases hrest with hrest | hrest
    · exact hstatus.imp hrest.trans hrest.trans
    · exact .inr hrest

section
variable {v v' : Visit} {q : String} {u : Unit}

theorem Locked.setQuestion (h : Locked v) {p : QuestionPage} (hsaved : p.queue.status ≠ .saved)
    (hidle : ∀ x, v.entered q = some x → p.queue.status ≠ .idle) : Locked (v.setQuestion q p) := by
  refine ⟨h.locked, h.requests, h.replies, fun q' => ?_, fun q' x hx => ⟨(h.edited q' x hx).1, ?_⟩⟩
  all_goals
    by_cases hq : q' = q
    · subst hq
      rw [Visit.setQuestion_same]
      first | exact hsaved | exact hidle x hx
    · rw [v.setQuestion_other p hq]
      first | exact h.unsaved q' | exact (h.edited q' x hx).2

theorem Locked.proceed (h : Locked v) {p : QuestionPage} (hsaved : p.queue.status ≠ .saved)
    (hidle : ∀ x, v.entered q = some x → p.queue.status ≠ .idle) : Locked (v.proceed q p) := by
  obtain ⟨hnone, hstatus⟩ := p.execute_locked p.queue.inflight
  have hproceed : v.proceed q p = v.setQuestion q (p.execute false p.queue.inflight).1 := by
    simp only [Visit.proceed, h.locked, hnone]
    simp [Visit.setQuestion]
  rw [hproceed]
  apply h.setQuestion
  · rcases hstatus with hs | hs <;> rw [hs]
    · exact hsaved
    · simp
  · intro x hx
    rcases hstatus with hs | hs <;> rw [hs]
    · exact hidle x hx
    · simp

theorem Locked.edit (h : Locked v) (answer : Json) :
    Locked { v.schedule q answer with entered := Function.update v.entered q (some answer) } := by
  have hsame : ((v.schedule q answer).questions q).queue.status = .pending :=
    congrArg (·.queue.status) (v.setQuestion_same q _)
  have hother : ∀ q', q' ≠ q → (v.schedule q answer).questions q' = v.questions q' :=
    fun _ hq => v.setQuestion_other _ hq
  have htouched : ∀ q', q' ∈ v.touched ∨ q' = q → q' ∈ (v.schedule q answer).touched := by
    intro q' hq
    show q' ∈ if q ∈ v.touched then v.touched else v.touched ++ [q]
    rcases hq with hq | rfl <;> split <;> simp_all
  refine ⟨h.locked, h.requests, h.replies, fun q' => ?_, fun q' x hx => ?_⟩
  · show ((v.schedule q answer).questions q').queue.status ≠ .saved
    by_cases hq : q' = q
    · rw [hq, hsame]
      simp
    · rw [hother q' hq]
      exact h.unsaved q'
  · show q' ∈ (v.schedule q answer).touched ∧ ((v.schedule q answer).questions q').queue.status ≠ .idle
    by_cases hq : q' = q
    · refine ⟨htouched q' (.inr hq), ?_⟩
      rw [hq, hsame]
      simp
    · obtain ⟨ht, hidle⟩ := h.edited q' x ((Function.update_of_ne hq _ _).symm.trans hx)
      rw [hother q' hq]
      exact ⟨htouched q' (.inl ht), hidle⟩

theorem locked_step [Host] {validate : QuestionSnapshot → CanonicalizeAnswer} (e : Event)
    (v : Visit) (u : Unit) (v' : Visit) (h : Locked v) (hx : e.step validate v = .ok (u, v')) :
    Locked v' := by
  cases e with
  | edit q answer =>
    obtain ⟨⟩ := hx
    exact h.edit answer
  | timer q =>
    simp only [Event.step, bind_eq_ok, orThrow_eq_ok] at hx
    obtain ⟨queue, hf, hx⟩ := hx
    have hstatus : queue.status = (v.questions q).queue.status := by
      obtain ⟨e, -, rfl⟩ := Option.map_eq_some_iff.mp hf
      rfl
    split at hx
    all_goals
      obtain ⟨-, rfl⟩ := Prod.mk.inj ((pure_eq_ok _ _).mp hx)
      first | apply h.proceed | apply h.setQuestion
      · exact hstatus ▸ h.unsaved q
      · exact fun x hx => hstatus ▸ (h.edited q x hx).2
  | retry q =>
    simp only [Event.step, bind_eq_ok, require_eq_ok, exists_const] at hx
    obtain ⟨⟨hsaves, -⟩, -⟩ := hx
    rw [h.locked] at hsaves
    cases hsaves
  | serve index now =>
    simp [Event.step, h.requests] at hx
  | deliver index =>
    simp [Event.step, h.replies] at hx
  | fail q =>
    simp only [Event.step, bind_eq_ok, require_eq_ok, exists_const] at hx
    obtain ⟨hne, hx⟩ := hx
    obtain ⟨-, rfl⟩ := Prod.mk.inj ((pure_eq_ok _ _).mp hx)
    obtain ⟨e, rest, hi⟩ := List.exists_cons_of_ne_nil hne
    have hstatus := SaveQueue.settle_status hi false
    apply h.proceed
    · rw [hstatus]
      split
      · simp
      · exact h.unsaved q
    · intro x hx
      rw [hstatus]
      split
      · simp
      · exact (h.edited q x hx).2

theorem locked_load {db : Db} {a : ExamAttempt} {snapshot : CandidateTakeSnapshot}
    (h : snapshot.canSave = false) :
    Locked (Visit.load db a snapshot) := by
  refine ⟨h, rfl, rfl, fun q => ?_, fun _ _ hx => by cases hx⟩
  show ((((snapshot.questions.find? fun t => t.id = q).map QuestionPage.load).getD
        .empty).queue.status ≠ .saved)
  cases snapshot.questions.find? fun t => t.id = q with
  | none => simp [QuestionPage.empty, SaveQueue.empty]
  | some t =>
    show (QuestionPage.load t).queue.status ≠ .saved
    unfold QuestionPage.load
    split <;> simp [QuestionPage.empty, SaveQueue.empty]

end

/-! ## A clean flush -/

theorem flush_saved {v : Visit} {q : String} (hpending : v.flushResult.pendingCount = 0)
    (hfailed : v.flushResult.failedQuestionIds = []) (ht : q ∈ v.touched)
    (hidle : (v.questions q).queue.status ≠ .idle) :
    (v.questions q).queue.status = .saved := by
  have hp := List.filter_eq_nil_iff.mp (List.length_eq_zero_iff.mp hpending) q ht
  have hf := List.filter_eq_nil_iff.mp hfailed q ht
  cases hs : (v.questions q).queue.status <;> simp_all

/-- When a flush of a visit reports nothing pending and nothing failed, the
server stores the canonical form of the last answer entered for a question,
provided that the page never took the server's answer for it. -/
theorem clean_flush_stored [Host] (db : Db) (hr : Reachable db) (a : ExamAttempt)
    (ha : db.findAttempt a.id = some a) (loadedAt : Int) (snapshot : CandidateTakeSnapshot)
    (hs : buildCandidateTakeSnapshot db a db.exam loadedAt = .ok snapshot)
    (validate : QuestionSnapshot → CanonicalizeAnswer) (q : String)
    (hnull : db.storedAnswer a.id q ≠ some .null) (es : List Event)
    (hes : Along (Event.step validate) (fun e v => e.InTime v ∧
        e.Faithful (canonicalAnswer validate a.questionSnapshot q) q v)
        (Visit.load db a snapshot) es) :
    let v := run (Event.step validate) (Visit.load db a snapshot) es
    v.flushResult.pendingCount = 0 → v.flushResult.failedQuestionIds = [] → ∀ x, v.entered q = some x →
      ∃ w, canonicalAnswer validate a.questionSnapshot q x = some w ∧
      v.db.storedAnswer a.id q = some w := by
  intro v hpending hfailed x hx
  cases hsaves : snapshot.canSave with
  | true =>
    have h : Tracked validate a q v :=
      run_along _ tracked_step es _ (tracked_load hr ha hs hsaves hnull) hes
    obtain ⟨ht, hidle, -⟩ := h.running.edited x hx
    obtain ⟨w, hw, hholds⟩ := h.running.saved (flush_saved hpending hfailed ht hidle) x hx
    exact ⟨w, hw, h.same ▸ hholds.stored⟩
  | false =>
    have h : Locked v := run_invariant _ locked_step es _ (locked_load hsaves)
    obtain ⟨ht, hidle⟩ := h.edited q x hx
    exact absurd (flush_saved hpending hfailed ht hidle) (h.unsaved q)

/-! ## A sample visit -/

def sampleValidate : QuestionSnapshot → CanonicalizeAnswer :=
  validateAnswerForQuestion fun answer => .ok answer

def sampleTake : CandidateTakeSnapshot :=
  { canSave := true
    questions :=
      [{ id := "q1", answerValue := .null, currentClientSeq := none, currentVersion := none },
       { id := "q2", answerValue := .null, currentClientSeq := none, currentVersion := none }] }

/-- The response to an accepted save is lost, and the retry is stale. -/
def sampleRetried : List Event :=
  [.edit "q2" (.str (js "a")), .timer "q2", .serve 0 1000, .fail "q2", .retry "q2", .timer "q2",
    .serve 0 3000, .deliver 1]

def sampleEdited : List Event :=
  [.edit "q2" (.str (js "a")), .timer "q2", .serve 0 1000, .fail "q2", .edit "q2" (.str (js "b")),
    .timer "q2", .serve 0 3000, .deliver 1]

/-- The retry is answered with the answer itself. -/
theorem clean_flush_stored_sample :
    ∃ w, canonicalAnswer sampleValidate sampleAttempt.questionSnapshot "q2" (.str (js "a")) = some w ∧
      (run (@Event.step sampleHost sampleValidate) (Visit.load sampleDb sampleAttempt sampleTake)
        sampleRetried).db.storedAnswer "attempt" "q2" = some w := by
  exact @clean_flush_stored sampleHost sampleDb sampleDb_reachable sampleAttempt rfl 500 sampleTake
    rfl sampleValidate "q2" (by decide)
    sampleRetried (by decide +kernel) (by decide +kernel) (by decide +kernel) (.str (js "a"))
      (by decide +kernel)

/-- The second answer is lost: the page shows the first one as saved. -/
theorem clean_flush_lost :
    @Reachable sampleHost sampleDb ∧ sampleDb.findAttempt "attempt" = some sampleAttempt ∧
      buildCandidateTakeSnapshot sampleDb sampleAttempt sampleDb.exam 500 = .ok sampleTake ∧
      Along (@Event.step sampleHost sampleValidate) (@Event.InTime sampleHost)
        (Visit.load sampleDb sampleAttempt sampleTake) sampleEdited ∧
      let v := run (@Event.step sampleHost sampleValidate)
        (Visit.load sampleDb sampleAttempt sampleTake) sampleEdited
      v.flushResult = { pendingCount := 0, failedQuestionIds := [] } ∧
        v.entered "q2" = some (.str (js "b")) ∧
        canonicalAnswer sampleValidate sampleAttempt.questionSnapshot "q2"
          (.str (js "b")) = some (.str (js "b")) ∧
        v.db.storedAnswer "attempt" "q2" = some (.str (js "a")) := by
  exact ⟨sampleDb_reachable, rfl,
    rfl, by decide +kernel, by decide +kernel, by decide +kernel, by decide +kernel,
    by decide +kernel⟩

end ExamSystem
