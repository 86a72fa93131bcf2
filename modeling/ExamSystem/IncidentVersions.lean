import ExamSystem.IncidentOutline

/-!
# The versions of an incident

The row of an incident and its events stay in step: the version-bumping events
are a chain from version 1 to the current one, and the events replayed in order
give the current status and severity. The events are kept in the order of their
commits; those that bump one incident were inserted in that order too, since
each was under the row lock from before its insert to its commit.
-/

namespace ExamSystem.Incidents

open Tx Interleaving

def Db.eventsOf (s : Db) (incidentId : String) : List ExamIncidentEvent :=
  s.events.filter fun e => e.incidentId = incidentId

def Db.bumpsOf (s : Db) (incidentId : String) : List ExamIncidentEvent :=
  (s.eventsOf incidentId).filter (·.eventType.bumps)

/-- `(1, 2), (2, 3), …` up to the version. -/
def versionChain (version : Nat) : List (Nat × Nat) := (List.range (version - 1)).map fun k =>
      (k + 1, k + 2)

structure Versioned (s : Db) (i : ExamIncident) : Prop where
  positive : 1 ≤ i.version
  chain : (s.bumpsOf i.id).map (fun e => (e.beforeVersion, e.afterVersion)) = versionChain i.version
  replay : (s.eventsOf i.id).foldl replayEvent none = i.replayed

/-! ## One more event -/

theorem versionChain_succ {v : Nat} (h : 1 ≤ v) :
    versionChain (v + 1) = versionChain v ++ [(v, v + 1)] := by
  obtain ⟨n, rfl⟩ : ∃ n, v = n + 1 := ⟨v - 1, by omega⟩
  simp [versionChain, List.range_succ]

theorem replayEvent_passive {e : ExamIncidentEvent} (h : e.eventType.bumps = false)
    (hc : e.eventType ≠ .incidentCreated) (st : Option (IncidentStatus × Field)) :
    replayEvent st e = st := by
  unfold replayEvent
  cases ht : e.eventType with
  | incidentCreated => exact absurd ht hc
  | investigationStarted | severityChanged | incidentResolved | incidentDismissed =>
    rw [ht] at h; cases h
  | _ => rfl

section
variable {s s' : Db} {i : ExamIncident} {e : ExamIncidentEvent}

theorem versioned_other (h : Versioned s i) (he : s'.events = s.events ++ [e])
    (hne : e.incidentId ≠ i.id) : Versioned s' i := by
  have hsame : s'.eventsOf i.id = s.eventsOf i.id := by simp [Db.eventsOf, he, hne]
  exact ⟨h.positive, by rw [Db.bumpsOf, hsame]; exact h.chain, by rw [hsame]; exact h.replay⟩

theorem versioned_same (h : Versioned s i) (he : s'.events = s.events) : Versioned s' i := by
  have hsame : s'.eventsOf i.id = s.eventsOf i.id := by simp [Db.eventsOf, he]
  exact ⟨h.positive, by rw [Db.bumpsOf, hsame]; exact h.chain, by rw [hsame]; exact h.replay⟩

theorem versioned_passive (h : Versioned s i) (he : s'.events = s.events ++ [e])
    (hb : e.eventType.bumps = false) (hc : e.eventType ≠ .incidentCreated) : Versioned s' i := by
  by_cases hne : e.incidentId = i.id
  · have hevents : s'.eventsOf i.id = s.eventsOf i.id ++ [e] := by simp [Db.eventsOf, he, hne]
    refine ⟨h.positive, ?_, ?_⟩
    · have hchain := h.chain
      rw [Db.bumpsOf] at hchain
      rw [Db.bumpsOf, hevents, List.filter_append]
      simpa [hb] using hchain
    · rw [hevents, List.foldl_append, h.replay]
      exact replayEvent_passive hb hc _
  · exact versioned_other h he hne

theorem versioned_created (href : s.References) (hnew : ∀ j ∈ s.incidents, j.id ≠ i.id)
    (h : Created s i e) (he : s'.events = s.events ++ [e]) : Versioned s' i := by
  have hnone : s.eventsOf i.id = [] := by
    rw [Db.eventsOf, List.filter_eq_nil_iff]
    intro e' he' hid
    have hstored := href.events e' he'
    simp only [Db.hasIncident, List.any_eq_true, decide_eq_true_eq] at hstored hid
    obtain ⟨j, hj, _, hjid⟩ := hstored
    exact hnew j hj (hjid.trans hid)
  have hevents : s'.eventsOf i.id = [e] := by
    rw [Db.eventsOf, he, List.filter_append, show s.events.filter _ = [] from hnone]
    simp [h.incident]
  refine ⟨Nat.le_of_eq h.version.1.symm, ?_, ?_⟩
  · rw [Db.bumpsOf, hevents, h.version.1]
    simp [h.eventType, IncidentEventType.bumps, versionChain]
  · rw [hevents]
    exact h.replay

theorem versioned_bump {u : UpdateIncidentInput} (h : Versioned s i) (hb : Bumped s i u e)
    (he : s'.events = s.events ++ [e]) :
    Versioned s' (i.update u) := by
  obtain ⟨hbefore, hafter, hversion⟩ := hb.version
  have hevents : s'.eventsOf i.id = s.eventsOf i.id ++ [e] := by simp [Db.eventsOf, he, hb.incident]
  rw [show s'.eventsOf i.id = s'.eventsOf (i.update u).id from rfl] at hevents
  refine ⟨?_, ?_, ?_⟩
  · show 1 ≤ u.version
    omega
  · rw [Db.bumpsOf, hevents, List.filter_append, List.map_append]
    rw [show (s.eventsOf i.id).filter (·.eventType.bumps) = s.bumpsOf i.id from rfl, h.chain]
    rw [show (i.update u).version = i.version + 1 from hversion, versionChain_succ h.positive]
    simp [hb.eventType, hbefore, hafter]
  · rw [hevents, List.foldl_append, h.replay]
    exact hb.replay

end

/-! ## Every change -/

section
variable [Sha1] {s : Db} {o : Option ExamIncidentEvent} {log : List Write}

theorem change_versioned (hs : Sane s) (h : Change s o log) (hs' : Sane (applyAll s log))
    (hv : ∀ i ∈ s.incidents, Versioned s i) :
    ∀ i ∈ (applyAll s log).incidents, Versioned (applyAll s log) i := by
  have hevents := change_events h
  rcases change_incidents h with ⟨hsame, hpassive⟩ | ⟨i, e, he, hcreated, hincidents⟩ |
    ⟨i, u, e, he, hb, hincidents⟩
  · intro j hj
    have hj := hv j (hsame ▸ hj)
    cases o with
    | none => exact versioned_same hj (by simpa using hevents)
    | some e =>
      obtain ⟨k, hk⟩ := hpassive e rfl
      exact versioned_passive hj hevents hk.eventType.1 hk.eventType.2
  · subst he
    have hnodup := (intact_keys hs'.intact).incidents
    rw [hincidents, List.map_append, List.nodup_append] at hnodup
    have hnew : ∀ j ∈ s.incidents, j.id ≠ i.id :=
      fun j hj => hnodup.2.2 j.id (List.mem_map.mpr ⟨j, hj, rfl⟩) i.id (by simp)
    intro j hj
    rw [hincidents] at hj
    rcases List.mem_append.mp hj with hj | hj
    · exact versioned_other (hv j hj) hevents fun hid => hnew j hj (hid.symm.trans hcreated.incident)
    · rw [List.mem_singleton.mp hj]
      exact versioned_created (intact_references hs.intact) hnew hcreated hevents
  · subst he
    intro j hj
    rw [hincidents] at hj
    obtain ⟨k, hk, rfl⟩ := List.mem_map.mp hj
    split
    case isTrue hki =>
      have hsame : k = i :=
        List.inj_on_of_nodup_map (intact_keys hs.intact).incidents hk hb.stored hki.2
      subst hsame
      exact versioned_bump (hv k hk) hb hevents
    case isFalse hki =>
      refine versioned_other (hv k hk) hevents fun hid => hki ?_
      have hsame : k = i := List.inj_on_of_nodup_map (intact_keys hs.intact).incidents hk hb.stored
        (hid.symm.trans hb.incident)
      exact ⟨hsame ▸ rfl, hsame ▸ rfl⟩

theorem change_terminal (hs : Sane s) (h : Change s o log) {i : ExamIncident} (hi : i ∈ s.incidents)
    (hterminal : i.status ∈ TERMINAL_STATUSES) :
    i ∈ (applyAll s log).incidents := by
  rcases change_incidents h with ⟨hsame, _⟩ | ⟨j, e, _, _, hincidents⟩ | ⟨j, u, e, _, hb, hincidents⟩
  · exact hsame ▸ hi
  · rw [hincidents]
    exact List.mem_append_left _ hi
  · rw [hincidents]
    refine List.mem_map.mpr ⟨i, hi, if_neg fun hij => ?_⟩
    have hsame : i = j := List.inj_on_of_nodup_map (intact_keys hs.intact).incidents hi hb.stored hij.2
    exact hb.status (hsame ▸ hterminal)

end

/-! ## Every run -/

def AppliedCall (c : Commit Db LockKey Request Reply) (call : Call) : Prop :=
  c.request = .call call ∧ ∃ result, c.reply = .ok (some result) ∧ result.outcome = .applied

section
variable [Sha1] {es : List (Event Request)} {c d : Commit Db LockKey Request Reply} {call call' : Call}

theorem applied_event {result : CommandResult} (hc : outline.Sound c)
    (hrequest : c.request = .call call) (hreply : c.reply = .ok (some result))
    (houtcome : result.outcome = .applied) :
    ∃ e ∈ c.after.events, ReceiptOf call e ∧ AppliedBy call e ∧ e.incidentId = result.incident.id ∧
      ∃ log, Change c.before (some e) log := by
  obtain ⟨_, log, hpost, hafter⟩ := hc.post
  have hdid : Did c.request.Receipt c.request.Applied (some result) log c.before := by
    have hcommitted : Committed c.request c.reply log c.before := hpost
    rw [hreply] at hcommitted
    exact hcommitted
  obtain ⟨o, hchange, hevent, hreplies⟩ := hdid
  rcases hreplies result rfl with ⟨e, rfl, hid, _⟩ | ⟨_, hreplayed, _⟩
  · have hboth := hevent e rfl
    rw [hrequest] at hboth
    refine ⟨e, ?_, hboth.1, hboth.2, hid, log, hchange⟩
    rw [hafter, change_events hchange]
    exact List.mem_append_right _ List.mem_cons_self
  · rw [houtcome] at hreplayed
    cases hreplayed

theorem applied_bumps (hc : outline.Sound c) (happlied : AppliedCall c call) {incidentId : String}
    {version : Nat} (hexpected : call.command.expected = some (incidentId, version)) :
    ∃ e ∈ c.after.events, e.incidentId = incidentId ∧ e.beforeVersion = version ∧
      e.eventType.bumps = true ∧ ∃ i u, Bumped c.before i u e := by
  obtain ⟨hrequest, result, hreply, houtcome⟩ := happlied
  obtain ⟨e, hstored, -, hby, -, log, hchange⟩ := applied_event hc hrequest hreply houtcome
  obtain ⟨hid, hversion, hbumps⟩ := hby incidentId version hexpected
  refine ⟨e, hstored, hid, hversion, hbumps, ?_⟩
  rcases change_incidents hchange with ⟨_, hpassive⟩ | ⟨i, _, he, hcreated, _⟩ | ⟨i, u, _, he, hb, _⟩
  · obtain ⟨i, hp⟩ := hpassive e rfl
    rw [hp.eventType.1] at hbumps
    cases hbumps
  · cases he
    rw [hcreated.eventType] at hbumps
    cases hbumps
  · cases he
    exact ⟨i, u, hb⟩

omit [Sha1] in
theorem bump_lt {s : Db} {i : ExamIncident} (h : Versioned s i) {e : ExamIncidentEvent}
    (he : e ∈ s.events) (hid : e.incidentId = i.id) (hb : e.eventType.bumps = true) :
    e.beforeVersion < i.version := by
  have hmem : e ∈ s.bumpsOf i.id := by simp [Db.bumpsOf, Db.eventsOf, he, hid, hb]
  have hpair : (e.beforeVersion, e.afterVersion) ∈ versionChain i.version := by
    rw [← h.chain]
    exact List.mem_map.mpr ⟨e, hmem, rfl⟩
  obtain ⟨k, hk, hkv⟩ := List.mem_map.mp hpair
  have hk := List.mem_range.mp hk
  have hv : k + 1 = e.beforeVersion := congrArg Prod.fst hkv
  omega

theorem expected_once (hc : outline.Sound c) (hd : outline.Sound d) (hx : Extends c.after d.before)
    (hv : ∀ i ∈ d.before.incidents, Versioned d.before i) (happlied : AppliedCall c call)
    (happlied' : AppliedCall d call') (hsame : call.command.expected = call'.command.expected) :
    call.command.expected = none := by
  cases hexpected : call.command.expected with
  | none => rfl
  | some x =>
    obtain ⟨e, he, hid, hversion, hb, _⟩ := applied_bumps hc happlied hexpected
    obtain ⟨e', _, hid', hversion', _, i, u, hbumped⟩ :=
      applied_bumps hd happlied' (hsame.symm.trans hexpected)
    have hlt := bump_lt (hv i hbumped.stored) (hx.events.subset he)
      (hid.trans (hid'.symm.trans hbumped.incident)) hb
    have hat := hbumped.version.1
    omega

theorem versioned_run (es : List (Event Request)) :
    (∀ i ∈ (Machine.run transaction (.idle empty) es).committed.incidents,
      Versioned (Machine.run transaction (.idle empty) es).committed i) ∧
      ∀ c ∈ (Machine.run transaction (.idle empty) es).history, ∀ i ∈ c.before.incidents,
        Versioned c.before i := by
  have hempty : ∀ i ∈ empty.incidents, Versioned empty i := fun _ h => absurd h List.not_mem_nil
  have h := @committed_invariant _ es (fun s => ∀ i ∈ s.incidents, Versioned s i) hempty
    fun s o log hs hchange hs' hv => change_versioned hs hchange hs' hv
  exact ⟨h.1, fun c hc => (h.2 c hc).1⟩

theorem terminal_run (es more : List (Event Request)) {i : ExamIncident}
    (hi : i ∈ (Machine.run transaction (.idle empty) es).committed.incidents)
    (hterminal : i.status ∈ TERMINAL_STATUSES) :
    i ∈ (Machine.run transaction (.idle empty) (es ++ more)).committed.incidents := by
  have hrun : Machine.run transaction (.idle empty) (es ++ more) =
      Machine.run transaction (Machine.run transaction (.idle empty) es) more := List.foldl_append
  obtain ⟨cs, hh, hpath⟩ := run_commits transaction more (Machine.run transaction (.idle empty) es)
  have hsound := (holds_run (es ++ more)).commits
  rw [hrun] at hsound ⊢
  refine path_keeps (P := fun s => i ∈ s.incidents) hpath (fun c hc hbefore => ?_) hi
  have hc := hsound c (by rw [hh]; exact List.mem_append_right _ hc)
  obtain ⟨_, log, hpost, hafter⟩ := hc.post
  obtain ⟨o, hchange, _⟩ := committed_change hpost
  rw [hafter]
  exact change_terminal hc.before hchange hbefore hterminal

end

theorem incident_versions [Sha1] (es : List (Event Request)) :
    let m := Machine.run transaction (.idle empty) es
    (∀ i ∈ m.committed.incidents, i.version = 1 + (m.committed.bumpsOf i.id).length ∧
      (m.committed.bumpsOf i.id).map (fun e => (e.beforeVersion, e.afterVersion)) = versionChain
        i.version ∧
      (m.committed.eventsOf i.id).foldl replayEvent none = i.replayed) ∧
    (∀ more, ∀ i ∈ m.committed.incidents, i.status ∈ TERMINAL_STATUSES →
      i ∈ (Machine.run transaction m more).committed.incidents ∧
        ∀ j ∈ (Machine.run transaction m more).committed.incidents, j.id = i.id → j = i) ∧
    m.history.Pairwise fun c d => ∀ call call' incidentId expectedVersion,
      call.command.expected = some (incidentId, expectedVersion) →
      call'.command.expected = some (incidentId, expectedVersion) →
      ¬ (AppliedCall c call ∧ AppliedCall d call') := by
  intro m
  refine ⟨fun i hi => ?_, fun more i hi hterminal => ?_, ?_⟩
  · have hv := (versioned_run es).1 i hi
    refine ⟨?_, hv.chain, hv.replay⟩
    have hlength : (m.committed.bumpsOf i.id).length = i.version - 1 := by
      simpa [versionChain] using congrArg List.length hv.chain
    have hpositive := hv.positive
    omega
  · have hrun : Machine.run transaction (.idle empty) (es ++ more) = Machine.run transaction m
      more := List.foldl_append
    have hlater := terminal_run es more hi hterminal
    have hkeys := intact_keys (holds_run (es ++ more)).inv.intact
    rw [hrun] at hlater hkeys
    exact ⟨hlater, fun j hj hid => List.inj_on_of_nodup_map hkeys.incidents hj hlater hid⟩
  · have hsound := (holds_run es).commits
    have hgrown : m.history.Pairwise fun c d => Extends c.after d.before :=
      run_pairwise transaction Extends.refl (fun _ _ _ => .trans) extends_apply es (.idle empty)
        (fun _ h => absurd h List.not_mem_nil) .nil
    refine hgrown.imp_of_mem fun {c d} hc hd hx call call' incidentId expectedVersion he he'
      happlied => ?_
    have hnone := expected_once (hsound c hc) (hsound d hd) hx
      ((versioned_run es).2 d hd) happlied.1 happlied.2 (he.trans he'.symm)
    rw [he] at hnone
    cases hnone

end ExamSystem.Incidents
