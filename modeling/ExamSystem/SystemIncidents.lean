import ExamSystem.IncidentLinks

/-!
# One system incident for an episode

A delivery commits the incident of an episode, its event and its link at once,
under the operation that is derived from the episode; the unique index on the
operations keeps a second one out.
-/

namespace ExamSystem.Incidents

open Tx Interleaving

structure EvidenceOf [Sha1] (e : ExamIncidentEvent) (l : ExamIncidentInterruptionLink) : Prop where
  organization : l.organizationId = e.organizationId
  incident : l.incidentId = e.incidentId
  operation : l.operationId = e.operationId
  derived : e.operationId = systemIncidentOperationId l.interruptionId

/-- The event of the system and its link come together, and so do a link and its event. -/
structure Evidenced [Sha1] (s : Db) : Prop where
  links : ∀ e ∈ s.events, e.commandType = .createSystemIncidentFromHeartbeatEpisode →
    ∃ l ∈ s.interruptionLinks, EvidenceOf e l
  events : ∀ l ∈ s.interruptionLinks, ∃ e ∈ s.events, l.organizationId = e.organizationId ∧
    l.incidentId = e.incidentId ∧
    l.operationId = e.operationId ∧ (e.commandType = .createSystemIncidentFromHeartbeatEpisode →
      EvidenceOf e l)

/-! ## Every change -/

theorem not_mem_of_nodup {α β : Type} {f : α → β} {xs ys : List α} {x : α} (hn : (ys.map f).Nodup)
    (hys : ys = xs ++ [x]) :
    ∀ y ∈ xs, f y ≠ f x := by
  intro y hy
  rw [hys, List.map_append, List.nodup_append] at hn
  exact hn.2.2 (f y) (List.mem_map.mpr ⟨y, hy, rfl⟩) (f x) (by simp)

section
variable [Sha1] {s : Db} {o : Option ExamIncidentEvent} {log : List Write}

/-- A change leaves the links, or adds one with its event. -/
theorem change_interruptionLinks (h : Change s o log) :
    ((applyAll s log).interruptionLinks = s.interruptionLinks ∧
      ∀ e ∈ o, e.commandType ≠ .createSystemIncidentFromHeartbeatEpisode) ∨
    ∃ e l, o = some e ∧ (applyAll s log).interruptionLinks = s.interruptionLinks ++ [l] ∧
      l.organizationId = e.organizationId ∧
      l.incidentId = e.incidentId ∧ l.operationId = e.operationId ∧
      (e.commandType = .createSystemIncidentFromHeartbeatEpisode → EvidenceOf e l) := by
  have other : ∀ {e : ExamIncidentEvent}, o = some e →
      e.commandType ≠ .createSystemIncidentFromHeartbeatEpisode →
      ∀ e ∈ o, e.commandType ≠ .createSystemIncidentFromHeartbeatEpisode := by
    intro e he hne e' he'
    rw [he] at he'
    cases he'
    exact hne
  cases h with
  | outside he ho =>
    exact .inl ⟨(outside_keeps ho).2.2.2.2, fun e h => absurd (he ▸ h) (Option.not_mem_none e)⟩
  | create i e r he hlog h hc | note i e r he hlog h hc | linkAttempt i e l r he hlog h hc =>
    refine .inl ⟨by rw [hlog]; rfl, other he ?_⟩
    rw [hc]
    exact fun h => by cases h
  | linkAction outer i e l r he hlog houter h hc =>
    refine .inl ⟨?_, other he ?_⟩
    · rw [hlog, applyAll_append]
      exact (outside_keeps houter).2.2.2.2
    · rw [hc]
      exact fun h => by cases h
  | bump i u e r he hlog h hc => exact .inl ⟨by rw [hlog]; rfl, other he hc⟩
  | deliver i e l r he hlog h hc hl ho hop =>
    have horg : l.organizationId = e.organizationId := hl.organization.trans h.organization.symm
    have hinc : l.incidentId = e.incidentId := hl.incident.trans h.incident.symm
    exact .inr ⟨e, l, he, by rw [hlog]; rfl, horg, hinc, ho, fun _ => ⟨horg, hinc, ho, hop⟩⟩
  | linkInterruption i e l r he hlog h hc hl ho =>
    refine .inr ⟨e, l, he, by rw [hlog]; rfl, hl.organization.trans h.organization.symm,
      hl.incident.trans h.incident.symm, ho, ?_⟩
    intro hs
    rw [hc] at hs
    cases hs

theorem change_evidenced (h : Change s o log) (hs : Evidenced s) : Evidenced (applyAll s log) := by
  have hevents := change_events h
  refine ⟨fun e he hc => ?_, fun l hl => ?_⟩
  · rw [hevents] at he
    rcases change_interruptionLinks h with ⟨hlinks, hnone⟩ | ⟨e', l', ho, hlinks, -, -, -, hevidence⟩
    · rcases List.mem_append.mp he with he | he
      · rw [hlinks]
        exact hs.links e he hc
      · exact absurd hc (hnone e (Option.mem_toList.mp he))
    · rw [hlinks]
      subst ho
      rcases List.mem_append.mp he with he | he
      · obtain ⟨l, hl, hle⟩ := hs.links e he hc
        exact ⟨l, List.mem_append_left _ hl, hle⟩
      · cases List.mem_singleton.mp he
        exact ⟨l', List.mem_append_right _ List.mem_cons_self, hevidence hc⟩
  · rw [hevents]
    have old (hl : l ∈ s.interruptionLinks) : ∃ e ∈ s.events ++ o.toList,
        l.organizationId = e.organizationId ∧
        l.incidentId = e.incidentId ∧ l.operationId = e.operationId ∧
        (e.commandType = .createSystemIncidentFromHeartbeatEpisode → EvidenceOf e l) := by
      obtain ⟨e, he, hle⟩ := hs.events l hl
      exact ⟨e, List.mem_append_left _ he, hle⟩
    rcases change_interruptionLinks h with ⟨hlinks, -⟩ | ⟨e', l', ho, hlinks, hnew⟩
    · exact old (hlinks ▸ hl)
    · rw [hlinks] at hl
      rcases List.mem_append.mp hl with hl | hl
      · exact old hl
      · cases List.mem_singleton.mp hl
        subst ho
        exact ⟨e', List.mem_append_right _ List.mem_cons_self, hnew⟩

structure Together (s s' : Db) (i : ExamIncident) (e : ExamIncidentEvent) : Prop where
  incident : i ∈ s'.incidents ∧ ∀ j ∈ s.incidents, j.id ≠ i.id
  event : e ∈ s'.events ∧ e ∉ s.events
  created : e.incidentId = i.id ∧ e.organizationId = i.organizationId ∧ e.eventType = .incidentCreated
  evidence : e.commandType = .createSystemIncidentFromHeartbeatEpisode →
    ∃ l ∈ s'.interruptionLinks, l ∉ s.interruptionLinks ∧ EvidenceOf e l

theorem created_together (h : Change s o log) (hs' : Sane (applyAll s log)) {i : ExamIncident}
    {e : ExamIncidentEvent} (ho : o = some e) (hcreated : Created s i e)
    (hincidents : (applyAll s log).incidents = s.incidents ++ [i]) :
    Together s (applyAll s log) i e := by
  have hkeys := intact_keys hs'.intact
  have hevents := change_events h
  subst ho
  refine ⟨⟨?_, not_mem_of_nodup hkeys.incidents hincidents⟩, ⟨?_, ?_⟩,
    ⟨hcreated.incident, hcreated.organization, hcreated.eventType⟩,
    fun hc => ?_⟩
  · rw [hincidents]
    exact List.mem_append_right _ List.mem_cons_self
  · rw [hevents]
    exact List.mem_append_right _ List.mem_cons_self
  · exact fun he => not_mem_of_nodup hkeys.operations hevents e he rfl
  · rcases change_interruptionLinks h with ⟨-, hnone⟩ | ⟨e', l, he', hlinks, -, -, -, hevidence⟩
    · exact absurd hc (hnone e rfl)
    · cases he'
      refine ⟨l, ?_, fun hl => not_mem_of_nodup hkeys.interruptionLinks hlinks l hl rfl, hevidence hc⟩
      rw [hlinks]
      exact List.mem_append_right _ List.mem_cons_self

/-- An incident is never added without its event, nor an event of the system without its incident. -/
theorem change_together (h : Change s o log) (hs' : Sane (applyAll s log)) :
    (∀ i ∈ (applyAll s log).incidents, (∀ j ∈ s.incidents, j.id ≠ i.id) →
      ∃ e, Together s (applyAll s log) i e) ∧
      ∀ e ∈ (applyAll s log).events, e ∉ s.events →
          e.commandType = .createSystemIncidentFromHeartbeatEpisode →
        ∃ i, Together s (applyAll s log) i e := by
  refine ⟨fun i hi hnew => ?_, fun e he hnew hc => ?_⟩
  · rcases change_incidents h with ⟨hsame, -⟩ | ⟨i', e, ho, hcreated, hincidents⟩ | ⟨i', u, e, -, -,
      hincidents⟩
    · exact absurd rfl (hnew i (hsame ▸ hi))
    · have htogether := created_together h hs' ho hcreated hincidents
      rw [hincidents] at hi
      rcases List.mem_append.mp hi with hi | hi
      · exact absurd rfl (hnew i hi)
      · cases List.mem_singleton.mp hi
        exact ⟨e, htogether⟩
    · rw [hincidents] at hi
      obtain ⟨j, hj, rfl⟩ := List.mem_map.mp hi
      refine absurd ?_ (hnew j hj)
      split <;> rfl
  · rw [change_events h] at he
    have ho : o = some e := by
      rcases List.mem_append.mp he with he | he
      · exact absurd he hnew
      · exact Option.mem_toList.mp he
    cases h with
    | deliver i e' l r he' hlog hcreated hc' hl hol hop =>
      cases he'.symm.trans ho
      exact ⟨i, created_together (.deliver i e l r he' hlog hcreated hc' hl hol hop) hs' ho hcreated
          (by rw [hlog]; rfl)⟩
    | outside he' => cases he'.symm.trans ho
    | bump i u e' r he' hlog hb hne =>
      cases he'.symm.trans ho
      exact absurd hc hne
    | create i e' r he' hlog h hc' | note i e' r he' hlog h hc'
    | linkAction outer i e' l r he' hlog houter h hc'
    | linkAttempt i e' l r he' hlog h hc' | linkInterruption i e' l r he' hlog h hc' =>
      cases he'.symm.trans ho
      cases hc'.symm.trans hc

end

/-! ## Every state -/

/-- The incident that the system created for an episode, by its event and its link. -/
def SystemIncidentOf (s : Db) (x : EpisodeRow) (i : ExamIncident) : Prop :=
  ∃ e ∈ s.events, e.commandType = .createSystemIncidentFromHeartbeatEpisode ∧
    e.organizationId = x.organizationId ∧ e.incidentId = i.id ∧
    ∃ l ∈ s.interruptionLinks, l.incidentId = i.id ∧ l.interruptionId = x.id ∧
    l.operationId = e.operationId

section
variable [Sha1] {s : Db}

/-- The link under the operation of an event of the system is the evidence of the event. -/
theorem evidence_of_operation (hk : s.Keys) (hs : Evidenced s) {e : ExamIncidentEvent}
    {l : ExamIncidentInterruptionLink} (he : e ∈ s.events) (hl : l ∈ s.interruptionLinks)
    (hc : e.commandType = .createSystemIncidentFromHeartbeatEpisode)
    (ho : l.organizationId = e.organizationId) (hop : l.operationId = e.operationId) :
    EvidenceOf e l := by
  obtain ⟨e', he', ho', _, hop', hevidence⟩ := hs.events l hl
  have hsame : e' = e := by
    refine List.inj_on_of_nodup_map hk.operations he' he ?_
    rw [← ho', ← hop', ho, hop]
  exact hsame ▸ hevidence (hsame ▸ hc)

omit [Sha1] in
theorem link_organization (hk : s.Keys) (hlinked : Linked s) {l : ExamIncidentInterruptionLink}
    {x : EpisodeRow} (hl : l ∈ s.interruptionLinks) (hx : x ∈ s.episodes)
    (hid : l.interruptionId = x.id) : l.organizationId = x.organizationId := by
  obtain ⟨i, _, hscope⟩ := hlinked.interruptionLinks l hl
  obtain ⟨y, hy, hyid, hyo, _⟩ := hscope.episode
  have hsame : y = x := List.inj_on_of_nodup_map hk.episodes hy hx (hyid.trans hid)
  rw [hscope.organization, ← hyo, hsame]

/-- The event of the system incident of an episode has the derived operation. -/
theorem SystemIncidentOf.event {x : EpisodeRow} {i : ExamIncident} (hk : s.Keys) (hs : Evidenced s)
    (hlinked : Linked s) (hx : x ∈ s.episodes) (h : SystemIncidentOf s x i) :
    ∃ e ∈ s.events, e.organizationId = x.organizationId ∧
      e.operationId = systemIncidentOperationId x.id ∧
      e.commandType = .createSystemIncidentFromHeartbeatEpisode ∧ e.incidentId = i.id := by
  obtain ⟨e, he, hc, ho, hinc, l, hl, _, hlx, hop⟩ := h
  have hevidence :=
    evidence_of_operation hk hs he hl hc ((link_organization hk hlinked hl hx hlx).trans ho.symm) hop
  exact ⟨e, he, ho, hlx ▸ hevidence.derived, hc, hinc⟩

theorem systemIncident_unique {x : EpisodeRow} {i j : ExamIncident} (hk : s.Keys) (hs : Evidenced s)
    (hlinked : Linked s) (hx : x ∈ s.episodes) (hi : i ∈ s.incidents) (hj : j ∈ s.incidents)
    (h : SystemIncidentOf s x i) (h' : SystemIncidentOf s x j) : i = j := by
  obtain ⟨e, he, ho, hop, _, hinc⟩ := h.event hk hs hlinked hx
  obtain ⟨e', he', ho', hop', _, hinc'⟩ := h'.event hk hs hlinked hx
  have hsame : e = e' := List.inj_on_of_nodup_map hk.operations he he' (by rw [ho, ho', hop, hop'])
  exact List.inj_on_of_nodup_map hk.incidents hi hj (by rw [← hinc, ← hinc', hsame])

/-- The link that is the evidence of a derived operation is to the episode. -/
theorem evidence_episode (hlinked : Linked s)
    (hdistinct : ∀ x ∈ s.episodes, ∀ y ∈ s.episodes,
        systemIncidentOperationId x.id = systemIncidentOperationId y.id → x.id = y.id)
    {e : ExamIncidentEvent} {l : ExamIncidentInterruptionLink} {x : EpisodeRow}
    (hl : l ∈ s.interruptionLinks) (hevidence : EvidenceOf e l) (hx : x ∈ s.episodes)
    (hop : e.operationId = systemIncidentOperationId x.id) : l.interruptionId = x.id := by
  obtain ⟨i, _, hscope⟩ := hlinked.interruptionLinks l hl
  obtain ⟨y, hy, hyid, _⟩ := hscope.episode
  rw [← hyid]
  refine hdistinct y hy x hx ?_
  rw [hyid, ← hevidence.derived, hop]

end

/-! ## Every run -/

def Request.isSystem : Request → Bool
  | .delivery _ | .outside _ => true
  | _ => false

section
variable [Sha1] (es : List (Event Request))

theorem evidenced_run : Evidenced (Machine.run transaction (.idle empty) es).committed := by
  have hempty : Evidenced empty := ⟨fun _ h => absurd h List.not_mem_nil,
    fun _ h => absurd h List.not_mem_nil⟩
  exact (@committed_invariant _ es _ hempty fun _ _ _ _ h _ hs => change_evidenced h hs).1

theorem system_run (hsystem : ∀ r, .start r ∈ es → r.isSystem = true) :
    ∀ e ∈ (Machine.run transaction (.idle empty) es).committed.events,
    e.commandType = .createSystemIncidentFromHeartbeatEpisode := by
  obtain ⟨_, hsound, hpath⟩ := outline.sound empty_sane es fun _ _ => trivial
  have hrequests := run_requests transaction (R := fun r : Request => r.isSystem = true) es
    (.idle empty) hsystem
    (fun i t h => by simp [Machine.slot, Machine.idle] at h) fun _ h => absurd h List.not_mem_nil
  refine path_keeps (P := fun s : Db => ∀ e ∈ s.events,
    e.commandType = .createSystemIncidentFromHeartbeatEpisode) hpath
    (fun c hc hbefore e he => ?_) fun _ h => absurd h List.not_mem_nil
  obtain ⟨_, log, hpost, hafter⟩ := (hsound c hc).post
  obtain ⟨o, hchange, hreceipt⟩ := committed_change hpost
  rw [hafter, change_events hchange] at he
  rcases List.mem_append.mp he with he | he
  · exact hbefore e he
  · have hreceipt := (hreceipt e (Option.mem_toList.mp he)).1
    have hrequest := hrequests c hc
    cases hr : c.request with
    | delivery d =>
      rw [hr] at hreceipt
      exact hreceipt.2.2
    | outside o =>
      rw [hr] at hreceipt
      exact absurd hreceipt id
    | call call =>
      rw [hr] at hrequest
      cases hrequest
    | grant requestId ctx eventId operationId attemptId incidentId freshId =>
      rw [hr] at hrequest
      cases hrequest

theorem together_run : ∀ c ∈ (Machine.run transaction (.idle empty) es).history,
    (∀ i ∈ c.after.incidents, (∀ j ∈ c.before.incidents, j.id ≠ i.id) →
      ∃ e, Together c.before c.after i e) ∧
      ∀ e ∈ c.after.events, e ∉ c.before.events →
        e.commandType = .createSystemIncidentFromHeartbeatEpisode →
        ∃ i, Together c.before c.after i e := by
  intro c hc
  have hsound := (holds_run es).commits c hc
  obtain ⟨_, log, hpost, hafter⟩ := hsound.post
  obtain ⟨o, hchange, _⟩ := committed_change hpost
  have hs' := hsound.after
  rw [hafter] at hs' ⊢
  exact change_together hchange hs'

end

/-- Whatever is delivered, retried, cancelled or reconciled, and whatever the
operators do at the same time. -/
theorem system_incidents_once [Sha1] (es : List (Event Request))
    (hdistinct : ∀ x ∈ (Machine.run transaction (.idle empty) es).committed.episodes,
      ∀ y ∈ (Machine.run transaction (.idle empty) es).committed.episodes,
        systemIncidentOperationId x.id = systemIncidentOperationId y.id → x.id = y.id) :
    let m := Machine.run transaction (.idle empty) es
    let s := m.committed
    (∀ x ∈ s.episodes, ∀ i ∈ s.incidents, ∀ j ∈ s.incidents, SystemIncidentOf s x i →
      SystemIncidentOf s x j → i = j) ∧
    (∀ c ∈ m.history,
      (∀ i ∈ c.after.incidents, (∀ j ∈ c.before.incidents, j.id ≠ i.id) →
        ∃ e, Together c.before c.after i e) ∧
        ∀ e ∈ c.after.events, e ∉ c.before.events →
          e.commandType = .createSystemIncidentFromHeartbeatEpisode →
          ∃ i, Together c.before c.after i e) ∧
    (∀ x ∈ s.episodes, ∀ i,
      (∃ e ∈ s.events, e.organizationId = x.organizationId ∧
        e.operationId = systemIncidentOperationId x.id ∧
        e.commandType = .createSystemIncidentFromHeartbeatEpisode ∧ e.incidentId = i.id) ↔
        SystemIncidentOf s x i) ∧
    ((∀ r, .start r ∈ es → r.isSystem = true) → ∀ x ∈ s.episodes, ∀ incidentId,
      (∃ e ∈ s.events, e.organizationId = x.organizationId ∧
        e.operationId = systemIncidentOperationId x.id ∧
        e.incidentId = incidentId) ↔
      ∃ l ∈ s.interruptionLinks, l.organizationId = x.organizationId ∧ l.interruptionId = x.id ∧
      l.incidentId = incidentId) := by
  intro m s
  have hkeys : s.Keys := intact_keys (holds_run es).inv.intact
  have hevidenced : Evidenced s := evidenced_run es
  have hlinked : Linked s := linked_run es
  refine ⟨fun x hx i hi j hj => systemIncident_unique hkeys hevidenced hlinked hx hi hj,
    together_run es, fun x hx i => ⟨?_, ?_⟩, fun hsystem x hx incidentId => ⟨?_, ?_⟩⟩
  · rintro ⟨e, he, ho, hop, hc, hinc⟩
    obtain ⟨l, hl, hevidence⟩ := hevidenced.links e he hc
    have hlx := evidence_episode hlinked hdistinct hl hevidence hx hop
    exact ⟨e, he, hc, ho, hinc, l, hl, hevidence.incident.trans hinc, hlx, hevidence.operation⟩
  · exact fun h => h.event hkeys hevidenced hlinked hx
  · rintro ⟨e, he, ho, hop, hinc⟩
    obtain ⟨l, hl, hevidence⟩ := hevidenced.links e he (system_run es hsystem e he)
    have hlx := evidence_episode hlinked hdistinct hl hevidence hx hop
    exact ⟨l, hl, hevidence.organization.trans ho, hlx, hevidence.incident.trans hinc⟩
  · rintro ⟨l, hl, ho, hlx, hinc⟩
    obtain ⟨e, he, heo, heinc, _, hevidence⟩ := hevidenced.events l hl
    have hevidence := hevidence (system_run es hsystem e he)
    exact ⟨e, he, heo.symm.trans ho, hlx ▸ hevidence.derived, heinc.symm.trans hinc⟩

/-- What a reconciliation passes over has its incident: the episodes without one are
among those that it delivers. -/
theorem reconciliation_covers [Sha1] (es : List (Event Request))
    (hdistinct : ∀ x ∈ (Machine.run transaction (.idle empty) es).committed.episodes,
      ∀ y ∈ (Machine.run transaction (.idle empty) es).committed.episodes,
      systemIncidentOperationId x.id = systemIncidentOperationId y.id → x.id = y.id)
    (organizationId : String) :
    let s := (Machine.run transaction (.idle empty) es).committed
    ∀ fact ∈ listHeartbeatDetectedEpisodes s organizationId,
      fact ∈ reconcileSystemIncidents s organizationId ∨
      ∃ x ∈ s.episodes, x.organizationId = organizationId ∧ x.id = fact.interruptionId ∧
      ∃ i ∈ s.incidents, SystemIncidentOf s x i := by
  intro s fact hfact
  by_cases hdelivered : isDelivered s organizationId fact = true
  · right
    obtain ⟨d, -, hd⟩ := List.mem_filterMap.mp (List.mem_mergeSort.mp hfact)
    simp only [heartbeatDetectedEpisode, Option.bind_eq_bind, Option.bind_eq_some_iff,
      Option.pure_def, Option.some.injEq] at hd
    obtain ⟨x, hx, _, -, hd⟩ := hd
    have hid : x.organizationId = organizationId ∧ x.id = d.interruptionId := by
      simpa using List.find?_some hx
    replace hx := List.mem_of_find?_eq_some hx
    have hfactId : d.interruptionId = fact.interruptionId :=
      congrArg HeartbeatEpisodeFact.interruptionId hd
    rw [hfactId] at hid
    -- the event that shows the delivery is the receipt of the episode
    unfold isDelivered at hdelivered
    cases hf : s.findEventByOperationId organizationId
      (systemIncidentOperationId fact.interruptionId) with
    | none => simp [hf] at hdelivered
    | some e =>
      simp only [hf, isMatchingCommittedOperation, decide_eq_true_eq] at hdelivered
      obtain ⟨he, ho, hop⟩ := findEvent_some hf
      rw [uuidText_operationId] at hop
      obtain ⟨l, hl, hevidence⟩ := (evidenced_run es).links e he hdelivered.1
      have hlx := evidence_episode (linked_run es) hdistinct hl hevidence hx
        (hop.trans (congrArg _ hid.2.symm))
      obtain ⟨i, hi, hscope⟩ := (linked_run es).interruptionLinks l hl
      exact ⟨x, hx, hid.1, hid.2, i, hi, e, he, hdelivered.1, ho.trans hid.1.symm,
        hevidence.incident.symm.trans hscope.incident,
        l, hl, hscope.incident, hlx, hevidence.operation⟩
  · exact .inl (List.mem_filter.mpr ⟨hfact, by simpa using hdelivered⟩)

@[reducible] def sampleSha1 : Sha1 where
  digest bytes :=
    if bytes = SYSTEM_INCIDENT_OPERATION_NAMESPACE ++
      "3f0a4c52-7a51-4b0e-9d3c-5f1f1a2b3c01".toUTF8.toList then
      [0x2c, 0xa7, 0x7f, 0x0d, 0xce, 0x47, 0xa8, 0x29, 0x19, 0x10, 0x6f, 0xa7, 0x3d, 0x6c, 0x5f,
        0x88, 0x7c, 0xa8, 0x0b, 0x6e]
    else if bytes = SYSTEM_INCIDENT_OPERATION_NAMESPACE ++
      "3f0a4c52-7a51-4b0e-9d3c-5f1f1a2b3c02".toUTF8.toList then
      [0xcd, 0x69, 0x18, 0xa6, 0xfe, 0x17, 0xf7, 0xe0, 0xe2, 0xa0, 0x51, 0xc7, 0x97, 0x8b, 0x6f,
        0x91, 0x76, 0x52, 0xc2, 0x30]
    else []

def sampleEpisode (id attemptId : String) : Request :=
  .outside (.detectInterruption ⟨id, "org", attemptId⟩ ⟨"org", id, 1000, some 900, some 60, true⟩)

def sampleDelivery (requestId : Nat) (id attemptId : String) : Request :=
  .delivery
    { requestId := requestId, ctx := ⟨"org", INCIDENT_DETECTOR, true, 2000⟩,
      eventId := s!"event-{requestId}"
      fact := ⟨id, "exam", attemptId, some "candidate", 1000, some 900, some 60⟩
      freshId := s!"incident-{requestId}", lookup := false }

/-- Two episodes of one attempt are detected; a delivery of the first races with
its retry, and the delivery of the second crashes and is started again. -/
def sampleDeliveries : List (Event Request) :=
  let first := "3f0a4c52-7a51-4b0e-9d3c-5f1f1a2b3c01"
  let second := "3f0a4c52-7a51-4b0e-9d3c-5f1f1a2b3c02"
  [.start (.outside (.insertAttempt ⟨"attempt", "org", "exam", some "candidate"⟩)), .advance 0,
    .advance 0, .advance 0,
    .start (sampleEpisode first "attempt"), .start (sampleEpisode second "attempt")] ++
  [1, 2, 1, 2, 1, 2, 1, 2].map .advance ++
  [.start (sampleDelivery 1 first "attempt"), .start (sampleDelivery 2 first "attempt"),
    .start (sampleDelivery 3 second "attempt")] ++
  [3, 4, 3, 4, 3, 4, 5, 5, 5].map .advance ++ [.cancel 5] ++ [3, 4, 3, 4, 3, 4, 3, 4, 3,
    4].map .advance ++
  [.start (sampleDelivery 4 second "attempt")] ++ [6, 6, 6, 6, 6, 6, 6, 6].map .advance

theorem sampleDeliveries_reads :
    ∀ s, s = (Machine.run (@transaction sampleSha1) (.idle empty) sampleDeliveries).committed →
    s.incidents.length = 2 ∧ ∀ x ∈ s.episodes, ∀ y ∈ s.episodes,
      @systemIncidentOperationId sampleSha1 x.id = @systemIncidentOperationId sampleSha1 y.id →
        x.id = y.id := by
  intro s hs
  rw [hs]
  decide +kernel

theorem system_incidents_once_sample :
    let s := (Machine.run (@transaction sampleSha1) (.idle empty) sampleDeliveries).committed
    s.incidents.length = 2 ∧
      ∀ x ∈ s.episodes, ∀ i ∈ s.incidents, ∀ j ∈ s.incidents, SystemIncidentOf s x i →
      SystemIncidentOf s x j → i = j :=
  have h := sampleDeliveries_reads _ rfl
  ⟨h.1, (@system_incidents_once sampleSha1 sampleDeliveries h.2).1⟩

end ExamSystem.Incidents
