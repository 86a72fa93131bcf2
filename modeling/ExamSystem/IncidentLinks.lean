import ExamSystem.IncidentOutline

/-!
# The scope of the links of an incident

What is linked to an incident belongs to its organisation and its exam and
agrees with its anchor, an anchored incident has no memberships, and an action
has one link.
-/

namespace ExamSystem.Incidents

open Tx Interleaving

structure Linked (s : Db) : Prop where
  actions : ∀ l ∈ s.actions, ∃ i ∈ s.incidents, ActionInScope s i l
  memberships : ∀ l ∈ s.memberships, ∃ i ∈ s.incidents, AttemptInScope s i l
  interruptionLinks : ∀ l ∈ s.interruptionLinks, ∃ i ∈ s.incidents, InterruptionInScope s i l

/-! ## The links of a change -/

section
variable {s s' : Db}

/-- The links of a bigger state: the old ones are still in scope, so only the new ones count. -/
theorem linked_extends (h : Linked s) (hx : Extends s s')
    (hactions : ∀ l ∈ s'.actions, l ∈ s.actions ∨ ∃ i ∈ s'.incidents, ActionInScope s' i l)
    (hmemberships : ∀ l ∈ s'.memberships, l ∈ s.memberships ∨
      ∃ i ∈ s'.incidents, AttemptInScope s' i l)
    (hinterruptions : ∀ l ∈ s'.interruptionLinks, l ∈ s.interruptionLinks ∨
      ∃ i ∈ s'.incidents, InterruptionInScope s' i l) : Linked s' := by
  refine ⟨fun l hl => ?_, fun l hl => ?_, fun l hl => ?_⟩
  · rcases hactions l hl with hl | hl
    · obtain ⟨i, hi, hscope⟩ := h.actions l hl
      obtain ⟨i', hi', hid, ha⟩ := hx.incidents i hi
      exact ⟨i', hi', hscope.extends hx hid ha⟩
    · exact hl
  · rcases hmemberships l hl with hl | hl
    · obtain ⟨i, hi, hscope⟩ := h.memberships l hl
      obtain ⟨i', hi', hid, ha⟩ := hx.incidents i hi
      exact ⟨i', hi', hscope.extends hx hid ha⟩
    · exact hl
  · rcases hinterruptions l hl with hl | hl
    · obtain ⟨i, hi, hscope⟩ := h.interruptionLinks l hl
      obtain ⟨i', hi', hid, ha⟩ := hx.incidents i hi
      exact ⟨i', hi', hscope.extends hx hid ha⟩
    · exact hl

variable [Sha1] {o : Option ExamIncidentEvent} {log : List Write}

theorem change_linked (h : Change s o log) (hl : Linked s) : Linked (applyAll s log) := by
  have hx := extends_applyAll s log
  cases h with
  | outside he ho =>
    obtain ⟨_, _, ha, hm, hi⟩ := outside_keeps (s := s) ho
    refine linked_extends hl hx (fun l h => .inl (ha ▸ h)) (fun l h => .inl (hm ▸ h)) fun l h =>
      .inl (hi ▸ h)
  | create i e r he hlog | note i e r he hlog | bump i u e r he hlog =>
    subst hlog
    exact linked_extends hl hx (fun l h => .inl h) (fun l h => .inl h) fun l h => .inl h
  | deliver i e l r he hlog hcreated hc hscope =>
    subst hlog
    refine linked_extends hl hx (fun l h => .inl h) (fun l h => .inl h) fun k hk => ?_
    rcases List.mem_append.mp hk with hk | hk
    · exact .inl hk
    · rw [List.mem_singleton.mp hk]
      exact .inr ⟨i, List.mem_append_right _ List.mem_cons_self, hscope.extends hx rfl rfl⟩
  | linkAction outer i e l r he hlog houter hpassive hc hscope =>
    obtain ⟨hi, _, ha, hm, hil⟩ := outside_keeps (s := s) houter
    subst hlog
    rw [applyAll_append] at hx ⊢
    refine linked_extends hl hx (fun k hk => ?_) (fun k h => .inl (hm ▸ h)) fun k h => .inl (hil ▸ h)
    rcases List.mem_append.mp hk with hk | hk
    · exact .inl (ha ▸ hk)
    · rw [List.mem_singleton.mp hk]
      exact .inr ⟨i, hi ▸ hpassive.stored, hscope.extends (extends_applyAll _ _) rfl rfl⟩
  | linkAttempt i e l r he hlog hpassive hc hscope =>
    subst hlog
    refine linked_extends hl hx (fun k h => .inl h) (fun k hk => ?_) fun k h => .inl h
    rcases List.mem_append.mp hk with hk | hk
    · exact .inl hk
    · rw [List.mem_singleton.mp hk]
      exact .inr ⟨i, hpassive.stored, hscope.extends hx rfl rfl⟩
  | linkInterruption i e l r he hlog hpassive hc hscope =>
    subst hlog
    refine linked_extends hl hx (fun k h => .inl h) (fun k h => .inl h) fun k hk => ?_
    rcases List.mem_append.mp hk with hk | hk
    · exact .inl hk
    · rw [List.mem_singleton.mp hk]
      exact .inr ⟨i, hpassive.stored, hscope.extends hx rfl rfl⟩

end

/-! ## Every run -/

section
variable {s : Db}

theorem membership_unanchored (h : Linked s) (hk : s.Keys) {i : ExamIncident} (hi : i ∈ s.incidents)
    {l : ExamIncidentAttempt} (hl : l ∈ s.memberships) (hid : l.incidentId = i.id) :
    i.attemptId = none := by
  obtain ⟨j, hj, hscope⟩ := h.memberships l hl
  rw [← List.inj_on_of_nodup_map hk.incidents hj hi (hscope.incident.symm.trans hid)]
  exact hscope.unanchored

theorem action_unique (h : Linked s) (hk : s.Keys) {l l' : ExamIncidentAction} (hl : l ∈ s.actions)
    (hl' : l' ∈ s.actions) (ht : l.actionType = l'.actionType) (hid : l.actionId = l'.actionId) :
    l = l' := by
  obtain ⟨i, _, hscope⟩ := h.actions l hl
  obtain ⟨i', _, hscope'⟩ := h.actions l' hl'
  have ho : i.organizationId = i'.organizationId := by
    cases hty : l.actionType with
    | timeGrant =>
      obtain ⟨a, ha, haid, hao, _⟩ := hscope.grant hty
      obtain ⟨a', ha', haid', hao', _⟩ := hscope'.grant (ht ▸ hty)
      have hsame : a = a' := List.inj_on_of_nodup_map hk.adjustments ha ha' (by rw [haid, haid', hid])
      rw [← hao, hsame, hao']
    | forceSubmit =>
      have hattempt : l.attemptId = l'.attemptId := by rw [← (hscope.force hty).1,
        ← (hscope'.force (ht ▸ hty)).1, hid]
      obtain ⟨a, ha, haid, hao, _⟩ := hscope.scope.attempt
      obtain ⟨a', ha', haid', hao', _⟩ := hscope'.scope.attempt
      have hsame : a = a' := List.inj_on_of_nodup_map hk.attempts ha ha' (by rw [haid, haid', hattempt])
      rw [← hao, hsame, hao']
  refine List.inj_on_of_nodup_map hk.actions hl hl' ?_
  rw [hscope.organization, hscope'.organization, ho, ht, hid]

end

theorem linked_run [Sha1] (es : List (Event Request)) :
    Linked (Machine.run transaction (.idle empty) es).committed := by
  have hempty : Linked empty := ⟨fun _ h => absurd h List.not_mem_nil,
    fun _ h => absurd h List.not_mem_nil, fun _ h => absurd h List.not_mem_nil⟩
  exact (committed_invariant hempty fun _ _ _ _ h _ hl => change_linked h hl).1

theorem incident_links_in_scope [Sha1] (es : List (Event Request)) :
    let s := (Machine.run transaction (.idle empty) es).committed
    (∀ l ∈ s.actions, ∃ i ∈ s.incidents, ActionInScope s i l) ∧
    (∀ l ∈ s.memberships, ∃ i ∈ s.incidents, AttemptInScope s i l) ∧
    (∀ l ∈ s.interruptionLinks, ∃ i ∈ s.incidents, InterruptionInScope s i l) ∧
    (∀ i ∈ s.incidents, i.attemptId ≠ none → ∀ l ∈ s.memberships, l.incidentId ≠ i.id) ∧
    ∀ l ∈ s.actions, ∀ l' ∈ s.actions, l.actionType = l'.actionType → l.actionId = l'.actionId →
    l = l' := by
  intro s
  have hkeys : s.Keys := intact_keys (holds_run es).inv.intact
  have hlinked : Linked s := linked_run es
  refine ⟨hlinked.actions, hlinked.memberships, hlinked.interruptionLinks, ?_, ?_⟩
  · intro i hi hanchor l hl hid
    exact hanchor (membership_unanchored hlinked hkeys hi hl hid)
  · intro l hl l' hl' ht hid
    exact action_unique hlinked hkeys hl hl' ht hid

end ExamSystem.Incidents
