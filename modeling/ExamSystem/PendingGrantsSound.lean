import ExamSystem.PendingGrants
import Mathlib.Algebra.Order.Field.Rat

/-!
# One pending time grant at a time

The lock makes each call's read and write one step for the other tabs, so the
record of an operator changes only by a reservation, a takeover of a lapsed
lease, or a claim that is current.
-/

namespace ExamSystem.PendingGrants

open Tx

/-! ## The record survives its storage -/

theorem InFlightLease.ofJson_toJson (l : InFlightLease) : InFlightLease.ofJson l.toJson = some l := rfl

theorem PendingGrantCommand.ofJson_toJson (c : PendingGrantCommand) :
    PendingGrantCommand.ofJson c.toJson = some c := rfl

theorem PendingGrantAuthority.ofJson_toJson (a : PendingGrantAuthority) :
    PendingGrantAuthority.ofJson a.toJson = some a := by
  obtain ⟨organizationId, actorId, command, revision, createdAt, lease⟩ := a
  cases lease <;> rfl

theorem isValidAuthority_toJson (a : PendingGrantAuthority) : isValidAuthority a.toJson = true := by
  obtain ⟨organizationId, actorId, command, revision, createdAt, lease⟩ := a
  cases lease <;> rfl

/-! ## What a method does -/

theorem commandsEqual_iff {a b : PendingGrantCommand} : commandsEqual a b = true ↔ a = b := by
  constructor
  · intro h
    simp only [commandsEqual, Bool.and_eq_true, beq_iff_eq] at h
    obtain ⟨⟨⟨⟨h₁, h₂⟩, h₃⟩, h₄⟩, h₅⟩ := h
    cases a
    cases b
    simp_all
  · rintro rfl
    simp [commandsEqual]

/-- A claim is current when all three of its parts are those of the record. -/
def Current (a : PendingGrantAuthority) (claim : PendingGrantSendClaim) : Prop :=
  a.command.operationId = claim.operationId ∧ a.revision = claim.revision ∧
    ∃ l, a.inFlightLease = some l ∧ l.leaseId = claim.leaseId

theorem claimMatches_iff {a : PendingGrantAuthority} {claim : PendingGrantSendClaim} :
    claimMatches a claim = true ↔ Current a claim := by
  simp only [claimMatches, Current, Bool.and_eq_true, beq_iff_eq, Option.map_eq_some_iff, and_assoc]

def Lapsed (lease : Option InFlightLease) (now : ℚ) : Prop := ∀ l, lease = some l → l.expiresAt ≤ now

theorem lapsed_iff {lease : Option InFlightLease} {now : ℚ} :
    (lease.any fun l => !isLeaseExpired l now) = false ↔ Lapsed lease now := by
  cases lease with
  | none => simp [Lapsed]
  | some l => simp [Lapsed, isLeaseExpired]

inductive Done (deps : TabDeps) (orgId actorId : JsString) (checkedAt now : ℚ) (leaseId : JsString) :
    Method → Option PendingGrantAuthority → Write → Reply → Prop
  | reserved (command : PendingGrantCommand) (a : PendingGrantAuthority)
      (ha : a =
        { organizationId := orgId, actorId := actorId, command := command, revision := 1
          createdAt := now, inFlightLease := some (deps.lease leaseId now) }) :
      Done deps orgId actorId checkedAt now leaseId (.reserve command) none (.set a)
        (.claimed a
          { operationId := a.command.operationId, revision := a.revision, leaseId := leaseId })
  | claimed (existing a : PendingGrantAuthority) (hlapsed : Lapsed existing.inFlightLease checkedAt)
      (ha : a =
        { existing with
          revision := existing.revision + 1, inFlightLease := some (deps.lease leaseId now) }) :
      Done deps orgId actorId checkedAt now leaseId (.claimForSend existing.command)
        (some existing) (.set a)
        (.claimed a
          { operationId := a.command.operationId, revision := a.revision, leaseId := leaseId })
  | released (existing a : PendingGrantAuthority) (claim : PendingGrantSendClaim)
      (hcurrent : Current existing claim)
      (ha : a = { existing with revision := existing.revision + 1, inFlightLease := none }) :
      Done deps orgId actorId checkedAt now leaseId (.releaseIndeterminate claim) (some existing)
        (.set a) (.released a)
  | cleared (existing : PendingGrantAuthority) (claim : PendingGrantSendClaim)
      (hcurrent : Current existing claim) :
      Done deps orgId actorId checkedAt now leaseId (.clearConfirmed claim)
        (some existing) .remove .cleared
  | gone (claim : PendingGrantSendClaim) :
      Done deps orgId actorId checkedAt now leaseId (.clearConfirmed claim) none .unchanged .cleared

theorem body_done {deps : TabDeps} {orgId actorId leaseId : JsString} {checkedAt now : ℚ} {m : Method}
    {existing : Option PendingGrantAuthority} {write : Write} {reply : Reply}
    (h : m.body deps orgId actorId existing checkedAt now leaseId = .ok (write, reply)) :
    Done deps orgId actorId checkedAt now leaseId m existing write reply := by
  cases m with
  | reserve command =>
    cases existing with
    | some existing => cases h
    | none =>
      cases h
      exact .reserved command _ rfl
  | claimForSend expectedCommand =>
    cases existing with
    | none => cases h
    | some existing =>
      simp only [Method.body, claimForSend] at h
      split at h
      · cases h
      · rename_i hequal
        split at h
        · cases h
        · rename_i hlapsed
          cases h
          have heq : existing.command = expectedCommand := commandsEqual_iff.mp (by simpa using hequal)
          subst heq
          exact .claimed existing _ (lapsed_iff.mp (by simpa using hlapsed)) rfl
  | releaseIndeterminate claim =>
    cases existing with
    | none => cases h
    | some existing =>
      simp only [Method.body, releaseIndeterminate] at h
      split at h
      · cases h
      · rename_i hmatches
        cases h
        exact .released existing _ claim (claimMatches_iff.mp (by simpa using hmatches)) rfl
  | clearConfirmed claim =>
    cases existing with
    | none =>
      cases h
      exact .gone claim
    | some existing =>
      simp only [Method.body, clearConfirmed] at h
      split at h
      · cases h
      · rename_i hmatches
        cases h
        exact .cleared existing claim (claimMatches_iff.mp (by simpa using hmatches))

/-! ## What a browser remembers -/

namespace Browser

def record (w : Browser) (key : JsString) : Option PendingGrantAuthority :=
  (w.storage key).bind fun raw => raw.bind PendingGrantAuthority.ofJson

def claimsOf (w : Browser) (key : JsString) : List PendingGrantSendClaim :=
  (w.claims.filter fun x => x.key = key).map (·.claim)

/-- A lease is held when it was issued, not given back, and has not lapsed. -/
def Holds (w : Browser) (key : JsString) (lease : InFlightLease) : Prop :=
  ({ key := key, lease := lease } : HeldLease) ∈ w.leases ∧ w.clock < lease.expiresAt

instance (w : Browser) (key : JsString) (lease : InFlightLease) : Decidable (w.Holds key lease) :=
  inferInstanceAs (Decidable (_ ∧ _))

/-- Storage holds records at their own keys; a held lease is that of the record;
the claim issued last is that of the record; no two claims share a lease. -/
structure Remembers (w : Browser) : Prop where
  stored : ∀ key raw, w.storage key = some raw →
    ∃ a : PendingGrantAuthority, raw = some a.toJson ∧ storageKey a.organizationId a.actorId = key
  held : ∀ key l, w.Holds key l → ∃ a, w.record key = some a ∧ a.inFlightLease = some l
  last : ∀ key a l, w.record key = some a → a.inFlightLease = some l → (w.claimsOf key).getLast? =
    some { operationId := a.command.operationId, revision := a.revision, leaseId := l.leaseId }
  distinct : (w.claims.map (·.claim.leaseId)).Nodup

/-- At most one call holds the lock of a key, and what it read is still there. -/
structure Locks (w : Browser) : Prop where
  exclusive : ∀ (i j : Nat) (c d : Call), w.calls[i]? = some c → w.calls[j]? = some d →
    c.key = d.key → c.holds = true → d.holds = true →
    i = j
  current : ∀ (i : Nat) (c : Call) existing, w.calls[i]? = some c → c.phase = .found existing →
    w.record c.key = existing

structure Sound (w : Browser) : Prop where
  remembers : w.Remembers
  locks : w.Locks

variable {w w' : Browser}

theorem start_sound (now : ℚ) : (start now).Sound := by
  refine ⟨⟨?_, ?_, ?_, List.nodup_nil⟩, ⟨?_, ?_⟩⟩
  · exact fun _ _ h => by cases h
  · exact fun _ _ h => absurd h.1 List.not_mem_nil
  · exact fun _ _ _ h => by cases h
  · exact fun _ _ _ _ h => by cases h
  · exact fun _ _ _ h => by cases h

theorem Remembers.readAuthority (h : w.Remembers) (key : JsString) :
    PendingGrants.readAuthority key (w.storage key) = .ok (w.record key) := by
  unfold record
  cases hs : w.storage key with
  | none => rfl
  | some raw =>
    obtain ⟨a, rfl, -⟩ := h.stored key raw hs
    simp [PendingGrants.readAuthority, isValidAuthority_toJson]

theorem Remembers.key (h : w.Remembers) {key : JsString} {a : PendingGrantAuthority}
    (ha : w.record key = some a) :
    storageKey a.organizationId a.actorId = key := by
  obtain ⟨raw, hraw, hr⟩ := Option.bind_eq_some_iff.mp ha
  obtain ⟨x, rfl, hx⟩ := h.stored key raw hraw
  rw [Option.bind_some, PendingGrantAuthority.ofJson_toJson] at hr
  cases hr
  exact hx

theorem Remembers.unique (h : w.Remembers) {key key' : JsString} {a b : PendingGrantAuthority}
    (ha : w.record key = some a) (hb : w.record key' = some b)
    (horg : a.organizationId = b.organizationId) (hactor : a.actorId = b.actorId) :
    key = key' ∧ a = b := by
  have heq : key = key' := by rw [← h.key ha, ← h.key hb, horg, hactor]
  subst heq
  rw [ha] at hb
  exact ⟨rfl, Option.some.inj hb⟩

/-! ### Steps that write nothing -/

theorem record_congr (h : w'.storage = w.storage) (key : JsString) : w'.record key = w.record key := by
  unfold record
  rw [h]

theorem Remembers.later (h : w.Remembers) (hstorage : w'.storage = w.storage)
    (hleases : w'.leases = w.leases) (hclaims : w'.claims = w.claims) (hclock : w.clock ≤ w'.clock) :
    w'.Remembers := by
  refine ⟨?_, fun key l hl => ?_, fun key a l ha hl => ?_, ?_⟩
  · rw [hstorage]
    exact h.stored
  · rw [record_congr hstorage]
    exact h.held key l ⟨hleases ▸ hl.1, lt_of_le_of_lt hclock hl.2⟩
  · rw [record_congr hstorage] at ha
    rw [claimsOf, hclaims]
    exact h.last key a l ha hl
  · rw [hclaims]
    exact h.distinct

theorem Locks.release (h : w.Locks)
    (hrecord : ∀ (i : Nat) (c : Call), w'.calls[i]? = some c → c.holds = true →
      w'.record c.key = w.record c.key)
    (hcalls : ∀ (i : Nat) (c : Call), w'.calls[i]? = some c → c.holds = true →
      ∃ d, w.calls[i]? = some d ∧ d.key = c.key ∧ d.holds = true ∧
      ∀ existing, c.phase = .found existing → d.phase = .found existing) : w'.Locks := by
  refine ⟨fun i j c d hc hd hkey hhc hhd => ?_, fun i c existing hc hp => ?_⟩
  · obtain ⟨x, hx, hxk, hxh, -⟩ := hcalls i c hc hhc
    obtain ⟨y, hy, hyk, hyh, -⟩ := hcalls j d hd hhd
    exact h.exclusive i j x y hx hy (hxk.trans (hkey.trans hyk.symm)) hxh hyh
  · have hh : c.holds = true := by
      unfold Call.holds
      rw [hp]
    obtain ⟨x, hx, hxk, -, hxp⟩ := hcalls i c hc hh
    rw [hrecord i c hc hh, ← hxk]
    exact h.current i x existing hx (hxp existing hp)

theorem setPhase_calls {i j : Nat} {c d : Call} {phase : Phase}
    (h : (w.setPhase i c phase).calls[j]? = some d) :
    j = i ∧ d = { c with phase := phase } ∨ j ≠ i ∧ w.calls[j]? = some d := by
  by_cases hj : j = i
  · subst hj
    obtain ⟨hlt, hd⟩ := List.getElem?_eq_some_iff.mp h
    simp only [setPhase, List.getElem_set_self] at hd
    exact .inl ⟨rfl, hd.symm⟩
  · simp only [setPhase, List.getElem?_set_ne (Ne.symm hj)] at h
    exact .inr ⟨hj, h⟩

theorem Locks.settle (h : w.Locks) {i : Nat} {c : Call} (result : Except CoordinatorError Reply)
    (hcalls : w'.calls = (w.setPhase i c (.settled result)).calls)
    (hrecord : ∀ (j : Nat) (d : Call), j ≠ i → w.calls[j]? = some d → d.holds = true →
      w'.record d.key = w.record d.key) :
    w'.Locks := by
  have hcases : ∀ {j : Nat} {d : Call}, w'.calls[j]? = some d → d.holds = true → j ≠ i ∧
      w.calls[j]? = some d := by
    intro j d hd hh
    rw [hcalls] at hd
    rcases setPhase_calls hd with ⟨-, rfl⟩ | hd
    · cases hh
    · exact hd
  refine h.release (fun j d hd hh => ?_) fun j d hd hh => ?_
  · obtain ⟨hj, hd⟩ := hcases hd hh
    exact hrecord j d hj hd hh
  · exact ⟨d, (hcases hd hh).2, rfl, hh, fun _ hp => hp⟩

/-! ### Steps that write -/

theorem record_set {key : JsString} {a : PendingGrantAuthority} (k : JsString) :
    (w.put key (.set a)).record k = if k = key then some a else w.record k := by
  unfold record put
  by_cases hk : k = key
  · subst hk
    simp [PendingGrantAuthority.ofJson_toJson]
  · simp [hk]

theorem record_remove {key : JsString} (k : JsString) :
    (w.put key .remove).record k = if k = key then none else w.record k := by
  unfold record put
  by_cases hk : k = key <;> simp [hk]

theorem Remembers.stored_set (h : w.Remembers) {key : JsString} {a : PendingGrantAuthority}
    (ha : storageKey a.organizationId a.actorId = key) (k : JsString) (raw : Stored)
    (hraw : (w.put key (.set a)).storage k = some raw) :
    ∃ a : PendingGrantAuthority, raw = some a.toJson ∧ storageKey a.organizationId a.actorId = k := by
  by_cases hk : k = key
  · subst hk
    simp only [put, Function.update_self, Option.some.injEq] at hraw
    exact ⟨a, hraw.symm, ha⟩
  · simp only [put, Function.update_of_ne hk] at hraw
    exact h.stored k raw hraw

theorem Remembers.issue (h : w.Remembers) {key : JsString} {a : PendingGrantAuthority}
    {l : InFlightLease} (hfree : ∀ l, ¬w.Holds key l)
    (ha : storageKey a.organizationId a.actorId = key) (hl : a.inFlightLease = some l)
    (hfresh : ∀ x ∈ w.claims, x.claim.leaseId ≠ l.leaseId) {claim : PendingGrantSendClaim}
    (hclaim : claim =
      { operationId := a.command.operationId, revision := a.revision, leaseId := l.leaseId })
    (hstorage : w'.storage = (w.put key (.set a)).storage)
    (hleases : w'.leases = w.leases ++ [{ key := key, lease := l }])
    (hclaims : w'.claims = w.claims ++ [{ key := key, claim := claim }])
    (hclock : w.clock ≤ w'.clock) :
    w'.Remembers := by
  have hrecord : ∀ k, w'.record k = if k = key then some a else w.record k := fun k => by
    rw [record_congr hstorage, record_set]
  refine ⟨fun k raw hraw => h.stored_set ha k raw (hstorage ▸ hraw), fun k x hx => ?_,
    fun k b x hb hx => ?_, ?_⟩
  · obtain ⟨hmem, hlt⟩ := hx
    rw [hleases] at hmem
    rw [hrecord]
    rcases List.mem_append.mp hmem with hmem | hmem
    · have hheld : w.Holds k x := ⟨hmem, lt_of_le_of_lt hclock hlt⟩
      have hk : k ≠ key := by
        rintro rfl
        exact hfree x hheld
      rw [if_neg hk]
      exact h.held k x hheld
    · cases List.mem_singleton.mp hmem
      rw [if_pos rfl]
      exact ⟨a, rfl, hl⟩
  · rw [hrecord] at hb
    unfold claimsOf
    rw [hclaims, List.filter_append, List.map_append]
    by_cases hk : k = key
    · subst hk
      rw [if_pos rfl] at hb
      cases hb
      rw [hl] at hx
      cases hx
      simp [hclaim]
    · rw [if_neg hk] at hb
      have hnil : [({ key := key, claim := claim } : IssuedClaim)].filter
          (fun x => x.key = k) = [] := by
        simp [Ne.symm hk]
      rw [hnil, List.map_nil, List.append_nil]
      exact h.last k b x hb hx
  · rw [hclaims, List.map_append, List.nodup_append]
    refine ⟨h.distinct, by simp, ?_⟩
    intro x hx y hy hxy
    obtain ⟨c, hc, rfl⟩ := List.mem_map.mp hx
    simp only [List.map_cons, List.map_nil, List.mem_singleton] at hy
    rw [hy, hclaim] at hxy
    exact hfresh c hc hxy

theorem Remembers.giveBack (h : w.Remembers) {key : JsString} {claim : PendingGrantSendClaim}
    (hcurrent : ∀ a, w.record key = some a → Current a claim)
    (hrecord : ∀ k, k ≠ key → w'.record k = w.record k)
    (hfree : ∀ a, w'.record key = some a → a.inFlightLease = none)
    (hstored : ∀ k raw, w'.storage k = some raw → ∃ a : PendingGrantAuthority, raw = some a.toJson ∧
      storageKey a.organizationId a.actorId = k)
    (hleases : w'.leases = w.leases.filter fun h => ¬(h.key = key ∧
        h.lease.leaseId = claim.leaseId)) (hclaims : w'.claims = w.claims)
    (hclock : w.clock ≤ w'.clock) : w'.Remembers := by
  refine ⟨hstored, fun k x hx => ?_, fun k b x hb hx => ?_, by rw [hclaims]; exact h.distinct⟩
  · obtain ⟨hmem, hlt⟩ := hx
    rw [hleases] at hmem
    obtain ⟨hmem, hkept⟩ := List.mem_filter.mp hmem
    obtain ⟨b, hb, hbl⟩ := h.held k x ⟨hmem, lt_of_le_of_lt hclock hlt⟩
    by_cases hk : k = key
    · subst hk
      obtain ⟨-, -, l, hl, hid⟩ := hcurrent b hb
      rw [hbl] at hl
      cases hl
      simp [hid] at hkept
    · rw [hrecord k hk]
      exact ⟨b, hb, hbl⟩
  · have hk : k ≠ key := by
      rintro rfl
      rw [hfree b hb] at hx
      cases hx
    rw [hrecord k hk] at hb
    unfold claimsOf
    rw [hclaims]
    exact h.last k b x hb hx

/-! ### Every step -/

/-- The body of a method ran on what its call had read. -/
theorem finish_cases {i : Nat} {now : ℚ} {leaseId : JsString} {out : JsString × Write}
    (hx : Event.step (.finish i now leaseId) w = .ok (out, w')) :
    ∃ c existing, w.calls[i]? = some c ∧ c.phase = .found existing ∧ w.clock ≤ now ∧
      (∀ x ∈ w.claims, x.claim.leaseId ≠ leaseId) ∧
      ((∃ write reply, Done c.deps c.orgId c.actorId w.clock now leaseId c.method existing write reply ∧
          out = (c.key, write) ∧
          w' =
            { ((w.put c.key write).note c.key c.method reply).setPhase i c (.settled (.ok reply)) with
              clock := now }) ∨
        ∃ e, out = ([], .unchanged) ∧ w' =
          { w.setPhase i c (.settled (.error e)) with clock := now }) := by
  simp only [Event.step, bind_eq_ok, orThrow_eq_ok, require_eq_ok] at hx
  obtain ⟨c, hc, -, ⟨hclock, hfresh⟩, hx⟩ := hx
  split at hx
  · rename_i existing hphase
    refine ⟨c, existing, hc, hphase, hclock, hfresh, ?_⟩
    split at hx
    · rename_i write reply hbody
      cases hx
      exact .inl ⟨write, reply, body_done hbody, rfl, rfl⟩
    · rename_i e hbody
      cases hx
      exact .inr ⟨e, rfl, rfl⟩
  · cases hx

theorem Sound.finish (h : w.Sound) {i : Nat} {now : ℚ} {leaseId : JsString} {out : JsString × Write}
    (hx : Event.step (.finish i now leaseId) w = .ok (out, w')) : w'.Sound := by
  obtain ⟨c, existing, hc, hphase, hclock, hfresh, hcases⟩ := finish_cases hx
  have hread : w.record c.key = existing := h.locks.current i c existing hc hphase
  have hholds : c.holds = true := by
    unfold Call.holds
    rw [hphase]
  have hother : ∀ (j : Nat) (d : Call), j ≠ i → w.calls[j]? = some d → d.holds = true →
      d.key ≠ c.key := by
    intro j d hj hd hh hkey
    exact hj (h.locks.exclusive j i d c hd hc hkey hh hholds)
  rcases hcases with ⟨write, reply, hdone, -, rfl⟩ | ⟨e, -, rfl⟩
  · have hlocks : ∀ {w₁ : Browser}, w₁.calls = w.calls → (∀ k, k ≠ c.key → w₁.record k = w.record k) →
        ({ w₁.setPhase i c (.settled (.ok reply)) with clock := now } : Browser).Locks := by
      intro w₁ hcalls hrecord
      have hset : (w₁.setPhase i c (.settled (.ok reply))).calls = (w.setPhase i c
          (.settled (.ok reply))).calls := by
        simp only [setPhase, hcalls]
      exact h.locks.settle (.ok reply) hset fun j d hj hd hh => hrecord d.key (hother j d hj hd hh)
    have hset : ∀ {a : PendingGrantAuthority} (k : JsString), k ≠ c.key →
        (w.put c.key (.set a)).record k = w.record k := by
      intro a k hk
      rw [record_set, if_neg hk]
    generalize hm : c.method = m at hdone ⊢
    cases hdone with
    | reserved command a ha =>
      have hfree : ∀ l, ¬w.Holds c.key l := by
        intro l hl
        obtain ⟨b, hb, -⟩ := h.remembers.held c.key l hl
        rw [hread] at hb
        cases hb
      have hkey : storageKey a.organizationId a.actorId = c.key := by
        rw [ha]
        rfl
      have hl : a.inFlightLease = some (c.deps.lease leaseId now) := by rw [ha]
      exact ⟨h.remembers.issue hfree hkey hl hfresh rfl rfl (by simp [setPhase, note, put,
            hl]) rfl hclock, hlocks rfl hset⟩
    | claimed existing a hlapsed ha =>
      have hfree : ∀ l, ¬w.Holds c.key l := by
        intro l hl
        obtain ⟨b, hb, hbl⟩ := h.remembers.held c.key l hl
        rw [hread] at hb
        cases hb
        exact absurd (hlapsed l hbl) (not_le.mpr hl.2)
      have hkey : storageKey a.organizationId a.actorId = c.key := by
        have hold := h.remembers.key hread
        rw [ha]
        exact hold
      have hl : a.inFlightLease = some (c.deps.lease leaseId now) := by rw [ha]
      exact ⟨h.remembers.issue hfree hkey hl hfresh rfl rfl (by simp [setPhase, note, put,
            hl]) rfl hclock, hlocks rfl hset⟩
    | released existing a claim hcurrent ha =>
      have hkey : storageKey a.organizationId a.actorId = c.key := by
        have hold := h.remembers.key hread
        rw [ha]
        exact hold
      have howned : ∀ b, w.record c.key = some b → Current b claim := by
        intro b hb
        rw [hread] at hb
        cases hb
        exact hcurrent
      have hfree : ∀ b, (w.put c.key (.set a)).record c.key = some b → b.inFlightLease = none := by
        intro b hb
        rw [record_set, if_pos rfl] at hb
        cases hb
        rw [ha]
      exact ⟨h.remembers.giveBack howned hset hfree (h.remembers.stored_set hkey) rfl rfl hclock,
        hlocks rfl hset⟩
    | cleared existing claim hcurrent =>
      have howned : ∀ b, w.record c.key = some b → Current b claim := by
        intro b hb
        rw [hread] at hb
        cases hb
        exact hcurrent
      have hremove : ∀ k, k ≠ c.key → (w.put c.key .remove).record k = w.record k := by
        intro k hk
        rw [record_remove, if_neg hk]
      have hfree : ∀ b, (w.put c.key .remove).record c.key = some b → b.inFlightLease = none := by
        intro b hb
        rw [record_remove, if_pos rfl] at hb
        cases hb
      have hstored : ∀ k raw, (w.put c.key .remove).storage k = some raw →
          ∃ a : PendingGrantAuthority, raw = some a.toJson ∧
          storageKey a.organizationId a.actorId = k := by
        intro k raw hraw
        refine h.remembers.stored k raw ?_
        by_cases hk : k = c.key
        · subst hk
          simp [put] at hraw
        · simpa [put, Function.update_of_ne hk] using hraw
      exact ⟨h.remembers.giveBack howned hremove hfree hstored rfl rfl hclock, hlocks rfl hremove⟩
    | gone claim =>
      have hnone : ∀ {P : PendingGrantAuthority → Prop} (b : PendingGrantAuthority),
          w.record c.key = some b → P b := by
        intro P b hb
        rw [hread] at hb
        cases hb
      exact ⟨h.remembers.giveBack hnone (fun _ _ => rfl) hnone h.remembers.stored rfl rfl hclock,
        hlocks rfl fun _ _ => rfl⟩
  · refine ⟨h.remembers.later rfl rfl rfl hclock, h.locks.settle (.error e) rfl fun _ _ _ _ _ => rfl⟩

theorem step_sound (h : w.Sound) {e : Event} {out : JsString × Write} (hx : e.step w = .ok (out, w')) :
    w'.Sound := by
  cases e with
  | call tab deps orgId actorId method =>
    cases hx
    refine ⟨h.remembers.later rfl rfl rfl (le_refl _),
      h.locks.release (fun _ _ _ _ => rfl) fun i c hc hh => ?_⟩
    rcases Nat.lt_or_ge i w.calls.length with hlt | hge
    · rw [List.getElem?_append_left hlt] at hc
      exact ⟨c, hc, rfl, hh, fun _ hp => hp⟩
    · rw [List.getElem?_append_right hge] at hc
      have hmem := List.mem_of_getElem? hc
      rw [List.mem_singleton] at hmem
      rw [hmem] at hh
      cases hh
  | acquire i =>
    simp only [Event.step, bind_eq_ok, orThrow_eq_ok] at hx
    obtain ⟨c, hc, hx⟩ := hx
    split at hx
    · simp only [bind_eq_ok, require_eq_ok, pure_eq_ok, Prod.mk.injEq] at hx
      obtain ⟨-, hfree, -, rfl⟩ := hx
      refine ⟨h.remembers.later rfl rfl rfl (le_refl _), ⟨fun j k d x hd hx hkey hhd hhx => ?_,
          fun j d existing hd hp => ?_⟩⟩
      · have hfree' : ∀ {j : Nat} {d : Call}, w.calls[j]? = some d → d.key = c.key →
            d.holds = true → False := by
          intro j d hd hk hh
          rw [hfree d (List.mem_of_getElem? hd) hk] at hh
          cases hh
        rcases setPhase_calls hd with ⟨rfl, rfl⟩ | ⟨-, hd⟩
        · rcases setPhase_calls hx with ⟨rfl, -⟩ | ⟨-, hx⟩
          · rfl
          · exact (hfree' hx hkey.symm hhx).elim
        · have hnot := hfree' hd
          rcases setPhase_calls hx with ⟨rfl, rfl⟩ | ⟨-, hx⟩
          · exact (hnot hkey hhd).elim
          · exact h.locks.exclusive j k d x hd hx hkey hhd hhx
      · rcases setPhase_calls hd with ⟨-, rfl⟩ | ⟨-, hd⟩
        · cases hp
        · exact h.locks.current j d existing hd hp
    · cases hx
  | read i =>
    simp only [Event.step, bind_eq_ok, orThrow_eq_ok] at hx
    obtain ⟨c, hc, hx⟩ := hx
    split at hx
    · rename_i hphase
      rw [h.remembers.readAuthority] at hx
      cases hx
      have hholds : c.holds = true := by
        unfold Call.holds
        rw [hphase]
      refine ⟨h.remembers.later rfl rfl rfl (le_refl _), ⟨fun j k d x hd hx hkey hhd hhx => ?_,
          fun j d existing hd hp => ?_⟩⟩
      · have hback : ∀ {j : Nat} {d : Call},
            (w.setPhase i c (.found (w.record c.key))).calls[j]? = some d →
            d.holds = true → ∃ x, w.calls[j]? = some x ∧ x.key = d.key ∧ x.holds = true := by
          intro j d hd hh
          rcases setPhase_calls hd with ⟨rfl, rfl⟩ | ⟨-, hd⟩
          · exact ⟨c, hc, rfl, hholds⟩
          · exact ⟨d, hd, rfl, hh⟩
        obtain ⟨d', hd', hdk, hdh⟩ := hback hd hhd
        obtain ⟨x', hx', hxk, hxh⟩ := hback hx hhx
        exact h.locks.exclusive j k d' x' hd' hx' (hdk.trans (hkey.trans hxk.symm)) hdh hxh
      · rcases setPhase_calls hd with ⟨-, rfl⟩ | ⟨-, hd⟩
        · cases hp
          rfl
        · exact h.locks.current j d existing hd hp
    · cases hx
  | finish i now leaseId => exact h.finish hx
  | fail i reason =>
    simp only [Event.step, bind_eq_ok, orThrow_eq_ok] at hx
    obtain ⟨c, hc, hx⟩ := hx
    have hw : w' = w.setPhase i c (.settled (.error (.coordinationUnavailable reason))) := by
      split at hx
      · cases hx
      · cases hx
      · cases hx
        rfl
    subst hw
    exact ⟨h.remembers.later rfl rfl rfl (le_refl _), h.locks.settle _ rfl fun _ _ _ _ _ => rfl⟩
  | crash tab =>
    cases hx
    refine ⟨h.remembers.later rfl rfl rfl (le_refl _),
      h.locks.release (fun _ _ _ _ => rfl) fun i c hc hh => ?_⟩
    rw [List.getElem?_map, Option.map_eq_some_iff] at hc
    obtain ⟨d, hd, rfl⟩ := hc
    by_cases ht : d.tab = tab
    · rw [if_pos ht] at hh
      cases hh
    · rw [if_neg ht] at hh ⊢
      exact ⟨d, hd, rfl, hh, fun _ hp => hp⟩
  | tick now =>
    simp only [Event.step, bind_eq_ok, require_eq_ok, pure_eq_ok, Prod.mk.injEq] at hx
    obtain ⟨-, hclock, -, rfl⟩ := hx
    exact ⟨h.remembers.later rfl rfl rfl hclock, ⟨h.locks.exclusive, h.locks.current⟩⟩

theorem run_sound (now : ℚ) (events : List Event) : (run Event.step (start now) events).Sound :=
  run_invariant Event.step (fun _ _ _ _ h hx => step_sound h hx) events _ (start_sound now)

/-! ## What a step does to a record -/

theorem step_quiet {e : Event} {out : JsString × Write} (hx : e.step w = .ok (out, w'))
    (he : ∀ i now leaseId, e ≠ .finish i now leaseId) :
    out.2 = .unchanged ∧ w'.storage = w.storage := by
  cases e with
  | call tab deps orgId actorId method =>
    cases hx
    exact ⟨rfl, rfl⟩
  | acquire i =>
    simp only [Event.step, bind_eq_ok, orThrow_eq_ok] at hx
    obtain ⟨c, -, hx⟩ := hx
    split at hx
    · simp only [bind_eq_ok, require_eq_ok, pure_eq_ok, Prod.mk.injEq] at hx
      obtain ⟨-, -, rfl, rfl⟩ := hx
      exact ⟨rfl, rfl⟩
    · cases hx
  | read i =>
    simp only [Event.step, bind_eq_ok, orThrow_eq_ok] at hx
    obtain ⟨c, -, hx⟩ := hx
    split at hx
    · split at hx <;>
      · cases hx
        exact ⟨rfl, rfl⟩
    · cases hx
  | finish i now leaseId => exact absurd rfl (he i now leaseId)
  | fail i reason =>
    simp only [Event.step, bind_eq_ok, orThrow_eq_ok] at hx
    obtain ⟨c, -, hx⟩ := hx
    split at hx
    · cases hx
    · cases hx
    · cases hx
      exact ⟨rfl, rfl⟩
  | crash tab =>
    cases hx
    exact ⟨rfl, rfl⟩
  | tick now =>
    simp only [Event.step, bind_eq_ok, require_eq_ok, pure_eq_ok, Prod.mk.injEq] at hx
    obtain ⟨-, -, rfl, rfl⟩ := hx
    exact ⟨rfl, rfl⟩

theorem note_storage (w : Browser) (key : JsString) (m : Method) (reply : Reply) :
    (w.note key m reply).storage = w.storage := by
  cases reply <;> cases m <;> rfl

inductive Rewrites (w : Browser) (c : Call) (a : PendingGrantAuthority) : Write →
    Option PendingGrantAuthority → Prop
  | takenOver (b : PendingGrantAuthority) (hm : c.method = .claimForSend a.command)
      (hlapsed : Lapsed a.inFlightLease w.clock) (hcommand : b.command = a.command)
        (hrevision : a.revision < b.revision) :
      Rewrites w c a (.set b) (some b)
  | released (b : PendingGrantAuthority) (claim : PendingGrantSendClaim)
      (hm : c.method = .releaseIndeterminate claim)
      (hcurrent : Current a claim) (hlease : b.inFlightLease = none) (hcommand : b.command = a.command)
      (hrevision : a.revision < b.revision) : Rewrites w c a (.set b) (some b)
  | cleared (claim : PendingGrantSendClaim) (hm : c.method = .clearConfirmed claim)
      (hcurrent : Current a claim) : Rewrites w c a .remove none

theorem Sound.step_record (h : w.Sound) {e : Event} {out : JsString × Write}
    (hx : e.step w = .ok (out, w')) {key : JsString} {a : PendingGrantAuthority}
    (ha : w.record key = some a) :
    (w'.record key = some a ∧ (out.1 = key → out.2 = .unchanged)) ∨
      ∃ i now leaseId c, e = .finish i now leaseId ∧ w.calls[i]? = some c ∧ c.key = key ∧ out.1 = key ∧
        Rewrites w c a out.2 (w'.record key) := by
  by_cases he : ∀ i now leaseId, e ≠ .finish i now leaseId
  · obtain ⟨hout, hstorage⟩ := step_quiet hx he
    exact .inl ⟨(record_congr hstorage key).trans ha, fun _ => hout⟩
  · obtain ⟨i, now, leaseId, rfl⟩ : ∃ i now leaseId, e = .finish i now leaseId := by
      by_contra hn
      exact he fun i now leaseId heq => hn ⟨i, now, leaseId, heq⟩
    obtain ⟨c, existing, hc, hphase, -, -, hcases⟩ := finish_cases hx
    rcases hcases with ⟨write, reply, hdone, rfl, hw⟩ | ⟨e, rfl, rfl⟩
    · have hread : w.record c.key = existing := h.locks.current i c existing hc hphase
      have hstorage : w'.storage = (w.put c.key write).storage := by
        rw [hw]
        exact note_storage _ _ _ _
      by_cases hkey : c.key = key
      · subst hkey
        rw [ha] at hread
        subst hread
        refine .inr ⟨i, now, leaseId, c, rfl, hc, rfl, rfl, ?_⟩
        rw [record_congr hstorage]
        generalize hm : c.method = m at hdone
        cases hdone with
        | claimed _ b hlapsed hb =>
          rw [record_set, if_pos rfl]
          exact .takenOver b hm hlapsed (by rw [hb]) (by rw [hb]; exact lt_add_one _)
        | released _ b claim hcurrent hb =>
          rw [record_set, if_pos rfl]
          exact .released b claim hm hcurrent (by rw [hb]) (by rw [hb]) (by rw [hb]; exact lt_add_one _)
        | cleared _ claim hcurrent =>
          rw [record_remove, if_pos rfl]
          exact .cleared claim hm hcurrent
      · refine .inl ⟨?_, fun hk => absurd hk hkey⟩
        rw [record_congr hstorage, ← ha]
        cases write with
        | unchanged => rfl
        | set b => rw [record_set, if_neg (Ne.symm hkey)]
        | remove => rw [record_remove, if_neg (Ne.symm hkey)]
    · exact .inl ⟨(record_congr rfl key).trans ha, fun _ => rfl⟩

theorem Remembers.current_last (h : w.Remembers) {key : JsString} {a : PendingGrantAuthority}
    {claim : PendingGrantSendClaim} (ha : w.record key = some a) (hc : Current a claim) :
    (w.claimsOf key).getLast? = some claim := by
  obtain ⟨hop, hrevision, l, hl, hid⟩ := hc
  rw [h.last key a l ha hl, hop, hrevision, hid]

end Browser

open Browser in
/-- In every run, an operator has one record at most, with one held lease at
most; its command stays, its revision grows with every write, and only the
claim issued last, current in all its parts, releases or clears it. -/
theorem coordination_sound (now : ℚ) (events : List Event) :
    let w := run Event.step (Browser.start now) events
    (∀ (key key' : JsString) (a b : PendingGrantAuthority),
      w.record key = some a → w.record key' = some b →
      a.organizationId = b.organizationId → a.actorId = b.actorId → key = key' ∧ a = b) ∧
    (∀ (key : JsString) (l l' : InFlightLease), w.Holds key l → w.Holds key l' →
      l = l' ∧ ∃ a, w.record key = some a ∧ a.inFlightLease = some l) ∧
    (∀ (key : JsString) (a : PendingGrantAuthority) (claim : PendingGrantSendClaim),
      w.record key = some a → Current a claim → (w.claimsOf key).getLast? = some claim) ∧
    (w.claims.map (·.claim.leaseId)).Nodup ∧
    ∀ (e : Event) (out : JsString × Write) (w' : Browser), e.step w = .ok (out, w') →
      ∀ (key : JsString) (a : PendingGrantAuthority), w.record key = some a →
        (w'.record key = some a ∧ (out.1 = key → out.2 = .unchanged)) ∨
          ∃ i t leaseId c, e = .finish i t leaseId ∧ w.calls[i]? = some c ∧ c.key = key ∧ out.1 = key ∧
            Rewrites w c a out.2 (w'.record key) := by
  intro w
  have hsound : w.Sound := run_sound now events
  refine ⟨?_, ?_, ?_, hsound.remembers.distinct, ?_⟩
  · intro key key' a b ha hb horg hactor
    exact hsound.remembers.unique ha hb horg hactor
  · intro key l l' hl hl'
    obtain ⟨a, ha, hal⟩ := hsound.remembers.held key l hl
    obtain ⟨b, hb, hbl⟩ := hsound.remembers.held key l' hl'
    rw [ha] at hb
    cases hb
    rw [hal] at hbl
    exact ⟨Option.some.inj hbl, a, ha, hal⟩
  · intro key a claim ha hc
    exact hsound.remembers.current_last ha hc
  · intro e out w' hx key a ha
    exact hsound.step_record hx ha

def sampleCommand : PendingGrantCommand :=
  { attemptId := js "attempt", operationId := js "op", addedSeconds := 60, reasonCode := js "code",
    reasonText := js "text" }

/-- A tab reserves, its lease lapses, another tab takes over, and the late
answer of the first tab tries to clear. -/
def sampleEvents : List Event :=
  [.call 0 { tabId := js "a", leaseDurationMs := 30 } (js "org") (js "user") (.reserve sampleCommand),
    .acquire 0, .read 0, .finish 0 0 (js "l1"), .tick 30,
    .call 1 { tabId := js "b", leaseDurationMs := 30 } (js "org") (js "user")
      (.claimForSend sampleCommand),
    .acquire 1, .read 1, .finish 1 31 (js "l2"),
    .call 0 { tabId := js "a", leaseDurationMs := 30 } (js "org") (js "user")
      (.clearConfirmed { operationId := js "op", revision := 1, leaseId := js "l1" }),
    .acquire 2, .read 2, .finish 2 40 (js "l3")]

theorem coordination_sound_sample :
    let w := run Event.step (Browser.start 0) sampleEvents
    let l : InFlightLease := { tabId := js "b", leaseId := js "l2", expiresAt := 61 }
    w.Holds (storageKey (js "org") (js "user")) l ∧
      ∃ a, w.record (storageKey (js "org") (js "user")) = some a ∧ a.inFlightLease = some l ∧
      a.revision = 2 := by
  intro w l
  have hholds : w.Holds (storageKey (js "org") (js "user")) l := by decide +kernel
  obtain ⟨a, ha, hl⟩ := ((coordination_sound 0 sampleEvents).2.1 _ l l hholds hholds).2
  have hrevision : ∀ a, w.record (storageKey (js "org") (js "user")) = some a → a.revision = 2 := by
    have h : (w.record (storageKey (js "org") (js "user"))).all
      (fun a => decide (a.revision = 2)) = true := by decide +kernel
    intro a ha
    rw [ha] at h
    exact of_decide_eq_true h
  exact ⟨hholds, a, ha, hl, hrevision a ha⟩

end ExamSystem.PendingGrants
