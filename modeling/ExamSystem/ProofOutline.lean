import ExamSystem.Interleaving

/-!
# Proving interleaved transactions

`Prog.wp` describes what a transaction knows at its commit when the other
transactions respect a relation between its statements. An `Outline` gives the
invariant of the committed states, that relation, and what each program knows at
its commit; `Outline.sound` carries it to every run of the machine. Nothing here
is about a particular program.
-/

namespace Interleaving

open Journal Machine

variable {σ δ κ ε ρ α β : Type} [Journal σ δ κ]

/-! ## What a program knows at its commit -/

section
variable (Rely : List κ → σ → σ → Prop) (Inv : σ → Prop)

/-- `Q` holds at the commit of the program, whatever the others commit before
each of its statements and before the commit. -/
def Prog.wp (Q : α → List κ → List δ → σ → Prop) : Prog σ δ κ ε α → List κ → List δ → σ → Prop
  | .done a, held, log, s => ∀ s', Rely held s s' → Inv s' → Q a held log s'
  | .fail _, _, _, _ => True
  | .stmt locks writes next, held, log, s => ∀ s', Rely held s s' → Inv s' →
      (next (applyAll s' log)).wp Q (needs locks writes (applyAll s' log) ++ held)
        (log ++ writes (applyAll s' log)) s'

end

section
variable {Rely : List κ → σ → σ → Prop} {Inv : σ → Prop} {Q : α → List κ → List δ → σ → Prop}
  {held : List κ} {log : List δ} {s : σ}

theorem wp_mono {Q' : α → List κ → List δ → σ → Prop}
    (h : ∀ a held log s, Inv s → Q a held log s → Q' a held log s) {p : Prog σ δ κ ε α}
    (hp : p.wp Rely Inv Q held log s) : p.wp Rely Inv Q' held log s := by
  induction p generalizing held log s with
  | done a => exact fun s' hs hi => h a held log s' hi (hp s' hs hi)
  | fail e => exact trivial
  | stmt locks writes next ih => exact fun s' hs hi => ih _ (hp s' hs hi)

theorem wp_bind (hrefl : ∀ held s, Rely held s s) (hs : Inv s) {Q : β → List κ → List δ → σ → Prop}
    {p : Prog σ δ κ ε α} {f : α → Prog σ δ κ ε β}
    (hp : p.wp Rely Inv (fun a held log s => (f a).wp Rely Inv Q held log s) held log s) :
    (p >>= f).wp Rely Inv Q held log s := by
  induction p generalizing held log s with
  | done a => exact hp s (hrefl held s) hs
  | fail e => exact trivial
  | stmt locks writes next ih => exact fun s' hr hi => ih _ hi (hp s' hr hi)

theorem wp_stable (htrans : ∀ held s t u, Rely held s t → Rely held t u → Rely held s u)
    {p : Prog σ δ κ ε α} {s' : σ} (h : Rely held s s') (hp : p.wp Rely Inv Q held log s) :
    p.wp Rely Inv Q held log s' := by
  cases p with
  | done a => exact fun u hu hi => hp u (htrans held s s' u h hu) hi
  | fail e => exact trivial
  | stmt locks writes next => exact fun u hu hi => hp u (htrans held s s' u h hu) hi

theorem wp_and {Q' : α → List κ → List δ → σ → Prop} {p : Prog σ δ κ ε α}
    (hp : p.wp Rely Inv Q held log s) (hp' : p.wp Rely Inv Q' held log s) :
    p.wp Rely Inv (fun a held log s => Q a held log s ∧ Q' a held log s) held log s := by
  induction p generalizing held log s with
  | done a => exact fun s' hr hi => ⟨hp s' hr hi, hp' s' hr hi⟩
  | fail e => exact trivial
  | stmt locks writes next ih => exact fun s' hr hi => ih _ (hp s' hr hi) (hp' s' hr hi)

/-- What holds against others that may do more holds against others that may do less. -/
theorem wp_restrict {Rely' : List κ → σ → σ → Prop} {Inv' : σ → Prop}
    (hrely : ∀ held s s', Rely' held s s' → Rely held s s') (hinv : ∀ s, Inv' s → Inv s)
    {p : Prog σ δ κ ε α} (hp : p.wp Rely Inv Q held log s) : p.wp Rely' Inv' Q held log s := by
  induction p generalizing held log s with
  | done a => exact fun s' hr hi => hp s' (hrely held s s' hr) (hinv s' hi)
  | fail e => exact trivial
  | stmt locks writes next ih => exact fun s' hr hi => ih _ (hp s' (hrely held s s' hr) (hinv s' hi))

/-- The writes of every path are known at the commit. -/
theorem wp_emits {P : δ → Prop} {p : Prog σ δ κ ε α} (he : p.Emits P) (hl : ∀ w ∈ log, P w)
    (hp : p.wp Rely Inv Q held log s) :
    p.wp Rely Inv (fun a held log s => Q a held log s ∧ ∀ w ∈ log, P w) held log s := by
  induction p generalizing held log s with
  | done a => exact fun s' hr hi => ⟨hp s' hr hi, hl⟩
  | fail e => exact trivial
  | stmt locks writes next ih =>
    intro s' hr hi
    refine ih _ (he (applyAll s' log)).2 ?_ (hp s' hr hi)
    intro w hw
    rcases List.mem_append.mp hw with hw | hw
    · exact hl w hw
    · exact (he (applyAll s' log)).1 w hw

theorem wp_budget {q : δ → Bool} {n : Nat} {p : Prog σ δ κ ε α} (hb : p.Budget q n) {m : Nat}
    (hl : log.countP q + n ≤ m) (hp : p.wp Rely Inv Q held log s) :
    p.wp Rely Inv (fun a held log s => Q a held log s ∧ log.countP q ≤ m) held log s := by
  induction p generalizing held log s n with
  | done a => exact fun s' hr hi => ⟨hp s' hr hi, by omega⟩
  | fail e => exact trivial
  | stmt locks writes next ih =>
    intro s' hr hi
    have hw := (hb (applyAll s' log)).1
    refine ih _ (hb (applyAll s' log)).2 ?_ (hp s' hr hi)
    rw [List.countP_append]
    omega

/-- What the others keep under the held keys, a program keeps. -/
theorem wp_keeps {P : List κ → σ → Prop}
    (hrely : ∀ held s s', P held s → Rely held s s' → P held s')
    (hheld : ∀ held held' s, (∀ k ∈ held, k ∈ held') → P held s → P held' s) {p : Prog σ δ κ ε α}
    (h : P held s) :
    p.wp Rely Inv (fun _ held _ s => P held s) held log s := by
  induction p generalizing held log s with
  | done a => exact fun s' hr _ => hrely held s s' h hr
  | fail e => exact trivial
  | stmt locks writes next ih =>
    exact fun s' hr _ => ih _ (hheld held _ s' (fun k hk => List.mem_append_right _ hk)
        (hrely held s s' h hr))

/-- Past a program of which only its writes are known, with what the others keep. -/
theorem wp_past (hrefl : ∀ held s, Rely held s s) (hs : Inv s) {Q : β → List κ → List δ → σ → Prop}
    {P : δ → Prop} {A : List κ → σ → Prop}
    (hrely : ∀ held s s', A held s → Rely held s s' → A held s')
    (hheld : ∀ held held' s, (∀ k ∈ held, k ∈ held') → A held s → A held' s) {p : Prog σ δ κ ε α}
    {f : α → Prog σ δ κ ε β} (he : p.Emits P) (hl : ∀ w ∈ log, P w) (ha : A held s)
    (h : ∀ a K L s', Inv s' → A K s' → (∀ w ∈ L, P w) → (f a).wp Rely Inv Q K L s') :
    (p >>= f).wp Rely Inv Q held log s :=
  wp_bind hrefl hs (wp_mono (fun a K L s' hi hp => h a K L s' hi hp.1 hp.2)
      (wp_emits he hl (wp_keeps hrely hheld ha)))

/-- What the others keep and the writes of the program extend, a program carries to its commit. -/
theorem wp_carries {P : δ → Prop} {A : List κ → List δ → σ → Prop}
    (hrely : ∀ held log s s', A held log s → Rely held s s' → Inv s' → A held log s')
    (hstep : ∀ held held' log ws s, (∀ k ∈ held, k ∈ held') → (∀ w ∈ ws, P w) → A held log s →
      A held' (log ++ ws) s) {p : Prog σ δ κ ε α} (he : p.Emits P) (h : A held log s) :
    p.wp Rely Inv (fun _ held log s => A held log s) held log s := by
  induction p generalizing held log s with
  | done a => exact fun s' hr hi => hrely held log s s' h hr hi
  | fail e => exact trivial
  | stmt locks writes next ih =>
    intro s' hr hi
    refine ih _ (he (applyAll s' log)).2
      (hstep held _ log _ s' (fun k hk => List.mem_append_right _ hk) (he (applyAll s' log)).1 ?_)
    exact hrely held log s s' h hr hi

theorem wp_through (hrefl : ∀ held s, Rely held s s) (hs : Inv s)
    {Q : β → List κ → List δ → σ → Prop} {P : δ → Prop} {A : List κ → List δ → σ → Prop}
    (hrely : ∀ held log s s', A held log s → Rely held s s' → Inv s' → A held log s')
    (hstep : ∀ held held' log ws s, (∀ k ∈ held, k ∈ held') → (∀ w ∈ ws, P w) → A held log s →
      A held' (log ++ ws) s) {p : Prog σ δ κ ε α} {f : α → Prog σ δ κ ε β} (he : p.Emits P)
    (ha : A held log s) (h : ∀ a K L s', Inv s' → A K L s' → (f a).wp Rely Inv Q K L s') :
    (p >>= f).wp Rely Inv Q held log s :=
  wp_bind hrefl hs (wp_mono (fun a K L s' hi ha => h a K L s' hi ha) (wp_carries hrely hstep he ha))

theorem wp_map {Q : β → List κ → List δ → σ → Prop} {f : α → β} {p : Prog σ δ κ ε α}
    (hp : p.wp Rely Inv (fun a held log s => Q (f a) held log s) held log s) :
    (p >>= fun a => .done (f a)).wp Rely Inv Q held log s := by
  induction p generalizing held log s with
  | done a => exact hp
  | fail e => exact trivial
  | stmt locks writes next ih => exact fun s' hr hi => ih _ (hp s' hr hi)

/-- Nothing has to be known of a program to run it. -/
theorem wp_true (p : Prog σ δ κ ε α) : p.wp Rely Inv (fun _ _ _ _ => True) held log s := by
  induction p generalizing held log s with
  | done a => exact fun _ _ _ => trivial
  | fail e => exact trivial
  | stmt locks writes next ih => exact fun s' _ _ => ih _

end

/-! ## Slots of the machine -/

section
variable {m : Machine σ δ κ ε ρ α} {i j : Nat} {t u : Running σ δ κ ε ρ α}

omit [Journal σ δ κ] in
theorem slot_lt (h : m.slot i = some t) : i < m.slots.length := by
  apply Nat.lt_of_not_le
  intro hle
  rw [slot, List.getElem?_eq_none hle] at h
  cases h

omit [Journal σ δ κ] in
theorem slot_put_none : (m.put i none).slot j = if j = i then none else m.slot j := by
  simp only [slot, put, List.getElem?_set]
  by_cases h : j = i
  · subst h
    by_cases hl : j < m.slots.length <;> simp [hl]
  · simp [h, Ne.symm h]

omit [Journal σ δ κ] in
theorem slot_put_some (h : m.slot i = some t) :
    (m.put i (some u)).slot j = if j = i then some u else m.slot j := by
  simp only [slot, put, List.getElem?_set]
  by_cases hj : j = i
  · subst hj
    simp [slot_lt h]
  · simp [hj, Ne.symm hj]

omit [Journal σ δ κ] in
theorem mem_others {k : κ} : k ∈ m.others i ↔ ∃ j t, j ≠ i ∧ m.slot j = some t ∧ k ∈ t.held := by
  have hmem : k ∈ m.others i ↔ ∃ j t, (m.put i none).slot j = some t ∧ k ∈ t.held := by
    constructor
    · intro hk
      obtain ⟨o, ho, hk⟩ := List.mem_flatMap.mp hk
      obtain ⟨j, hj⟩ := List.mem_iff_getElem?.mp ho
      cases o with
      | none => simp [heldBy] at hk
      | some t => exact ⟨j, t, by simp [slot, put, hj], by simpa [heldBy] using hk⟩
    · intro ⟨j, t, hj, hk⟩
      refine List.mem_flatMap.mpr ⟨some t,
        List.mem_iff_getElem?.mpr ⟨j, ?_⟩, by simpa [heldBy] using hk⟩
      simpa [slot, put, Option.join_eq_some_iff] using hj
  rw [hmem]
  constructor
  · intro ⟨j, t, hj, hk⟩
    rw [slot_put_none] at hj
    by_cases h : j = i
    · simp [h] at hj
    · exact ⟨j, t, h, by simpa [h] using hj, hk⟩
  · intro ⟨j, t, hne, hj, hk⟩
    exact ⟨j, t, by rw [slot_put_none, if_neg hne]; exact hj, hk⟩

omit [Journal σ δ κ] in
theorem slot_start {r : ρ} {p : Prog σ δ κ ε α}
    (h : ({ m with slots := m.slots ++ [some ⟨r, [], [], p⟩] } : Machine σ δ κ ε ρ α).slot
        i = some t) :
    m.slot i = some t ∨ t = ⟨r, [], [], p⟩ := by
  simp only [slot, List.getElem?_append] at h
  by_cases hi : i < m.slots.length
  · rw [if_pos hi] at h
    exact .inl h
  · rw [if_neg hi] at h
    cases hn : i - m.slots.length with
    | zero => rw [hn] at h; exact .inr (by simpa using h.symm)
    | succ n => rw [hn] at h; simp at h

end

/-! ## Commits of a run -/

variable [DecidableEq κ]

/-- The commits lead from one state to another, each from where the last one ended. -/
def Path : σ → List (Commit σ κ ρ α) → σ → Prop
  | s, [], s' => s = s'
  | s, c :: cs, s' => s = c.before ∧ Path c.after cs s'

section
variable (prog : ρ → Prog σ δ κ ε α)

omit [Journal σ δ κ] [DecidableEq κ] in
theorem path_append {cs ds : List (Commit σ κ ρ α)} {s' : σ} :
    ∀ {s : σ}, Path s (cs ++ ds) s' → ∃ t, Path s cs t ∧ Path t ds s' := by
  induction cs with
  | nil => intro s h; exact ⟨s, rfl, h⟩
  | cons b cs ih =>
    intro s h
    obtain ⟨t, ht, hd⟩ := ih h.2
    exact ⟨t, ⟨h.1, ht⟩, hd⟩

omit [Journal σ δ κ] [DecidableEq κ] in
/-- What every commit of a path keeps, the path keeps. -/
theorem path_keeps {P : σ → Prop} {cs : List (Commit σ κ ρ α)} {s' : σ} :
    ∀ {s : σ}, Path s cs s' → (∀ c ∈ cs, P c.before → P c.after) →
    P s → P s' := by
  induction cs with
  | nil => intro s h _ hs; exact h ▸ hs
  | cons c cs ih =>
    intro s h hc hs
    exact ih h.2 (fun d hd => hc d (List.mem_cons_of_mem c hd)) (hc c List.mem_cons_self (h.1 ▸ hs))

omit [Journal σ δ κ] [DecidableEq κ] in
/-- It holds before and after each commit on the way. -/
theorem path_visits {P : σ → Prop} {cs : List (Commit σ κ ρ α)} {s' : σ} :
    ∀ {s : σ}, Path s cs s' → (∀ c ∈ cs, P c.before → P c.after) →
    P s → ∀ c ∈ cs, P c.before ∧ P c.after := by
  induction cs with
  | nil => intro s _ _ _ c hc; exact absurd hc List.not_mem_nil
  | cons c cs ih =>
    intro s h hkeeps hs d hd
    have hbefore : P c.before := h.1 ▸ hs
    have hafter := hkeeps c List.mem_cons_self hbefore
    rcases List.mem_cons.mp hd with rfl | hd
    · exact ⟨hbefore, hafter⟩
    · exact ih h.2 (fun e he => hkeeps e (List.mem_cons_of_mem c he)) hafter d hd

omit [Journal σ δ κ] [DecidableEq κ] in
/-- What holds after one of the commits and is kept by the others holds at the end. -/
theorem path_after {P : σ → Prop} {cs : List (Commit σ κ ρ α)} {s s' : σ} (h : Path s cs s')
    (hkeeps : ∀ d ∈ cs, P d.before → P d.after) {c : Commit σ κ ρ α} (hc : c ∈ cs) (hP : P c.after) :
    P s' := by
  obtain ⟨as, bs, rfl⟩ := List.append_of_mem hc
  obtain ⟨_, _, hrest⟩ := path_append h
  exact path_keeps hrest.2
    (fun d hd => hkeeps d (List.mem_append_right as (List.mem_cons_of_mem c hd))) hP

/-- A step changes the committed state by a commit or not at all. -/
theorem step_history (m : Machine σ δ κ ε ρ α) (e : Event ρ) :
    ((step prog m e).committed = m.committed ∧ (step prog m e).history = m.history) ∨
      ∃ c : Commit σ κ ρ α, c.before = m.committed ∧ c.after = (step prog m e).committed ∧
        (step prog m e).history = m.history ++ [c] := by
  cases e with
  | start r => exact .inl ⟨rfl, rfl⟩
  | cancel i => exact .inl ⟨rfl, rfl⟩
  | advance i =>
    simp only [step]
    split
    · exact .inl ⟨rfl, rfl⟩
    · split
      · exact .inl ⟨rfl, rfl⟩
      · split
        · exact .inr ⟨_, rfl, rfl, rfl⟩
        · exact .inl ⟨rfl, rfl⟩
      · split
        · exact .inl ⟨rfl, rfl⟩
        · exact .inl ⟨rfl, rfl⟩

/-- A run adds commits to the history, and they lead to its committed state. -/
theorem run_commits :
    ∀ (es : List (Event ρ)) (m : Machine σ δ κ ε ρ α), ∃ cs, (run prog m es).history = m.history ++ cs ∧
    Path m.committed cs (run prog m es).committed
  | [], m => ⟨[], by simp [run], rfl⟩
  | e :: es, m => by
    obtain ⟨cs, hh, hp⟩ := run_commits es (step prog m e)
    rcases step_history prog m e with ⟨hsame, hcommits⟩ | ⟨c, hb, ha, hcommits⟩
    · exact ⟨cs, hcommits ▸ hh, hsame ▸ hp⟩
    · refine ⟨c :: cs, ?_, hb.symm, ha ▸ hp⟩
      rw [show run prog m (e :: es) = run prog (step prog m e) es from rfl, hh, hcommits,
        List.append_assoc]
      rfl

theorem run_history_mono (es : List (Event ρ)) (m : Machine σ δ κ ε ρ α) :
    ∀ c ∈ m.history, c ∈ (run prog m es).history := by
  intro c hc
  obtain ⟨cs, hh, _⟩ := run_commits prog es m
  rw [hh]
  exact List.mem_append_left cs hc

/-- The requests in flight and in the history are requests that were started. -/
theorem run_requests {R : ρ → Prop} :
    ∀ (es : List (Event ρ)) (m : Machine σ δ κ ε ρ α), (∀ r, .start r ∈ es → R r) →
    (∀ i t, m.slot i = some t → R t.request) → (∀ c ∈ m.history, R c.request) →
    ∀ c ∈ (run prog m es).history, R c.request
  | [], _, _, _, hh => hh
  | e :: es, m, hes, hs, hh => by
    have hstep : (∀ i t, (step prog m e).slot i = some t → R t.request) ∧
        ∀ c ∈ (step prog m e).history, R c.request := by
      cases e with
      | start r =>
        refine ⟨fun i t ht => ?_, hh⟩
        rcases slot_start ht with ht | rfl
        · exact hs i t ht
        · exact hes r List.mem_cons_self
      | cancel i =>
        refine ⟨fun j t ht => ?_, hh⟩
        rw [step, slot_put_none] at ht
        split at ht
        · cases ht
        · exact hs j t ht
      | advance i =>
        have hdrop : ∀ j t, (m.put i none).slot j = some t → R t.request := by
          intro j t ht
          rw [slot_put_none] at ht
          split at ht
          · cases ht
          · exact hs j t ht
        simp only [step]
        split
        · exact ⟨hs, hh⟩
        case _ t ht =>
          split
          · exact ⟨hdrop, hh⟩
          · split
            · refine ⟨hdrop, fun c hc => ?_⟩
              rcases List.mem_append.mp hc with hc | hc
              · exact hh c hc
              · rw [List.mem_singleton.mp hc]
                exact hs i t ht
            · exact ⟨hdrop, hh⟩
          · split
            · refine ⟨fun j u hu => ?_, hh⟩
              rw [slot_put_some ht] at hu
              split at hu
              · rw [← Option.some.inj hu]
                exact hs i t ht
              · exact hs j u hu
            · exact ⟨hs, hh⟩
    exact run_requests es (step prog m e) (fun r hr => hes r (List.mem_cons_of_mem e hr))
      hstep.1 hstep.2

end

/-! ## Outlines -/

/-- The obligations of a proof about every run: an invariant of the committed
states, what every commit keeps for a transaction that holds given keys, and
what each program knows at its commit. `Good` restricts the commits of the runs. -/
structure Outline (prog : ρ → Prog σ δ κ ε α) (Good : Commit σ κ ρ α → Prop) where
  Inv : σ → Prop
  Rely : List κ → σ → σ → Prop
  Post : ρ → α → List κ → List δ → σ → Prop
  refl : ∀ held s, Rely held s s
  trans : ∀ held s t u, Rely held s t → Rely held t u → Rely held s u
  start : ∀ r s, Inv s → (prog r).wp Rely Inv (Post r) [] [] s
  commit : ∀ (c : Commit σ κ ρ α) (held : List κ) (log : List δ), Inv c.before →
    Post c.request c.reply held log c.before → c.after = applyAll c.before log →
    (∀ w ∈ log, ∀ k ∈ keys σ w, k ∈ held) → (∀ k ∈ held, k ∉ c.others) →
    intact δ c.after = true → Good c →
    Inv c.after ∧ ∀ K : List κ, (∀ k ∈ K, k ∈ c.others) → Rely K c.before c.after

namespace Outline

variable {prog : ρ → Prog σ δ κ ε α} {Good : Commit σ κ ρ α → Prop} (O : Outline prog Good)

structure Sound (c : Commit σ κ ρ α) : Prop where
  before : O.Inv c.before
  after : O.Inv c.after
  intact : intact δ c.after = true
  post : ∃ held log, O.Post c.request c.reply held log c.before ∧ c.after = applyAll c.before log

structure Holds (m : Machine σ δ κ ε ρ α) : Prop where
  inv : O.Inv m.committed
  running : ∀ i t, m.slot i = some t →
    t.rest.wp O.Rely O.Inv (O.Post t.request) t.held t.log m.committed
  locked : ∀ i t, m.slot i = some t → ∀ w ∈ t.log, ∀ k ∈ keys σ w, k ∈ t.held
  apart : ∀ i j t u, m.slot i = some t → m.slot j = some u → i ≠ j → ∀ k ∈ t.held, k ∉ u.held
  commits : ∀ c ∈ m.history, O.Sound c

variable {O} {m : Machine σ δ κ ε ρ α} {i : Nat} {t : Running σ δ κ ε ρ α}

omit [DecidableEq κ] in
theorem holds_idle {s : σ} (h : O.Inv s) : O.Holds (idle s) where
  inv := h
  running i t ht := by simp [slot, idle] at ht
  locked i t ht := by simp [slot, idle] at ht
  apart i j t u ht := by simp [slot, idle] at ht
  commits c hc := by simp [idle] at hc

omit [DecidableEq κ] in
theorem holds_drop (h : O.Holds m) (i : Nat) : O.Holds (m.put i none) := by
  have hslot : ∀ j t, (m.put i none).slot j = some t → m.slot j = some t := by
    intro j t ht
    rw [slot_put_none] at ht
    by_cases hj : j = i
    · simp [hj] at ht
    · simpa [hj] using ht
  exact ⟨h.inv, fun j t ht => h.running j t (hslot j t ht), fun j t ht => h.locked j t (hslot j t ht),
    fun j k t u ht hu => h.apart j k t u (hslot j t ht) (hslot k u hu), h.commits⟩

theorem holds_start (h : O.Holds m) (r : ρ) : O.Holds (step prog m (.start r)) where
  inv := h.inv
  running i t ht := by
    rcases slot_start ht with ht | rfl
    · exact h.running i t ht
    · exact O.start r _ h.inv
  locked i t ht := by
    rcases slot_start ht with ht | rfl
    · exact h.locked i t ht
    · intro w hw; simp at hw
  apart i j t u ht hu hne := by
    rcases slot_start ht with ht | rfl
    · rcases slot_start hu with hu | rfl
      · exact h.apart i j t u ht hu hne
      · intro k _ hk; simp at hk
    · intro k hk; simp at hk
  commits := h.commits

omit [DecidableEq κ] in
/-- A statement that runs: the needed keys were free. -/
theorem holds_stmt (h : O.Holds m) (ht : m.slot i = some t) {locks : σ → List κ}
    {writes : σ → List δ} {next : σ → Prog σ δ κ ε α} (hrest : t.rest = .stmt locks writes next)
    (hfree : ∀ k ∈ needs locks writes (applyAll m.committed t.log), k ∉ m.others i) :
    O.Holds (m.put i (some ⟨t.request, t.log ++ writes (applyAll m.committed t.log),
      needs locks writes (applyAll m.committed t.log) ++ t.held,
      next (applyAll m.committed t.log)⟩)) := by
  generalize hview : applyAll m.committed t.log = view at hfree ⊢
  have hnew : ∀ j u, j ≠ i → m.slot j = some u → ∀ k ∈ needs locks writes view ++ t.held,
      k ∉ u.held := by
    intro j u hj hu k hk hku
    rcases List.mem_append.mp hk with hk | hk
    · exact hfree k hk (mem_others.mpr ⟨j, u, hj, hu, hku⟩)
    · exact h.apart i j t u ht hu (Ne.symm hj) k hk hku
  refine ⟨h.inv, ?_, ?_, ?_, h.commits⟩
  · intro j u hu
    rw [slot_put_some ht] at hu
    by_cases hj : j = i
    · simp only [hj, if_true, Option.some.injEq] at hu
      subst hu
      have hwp := h.running i t ht
      rw [hrest] at hwp
      have := hwp m.committed (O.refl _ _) h.inv
      rw [hview] at this
      exact this
    · exact h.running j u (by simpa [hj] using hu)
  · intro j u hu w hw k hk
    rw [slot_put_some ht] at hu
    by_cases hj : j = i
    · simp only [hj, if_true, Option.some.injEq] at hu
      subst hu
      rcases List.mem_append.mp hw with hw | hw
      · exact List.mem_append_right _ (h.locked i t ht w hw k hk)
      · exact List.mem_append_left _ (List.mem_append_right _ (List.mem_flatMap.mpr ⟨w, hw, hk⟩))
    · exact h.locked j u (by simpa [hj] using hu) w hw k hk
  · intro j l u v hu hv hne k hku hkv
    rw [slot_put_some ht] at hu hv
    by_cases hj : j = i
    · have hl : l ≠ i := fun hl => hne (hj.trans hl.symm)
      simp only [hj, if_true, Option.some.injEq] at hu
      subst hu
      exact hnew l v hl (by simpa [hl] using hv) k hku hkv
    · by_cases hl : l = i
      · simp only [hl, if_true, Option.some.injEq] at hv
        subst hv
        exact hnew j u hj (by simpa [hj] using hu) k hkv hku
      · exact h.apart j l u v (by simpa [hj] using hu) (by simpa [hl] using hv) hne k hku hkv

omit [DecidableEq κ] in
theorem holds_commit (h : O.Holds m) (ht : m.slot i = some t) {a : α} (hrest : t.rest = .done a)
    (hintact : intact δ (applyAll m.committed t.log) = true)
    (hgood : Good ⟨t.request, a, m.committed, applyAll m.committed t.log, m.others i⟩) :
    O.Holds { committed := applyAll m.committed t.log, slots := m.slots.set i none
              history := m.history ++
                [⟨t.request, a, m.committed, applyAll m.committed t.log, m.others i⟩] } := by
  have hwp := h.running i t ht
  rw [hrest] at hwp
  have hpost := hwp m.committed (O.refl _ _) h.inv
  have hapart : ∀ k ∈ t.held, k ∉ m.others i := by
    intro k hk ho
    obtain ⟨j, u, hj, hu, hku⟩ := mem_others.mp ho
    exact h.apart i j t u ht hu (Ne.symm hj) k hk hku
  obtain ⟨hinv, hrely⟩ := O.commit ⟨t.request, a, m.committed, applyAll m.committed t.log,
    m.others i⟩ t.held t.log h.inv hpost
    rfl (h.locked i t ht) hapart hintact hgood
  have hdrop := holds_drop h i
  have hslot : ∀ j u, (m.put i none).slot j = some u → j ≠ i ∧ m.slot j = some u := by
    intro j u hu
    rw [slot_put_none] at hu
    by_cases hj : j = i
    · simp [hj] at hu
    · exact ⟨hj, by simpa [hj] using hu⟩
  refine ⟨hinv, ?_, hdrop.locked, hdrop.apart, ?_⟩
  · intro j u hu
    obtain ⟨hj, hu⟩ := hslot j u hu
    exact wp_stable O.trans (hrely u.held fun k hk => mem_others.mpr ⟨j, u, hj, hu, hk⟩)
      (h.running j u hu)
  · intro c hc
    rcases List.mem_append.mp hc with hc | hc
    · exact h.commits c hc
    · rw [List.mem_singleton.mp hc]
      exact ⟨h.inv, hinv, hintact, t.held, t.log, hpost, rfl⟩

theorem holds_step (h : O.Holds m) (e : Event ρ) (hg : ∀ c ∈ (step prog m e).history, Good c) :
    O.Holds (step prog m e) := by
  cases e with
  | start r => exact holds_start h r
  | cancel i => exact holds_drop h i
  | advance i =>
    simp only [step] at hg ⊢
    split
    · exact h
    case _ t ht =>
      simp only [ht] at hg
      split
      · exact holds_drop h i
      case _ a hrest =>
        simp only [hrest] at hg
        split
        case isTrue hintact =>
          simp only [hintact, if_true] at hg
          exact holds_commit h ht hrest hintact
            (hg _ (List.mem_append_right _ (List.mem_singleton.mpr rfl)))
        case isFalse => exact holds_drop h i
      case _ locks writes next hrest =>
        split
        case isTrue hfree => exact holds_stmt h ht hrest hfree
        case isFalse => exact h

theorem holds_run :
    ∀ (es : List (Event ρ)) {m : Machine σ δ κ ε ρ α}, O.Holds m →
    (∀ c ∈ (run prog m es).history, Good c) → O.Holds (run prog m es)
  | [], _, h, _ => h
  | e :: es, m, h, hg =>
    holds_run es (holds_step h e fun c hc => hg c (run_history_mono prog es (step prog m e) c hc)) hg

variable (O) in
/-- The run theorem: the invariant holds of every committed state, and each commit
did what its program's outline says. -/
theorem sound {s : σ} (hs : O.Inv s) (es : List (Event ρ))
    (hg : ∀ c ∈ (run prog (idle s) es).history, Good c) :
    O.Inv (run prog (idle s) es).committed ∧ (∀ c ∈ (run prog (idle s) es).history, O.Sound c) ∧
      Path s (run prog (idle s) es).history (run prog (idle s) es).committed := by
  have h := holds_run es (holds_idle hs) hg
  obtain ⟨cs, hh, hp⟩ := run_commits prog es (idle s)
  rw [show (run prog (idle s) es).history = cs from hh]
  exact ⟨h.inv, fun c hc => h.commits c (hh ▸ hc), hp⟩

end Outline

end Interleaving
