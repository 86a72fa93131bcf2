import ExamSystem.ProofOutline

/-!
# Transactions whose failures are answers

A failed transaction writes nothing, but its caller learns of the failure.
`Prog.settle` turns a failure into a reply, so that it shows in the history;
`Prog.wpe` describes both ends of a program. `Outline.later` is about the
transactions that start after a given moment of a run. Nothing here is about a
particular program.
-/

namespace Interleaving

open Journal Machine

variable {σ δ κ ε ρ α β : Type} [Journal σ δ κ]

/-! ## Settled programs -/

namespace Prog

def ofExcept : Except ε α → Prog σ δ κ ε α
  | .ok a => done a
  | .error e => fail e

def settleFrom (log : List δ) : Prog σ δ κ ε α → Prog σ δ κ ε (Except ε α)
  | done a => stmt (fun _ => []) (fun _ => log) fun _ => done (.ok a)
  | fail e => done (.error e)
  | stmt locks writes next =>
    stmt (fun s => needs locks writes (applyAll s log)) (fun _ => []) fun s =>
      (next (applyAll s log)).settleFrom (log ++ writes (applyAll s log))

def settle (p : Prog σ δ κ ε α) : Prog σ δ κ ε (Except ε α) := p.settleFrom []

section
variable (Rely : List κ → σ → σ → Prop) (Inv : σ → Prop)

/-- `Q` holds at the commit of the program and `E` when it fails. -/
def wpe (Q : α → List κ → List δ → σ → Prop) (E : ε → σ → Prop) :
    Prog σ δ κ ε α → List κ → List δ → σ → Prop
  | done a, held, log, s => ∀ s', Rely held s s' → Inv s' → Q a held log s'
  | fail e, held, _, s => ∀ s', Rely held s s' → Inv s' → E e s'
  | stmt locks writes next, held, log, s => ∀ s', Rely held s s' → Inv s' →
      (next (applyAll s' log)).wpe Q E (needs locks writes (applyAll s' log) ++ held)
        (log ++ writes (applyAll s' log)) s'

end

end Prog

section
variable {Rely : List κ → σ → σ → Prop} {Inv : σ → Prop} {Q : α → List κ → List δ → σ → Prop}
    {E : ε → σ → Prop} {held : List κ} {log : List δ} {s : σ}

theorem wpe_mono {Q' : α → List κ → List δ → σ → Prop} {E' : ε → σ → Prop}
    (hQ : ∀ a held log s, Inv s → Q a held log s → Q' a held log s)
    (hE : ∀ e s, Inv s → E e s → E' e s) {p : Prog σ δ κ ε α} (hp : p.wpe Rely Inv Q E held log s) :
    p.wpe Rely Inv Q' E' held log s := by
  induction p generalizing held log s with
  | done a => exact fun s' hs hi => hQ a held log s' hi (hp s' hs hi)
  | fail e => exact fun s' hs hi => hE e s' hi (hp s' hs hi)
  | stmt locks writes next ih => exact fun s' hs hi => ih _ (hp s' hs hi)

/-- What a program is known to do, its settled form does: a failure has an empty log. -/
theorem wp_settleFrom (htrans : ∀ held s t u, Rely held s t → Rely held t u → Rely held s u)
    (hheld : ∀ held held' s s', (∀ k ∈ held, k ∈ held') → Rely held' s s' → Rely held s s')
    (hQ : ∀ a held held' log s, (∀ k ∈ held, k ∈ held') → Q a held log s → Q a held' log s)
    {p : Prog σ δ κ ε α} (hp : p.wpe Rely Inv Q E held log s) :
    (p.settleFrom log).wp Rely Inv (fun r held log s =>
      match r with
      | .ok a => Q a held log s
      | .error e => log = [] ∧ E e s) held [] s := by
  induction p generalizing held log s with
  | done a =>
    intro s' hr hi s'' hr' hi'
    have hmore : ∀ k ∈ held, k ∈ needs (fun _ : σ => ([] : List κ)) (fun _ => log)
        (applyAll s' ([] : List δ)) ++ held :=
      fun k hk => List.mem_append_right _ hk
    exact hQ a held _ log s'' hmore
      (hp s'' (htrans held s s' s'' hr (hheld held _ s' s'' hmore hr')) hi')
  | fail e => exact fun s' hr hi => ⟨rfl, hp s' hr hi⟩
  | stmt locks writes next ih =>
    intro s' hr hi
    have hneeds : needs (fun s => needs locks writes (applyAll s log)) (fun _ => ([] : List δ))
        (applyAll s' ([] : List δ)) = needs locks writes (applyAll s' log) := by simp [needs]
    rw [hneeds]
    exact ih (applyAll s' log) (hp s' hr hi)

theorem wp_settle (htrans : ∀ held s t u, Rely held s t → Rely held t u → Rely held s u)
    (hheld : ∀ held held' s s', (∀ k ∈ held, k ∈ held') → Rely held' s s' → Rely held s s')
    (hQ : ∀ a held held' log s, (∀ k ∈ held, k ∈ held') → Q a held log s → Q a held' log s)
    {p : Prog σ δ κ ε α} (hp : p.wpe Rely Inv Q E held [] s) :
    p.settle.wp Rely Inv (fun r held log s =>
      match r with
      | .ok a => Q a held log s
      | .error e => log = [] ∧ E e s) held [] s := wp_settleFrom htrans hheld hQ hp

end

/-! ## What any run does to the committed state -/

variable [DecidableEq κ]

section
variable (prog : ρ → Prog σ δ κ ε α)

theorem step_applies (m : Machine σ δ κ ε ρ α) (e : Event ρ) :
    ∃ log : List δ, (step prog m e).committed = applyAll m.committed log := by
  cases e with
  | start r => exact ⟨[], rfl⟩
  | cancel i => exact ⟨[], rfl⟩
  | advance i =>
    simp only [step]
    split
    · exact ⟨[], rfl⟩
    · split
      · exact ⟨[], rfl⟩
      · split
        · exact ⟨_, rfl⟩
        · exact ⟨[], rfl⟩
      · split <;> exact ⟨[], rfl⟩

section
variable {R : σ → σ → Prop} (hrefl : ∀ s, R s s) (htrans : ∀ s t u, R s t → R t u → R s u)
  (hwrite : ∀ (s : σ) (w : δ), R s (apply s w))
include hrefl htrans hwrite

theorem step_keeps (m : Machine σ δ κ ε ρ α) (e : Event ρ) :
    R m.committed (step prog m e).committed := by
  obtain ⟨log, hlog⟩ := step_applies prog m e
  rw [hlog]
  exact applyAll_invariant (P := R m.committed) (fun w _ s hs => htrans _ _ _ hs (hwrite s w)) (hrefl _)

/-- What every write keeps of a state, a run keeps of it. -/
theorem run_keeps :
    ∀ (es : List (Event ρ)) (m : Machine σ δ κ ε ρ α), R m.committed (run prog m es).committed
  | [], _ => hrefl _
  | e :: es, m => htrans _ _ _ (step_keeps prog hrefl htrans hwrite m e) (run_keeps es (step prog m e))

/-- It is kept of the state that a commit left. -/
theorem run_keeps_after :
    ∀ (es : List (Event ρ)) (m : Machine σ δ κ ε ρ α), (∀ c ∈ m.history, R c.after m.committed) →
    ∀ c ∈ (run prog m es).history, R c.after (run prog m es).committed
  | [], _, h => h
  | e :: es, m, h => by
    refine run_keeps_after es (step prog m e) ?_
    intro c hc
    have hold : ∀ c ∈ m.history, R c.after (step prog m e).committed :=
      fun c hc => htrans _ _ _ (h c hc) (step_keeps prog hrefl htrans hwrite m e)
    rcases step_history prog m e with ⟨_, hh⟩ | ⟨d, _, ha, hh⟩
    · exact hold c (hh ▸ hc)
    · rw [hh] at hc
      rcases List.mem_append.mp hc with hc | hc
      · exact hold c hc
      · rw [List.mem_singleton.mp hc, ha]
        exact hrefl _

/-- It is kept from the state that a commit left to the state of each later one. -/
theorem run_pairwise :
    ∀ (es : List (Event ρ)) (m : Machine σ δ κ ε ρ α), (∀ c ∈ m.history, R c.after m.committed) →
    (m.history.Pairwise fun c d => R c.after d.before) → (run prog m es).history.Pairwise fun c d =>
      R c.after d.before
  | [], _, _, hp => hp
  | e :: es, m, h, hp => by
    refine run_pairwise es (step prog m e) (run_keeps_after prog hrefl htrans hwrite [e] m h) ?_
    rcases step_history prog m e with ⟨_, hh⟩ | ⟨d, hb, _, hh⟩
    · rw [hh]
      exact hp
    · rw [hh, List.pairwise_append]
      refine ⟨hp, List.pairwise_singleton _ _, fun c hc d' hd => ?_⟩
      rw [List.mem_singleton.mp hd, hb]
      exact h c hc

end

end

/-! ## Answers without a write -/

/-- The program ends with `r`, with no lock and no write on its way. -/
def Prog.Quiet (r : Except ε α) (s : σ) : Prog σ δ κ ε α → Prop
  | .done a => r = .ok a
  | .fail e => r = .error e
  | .stmt locks writes next => locks s = [] ∧ writes s = [] ∧ (next s).Quiet r s

omit [DecidableEq κ] in
theorem quiet_settle {r : Except ε α} {s : σ} {p : Prog σ δ κ ε α} (h : p.Quiet r s) :
    p.settle.Quiet (.ok r) s := by
  unfold Prog.settle
  induction p with
  | done a =>
    have hr : r = .ok a := h
    exact ⟨rfl, rfl, by rw [hr]; rfl⟩
  | fail e =>
    have hr : r = .error e := h
    rw [hr]
    rfl
  | stmt locks writes next ih =>
    obtain ⟨hl, hw, hn⟩ := h
    refine ⟨by simp [needs, hl, hw], rfl, ?_⟩
    simp only [applyAll_nil, hw, List.append_nil]
    exact ih s hn

section
variable {prog : ρ → Prog σ δ κ ε α} {r : ρ} {a : α} {i : Nat}

theorem run_quiet_from {p : Prog σ δ κ ε α} :
    ∀ {m : Machine σ δ κ ε ρ α} {held : List κ}, p.Quiet (.ok a) m.committed →
    intact δ m.committed = true → m.slot i = some ⟨r, [], held, p⟩ →
      ∃ n c, (run prog m (List.replicate n (.advance i))).history = m.history ++ [c] ∧
      c.request = r ∧ c.reply = a := by
  induction p with
  | done b =>
    intro m held hq hi ht
    cases hq
    refine ⟨1, ⟨r, a, m.committed, m.committed, m.others i⟩, ?_, rfl, rfl⟩
    have hi' : intact δ (applyAll m.committed ([] : List δ)) = true := hi
    simp [run, step, ht, hi]
  | fail e =>
    intro m held hq
    cases hq
  | stmt locks writes next ih =>
    intro m held hq hi ht
    obtain ⟨hl, hw, hn⟩ := hq
    have hstep : step prog m (.advance i) = m.put i (some ⟨r, [], held, next m.committed⟩) := by
      simp [step, ht, needs, hl, hw]
    obtain ⟨n, c, hc⟩ := ih m.committed (m := m.put i (some ⟨r, [], held, next m.committed⟩)) hn hi
      (by rw [slot_put_some ht, if_pos rfl])
    refine ⟨n + 1, c, ?_⟩
    rw [List.replicate_succ, show run prog m (.advance i :: List.replicate n (.advance i)) =
      run prog (step prog m (.advance i)) (List.replicate n (.advance i)) from rfl, hstep]
    exact hc

/-- A transaction with nothing to write answers when it is left alone, whatever else is in flight. -/
theorem run_quiet {m : Machine σ δ κ ε ρ α} (h : (prog r).Quiet (.ok a) m.committed)
    (hi : intact δ m.committed = true) :
    ∃ n c, (run prog m (.start r :: List.replicate n (.advance m.slots.length))).history =
      m.history ++ [c] ∧ c.request = r ∧ c.reply = a := by
  have hslot : (step prog m (.start r)).slot m.slots.length = some ⟨r, [], [], prog r⟩ := by
    simp [step, slot]
  exact run_quiet_from (m := step prog m (.start r)) h hi hslot

end

/-! ## The transactions that start later -/

section
variable {prog : ρ → Prog σ δ κ ε α}

omit [Journal σ δ κ] [DecidableEq κ] in
theorem slot_history (m : Machine σ δ κ ε ρ α) (h : List (Commit σ κ ρ α)) (i : Nat) :
    ({ m with history := h } : Machine σ δ κ ε ρ α).slot i = m.slot i := rfl

omit [Journal σ δ κ] [DecidableEq κ] in
theorem others_history (m : Machine σ δ κ ε ρ α) (h : List (Commit σ κ ρ α)) (i : Nat) :
    ({ m with history := h } : Machine σ δ κ ε ρ α).others i = m.others i := rfl

/-- A step only adds to the history, whatever it was. -/
theorem step_forget (m : Machine σ δ κ ε ρ α) (h : List (Commit σ κ ρ α)) (e : Event ρ) :
    step prog { m with history := h ++ m.history } e =
      { step prog m e with history := h ++ (step prog m e).history } := by
  cases e with
  | start r => rfl
  | cancel i => rfl
  | advance i =>
    simp only [step, slot_history, others_history]
    split
    · rfl
    · split
      · rfl
      · split
        · rw [List.append_assoc]
        · rfl
      · split
        case isTrue hfree => exact if_pos hfree
        case isFalse hfree => exact if_neg hfree

theorem run_forget (h : List (Commit σ κ ρ α)) : ∀ (es : List (Event ρ)) (m : Machine σ δ κ ε ρ α),
    run prog { m with history := h ++ m.history } es = { run prog m es with history := h ++
        (run prog m es).history }
  | [], _ => rfl
  | e :: es, m => by
    rw [show run prog { m with history := h ++ m.history } (e :: es) = run prog
        (step prog { m with history := h ++ m.history } e) es from rfl,
      step_forget, run_forget h es]
    rfl

def Machine.NotInFlight (m : Machine σ δ κ ε ρ α) (r : ρ) : Prop := ∀ i t, m.slot i = some t →
    t.request ≠ r

/-- What the transactions do that start when `P` holds, where every commit keeps `P`. -/
theorem Outline.later_of {Good : Commit σ κ ρ α → Prop} (O : Outline prog Good)
    {m : Machine σ δ κ ε ρ α} (h : O.Holds m) {P : σ → Prop} (hP : P m.committed)
    (hkeep : ∀ (c : Commit σ κ ρ α) (held : List κ) (log : List δ),
      O.Post c.request c.reply held log c.before → c.after = applyAll c.before log → P c.before →
      P c.after) {Q : ρ → α → List δ → σ → Prop}
    (hstart : ∀ r s, m.NotInFlight r → O.Inv s → P s → (prog r).wp O.Rely (fun s => O.Inv s ∧ P s)
        (fun a _ log s => Q r a log s) [] [] s) (es : List (Event ρ))
    (hg : ∀ c ∈ (run prog m es).history, Good c) :
    ∃ cs, (run prog m es).history = m.history ++ cs ∧
      ∀ c ∈ cs, m.NotInFlight c.request → P c.before ∧ ∃ log, Q c.request c.reply log c.before ∧
      c.after = applyAll c.before log := by
  let O' : Outline prog Good :=
    { Inv := fun s => O.Inv s ∧ P s
      Rely := O.Rely
      Post := fun r a held log s => O.Post r a held log s ∧ (m.NotInFlight r → Q r a log s)
      refl := O.refl
      trans := O.trans
      start := fun r s hs => by
        have hold : (prog r).wp O.Rely (fun s => O.Inv s ∧ P s) (O.Post r) [] [] s :=
          wp_restrict (fun _ _ _ h => h) (fun _ h => h.1) (O.start r s hs.1)
        by_cases hr : m.NotInFlight r
        · exact wp_mono (fun _ _ _ _ _ h => ⟨h.1, fun _ => h.2⟩) (wp_and hold (hstart r s hr hs.1 hs.2))
        · exact wp_mono (fun _ _ _ _ _ h => ⟨h, fun h' => absurd h' hr⟩) hold
      commit := fun c held log hi hpost hafter hlocked hapart hintact hgood => by
        obtain ⟨hinv, hrely⟩ := O.commit c held log hi.1 hpost.1 hafter hlocked hapart hintact hgood
        exact ⟨⟨hinv, hkeep c held log hpost.1 hafter hi.2⟩, hrely⟩ }
  -- the history so far is set aside, since it was made when `P` need not have held
  let m₀ : Machine σ δ κ ε ρ α := { m with history := [] }
  have hforget : run prog m es = { run prog m₀ es with history := m.history ++
      (run prog m₀ es).history } := by
    have hrun : run prog { m₀ with history := m.history ++ m₀.history } es = _ :=
      run_forget m.history es m₀
    simpa [m₀] using hrun
  have hold : O'.Holds m₀ := by
    refine ⟨⟨h.inv, hP⟩, ?_, h.locked, h.apart, fun c hc => nomatch hc⟩
    intro i t ht
    refine wp_mono (fun _ _ _ _ _ h' => ⟨h', fun hnew => ?_⟩)
      (wp_restrict (fun _ _ _ h => h) (fun _ h => h.1) (h.running i t ht))
    exact absurd rfl (hnew i t ht)
  have hrun := O'.holds_run es hold fun c hc => hg c (by rw [hforget]; exact List.mem_append_right _ hc)
  refine ⟨(run prog m₀ es).history, by rw [hforget], ?_⟩
  intro c hc hnew
  have hc := hrun.commits c hc
  obtain ⟨held, log, hpost, hafter⟩ := hc.post
  exact ⟨hc.before.2, log, hpost.2 hnew, hafter⟩

theorem Outline.later {Good : Commit σ κ ρ α → Prop} (O : Outline prog Good)
    {m : Machine σ δ κ ε ρ α} (h : O.Holds m) {P : σ → Prop} (hP : P m.committed)
    (hkeep : ∀ (s : σ) (w : δ), P s → P (apply s w)) {Q : ρ → α → List δ → σ → Prop}
    (hstart : ∀ r s, m.NotInFlight r → O.Inv s → P s → (prog r).wp O.Rely (fun s => O.Inv s ∧ P s)
        (fun a _ log s => Q r a log s) [] [] s) (es : List (Event ρ))
    (hg : ∀ c ∈ (run prog m es).history, Good c) :
    ∃ cs, (run prog m es).history = m.history ++ cs ∧
      ∀ c ∈ cs, m.NotInFlight c.request → P c.before ∧ ∃ log, Q c.request c.reply log c.before ∧
      c.after = applyAll c.before log := by
  refine O.later_of h hP (fun c held log _ hafter hs => ?_) hstart es hg
  rw [hafter]
  exact applyAll_invariant (fun w _ s hs => hkeep s w hs) hs

end

end Interleaving
