import Mathlib.Logic.Relation

/-!
# Transactions and their runs

A command reads a state and either throws, leaving the state as it was, or
commits a result and a new state. A run commits a list of commands in order.
Nothing here is about a particular program.
-/

namespace Tx

variable {ε α β σ ι ρ : Type}

/-! ## Guards and lookups that throw -/

/-- Continue when `c` holds, throw `e` otherwise. -/
def require (c : Prop) [Decidable c] (e : ε) : Except ε Unit := if c then .ok () else .error e

def orThrow (o : Option α) (e : ε) : Except ε α :=
  match o with
  | some a => .ok a
  | none => .error e

def forEach : List α → (α → Except ε Unit) → Except ε Unit
  | [], _ => .ok ()
  | a :: as, f => do f a; forEach as f

theorem bind_eq_ok (x : Except ε α) (f : α → Except ε β) (b : β) :
    (x >>= f) = .ok b ↔ ∃ a, x = .ok a ∧ f a = .ok b := by
  cases x <;> simp [Bind.bind, Except.bind]

theorem pure_eq_ok (a b : α) : (pure a : Except ε α) = .ok b ↔ a = b := by
  simp [pure, Except.pure]

theorem map_eq_ok (f : α → β) (x : Except ε α) (b : β) :
    x.map f = .ok b ↔ ∃ a, x = .ok a ∧ f a = b := by
  cases x <;> simp [Except.map]

theorem throw_eq_ok (e : ε) (b : α) : (throw e : Except ε α) = .ok b ↔ False := by
  simp [throw, throwThe, MonadExceptOf.throw]

theorem require_eq_ok (c : Prop) [Decidable c] (e : ε) (u : Unit) : require c e = .ok u ↔ c := by
  unfold require
  by_cases h : c <;> simp [h]

theorem orThrow_eq_ok (o : Option α) (e : ε) (a : α) : orThrow o e = .ok a ↔ o = some a := by
  cases o <;> simp [orThrow]

theorem require_true {c : Prop} [Decidable c] (h : c) (e : ε) : require c e = .ok () := if_pos h

theorem require_false {c : Prop} [Decidable c] (h : ¬ c) (e : ε) : require c e = .error e := if_neg h

theorem forEach_eq_ok {f : α → Except ε Unit} {u : Unit} :
    ∀ {as : List α}, forEach as f = .ok u ↔ ∀ a ∈ as, f a = .ok ()
  | [] => by simp [forEach]
  | a :: as => by
    have hunit : (∃ x : Unit, f a = .ok x) ↔ f a = .ok () := ⟨fun ⟨(), h⟩ => h, fun h => ⟨(), h⟩⟩
    simp [forEach, bind_eq_ok, forEach_eq_ok, hunit]

@[simp] theorem orThrow_some (a : α) (e : ε) : orThrow (some a) e = .ok a := rfl

@[simp] theorem orThrow_none (e : ε) : (orThrow none e : Except ε α) = .error e := rfl

@[simp] theorem ok_bind (a : α) (f : α → Except ε β) : (Except.ok a >>= f) = f a := rfl

@[simp] theorem error_bind (e : ε) (f : α → Except ε β) : (Except.error e >>= f) = .error e := rfl

def succeeds (x : Except ε α) (Q : α → Bool) : Bool :=
  match x with
  | .ok a => Q a
  | .error _ => false

theorem succeeds_iff {x : Except ε α} {Q : α → Bool} :
    succeeds x Q = true ↔ ∃ a, x = .ok a ∧ Q a = true := by
  cases x <;> simp [succeeds]

theorem exists_mapM_eq_ok {f : α → Except ε β} :
    ∀ {l : List α}, (∃ ys, l.mapM f = .ok ys) ↔ ∀ x ∈ l, ∃ y, f x = .ok y
  | [] => by simp [pure, Except.pure]
  | x :: l => by
    rw [List.forall_mem_cons, ← exists_mapM_eq_ok]
    simp only [List.mapM_cons, bind_eq_ok, pure_eq_ok]
    exact ⟨fun ⟨_, y, hy, ys, hys, _⟩ => ⟨⟨y, hy⟩, ys, hys⟩, fun ⟨⟨y, hy⟩, ys, hys⟩ => ⟨_, y, hy,
        ys, hys, rfl⟩⟩

/-- A list whose elements are read alike is read as a whole, or fails as its elements do. -/
theorem mapM_decided {f : α → Except ε β} {g : α → β} {e : ε} {p : α → Prop} [DecidablePred p] :
    ∀ {l : List α}, (∀ x ∈ l, f x = if p x then .ok (g x) else .error e) →
      l.mapM f = if ∀ x ∈ l, p x then .ok (l.map g) else .error e
  | [], _ => by simp [pure, Except.pure]
  | x :: l, h => by
    have hx := h x List.mem_cons_self
    have hl := mapM_decided fun y hy => h y (List.mem_cons_of_mem x hy)
    rw [List.mapM_cons, hx, hl]
    by_cases hp : p x
    · by_cases hall : ∀ y ∈ l, p y
      · rw [if_pos hp, if_pos hall, if_pos (List.forall_mem_cons.mpr ⟨hp, hall⟩)]
        rfl
      · rw [if_pos hp, if_neg hall, if_neg fun h => hall (List.forall_mem_cons.mp h).2]
        rfl
    · rw [if_neg hp, if_neg fun h => hp (List.forall_mem_cons.mp h).1]
      rfl

/-! ### What may be thrown -/

/-- Only errors of `P` are thrown. -/
def Raises (P : ε → Prop) (x : Except ε α) : Prop := ∀ e, x = .error e → P e

section
variable {P : ε → Prop}

theorem raises_ok (a : α) : Raises P (.ok a) := fun _ h => by cases h

theorem raises_pure (a : α) : Raises P (pure a) := raises_ok a

theorem raises_error {e : ε} (h : P e) : Raises P (.error e : Except ε α) := by
  intro e' he
  cases he
  exact h

theorem raises_require {c : Prop} [Decidable c] {e : ε} (h : P e) : Raises P (require c e) := by
  unfold require
  split
  · exact raises_ok _
  · exact raises_error h

theorem raises_orThrow {o : Option α} {e : ε} (h : P e) : Raises P (orThrow o e) := by
  cases o with
  | some a => exact raises_ok a
  | none => exact raises_error h

theorem raises_bind {x : Except ε α} {f : α → Except ε β} (hx : Raises P x)
    (hf : ∀ a, x = .ok a → Raises P (f a)) : Raises P (x >>= f) := by
  cases x with
  | ok a => exact hf a rfl
  | error e => exact raises_error (hx e rfl)

theorem raises_forEach {f : α → Except ε Unit} :
    ∀ {as : List α}, (∀ a ∈ as, Raises P (f a)) → Raises P (forEach as f)
  | [], _ => raises_ok _
  | a :: _, h => raises_bind (h a List.mem_cons_self) fun _ _ => raises_forEach fun b hb =>
    h b (List.mem_cons_of_mem a hb)

end

/-! ## Commits and runs -/

def commit (x : Except ε (ρ × σ)) (s : σ) : σ :=
  match x with
  | .ok (_, s') => s'
  | .error _ => s

@[simp] theorem commit_ok (r : ρ) (s s' : σ) : commit (.ok (r, s') : Except ε (ρ × σ)) s = s' := rfl

@[simp] theorem commit_error (e : ε) (s : σ) : commit (.error e : Except ε (ρ × σ)) s = s := rfl

/-- A commit either changed nothing or is the state a successful command returned. -/
theorem commit_cases (x : Except ε (ρ × σ)) (s : σ) :
    commit x s = s ∨ ∃ r s', x = .ok (r, s') ∧ commit x s = s' := by
  cases x with
  | error e => exact .inl rfl
  | ok p => exact .inr ⟨p.1, p.2, rfl, rfl⟩

def run (step : ι → σ → Except ε (ρ × σ)) : σ → List ι → σ
  | s, [] => s
  | s, i :: is => run step (commit (step i s) s) is

section
variable (step : ι → σ → Except ε (ρ × σ))

@[simp] theorem run_nil (s : σ) : run step s [] = s := rfl

@[simp] theorem run_cons (s : σ) (i : ι) (is : List ι) :
    run step s (i :: is) = run step (commit (step i s) s) is := rfl

theorem run_append : ∀ (is js : List ι) (s : σ), run step s (is ++ js) = run step (run step s is) js
  | [], _, _ => rfl
  | i :: is, js, s => run_append is js (commit (step i s) s)

/-- What every successful command preserves holds after every run. -/
theorem run_invariant {P : σ → Prop} (hstep : ∀ i s r s', P s → step i s = .ok (r, s') → P s') :
    ∀ (is : List ι) (s : σ), P s → P (run step s is)
  | [], _, h => h
  | i :: is, s, h => by
    refine run_invariant hstep is _ ?_
    rcases commit_cases (step i s) s with he | ⟨r, s', hx, he⟩
    · rw [he]; exact h
    · rw [he]; exact hstep i s r s' h hx

/-- A reflexive and transitive relation that every successful command respects,
from the states of an invariant, relates the two ends of a run. -/
theorem run_relation {P : σ → Prop} {R : σ → σ → Prop} (hrefl : ∀ s, R s s)
    (htrans : ∀ s t u, R s t → R t u → R s u)
    (hP : ∀ i s r s', P s → step i s = .ok (r, s') → P s')
    (hR : ∀ i s r s', P s → step i s = .ok (r, s') → R s s') :
    ∀ (is : List ι) (s : σ), P s → R s (run step s is)
  | [], s, _ => hrefl s
  | i :: is, s, h => by
    rcases commit_cases (step i s) s with he | ⟨r, s', hx, he⟩
    · rw [run_cons, he]; exact run_relation hrefl htrans hP hR is s h
    · rw [run_cons, he]
      exact htrans _ _ _ (hR i s r s' h hx) (run_relation hrefl htrans hP hR is s' (hP i s r s' h hx))

/-- Every command of the run met `G` in the state it was executed in. -/
def Along (G : ι → σ → Prop) : σ → List ι → Prop
  | _, [] => True
  | s, i :: is => G i s ∧ Along G (commit (step i s) s) is

instance Along.decidable {G : ι → σ → Prop} [∀ i s, Decidable (G i s)] :
    ∀ (s : σ) (is : List ι), Decidable (Along step G s is)
  | _, [] => inferInstanceAs (Decidable True)
  | s, i :: is => @instDecidableAnd _ _ _ (Along.decidable (commit (step i s) s) is)

theorem along_of_forall {G : ι → σ → Prop} :
    ∀ (is : List ι) (s : σ), (∀ i ∈ is, ∀ s, G i s) → Along step G s is
  | [], _, _ => trivial
  | i :: is, s, h => ⟨h i (by simp) s, along_of_forall is _ fun j hj => h j (List.mem_cons_of_mem i hj)⟩

theorem run_along {G : ι → σ → Prop} {P : σ → Prop}
    (hstep : ∀ i s r s', P s → G i s → step i s = .ok (r, s') → P s') :
    ∀ (is : List ι) (s : σ), P s → Along step G s is → P (run step s is)
  | [], _, h, _ => h
  | i :: is, s, h, ha => by
    refine run_along hstep is _ ?_ ha.2
    rcases commit_cases (step i s) s with he | ⟨r, s', hx, he⟩
    · rw [he]; exact h
    · rw [he]; exact hstep i s r s' h ha.1 hx

/-! ## Refinement of a change relation -/

theorem closure_invariant {P : σ → Prop} {R : σ → σ → Prop} (hR : ∀ s t, P s → R s t → P t) {s t : σ}
    (h : Relation.ReflTransGen R s t) (hs : P s) : P t := by
  induction h with
  | refl => exact hs
  | tail _ ht ih => exact hR _ _ ih ht

theorem closure_relation {P : σ → Prop} {R Q : σ → σ → Prop} (hrefl : ∀ s, Q s s)
    (htrans : ∀ s t u, Q s t → Q t u → Q s u) (hP : ∀ s t, P s → R s t → P t)
    (hQ : ∀ s t, P s → R s t → Q s t) {s t : σ} (h : Relation.ReflTransGen R s t) (hs : P s) :
    Q s t := by
  induction h with
  | refl => exact hrefl s
  | tail hst ht ih => exact htrans _ _ _ ih (hQ _ _ (closure_invariant hP hst hs) ht)

/-- When every command makes only changes of `R`, so does every run. -/
theorem run_refines {R : σ → σ → Prop}
    (h : ∀ i s r s', step i s = .ok (r, s') → Relation.ReflTransGen R s s') :
    ∀ (is : List ι) (s : σ), Relation.ReflTransGen R s (run step s is)
  | [], _ => .refl
  | i :: is, s => by
    rcases commit_cases (step i s) s with he | ⟨r, s', hx, he⟩
    · rw [run_cons, he]; exact run_refines h is s
    · rw [run_cons, he]; exact (h i s r s' hx).trans (run_refines h is s')

end

end Tx
