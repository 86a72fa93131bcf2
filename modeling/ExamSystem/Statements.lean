import ExamSystem.Outcomes

/-!
# Statements of a repeatable-read transaction

The queries read the snapshot of the first statement. A row that is locked or
updated must be as it was in the snapshot, and an insert is checked against what
is committed. Nothing here is about a particular program.
-/

namespace Interleaving

open Journal Machine

variable {σ δ κ ε α β : Type}

namespace Prog

def snapshot : Prog σ δ κ ε σ := select fun s => s

def hold [DecidableEq β] (keys : List κ) (row : σ → β) (snap : σ) (changed : ε) : Prog σ δ κ ε Unit :=
  .stmt (fun _ => keys) (fun _ => []) fun s => if row s = row snap then .done () else .fail changed

/-- An insert waits for the index entries that it makes, then they are checked. -/
def insert (keys : List κ) (w : δ) (check : σ → Option ε) : Prog σ δ κ ε Unit :=
  .stmt (fun _ => keys) (fun s => if (check s).isNone then [w] else []) fun s =>
    match check s with
    | some e => .fail e
    | none => .done ()

/-- A write that violates nothing. -/
def write (w : δ) : Prog σ δ κ ε Unit := .stmt (fun _ => []) (fun _ => [w]) fun _ => .done ()

end Prog

variable [Journal σ δ κ] {Rely : List κ → σ → σ → Prop} {Inv : σ → Prop}
    {Q : α → List κ → List δ → σ → Prop} {E : ε → σ → Prop} {held : List κ} {log : List δ} {s : σ}

theorem wpe_snapshot {f : σ → Prog σ δ κ ε α}
    (h : ∀ s', Rely held s s' → Inv s' → (f (applyAll s' log)).wpe Rely Inv Q E held log s') :
    (Prog.snapshot >>= f).wpe Rely Inv Q E held log s := by
  intro s' hr hi
  have := h s' hr hi
  simpa [needs, Prog.bind] using this

theorem wpe_hold [DecidableEq β] {keys : List κ} {row : σ → β} {snap : σ} {changed : ε}
    {f : Unit → Prog σ δ κ ε α}
    (hf : ∀ s', Rely held s s' → Inv s' → row (applyAll s' log) = row snap →
      (f ()).wpe Rely Inv Q E (keys ++ held) log s') (hchanged : ∀ s', Inv s' → E changed s') :
    (Prog.hold keys row snap changed >>= f).wpe Rely Inv Q E held log s := by
  intro s' hr hi
  by_cases hsame : row (applyAll s' log) = row snap
  · have := hf s' hr hi hsame
    simpa [needs, Prog.bind, hsame] using this
  · simp only [hsame, if_false]
    exact fun s'' _ hi' => hchanged s'' hi'

theorem wpe_insert_checked {keys : List κ} {w : δ} {check : σ → Option ε}
    {f : Unit → Prog σ δ κ ε α}
    (hf : ∀ s', Rely held s s' → Inv s' → check (applyAll s' log) = none →
      (f ()).wpe Rely Inv Q E (keys ++ Journal.keys σ w ++ held) (log ++ [w]) s')
    (hfail : ∀ e s' held' s'', check (applyAll s' log) = some e → Rely held' s' s'' →
      Inv s'' → E e s'') :
    (Prog.insert keys w check >>= f).wpe Rely Inv Q E held log s := by
  intro s' hr hi
  cases hc : check (applyAll s' log) with
  | none =>
    have := hf s' hr hi hc
    simpa [needs, Prog.bind, hc] using this
  | some e =>
    simp only [hc]
    exact fun s'' hr' hi' => hfail e s' _ s'' hc hr' hi'

theorem wpe_insert {keys : List κ} {w : δ} {check : σ → Option ε} {f : Unit → Prog σ δ κ ε α}
    (hf : ∀ s', Rely held s s' → Inv s' → check (applyAll s' log) = none →
      (f ()).wpe Rely Inv Q E (keys ++ Journal.keys σ w ++ held) (log ++ [w]) s')
    (hfail : ∀ e s', check (applyAll s' log) = some e → ∀ s'', Inv s'' → E e s'') :
    (Prog.insert keys w check >>= f).wpe Rely Inv Q E held log s :=
  wpe_insert_checked hf fun e s' _ s'' hc _ hi => hfail e s' hc s'' hi

theorem wpe_write {w : δ} {f : Unit → Prog σ δ κ ε α}
    (hf : ∀ s', Rely held s s' → Inv s' → (f ()).wpe Rely Inv Q E (Journal.keys σ w ++ held)
        (log ++ [w]) s') :
    (Prog.write w >>= f).wpe Rely Inv Q E held log s := by
  intro s' hr hi
  have := hf s' hr hi
  simpa [needs, Prog.bind] using this

theorem wpe_done {a : α} (h : ∀ s', Rely held s s' → Inv s' → Q a held log s') :
    (Prog.done a : Prog σ δ κ ε α).wpe Rely Inv Q E held log s := h

theorem wpe_fail {e : ε} (h : ∀ s', Inv s' → E e s') :
    (Prog.fail e : Prog σ δ κ ε α).wpe Rely Inv Q E held log s :=
  fun s' _ hi => h s' hi

theorem wpe_ofExcept {x : Except ε β} {f : β → Prog σ δ κ ε α}
    (hok : ∀ b, x = .ok b → (f b).wpe Rely Inv Q E held log s)
    (herr : ∀ e, x = .error e → ∀ s', Inv s' → E e s') :
    (Prog.ofExcept x >>= f).wpe Rely Inv Q E held log s := by
  cases x with
  | ok b => exact hok b rfl
  | error e => exact wpe_fail (herr e rfl)

end Interleaving
