import Mathlib.Data.List.Nodup
import Mathlib.Logic.Function.Basic

/-!
# Logs of episodes

An append-only log of episodes that owners open and resolve, beside a pointer
of each owner to the episode it has open. Nothing here is about a particular
program.
-/

namespace Episodes

variable {κ ω τ : Type}

structure Episode (κ ω τ : Type) where
  key : κ
  owner : ω
  since : τ
  deriving DecidableEq

structure Log (κ ω τ : Type) where
  opened : List (Episode κ ω τ)
  resolved : List κ

namespace Log

def IsOpen (l : Log κ ω τ) (e : Episode κ ω τ) : Prop := e ∈ l.opened ∧ e.key ∉ l.resolved

structure Sound (l : Log κ ω τ) (current : ω → Option (κ × τ)) : Prop where
  keys : (l.opened.map (·.key)).Nodup
  once : l.resolved.Nodup
  known : ∀ k ∈ l.resolved, ∃ e ∈ l.opened, e.key = k
  points : ∀ o k t, current o = some (k, t) ↔ l.IsOpen ⟨k, o, t⟩

theorem sound_nil : (⟨[], []⟩ : Log κ ω τ).Sound fun _ => none := by
  refine ⟨List.nodup_nil, List.nodup_nil, ?_, ?_⟩
  · intro k hk
    cases hk
  · intro o k t
    simp [IsOpen]

variable {l : Log κ ω τ} {current : ω → Option (κ × τ)}

theorem Sound.unique (h : l.Sound current) {e e' : Episode κ ω τ} (he : l.IsOpen e) (he' : l.IsOpen e')
    (ho : e.owner = e'.owner) : e = e' := by
  obtain ⟨k, o, t⟩ := e
  obtain ⟨k', o', t'⟩ := e'
  obtain rfl : o = o' := ho
  have hp := (h.points o k t).mpr he
  have hp' := (h.points o k' t').mpr he'
  rw [hp] at hp'
  cases hp'
  rfl

theorem Sound.opened_unique (h : l.Sound current) {e e' : Episode κ ω τ} (he : e ∈ l.opened)
    (he' : e' ∈ l.opened) (hk : e.key = e'.key) : e = e' :=
  List.inj_on_of_nodup_map h.keys he he' hk

variable [DecidableEq ω]

theorem Sound.opens (h : l.Sound current) {k : κ} {o : ω} {t : τ} (hfresh : ∀ e ∈ l.opened, e.key ≠ k)
    (hidle : current o = none) :
    (⟨l.opened ++ [⟨k, o, t⟩], l.resolved⟩ : Log κ ω τ).Sound
      (Function.update current o (some (k, t))) := by
  have hunresolved : k ∉ l.resolved := by
    intro hk
    obtain ⟨e, he, rfl⟩ := h.known k hk
    exact hfresh e he rfl
  refine ⟨?_, h.once, ?_, ?_⟩
  · rw [List.map_append, List.nodup_append]
    refine ⟨h.keys, by simp, ?_⟩
    intro a ha b hb
    obtain ⟨e, he, rfl⟩ := List.mem_map.mp ha
    obtain rfl : b = k := by simpa using hb
    exact hfresh e he
  · intro k' hk'
    obtain ⟨e, he, hek⟩ := h.known k' hk'
    exact ⟨e, List.mem_append_left _ he, hek⟩
  · intro o' k' t'
    by_cases ho : o' = o
    · subst ho
      have hnone : ∀ k t, ¬ l.IsOpen ⟨k, o', t⟩ := fun k t hopen => by
        rw [← h.points, hidle] at hopen
        cases hopen
      rw [Function.update_self]
      constructor
      · intro he
        cases he
        exact ⟨by simp, hunresolved⟩
      · rintro ⟨hmem, hres⟩
        rcases List.mem_append.mp hmem with hmem | hmem
        · exact absurd ⟨hmem, hres⟩ (hnone k' t')
        · cases List.mem_singleton.mp hmem
          rfl
    · rw [Function.update_of_ne ho, h.points]
      simp [IsOpen, ho]

/-- Resolving the episode an owner points at. -/
theorem Sound.resolves (h : l.Sound current) {k : κ} {o : ω} {t : τ} (hcur : current o = some (k, t)) :
    (⟨l.opened, l.resolved ++ [k]⟩ : Log κ ω τ).Sound (Function.update current o none) := by
  obtain ⟨hmem, hres⟩ := (h.points o k t).mp hcur
  refine ⟨h.keys, ?_, ?_, ?_⟩
  · rw [List.nodup_append]
    refine ⟨h.once, by simp, ?_⟩
    rintro a ha b hb rfl
    obtain rfl : a = k := by simpa using hb
    exact hres ha
  · intro k' hk'
    rcases List.mem_append.mp hk' with hk' | hk'
    · exact h.known k' hk'
    · obtain rfl : k' = k := by simpa using hk'
      exact ⟨_, hmem, rfl⟩
  · intro o' k' t'
    by_cases ho : o' = o
    · subst ho
      rw [Function.update_self]
      constructor
      · intro he
        cases he
      · rintro ⟨hmem', hres'⟩
        have hopen : l.IsOpen ⟨k', o', t'⟩ := ⟨hmem', fun hk => hres' (List.mem_append_left _ hk)⟩
        rw [← h.points, hcur] at hopen
        cases hopen
        exact absurd (List.mem_append_right _ (List.mem_singleton.mpr rfl)) hres'
    · rw [Function.update_of_ne ho, h.points]
      have hne : ∀ hmem' : (⟨k', o', t'⟩ : Episode κ ω τ) ∈ l.opened, k' ≠ k := by
        rintro hmem' rfl
        have := h.opened_unique hmem' hmem rfl
        exact ho (congrArg Episode.owner this)
      constructor
      · rintro ⟨hmem', hres'⟩
        exact ⟨hmem', by simpa [hres'] using hne hmem'⟩
      · rintro ⟨hmem', hres'⟩
        exact ⟨hmem', fun hk => hres' (List.mem_append_left _ hk)⟩

end Log

end Episodes
