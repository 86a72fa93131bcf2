import ExamSystem.Table

/-!
# Maps that keep the order of their keys

A map from keys to values whose entries stay in the order in which their keys
were first set. Nothing here is about a particular program.
-/

abbrev OrderedMap (κ ν : Type) := Table (fun e : κ × ν => e.1)

namespace OrderedMap

variable {κ ν : Type} [DecidableEq κ]

def lookup (m : OrderedMap κ ν) (k : κ) : Option ν := (Table.get m k).map Prod.snd

def set (m : OrderedMap κ ν) (k : κ) (v : ν) : OrderedMap κ ν :=
  if (m.get k).isSome then m.update (fun e => e.1 = k) (fun e => (e.1, v)) fun _ => rfl
    else m.put (k, v)

def delete (m : OrderedMap κ ν) (k : κ) : OrderedMap κ ν := m.remove fun e => e.1 = k

omit [DecidableEq κ] in
def keys (m : OrderedMap κ ν) : List κ := m.rows.map Prod.fst

omit [DecidableEq κ] in
def values (m : OrderedMap κ ν) : List ν := m.rows.map Prod.snd

@[simp] theorem lookup_empty (k : κ) : lookup (Table.empty : OrderedMap κ ν) k = none := rfl

theorem lookup_set (m : OrderedMap κ ν) (k k' : κ) (v : ν) :
    lookup (set m k v) k' = if k' = k then some v else lookup m k' := by
  unfold set lookup
  by_cases hk : k' = k
  · subst hk
    cases h : m.get k' with
    | none => simp [Table.get_put]
    | some e =>
      have he : e.1 = k' := Table.key_get h
      simp [Table.get_update, h, he]
  · cases h : m.get k with
    | none => simp [Table.get_put, hk]
    | some e =>
      cases h' : m.get k' with
      | none => simp [Table.get_update, h', hk]
      | some e' =>
        have he : e'.1 = k' := Table.key_get h'
        simp [Table.get_update, h', he, hk]

@[simp] theorem lookup_set_same (m : OrderedMap κ ν) (k : κ) (v : ν) :
    lookup (set m k v) k = some v := by
  rw [lookup_set, if_pos rfl]

theorem lookup_set_other (m : OrderedMap κ ν) {k k' : κ} (v : ν) (h : k' ≠ k) :
    lookup (set m k v) k' = lookup m k' := by
  rw [lookup_set, if_neg h]

theorem lookup_delete (m : OrderedMap κ ν) (k k' : κ) :
    lookup (delete m k) k' = if k' = k then none else lookup m k' := by
  unfold delete lookup
  rw [Table.get_remove]
  cases h : m.get k' with
  | none => simp
  | some e =>
    have he : e.1 = k' := Table.key_get h
    by_cases hk : k' = k <;> simp [Option.filter, he, hk]

@[simp] theorem lookup_delete_same (m : OrderedMap κ ν) (k : κ) : lookup (delete m k) k = none := by
  rw [lookup_delete, if_pos rfl]

theorem lookup_delete_other (m : OrderedMap κ ν) {k k' : κ} (h : k' ≠ k) :
    lookup (delete m k) k' = lookup m k' := by
  rw [lookup_delete, if_neg h]

theorem lookup_of_mem {m : OrderedMap κ ν} {e : κ × ν} (h : e ∈ m.rows) : lookup m e.1 = some e.2 := by
  unfold lookup
  rw [Table.get_of_mem h]
  rfl

theorem mem_of_lookup {m : OrderedMap κ ν} {k : κ} {v : ν} (h : lookup m k = some v) :
    (k, v) ∈ m.rows := by
  obtain ⟨e, he, rfl⟩ := Option.map_eq_some_iff.mp h
  have hk : e.1 = k := Table.key_get he
  subst hk
  exact Table.mem_of_get he

theorem mem_keys_of_lookup {m : OrderedMap κ ν} {k : κ} {v : ν} (h : lookup m k = some v) :
    k ∈ keys m :=
  List.mem_map.mpr ⟨(k, v), mem_of_lookup h, rfl⟩

/-! ## Entries set one after another -/

def setAll (m : OrderedMap κ ν) (l : List (κ × ν)) : OrderedMap κ ν :=
  l.foldl (fun m e => set m e.1 e.2) m

theorem lookup_setAll_of_not_mem {l : List (κ × ν)} (m : OrderedMap κ ν) {k : κ}
    (h : k ∉ l.map Prod.fst) :
    lookup (setAll m l) k = lookup m k := by
  induction l generalizing m with
  | nil => rfl
  | cons e l ih =>
    rw [List.map_cons, List.mem_cons, not_or] at h
    refine (ih (set m e.1 e.2) h.2).trans ?_
    exact lookup_set_other m e.2 h.1

theorem lookup_setAll_of_mem {l : List (κ × ν)} (hn : (l.map Prod.fst).Nodup) (m : OrderedMap κ ν)
    {e : κ × ν} (h : e ∈ l) :
    lookup (setAll m l) e.1 = some e.2 := by
  induction l generalizing m with
  | nil => cases h
  | cons d l ih =>
    obtain ⟨hd, hn⟩ := List.nodup_cons.mp hn
    rcases List.mem_cons.mp h with rfl | h
    · refine (lookup_setAll_of_not_mem (set m e.1 e.2) hd).trans ?_
      exact lookup_set_same m e.1 e.2
    · exact ih hn (set m d.1 d.2) h

end OrderedMap
