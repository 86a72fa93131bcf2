import Mathlib.Data.List.Infix

/-!
# Delimited text

Records of fields, written with separators and quotes as RFC 4180 does, and a
reader that takes the terminator outside quotes as the end of a record. Nothing
here is about a particular program.
-/

namespace Delimited

variable {α : Type} [DecidableEq α]

structure Format (α : Type) where
  quote : α
  separator : α
  terminator : α
  /-- Reserved outside quotes, without a meaning. -/
  reserved : α
  separator_ne_quote : separator ≠ quote
  terminator_ne_quote : terminator ≠ quote
  terminator_ne_separator : terminator ≠ separator

variable (fmt : Format α)

/-! ## Writing -/

def Format.IsSpecial (u : α) : Prop := u = fmt.quote ∨ u = fmt.separator ∨ u = fmt.terminator ∨
    u = fmt.reserved

instance (u : α) : Decidable (fmt.IsSpecial u) :=
  inferInstanceAs (Decidable (u = fmt.quote ∨ u = fmt.separator ∨ u = fmt.terminator ∨
      u = fmt.reserved))

def Format.double (field : List α) : List α :=
  field.flatMap fun u => if u = fmt.quote then [fmt.quote, fmt.quote] else [u]

def Format.writeField (field : List α) : List α :=
  if ∃ u ∈ field, fmt.IsSpecial u then fmt.quote :: fmt.double field ++ [fmt.quote] else field

def Format.writeRecord (record : List (List α)) : List α :=
  [fmt.separator].intercalate (record.map fmt.writeField)

def Format.write (records : List (List (List α))) : List α :=
  [fmt.terminator].intercalate (records.map fmt.writeRecord)

/-! ## Reading -/

inductive Mode
  | start | plain | quoted | closed
  deriving DecidableEq, Repr

/-- The fields read so far: the current one, those of its record, the records before it. -/
structure Reader (α : Type) where
  mode : Mode
  field : List α
  record : List (List α)
  records : List (List (List α))

def Reader.push (r : Reader α) (mode : Mode) (u : α) : Reader α :=
  { r with mode := mode, field := r.field ++ [u] }

def Reader.endField (r : Reader α) : Reader α :=
  { r with mode := .start, field := [], record := r.record ++ [r.field] }

def Reader.endRecord (r : Reader α) : Reader α :=
  { mode := .start, field := [], record := [], records := r.records ++ [r.record ++ [r.field]] }

def Format.stepOutside (r : Reader α) (u : α) : Option (Reader α) :=
  if u = fmt.separator then some r.endField
  else if u = fmt.terminator then some r.endRecord
  else if r.mode = .closed ∨ u = fmt.reserved then none
  else some (r.push .plain u)

def Format.step (r : Reader α) (u : α) : Option (Reader α) :=
  match r.mode with
  | .start => if u = fmt.quote then some { r with mode := .quoted } else fmt.stepOutside r u
  | .plain => if u = fmt.quote then none else fmt.stepOutside r u
  | .quoted => if u = fmt.quote then some { r with mode := .closed } else some (r.push .quoted u)
  | .closed => if u = fmt.quote then some (r.push .quoted u) else fmt.stepOutside r u

def Format.run (r : Reader α) (text : List α) : Option (Reader α) := text.foldlM fmt.step r

def Format.read (text : List α) : Option (List (List (List α))) :=
  (fmt.run ⟨.start, [], [], []⟩ text).bind fun r => if r.mode = .quoted then none
    else some r.endRecord.records

/-! ## Reading what was written -/

theorem run_append (r : Reader α) (s t : List α) :
    fmt.run r (s ++ t) = (fmt.run r s).bind fun r => fmt.run r t :=
  List.foldlM_append

theorem run_cons (r : Reader α) (u : α) (t : List α) :
    fmt.run r (u :: t) = (fmt.step r u).bind fun r => fmt.run r t :=
  List.foldlM_cons

/-- The reader is after `field`, in the record that starts with the fields of `r`. -/
structure After (r : Reader α) (field : List α) (r' : Reader α) : Prop where
  mode : r'.mode ≠ .quoted
  field : r'.field = field
  record : r'.record = r.record
  records : r'.records = r.records

theorem step_outside {r : Reader α} {u : α} (hmode : r.mode ≠ .quoted) (hu : u ≠ fmt.quote) :
    fmt.step r u = fmt.stepOutside r u := by
  unfold Format.step
  cases hm : r.mode with
  | start => exact if_neg hu
  | plain => exact if_neg hu
  | quoted => exact absurd hm hmode
  | closed => exact if_neg hu

theorem step_separator {r : Reader α} (hmode : r.mode ≠ .quoted) :
    fmt.step r fmt.separator = some r.endField := by
  rw [step_outside fmt hmode fmt.separator_ne_quote, Format.stepOutside, if_pos rfl]

theorem step_terminator {r : Reader α} (hmode : r.mode ≠ .quoted) :
    fmt.step r fmt.terminator = some r.endRecord := by
  rw [step_outside fmt hmode fmt.terminator_ne_quote, Format.stepOutside,
    if_neg fmt.terminator_ne_separator, if_pos rfl]

theorem run_plain {field : List α} (h : ∀ u ∈ field, ¬ fmt.IsSpecial u) {r : Reader α}
    (hmode : r.mode = .start ∨ r.mode = .plain) :
    ∃ r', fmt.run r field = some r' ∧ After r (r.field ++ field) r' := by
  induction field generalizing r with
  | nil =>
    refine ⟨r, rfl, ?_, (List.append_nil _).symm, rfl, rfl⟩
    rcases hmode with hmode | hmode <;> rw [hmode] <;> decide
  | cons u field ih =>
    rw [List.forall_mem_cons] at h
    obtain ⟨hspecial, hrest⟩ := h
    simp only [Format.IsSpecial, not_or] at hspecial
    obtain ⟨hquote, hsep, hterm, hres⟩ := hspecial
    have hopen : r.mode ≠ .quoted ∧ r.mode ≠ .closed := by
      rcases hmode with hmode | hmode <;> rw [hmode] <;> decide
    have hstep : fmt.step r u = some (r.push .plain u) := by
      rw [step_outside fmt hopen.1 hquote, Format.stepOutside, if_neg hsep, if_neg hterm,
        if_neg (not_or.mpr ⟨hopen.2, hres⟩)]
    obtain ⟨r', hrun, hafter⟩ := ih hrest (r := r.push .plain u) (.inr rfl)
    refine ⟨r', ?_, hafter.mode, ?_, hafter.record, hafter.records⟩
    · rw [run_cons, hstep]
      exact hrun
    · rw [hafter.field, Reader.push, List.append_assoc]
      rfl

theorem run_double (field : List α) {r : Reader α} (hmode : r.mode = .quoted) :
    fmt.run r (fmt.double field) = some { r with field := r.field ++ field } := by
  induction field generalizing r with
  | nil =>
    rw [List.append_nil]
    rfl
  | cons u field ih =>
    have hunit : fmt.run r (if u = fmt.quote then [fmt.quote,
        fmt.quote] else [u]) = some (r.push .quoted u) := by
      split
      · rename_i hu
        subst hu
        simp [run_cons, Format.step, hmode]
        rfl
      · rename_i hu
        simp [run_cons, Format.step, hmode, hu]
        rfl
    rw [Format.double, List.flatMap_cons, run_append, hunit]
    refine (ih (r := r.push .quoted u) rfl).trans ?_
    rw [Reader.push, List.append_assoc, hmode]
    rfl

theorem run_writeField (field : List α) (record : List (List α)) (records : List (List (List α))) :
    ∃ r', fmt.run ⟨.start, [], record, records⟩ (fmt.writeField field) = some r' ∧ After ⟨.start,
      [], record, records⟩ field r' := by
  unfold Format.writeField
  split
  · refine ⟨⟨.closed, field, record, records⟩, ?_, by simp, rfl, rfl, rfl⟩
    have hopen : fmt.step ⟨.start, [], record, records⟩ fmt.quote = some ⟨.quoted, [], record,
      records⟩ := if_pos rfl
    have hclose : fmt.step ⟨.quoted, field, record, records⟩ fmt.quote = some ⟨.closed, field,
      record, records⟩ := if_pos rfl
    rw [List.cons_append, run_cons, hopen, Option.bind_some, run_append, run_double fmt field rfl,
      Option.bind_some, run_cons]
    simp only [List.nil_append, hclose]
    rfl
  · rename_i h
    exact run_plain fmt (fun u hu hs => h ⟨u, hu, hs⟩) (.inl rfl)

def orBlank (fields : List (List α)) : List (List α) := if fields = [] then [[]] else fields

theorem run_writeRecord (fields record : List (List α)) (records : List (List (List α))) :
    ∃ r', fmt.run ⟨.start, [], record, records⟩ (fmt.writeRecord fields) = some r' ∧ r'.mode ≠ .quoted ∧
      r'.endRecord = ⟨.start, [], [], records ++ [record ++ orBlank fields]⟩ := by
  induction fields generalizing record with
  | nil => exact ⟨_, rfl, by simp, rfl⟩
  | cons field fields ih =>
    obtain ⟨r, hrun, hafter⟩ := run_writeField fmt field record records
    match fields, ih with
    | [], _ =>
      refine ⟨r, ?_, hafter.mode, ?_⟩
      · simpa [Format.writeRecord] using hrun
      · rw [Reader.endRecord, hafter.field, hafter.record, hafter.records]
        rfl
    | next :: fields, ih =>
      obtain ⟨r', hrest, hmode, hend⟩ := ih (record ++ [field])
      refine ⟨r', ?_, hmode, ?_⟩
      · have hnext : r.endField = ⟨.start, [], record ++ [field], records⟩ := by
          rw [Reader.endField, hafter.field, hafter.record, hafter.records]
        have htext : fmt.writeRecord (field :: next :: fields) = fmt.writeField field ++
            fmt.separator :: fmt.writeRecord (next :: fields) := by
          simp [Format.writeRecord]
        rw [htext, run_append, hrun, Option.bind_some, run_cons, step_separator fmt hafter.mode,
          Option.bind_some, hnext, hrest]
      · rw [hend, List.append_assoc]
        rfl

theorem run_write {records : List (List (List α))} (hne : records ≠ [])
    (before : List (List (List α))) :
    ∃ r', fmt.run ⟨.start, [], [], before⟩ (fmt.write records) = some r' ∧ r'.mode ≠ .quoted ∧
      r'.endRecord.records = before ++ records.map orBlank := by
  induction records generalizing before with
  | nil => exact absurd rfl hne
  | cons record records ih =>
    obtain ⟨r, hrun, hmode, hend⟩ := run_writeRecord fmt record [] before
    match records, ih with
    | [], _ =>
      refine ⟨r, ?_, hmode, ?_⟩
      · simpa [Format.write] using hrun
      · rw [hend]
        rfl
    | next :: records, ih =>
      obtain ⟨r', hrest, hmode', hend'⟩ :=
        ih (List.cons_ne_nil next records) (before ++ [orBlank record])
      refine ⟨r', ?_, hmode', ?_⟩
      · have htext : fmt.write (record :: next :: records) = fmt.writeRecord record ++
            fmt.terminator :: fmt.write (next :: records) := by
          simp [Format.write]
        rw [htext, run_append, hrun, Option.bind_some, run_cons, step_terminator fmt hmode,
          Option.bind_some, hend]
        exact hrest
      · rw [hend', List.append_assoc]
        rfl

theorem read_write {records : List (List (List α))} (hne : records ≠ []) :
    fmt.read (fmt.write records) = some (records.map orBlank) := by
  obtain ⟨r, hrun, hmode, hend⟩ := run_write fmt hne []
  rw [Format.read, hrun, Option.bind_some, if_neg hmode, hend]
  rfl

end Delimited
