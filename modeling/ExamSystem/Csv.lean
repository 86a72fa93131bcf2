import ExamSystem.Delimited
import ExamSystem.Json

/-!
# CSV exports

The text of an export, its guard against formulas, and what a reader of
delimited text recovers from it.
-/

namespace ExamSystem

open Delimited

/-! ## The export -/

def DANGEROUS_PREFIXES : JsString := js "=+-@\t\r\n"

def formulaGuarded (str : JsString) : JsString :=
  if str.head?.any DANGEROUS_PREFIXES.contains then js "'" ++ str else str

section
variable {ν : Type} (toText : ν → JsString)

/-- `String(value ?? "")`, where `none` is `null` or `undefined` and `toText` is `String` on
the other values. -/
def cellText (value : Option ν) : JsString := (value.map toText).getD []

def escapeCSVValue (value : Option ν) : JsString :=
  let body := formulaGuarded (cellText toText value)
  if body.contains 0x2C || body.contains 0x22 || body.contains 0xA || body.contains 0xD then
    js "\"" ++ body.flatMap (fun u => if u = 0x22 then js "\"\"" else [u]) ++ js "\""
  else body

inductive CSVRow (ν : Type)
  | array (values : List (Option ν))
  | record (get : JsString → Option ν)

def CSVRow.values (headers : List JsString) : CSVRow ν → List (Option ν)
  | .array values => values
  | .record get => headers.map get

def generateCSV (headers : List JsString) (rows : List (CSVRow ν)) : JsString :=
  joinWith (js "\n") <|
    joinWith (js ",") (headers.map fun header => escapeCSVValue id (some header)) ::
      rows.map fun row => joinWith (js ",") ((row.values headers).map (escapeCSVValue toText))

end

/-! ## Reading an export -/

def csvFormat : Format UInt16 where
  quote := 0x22
  separator := 0x2C
  terminator := 0xA
  reserved := 0xD
  separator_ne_quote := by decide
  terminator_ne_quote := by decide
  terminator_ne_separator := by decide

section
variable {ν : Type} (toText : ν → JsString)

theorem escapeCSVValue_eq (value : Option ν) :
    escapeCSVValue toText value = csvFormat.writeField (formulaGuarded (cellText toText value)) := by
  have hquotes : js "\"" = [0x22] ∧ js "\"\"" = [0x22, 0x22] := by decide
  have hspecial : ∀ body : JsString,
      (body.contains 0x2C || body.contains 0x22 || body.contains 0xA || body.contains 0xD) = true ↔
      ∃ u ∈ body, csvFormat.IsSpecial u := by
    intro body
    simp only [Bool.or_eq_true, List.contains_iff_mem, Format.IsSpecial, csvFormat]
    grind
  rw [escapeCSVValue, hquotes.1, hquotes.2]
  simp only [hspecial]
  rfl

theorem joinWith_writeRecord (cells : List JsString) :
    joinWith (js ",") (cells.map csvFormat.writeField) = csvFormat.writeRecord cells := by
  rw [joinWith_eq_intercalate, Format.writeRecord, (by decide : js "," = [0x2C])]
  rfl

def guardedCells (headers : List JsString) (rows : List (CSVRow ν)) : List (List JsString) :=
  headers.map formulaGuarded :: rows.map fun row => (row.values headers).map fun value =>
    formulaGuarded (cellText toText value)

theorem generateCSV_eq (headers : List JsString) (rows : List (CSVRow ν)) :
    generateCSV toText headers rows = csvFormat.write (guardedCells toText headers rows) := by
  have hheader : headers.map (fun header => escapeCSVValue id (some header)) =
      (headers.map formulaGuarded).map csvFormat.writeField := by
    rw [List.map_map]
    exact List.map_congr_left fun header _ => escapeCSVValue_eq id (some header)
  have hrow : ∀ row : CSVRow ν, joinWith (js ",") ((row.values headers).map (escapeCSVValue toText)) =
      csvFormat.writeRecord ((row.values headers).map fun value => formulaGuarded
          (cellText toText value)) := by
    intro row
    rw [← joinWith_writeRecord, List.map_map]
    exact congrArg _ (List.map_congr_left fun value _ => escapeCSVValue_eq toText value)
  rw [generateCSV, hheader, joinWith_writeRecord, joinWith_eq_intercalate,
    List.map_congr_left fun row _ => hrow row,
    (by decide : js "\n" = [0xA]), Format.write, guardedCells, List.map_cons, List.map_map]
  rfl

theorem formulaGuarded_head {str : JsString} {u : UInt16} (h : u ∈ (formulaGuarded str).head?) :
    u ∉ DANGEROUS_PREFIXES := by
  unfold formulaGuarded at h
  split at h
  · obtain rfl : 0x27 = u := Option.some.inj h
    decide
  · rename_i hsafe
    rw [Option.mem_def.mp h] at hsafe
    simpa using hsafe

theorem read_generateCSV (headers : List JsString) (rows : List (CSVRow ν)) :
    csvFormat.read (generateCSV toText headers rows) = some ((guardedCells toText headers rows).map
        orBlank) := by
  rw [generateCSV_eq]
  exact read_write csvFormat (List.cons_ne_nil _ _)

theorem orBlank_map {β : Type} (f : β → JsString) {l : List β} (h : l ≠ []) :
    orBlank (l.map f) = l.map f :=
  if_neg (by simpa using h)

theorem guardedCells_head {headers : List JsString} {rows : List (CSVRow ν)}
    {record : List JsString} {cell : JsString} {u : UInt16}
    (hrecord : record ∈ (guardedCells toText headers rows).map orBlank) (hcell : cell ∈ record)
    (hu : u ∈ cell.head?) :
    u ∉ DANGEROUS_PREFIXES := by
  obtain ⟨cells, hcells, rfl⟩ := List.mem_map.mp hrecord
  have hguarded : ∀ c ∈ cells, ∃ str, c = formulaGuarded str := by
    rcases List.mem_cons.mp hcells with rfl | hrow
    · intro c hc
      obtain ⟨str, -, rfl⟩ := List.mem_map.mp hc
      exact ⟨str, rfl⟩
    · obtain ⟨row, -, rfl⟩ := List.mem_map.mp hrow
      intro c hc
      obtain ⟨value, -, rfl⟩ := List.mem_map.mp hc
      exact ⟨_, rfl⟩
  unfold orBlank at hcell
  split at hcell
  · obtain rfl := List.mem_singleton.mp hcell
    cases hu
  · obtain ⟨str, rfl⟩ := hguarded cell hcell
    exact formulaGuarded_head hu

/-- An export is read back as its guarded cells, a list of headers that is empty
as one empty header. No cell starts a formula. -/
theorem csv_read_back (headers : List JsString) (rows : List (CSVRow ν))
    (hrows : ∀ row ∈ rows, row.values headers ≠ []) :
    csvFormat.read (generateCSV toText headers rows) =
      some ((if headers = [] then [[]] else headers.map formulaGuarded) ::
        rows.map fun row => (row.values headers).map fun value => formulaGuarded
          (cellText toText value)) ∧
    ∀ records, csvFormat.read (generateCSV toText headers rows) = some records →
      ∀ record ∈ records, ∀ cell ∈ record, ∀ u ∈ cell.head?, u ∉ DANGEROUS_PREFIXES := by
  refine ⟨?_, fun records h record hrecord cell hcell u hu => ?_⟩
  · have hheader : orBlank (headers.map formulaGuarded) = if headers = [] then [[]]
        else headers.map formulaGuarded := by
      split
      · rename_i hempty
        rw [hempty]
        rfl
      · rename_i hne
        exact orBlank_map _ hne
    have hcells : ∀ row ∈ rows, orBlank ((row.values headers).map fun value => formulaGuarded
        (cellText toText value)) =
        (row.values headers).map fun value => formulaGuarded (cellText toText value) :=
      fun row hrow => orBlank_map _ (hrows row hrow)
    rw [read_generateCSV, guardedCells, List.map_cons, List.map_map, hheader]
    exact congrArg (fun cells => some (_ :: cells)) (List.map_congr_left hcells)
  · rw [read_generateCSV] at h
    obtain rfl := Option.some.inj h
    exact guardedCells_head toText hrecord hcell hu

end

/-- No headers and one empty header have the same text. -/
theorem csv_read_back_counterexample :
    generateCSV (ν := JsString) id [] [] = generateCSV id [[]] [] ∧
    csvFormat.read (generateCSV (ν := JsString) id [] []) = some [[[]]] := by
  decide

theorem csv_read_back_sample :
    csvFormat.read (generateCSV id [js "name", js "formula"] [.array [some (js "a\"b"),
          some (js "=1\n2")], .array [none]]) =
      some [[js "name", js "formula"], [js "a\"b", js "'=1\n2"], [[]]] :=
  (csv_read_back id [js "name", js "formula"] [.array [some (js "a\"b"), some (js "=1\n2")],
      .array [none]] (by simp [CSVRow.values])).1.trans
    (by decide)

end ExamSystem
