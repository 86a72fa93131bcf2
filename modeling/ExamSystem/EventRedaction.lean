import ExamSystem.StoreLemmas

/-!
# What a client event may carry

The metadata of an event is a JSON object that the page and the server both
sanitize: a key that names a credential or exam content keeps no value. The
schema bounds the nesting, and below that bound nothing escapes the walk.
-/

namespace ExamSystem.Telemetry

/-! ## Sanitizing -/

section
variable [Host]

def DENYLIST_SUBSTRINGS : List JsString :=
  [js "password", js "token", js "cookie", js "authorization", js "auth", js "secret", js "answer",
    js "answertext", js "content", js "body", js "questiontext"]

def REDACTED : JsString := js "[redacted]"

def MAX_DEPTH : Nat := 5

def isDenylisted (key : JsString) : Bool :=
  DENYLIST_SUBSTRINGS.any fun sub => decide (sub <:+: Host.toLowerCase key)

def proto : JsString := js "__proto__"

def isObject : Json → Bool
  | .arr _ | .obj _ => true
  | _ => false

mutual

def sanitizeMetadata : Nat → Json → Json
  | depth, .arr elements => .arr (sanitizeElements depth elements)
  | depth, .obj entries => .obj (sanitizeEntries depth entries)
  | _, value => value

def sanitizeElements : Nat → List Json → List Json
  | _, [] => []
  | depth, item :: rest => (if isObject item then sanitizeMetadata (depth + 1) item else item) ::
      sanitizeElements depth rest

def sanitizeEntries : Nat → List (JsString × Json) → List (JsString × Json)
  | _, [] => []
  | depth, (key, raw) :: rest =>
    if key = proto then sanitizeEntries depth rest
    else
      (key,
        if isDenylisted key then .str REDACTED
        else if isObject raw then if depth + 1 > MAX_DEPTH then raw else sanitizeMetadata
          (depth + 1) raw
        else raw) :: sanitizeEntries depth rest

end

def sanitizeClientEvent : Option (List (JsString × Json)) → List (JsString × Json)
  | none => []
  | some entries => sanitizeEntries 0 entries

end

/-! ## The nesting of metadata -/

def children : Json → List Json
  | .arr elements => elements
  | .obj entries => entries.map Prod.snd
  | _ => []

/-- The loop of `measureDepth`, with the visits that it may still make. -/
def measureLoop : Nat → Nat → List (Json × Nat) → Option Nat
  | _, max, [] => some max
  | 0, _, _ :: _ => none
  | visits + 1, max, (cur, depth) :: stack =>
    measureLoop visits (if depth > max then depth else max)
      ((children cur).reverse.map (fun child => (child, depth + 1)) ++ stack)

def measureDepth (value : Json) : Option Nat :=
  if isObject value then measureLoop 5001 0 [(value, 1)] else some 0

def CLIENT_EVENT_METADATA_MAX_DEPTH : Nat := 5

def depthAdmitted (metadata : Option (List (JsString × Json))) : Bool :=
  metadata.all fun entries => (measureDepth (.obj entries)).any (· ≤ CLIENT_EVENT_METADATA_MAX_DEPTH)

/-! ## Paths -/

inductive Step
  | key (k : JsString)
  | index (i : Nat)
  deriving DecidableEq

def Json.child : Json → Step → Option Json
  | .obj entries, .key k => entries.lookup k
  | .arr elements, .index i => elements[i]?
  | _, _ => none

def valueAt : Json → List Step → Option Json
  | v, [] => some v
  | v, s :: path => (Json.child v s).bind fun w => valueAt w path

theorem valueAt_leaf {v : Json} (h : isObject v = false) (s : Step) (path : List Step) :
    valueAt v (s :: path) = none := by
  cases v with
  | arr elements => cases h
  | obj entries => cases h
  | _ => cases s <;> rfl

/-! ## Levels -/

mutual

def levels : Json → Nat
  | .arr elements => levelsOf elements + 1
  | .obj entries => levelsOfEntries entries + 1
  | _ => 1

def levelsOf : List Json → Nat
  | [] => 0
  | v :: rest => max (levels v) (levelsOf rest)

def levelsOfEntries : List (JsString × Json) → Nat
  | [] => 0
  | (_, v) :: rest => max (levels v) (levelsOfEntries rest)

end

theorem levelsOf_le {elements : List Json} {n : Nat} (h : ∀ v ∈ elements, levels v ≤ n) :
    levelsOf elements ≤ n := by
  induction elements with
  | nil => exact Nat.zero_le n
  | cons v rest ih =>
    simp only [levelsOf]
    exact Nat.max_le.mpr ⟨h v List.mem_cons_self, ih fun w hw => h w (List.mem_cons_of_mem v hw)⟩

theorem levelsOfEntries_eq (entries : List (JsString × Json)) :
    levelsOfEntries entries = levelsOf (entries.map Prod.snd) := by
  induction entries with
  | nil => rfl
  | cons e rest ih => simp [levelsOfEntries, levelsOf, ih]

theorem levels_le {v : Json} {n : Nat} (h : ∀ w ∈ children v, levels w ≤ n) : levels v ≤ n + 1 := by
  cases v with
  | arr elements => exact Nat.succ_le_succ (levelsOf_le h)
  | obj entries =>
    simp only [levels, levelsOfEntries_eq]
    exact Nat.succ_le_succ (levelsOf_le h)
  | _ => simp [levels]

theorem measureLoop_bounds :
    ∀ {visits max : Nat} {stack : List (Json × Nat)} {m : Nat}, measureLoop visits max stack = some m →
    max ≤ m ∧ ∀ e ∈ stack, e.2 + levels e.1 ≤ m + 1
  | visits, max, [], m, h => by
    simp only [measureLoop, Option.some.injEq] at h
    simp [h]
  | 0, _, _ :: _, _, h => by simp [measureLoop] at h
  | visits + 1, max, (cur, depth) :: stack, m, h => by
    simp only [measureLoop] at h
    obtain ⟨hmax, hstack⟩ := measureLoop_bounds h
    have hdepth : max ≤ m ∧ depth ≤ m := by
      split at hmax <;> omega
    refine ⟨hdepth.1, ?_⟩
    intro e he
    rcases List.mem_cons.mp he with rfl | he
    · have hchild : ∀ w ∈ children cur, levels w ≤ m - depth := by
        intro w hw
        have := hstack (w, depth + 1) (List.mem_append_left _ (by simpa using hw))
        simp only at this
        omega
      have := levels_le hchild
      simp only
      omega
    · exact hstack e (List.mem_append_right _ he)

theorem levels_pos (v : Json) : 1 ≤ levels v := by
  cases v <;> simp [levels]

theorem measureDepth_bounds {entries : List (JsString × Json)} {m : Nat}
    (h : measureDepth (.obj entries) = some m) :
    levels (.obj entries) ≤ m := by
  have := (measureLoop_bounds h).2 (.obj entries, 1) (by simp)
  simp only at this
  omega

section
variable [Host]

/-! ## Redaction at every depth -/

mutual

/-- The value with every denylisted key redacted and no member `__proto__`, however deep. -/
def redact : Json → Json
  | .arr elements => .arr (redactElements elements)
  | .obj entries => .obj (redactEntries entries)
  | value => value

def redactElements : List Json → List Json
  | [] => []
  | v :: rest => redact v :: redactElements rest

def redactEntries : List (JsString × Json) → List (JsString × Json)
  | [] => []
  | (k, v) :: rest =>
    if k = proto then redactEntries rest
    else (k, if isDenylisted k then .str REDACTED else redact v) :: redactEntries rest

end

theorem redact_leaf {v : Json} (h : isObject v = false) : redact v = v := by
  cases v <;> first | rfl | cases h

theorem redact_isObject (v : Json) : isObject (redact v) = isObject v := by
  cases v <;> rfl

mutual

theorem sanitizeMetadata_eq :
    ∀ (depth : Nat) (v : Json), depth + levels v ≤ MAX_DEPTH + 1 → sanitizeMetadata depth v = redact v
  | depth, .arr elements, h => by
    simp only [sanitizeMetadata, redact]
    rw [sanitizeElements_eq depth elements (by simp only [levels] at h; omega)]
  | depth, .obj entries, h => by
    simp only [sanitizeMetadata, redact]
    rw [sanitizeEntries_eq depth entries (by simp only [levels] at h; omega)]
  | _, .null, _ => rfl
  | _, .bool _, _ => rfl
  | _, .num _, _ => rfl
  | _, .str _, _ => rfl

theorem sanitizeElements_eq :
    ∀ (depth : Nat) (elements : List Json), depth + 1 + levelsOf elements ≤ MAX_DEPTH + 1 →
    sanitizeElements depth elements = redactElements elements
  | _, [], _ => rfl
  | depth, item :: rest, h => by
    simp only [levelsOf] at h
    simp only [sanitizeElements, redactElements]
    rw [sanitizeElements_eq depth rest (by omega)]
    by_cases hobj : isObject item = true
    · rw [if_pos hobj, sanitizeMetadata_eq (depth + 1) item (by omega)]
    · rw [if_neg hobj, redact_leaf (by simpa using hobj)]

theorem sanitizeEntries_eq :
    ∀ (depth : Nat) (entries : List (JsString × Json)),
    depth + 1 + levelsOfEntries entries ≤ MAX_DEPTH + 1 →
    sanitizeEntries depth entries = redactEntries entries
  | _, [], _ => rfl
  | depth, (key, raw) :: rest, h => by
    simp only [levelsOfEntries] at h
    have hpos := levels_pos raw
    simp only [sanitizeEntries, redactEntries]
    rw [sanitizeEntries_eq depth rest (by omega)]
    by_cases hproto : key = proto
    · rw [if_pos hproto, if_pos hproto]
    rw [if_neg hproto, if_neg hproto]
    by_cases hobj : isObject raw = true
    · rw [if_pos hobj, if_neg (show ¬ depth + 1 > MAX_DEPTH by omega),
        sanitizeMetadata_eq (depth + 1) raw (by omega)]
    · rw [if_neg hobj, redact_leaf (by simpa using hobj)]

end

/-! ## Twice -/

theorem isObject_sanitized (depth : Nat) (v : Json) :
    isObject (sanitizeMetadata depth v) = isObject v := by
  cases v <;> rfl

mutual

theorem sanitizeMetadata_fixed :
    ∀ (depth : Nat) (v : Json), sanitizeMetadata depth (sanitizeMetadata depth v) =
      sanitizeMetadata depth v
  | depth, .arr elements => by simp only [sanitizeMetadata, sanitizeElements_fixed depth elements]
  | depth, .obj entries => by simp only [sanitizeMetadata, sanitizeEntries_fixed depth entries]
  | _, .null => rfl
  | _, .bool _ => rfl
  | _, .num _ => rfl
  | _, .str _ => rfl

theorem sanitizeElements_fixed : ∀ (depth : Nat) (elements : List Json),
    sanitizeElements depth (sanitizeElements depth elements) = sanitizeElements depth elements
  | _, [] => rfl
  | depth, item :: rest => by
    simp only [sanitizeElements, sanitizeElements_fixed depth rest]
    by_cases hobj : isObject item = true
    · simp only [hobj, if_true, isObject_sanitized, sanitizeMetadata_fixed (depth + 1) item]
    · simp only [hobj, Bool.false_eq_true, if_false]

theorem sanitizeEntries_fixed : ∀ (depth : Nat) (entries : List (JsString × Json)),
    sanitizeEntries depth (sanitizeEntries depth entries) = sanitizeEntries depth entries
  | _, [] => rfl
  | depth, (key, raw) :: rest => by
    by_cases hproto : key = proto
    · simp only [sanitizeEntries, hproto, if_true]
      exact sanitizeEntries_fixed depth rest
    simp only [sanitizeEntries, hproto, if_false, sanitizeEntries_fixed depth rest]
    by_cases hkey : isDenylisted key = true
    · simp only [hkey, if_true]
    by_cases hobj : isObject raw = true
    · by_cases hdepth : depth + 1 > MAX_DEPTH
      · simp only [hkey, hobj, hdepth, Bool.false_eq_true, if_true, if_false]
      · simp only [hkey, hobj, hdepth, Bool.false_eq_true, if_true, if_false, isObject_sanitized,
          sanitizeMetadata_fixed (depth + 1) raw]
    · simp only [hkey, hobj, Bool.false_eq_true, if_false]

end

theorem sanitizeClientEvent_fixed (metadata : Option (List (JsString × Json))) :
    sanitizeClientEvent (some (sanitizeClientEvent metadata)) = sanitizeClientEvent metadata := by
  cases metadata with
  | none => rfl
  | some entries => exact sanitizeEntries_fixed 0 entries

/-! ## What is left of a value -/

/-- No key of the path is denylisted or `__proto__`. -/
def Clean (path : List Step) : Prop := ∀ k, .key k ∈ path → isDenylisted k = false ∧ k ≠ proto

theorem redactElements_eq (elements : List Json) : redactElements elements = elements.map redact := by
  induction elements with
  | nil => rfl
  | cons v rest ih => simp [redactElements, ih]

theorem lookup_redactEntries (entries : List (JsString × Json)) (k : JsString) :
    (redactEntries entries).lookup k =
      if k = proto then none else (entries.lookup k).map fun v =>
        if isDenylisted k then .str REDACTED else redact v := by
  induction entries with
  | nil => simp [redactEntries]
  | cons e rest ih =>
    obtain ⟨l, v⟩ := e
    simp only [redactEntries, List.lookup_cons]
    by_cases hl : l = proto
    · rw [if_pos hl, ih]
      by_cases hk : k = proto
      · rw [if_pos hk, if_pos hk]
      · have hne : (k == l) = false := beq_false_of_ne (hl ▸ hk)
        rw [if_neg hk, if_neg hk, hne]
    · rw [if_neg hl, List.lookup_cons, ih]
      by_cases hk : k = l
      · subst hk
        simp [hl]
      · have hne : (k == l) = false := beq_false_of_ne hk
        simp only [hne]

theorem child_redact (v : Json) (s : Step) (h : Clean [s]) :
    Json.child (redact v) s = (Json.child v s).map redact := by
  cases v with
  | arr elements =>
    cases s with
    | key k => rfl
    | index i => simp [redact, Json.child, redactElements_eq]
  | obj entries =>
    cases s with
    | key k =>
      obtain ⟨hk, hproto⟩ := h k List.mem_cons_self
      simp [redact, Json.child, lookup_redactEntries, hk, hproto]
    | index i => rfl
  | _ => cases s <;> rfl

theorem valueAt_redact :
    ∀ (path : List Step) (v : Json), Clean path → valueAt (redact v) path = (valueAt v path).map redact
  | [], _, _ => rfl
  | s :: path, v, h => by
    have hs : Clean [s] := fun k hk => h k (List.mem_cons.mpr (.inl (List.mem_singleton.mp hk)))
    simp only [valueAt, child_redact v s hs]
    cases Json.child v s with
    | none => rfl
    | some w => exact valueAt_redact path w fun k hk => h k (List.mem_cons_of_mem s hk)

theorem child_redact_cases {v u : Json} {s : Step} (h : Json.child (redact v) s = some u) :
    (u = .str REDACTED ∧ ¬ Clean [s]) ∨ ∃ w, Json.child v s = some w ∧ u = redact w := by
  by_cases hs : Clean [s]
  · rw [child_redact v s hs, Option.map_eq_some_iff] at h
    obtain ⟨w, hw, rfl⟩ := h
    exact .inr ⟨w, hw, rfl⟩
  · refine .inl ⟨?_, hs⟩
    cases s with
    | index i => exact absurd (fun k hk => by simp at hk) hs
    | key k =>
      cases v with
      | obj entries =>
        simp only [redact, Json.child, lookup_redactEntries] at h
        by_cases hproto : k = proto
        · rw [if_pos hproto] at h
          cases h
        · have hkey : isDenylisted k = true := by
            by_contra hno
            exact hs fun l hl => by
              obtain rfl := Step.key.inj (List.mem_singleton.mp hl)
              exact ⟨by simpa using hno, hproto⟩
          rw [if_neg hproto, hkey, Option.map_eq_some_iff] at h
          obtain ⟨w, _, rfl⟩ := h
          rfl
      | _ => cases h

theorem valueAt_redact_hidden {k : JsString} (hk : isDenylisted k = true) :
    ∀ (path rest : List Step) (v : Json) {w : Json},
    valueAt (redact v) (path ++ .key k :: rest) = some w → rest = [] ∧ w = .str REDACTED
  | [], rest, v, w, h => by
    simp only [List.nil_append, valueAt, Option.bind_eq_some_iff] at h
    obtain ⟨u, hu, h⟩ := h
    have hplaceholder : u = .str REDACTED := by
      cases v with
      | obj entries =>
        simp only [redact, Json.child, lookup_redactEntries, hk, if_true] at hu
        split at hu
        · cases hu
        · obtain ⟨x, _, rfl⟩ := Option.map_eq_some_iff.mp hu
          rfl
      | _ => cases hu
    subst hplaceholder
    cases rest with
    | nil => exact ⟨rfl, (Option.some.inj h).symm⟩
    | cons s rest => rw [valueAt_leaf rfl] at h; cases h
  | s :: path, rest, v, w, h => by
    simp only [List.cons_append, valueAt, Option.bind_eq_some_iff] at h
    obtain ⟨u, hu, h⟩ := h
    rcases child_redact_cases hu with ⟨rfl, -⟩ | ⟨x, -, rfl⟩
    · cases path <;> simp [valueAt_leaf (v := .str REDACTED) rfl] at h
    · exact valueAt_redact_hidden hk path rest x h

theorem valueAt_redact_proto :
    ∀ (path rest : List Step) (v : Json), valueAt (redact v) (path ++ .key proto :: rest) = none
  | [], rest, v => by
    have hchild : Json.child (redact v) (.key proto) = none := by
      cases v with
      | obj entries => simp [redact, Json.child, lookup_redactEntries]
      | _ => rfl
    rw [List.nil_append, valueAt, hchild, Option.bind_none]
  | s :: path, rest, v => by
    rw [List.cons_append, valueAt, Option.bind_eq_none_iff]
    intro u hu
    rcases child_redact_cases hu with ⟨rfl, -⟩ | ⟨x, -, rfl⟩
    · cases path <;> exact valueAt_leaf rfl _ _
    · exact valueAt_redact_proto path rest x

/-- Of the metadata that the schema admits the server stores nothing under a
denylisted key, at any depth, no member `__proto__`, and everything else; and what a
page has sanitized it stores as it is. -/
theorem stored_metadata_redacted (entries : List (JsString × Json))
    (h : depthAdmitted (some entries) = true) :
    let stored := sanitizeClientEvent (some entries)
    (∀ path k rest w, isDenylisted k = true →
      valueAt (.obj stored) (path ++ .key k :: rest) = some w → rest = [] ∧ w = .str REDACTED) ∧
    (∀ path rest, valueAt (.obj stored) (path ++ .key proto :: rest) = none) ∧
    (∀ path w, Clean path → isObject w = false → (valueAt (.obj stored) path = some w ↔
        valueAt (.obj entries) path = some w)) ∧
    ∀ metadata, sanitizeClientEvent (some (sanitizeClientEvent metadata)) = sanitizeClientEvent
      metadata := by
  intro stored
  obtain ⟨m, hm, hle⟩ : ∃ m, measureDepth (.obj entries) = some m ∧
      m ≤ CLIENT_EVENT_METADATA_MAX_DEPTH := by
    simpa [depthAdmitted, Option.any_eq_true] using h
  have hstored : Json.obj stored = redact (.obj entries) := by
    have hlevels := measureDepth_bounds hm
    change sanitizeMetadata 0 (.obj entries) = redact (.obj entries)
    apply sanitizeMetadata_eq
    unfold CLIENT_EVENT_METADATA_MAX_DEPTH at hle
    unfold MAX_DEPTH
    omega
  refine ⟨?_, ?_, ?_, sanitizeClientEvent_fixed⟩
  · intro path k rest w hk hw
    rw [hstored] at hw
    exact valueAt_redact_hidden hk path rest _ hw
  · intro path rest
    rw [hstored]
    exact valueAt_redact_proto path rest _
  · intro path w hpath hw
    rw [hstored, valueAt_redact path _ hpath, Option.map_eq_some_iff]
    constructor
    · rintro ⟨x, hx, rfl⟩
      rw [redact_isObject] at hw
      rw [hx, redact_leaf hw]
    · intro hx
      exact ⟨w, hx, redact_leaf hw⟩

end

/-- A token two objects down. -/
theorem stored_metadata_redacted_sample :
    let entries : List (JsString × Json) :=
      [(js "request", .obj [(js "authToken", .str (js "abc")), (js "status", .num (.value 401))])]
    let stored := @sanitizeClientEvent sampleHost (some entries)
    ∀ w, valueAt (.obj stored) [.key (js "request"), .key (js "authToken")] = some w →
      w = .str REDACTED := by
  let _ : Host := sampleHost
  intro entries stored w hw
  have hkey : isDenylisted (js "authToken") = true := by decide +kernel
  exact ((stored_metadata_redacted entries (by decide +kernel)).1 [.key (js "request")] _
      [] w hkey hw).2

end ExamSystem.Telemetry
