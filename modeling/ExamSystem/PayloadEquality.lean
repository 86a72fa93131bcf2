import ExamSystem.AnswerIdentity

/-!
# Equality of command payloads

Payloads are compared as the texts of their rebuilt copies. The copy loses the
members named `__proto__`, and the text loses the infinities.
-/

namespace ExamSystem.Payloads

/-! ## The comparison -/

/-- The numbers of `JSON.parse`: a literal beyond the doubles is infinite. -/
inductive Double
  | finite (n : JsNumber)
  | infinite (negative : Bool)
  deriving DecidableEq

def numericValue : JsNumber → ℚ
  | .negZero => 0
  | .value q => q

/-- `a === b` on numbers. -/
def Double.StrictEq : Double → Double → Prop
  | .finite m, .finite n => numericValue m = numericValue n
  | .infinite a, .infinite b => a = b
  | _, _ => False

/-- An assignment to `__proto__` sets the prototype and creates no member. -/
def isOrdinary (key : JsString) : Bool := key != js "__proto__"

/-- `out[key] = v`. -/
def assignKey (out : List (JsString × α)) (e : JsString × α) : List (JsString × α) :=
  if isOrdinary e.1 then withEntry e.1 e.2 out else out

mutual

def sortKeys : Tree Double → Tree Double
  | .null => .null
  | .bool b => .bool b
  | .num n => .num n
  | .str s => .str s
  | .arr elements => .arr (sortKeysElements elements)
  | .obj entries => .obj ((sortByKey (sortKeysEntries entries)).foldl assignKey [])

def sortKeysElements : List (Tree Double) → List (Tree Double)
  | [] => []
  | v :: elements => sortKeys v :: sortKeysElements elements

def sortKeysEntries : List (JsString × Tree Double) → List (JsString × Tree Double)
  | [] => []
  | (k, v) :: entries => (k, sortKeys v) :: sortKeysEntries entries

end

def isDigit (u : UInt16) : Bool := 0x30 ≤ u && u ≤ 0x39

def decimal (key : JsString) : Nat := key.foldl (fun n u => 10 * n + (u.toNat - 0x30)) 0

def isArrayIndex (key : JsString) : Bool :=
  key == [0x30] || (key != [] && key.all isDigit && key.head? != some 0x30 && decimal key < 4294967295)

/-- The order of own properties: array indices ascending, then as created. -/
def ownOrder (es : List (JsString × α)) : List (JsString × α) :=
  (es.filter fun e => isArrayIndex e.1).insertionSort (fun a b => decimal a.1 ≤ decimal b.1) ++
    es.filter fun e => !isArrayIndex e.1

section
variable [Host]

/-- `-0` is written "0". -/
def numberText : JsNumber → JsString := fun n => Host.numberToString (numericValue n)

mutual

/-- `JSON.stringify`. -/
def stringify : Tree Double → JsString
  | .null => js "null"
  | .bool b => if b then js "true" else js "false"
  | .num (.finite n) => numberText n
  | .num (.infinite _) => js "null"
  | .str s => stringifyString s
  | .arr elements => js "[" ++ joinWith (js ",") (stringifyElements elements) ++ js "]"
  | .obj entries =>
    js "\x7b" ++ joinWith (js ",") ((ownOrder (stringifyEntries entries)).map fun e =>
      stringifyString e.1 ++ js ":" ++ e.2) ++ js "\x7d"

def stringifyElements : List (Tree Double) → List JsString
  | [] => []
  | v :: elements => stringify v :: stringifyElements elements

def stringifyEntries : List (JsString × Tree Double) → List (JsString × JsString)
  | [] => []
  | (k, v) :: entries => (k, stringify v) :: stringifyEntries entries

end

def payloadsEqual (a b : Tree Double) : Bool := stringify (sortKeys a) == stringify (sortKeys b)

def attemptCommandPayloadsEqual (a b : Tree Double) : Bool :=
  stringify (sortKeys a) == stringify (sortKeys b)

end

/-! ## What the comparison sees -/

mutual

/-- The value without its members named `__proto__`, with infinities as null. -/
def compared : Tree Double → Tree JsNumber
  | .null => .null
  | .bool b => .bool b
  | .num (.finite n) => .num n
  | .num (.infinite _) => .null
  | .str s => .str s
  | .arr elements => .arr (comparedElements elements)
  | .obj entries => .obj ((comparedEntries entries).filter fun e => isOrdinary e.1)

def comparedElements : List (Tree Double) → List (Tree JsNumber)
  | [] => []
  | v :: elements => compared v :: comparedElements elements

def comparedEntries : List (JsString × Tree Double) → List (JsString × Tree JsNumber)
  | [] => []
  | (k, v) :: entries => (k, compared v) :: comparedEntries entries

end

theorem comparedEntries_eq (es : List (JsString × Tree Double)) :
    comparedEntries es = mapValues compared es := by
  induction es with
  | nil => rfl
  | cons e es ih => rw [comparedEntries, ih, mapValues_cons]

theorem sortKeysEntries_eq (es : List (JsString × Tree Double)) :
    sortKeysEntries es = mapValues sortKeys es := by
  induction es with
  | nil => rfl
  | cons e es ih => rw [sortKeysEntries, ih, mapValues_cons]

theorem stringifyEntries_eq [Host] (es : List (JsString × Tree Double)) :
    stringifyEntries es = mapValues stringify es := by
  induction es with
  | nil => rfl
  | cons e es ih => rw [stringifyEntries, ih, mapValues_cons]

theorem filter_mapValues (f : α → β) (p : JsString → Bool) (es : List (JsString × α)) :
    (mapValues f es).filter (fun e => p e.1) = mapValues f (es.filter fun e => p e.1) := by
  simp [mapValues, List.filter_map, Function.comp_def]

/-! ## Members by assignment -/

theorem withEntry_new {key : JsString} {v : α} {out : List (JsString × α)}
    (h : key ∉ out.map Prod.fst) :
    withEntry key v out = out ++ [(key, v)] := by
  induction out with
  | nil => rfl
  | cons e out ih =>
    rw [List.map_cons, List.mem_cons, not_or] at h
    rw [withEntry, if_neg (Ne.symm h.1), ih h.2]
    rfl

theorem foldl_assignKey {es out : List (JsString × α)} (hkeys : ((out ++ es).map Prod.fst).Nodup) :
    es.foldl assignKey out = out ++ es.filter fun e => isOrdinary e.1 := by
  induction es generalizing out with
  | nil => simp
  | cons e es ih =>
    rw [List.foldl_cons, assignKey]
    split
    case isTrue hordinary =>
      have hnew : e.1 ∉ out.map Prod.fst := by
        intro hmem
        rw [List.map_append, List.nodup_append] at hkeys
        exact hkeys.2.2 _ hmem _ (List.mem_map_of_mem List.mem_cons_self) rfl
      rw [withEntry_new hnew, ih (by simpa using hkeys), List.filter_cons, if_pos hordinary,
        List.append_assoc]
      rfl
    case isFalse hproto =>
      rw [ih (hkeys.sublist (((List.sublist_cons_self e es).append_left out).map Prod.fst)),
        List.filter_cons, if_neg hproto]

theorem filter_sortByKey {es : List (JsString × α)} (p : JsString → Bool)
    (hkeys : (es.map Prod.fst).Nodup) :
    (sortByKey es).filter (fun e => p e.1) = sortByKey (es.filter fun e => p e.1) := by
  have hperm : ((sortByKey es).filter fun e => p e.1).Perm (sortByKey (es.filter fun e => p e.1)) :=
    ((sortByKey_perm es).filter _).trans (sortByKey_perm _).symm
  have hsub : ((es.filter fun e => p e.1).map Prod.fst).Nodup :=
    hkeys.sublist (List.filter_sublist.map Prod.fst)
  refine hperm.eq_of_pairwise (fun a b ha hb hab hba => ?_) ((sortByKey_sorted es).filter _)
    (sortByKey_sorted _)
  have ha' := (List.mem_filter.mp ((hperm.trans (sortByKey_perm _)).mem_iff.mp ha))
  have hb' := (List.mem_filter.mp ((sortByKey_perm _).mem_iff.mp hb))
  exact List.inj_on_of_nodup_map hkeys ha'.1 hb'.1 (List.le_antisymm hab hba)

theorem ownOrder_perm (es : List (JsString × α)) : (ownOrder es).Perm es :=
  ((List.perm_insertionSort _ _).append_right _).trans
    (List.filter_append_perm (fun e => isArrayIndex e.1) es)

theorem ownOrder_natural (f : α → β) (es : List (JsString × α)) :
    ownOrder (mapValues f es) = mapValues f (ownOrder es) := by
  have hsort : ∀ l : List (JsString × α), (mapValues f l).insertionSort
      (fun a b => decimal a.1 ≤ decimal b.1) =
      mapValues f (l.insertionSort fun a b => decimal a.1 ≤ decimal b.1) := fun l =>
    (List.map_insertionSort (fun a b : JsString × α => decimal a.1 ≤ decimal b.1)
      (fun a b : JsString × β => decimal a.1 ≤ decimal b.1) (fun e => (e.1, f e.2)) l fun _ _ _ _ =>
        Iff.rfl).symm
  rw [ownOrder, filter_mapValues f isArrayIndex, hsort,
    filter_mapValues f fun key => !isArrayIndex key, ownOrder]
  exact List.map_append.symm

def bySortedOwn : Arrangement where
  run es := ownOrder (sortByKey es)
  perm es := (ownOrder_perm _).trans (sortByKey_perm es)
  natural f es := by rw [sortByKey_natural, ownOrder_natural]
  unique hkeys h := by rw [sortByKey_unique hkeys h]

section
variable [Host]

def numberToken (h : NumberTexts) (n : JsNumber) : NumberToken := h.token (numericValue n)

mutual

theorem stringify_sortKeys (h : NumberTexts) : ∀ v : Tree Double, v.Distinct →
    stringify (sortKeys v) = ((compared v).arrange bySortedOwn (numberToken h)).text
  | .null, _ => rfl
  | .bool _, _ => rfl
  | .num (.finite _), _ => rfl
  | .num (.infinite _), _ => rfl
  | .str _, _ => rfl
  | .arr elements, hd => by
    rw [sortKeys, stringify, stringify_sortKeysElements h elements hd]
    rfl
  | .obj entries, hd => by
    have hkeys : ((sortKeysEntries entries).map Prod.fst).Nodup := by
      rw [sortKeysEntries_eq, mapValues_keys]
      exact hd.1
    have hcopy : (sortByKey (sortKeysEntries entries)).foldl assignKey [] =
        sortByKey ((sortKeysEntries entries).filter fun e => isOrdinary e.1) := by
      have hsorted : ((sortByKey (sortKeysEntries entries)).map Prod.fst).Nodup :=
        ((sortByKey_perm _).map Prod.fst).nodup_iff.mpr hkeys
      rw [foldl_assignKey (by simpa using hsorted), List.nil_append]
      exact filter_sortByKey isOrdinary hkeys
    have hmembers : ownOrder
        (stringifyEntries ((sortByKey (sortKeysEntries entries)).foldl assignKey [])) =
        mapValues Tree.text (bySortedOwn.run (Tree.arrangeEntries bySortedOwn (numberToken h)
          ((comparedEntries entries).filter fun e => isOrdinary e.1))) := by
      rw [hcopy, stringifyEntries_eq, ← sortByKey_natural, ← filter_mapValues, ← stringifyEntries_eq,
        stringify_sortKeysEntries h entries hd.2, ← bySortedOwn.natural, arrangeEntries_eq,
        arrangeEntries_eq, filter_mapValues, filter_mapValues]
      rfl
    rw [sortKeys, stringify, hmembers, ← textEntries_eq]
    rfl

theorem stringify_sortKeysElements (h : NumberTexts) :
    ∀ vs : List (Tree Double), Tree.DistinctElements vs →
    stringifyElements (sortKeysElements vs) =
      Tree.textElements (Tree.arrangeElements bySortedOwn (numberToken h) (comparedElements vs))
  | [], _ => rfl
  | v :: vs, hd => by
    rw [sortKeysElements, stringifyElements, stringify_sortKeys h v hd.1,
      stringify_sortKeysElements h vs hd.2]
    rfl

theorem stringify_sortKeysEntries (h : NumberTexts) :
    ∀ es : List (JsString × Tree Double), Tree.DistinctEntries es →
    stringifyEntries (sortKeysEntries es) =
      mapValues Tree.text (Tree.arrangeEntries bySortedOwn (numberToken h) (comparedEntries es))
  | [], _ => rfl
  | (k, v) :: es, hd => by
    rw [sortKeysEntries, stringifyEntries, stringify_sortKeys h v hd.1,
      stringify_sortKeysEntries h es hd.2]
    rfl

end

end

/-! ## When the comparison is exact -/

def SameNumber (m n : JsNumber) : Prop := numericValue m = numericValue n

theorem mem_comparedEntries {k : JsString} {v : Tree JsNumber} {es : List (JsString × Tree Double)} :
    (k, v) ∈ comparedEntries es ↔ ∃ w, (k, w) ∈ es ∧ compared w = v := by
  simp [comparedEntries_eq, mapValues]

mutual

theorem compared_distinct : ∀ v : Tree Double, v.Distinct → (compared v).Distinct
  | .null, _ => trivial
  | .bool _, _ => trivial
  | .num (.finite _), _ => trivial
  | .num (.infinite _), _ => trivial
  | .str _, _ => trivial
  | .arr elements, h => comparedElements_distinct elements h
  | .obj entries, h => by
    refine ⟨?_, comparedEntries_distinct entries h.2⟩
    have hkeys : ((comparedEntries entries).map Prod.fst).Nodup := by
      rw [comparedEntries_eq, mapValues_keys]
      exact h.1
    exact hkeys.sublist (List.filter_sublist.map Prod.fst)

theorem comparedElements_distinct : ∀ vs : List (Tree Double), Tree.DistinctElements vs →
    Tree.DistinctElements (comparedElements vs)
  | [], _ => trivial
  | v :: vs, h => ⟨compared_distinct v h.1, comparedElements_distinct vs h.2⟩

theorem comparedEntries_distinct : ∀ es : List (JsString × Tree Double), Tree.DistinctEntries es →
    Tree.DistinctEntries ((comparedEntries es).filter fun e => isOrdinary e.1)
  | [], _ => trivial
  | (k, v) :: es, h => by
    rw [comparedEntries, List.filter_cons]
    split
    · exact ⟨compared_distinct v h.1, comparedEntries_distinct es h.2⟩
    · exact comparedEntries_distinct es h.2

end

theorem same_keys {r : Double → Double → Prop} {es fs : List (JsString × Tree Double)}
    (hkeys : (es.map Prod.fst).Nodup) (hlength : es.length = fs.length)
    (h : Tree.SameEntries r es fs) : (es.map Prod.fst).Perm (fs.map Prod.fst) := by
  have hsub : ∀ es : List (JsString × Tree Double), Tree.SameEntries r es fs →
      es.map Prod.fst ⊆ fs.map Prod.fst := by
    intro es
    induction es with
    | nil => exact fun _ => List.nil_subset _
    | cons e es ih =>
      intro h
      obtain ⟨⟨w, hw, -⟩, hes⟩ := h
      exact List.cons_subset.mpr ⟨List.mem_map.mpr ⟨_, hw, rfl⟩, ih hes⟩
  exact (List.subperm_of_subset hkeys (hsub es h)).perm_of_length_le (by simp [hlength])

mutual

theorem compared_same : ∀ a b : Tree Double, a.Distinct → Tree.Same Double.StrictEq a b →
    Tree.Same SameNumber (compared a) (compared b)
  | .null, b, _, h => by
    cases b with
    | null => trivial
    | bool _ | num _ | str _ | arr _ | obj _ => cases h
  | .bool x, b, _, h => by
    cases b with
    | bool y => exact h
    | null | num _ | str _ | arr _ | obj _ => cases h
  | .num (.finite m), b, _, h => by
    cases b with
    | num n =>
      cases n with
      | finite n => exact h
      | infinite _ => cases h
    | null | bool _ | str _ | arr _ | obj _ => cases h
  | .num (.infinite m), b, _, h => by
    cases b with
    | num n =>
      cases n with
      | finite _ => cases h
      | infinite _ => trivial
    | null | bool _ | str _ | arr _ | obj _ => cases h
  | .str x, b, _, h => by
    cases b with
    | str y => exact h
    | null | bool _ | num _ | arr _ | obj _ => cases h
  | .arr xs, b, hd, h => by
    cases b with
    | arr ys => exact comparedElements_same xs ys hd h
    | null | bool _ | num _ | str _ | obj _ => cases h
  | .obj es, b, hd, h => by
    cases b with
    | obj fs =>
      refine ⟨?_, comparedEntries_same es fs hd.2 h.2⟩
      have hlength := ((same_keys hd.1 h.1 h.2).filter isOrdinary).length_eq
      simpa [comparedEntries_eq, mapValues, List.filter_map, Function.comp_def] using hlength
    | null | bool _ | num _ | str _ | arr _ => cases h

theorem comparedElements_same : ∀ xs ys : List (Tree Double), Tree.DistinctElements xs →
    Tree.SameElements Double.StrictEq xs ys → Tree.SameElements SameNumber (comparedElements xs)
      (comparedElements ys)
  | [], ys, _, h => by
    cases ys with
    | nil => trivial
    | cons y ys => cases h
  | x :: xs, ys, hd, h => by
    cases ys with
    | nil => cases h
    | cons y ys => exact ⟨compared_same x y hd.1 h.1, comparedElements_same xs ys hd.2 h.2⟩

theorem comparedEntries_same : ∀ es fs : List (JsString × Tree Double), Tree.DistinctEntries es →
    Tree.SameEntries Double.StrictEq es fs → Tree.SameEntries SameNumber
      ((comparedEntries es).filter fun e => isOrdinary e.1)
        ((comparedEntries fs).filter fun e => isOrdinary e.1)
  | [], _, _, _ => trivial
  | (k, v) :: es, fs, hd, h => by
    obtain ⟨w, hw, hsame⟩ := h.1
    have hrest := comparedEntries_same es fs hd.2 h.2
    rw [comparedEntries, List.filter_cons]
    split
    case isTrue hk =>
      have hmem : (k, compared w) ∈ comparedEntries fs := mem_comparedEntries.mpr ⟨w, hw, rfl⟩
      exact ⟨⟨compared w, List.mem_filter.mpr ⟨hmem, hk⟩, compared_same v w hd.1 hsame⟩, hrest⟩
    case isFalse => exact hrest

end

section
variable [Host]

theorem payloadsEqual_iff_compared (h : NumberTexts) {a b : Tree Double} (ha : a.Distinct)
    (hb : b.Distinct) :
    payloadsEqual a b = true ↔ Tree.Same SameNumber (compared a) (compared b) := by
  have hnumber : (fun m n => numberToken h m = numberToken h n) = SameNumber := by
    funext m n
    refine propext ⟨fun heq => h.injective _ _ (congrArg NumberToken.units heq), fun heq => ?_⟩
    exact NumberToken.ext (congrArg Host.numberToString heq)
  rw [payloadsEqual, beq_iff_eq, stringify_sortKeys h a ha, stringify_sortKeys h b hb,
    text_arrange_iff (compared_distinct a ha), hnumber]

/-- Both comparisons are exact on two values exactly when these are equal up to
the order of keys, or differ by more than members named `__proto__` and infinities. -/
theorem payloadsEqual_exact_iff (h : NumberTexts) (a b : Tree Double) (ha : a.Distinct)
    (hb : b.Distinct) :
    ((payloadsEqual a b = true ↔ Tree.Same Double.StrictEq a b) ↔
      Tree.Same Double.StrictEq a b ∨ ¬ Tree.Same SameNumber (compared a) (compared b)) ∧
    ((attemptCommandPayloadsEqual a b = true ↔ Tree.Same Double.StrictEq a b) ↔
      Tree.Same Double.StrictEq a b ∨ ¬ Tree.Same SameNumber (compared a) (compared b)) := by
  have hexact : (payloadsEqual a b = true ↔ Tree.Same Double.StrictEq a b) ↔
      Tree.Same Double.StrictEq a b ∨ ¬ Tree.Same SameNumber (compared a) (compared b) := by
    rw [payloadsEqual_iff_compared h ha hb]
    constructor
    · intro hiff
      by_cases hsame : Tree.Same Double.StrictEq a b
      · exact .inl hsame
      · exact .inr fun hcompared => hsame (hiff.mp hcompared)
    · rintro (hsame | hdiffer)
      · exact iff_of_true (compared_same a b ha hsame) hsame
      · exact iff_of_false hdiffer fun hsame => hdiffer (compared_same a b ha hsame)
  exact ⟨hexact, hexact⟩

end

/-- A member named `__proto__` goes unnoticed. -/
theorem payloadsEqual_proto :
    let a : Tree Double := .obj [(js "__proto__", .num (.finite (.value 1)))]
    a.Distinct ∧ @payloadsEqual sampleHost a (.obj []) = true ∧
      @attemptCommandPayloadsEqual sampleHost a (.obj []) = true ∧
      ¬ Tree.Same Double.StrictEq a (.obj []) := by
  refine ⟨⟨by decide, trivial, trivial⟩, by decide +kernel, by decide +kernel, fun h => ?_⟩
  exact absurd h.1 (by decide)

/-- Different members of one key: the comparison tells them apart. -/
theorem payloadsEqual_exact_iff_sample :
    let a : Tree Double := .obj [(js "note", .str (js "x")), (js "seconds", .num (.finite (.value 1)))]
    let b : Tree Double := .obj [(js "seconds", .num (.finite (.value 1))), (js "note", .null)]
    @payloadsEqual sampleNumbers a b = true ↔ Tree.Same Double.StrictEq a b := by
  let _ : Host := sampleNumbers
  refine (payloadsEqual_exact_iff numberTexts_sample _ _ ?_ ?_).1.mpr (.inr fun h => ?_)
  · exact ⟨by decide, trivial, trivial, trivial⟩
  · exact ⟨by decide, trivial, trivial, trivial⟩
  · obtain ⟨-, ⟨w, hw, hsame⟩, -⟩ := h
    have hw' : (js "note", w) ∈ [(js "seconds", Tree.num (JsNumber.value 1)),
      (js "note", Tree.null)] := hw
    rcases List.mem_cons.mp hw' with heq | hw'
    · exact absurd (congrArg Prod.fst heq) (by decide : js "note" ≠ js "seconds")
    · obtain rfl := congrArg Prod.snd (List.mem_singleton.mp hw')
      exact hsame

end ExamSystem.Payloads
