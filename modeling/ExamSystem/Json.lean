import Mathlib.Data.List.Infix
import Mathlib.Data.List.Sort
import Mathlib.Data.Rat.Defs

/-!
# JavaScript strings and JSON values

A JavaScript string is a list of UTF-16 code units. A JSON number is a finite
double: its exact value, with `-0` kept apart from `0`.
-/

namespace ExamSystem

abbrev JsString := List UInt16

/-- The code units of a source literal. -/
def js (s : String) : JsString :=
  s.toList.flatMap fun c =>
    if c.val < 0x10000 then [c.val.toUInt16]
    else [(0xD800 + (c.val - 0x10000) / 0x400).toUInt16, (0xDC00 + (c.val - 0x10000) % 0x400).toUInt16]

inductive JsNumber
  | negZero
  | value (q : ℚ)
  deriving DecidableEq, Repr

inductive Json
  | null
  | bool (b : Bool)
  | num (n : JsNumber)
  | str (s : JsString)
  | arr (elements : List Json)
  | obj (entries : List (JsString × Json))
  deriving Repr

/-- What the runtime provides and the sources do not define: the digest of
`node:crypto`, the sum of two numbers as the runtime rounds it, `String` on a
finite number, and the two lower cases. -/
class Host where
  add : ℚ → ℚ → ℚ
  sha256 : JsString → String
  numberToString : ℚ → JsString
  toLocaleLowerCase : JsString → JsString
  toLowerCase : JsString → JsString

/-! ## Strings with U+0000 -/

mutual

/-- Whether a string or a key has a U+0000, which `jsonb` refuses. -/
def Json.hasNul : Json → Bool
  | .str s => s.contains 0
  | .arr elements => Json.hasNulList elements
  | .obj entries => Json.hasNulEntries entries
  | _ => false

def Json.hasNulList : List Json → Bool
  | [] => false
  | v :: elements => v.hasNul || Json.hasNulList elements

def Json.hasNulEntries : List (JsString × Json) → Bool
  | [] => false
  | (k, v) :: entries => k.contains 0 || v.hasNul || Json.hasNulEntries entries

end

/-! ## Equality of values -/

mutual

def Json.beq : Json → Json → Bool
  | .null, .null => true
  | .bool a, .bool b => a == b
  | .num a, .num b => a == b
  | .str a, .str b => a == b
  | .arr a, .arr b => Json.beqList a b
  | .obj a, .obj b => Json.beqEntries a b
  | _, _ => false

def Json.beqList : List Json → List Json → Bool
  | [], [] => true
  | a :: as, b :: bs => Json.beq a b && Json.beqList as bs
  | _, _ => false

def Json.beqEntries : List (JsString × Json) → List (JsString × Json) → Bool
  | [], [] => true
  | (k, a) :: as, (l, b) :: bs => k == l && Json.beq a b && Json.beqEntries as bs
  | _, _ => false

end

mutual

theorem Json.beq_iff : ∀ a b : Json, Json.beq a b = true ↔ a = b
  | .null, b => by cases b <;> simp [Json.beq]
  | .bool _, b => by cases b <;> simp [Json.beq]
  | .num _, b => by cases b <;> simp [Json.beq]
  | .str _, b => by cases b <;> simp [Json.beq]
  | .arr as, b => by
    cases b with
    | arr bs => simp [Json.beq, Json.beqList_iff as bs]
    | _ => simp [Json.beq]
  | .obj as, b => by
    cases b with
    | obj bs => simp [Json.beq, Json.beqEntries_iff as bs]
    | _ => simp [Json.beq]

theorem Json.beqList_iff : ∀ as bs : List Json, Json.beqList as bs = true ↔ as = bs
  | [], bs => by cases bs <;> simp [Json.beqList]
  | a :: as, bs => by
    cases bs with
    | nil => simp [Json.beqList]
    | cons b bs => simp [Json.beqList, Json.beq_iff a b, Json.beqList_iff as bs]

theorem Json.beqEntries_iff : ∀ as bs : List (JsString × Json), Json.beqEntries as bs = true ↔ as = bs
  | [], bs => by cases bs <;> simp [Json.beqEntries]
  | (k, a) :: as, bs => by
    cases bs with
    | nil => simp [Json.beqEntries]
    | cons b bs =>
      obtain ⟨l, b⟩ := b
      simp [Json.beqEntries, Json.beq_iff a b, Json.beqEntries_iff as bs, and_assoc]

end

instance : DecidableEq Json := fun a b => decidable_of_iff _ (Json.beq_iff a b)

/-! ## Operations of the language -/

/-- The members that an object literal inherits, each with the length of the function that it is. -/
def objectPrototype : List (String × Option Nat) :=
  [("constructor", some 1), ("__defineGetter__", some 2), ("__defineSetter__", some 2),
    ("hasOwnProperty", some 1),
    ("__lookupGetter__", some 1), ("__lookupSetter__", some 1), ("isPrototypeOf", some 1),
    ("propertyIsEnumerable", some 1), ("toString", some 0), ("valueOf", some 0),
    ("toLocaleString", some 0), ("__proto__", none)]

/-- `a === b` on values read from two different JSON documents: arrays and
objects are distinct references. -/
def strictEq : Json → Json → Bool
  | .null, .null => true
  | .bool a, .bool b => a == b
  | .num a, .num b =>
    match a, b with
    | .negZero, .negZero => true
    | .negZero, .value q => q == 0
    | .value q, .negZero => q == 0
    | .value p, .value q => p == q
  | .str a, .str b => a == b
  | _, _ => false

/-- `a ?? null` on the result of a lookup. -/
def orNull (o : Option Json) : Json := o.getD .null

/-- The members of an object after `object[key] = v`, for an ordinary key. -/
def withEntry (key : JsString) (v : α) : List (JsString × α) → List (JsString × α)
  | [] => [(key, v)]
  | (k, w) :: rest => if k = key then (k, v) :: rest else (k, w) :: withEntry key v rest

def Json.isNull : Json → Bool
  | .null => true
  | _ => false

def Json.isString : Json → Bool
  | .str _ => true
  | _ => false

def isWhitespace (u : UInt16) : Bool :=
  (0x9 ≤ u && u ≤ 0xD) || u == 0x20 || u == 0xA0 || u == 0x1680 || (0x2000 ≤ u && u ≤ 0x200A) ||
    u == 0x2028 || u == 0x2029 || u == 0x202F || u == 0x205F || u == 0x3000 || u == 0xFEFF

def trim (s : JsString) : JsString :=
  ((s.dropWhile isWhitespace).reverse.dropWhile isWhitespace).reverse

def includes (s t : JsString) : Bool := decide (t <:+: s)

def joinWith (sep : JsString) : List JsString → JsString
  | [] => []
  | [s] => s
  | s :: t :: rest => s ++ sep ++ joinWith sep (t :: rest)

theorem joinWith_eq_intercalate (sep : JsString) :
    ∀ texts : List JsString, joinWith sep texts = sep.intercalate texts
  | [] => rfl
  | [s] => by simp [joinWith]
  | s :: t :: texts => by
    rw [joinWith, joinWith_eq_intercalate sep (t :: texts), List.intercalate_cons_cons]

def hexDigit (n : UInt16) : UInt16 := if n < 10 then 0x30 + n else 0x57 + n

def isHighSurrogate (u : UInt16) : Bool := 0xD800 ≤ u && u ≤ 0xDBFF

def isLowSurrogate (u : UInt16) : Bool := 0xDC00 ≤ u && u ≤ 0xDFFF

def unicodeEscape (u : UInt16) : JsString :=
  js "\\u" ++ [hexDigit (u / 0x1000), hexDigit (u / 0x100 % 0x10), hexDigit (u / 0x10 % 0x10),
    hexDigit (u % 0x10)]

/-- The escapes of `JSON.stringify` on a string: a lone surrogate is escaped. -/
def escapeUnits : JsString → JsString
  | [] => []
  | [u] => if isHighSurrogate u || isLowSurrogate u then unicodeEscape u else escapeUnit u
  | u :: v :: rest =>
    if isHighSurrogate u && isLowSurrogate v then u :: v :: escapeUnits rest
    else if isHighSurrogate u || isLowSurrogate u then unicodeEscape u ++ escapeUnits (v :: rest)
    else escapeUnit u ++ escapeUnits (v :: rest)
where
  escapeUnit (u : UInt16) : JsString :=
    if u == 0x22 then js "\\\"" else if u == 0x5C then js "\\\\"
    else if u == 0x8 then js "\\b" else if u == 0xC then js "\\f"
    else if u == 0xA then js "\\n" else if u == 0xD then js "\\r"
    else if u == 0x9 then js "\\t" else if u < 0x20 then unicodeEscape u else [u]

def stringifyString (s : JsString) : JsString := js "\"" ++ escapeUnits s ++ js "\""

end ExamSystem
