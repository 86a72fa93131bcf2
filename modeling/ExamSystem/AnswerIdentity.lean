import Mathlib.Data.Rat.Encodable
import ExamSystem.Binary64
import ExamSystem.AnswerProtocol
import ExamSystem.KeyOrder

/-!
# The identity of an answer

The serialization of answers is the text of their values with sorted members, so
it decides an answer up to the order of keys.
-/

namespace ExamSystem

/-! ## Answers as values -/

mutual

def Json.toTree : Json → Tree JsNumber
  | .null => .null
  | .bool b => .bool b
  | .num n => .num n
  | .str s => .str s
  | .arr elements => .arr (Json.toTrees elements)
  | .obj entries => .obj (Json.toTreeEntries entries)

def Json.toTrees : List Json → List (Tree JsNumber)
  | [] => []
  | v :: elements => v.toTree :: Json.toTrees elements

def Json.toTreeEntries : List (JsString × Json) → List (JsString × Tree JsNumber)
  | [] => []
  | (k, v) :: entries => (k, v.toTree) :: Json.toTreeEntries entries

end

def Json.DistinctKeys (v : Json) : Prop := v.toTree.Distinct

/-- Equality up to the order of keys, with `0` and `-0` apart. -/
def Json.Same (a b : Json) : Prop := Tree.Same (fun m n => m = n) a.toTree b.toTree

section
variable [Host]

/-- Among the texts of numbers, "-0" is left to `-0`. -/
structure IdentityTexts : Prop extends NumberTexts where
  positive_zero : ∀ q, Host.numberToString q ≠ js "-0"

/-- The token of a number: `-0` has its own. -/
def identityToken (h : IdentityTexts) : JsNumber → NumberToken
  | .negZero => ⟨js "-0", by decide, List.all_eq_true.mp (by decide)⟩
  | .value q => h.token q

theorem identityToken_injective (h : IdentityTexts) {m n : JsNumber} :
    identityToken h m = identityToken h n ↔ m = n := by
  refine ⟨fun heq => ?_, congrArg _⟩
  have hunits := congrArg NumberToken.units heq
  cases m with
  | negZero =>
    cases n with
    | negZero => rfl
    | value q => exact absurd hunits.symm (h.positive_zero q)
  | value p =>
    cases n with
    | negZero => exact absurd hunits (h.positive_zero p)
    | value q => exact congrArg JsNumber.value (h.injective p q hunits)

mutual

theorem serialize_eq_text (h : IdentityTexts) :
    ∀ v : Json, serializeAnswerIdentityValue v = (v.toTree.arrange byKey (identityToken h)).text
  | .null => rfl
  | .bool _ => rfl
  | .num .negZero => rfl
  | .num (.value _) => rfl
  | .str _ => rfl
  | .arr elements => by
    rw [serializeAnswerIdentityValue, serializeElements_eq_text h elements]
    rfl
  | .obj entries => by
    have hsorted : sortEntries (serializeEntries entries) =
        mapValues Tree.text
          (sortByKey (Tree.arrangeEntries byKey (identityToken h) (Json.toTreeEntries entries))) := by
      rw [serializeEntries_eq_text h entries, ← sortByKey_natural]
      rfl
    rw [serializeAnswerIdentityValue, hsorted, ← textEntries_eq]
    rfl

theorem serializeElements_eq_text (h : IdentityTexts) : ∀ vs : List Json,
    serializeElements vs = Tree.textElements (Tree.arrangeElements byKey (identityToken h)
        (Json.toTrees vs))
  | [] => rfl
  | v :: vs => by
    rw [serializeElements, serialize_eq_text h v, serializeElements_eq_text h vs]
    rfl

theorem serializeEntries_eq_text (h : IdentityTexts) : ∀ es : List (JsString × Json),
    serializeEntries es = mapValues Tree.text (Tree.arrangeEntries byKey (identityToken h)
        (Json.toTreeEntries es))
  | [] => rfl
  | (k, v) :: es => by
    rw [serializeEntries, serialize_eq_text h v, serializeEntries_eq_text h es]
    rfl

end

/-- Two answers have the same serialization exactly when they are equal up to the
order of their keys. -/
theorem serializeAnswerIdentityValue_iff (h : IdentityTexts) (a b : Json) (ha : a.DistinctKeys) :
    serializeAnswerIdentityValue a = serializeAnswerIdentityValue b ↔ a.Same b := by
  rw [serialize_eq_text h, serialize_eq_text h, text_arrange_iff ha, Json.Same]
  simp only [identityToken_injective]

end

def sampleNumeral (q : ℚ) : JsString := if q = 1 then [0x31] else 0x32 :: List.replicate
      (Encodable.encode q) 0x30

theorem sampleNumeral_digits (q : ℚ) : ∀ u ∈ sampleNumeral q, 0x30 ≤ u ∧ u ≤ 0x39 := by
  unfold sampleNumeral
  split
  · exact List.forall_mem_singleton.mpr (by decide)
  · intro u hu
    rcases List.mem_cons.mp hu with rfl | hu
    · decide
    · rw [List.eq_of_mem_replicate hu]
      decide

theorem sampleNumeral_ne_nil (q : ℚ) : sampleNumeral q ≠ [] := by
  unfold sampleNumeral
  split <;> exact List.cons_ne_nil _ _

theorem sampleNumeral_injective (p q : ℚ) (h : sampleNumeral p = sampleNumeral q) : p = q := by
  unfold sampleNumeral at h
  split at h
  case isTrue hp =>
    split at h
    case isTrue hq => rw [hp, hq]
    case isFalse => exact absurd (List.cons.inj h).1 (by decide)
  case isFalse =>
    split at h
    case isTrue => exact absurd (List.cons.inj h).1 (by decide)
    case isFalse => simpa using h

@[reducible] def sampleNumbers : Host where
  add := Binary64.add
  sha256 _ := ""
  numberToString := sampleNumeral
  toLocaleLowerCase s := s
  toLowerCase s := s

theorem numberTexts_sample : @NumberTexts sampleNumbers :=
  @NumberTexts.mk sampleNumbers sampleNumeral_injective sampleNumeral_ne_nil fun q u hu => by
    simp [isNumeric, sampleNumeral_digits q u hu]

theorem identityTexts_sample : @IdentityTexts sampleNumbers := by
  refine @IdentityTexts.mk sampleNumbers numberTexts_sample fun q h => ?_
  have hq : sampleNumeral q = js "-0" := h
  have hdigit := sampleNumeral_digits q 0x2D (hq ▸ by decide)
  exact absurd hdigit (by decide)

/-- Two orders of the same members; `0` and `-0` are different answers. -/
theorem serializeAnswerIdentityValue_iff_sample :
    @serializeAnswerIdentityValue sampleNumbers (.obj [(js "b", .num (.value 1)),
        (js "a", .arr [.null])]) =
        @serializeAnswerIdentityValue sampleNumbers (.obj [(js "a", .arr [.null]),
            (js "b", .num (.value 1))]) ∧
      @serializeAnswerIdentityValue sampleNumbers (.num .negZero) ≠ @serializeAnswerIdentityValue
        sampleNumbers (.num (.value 0)) := by
  let _ : Host := sampleNumbers
  refine ⟨(serializeAnswerIdentityValue_iff identityTexts_sample _ _ ?_).mpr ?_, fun h => ?_⟩
  · exact ⟨by decide, trivial, ⟨trivial, trivial⟩, trivial⟩
  · exact ⟨rfl, ⟨_, List.mem_cons_of_mem _ List.mem_cons_self, rfl⟩,
      ⟨_, List.mem_cons_self, trivial, trivial⟩, trivial⟩
  · exact absurd
      ((serializeAnswerIdentityValue_iff identityTexts_sample (.num .negZero) _ trivial).mp h)
      (fun h => by cases h)

end ExamSystem
