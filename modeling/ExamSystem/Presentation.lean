import Mathlib.Data.Rat.Floor
import ExamSystem.ArrayHeap
import ExamSystem.Start

/-!
# The presentation in memory

The function that draws a presentation, with the arrays it reads, copies and
writes, and the random source it calls.
-/

namespace ExamSystem.Presentation

/-- The numbers that the calls of a source return, one after the other. -/
structure RandomSource where
  next : Nat → ℚ
  bounds : ∀ n, 0 ≤ next n ∧ next n < 1

/-- `Math.floor(rng() * (i + 1))`, where `n` calls were made before. -/
def RandomSource.index (rng : RandomSource) (n i : Nat) : Nat := ⌊rng.next n * (i + 1)⌋.toNat

theorem RandomSource.index_le (rng : RandomSource) (n i : Nat) : rng.index n i ≤ i := by
  obtain ⟨hnonneg, hlt⟩ := rng.bounds n
  have hpos : (0 : ℚ) < i + 1 := by positivity
  have hprod : rng.next n * (i + 1) < ((i + 1 : Int) : ℚ) := by
    push_cast
    calc rng.next n * (i + 1) < 1 * (i + 1) := by gcongr
      _ = i + 1 := one_mul _
  have hfloor : ⌊rng.next n * (i + 1)⌋ < i + 1 := Int.floor_lt.mpr hprod
  unfold RandomSource.index
  omega

/-! ## Memory -/

/-- A question object: its `options` are the array at the address. -/
structure QuestionObject where
  fields : QuestionSnapshot
  options : Nat

structure Memory where
  questions : ArrayHeap QuestionObject
  options : ArrayHeap AnswerOption
  drawn : Nat

def QuestionObject.value (options : ArrayHeap AnswerOption) (q : QuestionObject) : QuestionSnapshot :=
  { q.fields with options := (options.read q.options).toList }

def Memory.snapshot (mem : Memory) (address : Nat) : List QuestionSnapshot :=
  (mem.questions.read address).toList.map (·.value mem.options)

structure Memory.Stores (mem : Memory) (address : Nat) : Prop where
  questions : mem.questions.Has address
  options : ∀ q ∈ (mem.questions.read address).toList, mem.options.Has q.options

/-! ## Shuffling -/

section
variable {α : Type} (rng : RandomSource)

/-- The loop from index `i` down on the array at `result`. -/
def shuffleLoop (result : Nat) : Nat → ArrayHeap α → Nat → ArrayHeap α × Nat
  | 0, h, n => (h, n)
  | i + 1, h, n => shuffleLoop result i (h.exchange result (i + 1) (rng.index n (i + 1))) (n + 1)

def shuffledCopy (h : ArrayHeap α) (items n : Nat) : Nat × ArrayHeap α × Nat :=
  let (result, h) := h.alloc (h.read items)
  let (h, n) := shuffleLoop rng result ((h.read result).size - 1) h n
  (result, h, n)

/-- `{ ...q, options: [...q.options] }` on every question. -/
def copyEach :
    List QuestionObject → ArrayHeap AnswerOption → List QuestionObject × ArrayHeap AnswerOption
  | [], h => ([], h)
  | q :: qs, h =>
    let (options, h) := h.alloc (h.read q.options)
    let (copies, h) := copyEach qs h
    ({ q with options := options } :: copies, h)

/-- `{ ...q, options: shuffledCopy(q.options, rng) }` on every choice question. -/
def shuffleEach :
    List QuestionObject → ArrayHeap AnswerOption → Nat →
    List QuestionObject × ArrayHeap AnswerOption × Nat
  | [], h, n => ([], h, n)
  | q :: qs, h, n =>
    if isChoice q.fields then
      let (options, h, n) := shuffledCopy rng h q.options n
      let (shuffled, h, n) := shuffleEach qs h n
      ({ q with options := options } :: shuffled, h, n)
    else
      let (shuffled, h, n) := shuffleEach qs h n
      (q :: shuffled, h, n)

def renumber (index : Nat) (q : QuestionObject) : QuestionObject :=
  { q with fields := { q.fields with order := index } }

/-- The first half: the questions, shuffled and renumbered when the flag says so. -/
def orderQuestions (controlFlags : ControlFlags) (questions : ArrayHeap QuestionObject)
    (address n : Nat) :
    Nat × ArrayHeap QuestionObject × Nat :=
  if controlFlags.shuffleQuestions then
    let (shuffled, questions, n) := shuffledCopy rng questions address n
    let (address, questions) := questions.alloc ((questions.read shuffled).mapIdx renumber)
    (address, questions, n)
  else (address, questions, n)

/-- The address of the presentation of the snapshot at `publishedSnapshot`. -/
def materializeAttemptPresentation (mem : Memory) (publishedSnapshot : Nat)
    (controlFlags : ControlFlags) : Nat × Memory :=
  let (copies, options) := copyEach (mem.questions.read publishedSnapshot).toList mem.options
  let (address, questions) := mem.questions.alloc copies.toArray
  let (address, questions, n) := orderQuestions rng controlFlags questions address mem.drawn
  if controlFlags.shuffleOptions then
    let (shuffled, options, n) := shuffleEach rng (questions.read address).toList options n
    let (address, questions) := questions.alloc shuffled.toArray
    (address, { questions := questions, options := options, drawn := n })
  else (address, { questions := questions, options := options, drawn := n })

end

end ExamSystem.Presentation
