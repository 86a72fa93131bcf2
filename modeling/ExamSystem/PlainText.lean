import ExamSystem.ContentStrings
import ExamSystem.ContentText

/-!
# Lifting plain text

The document of a plain text has a paragraph for each line. Its projection is
the text, and it is canonical unless the last line is empty.
-/

namespace ExamSystem

def plainTextToDocument (text : JsString) : ContentDocumentV1 :=
  ⟨(text.splitOn 0xA).map fun line => .paragraph (if line.isEmpty then [] else [.text line none])⟩

/-! ## The projection -/

theorem projectInline_line (line : JsString) :
    projectInline (if line.isEmpty then [] else [.text line none]) = line := by
  cases line with
  | nil => rfl
  | cons u line => rfl

def liftLine (line : JsString) : ContentBlock :=
  .paragraph (if line.isEmpty then [] else [.text line none])

theorem plainTextToDocument_content (text : JsString) :
    (plainTextToDocument text).content = (text.splitOn 0xA).map liftLine := rfl

theorem plainTextProjection_lines (lines : List JsString) :
    plainTextProjection ⟨lines.map liftLine⟩ = newline.intercalate lines := by
  have hlines : (lines.map liftLine).map projectBlock = lines := by
    rw [List.map_map]
    exact (List.map_congr_left fun line _ => projectInline_line line).trans (List.map_id _)
  rw [plainTextProjection, hlines, joinWith_eq_intercalate]

theorem plainTextProjection_lifted (text : JsString) :
    plainTextProjection (plainTextToDocument text) = text :=
  (plainTextProjection_lines _).trans (List.intercalate_splitOn 0xA)

/-! ## Canonical form -/

section
variable {α : Type} [BEq α] [LawfulBEq α]

theorem splitOn_last (a : α) (l : List α) :
    (a ∉ l ∧ l.splitOn a = [l]) ∨ ∃ front last, l = front ++ a :: last ∧ a ∉ last ∧
    l.splitOn a = front.splitOn a ++ [last] := by
  by_cases h : a ∈ l
  · obtain ⟨revLast, revFront, heq, hnot⟩ := List.eq_append_cons_of_mem (List.mem_reverse.mpr h)
    have hl : l = revFront.reverse ++ a :: revLast.reverse := by
      rw [← List.reverse_reverse l, heq]
      simp
    have hlast : a ∉ revLast.reverse := by simpa using hnot
    refine .inr ⟨_, _, hl, hlast, ?_⟩
    rw [hl, List.splitOn_append_cons_self, List.splitOn_eq_singleton hlast]
  · exact .inl ⟨h, List.splitOn_eq_singleton h⟩

theorem splitOn_last_ne_nil (a : α) (l : List α) :
    (∀ last ∈ (l.splitOn a).getLast?, last ≠ []) ↔ ∃ u ∈ l.getLast?, u ≠ a := by
  rcases splitOn_last a l with ⟨hnot, hsplit⟩ | ⟨front, last, rfl, hnot, hsplit⟩
  · rw [hsplit]
    simp only [List.getLast?_singleton, Option.mem_some_iff, forall_eq']
    constructor
    · intro hne
      exact ⟨l.getLast hne, List.getLast?_eq_some_getLast hne, fun h => hnot (h ▸ List.getLast_mem hne)⟩
    · rintro ⟨u, hu, -⟩ rfl
      cases hu
  · rw [hsplit, List.getLast?_concat, List.getLast?_append_of_ne_nil _ (List.cons_ne_nil a last)]
    simp only [Option.mem_some_iff, forall_eq']
    constructor
    · intro hne
      refine ⟨last.getLast hne, ?_, fun h => hnot (h ▸ List.getLast_mem hne)⟩
      rw [List.getLast?_cons_of_ne_nil hne]
      exact List.getLast?_eq_some_getLast hne
    · rintro ⟨u, hu, hne⟩ rfl
      exact hne (Option.some.inj hu).symm

end

theorem canonicalInlines_line (line : JsString) :
    CanonicalInlines (if line.isEmpty then [] else [.text line none]) := by
  cases line with
  | nil => exact ⟨fun _ h => absurd h List.not_mem_nil, .nil⟩
  | cons u line =>
    refine ⟨List.forall_mem_singleton.mpr ⟨List.cons_ne_nil u line, fun ms h => ?_⟩, .singleton _⟩
    cases h

theorem lifted_canonical_iff (text : JsString) :
    (plainTextToDocument text).Canonical ↔ ∃ u ∈ text.getLast?, u ≠ 0xA := by
  have hblocks : ∀ block ∈ (plainTextToDocument text).content, block.Canonical := by
    refine List.forall_mem_map.mpr fun line _ => ?_
    exact canonicalInlines_line line
  have hlast : (∀ last ∈ (plainTextToDocument text).content.getLast?, last ≠ .paragraph []) ↔
      ∀ line ∈ (text.splitOn 0xA).getLast?, line ≠ [] := by
    rw [plainTextToDocument, List.getLast?_map]
    cases (text.splitOn 0xA).getLast? with
    | none => simp
    | some line => cases line <;> simp
  rw [← splitOn_last_ne_nil, ← hlast]
  exact ⟨fun h => h.trailing, fun h => ⟨hblocks, h⟩⟩

theorem intercalate_rdropWhile {α : Type} [BEq α] [LawfulBEq α] (a : α) (l : List α) :
    [a].intercalate ((l.splitOn a).rdropWhile (·.isEmpty)) = l.rdropWhile (· == a) := by
  induction l using List.reverseRecOn with
  | nil =>
    rw [List.splitOn_nil]
    rfl
  | append_singleton front u ih =>
    by_cases hu : u = a
    · subst hu
      rw [List.splitOn_append_cons_self, List.splitOn_nil,
        List.rdropWhile_concat_pos _ _ _ (by rfl), ih,
        List.rdropWhile_concat_pos _ _ _ (by simp)]
    · have hlast : ∀ last ∈ ((front ++ [u]).splitOn a).getLast?, last ≠ [] :=
        (splitOn_last_ne_nil a _).mpr ⟨u, by simp, hu⟩
      rw [rdropWhile_fixed fun last h => by simpa using hlast last h, List.intercalate_splitOn,
        List.rdropWhile_concat_neg _ _ _ (by simpa using hu)]

theorem normalized_lifted_text (text : JsString) :
    plainTextProjection (normalizeContentDocument (plainTextToDocument text)) = text.rdropWhile
      (· == 0xA) := by
  have hblocks : (plainTextToDocument text).content.filterMap normalizeBlock =
      (text.splitOn 0xA).map liftLine := by
    rw [plainTextToDocument_content, List.filterMap_map]
    refine (List.filterMap_congr fun line _ => ?_).trans (congrFun List.filterMap_eq_map _)
    exact normalizeBlock_fixed (canonicalInlines_line line)
  have hempty : isEmptyParagraph ∘ liftLine = (·.isEmpty) := by
    funext line
    cases line <;> rfl
  have hcontent : normalizeContentDocument (plainTextToDocument text) =
      ⟨((text.splitOn 0xA).rdropWhile (·.isEmpty)).map liftLine⟩ := by
    rw [normalizeContentDocument, hblocks, List.rdropWhile, ← List.map_reverse, List.dropWhile_map,
      hempty, ← List.map_reverse]
    rfl
  rw [hcontent, plainTextProjection_lines]
  exact intercalate_rdropWhile 0xA text

/-! ## Saving -/

theorem isDurableRichString_split {s t : JsString} {u : UInt16} (hh : isHighSurrogate u = false)
    (hl : isLowSurrogate u = false) (h : isDurableRichString (s ++ u :: t) = true) :
    isDurableRichString s = true ∧ isDurableRichString t = true := by
  rw [isDurableRichString_iff] at h
  rw [isDurableRichString_iff, isDurableRichString_iff]
  obtain ⟨hpaired, hnul⟩ := h
  rw [List.mem_append, List.mem_cons, not_or, not_or] at hnul
  obtain ⟨hs, ht⟩ := Pairs.Paired.split hh hl hpaired
  exact ⟨⟨hs, hnul.1⟩, ht, hnul.2.2⟩

theorem durable_lines (text : JsString) (h : isDurableRichString text = true) :
    ∀ line ∈ text.splitOn 0xA, isDurableRichString line = true := by
  by_cases hmem : 0xA ∈ text
  · obtain ⟨first, rest, heq, hnot⟩ := List.eq_append_cons_of_mem hmem
    rw [heq] at h
    obtain ⟨hfirst, hrest⟩ := isDurableRichString_split (by decide) (by decide) h
    rw [heq, List.splitOn_append_cons_self_of_not_mem hnot]
    exact List.forall_mem_cons.mpr ⟨hfirst, durable_lines rest hrest⟩
  · rw [List.splitOn_eq_singleton hmem]
    exact List.forall_mem_singleton.mpr h
termination_by text.length
decreasing_by
  rw [heq]
  simp only [List.length_append, List.length_cons]
  omega

section
variable [Host]

theorem lifted_valid {text : JsString} (h : isDurableRichString text = true)
    (hlimits : checkContentDocumentLimits (plainTextToDocument text) = []) :
    (plainTextToDocument text).valid = true := by
  refine List.all_eq_true.mpr fun block hblock => ?_
  have hwithin := ((checkContentDocumentLimits_eq_nil _).mp hlimits).1.blocks block hblock
  obtain ⟨line, hline, rfl⟩ := List.mem_map.mp hblock
  have hdurable := durable_lines text h line hline
  cases line with
  | nil => rfl
  | cons u line =>
    have hlength : (u :: line).length ≤ CONTENT_LIMITS.textRun :=
      hwithin.2 _ (List.mem_singleton_self _)
    simpa [ContentBlock.valid, paragraphValid, ContentInline.valid, durableWithin,
      hdurable] using hlength

/-- A durable text within the limits is lifted to a canonical document, which is
saved as it is, exactly when it ends in something else than a newline. -/
theorem lifting_canonical_iff (text : JsString) (h : isDurableRichString text = true)
    (hlimits : checkContentDocumentLimits (plainTextToDocument text) = []) :
    (plainTextProjection (plainTextToDocument text) = text ∧
      canonicalizeContentDocument (plainTextToDocument text) = some (plainTextToDocument text) ∧
      ∀ saved, canonicalizeContentDocument (plainTextToDocument text) = some saved →
      plainTextProjection saved = text) ↔
    ∃ u ∈ text.getLast?, u ≠ 0xA := by
  rw [← lifted_canonical_iff, ← normalizeContentDocument_eq_self]
  constructor
  · rintro ⟨-, hsaved, -⟩
    exact (canonicalizeContentDocument_some hsaved).1.symm
  · intro hfixed
    have hsaved : canonicalizeContentDocument
        (plainTextToDocument text) = some (plainTextToDocument text) := by
      rw [canonicalizeContentDocument, hfixed]
      exact ContentDocumentV1Schema_written.mpr ⟨lifted_valid h hlimits, hlimits⟩
    refine ⟨plainTextProjection_lifted text, hsaved, fun saved hsaved' => ?_⟩
    obtain rfl := Option.some.inj (hsaved.symm.trans hsaved')
    exact plainTextProjection_lifted text

end

/-- The blank line that ends a prompt is lost when it is saved. -/
theorem lifting_canonical_iff_counterexample :
    isDurableRichString (js "a\n") = true ∧ @checkContentDocumentLimits sampleHost
      (plainTextToDocument (js "a\n")) = [] ∧
    normalizeContentDocument (plainTextToDocument (js "a\n")) ≠ plainTextToDocument (js "a\n") ∧
    ∃ saved, @canonicalizeContentDocument sampleHost (plainTextToDocument (js "a\n")) = some saved ∧
    plainTextProjection saved = js "a" := by
  refine ⟨by decide, by decide +kernel, fun h => ?_, ?_⟩
  · rw [normalizeContentDocument_eq_self, lifted_canonical_iff] at h
    obtain ⟨u, hu, hne⟩ := h
    exact hne (Option.some.inj hu).symm
  · obtain ⟨saved, h⟩ := Option.isSome_iff_exists.mp
      (by decide +kernel : (@canonicalizeContentDocument sampleHost
            (plainTextToDocument (js "a\n"))).isSome = true)
    refine ⟨saved, h, ?_⟩
    rw [(@canonicalizeContentDocument_some sampleHost _ _ h).1, normalized_lifted_text]
    decide

theorem lifting_canonical_iff_sample :
    @canonicalizeContentDocument sampleHost
      (plainTextToDocument (js "a\n\nb")) = some (plainTextToDocument (js "a\n\nb")) :=
  ((@lifting_canonical_iff sampleHost (js "a\n\nb") (by decide) (by decide +kernel)).mpr
      ⟨0x62, by decide, by decide⟩).2.1

end ExamSystem
