import ExamSystem.ContentNormal

/-!
# The plain text of a document

Normalization keeps the lines of the projection that are not empty: what it
drops projects to nothing, and what it merges projects to the same text.
-/

namespace ExamSystem

/-! ## The projection -/

def newline : JsString := [0xA]

def ContentInline.plainText : ContentInline → JsString
  | .text run _ => run
  | .hardBreak => newline
  | .inlineMath latex => latex

def projectInline (inlines : List ContentInline) : JsString :=
  inlines.foldl (fun result inline => result ++ inline.plainText) []

mutual

def projectItemChild : ContentItemChild → JsString
  | .paragraph content => projectInline content
  | .list _ content => joinWith newline (itemTexts content)

def itemTexts : List ContentListItem → List JsString
  | [] => []
  | item :: items => joinWith newline (childTexts item) :: itemTexts items

def childTexts : ContentListItem → List JsString
  | [] => []
  | child :: children => projectItemChild child :: childTexts children

end

def projectListItems (items : List ContentListItem) : JsString := joinWith newline (itemTexts items)

def projectBlock : ContentBlock → JsString
  | .paragraph content => projectInline content
  | .list _ content => projectListItems content
  | .codeBlock _ text => text
  | .blockMath latex => latex
  | .table content =>
    joinWith newline <| content.map fun row => joinWith (js " ") <| row.map fun cell =>
      joinWith (js " ") (cell.map projectInline)

def plainTextProjection (doc : ContentDocumentV1) : JsString :=
  joinWith newline (doc.content.map projectBlock)

/-! ## Lines -/

def nonEmptyLines (s : JsString) : List JsString := (s.splitOn 0xA).filter fun line => !line.isEmpty

theorem nonEmptyLines_append (s t : JsString) :
    nonEmptyLines (s ++ newline ++ t) = nonEmptyLines s ++ nonEmptyLines t := by
  rw [nonEmptyLines, newline, List.append_assoc, List.singleton_append,
    List.splitOn_append_cons_self, List.filter_append]
  rfl

theorem nonEmptyLines_joinWith :
    ∀ ss : List JsString, nonEmptyLines (joinWith newline ss) = ss.flatMap nonEmptyLines
  | [] => rfl
  | [s] => by simp [joinWith]
  | s :: t :: rest => by
    rw [joinWith, nonEmptyLines_append, nonEmptyLines_joinWith (t :: rest)]
    exact List.flatMap_cons.symm

/-! ## Inlines -/

theorem projectInline_eq (inlines : List ContentInline) :
    projectInline inlines = inlines.flatMap (·.plainText) := by
  have hfold : ∀ result, inlines.foldl
      (fun result inline => result ++ ContentInline.plainText inline) result =
      result ++ inlines.flatMap (·.plainText) := by
    induction inlines with
    | nil => simp
    | cons inline inlines ih =>
      intro result
      rw [List.foldl_cons, ih, List.flatMap_cons, List.append_assoc]
  exact hfold []

theorem pushInline_text (result : List ContentInline) (inline : ContentInline) :
    (pushInline result inline).flatMap (·.plainText) = result.flatMap (·.plainText) ++
      inline.plainText := by
  unfold pushInline
  split
  · rename_i previous previousMarks run marks hlast
    split
    · obtain ⟨front, rfl⟩ := List.getLast?_eq_some_iff.mp hlast
      simp [ContentInline.plainText]
    · simp
  · simp

theorem normalizeInline_text (raw : ContentInline) :
    ((normalizeInline raw).map (·.plainText)).getD [] = raw.plainText := by
  cases raw with
  | text run marks =>
    simp only [normalizeInline]
    split
    · rename_i hempty
      exact (List.isEmpty_iff.mp hempty).symm
    · rfl
  | _ => rfl

theorem projectInline_normalizeInlineList (inlines : List ContentInline) :
    projectInline (normalizeInlineList inlines) = projectInline inlines := by
  have hfold : ∀ result : List ContentInline,
      (inlines.foldl (fun result raw => ((normalizeInline raw).map (pushInline result)).getD result)
          result).flatMap (·.plainText) =
        result.flatMap (·.plainText) ++ inlines.flatMap (·.plainText) := by
    induction inlines with
    | nil => simp
    | cons raw inlines ih =>
      intro result
      have hraw := normalizeInline_text raw
      rw [List.foldl_cons, ih, List.flatMap_cons]
      cases hnorm : normalizeInline raw with
      | none =>
        rw [hnorm] at hraw
        rw [← hraw]
        rfl
      | some inline =>
        rw [hnorm] at hraw
        rw [← hraw, Option.map_some, Option.getD_some, pushInline_text, List.append_assoc]
        rfl
  rw [projectInline_eq, projectInline_eq, normalizeInlineList, hfold]
  rfl

/-! ## Lists -/

def childLines (child : ContentItemChild) : List JsString := nonEmptyLines (projectItemChild child)

theorem childTexts_eq (item : ContentListItem) : childTexts item = item.map projectItemChild := by
  induction item with
  | nil => rfl
  | cons child item ih => rw [childTexts, ih, List.map_cons]

theorem itemTexts_eq (items : List ContentListItem) :
    itemTexts items = items.map fun item => joinWith newline (childTexts item) := by
  induction items with
  | nil => rfl
  | cons item items ih => rw [itemTexts, ih, List.map_cons]

theorem projectListItems_lines (items : List ContentListItem) :
    nonEmptyLines (projectListItems items) = items.flatMap fun item => item.flatMap childLines := by
  rw [projectListItems, nonEmptyLines_joinWith, itemTexts_eq, List.flatMap_map]
  refine List.flatMap_congr fun item _ => ?_
  rw [nonEmptyLines_joinWith, childTexts_eq, List.flatMap_map]
  rfl

theorem flatMap_rdropWhile {α β : Type} {p : α → Bool} {f : α → List β}
    (h : ∀ a, p a = true → f a = []) (l : List α) :
    (l.rdropWhile p).flatMap f = l.flatMap f := by
  induction l using List.reverseRecOn with
  | nil => rfl
  | append_singleton l a ih =>
    rw [List.rdropWhile_concat]
    split
    · rename_i ha
      rw [ih, List.flatMap_append, List.flatMap_singleton, h a ha, List.append_nil]
    · rfl

theorem flatMap_filterMap {α β γ : Type} {g : α → Option β} {f : β → List γ} {f' : α → List γ}
    {l : List α} (h : ∀ a ∈ l, ((g a).map f).getD [] = f' a) :
    (l.filterMap g).flatMap f = l.flatMap f' := by
  induction l with
  | nil => rfl
  | cons a l ih =>
    rw [List.forall_mem_cons] at h
    rw [List.flatMap_cons, ← h.1, ← ih h.2]
    cases hg : g a with
    | none => rw [List.filterMap_cons_none hg]; rfl
    | some b => rw [List.filterMap_cons_some hg, List.flatMap_cons]; rfl

theorem isBlank_lines (child : ContentItemChild) (h : child.isBlank = true) :
    childLines child = [] := by
  rw [(ContentItemChild.isBlank_eq child).mp h]
  rfl

theorem normalizeItems_lines {items : List ContentListItem}
    (h : ∀ item ∈ items, ∀ child ∈ item, ((normalizeItemChild child).map childLines).getD
        [] = childLines child) :
    (normalizeItems items).flatMap (fun item => item.flatMap childLines) = items.flatMap fun item =>
      item.flatMap childLines := by
  induction items with
  | nil => rfl
  | cons item items ih =>
    rw [List.forall_mem_cons] at h
    have hitem : (normalizeListItemChildren item).flatMap childLines = item.flatMap childLines := by
      rw [normalizeListItemChildren, flatMap_rdropWhile isBlank_lines, normalizeChildren_eq,
        flatMap_filterMap h.1]
    rw [normalizeItems, List.flatMap_cons, ← ih h.2, ← hitem]
    show List.flatMap _ (if (normalizeListItemChildren item).isEmpty then _ else _) = _
    split
    · rename_i hempty
      rw [List.isEmpty_iff.mp hempty]
      rfl
    · rfl

theorem normalizeItemChild_lines (child : ContentItemChild) :
    ((normalizeItemChild child).map childLines).getD [] = childLines child := by
  induction child using ContentItemChild.induct with
  | paragraph content =>
    rw [normalizeItemChild, Option.map_some, Option.getD_some, childLines, childLines,
      projectItemChild, projectItemChild, projectInline_normalizeInlineList]
  | list type items ih =>
    have hlines : ∀ items, childLines (.list type items) = items.flatMap fun item =>
      item.flatMap childLines := by
      intro items
      rw [← projectListItems_lines, childLines, projectItemChild]
      rfl
    rw [hlines, ← normalizeItems_lines ih, normalizeItemChild]
    split
    · rename_i hempty
      rw [List.isEmpty_iff.mp hempty]
      rfl
    · exact hlines _

/-! ## Documents -/

def blockLines (block : ContentBlock) : List JsString := nonEmptyLines (projectBlock block)

theorem normalizeBlock_lines (block : ContentBlock) :
    ((normalizeBlock block).map blockLines).getD [] = blockLines block := by
  cases block with
  | paragraph content =>
    rw [normalizeBlock, Option.map_some, Option.getD_some, blockLines, blockLines, projectBlock,
      projectBlock, projectInline_normalizeInlineList]
  | list type items =>
    have hlines : ∀ items, blockLines (.list type items) = items.flatMap fun item =>
      item.flatMap childLines :=
      fun items => projectListItems_lines items
    rw [hlines, ← normalizeItems_lines fun _ _ child _ => normalizeItemChild_lines child,
      normalizeBlock]
    split
    · rename_i hempty
      rw [List.isEmpty_iff.mp hempty]
      rfl
    · exact hlines _
  | codeBlock language text => rfl
  | blockMath latex => rfl
  | table content =>
    have hrows : (content.map fun row => row.map fun cell => cell.map normalizeInlineList).map
        (fun row => joinWith (js " ") (row.map fun cell => joinWith (js " ")
              (cell.map projectInline))) =
        content.map fun row => joinWith (js " ") (row.map fun cell => joinWith (js " ")
            (cell.map projectInline)) := by
      simp only [List.map_map, Function.comp_def, projectInline_normalizeInlineList]
    rw [normalizeBlock, Option.map_some, Option.getD_some, blockLines, blockLines, projectBlock,
      projectBlock, hrows]

theorem isEmptyParagraph_lines (block : ContentBlock) (h : isEmptyParagraph block = true) :
    blockLines block = [] := by
  cases block with
  | paragraph content =>
    have hall : ∀ inline ∈ content, inline.isEmptyText = true := by
      simp only [isEmptyParagraph, Bool.or_eq_true, List.isEmpty_iff] at h
      rcases h with rfl | h
      · exact fun _ hmem => absurd hmem List.not_mem_nil
      · exact List.all_eq_true.mp h
    have htext : projectInline content = [] := by
      rw [projectInline_eq, List.flatMap_eq_nil_iff]
      intro inline hinline
      have hempty := hall inline hinline
      cases inline with
      | text run marks => exact List.isEmpty_iff.mp hempty
      | _ => cases hempty
    rw [blockLines, projectBlock, htext]
    rfl
  | _ => cases h

/-- Normalization loses no text: the lines of the projection that are not empty
are the same, in the same order. -/
theorem normalization_keeps_lines (doc : ContentDocumentV1) :
    nonEmptyLines (plainTextProjection (normalizeContentDocument doc)) = nonEmptyLines
      (plainTextProjection doc) := by
  have hlines : ∀ doc : ContentDocumentV1, nonEmptyLines (plainTextProjection doc) =
      doc.content.flatMap blockLines := by
    intro doc
    rw [plainTextProjection, nonEmptyLines_joinWith, List.flatMap_map]
    rfl
  rw [hlines, hlines, normalizeContentDocument, flatMap_rdropWhile isEmptyParagraph_lines,
    flatMap_filterMap fun block _ => normalizeBlock_lines block]

end ExamSystem
