import ExamSystem.RichAnswers
import ExamSystem.ContentText

/-!
# The editor's documents

The mapping between documents and the JSON trees of the editor. Writing a
document and reading it back normalizes it, and reading a tree downgrades what
the grammar has no place for without losing a character that shows.
-/

namespace ExamSystem

open Tx

/-! ## Trees -/

/-- A node of the editor. An absent `attrs`, `marks` or `content` is read as the
empty one, and the type of a mark may be absent. -/
inductive JSONContent
  | node (type : Option String) (attrs : List (String × Json)) (text : Option JsString)
      (marks : List (Option String))
      (content : List JSONContent)

def GRAMMAR_MARK_TO_TIPTAP : ContentMarkType → String
  | .bold => "bold"
  | .italic => "italic"
  | .underline => "underline"
  | .inlineCode => "code"

/-- The members of the literal. A mark named after a member that objects inherit
finds that one in the source, and is here a mark that the grammar does not have. -/
def TIPTAP_MARK_TO_GRAMMAR : String → Option ContentMarkType
  | "bold" => some .bold
  | "italic" => some .italic
  | "underline" => some .underline
  | "code" => some .inlineCode
  | _ => none

def sanitizeLanguage : Option Json → Option JsString
  | some (.str language) => if isCodeLanguage language then some language else none
  | _ => none

/-- `typeof attrs?.latex === "string" ? attrs.latex : ""`. -/
def latexOf (attrs : List (String × Json)) : JsString :=
  match attrs.lookup "latex" with
  | some (.str latex) => latex
  | _ => []

/-! ## Writing -/

def bare (type : String) (content : List JSONContent) : JSONContent := .node (some type)
    [] none [] content

def textNode (run : JsString) (marks : List (Option String)) : JSONContent := .node (some "text")
    [] (some run) marks []

def mathNode (type : String) (latex : JsString) : JSONContent := .node (some type)
    [("latex", .str latex)] none [] []

def inlineToTiptap : ContentInline → JSONContent
  | .text run marks => textNode run ((marks.getD []).map fun mark => some (GRAMMAR_MARK_TO_TIPTAP mark))
  | .hardBreak => bare "hardBreak" []
  | .inlineMath latex => mathNode "inlineMath" latex

def paragraphToTiptap (content : ContentParagraph) : JSONContent :=
  bare "paragraph" (content.map inlineToTiptap)

mutual

/-- `blockToTiptap` on the children of a list item. -/
def itemChildToTiptap : ContentItemChild → JSONContent
  | .paragraph content => paragraphToTiptap content
  | .list type content => bare type.text (itemsToTiptap content)

def itemsToTiptap : List ContentListItem → List JSONContent
  | [] => []
  | item :: items => bare "listItem" (itemToTiptap item) :: itemsToTiptap items

def itemToTiptap : ContentListItem → List JSONContent
  | [] => []
  | child :: children => itemChildToTiptap child :: itemToTiptap children

end

def blockToTiptap : ContentBlock → JSONContent
  | .paragraph content => paragraphToTiptap content
  | .list type content => bare type.text (itemsToTiptap content)
  | .codeBlock language text =>
    .node (some "codeBlock") [("language", (language.map Json.str).getD .null)] none []
      (if text.isEmpty then [] else [textNode text []])
  | .blockMath latex => mathNode "blockMath" latex
  | .table content =>
    bare "table" (content.map fun row => bare "tableRow" (row.map fun cell => bare "tableCell"
          (cell.map paragraphToTiptap)))

def contentDocumentToTiptap (document : ContentDocumentV1) : JSONContent :=
  bare "doc" (document.content.map blockToTiptap)

/-! ## Reading -/

def marksFromTiptap (marks : List (Option String)) : Option (List ContentMarkType) :=
  let mapped := marks.filterMap fun m => TIPTAP_MARK_TO_GRAMMAR (m.getD "")
  if mapped.isEmpty then none else some mapped

def inlineFromTiptap : JSONContent → Except String ContentInline
  | .node (some "text") _ text marks _ => pure (.text (text.getD []) (marksFromTiptap marks))
  | .node (some "hardBreak") _ _ _ _ => pure .hardBreak
  | .node (some "inlineMath") attrs _ _ _ => pure (.inlineMath (latexOf attrs))
  | .node type _ _ _ _ => .error ("unmappable inline node: " ++ type.getD "missing")

def inlinesFromTiptap (nodes : List JSONContent) : Except String ContentParagraph :=
  nodes.mapM inlineFromTiptap

/-- `nodes.map((n) => n.text ?? "").join("")`. -/
def joinedText (nodes : List JSONContent) : JsString :=
  nodes.flatMap fun | .node _ _ text _ _ => text.getD []

def trimEnd (s : JsString) : JsString := s.rdropWhile isWhitespace

/-- The paragraph that stands for a block where the grammar has only paragraphs. -/
def projected (block : ContentBlock) : ContentParagraph :=
  [.text (trimEnd (plainTextProjection ⟨[block]⟩)) none]

/-- The switch over a child of a list item, with what the recursion makes of its
content as list items and of itself as a block. -/
def itemChildFromTiptap (child : JSONContent) (items : Except String (List ContentListItem))
    (block : Except String ContentBlock) :
    Except String ContentItemChild :=
  match child with
  | .node (some "paragraph") _ _ _ content => do
    let content ← inlinesFromTiptap content
    pure (.paragraph content)
  | .node (some "bulletList") _ _ _ _ => do
    let content ← items
    pure (.list .bulletList content)
  | .node (some "orderedList") _ _ _ _ => do
    let content ← items
    pure (.list .orderedList content)
  | .node (some "codeBlock") _ _ _ content => pure (.paragraph [.text (joinedText content) none])
  | .node (some "blockMath") attrs _ _ _ => pure (.paragraph [.inlineMath (latexOf attrs)])
  | _ => do
    let block ← block
    pure (.paragraph (projected block))

def cellChildFromTiptap (child : JSONContent) (block : Except String ContentBlock) :
    Except String ContentParagraph :=
  match child with
  | .node (some "paragraph") _ _ _ content => inlinesFromTiptap content
  | .node (some "blockMath") attrs _ _ _ => pure [.inlineMath (latexOf attrs)]
  | _ => do
    let block ← block
    pure (projected block)

mutual

def blockFromTiptap : JSONContent → Except String ContentBlock
  | .node type attrs _ _ content =>
    match type with
    | some "paragraph" => do
      let content ← inlinesFromTiptap content
      pure (.paragraph content)
    | some "bulletList" => do
      let content ← listItemsFromTiptap content
      pure (.list .bulletList content)
    | some "orderedList" => do
      let content ← listItemsFromTiptap content
      pure (.list .orderedList content)
    | some "codeBlock" =>
      pure (.codeBlock (sanitizeLanguage (attrs.lookup "language")) (joinedText content))
    | some "blockMath" => pure (.blockMath (latexOf attrs))
    | some "table" => do
      let content ← tableRowsFromTiptap content
      pure (.table content)
    | _ => .error ("unmappable block node: " ++ type.getD "missing")

def listItemsFromTiptap : List JSONContent → Except String (List ContentListItem)
  | [] => pure []
  | .node _ _ _ _ content :: items => do
    let item ← itemFromTiptap content
    let items ← listItemsFromTiptap items
    pure (item :: items)

def itemFromTiptap : List JSONContent → Except String ContentListItem
  | [] => pure []
  | .node type attrs text marks content :: children => do
    let child ← itemChildFromTiptap (.node type attrs text marks content) (listItemsFromTiptap content)
      (blockFromTiptap (.node type attrs text marks content))
    let children ← itemFromTiptap children
    pure (child :: children)

def tableRowsFromTiptap : List JSONContent → Except String (List ContentTableRow)
  | [] => pure []
  | .node _ _ _ _ content :: rows => do
    let row ← tableCellsFromTiptap content
    let rows ← tableRowsFromTiptap rows
    pure (row :: rows)

def tableCellsFromTiptap : List JSONContent → Except String ContentTableRow
  | [] => pure []
  | .node _ _ _ _ content :: cells => do
    let cell ← cellFromTiptap content
    let cells ← tableCellsFromTiptap cells
    pure (cell :: cells)

def cellFromTiptap : List JSONContent → Except String ContentTableCell
  | [] => pure []
  | child :: children => do
    let paragraph ← cellChildFromTiptap child (blockFromTiptap child)
    let children ← cellFromTiptap children
    pure (paragraph :: children)

end

def blocksFromTiptap (nodes : List JSONContent) : Except String (List ContentBlock) :=
  nodes.mapM blockFromTiptap

def tiptapToContentDocument : JSONContent → Except String ContentDocumentV1
  | .node _ _ _ _ content => do
    let content ← blocksFromTiptap content
    pure (normalizeContentDocument ⟨content⟩)

/-! ## Writing and reading back -/

theorem mapM_map_ok {α β γ : Type} {f : α → β} {g : β → Except String γ} {h : α → γ} {l : List α}
    (hl : ∀ a ∈ l, g (f a) = .ok (h a)) :
    (l.map f).mapM g = .ok (l.map h) := by
  induction l with
  | nil => rfl
  | cons a l ih =>
    rw [List.forall_mem_cons] at hl
    rw [List.map_cons, List.mapM_cons, hl.1, ih hl.2]
    rfl

theorem mark_read (mark : ContentMarkType) :
    TIPTAP_MARK_TO_GRAMMAR (GRAMMAR_MARK_TO_TIPTAP mark) = some mark := by
  cases mark <;> rfl

theorem marks_read (marks : Option (List ContentMarkType)) :
    marksFromTiptap ((marks.getD []).map fun mark => some (GRAMMAR_MARK_TO_TIPTAP mark)) =
      marks.filter fun ms => !ms.isEmpty := by
  have hmapped : ((marks.getD []).map fun mark => some (GRAMMAR_MARK_TO_TIPTAP mark)).filterMap
      (fun m => TIPTAP_MARK_TO_GRAMMAR (m.getD "")) = marks.getD [] := by
    rw [List.filterMap_map]
    simp [mark_read]
  simp only [marksFromTiptap, hmapped]
  cases marks with
  | none => rfl
  | some ms => cases ms <;> rfl

theorem inline_read (inline : ContentInline) :
    inlineFromTiptap (inlineToTiptap inline) = .ok inline.withoutEmptyMarks := by
  cases inline with
  | text run marks =>
    rw [ContentInline.withoutEmptyMarks, ← marks_read]
    rfl
  | _ => rfl

theorem inlines_read (content : ContentParagraph) :
    inlinesFromTiptap (content.map inlineToTiptap) = .ok (content.map (·.withoutEmptyMarks)) :=
  mapM_map_ok fun inline _ => inline_read inline

def childFromTiptap : JSONContent → Except String ContentItemChild
  | .node type attrs text marks content => itemChildFromTiptap (.node type attrs text marks content)
      (listItemsFromTiptap content)
      (blockFromTiptap (.node type attrs text marks content))

theorem itemFromTiptap_eq (nodes : List JSONContent) :
    itemFromTiptap nodes = nodes.mapM childFromTiptap := by
  induction nodes with
  | nil => rfl
  | cons child children ih =>
    obtain ⟨type, attrs, text, marks, content⟩ := child
    rw [itemFromTiptap, ih, List.mapM_cons]
    rfl

theorem cellFromTiptap_eq (nodes : List JSONContent) :
    cellFromTiptap nodes = nodes.mapM fun child => cellChildFromTiptap child
      (blockFromTiptap child) := by
  induction nodes with
  | nil => rfl
  | cons child children ih => rw [cellFromTiptap, ih, List.mapM_cons]

theorem itemToTiptap_eq (item : ContentListItem) : itemToTiptap item = item.map itemChildToTiptap := by
  induction item with
  | nil => rfl
  | cons child item ih => rw [itemToTiptap, ih, List.map_cons]

theorem items_read {items : List ContentListItem}
    (h : ∀ item ∈ items, ∀ child ∈ item, childFromTiptap (itemChildToTiptap child) =
        .ok child.withoutEmptyMarks) :
    listItemsFromTiptap (itemsToTiptap items) = .ok (itemsWithoutEmptyMarks items) := by
  induction items with
  | nil => rfl
  | cons item items ih =>
    rw [List.forall_mem_cons] at h
    rw [itemsToTiptap, bare, listItemsFromTiptap, itemFromTiptap_eq, itemToTiptap_eq,
      mapM_map_ok h.1, ih h.2, itemsWithoutEmptyMarks, itemWithoutEmptyMarks_eq]
    rfl

theorem child_read (child : ContentItemChild) :
    childFromTiptap (itemChildToTiptap child) = .ok child.withoutEmptyMarks := by
  induction child using ContentItemChild.induct with
  | paragraph content =>
    rw [itemChildToTiptap, paragraphToTiptap, bare, childFromTiptap, itemChildFromTiptap,
      inlines_read, ContentItemChild.withoutEmptyMarks]
    rfl
  | list type items ih =>
    rw [itemChildToTiptap, bare, childFromTiptap, items_read ih, ContentItemChild.withoutEmptyMarks]
    cases type <;> rfl

theorem cell_read (cell : ContentTableCell) :
    cellFromTiptap (cell.map paragraphToTiptap) = .ok (cell.map fun content => content.map
        (·.withoutEmptyMarks)) := by
  rw [cellFromTiptap_eq]
  exact mapM_map_ok fun content _ => inlines_read content

theorem row_read (row : ContentTableRow) :
    tableCellsFromTiptap (row.map fun cell => bare "tableCell" (cell.map paragraphToTiptap)) =
      .ok (row.map fun cell => cell.map fun content => content.map (·.withoutEmptyMarks)) := by
  induction row with
  | nil => rfl
  | cons cell row ih =>
    rw [List.map_cons, bare, tableCellsFromTiptap, cell_read, ih]
    rfl

theorem rows_read (content : List ContentTableRow) :
    tableRowsFromTiptap (content.map fun row => bare "tableRow"
        (row.map fun cell => bare "tableCell" (cell.map paragraphToTiptap))) =
      .ok (content.map fun row => row.map fun cell => cell.map fun content => content.map
          (·.withoutEmptyMarks)) := by
  induction content with
  | nil => rfl
  | cons row content ih =>
    rw [List.map_cons, bare, tableRowsFromTiptap, row_read, ih]
    rfl

def ContentBlock.reread : ContentBlock → ContentBlock
  | .codeBlock language text => .codeBlock (language.filter isCodeLanguage) text
  | block => block.withoutEmptyMarks

theorem block_read (block : ContentBlock) :
    blockFromTiptap (blockToTiptap block) = .ok block.reread := by
  cases block with
  | paragraph content =>
    rw [blockToTiptap, paragraphToTiptap, bare, blockFromTiptap, inlines_read]
    rfl
  | list type items =>
    have hitems : listItemsFromTiptap (itemsToTiptap items) = .ok (itemsWithoutEmptyMarks items) :=
      items_read fun _ _ child _ => child_read child
    cases type with
    | bulletList =>
      rw [blockToTiptap, bare, ContentListType.text, blockFromTiptap, hitems]
      rfl
    | orderedList =>
      rw [blockToTiptap, bare, ContentListType.text, blockFromTiptap, hitems]
      rfl
  | codeBlock language text =>
    have hlanguage : sanitizeLanguage (some ((language.map Json.str).getD .null)) = language.filter
        isCodeLanguage := by
      cases language with
      | none => rfl
      | some l => simp [sanitizeLanguage, Option.filter]
    have htext : joinedText (if text.isEmpty then [] else [textNode text []]) = text := by
      cases text <;> simp [joinedText, textNode]
    rw [blockToTiptap, blockFromTiptap, htext]
    exact congrArg (fun l => Except.ok (ContentBlock.codeBlock l text)) hlanguage
  | blockMath latex => rfl
  | table content =>
    rw [blockToTiptap, bare, blockFromTiptap, rows_read]
    rfl

theorem normalizeBlock_reread (block : ContentBlock) :
    normalizeBlock block.reread = normalizeBlock block := by
  cases block with
  | codeBlock language text =>
    rw [ContentBlock.reread, normalizeBlock, normalizeBlock, Option.filter_filter]
    simp only [Bool.and_self]
  | paragraph content => exact normalizeBlock_withoutEmptyMarks (.paragraph content)
  | list type items => exact normalizeBlock_withoutEmptyMarks (.list type items)
  | blockMath latex => rfl
  | table content => exact normalizeBlock_withoutEmptyMarks (.table content)

theorem document_read (doc : ContentDocumentV1) :
    tiptapToContentDocument (contentDocumentToTiptap doc) = .ok (normalizeContentDocument doc) := by
  have hblocks : blocksFromTiptap (doc.content.map blockToTiptap) = .ok (doc.content.map (·.reread)) :=
    mapM_map_ok fun block _ => block_read block
  have hnormal : normalizeContentDocument ⟨doc.content.map (·.reread)⟩ =
      normalizeContentDocument doc := by
    rw [normalizeContentDocument, normalizeContentDocument, List.filterMap_map]
    simp only [Function.comp_def, normalizeBlock_reread]
  rw [contentDocumentToTiptap, bare, tiptapToContentDocument, hblocks]
  exact congrArg Except.ok hnormal

theorem document_canonical {json : JSONContent} {doc : ContentDocumentV1}
    (h : tiptapToContentDocument json = .ok doc) : doc.Canonical := by
  obtain ⟨type, attrs, text, marks, content⟩ := json
  rw [tiptapToContentDocument] at h
  cases hblocks : blocksFromTiptap content with
  | error e =>
    rw [hblocks] at h
    cases h
  | ok blocks =>
    rw [hblocks] at h
    exact Except.ok.inj h ▸ normalizeContentDocument_canonical ⟨blocks⟩

def ownMark (mark : Option String) : Bool := (objectPrototype.lookup (mark.getD "")).isNone

mutual

/-- Every mark of the tree, at any depth, is looked up among the literal's own members. -/
def JSONContent.ownMarks : JSONContent → Bool
  | .node _ _ _ marks content => marks.all ownMark && nodesOwnMarks content

def nodesOwnMarks : List JSONContent → Bool
  | [] => true
  | node :: nodes => node.ownMarks && nodesOwnMarks nodes

end

theorem written_ownMark (mark : ContentMarkType) :
    ownMark (some (GRAMMAR_MARK_TO_TIPTAP mark)) = true := by
  cases mark <;> decide

theorem nodesOwnMarks_eq (nodes : List JSONContent) : nodesOwnMarks nodes = nodes.all (·.ownMarks) := by
  induction nodes with
  | nil => rfl
  | cons node nodes ih => rw [nodesOwnMarks, ih, List.all_cons]

theorem bare_ownMarks {type : String} {content : List JSONContent}
    (h : ∀ node ∈ content, node.ownMarks = true) :
    (bare type content).ownMarks = true := by
  rw [bare, JSONContent.ownMarks, nodesOwnMarks_eq]
  exact List.all_eq_true.mpr h

theorem inline_ownMarks (inline : ContentInline) : (inlineToTiptap inline).ownMarks = true := by
  cases inline with
  | text run marks =>
    rw [inlineToTiptap, textNode, JSONContent.ownMarks, List.all_map]
    exact Bool.and_eq_true_iff.mpr ⟨List.all_eq_true.mpr fun mark _ => written_ownMark mark, rfl⟩
  | hardBreak => rfl
  | inlineMath latex => rfl

theorem paragraph_ownMarks (content : ContentParagraph) : (paragraphToTiptap content).ownMarks = true :=
  bare_ownMarks (List.forall_mem_map.mpr fun inline _ => inline_ownMarks inline)

theorem items_ownMarks {items : List ContentListItem}
    (h : ∀ item ∈ items, ∀ child ∈ item, (itemChildToTiptap child).ownMarks = true) :
    ∀ node ∈ itemsToTiptap items, node.ownMarks = true := by
  induction items with
  | nil => exact List.forall_mem_nil _
  | cons item items ih =>
    rw [List.forall_mem_cons] at h
    rw [itemsToTiptap, List.forall_mem_cons, itemToTiptap_eq]
    exact ⟨bare_ownMarks (List.forall_mem_map.mpr h.1), ih h.2⟩

theorem child_ownMarks (child : ContentItemChild) : (itemChildToTiptap child).ownMarks = true := by
  induction child using ContentItemChild.induct with
  | paragraph content =>
    rw [itemChildToTiptap]
    exact paragraph_ownMarks content
  | list type items ih =>
    rw [itemChildToTiptap]
    exact bare_ownMarks (items_ownMarks ih)

theorem block_ownMarks (block : ContentBlock) : (blockToTiptap block).ownMarks = true := by
  cases block with
  | paragraph content => exact paragraph_ownMarks content
  | list type items => exact bare_ownMarks (items_ownMarks fun _ _ child _ => child_ownMarks child)
  | codeBlock language text => cases text <;> rfl
  | blockMath latex => rfl
  | table content =>
    refine bare_ownMarks (List.forall_mem_map.mpr fun row _ => ?_)
    refine bare_ownMarks (List.forall_mem_map.mpr fun cell _ => ?_)
    exact bare_ownMarks (List.forall_mem_map.mpr fun paragraph _ => paragraph_ownMarks paragraph)

/-- Any document that is opened in the editor and saved untouched is normalized and
nothing more, and what the editor has saved is opened and saved as it is. What is
opened has no mark that is named after a member that objects inherit. -/
theorem adapter_round_trip :
    (∀ doc : ContentDocumentV1, (contentDocumentToTiptap doc).ownMarks = true ∧
        tiptapToContentDocument (contentDocumentToTiptap doc) = .ok (normalizeContentDocument doc)) ∧
      ∀ json : JSONContent, json.ownMarks = true → ∀ doc, tiptapToContentDocument json = .ok doc →
        tiptapToContentDocument (contentDocumentToTiptap doc) = .ok doc := by
  refine ⟨fun doc => ⟨?_, document_read doc⟩, fun json _ doc h => ?_⟩
  · exact bare_ownMarks (List.forall_mem_map.mpr fun block _ => block_ownMarks block)
  · rw [document_read, normalizeContentDocument_eq_self.mpr (document_canonical h)]

/-- A table, a block of code and a display formula in a list item, and a list in a table cell. -/
def samplePasted : JSONContent :=
  let cell := fun run => bare "tableHeader"
    [bare "bulletList" [bare "listItem" [bare "paragraph" [textNode (js run) [some "strike"]]]]]
  bare "doc" [bare "orderedList" [bare "listItem"
    [bare "table" [bare "tableRow" [cell "a ", cell "b "]],
      .node (some "codeBlock") [("language", .str (js "c"))] none [] [textNode (js "x y") []],
      mathNode "blockMath" (js "z"), mathNode "blockMath" (js "z")]]]

theorem adapter_round_trip_sample : ∃ doc, tiptapToContentDocument samplePasted = .ok doc ∧
    tiptapToContentDocument (contentDocumentToTiptap doc) = .ok doc :=
  ⟨_, rfl, adapter_round_trip.2 samplePasted (by decide) _ rfl⟩

/-! ## What shows -/

def visible (s : JsString) : JsString := s.filter fun u => !isWhitespace u

theorem visible_append (s t : JsString) : visible (s ++ t) = visible s ++ visible t :=
  List.filter_append s t

theorem visible_joinWith {sep : JsString} (h : visible sep = []) :
    ∀ texts, visible (joinWith sep texts) = texts.flatMap visible
  | [] => rfl
  | [s] => by simp [joinWith]
  | s :: t :: rest => by
    rw [joinWith, visible_append, visible_append, h, List.append_nil, visible_joinWith h (t :: rest)]
    exact List.flatMap_cons.symm

theorem visible_newline : visible newline = [] := by decide

theorem visible_space : visible (js " ") = [] := by decide

theorem visible_trimEnd (s : JsString) : visible (trimEnd s) = visible s := by
  induction s using List.reverseRecOn with
  | nil => rfl
  | append_singleton s u ih =>
    by_cases hu : isWhitespace u = true
    · rw [trimEnd, List.rdropWhile_concat_pos _ _ _ hu, visible_append]
      rw [show visible [u] = [] by simp [visible, hu], List.append_nil]
      exact ih
    · rw [trimEnd, List.rdropWhile_concat_neg _ _ _ hu]

mutual

/-- The text of a node where it is a block or an inline: its own, or that of what it holds. -/
def JSONContent.plainText : JSONContent → JsString
  | .node type attrs text _ content =>
    match type with
    | some "text" => text.getD []
    | some "hardBreak" => newline
    | some "inlineMath" => latexOf attrs
    | some "blockMath" => latexOf attrs
    | some "codeBlock" => joinedText content
    | some "bulletList" => itemsText content
    | some "orderedList" => itemsText content
    | some "table" => rowsText content
    | _ => nodesText content

def nodesText : List JSONContent → JsString
  | [] => []
  | node :: nodes => node.plainText ++ nodesText nodes

/-- The text of the nodes where they only hold others, as the items of a list and the cells
of a row do. -/
def itemsText : List JSONContent → JsString
  | [] => []
  | .node _ _ _ _ content :: items => nodesText content ++ itemsText items

def rowsText : List JSONContent → JsString
  | [] => []
  | .node _ _ _ _ content :: rows => itemsText content ++ rowsText rows

end

theorem inline_text {node : JSONContent} {inline : ContentInline}
    (h : inlineFromTiptap node = .ok inline) :
    inline.plainText = node.plainText := by
  unfold inlineFromTiptap at h
  split at h
  · obtain rfl := Except.ok.inj h
    rfl
  · obtain rfl := Except.ok.inj h
    rfl
  · obtain rfl := Except.ok.inj h
    rfl
  · cases h

theorem inlines_text :
    ∀ {nodes : List JSONContent} {content : ContentParagraph}, inlinesFromTiptap nodes = .ok content →
    projectInline content = nodesText nodes
  | [], content, h => by
    obtain rfl := Except.ok.inj h
    rfl
  | node :: nodes, content, h => by
    simp only [inlinesFromTiptap, List.mapM_cons, bind_eq_ok, pure_eq_ok] at h
    obtain ⟨inline, hinline, rest, hrest, rfl⟩ := h
    rw [projectInline_eq, List.flatMap_cons, ← projectInline_eq, inlines_text hrest,
      inline_text hinline, nodesText]

theorem visible_projected (block : ContentBlock) :
    visible (projectInline (projected block)) = visible (projectBlock block) := by
  have hone : projectInline (projected block) = trimEnd (projectBlock block) := by
    rw [projectInline_eq, projected, List.flatMap_singleton]
    rfl
  rw [hone, visible_trimEnd]

theorem visible_listItems (items : List ContentListItem) :
    visible (projectListItems items) = items.flatMap fun item => item.flatMap fun child =>
      visible (projectItemChild child) := by
  rw [projectListItems, visible_joinWith visible_newline, itemTexts_eq, List.flatMap_map]
  refine List.flatMap_congr fun item _ => ?_
  rw [visible_joinWith visible_newline, childTexts_eq, List.flatMap_map]

theorem visible_table (content : List ContentTableRow) : visible (projectBlock (.table content)) =
    content.flatMap fun row => row.flatMap fun cell => cell.flatMap fun paragraph =>
      visible (projectInline paragraph) := by
  rw [projectBlock, visible_joinWith visible_newline, List.flatMap_map]
  refine List.flatMap_congr fun row _ => ?_
  rw [visible_joinWith visible_space, List.flatMap_map]
  refine List.flatMap_congr fun cell _ => ?_
  rw [visible_joinWith visible_space, List.flatMap_map]

/-- A child of a list item shows what its node does, when its lists and its block do. -/
theorem itemChild_text {type : Option String} {attrs : List (String × Json)}
    {text : Option JsString} {marks : List (Option String)} {content : List JSONContent}
    {items : Except String (List ContentListItem)} {block : Except String ContentBlock}
    {child : ContentItemChild}
    (hitems : ∀ is, items = .ok is → visible (projectListItems is) = visible (itemsText content))
    (hblock : ∀ b, block = .ok b →
      visible (projectBlock b) = visible (JSONContent.node type attrs text marks content).plainText)
    (h : itemChildFromTiptap (.node type attrs text marks content) items block = .ok child) :
    visible (projectItemChild child) = visible
      (JSONContent.node type attrs text marks content).plainText := by
  unfold itemChildFromTiptap at h
  split at h <;> simp only [bind_eq_ok, pure_eq_ok] at h
  · rename_i heq
    cases heq
    obtain ⟨inlines, hi, rfl⟩ := h
    rw [projectItemChild, inlines_text hi]
    rfl
  · rename_i heq
    cases heq
    obtain ⟨is, hi, rfl⟩ := h
    exact hitems is hi
  · rename_i heq
    cases heq
    obtain ⟨is, hi, rfl⟩ := h
    exact hitems is hi
  · rename_i heq
    cases heq
    subst h
    rfl
  · rename_i heq
    cases heq
    subst h
    rfl
  · obtain ⟨b, hb, rfl⟩ := h
    rw [projectItemChild, visible_projected, hblock b hb]

theorem cellChild_text {child : JSONContent} {block : Except String ContentBlock}
    {paragraph : ContentParagraph}
    (hblock : ∀ b, block = .ok b → visible (projectBlock b) = visible child.plainText)
    (h : cellChildFromTiptap child block = .ok paragraph) :
    visible (projectInline paragraph) = visible child.plainText := by
  unfold cellChildFromTiptap at h
  split at h
  · rw [inlines_text h]
    rfl
  · obtain rfl := Except.ok.inj h
    rfl
  · simp only [bind_eq_ok, pure_eq_ok] at h
    obtain ⟨b, hb, rfl⟩ := h
    rw [visible_projected, hblock b hb]

mutual

theorem block_text : ∀ (node : JSONContent) {block : ContentBlock}, blockFromTiptap node = .ok block →
    visible (projectBlock block) = visible node.plainText
  | .node type attrs text marks content, block, h => by
    unfold blockFromTiptap at h
    split at h
    · simp only [bind_eq_ok, pure_eq_ok] at h
      obtain ⟨inlines, hi, rfl⟩ := h
      rw [projectBlock, inlines_text hi]
      rfl
    · simp only [bind_eq_ok, pure_eq_ok] at h
      obtain ⟨items, hi, rfl⟩ := h
      exact items_text content hi
    · simp only [bind_eq_ok, pure_eq_ok] at h
      obtain ⟨items, hi, rfl⟩ := h
      exact items_text content hi
    · obtain rfl := Except.ok.inj h
      rfl
    · obtain rfl := Except.ok.inj h
      rfl
    · simp only [bind_eq_ok, pure_eq_ok] at h
      obtain ⟨rows, hr, rfl⟩ := h
      exact rows_text content hr
    · cases h

theorem items_text :
    ∀ (nodes : List JSONContent) {items : List ContentListItem}, listItemsFromTiptap nodes = .ok items →
    visible (projectListItems items) = visible (itemsText nodes)
  | [], items, h => by
    obtain rfl := Except.ok.inj h
    rfl
  | .node type attrs text marks content :: nodes, items, h => by
    simp only [listItemsFromTiptap, bind_eq_ok, pure_eq_ok] at h
    obtain ⟨item, hitem, rest, hrest, rfl⟩ := h
    have hrest := items_text nodes hrest
    rw [visible_listItems] at hrest ⊢
    rw [List.flatMap_cons, hrest, item_text content hitem, itemsText, visible_append]

theorem item_text :
    ∀ (nodes : List JSONContent) {item : ContentListItem}, itemFromTiptap nodes = .ok item →
    (item.flatMap fun child => visible (projectItemChild child)) = visible (nodesText nodes)
  | [], item, h => by
    obtain rfl := Except.ok.inj h
    rfl
  | .node type attrs text marks content :: nodes, item, h => by
    simp only [itemFromTiptap, bind_eq_ok, pure_eq_ok] at h
    obtain ⟨child, hchild, rest, hrest, rfl⟩ := h
    have hchild :=
      itemChild_text (fun _ => items_text content)
        (fun _ => block_text (.node type attrs text marks content)) hchild
    rw [List.flatMap_cons, hchild, item_text nodes hrest, nodesText, visible_append]

theorem rows_text :
    ∀ (nodes : List JSONContent) {rows : List ContentTableRow}, tableRowsFromTiptap nodes = .ok rows →
    visible (projectBlock (.table rows)) = visible (rowsText nodes)
  | [], rows, h => by
    obtain rfl := Except.ok.inj h
    rfl
  | .node type attrs text marks content :: nodes, rows, h => by
    simp only [tableRowsFromTiptap, bind_eq_ok, pure_eq_ok] at h
    obtain ⟨row, hrow, rest, hrest, rfl⟩ := h
    have hrest := rows_text nodes hrest
    rw [visible_table] at hrest ⊢
    rw [List.flatMap_cons, hrest, cells_text content hrow, rowsText, visible_append]

theorem cells_text :
    ∀ (nodes : List JSONContent) {row : ContentTableRow}, tableCellsFromTiptap nodes = .ok row →
    (row.flatMap fun cell => cell.flatMap fun paragraph => visible (projectInline paragraph)) =
      visible (itemsText nodes)
  | [], row, h => by
    obtain rfl := Except.ok.inj h
    rfl
  | .node type attrs text marks content :: nodes, row, h => by
    simp only [tableCellsFromTiptap, bind_eq_ok, pure_eq_ok] at h
    obtain ⟨cell, hcell, rest, hrest, rfl⟩ := h
    rw [List.flatMap_cons, cell_text content hcell, cells_text nodes hrest, itemsText, visible_append]

theorem cell_text :
    ∀ (nodes : List JSONContent) {cell : ContentTableCell}, cellFromTiptap nodes = .ok cell →
    (cell.flatMap fun paragraph => visible (projectInline paragraph)) = visible (nodesText nodes)
  | [], cell, h => by
    obtain rfl := Except.ok.inj h
    rfl
  | child :: nodes, cell, h => by
    simp only [cellFromTiptap, bind_eq_ok, pure_eq_ok] at h
    obtain ⟨paragraph, hchild, rest, hrest, rfl⟩ := h
    rw [List.flatMap_cons, cellChild_text (fun _ => block_text child) hchild, cell_text nodes hrest,
      nodesText, visible_append]

end

theorem visible_lines (s : JsString) : (nonEmptyLines s).flatMap visible = visible s := by
  have hempty : ∀ lines : List JsString, (lines.filter fun line => !line.isEmpty).flatMap visible =
      lines.flatMap visible := by
    intro lines
    induction lines with
    | nil => rfl
    | cons line lines ih => cases line <;> simp [ih, visible]
  rw [nonEmptyLines, hempty, ← visible_joinWith visible_newline, joinWith_eq_intercalate]
  exact congrArg visible (List.intercalate_splitOn 0xA)

theorem visible_normalize (doc : ContentDocumentV1) :
    visible (plainTextProjection (normalizeContentDocument doc)) = doc.content.flatMap fun block =>
      visible (projectBlock block) := by
  rw [plainTextProjection, visible_joinWith visible_newline, List.flatMap_map]
  have hlines : ∀ block, (blockLines block).flatMap visible = visible (projectBlock block) :=
    fun block => visible_lines _
  have hblock : ∀ block, ((normalizeBlock block).map fun b => visible (projectBlock b)).getD
      [] = visible (projectBlock block) := by
    intro block
    rw [← hlines, ← normalizeBlock_lines]
    cases normalizeBlock block with
    | none => rfl
    | some b => exact (hlines b).symm
  rw [normalizeContentDocument, flatMap_rdropWhile (f := fun block => visible (projectBlock block))
    (fun block hempty => by rw [← hlines, isEmptyParagraph_lines block hempty]; rfl),
    flatMap_filterMap fun block _ => hblock block]

theorem blocks_text :
    ∀ {nodes : List JSONContent} {blocks : List ContentBlock}, blocksFromTiptap nodes = .ok blocks →
    (blocks.flatMap fun block => visible (projectBlock block)) = visible (nodesText nodes)
  | [], blocks, h => by
    obtain rfl := Except.ok.inj h
    rfl
  | node :: nodes, blocks, h => by
    simp only [blocksFromTiptap, List.mapM_cons, bind_eq_ok, pure_eq_ok] at h
    obtain ⟨block, hblock, rest, hrest, rfl⟩ := h
    rw [List.flatMap_cons, block_text node hblock, blocks_text hrest, nodesText, visible_append]

def JSONContent.content : JSONContent → List JSONContent
  | .node _ _ _ _ content => content

/-- Whatever tree the adapter accepts, and however it downgrades it, the plain text of
the document has the characters that the tree shows, in the same order. -/
theorem adapter_keeps_text {json : JSONContent} {doc : ContentDocumentV1}
    (h : tiptapToContentDocument json = .ok doc) :
    visible (plainTextProjection doc) = visible (nodesText json.content) := by
  obtain ⟨type, attrs, text, marks, content⟩ := json
  simp only [tiptapToContentDocument, bind_eq_ok, pure_eq_ok] at h
  obtain ⟨blocks, hblocks, rfl⟩ := h
  rw [visible_normalize, JSONContent.content, ← blocks_text hblocks]

theorem adapter_keeps_text_sample : ∃ doc, tiptapToContentDocument samplePasted = .ok doc ∧
    visible (plainTextProjection doc) = visible (nodesText samplePasted.content) ∧
    visible (plainTextProjection doc) = js "abxyzz" := by
  have h : tiptapToContentDocument samplePasted =
      .ok ⟨[.list .orderedList [[.paragraph [.text (js "a b") none], .paragraph [.text (js "x y") none],
        .paragraph [.inlineMath (js "z")], .paragraph [.inlineMath (js "z")]]]]⟩ := by
    rfl
  exact ⟨_, h, adapter_keeps_text h, by decide⟩

end ExamSystem
