import ExamSystem.AnswerProtocol
import ExamSystem.ContentSchema

/-!
# Persisted rich answers

Reading a persisted answer compares its document with the canonical one. The
comparison takes an empty list of marks for no marks, and canonicalization does
not write one.
-/

namespace ExamSystem

/-! ## Structural equality -/

def marksEqual (a b : Option (List ContentMarkType)) : Bool :=
  match a with
  | none | some [] => (b.getD []).isEmpty
  | some marks => b.any fun other => other.length == marks.length && marks == other

section
variable {α : Type}

def listsEqual (equal : α → α → Bool) : List α → List α → Bool
  | [], [] => true
  | a :: as, b :: bs => equal a b && listsEqual equal as bs
  | _, _ => false

end

def inlineEqual : ContentInline → ContentInline → Bool
  | .text run marks, .text otherRun otherMarks => run == otherRun && marksEqual marks otherMarks
  | .inlineMath latex, .inlineMath otherLatex => latex == otherLatex
  | .hardBreak, .hardBreak => true
  | _, _ => false

def inlinesEqual : List ContentInline → List ContentInline → Bool := listsEqual inlineEqual

mutual

/-- `blocksEqual` on the children of list items. -/
def itemChildEqual : ContentItemChild → ContentItemChild → Bool
  | .paragraph content, .paragraph other => inlinesEqual content other
  | .list type content, .list otherType other => type == otherType && itemsEqual content other
  | _, _ => false

def itemsEqual : List ContentListItem → List ContentListItem → Bool
  | [], [] => true
  | item :: items, other :: others => itemEqual item other && itemsEqual items others
  | _, _ => false

def itemEqual : ContentListItem → ContentListItem → Bool
  | [], [] => true
  | child :: children, other :: others => itemChildEqual child other && itemEqual children others
  | _, _ => false

end

def blockEqual : ContentBlock → ContentBlock → Bool
  | .paragraph content, .paragraph other => inlinesEqual content other
  | .list type content, .list otherType other => type == otherType && itemsEqual content other
  | .codeBlock language text, .codeBlock otherLanguage otherText =>
    language == otherLanguage && text == otherText
  | .blockMath latex, .blockMath otherLatex => latex == otherLatex
  | .table content, .table other => listsEqual (listsEqual (listsEqual inlinesEqual)) content other
  | _, _ => false

def contentDocumentsEqual (a b : ContentDocumentV1) : Bool := listsEqual blockEqual a.content b.content

/-! ## Classification -/

inductive RichAnswerReadState
  | empty
  | plain (text : JsString)
  | legacyPlain (text : JsString)
  | richValid (document : ContentDocumentV1)
  | richNoncanonical (document : ContentDocumentV1)
  | unsupportedVersion (raw : Json)
  | corrupt (raw : Json)

/-- A number for `docVersion` other than the version of the grammar. -/
def hasUnsupportedVersion : Json → Bool
  | .obj entries =>
    match fieldOf entries "docVersion" with
    | some (.num n) => !strictEq (.num n) (.num CONTENT_DOC_VERSION)
    | _ => false
  | _ => false

def isContentDocumentV1 : Json → Bool
  | .obj entries =>
    fieldIs entries "docVersion" (.num CONTENT_DOC_VERSION) && fieldIs entries "type"
      (.str (js "doc")) && isArray (fieldOf entries "content")
  | _ => false

def classifyRichDocument [Host] (value : Json) : RichAnswerReadState :=
  if hasUnsupportedVersion value then .unsupportedVersion value
  else if !isContentDocumentV1 value then .corrupt value
  else if !(preflightContentDocumentStructure value).isEmpty then .corrupt value
  else
    match ContentDocumentV1Schema value with
    | none => .corrupt value
    | some parsed =>
      match canonicalizeContentDocument parsed with
      | none => .richNoncanonical parsed
      | some canonical => if contentDocumentsEqual parsed canonical then .richValid parsed
          else .richNoncanonical parsed

def classifyPersistedRichAnswer [Host] (value : Json) (answerMode : Option String)
    (legacyPlainProvenance : Bool) : RichAnswerReadState :=
  if value.isNull then .empty
  else if answerMode ≠ some "rich" then
    match value with
    | .str text => .plain text
    | _ => .corrupt value
  else
    match value with
    | .str text => if legacyPlainProvenance then .legacyPlain text else .corrupt value
    | _ => classifyRichDocument value

/-! ## Documents without empty mark lists -/

def ContentInline.withoutEmptyMarks : ContentInline → ContentInline
  | .text run marks => .text run (marks.filter fun ms => !ms.isEmpty)
  | inline => inline

mutual

def ContentItemChild.withoutEmptyMarks : ContentItemChild → ContentItemChild
  | .paragraph content => .paragraph (content.map (·.withoutEmptyMarks))
  | .list type content => .list type (itemsWithoutEmptyMarks content)

def itemsWithoutEmptyMarks : List ContentListItem → List ContentListItem
  | [] => []
  | item :: items => itemWithoutEmptyMarks item :: itemsWithoutEmptyMarks items

def itemWithoutEmptyMarks : ContentListItem → ContentListItem
  | [] => []
  | child :: children => child.withoutEmptyMarks :: itemWithoutEmptyMarks children

end

def ContentBlock.withoutEmptyMarks : ContentBlock → ContentBlock
  | .paragraph content => .paragraph (content.map (·.withoutEmptyMarks))
  | .list type content => .list type (itemsWithoutEmptyMarks content)
  | .codeBlock language text => .codeBlock language text
  | .blockMath latex => .blockMath latex
  | .table content =>
    .table (content.map fun row => row.map fun cell => cell.map fun content => content.map
        (·.withoutEmptyMarks))

def ContentDocumentV1.withoutEmptyMarks (doc : ContentDocumentV1) : ContentDocumentV1 :=
  ⟨doc.content.map (·.withoutEmptyMarks)⟩

theorem itemWithoutEmptyMarks_eq (item : ContentListItem) :
    itemWithoutEmptyMarks item = item.map (·.withoutEmptyMarks) := by
  induction item with
  | nil => rfl
  | cons child item ih => rw [itemWithoutEmptyMarks, ih, List.map_cons]

theorem itemsWithoutEmptyMarks_eq (items : List ContentListItem) :
    itemsWithoutEmptyMarks items = items.map itemWithoutEmptyMarks := by
  induction items with
  | nil => rfl
  | cons item items ih => rw [itemsWithoutEmptyMarks, ih, List.map_cons]

/-! ## What the comparison compares -/

theorem listsEqual_iff {α β : Type} {equal : α → α → Bool} {f : α → β} {as : List α}
    (h : ∀ a ∈ as, ∀ b, equal a b = true ↔ f a = f b) :
    ∀ bs, listsEqual equal as bs = true ↔ as.map f = bs.map f := by
  induction as with
  | nil =>
    intro bs
    cases bs <;> simp [listsEqual]
  | cons a as ih =>
    intro bs
    rw [List.forall_mem_cons] at h
    cases bs with
    | nil => simp [listsEqual]
    | cons b bs => rw [listsEqual, Bool.and_eq_true, h.1 b, ih h.2 bs, List.map_cons, List.map_cons,
        List.cons.injEq]

theorem marksEqual_iff (a b : Option (List ContentMarkType)) :
    marksEqual a b = true ↔ a.getD [] = b.getD [] := by
  cases a with
  | none => exact List.isEmpty_iff.trans eq_comm
  | some a =>
    cases a with
    | nil => exact List.isEmpty_iff.trans eq_comm
    | cons mark marks =>
      cases b with
      | none => simp [marksEqual]
      | some b =>
        simp only [marksEqual, Option.any_some, Bool.and_eq_true, beq_iff_eq, Option.getD_some]
        exact ⟨fun h => h.2, fun h => ⟨congrArg List.length h.symm, h⟩⟩

theorem filter_isEmpty_eq {a b : Option (List ContentMarkType)} :
    (a.filter fun ms => !ms.isEmpty) = (b.filter fun ms => !ms.isEmpty) ↔ a.getD [] = b.getD [] := by
  rcases a with _ | _ | ⟨m, ms⟩ <;> rcases b with _ | _ | ⟨n, ns⟩ <;> simp [Option.filter]

theorem inlineEqual_iff (a b : ContentInline) :
    inlineEqual a b = true ↔ a.withoutEmptyMarks = b.withoutEmptyMarks := by
  cases a <;> cases b <;>
    simp [inlineEqual, ContentInline.withoutEmptyMarks, marksEqual_iff, filter_isEmpty_eq]

theorem inlinesEqual_iff (a b : ContentParagraph) :
    inlinesEqual a b = true ↔ a.map (·.withoutEmptyMarks) = b.map (·.withoutEmptyMarks) :=
  listsEqual_iff (fun a _ b => inlineEqual_iff a b) b

theorem itemEqual_eq : itemEqual = listsEqual itemChildEqual := by
  funext as
  induction as with
  | nil =>
    funext bs
    cases bs <;> rfl
  | cons a as ih =>
    funext bs
    cases bs with
    | nil => rfl
    | cons b bs => rw [itemEqual, listsEqual, ih]

theorem itemsEqual_eq : itemsEqual = listsEqual itemEqual := by
  funext as
  induction as with
  | nil =>
    funext bs
    cases bs <;> rfl
  | cons a as ih =>
    funext bs
    cases bs with
    | nil => rfl
    | cons b bs => rw [itemsEqual, listsEqual, ih]

theorem itemsEqual_iff {items : List ContentListItem}
    (h : ∀ item ∈ items, ∀ child ∈ item, ∀ c, itemChildEqual child c = true ↔
      child.withoutEmptyMarks = c.withoutEmptyMarks) (others : List ContentListItem) :
    itemsEqual items others = true ↔ itemsWithoutEmptyMarks items = itemsWithoutEmptyMarks others := by
  rw [itemsEqual_eq, itemsWithoutEmptyMarks_eq, itemsWithoutEmptyMarks_eq]
  refine listsEqual_iff (fun item hitem other => ?_) others
  rw [itemEqual_eq, itemWithoutEmptyMarks_eq, itemWithoutEmptyMarks_eq]
  exact listsEqual_iff (h item hitem) other

theorem itemChildEqual_iff (a : ContentItemChild) :
    ∀ b, itemChildEqual a b = true ↔ a.withoutEmptyMarks = b.withoutEmptyMarks := by
  induction a using ContentItemChild.induct with
  | paragraph content =>
    intro b
    cases b with
    | paragraph other =>
      rw [itemChildEqual, inlinesEqual_iff, ContentItemChild.withoutEmptyMarks,
        ContentItemChild.withoutEmptyMarks, ContentItemChild.paragraph.injEq]
    | list type other => simp [itemChildEqual, ContentItemChild.withoutEmptyMarks]
  | list type items ih =>
    intro b
    cases b with
    | paragraph other => simp [itemChildEqual, ContentItemChild.withoutEmptyMarks]
    | list otherType others =>
      rw [itemChildEqual, Bool.and_eq_true, beq_iff_eq, itemsEqual_iff ih,
        ContentItemChild.withoutEmptyMarks, ContentItemChild.withoutEmptyMarks,
        ContentItemChild.list.injEq]

theorem blockEqual_iff (a b : ContentBlock) :
    blockEqual a b = true ↔ a.withoutEmptyMarks = b.withoutEmptyMarks := by
  have hitems : ∀ items others, itemsEqual items others = true ↔
      itemsWithoutEmptyMarks items = itemsWithoutEmptyMarks others :=
    fun _ => itemsEqual_iff fun _ _ child _ => itemChildEqual_iff child
  have hrows : ∀ rows others : List ContentTableRow,
      listsEqual (listsEqual (listsEqual inlinesEqual)) rows others = true ↔
      (rows.map fun row => row.map fun cell => cell.map fun content => content.map
          (·.withoutEmptyMarks)) =
        others.map fun row => row.map fun cell => cell.map fun content => content.map
          (·.withoutEmptyMarks) :=
    fun _ => listsEqual_iff fun _ _ => listsEqual_iff fun _ _ => listsEqual_iff fun content _ =>
      inlinesEqual_iff content
  cases a <;> cases b <;>
    simp [blockEqual, ContentBlock.withoutEmptyMarks, inlinesEqual_iff, hitems, hrows]

theorem contentDocumentsEqual_iff (a b : ContentDocumentV1) :
    contentDocumentsEqual a b = true ↔ a.withoutEmptyMarks = b.withoutEmptyMarks := by
  rw [contentDocumentsEqual, listsEqual_iff fun block _ other => blockEqual_iff block other,
    ContentDocumentV1.withoutEmptyMarks, ContentDocumentV1.withoutEmptyMarks,
    ContentDocumentV1.mk.injEq]

/-! ## What empty mark lists do not change -/

theorem getD_filter_isEmpty (marks : Option (List ContentMarkType)) :
    (marks.filter fun ms => !ms.isEmpty).getD [] = marks.getD [] := by
  rcases marks with _ | _ | ⟨m, ms⟩ <;> rfl

theorem normalizeInline_withoutEmptyMarks (inline : ContentInline) :
    normalizeInline inline.withoutEmptyMarks = normalizeInline inline := by
  cases inline with
  | text run marks =>
    have hmarks : canonicalMarks (marks.filter fun ms => !ms.isEmpty) = canonicalMarks marks := by
      simp only [canonicalMarks, getD_filter_isEmpty]
    rw [ContentInline.withoutEmptyMarks, normalizeInline, normalizeInline, hmarks]
  | _ => rfl

theorem normalizeInlineList_withoutEmptyMarks (content : ContentParagraph) :
    normalizeInlineList (content.map (·.withoutEmptyMarks)) = normalizeInlineList content := by
  rw [normalizeInlineList, normalizeInlineList, List.foldl_map]
  simp only [normalizeInline_withoutEmptyMarks]

theorem normalizeItems_withoutEmptyMarks {items : List ContentListItem}
    (h : ∀ item ∈ items, ∀ child ∈ item, normalizeItemChild child.withoutEmptyMarks =
        normalizeItemChild child) :
    normalizeItems (itemsWithoutEmptyMarks items) = normalizeItems items := by
  have hitem : ∀ item ∈ items, normalizeListItemChildren (itemWithoutEmptyMarks item) =
      normalizeListItemChildren item := by
    intro item hitem
    rw [normalizeListItemChildren, normalizeListItemChildren, normalizeChildren_eq,
      normalizeChildren_eq, itemWithoutEmptyMarks_eq, List.filterMap_map]
    exact congrArg (List.rdropWhile ContentItemChild.isBlank) (List.filterMap_congr (h item hitem))
  rw [normalizeItems_eq, normalizeItems_eq, itemsWithoutEmptyMarks_eq, List.map_map]
  exact congrArg (List.filter fun item => !item.isEmpty) (List.map_congr_left hitem)

theorem normalizeItemChild_withoutEmptyMarks (child : ContentItemChild) :
    normalizeItemChild child.withoutEmptyMarks = normalizeItemChild child := by
  induction child using ContentItemChild.induct with
  | paragraph content =>
    rw [ContentItemChild.withoutEmptyMarks, normalizeItemChild, normalizeItemChild,
      normalizeInlineList_withoutEmptyMarks]
  | list type items ih =>
    rw [ContentItemChild.withoutEmptyMarks, normalizeItemChild, normalizeItemChild,
      normalizeItems_withoutEmptyMarks ih]

theorem normalizeBlock_withoutEmptyMarks (block : ContentBlock) :
    normalizeBlock block.withoutEmptyMarks = normalizeBlock block := by
  cases block with
  | paragraph content =>
    rw [ContentBlock.withoutEmptyMarks, normalizeBlock, normalizeBlock,
      normalizeInlineList_withoutEmptyMarks]
  | list type items =>
    rw [ContentBlock.withoutEmptyMarks, normalizeBlock, normalizeBlock,
      normalizeItems_withoutEmptyMarks fun _ _ child _ => normalizeItemChild_withoutEmptyMarks child]
  | table content =>
    simp only [ContentBlock.withoutEmptyMarks, normalizeBlock, List.map_map, Function.comp_def,
      normalizeInlineList_withoutEmptyMarks]
  | _ => rfl

theorem normalizeContentDocument_withoutEmptyMarks (doc : ContentDocumentV1) :
    normalizeContentDocument doc.withoutEmptyMarks = normalizeContentDocument doc := by
  have hblocks : doc.withoutEmptyMarks.content.filterMap normalizeBlock = doc.content.filterMap
      normalizeBlock := by
    rw [ContentDocumentV1.withoutEmptyMarks, List.filterMap_map]
    exact List.filterMap_congr fun block _ => normalizeBlock_withoutEmptyMarks block
  rw [normalizeContentDocument, normalizeContentDocument, hblocks]

/-! ## Canonical documents have no empty mark list -/

theorem ContentInline.Canonical.withoutEmptyMarks {inline : ContentInline} (h : inline.Canonical) :
    inline.withoutEmptyMarks = inline := by
  cases inline with
  | text run marks =>
    cases marks with
    | none => rfl
    | some ms =>
      have hne : (!ms.isEmpty) = true := by simpa using (h.2 ms rfl).nonempty
      rw [ContentInline.withoutEmptyMarks, Option.filter_some, hne]
      rfl
  | _ => rfl

theorem CanonicalInlines.withoutEmptyMarks {content : ContentParagraph} (h : CanonicalInlines content) :
    content.map (·.withoutEmptyMarks) = content :=
  map_fixed fun inline hinline => (h.each inline hinline).withoutEmptyMarks

theorem ContentItemChild.Canonical.withoutEmptyMarks {child : ContentItemChild} (h : child.Canonical) :
    child.withoutEmptyMarks = child := by
  induction h with
  | paragraph h => rw [ContentItemChild.withoutEmptyMarks, h.withoutEmptyMarks]
  | list items nonempty trailing _ ih =>
    rw [ContentItemChild.withoutEmptyMarks, itemsWithoutEmptyMarks_eq]
    congr 1
    refine map_fixed fun item hitem => ?_
    rw [itemWithoutEmptyMarks_eq]
    exact map_fixed (ih item hitem)

theorem ContentBlock.Canonical.withoutEmptyMarks {block : ContentBlock} (h : block.Canonical) :
    block.withoutEmptyMarks = block := by
  cases block with
  | paragraph content => exact congrArg ContentBlock.paragraph (CanonicalInlines.withoutEmptyMarks h)
  | list type items =>
    have hchild := ContentItemChild.Canonical.withoutEmptyMarks h
    rw [ContentItemChild.withoutEmptyMarks, ContentItemChild.list.injEq] at hchild
    rw [ContentBlock.withoutEmptyMarks, hchild.2]
  | table content =>
    refine congrArg ContentBlock.table
      (map_fixed fun row hrow => map_fixed fun cell hcell => map_fixed fun paragraph hparagraph => ?_)
    exact (h row hrow cell hcell paragraph hparagraph).withoutEmptyMarks
  | _ => rfl

theorem ContentDocumentV1.Canonical.withoutEmptyMarks {doc : ContentDocumentV1} (h : doc.Canonical) :
    doc.withoutEmptyMarks = doc := by
  have hblocks : doc.content.map (·.withoutEmptyMarks) = doc.content :=
    map_fixed fun block hblock => (h.blocks block hblock).withoutEmptyMarks
  rw [ContentDocumentV1.withoutEmptyMarks, hblocks]

/-! ## Validity and limits without empty mark lists -/

theorem valid_withoutEmptyMarks (inline : ContentInline) :
    inline.withoutEmptyMarks.valid = inline.valid := by
  cases inline with
  | text run marks => rcases marks with _ | _ | ⟨m, ms⟩ <;> rfl
  | _ => rfl

theorem paragraphValid_withoutEmptyMarks (content : ContentParagraph) :
    paragraphValid (content.map (·.withoutEmptyMarks)) = paragraphValid content := by
  simp only [paragraphValid, List.all_map, Function.comp_def, valid_withoutEmptyMarks]

mutual

theorem itemChildValid_withoutEmptyMarks :
    ∀ child : ContentItemChild, child.withoutEmptyMarks.valid = child.valid
  | .paragraph content => by
    rw [ContentItemChild.withoutEmptyMarks, ContentItemChild.valid, ContentItemChild.valid,
      paragraphValid_withoutEmptyMarks]
  | .list type content => by
    rw [ContentItemChild.withoutEmptyMarks, ContentItemChild.valid, ContentItemChild.valid,
      itemsValid_withoutEmptyMarks content]

theorem itemsValid_withoutEmptyMarks :
    ∀ items : List ContentListItem, itemsValid (itemsWithoutEmptyMarks items) = itemsValid items
  | [] => rfl
  | item :: items => by
    rw [itemsWithoutEmptyMarks, itemsValid, itemsValid, itemValid_withoutEmptyMarks item,
      itemsValid_withoutEmptyMarks items]

theorem itemValid_withoutEmptyMarks :
    ∀ item : ContentListItem, itemValid (itemWithoutEmptyMarks item) = itemValid item
  | [] => rfl
  | child :: children => by
    rw [itemWithoutEmptyMarks, itemValid, itemValid, itemChildValid_withoutEmptyMarks child,
      itemValid_withoutEmptyMarks children]

end

theorem isRectangular_map (f : ContentTableCell → ContentTableCell) (rows : List ContentTableRow) :
    isRectangular (rows.map fun row => row.map f) = isRectangular rows := by
  cases rows with
  | nil => rfl
  | cons row rows => simp [isRectangular, Function.comp_def]

theorem blockValid_withoutEmptyMarks (block : ContentBlock) :
    block.withoutEmptyMarks.valid = block.valid := by
  cases block with
  | paragraph content => exact paragraphValid_withoutEmptyMarks content
  | list type content => exact itemsValid_withoutEmptyMarks content
  | table content =>
    rw [ContentBlock.withoutEmptyMarks, ContentBlock.valid, ContentBlock.valid, isRectangular_map]
    simp only [List.all_map, Function.comp_def, rowValid, cellValid,
      paragraphValid_withoutEmptyMarks, List.isEmpty_map]
    rfl
  | _ => rfl

theorem within_withoutEmptyMarks (inline : ContentInline) :
    inline.withoutEmptyMarks.Within ↔ inline.Within := by
  cases inline <;> exact Iff.rfl

theorem paragraphWithin_withoutEmptyMarks (content : ContentParagraph) (depth : Nat) :
    ParagraphWithin (content.map (·.withoutEmptyMarks)) depth ↔ ParagraphWithin content depth := by
  simp only [ParagraphWithin, List.forall_mem_map, within_withoutEmptyMarks]

theorem listDepth_withoutEmptyMarks (child : ContentItemChild) (listDepth : Nat) :
    child.withoutEmptyMarks.listDepth listDepth = child.listDepth listDepth := by
  cases child <;> rw [ContentItemChild.withoutEmptyMarks, ContentItemChild.listDepth,
    ContentItemChild.listDepth]

mutual

theorem itemChildWithin_withoutEmptyMarks : ∀ (child : ContentItemChild) (depth listDepth : Nat),
    child.withoutEmptyMarks.Within depth listDepth ↔ child.Within depth listDepth
  | .paragraph content, depth, listDepth => by
    rw [ContentItemChild.withoutEmptyMarks, ContentItemChild.Within, ContentItemChild.Within,
      paragraphWithin_withoutEmptyMarks]
  | .list type content, depth, listDepth => by
    rw [ContentItemChild.withoutEmptyMarks, ContentItemChild.Within, ContentItemChild.Within,
      itemsWithin_withoutEmptyMarks content]

theorem itemsWithin_withoutEmptyMarks : ∀ (items : List ContentListItem) (depth listDepth : Nat),
    ItemsWithin (itemsWithoutEmptyMarks items) depth listDepth ↔ ItemsWithin items depth listDepth
  | [], depth, listDepth => Iff.rfl
  | item :: items, depth, listDepth => by
    rw [itemsWithoutEmptyMarks, ItemsWithin, ItemsWithin, itemWithin_withoutEmptyMarks item,
      itemsWithin_withoutEmptyMarks items]

theorem itemWithin_withoutEmptyMarks : ∀ (item : ContentListItem) (depth listDepth : Nat),
    ItemWithin (itemWithoutEmptyMarks item) depth listDepth ↔ ItemWithin item depth listDepth
  | [], depth, listDepth => Iff.rfl
  | child :: children, depth, listDepth => by
    rw [itemWithoutEmptyMarks, ItemWithin, ItemWithin, listDepth_withoutEmptyMarks,
      itemChildWithin_withoutEmptyMarks child, itemWithin_withoutEmptyMarks children]

end

mutual

theorem itemChildNodes_withoutEmptyMarks :
    ∀ child : ContentItemChild, child.withoutEmptyMarks.nodes = child.nodes
  | .paragraph content => by
    rw [ContentItemChild.withoutEmptyMarks, ContentItemChild.nodes, ContentItemChild.nodes,
      paragraphNodes, paragraphNodes, List.length_map]
  | .list type content => by
    rw [ContentItemChild.withoutEmptyMarks, ContentItemChild.nodes, ContentItemChild.nodes,
      itemsNodes_withoutEmptyMarks content]

theorem itemsNodes_withoutEmptyMarks :
    ∀ items : List ContentListItem, itemsNodes (itemsWithoutEmptyMarks items) = itemsNodes items
  | [] => rfl
  | item :: items => by
    rw [itemsWithoutEmptyMarks, itemsNodes, itemsNodes, itemNodes_withoutEmptyMarks item,
      itemsNodes_withoutEmptyMarks items]

theorem itemNodes_withoutEmptyMarks :
    ∀ item : ContentListItem, itemNodes (itemWithoutEmptyMarks item) = itemNodes item
  | [] => rfl
  | child :: children => by
    rw [itemWithoutEmptyMarks, itemNodes, itemNodes, itemChildNodes_withoutEmptyMarks child,
      itemNodes_withoutEmptyMarks children]

end

theorem countAll_map {α β : Type} (f : β → Nat) (g : α → β) (l : List α) :
    countAll f (l.map g) = countAll (fun a => f (g a)) l := by
  induction l with
  | nil => rfl
  | cons a l ih => rw [List.map_cons, countAll, countAll, ih]

theorem blockWithin_withoutEmptyMarks (block : ContentBlock) (depth listDepth : Nat)
    (h : block.Within depth listDepth) :
    block.withoutEmptyMarks.Within depth listDepth := by
  cases block with
  | paragraph content => exact (paragraphWithin_withoutEmptyMarks content depth).mpr h
  | list type content => exact ⟨h.1, (itemsWithin_withoutEmptyMarks content depth listDepth).mpr h.2⟩
  | table content =>
    obtain ⟨hd, ht, hdeep⟩ := h
    refine ⟨hd, ⟨by simpa using ht.rows, fun row hrow => ?_, ?_⟩, fun row hrow hne => ?_⟩
    · obtain ⟨row, hmem, rfl⟩ := List.mem_map.mp hrow
      simpa using ht.cols row hmem
    · rw [countAll_map]
      simpa using ht.cells
    · obtain ⟨row, hmem, rfl⟩ := List.mem_map.mp hrow
      exact hdeep row hmem fun hnil => hne (by rw [hnil]; rfl)
  | _ => exact h

theorem blockNodes_withoutEmptyMarks (block : ContentBlock) :
    block.withoutEmptyMarks.nodes = block.nodes ∧
    block.withoutEmptyMarks.cellNodes = block.cellNodes := by
  cases block with
  | paragraph content => exact ⟨congrArg (· + 1) (List.length_map _), rfl⟩
  | list type content => exact ⟨congrArg (· + 1) (itemsNodes_withoutEmptyMarks content), rfl⟩
  | table content =>
    simp only [ContentBlock.withoutEmptyMarks, ContentBlock.nodes, ContentBlock.cellNodes,
      rowCellNodes, countAll_map, paragraphNodes, List.length_map]
    exact ⟨rfl, rfl⟩
  | _ => exact ⟨rfl, rfl⟩

/-! ## The serialized size -/

def Shorter [Host] (a b : Json) : Prop := (jsonStringify a).length ≤ (jsonStringify b).length

theorem length_joinWith_le {sep : JsString} {ss ts : List JsString}
    (h : List.Forall₂ (fun s t => s.length ≤ t.length) ss ts) :
    (joinWith sep ss).length ≤ (joinWith sep ts).length := by
  induction h with
  | nil => exact Nat.le_refl _
  | cons hst hrest ih =>
    cases hrest with
    | nil => exact hst
    | cons _ _ =>
      simp only [joinWith, List.length_append] at ih ⊢
      omega

section
variable [Host]

theorem nodeWith_shorter {type : String} {xs ys : List Json} (h : List.Forall₂ Shorter xs ys) :
    Shorter (nodeWith type xs) (nodeWith type ys) := by
  have helements : List.Forall₂ (fun s t => s.length ≤ t.length) (jsonStringifyElements xs)
      (jsonStringifyElements ys) := by
    induction h with
    | nil => exact .nil
    | cons hxy _ ih => exact .cons hxy ih
  rw [Shorter, length_nodeWith, length_nodeWith]
  have hlength := @length_joinWith_le (js ",") _ _ helements
  omega

theorem inlineJson_shorter (inline : ContentInline) :
    Shorter inline.withoutEmptyMarks.toJson inline.toJson := by
  cases inline with
  | text run marks =>
    rcases marks with _ | _ | ⟨m, ms⟩
    · exact Nat.le_refl _
    · show (jsonStringify (ContentInline.text run none).toJson).length ≤ _
      simp only [ContentInline.toJson, nodeJson, marksField, jsonStringify, jsonStringifyEntries,
        joinWith, List.length_append]
      omega
    · exact Nat.le_refl _
  | _ => exact Nat.le_refl _

theorem shorter_map {α : Type} {write : α → Json} {f : α → α} {l : List α}
    (h : ∀ a ∈ l, Shorter (write (f a)) (write a)) :
    List.Forall₂ Shorter ((l.map f).map write) (l.map write) := by
  induction l with
  | nil => exact .nil
  | cons a l ih =>
    rw [List.forall_mem_cons] at h
    exact .cons h.1 (ih h.2)

theorem paragraphJson_shorter (content : ContentParagraph) :
    Shorter (paragraphJson (content.map (·.withoutEmptyMarks))) (paragraphJson content) :=
  nodeWith_shorter (shorter_map fun inline _ => inlineJson_shorter inline)

theorem itemsJson_shorter {items : List ContentListItem}
    (h : ∀ item ∈ items, ∀ child ∈ item, Shorter child.withoutEmptyMarks.toJson child.toJson) :
    List.Forall₂ Shorter (itemsJson (itemsWithoutEmptyMarks items)) (itemsJson items) := by
  rw [itemsJson_eq, itemsJson_eq, itemsWithoutEmptyMarks_eq]
  refine shorter_map fun item hitem => nodeWith_shorter ?_
  rw [itemJson_eq, itemJson_eq, itemWithoutEmptyMarks_eq]
  exact shorter_map (h item hitem)

theorem itemChildJson_shorter (child : ContentItemChild) :
    Shorter child.withoutEmptyMarks.toJson child.toJson := by
  induction child using ContentItemChild.induct with
  | paragraph content =>
    rw [ContentItemChild.withoutEmptyMarks, ContentItemChild.toJson, ContentItemChild.toJson]
    exact paragraphJson_shorter content
  | list type items ih =>
    rw [ContentItemChild.withoutEmptyMarks, ContentItemChild.toJson, ContentItemChild.toJson]
    exact nodeWith_shorter (itemsJson_shorter ih)

theorem blockJson_shorter (block : ContentBlock) :
    Shorter block.withoutEmptyMarks.toJson block.toJson := by
  cases block with
  | paragraph content => exact paragraphJson_shorter content
  | list type items =>
    exact nodeWith_shorter (itemsJson_shorter fun _ _ child _ => itemChildJson_shorter child)
  | table content =>
    refine nodeWith_shorter (shorter_map fun row _ => nodeWith_shorter
        (shorter_map fun cell _ => nodeWith_shorter ?_))
    exact shorter_map fun paragraph _ => paragraphJson_shorter paragraph
  | _ => exact Nat.le_refl _

theorem documentJson_shorter (doc : ContentDocumentV1) :
    Shorter doc.withoutEmptyMarks.toJson doc.toJson := by
  -- a document is as long as a node with its blocks, up to a constant
  have hblocks :=
    @nodeWith_shorter _ "doc" _ _
      (shorter_map fun block (_ : block ∈ doc.content) => blockJson_shorter block)
  rw [Shorter, length_nodeWith, length_nodeWith] at hblocks
  rw [Shorter, length_toJson, length_toJson]
  exact Nat.add_le_add_right
    (Nat.add_le_add_left (by simpa [ContentDocumentV1.withoutEmptyMarks] using hblocks) _) _

theorem schema_withoutEmptyMarks {value : Json} {doc : ContentDocumentV1}
    (h : ContentDocumentV1Schema value = some doc) :
    ContentDocumentV1Schema doc.withoutEmptyMarks.toJson = some doc.withoutEmptyMarks := by
  obtain ⟨hvalid, hlimits⟩ := ContentDocumentV1Schema_valid h
  obtain ⟨hwithin, hnodes⟩ := (checkContentDocumentLimits_eq_nil doc).mp hlimits
  refine ContentDocumentV1Schema_written.mpr ⟨?_,
    (checkContentDocumentLimits_eq_nil _).mpr ⟨⟨?_, ?_⟩, ?_⟩⟩
  · simp only [ContentDocumentV1.valid, ContentDocumentV1.withoutEmptyMarks, List.all_map,
      Function.comp_def, blockValid_withoutEmptyMarks]
    exact hvalid
  · exact (documentJson_shorter doc).trans hwithin.serialized
  · intro block hblock
    obtain ⟨block, hmem, rfl⟩ := List.mem_map.mp hblock
    exact blockWithin_withoutEmptyMarks block 1 1 (hwithin.blocks block hmem)
  · have hsame : doc.withoutEmptyMarks.nodes = doc.nodes ∧
        doc.withoutEmptyMarks.cellNodes = doc.cellNodes := by
      simp only [ContentDocumentV1.nodes, ContentDocumentV1.cellNodes,
        ContentDocumentV1.withoutEmptyMarks, countAll_map, blockNodes_withoutEmptyMarks, and_self]
    rw [hsame.1, hsame.2]
    exact hnodes

/-! ## Classification and canonicalization -/

theorem schema_envelope {value : Json} {doc : ContentDocumentV1}
    (h : ContentDocumentV1Schema value = some doc) :
    preflightContentDocumentStructure value = [] ∧ isContentDocumentV1 value = true ∧
    hasUnsupportedVersion value = false := by
  rw [ContentDocumentV1Schema] at h
  split at h
  · rename_i hpreflight
    have hnil := List.isEmpty_iff.mp hpreflight
    refine ⟨hnil, ?_⟩
    cases value with
    | obj entries =>
      have henvelope : envelopeViolations entries = [] := by
        simp only [preflightContentDocumentStructure] at hnil
        split at hnil
        · exact (List.append_eq_nil_iff.mp (List.append_eq_nil_iff.mp hnil).1).2
        · exact (List.append_eq_nil_iff.mp hnil).2
      obtain ⟨hhead, hcontent⟩ := List.append_eq_nil_iff.mp henvelope
      obtain ⟨hversion, htype⟩ := List.append_eq_nil_iff.mp hhead
      have hversion : fieldIs entries "docVersion" (.num CONTENT_DOC_VERSION) = true := by
        cases hv : fieldIs entries "docVersion" (.num CONTENT_DOC_VERSION) with
        | true => rfl
        | false => simp [hv] at hversion
      have htype : fieldIs entries "type" (.str (js "doc")) = true := by
        cases hv : fieldIs entries "type" (.str (js "doc")) with
        | true => rfl
        | false => simp [hv] at htype
      have hcontent : isArray (fieldOf entries "content") = true := by
        cases hv : isArray (fieldOf entries "content") with
        | true => rfl
        | false => simp [hv] at hcontent
      refine ⟨by rw [isContentDocumentV1, hversion, htype, hcontent]; rfl, ?_⟩
      simp only [hasUnsupportedVersion]
      split
      · rename_i n hn
        rw [fieldIs, hn] at hversion
        rw [Bool.not_eq_false']
        exact hversion
      · rfl
    | _ => cases h
  · cases h

theorem classifyRichDocument_schema (value : Json) (doc : ContentDocumentV1) :
    classifyRichDocument value = .richValid doc ↔
      ContentDocumentV1Schema value = some doc ∧ ∃ v, canonicalizeContentDocument doc = some v ∧
      contentDocumentsEqual doc v = true := by
  rw [classifyRichDocument]
  cases hschema : ContentDocumentV1Schema value with
  | none =>
    have hne : ∀ {c : Prop} [Decidable c] {r s : RichAnswerReadState}, r ≠ .richValid doc →
        s ≠ .richValid doc → (if c then r else s) ≠ .richValid doc := by
      intro c _ r s hr hs
      split
      · exact hr
      · exact hs
    refine iff_of_false (hne (by simp) (hne (by simp) (hne (by simp) (by simp)))) (by simp)
  | some parsed =>
    obtain ⟨hpreflight, hdoc, hversion⟩ := schema_envelope hschema
    simp only [hpreflight, hdoc, hversion, Bool.not_true, Bool.false_eq_true, if_false,
      List.isEmpty_nil, Option.some.injEq]
    cases hcanonical : canonicalizeContentDocument parsed with
    | none =>
      refine iff_of_false (by simp) ?_
      rintro ⟨rfl, v, hv, -⟩
      rw [hcanonical] at hv
      cases hv
    | some v =>
      show (if contentDocumentsEqual parsed v then RichAnswerReadState.richValid parsed
        else .richNoncanonical parsed) = .richValid doc ↔ _
      split
      · rename_i hequal
        constructor
        · intro h
          obtain rfl := RichAnswerReadState.richValid.inj h
          exact ⟨rfl, v, hcanonical, hequal⟩
        · rintro ⟨rfl, -⟩
          rfl
      · rename_i hequal
        refine iff_of_false (by simp) ?_
        rintro ⟨rfl, w, hw, heq⟩
        obtain rfl := Option.some.inj (hcanonical.symm.trans hw)
        exact hequal heq

theorem classify_rich_valid (value : Json) (provenance : Bool) (doc : ContentDocumentV1) :
    classifyPersistedRichAnswer value (some "rich") provenance = .richValid doc ↔
      ContentDocumentV1Schema value = some doc ∧
        canonicalizeContentDocument doc = some doc.withoutEmptyMarks := by
  have hrich : classifyPersistedRichAnswer value (some "rich") provenance = .richValid doc ↔
      classifyRichDocument value = .richValid doc := by
    cases value with
    | null =>
      exact iff_of_false (by simp [classifyPersistedRichAnswer, Json.isNull])
        (by simp [classifyRichDocument, hasUnsupportedVersion, isContentDocumentV1])
    | str text =>
      refine iff_of_false ?_ (by simp [classifyRichDocument, hasUnsupportedVersion,
          isContentDocumentV1])
      cases provenance <;> simp [classifyPersistedRichAnswer, Json.isNull]
    | _ => exact Iff.rfl
  rw [hrich, classifyRichDocument_schema]
  refine and_congr_right fun _ => ⟨?_, fun h => ?_⟩
  · rintro ⟨v, hv, hequal⟩
    obtain ⟨rfl, -⟩ := canonicalizeContentDocument_some hv
    rw [contentDocumentsEqual_iff, (normalizeContentDocument_canonical doc).withoutEmptyMarks] at hequal
    rw [hequal]
    exact hv
  · refine ⟨_, h, ?_⟩
    obtain ⟨hnormal, -⟩ := canonicalizeContentDocument_some h
    rw [contentDocumentsEqual_iff, hnormal, (normalizeContentDocument_canonical doc).withoutEmptyMarks]

/-- The codec reads a value as a valid rich answer exactly when canonicalization
reproduces its document, if and only if the value has no document that is canonical
but for empty lists of marks. -/
theorem rich_valid_reproduced (value : Json) (provenance : Bool) :
    ((∃ doc, classifyPersistedRichAnswer value (some "rich") provenance = .richValid doc) ↔
      ∃ doc, ContentDocumentV1Schema value = some doc ∧ canonicalizeContentDocument doc = some doc) ↔
    ∀ doc, ContentDocumentV1Schema value = some doc → doc.withoutEmptyMarks.Canonical →
    doc.withoutEmptyMarks = doc := by
  simp only [classify_rich_valid]
  constructor
  · intro h doc hschema hcanonical
    have hnormal : normalizeContentDocument doc = doc.withoutEmptyMarks :=
      (normalizeContentDocument_withoutEmptyMarks doc).symm.trans
        (normalizeContentDocument_eq_self.mpr hcanonical)
    have haccepted : canonicalizeContentDocument doc = some doc.withoutEmptyMarks := by
      rw [canonicalizeContentDocument, hnormal]
      exact schema_withoutEmptyMarks hschema
    obtain ⟨other, hother, hsame⟩ := h.mp ⟨doc, hschema, haccepted⟩
    obtain rfl := Option.some.inj (hschema.symm.trans hother)
    exact Option.some.inj (haccepted.symm.trans hsame)
  · intro h
    constructor
    · rintro ⟨doc, hschema, haccepted⟩
      have hcanonical : doc.withoutEmptyMarks.Canonical := by
        rw [(canonicalizeContentDocument_some haccepted).1]
        exact normalizeContentDocument_canonical doc
      rw [h doc hschema hcanonical] at haccepted
      exact ⟨doc, hschema, haccepted⟩
    · rintro ⟨doc, hschema, haccepted⟩
      have hcanonical : doc.Canonical :=
        (canonicalizeContentDocument_some haccepted).1 ▸ normalizeContentDocument_canonical doc
      exact ⟨doc, hschema, hcanonical.withoutEmptyMarks.symm ▸ haccepted⟩

end

/-- A document whose one run of text has an empty list of marks. -/
def sampleEmptyMarks : ContentDocumentV1 := ⟨[.paragraph [.text (js "a") (some [])]]⟩

theorem rich_valid_reproduced_counterexample :
    (∃ doc, @classifyPersistedRichAnswer sampleHost sampleEmptyMarks.toJson
        (some "rich") false = .richValid doc) ∧
    (¬ ∃ doc, @ContentDocumentV1Schema sampleHost sampleEmptyMarks.toJson = some doc ∧
      @canonicalizeContentDocument sampleHost doc = some doc) ∧
    ∃ v, @canonicalizeContentDocument sampleHost sampleEmptyMarks = some v ∧
      @serializeAnswerIdentityValue sampleHost sampleEmptyMarks.toJson ≠
        @serializeAnswerIdentityValue sampleHost v.toJson := by
  let _ : Host := sampleHost
  have hschema : ContentDocumentV1Schema sampleEmptyMarks.toJson = some sampleEmptyMarks :=
    ContentDocumentV1Schema_written.mpr ⟨by decide +kernel, by decide +kernel⟩
  have hnormal : normalizeContentDocument sampleEmptyMarks = sampleEmptyMarks.withoutEmptyMarks := rfl
  have haccepted : canonicalizeContentDocument
      sampleEmptyMarks = some sampleEmptyMarks.withoutEmptyMarks := by
    rw [canonicalizeContentDocument, hnormal]
    exact schema_withoutEmptyMarks hschema
  refine ⟨⟨_, (classify_rich_valid _ _ _).mpr ⟨hschema, haccepted⟩⟩, ?_, _,
    haccepted, by decide +kernel⟩
  rintro ⟨doc, hdoc, hsame⟩
  obtain rfl := Option.some.inj (hschema.symm.trans hdoc)
  have hmarks := Option.some.inj (haccepted.symm.trans hsame)
  simp [sampleEmptyMarks, ContentDocumentV1.withoutEmptyMarks, ContentBlock.withoutEmptyMarks,
    ContentInline.withoutEmptyMarks] at hmarks

end ExamSystem
