import ExamSystem.ContentLimits
import ExamSystem.ContentNormal

/-!
# The wire schema of documents

Parsing an unknown value into a document, and the canonicalization that every
write of a document goes through. What it accepts is canonical, passes the
schema, and canonicalizes to itself.
-/

namespace ExamSystem

/-! ## Leaves -/

/-- The test of `UNREPRESENTABLE_CHAR` after a unit that is a high surrogate or not. -/
def unrepresentableFrom : Bool → JsString → Bool
  | _, [] => false
  | afterHigh, u :: rest =>
    u == 0 || (isHighSurrogate u && !(rest.head?.any isLowSurrogate)) ||
      (isLowSurrogate u && !afterHigh) ||
      unrepresentableFrom (isHighSurrogate u) rest

def isDurableRichString (value : JsString) : Bool := !unrepresentableFrom false value

def durableWithin (min max : Nat) (s : JsString) : Bool :=
  decide (min ≤ s.length) && decide (s.length ≤ max) && isDurableRichString s

def parseString (valid : JsString → Bool) : Json → Option JsString
  | .str s => if valid s then some s else none
  | _ => none

section
variable {α : Type}

def parseAll (parse : Json → Option α) : List Json → Option (List α)
  | [] => some []
  | element :: elements => (parse element).bind fun a => (parseAll parse elements).map (a :: ·)

def parseArray (parse : Json → Option α) : Json → Option (List α)
  | .arr elements => parseAll parse elements
  | _ => none

def isNode (type : String) (keys : List String) (entries : List (JsString × Json)) : Bool :=
  fieldIs entries "type" (.str (js type)) && entries.all fun e => (("type" :: keys).map js).contains e.1

def parseField (parse : Json → Option α) (entries : List (JsString × Json)) (key : String) :
    Option α := (fieldOf entries key).bind parse

def parseNode (type : String) (parse : Json → Option α) : Json → Option (List α)
  | .obj entries => if isNode type ["content"] entries then parseField
      (parseArray parse) entries "content" else none
  | _ => none

end

def parseMark : Json → Option ContentMarkType
  | .str s => MARK_CANONICAL_ORDER.find? fun mark => mark.text = s
  | _ => none

def marksValid (marks : List ContentMarkType) : Bool :=
  !(marks.contains .inlineCode && decide (1 < marks.length))

def parseMarks (entries : List (JsString × Json)) : Option (Option (List ContentMarkType)) :=
  match fieldOf entries "marks" with
  | none => some none
  | some value => ((parseArray parseMark value).filter marksValid).map some

/-! ## The grammar -/

def TextRunSchema (entries : List (JsString × Json)) : Option ContentInline :=
  (parseField (parseString (durableWithin 0 CONTENT_LIMITS.textRun)) entries "text").bind fun run =>
    (parseMarks entries).map (.text run)

def LatexSchema (entries : List (JsString × Json)) : Option JsString :=
  parseField (parseString (durableWithin 1 CONTENT_LIMITS.latex)) entries "latex"

def ContentInlineSchema : Json → Option ContentInline
  | .obj entries =>
    if isNode "text" ["text", "marks"] entries then TextRunSchema entries
    else if isNode "hardBreak" [] entries then some .hardBreak
    else if isNode "inlineMath" ["latex"] entries then (LatexSchema entries).map .inlineMath
    else none
  | _ => none

def ParagraphSchema : Json → Option ContentParagraph := parseNode "paragraph" ContentInlineSchema

mutual

def ItemChildSchema : Json → Option ContentItemChild
  | .obj entries =>
    if isNode "paragraph" ["content"] entries then
      (parseField (parseArray ContentInlineSchema) entries "content").map .paragraph
    else if isNode "bulletList" ["content"] entries then (itemsField entries).map (.list .bulletList)
    else if isNode "orderedList" ["content"] entries then (itemsField entries).map (.list .orderedList)
    else none
  | _ => none

def itemsField : List (JsString × Json) → Option (List ContentListItem)
  | [] => none
  | (key, value) :: entries => if js "content" == key then parseItems value else itemsField entries

def parseItems : Json → Option (List ContentListItem)
  | .arr elements => parseItemList elements
  | _ => none

def parseItemList : List Json → Option (List ContentListItem)
  | [] => some []
  | element :: elements => (ListItemSchema element).bind fun item =>
    (parseItemList elements).map (item :: ·)

def ListItemSchema : Json → Option ContentListItem
  | .obj entries => if isNode "listItem" ["content"] entries then childrenField entries else none
  | _ => none

def childrenField : List (JsString × Json) → Option ContentListItem
  | [] => none
  | (key, value) :: entries => if js "content" == key then parseChildren value
      else childrenField entries

def parseChildren : Json → Option ContentListItem
  | .arr elements => parseChildList elements
  | _ => none

def parseChildList : List Json → Option ContentListItem
  | [] => some []
  | element :: elements => (ItemChildSchema element).bind fun child =>
    (parseChildList elements).map (child :: ·)

end

def TableCellSchema (value : Json) : Option ContentTableCell :=
  (parseNode "tableCell" ParagraphSchema value).filter fun cell => !cell.isEmpty

def TableRowSchema (value : Json) : Option ContentTableRow :=
  (parseNode "tableRow" TableCellSchema value).filter fun row => !row.isEmpty

def isRectangular (rows : List ContentTableRow) : Bool :=
  let width := (rows.head?.map List.length).getD 0
  rows.all fun row => row.length == width

def TableSchema (value : Json) : Option (List ContentTableRow) :=
  (parseNode "table" TableRowSchema value).filter fun rows => !rows.isEmpty && isRectangular rows

def parseLanguage : Json → Option (Option JsString)
  | .null => some none
  | .str s => if isCodeLanguage s then some (some s) else none
  | _ => none

def CodeBlockSchema (entries : List (JsString × Json)) : Option ContentBlock :=
  (parseField parseLanguage entries "language").bind fun language =>
    (parseField (parseString (durableWithin 0 CONTENT_LIMITS.codeBlock)) entries "text").map
      (.codeBlock language)

def ContentBlockSchema (value : Json) : Option ContentBlock :=
  match value with
  | .obj entries =>
    if isNode "codeBlock" ["language", "text"] entries then CodeBlockSchema entries
    else if isNode "blockMath" ["latex"] entries then (LatexSchema entries).map .blockMath
    else if isNode "table" ["content"] entries then (TableSchema value).map .table
    else if isNode "paragraph" ["content"] entries then (ParagraphSchema value).map .paragraph
    else if isNode "bulletList" ["content"] entries then
      (parseNode "bulletList" ListItemSchema value).map (.list .bulletList)
    else if isNode "orderedList" ["content"] entries then
      (parseNode "orderedList" ListItemSchema value).map (.list .orderedList)
    else none
  | _ => none

section
variable [Host]

def RecursiveContentDocumentV1Schema : Json → Option ContentDocumentV1
  | .obj entries =>
    if fieldIs entries "docVersion" (.num CONTENT_DOC_VERSION) && isNode "doc" ["docVersion",
      "content"] entries then
      ((parseField (parseArray ContentBlockSchema) entries "content").map .mk).filter fun doc =>
        (checkContentDocumentLimits doc).isEmpty
    else none
  | _ => none

/-- The document that `safeParse` yields, when it succeeds. -/
def ContentDocumentV1Schema (value : Json) : Option ContentDocumentV1 :=
  if (preflightContentDocumentStructure value).isEmpty then RecursiveContentDocumentV1Schema value
    else none

def canonicalizeContentDocument (doc : ContentDocumentV1) : Option ContentDocumentV1 :=
  ContentDocumentV1Schema (normalizeContentDocument doc).toJson

end

/-! ## Valid documents -/

def ContentInline.valid : ContentInline → Bool
  | .text run marks => durableWithin 0 CONTENT_LIMITS.textRun run && marks.all marksValid
  | .hardBreak => true
  | .inlineMath latex => durableWithin 1 CONTENT_LIMITS.latex latex

def paragraphValid (content : ContentParagraph) : Bool := content.all (·.valid)

mutual

def ContentItemChild.valid : ContentItemChild → Bool
  | .paragraph content => paragraphValid content
  | .list _ content => itemsValid content

def itemsValid : List ContentListItem → Bool
  | [] => true
  | item :: items => itemValid item && itemsValid items

def itemValid : ContentListItem → Bool
  | [] => true
  | child :: children => child.valid && itemValid children

end

def cellValid (cell : ContentTableCell) : Bool := cell.all paragraphValid && !cell.isEmpty

def rowValid (row : ContentTableRow) : Bool := row.all cellValid && !row.isEmpty

def ContentBlock.valid : ContentBlock → Bool
  | .paragraph content => paragraphValid content
  | .list _ content => itemsValid content
  | .codeBlock language text =>
    language.all isCodeLanguage && durableWithin 0 CONTENT_LIMITS.codeBlock text
  | .blockMath latex => durableWithin 1 CONTENT_LIMITS.latex latex
  | .table content => content.all rowValid && (!content.isEmpty && isRectangular content)

/-! ## Reading a node back -/

section
variable {α : Type} {parse : Json → Option α}

theorem parseAll_map {write : α → Json} {valid : α → Bool} {xs : List α}
    (h : ∀ x ∈ xs, parse (write x) = if valid x then some x else none) :
    parseAll parse (xs.map write) = if xs.all valid then some xs else none := by
  induction xs with
  | nil => rfl
  | cons x xs ih =>
    rw [List.forall_mem_cons] at h
    rw [List.map_cons, parseAll, h.1, ih h.2, List.all_cons]
    cases valid x <;> cases xs.all valid <;> rfl

theorem mem_parseAll {elements : List Json} {xs : List α} (h : parseAll parse elements = some xs)
    {x : α} (hx : x ∈ xs) :
    ∃ element ∈ elements, parse element = some x := by
  induction elements generalizing xs with
  | nil =>
    obtain rfl := Option.some.inj h
    exact absurd hx List.not_mem_nil
  | cons element elements ih =>
    simp only [parseAll, Option.bind_eq_some_iff, Option.map_eq_some_iff] at h
    obtain ⟨a, ha, rest, hrest, rfl⟩ := h
    rcases List.mem_cons.mp hx with rfl | hx
    · exact ⟨element, List.mem_cons_self, ha⟩
    · obtain ⟨e, he, hparse⟩ := ih hrest hx
      exact ⟨e, List.mem_cons_of_mem element he, hparse⟩

theorem mem_parseNode {type : String} {value : Json} {xs : List α}
    (h : parseNode type parse value = some xs) {x : α} (hx : x ∈ xs) :
    ∃ element, parse element = some x := by
  cases value with
  | obj entries =>
    simp only [parseNode] at h
    split at h
    · obtain ⟨v, -, hv⟩ := Option.bind_eq_some_iff.mp h
      cases v with
      | arr elements =>
        obtain ⟨e, -, he⟩ := mem_parseAll hv hx
        exact ⟨e, he⟩
      | _ => cases hv
    · cases h
  | _ => cases h

theorem parseField_valid {valid : JsString → Bool} {entries : List (JsString × Json)} {key : String}
    {s : JsString} (h : parseField (parseString valid) entries key = some s) : valid s = true := by
  obtain ⟨v, -, hv⟩ := Option.bind_eq_some_iff.mp h
  cases v with
  | str t =>
    simp only [parseString] at hv
    split at hv
    · rename_i hvalid
      exact Option.some.inj hv ▸ hvalid
    · cases hv
  | _ => cases hv

end

/-! ## Inlines -/

theorem parseArray_marks (marks : List ContentMarkType) :
    parseArray parseMark (.arr (marks.map fun mark => .str mark.text)) = some marks := by
  have hall := @parseAll_map _ parseMark (fun mark => .str mark.text)
    (fun _ => true) marks fun mark _ => by cases mark <;> rfl
  rw [List.all_eq_true.mpr fun _ _ => rfl] at hall
  exact hall

theorem TextRunSchema_written (run : JsString) (marks : Option (List ContentMarkType)) :
    TextRunSchema ((js "type", .str (js "text")) :: (js "text", .str run) :: marksField marks) =
      if (ContentInline.text run marks).valid then some (.text run marks) else none := by
  have hrun : parseField (parseString (durableWithin 0 CONTENT_LIMITS.textRun))
      ((js "type", .str (js "text")) :: (js "text", .str run) :: marksField marks) "text" =
      if durableWithin 0 CONTENT_LIMITS.textRun run then some run else none := rfl
  have hmarks : parseMarks ((js "type", .str (js "text")) :: (js "text",
      .str run) :: marksField marks) =
      if marks.all marksValid then some marks else none := by
    cases marks with
    | none => rfl
    | some marks =>
      show ((parseArray parseMark (.arr (marks.map fun mark => .str mark.text))).filter
          marksValid).map some = _
      rw [parseArray_marks, Option.all_some, Option.filter_some]
      cases marksValid marks <;> rfl
  rw [TextRunSchema, hrun, hmarks, ContentInline.valid]
  cases durableWithin 0 CONTENT_LIMITS.textRun run <;> cases marks.all marksValid <;> rfl

theorem ContentInlineSchema_toJson (inline : ContentInline) :
    ContentInlineSchema inline.toJson = if inline.valid then some inline else none := by
  cases inline with
  | text run marks =>
    have hnode : ContentInlineSchema (ContentInline.text run marks).toJson =
        TextRunSchema ((js "type", .str (js "text")) :: (js "text", .str run) :: marksField marks) := by
      cases marks <;> rfl
    rw [hnode, TextRunSchema_written]
  | hardBreak => rfl
  | inlineMath latex =>
    show (if durableWithin 1 CONTENT_LIMITS.latex latex then some latex else none).map
      ContentInline.inlineMath = _
    rw [ContentInline.valid]
    cases durableWithin 1 CONTENT_LIMITS.latex latex <;> rfl

theorem parseMarks_valid {entries : List (JsString × Json)} {marks : Option (List ContentMarkType)}
    (h : parseMarks entries = some marks) :
    marks.all marksValid = true := by
  simp only [parseMarks] at h
  split at h
  · obtain rfl := Option.some.inj h
    rfl
  · obtain ⟨ms, hms, rfl⟩ := Option.map_eq_some_iff.mp h
    exact (Option.filter_eq_some_iff.mp hms).2

theorem ContentInlineSchema_valid {value : Json} {inline : ContentInline}
    (h : ContentInlineSchema value = some inline) :
    inline.valid = true := by
  cases value with
  | obj entries =>
    simp only [ContentInlineSchema] at h
    split at h
    · obtain ⟨run, hrun, htext⟩ := Option.bind_eq_some_iff.mp h
      obtain ⟨marks, hmarks, rfl⟩ := Option.map_eq_some_iff.mp htext
      rw [ContentInline.valid, parseField_valid hrun, parseMarks_valid hmarks]
      rfl
    split at h
    · obtain rfl := Option.some.inj h
      rfl
    split at h
    · obtain ⟨latex, hlatex, rfl⟩ := Option.map_eq_some_iff.mp h
      exact parseField_valid hlatex
    · cases h
  | _ => cases h

theorem ParagraphSchema_written (content : ContentParagraph) :
    ParagraphSchema (paragraphJson content) = if paragraphValid content then some content else none :=
  parseAll_map fun inline _ => ContentInlineSchema_toJson inline

theorem ParagraphSchema_valid {value : Json} {content : ContentParagraph}
    (h : ParagraphSchema value = some content) :
    paragraphValid content = true := by
  refine List.all_eq_true.mpr fun inline hinline => ?_
  obtain ⟨element, helement⟩ := mem_parseNode h hinline
  exact ContentInlineSchema_valid helement

/-! ## Lists -/

theorem itemsField_eq (entries : List (JsString × Json)) :
    itemsField entries = parseField parseItems entries "content" := by
  induction entries with
  | nil => rfl
  | cons entry entries ih =>
    obtain ⟨key, value⟩ := entry
    rw [itemsField, ih, parseField, parseField, fieldOf, fieldOf, List.lookup_cons]
    cases js "content" == key <;> rfl

theorem childrenField_eq (entries : List (JsString × Json)) :
    childrenField entries = parseField parseChildren entries "content" := by
  induction entries with
  | nil => rfl
  | cons entry entries ih =>
    obtain ⟨key, value⟩ := entry
    rw [childrenField, ih, parseField, parseField, fieldOf, fieldOf, List.lookup_cons]
    cases js "content" == key <;> rfl

theorem parseItems_eq : parseItems = parseArray ListItemSchema := by
  have hlist : parseItemList = parseAll ListItemSchema := by
    funext elements
    induction elements with
    | nil => rfl
    | cons element elements ih => rw [parseItemList, parseAll, ih]
  funext value
  cases value with
  | arr elements => rw [parseItems, hlist, parseArray]
  | _ => rfl

theorem parseChildren_eq : parseChildren = parseArray ItemChildSchema := by
  have hlist : parseChildList = parseAll ItemChildSchema := by
    funext elements
    induction elements with
    | nil => rfl
    | cons element elements ih => rw [parseChildList, parseAll, ih]
  funext value
  cases value with
  | arr elements => rw [parseChildren, hlist, parseArray]
  | _ => rfl

theorem ListItemSchema_eq : ListItemSchema = parseNode "listItem" ItemChildSchema := by
  funext value
  cases value with
  | obj entries => rw [ListItemSchema, childrenField_eq, parseChildren_eq, parseNode]
  | _ => rfl

theorem itemJson_eq (item : ContentListItem) : itemJson item = item.map (·.toJson) := by
  induction item with
  | nil => rfl
  | cons child item ih => rw [itemJson, ih, List.map_cons]

theorem itemsJson_eq (items : List ContentListItem) :
    itemsJson items = items.map fun item => nodeWith "listItem" (itemJson item) := by
  induction items with
  | nil => rfl
  | cons item items ih => rw [itemsJson, ih, List.map_cons]

theorem itemValid_eq (item : ContentListItem) : itemValid item = item.all (·.valid) := by
  induction item with
  | nil => rfl
  | cons child item ih => rw [itemValid, ih, List.all_cons]

theorem itemsValid_eq (items : List ContentListItem) : itemsValid items = items.all itemValid := by
  induction items with
  | nil => rfl
  | cons item items ih => rw [itemsValid, ih, List.all_cons]

theorem parseItems_written {items : List ContentListItem}
    (h : ∀ item ∈ items, ∀ child ∈ item, ItemChildSchema child.toJson = if child.valid then
        some child else none) :
    parseAll ListItemSchema (itemsJson items) = if itemsValid items then some items else none := by
  rw [itemsJson_eq, itemsValid_eq]
  refine parseAll_map fun item hitem => ?_
  rw [ListItemSchema_eq, itemJson_eq, itemValid_eq]
  exact parseAll_map (h item hitem)

theorem ItemChildSchema_list (type : ContentListType) (content : List Json) :
    ItemChildSchema (nodeWith type.text content) = (parseAll ListItemSchema content).map
      (.list type) := by
  have hitems : itemsField [(js "type", .str (js type.text)),
      (js "content", .arr content)] = parseAll ListItemSchema content := by
    rw [itemsField_eq, parseItems_eq]
    rfl
  rw [← hitems]
  cases type <;> rfl

theorem ItemChildSchema_toJson (child : ContentItemChild) :
    ItemChildSchema child.toJson = if child.valid then some child else none := by
  induction child using ContentItemChild.induct with
  | paragraph content =>
    have hnode : ItemChildSchema (paragraphJson content) = (ParagraphSchema
        (paragraphJson content)).map .paragraph := rfl
    rw [ContentItemChild.toJson, hnode, ParagraphSchema_written, ContentItemChild.valid]
    cases paragraphValid content <;> rfl
  | list type items ih =>
    rw [ContentItemChild.toJson, ItemChildSchema_list, parseItems_written ih, ContentItemChild.valid]
    cases itemsValid items <;> rfl

theorem parseItems_valid {value : Json} {type : String} {items : List ContentListItem}
    (h : ∀ item ∈ items, ∀ child ∈ item, ∀ v, ItemChildSchema v = some child → child.valid = true)
    (hparse : parseNode type ListItemSchema value = some items) : itemsValid items = true := by
  rw [itemsValid_eq]
  refine List.all_eq_true.mpr fun item hitem => ?_
  obtain ⟨element, helement⟩ := mem_parseNode hparse hitem
  rw [ListItemSchema_eq] at helement
  rw [itemValid_eq]
  refine List.all_eq_true.mpr fun child hchild => ?_
  obtain ⟨v, hv⟩ := mem_parseNode helement hchild
  exact h item hitem child hchild v hv

theorem parseNode_obj {α : Type} {type : String} {parse : Json → Option α}
    {entries : List (JsString × Json)} (h : isNode type ["content"] entries = true) :
    parseNode type parse (.obj entries) = parseField (parseArray parse) entries "content" :=
  if_pos h

theorem ItemChildSchema_some {value : Json} {child : ContentItemChild}
    (h : ItemChildSchema value = some child) :
    (∃ content, ParagraphSchema value = some content ∧ child = .paragraph content) ∨
      ∃ type items, parseNode type.text ListItemSchema value = some items ∧
      child = .list type items := by
  cases value with
  | obj entries =>
    simp only [ItemChildSchema, itemsField_eq, parseItems_eq] at h
    split at h
    · rename_i hnode
      obtain ⟨content, hcontent, rfl⟩ := Option.map_eq_some_iff.mp h
      exact .inl ⟨content, (parseNode_obj hnode).trans hcontent, rfl⟩
    split at h
    · rename_i hnode
      obtain ⟨items, hitems, rfl⟩ := Option.map_eq_some_iff.mp h
      exact .inr ⟨.bulletList, items, (parseNode_obj hnode).trans hitems, rfl⟩
    split at h
    · rename_i hnode
      obtain ⟨items, hitems, rfl⟩ := Option.map_eq_some_iff.mp h
      exact .inr ⟨.orderedList, items, (parseNode_obj hnode).trans hitems, rfl⟩
    · cases h
  | _ => cases h

theorem ItemChildSchema_valid (child : ContentItemChild) :
    ∀ value, ItemChildSchema value = some child → child.valid = true := by
  induction child using ContentItemChild.induct with
  | paragraph content =>
    intro value h
    rcases ItemChildSchema_some h with ⟨_, hcontent, heq⟩ | ⟨_, _, -, heq⟩
    · obtain rfl := ContentItemChild.paragraph.inj heq
      exact ParagraphSchema_valid hcontent
    · cases heq
  | list type items ih =>
    intro value h
    rcases ItemChildSchema_some h with ⟨_, -, heq⟩ | ⟨_, _, hitems, heq⟩
    · cases heq
    · obtain ⟨rfl, rfl⟩ := ContentItemChild.list.inj heq
      exact parseItems_valid
        (fun item hitem child hchild v hv => ih item hitem child hchild v hv) hitems

/-! ## Blocks -/

theorem TableCellSchema_written (cell : ContentTableCell) :
    TableCellSchema (tableCellJson cell) = if cellValid cell then some cell else none := by
  have hnode : parseNode "tableCell" ParagraphSchema
      (tableCellJson cell) = if cell.all paragraphValid then some cell else none :=
    parseAll_map fun content _ => ParagraphSchema_written content
  rw [TableCellSchema, hnode, cellValid]
  cases cell.all paragraphValid with
  | false => rfl
  | true => rfl

theorem TableRowSchema_written (row : ContentTableRow) :
    TableRowSchema (tableRowJson row) = if rowValid row then some row else none := by
  have hnode : parseNode "tableRow" TableCellSchema (tableRowJson row) = if row.all cellValid then
      some row else none :=
    parseAll_map fun cell _ => TableCellSchema_written cell
  rw [TableRowSchema, hnode, rowValid]
  cases row.all cellValid with
  | false => rfl
  | true => rfl

theorem ContentBlockSchema_toJson (block : ContentBlock) :
    ContentBlockSchema block.toJson = if block.valid then some block else none := by
  cases block with
  | paragraph content =>
    have hnode : ContentBlockSchema (paragraphJson content) = (ParagraphSchema
        (paragraphJson content)).map .paragraph := rfl
    rw [ContentBlock.toJson, hnode, ParagraphSchema_written, ContentBlock.valid]
    cases paragraphValid content <;> rfl
  | list type content =>
    have hnode : ContentBlockSchema (nodeWith type.text (itemsJson content)) =
        (parseAll ListItemSchema (itemsJson content)).map (.list type) := by
      cases type <;> rfl
    rw [ContentBlock.toJson, hnode,
      parseItems_written fun _ _ child _ => ItemChildSchema_toJson child, ContentBlock.valid]
    cases itemsValid content <;> rfl
  | codeBlock language text =>
    cases language with
    | none =>
      show (if durableWithin 0 CONTENT_LIMITS.codeBlock text then some text else none).map
        (ContentBlock.codeBlock none) = _
      rw [ContentBlock.valid, Option.all_none, Bool.true_and]
      cases durableWithin 0 CONTENT_LIMITS.codeBlock text <;> rfl
    | some language =>
      show ((if isCodeLanguage language then some (some language) else none).bind fun language =>
        (if durableWithin 0 CONTENT_LIMITS.codeBlock text then some text else none).map
          (ContentBlock.codeBlock language)) = _
      rw [ContentBlock.valid, Option.all_some]
      cases isCodeLanguage language <;> cases durableWithin 0 CONTENT_LIMITS.codeBlock text <;> rfl
  | blockMath latex =>
    show (if durableWithin 1 CONTENT_LIMITS.latex latex then some latex else none).map
      ContentBlock.blockMath = _
    rw [ContentBlock.valid]
    cases durableWithin 1 CONTENT_LIMITS.latex latex <;> rfl
  | table content =>
    have hnode : parseNode "table" TableRowSchema (ContentBlock.table content).toJson =
        if content.all rowValid then some content else none :=
      parseAll_map fun row _ => TableRowSchema_written row
    show (TableSchema (ContentBlock.table content).toJson).map ContentBlock.table = _
    rw [TableSchema, hnode, ContentBlock.valid]
    cases content.all rowValid with
    | false => rfl
    | true =>
      rw [Bool.true_and, if_pos rfl, Option.filter_some]
      cases !content.isEmpty && isRectangular content <;> rfl

theorem TableCellSchema_valid {value : Json} {cell : ContentTableCell}
    (h : TableCellSchema value = some cell) : cellValid cell = true := by
  obtain ⟨hparse, hne⟩ := Option.filter_eq_some_iff.mp h
  rw [cellValid, hne, Bool.and_true]
  refine List.all_eq_true.mpr fun content hcontent => ?_
  obtain ⟨element, helement⟩ := mem_parseNode hparse hcontent
  exact ParagraphSchema_valid helement

theorem TableRowSchema_valid {value : Json} {row : ContentTableRow}
    (h : TableRowSchema value = some row) : rowValid row = true := by
  obtain ⟨hparse, hne⟩ := Option.filter_eq_some_iff.mp h
  rw [rowValid, hne, Bool.and_true]
  refine List.all_eq_true.mpr fun cell hcell => ?_
  obtain ⟨element, helement⟩ := mem_parseNode hparse hcell
  exact TableCellSchema_valid helement

theorem TableSchema_valid {value : Json} {content : List ContentTableRow}
    (h : TableSchema value = some content) :
    (ContentBlock.table content).valid = true := by
  obtain ⟨hparse, hshape⟩ := Option.filter_eq_some_iff.mp h
  rw [ContentBlock.valid, hshape, Bool.and_true]
  refine List.all_eq_true.mpr fun row hrow => ?_
  obtain ⟨element, helement⟩ := mem_parseNode hparse hrow
  exact TableRowSchema_valid helement

theorem CodeBlockSchema_valid {entries : List (JsString × Json)} {block : ContentBlock}
    (h : CodeBlockSchema entries = some block) :
    block.valid = true := by
  obtain ⟨language, hlanguage, hrest⟩ := Option.bind_eq_some_iff.mp h
  obtain ⟨text, htext, rfl⟩ := Option.map_eq_some_iff.mp hrest
  have hvalid : language.all isCodeLanguage = true := by
    obtain ⟨v, -, hv⟩ := Option.bind_eq_some_iff.mp hlanguage
    cases v with
    | null =>
      obtain rfl := Option.some.inj hv
      rfl
    | str s =>
      simp only [parseLanguage] at hv
      split at hv
      · rename_i hs
        obtain rfl := Option.some.inj hv
        exact hs
      · cases hv
    | _ => cases hv
  rw [ContentBlock.valid, hvalid, parseField_valid htext]
  rfl

theorem ContentBlockSchema_valid {value : Json} {block : ContentBlock}
    (h : ContentBlockSchema value = some block) :
    block.valid = true := by
  have hlist : ∀ {type : ContentListType}, (parseNode type.text ListItemSchema value).map
      (ContentBlock.list type) = some block → block.valid = true := by
    intro type hparse
    obtain ⟨items, hitems, rfl⟩ := Option.map_eq_some_iff.mp hparse
    exact parseItems_valid (fun _ _ child _ v hv => ItemChildSchema_valid child v hv) hitems
  cases value with
  | obj entries =>
    simp only [ContentBlockSchema] at h
    split at h
    · exact CodeBlockSchema_valid h
    split at h
    · obtain ⟨latex, hlatex, rfl⟩ := Option.map_eq_some_iff.mp h
      exact parseField_valid hlatex
    split at h
    · obtain ⟨content, hcontent, rfl⟩ := Option.map_eq_some_iff.mp h
      exact TableSchema_valid hcontent
    split at h
    · obtain ⟨content, hcontent, rfl⟩ := Option.map_eq_some_iff.mp h
      exact ParagraphSchema_valid hcontent
    split at h
    · exact @hlist .bulletList h
    split at h
    · exact @hlist .orderedList h
    · cases h
  | _ => cases h

/-! ## Documents -/

def ContentDocumentV1.valid (doc : ContentDocumentV1) : Bool := doc.content.all (·.valid)

section
variable [Host]

theorem RecursiveContentDocumentV1Schema_toJson (doc : ContentDocumentV1) :
    RecursiveContentDocumentV1Schema doc.toJson =
      if doc.valid && (checkContentDocumentLimits doc).isEmpty then some doc else none := by
  have hcontent : parseAll ContentBlockSchema (doc.content.map (·.toJson)) = if doc.valid then
      some doc.content else none :=
    parseAll_map fun block _ => ContentBlockSchema_toJson block
  show ((parseAll ContentBlockSchema (doc.content.map (·.toJson))).map ContentDocumentV1.mk).filter
    (fun doc => (checkContentDocumentLimits doc).isEmpty) = _
  rw [hcontent]
  cases doc.valid with
  | false => rfl
  | true =>
    rw [if_pos rfl, Option.map_some, Option.filter_some, Bool.true_and]

theorem ContentDocumentV1Schema_toJson (doc : ContentDocumentV1) :
    ContentDocumentV1Schema doc.toJson =
      if (preflightContentDocumentStructure doc.toJson).isEmpty &&
        (doc.valid && (checkContentDocumentLimits doc).isEmpty) then some doc
      else none := by
  rw [ContentDocumentV1Schema, RecursiveContentDocumentV1Schema_toJson]
  cases (preflightContentDocumentStructure doc.toJson).isEmpty <;> rfl

theorem ContentDocumentV1Schema_read {doc v : ContentDocumentV1}
    (h : ContentDocumentV1Schema doc.toJson = some v) : v = doc := by
  rw [ContentDocumentV1Schema_toJson] at h
  split at h
  · exact (Option.some.inj h).symm
  · cases h

theorem ContentDocumentV1Schema_valid {value : Json} {doc : ContentDocumentV1}
    (h : ContentDocumentV1Schema value = some doc) :
    doc.valid = true ∧ checkContentDocumentLimits doc = [] := by
  rw [ContentDocumentV1Schema] at h
  split at h
  · cases value with
    | obj entries =>
      simp only [RecursiveContentDocumentV1Schema] at h
      split at h
      · obtain ⟨hparse, hlimits⟩ := Option.filter_eq_some_iff.mp h
        obtain ⟨content, hcontent, rfl⟩ := Option.map_eq_some_iff.mp hparse
        refine ⟨List.all_eq_true.mpr fun block hblock => ?_, List.isEmpty_iff.mp hlimits⟩
        obtain ⟨v, -, hv⟩ := Option.bind_eq_some_iff.mp hcontent
        cases v with
        | arr elements =>
          obtain ⟨element, -, helement⟩ := mem_parseAll hv hblock
          exact ContentBlockSchema_valid helement
        | _ => cases hv
      · cases h
    | _ => cases h
  · cases h

theorem ContentDocumentV1Schema_written {doc : ContentDocumentV1} :
    ContentDocumentV1Schema doc.toJson = some doc ↔ doc.valid = true ∧
    checkContentDocumentLimits doc = [] := by
  constructor
  · exact ContentDocumentV1Schema_valid
  · rintro ⟨hvalid, hlimits⟩
    rw [ContentDocumentV1Schema_toJson, hvalid, hlimits, preflight_written hlimits]
    rfl

theorem canonicalizeContentDocument_some {doc v : ContentDocumentV1}
    (h : canonicalizeContentDocument doc = some v) :
    v = normalizeContentDocument doc ∧ ContentDocumentV1Schema v.toJson = some v := by
  obtain rfl := ContentDocumentV1Schema_read h
  exact ⟨rfl, h⟩

/-- Normalization is idempotent. What canonicalization accepts is canonical,
passes the schema, and canonicalizes to itself. -/
theorem canonicalization_closed (doc : ContentDocumentV1) :
    normalizeContentDocument (normalizeContentDocument doc) = normalizeContentDocument doc ∧
    ∀ v, canonicalizeContentDocument doc = some v →
      ContentDocumentV1Schema v.toJson = some v ∧ canonicalizeContentDocument v = some v ∧
      v.Canonical := by
  have hcanonical := normalizeContentDocument_canonical doc
  have hfixed := normalizeContentDocument_eq_self.mpr hcanonical
  refine ⟨hfixed, fun v h => ?_⟩
  obtain ⟨rfl, hschema⟩ := canonicalizeContentDocument_some h
  refine ⟨hschema, ?_, hcanonical⟩
  rw [canonicalizeContentDocument, hfixed]
  exact hschema

end

/-- Runs to merge, an empty mark list, a list of nothing, and a trailing paragraph. -/
def sampleRuns : ContentDocumentV1 :=
  ⟨[.paragraph [.text (js "a") (some []), .text [] none, .text (js "b") none,
        .text (js "c") (some [.italic, .bold])],
    .list .bulletList [[.paragraph []], [.list .orderedList []]], .paragraph [.text [] none]]⟩

theorem canonicalization_closed_sample :
    ∃ v, @canonicalizeContentDocument sampleHost sampleRuns = some v ∧
    @canonicalizeContentDocument sampleHost v = some v := by
  obtain ⟨v, hv⟩ :=
    Option.isSome_iff_exists.mp
      (by decide +kernel : (@canonicalizeContentDocument sampleHost sampleRuns).isSome = true)
  exact ⟨v, hv, ((@canonicalization_closed sampleHost sampleRuns).2 v hv).2.1⟩

end ExamSystem
