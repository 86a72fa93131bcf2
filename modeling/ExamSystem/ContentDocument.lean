import ExamSystem.Json

/-!
# Rich content documents

The grammar of a document, its JSON form, and the two checks of its structure:
the preflight of an unknown value and the walk that enforces the limits.
-/

namespace ExamSystem

/-! ## The grammar -/

inductive ContentMarkType
  | bold | italic | underline | inlineCode
  deriving DecidableEq, Repr

def ContentMarkType.text : ContentMarkType → JsString
  | .bold => js "bold"
  | .italic => js "italic"
  | .underline => js "underline"
  | .inlineCode => js "inlineCode"

def MARK_CANONICAL_ORDER : List ContentMarkType := [.bold, .italic, .underline, .inlineCode]

def EXCLUSIVE_MARKS : List ContentMarkType := [.inlineCode]

inductive ContentInline
  | text (text : JsString) (marks : Option (List ContentMarkType))
  | hardBreak
  | inlineMath (latex : JsString)
  deriving DecidableEq, Repr

abbrev ContentParagraph := List ContentInline

inductive ContentListType
  | bulletList | orderedList
  deriving DecidableEq, Repr

def ContentListType.text : ContentListType → String
  | .bulletList => "bulletList"
  | .orderedList => "orderedList"

inductive ContentItemChild
  | paragraph (content : ContentParagraph)
  | list (type : ContentListType) (content : List (List ContentItemChild))
  deriving Repr

abbrev ContentListItem := List ContentItemChild

abbrev ContentTableCell := List ContentParagraph

abbrev ContentTableRow := List ContentTableCell

inductive ContentBlock
  | paragraph (content : ContentParagraph)
  | list (type : ContentListType) (content : List ContentListItem)
  | codeBlock (language : Option JsString) (text : JsString)
  | blockMath (latex : JsString)
  | table (content : List ContentTableRow)
  deriving Repr

structure ContentDocumentV1 where
  content : List ContentBlock
  deriving Repr

/-- Induction over the children of list items. -/
theorem ContentItemChild.induct {P : ContentItemChild → Prop}
    (paragraph : ∀ content, P (.paragraph content))
    (list : ∀ type items, (∀ item ∈ items, ∀ child ∈ item, P child) → P (.list type items))
    (child : ContentItemChild) : P child := by
  refine ContentItemChild.rec (motive_1 := P) (motive_2 := fun items => ∀ item ∈ items,
    ∀ child ∈ item, P child)
    (motive_3 := fun item => ∀ child ∈ item, P child) paragraph list ?_ ?_ ?_ ?_ child
  · exact fun _ h => absurd h List.not_mem_nil
  · exact fun item items hitem hitems => List.forall_mem_cons.mpr ⟨hitem, hitems⟩
  · exact fun _ h => absurd h List.not_mem_nil
  · exact fun child item hchild hitem => List.forall_mem_cons.mpr ⟨hchild, hitem⟩

/-! ## The JSON form -/

def nodeJson (type : String) (fields : List (JsString × Json)) : Json :=
  .obj ((js "type", .str (js type)) :: fields)

def nodeWith (type : String) (content : List Json) : Json :=
  nodeJson type [(js "content", .arr content)]

def marksField : Option (List ContentMarkType) → List (JsString × Json)
  | none => []
  | some marks => [(js "marks", .arr (marks.map fun mark => .str mark.text))]

def ContentInline.toJson : ContentInline → Json
  | .text run marks => nodeJson "text" ((js "text", .str run) :: marksField marks)
  | .hardBreak => nodeJson "hardBreak" []
  | .inlineMath latex => nodeJson "inlineMath" [(js "latex", .str latex)]

def paragraphJson (content : ContentParagraph) : Json := nodeWith "paragraph" (content.map (·.toJson))

mutual

def ContentItemChild.toJson : ContentItemChild → Json
  | .paragraph content => paragraphJson content
  | .list type content => nodeWith type.text (itemsJson content)

def itemsJson : List ContentListItem → List Json
  | [] => []
  | item :: items => nodeWith "listItem" (itemJson item) :: itemsJson items

def itemJson : ContentListItem → List Json
  | [] => []
  | child :: children => child.toJson :: itemJson children

end

def tableCellJson (cell : ContentTableCell) : Json := nodeWith "tableCell" (cell.map paragraphJson)

def tableRowJson (row : ContentTableRow) : Json := nodeWith "tableRow" (row.map tableCellJson)

def ContentBlock.toJson : ContentBlock → Json
  | .paragraph content => paragraphJson content
  | .list type content => nodeWith type.text (itemsJson content)
  | .codeBlock language text =>
    nodeJson "codeBlock" [(js "language", (language.map Json.str).getD .null), (js "text", .str text)]
  | .blockMath latex => nodeJson "blockMath" [(js "latex", .str latex)]
  | .table content => nodeWith "table" (content.map tableRowJson)

def CONTENT_DOC_VERSION : JsNumber := .value 1

def ContentDocumentV1.toJson (doc : ContentDocumentV1) : Json :=
  .obj [(js "docVersion", .num CONTENT_DOC_VERSION), (js "type", .str (js "doc")),
    (js "content", .arr (doc.content.map (·.toJson)))]

section
variable [Host]

mutual

/-- The text of `JSON.stringify(value)`, where `-0` prints as `0`. -/
def jsonStringify : Json → JsString
  | .null => js "null"
  | .bool value => if value then js "true" else js "false"
  | .str value => stringifyString value
  | .num .negZero => js "0"
  | .num (.value q) => Host.numberToString q
  | .arr elements => js "[" ++ joinWith (js ",") (jsonStringifyElements elements) ++ js "]"
  | .obj entries => js "\x7b" ++ joinWith (js ",") (jsonStringifyEntries entries) ++ js "\x7d"

def jsonStringifyElements : List Json → List JsString
  | [] => []
  | element :: elements => jsonStringify element :: jsonStringifyElements elements

def jsonStringifyEntries : List (JsString × Json) → List JsString
  | [] => []
  | (key, v) :: entries =>
    (stringifyString key ++ js ":" ++ jsonStringify v) :: jsonStringifyEntries entries

end

end

/-! ## Limits -/

namespace CONTENT_LIMITS

def serializedChars : Nat := 131072
def totalNodes : Nat := 2000
def depth : Nat := 16
def listDepth : Nat := 8
def tableRows : Nat := 100
def tableCols : Nat := 20
def tableCells : Nat := 400
def textRun : Nat := 20000
def codeBlock : Nat := 40000
def latex : Nat := 5000

end CONTENT_LIMITS

structure WalkState where
  nodes : Nat
  maxDepth : Nat
  violations : List String
  deriving DecidableEq, Repr

/-- `if (exceeded) state.violations.push(message)`. -/
def WalkState.violate (state : WalkState) (exceeded : Bool) (message : String) : WalkState :=
  if exceeded then { state with violations := state.violations ++ [message] } else state

def pushInlineViolation (state : WalkState) (inline : ContentInline) : WalkState :=
  let state := { state with nodes := state.nodes + 1 }
  match inline with
  | .text text _ =>
    state.violate (CONTENT_LIMITS.textRun < text.length)
      s!"text run exceeds {CONTENT_LIMITS.textRun} chars"
  | .inlineMath latex =>
    state.violate (CONTENT_LIMITS.latex < latex.length) s!"latex exceeds {CONTENT_LIMITS.latex} chars"
  | .hardBreak => state

/-- The head of `pushBlockViolations`, which every node it visits goes through. -/
def WalkState.enter (state : WalkState) (depth : Nat) : WalkState :=
  let state := { state with nodes := state.nodes + 1, maxDepth := max state.maxDepth depth }
  state.violate (CONTENT_LIMITS.depth < state.maxDepth) s!"tree depth exceeds {CONTENT_LIMITS.depth}"

def pushParagraphViolations (content : ContentParagraph) (depth : Nat) (state : WalkState) :
    WalkState :=
  content.foldl pushInlineViolation (state.enter depth)

def ContentItemChild.listDepth (listDepth : Nat) : ContentItemChild → Nat
  | .paragraph _ => listDepth
  | .list _ _ => listDepth + 1

mutual

def pushItemChildViolations : ContentItemChild → Nat → Nat → WalkState → WalkState
  | .paragraph content, depth, _, state => pushParagraphViolations content depth state
  | .list _ content, depth, listDepth, state =>
    pushItemsViolations content depth listDepth (state.enter depth)

def pushItemsViolations : List ContentListItem → Nat → Nat → WalkState → WalkState
  | [], _, _, state => state
  | item :: items, depth, listDepth, state =>
    pushItemsViolations items depth listDepth (pushItemViolations item (depth + 1) listDepth
        (state.enter (depth + 1)))

def pushItemViolations : ContentListItem → Nat → Nat → WalkState → WalkState
  | [], _, _, state => state
  | child :: children, depth, listDepth, state =>
    let childListDepth := child.listDepth listDepth
    let state := state.violate (CONTENT_LIMITS.listDepth < childListDepth)
      s!"list nesting exceeds {CONTENT_LIMITS.listDepth}"
    pushItemViolations children depth listDepth
      (pushItemChildViolations child (depth + 1) childListDepth state)

end

/-- A table row at the depth of its table. The walk has no case for a cell: it
counts the cell and does not enter it. -/
def pushRowViolations (depth : Nat) (state : WalkState) (row : ContentTableRow) : WalkState :=
  let state := { state with nodes := state.nodes + 1 }
  let state := state.violate (CONTENT_LIMITS.tableCols < row.length)
    s!"table row exceeds {CONTENT_LIMITS.tableCols} columns"
  row.foldl (fun state _ => state.enter (depth + 2)) state

def pushBlockViolations (block : ContentBlock) (depth listDepth : Nat) (state : WalkState) :
    WalkState :=
  match block with
  | .paragraph content => pushParagraphViolations content depth state
  | .list _ content => pushItemsViolations content depth listDepth (state.enter depth)
  | .codeBlock _ text =>
    (state.enter depth).violate (CONTENT_LIMITS.codeBlock < text.length)
      s!"code block exceeds {CONTENT_LIMITS.codeBlock} chars"
  | .blockMath latex =>
    (state.enter depth).violate (CONTENT_LIMITS.latex < latex.length)
      s!"latex exceeds {CONTENT_LIMITS.latex} chars"
  | .table content =>
    let state := (state.enter depth).violate (CONTENT_LIMITS.tableRows < content.length)
      s!"table exceeds {CONTENT_LIMITS.tableRows} rows"
    let state := content.foldl (pushRowViolations depth) state
    let cells := content.foldl (fun cells row => cells + row.length) 0
    state.violate (CONTENT_LIMITS.tableCells < cells)
      s!"table exceeds {CONTENT_LIMITS.tableCells} cells"

def checkContentDocumentLimits [Host] (doc : ContentDocumentV1) : List String :=
  let serialized := jsonStringify doc.toJson
  let state : WalkState := { nodes := 0, maxDepth := 0, violations := [] }
  let state := state.violate (CONTENT_LIMITS.serializedChars < serialized.length)
    s!"serialized document exceeds {CONTENT_LIMITS.serializedChars} chars"
  let state := doc.content.foldl (fun state block => pushBlockViolations block 1 1 state) state
  (state.violate (CONTENT_LIMITS.totalNodes < state.nodes)
      s!"document exceeds {CONTENT_LIMITS.totalNodes} nodes").violations

/-! ## The preflight -/

mutual

def Json.depth : Json → Nat
  | .arr elements => Json.elementsDepth elements
  | .obj entries => Json.entriesDepth entries
  | _ => 0

def Json.elementsDepth : List Json → Nat
  | [] => 0
  | element :: elements => max (element.depth + 1) (Json.elementsDepth elements)

def Json.entriesDepth : List (JsString × Json) → Nat
  | [] => 0
  | (_, v) :: entries => max (v.depth + 1) (Json.entriesDepth entries)

end

def PREFLIGHT_RAW_DEPTH_BUDGET : Nat := (CONTENT_LIMITS.depth + 2) * 2 + 3

/-- `value[key]` of a parsed object. -/
def fieldOf (entries : List (JsString × Json)) (key : String) : Option Json := entries.lookup (js key)

/-- Whether `value === expected`, where a missing field is `undefined`. -/
def fieldIs (entries : List (JsString × Json)) (key : String) (expected : Json) : Bool :=
  (fieldOf entries key).any fun v => strictEq v expected

def isArray : Option Json → Bool
  | some (.arr _) => true
  | _ => false

def sizeViolations [Host] (value : Json) : List String :=
  if CONTENT_LIMITS.serializedChars < (jsonStringify value).length then
    [s!"serialized document exceeds {CONTENT_LIMITS.serializedChars} chars"]
  else []

def envelopeViolations (envelope : List (JsString × Json)) : List String :=
  (if fieldIs envelope "docVersion" (.num CONTENT_DOC_VERSION) then [] else ["docVersion must be 1"]) ++
    (if fieldIs envelope "type" (.str (js "doc")) then [] else ["type must be \"doc\""]) ++
    (if isArray (fieldOf envelope "content") then [] else ["content must be an array"])

/-- The walk over the raw value visits every array, object and leaf, and reports
once when one lies too deep. -/
def depthViolations (value : Json) : List String :=
  if PREFLIGHT_RAW_DEPTH_BUDGET < value.depth then
    [s!"document nesting exceeds {PREFLIGHT_RAW_DEPTH_BUDGET} levels"] else []

def preflightContentDocumentStructure [Host] (value : Json) : List String :=
  match value with
  | .obj envelope =>
    let violations := sizeViolations value ++ envelopeViolations envelope
    if (sizeViolations value).isEmpty then violations ++ depthViolations value else violations
  | _ => sizeViolations value ++ ["document must be a ContentDocumentV1 object"]

end ExamSystem
