import Mathlib.Algebra.BigOperators.Group.List.Basic
import ExamSystem.AnswerIdentity
import ExamSystem.ContentSchema

/-!
# The preflight and the grammar

A value that the grammar accepts has the size and the nesting of the document it
is parsed into, so the preflight in front of the grammar refuses none of them.
-/

namespace ExamSystem

/-! ## Values of one shape -/

theorem length_joinWith (sep : JsString) : ∀ texts : List JsString,
    (joinWith sep texts).length = (texts.map List.length).sum + (texts.length - 1) * sep.length
  | [] => by simp [joinWith]
  | [text] => by simp [joinWith]
  | text :: next :: texts => by
    rw [joinWith, List.length_append, List.length_append, length_joinWith sep (next :: texts)]
    simp only [List.map_cons, List.sum_cons, List.length_cons, Nat.add_sub_cancel, Nat.add_mul,
      Nat.one_mul]
    omega

theorem length_joinWith_perm {sep : JsString} {texts texts' : List JsString}
    (h : (texts.map List.length).Perm (texts'.map List.length)) :
    (joinWith sep texts).length = (joinWith sep texts').length := by
  have hlength := h.length_eq
  rw [List.length_map, List.length_map] at hlength
  rw [length_joinWith, length_joinWith, h.sum_eq, hlength]

theorem entriesDepth_perm {es fs : List (JsString × Json)} (h : es.Perm fs) :
    Json.entriesDepth es = Json.entriesDepth fs := by
  induction h with
  | nil => rfl
  | cons e _ ih => rw [Json.entriesDepth, Json.entriesDepth, ih]
  | swap e f es => simp only [Json.entriesDepth, max_left_comm]
  | trans _ _ ih ih' => exact ih.trans ih'

section
variable [Host]

structure SameShape (a b : Json) : Prop where
  length : (jsonStringify a).length = (jsonStringify b).length
  depth : a.depth = b.depth

theorem SameShape.refl (a : Json) : SameShape a a := ⟨rfl, rfl⟩

theorem SameShape.trans {a b c : Json} (h : SameShape a b) (h' : SameShape b c) : SameShape a c :=
  ⟨h.length.trans h'.length, h.depth.trans h'.depth⟩

theorem jsonStringifyEntries_eq (es : List (JsString × Json)) :
    jsonStringifyEntries es = es.map fun e => stringifyString e.1 ++ js ":" ++ jsonStringify e.2 := by
  induction es with
  | nil => rfl
  | cons e es ih => rw [jsonStringifyEntries, ih, List.map_cons]

theorem jsonStringifyElements_eq (elements : List Json) :
    jsonStringifyElements elements = elements.map jsonStringify := by
  induction elements with
  | nil => rfl
  | cons v elements ih => rw [jsonStringifyElements, ih, List.map_cons]

theorem sameShape_perm {es fs : List (JsString × Json)} (h : es.Perm fs) :
    SameShape (.obj es) (.obj fs) := by
  refine ⟨?_, entriesDepth_perm h⟩
  have hjoined : (joinWith (js ",") (jsonStringifyEntries es)).length = (joinWith (js ",")
      (jsonStringifyEntries fs)).length := by
    rw [jsonStringifyEntries_eq, jsonStringifyEntries_eq]
    exact length_joinWith_perm ((h.map _).map _)
  simp only [jsonStringify, List.length_append, hjoined]

theorem elementsDepth_congr {xs ys : List Json} (h : List.Forall₂ SameShape xs ys) :
    Json.elementsDepth xs = Json.elementsDepth ys := by
  induction h with
  | nil => rfl
  | cons hv _ ih => rw [Json.elementsDepth, Json.elementsDepth, hv.depth, ih]

theorem sameShape_arr {xs ys : List Json} (h : List.Forall₂ SameShape xs ys) :
    SameShape (.arr xs) (.arr ys) := by
  refine ⟨?_, elementsDepth_congr h⟩
  have hlengths : xs.map (List.length ∘ jsonStringify) = ys.map (List.length ∘ jsonStringify) := by
    induction h with
    | nil => rfl
    | cons hv _ ih =>
      rw [List.map_cons, List.map_cons, ih, Function.comp_apply, hv.length]
      rfl
  have hjoined : (joinWith (js ",") (jsonStringifyElements xs)).length =
      (joinWith (js ",") (jsonStringifyElements ys)).length := by
    rw [jsonStringifyElements_eq, jsonStringifyElements_eq]
    refine length_joinWith_perm (.of_eq ?_)
    rw [List.map_map, List.map_map, hlengths]
  simp only [jsonStringify, List.length_append, hjoined]

theorem sameShape_member {k : JsString} {v w : Json} (h : SameShape v w) (es : List (JsString × Json)) :
    SameShape (.obj ((k, v) :: es)) (.obj ((k, w) :: es)) := by
  have hjoined : (joinWith (js ",") (jsonStringifyEntries ((k, v) :: es))).length =
      (joinWith (js ",") (jsonStringifyEntries ((k, w) :: es))).length := by
    refine length_joinWith_perm (.of_eq ?_)
    simp only [jsonStringifyEntries, List.map_cons, List.length_append, h.length]
  refine ⟨by simp only [jsonStringify, List.length_append, hjoined], ?_⟩
  show max (v.depth + 1) _ = max (w.depth + 1) _
  rw [h.depth]

end

/-! ## The members of a node -/

theorem entries_perm {entries fields : List (JsString × Json)} (hkeys : (entries.map Prod.fst).Nodup)
    (hfields : (fields.map Prod.fst).Nodup) (hsub : ∀ e ∈ entries, e.1 ∈ fields.map Prod.fst)
    (hlookup : ∀ f ∈ fields, f ∈ entries) : entries.Perm fields := by
  refine (List.perm_ext_iff_of_nodup hkeys.of_map hfields.of_map).mpr fun e => ⟨fun he => ?_, hlookup e⟩
  obtain ⟨f, hf, hkey⟩ := List.mem_map.mp (hsub e he)
  exact List.inj_on_of_nodup_map hkeys (hlookup f hf) he hkey ▸ hf

theorem mem_of_fieldOf {entries : List (JsString × Json)} {key : String} {v : Json}
    (h : fieldOf entries key = some v) :
    (js key, v) ∈ entries := by
  obtain ⟨l₁, l₂, rfl, -⟩ := List.lookup_eq_some_iff.mp h
  exact List.mem_append_right _ List.mem_cons_self

theorem mem_of_fieldIs {entries : List (JsString × Json)} {key : String} {s : JsString}
    (h : fieldIs entries key (.str s) = true) :
    (js key, .str s) ∈ entries := by
  obtain ⟨v, hv, heq⟩ := (Option.any_eq_true _ _).mp h
  cases v with
  | str t =>
    obtain rfl : t = s := by simpa [strictEq] using heq
    exact mem_of_fieldOf hv
  | null | bool _ | num _ | arr _ | obj _ => simp [strictEq] at heq

theorem distinctKeys_obj {entries : List (JsString × Json)} (h : (Json.obj entries).DistinctKeys) :
    (entries.map Prod.fst).Nodup ∧ ∀ e ∈ entries, e.2.DistinctKeys := by
  have hkeys : ∀ es : List (JsString × Json),
      (Json.toTreeEntries es).map Prod.fst = es.map Prod.fst := by
    intro es
    induction es with
    | nil => rfl
    | cons e es ih => rw [Json.toTreeEntries, List.map_cons, ih, List.map_cons]
  have hall : ∀ es : List (JsString × Json), Tree.DistinctEntries (Json.toTreeEntries es) →
      ∀ e ∈ es, e.2.DistinctKeys := by
    intro es
    induction es with
    | nil => exact fun _ e he => absurd he List.not_mem_nil
    | cons e es ih => exact fun h => List.forall_mem_cons.mpr ⟨h.1, ih h.2⟩
  exact ⟨hkeys entries ▸ h.1, hall entries h.2⟩

theorem distinctKeys_arr {elements : List Json} (h : (Json.arr elements).DistinctKeys) :
    ∀ v ∈ elements, v.DistinctKeys := by
  have hall : ∀ elements : List Json, Tree.DistinctElements (Json.toTrees elements) →
      ∀ v ∈ elements, v.DistinctKeys := by
    intro elements
    induction elements with
    | nil => exact fun _ v hv => absurd hv List.not_mem_nil
    | cons v elements ih => exact fun h => List.forall_mem_cons.mpr ⟨h.1, ih h.2⟩
  exact hall elements h

theorem node_perm {type key : String} {entries : List (JsString × Json)} {v : Json}
    (hkeys : (entries.map Prod.fst).Nodup) (hne : js "type" ≠ js key)
    (hnode : isNode type [key] entries = true) (hfield : fieldOf entries key = some v) :
    entries.Perm [(js "type", .str (js type)), (js key, v)] := by
  rw [isNode, Bool.and_eq_true] at hnode
  refine entries_perm hkeys (by simp [hne]) (fun e he => ?_) ?_
  · simpa using List.all_eq_true.mp hnode.2 e he
  · exact List.forall_mem_cons.mpr ⟨mem_of_fieldIs hnode.1,
      List.forall_mem_singleton.mpr (mem_of_fieldOf hfield)⟩

/-! ## What the grammar reads -/

theorem parseField_string {valid : JsString → Bool} {entries : List (JsString × Json)}
    {key : String} {s : JsString} (h : parseField (parseString valid) entries key = some s) :
    fieldOf entries key = some (.str s) := by
  obtain ⟨v, hv, hs⟩ := Option.bind_eq_some_iff.mp h
  cases v with
  | str t =>
    simp only [parseString] at hs
    split at hs
    · exact Option.some.inj hs ▸ hv
    · cases hs
  | null | bool _ | num _ | arr _ | obj _ => cases hs

theorem parseArray_marks_eq {v : Json} {marks : List ContentMarkType}
    (h : parseArray parseMark v = some marks) :
    v = .arr (marks.map fun mark => .str mark.text) := by
  cases v with
  | arr elements =>
    have hall : ∀ (elements : List Json) (marks : List ContentMarkType),
        parseAll parseMark elements = some marks →
        elements = marks.map fun mark => .str mark.text := by
      intro elements
      induction elements with
      | nil =>
        intro marks hmarks
        obtain rfl := Option.some.inj hmarks
        rfl
      | cons e elements ih =>
        intro marks hmarks
        obtain ⟨mark, hmark, hmap⟩ := Option.bind_eq_some_iff.mp hmarks
        obtain ⟨rest, hrest, rfl⟩ := Option.map_eq_some_iff.mp hmap
        cases e with
        | str s =>
          have htext : mark.text = s := by simpa using List.find?_some hmark
          rw [ih rest hrest, List.map_cons, htext]
        | null | bool _ | num _ | arr _ | obj _ => cases hmark
    rw [hall elements marks h]
  | null | bool _ | num _ | str _ | obj _ => cases h

section
variable [Host] {α : Type} {parse : Json → Option α} {write : α → Json}

/-- `parse` reads `x` from values of the shape in which `write` writes it. -/
def Reads (parse : Json → Option α) (write : α → Json) (x : α) : Prop :=
  ∀ v, v.DistinctKeys → parse v = some x → SameShape v (write x)

theorem reads_array {xs : List α} (h : ∀ x ∈ xs, Reads parse write x) :
    Reads (parseArray parse) (fun xs => .arr (xs.map write)) xs := by
  intro v hd hv
  cases v with
  | arr elements =>
    have hall : ∀ (elements : List Json) (xs : List α), (∀ x ∈ xs, Reads parse write x) →
        (∀ e ∈ elements, e.DistinctKeys) →
        parseAll parse elements = some xs → List.Forall₂ SameShape elements (xs.map write) := by
      intro elements
      induction elements with
      | nil =>
        intro xs _ _ hxs
        obtain rfl := Option.some.inj hxs
        exact .nil
      | cons e elements ih =>
        intro xs h hd hxs
        obtain ⟨x, hx, hmap⟩ := Option.bind_eq_some_iff.mp hxs
        obtain ⟨rest, hrest, rfl⟩ := Option.map_eq_some_iff.mp hmap
        rw [List.forall_mem_cons] at h hd
        exact .cons (h.1 e hd.1 hx) (ih rest h.2 hd.2 hrest)
    exact sameShape_arr (hall elements xs h (distinctKeys_arr hd) hv)
  | null | bool _ | num _ | str _ | obj _ => cases hv

theorem reads_node {xs : List α} (h : ∀ x ∈ xs, Reads parse write x) (type : String) :
    Reads (parseNode type parse) (fun xs => nodeWith type (xs.map write)) xs := by
  intro v hd hv
  cases v with
  | obj entries =>
    simp only [parseNode] at hv
    split at hv
    case isTrue hnode =>
      obtain ⟨content, hcontent, hparse⟩ := Option.bind_eq_some_iff.mp hv
      obtain ⟨hkeys, hvalues⟩ := distinctKeys_obj hd
      have hcontentDistinct : content.DistinctKeys := hvalues _ (mem_of_fieldOf hcontent)
      have hperm := (node_perm hkeys (by decide) hnode hcontent).trans (.swap _ _ _)
      exact (sameShape_perm hperm).trans
        ((sameShape_member (reads_array h content hcontentDistinct hparse) _).trans
            (sameShape_perm (.swap _ _ _)))
    case isFalse => cases hv
  | null | bool _ | num _ | str _ | arr _ => cases hv

theorem reads_inline (inline : ContentInline) :
    Reads ContentInlineSchema ContentInline.toJson inline := by
  intro v hd hv
  cases v with
  | obj entries =>
    obtain ⟨hkeys, -⟩ := distinctKeys_obj hd
    simp only [ContentInlineSchema] at hv
    split at hv
    case isTrue hnode =>
      obtain ⟨run, hrun, hv⟩ := Option.bind_eq_some_iff.mp hv
      obtain ⟨marks, hmarks, rfl⟩ := Option.map_eq_some_iff.mp hv
      rw [isNode, Bool.and_eq_true] at hnode
      have htype := mem_of_fieldIs hnode.1
      have htext := mem_of_fieldOf (parseField_string hrun)
      have hsub : ∀ e ∈ entries, e.1 = js "type" ∨ e.1 = js "text" ∨ e.1 = js "marks" := by
        intro e he
        simpa using List.all_eq_true.mp hnode.2 e he
      refine sameShape_perm ?_
      unfold parseMarks at hmarks
      split at hmarks
      case h_1 hnone =>
        obtain rfl := Option.some.inj hmarks
        refine entries_perm hkeys (by decide : [js "type", js "text"].Nodup) (fun e he => ?_) ?_
        · have hmark : e.1 ≠ js "marks" := by
            intro heq
            have := List.lookup_eq_none_iff.mp hnone e he
            simp [heq] at this
          have := hsub e he
          simp [marksField]
          tauto
        · exact List.forall_mem_cons.mpr ⟨htype, List.forall_mem_singleton.mpr htext⟩
      case h_2 value hsome =>
        obtain ⟨ms, hms, rfl⟩ := Option.map_eq_some_iff.mp hmarks
        obtain rfl := parseArray_marks_eq (Option.filter_eq_some_iff.mp hms).1
        refine entries_perm hkeys (by decide : [js "type", js "text", js "marks"].Nodup)
          (fun e he => by simpa [marksField] using hsub e he) ?_
        exact List.forall_mem_cons.mpr ⟨htype,
          List.forall_mem_cons.mpr ⟨htext, List.forall_mem_singleton.mpr (mem_of_fieldOf hsome)⟩⟩
    case isFalse =>
      split at hv
      case isTrue hnode =>
        obtain rfl := Option.some.inj hv
        rw [isNode, Bool.and_eq_true] at hnode
        exact sameShape_perm
          (entries_perm hkeys (by decide)
            (fun e he => by simpa using List.all_eq_true.mp hnode.2 e he)
          (List.forall_mem_singleton.mpr (mem_of_fieldIs hnode.1)))
      case isFalse =>
        split at hv
        case isTrue hnode =>
          obtain ⟨latex, hlatex, rfl⟩ := Option.map_eq_some_iff.mp hv
          exact sameShape_perm (node_perm hkeys (by decide) hnode (parseField_string hlatex))
        case isFalse => cases hv
  | null | bool _ | num _ | str _ | arr _ => cases hv

theorem reads_paragraph (content : ContentParagraph) : Reads ParagraphSchema paragraphJson content :=
  reads_node (fun inline _ => reads_inline inline) "paragraph"

theorem reads_items {items : List ContentListItem}
    (h : ∀ item ∈ items, ∀ child ∈ item, Reads ItemChildSchema ContentItemChild.toJson child)
    (type : String) :
    Reads (parseNode type ListItemSchema) (fun items => nodeWith type (itemsJson items)) items := by
  have hitem : ∀ item ∈ items, Reads ListItemSchema
      (fun item => nodeWith "listItem" (itemJson item)) item := by
    intro item hitem
    rw [ListItemSchema_eq]
    intro v hd hv
    simp only [itemJson_eq]
    exact reads_node (h item hitem) "listItem" v hd hv
  intro v hd hv
  simp only [itemsJson_eq]
  exact reads_node hitem type v hd hv

theorem reads_itemChild (child : ContentItemChild) :
    Reads ItemChildSchema ContentItemChild.toJson child := by
  induction child using ContentItemChild.induct with
  | paragraph content =>
    intro v hd hv
    rcases ItemChildSchema_some hv with ⟨_, hcontent, heq⟩ | ⟨_, _, -, heq⟩
    · obtain rfl := ContentItemChild.paragraph.inj heq
      rw [ContentItemChild.toJson]
      exact reads_paragraph content v hd hcontent
    · cases heq
  | list type items ih =>
    intro v hd hv
    rcases ItemChildSchema_some hv with ⟨_, -, heq⟩ | ⟨_, _, hitems, heq⟩
    · cases heq
    · obtain ⟨rfl, rfl⟩ := ContentItemChild.list.inj heq
      rw [ContentItemChild.toJson]
      exact reads_items ih type.text v hd hitems

theorem reads_table (content : List ContentTableRow) :
    Reads (parseNode "table" TableRowSchema)
      (fun content => nodeWith "table" (content.map tableRowJson)) content := by
  have hcell : ∀ cell : ContentTableCell, Reads TableCellSchema tableCellJson cell :=
    fun cell v hd hv =>
    reads_node (fun content _ => reads_paragraph content) "tableCell" v hd
      (Option.filter_eq_some_iff.mp hv).1
  have hrow : ∀ row : ContentTableRow, Reads TableRowSchema tableRowJson row := fun row v hd hv =>
    reads_node (fun cell _ => hcell cell) "tableRow" v hd (Option.filter_eq_some_iff.mp hv).1
  exact reads_node (fun row _ => hrow row) "table"

omit [Host] in
theorem parseLanguage_eq {v : Json} {language : Option JsString} (h : parseLanguage v = some language) :
    v = (language.map Json.str).getD .null := by
  cases v with
  | null =>
    obtain rfl := Option.some.inj h
    rfl
  | str s =>
    simp only [parseLanguage] at h
    split at h
    · obtain rfl := Option.some.inj h
      rfl
    · cases h
  | bool _ | num _ | arr _ | obj _ => cases h

theorem reads_block (block : ContentBlock) : Reads ContentBlockSchema ContentBlock.toJson block := by
  intro v hd hv
  cases v with
  | obj entries =>
    obtain ⟨hkeys, -⟩ := distinctKeys_obj hd
    simp only [ContentBlockSchema] at hv
    split at hv
    case isTrue hnode =>
      obtain ⟨language, hlanguage, hv⟩ := Option.bind_eq_some_iff.mp hv
      obtain ⟨text, htext, rfl⟩ := Option.map_eq_some_iff.mp hv
      obtain ⟨value, hvalue, hlanguage⟩ := Option.bind_eq_some_iff.mp hlanguage
      obtain rfl := parseLanguage_eq hlanguage
      rw [isNode, Bool.and_eq_true] at hnode
      refine sameShape_perm (entries_perm hkeys (by decide : [js "type", js "language",
            js "text"].Nodup)
        (fun e he => by simpa using List.all_eq_true.mp hnode.2 e he) ?_)
      exact List.forall_mem_cons.mpr ⟨mem_of_fieldIs hnode.1,
        List.forall_mem_cons.mpr ⟨mem_of_fieldOf hvalue,
        List.forall_mem_singleton.mpr (mem_of_fieldOf (parseField_string htext))⟩⟩
    case isFalse =>
      split at hv
      case isTrue hnode =>
        obtain ⟨latex, hlatex, rfl⟩ := Option.map_eq_some_iff.mp hv
        exact sameShape_perm (node_perm hkeys (by decide) hnode (parseField_string hlatex))
      case isFalse =>
        split at hv
        case isTrue =>
          obtain ⟨content, hcontent, rfl⟩ := Option.map_eq_some_iff.mp hv
          exact reads_table content _ hd (Option.filter_eq_some_iff.mp hcontent).1
        case isFalse =>
          split at hv
          case isTrue =>
            obtain ⟨content, hcontent, rfl⟩ := Option.map_eq_some_iff.mp hv
            exact reads_paragraph content _ hd hcontent
          case isFalse =>
            have hchild : ∀ (items : List ContentListItem), ∀ item ∈ items, ∀ child ∈ item,
                Reads ItemChildSchema ContentItemChild.toJson child :=
              fun _ _ _ child _ => reads_itemChild child
            split at hv
            case isTrue =>
              obtain ⟨items, hitems, rfl⟩ := Option.map_eq_some_iff.mp hv
              exact reads_items (hchild items) "bulletList" _ hd hitems
            case isFalse =>
              split at hv
              case isTrue =>
                obtain ⟨items, hitems, rfl⟩ := Option.map_eq_some_iff.mp hv
                exact reads_items (hchild items) "orderedList" _ hd hitems
              case isFalse => cases hv
  | null | bool _ | num _ | str _ | arr _ => cases hv

/-! ## Nothing that the grammar accepts is refused -/

theorem reads_document {v : Json} {doc : ContentDocumentV1} (hd : v.DistinctKeys)
    (h : RecursiveContentDocumentV1Schema v = some doc) :
    SameShape v doc.toJson ∧ ∃ entries, v = .obj entries ∧ envelopeViolations entries = [] := by
  cases v with
  | obj entries =>
    simp only [RecursiveContentDocumentV1Schema] at h
    split at h
    case isTrue hnode =>
      obtain ⟨content, hcontent, rfl⟩ := Option.map_eq_some_iff.mp (Option.filter_eq_some_iff.mp h).1
      obtain ⟨value, hvalue, hparse⟩ := Option.bind_eq_some_iff.mp hcontent
      obtain ⟨hkeys, hvalues⟩ := distinctKeys_obj hd
      rw [isNode, Bool.and_eq_true, Bool.and_eq_true] at hnode
      obtain ⟨hversion, htype, hall⟩ := hnode
      have harray : isArray (fieldOf entries "content") = true := by
        rw [hvalue]
        cases value with
        | arr _ => rfl
        | null | bool _ | num _ | str _ | obj _ => cases hparse
      refine ⟨?_, entries, rfl, ?_⟩
      · obtain ⟨version, hfield, hone⟩ := (Option.any_eq_true _ _).mp hversion
        have hversion : version = .num CONTENT_DOC_VERSION := by
          cases version with
          | num n =>
            cases n with
            | negZero => exact absurd hone (by decide)
            | value q =>
              have hq : q = 1 := by simpa [strictEq, CONTENT_DOC_VERSION] using hone
              rw [hq, CONTENT_DOC_VERSION]
          | null | bool _ | str _ | arr _ | obj _ => simp [strictEq] at hone
        subst hversion
        have hperm : entries.Perm [(js "docVersion", .num CONTENT_DOC_VERSION),
            (js "type", .str (js "doc")), (js "content", value)] := by
          refine entries_perm hkeys (by decide : [js "docVersion", js "type", js "content"].Nodup)
            (fun e he => ?_) ?_
          · have hmem : e.1 = js "type" ∨ e.1 = js "docVersion" ∨ e.1 = js "content" := by
              simpa using List.all_eq_true.mp hall e he
            simp only [List.map_cons, List.map_nil, List.mem_cons, List.not_mem_nil, or_false]
            tauto
          · exact List.forall_mem_cons.mpr ⟨mem_of_fieldOf hfield,
              List.forall_mem_cons.mpr ⟨mem_of_fieldIs htype,
              List.forall_mem_singleton.mpr (mem_of_fieldOf hvalue)⟩⟩
        have hshape : SameShape value (.arr (content.map (·.toJson))) :=
          reads_array (fun block _ => reads_block block) value
            (hvalues _ (mem_of_fieldOf hvalue)) hparse
        -- the content comes first, is exchanged, and goes back
        let head : List (JsString × Json) := [(js "docVersion", .num CONTENT_DOC_VERSION),
          (js "type", .str (js "doc"))]
        have hrotate : ∀ w : Json, (head ++ [(js "content", w)]).Perm
          ([(js "content", w)] ++ head) := fun _ => List.perm_append_comm
        exact (sameShape_perm (hperm.trans (hrotate value))).trans
          ((sameShape_member hshape _).trans (sameShape_perm (hrotate _).symm))
      · rw [envelopeViolations, if_pos hversion, if_pos htype, if_pos harray]
        rfl
    case isFalse => cases h
  | null | bool _ | num _ | str _ | arr _ => cases h

/-- A value that the grammar and the limits accept passes the preflight, so the
schema with the preflight in front of the grammar accepts it as well. -/
theorem preflight_of_accepted (v : Json) (doc : ContentDocumentV1) (hd : v.DistinctKeys)
    (h : RecursiveContentDocumentV1Schema v = some doc) :
    preflightContentDocumentStructure v = [] ∧ ContentDocumentV1Schema v = some doc := by
  obtain ⟨hshape, entries, rfl, henvelope⟩ := reads_document hd h
  have hlimits : checkContentDocumentLimits doc = [] := by
    simp only [RecursiveContentDocumentV1Schema] at h
    split at h
    · exact List.isEmpty_iff.mp (Option.filter_eq_some_iff.mp h).2
    · cases h
  have hwritten : (if (sizeViolations doc.toJson).isEmpty then sizeViolations doc.toJson ++ [] ++
      depthViolations doc.toJson
      else sizeViolations doc.toJson ++ []) = [] := preflight_written hlimits
  have hsize : sizeViolations doc.toJson = [] := by
    split at hwritten
    · exact (List.append_eq_nil_iff.mp (List.append_eq_nil_iff.mp hwritten).1).1
    · exact (List.append_eq_nil_iff.mp hwritten).1
  have hdepth : depthViolations doc.toJson = [] := by
    rw [hsize] at hwritten
    exact hwritten
  have hpreflight : preflightContentDocumentStructure (.obj entries) = [] := by
    rw [preflightContentDocumentStructure, henvelope, sizeViolations, hshape.length,
      ← sizeViolations, hsize, depthViolations, hshape.depth, ← depthViolations, hdepth]
    rfl
  refine ⟨hpreflight, ?_⟩
  rw [ContentDocumentV1Schema, hpreflight]
  exact h

end

/-- A paragraph of one run, with the members in another order than they are written. -/
def sampleRaw : Json :=
  .obj [(js "content",
      .arr [.obj [(js "content",
          .arr [.obj [(js "text", .str (js "a")), (js "type", .str (js "text"))]]),
    (js "type", .str (js "paragraph"))]]), (js "type", .str (js "doc")), (js "docVersion",
    .num (.value 1))]

theorem preflight_of_accepted_sample :
    @preflightContentDocumentStructure sampleHost sampleRaw = [] ∧
      @ContentDocumentV1Schema sampleHost sampleRaw = some ⟨[.paragraph [.text (js "a") none]]⟩ := by
  let _ : Host := sampleHost
  exact preflight_of_accepted sampleRaw _ ⟨by decide,
    ⟨⟨by decide, ⟨⟨by decide, trivial, trivial, trivial⟩, trivial⟩, trivial, trivial⟩, trivial⟩,
    trivial, trivial, trivial⟩ rfl

end ExamSystem
