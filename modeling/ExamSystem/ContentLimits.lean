import ExamSystem.ContentDocument
import ExamSystem.StoreLemmas

/-!
# The walk over a document

What a walk adds to its state: the nodes it visits, and a violation when a
limit is exceeded. The walk stays outside the cells of a table, so their
paragraphs and inlines escape the limit on nodes.
-/

namespace ExamSystem

/-! ## Measures of a tree -/

section
variable {α : Type}

def countAll (f : α → Nat) : List α → Nat
  | [] => 0
  | a :: l => f a + countAll f l

def highest (f : α → Nat) : List α → Nat
  | [] => 0
  | a :: l => max (f a) (highest f l)

theorem countAll_add (f g : α → Nat) (l : List α) :
    countAll (fun a => f a + g a) l = countAll f l + countAll g l := by
  induction l with
  | nil => rfl
  | cons a l ih =>
    simp only [countAll, ih]
    omega

theorem highest_le {f : α → Nat} {n : Nat} {l : List α} : highest f l ≤ n ↔ ∀ a ∈ l, f a ≤ n := by
  induction l with
  | nil => simp [highest]
  | cons a l ih => simp [highest, ih]

end

def paragraphNodes (content : ContentParagraph) : Nat := content.length + 1

mutual

def ContentItemChild.nodes : ContentItemChild → Nat
  | .paragraph content => paragraphNodes content
  | .list _ content => itemsNodes content + 1

def itemsNodes : List ContentListItem → Nat
  | [] => 0
  | item :: items => (itemNodes item + 1) + itemsNodes items

def itemNodes : ContentListItem → Nat
  | [] => 0
  | child :: children => child.nodes + itemNodes children

end

mutual

def ContentItemChild.height : ContentItemChild → Nat
  | .paragraph _ => 1
  | .list _ content => itemsHeight content + 1

def itemsHeight : List ContentListItem → Nat
  | [] => 0
  | item :: items => max (itemHeight item + 1) (itemsHeight items)

def itemHeight : ContentListItem → Nat
  | [] => 0
  | child :: children => max child.height (itemHeight children)

end

mutual

def ContentItemChild.listHeight : ContentItemChild → Nat
  | .paragraph _ => 0
  | .list _ content => itemsListHeight content + 1

def itemsListHeight : List ContentListItem → Nat
  | [] => 0
  | item :: items => max (itemListHeight item) (itemsListHeight items)

def itemListHeight : ContentListItem → Nat
  | [] => 0
  | child :: children => max child.listHeight (itemListHeight children)

end

def rowCellNodes (row : ContentTableRow) : Nat :=
  countAll (fun cell => countAll paragraphNodes cell) row

def ContentBlock.nodes : ContentBlock → Nat
  | .paragraph content => paragraphNodes content
  | .list _ content => itemsNodes content + 1
  | .codeBlock _ _ | .blockMath _ => 1
  | .table content => countAll (fun row => (row.length + rowCellNodes row) + 1) content + 1

def ContentBlock.cellNodes : ContentBlock → Nat
  | .table content => countAll rowCellNodes content
  | _ => 0

def ContentBlock.height : ContentBlock → Nat
  | .paragraph _ | .codeBlock _ _ | .blockMath _ => 1
  | .list _ content => itemsHeight content + 1
  | .table content =>
    highest (fun row => highest (fun cell => highest (fun _ => 1) cell + 1) row + 1) content + 1

def ContentBlock.listHeight : ContentBlock → Nat
  | .list _ content => itemsListHeight content + 1
  | _ => 0

structure TableWithin (content : List ContentTableRow) : Prop where
  rows : content.length ≤ CONTENT_LIMITS.tableRows
  cols : ∀ row ∈ content, row.length ≤ CONTENT_LIMITS.tableCols
  cells : countAll List.length content ≤ CONTENT_LIMITS.tableCells

namespace ContentDocumentV1

def nodes (doc : ContentDocumentV1) : Nat := countAll (·.nodes) doc.content

def cellNodes (doc : ContentDocumentV1) : Nat := countAll (·.cellNodes) doc.content

def height (doc : ContentDocumentV1) : Nat := highest (·.height) doc.content

def listHeight (doc : ContentDocumentV1) : Nat := highest (·.listHeight) doc.content

end ContentDocumentV1

/-! ## Walks -/

def WalkState.Bounded (state : WalkState) : Prop := state.violations = [] →
    state.maxDepth ≤ CONTENT_LIMITS.depth

/-- A walk that visits `n` nodes and reports nothing exactly when `P` holds. -/
structure Walks (f : WalkState → WalkState) (n : Nat) (P : Prop) : Prop where
  nodes : ∀ state, (f state).nodes = state.nodes + n
  bounded : ∀ state, state.Bounded → (f state).Bounded
  clean : ∀ state, state.Bounded → ((f state).violations = [] ↔ state.violations = [] ∧ P)

namespace Walks

variable {f g : WalkState → WalkState} {m n : Nat} {P Q : Prop}

theorem congr (h : Walks f n P) (hn : n = m) (hP : P ↔ Q) : Walks f m Q :=
  ⟨fun s => hn ▸ h.nodes s, h.bounded, fun s hs => (h.clean s hs).trans (and_congr_right fun _ => hP)⟩

theorem comp (hf : Walks f m P) (hg : Walks g n Q) :
    Walks (fun state => g (f state)) (m + n) (P ∧ Q) := by
  refine ⟨fun s => ?_, fun s hs => hg.bounded _ (hf.bounded s hs), fun s hs => ?_⟩
  · rw [hg.nodes, hf.nodes, Nat.add_assoc]
  · rw [hg.clean _ (hf.bounded s hs), hf.clean s hs, and_assoc]

theorem refl : Walks (fun state => state) 0 True := ⟨fun _ => rfl, fun _ hs => hs, fun _ _ => by simp⟩

theorem foldl {α : Type} {step : WalkState → α → WalkState} {n : α → Nat} {P : α → Prop} {l : List α}
    (h : ∀ a ∈ l, Walks (fun state => step state a) (n a) (P a)) :
    Walks (fun state => l.foldl step state) (countAll n l) (∀ a ∈ l, P a) := by
  induction l with
  | nil => exact refl.congr rfl (by simp)
  | cons a l ih =>
    have hrest := ih fun b hb => h b (List.mem_cons_of_mem a hb)
    exact ((h a List.mem_cons_self).comp hrest).congr rfl List.forall_mem_cons.symm

theorem violate (exceeded : Bool) (message : String) :
    Walks (fun state => state.violate exceeded message) 0 (exceeded = false) := by
  cases exceeded with
  | false => exact refl.congr rfl (by simp)
  | true =>
    refine ⟨fun _ => rfl, fun s _ h => ?_, fun s _ => ?_⟩
    · simp [WalkState.violate] at h
    · simp [WalkState.violate]

theorem limit (bound value : Nat) (message : String) :
    Walks (fun state => state.violate (decide (bound < value)) message) 0 (value ≤ bound) :=
  (violate _ message).congr rfl (by simp)

theorem enter (depth : Nat) :
    Walks (fun state => state.enter depth) 1 (depth ≤ CONTENT_LIMITS.depth) := by
  refine ⟨fun s => ?_, fun s hs => ?_, fun s hs => ?_⟩
  · simp only [WalkState.enter, WalkState.violate]
    split <;> rfl
  · simp only [WalkState.enter, WalkState.violate]
    split
    · intro h
      simp at h
    · rename_i hdepth
      intro _
      simpa using hdepth
  · simp only [WalkState.enter, WalkState.violate]
    split
    · rename_i hdepth
      have hdeep : CONTENT_LIMITS.depth < max s.maxDepth depth := by simpa using hdepth
      simp only [List.append_eq_nil_iff, List.cons_ne_self, and_false, false_iff]
      rintro ⟨hclean, hd⟩
      have hmax := hs hclean
      omega
    · rename_i hdepth
      have hshallow : max s.maxDepth depth ≤ CONTENT_LIMITS.depth := by simpa using hdepth
      have hd : depth ≤ CONTENT_LIMITS.depth := le_trans (le_max_right _ _) hshallow
      simp [hd]

end Walks

/-! ## The limits that the walk enforces -/

def ContentInline.Within : ContentInline → Prop
  | .text run _ => run.length ≤ CONTENT_LIMITS.textRun
  | .hardBreak => True
  | .inlineMath latex => latex.length ≤ CONTENT_LIMITS.latex

def ParagraphWithin (content : ContentParagraph) (depth : Nat) : Prop :=
  depth ≤ CONTENT_LIMITS.depth ∧ ∀ inline ∈ content, inline.Within

mutual

def ContentItemChild.Within : ContentItemChild → Nat → Nat → Prop
  | .paragraph content, depth, _ => ParagraphWithin content depth
  | .list _ content, depth, listDepth => depth ≤ CONTENT_LIMITS.depth ∧
      ItemsWithin content depth listDepth

def ItemsWithin : List ContentListItem → Nat → Nat → Prop
  | [], _, _ => True
  | item :: items, depth, listDepth =>
    (depth + 1 ≤ CONTENT_LIMITS.depth ∧ ItemWithin item (depth + 1) listDepth) ∧
      ItemsWithin items depth listDepth

def ItemWithin : ContentListItem → Nat → Nat → Prop
  | [], _, _ => True
  | child :: children, depth, listDepth =>
    (child.listDepth listDepth ≤ CONTENT_LIMITS.listDepth ∧
      child.Within (depth + 1) (child.listDepth listDepth)) ∧
      ItemWithin children depth listDepth

end

def ContentBlock.Within (block : ContentBlock) (depth listDepth : Nat) : Prop :=
  match block with
  | .paragraph content => ParagraphWithin content depth
  | .list _ content => depth ≤ CONTENT_LIMITS.depth ∧ ItemsWithin content depth listDepth
  | .codeBlock _ text => depth ≤ CONTENT_LIMITS.depth ∧ text.length ≤ CONTENT_LIMITS.codeBlock
  | .blockMath latex => depth ≤ CONTENT_LIMITS.depth ∧ latex.length ≤ CONTENT_LIMITS.latex
  | .table content =>
    depth ≤ CONTENT_LIMITS.depth ∧ TableWithin content ∧ ∀ row ∈ content, row ≠ [] →
      depth + 2 ≤ CONTENT_LIMITS.depth

structure ContentDocumentV1.WithinLimits [Host] (doc : ContentDocumentV1) : Prop where
  serialized : (jsonStringify doc.toJson).length ≤ CONTENT_LIMITS.serializedChars
  blocks : ∀ block ∈ doc.content, block.Within 1 1

/-! ## What the walk visits -/

theorem countAll_one {α : Type} (l : List α) : countAll (fun _ => 1) l = l.length := by
  induction l with
  | nil => rfl
  | cons a l ih => rw [countAll, ih, List.length_cons, Nat.add_comm]

theorem pushInlineViolation_walks (inline : ContentInline) :
    Walks (fun state => pushInlineViolation state inline) 1 inline.Within := by
  have hcount : Walks (fun state => { state with nodes := state.nodes + 1 }) 1 True :=
    ⟨fun _ => rfl, fun _ hs => hs, fun _ _ => by simp⟩
  cases inline with
  | text run marks => exact (hcount.comp (.limit _ _ _)).congr rfl (iff_of_eq (true_and _))
  | hardBreak => exact hcount
  | inlineMath latex => exact (hcount.comp (.limit _ _ _)).congr rfl (iff_of_eq (true_and _))

theorem pushParagraphViolations_walks (content : ContentParagraph) (depth : Nat) :
    Walks (pushParagraphViolations content depth) (paragraphNodes content)
      (ParagraphWithin content depth) := by
  have hinlines := Walks.foldl fun inline (_ : inline ∈ content) => pushInlineViolation_walks inline
  refine ((Walks.enter depth).comp hinlines).congr ?_ Iff.rfl
  rw [countAll_one, paragraphNodes, Nat.add_comm]

mutual

theorem pushItemChildViolations_walks : ∀ (child : ContentItemChild) (depth listDepth : Nat),
    Walks (pushItemChildViolations child depth listDepth) child.nodes (child.Within depth listDepth)
  | .paragraph content, depth, listDepth => by
    simp only [pushItemChildViolations, ContentItemChild.nodes, ContentItemChild.Within]
    exact pushParagraphViolations_walks content depth
  | .list type content, depth, listDepth => by
    simp only [pushItemChildViolations, ContentItemChild.nodes, ContentItemChild.Within]
    exact ((Walks.enter depth).comp (pushItemsViolations_walks content depth listDepth)).congr
      (Nat.add_comm _ _) Iff.rfl

theorem pushItemsViolations_walks : ∀ (items : List ContentListItem) (depth listDepth : Nat),
    Walks (pushItemsViolations items depth listDepth) (itemsNodes items)
      (ItemsWithin items depth listDepth)
  | [], depth, listDepth => by
    simp only [pushItemsViolations, itemsNodes, ItemsWithin]
    exact .refl
  | item :: items, depth, listDepth => by
    simp only [pushItemsViolations, itemsNodes, ItemsWithin]
    have hitem := (Walks.enter (depth + 1)).comp (pushItemViolations_walks item (depth + 1) listDepth)
    exact (hitem.comp (pushItemsViolations_walks items depth listDepth)).congr (by omega) Iff.rfl

theorem pushItemViolations_walks : ∀ (item : ContentListItem) (depth listDepth : Nat),
    Walks (pushItemViolations item depth listDepth) (itemNodes item) (ItemWithin item depth listDepth)
  | [], depth, listDepth => by
    simp only [pushItemViolations, itemNodes, ItemWithin]
    exact .refl
  | child :: children, depth, listDepth => by
    simp only [pushItemViolations, itemNodes, ItemWithin]
    have hchild := (Walks.limit CONTENT_LIMITS.listDepth (child.listDepth listDepth)
      s!"list nesting exceeds {CONTENT_LIMITS.listDepth}").comp (pushItemChildViolations_walks child
        (depth + 1) (child.listDepth listDepth))
    exact (hchild.comp (pushItemViolations_walks children depth listDepth)).congr (by omega) Iff.rfl

end

theorem pushRowViolations_walks (depth : Nat) (row : ContentTableRow) :
    Walks (fun state => pushRowViolations depth state row) (row.length + 1)
      (row.length ≤ CONTENT_LIMITS.tableCols ∧ (row ≠ [] → depth + 2 ≤ CONTENT_LIMITS.depth)) := by
  have hcount : Walks (fun state => { state with nodes := state.nodes + 1 }) 1 True :=
    ⟨fun _ => rfl, fun _ hs => hs, fun _ _ => by simp⟩
  have hcells := Walks.foldl fun cell (_ : cell ∈ row) => Walks.enter (depth + 2)
  refine ((hcount.comp (.limit CONTENT_LIMITS.tableCols row.length _)).comp hcells).congr ?_ ?_
  · rw [countAll_one]
    omega
  · rw [true_and]
    refine and_congr_right fun _ => ⟨fun h hne => ?_, fun h cell hcell => h (List.ne_nil_of_mem hcell)⟩
    obtain ⟨cell, hcell⟩ := List.exists_mem_of_ne_nil row hne
    exact h cell hcell

theorem foldl_cells (content : List ContentTableRow) (cells : Nat) :
    content.foldl (fun cells row => cells + row.length) cells = cells +
      countAll List.length content := by
  induction content generalizing cells with
  | nil => rfl
  | cons row content ih => rw [List.foldl_cons, ih, countAll, Nat.add_assoc]

/-- The nodes that the walk counts in a block: all but those inside cells. -/
def ContentBlock.visitedNodes : ContentBlock → Nat
  | .paragraph content => paragraphNodes content
  | .list _ content => itemsNodes content + 1
  | .codeBlock _ _ | .blockMath _ => 1
  | .table content => countAll (fun row => row.length + 1) content + 1

theorem ContentBlock.nodes_eq (block : ContentBlock) :
    block.nodes = block.visitedNodes + block.cellNodes := by
  cases block with
  | table content =>
    have hrows : countAll (fun row => (row.length + rowCellNodes row) + 1) content =
        countAll (fun row => row.length + 1) content + countAll rowCellNodes content := by
      rw [← countAll_add]
      exact congrArg (countAll · content) (funext fun row => by omega)
    simp only [ContentBlock.nodes, ContentBlock.visitedNodes, ContentBlock.cellNodes, hrows]
    omega
  | _ => rfl

theorem pushBlockViolations_walks (block : ContentBlock) (depth listDepth : Nat) :
    Walks (pushBlockViolations block depth listDepth) block.visitedNodes
      (block.Within depth listDepth) := by
  cases block with
  | paragraph content => exact pushParagraphViolations_walks content depth
  | list type content =>
    exact ((Walks.enter depth).comp (pushItemsViolations_walks content depth listDepth)).congr
      (Nat.add_comm _ _) Iff.rfl
  | codeBlock language text => exact ((Walks.enter depth).comp (.limit _ _ _)).congr rfl Iff.rfl
  | blockMath latex => exact ((Walks.enter depth).comp (.limit _ _ _)).congr rfl Iff.rfl
  | table content =>
    have hrows := Walks.foldl fun row (_ : row ∈ content) => pushRowViolations_walks depth row
    have htable := (((Walks.enter depth).comp (.limit CONTENT_LIMITS.tableRows content.length
      s!"table exceeds {CONTENT_LIMITS.tableRows} rows")).comp hrows).comp
      (.limit CONTENT_LIMITS.tableCells (content.foldl (fun cells row => cells + row.length) 0)
        s!"table exceeds {CONTENT_LIMITS.tableCells} cells")
    refine htable.congr (by simp only [ContentBlock.visitedNodes]; omega) ?_
    rw [foldl_cells, Nat.zero_add, ContentBlock.Within]
    constructor
    · rintro ⟨⟨⟨hd, hr⟩, hrow⟩, hc⟩
      exact ⟨hd, ⟨hr, fun row h => (hrow row h).1, hc⟩, fun row h => (hrow row h).2⟩
    · rintro ⟨hd, ht, hdeep⟩
      exact ⟨⟨⟨hd, ht.rows⟩, fun row h => ⟨ht.cols row h, hdeep row h⟩⟩, ht.cells⟩

theorem checkContentDocumentLimits_eq_nil [Host] (doc : ContentDocumentV1) :
    checkContentDocumentLimits doc = [] ↔ doc.WithinLimits ∧
    doc.nodes ≤ CONTENT_LIMITS.totalNodes + doc.cellNodes := by
  have hblocks := Walks.foldl fun block (_ : block ∈ doc.content) => pushBlockViolations_walks block 1 1
  have hsize := Walks.limit CONTENT_LIMITS.serializedChars (jsonStringify doc.toJson).length
    s!"serialized document exceeds {CONTENT_LIMITS.serializedChars} chars"
  have hwalk := (hsize.comp hblocks).congr (Nat.zero_add _) Iff.rfl
  have hstart : WalkState.Bounded { nodes := 0, maxDepth := 0, violations := [] } :=
    fun _ => Nat.zero_le _
  have hnodes := (hwalk.nodes { nodes := 0, maxDepth := 0, violations := [] }).trans (Nat.zero_add _)
  have hclean := hwalk.clean _ hstart
  have hlimit := (Walks.limit CONTENT_LIMITS.totalNodes
    ((doc.content.foldl (fun state block => pushBlockViolations block 1 1 state)
      (WalkState.violate { nodes := 0, maxDepth := 0, violations := [] }
        (CONTENT_LIMITS.serializedChars < (jsonStringify doc.toJson).length)
        s!"serialized document exceeds {CONTENT_LIMITS.serializedChars} chars")).nodes)
    s!"document exceeds {CONTENT_LIMITS.totalNodes} nodes").clean _ (hwalk.bounded _ hstart)
  have hsum : doc.nodes = countAll ContentBlock.visitedNodes doc.content + doc.cellNodes := by
    rw [ContentDocumentV1.nodes, ContentDocumentV1.cellNodes, ← countAll_add]
    exact congrArg (countAll · doc.content) (funext ContentBlock.nodes_eq)
  rw [checkContentDocumentLimits]
  refine hlimit.trans ?_
  rw [hnodes, hclean, hsum]
  constructor
  · rintro ⟨⟨-, hs, hb⟩, hn⟩
    exact ⟨⟨hs, hb⟩, Nat.add_le_add_right hn _⟩
  · rintro ⟨⟨hs, hb⟩, hn⟩
    exact ⟨⟨rfl, hs, hb⟩, Nat.le_of_add_le_add_right hn⟩

/-! ## The tree within the limits -/

mutual

theorem ContentItemChild.Within.heights : ∀ {child : ContentItemChild} {depth listDepth : Nat},
    child.Within depth (child.listDepth listDepth) →
      child.listDepth listDepth ≤ CONTENT_LIMITS.listDepth →
      depth + child.height ≤ CONTENT_LIMITS.depth + 1 ∧
      listDepth + child.listHeight ≤ CONTENT_LIMITS.listDepth
  | .paragraph content, depth, listDepth, h, hl => by
    simp only [ContentItemChild.Within, ContentItemChild.listDepth] at h hl
    exact ⟨Nat.add_le_add_right h.1 1, hl⟩
  | .list type content, depth, listDepth, h, hl => by
    simp only [ContentItemChild.Within, ContentItemChild.listDepth] at h hl
    have hitems := ItemsWithin.heights h.2 h.1 hl
    simp only [ContentItemChild.height, ContentItemChild.listHeight]
    omega

theorem ItemsWithin.heights :
    ∀ {items : List ContentListItem} {depth listDepth : Nat}, ItemsWithin items depth listDepth →
    depth ≤ CONTENT_LIMITS.depth → listDepth ≤ CONTENT_LIMITS.listDepth →
      depth + itemsHeight items ≤ CONTENT_LIMITS.depth ∧
      listDepth + itemsListHeight items ≤ CONTENT_LIMITS.listDepth
  | [], depth, listDepth, _, hd, hl => ⟨hd, hl⟩
  | item :: items, depth, listDepth, h, hd, hl => by
    simp only [ItemsWithin] at h
    have hitem := ItemWithin.heights h.1.2 h.1.1 hl
    have hitems := ItemsWithin.heights h.2 hd hl
    simp only [itemsHeight, itemsListHeight]
    omega

theorem ItemWithin.heights :
    ∀ {item : ContentListItem} {depth listDepth : Nat}, ItemWithin item depth listDepth →
    depth ≤ CONTENT_LIMITS.depth → listDepth ≤ CONTENT_LIMITS.listDepth →
      depth + itemHeight item ≤ CONTENT_LIMITS.depth ∧
      listDepth + itemListHeight item ≤ CONTENT_LIMITS.listDepth
  | [], depth, listDepth, _, hd, hl => ⟨hd, hl⟩
  | child :: children, depth, listDepth, h, hd, hl => by
    simp only [ItemWithin] at h
    have hchild := ContentItemChild.Within.heights h.1.2 h.1.1
    have hchildren := ItemWithin.heights h.2 hd hl
    simp only [itemHeight, itemListHeight]
    omega

end

theorem ContentBlock.Within.heights {block : ContentBlock} (h : block.Within 1 1) :
    block.height ≤ CONTENT_LIMITS.depth ∧ block.listHeight ≤ CONTENT_LIMITS.listDepth := by
  cases block with
  | list type content =>
    have hitems := ItemsWithin.heights h.2 h.1 (by decide)
    simp only [ContentBlock.height, ContentBlock.listHeight]
    omega
  | table content =>
    refine ⟨Nat.succ_le_of_lt (Nat.lt_of_le_of_lt (highest_le.mpr fun row _ => ?_)
          (by decide : 3 < CONTENT_LIMITS.depth)), Nat.zero_le _⟩
    refine Nat.succ_le_succ (highest_le.mpr fun cell _ => ?_)
    exact Nat.succ_le_succ (highest_le.mpr fun _ _ => Nat.le_refl 1)
  | _ => exact ⟨Nat.le_of_ble_eq_true rfl, Nat.zero_le _⟩

structure ContentDocumentV1.TreeWithin (doc : ContentDocumentV1) : Prop where
  nodes : doc.nodes ≤ CONTENT_LIMITS.totalNodes
  depth : doc.height ≤ CONTENT_LIMITS.depth
  listDepth : doc.listHeight ≤ CONTENT_LIMITS.listDepth
  tables : ∀ content, ContentBlock.table content ∈ doc.content → TableWithin content

/-- A document without violations is within the limits as a whole tree exactly
when the contents of its table cells do not by themselves carry it over the limit
on nodes while it respects every other limit. -/
theorem limits_cover_tree [Host] (doc : ContentDocumentV1) :
    (checkContentDocumentLimits doc = [] → doc.TreeWithin) ↔
      (doc.WithinLimits → doc.nodes ≤ CONTENT_LIMITS.totalNodes + doc.cellNodes →
        doc.nodes ≤ CONTENT_LIMITS.totalNodes) := by
  rw [checkContentDocumentLimits_eq_nil]
  constructor
  · exact fun h hwithin hvisited => (h ⟨hwithin, hvisited⟩).nodes
  · rintro h ⟨hwithin, hvisited⟩
    refine ⟨h hwithin hvisited, ?_, ?_, fun content hmem => ?_⟩
    · exact highest_le.mpr fun block hmem => (hwithin.blocks block hmem).heights.1
    · exact highest_le.mpr fun block hmem => (hwithin.blocks block hmem).heights.2
    · exact (hwithin.blocks _ hmem).2.1

/-! ## The preflight of a written document -/

section
variable {α : Type}

theorem elementsDepth_map_le {write : α → Json} {n : Nat} {l : List α}
    (h : ∀ a ∈ l, (write a).depth + 1 ≤ n) :
    Json.elementsDepth (l.map write) ≤ n := by
  induction l with
  | nil => exact Nat.zero_le n
  | cons a l ih =>
    rw [List.forall_mem_cons] at h
    exact max_le h.1 (ih h.2)

theorem elementsDepth_highest {write : α → Json} {height : α → Nat}
    (h : ∀ a, (write a).depth ≤ 2 * height a + 2) (l : List α) :
    Json.elementsDepth (l.map write) ≤ 2 * highest height l + 3 := by
  refine elementsDepth_map_le fun a ha => ?_
  have hdepth := h a
  have hheight : height a ≤ highest height l := highest_le.mp (Nat.le_refl _) a ha
  omega

end

theorem depth_nodeWith (type : String) (content : List Json) :
    (nodeWith type content).depth ≤ Json.elementsDepth content + 1 := by
  show max 1 (max (Json.elementsDepth content + 1) 0) ≤ _
  omega

theorem ContentInline.depth_toJson (inline : ContentInline) : inline.toJson.depth ≤ 2 := by
  cases inline with
  | text run marks =>
    cases marks with
    | none => exact Nat.le_of_ble_eq_true rfl
    | some marks =>
      have hmarks : Json.elementsDepth (marks.map fun mark => Json.str mark.text) ≤ 1 :=
        elementsDepth_map_le fun _ _ => Nat.le_refl 1
      show max 1 (max 1 (max (Json.elementsDepth (marks.map fun mark => Json.str mark.text) + 1) 0)) ≤ 2
      omega
  | _ => exact Nat.le_of_ble_eq_true rfl

theorem depth_paragraphJson (content : ContentParagraph) : (paragraphJson content).depth ≤ 4 := by
  have hinlines : Json.elementsDepth (content.map (·.toJson)) ≤ 3 :=
    elementsDepth_map_le fun inline _ => Nat.succ_le_succ inline.depth_toJson
  exact (depth_nodeWith "paragraph" _).trans (Nat.succ_le_succ hinlines)

mutual

theorem ContentItemChild.depth_toJson :
    ∀ child : ContentItemChild, child.toJson.depth ≤ 2 * child.height + 2
  | .paragraph content => by
    rw [ContentItemChild.toJson, ContentItemChild.height]
    exact depth_paragraphJson content
  | .list type content => by
    rw [ContentItemChild.toJson, ContentItemChild.height]
    have hnode := depth_nodeWith type.text (itemsJson content)
    have hitems := depth_itemsJson content
    omega

theorem depth_itemsJson :
    ∀ items : List ContentListItem, Json.elementsDepth (itemsJson items) ≤ 2 * itemsHeight items + 3
  | [] => Nat.zero_le _
  | item :: items => by
    rw [itemsJson, itemsHeight, Json.elementsDepth]
    have hnode := depth_nodeWith "listItem" (itemJson item)
    have hitem := depth_itemJson item
    have hitems := depth_itemsJson items
    omega

theorem depth_itemJson :
    ∀ item : ContentListItem, Json.elementsDepth (itemJson item) ≤ 2 * itemHeight item + 3
  | [] => Nat.zero_le _
  | child :: children => by
    rw [itemJson, itemHeight, Json.elementsDepth]
    have hchild := child.depth_toJson
    have hchildren := depth_itemJson children
    omega

end

theorem depth_tableCellJson (cell : ContentTableCell) :
    (tableCellJson cell).depth ≤ 2 * (highest (fun _ => 1) cell + 1) + 2 := by
  have hcontent := @elementsDepth_highest _ paragraphJson (fun _ => 1) depth_paragraphJson cell
  exact (depth_nodeWith "tableCell" _).trans (Nat.succ_le_succ hcontent)

theorem depth_tableRowJson (row : ContentTableRow) :
    (tableRowJson row).depth ≤ 2 *
      (highest (fun cell : ContentTableCell => highest (fun _ => 1) cell + 1) row + 1) + 2 := by
  exact (depth_nodeWith "tableRow" _).trans
    (Nat.succ_le_succ (elementsDepth_highest depth_tableCellJson row))

theorem ContentBlock.depth_toJson (block : ContentBlock) :
    block.toJson.depth ≤ 2 * block.height + 2 := by
  cases block with
  | paragraph content => exact depth_paragraphJson content
  | list type content =>
    have hnode := depth_nodeWith type.text (itemsJson content)
    have hitems := depth_itemsJson content
    simp only [ContentBlock.toJson, ContentBlock.height]
    omega
  | codeBlock language text =>
    cases language <;> exact Nat.le_add_left 1 3
  | blockMath latex => exact Nat.le_add_left 1 3
  | table content =>
    exact (depth_nodeWith "table" _).trans
      (Nat.succ_le_succ (elementsDepth_highest depth_tableRowJson content))

theorem ContentDocumentV1.depth_toJson (doc : ContentDocumentV1) :
    doc.toJson.depth ≤ 2 * doc.height + 4 := by
  have hblocks : Json.elementsDepth (doc.content.map (·.toJson)) ≤ 2 * doc.height + 3 :=
    elementsDepth_highest ContentBlock.depth_toJson doc.content
  have hdoc : doc.toJson.depth = max 1
    (max 1 (max (Json.elementsDepth (doc.content.map (·.toJson)) + 1) 0)) := rfl
  rw [hdoc]
  omega

theorem preflight_written [Host] {doc : ContentDocumentV1} (h : checkContentDocumentLimits doc = []) :
    preflightContentDocumentStructure doc.toJson = [] := by
  have hwithin := ((checkContentDocumentLimits_eq_nil doc).mp h).1
  have hheight : doc.height ≤ CONTENT_LIMITS.depth :=
    highest_le.mpr fun block hmem => (hwithin.blocks block hmem).heights.1
  have hdepth : depthViolations doc.toJson = [] := by
    have hdoc := doc.depth_toJson
    have hbudget : PREFLIGHT_RAW_DEPTH_BUDGET = CONTENT_LIMITS.depth * 2 + 7 := rfl
    exact if_neg (by omega)
  have hsize : sizeViolations doc.toJson = [] := if_neg (Nat.not_lt.mpr hwithin.serialized)
  show (if (sizeViolations doc.toJson).isEmpty then sizeViolations doc.toJson ++ [] ++
      depthViolations doc.toJson else _) = []
  rw [hsize, hdepth]
  rfl

/-! ## A table of one cell -/

theorem length_joinWith_replicate (sep s : JsString) (n : Nat) :
    (joinWith sep (List.replicate (n + 1) s)).length = s.length + n * (sep.length + s.length) := by
  induction n with
  | zero => simp [joinWith]
  | succ n ih =>
    rw [List.replicate_succ, List.replicate_succ, joinWith, ← List.replicate_succ,
      List.length_append, List.length_append, ih, Nat.add_mul, Nat.one_mul]
    omega

theorem jsonStringifyElements_replicate [Host] (n : Nat) (v : Json) :
    jsonStringifyElements (List.replicate n v) = List.replicate n (jsonStringify v) := by
  induction n with
  | zero => rfl
  | succ n ih => rw [List.replicate_succ, jsonStringifyElements, ih, List.replicate_succ]

theorem length_nodeWith [Host] (type : String) (content : List Json) :
    (jsonStringify (nodeWith type content)).length =
      (stringifyString (js type)).length +
        (joinWith (js ",") (jsonStringifyElements content)).length + 22 := by
  have htype : (stringifyString (js "type") ++ js ":").length = 7 := by decide
  have hcontent : (stringifyString (js "content") ++ js ":").length = 10 := by decide
  have hpunct : (js "\x7b").length = 1 ∧ (js "\x7d").length = 1 ∧ (js ",").length = 1 ∧
    (js "[").length = 1 ∧ (js "]").length = 1 := by decide
  simp only [nodeWith, nodeJson, jsonStringify, jsonStringifyEntries, joinWith, List.length_append,
    htype, hcontent, hpunct] at *
  omega

theorem length_toJson [Host] (doc : ContentDocumentV1) :
    (jsonStringify doc.toJson).length =
      (Host.numberToString 1).length +
        (joinWith (js ",") (jsonStringifyElements (doc.content.map (·.toJson)))).length + 41 := by
  have hversion : (stringifyString (js "docVersion") ++ js ":").length = 13 := by decide
  have htype : (stringifyString (js "type") ++ js ":" ++ stringifyString (js "doc")).length =
    12 := by decide
  have hcontent : (stringifyString (js "content") ++ js ":").length = 10 := by decide
  have hpunct : (js "\x7b").length = 1 ∧ (js "\x7d").length = 1 ∧ (js ",").length = 1 ∧
    (js "[").length = 1 ∧ (js "]").length = 1 := by decide
  simp only [ContentDocumentV1.toJson, CONTENT_DOC_VERSION, jsonStringify, jsonStringifyEntries,
    joinWith, List.length_append, hpunct] at *
  omega

/-- A table whose one cell holds more empty paragraphs than a document may have nodes. -/
def sampleTable : ContentDocumentV1 := ⟨[.table [[List.replicate 2001 []]]]⟩

theorem sampleTable_serialized :
    (@jsonStringify sampleHost sampleTable.toJson).length ≤ CONTENT_LIMITS.serializedChars := by
  let _ : Host := sampleHost
  have hparagraph : (jsonStringify (paragraphJson [])).length = 33 := by decide
  have hcell : (jsonStringify (tableCellJson (List.replicate 2001 []))).length = 68066 := by
    rw [tableCellJson, length_nodeWith, List.map_replicate, jsonStringifyElements_replicate,
      length_joinWith_replicate, hparagraph]
    decide
  have hsingle : ∀ v : Json, joinWith (js ",") (jsonStringifyElements [v]) = jsonStringify v :=
    fun _ => rfl
  rw [length_toJson, sampleTable, List.map_singleton, hsingle, ContentBlock.toJson, length_nodeWith,
    List.map_singleton, hsingle, tableRowJson, length_nodeWith, List.map_singleton, hsingle, hcell]
  decide

theorem limits_cover_tree_counterexample :
    @checkContentDocumentLimits sampleHost sampleTable = [] ∧
    CONTENT_LIMITS.totalNodes < sampleTable.nodes := by
  let _ : Host := sampleHost
  have hcell : sampleTable.nodes = 2004 ∧ sampleTable.cellNodes = 2001 := by decide +kernel
  refine ⟨(checkContentDocumentLimits_eq_nil _).mpr ⟨⟨sampleTable_serialized,
        fun block hblock => ?_⟩, ?_⟩, ?_⟩
  · obtain rfl := List.mem_singleton.mp hblock
    refine ⟨by decide, ⟨by decide, fun row hrow => ?_, by decide⟩, fun _ _ _ => by decide⟩
    obtain rfl := List.mem_singleton.mp hrow
    exact Nat.le_of_ble_eq_true rfl
  · rw [hcell.1, hcell.2]; decide
  · rw [hcell.1]; decide

end ExamSystem
