import ExamSystem.ContentDocument
import Mathlib.Data.List.Chain
import Mathlib.Data.List.DropRight

/-!
# Normalization of documents

Normalization yields a canonical document, and a document is canonical exactly
when normalization leaves it alone.
-/

namespace ExamSystem

/-! ## Normalization -/

def byIndex (a b : ContentMarkType) : Prop :=
  MARK_CANONICAL_ORDER.idxOf a ≤ MARK_CANONICAL_ORDER.idxOf b

instance : DecidableRel byIndex :=
  fun a b => inferInstanceAs (Decidable (MARK_CANONICAL_ORDER.idxOf a ≤ MARK_CANONICAL_ORDER.idxOf b))

def compatibleMarks (all : List ContentMarkType) : List ContentMarkType :=
  all.filter fun mark => if EXCLUSIVE_MARKS.contains mark then all.length == 1 else true

/-- The marks of a run, with `none` for no `marks` at all. -/
def canonicalMarks (marks : Option (List ContentMarkType)) : Option (List ContentMarkType) :=
  let unique := compatibleMarks (marks.getD []).eraseDups
  if unique.isEmpty then none else some (unique.insertionSort byIndex)

def normalizeInline : ContentInline → Option ContentInline
  | .text run marks => if run.isEmpty then none else some (.text run (canonicalMarks marks))
  | .hardBreak => some .hardBreak
  | .inlineMath latex => some (.inlineMath latex)

/-- The end of the loop over the inlines. Mark names hold no separator, so the
joined names are equal when the marks are. -/
def pushInline (result : List ContentInline) (inline : ContentInline) : List ContentInline :=
  match result.getLast?, inline with
  | some (.text previous previousMarks), .text run marks =>
    if canonicalMarks previousMarks = canonicalMarks marks then
      result.dropLast ++ [.text (previous ++ run) (canonicalMarks previousMarks)]
    else result ++ [inline]
  | _, _ => result ++ [inline]

def normalizeInlineList (inlines : List ContentInline) : List ContentInline :=
  inlines.foldl (fun result raw => ((normalizeInline raw).map (pushInline result)).getD result) []

/-- The test of the loop that drops the trailing paragraphs of a list item. -/
def ContentItemChild.isBlank : ContentItemChild → Bool
  | .paragraph content => content.isEmpty
  | .list _ _ => false

mutual

def normalizeItemChild : ContentItemChild → Option ContentItemChild
  | .paragraph content => some (.paragraph (normalizeInlineList content))
  | .list type content =>
    let items := normalizeItems content
    if items.isEmpty then none else some (.list type items)

def normalizeChildren : ContentListItem → ContentListItem
  | [] => []
  | child :: children => (normalizeItemChild child).toList ++ normalizeChildren children

/-- The loop of `normalizeList` over its items. -/
def normalizeItems : List ContentListItem → List ContentListItem
  | [] => []
  | rawItem :: items =>
    let content := (normalizeChildren rawItem).rdropWhile ContentItemChild.isBlank
    if content.isEmpty then normalizeItems items else content :: normalizeItems items

end

def normalizeListItemChildren (children : ContentListItem) : ContentListItem :=
  (normalizeChildren children).rdropWhile ContentItemChild.isBlank

def isLanguageUnit (u : UInt16) : Bool :=
  (0x41 ≤ u && u ≤ 0x5A) || (0x61 ≤ u && u ≤ 0x7A) || (0x30 ≤ u && u ≤ 0x39) || (js "+#._-").contains u

/-- `CODE_LANGUAGE_PATTERN.test(language)`. -/
def isCodeLanguage (language : JsString) : Bool :=
  decide (1 ≤ language.length) && decide (language.length ≤ 32) && language.all isLanguageUnit

def normalizeBlock : ContentBlock → Option ContentBlock
  | .paragraph content => some (.paragraph (normalizeInlineList content))
  | .list type content =>
    let items := normalizeItems content
    if items.isEmpty then none else some (.list type items)
  | .codeBlock language text => some (.codeBlock (language.filter isCodeLanguage) text)
  | .blockMath latex => some (.blockMath latex)
  | .table content =>
    some (.table (content.map fun row => row.map fun cell => cell.map normalizeInlineList))

def ContentInline.isEmptyText : ContentInline → Bool
  | .text run _ => run.isEmpty
  | _ => false

def isEmptyParagraph : ContentBlock → Bool
  | .paragraph content => content.isEmpty || content.all (·.isEmptyText)
  | _ => false

def normalizeContentDocument (doc : ContentDocumentV1) : ContentDocumentV1 :=
  ⟨(doc.content.filterMap normalizeBlock).rdropWhile isEmptyParagraph⟩

theorem normalizeChildren_eq (children : ContentListItem) :
    normalizeChildren children = children.filterMap normalizeItemChild := by
  induction children with
  | nil => rfl
  | cons child children ih =>
    rw [normalizeChildren, ih]
    cases hchild : normalizeItemChild child with
    | none => rw [List.filterMap_cons_none hchild]; rfl
    | some child' => rw [List.filterMap_cons_some hchild]; rfl

theorem normalizeItems_eq (items : List ContentListItem) :
    normalizeItems items = (items.map normalizeListItemChildren).filter fun item => !item.isEmpty := by
  induction items with
  | nil => rfl
  | cons item items ih =>
    rw [normalizeItems, ih, List.map_cons, List.filter_cons]
    show (if (normalizeListItemChildren item).isEmpty then _ else _) = _
    cases (normalizeListItemChildren item).isEmpty <;> rfl

/-! ## Canonical form -/

def ContentMarkType.index (mark : ContentMarkType) : Nat := MARK_CANONICAL_ORDER.idxOf mark

structure CanonicalMarks (marks : List ContentMarkType) : Prop where
  nonempty : marks ≠ []
  ordered : marks.Pairwise fun a b => a.index < b.index
  exclusive : ∀ mark ∈ marks, mark ∈ EXCLUSIVE_MARKS → marks = [mark]

def ContentInline.Canonical : ContentInline → Prop
  | .text run marks => run ≠ [] ∧ ∀ ms, marks = some ms → CanonicalMarks ms
  | _ => True

def Mergeable : ContentInline → ContentInline → Prop
  | .text _ marks, .text _ marks' => marks = marks'
  | _, _ => False

structure CanonicalInlines (content : List ContentInline) : Prop where
  each : ∀ inline ∈ content, inline.Canonical
  separate : content.IsChain fun a b => ¬ Mergeable a b

inductive ContentItemChild.Canonical : ContentItemChild → Prop
  | paragraph {content : ContentParagraph} (h : CanonicalInlines content) : Canonical
      (.paragraph content)
  | list {type : ContentListType} {content : List ContentListItem} (items : content ≠ [])
      (nonempty : ∀ item ∈ content, item ≠ []) (trailing : ∀ item ∈ content, ∀ last ∈ item.getLast?,
        last ≠ .paragraph [])
      (children : ∀ item ∈ content, ∀ child ∈ item, Canonical child) : Canonical (.list type content)

def ContentBlock.Canonical : ContentBlock → Prop
  | .paragraph content => CanonicalInlines content
  | .list type content => (ContentItemChild.list type content).Canonical
  | .codeBlock language _ => ∀ l ∈ language, isCodeLanguage l = true
  | .blockMath _ => True
  | .table content => ∀ row ∈ content, ∀ cell ∈ row, ∀ paragraph ∈ cell, CanonicalInlines paragraph

structure ContentDocumentV1.Canonical (doc : ContentDocumentV1) : Prop where
  blocks : ∀ block ∈ doc.content, block.Canonical
  trailing : ∀ last ∈ doc.content.getLast?, last ≠ .paragraph []

/-! ## Marks -/

theorem nodup_eraseDups {α : Type} [DecidableEq α] : ∀ l : List α, l.eraseDups.Nodup
  | [] => by simp
  | a :: l => by
    rw [List.eraseDups_cons, List.nodup_cons]
    refine ⟨fun ha => ?_, nodup_eraseDups (l.filter fun b => !b == a)⟩
    have hmem := (List.mem_filter.mp (List.mem_eraseDups.mp ha)).2
    simp at hmem
termination_by l => l.length
decreasing_by
  have hlen := List.length_filter_le (fun b => !b == a) l
  simp only [List.length_cons]
  omega

theorem eraseDups_of_nodup {α : Type} [DecidableEq α] {l : List α} (h : l.Nodup) : l.eraseDups = l := by
  induction l with
  | nil => rfl
  | cons a l ih =>
    rw [List.nodup_cons] at h
    have hfilter : (l.filter fun b => !b == a) = l := by
      refine List.filter_eq_self.mpr fun b hb => ?_
      have hne : b ≠ a := fun heq => h.1 (heq ▸ hb)
      simpa using hne
    rw [List.eraseDups_cons, hfilter, ih h.2]

theorem ContentMarkType.index_inj {a b : ContentMarkType} (h : a.index = b.index) : a = b := by
  revert h
  cases a <;> cases b <;> decide

instance : Std.Total byIndex := ⟨fun _ _ => Nat.le_total _ _⟩

instance : IsTrans ContentMarkType byIndex := ⟨fun _ _ _ h h' => Nat.le_trans h h'⟩

theorem compatibleMarks_exclusive {all : List ContentMarkType} {mark : ContentMarkType}
    (h : mark ∈ compatibleMarks all) (hexcl : mark ∈ EXCLUSIVE_MARKS) :
    compatibleMarks all = [mark] := by
  have hkept := (List.mem_filter.mp h).2
  rw [if_pos (List.contains_iff_mem.mpr hexcl)] at hkept
  have hlen : (compatibleMarks all).length ≤ 1 :=
    (List.length_filter_le _ _).trans_eq (by simpa using hkept)
  generalize compatibleMarks all = unique at h hlen
  match unique, hlen, h with
  | [m], _, hm => rw [List.mem_singleton.mp hm]

theorem canonicalMarks_canonical {marks : Option (List ContentMarkType)} {ms : List ContentMarkType}
    (h : canonicalMarks marks = some ms) : CanonicalMarks ms := by
  simp only [canonicalMarks] at h
  split at h
  · cases h
  rename_i hne
  obtain rfl := Option.some.inj h
  have hperm := List.perm_insertionSort byIndex (compatibleMarks (marks.getD []).eraseDups)
  have hsorted := List.pairwise_insertionSort byIndex (compatibleMarks (marks.getD []).eraseDups)
  have hnodup : (compatibleMarks (marks.getD []).eraseDups).Nodup := (nodup_eraseDups _).filter _
  refine ⟨fun hnil => hne ?_, ?_, fun mark hmark hexcl => ?_⟩
  · rw [hnil] at hperm
    rw [List.isEmpty_iff]
    exact List.nil_perm.mp hperm
  · refine (hsorted.and (hperm.nodup_iff.mpr hnodup)).imp fun hab => ?_
    exact Nat.lt_of_le_of_ne hab.1 fun heq => hab.2 (ContentMarkType.index_inj heq)
  · rw [compatibleMarks_exclusive (hperm.mem_iff.mp hmark) hexcl]
    rfl

theorem canonicalMarks_of_canonical {ms : List ContentMarkType} (h : CanonicalMarks ms) :
    canonicalMarks (some ms) = some ms := by
  have hnodup : ms.Nodup := h.ordered.imp fun hlt heq => absurd (congrArg ContentMarkType.index heq)
    (Nat.ne_of_lt hlt)
  have hsorted : ms.Pairwise byIndex := h.ordered.imp fun hlt => Nat.le_of_lt hlt
  have hcompatible : compatibleMarks ms = ms := by
    refine List.filter_eq_self.mpr fun mark hmark => ?_
    split
    · rename_i hexcl
      rw [h.exclusive mark hmark (List.contains_iff_mem.mp hexcl)]
      rfl
    · rfl
  simp only [canonicalMarks, Option.getD_some, eraseDups_of_nodup hnodup, hcompatible]
  rw [if_neg (by simpa using h.nonempty)]
  exact congrArg some hsorted.insertionSort_eq

theorem canonicalMarks_fixed {marks : Option (List ContentMarkType)}
    (h : ∀ ms, marks = some ms → CanonicalMarks ms) :
    canonicalMarks marks = marks := by
  cases marks with
  | none => rfl
  | some ms => exact canonicalMarks_of_canonical (h ms rfl)

/-! ## Inlines -/

theorem normalizeInline_canonical {raw inline : ContentInline} (h : normalizeInline raw = some inline) :
    inline.Canonical := by
  cases raw with
  | text run marks =>
    simp only [normalizeInline] at h
    split at h
    · cases h
    · rename_i hne
      obtain rfl := Option.some.inj h
      exact ⟨by simpa using hne, fun ms hms => canonicalMarks_canonical hms⟩
  | hardBreak | inlineMath =>
    obtain rfl := Option.some.inj h
    trivial

theorem normalizeInline_fixed {inline : ContentInline} (h : inline.Canonical) :
    normalizeInline inline = some inline := by
  cases inline with
  | text run marks =>
    have hne : run.isEmpty = false := by simpa using h.1
    simp [normalizeInline, hne, canonicalMarks_fixed h.2]
  | _ => rfl

/-- The two ways the loop goes on from a result that ends in `last`. -/
theorem pushInline_concat (result : List ContentInline) (last inline : ContentInline)
    (hlast : last.Canonical) (hinline : inline.Canonical) :
    (¬ Mergeable last inline ∧ pushInline (result ++ [last]) inline = result ++ [last] ++ [inline]) ∨
    ∃ previous run marks, last = .text previous marks ∧ inline = .text run marks ∧
      pushInline (result ++ [last]) inline = result ++ [.text (previous ++ run) marks] := by
  cases last with
  | text previous previousMarks =>
    cases inline with
    | text run marks =>
      simp only [pushInline, List.getLast?_concat, List.dropLast_concat,
        canonicalMarks_fixed hlast.2, canonicalMarks_fixed hinline.2, Mergeable]
      by_cases heq : previousMarks = marks
      · subst heq
        exact .inr ⟨previous, run, previousMarks, rfl, rfl, if_pos rfl⟩
      · exact .inl ⟨heq, if_neg heq⟩
    | _ => exact .inl ⟨id, by simp [pushInline]⟩
  | _ => exact .inl ⟨id, by simp [pushInline]⟩

theorem canonicalInlines_concat {result : List ContentInline} {last : ContentInline} :
    CanonicalInlines (result ++ [last]) ↔
      CanonicalInlines result ∧ last.Canonical ∧ ∀ previous ∈ result.getLast?,
        ¬ Mergeable previous last := by
  constructor
  · intro h
    obtain ⟨hres, -, hsep⟩ := List.isChain_append.mp h.separate
    exact ⟨⟨fun a ha => h.each a (List.mem_append_left _ ha), hres⟩,
      h.each last (List.mem_append_right _ (List.mem_singleton_self last)),
      fun previous hp => hsep previous hp last rfl⟩
  · rintro ⟨hres, hlast, hsep⟩
    refine ⟨fun a ha => ?_, List.isChain_append.mpr ⟨hres.separate, .singleton last,
        fun a ha b hb => ?_⟩⟩
    · rcases List.mem_append.mp ha with ha | ha
      · exact hres.each a ha
      · rw [List.mem_singleton.mp ha]
        exact hlast
    · obtain rfl : last = b := Option.some.inj hb
      exact hsep a ha

theorem pushInline_canonical {result : List ContentInline} {inline : ContentInline}
    (hr : CanonicalInlines result) (hi : inline.Canonical) :
    CanonicalInlines (pushInline result inline) := by
  rcases List.eq_nil_or_concat' result with rfl | ⟨result, last, rfl⟩
  · exact ⟨fun a ha => List.mem_singleton.mp ha ▸ hi, .singleton inline⟩
  obtain ⟨hres, hlast, hsep⟩ := canonicalInlines_concat.mp hr
  rcases pushInline_concat result last inline hlast hi with ⟨hne, heq⟩ | ⟨previous, run, marks,
    rfl, rfl, heq⟩
  · rw [heq]
    refine canonicalInlines_concat.mpr ⟨hr, hi, fun p hp => ?_⟩
    rw [List.getLast?_concat] at hp
    obtain rfl := Option.some.inj hp
    exact hne
  · rw [heq]
    refine canonicalInlines_concat.mpr ⟨hres, ⟨?_, hlast.2⟩, fun p hp hm => hsep p hp ?_⟩
    · exact List.append_ne_nil_of_left_ne_nil hlast.1 run
    · cases p with
      | text _ _ => exact hm
      | _ => exact hm

/-- An invariant of the loop: what a push of a canonical inline keeps. -/
theorem foldl_pushInline {I : List ContentInline → Prop}
    (hpush : ∀ result inline, I result → inline.Canonical → I (pushInline result inline))
    (inlines : List ContentInline) {result : List ContentInline} (hr : I result) :
    I (inlines.foldl (fun result raw => ((normalizeInline raw).map (pushInline result)).getD result)
        result) := by
  induction inlines generalizing result with
  | nil => exact hr
  | cons raw inlines ih =>
    rw [List.foldl_cons]
    cases hraw : normalizeInline raw with
    | none => exact ih hr
    | some inline => exact ih (hpush result inline hr (normalizeInline_canonical hraw))

theorem normalizeInlineList_canonical (inlines : List ContentInline) :
    CanonicalInlines (normalizeInlineList inlines) :=
  foldl_pushInline (fun _ _ hr hi => pushInline_canonical hr hi) inlines
    ⟨fun _ h => absurd h List.not_mem_nil, .nil⟩

theorem foldl_fixed (inlines : List ContentInline) {result : List ContentInline}
    (h : CanonicalInlines (result ++ inlines)) :
    inlines.foldl (fun result raw => ((normalizeInline raw).map (pushInline result)).getD result)
      result = result ++ inlines := by
  induction inlines generalizing result with
  | nil => simp
  | cons inline inlines ih =>
    rw [List.append_cons] at h
    have hinit : CanonicalInlines (result ++ [inline]) :=
      ⟨fun a ha => h.each a (List.mem_append_left _ ha), h.separate.left_of_append⟩
    obtain ⟨hres, hi, hsep⟩ := canonicalInlines_concat.mp hinit
    have hpush : pushInline result inline = result ++ [inline] := by
      rcases List.eq_nil_or_concat' result with rfl | ⟨front, last, rfl⟩
      · rfl
      rcases pushInline_concat front last inline (canonicalInlines_concat.mp hres).2.1 hi with ⟨-,
        heq⟩ | ⟨previous, run, marks, rfl, rfl, -⟩
      · exact heq
      · exact absurd rfl (hsep _ (List.getLast?_concat ..))
    rw [List.foldl_cons, normalizeInline_fixed hi, Option.map_some, Option.getD_some, hpush, ih h,
      ← List.append_cons]

theorem normalizeInlineList_fixed {content : List ContentInline} (h : CanonicalInlines content) :
    normalizeInlineList content = content :=
  @foldl_fixed content [] h

/-! ## Lists -/

section
variable {α : Type} {p : α → Bool} {l : List α}

theorem rdropWhile_last (last : α) (h : last ∈ (l.rdropWhile p).getLast?) : p last = false := by
  have hne : l.rdropWhile p ≠ [] := by
    intro hnil
    rw [hnil] at h
    exact absurd h (Option.not_mem_none _)
  have hlast := List.rdropWhile_last_not p l hne
  rw [List.getLast?_eq_some_getLast hne] at h
  obtain rfl := Option.some.inj h
  simpa using hlast

theorem rdropWhile_fixed (h : ∀ last ∈ l.getLast?, p last = false) : l.rdropWhile p = l := by
  rw [List.rdropWhile_eq_self_iff]
  intro hne
  rw [h _ (List.getLast?_eq_some_getLast hne)]
  exact Bool.false_ne_true

end

theorem map_fixed {α : Type} {f : α → α} {l : List α} (h : ∀ a ∈ l, f a = a) : l.map f = l := by
  rw [List.map_congr_left h, List.map_id']

theorem ContentItemChild.isBlank_eq (child : ContentItemChild) :
    child.isBlank = true ↔ child = .paragraph [] := by
  cases child with
  | paragraph content => simp [ContentItemChild.isBlank]
  | list _ _ => simp [ContentItemChild.isBlank]

theorem mem_normalizeItems {items : List ContentListItem} {item : ContentListItem}
    (h : item ∈ normalizeItems items) :
    item ≠ [] ∧ ∃ raw ∈ items, item = normalizeListItemChildren raw := by
  rw [normalizeItems_eq] at h
  obtain ⟨hmem, hne⟩ := List.mem_filter.mp h
  obtain ⟨raw, hraw, rfl⟩ := List.mem_map.mp hmem
  exact ⟨by simpa using hne, raw, hraw, rfl⟩

theorem normalizeItems_canonical {type : ContentListType} {items : List ContentListItem}
    (hne : normalizeItems items ≠ [])
    (h : ∀ item ∈ items, ∀ child ∈ item, ∀ c, normalizeItemChild child = some c → c.Canonical) :
    (ContentItemChild.list type (normalizeItems items)).Canonical := by
  refine .list hne (fun item hitem => (mem_normalizeItems hitem).1)
    (fun item hitem last hlast heq => ?_) fun item hitem child hchild => ?_
  · obtain ⟨-, raw, -, rfl⟩ := mem_normalizeItems hitem
    have hblank := rdropWhile_last last hlast
    rw [heq] at hblank
    cases hblank
  · obtain ⟨-, raw, hraw, rfl⟩ := mem_normalizeItems hitem
    have hmem : child ∈ normalizeChildren raw := (List.rdropWhile_prefix _ _).subset hchild
    rw [normalizeChildren_eq] at hmem
    obtain ⟨c, hc, heq⟩ := List.mem_filterMap.mp hmem
    exact h raw hraw c hc child heq

theorem normalizeItemChild_canonical (child : ContentItemChild) :
    ∀ c, normalizeItemChild child = some c → c.Canonical := by
  induction child using ContentItemChild.induct with
  | paragraph content =>
    intro c h
    simp only [normalizeItemChild, Option.some.injEq] at h
    exact h ▸ .paragraph (normalizeInlineList_canonical content)
  | list type items ih =>
    intro c h
    simp only [normalizeItemChild] at h
    split at h
    · cases h
    · rename_i hne
      obtain rfl := Option.some.inj h
      exact normalizeItems_canonical (by simpa using hne) ih

theorem normalizeItems_fixed {items : List ContentListItem} (hne : ∀ item ∈ items, item ≠ [])
    (htrailing : ∀ item ∈ items, ∀ last ∈ item.getLast?, last ≠ .paragraph [])
    (h : ∀ item ∈ items, ∀ child ∈ item, normalizeItemChild child = some child) :
    normalizeItems items = items := by
  have hitem : ∀ item ∈ items, normalizeListItemChildren item = item := by
    intro item hitem
    have hchildren : item.filterMap normalizeItemChild = item := by
      rw [List.filterMap_congr (h item hitem), List.filterMap_some]
    rw [normalizeListItemChildren, normalizeChildren_eq, hchildren]
    refine rdropWhile_fixed fun last hlast => ?_
    rw [Bool.eq_false_iff, ne_eq, ContentItemChild.isBlank_eq]
    exact htrailing item hitem last hlast
  rw [normalizeItems_eq, map_fixed hitem]
  refine List.filter_eq_self.mpr fun item hmem => ?_
  simpa using hne item hmem

theorem normalizeItemChild_fixed {child : ContentItemChild} (h : child.Canonical) :
    normalizeItemChild child = some child := by
  induction h with
  | paragraph h => rw [normalizeItemChild, normalizeInlineList_fixed h]
  | list items nonempty trailing _ ih =>
    rw [normalizeItemChild, normalizeItems_fixed nonempty trailing ih]
    exact if_neg (by simpa using items)

/-! ## Documents -/

theorem normalizeBlock_canonical {raw block : ContentBlock} (h : normalizeBlock raw = some block) :
    block.Canonical := by
  cases raw with
  | paragraph content =>
    obtain rfl := Option.some.inj h
    exact normalizeInlineList_canonical content
  | list type content =>
    simp only [normalizeBlock] at h
    split at h
    · cases h
    · rename_i hne
      obtain rfl := Option.some.inj h
      exact normalizeItems_canonical (by simpa using hne) fun _ _ child _ =>
        normalizeItemChild_canonical child
  | codeBlock language text =>
    obtain rfl := Option.some.inj h
    exact fun l hl => (Option.filter_eq_some_iff.mp hl).2
  | blockMath latex =>
    obtain rfl := Option.some.inj h
    trivial
  | table content =>
    obtain rfl := Option.some.inj h
    intro row hrow cell hcell paragraph hparagraph
    obtain ⟨row, -, rfl⟩ := List.mem_map.mp hrow
    obtain ⟨cell, -, rfl⟩ := List.mem_map.mp hcell
    obtain ⟨paragraph, -, rfl⟩ := List.mem_map.mp hparagraph
    exact normalizeInlineList_canonical paragraph

theorem normalizeBlock_fixed {block : ContentBlock} (h : block.Canonical) :
    normalizeBlock block = some block := by
  cases block with
  | paragraph content =>
    exact congrArg (fun c => some (ContentBlock.paragraph c)) (normalizeInlineList_fixed h)
  | list type content =>
    have hchild := normalizeItemChild_fixed h
    simp only [normalizeItemChild] at hchild
    simp only [normalizeBlock]
    split at hchild
    · cases hchild
    · rename_i hne
      have hitems : normalizeItems content = content := by simpa using hchild
      rw [if_neg hne, hitems]
  | codeBlock language text =>
    have hlanguage : language.filter isCodeLanguage = language := by
      cases language with
      | none => rfl
      | some l => exact Option.filter_eq_some_iff.mpr ⟨rfl, h l rfl⟩
    rw [normalizeBlock, hlanguage]
  | blockMath latex => rfl
  | table content =>
    have hrows : (content.map fun row => row.map fun cell => cell.map normalizeInlineList) =
        content := by
      refine map_fixed fun row hrow => map_fixed fun cell hcell =>
        map_fixed fun paragraph hparagraph => ?_
      exact normalizeInlineList_fixed (h row hrow cell hcell paragraph hparagraph)
    rw [normalizeBlock, hrows]

theorem normalizeContentDocument_canonical (doc : ContentDocumentV1) :
    (normalizeContentDocument doc).Canonical := by
  have hblocks : ∀ block ∈ (normalizeContentDocument doc).content, block.Canonical := by
    intro block hblock
    have hmem := (List.rdropWhile_prefix _ _).subset hblock
    obtain ⟨raw, -, hraw⟩ := List.mem_filterMap.mp hmem
    exact normalizeBlock_canonical hraw
  refine ⟨hblocks, fun last hlast heq => ?_⟩
  have hempty := rdropWhile_last last hlast
  rw [heq] at hempty
  cases hempty

theorem isEmptyParagraph_canonical {block : ContentBlock} (h : block.Canonical)
    (hempty : isEmptyParagraph block = true) :
    block = .paragraph [] := by
  cases block with
  | paragraph content =>
    cases content with
    | nil => rfl
    | cons inline content =>
      have hinline := h.each inline List.mem_cons_self
      cases inline with
      | text run marks =>
        have hrun : run.isEmpty = false := by simpa using hinline.1
        simp [isEmptyParagraph, ContentInline.isEmptyText, hrun] at hempty
      | hardBreak | inlineMath => simp [isEmptyParagraph, ContentInline.isEmptyText] at hempty
  | _ => cases hempty

theorem normalizeContentDocument_eq_self {doc : ContentDocumentV1} :
    normalizeContentDocument doc = doc ↔ doc.Canonical := by
  constructor
  · exact fun h => h ▸ normalizeContentDocument_canonical doc
  · intro h
    have hblocks : doc.content.filterMap normalizeBlock = doc.content := by
      rw [List.filterMap_congr fun block hblock => normalizeBlock_fixed (h.blocks block hblock),
        List.filterMap_some]
    rw [normalizeContentDocument, hblocks, rdropWhile_fixed]
    intro last hlast
    rw [Bool.eq_false_iff]
    intro hempty
    exact h.trailing last hlast
      (isEmptyParagraph_canonical (h.blocks last (List.mem_of_mem_getLast? hlast)) hempty)

end ExamSystem
