import ExamSystem.ContentSchema
import ExamSystem.Pairs

/-!
# Durable strings

The search for an unrepresentable unit looks at the neighbours of each unit. It
finds none exactly in the UTF-16 text of some characters other than NUL, and
the strings of a canonical document are such texts.
-/

namespace ExamSystem

open Pairs

/-! ## The search -/

/-- Whether `UNREPRESENTABLE_CHAR` matches at an index. -/
def unrepresentableAt (value : JsString) (i : Nat) : Bool :=
  value[i]? == some 0 || (value[i]?.any isHighSurrogate && !value[i + 1]?.any isLowSurrogate) ||
    (value[i]?.any isLowSurrogate && !(decide (0 < i) && value[i - 1]?.any isHighSurrogate))

/-- The match at an index, when the string follows a high surrogate or not. -/
def unrepresentableAfter (afterHigh : Bool) (value : JsString) (i : Nat) : Bool :=
  value[i]? == some 0 || (value[i]?.any isHighSurrogate && !value[i + 1]?.any isLowSurrogate) ||
    (value[i]?.any isLowSurrogate && !(if i = 0 then afterHigh else value[i - 1]?.any isHighSurrogate))

theorem unrepresentableAfter_succ (afterHigh : Bool) (u : UInt16) (rest : JsString) (i : Nat) :
    unrepresentableAfter afterHigh (u :: rest) (i + 1) = unrepresentableAfter
      (isHighSurrogate u) rest i := by
  cases i <;> simp [unrepresentableAfter]

theorem unrepresentableFrom_iff (afterHigh : Bool) (value : JsString) :
    unrepresentableFrom afterHigh value = true ↔
    ∃ i, unrepresentableAfter afterHigh value i = true := by
  induction value generalizing afterHigh with
  | nil => simp [unrepresentableFrom, unrepresentableAfter]
  | cons u rest ih =>
    have hhead : unrepresentableAfter afterHigh (u :: rest) 0 =
        (u == 0 || (isHighSurrogate u && !(rest.head?.any isLowSurrogate)) ||
            (isLowSurrogate u && !afterHigh)) := by
      simp [unrepresentableAfter, List.head?_eq_getElem?]
    rw [unrepresentableFrom, ← hhead, Bool.or_eq_true, ih]
    constructor
    · rintro (h | ⟨i, h⟩)
      · exact ⟨0, h⟩
      · exact ⟨i + 1, (unrepresentableAfter_succ afterHigh u rest i).trans h⟩
    · rintro ⟨i, h⟩
      cases i with
      | zero => exact .inl h
      | succ i => exact .inr ⟨i, (unrepresentableAfter_succ afterHigh u rest i).symm.trans h⟩

theorem isDurableRichString_search (value : JsString) :
    isDurableRichString value = true ↔ ∀ i, unrepresentableAt value i = false := by
  have hat : ∀ i, unrepresentableAfter false value i = unrepresentableAt value i := by
    intro i
    cases i <;> simp [unrepresentableAfter, unrepresentableAt]
  rw [isDurableRichString, Bool.not_eq_true', ← Bool.not_eq_true, unrepresentableFrom_iff]
  simp only [hat, not_exists, Bool.not_eq_true]

/-! ## Well-formed strings -/

def WellFormed (s : JsString) : Prop := Paired isHighSurrogate isLowSurrogate s

theorem surrogates_disjoint (u : UInt16) (h : isHighSurrogate u = true) : isLowSurrogate u = false := by
  simp only [isHighSurrogate, isLowSurrogate, Bool.and_eq_true, decide_eq_true_eq,
    Bool.and_eq_false_iff, decide_eq_false_iff_not, UInt16.le_iff_toNat_le] at h ⊢
  have hhigh : (0xDBFF : UInt16).toNat < (0xDC00 : UInt16).toNat := by decide
  omega

theorem unrepresentableFrom_eq_false {afterHigh : Bool} {value : JsString} :
    unrepresentableFrom afterHigh value = false ↔ 0 ∉ value ∧
    Local isHighSurrogate isLowSurrogate afterHigh value := by
  induction value generalizing afterHigh with
  | nil => simp [unrepresentableFrom, Local.nil]
  | cons u rest ih =>
    simp only [unrepresentableFrom, Bool.or_eq_false_iff, ih, List.mem_cons, not_or]
    constructor
    · rintro ⟨⟨⟨hnul, hhigh⟩, hlow⟩, hrest, hlocal⟩
      refine ⟨⟨fun h => ?_, hrest⟩, .cons (fun h => ?_) (fun h => ?_) hlocal⟩
      · simp [← h] at hnul
      · simpa [h] using hhigh
      · simpa [h] using hlow
    · rintro ⟨⟨hnul, hrest⟩, hlocal⟩
      obtain _ | ⟨ahead, behind, hlocal⟩ := hlocal
      refine ⟨⟨⟨?_, ?_⟩, ?_⟩, hrest, hlocal⟩
      · simpa using fun h => hnul h.symm
      · cases hh : isHighSurrogate u with
        | false => rfl
        | true => simp [ahead hh]
      · cases hl : isLowSurrogate u with
        | false => rfl
        | true => simp [behind hl]

theorem isDurableRichString_iff (value : JsString) :
    isDurableRichString value = true ↔ WellFormed value ∧ 0 ∉ value := by
  rw [isDurableRichString, Bool.not_eq_true', unrepresentableFrom_eq_false, WellFormed,
    paired_iff_local surrogates_disjoint, and_comm]

theorem isDurableRichString_append {s t : JsString} (hs : isDurableRichString s = true)
    (ht : isDurableRichString t = true) :
    isDurableRichString (s ++ t) = true := by
  rw [isDurableRichString_iff] at hs ht ⊢
  refine ⟨hs.1.append ht.1, ?_⟩
  rw [List.mem_append, not_or]
  exact ⟨hs.2, ht.2⟩

def units (c : Char) : JsString :=
  if c.val < 0x10000 then [c.val.toUInt16]
  else [(0xD800 + (c.val - 0x10000) / 0x400).toUInt16, (0xDC00 + (c.val - 0x10000) % 0x400).toUInt16]

theorem isHighSurrogate_iff {u : UInt16} :
    isHighSurrogate u = true ↔ 0xD800 ≤ u.toNat ∧ u.toNat ≤ 0xDBFF := by
  simp only [isHighSurrogate, Bool.and_eq_true, decide_eq_true_eq, UInt16.le_iff_toNat_le]
  exact Iff.rfl

theorem isLowSurrogate_iff {u : UInt16} :
    isLowSurrogate u = true ↔ 0xDC00 ≤ u.toNat ∧ u.toNat ≤ 0xDFFF := by
  simp only [isLowSurrogate, Bool.and_eq_true, decide_eq_true_eq, UInt16.le_iff_toNat_le]
  exact Iff.rfl

theorem units_cases (c : Char) :
    (c.toNat < 0x10000 ∧ ∃ u : UInt16, units c = [u] ∧ u.toNat = c.toNat) ∨
      (0x10000 ≤ c.toNat ∧ ∃ u v : UInt16, units c = [u, v] ∧
        u.toNat = 0xD800 + (c.toNat - 0x10000) / 0x400 ∧
        v.toNat = 0xDC00 + (c.toNat - 0x10000) % 0x400) := by
  have hvalid := c.valid
  unfold units
  by_cases h : c.val < 0x10000
  · have hlt : c.toNat < 0x10000 := h
    refine .inl ⟨hlt, c.val.toUInt16, if_pos h, ?_⟩
    simp only [UInt32.toNat_toUInt16]
    exact Nat.mod_eq_of_lt hlt
  · have hge : 0x10000 ≤ c.toNat := Nat.le_of_not_lt h
    have hle : c.toNat < 0x110000 := by
      rcases c.valid with hsmall | ⟨_, hlarge⟩
      · exact Nat.lt_trans hsmall (by decide)
      · exact hlarge
    have hsub : (c.val - 0x10000).toNat = c.toNat - 0x10000 :=
      UInt32.toNat_sub_of_le _ _ (UInt32.le_iff_toNat_le.mpr hge)
    refine .inr ⟨hge, _, _, if_neg h, ?_, ?_⟩
    · rw [UInt32.toNat_toUInt16, UInt32.toNat_add, UInt32.toNat_div, hsub]
      show (0xD800 + (c.toNat - 0x10000) / 0x400) % 2 ^ 32 % 2 ^ 16 = _
      omega
    · rw [UInt32.toNat_toUInt16, UInt32.toNat_add, UInt32.toNat_mod, hsub]
      show (0xDC00 + (c.toNat - 0x10000) % 0x400) % 2 ^ 32 % 2 ^ 16 = _
      omega

theorem exists_char {n : Nat} (h : n.isValidChar) : ∃ c : Char, c.toNat = n := ⟨Char.ofNatAux n h, rfl⟩

theorem exists_units_single {u : UInt16} (hh : isHighSurrogate u = false)
    (hl : isLowSurrogate u = false) : ∃ c, units c = [u] := by
  rw [← Bool.not_eq_true, isHighSurrogate_iff] at hh
  rw [← Bool.not_eq_true, isLowSurrogate_iff] at hl
  have hlt := u.toNat_lt
  obtain ⟨c, hc⟩ := exists_char (n := u.toNat) (by unfold Nat.isValidChar; omega)
  refine ⟨c, ?_⟩
  rcases units_cases c with ⟨_, v, hv, hval⟩ | ⟨hge, _⟩
  · rw [hv, UInt16.toNat_inj.mp (hval.trans hc)]
  · omega

theorem exists_units_pair {u v : UInt16} (hh : isHighSurrogate u = true)
    (hl : isLowSurrogate v = true) : ∃ c, units c = [u, v] := by
  rw [isHighSurrogate_iff] at hh
  rw [isLowSurrogate_iff] at hl
  obtain ⟨c, hc⟩ := exists_char (n := 0x10000 + (u.toNat - 0xD800) * 0x400 + (v.toNat - 0xDC00))
    (by unfold Nat.isValidChar; omega)
  refine ⟨c, ?_⟩
  rcases units_cases c with ⟨hlt, _⟩ | ⟨_, x, y, hxy, hx, hy⟩
  · omega
  · rw [hxy, UInt16.toNat_inj.mp (by omega : x.toNat = u.toNat),
      UInt16.toNat_inj.mp (by omega : y.toNat = v.toNat)]

theorem wellFormed_units (c : Char) : WellFormed (units c) := by
  rcases units_cases c with ⟨hlt, u, hu, hval⟩ | ⟨hge, u, v, huv, hx, hy⟩
  · have hvalid : c.toNat.isValidChar := c.valid
    unfold Nat.isValidChar at hvalid
    rw [hu]
    refine .single ?_ ?_ .nil
    · rw [← Bool.not_eq_true, isHighSurrogate_iff]
      omega
    · rw [← Bool.not_eq_true, isLowSurrogate_iff]
      omega
  · have hvalid : c.toNat.isValidChar := c.valid
    unfold Nat.isValidChar at hvalid
    rw [huv]
    refine .pair (isHighSurrogate_iff.mpr ?_) (isLowSurrogate_iff.mpr ?_) .nil
    · omega
    · omega

theorem wellFormed_iff (s : JsString) :
    WellFormed s ↔ ∃ chars : List Char, s = chars.flatMap units := by
  constructor
  · intro h
    induction h with
    | nil => exact ⟨[], rfl⟩
    | single ho hc _ ih =>
      obtain ⟨chars, rfl⟩ := ih
      obtain ⟨c, hunits⟩ := exists_units_single ho hc
      exact ⟨c :: chars, by rw [List.flatMap_cons, hunits]; rfl⟩
    | pair ho hc _ ih =>
      obtain ⟨chars, rfl⟩ := ih
      obtain ⟨c, hunits⟩ := exists_units_pair ho hc
      exact ⟨c :: chars, by rw [List.flatMap_cons, hunits]; rfl⟩
  · rintro ⟨chars, rfl⟩
    induction chars with
    | nil => exact .nil
    | cons c chars ih => exact (wellFormed_units c).append ih

theorem zero_mem_units (c : Char) : 0 ∈ units c ↔ c = '\x00' := by
  have hnul : c = '\x00' ↔ c.toNat = 0 := Char.toNat_inj.symm
  rw [hnul]
  rcases units_cases c with ⟨hlt, u, hu, hval⟩ | ⟨hge, u, v, huv, hx, hy⟩
  · rw [hu, List.mem_singleton, ← hval, ← UInt16.toNat_inj]
    exact eq_comm
  · rw [huv]
    simp only [List.mem_cons, List.not_mem_nil, or_false, ← UInt16.toNat_inj, hx, hy]
    have hzero : (0 : UInt16).toNat = 0 := rfl
    omega

theorem isDurableRichString_iff_chars (s : JsString) :
    isDurableRichString s = true ↔ ∃ chars : List Char, '\x00' ∉ chars ∧ s = chars.flatMap units := by
  have hzero : ∀ chars : List Char, 0 ∈ chars.flatMap units ↔ '\x00' ∈ chars := by
    intro chars
    simp only [List.mem_flatMap, zero_mem_units]
    exact ⟨fun ⟨c, hc, h⟩ => h ▸ hc, fun h => ⟨_, h, rfl⟩⟩
  rw [isDurableRichString_iff, wellFormed_iff]
  constructor
  · rintro ⟨⟨chars, rfl⟩, hnul⟩
    exact ⟨chars, mt (hzero chars).mpr hnul, rfl⟩
  · rintro ⟨chars, hnul, rfl⟩
    exact ⟨⟨chars, rfl⟩, mt (hzero chars).mp hnul⟩

/-! ## The strings of a document -/

section
variable (P : JsString → Prop)

def ContentInline.Every : ContentInline → Prop
  | .text run _ => P run
  | .hardBreak => True
  | .inlineMath latex => P latex

def ParagraphEvery (content : ContentParagraph) : Prop := ∀ inline ∈ content, inline.Every P

inductive ContentItemChild.Every : ContentItemChild → Prop
  | paragraph {content : ContentParagraph} (h : ParagraphEvery P content) : Every (.paragraph content)
  | list {type : ContentListType} {content : List ContentListItem}
      (h : ∀ item ∈ content, ∀ child ∈ item, Every child) :
    Every (.list type content)

def ContentBlock.Every : ContentBlock → Prop
  | .paragraph content => ParagraphEvery P content
  | .list _ content => ∀ item ∈ content, ∀ child ∈ item, child.Every P
  | .codeBlock language text => (∀ l ∈ language, P l) ∧ P text
  | .blockMath latex => P latex
  | .table content => ∀ row ∈ content, ∀ cell ∈ row, ∀ paragraph ∈ cell, ParagraphEvery P paragraph

def ContentDocumentV1.Every (doc : ContentDocumentV1) : Prop := ∀ block ∈ doc.content, block.Every P

inductive Json.Every : Json → Prop
  | null : Every .null
  | bool (b : Bool) : Every (.bool b)
  | num (n : JsNumber) : Every (.num n)
  | str {s : JsString} (h : P s) : Every (.str s)
  | arr {elements : List Json} (h : ∀ element ∈ elements, Every element) : Every (.arr elements)
  | obj {entries : List (JsString × Json)} (keys : ∀ entry ∈ entries, P entry.1)
      (values : ∀ entry ∈ entries, Every entry.2) :
    Every (.obj entries)

end

/-! ## Normalization -/

section
variable {P : JsString → Prop} (happend : ∀ {s t : JsString}, P s → P t → P (s ++ t))
include happend

theorem pushInline_every {result : List ContentInline} {inline : ContentInline}
    (hr : ParagraphEvery P result) (hi : inline.Every P) :
    ParagraphEvery P (pushInline result inline) := by
  have hpush : ParagraphEvery P (result ++ [inline]) := List.forall_mem_append.mpr ⟨hr,
    List.forall_mem_singleton.mpr hi⟩
  unfold pushInline
  split
  · rename_i previous previousMarks run marks hlast
    split
    · obtain ⟨front, rfl⟩ := List.getLast?_eq_some_iff.mp hlast
      rw [ParagraphEvery, List.forall_mem_append, List.forall_mem_singleton] at hr
      rw [List.dropLast_concat]
      exact List.forall_mem_append.mpr ⟨hr.1, List.forall_mem_singleton.mpr (happend hr.2 hi)⟩
    · exact hpush
  · exact hpush

omit happend in
theorem normalizeInline_every {raw inline : ContentInline} (hraw : raw.Every P)
    (h : normalizeInline raw = some inline) :
    inline.Every P := by
  cases raw with
  | text run marks =>
    simp only [normalizeInline] at h
    split at h
    · cases h
    · obtain rfl := Option.some.inj h
      exact hraw
  | _ =>
    obtain rfl := Option.some.inj h
    exact hraw

theorem normalizeInlineList_every {inlines : List ContentInline} (h : ParagraphEvery P inlines) :
    ParagraphEvery P (normalizeInlineList inlines) := by
  have hfold : ∀ result, ParagraphEvery P result →
      ParagraphEvery P
        (inlines.foldl (fun result raw => ((normalizeInline raw).map (pushInline result)).getD
            result) result) := by
    induction inlines with
    | nil => exact fun _ hr => hr
    | cons raw inlines ih =>
      intro result hr
      rw [ParagraphEvery, List.forall_mem_cons] at h
      rw [List.foldl_cons]
      refine ih h.2 _ ?_
      cases hnorm : normalizeInline raw with
      | none => exact hr
      | some inline => exact pushInline_every happend hr (normalizeInline_every h.1 hnorm)
  exact hfold [] fun _ h => absurd h List.not_mem_nil

omit happend in
theorem normalizeItems_every {items : List ContentListItem}
    (h : ∀ item ∈ items, ∀ child ∈ item, ∀ c, normalizeItemChild child = some c → c.Every P) :
    ∀ item ∈ normalizeItems items, ∀ child ∈ item, child.Every P := by
  intro item hitem child hchild
  obtain ⟨-, raw, hraw, rfl⟩ := mem_normalizeItems hitem
  have hmem : child ∈ normalizeChildren raw := (List.rdropWhile_prefix _ _).subset hchild
  rw [normalizeChildren_eq] at hmem
  obtain ⟨c, hc, heq⟩ := List.mem_filterMap.mp hmem
  exact h raw hraw c hc child heq

theorem normalizeItemChild_every {child : ContentItemChild} (hchild : child.Every P) :
    ∀ c, normalizeItemChild child = some c → c.Every P := by
  induction hchild with
  | paragraph h =>
    intro c hc
    obtain rfl := Option.some.inj hc
    exact .paragraph (normalizeInlineList_every happend h)
  | list _ ih =>
    intro c hc
    simp only [normalizeItemChild] at hc
    split at hc
    · cases hc
    · obtain rfl := Option.some.inj hc
      exact .list (normalizeItems_every ih)

theorem normalizeBlock_every {raw block : ContentBlock} (hraw : raw.Every P)
    (h : normalizeBlock raw = some block) : block.Every P := by
  cases raw with
  | paragraph content =>
    obtain rfl := Option.some.inj h
    exact normalizeInlineList_every happend hraw
  | list type content =>
    simp only [normalizeBlock] at h
    split at h
    · cases h
    · obtain rfl := Option.some.inj h
      exact normalizeItems_every fun item hitem child hchild => normalizeItemChild_every happend
        (hraw item hitem child hchild)
  | codeBlock language text =>
    obtain rfl := Option.some.inj h
    exact ⟨fun l hl => hraw.1 l (Option.mem_filter_iff.mp hl).1, hraw.2⟩
  | blockMath latex =>
    obtain rfl := Option.some.inj h
    exact hraw
  | table content =>
    obtain rfl := Option.some.inj h
    intro row hrow cell hcell paragraph hparagraph
    obtain ⟨rawRow, hrawRow, rfl⟩ := List.mem_map.mp hrow
    obtain ⟨rawCell, hrawCell, rfl⟩ := List.mem_map.mp hcell
    obtain ⟨rawParagraph, hrawParagraph, rfl⟩ := List.mem_map.mp hparagraph
    exact normalizeInlineList_every happend
      (hraw rawRow hrawRow rawCell hrawCell rawParagraph hrawParagraph)

theorem normalizeContentDocument_every {doc : ContentDocumentV1} (h : doc.Every P) :
    (normalizeContentDocument doc).Every P := by
  intro block hblock
  obtain ⟨raw, hraw, heq⟩ := List.mem_filterMap.mp ((List.rdropWhile_prefix _ _).subset hblock)
  exact normalizeBlock_every happend (h raw hraw) heq

end

/-! ## The JSON of a document -/

def grammarWords : List String :=
  ["docVersion", "doc", "type", "content", "text", "marks", "bold", "italic", "underline",
    "inlineCode", "hardBreak", "inlineMath", "latex",
    "paragraph", "bulletList", "orderedList", "listItem", "codeBlock", "language", "blockMath",
    "table", "tableRow", "tableCell"]

section
variable {P : JsString → Prop} (hwords : ∀ word ∈ grammarWords, P (js word))
include hwords

theorem every_nodeJson {type : String} {fields : List (JsString × Json)}
    (htype : type ∈ grammarWords) (keys : ∀ field ∈ fields, P field.1)
    (values : ∀ field ∈ fields, field.2.Every P) : (nodeJson type fields).Every P :=
  .obj (List.forall_mem_cons.mpr ⟨hwords "type" (by simp [grammarWords]), keys⟩)
    (List.forall_mem_cons.mpr ⟨.str (hwords type htype), values⟩)

theorem every_nodeWith {type : String} {content : List Json} (htype : type ∈ grammarWords)
    (h : ∀ node ∈ content, node.Every P) :
    (nodeWith type content).Every P :=
  every_nodeJson hwords htype
    (List.forall_mem_singleton.mpr (hwords "content" (by simp [grammarWords])))
    (List.forall_mem_singleton.mpr (.arr h))

theorem every_marks (marks : Option (List ContentMarkType)) :
    (∀ field ∈ marksField marks, P field.1) ∧ ∀ field ∈ marksField marks, field.2.Every P := by
  cases marks with
  | none => simp [marksField]
  | some marks =>
    refine ⟨List.forall_mem_singleton.mpr (hwords "marks" (by simp [grammarWords])),
      List.forall_mem_singleton.mpr (.arr ?_)⟩
    intro element helement
    obtain ⟨mark, -, rfl⟩ := List.mem_map.mp helement
    refine .str ?_
    cases mark with
    | bold => exact hwords "bold" (by simp [grammarWords])
    | italic => exact hwords "italic" (by simp [grammarWords])
    | underline => exact hwords "underline" (by simp [grammarWords])
    | inlineCode => exact hwords "inlineCode" (by simp [grammarWords])

theorem ContentInline.Every.toJson {inline : ContentInline} (h : inline.Every P) :
    inline.toJson.Every P := by
  cases inline with
  | text run marks =>
    obtain ⟨hkeys, hvalues⟩ := every_marks hwords marks
    exact every_nodeJson hwords (by simp [grammarWords])
      (List.forall_mem_cons.mpr ⟨hwords "text" (by simp [grammarWords]), hkeys⟩)
      (List.forall_mem_cons.mpr ⟨.str h, hvalues⟩)
  | hardBreak => exact every_nodeJson hwords (by simp [grammarWords]) (by simp) (by simp)
  | inlineMath latex =>
    exact every_nodeJson hwords (by simp [grammarWords])
      (List.forall_mem_singleton.mpr (hwords "latex" (by simp [grammarWords])))
        (List.forall_mem_singleton.mpr (.str h))

theorem every_paragraphJson {content : ContentParagraph} (h : ParagraphEvery P content) :
    (paragraphJson content).Every P := by
  refine every_nodeWith hwords (by simp [grammarWords]) (List.forall_mem_map.mpr ?_)
  exact fun inline hinline => (h inline hinline).toJson hwords

omit hwords in
theorem type_mem_grammarWords (type : ContentListType) : type.text ∈ grammarWords := by
  cases type <;> simp [grammarWords, ContentListType.text]

theorem every_itemsJson {items : List ContentListItem}
    (h : ∀ item ∈ items, ∀ child ∈ item, child.toJson.Every P) :
    ∀ node ∈ itemsJson items, node.Every P := by
  rw [itemsJson_eq]
  refine List.forall_mem_map.mpr fun item hitem => every_nodeWith hwords (by simp [grammarWords]) ?_
  rw [itemJson_eq]
  exact List.forall_mem_map.mpr (h item hitem)

theorem ContentItemChild.Every.toJson {child : ContentItemChild} (h : child.Every P) :
    child.toJson.Every P := by
  induction h with
  | paragraph h =>
    rw [ContentItemChild.toJson]
    exact every_paragraphJson hwords h
  | list _ ih =>
    rw [ContentItemChild.toJson]
    exact every_nodeWith hwords (type_mem_grammarWords _) (every_itemsJson hwords ih)

theorem ContentBlock.Every.toJson {block : ContentBlock} (h : block.Every P) :
    block.toJson.Every P := by
  cases block with
  | paragraph content => exact every_paragraphJson hwords h
  | list type content =>
    exact every_nodeWith hwords (type_mem_grammarWords type)
      (every_itemsJson hwords fun item hitem child hchild => (h item hitem child hchild).toJson hwords)
  | codeBlock language text =>
    have hlanguage : ((language.map Json.str).getD .null).Every P := by
      cases language with
      | none => exact .null
      | some l => exact .str (h.1 l rfl)
    refine every_nodeJson hwords (by simp [grammarWords]) ?_ ?_
    · exact List.forall_mem_cons.mpr ⟨hwords "language" (by simp [grammarWords]),
        List.forall_mem_singleton.mpr (hwords "text" (by simp [grammarWords]))⟩
    · exact List.forall_mem_cons.mpr ⟨hlanguage, List.forall_mem_singleton.mpr (.str h.2)⟩
  | blockMath latex =>
    exact every_nodeJson hwords (by simp [grammarWords])
      (List.forall_mem_singleton.mpr (hwords "latex" (by simp [grammarWords])))
        (List.forall_mem_singleton.mpr (.str h))
  | table content =>
    refine every_nodeWith hwords (by simp [grammarWords]) (List.forall_mem_map.mpr fun row hrow => ?_)
    refine every_nodeWith hwords (by simp [grammarWords]) (List.forall_mem_map.mpr fun cell hcell => ?_)
    refine every_nodeWith hwords (by simp [grammarWords])
      (List.forall_mem_map.mpr fun paragraph hparagraph => ?_)
    exact every_paragraphJson hwords (h row hrow cell hcell paragraph hparagraph)

theorem ContentDocumentV1.Every.toJson {doc : ContentDocumentV1} (h : doc.Every P) :
    doc.toJson.Every P := by
  refine .obj ?_ ?_
  · simp only [List.forall_mem_cons]
    exact ⟨hwords "docVersion" (by simp [grammarWords]), hwords "type" (by simp [grammarWords]),
      hwords "content" (by simp [grammarWords]), fun _ h => absurd h List.not_mem_nil⟩
  · simp only [List.forall_mem_cons]
    refine ⟨.num _, .str (hwords "doc" (by simp [grammarWords])), .arr ?_,
      fun _ h => absurd h List.not_mem_nil⟩
    exact List.forall_mem_map.mpr fun block hblock => (h block hblock).toJson hwords

end

/-! ## Valid documents -/

theorem isDurableRichString_words : ∀ word ∈ grammarWords, isDurableRichString (js word) = true :=
  List.all_eq_true.mp (by decide)

theorem durableWithin_durable {min max : Nat} {s : JsString} (h : durableWithin min max s = true) :
    isDurableRichString s = true := by
  simp only [durableWithin, Bool.and_eq_true] at h
  exact h.2

theorem isLanguageUnit_bounds {u : UInt16} (h : isLanguageUnit u = true) :
    0 < u.toNat ∧ u.toNat < 0xD800 := by
  have hsigns : (js "+#._-").contains u = true → 0 < u.toNat ∧ u.toNat < 0xD800 := by
    rw [List.contains_iff_mem, (by decide : js "+#._-" = [0x2B, 0x23, 0x2E, 0x5F, 0x2D])]
    simp only [List.mem_cons, List.not_mem_nil, or_false]
    rintro (rfl | rfl | rfl | rfl | rfl) <;> decide
  have hrange : ∀ {low high : UInt16}, 0 < low.toNat → high.toNat < 0xD800 → low ≤ u → u ≤ high →
      0 < u.toNat ∧ u.toNat < 0xD800 := by
    intro low high hlow hhigh hle hge
    rw [UInt16.le_iff_toNat_le] at hle hge
    omega
  simp only [isLanguageUnit, Bool.or_eq_true, Bool.and_eq_true, decide_eq_true_eq] at h
  rcases h with ((⟨hle, hge⟩ | ⟨hle, hge⟩) | ⟨hle, hge⟩) | h
  · exact hrange (by decide) (by decide) hle hge
  · exact hrange (by decide) (by decide) hle hge
  · exact hrange (by decide) (by decide) hle hge
  · exact hsigns h

theorem isCodeLanguage_durable {language : JsString} (h : isCodeLanguage language = true) :
    isDurableRichString language = true := by
  simp only [isCodeLanguage, Bool.and_eq_true, List.all_eq_true] at h
  have hbounds : ∀ u ∈ language, 0 < u.toNat ∧ u.toNat < 0xD800 :=
    fun u hu => isLanguageUnit_bounds (h.2 u hu)
  rw [isDurableRichString_iff]
  refine ⟨paired_of_forall fun u hu => ?_, fun hnul => ?_⟩
  · have hlt := (hbounds u hu).2
    rw [← Bool.not_eq_true, ← Bool.not_eq_true, isHighSurrogate_iff, isLowSurrogate_iff]
    omega
  · exact absurd (hbounds 0 hnul).1 (by decide)

theorem ContentInline.every_of_valid {inline : ContentInline} (h : inline.valid = true) :
    inline.Every (isDurableRichString · = true) := by
  cases inline with
  | text run marks =>
    simp only [ContentInline.valid, Bool.and_eq_true] at h
    exact durableWithin_durable h.1
  | hardBreak => trivial
  | inlineMath latex => exact durableWithin_durable h

theorem every_of_paragraphValid {content : ContentParagraph} (h : paragraphValid content = true) :
    ParagraphEvery (isDurableRichString · = true) content :=
  fun inline hinline => ContentInline.every_of_valid (List.all_eq_true.mp h inline hinline)

theorem every_of_itemsValid {items : List ContentListItem}
    (hchildren : ∀ item ∈ items, ∀ child ∈ item, child.valid = true →
      child.Every (isDurableRichString · = true)) (h : itemsValid items = true) :
    ∀ item ∈ items, ∀ child ∈ item, child.Every (isDurableRichString · = true) := by
  intro item hitem child hchild
  rw [itemsValid_eq] at h
  have hitemValid := List.all_eq_true.mp h item hitem
  rw [itemValid_eq] at hitemValid
  exact hchildren item hitem child hchild (List.all_eq_true.mp hitemValid child hchild)

theorem ContentItemChild.every_of_valid (child : ContentItemChild) :
    child.valid = true → child.Every (isDurableRichString · = true) := by
  induction child using ContentItemChild.induct with
  | paragraph content => exact fun h => .paragraph (every_of_paragraphValid h)
  | list type items ih => exact fun h => .list (every_of_itemsValid ih h)

theorem ContentBlock.every_of_valid {block : ContentBlock} (h : block.valid = true) :
    block.Every (isDurableRichString · = true) := by
  cases block with
  | paragraph content => exact every_of_paragraphValid h
  | list type content => exact every_of_itemsValid (fun _ _ child _ => child.every_of_valid) h
  | codeBlock language text =>
    simp only [ContentBlock.valid, Bool.and_eq_true] at h
    exact ⟨fun l hl => isCodeLanguage_durable (by simpa [Option.mem_def.mp hl] using h.1),
      durableWithin_durable h.2⟩
  | blockMath latex => exact durableWithin_durable h
  | table content =>
    simp only [ContentBlock.valid, Bool.and_eq_true, List.all_eq_true] at h
    intro row hrow cell hcell paragraph hparagraph
    have hrowValid := h.1 row hrow
    simp only [rowValid, Bool.and_eq_true, List.all_eq_true] at hrowValid
    have hcellValid := hrowValid.1 cell hcell
    simp only [cellValid, Bool.and_eq_true, List.all_eq_true] at hcellValid
    exact every_of_paragraphValid (hcellValid.1 paragraph hparagraph)

theorem ContentDocumentV1.every_of_valid {doc : ContentDocumentV1} (h : doc.valid = true) :
    doc.Every (isDurableRichString · = true) :=
  fun block hblock => ContentBlock.every_of_valid (List.all_eq_true.mp h block hblock)

/-- The search accepts the well-formed strings without NUL, normalization keeps
them, and a canonical document holds no other string. -/
theorem durable_strings [Host] :
    (∀ s, isDurableRichString s = true ↔ WellFormed s ∧ 0 ∉ s) ∧
    (∀ s t, isDurableRichString s = true → isDurableRichString t = true →
      isDurableRichString (s ++ t) = true) ∧
    (∀ inlines, ParagraphEvery (isDurableRichString · = true) inlines →
      ParagraphEvery (isDurableRichString · = true) (normalizeInlineList inlines)) ∧
    (∀ value doc, ContentDocumentV1Schema value = some doc →
      (normalizeContentDocument doc).toJson.Every fun s => WellFormed s ∧ 0 ∉ s) ∧
    ∀ doc v, canonicalizeContentDocument doc = some v → v.toJson.Every fun s => WellFormed s ∧
    0 ∉ s := by
  have hdurable : (isDurableRichString · = true) = fun s => WellFormed s ∧ 0 ∉ s :=
    funext fun s => propext (isDurableRichString_iff s)
  have hnormalized : ∀ doc : ContentDocumentV1, doc.valid = true →
      (normalizeContentDocument doc).toJson.Every fun s => WellFormed s ∧ 0 ∉ s := by
    intro doc hvalid
    rw [← hdurable]
    exact (normalizeContentDocument_every isDurableRichString_append
        (ContentDocumentV1.every_of_valid hvalid)).toJson
      isDurableRichString_words
  refine ⟨isDurableRichString_iff, fun _ _ => isDurableRichString_append,
    fun _ => normalizeInlineList_every isDurableRichString_append, fun value doc h => ?_,
    fun doc v h => ?_⟩
  · exact hnormalized doc (ContentDocumentV1Schema_valid h).1
  · rw [← hdurable]
    have hschema := (canonicalizeContentDocument_some h).2
    exact (ContentDocumentV1.every_of_valid (ContentDocumentV1Schema_valid hschema).1).toJson
      isDurableRichString_words

/-- A pair is durable, and half of one is not. -/
theorem durable_strings_sample :
    isDurableRichString [0x61, 0xD83D, 0xDE00, 0x62] = true ∧ isDurableRichString [0xD83D] = false ∧
    ∃ v, @canonicalizeContentDocument sampleHost sampleRuns = some v ∧ v.toJson.Every fun s =>
      WellFormed s ∧ 0 ∉ s := by
  refine ⟨by decide, by decide, ?_⟩
  obtain ⟨v, hv⟩ :=
    Option.isSome_iff_exists.mp
      (by decide +kernel : (@canonicalizeContentDocument sampleHost sampleRuns).isSome = true)
  exact ⟨v, hv, (@durable_strings sampleHost).2.2.2.2 sampleRuns v hv⟩

end ExamSystem
