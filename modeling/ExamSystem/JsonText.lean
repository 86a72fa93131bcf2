import ExamSystem.Json

/-!
# JSON texts

Values over a type of numbers, their texts, and equality up to the order of
keys. A text can be decoded: it decides the value and where the text ends.
-/

namespace ExamSystem

/-! ## The text of a string -/

def unescapeLetter (letter : UInt16) : UInt16 :=
  if letter = 0x62 then 0x8 else if letter = 0x66 then 0xC else if letter = 0x6E then 0xA
  else if letter = 0x72 then 0xD else if letter = 0x74 then 0x9 else letter

theorem js_quote : js "\"" = [0x22] := by decide

theorem js_unicode : js "\\u" = [0x5C, 0x75] := by decide

theorem escapeUnit_cases (u : UInt16) :
    (∃ letter, escapeUnits.escapeUnit u = [0x5C, letter] ∧ letter ≠ 0x75 ∧ unescapeLetter letter = u) ∨
      escapeUnits.escapeUnit u = unicodeEscape u ∨ (escapeUnits.escapeUnit u = [u] ∧ u ≠ 0x22 ∧
        u ≠ 0x5C) := by
  unfold escapeUnits.escapeUnit
  by_cases hquote : u = 0x22
  · exact .inl ⟨0x22, by subst hquote; decide⟩
  by_cases hslash : u = 0x5C
  · exact .inl ⟨0x5C, by subst hslash; decide⟩
  by_cases hb : u = 0x8
  · exact .inl ⟨0x62, by subst hb; decide⟩
  by_cases hf : u = 0xC
  · exact .inl ⟨0x66, by subst hf; decide⟩
  by_cases hn : u = 0xA
  · exact .inl ⟨0x6E, by subst hn; decide⟩
  by_cases hr : u = 0xD
  · exact .inl ⟨0x72, by subst hr; decide⟩
  by_cases ht : u = 0x9
  · exact .inl ⟨0x74, by subst ht; decide⟩
  simp only [beq_iff_eq, hquote, hslash, hb, hf, hn, hr, ht, if_false]
  split
  · exact .inr (.inl rfl)
  · exact .inr (.inr ⟨rfl, hquote, hslash⟩)

def fromHexDigit (h : UInt16) : UInt16 := if h < 0x3A then h - 0x30 else h - 0x57

theorem fromHexDigit_hexDigit {n : UInt16} (h : n < 0x10) : fromHexDigit (hexDigit n) = n := by
  have hall : ∀ k < 16, fromHexDigit (hexDigit (UInt16.ofNat k)) = UInt16.ofNat k := by decide
  simpa using hall n.toNat h

theorem hexDigit_injective {m n : UInt16} (hm : m < 0x10) (hn : n < 0x10)
    (h : hexDigit m = hexDigit n) : m = n := by
  rw [← fromHexDigit_hexDigit hm, h, fromHexDigit_hexDigit hn]

theorem unicodeEscape_injective {u v : UInt16} (h : unicodeEscape u = unicodeEscape v) : u = v := by
  simp only [unicodeEscape, js_unicode, List.append_cancel_left_eq, List.cons.injEq, and_true] at h
  obtain ⟨h₃, h₂, h₁, h₀⟩ := h
  have hbound : ∀ w : UInt16, w / 0x1000 < 0x10 ∧ w / 0x100 % 0x10 < 0x10 ∧ w / 0x10 % 0x10 < 0x10 ∧
      w % 0x10 < 0x10 := by
    intro w
    have hw := w.toNat_lt
    simp only [UInt16.lt_iff_toNat_lt, UInt16.toNat_div, UInt16.toNat_mod, UInt16.reduceToNat]
    omega
  have e₃ := congrArg UInt16.toNat (hexDigit_injective (hbound u).1 (hbound v).1 h₃)
  have e₂ := congrArg UInt16.toNat (hexDigit_injective (hbound u).2.1 (hbound v).2.1 h₂)
  have e₁ := congrArg UInt16.toNat (hexDigit_injective (hbound u).2.2.1 (hbound v).2.2.1 h₁)
  have e₀ := congrArg UInt16.toNat (hexDigit_injective (hbound u).2.2.2 (hbound v).2.2.2 h₀)
  simp only [UInt16.toNat_div, UInt16.toNat_mod, UInt16.reduceToNat] at e₃ e₂ e₁ e₀
  exact UInt16.toNat.inj (by omega)

/-- `p` is a way to write the unit `u`. -/
inductive Piece (u : UInt16) : JsString → Prop
  | raw (hquote : u ≠ 0x22) (hslash : u ≠ 0x5C) : Piece u [u]
  | short (letter : UInt16) (hletter : letter ≠ 0x75) (hu : unescapeLetter letter = u) : Piece u
      [0x5C, letter]
  | unicode : Piece u (unicodeEscape u)

theorem piece_escapeUnit (u : UInt16) : Piece u (escapeUnits.escapeUnit u) := by
  obtain ⟨letter, hp, hletter, hu⟩ | hp | ⟨hp, hquote, hslash⟩ := escapeUnit_cases u
  · exact hp ▸ .short letter hletter hu
  · exact hp ▸ .unicode
  · exact hp ▸ .raw hquote hslash

theorem Piece.head {u : UInt16} {p : JsString} (h : Piece u p) :
    ∃ c rest, p = c :: rest ∧ c ≠ 0x22 := by
  cases h with
  | raw hquote _ => exact ⟨_, _, rfl, hquote⟩
  | short _ _ _ => exact ⟨_, _, rfl, by decide⟩
  | unicode => exact ⟨_, _, by rw [unicodeEscape, js_unicode]; rfl, by decide⟩

theorem Piece.decode {u v : UInt16} {p q x y : JsString} (hp : Piece u p) (hq : Piece v q)
    (h : p ++ x = q ++ y) :
    u = v ∧ x = y := by
  have hlength : ∀ w, (unicodeEscape w).length = 6 := by
    intro w
    simp [unicodeEscape, js_unicode]
  cases hp with
  | raw _ hslash =>
    cases hq with
    | raw _ _ => exact List.cons.inj h
    | short _ _ _ => exact absurd (List.cons.inj h).1 hslash
    | unicode => exact absurd (List.cons.inj h).1 hslash
  | short letter hletter hu =>
    cases hq with
    | raw _ hslash => exact absurd (List.cons.inj h).1.symm hslash
    | short letter' _ hv =>
      obtain ⟨rfl, rfl⟩ := List.cons.inj (List.cons.inj h).2
      exact ⟨hu.symm.trans hv, rfl⟩
    | unicode => exact absurd (List.cons.inj (List.cons.inj h).2).1 hletter
  | unicode =>
    cases hq with
    | raw _ hslash => exact absurd (List.cons.inj h).1.symm hslash
    | short _ hletter _ => exact absurd (List.cons.inj (List.cons.inj h).2).1.symm hletter
    | unicode =>
      obtain ⟨heq, hrest⟩ := List.append_inj h (by rw [hlength, hlength])
      exact ⟨unicodeEscape_injective heq, hrest⟩

/-- `w` writes the string `s`, a piece for each unit. -/
inductive Spells : JsString → JsString → Prop
  | nil : Spells [] []
  | cons {u : UInt16} {s p w : JsString} (hp : Piece u p) (h : Spells s w) : Spells (u :: s) (p ++ w)

theorem spells_escapeUnits (s : JsString) : Spells s (escapeUnits s) := by
  have hsurrogate : ∀ {u : UInt16}, isHighSurrogate u = true ∨ isLowSurrogate u = true →
      Piece u [u] := by
    intro u hu
    refine .raw ?_ ?_
    · rintro rfl
      exact absurd hu (by decide)
    · rintro rfl
      exact absurd hu (by decide)
  fun_induction escapeUnits s with
  | case1 => exact .nil
  | case2 u _ => simpa using Spells.cons (.unicode) .nil
  | case3 u _ => simpa using Spells.cons (piece_escapeUnit u) .nil
  | case4 u v rest hpair ih =>
    rw [Bool.and_eq_true] at hpair
    exact .cons (hsurrogate (.inl hpair.1)) (.cons (hsurrogate (.inr hpair.2)) ih)
  | case5 u v rest _ _ ih => exact .cons .unicode ih
  | case6 u v rest _ _ ih => exact .cons (piece_escapeUnit u) ih

theorem Spells.decode {s t w w' x y : JsString} (hs : Spells s w) (ht : Spells t w')
    (h : w ++ 0x22 :: x = w' ++ 0x22 :: y) :
    s = t ∧ x = y := by
  induction hs generalizing t w' with
  | nil =>
    cases ht with
    | nil => exact ⟨rfl, (List.cons.inj h).2⟩
    | cons hq _ =>
      obtain ⟨c, rest, rfl, hc⟩ := hq.head
      exact absurd (List.cons.inj h).1.symm hc
  | cons hp _ ih =>
    cases ht with
    | nil =>
      obtain ⟨c, rest, rfl, hc⟩ := hp.head
      exact absurd (List.cons.inj h).1 hc
    | cons hq ht =>
      rw [List.append_assoc, List.append_assoc] at h
      obtain ⟨rfl, h⟩ := hp.decode hq h
      obtain ⟨rfl, h⟩ := ih ht h
      exact ⟨rfl, h⟩

theorem stringifyString_decode {s t x y : JsString}
    (h : stringifyString s ++ x = stringifyString t ++ y) : s = t ∧ x = y := by
  simp only [stringifyString, js_quote, List.append_assoc, List.cons_append, List.cons.injEq, true_and,
    List.nil_append] at h
  exact (spells_escapeUnits s).decode (spells_escapeUnits t) h

/-! ## The text of a value -/

inductive Tree (ν : Type)
  | null
  | bool (b : Bool)
  | num (n : ν)
  | str (s : JsString)
  | arr (elements : List (Tree ν))
  | obj (entries : List (JsString × Tree ν))

def isNumeric (u : UInt16) : Bool :=
  (0x30 ≤ u && u ≤ 0x39) || u == 0x2B || u == 0x2D || u == 0x2E || u == 0x65

structure NumberToken where
  units : JsString
  ne_nil : units ≠ []
  numeric : ∀ u ∈ units, isNumeric u = true

theorem NumberToken.ext {m n : NumberToken} (h : m.units = n.units) : m = n := by
  cases m
  cases n
  subst h
  rfl

/-- `String` on finite numbers other than `-0`: distinct numbers have distinct
numeric tokens. -/
structure NumberTexts [Host] : Prop where
  injective : ∀ p q, Host.numberToString p = Host.numberToString q → p = q
  ne_nil : ∀ q, Host.numberToString q ≠ []
  numeric : ∀ q, ∀ u ∈ Host.numberToString q, isNumeric u = true

def NumberTexts.token [Host] (h : NumberTexts) (q : ℚ) : NumberToken :=
  ⟨Host.numberToString q, h.ne_nil q, h.numeric q⟩

mutual

def Tree.text : Tree NumberToken → JsString
  | .null => js "null"
  | .bool b => if b then js "true" else js "false"
  | .num n => n.units
  | .str s => stringifyString s
  | .arr elements => js "[" ++ joinWith (js ",") (Tree.textElements elements) ++ js "]"
  | .obj entries => js "\x7b" ++ joinWith (js ",") (Tree.textEntries entries) ++ js "\x7d"

def Tree.textElements : List (Tree NumberToken) → List JsString
  | [] => []
  | element :: elements => element.text :: Tree.textElements elements

def Tree.textEntries : List (JsString × Tree NumberToken) → List JsString
  | [] => []
  | (key, v) :: entries => (stringifyString key ++ js ":" ++ v.text) :: Tree.textEntries entries

end

def leads (u : UInt16) : Nat :=
  if u = 0x6E then 0 else if u = 0x74 ∨ u = 0x66 then 1 else if isNumeric u then 2
    else if u = 0x22 then 3
  else if u = 0x5B then 4 else if u = 0x7B then 5 else 6

def Tree.kind : Tree ν → Nat
  | .null => 0
  | .bool _ => 1
  | .num _ => 2
  | .str _ => 3
  | .arr _ => 4
  | .obj _ => 5

theorem leads_numeric {u : UInt16} (h : isNumeric u = true) : leads u = 2 := by
  have hn : u ≠ 0x6E := by
    rintro rfl
    exact absurd h (by decide)
  have htf : ¬ (u = 0x74 ∨ u = 0x66) := by
    rintro (rfl | rfl) <;> exact absurd h (by decide)
  rw [leads, if_neg hn, if_neg htf, if_pos h]

theorem Tree.text_head (v : Tree NumberToken) : ∃ u rest, v.text = u :: rest ∧ leads u = v.kind := by
  have hjs : js "null" = [0x6E, 0x75, 0x6C, 0x6C] ∧ js "true" = [0x74, 0x72, 0x75, 0x65] ∧
      js "false" = [0x66, 0x61, 0x6C, 0x73, 0x65] ∧ js "[" = [0x5B] ∧ js "\x7b" = [0x7B] := by decide
  obtain ⟨hnull, htrue, hfalse, harr, hobj⟩ := hjs
  cases v with
  | null => exact ⟨_, _, by rw [Tree.text, hnull], by decide⟩
  | bool b =>
    cases b with
    | true => exact ⟨_, _, by rw [Tree.text, if_pos rfl, htrue], by decide⟩
    | false => exact ⟨_, _, by rw [Tree.text, if_neg (by decide), hfalse], by decide⟩
  | num n =>
    obtain ⟨u, rest, hunits⟩ := List.exists_cons_of_ne_nil n.ne_nil
    exact ⟨u, rest, hunits, leads_numeric (n.numeric u (hunits ▸ List.mem_cons_self))⟩
  | str s => exact ⟨_, _, by rw [Tree.text, stringifyString, js_quote]; rfl,
      (by decide : leads 0x22 = 3)⟩
  | arr elements => exact ⟨_, _, by rw [Tree.text, harr]; rfl, (by decide : leads 0x5B = 4)⟩
  | obj entries => exact ⟨_, _, by rw [Tree.text, hobj]; rfl, (by decide : leads 0x7B = 5)⟩

def EndsValue (s : JsString) : Prop := ∀ u ∈ s.head?, u = 0x2C ∨ u = 0x5D ∨ u = 0x7D

theorem endsValue_nil : EndsValue [] := fun _ hu => by cases hu

theorem EndsValue.not_numeric {s : JsString} (h : EndsValue s) :
    ∀ u ∈ s.head?, isNumeric u = false := by
  intro u hu
  rcases h u hu with rfl | rfl | rfl <;> decide

theorem numeric_decode {a b s t : JsString} (ha : ∀ u ∈ a, isNumeric u = true)
    (hb : ∀ u ∈ b, isNumeric u = true) (hs : ∀ u ∈ s.head?, isNumeric u = false)
    (ht : ∀ u ∈ t.head?, isNumeric u = false) (h : a ++ s = b ++ t) : a = b ∧ s = t := by
  have hspan : ∀ {c r : JsString}, (∀ u ∈ c, isNumeric u = true) →
      (∀ u ∈ r.head?, isNumeric u = false) → (c ++ r).takeWhile isNumeric = c := by
    intro c r hc hr
    rw [List.takeWhile_append_of_pos hc]
    cases r with
    | nil => simp
    | cons u r => simp [hr u rfl]
  have hab : a = b := by
    rw [← hspan ha hs, h, hspan hb ht]
  exact ⟨hab, List.append_cancel_left (hab ▸ h)⟩

def Begins (x : JsString) : Prop := ∃ u rest, x = u :: rest ∧ leads u ≠ 6

theorem Tree.text_begins (v : Tree NumberToken) : Begins v.text := by
  obtain ⟨u, rest, htext, hlead⟩ := v.text_head
  refine ⟨u, rest, htext, ?_⟩
  rw [hlead]
  cases v <;> simp [Tree.kind]

theorem textElements_begin (elements : List (Tree NumberToken)) :
    ∀ x ∈ Tree.textElements elements, Begins x := by
  induction elements with
  | nil => exact fun x hx => absurd hx List.not_mem_nil
  | cons v elements ih => exact List.forall_mem_cons.mpr ⟨v.text_begins, ih⟩

theorem textEntries_begin (entries : List (JsString × Tree NumberToken)) :
    ∀ x ∈ Tree.textEntries entries, Begins x := by
  induction entries with
  | nil => exact fun x hx => absurd hx List.not_mem_nil
  | cons e entries ih =>
    have hquote : Begins (stringifyString e.1 ++ js ":" ++ e.2.text) :=
      ⟨0x22, _, by rw [stringifyString, js_quote]; rfl, by decide⟩
    exact List.forall_mem_cons.mpr ⟨hquote, ih⟩

theorem js_comma : js "," = [0x2C] := by decide

theorem comma_joinWith :
    ∀ {xs : List JsString}, xs ≠ [] → 0x2C :: joinWith (js ",") xs = xs.flatMap fun x => 0x2C :: x
  | [], h => absurd rfl h
  | [x], _ => by simp [joinWith]
  | x :: y :: rest, _ => by
    have ih : 0x2C :: joinWith (js ",") (y :: rest) = (y :: rest).flatMap fun x => 0x2C :: x :=
      comma_joinWith (List.cons_ne_nil y rest)
    rw [joinWith, List.flatMap_cons, ← ih, js_comma]
    simp

theorem joinWith_tail {xs ys : List JsString} {c : UInt16} {s t : JsString} (hc : leads c = 6)
    (hxs : ∀ x ∈ xs, Begins x) (hys : ∀ y ∈ ys, Begins y)
    (h : joinWith (js ",") xs ++ c :: s = joinWith (js ",") ys ++ c :: t) :
    (xs.flatMap fun x => 0x2C :: x) ++ c :: s = (ys.flatMap fun y => 0x2C :: y) ++ c :: t := by
  have hhead : ∀ {zs : List JsString} {r : JsString}, zs ≠ [] → (∀ z ∈ zs, Begins z) →
      ∃ u rest, joinWith (js ",") zs ++ r = u :: rest ∧ leads u ≠ 6 := by
    intro zs r hne hzs
    obtain ⟨z, zs, rfl⟩ := List.exists_cons_of_ne_nil hne
    obtain ⟨u, rest, rfl, hu⟩ := hzs z List.mem_cons_self
    cases zs with
    | nil => exact ⟨u, _, rfl, hu⟩
    | cons z' zs => exact ⟨u, _, rfl, hu⟩
  by_cases hx : xs = []
  · by_cases hy : ys = []
    · subst hx hy
      exact h
    · obtain ⟨u, rest, hu, hlead⟩ := hhead (r := c :: t) hy hys
      rw [hu, hx] at h
      exact absurd ((List.cons.inj h).1 ▸ hc) hlead
  · by_cases hy : ys = []
    · obtain ⟨u, rest, hu, hlead⟩ := hhead (r := c :: s) hx hxs
      rw [hu, hy] at h
      exact absurd ((List.cons.inj h).1 ▸ hc) hlead
    · rw [← comma_joinWith hx, ← comma_joinWith hy, List.cons_append, List.cons_append, h]

theorem js_brackets : js "[" = [0x5B] ∧ js "]" = [0x5D] ∧ js "\x7b" = [0x7B] ∧ js "\x7d" = [0x7D] ∧
    js ":" = [0x3A] := by decide

theorem kind_eq {a b : Tree NumberToken} {s t : JsString} (h : a.text ++ s = b.text ++ t) :
    a.kind = b.kind := by
  obtain ⟨u, rest, ha, hu⟩ := a.text_head
  obtain ⟨v, rest', hb, hv⟩ := b.text_head
  rw [ha, hb] at h
  rw [← hu, (List.cons.inj h).1, hv]

theorem endsValue_tail {xs : List JsString} {c : UInt16} {s : JsString} (hc : c = 0x5D ∨ c = 0x7D) :
    EndsValue ((xs.flatMap fun x => 0x2C :: x) ++ c :: s) := by
  cases xs with
  | nil =>
    intro u hu
    obtain rfl := Option.some.inj hu
    exact .inr hc
  | cons x xs =>
    intro u hu
    obtain rfl := Option.some.inj hu
    exact .inl rfl

mutual

theorem Tree.text_decode :
    ∀ (a b : Tree NumberToken) {s t : JsString}, EndsValue s → EndsValue t →
    a.text ++ s = b.text ++ t → a = b ∧ s = t
  | .null, b, s, t, _, _, h => by
    cases b with
    | null => exact ⟨rfl, List.append_cancel_left h⟩
    | bool _ | num _ | str _ | arr _ | obj _ => exact absurd (kind_eq h) (by simp [Tree.kind])
  | .bool x, b, s, t, _, _, h => by
    cases b with
    | bool y =>
      have hxy : x = y := by
        cases x with
        | true =>
          cases y with
          | true => rfl
          | false => exact absurd (List.cons.inj h).1 (by decide)
        | false =>
          cases y with
          | true => exact absurd (List.cons.inj h).1 (by decide)
          | false => rfl
      subst hxy
      exact ⟨rfl, List.append_cancel_left h⟩
    | null | num _ | str _ | arr _ | obj _ => exact absurd (kind_eq h) (by simp [Tree.kind])
  | .num m, b, s, t, hs, ht, h => by
    cases b with
    | num n =>
      obtain ⟨hunits, hrest⟩ := numeric_decode m.numeric n.numeric hs.not_numeric ht.not_numeric h
      exact ⟨congrArg Tree.num (NumberToken.ext hunits), hrest⟩
    | null | bool _ | str _ | arr _ | obj _ => exact absurd (kind_eq h) (by simp [Tree.kind])
  | .str x, b, s, t, _, _, h => by
    cases b with
    | str y =>
      obtain ⟨rfl, hrest⟩ := stringifyString_decode h
      exact ⟨rfl, hrest⟩
    | null | bool _ | num _ | arr _ | obj _ => exact absurd (kind_eq h) (by simp [Tree.kind])
  | .arr xs, b, s, t, _, _, h => by
    cases b with
    | arr ys =>
      simp only [Tree.text, js_brackets, List.append_assoc, List.cons_append, List.nil_append,
        List.cons.injEq, true_and] at h
      obtain ⟨rfl, hrest⟩ := Tree.elements_decode xs ys
        (joinWith_tail (by decide) (textElements_begin xs) (textElements_begin ys) h)
      exact ⟨rfl, hrest⟩
    | null | bool _ | num _ | str _ | obj _ => exact absurd (kind_eq h) (by simp [Tree.kind])
  | .obj es, b, s, t, _, _, h => by
    cases b with
    | obj fs =>
      simp only [Tree.text, js_brackets, List.append_assoc, List.cons_append, List.nil_append,
        List.cons.injEq, true_and] at h
      obtain ⟨rfl, hrest⟩ :=
        Tree.entries_decode es fs (joinWith_tail (by decide) (textEntries_begin es)
            (textEntries_begin fs) h)
      exact ⟨rfl, hrest⟩
    | null | bool _ | num _ | str _ | arr _ => exact absurd (kind_eq h) (by simp [Tree.kind])

theorem Tree.elements_decode : ∀ (xs ys : List (Tree NumberToken)) {s t : JsString},
    ((Tree.textElements xs).flatMap fun x => 0x2C :: x) ++ 0x5D ::
      s = ((Tree.textElements ys).flatMap fun y => 0x2C :: y) ++ 0x5D :: t →
      xs = ys ∧ s = t
  | [], ys, s, t, h => by
    cases ys with
    | nil => exact ⟨rfl, (List.cons.inj h).2⟩
    | cons y ys => exact absurd (List.cons.inj h).1 (by decide)
  | x :: xs, ys, s, t, h => by
    cases ys with
    | nil => exact absurd (List.cons.inj h).1 (by decide)
    | cons y ys =>
      simp only [Tree.textElements, List.flatMap_cons, List.append_assoc, List.cons_append,
        List.cons.injEq, true_and] at h
      obtain ⟨rfl, htail⟩ := Tree.text_decode x y (endsValue_tail (.inl rfl))
        (endsValue_tail (.inl rfl)) h
      obtain ⟨rfl, hrest⟩ := Tree.elements_decode xs ys htail
      exact ⟨rfl, hrest⟩

theorem Tree.entries_decode : ∀ (es fs : List (JsString × Tree NumberToken)) {s t : JsString},
    ((Tree.textEntries es).flatMap fun x => 0x2C :: x) ++ 0x7D ::
      s = ((Tree.textEntries fs).flatMap fun y => 0x2C :: y) ++ 0x7D :: t →
      es = fs ∧ s = t
  | [], fs, s, t, h => by
    cases fs with
    | nil => exact ⟨rfl, (List.cons.inj h).2⟩
    | cons f fs => exact absurd (List.cons.inj h).1 (by decide)
  | (k, v) :: es, fs, s, t, h => by
    cases fs with
    | nil => exact absurd (List.cons.inj h).1 (by decide)
    | cons f fs =>
      obtain ⟨l, w⟩ := f
      simp only [Tree.textEntries, js_brackets, List.flatMap_cons, List.append_assoc,
        List.cons_append, List.nil_append, List.cons.injEq, true_and] at h
      obtain ⟨rfl, hv⟩ := stringifyString_decode h
      obtain ⟨rfl, htail⟩ := Tree.text_decode v w (endsValue_tail (.inr rfl))
        (endsValue_tail (.inr rfl)) (List.cons.inj hv).2
      obtain ⟨rfl, hrest⟩ := Tree.entries_decode es fs htail
      exact ⟨rfl, hrest⟩

end

end ExamSystem
