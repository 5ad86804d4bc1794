import Mathlib.Data.List.Basic

namespace FailureFabric.Library.Json

/-!
# JSON texts

The grammar of RFC 8259 over bytes: bytes from `0x80` on are taken as parts of valid UTF-8.

* `Item`, `IsString` — string literals and what they decode to; `isString_unique`;
* `IsNumber`, `Derives`, `IsText` — numbers, values with their elements and members, and texts;
* `scan` — a scanner that knows whether it is inside of a string, and stops at a control byte
  there; `scan_of_derives` says that it goes through every text.
-/

/-! ### Strings -/

/-- `unescaped`: no control byte, quote or backslash. -/
def Unescaped (b : UInt8) : Prop := 0x20 ≤ b ∧ b ≠ 0x22 ∧ b ≠ 0x5C

instance (b : UInt8) : Decidable (Unescaped b) :=
  inferInstanceAs (Decidable (0x20 ≤ b ∧ b ≠ 0x22 ∧ b ≠ 0x5C))

/-- The escapes of one letter. -/
inductive Escape
  | quote | backslash | slash | b | f | n | r | t

/-- The letter after the backslash. -/
def Escape.letter : Escape → UInt8
  | quote => 0x22
  | backslash => 0x5C
  | slash => 0x2F
  | b => 0x62
  | f => 0x66
  | n => 0x6E
  | r => 0x72
  | t => 0x74

/-- The character that is meant. -/
def Escape.char : Escape → UInt8
  | quote => 0x22
  | backslash => 0x5C
  | slash => 0x2F
  | b => 0x08
  | f => 0x0C
  | n => 0x0A
  | r => 0x0D
  | t => 0x09

/-- A hexadecimal digit, in either case. -/
def IsHexDigit (c : UInt8) : Prop :=
  0x30 ≤ c ∧ c ≤ 0x39 ∨ 0x41 ≤ c ∧ c ≤ 0x46 ∨ 0x61 ≤ c ∧ c ≤ 0x66

/-- The value of a hexadecimal digit. -/
def hexValue (c : UInt8) : Nat :=
  if c ≤ 0x39 then c.toNat - 0x30 else if c ≤ 0x46 then c.toNat - 0x37 else c.toNat - 0x57

/-- `char`: an unescaped byte, an escape of one letter, or four hexadecimal digits. -/
inductive Item
  | byte (b : UInt8) (h : Unescaped b)
  | escape (e : Escape)
  | unicode (a b c d : { c : UInt8 // IsHexDigit c })

/-- The bytes of an item. -/
def Item.text : Item → List UInt8
  | .byte b _ => [b]
  | .escape e => [0x5C, e.letter]
  | .unicode a b c d => [0x5C, 0x75, a, b, c, d]

/-- The code unit of four digits. -/
def codeUnit (a b c d : { c : UInt8 // IsHexDigit c }) : Nat :=
  ((hexValue a * 16 + hexValue b) * 16 + hexValue c) * 16 + hexValue d

/-- A code point in UTF-8. -/
def utf8 (n : Nat) : List UInt8 :=
  if n < 0x80 then [.ofNat n]
  else if n < 0x800 then [.ofNat (0xC0 + n / 64), .ofNat (0x80 + n % 64)]
  else if n < 0x10000 then
    [.ofNat (0xE0 + n / 4096), .ofNat (0x80 + n / 64 % 64), .ofNat (0x80 + n % 64)]
  else [.ofNat (0xF0 + n / 262144), .ofNat (0x80 + n / 4096 % 64), .ofNat (0x80 + n / 64 % 64),
    .ofNat (0x80 + n % 64)]

/-- The code point of a surrogate pair. -/
def surrogatePair (u v : Nat) : Option Nat :=
  if 0xD800 ≤ u ∧ u < 0xDC00 ∧ 0xDC00 ≤ v ∧ v < 0xE000 then
    some (0x10000 + (u - 0xD800) * 1024 + (v - 0xDC00))
  else none

/-- What a list of items means.  A surrogate without its partner stands for itself. -/
def decode : List Item → List UInt8
  | [] => []
  | .byte b _ :: is => b :: decode is
  | .escape e :: is => e.char :: decode is
  | .unicode a b c d :: .unicode a' b' c' d' :: is =>
    match surrogatePair (codeUnit a b c d) (codeUnit a' b' c' d') with
    | some n => utf8 n ++ decode is
    | none => utf8 (codeUnit a b c d) ++ decode (.unicode a' b' c' d' :: is)
  | .unicode a b c d :: is => utf8 (codeUnit a b c d) ++ decode is

/-- `string`: the text is a string literal, and `bs` is what it decodes to. -/
def IsString (text bs : List UInt8) : Prop :=
  ∃ items : List Item, text = 0x22 :: (items.flatMap Item.text ++ [0x22]) ∧ decode items = bs

/-- The letter of an escape is not that of the four digits. -/
theorem Escape.letter_ne (e : Escape) : e.letter ≠ 0x75 := by
  cases e <;> decide

theorem Escape.letter_injective : Function.Injective Escape.letter := by
  intro e e' h
  cases e <;> cases e' <;> first | rfl | exact absurd h (by decide)

/-- Items are found again in front of any text. -/
theorem Item.text_append_inj {i j : Item} {s t : List UInt8} (h : i.text ++ s = j.text ++ t) :
    i = j ∧ s = t := by
  -- the first byte tells a plain byte from an escape, and the second the two escapes
  cases i with
  | byte b hb =>
    cases j with
    | byte c hc =>
      obtain ⟨rfl, rfl⟩ := List.cons.inj h
      exact ⟨rfl, rfl⟩
    | escape e => exact absurd (List.cons.inj h).1 hb.2.2
    | unicode => exact absurd (List.cons.inj h).1 hb.2.2
  | escape e =>
    cases j with
    | byte c hc => exact absurd (List.cons.inj h).1.symm hc.2.2
    | escape e' =>
      obtain ⟨hletter, rfl⟩ := List.cons.inj (List.cons.inj h).2
      exact ⟨congrArg _ (Escape.letter_injective hletter), rfl⟩
    | unicode => exact absurd (List.cons.inj (List.cons.inj h).2).1 e.letter_ne
  | unicode a b c d =>
    cases j with
    | byte c hc => exact absurd (List.cons.inj h).1.symm hc.2.2
    | escape e => exact absurd (List.cons.inj (List.cons.inj h).2).1.symm e.letter_ne
    | unicode a' b' c' d' =>
      simp only [Item.text, List.cons_append, List.nil_append, List.cons.injEq, true_and,
        Subtype.val_inj] at h
      obtain ⟨rfl, rfl, rfl, rfl, rfl⟩ := h
      exact ⟨rfl, rfl⟩

/-- No item begins with a quote. -/
theorem Item.text_append_ne {i : Item} {s t : List UInt8} : i.text ++ s ≠ 0x22 :: t := by
  intro h
  cases i with
  | byte b hb => exact hb.2.1 (List.cons.inj h).1
  | escape e => exact absurd (List.cons.inj h).1 (by decide)
  | unicode => exact absurd (List.cons.inj h).1 (by decide)

/-- The items of a literal are found again. -/
theorem items_inj : ∀ {is js : List Item} {s t : List UInt8},
    is.flatMap Item.text ++ 0x22 :: s = js.flatMap Item.text ++ 0x22 :: t → is = js
  | [], [], _, _, _ => rfl
  | [], j :: js, _, _, h => by
    rw [List.flatMap_cons, List.append_assoc] at h
    exact absurd h.symm Item.text_append_ne
  | i :: is, [], _, _, h => by
    rw [List.flatMap_cons, List.append_assoc] at h
    exact absurd h Item.text_append_ne
  | i :: is, j :: js, _, _, h => by
    rw [List.flatMap_cons, List.flatMap_cons, List.append_assoc, List.append_assoc] at h
    obtain ⟨rfl, hrest⟩ := Item.text_append_inj h
    rw [items_inj hrest]

/-- A literal decodes to one text only. -/
theorem isString_unique {text bs bs' : List UInt8} (h : IsString text bs) (h' : IsString text bs') :
    bs = bs' := by
  obtain ⟨is, htext, rfl⟩ := h
  obtain ⟨js, htext', rfl⟩ := h'
  rw [items_inj (List.cons.inj (htext.symm.trans htext')).2]

/-! ### Numbers -/

/-- A run of one digit or more. -/
def IsDigits (t : List UInt8) : Prop := t ≠ [] ∧ ∀ d ∈ t, 0x30 ≤ d ∧ d ≤ 0x39

/-- `int`: zero, or digits that do not start with it. -/
def IsInt (t : List UInt8) : Prop := t = [0x30] ∨ IsDigits t ∧ t.head? ≠ some 0x30

/-- `frac`, which may be missing. -/
def IsFrac (t : List UInt8) : Prop := t = [] ∨ ∃ ds, t = 0x2E :: ds ∧ IsDigits ds

/-- `exp`, which may be missing. -/
def IsExp (t : List UInt8) : Prop :=
  t = [] ∨ ∃ e sign ds, t = e :: (sign ++ ds) ∧ (e = 0x65 ∨ e = 0x45) ∧
    (sign = [] ∨ sign = [0x2B] ∨ sign = [0x2D]) ∧ IsDigits ds

/-- `number`. -/
def IsNumber (t : List UInt8) : Prop :=
  ∃ minus int frac exp, t = minus ++ int ++ frac ++ exp ∧ (minus = [] ∨ minus = [0x2D]) ∧
    IsInt int ∧ IsFrac frac ∧ IsExp exp

/-! ### Values -/

/-- `ws`. -/
def IsWs (t : List UInt8) : Prop := ∀ b ∈ t, b = 0x20 ∨ b = 0x09 ∨ b = 0x0A ∨ b = 0x0D

/-- A value: numbers as they are written, strings as they decode. -/
inductive Value
  | null
  | bool (b : Bool)
  | number (text : List UInt8)
  | string (bs : List UInt8)
  | array (vs : List Value)
  | object (ms : List (List UInt8 × Value))

/-- What the grammar derives: a value, the elements of an array, the members of an object. -/
inductive Node
  | value (v : Value)
  | elements (vs : List Value)
  | members (ms : List (List UInt8 × Value))

/-- A name, its separator and a value, with the space around them. -/
def memberText (w₁ key w₂ w₃ t w₄ : List UInt8) : List UInt8 :=
  w₁ ++ key ++ w₂ ++ [0x3A] ++ w₃ ++ t ++ w₄

/-- The text is derived by the grammar as the value, the elements or the members. -/
inductive Derives : List UInt8 → Node → Prop
  | null : Derives [0x6E, 0x75, 0x6C, 0x6C] (.value .null)
  | true : Derives [0x74, 0x72, 0x75, 0x65] (.value (.bool true))
  | false : Derives [0x66, 0x61, 0x6C, 0x73, 0x65] (.value (.bool false))
  | number {t} (h : IsNumber t) : Derives t (.value (.number t))
  | string {t bs} (h : IsString t bs) : Derives t (.value (.string bs))
  | emptyArray {w} (hw : IsWs w) : Derives ([0x5B] ++ w ++ [0x5D]) (.value (.array []))
  | array {t vs} (h : Derives t (.elements vs)) :
      Derives ([0x5B] ++ t ++ [0x5D]) (.value (.array vs))
  | emptyObject {w} (hw : IsWs w) : Derives ([0x7B] ++ w ++ [0x7D]) (.value (.object []))
  | object {t ms} (h : Derives t (.members ms)) :
      Derives ([0x7B] ++ t ++ [0x7D]) (.value (.object ms))
  | element {w₁ w₂ t v} (hw₁ : IsWs w₁) (hw₂ : IsWs w₂) (h : Derives t (.value v)) :
      Derives (w₁ ++ t ++ w₂) (.elements [v])
  | elements {w₁ w₂ t v rest vs} (hw₁ : IsWs w₁) (hw₂ : IsWs w₂) (h : Derives t (.value v))
      (hrest : Derives rest (.elements vs)) :
      Derives (w₁ ++ t ++ w₂ ++ [0x2C] ++ rest) (.elements (v :: vs))
  | member {w₁ key k w₂ w₃ t v w₄} (hw₁ : IsWs w₁) (hw₂ : IsWs w₂) (hw₃ : IsWs w₃) (hw₄ : IsWs w₄)
      (hkey : IsString key k) (h : Derives t (.value v)) :
      Derives (memberText w₁ key w₂ w₃ t w₄) (.members [(k, v)])
  | members {w₁ key k w₂ w₃ t v w₄ rest ms} (hw₁ : IsWs w₁) (hw₂ : IsWs w₂) (hw₃ : IsWs w₃)
      (hw₄ : IsWs w₄) (hkey : IsString key k) (h : Derives t (.value v))
      (hrest : Derives rest (.members ms)) :
      Derives (memberText w₁ key w₂ w₃ t w₄ ++ [0x2C] ++ rest) (.members ((k, v) :: ms))

/-- Members go on after a comma. -/
theorem Derives.members_append {t rest : List UInt8} {ms ms' : List (List UInt8 × Value)}
    (h : Derives t (.members ms)) (hrest : Derives rest (.members ms')) :
    Derives (t ++ [0x2C] ++ rest) (.members (ms ++ ms')) := by
  generalize hnode : Node.members ms = node at h
  induction h generalizing ms with
  | member hw₁ hw₂ hw₃ hw₄ hkey hv =>
    cases hnode
    exact .members hw₁ hw₂ hw₃ hw₄ hkey hv hrest
  | members hw₁ hw₂ hw₃ hw₄ hkey hv _ _ ih =>
    cases hnode
    have hmembers := Derives.members hw₁ hw₂ hw₃ hw₄ hkey hv (ih rfl)
    rw [List.cons_append]
    simpa only [List.append_assoc] using hmembers
  | _ => cases hnode

/-- `JSON-text`: a value with space around it. -/
def IsText (text : List UInt8) (v : Value) : Prop :=
  ∃ w₁ t w₂, text = w₁ ++ t ++ w₂ ∧ IsWs w₁ ∧ IsWs w₂ ∧ Derives t (.value v)

/-! ### Scanning for control bytes in strings -/

/-- Where a scanner is: outside of strings, inside of one, or there behind a backslash. -/
inductive Place
  | outside | inside | escaped
deriving DecidableEq

/-- One byte of the scan; none for a control byte inside of a string. -/
def scanByte : Place → UInt8 → Option Place
  | .outside, b => if b = 0x22 then some .inside else some .outside
  | .inside, b =>
    if b < 0x20 then none
    else if b = 0x22 then some .outside
    else if b = 0x5C then some .escaped
    else some .inside
  | .escaped, b => if b < 0x20 then none else some .inside

/-- The scan of a text. -/
def scan (p : Place) (t : List UInt8) : Option Place := t.foldlM scanByte p

theorem scan_append (p : Place) (s t : List UInt8) : scan p (s ++ t) = (scan p s).bind (scan · t) :=
  List.foldlM_append

theorem scan_cons (p : Place) (b : UInt8) (t : List UInt8) :
    scan p (b :: t) = (scanByte p b).bind (scan · t) :=
  List.foldlM_cons

/-- Outside of strings, a text without quotes leaves the scanner there. -/
theorem scan_outside {t : List UInt8} (h : ∀ b ∈ t, b ≠ 0x22) :
    scan .outside t = some .outside := by
  induction t with
  | nil => rfl
  | cons b t ih =>
    rw [scan_cons, scanByte, if_neg (h b List.mem_cons_self), Option.bind_some]
    exact ih fun c hc => h c (List.mem_cons_of_mem b hc)

/-- An unescaped byte leaves the scanner inside of the string. -/
theorem scanByte_unescaped {b : UInt8} (h : Unescaped b) : scanByte .inside b = some .inside := by
  obtain ⟨hcontrol, hquote, hbackslash⟩ := h
  rw [scanByte, if_neg (by simpa using hcontrol), if_neg hquote, if_neg hbackslash]

theorem IsHexDigit.unescaped {c : UInt8} (h : IsHexDigit c) : Unescaped c := by
  refine ⟨?_, ?_, ?_⟩
  · rcases h with h | h | h
    · exact UInt8.le_trans (by decide) h.1
    · exact UInt8.le_trans (by decide) h.1
    · exact UInt8.le_trans (by decide) h.1
  · rintro rfl
    exact absurd h (by unfold IsHexDigit; decide)
  · rintro rfl
    exact absurd h (by unfold IsHexDigit; decide)

theorem scan_item (i : Item) : scan .inside i.text = some .inside := by
  cases i with
  | byte b hb => rw [Item.text, scan_cons, scanByte_unescaped hb]; rfl
  | escape e => cases e <;> rfl
  | unicode a b c d =>
    have hescape : scan .inside [0x5C, 0x75] = some .inside := rfl
    rw [Item.text, show [0x5C, 0x75, a.1, b.1, c.1, d.1] = [0x5C, 0x75] ++ [a.1, b.1, c.1, d.1]
      from rfl, scan_append, hescape, Option.bind_some]
    simp only [scan_cons, scanByte_unescaped a.2.unescaped, scanByte_unescaped b.2.unescaped,
      scanByte_unescaped c.2.unescaped, scanByte_unescaped d.2.unescaped, Option.bind_some]
    rfl

theorem scan_items (items : List Item) : scan .inside (items.flatMap Item.text) = some .inside := by
  induction items with
  | nil => rfl
  | cons i items ih => rw [List.flatMap_cons, scan_append, scan_item, Option.bind_some, ih]

/-- The scanner goes through a string literal. -/
theorem scan_isString {t bs : List UInt8} (h : IsString t bs) :
    scan .outside t = some .outside := by
  obtain ⟨items, rfl, -⟩ := h
  rw [scan_cons, show scanByte .outside 0x22 = some .inside from rfl, Option.bind_some,
    scan_append, scan_items]
  rfl

theorem IsWs.ne_quote {t : List UInt8} (h : IsWs t) : ∀ b ∈ t, b ≠ 0x22 := by
  rintro _ hb rfl
  exact absurd (h _ hb) (by decide)

theorem IsDigits.ne_quote {t : List UInt8} (h : IsDigits t) : ∀ b ∈ t, b ≠ 0x22 := by
  rintro _ hb rfl
  exact absurd (h.2 _ hb) (by decide)

/-- There is no quote in a number. -/
theorem IsNumber.ne_quote {t : List UInt8} (h : IsNumber t) : ∀ b ∈ t, b ≠ 0x22 := by
  obtain ⟨minus, int, frac, exp, rfl, hminus, hint, hfrac, hexp⟩ := h
  have hminus' : ∀ b ∈ minus, b ≠ 0x22 := by
    rcases hminus with rfl | rfl <;> simp
  have hint' : ∀ b ∈ int, b ≠ 0x22 := by
    rcases hint with rfl | hint
    · simp
    · exact hint.1.ne_quote
  have hfrac' : ∀ b ∈ frac, b ≠ 0x22 := by
    rcases hfrac with rfl | ⟨ds, rfl, hds⟩
    · simp
    · exact List.forall_mem_cons.mpr ⟨by decide, hds.ne_quote⟩
  have hexp' : ∀ b ∈ exp, b ≠ 0x22 := by
    rcases hexp with rfl | ⟨e, sign, ds, rfl, he, hsign, hds⟩
    · simp
    · refine List.forall_mem_cons.mpr ⟨by rcases he with rfl | rfl <;> decide, ?_⟩
      refine List.forall_mem_append.mpr ⟨?_, hds.ne_quote⟩
      rcases hsign with rfl | rfl | rfl <;> simp
  simp only [List.forall_mem_append]
  exact ⟨⟨⟨hminus', hint'⟩, hfrac'⟩, hexp'⟩

/-- The scanner goes through brackets and braces. -/
theorem scan_enclosed {a b : UInt8} {t : List UInt8} (ha : a ≠ 0x22) (hb : b ≠ 0x22)
    (ht : scan .outside t = some .outside) : scan .outside ([a] ++ t ++ [b]) = some .outside := by
  have hone : ∀ c : UInt8, c ≠ 0x22 → scan .outside [c] = some .outside := fun c hc =>
    scan_outside fun d hd => by rwa [List.mem_singleton.mp hd]
  rw [scan_append, scan_append, hone a ha, Option.bind_some, ht, Option.bind_some, hone b hb]

/-- The scanner goes through a member. -/
theorem scan_memberText {w₁ key k w₂ w₃ t w₄ : List UInt8} (hw₁ : IsWs w₁) (hw₂ : IsWs w₂)
    (hw₃ : IsWs w₃) (hw₄ : IsWs w₄) (hkey : IsString key k)
    (ht : scan .outside t = some .outside) :
    scan .outside (memberText w₁ key w₂ w₃ t w₄) = some .outside := by
  have hcolon : scan .outside [0x3A] = some .outside := rfl
  simp only [memberText, scan_append, scan_outside hw₁.ne_quote, scan_isString hkey,
    scan_outside hw₂.ne_quote, hcolon, scan_outside hw₃.ne_quote, ht, scan_outside hw₄.ne_quote,
    Option.bind_some]

/-- **Scan.** The scanner goes through whatever the grammar derives: there is no control byte
    inside of a string. -/
theorem scan_of_derives {t : List UInt8} {node : Node} (h : Derives t node) :
    scan .outside t = some .outside := by
  have hcomma : scan .outside [0x2C] = some .outside := rfl
  induction h with
  | null | true | false => rfl
  | number h => exact scan_outside h.ne_quote
  | string h => exact scan_isString h
  | emptyArray hw | emptyObject hw =>
    exact scan_enclosed (by decide) (by decide) (scan_outside hw.ne_quote)
  | array _ ih | object _ ih => exact scan_enclosed (by decide) (by decide) ih
  | element hw₁ hw₂ _ ih =>
    simp only [scan_append, scan_outside hw₁.ne_quote, ih, scan_outside hw₂.ne_quote,
      Option.bind_some]
  | elements hw₁ hw₂ _ _ ih ihrest =>
    simp only [scan_append, scan_outside hw₁.ne_quote, ih, scan_outside hw₂.ne_quote, hcomma,
      ihrest, Option.bind_some]
  | member hw₁ hw₂ hw₃ hw₄ hkey _ ih => exact scan_memberText hw₁ hw₂ hw₃ hw₄ hkey ih
  | members hw₁ hw₂ hw₃ hw₄ hkey _ _ ih ihrest =>
    rw [scan_append, scan_append, scan_memberText hw₁ hw₂ hw₃ hw₄ hkey ih, Option.bind_some,
      hcomma, Option.bind_some, ihrest]

theorem scan_of_isText {t : List UInt8} {v : Value} (h : IsText t v) :
    scan .outside t = some .outside := by
  obtain ⟨w₁, t, w₂, rfl, hw₁, hw₂, hderives⟩ := h
  rw [scan_append, scan_append, scan_outside hw₁.ne_quote, Option.bind_some,
    scan_of_derives hderives, Option.bind_some, scan_outside hw₂.ne_quote]

end FailureFabric.Library.Json
