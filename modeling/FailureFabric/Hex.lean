import FailureFabric.Id
import FailureFabric.Library.Blocks

namespace FailureFabric

/-!
# Identities as hexadecimal texts

The texts of the 128-bit identities (`id.hpp`): thirty-two digits, the display form with its four
dashes, and the reader of either case that pads short texts with zeros on the left.

* `fromHex_toHex`, `fromHex_toDisplay` — what was written is read back;
* `toHex_fromHex` — what was read is written in lower case and padded;
* `Uuid128.lt_iff_toHex` — identities are ordered as their texts are.

A digit is the byte of its character. `hex_nibble` answers `-1` on a byte that is no digit; the
model has `0xFF` there, as both are only shifted and cast to a byte.
-/

open Library

namespace Hex

/-- `hex_digits`. -/
def hexDigits : Text := .ofLiteral "0123456789abcdef"

/-- The character of a nibble, `hex_digits()[n]`. -/
def hexDigit (n : UInt8) : UInt8 := hexDigits.getD n.toNat 0

/-- `hex_nibble`. -/
def hexNibble (c : UInt8) : UInt8 :=
  if 0x30 ≤ c && c ≤ 0x39 then c - 0x30
  else if 0x61 ≤ c && c ≤ 0x66 then c - 0x61 + 10
  else if 0x41 ≤ c && c ≤ 0x46 then c - 0x41 + 10
  else 0xFF

/-- The test of `is_valid_hex` on one character. -/
def isHexDigit (c : UInt8) : Bool :=
  (0x30 ≤ c && c ≤ 0x39) || (0x61 ≤ c && c ≤ 0x66) || (0x41 ≤ c && c ≤ 0x46)

/-- `is_valid_hex`. -/
def isValidHex (s : Text) : Bool :=
  if s.isEmpty || 32 < s.length then false else s.all isHexDigit

/-- The two digits of a byte, the high nibble first. -/
def byteDigits (b : UInt8) : Text := [hexDigit (b >>> 4), hexDigit (b &&& 0x0F)]

/-- The byte of two digits, `(hi << 4) | lo`. -/
def digitsByte (hi lo : UInt8) : UInt8 := (hexNibble hi <<< 4) ||| hexNibble lo

end Hex

namespace Uuid128

open Hex

/-- The loop of `operator<`: the first bytes that differ decide. -/
def ltBytes : List UInt8 → List UInt8 → Bool
  | b :: bs, c :: cs => if b ≠ c then b < c else ltBytes bs cs
  | _, _ => false

instance : LT Uuid128 := ⟨fun u v => ltBytes u.bytes v.bytes = true⟩
instance (u v : Uuid128) : Decidable (u < v) :=
  inferInstanceAs (Decidable (ltBytes u.bytes v.bytes = true))

/-- `uuid128_to_hex`. -/
def toHex (u : Uuid128) : Text := u.bytes.flatMap byteDigits

/-- `uuid128_to_display`: `8-4-4-4-12`. -/
def toDisplay (u : Uuid128) : Text :=
  let h := u.toHex
  h.take 8 ++ [0x2D] ++ (h.drop 8).take 4 ++ [0x2D] ++ (h.drop 12).take 4 ++ [0x2D] ++
    (h.drop 16).take 4 ++ [0x2D] ++ (h.drop 20).take 12

/-- `uuid128_from_hex`: the null identity for an invalid text. -/
def fromHex (s : Text) : Uuid128 :=
  if isValidHex s then
    let full := List.replicate (32 - s.length) 0x30 ++ s
    { bytes := (List.range 16).map fun i =>
        digitsByte (full.getD (2 * i) 0) (full.getD (2 * i + 1) 0)
      length_eq := by simp }
  else zero

end Uuid128

namespace Hex

/-- A character in lower case. -/
def lowerCase (c : UInt8) : UInt8 := if 0x41 ≤ c && c ≤ 0x5A then c + 0x20 else c

/-! ### One byte and its digits -/

/-- What holds of the first sixteen bytes holds of every nibble. -/
private theorem forall_nibble {P : UInt8 → Prop} (h : ∀ n : Fin 16, P (UInt8.ofNat n)) {n : UInt8}
    (hn : n < 16) : P n := by
  have hlt : n.toNat < 16 := UInt8.lt_iff_toNat_lt.mp hn
  simpa using h ⟨n.toNat, hlt⟩

/-- What holds of `0 … 255` holds of every byte. -/
private theorem forall_byte {P : UInt8 → Prop} (h : ∀ n : Fin 256, P (UInt8.ofNat n))
    (b : UInt8) : P b := by
  simpa using h ⟨b.toNat, b.toNat_lt⟩

private theorem high_lt (b : UInt8) : b >>> 4 < 16 :=
  forall_byte (P := fun b => b >>> 4 < 16) (by decide +kernel) b

private theorem low_lt (b : UInt8) : b &&& 0x0F < 16 :=
  forall_byte (P := fun b => b &&& 0x0F < 16) (by decide +kernel) b

/-- The two nibbles of a byte make the byte. -/
private theorem high_or_low (b : UInt8) : (b >>> 4) <<< 4 ||| (b &&& 0x0F) = b :=
  forall_byte (P := fun b => (b >>> 4) <<< 4 ||| (b &&& 0x0F) = b) (by decide +kernel) b

/-- Two nibbles are those of the byte they make. -/
private theorem nibbles_or {h l : UInt8} (hh : h < 16) (hl : l < 16) :
    (h <<< 4 ||| l) >>> 4 = h ∧ (h <<< 4 ||| l) &&& 0x0F = l :=
  forall_nibble (P := fun h => (h <<< 4 ||| l) >>> 4 = h ∧ (h <<< 4 ||| l) &&& 0x0F = l)
    (fun n => forall_nibble (P := fun l => (UInt8.ofNat n <<< 4 ||| l) >>> 4 = UInt8.ofNat n ∧
      (UInt8.ofNat n <<< 4 ||| l) &&& 0x0F = l) (by revert n; decide +kernel) hl) hh

/-- Bytes are ordered by their high nibbles, and within one high nibble by the low ones. -/
private theorem lt_iff_nibbles (b c : UInt8) :
    b < c ↔ b >>> 4 < c >>> 4 ∨ b >>> 4 = c >>> 4 ∧ b &&& 0x0F < c &&& 0x0F := by
  have hhigh : ∀ b : UInt8, (b >>> 4).toNat = b.toNat / 16 := fun b => by
    simp [UInt8.toNat_shiftRight, Nat.shiftRight_eq_div_pow]
  have hlow : ∀ b : UInt8, (b &&& 0x0F).toNat = b.toNat % 16 := fun b => by
    rw [UInt8.toNat_and]
    exact Nat.and_two_pow_sub_one_eq_mod _ 4
  rw [UInt8.lt_iff_toNat_lt, UInt8.lt_iff_toNat_lt, UInt8.lt_iff_toNat_lt, ← UInt8.toNat_inj,
    hhigh, hhigh, hlow, hlow]
  omega

/-- A digit stands for the nibble it was written for. -/
theorem hexNibble_hexDigit {n : UInt8} (hn : n < 16) : hexNibble (hexDigit n) = n :=
  forall_nibble (P := fun n => hexNibble (hexDigit n) = n) (by decide) hn

theorem isHexDigit_hexDigit {n : UInt8} (hn : n < 16) : isHexDigit (hexDigit n) = true :=
  forall_nibble (P := fun n => isHexDigit (hexDigit n) = true) (by decide) hn

/-- Digits are ordered as the nibbles they are written for. -/
theorem hexDigit_lt_hexDigit {n m : UInt8} (hn : n < 16) (hm : m < 16) :
    hexDigit n < hexDigit m ↔ n < m :=
  forall_nibble (P := fun n => hexDigit n < hexDigit m ↔ n < m)
    (fun i => forall_nibble (P := fun m => hexDigit (UInt8.ofNat i) < hexDigit m ↔
      UInt8.ofNat i < m) (by revert i; decide +kernel) hm) hn

theorem hexNibble_lt {c : UInt8} (hc : isHexDigit c = true) : hexNibble c < 16 :=
  forall_byte (P := fun c => isHexDigit c = true → hexNibble c < 16) (by decide +kernel) c hc

/-- The digit written for what a digit stands for is that digit in lower case. -/
theorem hexDigit_hexNibble {c : UInt8} (hc : isHexDigit c = true) :
    hexDigit (hexNibble c) = lowerCase c :=
  forall_byte (P := fun c => isHexDigit c = true → hexDigit (hexNibble c) = lowerCase c)
    (by decide +kernel) c hc

/-- The digits of a byte make that byte. -/
theorem digitsByte_byteDigits (b : UInt8) :
    digitsByte (hexDigit (b >>> 4)) (hexDigit (b &&& 0x0F)) = b := by
  rw [digitsByte, hexNibble_hexDigit (high_lt b), hexNibble_hexDigit (low_lt b), high_or_low]

/-- The digits of the byte that two digits make are these two in lower case. -/
theorem byteDigits_digitsByte {hi lo : UInt8} (hhi : isHexDigit hi = true)
    (hlo : isHexDigit lo = true) :
    byteDigits (digitsByte hi lo) = [lowerCase hi, lowerCase lo] := by
  obtain ⟨hhigh, hlow⟩ := nibbles_or (hexNibble_lt hhi) (hexNibble_lt hlo)
  rw [byteDigits, digitsByte, hhigh, hlow, hexDigit_hexNibble hhi, hexDigit_hexNibble hlo]

theorem length_byteDigits (b : UInt8) : (byteDigits b).length = 2 := rfl

theorem byteDigits_injective : Function.Injective byteDigits := by
  intro b c h
  obtain ⟨hhigh, hlow⟩ : hexDigit (b >>> 4) = hexDigit (c >>> 4) ∧
      hexDigit (b &&& 0x0F) = hexDigit (c &&& 0x0F) := by
    simpa [byteDigits] using h
  rw [← digitsByte_byteDigits b, hhigh, hlow, digitsByte_byteDigits]

/-- The digits of bytes are ordered as the bytes. -/
theorem byteDigits_lt_byteDigits (b c : UInt8) : byteDigits b < byteDigits c ↔ b < c := by
  have heq : hexDigit (b >>> 4) = hexDigit (c >>> 4) ↔ b >>> 4 = c >>> 4 := by
    refine ⟨fun h => ?_, congrArg hexDigit⟩
    rw [← hexNibble_hexDigit (high_lt b), h, hexNibble_hexDigit (high_lt c)]
  rw [byteDigits, byteDigits, List.cons_lt_cons_iff, List.cons_lt_cons_iff,
    hexDigit_lt_hexDigit (high_lt b) (high_lt c), hexDigit_lt_hexDigit (low_lt b) (low_lt c), heq,
    lt_iff_nibbles b c]
  simp

end Hex

namespace Uuid128

open Hex

/-! ### Reading back -/

@[simp] theorem length_toHex (u : Uuid128) : u.toHex.length = 32 := by
  simp [toHex, List.length_flatMap, byteDigits, u.length_eq]

theorem isHexDigit_of_mem_toHex {u : Uuid128} {c : UInt8} (hc : c ∈ u.toHex) :
    isHexDigit c = true := by
  obtain ⟨b, -, hb⟩ := List.mem_flatMap.mp hc
  rcases List.mem_cons.mp hb with rfl | hb
  · exact isHexDigit_hexDigit (high_lt b)
  · rw [List.mem_singleton.mp hb]
    exact isHexDigit_hexDigit (low_lt b)

/-- `is_valid_hex` accepts the texts of one to thirty-two digits. -/
theorem isValidHex_iff (s : Text) :
    isValidHex s = true ↔ 1 ≤ s.length ∧ s.length ≤ 32 ∧ ∀ c ∈ s, isHexDigit c = true := by
  have hne : 1 ≤ s.length ↔ s ≠ [] := List.length_pos_iff
  rw [isValidHex, hne]
  by_cases h0 : s = []
  · simp [h0]
  · by_cases h32 : 32 < s.length
    · simp [h0, h32, Nat.not_le.mpr h32]
    · simp [h0, h32, Nat.le_of_not_lt h32]

/-- The bytes read from a valid text, out of the padded one. -/
theorem bytes_fromHex {s : Text} (h : isValidHex s = true) :
    (fromHex s).bytes = (List.range 16).map fun i =>
      digitsByte ((List.replicate (32 - s.length) 0x30 ++ s).getD (2 * i) 0)
        ((List.replicate (32 - s.length) 0x30 ++ s).getD (2 * i + 1) 0) := by
  rw [fromHex, if_pos h]

/-- `from_hex(to_hex(u)) = u`. -/
theorem fromHex_toHex (u : Uuid128) : fromHex u.toHex = u := by
  have hvalid : isValidHex u.toHex = true := by
    rw [isValidHex_iff, length_toHex]
    exact ⟨by omega, by omega, fun c => isHexDigit_of_mem_toHex⟩
  have hbytes : (fromHex u.toHex).bytes = u.bytes := by
    rw [bytes_fromHex hvalid, length_toHex, Nat.sub_self, List.replicate_zero, List.nil_append]
    refine List.ext_getElem? fun i => ?_
    by_cases hi : i < 16
    · obtain ⟨b, hb⟩ : ∃ b, u.bytes[i]? = some b :=
        ⟨_, List.getElem?_eq_getElem (u.length_eq ▸ hi)⟩
      rw [List.getElem?_map, List.getElem?_range hi, hb, Option.map_some, toHex,
        List.getD_eq_getElem?_getD, List.getD_eq_getElem?_getD]
      -- the two digits of the byte at `i` stand at `2 i` and `2 i + 1`
      have hleft : (u.bytes.flatMap byteDigits)[2 * i]? =
          u.bytes[i]?.map fun b : UInt8 => hexDigit (b >>> 4) := getElem?_pairs_left _ _ u.bytes i
      have hright : (u.bytes.flatMap byteDigits)[2 * i + 1]? =
          u.bytes[i]?.map fun b : UInt8 => hexDigit (b &&& 0x0F) :=
        getElem?_pairs_right _ _ u.bytes i
      rw [hleft, hright, hb]
      exact congrArg some (digitsByte_byteDigits b)
    · simp [hi, u.length_eq]
  exact (Uuid128.mk.injEq ..).mpr hbytes

/-- The display form without its dashes is the text of thirty-two digits. -/
theorem filter_toDisplay (u : Uuid128) : u.toDisplay.filter (· != 0x2D) = u.toHex := by
  have hkeep : ∀ part : Text, (∀ c ∈ part, c ∈ u.toHex) → part.filter (· != 0x2D) = part := by
    intro part hpart
    refine List.filter_eq_self.mpr fun c hc => bne_iff_ne.mpr ?_
    rintro rfl
    exact absurd (isHexDigit_of_mem_toHex (hpart _ hc)) (by decide)
  have hmem : ∀ i n, ∀ c ∈ (u.toHex.drop i).take n, c ∈ u.toHex := fun i n c hc =>
    List.mem_of_mem_drop (List.mem_of_mem_take hc)
  have hjoin : ∀ i n, (u.toHex.drop i).take n ++ u.toHex.drop (i + n) = u.toHex.drop i := by
    intro i n
    rw [← List.drop_drop, List.take_append_drop]
  have hlast : (u.toHex.drop 20).take 12 = u.toHex.drop 20 := List.take_of_length_le (by simp)
  have hdash : ([0x2D] : Text).filter (· != 0x2D) = [] := by decide
  simp only [toDisplay, List.filter_append, hdash, List.append_nil]
  rw [hkeep _ fun c => List.mem_of_mem_take, hkeep _ (hmem 8 4), hkeep _ (hmem 12 4),
    hkeep _ (hmem 16 4), hkeep _ (hmem 20 12), hlast, List.append_assoc, List.append_assoc,
    List.append_assoc, hjoin 16 4, hjoin 12 4, hjoin 8 4, List.take_append_drop]

/-- `from_hex` reads the display form once the dashes are removed. -/
theorem fromHex_toDisplay (u : Uuid128) : fromHex (u.toDisplay.filter (· != 0x2D)) = u := by
  rw [filter_toDisplay, fromHex_toHex]

/-- `to_hex(from_hex(s))` is `s` in lower case, padded with zeros on the left. -/
theorem toHex_fromHex {s : Text} (h : isValidHex s = true) :
    (fromHex s).toHex = List.replicate (32 - s.length) 0x30 ++ s.map lowerCase := by
  obtain ⟨-, hle, hdigit⟩ := (isValidHex_iff s).mp h
  have hfull : (List.replicate (32 - s.length) 0x30 ++ s).length = 2 * 16 := by
    rw [List.length_append, List.length_replicate]
    omega
  have hdigits : ∀ c ∈ List.replicate (32 - s.length) 0x30 ++ s, isHexDigit c = true := by
    intro c hc
    rcases List.mem_append.mp hc with hc | hc
    · rw [List.eq_of_mem_replicate hc]
      decide
    · exact hdigit c hc
  have hlower : List.replicate (32 - s.length) 0x30 ++ s.map lowerCase =
      (List.replicate (32 - s.length) 0x30 ++ s).map lowerCase := by
    rw [List.map_append, List.map_replicate]
    rfl
  rw [toHex, bytes_fromHex h, hlower]
  -- of the padded string only its length and its digits matter from here on
  generalize List.replicate (32 - s.length) 0x30 ++ s = full at hfull hdigits
  have hget : ∀ i < 32, isHexDigit (full.getD i 0) = true := by
    intro i hi
    have hi : i < full.length := by omega
    rw [List.getD_eq_getElem?_getD, List.getElem?_eq_getElem hi]
    exact hdigits _ (List.getElem_mem hi)
  calc ((List.range 16).map fun i =>
          digitsByte (full.getD (2 * i) 0) (full.getD (2 * i + 1) 0)).flatMap byteDigits
      = (List.range 16).flatMap fun i =>
          [full.getD (2 * i) 0, full.getD (2 * i + 1) 0].map lowerCase := by
        rw [List.flatMap_map]
        refine List.flatMap_congr fun i hi => ?_
        have hi := List.mem_range.mp hi
        exact byteDigits_digitsByte (hget _ (by omega)) (hget _ (by omega))
    _ = full.map lowerCase := by
        rw [← List.map_flatMap, flatMap_range_pairs 0 16 full hfull]

example : (fromHex (.ofLiteral "A1b")).toHex = .ofLiteral "00000000000000000000000000000a1b" := by
  decide

/-! ### Order -/

/-- The loop of `operator<` is the lexicographic order on lists of one length. -/
theorem ltBytes_iff : ∀ bs cs : List UInt8, bs.length = cs.length →
    (ltBytes bs cs = true ↔ bs < cs)
  | [], [], _ => by simp [ltBytes]
  | b :: bs, c :: cs, h => by
    rw [ltBytes, List.cons_lt_cons_iff]
    by_cases hbc : b = c
    · subst hbc
      simp [ltBytes_iff bs cs (by simpa using h)]
    · simp [hbc]

theorem lt_iff_bytes (u v : Uuid128) : u < v ↔ u.bytes < v.bytes :=
  ltBytes_iff _ _ (u.length_eq.trans v.length_eq.symm)

/-- Identities are ordered as their texts are. -/
theorem lt_iff_toHex (u v : Uuid128) : u < v ↔ u.toHex < v.toHex := by
  have hlen : u.bytes.length = v.bytes.length := u.length_eq.trans v.length_eq.symm
  rw [lt_iff_bytes, toHex, toHex, flatMap_lt_flatMap_iff length_byteDigits byteDigits_injective
    byteDigits_lt_byteDigits hlen]

/-- **Hex identities.** Both written forms are read back, with the dashes of the display form
    removed; a text of one to thirty-two digits in either case is written back in lower case,
    padded with zeros on the left; and identities are ordered as their texts are. -/
theorem hex_identities :
    (∀ u : Uuid128, fromHex u.toHex = u ∧ fromHex (u.toDisplay.filter (· != 0x2D)) = u) ∧
    (∀ s : Text, 1 ≤ s.length → s.length ≤ 32 → (∀ c ∈ s, isHexDigit c = true) →
      (fromHex s).toHex = List.replicate (32 - s.length) 0x30 ++ s.map lowerCase) ∧
    ∀ u v : Uuid128, u < v ↔ u.toHex < v.toHex :=
  ⟨fun u => ⟨fromHex_toHex u, fromHex_toDisplay u⟩,
    fun s h1 h32 hs => toHex_fromHex ((isValidHex_iff s).mpr ⟨h1, h32, hs⟩), lt_iff_toHex⟩

end Uuid128

end FailureFabric
