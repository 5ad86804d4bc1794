import FailureFabric.Snapshot
import FailureFabric.Library.Checked

namespace FailureFabric

/-!
# Parsing in machine words

The reader, `decode_frame` and the frame loop of `load` again, as the machine runs them: sizes and
offsets are 64-bit words whose sums wrap, lengths come from the input in 16 and 32 bits, and every
byte is fetched through an address into the string that is parsed.  For a string of any length that
leaves room for a 33-bit sum, nothing wraps and no address is outside.

* `Reader`, `ReaderCall` — the reader and its calls; `refines_call` — a call does what the reader on
  natural numbers does, advances, and stays in the buffer;
* `decodeFrame_eq` — so does `decode_frame`;
* `frameLoop_eq` — the frame loop ends, after one frame for every nineteen bytes at most;
* `parsesWithin` — all of it, for every string and every sequence of calls.

A pointer is a place in the string that may also be outside of it, so it does not wrap.
-/

namespace Sized

open Library

/-- Nothing wraps: the sum of two numbers in machine words. -/
private theorem toNat_add {a b : UInt64} (h : a.toNat + b.toNat < 2 ^ 64) :
    (a + b).toNat = a.toNat + b.toNat := by
  rw [UInt64.toNat_add, Nat.mod_eq_of_lt h]

/-! ### The reader -/

/-- `BinaryReader`, on the string that `p_` points into. -/
structure Reader where
  /-- `p_`. -/
  p : Nat
  /-- `n_`. -/
  n : UInt64
  pos : UInt64 := 0
  ok : Bool := true

namespace Reader

/-- `remaining`. -/
def remaining (r : Reader) : UInt64 := r.n - r.pos

/-- A reader of a whole string, as the constructor makes it. -/
def ofBuffer (mem : List UInt8) : Reader := { p := 0, n := UInt64.ofNat mem.length }

variable (mem : List UInt8)

/-- `need(len)`, then the bytes and the advance. -/
def fixed {α : Type} (len : UInt64) (dflt : α)
    (get : (bs : List UInt8) → bs.length = len.toNat → α) : Checked Reader α := fun r =>
  if r.pos + len > r.n then .value (dflt, { r with ok := false })
  else do
    let bs ← bytesAt mem (r.p + r.pos.toNat) len.toNat
    return (get bs.1 bs.2, { r with pos := r.pos + len })

/-- `u8`. -/
def u8 : Checked Reader UInt8 := fixed mem 1 0 (fun bs _ => UInt8.ofNat (getBe bs))

/-- `u16`. -/
def u16 : Checked Reader UInt16 := fixed mem 2 0 (fun bs _ => UInt16.ofNat (getBe bs))

/-- `u32`. -/
def u32 : Checked Reader UInt32 := fixed mem 4 0 (fun bs _ => UInt32.ofNat (getBe bs))

/-- `u64`. -/
def u64 : Checked Reader UInt64 := fixed mem 8 0 (fun bs _ => UInt64.ofNat (getBe bs))

/-- `bytes`: what is copied, nothing if the bytes are not there. -/
def bytes (len : UInt64) : Checked Reader (List UInt8) := fixed mem len [] (fun bs _ => bs)

/-- `uuid`. -/
def uuid : Checked Reader Uuid128 := fixed mem 16 Uuid128.zero (fun bs h => ⟨bs, h⟩)

/-- `str16`: its length is a 16-bit word, and is added to the position as a 64-bit one. -/
def str16 : Checked Reader Text := do
  let len ← u16 mem
  fun r =>
    if r.ok = false ∨ r.pos + len.toUInt64 > r.n then .value ([], { r with ok := false })
    else do
      let bs ← bytesAt mem (r.p + r.pos.toNat) len.toUInt64.toNat
      return (bs.1, { r with pos := r.pos + len.toUInt64 })

/-- `generation`. -/
def generation : Checked Reader Generation := Generation.mk <$> u64 mem

/-- `enumv`. -/
def enumv : Checked Reader UInt32 := u32 mem

/-- `if (!r.ok()) return false;` -/
def checkOk : Checked Reader Unit := fun r => if r.ok then .value ((), r) else .refused

/-! ### It does what the reader on natural numbers does -/

/-- The reader on natural numbers: its buffer is the part of the string that is read. -/
def view (r : Reader) : BinaryReader where
  data := (mem.drop r.p).take r.n.toNat
  pos := r.pos.toNat
  ok := r.ok

/-- The buffer is inside the string, the position inside the buffer, and a 32-bit length can be
    added to the position. -/
structure Within (r : Reader) : Prop where
  buffer_le : r.p + r.n.toNat ≤ mem.length
  pos_le : r.pos.toNat ≤ r.n.toNat
  room : r.n.toNat + 2 ^ 32 < 2 ^ 64

/-- The reader has moved on: it is on the same buffer, at the same position or behind, and not in
    order if it was not. -/
structure Advances (r r' : Reader) : Prop where
  p_eq : r'.p = r.p
  n_eq : r'.n = r.n
  pos_le : r.pos.toNat ≤ r'.pos.toNat
  ok_of_ok : r'.ok = true → r.ok = true

/-- Readers in machine words and on natural numbers. -/
def refinement : Refinement Reader BinaryReader where
  view := view mem
  inv := Within mem
  moves := Advances
  moves_refl _ := ⟨rfl, rfl, Nat.le_refl _, id⟩
  moves_trans h h' := ⟨h'.p_eq.trans h.p_eq, h'.n_eq.trans h.n_eq, h.pos_le.trans h'.pos_le,
    h.ok_of_ok ∘ h'.ok_of_ok⟩

variable {mem}

/-- A reader within the buffer has as many bytes as it says. -/
theorem length_view {r : Reader} (h : r.Within mem) : (r.view mem).data.length = r.n.toNat := by
  have hle := h.buffer_le
  rw [view, List.length_take, List.length_drop]
  omega

section Reads

variable {r : Reader}

/-- So `remaining` does not wrap. -/
theorem remaining_view (hr : r.Within mem) : r.remaining.toNat = (r.view mem).remaining := by
  rw [remaining, UInt64.toNat_sub_of_le _ _ (UInt64.le_iff_toNat_le.mpr hr.pos_le),
    BinaryReader.remaining, length_view hr]
  rfl

/-- A length that is read from the input is added to the position without wrapping. -/
theorem toNat_pos_add (hr : r.Within mem) {len : UInt64} (hlen : len.toNat < 2 ^ 32) :
    (r.pos + len).toNat = r.pos.toNat + len.toNat :=
  toNat_add (by have := hr.pos_le; have := hr.room; omega)

/-- The test of `need`, in machine words and on natural numbers. -/
theorem need_iff (hr : r.Within mem) {len : UInt64} (hlen : len.toNat < 2 ^ 32) :
    r.pos + len > r.n ↔ ¬ r.pos.toNat + len.toNat ≤ (r.view mem).data.length := by
  rw [gt_iff_lt, UInt64.lt_iff_toNat_lt, toNat_pos_add hr hlen, length_view hr]
  omega

/-- Bytes that were found to be there are inside the string, and are those of the buffer. -/
theorem bytesAt_view (hr : r.Within mem) {len : Nat}
    (hle : r.pos.toNat + len ≤ (r.view mem).data.length) :
    ∃ h, bytesAt mem (r.p + r.pos.toNat) len =
      .value ⟨((r.view mem).data.drop r.pos.toNat).take len, h⟩ := by
  rw [length_view hr] at hle
  have hmem := hr.buffer_le
  have hslice : ((r.view mem).data.drop r.pos.toNat).take len =
      (mem.drop (r.p + r.pos.toNat)).take len := by
    rw [view, List.drop_take, List.take_take, List.drop_drop, Nat.min_eq_left (by omega)]
  refine ⟨by rw [List.length_take, List.length_drop, length_view hr]; omega, ?_⟩
  rw [bytesAt_eq (by omega)]
  simp only [hslice]

/-- After such a read. -/
theorem Within.advance (hr : r.Within mem) {len : UInt64} (hlen : len.toNat < 2 ^ 32)
    (hle : r.pos.toNat + len.toNat ≤ (r.view mem).data.length) :
    Advances r { r with pos := r.pos + len } ∧ Within mem { r with pos := r.pos + len } := by
  have hsum := toNat_pos_add hr hlen
  rw [length_view hr] at hle
  exact ⟨⟨rfl, rfl, by rw [hsum]; omega, id⟩, ⟨hr.buffer_le, by rw [hsum]; exact hle, hr.room⟩⟩

/-- After a read of what is not there. -/
theorem Within.not_ok (hr : r.Within mem) :
    Advances r { r with ok := false } ∧ Within mem { r with ok := false } :=
  ⟨⟨rfl, rfl, Nat.le_refl _, fun h => absurd h (by simp)⟩, ⟨hr.buffer_le, hr.pos_le, hr.room⟩⟩

end Reads

/-- **Fixed-width law.** The shared read does what it does on natural numbers. -/
theorem refines_fixed {α : Type} {len : UInt64} (hlen : len.toNat < 2 ^ 32) (dflt : α)
    (get : (bs : List UInt8) → bs.length = len.toNat → α) :
    Refines (refinement mem) (fixed mem len dflt get)
      (BinaryReader.fixed len.toNat dflt get) := by
  intro r hr
  -- the guard adds in machine words; inside of a buffer the sum does not wrap
  by_cases hle : ((refinement mem).view r).pos + len.toNat ≤ ((refinement mem).view r).data.length
  · obtain ⟨hadvances, hwithin⟩ := Within.advance hr hlen hle
    obtain ⟨hbs, hbytes⟩ := bytesAt_view hr hle
    have hvalue : fixed mem len dflt get r =
        .value (get _ hbs, { r with pos := r.pos + len }) := by
      rw [fixed, if_neg ((need_iff hr hlen).not.mpr (not_not.mpr hle)), hbytes]
      rfl
    have hview : { (refinement mem).view r with pos := r.pos.toNat + len.toNat } =
        (refinement mem).view { r with pos := r.pos + len } := by
      simp only [refinement, view, toNat_pos_add hr hlen]
    refine .inr ⟨_, _, hvalue, ?_, hadvances, hwithin⟩
    rw [BinaryReader.fixed, dif_pos hle, ← hview]
    rfl
  · obtain ⟨hadvances, hwithin⟩ := Within.not_ok hr
    refine .inr ⟨dflt, _, if_pos ((need_iff hr hlen).mpr hle), ?_, hadvances, hwithin⟩
    rw [BinaryReader.fixed, dif_neg hle]
    rfl

/-- The checked read of a byte refines the plain one. -/
theorem refines_u8 : Refines (refinement mem) (u8 mem) BinaryReader.u8 :=
  refines_fixed (by decide) _ _

/-- So do the wider ones, here two bytes. -/
theorem refines_u16 : Refines (refinement mem) (u16 mem) BinaryReader.u16 :=
  refines_fixed (by decide) _ _

/-- Four bytes. -/
theorem refines_u32 : Refines (refinement mem) (u32 mem) BinaryReader.u32 :=
  refines_fixed (by decide) _ _

/-- Eight bytes. -/
theorem refines_u64 : Refines (refinement mem) (u64 mem) BinaryReader.u64 :=
  refines_fixed (by decide) _ _

/-- A read of a given length, as far as a length field reaches. -/
theorem refines_bytes {len : UInt64} (hlen : len.toNat < 2 ^ 32) :
    Refines (refinement mem) (bytes mem len) (BinaryReader.fixed len.toNat [] fun bs _ => bs) :=
  refines_fixed hlen _ _

/-- Sixteen bytes. -/
theorem refines_uuid : Refines (refinement mem) (uuid mem) BinaryReader.uuid :=
  refines_fixed (by decide) _ _

/-- A text: the length field and then as many bytes as it says. -/
theorem refines_str16 : Refines (refinement mem) (str16 mem) BinaryReader.str16 := by
  refine refines_u16.bind fun len => ?_
  have hlen : len.toUInt64.toNat = len.toNat := UInt16.toNat_toUInt64 len
  have hlt : len.toUInt64.toNat < 2 ^ 32 := by
    have := len.toNat_lt
    omega
  intro r hr
  cases hok : r.ok with
  | false =>
    obtain ⟨hadvances, hwithin⟩ := Within.not_ok hr
    exact .inr ⟨[], _, if_pos (.inl hok), if_pos (.inl hok), hadvances, hwithin⟩
  | true =>
    -- a reader in order reads the text as `bytes` reads as many bytes
    have hword : (if r.ok = false ∨ r.pos + len.toUInt64 > r.n then
        (.value ([], { r with ok := false }) : Outcome (Text × Reader))
        else do
          let bs ← bytesAt mem (r.p + r.pos.toNat) len.toUInt64.toNat
          return (bs.1, { r with pos := r.pos + len.toUInt64 })) = bytes mem len.toUInt64 r := by
      rw [bytes, fixed]
      simp only [hok, Bool.true_eq_false, false_or]
    have hnat : ∀ r' : BinaryReader, r'.ok = true →
        (if r'.ok = false ∨ r'.pos + len.toNat > r'.data.length then
          some (([], { r' with ok := false }) : Text × BinaryReader)
        else some ((r'.data.drop r'.pos).take len.toNat, { r' with pos := r'.pos + len.toNat })) =
          BinaryReader.fixed len.toUInt64.toNat [] (fun bs _ => bs) r' := by
      intro r' hok'
      rw [BinaryReader.fixed, hlen]
      by_cases hle : r'.pos + len.toNat ≤ r'.data.length
      · rw [dif_pos hle, if_neg (by rw [hok', not_or]; exact ⟨nofun, by omega⟩)]
      · rw [dif_neg hle, if_pos (.inr (by omega))]
    have hrefines : Refines (refinement mem) (bytes mem len.toUInt64) _ := refines_bytes hlt
    have hbytes := hrefines r hr
    rw [← hword, ← hnat _ hok] at hbytes
    exact hbytes

/-- The check looks at the same flag. -/
theorem refines_checkOk : Refines (refinement mem) checkOk BinaryReader.checkOk := by
  intro r hr
  cases hok : r.ok with
  | true =>
    refine .inr ⟨(), r, ?_, ?_, (refinement mem).moves_refl r, hr⟩
    · rw [checkOk, if_pos hok]
    · rw [BinaryReader.checkOk]
      exact if_pos hok
  | false =>
    refine .inl ⟨?_, ?_⟩
    · rw [checkOk, if_neg (by rw [hok]; simp)]
    · rw [BinaryReader.checkOk]
      exact if_neg (by rw [show ((refinement mem).view r).ok = r.ok from rfl, hok]; simp)

end Reader

/-! ### Sequences of calls -/

/-- A call on a reader. -/
inductive ReaderCall
  | u8 | u16 | u32 | u64
  | bytes (len : UInt64)
  | str16 | uuid | generation | enumv

namespace ReaderCall

/-- The count that the caller gives. -/
def count : ReaderCall → Nat
  | .bytes len => len.toNat
  | _ => 0

/-- The reader after a call, whatever it answers. -/
def run (mem : List UInt8) : ReaderCall → Checked Reader Unit
  | .u8 => (fun _ => ()) <$> Reader.u8 mem
  | .u16 => (fun _ => ()) <$> Reader.u16 mem
  | .u32 => (fun _ => ()) <$> Reader.u32 mem
  | .u64 => (fun _ => ()) <$> Reader.u64 mem
  | .bytes len => (fun _ => ()) <$> Reader.bytes mem len
  | .str16 => (fun _ => ()) <$> Reader.str16 mem
  | .uuid => (fun _ => ()) <$> Reader.uuid mem
  | .generation => (fun _ => ()) <$> Reader.generation mem
  | .enumv => (fun _ => ()) <$> Reader.enumv mem

/-- The same call on natural numbers. -/
def spec : ReaderCall → Decoder BinaryReader Unit
  | .u8 => (fun _ => ()) <$> BinaryReader.u8
  | .u16 => (fun _ => ()) <$> BinaryReader.u16
  | .u32 => (fun _ => ()) <$> BinaryReader.u32
  | .u64 => (fun _ => ()) <$> BinaryReader.u64
  | .bytes len => (fun _ => ()) <$> BinaryReader.fixed len.toNat [] (fun bs _ => bs)
  | .str16 => (fun _ => ()) <$> BinaryReader.str16
  | .uuid => (fun _ => ()) <$> BinaryReader.uuid
  | .generation => (fun _ => ()) <$> BinaryReader.generation
  | .enumv => (fun _ => ()) <$> BinaryReader.enumv

/-- **Call lemma.** A call does what it does on natural numbers. -/
theorem refines {mem : List UInt8} {call : ReaderCall} (hcount : call.count < 2 ^ 32) :
    Refines (Reader.refinement mem) (call.run mem) call.spec := by
  cases call with
  | u8 => exact Reader.refines_u8.map _
  | u16 => exact Reader.refines_u16.map _
  | u32 => exact Reader.refines_u32.map _
  | u64 => exact Reader.refines_u64.map _
  | bytes len => exact (Reader.refines_bytes hcount).map _
  | str16 => exact Reader.refines_str16.map _
  | uuid => exact Reader.refines_uuid.map _
  | generation => exact (Reader.refines_u64.map _).map _
  | enumv => exact Reader.refines_u32.map _

/-- On natural numbers a call always answers. -/
theorem spec_isSome (call : ReaderCall) (r : BinaryReader) : (call.spec r).isSome = true := by
  have hfixed : ∀ {α : Type} (n : Nat) (dflt : α) (get : (bs : List UInt8) → bs.length = n → α)
      (r : BinaryReader), ((BinaryReader.fixed n dflt get) r).isSome = true := by
    intro α n dflt get r
    unfold BinaryReader.fixed
    split <;> rfl
  have hmap : ∀ {α β : Type} (f : α → β) (m : Decoder BinaryReader α),
      (m r).isSome = true → ((f <$> m) r).isSome = true := by
    intro α β f m h
    show ((m r).bind fun p => some (f p.1, p.2)).isSome = true
    rw [Option.isSome_bind]
    cases hm : m r with
    | none => rw [hm] at h; cases h
    | some p => rfl
  cases call with
  | generation => exact hmap _ _ (hmap _ _ (hfixed _ _ _ r))
  | enumv => exact hmap _ BinaryReader.u32 (hfixed _ _ _ r)
  | str16 =>
    refine hmap _ _ ?_
    have hlen : (BinaryReader.u16 r).isSome = true := hfixed _ _ _ r
    obtain ⟨⟨len, r'⟩, hread⟩ := Option.isSome_iff_exists.mp hlen
    show ((BinaryReader.u16 r).bind _).isSome = true
    rw [hread, Option.bind_some]
    dsimp only
    split <;> rfl
  | _ => exact hmap _ _ (hfixed _ _ _ r)

/-- A call answers, moves the reader on, and stays inside of the buffer. -/
theorem run_spec {mem : List UInt8} {r : Reader} (hr : r.Within mem) {call : ReaderCall}
    (hcount : call.count < 2 ^ 32) :
    ∃ r', call.run mem r = .value ((), r') ∧ r.Advances r' ∧ r'.Within mem := by
  rcases refines hcount r hr with ⟨-, hnone⟩ | ⟨_, r', hvalue, -, hadvances, hwithin⟩
  · have hsome := call.spec_isSome ((Reader.refinement mem).view r)
    rw [hnone] at hsome
    cases hsome
  · exact ⟨r', hvalue, hadvances, hwithin⟩

end ReaderCall

/-- The reader after a sequence of calls. -/
def runCalls (mem : List UInt8) : Reader → List ReaderCall → Outcome Reader
  | r, [] => .value r
  | r, call :: calls => do
    let p ← call.run mem r
    runCalls mem p.2 calls

/-- **Run lemma.** What a call does, a sequence of calls does. -/
theorem runCalls_spec {mem : List UInt8} {r : Reader} (hr : r.Within mem) {calls : List ReaderCall}
    (hcount : ∀ call ∈ calls, call.count < 2 ^ 32) :
    ∃ r', runCalls mem r calls = .value r' ∧ r.Advances r' ∧ r'.Within mem := by
  induction calls generalizing r with
  | nil => exact ⟨r, rfl, (Reader.refinement mem).moves_refl r, hr⟩
  | cons call calls ih =>
    obtain ⟨r₁, hcall, hadvances₁, hwithin₁⟩ :=
      ReaderCall.run_spec hr (hcount call List.mem_cons_self)
    obtain ⟨r', hcalls, hadvances, hwithin⟩ :=
      ih hwithin₁ fun call hcall => hcount call (List.mem_cons_of_mem _ hcall)
    refine ⟨r', ?_, (Reader.refinement mem).moves_trans hadvances₁ hadvances, hwithin⟩
    rw [runCalls, hcall]
    exact hcalls

/-- Calls are run one after the other. -/
theorem runCalls_append (mem : List UInt8) (r : Reader) (pre post : List ReaderCall) :
    runCalls mem r (pre ++ post) = (runCalls mem r pre).bind (runCalls mem · post) := by
  induction pre generalizing r with
  | nil => rfl
  | cons call pre ih =>
    rw [List.cons_append, runCalls, runCalls]
    cases call.run mem r with
    | value p => exact ih p.2
    | refused => rfl
    | fault => rfl

/-! ### Frames -/

/-- The header fields of a frame. -/
def readFrameHeader (data : List UInt8) : Checked Reader (UInt8 × UInt32) := do
  let magic ← Reader.u32 data
  Reader.checkOk
  Checked.check (magic = kFFMagic)
  let ver ← Reader.u16 data
  Reader.checkOk
  Checked.check (ver = kFFVersion)
  let kind ← Reader.u8 data
  let len ← Reader.u32 data
  Reader.checkOk
  return (kind, len)

/-- The fields before a payload are read within the buffer. -/
theorem refines_frameHeader {data : List UInt8} :
    Refines (Reader.refinement data) (readFrameHeader data) FailureFabric.readFrameHeader := by
  refine Reader.refines_u32.bind fun magic => Reader.refines_checkOk.bind fun _ => ?_
  refine (Refines.check _).bind fun _ => Reader.refines_u16.bind fun ver => ?_
  refine Reader.refines_checkOk.bind fun _ => (Refines.check _).bind fun _ => ?_
  refine Reader.refines_u8.bind fun kind => Reader.refines_u32.bind fun len => ?_
  exact Reader.refines_checkOk.bind fun _ => Refines.pure _

/-- `decode_frame`: lengths are added as 64-bit words, but `11 + len` as 32-bit ones. -/
def decodeFrame (data : List UInt8) (offset : UInt64) : Outcome (FrameHeader × UInt64) := do
  let n := UInt64.ofNat data.length
  Outcome.check (offset + 11 ≤ n)
  let ((kind, len), r) ← readFrameHeader data { p := offset.toNat, n := n - offset }
  Outcome.check (len.toUInt64 ≤ r.remaining)
  let payloadStart := offset + 11
  Outcome.check (payloadStart + len.toUInt64 + 8 ≤ n)
  let payload ← bytesAt data payloadStart.toNat len.toNat
  let storedCk ← bytesAt data (payloadStart.toNat + len.toNat) 8
  let covered ← bytesAt data offset.toNat (11 + len).toNat
  let stored := UInt64.ofNat (getBe storedCk.1)
  Outcome.check (fnv1a64 covered.1 = stored)
  return (⟨kind, payload.1, stored⟩, payloadStart + len.toUInt64 + 8)

section Frames

variable {data : List UInt8}

/-- The length of the string is the size that is passed along. -/
theorem toNat_size (hsize : data.length + 2 ^ 33 < 2 ^ 64) :
    (UInt64.ofNat data.length).toNat = data.length :=
  UInt64.toNat_ofNat_of_lt' (by rw [UInt64.size]; omega)

/-- Past the head of a frame: where the next one starts. -/
theorem toNat_next (hsize : data.length + 2 ^ 33 < 2 ^ 64) {offset : UInt64}
    (hhead : offset.toNat + 11 ≤ data.length) (len : UInt32) :
    (offset + 11 + len.toUInt64 + 8).toNat = offset.toNat + 11 + len.toNat + 8 := by
  have hlen : len.toUInt64.toNat = len.toNat := UInt32.toNat_toUInt64 len
  have hlt := len.toNat_lt
  have h11 : (11 : UInt64).toNat = 11 := rfl
  have h8 : (8 : UInt64).toNat = 8 := rfl
  have hstart : (offset + 11).toNat = offset.toNat + 11 := toNat_add (by omega)
  have hend : (offset + 11 + len.toUInt64).toNat = offset.toNat + 11 + len.toNat := by
    rw [toNat_add (by omega), hstart, hlen]
  rw [toNat_add (by omega), hend, h8]

/-- The reader that `decode_frame` builds at an offset of the string is on the part of the string
    from there on. -/
theorem reader_from (hsize : data.length + 2 ^ 33 < 2 ^ 64) {offset : UInt64}
    (hoffset : offset.toNat ≤ data.length) :
    Reader.Within data { p := offset.toNat, n := UInt64.ofNat data.length - offset } ∧
      (Reader.refinement data).view { p := offset.toNat, n := UInt64.ofNat data.length - offset } =
        { data := data.drop offset.toNat } := by
  have hn := toNat_size hsize
  have hrest : (UInt64.ofNat data.length - offset).toNat = data.length - offset.toNat := by
    rw [UInt64.toNat_sub_of_le _ _ (by rw [UInt64.le_iff_toNat_le, hn]; exact hoffset), hn]
  constructor
  · exact ⟨by show offset.toNat + _ ≤ _; rw [hrest]; omega, Nat.zero_le _, by rw [hrest]; omega⟩
  · simp only [Reader.refinement, Reader.view, hrest]
    rw [List.take_of_length_le (by rw [List.length_drop])]
    rfl

/-- **Frame law.** `decode_frame` does what it does on natural numbers: nothing wraps, and no byte
    outside of the string is read. -/
theorem decodeFrame_eq (hsize : data.length + 2 ^ 33 < 2 ^ 64) {offset : UInt64}
    (hoffset : offset.toNat ≤ data.length) :
    decodeFrame data offset = .ofOption
      ((FailureFabric.decodeFrame data offset.toNat).map fun p => (p.1, UInt64.ofNat p.2)) := by
  have hn := toNat_size hsize
  have hstart : (offset + 11).toNat = offset.toNat + 11 := toNat_add (by
    rw [show (11 : UInt64).toNat = 11 from rfl]; omega)
  refine Outcome.check_bind_eq (by rw [UInt64.le_iff_toNat_le, hstart, hn]) fun hhead => ?_
  obtain ⟨hreader, hview⟩ := reader_from hsize hoffset
  rcases refines_frameHeader _ hreader with
    ⟨hrefused, hnone⟩ | ⟨⟨kind, len⟩, r, hvalue, hsome, -, hwithin⟩
  · rw [hview] at hnone
    rw [hrefused, hnone]
    rfl
  · rw [hview] at hsome
    rw [hvalue, hsome]
    have hlen : len.toUInt64.toNat = len.toNat := UInt32.toNat_toUInt64 len
    have hremaining : r.remaining.toNat = ((Reader.refinement data).view r).remaining :=
      Reader.remaining_view hwithin
    have hnext := toNat_next hsize hhead len
    refine Outcome.check_bind_eq (by rw [UInt64.le_iff_toNat_le, hlen, hremaining]) fun _ => ?_
    refine Outcome.check_bind_eq (by rw [UInt64.le_iff_toNat_le, hnext, hn]) fun hfits => ?_
    -- the three slices are inside the string
    dsimp only at hfits ⊢
    have hcovered : (11 + len).toNat ≤ 11 + len.toNat := by
      rw [UInt32.toNat_add]
      exact Nat.mod_le _ _
    rw [hstart, bytesAt_eq (show offset.toNat + 11 + len.toNat ≤ data.length by omega),
      Outcome.bind_value,
      bytesAt_eq (show offset.toNat + 11 + len.toNat + 8 ≤ data.length by omega),
      Outcome.bind_value,
      bytesAt_eq (show offset.toNat + (11 + len).toNat ≤ data.length by omega), Outcome.bind_value]
    refine Outcome.check_bind_eq Iff.rfl fun _ => ?_
    have hword : UInt64.ofNat (offset.toNat + 11 + len.toNat + 8) =
        offset + 11 + len.toUInt64 + 8 := by
      rw [← hnext, UInt64.ofNat_toNat]
    simp only [Option.pure_def, Option.map_some, Outcome.ofOption, hword]
    rfl

/-- The payload of a decoded frame is a slice of the string, and the frame ends inside it. -/
theorem payload_slice {offset next : Nat} {h : FrameHeader}
    (hdec : FailureFabric.decodeFrame data offset = some (h, next)) :
    h.payload = (data.drop (offset + 11)).take h.payload.length ∧
      next = offset + 19 + h.payload.length ∧ next ≤ data.length := by
  obtain ⟨-, hle⟩ := decodeFrame_bounds hdec
  unfold FailureFabric.decodeFrame at hdec
  simp only [Option.bind_eq_bind, Option.bind_eq_some_iff] at hdec
  obtain ⟨_, -, ⟨⟨kind, len⟩, r⟩, -, _, -, _, -, _, -, hout⟩ := hdec
  obtain ⟨rfl, rfl⟩ := Prod.mk.inj (Option.some.inj hout)
  dsimp only at hle ⊢
  have hlen : ((data.drop (offset + 11)).take len.toNat).length = len.toNat := by
    rw [List.length_take, List.length_drop]
    omega
  rw [hlen]
  exact ⟨rfl, by omega, hle⟩

/-! ### The frame loop -/

/-- The frame loop of `load`, run for a number of rounds: how many frames it has decoded, counted
    from `k`, its variables, and whether it ran to the end of the data.  `none` if it has not
    ended by then, or has read outside of the string. -/
def frameLoop (data : List UInt8) :
    Nat → Nat → UInt64 → LoadState → Option (Nat × LoadState × Bool)
  | 0, _, _, _ => none
  | rounds + 1, k, off, st =>
    if off < UInt64.ofNat data.length then
      match decodeFrame data off with
      | .fault => none
      | .refused => some (k, st, false)
      | .value (h, next) =>
        match loadFrame st h with
        | none => some (k + 1, st, false)
        | some st' => frameLoop data rounds (k + 1) next st'
    else some (k, st, true)

/-- **Loop law.** With a round for every nineteen bytes and one more the loop ends, having decoded
    one frame for every nineteen bytes at most, with what the loop on natural numbers gives. -/
theorem frameLoop_eq (hsize : data.length + 2 ^ 33 < 2 ^ 64) (rounds : Nat) {k fuel : Nat}
    {off : UInt64} {st : LoadState} (hoff : off.toNat ≤ data.length)
    (hrounds : data.length < off.toNat + 19 * rounds) (hfuel : data.length ≤ off.toNat + fuel) :
    ∃ m, frameLoop data rounds k off st = some (k + m, loadLoop data fuel off.toNat st) ∧
      off.toNat + 19 * m ≤ data.length := by
  have hn := toNat_size hsize
  -- a decoded frame takes nineteen bytes at least, so each round leaves enough for the rest
  induction rounds generalizing k fuel off st with
  | zero => omega
  | succ rounds ih =>
    rw [frameLoop]
    by_cases hmore : off.toNat < data.length
    · obtain ⟨fuel, rfl⟩ : ∃ n, fuel = n + 1 := ⟨fuel - 1, by omega⟩
      rw [if_pos (by rw [UInt64.lt_iff_toNat_lt, hn]; exact hmore), decodeFrame_eq hsize hoff,
        loadLoop, if_pos hmore]
      cases hdec : FailureFabric.decodeFrame data off.toNat with
      -- a frame that is refused is not counted; one that is decoded and not loaded is
      | none => exact ⟨0, rfl, by omega⟩
      | some p =>
        obtain ⟨h, next⟩ := p
        have hbounds := decodeFrame_bounds hdec
        have hnext : (UInt64.ofNat next).toNat = next :=
          UInt64.toNat_ofNat_of_lt' (by rw [UInt64.size]; omega)
        rw [Option.map_some, Outcome.ofOption]
        dsimp only
        cases hst : loadFrame st h with
        | none => exact ⟨1, rfl, by omega⟩
        | some st' =>
          have hrest : ∃ m, frameLoop data rounds (k + 1) (UInt64.ofNat next) st' =
              some (k + 1 + m, loadLoop data fuel (UInt64.ofNat next).toNat st') ∧
              (UInt64.ofNat next).toNat + 19 * m ≤ data.length :=
            ih (by omega) (by omega) (by omega)
          obtain ⟨m, hloop, hm⟩ := hrest
          rw [hnext] at hloop hm
          refine ⟨m + 1, ?_, by omega⟩
          rw [show k + (m + 1) = k + 1 + m by omega]
          exact hloop
    · rw [if_neg (by rw [UInt64.lt_iff_toNat_lt, hn]; exact hmore), loadLoop_end (by omega)]
      exact ⟨0, rfl, by omega⟩

end Frames

/-! ### Any string -/

/-- What holds of parsing a string in machine words, whatever its bytes are. -/
structure ParsesWithin (data : List UInt8) : Prop where
  /-- `decode_frame` does not read outside of the string. -/
  no_fault : ∀ offset : UInt64, offset.toNat ≤ data.length → decodeFrame data offset ≠ .fault
  /-- The payload of the frame that it answers is a slice of the string, and the next frame starts
      nineteen bytes later or more, inside of the string or at its end. -/
  frame : ∀ (offset : UInt64) h next, offset.toNat ≤ data.length →
    decodeFrame data offset = .value (h, next) →
      h.payload = (data.drop (offset.toNat + 11)).take h.payload.length ∧
      offset.toNat + 11 + h.payload.length ≤ data.length ∧
      offset.toNat + 19 ≤ next.toNat ∧ next.toNat ≤ data.length
  /-- No sequence of calls on a reader reads outside of the string, and as it goes on the position
      does not leave the buffer or go back, and the flag does not come on again. -/
  reader : ∀ pre post : List ReaderCall, (∀ call ∈ pre ++ post, call.count < 2 ^ 32) →
    ∃ r r', runCalls data (.ofBuffer data) pre = .value r ∧
      runCalls data (.ofBuffer data) (pre ++ post) = .value r' ∧
      r.pos.toNat ≤ r'.pos.toNat ∧ r'.pos.toNat ≤ data.length ∧ (r.ok = false → r'.ok = false)
  /-- The frame loop of `load` ends, having decoded at most one frame for every nineteen bytes. -/
  loop : ∀ (st : LoadState) (rounds : Nat), data.length / 19 < rounds →
    ∃ k, k ≤ data.length / 19 ∧
      frameLoop data rounds 0 0 st = some (k, loadLoop data data.length 0 st)

/-- **Parsing any bytes.** A string of any length that leaves room for a 33-bit sum is parsed
    within its bounds, and the frame loop ends. -/
theorem parsesWithin {data : List UInt8} (hsize : data.length + 2 ^ 33 < 2 ^ 64) :
    ParsesWithin data where
  no_fault offset hoffset := by
    rw [decodeFrame_eq hsize hoffset]
    exact Outcome.ofOption_ne_fault _
  frame offset h next hoffset hvalue := by
    rw [decodeFrame_eq hsize hoffset] at hvalue
    cases hdec : FailureFabric.decodeFrame data offset.toNat with
    | none =>
      rw [hdec] at hvalue
      cases hvalue
    | some p =>
      rw [hdec] at hvalue
      obtain ⟨rfl, rfl⟩ := Prod.mk.inj (Outcome.value.inj hvalue)
      obtain ⟨hpayload, hnext, hle⟩ := payload_slice hdec
      have hword : (UInt64.ofNat p.2).toNat = p.2 :=
        UInt64.toNat_ofNat_of_lt' (by rw [UInt64.size]; omega)
      rw [hword]
      exact ⟨hpayload, by omega, by omega, hle⟩
  reader pre post hcount := by
    have hn := toNat_size hsize
    have hbuffer : (Reader.ofBuffer data).Within data :=
      ⟨by show 0 + (UInt64.ofNat data.length).toNat ≤ _; omega, Nat.zero_le _,
        by show (UInt64.ofNat data.length).toNat + _ < _; omega⟩
    -- the first calls leave a reader within the buffer, and the other calls go on from there
    obtain ⟨r, hpre, hadvances, hwithin⟩ := runCalls_spec hbuffer fun call hcall =>
      hcount call (List.mem_append_left post hcall)
    obtain ⟨r', hpost, hadvances', hwithin'⟩ := runCalls_spec hwithin fun call hcall =>
      hcount call (List.mem_append_right pre hcall)
    have hle : r'.pos.toNat ≤ data.length := by
      have h := hwithin'.pos_le
      rw [hadvances'.n_eq, hadvances.n_eq] at h
      exact h.trans_eq hn
    refine ⟨r, r', hpre, ?_, hadvances'.pos_le, hle, fun hok => ?_⟩
    · rw [runCalls_append, hpre]
      exact hpost
    · by_contra hne
      have h := hadvances'.ok_of_ok (by simpa using hne)
      rw [hok] at h
      cases h
  loop st rounds hrounds := by
    have hstart : (0 : UInt64).toNat = 0 := rfl
    have hends : ∃ m, frameLoop data rounds 0 0 st =
        some (0 + m, loadLoop data data.length (0 : UInt64).toNat st) ∧
        (0 : UInt64).toNat + 19 * m ≤ data.length :=
      frameLoop_eq hsize rounds (by omega) (by omega) (by omega)
    obtain ⟨m, hloop, hm⟩ := hends
    exact ⟨m, by omega, by rw [hloop, Nat.zero_add, hstart]⟩

/-- On the file of a store that holds nothing. -/
theorem parsesWithin_empty : ParsesWithin (encodeFrame 0 (encodeHeader 0 0 0)) :=
  parsesWithin (by rw [length_encodeFrame]; decide)

end Sized

end FailureFabric
