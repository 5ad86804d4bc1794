import FailureFabric.Canonical
import FailureFabric.Library.Checksum

namespace FailureFabric

open Library

/-!
# One corrupted byte

A saved file in which one byte is different is never accepted, as long as the byte is not in the
length field of a frame.

* `fnv1a64_set_ne` — a step of FNV-1a is injective in the running hash and in the byte;
* `encodeFrame_set` — so two frames of one length do not differ in a single byte;
* `decodeFrame_set` — the damaged frame is not decoded;
* `corrupted_byte_rejected` — and the frame loop reaches it, whatever stands before.
-/

/-! ### The checksum -/

/-- The factor of FNV-1a has an inverse modulo `2 ^ 64`. -/
theorem fnv_factor_injective : Function.Injective (fun h : UInt64 => h * 1099511628211) := by
  have hinverse : (1099511628211 : UInt64) * 0xce965057aff6957b = 1 := by decide
  intro h h' heq
  calc h = h * (1099511628211 * 0xce965057aff6957b) := by rw [hinverse, UInt64.mul_one]
    _ = h * 1099511628211 * 0xce965057aff6957b := by rw [UInt64.mul_assoc]
    _ = h' * 1099511628211 * 0xce965057aff6957b := congrArg (· * 0xce965057aff6957b) heq
    _ = h' * (1099511628211 * 0xce965057aff6957b) := by rw [UInt64.mul_assoc]
    _ = h' := by rw [hinverse, UInt64.mul_one]

/-- One changed byte changes the checksum, however long the data is. -/
theorem fnv1a64_set_ne {data : List UInt8} {i : Nat} {b : UInt8} (hi : i < data.length)
    (hne : b ≠ data[i]) : fnv1a64 (data.set i b) ≠ fnv1a64 data := by
  refine foldl_set_ne (fun b h h' heq => ?_) (fun h b b' heq => ?_) hi hne _
  · exact (UInt64.xor_left_inj _).mp (fnv_factor_injective heq)
  · exact UInt8.toUInt64_inj.mp ((UInt64.xor_right_inj _).mp (fnv_factor_injective heq))

/-! ### A damaged frame -/

theorem BinaryWriter.u32_injective {v v' : UInt32} (h : u32 v = u32 v') : v = v' := by
  have hnat := congrArg getBe h
  rw [u32, u32, getBe_putBe_of_lt v.toNat_lt, getBe_putBe_of_lt v'.toNat_lt] at hnat
  exact UInt32.toNat_inj.mp hnat

theorem BinaryWriter.u64_injective {v v' : UInt64} (h : u64 v = u64 v') : v = v' := by
  have hnat := congrArg getBe h
  rw [u64, u64, getBe_putBe_of_lt v.toNat_lt, getBe_putBe_of_lt v'.toNat_lt] at hnat
  exact UInt64.toNat_inj.mp hnat

/-- The length field stands at the bytes seven to ten of a frame. -/
theorem frameBody_lengthField (kind : UInt8) (payload t : List UInt8) :
    ((frameBody kind payload ++ t).drop 7).take 4 =
      BinaryWriter.u32 (UInt32.ofNat payload.length) := by
  have hhead : frameBody kind payload ++ t =
      (BinaryWriter.u32 kFFMagic ++ BinaryWriter.u16 kFFVersion ++ BinaryWriter.u8 kind) ++
        (BinaryWriter.u32 (UInt32.ofNat payload.length) ++ (payload ++ t)) := by
    simp only [frameBody, List.append_assoc]
  rw [hhead, List.drop_left' (by simp), List.take_left' (by simp)]

/-- **Distance lemma.** When one byte is set in a frame and the result is a frame, the byte was
    there before. -/
theorem encodeFrame_set {kind kind' : UInt8} {payload payload' : List UInt8} {i : Nat} {b : UInt8}
    (hi : i < (encodeFrame kind payload).length)
    (h : (encodeFrame kind payload).set i b = encodeFrame kind' payload') :
    b = (encodeFrame kind payload)[i] := by
  have hlen : (frameBody kind payload).length = (frameBody kind' payload').length := by
    have hframe := congrArg List.length h
    rw [List.length_set, length_encodeFrame, length_encodeFrame] at hframe
    rw [length_frameBody, length_frameBody]
    omega
  unfold encodeFrame at h
  by_cases hbody : i < (frameBody kind payload).length
  · -- a changed body has another checksum
    rw [List.set_append_left _ _ hbody] at h
    obtain ⟨hset, hck⟩ := List.append_inj h (by rw [List.length_set, hlen])
    have hfnv := BinaryWriter.u64_injective hck
    rw [← hset] at hfnv
    by_contra hne
    refine fnv1a64_set_ne hbody (fun heq => hne ?_) hfnv.symm
    rw [heq]
    exact (List.getElem_append_left hbody).symm
  · -- the body is the same, so the checksum is
    rw [List.set_append_right _ _ (Nat.le_of_not_lt hbody)] at h
    obtain ⟨hsame, hset⟩ := List.append_inj h hlen
    rw [← hsame] at hset
    have hbyte := List.getElem_of_eq hset.symm (i := i - (frameBody kind payload).length)
      (by rw [BinaryWriter.length_u64]; rw [length_encodeFrame] at hi; rw [length_frameBody]; omega)
    rw [List.getElem_set_self] at hbyte
    rw [← hbyte]
    exact (List.getElem_append_right (Nat.le_of_not_lt hbody)).symm

/-- A range is not changed by a change outside of it. -/
private theorem take_drop_set (l : List UInt8) (b : UInt8) {i n k : Nat} (h : i < n ∨ n + k ≤ i) :
    ((l.set i b).drop n).take k = (l.drop n).take k := by
  rcases h with hbefore | hbehind
  · rw [List.drop_set_of_lt hbefore]
  · rw [List.drop_set, if_neg (by omega), List.take_set_of_le (by omega)]

/-- **Damaged frame.** A frame in which one byte outside of the length field is different is not
    decoded, wherever it stands. -/
theorem decodeFrame_set {kind : UInt8} {payload : List UInt8} (hlen : payload.length + 11 < 2 ^ 32)
    {i : Nat} (hi : i < (encodeFrame kind payload).length) (hfield : ¬ (7 ≤ i ∧ i < 11))
    {b : UInt8} (hne : b ≠ (encodeFrame kind payload)[i]) (pre post : List UInt8) :
    decodeFrame (pre ++ ((encodeFrame kind payload).set i b ++ post)) pre.length = none := by
  cases hdec : decodeFrame (pre ++ ((encodeFrame kind payload).set i b ++ post)) pre.length with
  | none => rfl
  | some p =>
    exfalso
    obtain ⟨h, next⟩ := p
    obtain ⟨hbytes, hlt, -, -⟩ := decodeFrame_bytes hdec
    rw [List.drop_left] at hbytes
    -- the length field is not damaged
    have hsame : (((encodeFrame kind payload).set i b ++ post).drop 7).take 4 =
        BinaryWriter.u32 (UInt32.ofNat payload.length) := by
      rw [← List.set_append_left _ _ hi, take_drop_set _ _ (by omega), encodeFrame,
        List.append_assoc, frameBody_lengthField]
    rw [hbytes, frameBody_lengthField] at hsame
    have hpayload : h.payload.length = payload.length := by
      have hnat := congrArg UInt32.toNat (BinaryWriter.u32_injective hsame)
      rwa [UInt32.toNat_ofNat_of_lt' (by rw [UInt32.size]; omega),
        UInt32.toNat_ofNat_of_lt' (by rw [UInt32.size]; omega)] at hnat
    have hcanonical := decodeFrame_canonical hdec (by omega)
    rw [List.drop_left] at hcanonical
    have hlength : ((encodeFrame kind payload).set i b).length =
        (encodeFrame h.kind h.payload).length := by
      rw [List.length_set, length_encodeFrame, length_encodeFrame, hpayload]
    exact hne (encodeFrame_set hi (List.append_inj hcanonical hlength).1)

/-! ### A damaged file -/

/-- The bytes of a list of frames, each given by its kind and its payload. -/
def fileOf (fs : List (UInt8 × List UInt8)) : List UInt8 :=
  fs.flatMap (fun f => encodeFrame f.1 f.2)

/-- The frames that `save` writes. -/
def FailureStore.frames (s : FailureStore) (o : s.Orders) : List (UInt8 × List UInt8) :=
  (0, encodeHeader s.failures.size s.ops.ops.size s.idem.entries.size) ::
    (s.entries o).map (fun e => (e.kind, e.payload))

/-- The saved file is these frames, one after the other. -/
theorem FailureStore.save_eq_fileOf (s : FailureStore) (o : s.Orders) :
    s.save o = fileOf (s.frames o) := by
  rw [save_eq_snapshot, length_failuresOf_entries, length_operationsOf_entries,
    length_identsOf_entries, snapshot, fileOf, frames, List.flatMap_cons, List.flatMap_map]
  rfl

/-- The position is in the length field of a frame. -/
def InLengthField (fs : List (UInt8 × List UInt8)) (i : Nat) : Prop :=
  ∃ pre f post, fs = pre ++ f :: post ∧ (fileOf pre).length + 7 ≤ i ∧ i < (fileOf pre).length + 11

/-- Every position of a file is in one of its frames. -/
theorem exists_frame_at (fs : List (UInt8 × List UInt8)) {i : Nat} (hi : i < (fileOf fs).length) :
    ∃ pre f post j, fs = pre ++ f :: post ∧ i = (fileOf pre).length + j ∧
      j < (encodeFrame f.1 f.2).length := by
  induction fs generalizing i with
  | nil => exact absurd hi (Nat.not_lt_zero i)
  | cons f fs ih =>
    rcases Nat.lt_or_ge i (encodeFrame f.1 f.2).length with hhere | hlater
    · exact ⟨[], f, fs, i, rfl, (Nat.zero_add i).symm, hhere⟩
    · rw [fileOf, List.flatMap_cons, List.length_append] at hi
      obtain ⟨pre, f', post, j, rfl, hij, hj⟩ := ih (i := i - (encodeFrame f.1 f.2).length)
        (by rw [fileOf]; omega)
      refine ⟨f :: pre, f', post, j, rfl, ?_, hj⟩
      rw [fileOf, List.flatMap_cons, List.length_append]
      rw [fileOf] at hij
      omega

/-- Frames that cover the data go past those that were written. -/
theorem Frames.reaches {fs : List (UInt8 × List UInt8)}
    (hfits : ∀ f ∈ fs, f.2.length + 11 < 2 ^ 32) (pre : List UInt8) {rest : List UInt8}
    (hrest : rest ≠ []) {hs : List FrameHeader}
    (h : Frames (pre ++ (fileOf fs ++ rest)) pre.length hs (pre ++ (fileOf fs ++ rest)).length) :
    ∃ p, decodeFrame (pre ++ (fileOf fs ++ rest)) (pre ++ fileOf fs).length = some p := by
  induction fs generalizing pre hs with
  | nil =>
    have hpos := List.length_pos_iff.mpr hrest
    generalize hend : (pre ++ (fileOf [] ++ rest)).length = off' at h
    cases h with
    | nil =>
      rw [List.length_append, List.length_append] at hend
      omega
    | cons hdec _ => exact ⟨_, by rw [fileOf, List.flatMap_nil, List.append_nil]; exact hdec⟩
  | cons f fs ih =>
    have hdata : pre ++ (fileOf (f :: fs) ++ rest) =
        (pre ++ encodeFrame f.1 f.2) ++ (fileOf fs ++ rest) := by
      rw [fileOf, List.flatMap_cons, List.append_assoc, List.append_assoc]
      rfl
    have hwritten : pre ++ fileOf (f :: fs) = (pre ++ encodeFrame f.1 f.2) ++ fileOf fs := by
      rw [fileOf, List.flatMap_cons, List.append_assoc]
      rfl
    rw [hdata] at h ⊢
    rw [hwritten]
    have hfirst := decodeFrame_encodeFrame f.1 (hfits f List.mem_cons_self) pre (fileOf fs ++ rest)
    generalize hend : (pre ++ encodeFrame f.1 f.2 ++ (fileOf fs ++ rest)).length = off' at h
    cases h with
    | nil =>
      rw [List.length_append, List.length_append, length_encodeFrame] at hend
      omega
    | cons hdec hrest' =>
      rw [hfirst] at hdec
      obtain ⟨-, rfl⟩ := Prod.mk.inj (Option.some.inj hdec)
      rw [← List.length_append] at hrest'
      subst hend
      exact ih (fun f' hf' => hfits f' (List.mem_cons_of_mem f hf')) _ hrest'

/-- **Corruption.** Whatever the store holds and whatever order `save` takes: when one byte of the
    file is changed, outside of the length fields, every store refuses the file. -/
theorem corrupted_byte_rejected (s : FailureStore) (o : s.Orders)
    (hfits : ∀ f ∈ s.frames o, f.2.length < 2 ^ 32 - 11) (i : Nat) (hi : i < (s.save o).length)
    (hfield : ¬ InLengthField (s.frames o) i) (b : UInt8) (hne : b ≠ (s.save o)[i])
    (s₀ : FailureStore) : (s₀.load (some ((s.save o).set i b))).2 = false := by
  have hsave := s.save_eq_fileOf o
  have hi' : i < (fileOf (s.frames o)).length := by rwa [← hsave]
  have hne' : b ≠ (fileOf (s.frames o))[i] := fun heq => hne (heq.trans (by congr 1; rw [hsave]))
  rw [hsave]
  generalize s.frames o = fs at *
  obtain ⟨pre, f, post, j, rfl, rfl, hj⟩ := exists_frame_at fs hi'
  have hfile : fileOf (pre ++ f :: post) = fileOf pre ++ (encodeFrame f.1 f.2 ++ fileOf post) := by
    simp [fileOf]
  have hset : (fileOf (pre ++ f :: post)).set ((fileOf pre).length + j) b =
      fileOf pre ++ ((encodeFrame f.1 f.2).set j b ++ fileOf post) := by
    rw [hfile, List.set_append_right _ _ (Nat.le_add_right _ _), Nat.add_sub_cancel_left,
      List.set_append_left _ _ hj]
  have hdamaged : decodeFrame (fileOf pre ++ ((encodeFrame f.1 f.2).set j b ++ fileOf post))
      (fileOf pre).length = none := by
    have hlen := hfits f (by simp)
    refine decodeFrame_set (by omega) hj (fun hj' => hfield ?_) (fun heq => hne' ?_) _ _
    · exact ⟨pre, f, post, rfl, by omega, by omega⟩
    · rw [heq, List.getElem_of_eq hfile, List.getElem_append_right (Nat.le_add_right _ _)]
      simp only [Nat.add_sub_cancel_left]
      exact (List.getElem_append_left hj).symm
  rw [hset, ← Bool.not_eq_true, load_true_iff]
  rintro ⟨nfail, nop, nid, es, ⟨h, hs, hframes, -⟩, -⟩
  have hrest : (encodeFrame f.1 f.2).set j b ++ fileOf post ≠ [] := by
    intro hnil
    have hlen := congrArg List.length hnil
    rw [List.length_append, List.length_set, length_encodeFrame, List.length_nil] at hlen
    omega
  obtain ⟨p, hp⟩ := Frames.reaches
    (fun f' hf' => by have := hfits f' (List.mem_append_left _ hf'); omega) [] hrest hframes
  rw [List.nil_append, List.nil_append, hdamaged] at hp
  exact absurd hp (by simp)

/-- The kind of the header frame of the sample store is changed. -/
theorem corrupted_byte_rejected_sample :
    (({} : FailureStore).load (some ((sampleStore.save sampleOrders).set 6 9))).2 = false := by
  refine corrupted_byte_rejected sampleStore sampleOrders (by decide +kernel) 6
    (by decide +kernel) ?_ 9 (by decide +kernel) {}
  rintro ⟨pre, f, post, -, hlow, -⟩
  omega

end FailureFabric
