import Mathlib.Algebra.Order.Ring.Nat
import Mathlib.Tactic.Ring

namespace FailureFabric.Library

/-!
# Big-endian numbers

A number written on a fixed count of bytes, most significant first, and read back.

* `putBe`, `getBe` — the writer and the reader;
* `getBe_putBe` — reading what was written gives the number modulo `256 ^ k`;
* `putBe_getBe` — writing what was read gives the bytes.
-/

/-- The low `k` bytes of `x`, most significant first. -/
def putBe : Nat → Nat → List UInt8
  | 0, _ => []
  | k + 1, x => UInt8.ofNat (x / 256 ^ k) :: putBe k x

/-- The number with the given bytes, most significant first. -/
def getBe (bs : List UInt8) : Nat := bs.foldl (fun acc b => acc * 256 + b.toNat) 0

/-- The width is the one that is asked for. -/
@[simp] theorem length_putBe (k x : Nat) : (putBe k x).length = k := by
  induction k with
  | zero => rfl
  | succ k ih => simp [putBe, ih]

/-- The fold from any accumulator. -/
private theorem foldl_getBe (bs : List UInt8) (acc : Nat) :
    bs.foldl (fun acc b => acc * 256 + b.toNat) acc = acc * 256 ^ bs.length + getBe bs := by
  induction bs generalizing acc with
  | nil => simp [getBe]
  | cons b bs ih =>
    rw [getBe, List.foldl_cons, List.foldl_cons, ih, ih (0 * 256 + b.toNat), List.length_cons,
      pow_succ]
    ring

/-- The first byte is the most significant one. -/
theorem getBe_cons (b : UInt8) (bs : List UInt8) :
    getBe (b :: bs) = b.toNat * 256 ^ bs.length + getBe bs := by
  have h := foldl_getBe bs (0 * 256 + b.toNat)
  rw [getBe, List.foldl_cons, h]
  ring

/-- Reading what was written gives the number modulo `256 ^ k`: the high bytes are cut. -/
theorem getBe_putBe (k x : Nat) : getBe (putBe k x) = x % 256 ^ k := by
  induction k with
  | zero => simp [putBe, getBe, Nat.mod_one]
  | succ k ih =>
    have hbyte : (UInt8.ofNat (x / 256 ^ k)).toNat = x / 256 ^ k % 256 := UInt8.toNat_ofNat'
    calc getBe (putBe (k + 1) x) = x / 256 ^ k % 256 * 256 ^ k + x % 256 ^ k := by
          rw [putBe, getBe_cons, ih, length_putBe, hbyte]
      _ = x % (256 ^ k * 256) := by rw [Nat.mod_mul]; ring
      _ = x % 256 ^ (k + 1) := by rw [pow_succ]

/-- A number that fits the width is read back. -/
theorem getBe_putBe_of_lt {k x : Nat} (h : x < 256 ^ k) : getBe (putBe k x) = x := by
  rw [getBe_putBe, Nat.mod_eq_of_lt h]

/-- `n` bytes stand for a number below `256 ^ n`. -/
theorem getBe_lt (bs : List UInt8) : getBe bs < 256 ^ bs.length := by
  induction bs with
  | nil => simp [getBe]
  | cons b bs ih =>
    have hb : b.toNat + 1 ≤ 256 := b.toNat_lt
    calc getBe (b :: bs) = b.toNat * 256 ^ bs.length + getBe bs := getBe_cons b bs
      _ < (b.toNat + 1) * 256 ^ bs.length := by rw [Nat.add_one_mul]; omega
      _ ≤ 256 * 256 ^ bs.length := Nat.mul_le_mul_right _ hb
      _ = 256 ^ (b :: bs).length := by rw [List.length_cons, pow_succ, Nat.mul_comm]

/-- The bytes above the `k` low ones do not matter. -/
theorem putBe_add_mul (k c x : Nat) : putBe k (c * 256 ^ k + x) = putBe k x := by
  induction k generalizing c with
  | zero => rfl
  | succ k ih =>
    have hpos : 0 < 256 ^ k := Nat.pow_pos (by decide)
    have hsplit : c * 256 ^ (k + 1) + x = c * 256 * 256 ^ k + x := by rw [pow_succ]; ring
    have hdiv : (c * 256 * 256 ^ k + x) / 256 ^ k = c * 256 + x / 256 ^ k := by
      rw [Nat.add_comm, Nat.add_mul_div_right _ _ hpos, Nat.add_comm]
    rw [hsplit, putBe, putBe, hdiv, ih (c * 256)]
    congr 1
    apply UInt8.toNat_inj.mp
    rw [UInt8.toNat_ofNat', UInt8.toNat_ofNat']
    omega

/-- Writing what was read gives the bytes. -/
theorem putBe_getBe (bs : List UInt8) : putBe bs.length (getBe bs) = bs := by
  induction bs with
  | nil => rfl
  | cons b bs ih =>
    have hdiv : (b.toNat * 256 ^ bs.length + getBe bs) / 256 ^ bs.length = b.toNat := by
      rw [Nat.add_comm, Nat.add_mul_div_right _ _ (Nat.pow_pos (by decide)),
        Nat.div_eq_of_lt (getBe_lt bs), Nat.zero_add]
    rw [getBe_cons, List.length_cons, putBe, hdiv, putBe_add_mul, ih, UInt8.ofNat_toNat]

/-- The other way round: the bytes are those of the number that they stand for. -/
theorem putBe_getBe_of_length {k : Nat} {bs : List UInt8} (h : bs.length = k) :
    putBe k (getBe bs) = bs := by
  rw [← h, putBe_getBe]

end FailureFabric.Library
