import Mathlib.Data.List.Basic

namespace FailureFabric

/-!
# Identities and generations

The 128-bit identities of the runtime, typed by a phantom tag, and the monotonic generations.

* `Uuid128` — sixteen bytes, the length carried by the value;
* `Id` — an identity of a given kind; kinds are not interchangeable;
* `Generation` — a 64-bit counter whose value `0` means "unset" and whose `next` wraps.

A generator is not modelled: `Uuid128.generate` is the function of the sixteen drawn bytes, so a
step that draws an identity takes the draw as an argument.
-/

/-- A text of the runtime (`std::string`): any bytes, not only valid UTF-8. -/
abbrev Text := List UInt8

/-- The bytes of a string literal of the source. -/
def Text.ofLiteral (s : String) : Text := s.toUTF8.data.toList

/-- `uuid128`: sixteen bytes. -/
structure Uuid128 where
  /-- The bytes, in the order in which they are serialized. -/
  bytes : List UInt8
  /-- There are sixteen of them. -/
  length_eq : bytes.length = 16
deriving DecidableEq

namespace Uuid128

/-- The default value: sixteen zero bytes. -/
def zero : Uuid128 := ⟨List.replicate 16 0, rfl⟩

instance : Inhabited Uuid128 := ⟨zero⟩

/-- `is_zero`: no byte differs from zero. -/
def isZero (u : Uuid128) : Bool := u.bytes.all (· == 0)

/-- The identity whose sixteen bytes are all `b`. -/
def ofByte (b : UInt8) : Uuid128 := ⟨List.replicate 16 b, by simp⟩

/-- `uuid128_generate`: sixteen drawn bytes with the version and variant bits set. -/
def generate (drawn : Uuid128) : Uuid128 where
  bytes := (drawn.bytes.modify 6 (fun b => (b &&& 0x0F) ||| 0x40)).modify 8
    (fun b => (b &&& 0x3F) ||| 0x80)
  length_eq := by simp [drawn.length_eq]

/-- The version bits make the byte that carries them different from zero. -/
private theorem version_byte_ne_zero (b : UInt8) : (b &&& 0x0F) ||| 0x40 ≠ 0 := by
  intro h
  have hbit : ((b &&& 0x0F) ||| 0x40).toNat.testBit 6 = true := by
    rw [UInt8.toNat_or, Nat.testBit_or]
    simp [Nat.testBit]
  rw [h] at hbit
  exact absurd hbit (by decide)

/-- A generated identity is never the null one: the version bits are set. -/
theorem generate_isZero (drawn : Uuid128) : (generate drawn).isZero = false := by
  have h6 : 6 < drawn.bytes.length := by rw [drawn.length_eq]; omega
  have hmem : ((drawn.bytes[6] &&& 0x0F) ||| 0x40) ∈ (generate drawn).bytes := by
    rw [List.mem_iff_getElem]
    exact ⟨6, by simp [generate, h6], by simp [generate]⟩
  rw [isZero, Bool.eq_false_iff]
  intro hall
  have h0 := List.all_eq_true.mp hall _ hmem
  exact version_byte_ne_zero _ (beq_iff_eq.mp h0)

end Uuid128

/-- The kinds of identities the modelled functions use. -/
inductive IdTag
  | FailureId | RequestId | WorkloadId | AttemptId | DispatchId | WorkerId | WorkerBootId
  | NodeId | DeviceId | OperationId
deriving DecidableEq

/-- `Id<Tag>`: an identity of kind `tag`. -/
structure Id (tag : IdTag) where
  /-- The untyped identity. -/
  raw : Uuid128 := Uuid128.zero
deriving DecidableEq, Inhabited

namespace Id

variable {tag : IdTag}

/-- `is_null`. -/
def isNull (i : Id tag) : Bool := i.raw.isZero

/-- `Id::generate`, as a function of the drawn bytes. -/
def generate (drawn : Uuid128) : Id tag := ⟨Uuid128.generate drawn⟩

/-- A generated identity of any kind is not the null one. -/
@[simp] theorem generate_isNull (drawn : Uuid128) : (generate drawn : Id tag).isNull = false :=
  Uuid128.generate_isZero drawn

end Id

/-- A failure record. -/
abbrev FailureId := Id .FailureId
/-- The request that an operation serves. -/
abbrev RequestId := Id .RequestId
/-- The workload that the request belongs to. -/
abbrev WorkloadId := Id .WorkloadId
/-- One attempt at an operation. -/
abbrev AttemptId := Id .AttemptId
/-- One dispatch of an attempt to a worker. -/
abbrev DispatchId := Id .DispatchId
/-- A worker, whatever process runs it. -/
abbrev WorkerId := Id .WorkerId
/-- One incarnation of a worker: a new one at every boot. -/
abbrev WorkerBootId := Id .WorkerBootId
/-- The node the worker runs on. -/
abbrev NodeId := Id .NodeId
/-- The device it uses. -/
abbrev DeviceId := Id .DeviceId
/-- A unit of work, the same through all its attempts. -/
abbrev OperationId := Id .OperationId

/-- `Generation`: a 64-bit counter. -/
structure Generation where
  /-- The counter; `0` is "unset". -/
  value : UInt64 := 0
deriving DecidableEq, Inhabited

namespace Generation

instance : LT Generation := ⟨fun a b => a.value < b.value⟩
instance : LE Generation := ⟨fun a b => a.value ≤ b.value⟩
instance (a b : Generation) : Decidable (a < b) := inferInstanceAs (Decidable (a.value < b.value))
instance (a b : Generation) : Decidable (a ≤ b) := inferInstanceAs (Decidable (a.value ≤ b.value))

/-- `is_unset`. -/
def isUnset (g : Generation) : Bool := g.value == 0

/-- `next`: the successor, modulo `2^64`. -/
def next (g : Generation) : Generation := ⟨g.value + 1⟩

/-- Generations are compared as numbers. -/
theorem lt_iff (a b : Generation) : a < b ↔ a.value.toNat < b.value.toNat :=
  UInt64.lt_iff_toNat_lt

/-- So is the weak order. -/
theorem le_iff (a b : Generation) : a ≤ b ↔ a.value.toNat ≤ b.value.toNat :=
  UInt64.le_iff_toNat_le

/-- Zero is the unset generation. -/
theorem isUnset_iff (g : Generation) : g.isUnset = true ↔ g.value.toNat = 0 := by
  rw [isUnset, beq_iff_eq, ← UInt64.toNat_inj]
  rfl

/-- A set generation is positive. -/
theorem isUnset_eq_false_iff (g : Generation) : g.isUnset = false ↔ 0 < g.value.toNat := by
  rw [← Bool.not_eq_true, isUnset_iff]
  omega

/-- Nothing is below an unset generation, so a stale generation is always compared with a set
    one. -/
theorem isUnset_eq_false_of_lt {a b : Generation} (h : a < b) : b.isUnset = false := by
  rw [lt_iff] at h
  rw [isUnset_eq_false_iff]
  omega

end Generation

end FailureFabric
