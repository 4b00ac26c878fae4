import Mathlib.Data.Int.Basic
import Mathlib.Data.List.Induction
import Mathlib.Tactic.Ring

/-!
# Big-endian words

A word of `width` bytes, most significant byte first, written and read as base-256 digits. The
arithmetic applies to every natural number: writing keeps its residue modulo the word's range, so
a value in range is read back as itself. A signed word is the residue of its value, read back as
the balanced residue.
-/

namespace Kobako.Bytes

/-- The low `width` bytes of `value`, most significant first. -/
def toBe : Nat → Nat → List UInt8
  | 0, _ => []
  | width + 1, value => toBe width (value / 256) ++ [UInt8.ofNat value]

/-- The number a byte list spells, most significant first. -/
def ofBe (bytes : List UInt8) : Nat :=
  bytes.foldl (fun value byte => value * 256 + byte.toNat) 0

@[simp] theorem length_toBe (width value : Nat) : (toBe width value).length = width := by
  induction width generalizing value with
  | zero => rfl
  | succ width ih => simp [toBe, ih]

@[simp] theorem ofBe_nil : ofBe [] = 0 := rfl

theorem ofBe_concat (bytes : List UInt8) (byte : UInt8) :
    ofBe (bytes ++ [byte]) = ofBe bytes * 256 + byte.toNat := by
  simp [ofBe, List.foldl_append]

/-- Reading a written word gives its value modulo the range of the width. -/
theorem ofBe_toBe_mod (width value : Nat) : ofBe (toBe width value) = value % 256 ^ width := by
  induction width generalizing value with
  | zero => simp [toBe, Nat.mod_one]
  | succ width ih =>
    have low : (UInt8.ofNat value).toNat = value % 256 := UInt8.toNat_ofNat'
    have split : 256 ^ (width + 1) = 256 * 256 ^ width := by ring
    rw [toBe, ofBe_concat, ih, low, split, Nat.mod_mul]
    ring

/-- A word in range is read back as itself. -/
theorem ofBe_toBe (width value : Nat) (inRange : value < 256 ^ width) :
    ofBe (toBe width value) = value := by
  rw [ofBe_toBe_mod, Nat.mod_eq_of_lt inRange]

/-- A byte list spells a number its length can hold. -/
theorem ofBe_lt (bytes : List UInt8) : ofBe bytes < 256 ^ bytes.length := by
  induction bytes using List.reverseRecOn with
  | nil => exact Nat.one_pos
  | append_singleton bytes byte ih =>
    have low : byte.toNat < 256 := byte.toNat_lt
    have split : 256 ^ (bytes.length + 1) = 256 ^ bytes.length * 256 := Nat.pow_succ ..
    rw [ofBe_concat, List.length_append, List.length_singleton, split]
    omega

/-- A byte list is the word its number is written as. -/
theorem toBe_ofBe (bytes : List UInt8) : toBe bytes.length (ofBe bytes) = bytes := by
  induction bytes using List.reverseRecOn with
  | nil => rfl
  | append_singleton bytes byte ih =>
    have low : byte.toNat < 256 := byte.toNat_lt
    have high : (ofBe bytes * 256 + byte.toNat) / 256 = ofBe bytes := by omega
    have last : UInt8.ofNat (ofBe bytes * 256 + byte.toNat) = byte := by
      apply UInt8.toNat_inj.mp
      rw [UInt8.toNat_ofNat']
      omega
    rw [List.length_append, List.length_singleton, toBe, ofBe_concat, high, last, ih]

/-- The low `width` bytes of `value`, least significant first. -/
def toLe (width value : Nat) : List UInt8 := (toBe width value).reverse

/-- The number a byte list spells, least significant first. -/
def ofLe (bytes : List UInt8) : Nat := ofBe bytes.reverse

@[simp] theorem length_toLe (width value : Nat) : (toLe width value).length = width := by
  rw [toLe, List.length_reverse, length_toBe]

/-- A word in range is read back as itself, least significant byte first. -/
theorem ofLe_toLe (width value : Nat) (inRange : value < 256 ^ width) :
    ofLe (toLe width value) = value := by
  rw [ofLe, toLe, List.reverse_reverse, ofBe_toBe width value inRange]

/-- The unsigned word holding a signed value in two's complement. -/
def ofSigned (width : Nat) (value : Int) : Nat := (value % (256 ^ width : Nat)).toNat

/-- The signed value an unsigned word holds in two's complement. -/
def toSigned (width word : Nat) : Int := (word : Int).bmod (256 ^ width)

theorem ofSigned_lt (width : Nat) (value : Int) : ofSigned width value < 256 ^ width := by
  have positive : (0 : Int) < (256 ^ width : Nat) := by exact_mod_cast Nat.pow_pos (by decide)
  have below := Int.emod_lt_of_pos value positive
  have above := Int.emod_nonneg value positive.ne'
  rw [ofSigned]
  omega

/-- A signed word in the balanced range is read back as itself. -/
theorem toSigned_ofSigned (width : Nat) (value : Int)
    (above : -((256 ^ width : Nat) : Int) ≤ 2 * value)
    (below : 2 * value < (256 ^ width : Nat)) :
    toSigned width (ofSigned width value) = value := by
  have positive : (0 : Int) < (256 ^ width : Nat) := by exact_mod_cast Nat.pow_pos (by decide)
  have residue : ((ofSigned width value : Nat) : Int) = value % (256 ^ width : Nat) := by
    rw [ofSigned, Int.toNat_of_nonneg (Int.emod_nonneg value positive.ne')]
  rw [toSigned, residue, Int.emod_bmod]
  apply Int.bmod_eq_of_le <;> omega

end Kobako.Bytes
