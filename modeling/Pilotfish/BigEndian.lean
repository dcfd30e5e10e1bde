import Mathlib.Data.Nat.Log
import Mathlib.Tactic.Ring

/-!
# Big-endian bytes

Results:
1. `value_bytes`, `value_minimal`: reading a number back.
-/

namespace BigEndian

/-- The last `count` bytes of a number, most significant first. -/
def bytes : (count n : Nat) → List UInt8
  | 0, _ => []
  | count + 1, n => .ofNat (n / 256 ^ count) :: bytes count n

/-- The number that bytes stand for. -/
def value (bs : List UInt8) : Nat := bs.foldl (fun acc c => 256 * acc + c.toNat) 0

/-- The fewest bytes that hold a number, at least one. -/
def minimal (n : Nat) : List UInt8 := bytes (Nat.log 256 n + 1) n

@[simp] theorem length_bytes (count n : Nat) : (bytes count n).length = count := by
  induction count with
  | zero => rfl
  | succ count ih => rw [bytes, List.length_cons, ih]

theorem foldl_bytes (count n acc : Nat) :
    (bytes count n).foldl (fun acc c => 256 * acc + c.toNat) acc =
      acc * 256 ^ count + n % 256 ^ count := by
  induction count generalizing acc with
  | zero => simp [bytes, Nat.mod_one]
  | succ count ih =>
    have hbyte : (UInt8.ofNat (n / 256 ^ count)).toNat = n / 256 ^ count % 256 := UInt8.toNat_ofNat'
    have hsplit : n % 256 ^ (count + 1) =
        256 ^ count * (n / 256 ^ count % 256) + n % 256 ^ count := by
      rw [pow_succ, Nat.mod_mul, Nat.add_comm]
    rw [bytes, List.foldl_cons, ih, hbyte, hsplit, pow_succ]
    ring

theorem value_bytes {count n : Nat} (h : n < 256 ^ count) : value (bytes count n) = n := by
  rw [value, foldl_bytes, Nat.zero_mul, Nat.zero_add, Nat.mod_eq_of_lt h]

theorem bytes_injective {count m n : Nat} (hm : m < 256 ^ count) (hn : n < 256 ^ count)
    (h : bytes count m = bytes count n) : m = n := by
  rw [← value_bytes hm, ← value_bytes hn, h]

theorem value_minimal (n : Nat) : value (minimal n) = n :=
  value_bytes (Nat.lt_pow_succ_log_self (by decide) n)

end BigEndian
