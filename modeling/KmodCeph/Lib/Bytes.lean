import Mathlib.Tactic

namespace KmodCeph.Lib

def leBytes : Nat → Nat → List UInt8
  | 0, _ => []
  | count + 1, value => UInt8.ofNat value :: leBytes count (value / 256)

def leValue : List UInt8 → Nat
  | [] => 0
  | byte :: rest => byte.toNat + 256 * leValue rest

@[simp] theorem length_leBytes (count value : Nat) : (leBytes count value).length = count := by
  induction count generalizing value with
  | zero => rfl
  | succ count ih => simp [leBytes, ih]

theorem leValue_leBytes (count value : Nat) : leValue (leBytes count value) = value % 256 ^ count := by
  induction count generalizing value with
  | zero => simp [leBytes, leValue, Nat.mod_one]
  | succ count ih =>
    have split : value % 256 ^ (count + 1) = value % 256 + 256 * (value / 256 % 256 ^ count) := by
      rw [pow_succ', Nat.mod_mul]
    simp only [leBytes, leValue, ih, split, UInt8.toNat_ofNat']

theorem leValue_lt (bytes : List UInt8) : leValue bytes < 256 ^ bytes.length := by
  induction bytes with
  | nil => simp [leValue]
  | cons byte rest ih =>
    have small := byte.toNat_lt
    simp only [leValue, List.length_cons, pow_succ']
    omega

end KmodCeph.Lib
