import KmodCeph.Basic

namespace KmodCeph.Armor

open List Nat

def newline : UInt8 := 10
def equals : UInt8 := 61

def pemKey : List UInt8 :=
  (range' 65 26 ++ range' 97 26 ++ range' 48 10 ++ [43, 47]).map UInt8.ofNat

def encodeBits (c : UInt8) : UInt8 := pemKey.getD c.toNat 0

def decodeBits (c : UInt8) : Option UInt8 :=
  if 65 ≤ c ∧ c ≤ 90 then some (c - 65)
  else if 97 ≤ c ∧ c ≤ 122 then some (c - 97 + 26)
  else if 48 ≤ c ∧ c ≤ 57 then some (c - 48 + 52)
  else if c = 43 then some 62
  else if c = 47 then some 63
  else if c = equals then some 0
  else none

/-- The end of a round of `ceph_armor` that wrote four characters, and what comes behind it. -/
def endGroup (chars : List UInt8) (olen : Int32) (line : Nat) (next : Int32 → Nat → List UInt8 × Int32) :
    List UInt8 × Int32 :=
  if line + 4 = 64 then
    let (rest, ret) := next (olen + 4 + 1) 0
    (chars ++ newline :: rest, ret)
  else
    let (rest, ret) := next (olen + 4) (line + 4)
    (chars ++ rest, ret)

def armorFrom : List UInt8 → Int32 → Nat → List UInt8 × Int32
  | [], olen, _ => ([], olen)
  | [a], olen, line =>
    endGroup [encodeBits (a >>> 2), encodeBits ((a &&& 3) <<< 4), equals, equals] olen line fun olen _ => ([], olen)
  | [a, b], olen, line =>
    endGroup [encodeBits (a >>> 2), encodeBits (((a &&& 3) <<< 4) ||| (b >>> 4)),
      encodeBits ((b &&& 15) <<< 2), equals] olen line fun olen _ => ([], olen)
  | a :: b :: c :: rest, olen, line =>
    endGroup [encodeBits (a >>> 2), encodeBits (((a &&& 3) <<< 4) ||| (b >>> 4)),
      encodeBits (((b &&& 15) <<< 2) ||| (c >>> 6)), encodeBits (c &&& 63)] olen line fun olen line =>
        armorFrom rest olen line

def cephArmor (src : List UInt8) : List UInt8 × Int32 := armorFrom src 0 0

/-- What is written by a round of `ceph_unarmor` with four characters, and what comes behind it. -/
def decodeGroup (w x y z : UInt8) (olen : Int32) (next : Int32 → List UInt8 × Int32) : List UInt8 × Int32 :=
  match decodeBits w, decodeBits x, decodeBits y, decodeBits z with
  | some a, some b, some c, some d =>
    if y = equals then ([(a <<< 2) ||| (b >>> 4)], olen + 1)
    else if z = equals then ([(a <<< 2) ||| (b >>> 4), ((b &&& 15) <<< 4) ||| (c >>> 2)], olen + 2)
    else
      let (rest, ret) := next (olen + 3)
      ([(a <<< 2) ||| (b >>> 4), ((b &&& 15) <<< 4) ||| (c >>> 2), ((c &&& 3) <<< 6) ||| d] ++ rest, ret)
  | _, _, _, _ => ([], -22)

def unarmorFrom : List UInt8 → Int32 → List UInt8 × Int32
  | [], olen => ([], olen)
  | w :: x :: y :: z :: rest, olen =>
    if w = newline then unarmorFrom (x :: y :: z :: rest) olen
    else decodeGroup w x y z olen fun olen => unarmorFrom rest olen
  | w :: rest, olen => if w = newline then unarmorFrom rest olen else ([], -22)

def cephUnarmor (src : List UInt8) : List UInt8 × Int32 := unarmorFrom src 0

def armoredLength (groups : Nat) : Nat := 4 * groups + groups / 16

section

variable {a b c : UInt8} {olen : Int32} {line : Nat}

theorem encodeBits_lt (small : c < 64) :
    decodeBits (encodeBits c) = some c ∧ encodeBits c ≠ newline ∧ encodeBits c ≠ equals := by
  have each : ∀ n < 64, decodeBits (encodeBits (UInt8.ofNat n)) = some (UInt8.ofNat n) ∧
      encodeBits (UInt8.ofNat n) ≠ newline ∧ encodeBits (UInt8.ofNat n) ≠ equals := by decide
  have result := each c.toNat (UInt8.lt_iff_toNat_lt.mp small)
  rwa [UInt8.ofNat_toNat] at result

theorem joined_first (a b : UInt8) : (a >>> 2) <<< 2 ||| (((a &&& 3) <<< 4) ||| (b >>> 4)) >>> 4 = a := by
  apply UInt8.toBitVec_inj.mp
  apply BitVec.eq_of_getLsbD_eq
  intro i inside
  interval_cases i <;> simp

theorem joined_second (a b c : UInt8) :
    (((((a &&& 3) <<< 4) ||| (b >>> 4)) &&& 15) <<< 4) ||| ((((b &&& 15) <<< 2) ||| (c >>> 6)) >>> 2) = b := by
  apply UInt8.toBitVec_inj.mp
  apply BitVec.eq_of_getLsbD_eq
  intro i inside
  interval_cases i <;> simp

theorem joined_third (b c : UInt8) : (((((b &&& 15) <<< 2) ||| (c >>> 6)) &&& 3) <<< 6) ||| (c &&& 63) = c := by
  apply UInt8.toBitVec_inj.mp
  apply BitVec.eq_of_getLsbD_eq
  intro i inside
  interval_cases i <;> simp

theorem masked_lt {a mask : UInt8} {bits : Nat} (value : mask.toNat = 2 ^ bits - 1) :
    (a &&& mask).toNat < 2 ^ bits := by
  rw [UInt8.toNat_and, value, and_two_pow_sub_one_eq_mod]
  exact mod_lt _ (Nat.two_pow_pos _)

theorem shifted_lt {a : UInt8} : (a >>> 2).toNat < 64 ∧ (a >>> 4).toNat < 16 ∧ (a >>> 6).toNat < 4 := by
  have bound := a.toNat_lt
  simp only [UInt8.toNat_shiftRight, shiftRight_eq_div_pow]
  refine ⟨?_, ?_, ?_⟩
  · change a.toNat / 4 < 64
    omega
  · change a.toNat / 16 < 16
    omega
  · change a.toNat / 64 < 4
    omega

theorem sextets_lt (a b c : UInt8) :
    a >>> 2 < 64 ∧ ((a &&& 3) <<< 4) ||| (b >>> 4) < 64 ∧ ((b &&& 15) <<< 2) ||| (c >>> 6) < 64 ∧ c &&& 63 < 64 := by
  have high := @shifted_lt a
  have middle := @shifted_lt b
  have low := @shifted_lt c
  have two : (a &&& 3).toNat < 2 ^ 2 := masked_lt rfl
  have four : (b &&& 15).toNat < 2 ^ 4 := masked_lt rfl
  have six : (c &&& 63).toNat < 2 ^ 6 := masked_lt rfl
  have second : ((a &&& 3) <<< 4).toNat < 2 ^ 6 := by
    rw [UInt8.toNat_shiftLeft, shiftLeft_eq]
    exact (mod_le _ _).trans_lt (by change (a &&& 3).toNat * 16 < 64; omega)
  have third : ((b &&& 15) <<< 2).toNat < 2 ^ 6 := by
    rw [UInt8.toNat_shiftLeft, shiftLeft_eq]
    exact (mod_le _ _).trans_lt (by change (b &&& 15).toNat * 4 < 64; lia)
  refine ⟨UInt8.lt_iff_toNat_lt.mpr high.1, UInt8.lt_iff_toNat_lt.mpr ?_, UInt8.lt_iff_toNat_lt.mpr ?_,
    UInt8.lt_iff_toNat_lt.mpr six⟩
  · rw [UInt8.toNat_or]
    exact or_lt_two_pow second (by omega)
  · rw [UInt8.toNat_or]
    exact or_lt_two_pow third (by omega)

theorem unarmorFrom_group {w x y z : UInt8} {rest : List UInt8} (begins : w ≠ newline) :
    unarmorFrom (w :: x :: y :: z :: rest) olen = decodeGroup w x y z olen fun olen => unarmorFrom rest olen := by
  rw [unarmorFrom, if_neg begins]

theorem unarmorFrom_newline (rest : List UInt8) : unarmorFrom (newline :: rest) olen = unarmorFrom rest olen := by
  match rest with
  | [] => rfl
  | [_] => rfl
  | [_, _] => rfl
  | _ :: _ :: _ :: _ => rfl

theorem endGroup_fst (chars : List UInt8) (next : Int32 → Nat → List UInt8 × Int32) :
    ∃ tail, (endGroup chars olen line next).1 = chars ++ tail ∧ ∃ olen line,
      ∀ ret, unarmorFrom tail ret = unarmorFrom (next olen line).1 ret := by
  unfold endGroup
  split
  · exact ⟨newline :: (next (olen + 4 + 1) 0).1, rfl, olen + 4 + 1, 0, fun ret => unarmorFrom_newline _⟩
  · exact ⟨(next (olen + 4) (line + 4)).1, rfl, olen + 4, line + 4, fun ret => rfl⟩

theorem unarmorFrom_armorFrom : ∀ (s : List UInt8) (olen : Int32) (line : Nat) (ret : Int32),
    unarmorFrom (armorFrom s olen line).1 ret = (s, ret + Int32.ofNat s.length)
  | [], olen, line, ret => by
    exact Prod.ext rfl (Int32.add_zero ret).symm
  | [a], olen, line, ret => by
    obtain ⟨first, second, -, -⟩ := sextets_lt a 0 0
    obtain ⟨tail, written, -⟩ := @endGroup_fst olen line
      [encodeBits (a >>> 2), encodeBits ((a &&& 3) <<< 4), equals, equals] fun olen _ => ([], olen)
    have none : (0 : UInt8) >>> 4 = 0 := rfl
    rw [none, UInt8.or_zero] at second
    have whole := joined_first a 0
    rw [none, UInt8.or_zero] at whole
    rw [armorFrom, written]
    change unarmorFrom (_ :: _ :: _ :: _ :: tail) ret = _
    rw [unarmorFrom_group (encodeBits_lt first).2.1, decodeGroup, (encodeBits_lt first).1, (encodeBits_lt second).1]
    change ([_], ret + 1) = _
    rw [whole]
    rfl
  | [a, b], olen, line, ret => by
    obtain ⟨first, second, third, -⟩ := sextets_lt a b 0
    have none : (0 : UInt8) >>> 6 = 0 := rfl
    rw [none, UInt8.or_zero] at third
    obtain ⟨tail, written, -⟩ := @endGroup_fst olen line [encodeBits (a >>> 2),
      encodeBits (((a &&& 3) <<< 4) ||| (b >>> 4)), encodeBits ((b &&& 15) <<< 2), equals] fun olen _ => ([], olen)
    have whole := joined_second a b 0
    rw [none, UInt8.or_zero] at whole
    rw [armorFrom, written]
    change unarmorFrom (_ :: _ :: _ :: _ :: tail) ret = _
    rw [unarmorFrom_group (encodeBits_lt first).2.1, decodeGroup, (encodeBits_lt first).1, (encodeBits_lt second).1,
      (encodeBits_lt third).1]
    change (if encodeBits ((b &&& 15) <<< 2) = equals then _ else ([_, _], ret + 2)) = _
    rw [if_neg (encodeBits_lt third).2.2, joined_first, whole]
    rfl
  | a :: b :: c :: rest, olen, line, ret => by
    obtain ⟨first, second, third, fourth⟩ := sextets_lt a b c
    obtain ⟨tail, written, later, column, behind⟩ := @endGroup_fst olen line [encodeBits (a >>> 2),
      encodeBits (((a &&& 3) <<< 4) ||| (b >>> 4)), encodeBits (((b &&& 15) <<< 2) ||| (c >>> 6)),
      encodeBits (c &&& 63)]
      fun olen line => armorFrom rest olen line
    rw [armorFrom, written]
    change unarmorFrom (_ :: _ :: _ :: _ :: tail) ret = _
    rw [unarmorFrom_group (encodeBits_lt first).2.1, decodeGroup, (encodeBits_lt first).1, (encodeBits_lt second).1,
      (encodeBits_lt third).1, (encodeBits_lt fourth).1]
    dsimp only
    rw [if_neg (encodeBits_lt third).2.2, if_neg (encodeBits_lt fourth).2.2, behind,
      unarmorFrom_armorFrom rest later column, joined_first, joined_second, joined_third]
    refine Prod.ext rfl ?_
    change ret + 3 + Int32.ofNat rest.length = ret + Int32.ofNat (rest.length + 3)
    rw [Int32.ofNat_add, Int32.add_assoc, Int32.add_comm 3]
    rfl

theorem nothing_counts {column : Nat} (inside : column < 16) (olen : Int32) :
    (([], olen) : List UInt8 × Int32).1.length = 4 * 0 + (column + 0) / 16 ∧
      (([], olen) : List UInt8 × Int32).2 = olen + Int32.ofNat ([] : List UInt8).length := by
  refine ⟨?_, (Int32.add_zero olen).symm⟩
  change 0 = 4 * 0 + (column + 0) / 16
  lia

theorem endGroup_counts (groups : Nat) {chars : List UInt8} {column : Nat} {next : Int32 → Nat → List UInt8 × Int32}
    (four : chars.length = 4) (place : line = 4 * column) (inside : column < 16)
    (counts : ∀ olen line column, line = 4 * column → column < 16 →
      (next olen line).1.length = 4 * groups + (column + groups) / 16 ∧
        (next olen line).2 = olen + Int32.ofNat (next olen line).1.length) :
    (endGroup chars olen line next).1.length = 4 * (groups + 1) + (column + (groups + 1)) / 16 ∧
      (endGroup chars olen line next).2 = olen + Int32.ofNat (endGroup chars olen line next).1.length := by
  unfold endGroup
  split
  next full =>
    obtain ⟨length, ret⟩ := counts (olen + 4 + 1) 0 0 rfl (by decide)
    refine ⟨?_, ?_⟩
    · change (chars ++ newline :: (next (olen + 4 + 1) 0).1).length = _
      rw [length_append, length_cons, length, four]
      lia
    · change (next (olen + 4 + 1) 0).2 = olen + Int32.ofNat (chars ++ newline :: (next (olen + 4 + 1) 0).1).length
      rw [ret, length_append, length_cons, four, Nat.add_comm _ 1, ← Nat.add_assoc, Int32.ofNat_add,
        Int32.add_assoc olen 4 1, Int32.add_assoc]
      rfl
  next part =>
    obtain ⟨length, ret⟩ := counts (olen + 4) (line + 4) (column + 1) (by omega) (by lia)
    refine ⟨?_, ?_⟩
    · change (chars ++ (next (olen + 4) (line + 4)).1).length = _
      rw [length_append, length, four]
      lia
    · change (next (olen + 4) (line + 4)).2 = olen + Int32.ofNat (chars ++ (next (olen + 4) (line + 4)).1).length
      rw [ret, length_append, four, Int32.ofNat_add, Int32.add_assoc]
      rfl

theorem armorFrom_counts : ∀ (s : List UInt8) (olen : Int32) (line column : Nat), line = 4 * column → column < 16 →
    (armorFrom s olen line).1.length = 4 * ((s.length + 2) / 3) + (column + (s.length + 2) / 3) / 16 ∧
      (armorFrom s olen line).2 = olen + Int32.ofNat (armorFrom s olen line).1.length
  | [], olen, line, column, _, inside => nothing_counts inside olen
  | [a], olen, line, column, place, inside => by
    have one : ([a].length + 2) / 3 = 0 + 1 := by simp
    rw [armorFrom, one]
    exact endGroup_counts 0 (by rfl) place inside fun olen _ _ _ inside => nothing_counts inside olen
  | [a, b], olen, line, column, place, inside => by
    have one : ([a, b].length + 2) / 3 = 0 + 1 := by simp
    rw [armorFrom, one]
    exact endGroup_counts 0 (by rfl) place inside fun olen _ _ _ inside => nothing_counts inside olen
  | a :: b :: c :: rest, olen, line, column, place, inside => by
    have groups : ((a :: b :: c :: rest).length + 2) / 3 = (rest.length + 2) / 3 + 1 := by
      simp only [length_cons]
      lia
    rw [armorFrom, groups]
    exact endGroup_counts _ (by rfl) place inside fun olen line column => armorFrom_counts rest olen line column

end

/-- What `ceph_armor` writes is read back by `ceph_unarmor`; both return the lengths, as far as an `int` holds them. -/
theorem armor_roundtrip (s : List UInt8) :
    cephUnarmor (cephArmor s).1 = (s, Int32.ofNat s.length) ∧
    (cephArmor s).1.length = armoredLength ((s.length + 2) / 3) ∧
    (cephArmor s).2 = Int32.ofNat (cephArmor s).1.length := by
  obtain ⟨length, ret⟩ := armorFrom_counts s 0 0 0 rfl (by decide)
  refine ⟨?_, ?_, ?_⟩
  · exact (unarmorFrom_armorFrom s 0 0 0).trans (Prod.ext rfl (Int32.zero_add _))
  · rw [cephArmor, length, armoredLength, Nat.zero_add]
  · rw [cephArmor, ret, Int32.zero_add]

/-- An `int` does not hold the length of two GiB. -/
theorem armor_long :
    ¬∀ s : List UInt8,
      (cephUnarmor (cephArmor s).1).1 = s ∧ (cephUnarmor (cephArmor s).1).2.toInt = s.length ∧
      (cephArmor s).1.length = armoredLength ((s.length + 2) / 3) ∧
      (cephArmor s).2.toInt = (cephArmor s).1.length := by
  intro claimed
  obtain ⟨-, returned, -⟩ := claimed (replicate (2 ^ 31) 0)
  rw [cephUnarmor, cephArmor, unarmorFrom_armorFrom, length_replicate] at returned
  exact absurd returned (by decide)

end KmodCeph.Armor
