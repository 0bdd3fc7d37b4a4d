import KmodCeph.Lib.SearchTree
import Mathlib.Data.List.Lex

namespace KmodCeph.Xattr

open Lib List

structure CString where
  bytes : List UInt8
  noNul : 0 ∉ bytes

def strncmp : Nat → List UInt8 → List UInt8 → Ordering
  | 0, _, _ => .eq
  | count + 1, first, second =>
    if first.headD 0 < second.headD 0 then .lt
    else if first.headD 0 > second.headD 0 then .gt
    else if first.headD 0 = 0 then .eq
    else strncmp count first.tail second.tail

def compareSet (name other : List UInt8) : Ordering :=
  match strncmp (min name.length other.length) name other with
  | .lt => .lt
  | .gt => .gt
  | .eq =>
    if name.length = other.length then .eq
    else if name.length < other.length then .lt
    else .gt

def compareGet (name other : List UInt8) : Ordering :=
  match strncmp other.length name other with
  | .lt => .lt
  | .gt => .gt
  | .eq => if name.length > other.length then .gt else .eq

/-- What both compare by. -/
def nameKey (name : List UInt8) : List Nat := name.map UInt8.toNat

def cephPrefix : List UInt8 := [99, 101, 112, 104, 46]

def securityPrefix : List UInt8 := [115, 101, 99, 117, 114, 105, 116, 121, 46]

def trustedPrefix : List UInt8 := [116, 114, 117, 115, 116, 101, 100, 46]

def userPrefix : List UInt8 := [117, 115, 101, 114, 46]

def startsWith (name head : List UInt8) : Bool := strncmp head.length name head = .eq

def cephIsValidXattr (name : List UInt8) : Bool :=
  startsWith name cephPrefix || startsWith name securityPrefix || startsWith name trustedPrefix || startsWith name userPrefix

section

variable {name other : List UInt8} {head tail : List UInt8}

theorem nameKey_injective : Function.Injective nameKey :=
  List.map_injective_iff.mpr fun _ _ same => UInt8.toNat_inj.mp same

theorem keyOrdering_refl (key : List Nat) : keyOrdering key key = .eq := by
  unfold keyOrdering
  rw [if_neg (lt_irrefl _), if_neg (lt_irrefl _)]

theorem keyOrdering_nil_cons {first : Nat} {rest : List Nat} : keyOrdering [] (first :: rest) = .lt := by
  unfold keyOrdering
  rw [if_pos (nil_lt_cons _ _)]

theorem keyOrdering_cons_nil {first : Nat} {rest : List Nat} : keyOrdering (first :: rest) [] = .gt := by
  unfold keyOrdering
  rw [if_neg (not_lt_nil _), if_pos (nil_lt_cons _ _)]

theorem keyOrdering_cons {first second : Nat} {rest others : List Nat} :
    keyOrdering (first :: rest) (second :: others) =
      if first < second then .lt else if first > second then .gt else keyOrdering rest others := by
  unfold keyOrdering
  simp only [gt_iff_lt, cons_lt_cons_iff]
  rcases lt_trichotomy first second with less | same | greater
  · simp [less]
  · simp [same]
  · simp [greater, greater.not_gt, greater.ne']

theorem compareSet_eq (whole : 0 ∉ name) (whole' : 0 ∉ other) :
    compareSet name other = keyOrdering (nameKey name) (nameKey other) := by
  induction name generalizing other with
  | nil =>
    cases other with
    | nil => exact (keyOrdering_refl _).symm
    | cons second others => exact keyOrdering_nil_cons.symm
  | cons first rest ih =>
    cases other with
    | nil => exact keyOrdering_cons_nil.symm
    | cons second others =>
      obtain ⟨nonzero, whole⟩ := ne_and_not_mem_of_not_mem_cons whole
      have smaller := ih whole (not_mem_of_not_mem_cons whole')
      unfold compareSet at smaller ⊢
      rw [nameKey, nameKey, map_cons, map_cons, keyOrdering_cons, ← nameKey, ← nameKey, ← smaller]
      simp only [length_cons, Nat.succ_min_succ, strncmp, headD_cons, tail_cons, gt_iff_lt,
        UInt8.lt_iff_toNat_lt]
      split_ifs <;> simp_all

theorem compareGet_eq (whole : 0 ∉ name) (whole' : 0 ∉ other) :
    compareGet name other = keyOrdering (nameKey name) (nameKey other) := by
  induction name generalizing other with
  | nil =>
    cases other with
    | nil => exact (keyOrdering_refl _).symm
    | cons second others =>
      have nonzero : 0 < second := by
        have differs := ne_of_not_mem_cons whole'
        exact UInt8.pos_iff_ne_zero.mpr (Ne.symm differs)
      rw [nameKey, nameKey, map_nil, map_cons, keyOrdering_nil_cons]
      unfold compareGet
      simp [strncmp, nonzero]
  | cons first rest ih =>
    cases other with
    | nil => exact keyOrdering_cons_nil.symm
    | cons second others =>
      obtain ⟨nonzero, whole⟩ := ne_and_not_mem_of_not_mem_cons whole
      have smaller := ih whole (not_mem_of_not_mem_cons whole')
      unfold compareGet at smaller ⊢
      rw [nameKey, nameKey, map_cons, map_cons, keyOrdering_cons, ← nameKey, ← nameKey, ← smaller]
      simp only [length_cons, strncmp, headD_cons, tail_cons, gt_iff_lt, UInt8.lt_iff_toNat_lt]
      split_ifs <;> simp_all

end

end KmodCeph.Xattr
