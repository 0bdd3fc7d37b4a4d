import KmodCeph.Osdmap.Map

namespace KmodCeph.Osdmap

open Lib

def cephPgMaxSize : Nat := 16
def cephPoolTypeRep : UInt8 := 1
def cephPoolTypeEc : UInt8 := 3
def cephPoolFlagHashpspool : UInt64 := 1
def cephOsdMaxPrimaryAffinity : UInt32 := 0x10000
def cephOsdDefaultPrimaryAffinity : UInt32 := 0x10000

/-- `calc_bits_of`: the number of shifts that leave 0. -/
def calcBitsOf (t : Nat) : Nat :=
  if t = 0 then 0 else calcBitsOf (t / 2) + 1
decreasing_by omega

def calcPgMask (num : UInt32) : UInt32 :=
  (1 <<< UInt32.ofNat (calcBitsOf (num - 1).toNat)) - 1

def calcPgMasks (pool : PgPoolInfo) : PgPoolInfo :=
  { pool with pgNumMask := calcPgMask pool.pgNum, pgpNumMask := calcPgMask pool.pgpNum }

/-- `ceph_stable_mod`; its arguments are signed. -/
def cephStableMod (x b bmask : UInt32) : UInt32 :=
  if (x &&& bmask).toInt32 < b.toInt32 then x &&& bmask
  else x &&& (bmask.toInt32 >>> 1).toUInt32

/-- The memory that evaluating a CRUSH rule works on. -/
structure CrushWork where
  scratch : List Int
  perms : Crush.Perms

def doCrush (map : OsdMap) (bound : Nat) (ruleno : Int) (x : UInt32) (resultMax : Nat)
    (work : CrushWork) : Except Fault (List Int × Crush.Perms) :=
  if resultMax > cephPgMaxSize then .error .bug
  else
    let input : Crush.RuleInput :=
      { map := map.crush, x, resultMax, weight := map.osdWeight
        weightMax := map.maxOsd.toInt32.toInt }
    (Crush.crushDoRule input bound ruleno work.scratch work.perms).mapError .crush

def pgToRawOsds (map : OsdMap) (bound : Nat) (pool : PgPoolInfo) (pps : UInt32)
    (work : CrushWork) : Except Fault (Except Int (List Int × Crush.Perms)) :=
  let ruleno := Crush.crushFindRule map.crush pool.crushRuleset pool.type pool.size.toNat
  if ruleno < 0 then .ok (.error (-enoent))
  else (doCrush map bound ruleno pps (min pool.size.toNat cephPgMaxSize) work).map .ok

def cephCanShiftOsds (pool : PgPoolInfo) : Except Fault Bool :=
  if pool.type = cephPoolTypeRep then .ok true
  else if pool.type = cephPoolTypeEc then .ok false
  else .error .bug

def removeDownOsds (map : OsdMap) : List Int → Except Fault (List Int)
  | [] => .ok []
  | osd :: rest => do
    let down ← cephOsdIsDown map osd
    let rest ← removeDownOsds map rest
    .ok (if down then rest else osd :: rest)

def blankDownOsds (map : OsdMap) : List Int → Except Fault (List Int)
  | [] => .ok []
  | osd :: rest => do
    let down ← cephOsdIsDown map osd
    let rest ← blankDownOsds map rest
    .ok ((if down then Crush.crushItemNone else osd) :: rest)

/-- The last osd, from the end, that was found to be up. -/
def firstUpOsd (map : OsdMap) : List Int → Except Fault Int
  | [] => .ok (-1)
  | osd :: rest => do
    let down ← cephOsdIsDown map osd
    if down then firstUpOsd map rest else .ok osd

def rawToUpOsds (map : OsdMap) (pool : PgPoolInfo) (osds : List Int) :
    Except Fault (List Int × Int) := do
  let shift ← cephCanShiftOsds pool
  if shift then do
    let up ← removeDownOsds map osds
    .ok (up, up.headD (-1))
  else do
    let up ← blankDownOsds map osds
    let primary ← firstUpOsd map osds
    .ok (up, primary)

def affinityOf (affinity : List UInt32) (osd : Int) : Except Fault UInt32 :=
  if osd < 0 then .error .outOfBounds else readAt .outOfBounds affinity osd.toNat

def anyAffinity (affinity : List UInt32) : List Int → Except Fault Bool
  | [] => .ok false
  | osd :: rest =>
    if osd = Crush.crushItemNone then anyAffinity affinity rest
    else do
      let aff ← affinityOf affinity osd
      if aff ≠ cephOsdDefaultPrimaryAffinity then .ok true else anyAffinity affinity rest

def pickPrimary (affinity : List UInt32) (pps : UInt32) :
    Nat → Option Nat → List Int → Except Fault (Option Nat)
  | _, pos, [] => .ok pos
  | i, pos, osd :: rest =>
    if osd = Crush.crushItemNone then pickPrimary affinity pps (i + 1) pos rest
    else do
      let aff ← affinityOf affinity osd
      if aff < cephOsdMaxPrimaryAffinity ∧
          Crush.crushHash32Two Crush.crushHashRjenkins1 pps (UInt32.ofInt osd) >>> 16 ≥ aff then
        pickPrimary affinity pps (i + 1) (pos.orElse fun _ => some i) rest
      else .ok (some i)

def applyPrimaryAffinity (map : OsdMap) (pps : UInt32) (pool : PgPoolInfo) (osds : List Int)
    (primary : Int) : Except Fault (List Int × Int) :=
  match map.osdPrimaryAffinity with
  | none => .ok (osds, primary)
  | some affinity => do
    let any ← anyAffinity affinity osds
    if ¬ any then .ok (osds, primary)
    else do
      match ← pickPrimary affinity pps 0 none osds with
      | none => .ok (osds, primary)
      | some pos => do
        let primary ← readAt .outOfBounds osds pos
        let shift ← cephCanShiftOsds pool
        .ok (if shift ∧ pos > 0 then primary :: osds.eraseIdx pos else osds, primary)

def tempOsds (map : OsdMap) (shift : Bool) (temp : List Int) : Except Fault (List Int) :=
  if shift then removeDownOsds map temp else blankDownOsds map temp

/-- `apply_temps`: the acting set and its primary. The caller's array has
room for `CEPH_PG_MAX_SIZE` osds. -/
def applyTemps (map : OsdMap) (pool : PgPoolInfo) (pgid : Pg) (osds : List Int) (primary : Int) :
    Except Fault (List Int × Int) := do
  let pgid : Pg := { pgid with seed := cephStableMod pgid.seed pool.pgNum pool.pgNumMask }
  let (osds, primary) ←
    match lookupPgMapping map.pgTemp pgid with
    | none => .ok (osds, primary)
    | some temp => do
      let shift ← cephCanShiftOsds pool
      let acting ← tempOsds map shift temp
      if acting.length > cephPgMaxSize then .error .outOfBounds
      else .ok (acting, (acting.find? (· ≠ Crush.crushItemNone)).getD (-1))
  .ok (osds, (lookupPgMapping map.primaryTemp pgid).getD primary)

/-- What `ceph_calc_pg_acting` computes: the acting set or an error code, the
primary, and the permutations that CRUSH leaves behind. -/
structure Acting where
  osds : Except Int (List Int)
  primary : Int
  perms : Crush.Perms

def placementSeed (pool : PgPoolInfo) (pgid : Pg) : UInt32 :=
  let ps := cephStableMod pgid.seed pool.pgpNum pool.pgpNumMask
  if pool.flags &&& cephPoolFlagHashpspool ≠ 0 then
    Crush.crushHash32Two Crush.crushHashRjenkins1 ps pgid.pool.toUInt32
  else ps + pgid.pool.toUInt32

def cephCalcPgActing (map : OsdMap) (bound : Nat) (work : CrushWork) (pgid : Pg) :
    Except Fault Acting :=
  match lookupPgPool map.pgPools pgid.pool with
  | none => .ok { osds := .error (-enoent), primary := -1, perms := work.perms }
  | some pool => do
    let pps := placementSeed pool pgid
    match ← pgToRawOsds map bound pool pps work with
    | .error code => .ok { osds := .error code, primary := -1, perms := work.perms }
    | .ok (raw, perms) => do
      let (osds, primary) ← rawToUpOsds map pool raw
      let (osds, primary) ← applyPrimaryAffinity map pps pool osds primary
      let (osds, primary) ← applyTemps map pool pgid osds primary
      .ok { osds := .ok osds, primary, perms }

theorem lt_two_pow_calcBitsOf (t : Nat) : t < 2 ^ calcBitsOf t := by
  induction t using Nat.strong_induction_on with
  | _ t ih =>
    rw [calcBitsOf]
    split
    · omega
    · have half := ih (t / 2) (by omega)
      lia

theorem two_pow_calcBitsOf_le {t : Nat} (positive : 0 < t) : 2 ^ calcBitsOf t ≤ 2 * t := by
  induction t using Nat.strong_induction_on with
  | _ t ih =>
    rw [calcBitsOf, if_neg (by omega), pow_succ]
    by_cases one : t / 2 = 0
    · rw [one, calcBitsOf, if_pos rfl]
      omega
    · have half := ih (t / 2) (by omega) (by omega)
      lia

theorem calcBitsOf_mono {t u : Nat} (le : t ≤ u) : calcBitsOf t ≤ calcBitsOf u := by
  rcases Nat.eq_zero_or_pos t with rfl | positive
  · rw [calcBitsOf, if_pos rfl]
    exact Nat.zero_le _
  · by_contra more
    have upper := lt_two_pow_calcBitsOf u
    have lower := two_pow_calcBitsOf_le positive
    have doubled : 2 ^ (calcBitsOf u + 1) ≤ 2 ^ calcBitsOf t :=
      Nat.pow_le_pow_right (by omega) (by omega)
    lia

/-- The low bits of a value, one fewer of them if they are no bin. -/
def binOfBits (bits num value : Nat) : Nat :=
  if value % 2 ^ bits < num then value % 2 ^ bits else value % 2 ^ (bits - 1)

def stableBin (num value : Nat) : Nat :=
  binOfBits (calcBitsOf (num - 1)) num value

theorem mod_two_pow_mod {value bits fewer : Nat} (le : fewer ≤ bits) :
    value % 2 ^ bits % 2 ^ fewer = value % 2 ^ fewer :=
  Nat.mod_mod_of_dvd value (pow_dvd_pow 2 le)

theorem binOfBits_binOfBits {n m few many : Nat} (bits : n ≤ m) (le : few ≤ many)
    (halved : 2 ^ (n - 1) ≤ few) (value : Nat) :
    binOfBits n few (binOfBits m many value) = binOfBits n few value := by
  by_cases exists_ : value % 2 ^ m < many
  · have inner : binOfBits m many value = value % 2 ^ m := if_pos exists_
    rw [inner, binOfBits, mod_two_pow_mod bits, mod_two_pow_mod (by lia)]
    rfl
  have inner : binOfBits m many value = value % 2 ^ (m - 1) := if_neg exists_
  rw [inner]
  rcases Nat.lt_or_ge n m with less | same
  · rw [binOfBits, mod_two_pow_mod (by lia), mod_two_pow_mod (by lia)]
    rfl
  obtain rfl : n = m := by omega
  have small : value % 2 ^ (n - 1) < 2 ^ (n - 1) := Nat.mod_lt _ (Nat.two_pow_pos _)
  have kept : value % 2 ^ (n - 1) % 2 ^ n = value % 2 ^ (n - 1) :=
    Nat.mod_eq_of_lt (small.trans_le (Nat.pow_le_pow_right (by omega) (by lia)))
  rw [binOfBits, kept, if_pos (small.trans_le halved), binOfBits, if_neg (by omega)]

/-- Where a value goes among fewer bins depends only on its bin among more of
them. -/
theorem stableBin_stableBin {few many : Nat} (positive : 1 ≤ few) (le : few ≤ many)
    (value : Nat) : stableBin few (stableBin many value) = stableBin few value := by
  refine binOfBits_binOfBits (calcBitsOf_mono (by lia)) le ?_ value
  rcases Nat.eq_zero_or_pos (few - 1) with zero | nonzero
  · rw [zero, calcBitsOf, if_pos rfl]
    exact positive
  · have lower := two_pow_calcBitsOf_le nonzero
    cases bits : calcBitsOf (few - 1) with
    | zero => exact positive
    | succ bits =>
      lia

theorem toInt32_lt_iff {a b : UInt32} (smallA : a.toNat < 2 ^ 31) (smallB : b.toNat < 2 ^ 31) :
    a.toInt32 < b.toInt32 ↔ a.toNat < b.toNat := by
  have nonneg : ∀ {value : UInt32}, value.toNat < 2 ^ 31 → value.toInt32.toInt = value.toNat := by
    intro value small
    change value.toBitVec.toInt = _
    refine BitVec.toInt_eq_toNat_of_lt ?_
    change 2 * value.toNat < _
    omega
  rw [Int32.lt_iff_toInt_lt, nonneg smallA, nonneg smallB]
  omega

theorem toNat_shiftRight_one {bmask : UInt32} (small : bmask.toNat < 2 ^ 31) :
    (bmask.toInt32 >>> 1).toUInt32.toNat = bmask.toNat / 2 := by
  have nonneg : bmask.toBitVec.msb = false := by
    rw [BitVec.msb_eq_false_iff_two_mul_lt]
    change 2 * bmask.toNat < _
    omega
  change (bmask.toBitVec.sshiftRight 1).toNat = _
  rw [BitVec.sshiftRight_eq_of_msb_false nonneg, BitVec.toNat_ushiftRight, Nat.shiftRight_one]
  rfl

theorem calcBitsOf_lt {num : Nat} (small : num < 2 ^ 31) : calcBitsOf (num - 1) < 32 := by
  rcases Nat.eq_zero_or_pos (num - 1) with zero | positive
  · rw [zero, calcBitsOf, if_pos rfl]
    omega
  · have lower := two_pow_calcBitsOf_le positive
    refine (Nat.pow_lt_pow_iff_right (show 1 < 2 by omega)).mp ?_
    lia

theorem calcPgMask_toNat {num : UInt32} (positive : 1 ≤ num.toNat) (small : num.toNat < 2 ^ 31) :
    (calcPgMask num).toNat = 2 ^ calcBitsOf (num.toNat - 1) - 1 := by
  have bits := calcBitsOf_lt small
  have pred : (num - 1).toNat = num.toNat - 1 :=
    UInt32.toNat_sub_of_le _ _ (UInt32.le_iff_toNat_le.mpr positive)
  have shifted : (1 <<< UInt32.ofNat (calcBitsOf (num.toNat - 1)) : UInt32).toNat =
      2 ^ calcBitsOf (num.toNat - 1) := by
    have modded : (UInt32.ofNat (calcBitsOf (num.toNat - 1))).toNat % 32 =
        calcBitsOf (num.toNat - 1) := by
      rw [UInt32.toNat_ofNat']
      lia
    rw [UInt32.toNat_shiftLeft, modded, Nat.shiftLeft_eq]
    exact (Nat.mod_eq_of_lt (by simpa using Nat.pow_lt_pow_right (by omega) bits)).trans (one_mul _)
  have nonzero : (1 : UInt32) ≤ 1 <<< UInt32.ofNat (calcBitsOf (num.toNat - 1)) := by
    rw [UInt32.le_iff_toNat_le, shifted]
    exact Nat.one_le_two_pow
  rw [calcPgMask, pred, UInt32.toNat_sub_of_le _ _ nonzero, shifted]
  rfl

theorem and_mask_toNat {x mask : UInt32} {bits : Nat} (value : mask.toNat = 2 ^ bits - 1) :
    (x &&& mask).toNat = x.toNat % 2 ^ bits := by
  rw [UInt32.toNat_and, value, Nat.and_two_pow_sub_one_eq_mod]

theorem cephStableMod_toNat {x num : UInt32} (positive : 1 ≤ num.toNat)
    (small : num.toNat < 2 ^ 31) :
    (cephStableMod x num (calcPgMask num)).toNat = stableBin num.toNat x.toNat := by
  have mask := calcPgMask_toNat positive small
  have upper : 2 ^ calcBitsOf (num.toNat - 1) ≤ 2 ^ 31 :=
    Nat.pow_le_pow_right (by omega) (by have := calcBitsOf_lt small; omega)
  have smallMask : (calcPgMask num).toNat < 2 ^ 31 := by omega
  have halved : ((calcPgMask num).toInt32 >>> 1).toUInt32.toNat =
      2 ^ (calcBitsOf (num.toNat - 1) - 1) - 1 := by
    rw [toNat_shiftRight_one smallMask, mask]
    cases calcBitsOf (num.toNat - 1) with
    | zero => rfl
    | succ bits =>
      lia
  have low := and_mask_toNat (x := x) mask
  have smallLow : (x &&& calcPgMask num).toNat < 2 ^ 31 := by
    rw [low]
    exact (Nat.mod_lt _ (Nat.two_pow_pos _)).trans_le upper
  simp only [cephStableMod, stableBin, binOfBits, toInt32_lt_iff smallLow small, low]
  split
  · exact low
  · exact and_mask_toNat halved

/-- The pool has masks as `calc_pg_masks` computes them, and sizes that are
positive as an `int`. -/
structure PgPoolInfo.Masked (pool : PgPoolInfo) : Prop where
  positive : 1 ≤ pool.pgpNum.toNat
  fewer : pool.pgpNum.toNat ≤ pool.pgNum.toNat
  small : pool.pgNum.toNat < 2 ^ 31
  masks : calcPgMasks pool = pool

theorem cephStableMod_cephStableMod {few many : UInt32} (positive : 1 ≤ few.toNat)
    (le : few.toNat ≤ many.toNat) (small : many.toNat < 2 ^ 31) (seed : UInt32) :
    cephStableMod (cephStableMod seed many (calcPgMask many)) few (calcPgMask few) =
      cephStableMod seed few (calcPgMask few) := by
  apply UInt32.toNat_inj.mp
  rw [cephStableMod_toNat positive (by omega), cephStableMod_toNat (by omega) small,
    stableBin_stableBin positive le, cephStableMod_toNat positive (by omega)]

theorem placementSeed_stable {pool : PgPoolInfo} (masked : pool.Masked) (pgid : Pg) :
    placementSeed pool { pgid with seed := cephStableMod pgid.seed pool.pgNum pool.pgNumMask } =
      placementSeed pool pgid := by
  have numMask : pool.pgNumMask = calcPgMask pool.pgNum :=
    congrArg PgPoolInfo.pgNumMask masked.masks.symm
  have pgpMask : pool.pgpNumMask = calcPgMask pool.pgpNum :=
    congrArg PgPoolInfo.pgpNumMask masked.masks.symm
  simp only [placementSeed, numMask, pgpMask,
    cephStableMod_cephStableMod masked.positive masked.fewer masked.small]

theorem applyTemps_stable {pool : PgPoolInfo} (masked : pool.Masked) (map : OsdMap) (pgid : Pg)
    (osds : List Int) (primary : Int) :
    applyTemps map pool { pgid with seed := cephStableMod pgid.seed pool.pgNum pool.pgNumMask }
      osds primary = applyTemps map pool pgid osds primary := by
  have numMask : pool.pgNumMask = calcPgMask pool.pgNum :=
    congrArg PgPoolInfo.pgNumMask masked.masks.symm
  have fewer := masked.fewer
  have positive := masked.positive
  simp only [applyTemps, numMask,
    cephStableMod_cephStableMod (positive.trans fewer) le_rfl masked.small]

/-- The acting set of a raw placement group is that of the placement group. -/
theorem cephCalcPgActing_stable {map : OsdMap} {pool : PgPoolInfo} {pgid : Pg}
    (found : lookupPgPool map.pgPools pgid.pool = some pool) (masked : pool.Masked)
    (bound : Nat) (work : CrushWork) :
    cephCalcPgActing map bound work pgid = cephCalcPgActing map bound work
      { pgid with seed := cephStableMod pgid.seed pool.pgNum pool.pgNumMask } := by
  simp only [cephCalcPgActing, found, placementSeed_stable masked, applyTemps_stable masked]

def splitPool : PgPoolInfo :=
  { id := 3, type := 1, size := 2, crushRuleset := 0, objectHash := 2, pgNum := 12, pgpNum := 8
    pgNumMask := 15, pgpNumMask := 7, readTier := 0, writeTier := 0, flags := 1, name := none }

def twoOsds : OsdMap :=
  { fsid := [], epoch := 1, created := [], modified := [], flags := 0, maxOsd := 2
    osdState := [3, 3], osdWeight := [0x10000, 0x10000], osdAddr := [[], []]
    pgTemp := [(⟨3, 5⟩, [1, 0])], primaryTemp := [], osdPrimaryAffinity := none
    pgPools := [splitPool], poolMax := 3
    crush :=
      { buckets := [some { id := -1, type := 1, alg := 4, hash := 0, size := 2, items := [0, 1]
                           itemWeights := [], sumWeights := [], numNodes := 0, nodeWeights := []
                           straws := [0x10000, 0x10000] }]
        rules := [some { ruleset := 0, type := 1, minSize := 1, maxSize := 10, steps :=
          [⟨1, -1, 0⟩, ⟨2, 0, 0⟩, ⟨4, 0, 0⟩] }]
        maxDevices := 2, chooseLocalTries := 0, chooseLocalFallbackTries := 0
        chooseTotalTries := 50, chooseleafDescendOnce := 1, chooseleafVaryR := 0 } }

theorem cephCalcPgActing_stable_twoOsds :
    cephCalcPgActing twoOsds 60 ⟨List.replicate 48 0, fun _ => ⟨0, 0, [0, 0]⟩⟩ ⟨3, 13⟩ =
      cephCalcPgActing twoOsds 60 ⟨List.replicate 48 0, fun _ => ⟨0, 0, [0, 0]⟩⟩ ⟨3, 5⟩ := by
  have found : lookupPgPool twoOsds.pgPools 3 = some splitPool := rfl
  have masked : splitPool.Masked := by
    refine ⟨by decide, by decide, by decide, ?_⟩
    simp only [calcPgMasks, calcPgMask, splitPool]
    simp [calcBitsOf]
    decide
  have seed : cephStableMod 13 splitPool.pgNum splitPool.pgNumMask = 5 := by decide
  have stable := @cephCalcPgActing_stable twoOsds splitPool ⟨3, 13⟩ found masked 60
    ⟨List.replicate 48 0, fun _ => ⟨0, 0, [0, 0]⟩⟩
  rwa [seed] at stable

end KmodCeph.Osdmap
