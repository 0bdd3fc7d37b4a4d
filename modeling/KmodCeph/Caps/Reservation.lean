import KmodCeph.Lib.Reached

namespace KmodCeph.Caps

open Lib List

abbrev CapAddr := Nat

inductive CapBug where
  | minCountNegative
  | totalCount
  | reserveCount
  | noReservation
  | emptyList

/-- Preallocated capabilities and their accounting, in `struct ceph_mds_client`. -/
structure MdsClient where
  capsTotalCount : Int
  capsUseCount : Int
  capsReserveCount : Int
  capsAvailCount : Int
  capsMinCount : Int
  capsList : List CapAddr
deriving DecidableEq

def MdsClient.Balanced (mdsc : MdsClient) : Prop :=
  mdsc.capsTotalCount = mdsc.capsUseCount + mdsc.capsReserveCount + mdsc.capsAvailCount

instance (mdsc : MdsClient) : Decidable mdsc.Balanced :=
  inferInstanceAs (Decidable (_ = _))

def MdsClient.checkTotal (mdsc : MdsClient) : Except CapBug Unit :=
  haltIf (¬ mdsc.Balanced) .totalCount

def cephAdjustMinCaps (delta : Int) (mdsc : MdsClient) : Except CapBug MdsClient := do
  haltIf (mdsc.capsMinCount + delta < 0) .minCountNegative
  return { mdsc with capsMinCount := mdsc.capsMinCount + delta }

def MdsClient.available (mdsc : MdsClient) (need : Int) : Int :=
  if mdsc.capsAvailCount ≥ need then need else mdsc.capsAvailCount

/-- `ceph_reserve_caps` up to the point where it drops the lock. -/
def reserveAvailable (need : Int) (mdsc : MdsClient) : Except CapBug MdsClient := do
  let have' := mdsc.available need
  let mdsc := { mdsc with
    capsAvailCount := mdsc.capsAvailCount - have'
    capsReserveCount := mdsc.capsReserveCount + have' }
  mdsc.checkTotal
  return mdsc

def allocCaps (alloc : Nat → Option CapAddr) : Nat → Nat → List CapAddr → List CapAddr
  | 0, _, newcaps => newcaps
  | left + 1, turn, newcaps =>
    match alloc turn with
    | none => newcaps
    | some cap => allocCaps alloc left (turn + 1) (cap :: newcaps)

def reserveAllocated (have' need : Int) (alloc : Nat → Option CapAddr) (mdsc : MdsClient) :
    Except CapBug MdsClient := do
  let newcaps := allocCaps alloc (need - have').toNat 0 []
  let mdsc := { mdsc with
    capsTotalCount := mdsc.capsTotalCount + newcaps.length
    capsReserveCount := mdsc.capsReserveCount + newcaps.length
    capsList := newcaps ++ mdsc.capsList }
  mdsc.checkTotal
  return mdsc

def cephUnreserveCaps (count : Int) (mdsc : MdsClient) : Except CapBug MdsClient :=
  if count = 0 then return mdsc
  else do
    haltIf (mdsc.capsReserveCount < count) .reserveCount
    let mdsc := { mdsc with
      capsReserveCount := mdsc.capsReserveCount - count
      capsAvailCount := mdsc.capsAvailCount + count }
    mdsc.checkTotal
    return mdsc

def getNewCap (alloc : Option CapAddr) (mdsc : MdsClient) : Option CapAddr × MdsClient :=
  match alloc with
  | none => (none, mdsc)
  | some cap =>
    (some cap, { mdsc with
      capsUseCount := mdsc.capsUseCount + 1
      capsTotalCount := mdsc.capsTotalCount + 1 })

def getReservedCap (count : Int) (mdsc : MdsClient) : Except CapBug (CapAddr × MdsClient) := do
  haltIf (count = 0) .noReservation
  haltIf (count > mdsc.capsReserveCount) .reserveCount
  match mdsc.capsList with
  | [] => throw .emptyList
  | cap :: rest =>
    let mdsc := { mdsc with
      capsReserveCount := mdsc.capsReserveCount - 1
      capsUseCount := mdsc.capsUseCount + 1
      capsList := rest }
    mdsc.checkTotal
    return (cap, mdsc)

def cephPutCap (cap : CapAddr) (mdsc : MdsClient) : Except CapBug MdsClient := do
  let mdsc := { mdsc with capsUseCount := mdsc.capsUseCount - 1 }
  let mdsc :=
    if mdsc.capsAvailCount ≥ mdsc.capsReserveCount + mdsc.capsMinCount then
      { mdsc with capsTotalCount := mdsc.capsTotalCount - 1 }
    else
      { mdsc with capsAvailCount := mdsc.capsAvailCount + 1, capsList := cap :: mdsc.capsList }
  mdsc.checkTotal
  return mdsc

/-- `struct ceph_cap_reservation`, with `have` and `need` of the
`ceph_reserve_caps` call that is filling it without the lock. -/
structure CapReservation where
  count : Int
  filling : Option (Int × Int)
deriving DecidableEq

structure CapPool where
  mdsc : MdsClient
  ctxs : List CapReservation
  used : List CapAddr

def CapPool.init : CapPool where
  mdsc :=
    { capsTotalCount := 0, capsUseCount := 0, capsReserveCount := 0, capsAvailCount := 0, capsMinCount := 0,
      capsList := [] }
  ctxs := []
  used := []

/-- What a context does under one hold of the lock; `reserve` and `fill` are the
two halves of `ceph_reserve_caps`. -/
inductive PoolCall where
  | newContext
  | reserve (ctx : Nat) (need : Int)
  | fill (ctx : Nat) (alloc : Nat → Option CapAddr)
  | unreserve (ctx : Nat)
  | getCap (ctx : Option Nat) (alloc : Option CapAddr)
  | putCap (cap : CapAddr)
  | adjustMinCaps (delta : Int)

def CapPool.withCtx (pool : CapPool) (mdsc : MdsClient) (ctx : Nat) (reservation : CapReservation) : CapPool :=
  { pool with mdsc := mdsc, ctxs := pool.ctxs.set ctx reservation }

def CapPool.take (pool : CapPool) (cap : CapAddr) : CapPool :=
  { pool with used := cap :: pool.used }

def PoolCall.run : PoolCall → CapPool → Except CapBug CapPool
  | .newContext, pool => return { pool with ctxs := pool.ctxs ++ [{ count := 0, filling := none }] }
  | .reserve ctx need, pool =>
    match pool.ctxs[ctx]? with
    | none => return pool
    | some reservation => do
      let mdsc ← reserveAvailable need pool.mdsc
      return pool.withCtx mdsc ctx { reservation with filling := some (pool.mdsc.available need, need) }
  | .fill ctx alloc, pool =>
    match pool.ctxs[ctx]? with
    | some { filling := some (have', need), .. } => do
      let mdsc ← reserveAllocated have' need alloc pool.mdsc
      return pool.withCtx mdsc ctx { count := need, filling := none }
    | _ => return pool
  | .unreserve ctx, pool =>
    match pool.ctxs[ctx]? with
    | none => return pool
    | some reservation => do
      let mdsc ← cephUnreserveCaps reservation.count pool.mdsc
      return pool.withCtx mdsc ctx { reservation with count := 0 }
  | .getCap none alloc, pool =>
    match getNewCap alloc pool.mdsc with
    | (none, mdsc) => return { pool with mdsc := mdsc }
    | (some cap, mdsc) => return { pool with mdsc := mdsc }.take cap
  | .getCap (some ctx) _, pool =>
    match pool.ctxs[ctx]? with
    | none => return pool
    | some reservation => do
      let (cap, mdsc) ← getReservedCap reservation.count pool.mdsc
      return (pool.withCtx mdsc ctx { reservation with count := reservation.count - 1 }).take cap
  | .putCap cap, pool => do
    let mdsc ← cephPutCap cap pool.mdsc
    return { pool with mdsc := mdsc, used := pool.used.erase cap }
  | .adjustMinCaps delta, pool => do
    let mdsc ← cephAdjustMinCaps delta pool.mdsc
    return { pool with mdsc := mdsc }

/-- How the callers use the functions: a context is filled once and not used
meanwhile, it gives what it has, and only what is in use is put back. -/
def PoolCall.Proper : PoolCall → CapPool → Prop
  | .newContext, _ => True
  | .reserve ctx need, pool => pool.ctxs[ctx]? = some { count := 0, filling := none } ∧ 0 ≤ need
  | .fill ctx _, pool => ∃ have' need, pool.ctxs[ctx]? = some { count := 0, filling := some (have', need) }
  | .unreserve ctx, pool => ∃ count, pool.ctxs[ctx]? = some { count := count, filling := none }
  | .getCap none _, _ => True
  | .getCap (some ctx) _, pool => ∃ count, pool.ctxs[ctx]? = some { count := count, filling := none } ∧ count ≠ 0
  | .putCap cap, pool => cap ∈ pool.used
  | .adjustMinCaps delta, pool => 0 ≤ pool.mdsc.capsMinCount + delta

/-- Every allocation that `ceph_reserve_caps` asks for succeeds. -/
def PoolCall.Granted : PoolCall → CapPool → Prop
  | .fill ctx alloc, pool =>
    ∀ have' need count, pool.ctxs[ctx]? = some { count := count, filling := some (have', need) } →
      ∀ turn : Nat, turn < need - have' → alloc turn ≠ none
  | _, _ => True

def CapReservation.share (reservation : CapReservation) : Int :=
  match reservation.filling with
  | none => reservation.count
  | some (have', _) => reservation.count + have'

structure CapReservation.Fits (reservation : CapReservation) : Prop where
  count : 0 ≤ reservation.count
  filling : ∀ have' need, reservation.filling = some (have', need) → 0 ≤ have' ∧ have' ≤ need

/-- The counts agree with each other, with the list and with the contexts. -/
structure Accounted (pool : CapPool) : Prop where
  total : pool.mdsc.Balanced
  reserved : pool.mdsc.capsReserveCount = (pool.ctxs.map CapReservation.share).sum
  list : pool.mdsc.capsList.length = pool.mdsc.capsReserveCount + pool.mdsc.capsAvailCount
  use : pool.mdsc.capsUseCount = pool.used.length
  avail : 0 ≤ pool.mdsc.capsAvailCount
  min : 0 ≤ pool.mdsc.capsMinCount
  ctxs : ∀ reservation ∈ pool.ctxs, reservation.Fits

section

variable {mdsc : MdsClient} {pool : CapPool}

theorem checkTotal_ok (balanced : mdsc.Balanced) : mdsc.checkTotal = .ok () := by
  rw [MdsClient.checkTotal, haltIf, if_neg (not_not.mpr balanced)]

theorem allocCaps_length (alloc : Nat → Option CapAddr) (left turn : Nat) (newcaps : List CapAddr)
    (granted : ∀ later < left, alloc (turn + later) ≠ none) :
    (allocCaps alloc left turn newcaps).length = left + newcaps.length := by
  induction left generalizing turn newcaps with
  | zero => simp [allocCaps]
  | succ left ih =>
    have first := granted 0 (by omega)
    cases answer : alloc turn with
    | none => exact absurd answer (by simpa using first)
    | some cap =>
      have rest : ∀ later < left, alloc (turn + 1 + later) ≠ none := by
        intro later below
        have granted := granted (later + 1) (by omega)
        rwa [show turn + (later + 1) = turn + 1 + later by omega] at granted
      simp only [allocCaps, answer, ih (turn + 1) (cap :: newcaps) rest, length_cons]
      omega

theorem sum_share_set {ctxs : List CapReservation} {ctx : Nat} {old : CapReservation}
    (found : ctxs[ctx]? = some old) (new : CapReservation) :
    ((ctxs.set ctx new).map CapReservation.share).sum =
      (ctxs.map CapReservation.share).sum - old.share + new.share := by
  induction ctxs generalizing ctx with
  | nil => simp at found
  | cons first rest ih =>
    cases ctx with
    | zero =>
      simp only [getElem?_cons_zero, Option.some.injEq] at found
      subst found
      simp only [set_cons_zero, map_cons, sum_cons]
      omega
    | succ ctx =>
      simp only [set_cons_succ, map_cons, sum_cons, ih found]
      omega

theorem CapReservation.Fits.share {reservation : CapReservation} (fits : reservation.Fits) : 0 ≤ reservation.share := by
  have count := fits.count
  unfold CapReservation.share
  split
  · exact count
  · rename_i have' need filling
    have bounds := fits.filling have' need filling
    omega

theorem sum_share_nonneg {ctxs : List CapReservation} (fits : ∀ reservation ∈ ctxs, reservation.Fits) :
    0 ≤ (ctxs.map CapReservation.share).sum :=
  sum_nonneg (by
    intro share member
    obtain ⟨reservation, within, rfl⟩ := List.mem_map.mp member
    exact (fits reservation within).share)

theorem Accounted.share_le (accounted : Accounted pool) {ctx : Nat} {reservation : CapReservation}
    (found : pool.ctxs[ctx]? = some reservation) : reservation.share ≤ pool.mdsc.capsReserveCount := by
  have without := sum_share_set found { count := 0, filling := none }
  have others : 0 ≤ ((pool.ctxs.set ctx { count := 0, filling := none }).map CapReservation.share).sum := by
    apply sum_share_nonneg
    intro other member
    rcases mem_or_eq_of_mem_set member with old | rfl
    · exact accounted.ctxs other old
    · exact ⟨le_rfl, by simp⟩
  rw [accounted.reserved]
  simp only [CapReservation.share] at without ⊢
  omega

theorem Accounted.withCtx (accounted : Accounted pool) {ctx : Nat} {old new : CapReservation} {after : MdsClient}
    (found : pool.ctxs[ctx]? = some old) (fits : new.Fits) (total : after.Balanced)
    (reserved : after.capsReserveCount = pool.mdsc.capsReserveCount - old.share + new.share)
    (list : after.capsList.length = after.capsReserveCount + after.capsAvailCount)
    (use : after.capsUseCount = pool.mdsc.capsUseCount) (avail : 0 ≤ after.capsAvailCount)
    (min : after.capsMinCount = pool.mdsc.capsMinCount) : Accounted (pool.withCtx after ctx new) where
  total := total
  reserved := by
    rw [CapPool.withCtx, sum_share_set found, ← accounted.reserved]
    exact reserved
  list := list
  use := use.trans accounted.use
  avail := avail
  min := min ▸ accounted.min
  ctxs := by
    intro reservation member
    rcases mem_or_eq_of_mem_set member with old | same
    · exact accounted.ctxs reservation old
    · exact same ▸ fits

variable {need have' count : Int}

theorem reserve_accounted (accounted : Accounted pool) {ctx : Nat}
    (found : pool.ctxs[ctx]? = some { count := 0, filling := none }) (needed : 0 ≤ need) :
    Returns (PoolCall.run (.reserve ctx need) pool) Accounted := by
  have avail := accounted.avail
  have total := accounted.total
  have list := accounted.list
  have bounds : 0 ≤ pool.mdsc.available need ∧ pool.mdsc.available need ≤ need ∧
      pool.mdsc.available need ≤ pool.mdsc.capsAvailCount := by
    unfold MdsClient.available
    split <;> lia
  unfold MdsClient.Balanced at total
  have balanced : ({ pool.mdsc with
      capsAvailCount := pool.mdsc.capsAvailCount - pool.mdsc.available need
      capsReserveCount := pool.mdsc.capsReserveCount + pool.mdsc.available need } : MdsClient).Balanced := by
    simp only [MdsClient.Balanced]
    lia
  simp only [PoolCall.run, found, reserveAvailable, checkTotal_ok balanced]
  refine .pure (accounted.withCtx found ⟨le_rfl, ?_⟩ balanced ?_ ?_ rfl ?_ rfl)
  · rintro have' need ⟨⟩
    exact ⟨bounds.1, bounds.2.1⟩
  · simp only [CapReservation.share]
    omega
  · simp only
    lia
  · simp only
    lia

theorem fill_runs (accounted : Accounted pool) {ctx : Nat}
    (found : pool.ctxs[ctx]? = some { count := 0, filling := some (have', need) }) (alloc : Nat → Option CapAddr) :
    ∃ after : MdsClient, PoolCall.run (.fill ctx alloc) pool =
        .ok (pool.withCtx after ctx { count := need, filling := none }) ∧ after.Balanced ∧ after = { pool.mdsc with
        capsTotalCount := pool.mdsc.capsTotalCount + (allocCaps alloc (need - have').toNat 0 []).length
        capsReserveCount := pool.mdsc.capsReserveCount + (allocCaps alloc (need - have').toNat 0 []).length
        capsList := allocCaps alloc (need - have').toNat 0 [] ++ pool.mdsc.capsList } := by
  have total := accounted.total
  unfold MdsClient.Balanced at total
  refine ⟨_, ?_, ?_, rfl⟩
  · simp only [PoolCall.run, found, reserveAllocated]
    rw [checkTotal_ok]
    · rfl
    · simp only [MdsClient.Balanced]
      lia
  · simp only [MdsClient.Balanced]
    lia

theorem fill_accounted (accounted : Accounted pool) {ctx : Nat} {alloc : Nat → Option CapAddr}
    (found : pool.ctxs[ctx]? = some { count := 0, filling := some (have', need) })
    (granted : ∀ turn : Nat, turn < need - have' → alloc turn ≠ none) :
    Returns (PoolCall.run (.fill ctx alloc) pool) Accounted := by
  obtain ⟨after, ran, balanced, changed⟩ := fill_runs accounted found alloc
  have list := accounted.list
  have bounds := (accounted.ctxs _ (mem_of_getElem? found)).filling have' need rfl
  have allocated : (allocCaps alloc (need - have').toNat 0 []).length = (need - have').toNat := by
    rw [allocCaps_length]
    · simp
    · intro later below
      rw [Nat.zero_add]
      exact granted later (by lia)
  rw [ran]
  subst changed
  refine .pure (accounted.withCtx found ⟨?_, by simp⟩ balanced ?_ ?_ rfl accounted.avail rfl)
  · simp only
    omega
  · simp only [CapReservation.share]
    lia
  · simp only [length_append]
    lia

theorem unreserve_accounted (accounted : Accounted pool) {ctx : Nat}
    (found : pool.ctxs[ctx]? = some { count := count, filling := none }) :
    Returns (PoolCall.run (.unreserve ctx) pool) Accounted := by
  have fits := (accounted.ctxs _ (mem_of_getElem? found)).count
  have avail := accounted.avail
  have list := accounted.list
  have total := accounted.total
  have enough := accounted.share_le found
  simp only [CapReservation.share] at enough fits
  unfold MdsClient.Balanced at total
  simp only [PoolCall.run, found, cephUnreserveCaps]
  split
  · subst count
    exact .pure (accounted.withCtx found ⟨le_rfl, by simp⟩ accounted.total (by omega) list rfl avail rfl)
  · have balanced : ({ pool.mdsc with
        capsReserveCount := pool.mdsc.capsReserveCount - count
        capsAvailCount := pool.mdsc.capsAvailCount + count } : MdsClient).Balanced := by
      simp only [MdsClient.Balanced]
      lia
    simp only [haltIf, if_neg (by omega : ¬ pool.mdsc.capsReserveCount < count), checkTotal_ok balanced]
    refine .pure (accounted.withCtx found ⟨le_rfl, by simp⟩ balanced ?_ ?_ rfl ?_ rfl)
    · simp only [CapReservation.share]
      omega
    · simp only
      omega
    · simp only
      lia

theorem getCap_accounted (accounted : Accounted pool) {ctx : Nat} {alloc : Option CapAddr}
    (found : pool.ctxs[ctx]? = some { count := count, filling := none }) (some : count ≠ 0) :
    Returns (PoolCall.run (.getCap ctx alloc) pool) Accounted := by
  have fits := (accounted.ctxs _ (mem_of_getElem? found)).count
  have avail := accounted.avail
  have list := accounted.list
  have total := accounted.total
  have enough := accounted.share_le found
  simp only [CapReservation.share] at enough fits
  unfold MdsClient.Balanced at total
  simp only [PoolCall.run, found, getReservedCap]
  rw [haltIf, if_neg some, haltIf, if_neg (by omega : ¬ count > pool.mdsc.capsReserveCount)]
  cases caps : pool.mdsc.capsList with
  | nil =>
    rw [caps, length_nil] at list
    omega
  | cons cap rest =>
    rw [caps, length_cons] at list
    have balanced : ({ pool.mdsc with
        capsReserveCount := pool.mdsc.capsReserveCount - 1
        capsUseCount := pool.mdsc.capsUseCount + 1
        capsList := rest } : MdsClient).Balanced := by
      simp only [MdsClient.Balanced]
      lia
    have moved : Accounted { pool with
        mdsc := { pool.mdsc with capsReserveCount := pool.mdsc.capsReserveCount - 1, capsList := rest,
                                 capsTotalCount := pool.mdsc.capsTotalCount - 1 }
        ctxs := pool.ctxs.set ctx { count := count - 1, filling := none } } := by
      refine accounted.withCtx found ⟨?_, by simp⟩ ?_ ?_ ?_ rfl avail rfl
      · simp only
        omega
      · simp only [MdsClient.Balanced]
        lia
      · simp only [CapReservation.share]
        omega
      · simp only
        lia
    have use := accounted.use
    refine ⟨_, by simp only [checkTotal_ok balanced]; rfl, ?_⟩
    exact ⟨balanced, moved.reserved, moved.list, by simp [CapPool.take, CapPool.withCtx, use], avail, accounted.min,
      moved.ctxs⟩

theorem getNewCap_accounted (accounted : Accounted pool) (alloc : Option CapAddr) :
    Returns (PoolCall.run (.getCap none alloc) pool) Accounted := by
  cases alloc with
  | none => exact .pure accounted
  | some cap =>
    have total := accounted.total
    have use := accounted.use
    unfold MdsClient.Balanced at total
    refine .pure ⟨?_, accounted.reserved, accounted.list, ?_, accounted.avail, accounted.min, accounted.ctxs⟩
    · simp only [CapPool.take, MdsClient.Balanced]
      omega
    · simp [CapPool.take, use]

theorem putCap_accounted (accounted : Accounted pool) {cap : CapAddr} (used : cap ∈ pool.used) :
    Returns (PoolCall.run (.putCap cap) pool) Accounted := by
  have total := accounted.total
  have avail := accounted.avail
  have list := accounted.list
  have use := accounted.use
  have length := length_erase_of_mem used
  have some := length_pos_of_mem used
  unfold MdsClient.Balanced at total
  simp only [PoolCall.run, cephPutCap]
  split
  · rw [checkTotal_ok (by simp only [MdsClient.Balanced]; omega)]
    refine .pure ⟨?_, accounted.reserved, list, ?_, avail, accounted.min, accounted.ctxs⟩
    · simp only [MdsClient.Balanced]
      omega
    · simp only
      lia
  · rw [checkTotal_ok (by simp only [MdsClient.Balanced]; lia)]
    refine .pure ⟨?_, accounted.reserved, ?_, ?_, ?_, accounted.min, accounted.ctxs⟩
    · simp only [MdsClient.Balanced]
      lia
    · simp only [length_cons]
      lia
    · simp only
      lia
    · simp only
      omega

theorem adjustMinCaps_accounted (accounted : Accounted pool) {delta : Int} (nonneg : 0 ≤ pool.mdsc.capsMinCount + delta) :
    Returns (PoolCall.run (.adjustMinCaps delta) pool) Accounted := by
  simp only [PoolCall.run, cephAdjustMinCaps]
  rw [haltIf, if_neg (not_lt.mpr nonneg)]
  exact .pure ⟨accounted.total, accounted.reserved, accounted.list, accounted.use, accounted.avail, nonneg, accounted.ctxs⟩

theorem newContext_accounted (accounted : Accounted pool) : Returns (PoolCall.run .newContext pool) Accounted := by
  refine .pure { accounted with reserved := ?_, ctxs := ?_ }
  · simp [accounted.reserved, CapReservation.share]
  · intro reservation member
    rcases List.mem_append.mp member with old | new
    · exact accounted.ctxs reservation old
    · rw [mem_singleton] at new
      exact new ▸ ⟨le_rfl, by simp⟩

theorem init_accounted : Accounted .init :=
  ⟨rfl, rfl, rfl, rfl, le_rfl, le_rfl, by simp [CapPool.init]⟩

/-- Used properly, the calls keep the accounts as long as no allocation of a
reservation fails. -/
theorem pool_keeps :
    Keeps PoolCall.run (fun call pool => call.Proper pool ∧ call.Granted pool) Accounted := by
  rintro call pool ⟨proper, granted⟩ accounted
  cases call with
  | newContext => exact newContext_accounted accounted
  | reserve ctx need => exact reserve_accounted accounted proper.1 proper.2
  | fill ctx alloc =>
    obtain ⟨have', need, found⟩ := proper
    exact fill_accounted accounted found (granted have' need 0 found)
  | unreserve ctx =>
    obtain ⟨count, found⟩ := proper
    exact unreserve_accounted accounted found
  | getCap ctx alloc =>
    cases ctx with
    | none => exact getNewCap_accounted accounted alloc
    | some ctx =>
      obtain ⟨count, found, some⟩ := proper
      exact getCap_accounted accounted found some
  | putCap cap => exact putCap_accounted accounted proper
  | adjustMinCaps delta => exact adjustMinCaps_accounted accounted proper

theorem proper_runs (accounted : Accounted pool) {call : PoolCall} (proper : call.Proper pool) :
    Returns (call.run pool) fun _ => True := by
  cases call with
  | fill ctx alloc =>
    obtain ⟨have', need, found⟩ := proper
    obtain ⟨after, ran, _⟩ := fill_runs accounted found alloc
    exact ⟨_, ran, trivial⟩
  | newContext => exact (pool_keeps _ _ ⟨proper, trivial⟩ accounted).mono fun _ _ => trivial
  | reserve ctx need => exact (pool_keeps _ _ ⟨proper, trivial⟩ accounted).mono fun _ _ => trivial
  | unreserve ctx => exact (pool_keeps _ _ ⟨proper, trivial⟩ accounted).mono fun _ _ => trivial
  | getCap ctx alloc => exact (pool_keeps _ _ ⟨proper, trivial⟩ accounted).mono fun _ _ => trivial
  | putCap cap => exact (pool_keeps _ _ ⟨proper, trivial⟩ accounted).mono fun _ _ => trivial
  | adjustMinCaps delta => exact (pool_keeps _ _ ⟨proper, trivial⟩ accounted).mono fun _ _ => trivial

/-- The accounts of the capabilities as they are when no context is being
filled: what is reserved is then what the contexts count. -/
structure MdsClient.Sound (mdsc : MdsClient) (ctxs : List CapReservation) : Prop where
  total : mdsc.Balanced
  reserved : (∀ reservation ∈ ctxs, reservation.filling = none) →
    mdsc.capsReserveCount = (ctxs.map CapReservation.count).sum
  list : mdsc.capsList.length = mdsc.capsReserveCount + mdsc.capsAvailCount
  counts : 0 ≤ mdsc.capsTotalCount ∧ 0 ≤ mdsc.capsUseCount ∧ 0 ≤ mdsc.capsReserveCount ∧
    0 ≤ mdsc.capsAvailCount ∧ 0 ≤ mdsc.capsMinCount
  ctxs : ∀ reservation ∈ ctxs, 0 ≤ reservation.count

theorem Accounted.sound (accounted : Accounted pool) : pool.mdsc.Sound pool.ctxs := by
  have total := accounted.total
  have use := accounted.use
  have reserved := accounted.reserved
  have avail := accounted.avail
  have nonneg := sum_share_nonneg accounted.ctxs
  unfold MdsClient.Balanced at total
  refine ⟨accounted.total, ?_, accounted.list, ⟨by lia, by omega, by omega, avail, accounted.min⟩, ?_⟩
  · intro idle
    rw [reserved]
    congr 1
    apply map_congr_left
    intro reservation member
    rw [CapReservation.share, idle reservation member]
  · intro reservation member
    exact (accounted.ctxs reservation member).count

/-- In every run whose reservations get all they allocate, the accounts hold
and no `BUG_ON` can fire next. -/
theorem reservations_sound
    (reached : Reached PoolCall.run (fun call pool => call.Proper pool ∧ call.Granted pool) .init pool) :
    pool.mdsc.Sound pool.ctxs ∧ ∀ call : PoolCall, call.Proper pool → Returns (call.run pool) fun _ => True := by
  have accounted := reached.holds pool_keeps init_accounted
  exact ⟨accounted.sound, fun call proper => proper_runs accounted proper⟩

end

def CapPool.filled : CapPool where
  mdsc :=
    { capsTotalCount := 1, capsUseCount := 0, capsReserveCount := 1, capsAvailCount := 0, capsMinCount := 0,
      capsList := [4096] }
  ctxs := [{ count := 1, filling := none }]
  used := []

theorem reservations_sound_filled : CapPool.filled.mdsc.Sound CapPool.filled.ctxs ∧
    ∀ call : PoolCall, call.Proper .filled → Returns (call.run .filled) fun _ => True := by
  apply reservations_sound
  refine ((Reached.start.next .newContext ⟨trivial, trivial⟩ rfl).next (.reserve 0 1) ⟨⟨rfl, by decide⟩, trivial⟩
    rfl).next (.fill 0 fun _ => some 4096) ⟨⟨0, 1, rfl⟩, ?_⟩ rfl
  simp [PoolCall.Granted]

/-- A context counts the capability that could not be allocated for it, and
giving it back is a `BUG_ON`. -/
theorem reservations_unsound : ¬ ∀ pool : CapPool, Reached PoolCall.run PoolCall.Proper .init pool →
    pool.mdsc.Sound pool.ctxs ∧ ∀ call : PoolCall, call.Proper pool → Returns (call.run pool) fun _ => True := by
  intro sound
  have reached : Reached PoolCall.run PoolCall.Proper .init
      { CapPool.init with ctxs := [{ count := 1, filling := none }] } :=
    ((Reached.start.next .newContext trivial rfl).next (.reserve 0 1) ⟨rfl, by decide⟩ rfl).next
      (.fill 0 fun _ => none) ⟨0, 1, rfl⟩ rfl
  obtain ⟨after, ran, _⟩ := (sound _ reached).2 (.unreserve 0) ⟨1, rfl⟩
  cases ran

end KmodCeph.Caps
