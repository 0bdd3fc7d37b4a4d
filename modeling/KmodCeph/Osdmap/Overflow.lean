import KmodCeph.Crush.Hazards
import KmodCeph.Crush.Scratch
import KmodCeph.Osdmap.Accepted
import KmodCeph.Osdmap.Acting

namespace KmodCeph.Osdmap

open Lib List InPlace

def TreeMap.view (map : TreeMap) (crush : Crush.CrushMap) : OsdMap :=
  { fsid := map.fsid, epoch := map.epoch, created := map.created, modified := map.modified, flags := map.flags
    maxOsd := map.maxOsd, osdState := map.osdState, osdWeight := map.osdWeight, osdAddr := map.osdAddr
    pgTemp := inorder map.pgTemp, primaryTemp := inorder map.primaryTemp
    osdPrimaryAffinity := map.osdPrimaryAffinity, pgPools := inorder map.pgPools, poolMax := map.poolMax, crush }

/-- `crush_do_rule` stores its results at the start of the array. -/
def storeRaw (raw osds : List Int) : Except Fault (List Int) :=
  if raw.length ≤ osds.length then .ok (raw ++ osds.drop raw.length) else .error .outOfBounds

/-- What `ceph_calc_pg_acting` returns, with the array, or an error code; and the
primary. -/
structure Calculated where
  acting : Except Int (List Int × Nat)
  primary : Int

/-- `ceph_calc_pg_acting` on the array of its caller. -/
def TreeMap.cephCalcPgActing (map : TreeMap) (bound : Nat) (work : CrushWork) (pgid : Pg) (osds : List Int) :
    Except Fault Calculated :=
  match findPgPool map.pgPools pgid.pool with
  | none => .ok ⟨.error (-enoent), -1⟩
  | some pool =>
    match map.crush with
    -- `crush_find_rule` looks for the rules of a map that is not there
    | none => .error (.crush .nullRule)
    | some crush => do
      let pps := placementSeed pool pgid
      match ← pgToRawOsds (map.view crush) bound pool pps work with
      | .error code => .ok ⟨.error code, -1⟩
      | .ok (raw, _) => do
        let osds ← storeRaw raw osds
        let (osds, len, primary) ← InPlace.calcPgActing (map.view crush) pps pool pgid osds raw.length
        .ok ⟨.ok (osds, len), primary⟩

def TreeMap.cephCalcPgPrimary (map : TreeMap) (bound : Nat) (work : CrushWork) (pgid : Pg) : Except Fault Int :=
  (map.cephCalcPgActing bound work pgid (replicate cephPgMaxSize 0)).map (·.primary)

/-- How `__map_request` copies the acting set to `r_pg_osds`. -/
def recordActing (pgOsds : List Int) (acting : Except Int (List Int × Nat)) : Except Fault (List Int × Nat) :=
  match acting with
  | .error _ => .ok (pgOsds, 0)
  | .ok (osds, num) =>
    if num ≤ osds.length ∧ num ≤ pgOsds.length then .ok (osds.take num ++ pgOsds.drop num, num)
    else .error .outOfBounds

/-- The acting set as `__map_request` asks for it and keeps it. -/
def TreeMap.mapActing (map : TreeMap) (bound : Nat) (work : CrushWork) (pgid : Pg) (osds pgOsds : List Int) :
    Except Fault (List Int × Nat) := do
  let calculated ← map.cephCalcPgActing bound work pgid osds
  recordActing pgOsds calculated.acting

/-- The calculation comes to the mappings of the placement group. -/
def TreeMap.Comes (map : TreeMap) (bound : Nat) (work : CrushWork) (pgid : Pg) (pool : PgPoolInfo)
    (crush : Crush.CrushMap) : Prop :=
  findPgPool map.pgPools pgid.pool = some pool ∧ map.crush = some crush ∧
    (pool.type = cephPoolTypeRep ∨ pool.type = cephPoolTypeEc) ∧
    ∃ raw, pgToRawOsds (map.view crush) bound pool (placementSeed pool pgid) work = .ok (.ok raw)

section

variable {map : TreeMap} {crush : Crush.CrushMap}

theorem TreeMap.Shaped.sized (shaped : map.Shaped) : (map.view crush).Sized :=
  ⟨shaped.small, shaped.states, shaped.affinities⟩

variable {osdmap : OsdMap} {pool : PgPoolInfo}

theorem InPlace.copyTemp_length {temp osds out : List Int} {tempLen len : Nat}
    (ran : InPlace.copyTemp osdmap pool temp osds tempLen = .ok (out, len)) : out.length = osds.length := by
  induction temp generalizing osds tempLen with
  | nil =>
    cases ran
    rfl
  | cons osd temp ih =>
    have stored : ∀ {value after}, writeAt Fault.outOfBounds osds tempLen value = .ok after →
        after.length = osds.length := by
      intro value after wrote
      unfold writeAt at wrote
      split at wrote
      · cases wrote
        exact length_set
      · cases wrote
    rw [copyTemp] at ran
    obtain ⟨down, -, ran⟩ := ok_of_bind ran
    split at ran
    · obtain ⟨shift, -, ran⟩ := ok_of_bind ran
      split at ran
      · exact ih ran
      · obtain ⟨after, wrote, ran⟩ := ok_of_bind ran
        exact (ih ran).trans (stored wrote)
    · obtain ⟨after, wrote, ran⟩ := ok_of_bind ran
      exact (ih ran).trans (stored wrote)

/-- After CRUSH the array is long enough exactly if a `pg_temp` entry fits it. -/
theorem InPlace.calcPgActing_fits (sized : osdmap.Sized)
    (known : pool.type = cephPoolTypeRep ∨ pool.type = cephPoolTypeEc) (pgid : Pg) (pps : UInt32) (raw back : List Int)
    (room : (raw ++ back).length = cephPgMaxSize) :
    (TempFits osdmap pool pgid → ∃ osds len primary,
      InPlace.calcPgActing osdmap pps pool pgid (raw ++ back) raw.length = .ok (osds, len, primary) ∧
        len ≤ cephPgMaxSize ∧ osds.length = cephPgMaxSize) ∧
    (¬ TempFits osdmap pool pgid →
      InPlace.calcPgActing osdmap pps pool pgid (raw ++ back) raw.length = .error .outOfBounds) := by
  obtain ⟨spare, length, first⟩ := rawToUpOsds_eq sized known raw back
  have second := @applyPrimaryAffinity_eq osdmap pool pps (upSet osdmap pool raw) sized known (upSet_cleared raw)
    (upSet_whole raw) spare _ rfl
  rw [upSet_filter sized] at second
  have kept : (reordered pool (osdmap.choice pps (raw.filter osdmap.isUp)) (upSet osdmap pool raw)).length =
      (upSet osdmap pool raw).length := reordered_length raw choice_chooses
  have total : (reordered pool (osdmap.choice pps (raw.filter osdmap.isUp)) (upSet osdmap pool raw) ++ spare).length =
      cephPgMaxSize := by
    rw [length_append, kept, ← length_append, length, room]
  unfold InPlace.calcPgActing InPlace.applyTemps TempFits
  simp only [first, second, bind, Except.bind]
  cases entry : lookupPgMapping osdmap.pgTemp
      { pgid with seed := cephStableMod pgid.seed pool.pgNum pool.pgNumMask } with
  | none =>
    refine ⟨fun _ => ⟨_, _, _, rfl, ?_, total⟩, fun exceeds => absurd (fun temp found => ?_) exceeds⟩
    · rw [length_append, kept] at total
      lia
    · cases found
  | some temp =>
    simp only
    by_cases fits : (upSet osdmap pool temp).length ≤ cephPgMaxSize
    · obtain ⟨rest, ran⟩ := copyTemp_fits sized known temp [] _ (fits.trans_eq total.symm)
      simp only [nil_append, length_nil, Nat.zero_add] at ran
      have whole := copyTemp_length ran
      refine ⟨fun _ => ?_, fun exceeds => absurd (fun other found => ?_) exceeds⟩
      · rw [ran]
        exact ⟨_, _, _, rfl, fits, whole.trans total⟩
      · cases found
        exact fits
    · have ran := copyTemp_overflows sized known temp []
        (reordered pool (osdmap.choice pps (raw.filter osdmap.isUp)) (upSet osdmap pool raw) ++ spare) (by lia)
      simp only [nil_append, length_nil] at ran
      rw [ran]
      exact ⟨fun all => absurd (all temp rfl) fits, fun _ => rfl⟩

theorem InPlace.calcPgActing_unknown (unknown : ¬ (pool.type = cephPoolTypeRep ∨ pool.type = cephPoolTypeEc)) (pgid : Pg)
    (pps : UInt32) (osds : List Int) (len : Nat) : InPlace.calcPgActing osdmap pps pool pgid osds len = .error .bug := by
  rw [not_or] at unknown
  have shift : cephCanShiftOsds pool = .error .bug := by
    unfold cephCanShiftOsds
    rw [if_neg unknown.1, if_neg unknown.2]
  unfold InPlace.calcPgActing InPlace.rawToUpOsds
  rw [shift]
  rfl

/-- CRUSH finds no more osds than the array takes. -/
theorem doCrush_fits {bound : Nat} {ruleno : Int} {x : UInt32} {resultMax : Nat} {work : CrushWork}
    (scratch : work.scratch.length = 3 * cephPgMaxSize) :
    Avoids (· = .outOfBounds) (doCrush osdmap bound ruleno x resultMax work) fun raw => raw.1.length ≤ cephPgMaxSize := by
  unfold doCrush
  split
  · exact Avoids.stop nofun
  · next few =>
      dsimp only
      generalize input : Crush.RuleInput.mk osdmap.crush x resultMax osdmap.osdWeight osdmap.maxOsd.toInt32.toInt = rule
      cases ruled : Crush.crushDoRule rule bound ruleno work.scratch work.perms with
      | error fault => exact Avoids.stop nofun
      | ok result =>
        have most : rule.resultMax ≤ cephPgMaxSize := by
          rw [← input]
          exact Nat.not_lt.mp few
        have space : 3 * rule.resultMax ≤ work.scratch.length := by omega
        have positive : 0 < work.scratch.length := by
          rw [scratch]
          decide
        have bounded := ((@Crush.crushDoRule_avoids .nothing rule bound ruleno work.scratch work.perms space positive
          nofun).ok ruled).1
        exact Avoids.pure (bounded.trans most)

theorem pgToRawOsds_fits {bound : Nat} {pps : UInt32} {work : CrushWork} (scratch : work.scratch.length = 3 * cephPgMaxSize) :
    Avoids (· = .outOfBounds) (pgToRawOsds osdmap bound pool pps work) fun found =>
      ∀ raw, found = .ok raw → raw.1.length ≤ cephPgMaxSize := by
  unfold pgToRawOsds
  dsimp only
  split
  · exact Avoids.pure nofun
  · refine Avoids.map ((doCrush_fits scratch).mono fun raw few other same => ?_)
    cases same
    exact few

variable {bound : Nat} {work : CrushWork} {pgid : Pg} {osds pgOsds : List Int}

def TreeMap.TempsFit (map : TreeMap) (bound : Nat) (work : CrushWork) (pgid : Pg) : Prop :=
  ∀ pool crush, map.Comes bound work pgid pool crush → TempFits (map.view crush) pool pgid

theorem storeRaw_room {raw : List Int × Crush.Perms}
    (scratch : work.scratch.length = 3 * cephPgMaxSize) (array : osds.length = cephPgMaxSize)
    (drawn : pgToRawOsds (map.view crush) bound pool (placementSeed pool pgid) work = .ok (.ok raw)) :
    storeRaw raw.1 osds = .ok (raw.1 ++ osds.drop raw.1.length) ∧
      (raw.1 ++ osds.drop raw.1.length).length = cephPgMaxSize := by
  have short := (pgToRawOsds_fits scratch).ok drawn raw rfl
  refine ⟨if_pos (by omega), ?_⟩
  rw [length_append, length_drop]
  lia

theorem cephCalcPgActing_fits (shaped : map.Shaped) (scratch : work.scratch.length = 3 * cephPgMaxSize)
    (array : osds.length = cephPgMaxSize) (fit : map.TempsFit bound work pgid) :
    Avoids (· = .outOfBounds) (map.cephCalcPgActing bound work pgid osds) fun calculated =>
      ∀ acting, calculated.acting = .ok acting → acting.2 ≤ cephPgMaxSize ∧ acting.1.length = cephPgMaxSize := by
  unfold TreeMap.cephCalcPgActing
  cases found : findPgPool map.pgPools pgid.pool with
  | none => exact Avoids.pure nofun
  | some pool =>
    cases there : map.crush with
    | none => exact Avoids.stop nofun
    | some crush =>
      have few := @pgToRawOsds_fits (map.view crush) pool bound (placementSeed pool pgid) work scratch
      simp only
      cases drawn : pgToRawOsds (map.view crush) bound pool (placementSeed pool pgid) work with
      | error fault =>
        rw [drawn] at few
        exact Avoids.stop few
      | ok outcome =>
        cases outcome with
        | error code => exact Avoids.pure nofun
        | ok raw =>
          obtain ⟨stored, room⟩ := storeRaw_room scratch array drawn
          simp only [bind, Except.bind, stored]
          by_cases known : pool.type = cephPoolTypeRep ∨ pool.type = cephPoolTypeEc
          · obtain ⟨acting, len, primary, ran, most, length⟩ := (calcPgActing_fits shaped.sized known pgid
              (placementSeed pool pgid) raw.1 (osds.drop raw.1.length) room).1
              (fit pool crush ⟨found, there, known, raw, drawn⟩)
            rw [ran]
            refine Avoids.pure fun other same => ?_
            cases same
            exact ⟨most, length⟩
          · rw [calcPgActing_unknown known]
            exact Avoids.stop nofun

theorem cephCalcPgActing_overruns (shaped : map.Shaped) (scratch : work.scratch.length = 3 * cephPgMaxSize)
    (array : osds.length = cephPgMaxSize) (exceeds : ¬ map.TempsFit bound work pgid) :
    map.cephCalcPgActing bound work pgid osds = .error .outOfBounds := by
  unfold TreeMap.TempsFit at exceeds
  push Not at exceeds
  obtain ⟨pool, crush, ⟨found, there, known, raw, drawn⟩, exceeds⟩ := exceeds
  obtain ⟨stored, room⟩ := storeRaw_room scratch array drawn
  have overruns := (calcPgActing_fits shaped.sized known pgid (placementSeed pool pgid) raw.1
    (osds.drop raw.1.length) room).2 exceeds
  unfold TreeMap.cephCalcPgActing
  simp only [found, there, drawn, bind, Except.bind, stored, overruns]

theorem recordActing_fits {acting : Except Int (List Int × Nat)} (request : pgOsds.length = cephPgMaxSize)
    (fits : ∀ result, acting = .ok result → result.2 ≤ cephPgMaxSize ∧ result.1.length = cephPgMaxSize) :
    Avoids (· = .outOfBounds) (recordActing pgOsds acting) fun recorded =>
      recorded.2 ≤ cephPgMaxSize ∧ recorded.1.length = cephPgMaxSize := by
  cases acting with
  | error code => exact Avoids.pure ⟨Nat.zero_le _, request⟩
  | ok result =>
    obtain ⟨most, length⟩ := fits result rfl
    have copied : recordActing pgOsds (.ok result) = .ok (result.1.take result.2 ++ pgOsds.drop result.2, result.2) :=
      if_pos ⟨by omega, by omega⟩
    rw [copied]
    refine Avoids.pure ⟨most, ?_⟩
    rw [length_append, List.length_take, length_drop]
    lia

end

/-- For every map that is decoded and every placement group, what
`ceph_calc_pg_acting` stores and returns fits the arrays of its callers, and what
is copied of it fits the request, exactly if the `pg_temp` entry that it comes to
does not list more osds than that. -/
theorem mapActing_fits (balancings : Balancings) (map : TreeMap) (accepted : Accepted balancings map) (bound : Nat)
    (work : CrushWork) (scratch : work.scratch.length = 3 * cephPgMaxSize) (pgid : Pg) (osds pgOsds : List Int)
    (array : osds.length = cephPgMaxSize) (request : pgOsds.length = cephPgMaxSize) :
    (Avoids (· = .outOfBounds) (map.mapActing bound work pgid osds pgOsds) (fun recorded =>
        recorded.2 ≤ cephPgMaxSize ∧ recorded.1.length = cephPgMaxSize) ∧
      Avoids (· = .outOfBounds) (map.cephCalcPgPrimary bound work pgid) fun _ => True) ↔
      map.TempsFit bound work pgid := by
  refine ⟨fun holds => ?_, fun fit => ⟨?_, ?_⟩⟩
  · by_contra exceeds
    have overruns := @cephCalcPgActing_overruns map bound work pgid osds accepted.shaped scratch array exceeds
    have halted : map.mapActing bound work pgid osds pgOsds = .error .outOfBounds := by
      unfold TreeMap.mapActing
      rw [overruns]
      rfl
    exact holds.1.error halted rfl
  · exact Avoids.bind _ (cephCalcPgActing_fits accepted.shaped scratch array fit) fun calculated fits =>
      recordActing_fits request fits
  · exact Avoids.map ((cephCalcPgActing_fits accepted.shaped scratch length_replicate fit).mono fun _ _ => trivial)

def onePool : List UInt8 :=
  leBytes 4 1 ++ leBytes 8 3 ++ [5, 5] ++ leBytes 4 64 ++ [1, 1, 0, 0] ++ leBytes 4 1 ++ leBytes 4 1 ++ replicate 52 0

def oneRule : List UInt8 :=
  leBytes 4 0x10000 ++ leBytes 4 0 ++ leBytes 4 1 ++ leBytes 4 0 ++ leBytes 4 1 ++ leBytes 4 0 ++ [0, 1, 0, 16]

def repeatedTemp (count : Nat) : List UInt8 :=
  leBytes 4 1 ++ [1] ++ leBytes 8 3 ++ leBytes 4 0 ++ leBytes 4 0 ++ leBytes 4 count ++ replicate (count * 4) 0

def tempMap (count : Nat) : TreeMap := mapOf (fullMessage onePool 3 (repeatedTemp count) oneRule)

def freshWork : CrushWork := ⟨replicate 48 0, fun _ => { permX := 0, permN := 0, perm := [] }⟩

theorem mapActing_fits_two :
    (Avoids (· = .outOfBounds) ((tempMap 2).mapActing 9 freshWork ⟨3, 0⟩ (replicate 16 0) (replicate 16 0))
        (fun recorded => recorded.2 ≤ cephPgMaxSize ∧ recorded.1.length = cephPgMaxSize) ∧
      Avoids (· = .outOfBounds) ((tempMap 2).cephCalcPgPrimary 9 freshWork ⟨3, 0⟩) fun _ => True) ↔
      (tempMap 2).TempsFit 9 freshWork ⟨3, 0⟩ :=
  mapActing_fits .small (tempMap 2) (mapOf_accepted (by decide +kernel)) 9 freshWork rfl ⟨3, 0⟩ (replicate 16 0)
    (replicate 16 0) rfl rfl

/-- A `pg_temp` entry of seventeen osds overruns the array. -/
theorem mapActing_overruns : ¬ ∀ (balancings : Balancings) (map : TreeMap), Accepted balancings map →
    ∀ (bound : Nat) (work : CrushWork), work.scratch.length = 3 * cephPgMaxSize → ∀ (pgid : Pg) (osds pgOsds : List Int),
      osds.length = cephPgMaxSize → pgOsds.length = cephPgMaxSize →
      Avoids (· = .outOfBounds) (map.mapActing bound work pgid osds pgOsds) (fun recorded =>
        recorded.2 ≤ cephPgMaxSize ∧ recorded.1.length = cephPgMaxSize) ∧
      Avoids (· = .outOfBounds) (map.cephCalcPgPrimary bound work pgid) fun _ => True := by
  intro claim
  have overruns : (tempMap 17).mapActing 9 freshWork ⟨3, 0⟩ (replicate 16 0) (replicate 16 0) =
      .error .outOfBounds := by
    decide +kernel
  have accepted : Accepted .small (tempMap 17) := mapOf_accepted (by decide +kernel)
  have both := claim .small (tempMap 17) accepted 9 freshWork rfl ⟨3, 0⟩ (replicate 16 0) (replicate 16 0) rfl rfl
  rw [overruns] at both
  exact And.left both rfl

end KmodCeph.Osdmap
