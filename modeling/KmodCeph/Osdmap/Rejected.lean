import KmodCeph.Crush.Bounds
import KmodCeph.Osdmap.Epochs
import KmodCeph.Osdmap.UpState

namespace KmodCeph.Osdmap

open Lib

/-- `osdmap_set_max_osd` fails, and the arrays it has replaced by then lost nothing. -/
def SetMaxOsdIdle (max : UInt32) (map : TreeMap) (allocs : List Bool) : Prop :=
  allocs.getD 0 true = true → map.osdState.length ≤ max.toNat ∧
    (allocs.getD 1 true = true → map.osdWeight.length ≤ max.toNat ∧
      (allocs.getD 2 true = true → map.osdAddr.length ≤ max.toNat ∧
        map.osdPrimaryAffinity.isSome ∧ allocs.getD 3 true = false))

/-- The flags and the pool maximum of an incremental that come to nothing or are those of the map. -/
structure IncrementalHead.Idle (head : IncrementalHead) (map : TreeMap) : Prop where
  flags : 0 ≤ head.newFlags.toInt32.toInt → head.newFlags = map.flags
  poolMax : 0 ≤ head.newPoolMax.toInt64.toInt → head.newPoolMax.toUInt32 = map.poolMax

/-- What follows the flags and the pool maximum ends the decoder, and the arrays lose nothing. -/
def MaxOsdIdle (region : Region) (map : TreeMap) (state : Reading MapNote TreeMap) : Prop :=
  match needFetch32 region state with
  | .error _ _ => True
  | .ok max third => 0 ≤ max.toInt32.toInt ∧ SetMaxOsdIdle max map third.allocs

/-- The message ends the decoder before the map has its new epoch, and nothing is new in what is stored till then. -/
def EndsIdle (region : Region) (start : Reading MapNote TreeMap) : Prop :=
  match incrementalHead region start with
  | .error _ _ => True
  | .ok head first =>
    if head.len.toInt32.toInt > 0 then True
    else match decodeNewCrush region first with
      | .error _ _ => True
      | .ok _ second =>
        head.Idle start.data ∧ MaxOsdIdle region start.data second

section

variable {balancings : Balancings} {region : Region} {α : Type} {program : MapDecoder α}

theorem still (makes : Makes balancings (fun _ => False) program) (state : Reading MapNote TreeMap) :
    Triple program state (fun _ after => after.data = state.data) fun _ after => after.data = state.data := by
  have same {after : Reading MapNote TreeMap}
      (recorded : Recorded (MapNote.apply balancings) (Within fun _ => False) state after) :
        after.data = state.data := by
    refine @Recorded.preserves _ _ _ _ _ _ (fun map => map = state.data) recorded (fun entry map allowed kept => ?_) rfl
    cases entry with
    | update change => exact allowed.elim
    | pool | state | osd | temp | epoch => exact kept
  exact (makes state).mono (fun _ _ recorded => same recorded) fun _ _ recorded => same recorded

variable {β : Type} {state : Reading MapNote TreeMap} {stop : Stop → Reading MapNote TreeMap → Prop}
variable {next : PUnit → MapDecoder β} {post : β → Reading MapNote TreeMap → Prop}

theorem allocate_then {code : Int} {size : Nat} (small : size < 2 ^ 63)
    (succeeds : state.allocs.getD 0 true = true → Triple (next ⟨⟩) { state with allocs := state.allocs.tail } post stop)
    (fails : state.allocs.getD 0 true = false → stop (.error code) { state with allocs := state.allocs.tail }) :
    Triple (allocate code size >>= next) state post stop := by
  have first : state.allocs.headD true = state.allocs.getD 0 true := by
    cases state.allocs <;> rfl
  refine Triple.bind (fun _ after => state.allocs.getD 0 true = true ∧
    after = { state with allocs := state.allocs.tail }) ?_
    fun _ after kept => kept.2 ▸ succeeds kept.1
  unfold Triple allocate
  rw [first]
  cases outcome : state.allocs.getD 0 true with
  | true =>
    rw [if_pos ⟨small, rfl⟩]
    exact ⟨rfl, rfl⟩
  | false =>
    rw [if_neg (by simp)]
    exact fails outcome

theorem record_then {change : Update} (continues : Triple (next ⟨⟩)
      { state with trail := .update change :: state.trail, data := change.apply balancings state.data } post stop) :
    Triple (record balancings change >>= next) state post stop :=
  continues

theorem sizeOfInt_of_small {max : UInt32} (small : max.toNat < 2 ^ 31) : Crush.sizeOfInt max = max.toNat := by
  change (max.toBitVec.signExtend 64).toNat = max.toBitVec.toNat
  have sign : max.toBitVec.msb = false := by
    rw [BitVec.msb_eq_false_iff_two_mul_lt]
    change 2 * max.toNat < 2 ^ 32
    omega
  rw [BitVec.toNat_signExtend, sign, BitVec.toNat_setWidth]
  rw [Nat.mod_eq_of_lt (by omega)]
  simp

section

variable {map : TreeMap} {max : UInt32}

theorem resizeState_idle : (Update.resizeState max).apply balancings map = map ↔ map.osdState.length ≤ max.toNat := by
  refine ⟨fun same => (List.take_eq_self_iff _).mp (congrArg TreeMap.osdState same), fun long => ?_⟩
  exact congrArg (fun states => { map with osdState := states }) (List.take_of_length_le long)

theorem resizeWeight_idle :
    (Update.resizeWeight max).apply balancings ((Update.resizeState max).apply balancings map) = map ↔
    map.osdState.length ≤ max.toNat ∧ map.osdWeight.length ≤ max.toNat := by
  refine ⟨fun same => ⟨(List.take_eq_self_iff _).mp (congrArg TreeMap.osdState same),
    (List.take_eq_self_iff _).mp (congrArg TreeMap.osdWeight same)⟩, fun long => ?_⟩
  rw [resizeState_idle.mpr long.1]
  exact congrArg (fun weights => { map with osdWeight := weights }) (List.take_of_length_le long.2)

theorem resizeAddr_idle : (Update.resizeAddr max).apply balancings ((Update.resizeWeight max).apply balancings
      ((Update.resizeState max).apply balancings map)) = map ↔
    map.osdState.length ≤ max.toNat ∧ map.osdWeight.length ≤ max.toNat ∧ map.osdAddr.length ≤ max.toNat := by
  refine ⟨fun same => ⟨(List.take_eq_self_iff _).mp (congrArg TreeMap.osdState same),
    (List.take_eq_self_iff _).mp (congrArg TreeMap.osdWeight same),
    (List.take_eq_self_iff _).mp (congrArg TreeMap.osdAddr same)⟩, fun long => ?_⟩
  rw [resizeWeight_idle.mpr ⟨long.1, long.2.1⟩]
  exact congrArg (fun addrs => { map with osdAddr := addrs }) (List.take_of_length_le long.2.2)

end

/-- Where `osdmap_set_max_osd` fails, the map is as before exactly if the arrays lose nothing. -/
theorem osdmapSetMaxOsd_idle {max : UInt32} (small : max.toNat < 2 ^ 31) (state : Reading MapNote TreeMap) :
    Triple (osdmapSetMaxOsd balancings max) state (fun _ _ => ¬SetMaxOsdIdle max state.data state.allocs)
      fun _ after => after.data = state.data ↔ SetMaxOsdIdle max state.data state.allocs := by
  have size := sizeOfInt_of_small small
  have later (index : Nat) (allocs : List Bool) : allocs.tail.getD index true = allocs.getD (index + 1) true := by
    cases allocs <;> rfl
  have addrs : Crush.sizeOfInt max * sizeofCephEntityAddr < 2 ^ 63 := by
    unfold sizeofCephEntityAddr
    omega
  unfold osdmapSetMaxOsd SetMaxOsdIdle
  refine allocate_then (by omega) (fun first => record_then ?_) fun failed => ?_
  · rw [first]
    refine allocate_then (by lia) (fun second => record_then ?_) fun failed => ?_
    · rw [later] at second
      rw [second]
      refine allocate_then ((Nat.mod_le _ _).trans_lt addrs) (fun third => record_then ?_) fun failed => ?_
      · rw [later, later] at third
        rw [third]
        refine Triple.bind (fun _ _ => state.data.osdPrimaryAffinity.isSome → state.allocs.getD 3 true = true) ?_
          fun _ _ ended => ?_
        · refine Triple.read ?_
          unfold onlyIf
          split
          next table =>
            have present : state.data.osdPrimaryAffinity.isSome := table
            refine allocate_then (by lia) (fun fourth => ?_) fun failed => ?_
            · rw [later, later, later] at fourth
              exact Triple.modify fun _ => fourth
            · rw [later, later, later] at failed
              rw [present, failed]
              exact (@resizeAddr_idle balancings state.data max).trans (by simp)
          next absent => exact Triple.pure fun present => absurd present absent
        · refine Triple.modify fun idle => ?_
          obtain ⟨-, idle⟩ := idle rfl
          obtain ⟨-, idle⟩ := idle rfl
          obtain ⟨-, present, failed⟩ := idle rfl
          rw [ended present] at failed
          cases failed
      · rw [later, later] at failed
        rw [failed]
        exact (@resizeWeight_idle balancings state.data max).trans (by simp)
    · rw [later] at failed
      rw [failed]
      exact (@resizeState_idle balancings state.data max).trans (by simp)
  · rw [failed]
    exact ⟨fun _ => nofun, fun _ => rfl⟩

def IncrementalHead.stored (head : IncrementalHead) (map : TreeMap) : TreeMap :=
  { map with
    flags := if 0 ≤ head.newFlags.toInt32.toInt then head.newFlags else map.flags
    poolMax := if 0 ≤ head.newPoolMax.toInt64.toInt then head.newPoolMax.toUInt32 else map.poolMax }

theorem IncrementalHead.stored_idle {head : IncrementalHead} {map : TreeMap} : head.stored map = map ↔
    head.Idle map := by
  constructor
  · intro same
    have flags := congrArg TreeMap.flags same
    have poolMax := congrArg TreeMap.poolMax same
    refine ⟨fun named => ?_, fun named => ?_⟩
    · rw [← flags, stored, if_pos named]
    · rw [← poolMax, stored, if_pos named]
  · intro idle
    have flags : (if 0 ≤ head.newFlags.toInt32.toInt then head.newFlags else map.flags) = map.flags := by
      split
      next named => exact idle.flags named
      next => rfl
    have poolMax : (if 0 ≤ head.newPoolMax.toInt64.toInt then head.newPoolMax.toUInt32 else map.poolMax) = map.poolMax := by
      split
      next named => exact idle.poolMax named
      next => rfl
    rw [stored, flags, poolMax]

theorem needFetch32_run (state : Reading MapNote TreeMap) : needFetch32 region state =
    if region.hasRoom state.pos 4 then
      if 0 ≤ state.pos ∧ state.pos + 4 ≤ region.memory.length then
        .ok (UInt32.ofNat (leValue ((region.memory.drop state.pos.toNat).take 4))) { state with pos := state.pos + 4 }
      else .error (.damage .read) state
    else .error (.error (-einval)) state := by
  by_cases room : region.hasRoom state.pos 4
  · have checked : need region (-einval) 4 state = .ok ⟨⟩ state := if_pos room
    rw [if_pos room, needFetch32, bind_of_ok checked]
    by_cases inside : 0 ≤ state.pos ∧ state.pos + 4 ≤ region.memory.length
    · have fetched : fetch region 4 state = .ok ((region.memory.drop state.pos.toNat).take 4)
        { state with pos := state.pos + 4 } :=
        if_pos inside
      rw [if_pos inside, fetch32, bind_of_ok fetched]
      rfl
    · have missing : fetch region 4 state = .error (.damage .read) state := if_neg inside
      rw [if_neg inside, fetch32, bind_of_error missing]
  · have checked : need region (-einval) 4 state = .error (.error (-einval)) state := if_neg room
    rw [if_neg room, needFetch32, bind_of_error checked]

theorem osdmapSetMaxOsd_frame {max : UInt32} (state : Reading MapNote TreeMap) :
    Triple (osdmapSetMaxOsd balancings max) state (fun _ _ => True)
      fun _ after => after.data.flags = state.data.flags ∧ after.data.poolMax = state.data.poolMax := by
  refine (osdmapSetMaxOsd_makes state : Triple _ _ _ _).mono (fun _ _ _ => trivial) fun _ after recorded => ?_
  refine @Recorded.preserves _ _ (MapNote.apply balancings) _ _ _
    (fun map => map.flags = state.data.flags ∧ map.poolMax = state.data.poolMax) recorded
      (fun entry map resizes kept => ?_)
    ⟨rfl, rfl⟩
  cases entry with
  | update change =>
    cases change with
    | resizeState | resizeWeight | resizeAddr | resizeAffinity | maxOsd => exact kept
    | _ => exact False.elim resizes
  | pool | state | osd | temp | epoch => exact kept

def newMaxOsd (balancings : Balancings) (region : Region) : MapDecoder PUnit := do
  let max ← needFetch32 region
  onlyIf (max.toInt32.toInt ≥ 0) (osdmapSetMaxOsd balancings max)

theorem decodeNewSizes_stored (head : IncrementalHead) (state : Reading MapNote TreeMap) :
    ∃ trail, decodeNewSizes balancings region head.newPoolMax head.newFlags state =
      newMaxOsd balancings region { state with trail, data := head.stored state.data } := by
  unfold decodeNewSizes onlyIf IncrementalHead.stored
  by_cases flags : 0 ≤ head.newFlags.toInt32.toInt
  · by_cases poolMax : 0 ≤ head.newPoolMax.toInt64.toInt
    · exact ⟨_, by simp only [flags, poolMax, ge_iff_le, decide_true, if_true]; rfl⟩
    · exact ⟨_, by simp only [flags, poolMax, ge_iff_le, decide_true, decide_false, if_true, if_false]; rfl⟩
  · by_cases poolMax : 0 ≤ head.newPoolMax.toInt64.toInt
    · exact ⟨_, by simp only [flags, poolMax, ge_iff_le, decide_true, decide_false, if_true, if_false]; rfl⟩
    · exact ⟨_, by simp only [flags, poolMax, ge_iff_le, decide_false, if_false]; rfl⟩

theorem newMaxOsd_idle (map : TreeMap) (trail : List MapNote) (state : Reading MapNote TreeMap) :
    Triple (newMaxOsd balancings region) { state with trail, data := map } (fun _ _ => ¬MaxOsdIdle region map state)
      fun stop after => (∃ code, stop = .error code) → (after.data = map ↔ MaxOsdIdle region map state) ∧
        after.data.flags = map.flags ∧ after.data.poolMax = map.poolMax := by
  have here := @needFetch32_run region state
  have there := @needFetch32_run region { state with trail, data := map }
  unfold MaxOsdIdle
  by_cases room : region.hasRoom state.pos 4
  · rw [if_pos room] at here there
    by_cases inside : 0 ≤ state.pos ∧ state.pos + 4 ≤ region.memory.length
    · rw [if_pos inside] at here there
      rw [here]
      unfold Triple newMaxOsd
      rw [bind_of_ok there]
      generalize UInt32.ofNat (leValue ((region.memory.drop state.pos.toNat).take 4)) = max
      change Triple (onlyIf _ _) _ _ _
      unfold onlyIf
      split
      next named =>
        have signed : 0 ≤ max.toInt32.toInt := by simpa using named
        have small : max.toNat < 2 ^ 31 := (Crush.toInt32_nonneg_iff max).mp signed
        refine ((osdmapSetMaxOsd_idle small _).both (osdmapSetMaxOsd_frame _)).mono (fun _ _ done => ?_)
          fun _ after failed _ => ?_
        · exact fun idle => done.1 idle.2
        · exact ⟨failed.1.trans (by simp [signed]), failed.2⟩
      next negative => exact Triple.pure fun idle => negative (by simpa using idle.1)
    · rw [if_neg inside] at here there
      rw [here]
      unfold Triple newMaxOsd
      rw [bind_of_error there]
      exact fun code => nomatch code
  · rw [if_neg room] at here there
    rw [here]
    unfold Triple newMaxOsd
    rw [bind_of_error there]
    exact fun _ => ⟨⟨fun _ => trivial, fun _ => rfl⟩, rfl, rfl⟩

theorem decodeNewSizes_idle (head : IncrementalHead) (state : Reading MapNote TreeMap) :
    Triple (decodeNewSizes balancings region head.newPoolMax head.newFlags) state
      (fun _ _ => ¬MaxOsdIdle region state.data state)
      fun stop after => (∃ code, stop = .error code) →
        (after.data = state.data ↔ head.Idle state.data ∧ MaxOsdIdle region state.data state) := by
  obtain ⟨trail, stored⟩ := @decodeNewSizes_stored balancings region head state
  have same : MaxOsdIdle region (head.stored state.data) state ↔ MaxOsdIdle region state.data state := Iff.rfl
  unfold Triple
  rw [stored]
  refine (newMaxOsd_idle (head.stored state.data) trail state).mono (fun _ _ done => done)
    fun stop after failed coded => ?_
  obtain ⟨idle, flags, poolMax⟩ := failed coded
  rw [← IncrementalHead.stored_idle, ← same, ← idle]
  constructor
  · intro unchanged
    have storedSame : head.stored state.data = state.data := by
      rw [unchanged] at flags poolMax
      exact congrArg₂ (fun flags poolMax => { state.data with flags, poolMax }) flags.symm poolMax.symm
    exact ⟨storedSame, unchanged.trans storedSame.symm⟩
  · intro both
    exact both.2.trans both.1

/-- A rejected incremental leaves the map as it was exactly if it ends before the new epoch and has stored nothing new. -/
theorem rejected_incremental (balancings : Balancings) (map : TreeMap) (region : Region) (pos : Int)
    (allocs : List Bool)
    (code : Int) (after : Reading MapNote TreeMap)
    (rejected : osdmapApplyIncremental balancings region (mapStart pos allocs map) = .error (.error code) after) :
    after.data = map ↔ EndsIdle region (mapStart pos allocs map) := by
  rw [osdmapApplyIncremental_eq] at rejected
  unfold EndsIdle
  cases headed : incrementalHead region (mapStart pos allocs map) with
  | error stop ended =>
    rw [bind_of_error headed] at rejected
    cases rejected
    exact iff_of_true ((still (incrementalHead_makes : Makes balancings _ _) _).error headed) trivial
  | ok head first =>
    have untouched : first.data = map := (still (incrementalHead_makes : Makes balancings _ _) _).ok headed
    rw [bind_of_ok headed] at rejected
    dsimp only
    split at rejected
    next whole =>
      rw [if_pos whole]
      cases embedded : embeddedMap balancings region head.len.toInt32.toInt first with
      | ok other ended =>
        rw [bind_of_ok embedded] at rejected
        cases rejected
      | error stop ended =>
        rw [bind_of_error embedded] at rejected
        cases rejected
        exact iff_of_true (((still embeddedMap_makes first).error embedded).trans untouched) trivial
    next parts =>
      rw [if_neg parts]
      rw [applySections_eq, bind_assoc] at rejected
      cases crushed : decodeNewCrush region first with
      | error stop ended =>
        rw [bind_of_error crushed] at rejected
        cases rejected
        exact iff_of_true (((still
          (decodeNewCrush_makes : Makes balancings _ _) first).error crushed).trans untouched)
          trivial
      | ok newcrush second =>
        have same : second.data = map :=
          ((still (decodeNewCrush_makes : Makes balancings _ _) first).ok crushed).trans untouched
        rw [bind_of_ok crushed, bind_assoc] at rejected
        change _ ↔ head.Idle map ∧ MaxOsdIdle region map second
        rw [← same]
        cases sized : decodeNewSizes balancings region head.newPoolMax head.newFlags second with
        | error stop ended =>
          rw [bind_of_error sized] at rejected
          cases rejected
          exact (decodeNewSizes_idle head second).error sized ⟨code, rfl⟩
        | ok _ third =>
          have busy := (@decodeNewSizes_idle balancings region head second).ok sized
          have epoch : third.data.epoch = second.data.epoch := (decodeNewSizes_ageless second).ok sized
          rw [bind_of_ok sized] at rejected
          have raised := (@advanced_epoch balancings region head.structV head.modified newcrush third)
          refine iff_of_false (fun unchanged => ?_) fun idle => busy idle.2
          cases advanced : (do
              advance balancings head.modified newcrush
              laterSections balancings region head.structV : MapDecoder PUnit) third with
          | ok _ ended =>
            rw [bind_of_ok advanced] at rejected
            cases rejected
          | error stop ended =>
            rw [bind_of_error advanced] at rejected
            cases rejected
            have new := raised.error advanced
            rw [unchanged, epoch] at new
            exact absurd (UInt32.left_eq_add.mp new) (by decide)

end

def cutRegion (count : Nat) : Region := messageRegion ((incrementalMessage [] [] []).take count)

def cutOff (count : Nat) : Reading MapNote TreeMap :=
  finalState (osdmapApplyIncremental .small (cutRegion count) (mapStart 0 [] downMap))

theorem rejected_incremental_cut : (cutOff 50).data = downMap ↔ EndsIdle (cutRegion 50) (mapStart 0 [] downMap) :=
  rejected_incremental .small downMap (cutRegion 50) 0 [] (-einval) (cutOff 50)
    (eq_error_of_faultOf (by decide +kernel))

/-- Cut off at the pools it has raised the epoch. -/
theorem rejected_incremental_raised : Accepted .small downMap ∧
    osdmapApplyIncremental .small (cutRegion 54) (mapStart 0 [] downMap) = .error (.error (-einval)) (cutOff 54) ∧
    downMap.epoch = 1 ∧ (cutOff 54).data.epoch = 2 ∧
    ¬ ∀ (balancings : Balancings) (map : TreeMap) (region : Region) (pos : Int) (allocs : List Bool) (code : Int)
      (after : Reading MapNote TreeMap),
      osdmapApplyIncremental balancings region (mapStart pos allocs map) = .error (.error code) after →
      after.data = map := by
  have rejected : osdmapApplyIncremental .small (cutRegion 54) (mapStart 0 [] downMap) =
      .error (.error (-einval)) (cutOff 54) := eq_error_of_faultOf (by decide +kernel)
  have before : downMap.epoch = 1 := by decide +kernel
  have after : (cutOff 54).data.epoch = 2 := by decide +kernel
  refine ⟨downMap_accepted, rejected, before, after, fun claim => ?_⟩
  have same := claim .small downMap (cutRegion 54) 0 [] (-einval) (cutOff 54) rejected
  rw [same, before] at after
  exact absurd after (by decide)

end KmodCeph.Osdmap
