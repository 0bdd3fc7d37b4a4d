import KmodCeph.Lib.Masks
import KmodCeph.Osdmap.Epochs
import KmodCeph.Osdmap.Layout

namespace KmodCeph.Osdmap

open Lib List

def flips (states : List (UInt32 × UInt8)) (osd : UInt32) : UInt8 :=
  (states.filter (·.1 = osd)).foldl (fun state entry => state ^^^ entry.2) 0

def lastAddr (ups : List (UInt32 × List UInt8)) (osd : UInt32) : Option (List UInt8) :=
  (ups.reverse.find? (·.1 = osd)).map (·.2)

def TreeMap.stateOf (map : TreeMap) (osd : UInt32) : UInt8 := map.osdState.getD osd.toNat 0

def TreeMap.cephOsdExists (map : TreeMap) (osd : UInt32) : Prop :=
  osd < map.maxOsd ∧ map.stateOf osd &&& cephOsdExistsFlag ≠ 0

/-- An osd that is listed in `new_up` is up, at its last address, and exists as
before; the state of any other one has its entries of `new_state` in it. -/
structure UpStates (old new : TreeMap) (ups : List (UInt32 × List UInt8)) (states : List (UInt32 × UInt8)) : Prop where
  up : ∀ osd ∈ ups.map (·.1), new.stateOf osd &&& cephOsdUpFlag ≠ 0
  addr : ∀ osd ∈ ups.map (·.1), new.osdAddr[osd.toNat]? = lastAddr ups osd
  flipped : ∀ osd, osd < new.maxOsd → osd ∉ ups.map (·.1) → new.stateOf osd = old.stateOf osd ^^^ flips states osd
  kept : ∀ osd ∈ ups.map (·.1), old.cephOsdExists osd → new.cephOsdExists osd

section

variable {balancings : Balancings} {region : Region} {map : TreeMap} {osd : UInt32}

/-- The osds are marked up, one after the other. -/
def TreeMap.markUp (balancings : Balancings) (map : TreeMap) (ups : List (UInt32 × List UInt8)) : TreeMap :=
  ups.foldl (fun map entry => Update.apply balancings map (.up entry.1 entry.2)) map

/-- The states are xor-ed, one after the other, of the osds that are in the map. -/
def TreeMap.xorStates (balancings : Balancings) (map : TreeMap) (states : List (UInt32 × UInt8)) : TreeMap :=
  states.foldl
    (fun map entry => if entry.1 < map.maxOsd then Update.apply balancings map (.xorState entry.1 entry.2) else map) map

theorem Update.Plain.leaves {change : Update} (plain : change.Plain) :
    (change.apply balancings map).osdState = map.osdState ∧ (change.apply balancings map).osdAddr = map.osdAddr ∧
      (change.apply balancings map).maxOsd = map.maxOsd := by
  cases change with
  | resizeState | resizeWeight | resizeAddr | resizeAffinity | maxOsd | states | weights | addrs | up | xorState =>
    exact plain.elim
  | _ => exact ⟨rfl, rfl, rfl⟩

theorem flips_snoc {states : List (UInt32 × UInt8)} {listed : UInt32} {xorstate : UInt8} :
    flips (states ++ [(listed, xorstate)]) osd = flips states osd ^^^ if listed = osd then xorstate else 0 := by
  unfold flips
  by_cases same : listed = osd
  · simp [same]
  · simp [same]

theorem lastAddr_snoc {ups : List (UInt32 × List UInt8)} {listed : UInt32} {addr : List UInt8} :
    lastAddr (ups ++ [(listed, addr)]) osd = if listed = osd then some addr else lastAddr ups osd := by
  unfold lastAddr
  by_cases same : listed = osd
  · simp [same]
  · simp [same]

theorem markUp_spec (ups : List (UInt32 × List UInt8)) (within : osd.toNat < map.osdState.length)
    (addressed : osd.toNat < map.osdAddr.length) :
    (map.markUp balancings ups).stateOf osd =
        (map.stateOf osd ||| if osd ∈ ups.map (·.1) then cephOsdUpFlag else 0) ∧
      (map.markUp balancings ups).osdAddr[osd.toNat]? = (lastAddr ups osd).or map.osdAddr[osd.toNat]? ∧
      (map.markUp balancings ups).osdState.length = map.osdState.length ∧
      (map.markUp balancings ups).osdAddr.length = map.osdAddr.length := by
  induction ups using reverseRecOn with
  | nil => exact ⟨by simp [TreeMap.markUp], by simp [TreeMap.markUp, lastAddr], rfl, rfl⟩
  | append_singleton ups entry ih =>
    obtain ⟨state, addr, length, count⟩ := ih
    obtain ⟨listed, address⟩ := entry
    have marked : map.markUp balancings (ups ++ [(listed, address)]) =
        Update.apply balancings (map.markUp balancings ups) (.up listed address) := foldl_append
    rw [marked]
    refine ⟨?_, ?_, (length_modify _ _ _).trans length, List.length_set.trans count⟩
    · change getD (List.modify _ _ _) _ _ = _
      have before := state
      unfold TreeMap.stateOf at before ⊢
      simp only [getD_eq_getElem?_getD, getElem?_modify, map_append, map_cons, map_nil, mem_append,
        mem_singleton] at before ⊢
      rw [getElem?_eq_getElem (by lia)] at before ⊢
      by_cases same : listed = osd
      · subst same
        simp only [Option.getD_some, Option.map_eq_map, Option.map_some, if_true, or_true] at before ⊢
        rw [before]
        split
        · rw [UInt8.or_assoc, UInt8.or_self]
        · rw [UInt8.or_zero]
      · have apart : listed.toNat ≠ osd.toNat := fun equal => same (UInt32.toNat_inj.mp equal)
        have other : osd ≠ listed := fun equal => same equal.symm
        simp only [Option.getD_some, Option.map_eq_map, Option.map_some, apart, if_false, other, or_false] at before ⊢
        exact before
    · change (List.set _ _ _)[_]? = _
      rw [lastAddr_snoc, getElem?_set]
      by_cases same : listed = osd
      · subst same
        simp [count, addressed]
      · have apart : listed.toNat ≠ osd.toNat := fun equal => same (UInt32.toNat_inj.mp equal)
        simp [same, apart, addr]

theorem xorStates_spec (states : List (UInt32 × UInt8)) (within : osd.toNat < map.osdState.length)
    (present : osd < map.maxOsd) :
    (map.xorStates balancings states).stateOf osd = map.stateOf osd ^^^ flips states osd ∧
      (map.xorStates balancings states).osdState.length = map.osdState.length ∧
      (map.xorStates balancings states).osdAddr = map.osdAddr ∧
      (map.xorStates balancings states).maxOsd = map.maxOsd := by
  induction states using reverseRecOn with
  | nil => exact ⟨by simp [TreeMap.xorStates, flips], rfl, rfl, rfl⟩
  | append_singleton states entry ih =>
    obtain ⟨state, length, addrs, max⟩ := ih
    obtain ⟨listed, xorstate⟩ := entry
    have flipped : map.xorStates balancings (states ++ [(listed, xorstate)]) =
        if listed < (map.xorStates balancings states).maxOsd then
          Update.apply balancings (map.xorStates balancings states) (.xorState listed xorstate)
        else map.xorStates balancings states := foldl_append
    rw [flipped, flips_snoc, max]
    split
    · refine ⟨?_, (length_modify _ _ _).trans length, addrs, max⟩
      change getD (List.modify _ _ _) _ _ = _
      rw [← UInt8.xor_assoc, ← state]
      unfold TreeMap.stateOf
      simp only [getD_eq_getElem?_getD, getElem?_modify]
      rw [getElem?_eq_getElem (by omega)]
      by_cases same : listed = osd
      · simp [same]
      · have apart : listed.toNat ≠ osd.toNat := fun equal => same (UInt32.toNat_inj.mp equal)
        simp [same, apart]
    next absent =>
      have other : listed ≠ osd := fun same => absent (same ▸ present)
      rw [if_neg other, UInt8.xor_zero]
      exact ⟨state, length, addrs, max⟩

theorem markUp_maxOsd (ups : List (UInt32 × List UInt8)) : (map.markUp balancings ups).maxOsd = map.maxOsd := by
  induction ups generalizing map with
  | nil => rfl
  | cons entry ups ih => exact ih

theorem xorStates_maxOsd (states : List (UInt32 × UInt8)) :
    (map.xorStates balancings states).maxOsd = map.maxOsd := by
  induction states generalizing map with
  | nil => rfl
  | cons entry states ih =>
    refine ih.trans ?_
    beta_reduce
    split
    · rfl
    · rfl

/-- Before any osd is marked up: so are the states. -/
structure Early (holds : List UInt8 → UInt32 → Prop) (map : TreeMap) : Prop where
  shaped : map.Shaped
  states : holds map.osdState map.maxOsd

variable {holds : List UInt8 → UInt32 → Prop} {before after : Reading MapNote TreeMap} {α : Type} {program : MapDecoder α}
variable {newPoolMax : UInt64} {newFlags : UInt32} {message rest : List UInt8} {behind : List UInt8 → List UInt8}

theorem Makes.leaves (makes : Makes balancings Update.Plain program) :
    Triple program before (fun _ after => after.data.osdState = before.data.osdState ∧
      after.data.osdAddr = before.data.osdAddr ∧ after.data.maxOsd = before.data.maxOsd) fun _ _ => True := by
  refine (makes before).mono (fun _ after recorded => ?_) fun _ _ _ => trivial
  refine @Recorded.preserves _ _ _ _ _ _ (fun map => map.osdState = before.data.osdState ∧
    map.osdAddr = before.data.osdAddr ∧ map.maxOsd = before.data.maxOsd) recorded (fun entry map within kept => ?_)
    ⟨rfl, rfl, rfl⟩
  cases entry with
  | update change =>
    obtain ⟨states, addrs, max⟩ := @Update.Plain.leaves balancings map change within
    exact ⟨states.trans kept.1, addrs.trans kept.2.1, max.trans kept.2.2⟩
  | pool | state | osd | temp | epoch => exact kept

/-- The map is early, and the position is at the start of these bytes. -/
def EarlyAt (holds : List UInt8 → UInt32 → Prop) (region : Region) (rest : List UInt8)
    (state : Reading MapNote TreeMap) : Prop :=
  Early holds state.data ∧ Facing region rest state

theorem EarlyAt.step (early : EarlyAt holds region rest before) (makes : Makes balancings Update.Plain program)
    (passes : Passes region program behind) :
    Triple program before (fun _ after => EarlyAt holds region (behind rest) after) fun _ _ => True := by
  refine (((Shapes.plain balancings makes before early.1.shaped).both (Makes.leaves makes)).both
    (passes before rest early.2)).mono (fun _ after kept => ?_) fun _ _ _ => trivial
  obtain ⟨⟨shaped, states, -, max⟩, facing⟩ := kept
  exact ⟨⟨shaped, by rw [states, max]; exact early.1.states⟩, facing⟩

theorem decodeNewSizes_early {old : List UInt8} (early : EarlyAt (fun states _ => states = old) region rest before) :
    Triple (decodeNewSizes balancings region newPoolMax newFlags) before
      (fun _ after => EarlyAt (fun states max => states = resized max.toNat 0 old) region (rest.drop 4) after)
      fun _ _ => True := by
  have plain {change : Update} {condition : Bool} (allowed : change.Plain) :
      Makes balancings Update.Plain (onlyIf condition (record balancings change)) := Makes.onlyIf (Makes.record allowed)
  refine Triple.bind _ (early.step (plain (by trivial)) (Stays.onlyIf (.record _)).passes) fun _ first early => ?_
  refine Triple.bind _ (early.step (plain (by trivial)) (Stays.onlyIf (.record _)).passes) fun _ second early => ?_
  refine Triple.bind _ early.2.needRead32 fun max third kept => ?_
  obtain ⟨-, facing, same⟩ := kept
  have early := early.1
  rw [← same] at early
  unfold onlyIf
  split
  · refine ((osdmapSetMaxOsd_triple max third).both (osdmapSetMaxOsd_stays.passes _ _ facing)).mono
      (fun _ after kept => ?_) fun _ _ _ => trivial
    obtain ⟨⟨small, data⟩, facing⟩ := kept
    refine ⟨⟨data ▸ early.shaped.withMaxOsd small, ?_⟩, facing⟩
    rw [data, ← early.states]
    rfl
  · refine Triple.pure ⟨⟨early.shaped, ?_⟩, facing⟩
    rw [resized_self 0 (by rw [← early.states]; exact early.shaped.states)]
    exact early.states

theorem decodeNewUp_reads (facing : Facing region rest before) : Triple (decodeNewUp balancings region) before
      (fun _ after => (newUpEntry rest).1 < before.data.maxOsd ∧ Facing region (rest.drop newUpSize) after ∧
        after.data = before.data.markUp balancings [newUpEntry rest]) fun _ _ => True := by
  refine Triple.bind _ facing.needRead32 fun osd first kept => ?_
  obtain ⟨rfl, facing, data⟩ := kept
  refine Triple.bind _ facing.needed fun _ second kept => ?_
  obtain ⟨-, facing, data'⟩ := kept
  refine Triple.bind _ (facing.bytes (by decide)) fun addr third kept => ?_
  obtain ⟨rfl, facing, data''⟩ := kept
  have same : third.data = before.data := data''.trans (data'.trans data)
  rw [drop_drop] at facing
  refine Triple.read (Triple.bind (fun _ after => after.pos = third.pos ∧ after.data = third.data)
    (Triple.note ⟨rfl, rfl⟩) fun _ fourth noted => ?_)
  rw [same]
  split
  · exact Triple.throw trivial
  next present =>
    refine Triple.modify ⟨UInt32.not_le.mp present, ⟨noted.1 ▸ facing.nonneg, noted.1 ▸ facing.here⟩, ?_⟩
    change Update.apply balancings fourth.data (.up (newUpEntry rest).1 (newUpEntry rest).2) = _
    rw [noted.2, same]
    rfl

theorem decodeNewState_reads (facing : Facing region rest before) : Triple (decodeNewState balancings region) before
      (fun _ after => Facing region (rest.drop newStateSize) after ∧
        after.data = before.data.xorStates balancings [newStateEntry rest]) fun _ _ => True := by
  refine Triple.bind _ facing.needRead32 fun osd first kept => ?_
  obtain ⟨rfl, facing, data⟩ := kept
  refine Triple.read (Triple.bind (fun _ after => Facing region (rest.drop 4) after ∧ after.data = first.data)
    (Triple.note ⟨⟨facing.nonneg, facing.here⟩, rfl⟩) fun _ second noted => ?_)
  refine Triple.bind _ noted.1.read8 fun xorstate third kept => ?_
  obtain ⟨rfl, facing, data'⟩ := kept
  have same : third.data = before.data := data'.trans (noted.2.trans data)
  rw [drop_drop] at facing
  unfold onlyIf TreeMap.xorStates
  rw [data]
  simp only [foldl_cons, foldl_nil, decide_eq_true_eq]
  split
  next present =>
    refine Triple.modify ⟨⟨facing.nonneg, facing.here⟩, ?_⟩
    change Update.apply balancings third.data (.xorState (newStateEntry rest).1 (newStateEntry rest).2) = _
    rw [same]
    exact (if_pos present).symm
  next absent =>
    exact Triple.pure ⟨facing, same.trans (if_neg absent).symm⟩

theorem decodeNewUps_reads {count : Nat} (facing : Facing region rest before) :
    Triple (times count (decodeNewUp balancings region)) before
      (fun _ after => let ups := readEntries newUpSize newUpEntry count rest
        (∀ up ∈ ups, up.1 < before.data.maxOsd) ∧ Facing region (behindEntries (fun _ => newUpSize) count rest) after ∧
          after.data = before.data.markUp balancings ups) fun _ _ => True := by
  induction count generalizing before rest with
  | zero => exact Triple.pure ⟨by simp [readEntries], facing, rfl⟩
  | succ count ih =>
    refine Triple.bind _ (decodeNewUp_reads facing) fun _ middle kept => ?_
    obtain ⟨present, facing, data⟩ := kept
    refine (ih facing).weaken fun _ after later => ?_
    obtain ⟨others, facing, data'⟩ := later
    rw [data, markUp_maxOsd] at others
    refine ⟨fun up member => ?_, facing, ?_⟩
    · rcases List.mem_cons.mp member with rfl | other
      · exact present
      · exact others up other
    · rw [data', data]
      rfl

theorem decodeNewStates_reads {count : Nat} (facing : Facing region rest before) :
    Triple (times count (decodeNewState balancings region)) before
      (fun _ after => after.data =
        before.data.xorStates balancings (readEntries newStateSize newStateEntry count rest)) fun _ _ => True := by
  induction count generalizing before rest with
  | zero => exact Triple.pure rfl
  | succ count ih =>
    refine Triple.bind _ (decodeNewState_reads facing) fun _ middle kept => ?_
    refine (ih kept.1).weaken fun _ after later => ?_
    rw [later, kept.2]
    rfl

/-- How an incremental comes to its map: the number of osds is set, then these osds
are marked up, then these states are flipped. -/
def Staged (balancings : Balancings) (old : List UInt8) (ups : List (UInt32 × List UInt8))
    (states : List (UInt32 × UInt8)) (new : TreeMap) : Prop :=
  ∃ base : TreeMap, base.Shaped ∧ base.osdState = resized base.maxOsd.toNat 0 old ∧
    (∀ up ∈ ups, up.1 < base.maxOsd) ∧
    let last := (base.markUp balancings ups).xorStates balancings states
    new.osdState = last.osdState ∧ new.osdAddr = last.osdAddr ∧ new.maxOsd = last.maxOsd

theorem upSections_staged {structV : UInt8} {old : List UInt8}
    (early : EarlyAt (fun states max => states = resized max.toNat 0 old) region rest before) :
    Triple (do
      decodeSection region (decodeNewUp balancings region)
      decodeSection region (decodeNewState balancings region)
      decodeSection region (decodeNewWeight balancings region)
      decodeNewMappings balancings region structV
      jump region.finish) before
      (fun _ after =>
        Staged balancings old (upsOf rest) (statesOf (behindSection (fun _ => newUpSize) rest)) after.data)
      fun _ _ => True := by
  obtain ⟨base, facing⟩ := early
  refine Triple.bind (fun _ after => (∀ up ∈ upsOf rest, up.1 < before.data.maxOsd) ∧
    Facing region (behindSection (fun _ => newUpSize) rest) after ∧
    after.data = before.data.markUp balancings (upsOf rest)) ?_ fun _ middle kept => ?_
  · refine Triple.bind _ facing.needRead32 fun len first kept => ?_
    rw [kept.1, ← kept.2.2]
    exact decodeNewUps_reads kept.2.1
  obtain ⟨present, facing, marked⟩ := kept
  generalize behindSection (fun _ => newUpSize) rest = later at facing ⊢
  refine Triple.bind (fun _ after => after.data = middle.data.xorStates balancings (statesOf later)) ?_
    fun _ last flipped => ?_
  · refine Triple.bind _ facing.needRead32 fun len first kept => ?_
    rw [kept.1, ← kept.2.2]
    exact decodeNewStates_reads kept.2.1
  have plain : Makes balancings Update.Plain (do
      decodeSection region (decodeNewWeight balancings region)
      decodeNewMappings balancings region structV
      jump region.finish) :=
    Records.bind (decodeSection_makes decodeNewWeight_makes) fun _ => Records.bind decodeNewMappings_makes fun _ =>
      Records.jump _
  refine plain.leaves.weaken fun _ after left => ?_
  rw [flipped, marked] at left
  exact ⟨before.data, base.shaped, base.states, present, left⟩

theorem applySections_staged {structV : UInt8} {modified old : List UInt8}
    (early : EarlyAt (fun states _ => states = old) region rest before) :
    Triple (applySections balancings region structV modified newPoolMax newFlags) before
      (fun _ after =>
        let ups := behindSection (fun _ => 8)
          (behindSection poolNameSize (behindSection poolSize ((behindCrush rest).drop 4)))
        Staged balancings old (upsOf ups) (statesOf (behindSection (fun _ => newUpSize) ups)) after.data)
      fun _ _ => True := by
  refine Triple.bind _ (early.step (decodeNewCrush_makes : Makes balancings _ _) decodeNewCrush_passes) fun newcrush first early => ?_
  refine Triple.bind _ (decodeNewSizes_early early) fun _ second early => ?_
  refine Triple.bind _ (early.step advance_makes advance_stays.passes) fun _ third early => ?_
  refine Triple.bind _ (early.step decodePools_makes decodeOnePool_passes.entries) fun _ fourth early => ?_
  refine Triple.bind _ (early.step decodePoolNames_makes decodePoolName_passes.entries) fun _ fifth early => ?_
  refine Triple.bind _ (early.step (decodeSection_makes decodeOldPool_makes)
    (@Passes.entries _ _ (fun _ => 8) decodeOldPool_passes)) fun _ sixth early => ?_
  exact upSections_staged early

theorem incrementalHead_passes : Passes region (incrementalHead region) fun rest =>
    (behindVersions rest).drop (sizeofCephFsid + 4 + sizeofCephTimespec + 8 + 4 + 4) := by
  intro state rest facing
  refine Triple.bind _ (getOsdmapClientDataV_passes _ _ facing) fun structV first facing => ?_
  refine Triple.bind _ facing.needed fun _ second kept => ?_
  refine Triple.bind _ (kept.2.1.bytes (by decide)) fun _ third kept => ?_
  refine Triple.bind _ kept.2.1.read32 fun epoch fourth kept => Triple.read ?_
  refine Triple.bind (fun _ after => Facing region _ after) (Triple.note ⟨kept.2.1.nonneg, kept.2.1.here⟩)
    fun _ fifth facing => ?_
  split
  · exact Triple.throw trivial
  refine Triple.bind _ (facing.bytes (by decide)) fun modified sixth kept => ?_
  refine Triple.bind (fun _ after => Facing region _ after)
    (Triple.bind _ (kept.2.1.bytes (by decide)) fun _ _ kept => Triple.pure kept.2.1) fun newPoolMax seventh facing => ?_
  refine Triple.bind _ facing.read32 fun newFlags eighth kept => ?_
  refine Triple.bind _ kept.2.1.needRead32 fun len ninth kept => Triple.pure ?_
  simpa only [drop_drop] using kept.2.1

/-- The osds of an incremental that is applied in place are what its message lists. -/
theorem osdmapApplyIncremental_staged (shaped : before.data.Shaped) :
    Triple (osdmapApplyIncremental balancings region) before
      (fun result after => result = none →
        let message := region.memory.drop before.pos.toNat
        Staged balancings before.data.osdState (newUps message) (newStates message) after.data) fun _ _ => True := by
  by_cases nonneg : 0 ≤ before.pos
  · have start : EarlyAt (fun states _ => states = before.data.osdState) region
      (region.memory.drop before.pos.toNat) before := ⟨⟨shaped, rfl⟩, nonneg, rfl⟩
    rw [osdmapApplyIncremental_eq]
    refine Triple.bind _ (start.step (incrementalHead_makes : Makes balancings _ _) incrementalHead_passes)
      fun head first early => ?_
    split
    · refine Triple.bind (fun _ _ => True) Triple.any fun _ _ _ => Triple.pure fun none => ?_
      cases none
    · exact Triple.bind _ (applySections_staged early) fun _ last staged => Triple.pure fun _ => staged
  · refine Triple.bind _ getOsdmapClientDataV_nonneg fun structV first inside => ?_
    exact absurd inside nonneg

/-- What an incremental makes of the osds of the map. -/
theorem Staged.result {new : TreeMap} {ups : List (UInt32 × List UInt8)} {states : List (UInt32 × UInt8)}
    (staged : Staged balancings map.osdState ups states new) :
    (∀ osd, osd < new.maxOsd → new.stateOf osd =
      (map.stateOf osd ||| if osd ∈ ups.map (·.1) then cephOsdUpFlag else 0) ^^^ flips states osd) ∧
    ∀ osd ∈ ups.map (·.1), osd < new.maxOsd ∧ new.osdAddr[osd.toNat]? = lastAddr ups osd := by
  obtain ⟨base, shaped, old, present, newStates, newAddrs, max⟩ := staged
  have maxOsd : new.maxOsd = base.maxOsd := max.trans ((xorStates_maxOsd _).trans (markUp_maxOsd _))
  have bases : ∀ osd : UInt32, osd < base.maxOsd → base.stateOf osd = map.stateOf osd := fun osd inBase => by
    unfold TreeMap.stateOf
    rw [old]
    exact resized_getD (UInt32.lt_iff_toNat_lt.mp inBase)
  have marked : ∀ osd : UInt32, osd < base.maxOsd → _ := fun osd inBase =>
    @markUp_spec balancings base osd ups (shaped.states ▸ UInt32.lt_iff_toNat_lt.mp inBase)
      (shaped.addrs ▸ UInt32.lt_iff_toNat_lt.mp inBase)
  have flipped : ∀ osd : UInt32, osd < base.maxOsd → _ := fun osd inBase =>
    @xorStates_spec balancings (base.markUp balancings ups) osd states
      ((marked osd inBase).2.2.1 ▸ shaped.states ▸ UInt32.lt_iff_toNat_lt.mp inBase) (by rwa [markUp_maxOsd])
  refine ⟨fun osd inNew => ?_, fun osd listed => ?_⟩
  · have inBase : osd < base.maxOsd := maxOsd ▸ inNew
    rw [← bases osd inBase, ← (marked osd inBase).1, ← (flipped osd inBase).1]
    unfold TreeMap.stateOf
    rw [newStates]
  · obtain ⟨⟨other, addr⟩, member, rfl⟩ := List.mem_map.mp listed
    have inBase := present _ member
    refine ⟨maxOsd ▸ inBase, ?_⟩
    rw [newAddrs, (flipped other inBase).2.2.1, (marked other inBase).2.1]
    unfold lastAddr
    cases found : ups.reverse.find? (·.1 = other) with
    | some entry => rfl
    | none =>
      have absent := List.find?_eq_none.mp found _ (List.mem_reverse.mpr member)
      simp at absent

theorem flag_iff (value : UInt8) {place : Nat} (small : place < 8) :
    value &&& UInt8.ofBitVec (BitVec.twoPow 8 place) ≠ 0 ↔ value.toBitVec.getLsbD place = true := by
  rw [Ne, ← UInt8.toBitVec_inj]
  exact meets_iff small

theorem marked_up_iff (state flipped : UInt8) :
    ((state ||| cephOsdUpFlag) ^^^ flipped) &&& cephOsdUpFlag ≠ 0 ↔ flipped &&& cephOsdUpFlag = 0 := by
  have flag : cephOsdUpFlag = UInt8.ofBitVec (BitVec.twoPow 8 1) := rfl
  have flips : flipped &&& cephOsdUpFlag ≠ 0 ↔ flipped.toBitVec.getLsbD 1 = true := @flag_iff flipped 1 (by decide)
  have result : ((state ||| cephOsdUpFlag) ^^^ flipped) &&& cephOsdUpFlag ≠ 0 ↔
      ((state ||| cephOsdUpFlag) ^^^ flipped).toBitVec.getLsbD 1 = true := @flag_iff _ 1 (by decide)
  rw [result, ← not_iff_not]
  change _ ↔ flipped &&& cephOsdUpFlag ≠ 0
  rw [flips]
  simp [flag]

theorem marked_exists_iff {state : UInt8} (present : state &&& cephOsdExistsFlag ≠ 0) (flipped : UInt8) :
    ((state ||| cephOsdUpFlag) ^^^ flipped) &&& cephOsdExistsFlag ≠ 0 ↔ flipped &&& cephOsdExistsFlag = 0 := by
  have flag : cephOsdUpFlag = UInt8.ofBitVec (BitVec.twoPow 8 1) := rfl
  have bit : state.toBitVec.getLsbD 0 = true := (@flag_iff state 0 (by decide)).mp present
  have flips : flipped &&& cephOsdExistsFlag ≠ 0 ↔ flipped.toBitVec.getLsbD 0 = true :=
    @flag_iff flipped 0 (by decide)
  have result : ((state ||| cephOsdUpFlag) ^^^ flipped) &&& cephOsdExistsFlag ≠ 0 ↔
      ((state ||| cephOsdUpFlag) ^^^ flipped).toBitVec.getLsbD 0 = true := @flag_iff _ 0 (by decide)
  rw [result, ← not_iff_not]
  change _ ↔ flipped &&& cephOsdExistsFlag ≠ 0
  rw [flips]
  simp only [BitVec.getLsbD_eq_getElem (show 0 < 8 by decide)] at bit
  simp [flag, bit]

end

/-- What the message lists in `new_up` and `new_state` comes out as it must exactly
if its `new_state` leaves every osd of its `new_up` up, and there if it was there. -/
theorem newUp_newState (balancings : Balancings) (map : TreeMap) (accepted : Accepted balancings map) (region : Region)
    (pos : Int) (allocs : List Bool) (after : Reading MapNote TreeMap)
    (applied : osdmapApplyIncremental balancings region (mapStart pos allocs map) = .ok none after) :
    let message := region.memory.drop pos.toNat
    UpStates map after.data (newUps message) (newStates message) ↔
      ∀ osd ∈ (newUps message).map (·.1), flips (newStates message) osd &&& cephOsdUpFlag = 0 ∧
        (map.cephOsdExists osd → flips (newStates message) osd &&& cephOsdExistsFlag = 0) := by
  intro message
  have staged : Staged balancings map.osdState (newUps message) (newStates message) after.data :=
    (@osdmapApplyIncremental_staged balancings region (mapStart pos allocs map) accepted.shaped).ok applied rfl
  obtain ⟨states, listed⟩ := staged.result
  have marked : ∀ osd ∈ (newUps message).map (·.1), after.data.stateOf osd =
      (map.stateOf osd ||| cephOsdUpFlag) ^^^ flips (newStates message) osd := by
    intro osd member
    rw [states osd (listed osd member).1, if_pos member]
  constructor
  · intro holds osd member
    have up := holds.up osd member
    rw [marked osd member, marked_up_iff] at up
    refine ⟨up, fun existed => ?_⟩
    have exists' := (holds.kept osd member existed).2
    rw [marked osd member, marked_exists_iff existed.2] at exists'
    exact exists'
  · intro condition
    exact {
      up := fun osd member => by
        rw [marked osd member, marked_up_iff]
        exact (condition osd member).1
      addr := fun osd member => (listed osd member).2
      flipped := fun osd present absent => by
        rw [states osd present, if_neg absent, UInt8.or_zero]
      kept := fun osd member existed => by
        refine ⟨(listed osd member).1, ?_⟩
        rw [marked osd member, marked_exists_iff existed.2]
        exact (condition osd member).2 existed }

def downMap : TreeMap := mapOf (fullMessage (leBytes 4 0) 1 (leBytes 4 0) emptyCrush)

theorem downMap_accepted : Accepted .small downMap := mapOf_accepted (by decide +kernel)

def bootMessage (newState : List UInt8) : List UInt8 :=
  incrementalMessage (leBytes 4 1 ++ leBytes 4 0 ++ replicate 136 7) newState (leBytes 4 0)

def booted (message : List UInt8) : TreeMap :=
  (finalState (osdmapApplyIncremental .small (messageRegion message) (mapStart 0 [] downMap))).data

theorem newUp_newState_boot : let message := bootMessage (leBytes 4 0)
    newUps message = [(0, replicate 136 7)] ∧
      (UpStates downMap (booted message) (newUps message) (newStates message) ↔
        ∀ osd ∈ (newUps message).map (·.1), flips (newStates message) osd &&& cephOsdUpFlag = 0 ∧
          (downMap.cephOsdExists osd → flips (newStates message) osd &&& cephOsdExistsFlag = 0)) :=
  ⟨by decide +kernel, newUp_newState .small downMap downMap_accepted (messageRegion (bootMessage (leBytes 4 0))) 0 [] _
    (eq_ok_of_valueOf (by decide +kernel))⟩

/-- The same osd is in `new_up` and in `new_state`, and ends down. -/
theorem newUp_not_always_up : ¬ ∀ (balancings : Balancings) (map : TreeMap), Accepted balancings map →
    ∀ (region : Region) (pos : Int) (allocs : List Bool) (after : Reading MapNote TreeMap),
      osdmapApplyIncremental balancings region (mapStart pos allocs map) = .ok none after →
      let message := region.memory.drop pos.toNat
      UpStates map after.data (newUps message) (newStates message) := by
  intro claim
  have states := claim .small downMap downMap_accepted
    (messageRegion (bootMessage (leBytes 4 1 ++ leBytes 4 0 ++ [0]))) 0 [] _ (eq_ok_of_valueOf (by decide +kernel))
  exact states.up 0 (by decide +kernel) (by decide +kernel)

end KmodCeph.Osdmap
