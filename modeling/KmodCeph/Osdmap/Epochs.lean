import KmodCeph.Osdmap.Accepted

namespace KmodCeph.Osdmap

open Lib

def Update.KeepsEpoch : Update → Prop
  | .header _ _ _ _ | .advance _ => False
  | _ => True

section

variable {balancings : Balancings} {region : Region} {allowed : Update → Prop} {α : Type} {program : MapDecoder α}

variable {change : Update} {newPoolMax : UInt64} {newFlags : UInt32} {structV : UInt8} {modified : List UInt8}

theorem Update.Inner.keepsEpoch (inner : change.Inner) : change.KeepsEpoch := by
  cases change with
  | header | advance => exact inner.elim
  | _ => trivial

theorem Update.Resizes.keepsEpoch (resizes : change.Resizes) : change.KeepsEpoch := by
  cases change with
  | header | advance => exact resizes.elim
  | _ => trivial

theorem Update.IsUp.keepsEpoch (up : change.IsUp) : change.KeepsEpoch := by
  cases change with
  | header | advance => exact up.elim
  | _ => trivial

theorem Update.IsXorState.keepsEpoch (flip : change.IsXorState) : change.KeepsEpoch := by
  cases change with
  | header | advance => exact flip.elim
  | _ => trivial

theorem Update.KeepsEpoch.apply (keeps : change.KeepsEpoch) (map : TreeMap) :
    (change.apply balancings map).epoch = map.epoch := by
  cases change with
  | header | advance => exact keeps.elim
  | _ => rfl

def Ageless (program : MapDecoder α) : Prop :=
  ∀ state, Triple program state (fun _ after => after.data.epoch = state.data.epoch)
    fun _ after => after.data.epoch = state.data.epoch

theorem Ageless.of (makes : Makes balancings allowed program) (keeps : ∀ change, allowed change → change.KeepsEpoch) :
    Ageless program := by
  intro state
  have same {after : Reading MapNote TreeMap}
    (recorded : Recorded (MapNote.apply balancings) (Within allowed) state after) :
      after.data.epoch = state.data.epoch := by
    refine @Recorded.preserves _ _ _ _ _ _ (fun map => map.epoch = state.data.epoch) recorded
      (fun entry map within kept => ?_) rfl
    cases entry with
    | update change => exact ((keeps change within).apply map).trans kept
    | pool | state | osd | temp | epoch => exact kept
  exact (makes state).mono (fun _ _ recorded => same recorded) fun _ _ recorded => same recorded

theorem Ageless.quiet (makes : Makes balancings (fun _ => False) program) : Ageless program :=
  .of makes fun _ => False.elim

theorem Ageless.inner (makes : Makes balancings Update.Inner program) : Ageless program :=
  .of makes fun _ => Update.Inner.keepsEpoch

theorem Ageless.bind {β : Type} {next : α → MapDecoder β} (first : Ageless program)
    (continues : ∀ result, Ageless (next result)) : Ageless (program >>= next) := by
  intro state
  refine Triple.bind _ (first state) fun result middle kept => ?_
  exact (continues result middle).mono (fun _ _ same => same.trans kept) fun _ _ same => same.trans kept

theorem Ageless.onlyIf {condition : Bool} {program : MapDecoder PUnit} (ageless : Ageless program) :
    Ageless (onlyIf condition program) := by
  unfold Osdmap.onlyIf
  split
  · exact ageless
  · exact fun state => Triple.pure rfl

theorem decodeNewSizes_ageless : Ageless (decodeNewSizes balancings region newPoolMax newFlags) := by
  have recorded {change : Update} (keeps : change.KeepsEpoch) : Ageless (record balancings change) :=
    .of (Makes.record keeps : Makes balancings Update.KeepsEpoch _) fun _ => id
  exact (Ageless.onlyIf (recorded (by trivial))).bind fun _ => (Ageless.onlyIf (recorded (by trivial))).bind fun _ =>
    (Ageless.quiet (Makes.needFetch32 : Makes balancings _ _)).bind fun _ =>
    Ageless.onlyIf (.of osdmapSetMaxOsd_makes fun _ => Update.Resizes.keepsEpoch)

def laterSections (balancings : Balancings) (region : Region) (structV : UInt8) : MapDecoder PUnit := do
  decodePools balancings region true
  decodePoolNames balancings region
  decodeSection region (decodeOldPool balancings region)
  decodeSection region (decodeNewUp balancings region)
  decodeSection region (decodeNewState balancings region)
  decodeSection region (decodeNewWeight balancings region)
  decodeNewMappings balancings region structV
  jump region.finish

theorem laterSections_ageless : Ageless (laterSections balancings region structV) :=
  (Ageless.inner decodePools_inner).bind fun _ => (Ageless.inner decodePoolNames_inner).bind fun _ =>
    (Ageless.inner (decodeSection_makes decodeOldPool_inner)).bind fun _ =>
    (Ageless.of (decodeSection_makes decodeNewUp_makes) fun _ => Update.IsUp.keepsEpoch).bind fun _ =>
    (Ageless.of (decodeSection_makes decodeNewState_makes) fun _ => Update.IsXorState.keepsEpoch).bind fun _ =>
    (Ageless.inner (decodeSection_makes decodeNewWeight_inner)).bind fun _ =>
    (Ageless.inner decodeNewMappings_inner).bind fun _ => Ageless.quiet (Records.jump _ : Makes balancings _ _)

theorem advance_epoch {newcrush : Option Crush.CrushMap} (state : Reading MapNote TreeMap) :
    Triple (advance balancings modified newcrush) state (fun _ after => after.data.epoch = state.data.epoch + 1)
      fun _ after => after.data.epoch = state.data.epoch + 1 := by
  refine Triple.bind (fun _ after => after.data.epoch = state.data.epoch + 1) (Triple.modify rfl)
    fun _ middle raised => ?_
  cases newcrush with
  | none => exact Triple.pure raised
  | some crush => exact Triple.modify raised

theorem advanced_epoch {structV : UInt8} {modified : List UInt8} {newcrush : Option Crush.CrushMap}
    (state : Reading MapNote TreeMap) :
    Triple (do
      advance balancings modified newcrush
      laterSections balancings region structV) state (fun _ after => after.data.epoch = state.data.epoch + 1)
      fun _ after => after.data.epoch = state.data.epoch + 1 := by
  refine Triple.bind _ (advance_epoch state) fun _ middle raised => ?_
  exact (laterSections_ageless middle).mono (fun _ _ same => same.trans raised) fun _ _ same => same.trans raised

theorem applySections_eq {structV : UInt8} {modified : List UInt8} {newPoolMax : UInt64} {newFlags : UInt32} :
    applySections balancings region structV modified newPoolMax newFlags = (do
      let newcrush ← decodeNewCrush region
      decodeNewSizes balancings region newPoolMax newFlags
      advance balancings modified newcrush
      laterSections balancings region structV) := rfl

theorem applySections_epoch (state : Reading MapNote TreeMap) :
    Triple (applySections balancings region structV modified newPoolMax newFlags) state
      (fun _ after => after.data.epoch = state.data.epoch + 1)
      fun _ after => after.data.epoch = state.data.epoch ∨ after.data.epoch = state.data.epoch + 1 := by
  have crush : Ageless (decodeNewCrush region) := Ageless.quiet (decodeNewCrush_makes : Makes balancings _ _)
  refine Triple.bind _ ((crush state).mono (fun _ _ same => same) fun _ _ => .inl) fun newcrush first kept => ?_
  refine Triple.bind _ ((decodeNewSizes_ageless first).mono (fun _ _ same => same.trans kept) fun _ _ same =>
    .inl (same.trans kept)) fun _ second kept => ?_
  exact (advanced_epoch second).mono (fun _ _ raised => raised.trans (kept ▸ rfl)) fun _ _ raised =>
    .inr (raised.trans (kept ▸ rfl))

theorem embeddedMap_makes {len : Int} : Makes balancings allowed (embeddedMap balancings region len) := by
  have met {entry : MapNote} {notes : List MapNote} (member : entry ∈ notes.filter (! ·.isUpdate)) :
    entry.isUpdate = false := by
    simpa using (List.mem_filter.mp member).2
  refine Records.read fun _ =>
    Records.bind (Records.nested (fun notes entry member => ?_) fun notes entry member map => ?_)
    fun _ => Records.pure _
  · cases entry with
    | update change => cases met member
    | pool | state | osd | temp | epoch => trivial
  · cases entry with
    | update change => cases met member
    | pool | state | osd | temp | epoch => rfl

structure IncrementalHead where
  structV : UInt8
  modified : List UInt8
  newPoolMax : UInt64
  newFlags : UInt32
  len : UInt32

def incrementalHead (region : Region) : MapDecoder IncrementalHead := do
  let structV ← getOsdmapClientDataV region
  need region (-einval) (sizeofCephFsid + 4 + sizeofCephTimespec + 8 + 4)
  let _ ← fetch region sizeofCephFsid
  let epoch ← fetch32 region
  let state ← get
  note (.epoch epoch (state.data.epoch + 1))
  if epoch ≠ state.data.epoch + 1 then bug
  else do
    let modified ← fetch region sizeofCephTimespec
    let newPoolMax ← fetch64 region
    let newFlags ← fetch32 region
    let len ← needFetch32 region
    pure { structV, modified, newPoolMax, newFlags, len }

theorem incrementalHead_makes : Makes balancings allowed (incrementalHead region) := by
  refine Records.bind getOsdmapClientDataV_makes fun structV => Records.bind (Records.need _ _) fun _ =>
    Records.bind (Records.fetch _) fun _ => Records.bind Records.fetch32 fun epoch => Records.read fun state =>
    Records.bind (Records.note trivial fun _ => rfl) fun _ => ?_
  split
  · exact Records.bug
  · exact Records.bind (Records.fetch _) fun _ => Records.bind Records.fetch64 fun _ => Records.bind Records.fetch32
      fun _ =>
      Records.bind Makes.needFetch32 fun _ => Records.pure _

theorem osdmapApplyIncremental_eq : osdmapApplyIncremental balancings region = (do
    let head ← incrementalHead region
    if head.len.toInt32.toInt > 0 then do
      let map ← embeddedMap balancings region head.len.toInt32.toInt
      pure (some map)
    else do
      applySections balancings region head.structV head.modified head.newPoolMax head.newFlags
      pure none) := by
  unfold osdmapApplyIncremental incrementalHead
  simp only [bind_assoc]
  refine bind_congr fun structV => bind_congr fun _ => bind_congr fun _ => bind_congr fun epoch =>
    bind_congr fun state =>
    bind_congr fun _ => ?_
  split
  · rfl
  · simp only [bind_assoc, pure_bind]

/-- An incremental raises the epoch by one; one that is rejected may have done so. -/
theorem osdmapApplyIncremental_epoch (state : Reading MapNote TreeMap) :
    Triple (osdmapApplyIncremental balancings region) state
      (fun result after => result = none → after.data.epoch = state.data.epoch + 1)
      fun _ after => after.data.epoch = state.data.epoch ∨ after.data.epoch = state.data.epoch + 1 := by
  have head : Ageless (incrementalHead region) := Ageless.quiet (incrementalHead_makes : Makes balancings _ _)
  rw [osdmapApplyIncremental_eq]
  refine Triple.bind _ ((head state).mono (fun _ _ same => same) fun _ _ => .inl) fun head first kept => ?_
  split
  · have embedded : Ageless (embeddedMap balancings region head.len.toInt32.toInt) := Ageless.quiet embeddedMap_makes
    exact Triple.bind (fun _ _ => True)
      ((embedded first).mono (fun _ _ _ => trivial) fun _ _ same => .inl (same.trans kept))
      fun _ _ _ => Triple.pure nofun
  · refine Triple.bind _ ((applySections_epoch first).mono (fun _ _ raised => raised) fun _ _ either => ?_)
      fun _ after raised =>
      Triple.pure fun _ => raised.trans (kept ▸ rfl)
    exact either.imp (fun same => same.trans kept) fun raised => raised.trans (kept ▸ rfl)

end

end KmodCeph.Osdmap
