import KmodCeph.Osdmap.Decode

namespace KmodCeph.Osdmap

open Lib Records

/-- Notes of allowed updates, and of what was met. -/
def Within (allowed : Update → Prop) : MapNote → Prop
  | .update change => allowed change
  | _ => True

def Update.Plain : Update → Prop
  | .resizeState _ | .resizeWeight _ | .resizeAddr _ | .resizeAffinity _ | .maxOsd _ => False
  | .states _ | .weights _ | .addrs _ => False
  | .up _ _ | .xorState _ _ => False
  | _ => True

def Update.Inner : Update → Prop
  | .header _ _ _ _ | .advance _ => False
  | change => change.Plain

def Update.Resizes : Update → Prop
  | .resizeState _ | .resizeWeight _ | .resizeAddr _ | .resizeAffinity _ | .maxOsd _ => True
  | _ => False

def Update.IsUp : Update → Prop
  | .up _ _ => True
  | _ => False

def Update.IsXorState : Update → Prop
  | .xorState _ _ => True
  | _ => False

abbrev Makes {α : Type} (balancings : Balancings) (allowed : Update → Prop) (program : MapDecoder α) : Prop :=
  Records (MapNote.apply balancings) (Within allowed) program

section

variable {balancings : Balancings} {region : Region} {allowed : Update → Prop} {α : Type}

variable {change : Update} {ev structV : UInt8} {pi : PgPoolInfo} {incremental : Bool}

theorem Makes.record (allows : allowed change) : Makes balancings allowed (record balancings change) :=
  commit allows

theorem Update.Inner.plain (inner : change.Inner) : change.Plain := by
  cases change with
  | header | advance => exact inner.elim
  | _ => exact inner

theorem Makes.plain {program : MapDecoder α} (makes : Makes balancings Update.Inner program) :
    Makes balancings Update.Plain program :=
  mono makes fun entry within => by
    cases entry with
    | update change => exact Update.Inner.plain within
    | pool | state | osd | temp | epoch => trivial

theorem Makes.onlyIf {condition : Bool} {program : MapDecoder PUnit} (makes : Makes balancings allowed program) :
    Makes balancings allowed (onlyIf condition program) := by
  unfold Osdmap.onlyIf
  split
  · exact makes
  · exact pure _

theorem Makes.needFetch8 : Makes balancings allowed (needFetch8 region) :=
  bind (need _ _) fun _ => fetch8

theorem Makes.needFetch32 : Makes balancings allowed (needFetch32 region) :=
  bind (need _ _) fun _ => fetch32

theorem Makes.needFetch64 : Makes balancings allowed (needFetch64 region) :=
  bind (need _ _) fun _ => fetch64

theorem cephDecodePgid_makes : Makes balancings allowed (cephDecodePgid region) := by
  refine bind (need _ _) fun _ => bind fetch8 fun version => ?_
  split
  · exact fail _
  · exact bind fetch64 fun _ => bind fetch32 fun _ =>
      bind (skip _) fun _ => pure _

theorem getOsdmapClientDataV_makes : Makes balancings allowed (getOsdmapClientDataV region) := by
  refine bind Makes.needFetch8 fun structV => ?_
  split
  · refine bind Makes.needFetch8 fun structCompat => ?_
    split
    · exact fail _
    · refine bind (skip _) fun _ => bind Makes.needFetch8 fun structV =>
        bind Makes.needFetch8 fun structCompat => ?_
      split
      · exact fail _
      · exact bind (skip _) fun _ => pure _
  · refine bind (skip _) fun _ => bind (need _ _) fun _ =>
      bind fetch16 fun version => ?_
    split
    · exact fail _
    · exact pure _

theorem skipSnap_makes : Makes balancings allowed (skipSnap region) :=
  bind (skip _) fun _ => bind (skip _) fun _ =>
    bind fetch32 fun _ => skip _

theorem decodeTiers_makes : Makes balancings allowed (decodeTiers region ev) := by
  unfold decodeTiers
  split
  · exact bind fetch32 fun _ => bind (skip _) fun _ =>
      bind (skip _) fun _ => bind (skip _) fun _ =>
      bind fetch64 fun _ => bind fetch64 fun _ => pure _
  · exact pure _

theorem decodePoolFields_makes : Makes balancings allowed (decodePoolFields region ev pi) :=
  Records.bind Records.fetch8 fun _ => Records.bind Records.fetch8 fun _ => Records.bind Records.fetch8 fun _ =>
    Records.bind Records.fetch8 fun _ => Records.bind Records.fetch32 fun _ => Records.bind Records.fetch32 fun _ =>
    Records.bind (Records.skip _) fun _ => Records.bind (Records.skip _) fun _ => Records.bind (Records.skip _) fun _ =>
    Records.bind Records.fetch32 fun _ => Records.bind (Records.times skipSnap_makes _) fun _ =>
    Records.bind Records.fetch32 fun _ => Records.bind (Records.skip _) fun _ => Records.bind (Records.skip _) fun _ =>
    Records.bind Records.fetch64 fun _ => Records.bind (Records.skip _) fun _ => Records.bind (Records.skip _) fun _ =>
    Records.bind (Records.skip _) fun _ => Records.bind decodeTiers_makes fun _ => Records.pure _

theorem decodePool_inner : Makes balancings Update.Inner (decodePool balancings region pi) := by
  refine Records.bind (Records.need _ _) fun _ => Records.bind Records.fetch8 fun ev =>
    Records.bind Records.fetch8 fun cv => ?_
  split
  · exact Records.fail _
  · split
    · exact Records.fail _
    · exact Records.bind Records.fetch32 fun _ => Records.bind (Records.need _ _) fun _ => Records.read fun _ =>
        Records.bind (Records.note trivial fun _ => rfl) fun _ => Records.bind decodePoolFields_makes fun _ =>
        Records.bind (Records.jump _) fun _ => Makes.record trivial

theorem addPool_inner {id : UInt64} : Makes balancings Update.Inner (addPool balancings id) := by
  refine bind (allocate _ _) fun _ => read fun state => ?_
  split
  · exact fail _
  · exact bind (Makes.record trivial) fun _ => pure _

theorem decodeOnePool_inner : Makes balancings Update.Inner (decodeOnePool balancings region incremental) := by
  refine bind Makes.needFetch64 fun id => read fun state => ?_
  split
  · exact bind addPool_inner fun _ => decodePool_inner
  · split
    · exact decodePool_inner
    · exact bind addPool_inner fun _ => decodePool_inner

theorem decodePools_inner : Makes balancings Update.Inner (decodePools balancings region incremental) :=
  bind Makes.needFetch32 fun _ => times decodeOnePool_inner _

theorem decodePools_makes : Makes balancings Update.Plain (decodePools balancings region incremental) :=
  decodePools_inner.plain

theorem decodePoolName_inner : Makes balancings Update.Inner (decodePoolName balancings region) := by
  refine bind Makes.needFetch64 fun id => bind Makes.needFetch32 fun len =>
    bind (need _ _) fun _ => read fun state => ?_
  split
  · exact skip _
  · exact bind (fetch _) fun _ => bind (allocate _ _) fun _ => Makes.record trivial

theorem decodePoolNames_inner : Makes balancings Update.Inner (decodePoolNames balancings region) :=
  bind Makes.needFetch32 fun _ => times decodePoolName_inner _

theorem decodePoolNames_makes : Makes balancings Update.Plain (decodePoolNames balancings region) :=
  decodePoolNames_inner.plain

theorem osdmapSetMaxOsd_makes {max : UInt32} : Makes balancings Update.Resizes (osdmapSetMaxOsd balancings max) := by
  refine bind (allocate _ _) fun _ => bind (Makes.record trivial) fun _ =>
    bind (allocate _ _) fun _ => bind (Makes.record trivial) fun _ =>
    bind (allocate _ _) fun _ => bind (Makes.record trivial) fun _ =>
    bind ?_ fun _ => Makes.record trivial
  exact read fun _ => Makes.onlyIf (bind (allocate _ _) fun _ => Makes.record trivial)

theorem fetchOsd_makes : Makes balancings allowed (fetchOsd region) :=
  bind fetch32 fun _ => pure _

theorem decodeOneTemp_inner : Makes balancings Update.Inner (decodeOneTemp balancings region incremental) := by
  refine bind cephDecodePgid_makes fun pgid => bind Makes.needFetch32 fun len =>
    read fun state => bind (note trivial fun _ => rfl) fun _ =>
    bind (Makes.record trivial) fun _ => ?_
  split
  · exact bug
  · split
    · refine bind (need _ _) fun _ => ?_
      split
      · exact fail _
      · refine bind (allocate _ _) fun _ => bind (gather fetchOsd_makes _) fun osds =>
          read fun state => ?_
        split
        · exact fail _
        · exact Makes.record trivial
    · exact pure _

theorem decodePgTemp_inner : Makes balancings Update.Inner (decodePgTemp balancings region incremental) :=
  bind Makes.needFetch32 fun _ => times decodeOneTemp_inner _

theorem decodeOnePrimary_inner : Makes balancings Update.Inner (decodeOnePrimary balancings region incremental) := by
  refine bind cephDecodePgid_makes fun pgid => bind Makes.needFetch32 fun len =>
    read fun state => bind (note trivial fun _ => rfl) fun _ =>
    bind (Makes.record trivial) fun _ => ?_
  split
  · exact bug
  · split
    · refine bind (allocate _ _) fun _ => read fun state => ?_
      split
      · exact fail _
      · exact Makes.record trivial
    · exact pure _

theorem decodePrimaryTemp_inner : Makes balancings Update.Inner (decodePrimaryTemp balancings region incremental) :=
  bind Makes.needFetch32 fun _ => times decodeOnePrimary_inner _

theorem setPrimaryAffinity_inner {osd aff : UInt32} :
    Makes balancings Update.Inner (setPrimaryAffinity balancings osd aff) := by
  refine read fun state => bind (note trivial fun _ => rfl) fun _ => ?_
  split
  · exact bug
  · refine bind (read fun _ => ?_) fun _ => Makes.record trivial
    exact Makes.onlyIf (bind (allocate _ _) fun _ => Makes.record trivial)

theorem decodeAffinities_inner (count : Nat) {i : UInt32} :
    Makes balancings Update.Inner (decodeAffinities balancings region count i) := by
  induction count generalizing i with
  | zero => exact pure _
  | succ count ih =>
    exact bind fetch32 fun _ => bind setPrimaryAffinity_inner fun _ => ih

theorem decodePrimaryAffinity_inner : Makes balancings Update.Inner (decodePrimaryAffinity balancings region) := by
  refine bind Makes.needFetch32 fun len => ?_
  split
  · exact Makes.record trivial
  · refine read fun state => ?_
    split
    · exact fail _
    · exact bind (need _ _) fun _ => decodeAffinities_inner _

theorem decodeNewPrimaryAffinity_inner :
    Makes balancings Update.Inner (decodeNewPrimaryAffinity balancings region) :=
  bind Makes.needFetch32 fun _ => times (bind Makes.needFetch32 fun _ =>
    bind Makes.needFetch32 fun _ => setPrimaryAffinity_inner) _

theorem crushAt_makes {len : Int} : Makes balancings allowed (crushAt region len) :=
  read fun _ => bind (nested (fun _ => nofun) fun _ => nofun) fun _ => pure _

theorem decodeCrush_inner : Makes balancings Update.Inner (decodeCrush balancings region) := by
  refine bind Makes.needFetch32 fun len => bind crushAt_makes fun crush =>
    bind (skip _) fun _ => ?_
  split
  · exact pure _
  · exact Makes.record trivial

theorem decodeCrush_makes : Makes balancings Update.Plain (decodeCrush balancings region) :=
  decodeCrush_inner.plain

theorem decodeHeader_makes : Makes balancings Update.Plain (decodeHeader balancings region) :=
  bind (need _ _) fun _ => bind (fetch _) fun _ => bind fetch32 fun _ =>
    bind (fetch _) fun _ => bind (fetch _) fun _ => Makes.record trivial

theorem decodeMappings_inner : Makes balancings Update.Inner (decodeMappings balancings region structV) := by
  refine bind decodePgTemp_inner fun _ => bind (Makes.onlyIf decodePrimaryTemp_inner) fun _ => ?_
  split
  · exact decodePrimaryAffinity_inner
  · exact Makes.record trivial

theorem decodeMappings_makes : Makes balancings Update.Plain (decodeMappings balancings region structV) :=
  decodeMappings_inner.plain

theorem decodeNewCrush_makes : Makes balancings allowed (decodeNewCrush region) := by
  refine bind Makes.needFetch32 fun len => ?_
  split
  · exact bind crushAt_makes fun _ => bind (skip _) fun _ => pure _
  · exact pure _

theorem decodeSection_makes {entry : MapDecoder PUnit} (makes : Makes balancings allowed entry) :
    Makes balancings allowed (decodeSection region entry) :=
  bind Makes.needFetch32 fun _ => times makes _

theorem decodeOldPool_inner : Makes balancings Update.Inner (decodeOldPool balancings region) := by
  refine bind Makes.needFetch64 fun id => read fun state => ?_
  split
  · exact pure _
  · exact Makes.record trivial

theorem decodeOldPool_makes : Makes balancings Update.Plain (decodeOldPool balancings region) :=
  decodeOldPool_inner.plain

theorem decodeNewUp_makes : Makes balancings Update.IsUp (decodeNewUp balancings region) := by
  refine bind Makes.needFetch32 fun osd => bind (need _ _) fun _ =>
    bind (fetch _) fun addr => read fun state =>
    bind (note trivial fun _ => rfl) fun _ => ?_
  split
  · exact bug
  · exact Makes.record trivial

theorem decodeNewState_makes : Makes balancings Update.IsXorState (decodeNewState balancings region) :=
  bind Makes.needFetch32 fun _ => read fun _ => bind (note trivial fun _ => rfl) fun _ =>
    bind fetch8 fun _ => Makes.onlyIf (Makes.record trivial)

theorem decodeNewWeight_inner : Makes balancings Update.Inner (decodeNewWeight balancings region) :=
  bind (need _ _) fun _ => bind fetch32 fun _ => bind fetch32 fun _ =>
    read fun _ => Makes.onlyIf (Makes.record trivial)

theorem decodeNewWeight_makes : Makes balancings Update.Plain (decodeNewWeight balancings region) :=
  decodeNewWeight_inner.plain

theorem decodeNewMappings_inner : Makes balancings Update.Inner (decodeNewMappings balancings region structV) :=
  bind decodePgTemp_inner fun _ => bind (Makes.onlyIf decodePrimaryTemp_inner) fun _ =>
    Makes.onlyIf decodeNewPrimaryAffinity_inner

theorem decodeNewMappings_makes : Makes balancings Update.Plain (decodeNewMappings balancings region structV) :=
  decodeNewMappings_inner.plain

theorem advance_makes {modified : List UInt8} {newcrush : Option Crush.CrushMap} :
    Makes balancings Update.Plain (advance balancings modified newcrush) := by
  refine bind (Makes.record trivial) fun _ => ?_
  split
  · exact pure _
  · exact Makes.record trivial

end

end KmodCeph.Osdmap
