import KmodCeph.Mon.Maps
import KmodCeph.Osdmap.Epochs

namespace KmodCeph.Mon

open Lib Osdmap Mdsmap List

/-- An incremental comes with an epoch that does not wrap around, and no map is replaced by an older one. -/
def MapEvent.Rising : MapEvent → Prop
  | .apply announced _ => announced ≠ 0
  | .replace before after => before ≤ after
  | .kick _ _ => True

/-- An osd map message leaves the mds map alone; the epoch of the osd map that is asked for gets no smaller and stays
within that of the map. -/
structure Upholds (before after : MapClient) : Prop where
  haveMdsmap : after.monc.haveMdsmap = before.monc.haveMdsmap
  mdsmap : after.mdsmap = before.mdsmap
  within : before.monc.haveOsdmap ≤ osdmapEpoch before.osdmap → after.monc.haveOsdmap ≤ osdmapEpoch after.osdmap
  rises : before.monc.haveOsdmap ≤ osdmapEpoch before.osdmap → before.monc.haveOsdmap ≤ after.monc.haveOsdmap

theorem Upholds.refl (client : MapClient) : Upholds client client := ⟨rfl, rfl, id, fun _ => UInt32.le_refl _⟩

theorem Upholds.trans {first second third : MapClient} (early : Upholds first second) (late : Upholds second third) :
    Upholds first third where
  haveMdsmap := late.haveMdsmap.trans early.haveMdsmap
  mdsmap := late.mdsmap.trans early.mdsmap
  within within := late.within (early.within within)
  rises within := UInt32.le_trans (early.rises within) (late.rises (early.within within))

/-- The message goes on from one state to the other, and upholds the epochs if all that is noted is rising. -/
structure Carried (before after : Reading MapEvent MapClient) : Prop where
  trail : before.trail ⊆ after.trail
  upholds : (∀ entry ∈ after.trail, entry.Rising) → Upholds before.data after.data

section

variable {α β : Type} {state before middle after : Reading MapEvent MapClient} {region : Region}
  {balancings : Balancings}

theorem Carried.of_eq (trail : after.trail = before.trail) (data : after.data = before.data) : Carried before after :=
  ⟨fun _ member => trail ▸ member, fun _ => data ▸ Upholds.refl _⟩

theorem Carried.refl : Carried before before := .of_eq rfl rfl

theorem Carried.trans (early : Carried before middle) (late : Carried middle after) : Carried before after where
  trail := List.Subset.trans early.trail late.trail
  upholds rising := (early.upholds fun entry member => rising entry (late.trail member)).trans (late.upholds rising)

def CarriesFrom (state : Reading MapEvent MapClient) (program : ClientDecoder α) : Prop :=
  Triple program state (fun _ after => Carried state after) fun _ after => Carried state after

theorem CarriesFrom.bind {program : ClientDecoder α} {next : α → ClientDecoder β} (first : CarriesFrom state program)
    (continues : ∀ result middle, CarriesFrom middle (next result)) : CarriesFrom state (program >>= next) := by
  refine Triple.bind _ first fun result middle carried => ?_
  exact (continues result middle).mono (fun _ _ later => carried.trans later) fun _ _ later => carried.trans later

theorem CarriesFrom.pure (result : α) : CarriesFrom state (Pure.pure result : ClientDecoder α) := Triple.pure .refl

theorem CarriesFrom.fail (code : Int) : CarriesFrom state (fail code : ClientDecoder α) := Triple.fail .refl

theorem CarriesFrom.need (code : Int) (count : Nat) :
    CarriesFrom state (need region code count : ClientDecoder PUnit) :=
  Triple.need (fun _ => .refl) fun _ => .refl

theorem CarriesFrom.fetch (count : Nat) : CarriesFrom state (fetch region count : ClientDecoder (List UInt8)) :=
  Triple.fetch (fun _ _ => .of_eq rfl rfl) fun _ => .refl

theorem CarriesFrom.fetch32 : CarriesFrom state (fetch32 region : ClientDecoder UInt32) :=
  CarriesFrom.bind (.fetch 4) fun _ _ => .pure _

theorem CarriesFrom.needWord : CarriesFrom state (needWord region) :=
  CarriesFrom.bind (.need _ _) fun _ _ => .fetch32

theorem CarriesFrom.skip (distance : Int) : CarriesFrom state (skip distance : ClientDecoder PUnit) :=
  Triple.skip (.of_eq rfl rfl)

theorem CarriesFrom.jump (pos : Int) : CarriesFrom state (jump pos : ClientDecoder PUnit) :=
  Triple.modify (.of_eq rfl rfl)

theorem CarriesFrom.note (entry : MapEvent) : CarriesFrom state (note entry : ClientDecoder PUnit) :=
  Triple.note ⟨subset_cons_self _ _, fun _ => .refl _⟩

theorem CarriesFrom.read {next : Reading MapEvent MapClient → ClientDecoder α}
    (continues : CarriesFrom state (next state)) :
    CarriesFrom state (get >>= next) :=
  Triple.read continues

theorem CarriesFrom.onClient {change : MapClient → MapClient} (upholds : Upholds state.data (change state.data)) :
    CarriesFrom state (onClient change) :=
  Triple.modify ⟨List.Subset.refl _, fun _ => upholds⟩

theorem tried_triple {μ τ ρ : Type} {program : Decode μ τ ρ} {start : τ} {good : ρ → τ → Prop} {bad : τ → Prop}
    (triple : Triple program { pos := state.pos, allocs := state.allocs, trail := [], data := start }
      (fun result after => good result after.data) fun _ after => bad after.data) :
    Triple (nested (attempt program) start (fun _ => []) id : ClientDecoder (Except Int ρ × τ)) state
      (fun tried after => after.data = state.data ∧ after.trail = state.trail ∧
        match tried.1 with
        | .ok result => good result tried.2
        | .error _ => bad tried.2)
      fun _ after => after.data = state.data ∧ after.trail = state.trail := by
  unfold Triple at triple ⊢
  unfold nested attempt
  cases ran : program { pos := state.pos, allocs := state.allocs, trail := [], data := start } with
  | ok result after =>
    rw [ran] at triple
    exact ⟨rfl, rfl, triple⟩
  | error stop after =>
    rw [ran] at triple
    cases stop with
    | error code => exact ⟨rfl, rfl, triple⟩
    | damage damage => exact ⟨rfl, rfl⟩

theorem sendSubscribe_haves (monc : MonClient) :
    monc.sendSubscribe.haveMdsmap = monc.haveMdsmap ∧ monc.sendSubscribe.haveOsdmap = monc.haveOsdmap := by
  unfold MonClient.sendSubscribe
  split
  · unfold MonClient.conSend MonClient.msgRevoke
    dsimp only
    split <;> exact ⟨rfl, rfl⟩
  · exact ⟨rfl, rfl⟩

theorem requestNextOsdmap_haves (monc : MonClient) :
    monc.requestNextOsdmap.haveMdsmap = monc.haveMdsmap ∧ monc.requestNextOsdmap.haveOsdmap = monc.haveOsdmap := by
  unfold MonClient.requestNextOsdmap
  generalize (if monc.wantNextOsdmap = 0 then 1 else monc.wantNextOsdmap) = wanted
  dsimp only
  split
  · exact sendSubscribe_haves _
  · exact ⟨rfl, rfl⟩

theorem Upholds.of_haves {client : MapClient} {monc : MonClient} {needmaps : List Bool}
    (haveMdsmap : monc.haveMdsmap = client.monc.haveMdsmap) (haveOsdmap : monc.haveOsdmap = client.monc.haveOsdmap) :
    Upholds client { client with monc, needmaps } where
  haveMdsmap := haveMdsmap
  mdsmap := rfl
  within within := haveOsdmap ▸ within
  rises _ := haveOsdmap ▸ UInt32.le_refl _

theorem Upholds.of_epoch {client : MapClient} {map : TreeMap} (newer : osdmapEpoch client.osdmap ≤ map.epoch) :
    Upholds client { client with osdmap := some map } where
  haveMdsmap := rfl
  mdsmap := rfl
  within within := UInt32.le_trans within newer
  rises _ := UInt32.le_refl _

theorem kickRequests_carries (skippedMap wasFull : Bool) : CarriesFrom state (kickRequests skippedMap wasFull) := by
  refine CarriesFrom.bind (.note _) fun _ middle => .onClient ?_
  split
  next => exact .of_haves (requestNextOsdmap_haves _).1 (requestNextOsdmap_haves _).2
  next => exact .of_haves rfl rfl

theorem next_epoch_le {epoch announced : UInt32} (next : epoch + 1 = announced) (positive : announced ≠ 0) :
    epoch ≤ epoch + 1 := by
  have small := epoch.toNat_lt
  have raised : (epoch + 1).toNat = (epoch.toNat + 1) % 2 ^ 32 := UInt32.toNat_add epoch 1
  have nonzero : (epoch + 1).toNat ≠ 0 := fun zero => positive (next ▸ UInt32.toNat_inj.mp zero)
  rw [UInt32.le_iff_toNat_le]
  lia

theorem Carried.follow {program : ClientDecoder α} (carried : Carried state middle)
    (rest : CarriesFrom middle program) :
    Triple program middle (fun _ after => Carried state after) fun _ after => Carried state after :=
  Triple.mono rest (fun _ _ later => carried.trans later) fun _ _ later => carried.trans later

theorem applyIncremental_carries {next : Int} {announced : UInt32} {map : TreeMap} {wasFull : Bool}
    (here : state.data.osdmap = some map) (follows : map.epoch + 1 = announced) :
    CarriesFrom state (applyIncremental region balancings next announced map wasFull) := by
  have epoch : osdmapEpoch state.data.osdmap = map.epoch := by rw [here]; rfl
  refine Triple.bind (fun _ after => after.trail = .apply announced map.epoch :: state.trail ∧ after.data = state.data)
    (Triple.note ⟨rfl, rfl⟩) fun _ first noted => ?_
  have start : Carried state first := ⟨noted.1 ▸ subset_cons_self _ _, fun _ => noted.2 ▸ .refl _⟩
  refine Triple.bind _ ((@tried_triple first _ _ _
    (osdmapApplyIncremental balancings { region with finish := next }) map
    (fun result applied => result = none → applied.epoch = map.epoch + 1)
    (fun applied => applied.epoch = map.epoch ∨ applied.epoch = map.epoch + 1)
    (osdmapApplyIncremental_epoch _)).mono (fun _ _ left => left)
    fun _ _ kept => start.trans (.of_eq kept.2 kept.1)) fun tried second left => ?_
  obtain ⟨result, applied⟩ := tried
  obtain ⟨data, trail, left⟩ := left
  have met : MapEvent.apply announced map.epoch ∈ second.trail := by
    rw [trail, noted.1]
    exact mem_cons_self
  have same : second.data = state.data := data.trans noted.2
  have sub : state.trail ⊆ second.trail := by
    rw [trail]
    exact start.trail
  refine Triple.bind (fun _ after => after.trail = second.trail ∧
    after.data = { state.data with osdmap := some applied })
    (Triple.modify ⟨rfl, by rw [same]⟩) fun _ third stored => ?_
  have positive {after : Reading MapEvent MapClient} (sub : second.trail ⊆ after.trail)
      (rising : ∀ entry ∈ after.trail, entry.Rising) : announced ≠ 0 :=
    rising (.apply announced map.epoch) (sub met)
  cases result with
  | error code =>
    refine Triple.fail ⟨stored.1 ▸ sub, fun rising => ?_⟩
    rw [stored.2]
    refine .of_epoch (epoch ▸ ?_)
    cases left with
    | inl kept => exact kept ▸ UInt32.le_refl _
    | inr raised => exact raised ▸ next_epoch_le follows (positive (stored.1 ▸ List.Subset.refl _) rising)
  | ok other =>
    refine Triple.bind (fun _ after => Carried state after) ?_ fun _ fourth carried =>
      carried.follow (.read (.bind (kickRequests_carries _ _) fun _ _ => .pure _))
    cases other with
    | none =>
      refine Triple.pure ⟨stored.1 ▸ sub, fun rising => ?_⟩
      rw [stored.2]
      refine .of_epoch (epoch ▸ ?_)
      rw [left rfl]
      exact next_epoch_le follows (positive (stored.1 ▸ List.Subset.refl _) rising)
    | some other =>
      refine Triple.bind (fun _ after => after.trail = .replace map.epoch other.epoch :: third.trail ∧
        after.data = third.data) (Triple.note ⟨rfl, rfl⟩) fun _ fourth noted => ?_
      have sub' : state.trail ⊆ fourth.trail := by
        rw [noted.1, stored.1]
        exact subset_cons_of_subset _ sub
      refine Triple.modify ⟨sub', fun rising => ?_⟩
      have newer : (MapEvent.replace map.epoch other.epoch).Rising :=
        rising (.replace map.epoch other.epoch) (noted.1 ▸ mem_cons_self)
      rw [noted.2, stored.2]
      exact @Upholds.of_epoch state.data other (epoch ▸ newer)

theorem mapHead_carries : CarriesFrom state (mapHead region) :=
  .bind (.need _ _) fun _ _ => .bind .fetch32 fun _ _ => .bind .fetch32 fun _ _ => .bind (.need _ _) fun _ _ => .pure _

theorem takeIncremental_carries (next : Int) (announced : UInt32) (locals : Bool × Bool) :
    CarriesFrom state (takeIncremental region balancings next announced locals) := by
  refine .read ?_
  cases here : state.data.osdmap with
  | none => exact .pure _
  | some map =>
    dsimp only
    split
    next follows => exact .bind (applyIncremental_carries here follows) fun _ _ => .pure _
    next => exact .pure _

theorem incrementalMaps_carries (nrMaps : Nat) (locals : Bool × Bool) :
    CarriesFrom state (incrementalMaps region balancings nrMaps locals) := by
  induction nrMaps generalizing state locals with
  | zero => exact .pure _
  | succ nrMaps ih =>
    exact .bind mapHead_carries fun head middle => .read (.bind (takeIncremental_carries _ _ _) fun locals _ =>
      .bind (.jump _) fun _ _ => ih locals)

theorem takeFull_carries (next : Int) (wasFull : Bool) :
    CarriesFrom state (takeFull region balancings next wasFull) := by
  refine Triple.bind (fun _ after => Carried state after)
    ((@tried_triple state _ _ _ (cephOsdmapDecode balancings { region with finish := next }) .blank (fun _ _ => True)
      (fun _ => True) (Triple.any)).mono (fun _ _ kept => .of_eq kept.2.1 kept.1) fun _ _ kept => .of_eq kept.2 kept.1)
    fun tried first carried => carried.follow ?_
  obtain ⟨result, newmap⟩ := tried
  cases result with
  | error code => exact .fail _
  | ok _ =>
    refine .read (Triple.bind
      (fun _ after => after.trail = .replace (osdmapEpoch first.data.osdmap) newmap.epoch :: first.trail ∧
      after.data = first.data) (Triple.note ⟨rfl, rfl⟩) fun _ second noted => ?_)
    have sub : first.trail ⊆ second.trail := noted.1 ▸ subset_cons_self _ _
    refine Triple.bind (fun _ after => Carried first after) (Triple.modify ⟨sub, fun rising => ?_⟩)
      fun _ third carried =>
      carried.follow (kickRequests_carries _ _)
    have newer : (MapEvent.replace (osdmapEpoch first.data.osdmap) newmap.epoch).Rising :=
      rising (.replace (osdmapEpoch first.data.osdmap) newmap.epoch) (noted.1 ▸ mem_cons_self)
    rw [noted.2]
    exact .of_epoch newer

theorem takeNewer_carries (nrMaps : Nat) (next : Int) (announced : UInt32) (wasFull : Bool) :
    CarriesFrom state (takeNewer region balancings nrMaps next announced wasFull) := by
  refine .read ?_
  split
  · exact .pure _
  · split
    · exact .pure _
    · exact takeFull_carries _ _

theorem fullMaps_carries (nrMaps : Nat) (wasFull : Bool) :
    CarriesFrom state (fullMaps region balancings nrMaps wasFull) := by
  induction nrMaps generalizing state with
  | zero => exact .pure _
  | succ nrMaps ih =>
    exact .bind mapHead_carries fun head middle => .read (.bind (takeNewer_carries _ _ _ _) fun _ _ =>
      .bind (.skip _) fun _ _ => ih)

theorem mapsDone_carries : Triple mapsDone state
    (fun _ after => Carried state after ∧ after.data.monc.haveOsdmap = osdmapEpoch after.data.osdmap)
    fun _ after => Carried state after := by
  refine Triple.read ?_
  cases here : state.data.osdmap with
  | none => exact Triple.fail .refl
  | some map =>
    have epoch : osdmapEpoch state.data.osdmap = map.epoch := by rw [here]; rfl
    let told := state.data.monc.gotOsdmap map.epoch
    have haves {monc : MonClient} (mds : monc.haveMdsmap = told.haveMdsmap)
      (osd : monc.haveOsdmap = told.haveOsdmap) :
        Upholds state.data { state.data with monc } ∧ monc.haveOsdmap = osdmapEpoch state.data.osdmap := by
      have reached : monc.haveOsdmap = osdmapEpoch state.data.osdmap := osd.trans epoch.symm
      exact ⟨⟨mds, rfl, fun _ => reached ▸ UInt32.le_refl _, fun within => reached ▸ within⟩, reached⟩
    refine Triple.bind (fun _ after => after.trail = state.trail ∧ after.data = { state.data with monc := told })
      (Triple.modify ⟨rfl, rfl⟩) fun _ first stored => ?_
    refine Triple.bind (fun _ after => after.trail = state.trail ∧ ∃ monc, monc.haveMdsmap = told.haveMdsmap ∧
      monc.haveOsdmap = told.haveOsdmap ∧ after.data = { state.data with monc }) (Triple.modify ⟨stored.1, ?_⟩)
      fun _ second left => ?_
    · rw [stored.2]
      split
      · exact ⟨_, (requestNextOsdmap_haves told).1, (requestNextOsdmap_haves told).2, rfl⟩
      · exact ⟨_, rfl, rfl, rfl⟩
    · obtain ⟨trail, monc, mds, osd, data⟩ := left
      have held := haves mds osd
      refine Triple.pure ⟨⟨trail ▸ List.Subset.refl _, fun _ => data ▸ held.1⟩, ?_⟩
      rw [data]
      exact held.2

theorem cephCheckFsid_carries (fsid : List UInt8) : CarriesFrom state (cephCheckFsid fsid) := by
  refine .read ?_
  split
  · exact .pure _
  · exact .bind (.onClient ⟨rfl, rfl, id, fun _ => UInt32.le_refl _⟩) fun _ _ => .pure _

theorem cephOsdcHandleMap_carries : Triple (cephOsdcHandleMap region balancings) state
    (fun exit after => Carried state after ∧
      (exit ≠ .foreign → after.data.monc.haveOsdmap = osdmapEpoch after.data.osdmap))
    fun _ after => Carried state after := by
  have done {middle : Reading MapEvent MapClient} (carried : Carried state middle) : Triple mapsDone middle
      (fun exit after => Carried state after ∧
        (exit ≠ .foreign → after.data.monc.haveOsdmap = osdmapEpoch after.data.osdmap))
      fun _ after => Carried state after :=
    mapsDone_carries.mono (fun _ _ ended => ⟨carried.trans ended.1, fun _ => ended.2⟩) fun _ _ ended =>
      carried.trans ended
  refine Triple.bind _ (CarriesFrom.need _ _) fun _ first carried => ?_
  refine Triple.bind _ (carried.follow (.fetch _)) fun fsid second carried => ?_
  refine Triple.bind _ (carried.follow (cephCheckFsid_carries fsid)) fun known third carried => ?_
  split
  · exact Triple.pure ⟨carried, fun other => absurd rfl other⟩
  · refine Triple.read ?_
    refine Triple.bind _ (carried.follow .needWord) fun nrMaps fourth carried => ?_
    refine Triple.bind _ (carried.follow (incrementalMaps_carries _ _)) fun locals fifth carried => ?_
    split
    · exact done carried
    · refine Triple.bind _ (carried.follow .needWord) fun nrMaps sixth carried => ?_
      exact Triple.bind _ (carried.follow (fullMaps_carries _ _)) fun _ _ carried => done carried

end

end KmodCeph.Mon
