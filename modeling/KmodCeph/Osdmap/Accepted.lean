import KmodCeph.Osdmap.Sections

namespace KmodCeph.Osdmap

open Lib List

/-- A map that the client can have: decoded from a full map, or from one with
incrementals, each of which changes it or brings a full map of its own. -/
inductive Accepted (balancings : Balancings) : TreeMap → Prop
  | full {region : Region} {pos : Int} {allocs : List Bool} {after : Reading MapNote TreeMap}
      (decoded : cephOsdmapDecode balancings region (mapStart pos allocs .blank) = .ok ⟨⟩ after) :
      Accepted balancings after.data
  | incremental {map : TreeMap} {region : Region} {pos : Int} {allocs : List Bool} {after : Reading MapNote TreeMap}
      (accepted : Accepted balancings map)
      (applied : osdmapApplyIncremental balancings region (mapStart pos allocs map) = .ok none after) :
      Accepted balancings after.data
  | replaced {map new : TreeMap} {region : Region} {pos : Int} {allocs : List Bool} {after : Reading MapNote TreeMap}
      (accepted : Accepted balancings map)
      (applied : osdmapApplyIncremental balancings region (mapStart pos allocs map) = .ok (some new) after) :
      Accepted balancings new

/-- The arrays have an element for each osd, and the trees are in the order in
which entries are linked. -/
structure TreeMap.Shaped (map : TreeMap) : Prop where
  small : map.maxOsd.toNat < 2 ^ 31
  states : map.osdState.length = map.maxOsd.toNat
  weights : map.osdWeight.length = map.maxOsd.toNat
  addrs : map.osdAddr.length = map.maxOsd.toNat
  affinities : ∀ affinity, map.osdPrimaryAffinity = some affinity → affinity.length = map.maxOsd.toNat
  temps : Sorted (fun pg => pg.1.rank) map.pgTemp
  primaries : Sorted (fun pg => pg.1.rank) map.primaryTemp
  pools : Sorted (fun pi => pi.id.toInt64.toInt) map.pgPools

section

variable {α : Type} {root : BinaryTree (Pg × α)}

theorem pgidCmp_eq (l r : Pg) : pgidCmp l r = keyOrdering l.rank r.rank := by
  have small := l.seed.toNat_lt
  have small' := r.seed.toNat_lt
  unfold pgidCmp keyOrdering Pg.rank
  simp only [UInt64.lt_iff_toNat_lt, UInt32.lt_iff_toNat_lt, gt_iff_lt]
  split_ifs <;> first | rfl | lia

theorem Pg.rank_inj {l r : Pg} (same : l.rank = r.rank) : l = r := by
  have small := l.seed.toNat_lt
  have small' := r.seed.toNat_lt
  obtain ⟨pool, seed⟩ := l
  obtain ⟨pool', seed'⟩ := r
  simp only [Pg.rank] at same small small'
  rw [Pg.mk.injEq]
  exact ⟨UInt64.toNat_inj.mp (by omega), UInt32.toNat_inj.mp (by omega)⟩

theorem findPgMapping_iff {pgid : Pg} {pg : Pg × α} (sorted : Sorted (fun pg => pg.1.rank) root) :
    findPgMapping root pgid = some pg ↔ pg ∈ inorder root ∧ pg.1 = pgid := by
  have same : findPgMapping root pgid = findKey (fun pg : Pg × α => pg.1.rank) pgid.rank root :=
    searchBy_eq fun _ _ => pgidCmp_eq _ _
  rw [same]
  constructor
  · intro found
    obtain ⟨member, equal⟩ := findKey_mem found
    exact ⟨member, Pg.rank_inj equal⟩
  · rintro ⟨member, rfl⟩
    exact findKey_of_mem sorted member

theorem insertPgMapping_eq (new : Pg × α) : insertPgMapping root new = linkValue (fun pg => pg.1.rank) new root :=
  linkBy_eq fun _ _ => pgidCmp_eq _ _

variable [DecidableEq α] {balancing : Balancing (Pg × α)}

theorem eraseMapping_sorted (sorted : Sorted (fun pg => pg.1.rank) root) (pgid : Pg) :
    Sorted (fun pg => pg.1.rank) (eraseMapping balancing pgid root) := by
  unfold eraseMapping
  split
  · exact sorted
  · exact balancing.sorted_erase sorted _

theorem linkMapping_sorted (sorted : Sorted (fun pg => pg.1.rank) root) (new : Pg × α) :
    Sorted (fun pg => pg.1.rank) (linkMapping balancing new root) := by
  unfold linkMapping
  rw [insertPgMapping_eq]
  split
  · exact sorted
  next linked found => exact balancing.sorted_balance (sorted_linkValue sorted found)

end

section

variable {root : BinaryTree PgPoolInfo}

theorem linkPool_sorted {balancing : Balancing PgPoolInfo} (sorted : Sorted (fun pi => pi.id.toInt64.toInt) root)
    (new : PgPoolInfo) : Sorted (fun pi => pi.id.toInt64.toInt) (linkPool balancing new root) := by
  unfold linkPool insertPgPool
  split
  · exact sorted
  next linked found => exact balancing.sorted_balance (sorted_linkValue sorted found)

theorem changePool_sorted {id : UInt64} {change : PgPoolInfo → PgPoolInfo} (sorted : Sorted (fun pi => pi.id.toInt64.toInt) root)
    (keeps : ∀ pi : PgPoolInfo, pi.id = id → (change pi).id = pi.id) :
    Sorted (fun pi => pi.id.toInt64.toInt) (changePool id change root) := by
  have same : ∀ pi : PgPoolInfo, (if pi.id = id then change pi else pi).id = pi.id := by
    intro pi
    split
    next named => exact keeps pi named
    next => rfl
  unfold Sorted changePool
  rw [inorder_map, pairwise_map]
  simp only [same]
  exact sorted

end

variable {α : Type} {max : Nat} {array : List α}

theorem resized_length (max : Nat) (fill : α) (array : List α) : (resized max fill array).length = max := by
  simp only [resized, length_append, List.length_take, length_replicate]
  lia

theorem resized_self (fill : α) (length : array.length = max) : resized max fill array = array := by
  simp [resized, length]

theorem resized_getD {i : Nat} {fill : α} (within : i < max) :
    (resized max fill array).getD i fill = array.getD i fill := by
  unfold resized
  simp only [getD_eq_getElem?_getD]
  by_cases old : i < array.length
  · rw [getElem?_append_left (by simp; omega), getElem?_take, if_pos within]
  · rw [getElem?_append_right (by simp; omega), getElem?_replicate, getElem?_eq_none (by omega)]
    split <;> rfl

theorem resized_take (fill : α) : resized max fill (array.take max) = resized max fill array := by
  have added : max - (array.take max).length = max - array.length := by
    rw [List.length_take]
    omega
  rw [resized, resized, take_take, min_self, added]

/-- The arrays after they are reallocated and before `max_osd` is stored. -/
def TreeMap.cut (map : TreeMap) (max : UInt32) : TreeMap :=
  { map with
    osdState := map.osdState.take max.toNat
    osdWeight := map.osdWeight.take max.toNat
    osdAddr := map.osdAddr.take max.toNat
    osdPrimaryAffinity := map.osdPrimaryAffinity.map (take max.toNat) }

theorem TreeMap.withMaxOsd_cut (map : TreeMap) (max : UInt32) : (map.cut max).withMaxOsd max = map.withMaxOsd max := by
  simp only [TreeMap.withMaxOsd, TreeMap.cut, resized_take, Option.map_map, Function.comp_def]

section

variable {balancings : Balancings} {region : Region} {map : TreeMap}

theorem TreeMap.Shaped.withMaxOsd (shaped : map.Shaped) {max : UInt32} (small : max.toNat < 2 ^ 31) :
    (map.withMaxOsd max).Shaped where
  small := small
  states := resized_length _ _ _
  weights := resized_length _ _ _
  addrs := resized_length _ _ _
  affinities := by
    intro affinity table
    obtain ⟨old, -, rfl⟩ := Option.map_eq_some_iff.mp table
    exact resized_length _ _ _
  temps := shaped.temps
  primaries := shaped.primaries
  pools := shaped.pools

def Update.Gentle (change : Update) : Prop := change.Plain ∨ change.IsUp ∨ change.IsXorState

theorem TreeMap.Shaped.apply (shaped : map.Shaped) {change : Update} (gentle : change.Gentle) :
    (change.apply balancings map).Shaped := by
  cases change with
  | resizeState | resizeWeight | resizeAddr | resizeAffinity | maxOsd | states | weights | addrs =>
    simp [Update.Gentle, Update.Plain, Update.IsUp, Update.IsXorState] at gentle
  | header | advance | flags | poolMax | crush => exact { shaped with }
  | up osd addr =>
    exact { shaped with
      states := (length_modify _ _ _).trans shaped.states
      addrs := List.length_set.trans shaped.addrs }
  | xorState osd xorstate => exact { shaped with states := (length_modify _ _ _).trans shaped.states }
  | weight osd off => exact { shaped with weights := List.length_set.trans shaped.weights }
  | insertTemp pgid osds => exact { shaped with temps := linkMapping_sorted shaped.temps _ }
  | removeTemp pgid => exact { shaped with temps := eraseMapping_sorted shaped.temps _ }
  | insertPrimary pgid osd => exact { shaped with primaries := linkMapping_sorted shaped.primaries _ }
  | removePrimary pgid => exact { shaped with primaries := eraseMapping_sorted shaped.primaries _ }
  | noAffinity => exact { shaped with affinities := nofun }
  | defaultAffinity =>
    refine { shaped with affinities := fun affinity table => ?_ }
    cases table
    exact length_replicate
  | affinity osd aff =>
    refine { shaped with affinities := fun affinity table => ?_ }
    obtain ⟨old, found, rfl⟩ := Option.map_eq_some_iff.mp table
    exact List.length_set.trans (shaped.affinities old found)
  | insertPool id => exact { shaped with pools := linkPool_sorted shaped.pools _ }
  | pool value => exact { shaped with pools := changePool_sorted shaped.pools fun _ named => named.symm }
  | poolName id name => exact { shaped with pools := changePool_sorted shaped.pools fun _ _ => rfl }
  | removePool value => exact { shaped with pools := balancings.pools.sorted_erase shaped.pools _ }

def Shapes {α : Type} (program : MapDecoder α) : Prop :=
  ∀ state, state.data.Shaped → Triple program state (fun _ after => after.data.Shaped) fun _ _ => True

variable {α β : Type} {program : MapDecoder α} {state : Reading MapNote TreeMap}

theorem Shapes.gentle (balancings : Balancings) (makes : Makes balancings Update.Gentle program) : Shapes program := by
  intro state shaped
  refine (makes state).mono (fun _ after recorded => ?_) fun _ _ _ => trivial
  refine recorded.preserves (fun entry map allowed shaped => ?_) shaped
  cases entry with
  | update change => exact shaped.apply allowed
  | pool | state | osd | temp | epoch => exact shaped

theorem Shapes.plain (balancings : Balancings) (makes : Makes balancings Update.Plain program) : Shapes program :=
  Shapes.gentle balancings (Records.mono makes fun entry allowed => by
    cases entry with
    | update change => exact .inl allowed
    | pool | state | osd | temp | epoch => trivial)

theorem Shapes.bind {next : α → MapDecoder β} (shapes : Shapes program) (continues : ∀ result, Shapes (next result)) :
    Shapes (program >>= next) :=
  fun state shaped => Triple.bind _ (shapes state shaped) fun result after kept => continues result after kept

theorem quiet (balancings : Balancings) (makes : Makes balancings (fun _ => False) program) (state : Reading MapNote TreeMap) :
    Triple program state (fun _ after => after.data = state.data) fun _ _ => True := by
  refine (makes state).mono (fun _ after recorded => ?_) fun _ _ _ => trivial
  refine @Recorded.preserves _ _ _ _ _ _ (fun map => map = state.data) recorded (fun entry map allowed kept => ?_) rfl
  cases entry with
  | update change => exact allowed.elim
  | pool | state | osd | temp | epoch => exact kept

theorem record_triple (change : Update) (state : Reading MapNote TreeMap) :
    Triple (record balancings change) state (fun _ after => after.data = change.apply balancings state.data)
      fun _ _ => True :=
  Triple.modify rfl

theorem sizeOfInt_small {max : UInt32} (fits : Crush.sizeOfInt max < 2 ^ 63) : max.toNat < 2 ^ 31 := by
  by_contra large
  have negative : max.toInt32.toInt64.toUInt64.toNat = max.toNat + (2 ^ 64 - 2 ^ 32) := by
    have bound := max.toNat_lt
    change (max.toBitVec.signExtend 64).toNat = max.toBitVec.toNat + (2 ^ 64 - 2 ^ 32)
    have sign : max.toBitVec.msb = true := by
      rw [BitVec.msb_eq_true_iff_two_mul_ge]
      change 2 ^ 32 ≤ 2 * max.toNat
      omega
    rw [BitVec.toNat_signExtend, sign, BitVec.toNat_setWidth]
    rw [Nat.mod_eq_of_lt (by omega)]
    simp
  unfold Crush.sizeOfInt at fits
  omega

theorem osdmapSetMaxOsd_triple (max : UInt32) (state : Reading MapNote TreeMap) :
    Triple (osdmapSetMaxOsd balancings max) state
      (fun _ after => max.toNat < 2 ^ 31 ∧ after.data = state.data.withMaxOsd max) fun _ _ => True := by
  refine Triple.bind (fun _ after => max.toNat < 2 ^ 31 ∧ after.data = state.data)
    (Triple.allocate (fun fits => ⟨sizeOfInt_small fits, rfl⟩) trivial) fun _ first kept => ?_
  obtain ⟨small, same⟩ := kept
  refine Triple.bind _ (record_triple _ first) fun _ second states => ?_
  refine Triple.bind _ (quiet balancings (Records.allocate _ _) second) fun _ third kept => ?_
  refine Triple.bind _ (record_triple _ third) fun _ fourth weights => ?_
  refine Triple.bind _ (quiet balancings (Records.allocate _ _) fourth) fun _ fifth kept' => ?_
  refine Triple.bind _ (record_triple _ fifth) fun _ sixth addrs => ?_
  have resized : sixth.data = { state.data.cut max with osdPrimaryAffinity := state.data.osdPrimaryAffinity } := by
    rw [addrs, kept', weights, kept, states, same]
    rfl
  refine Triple.bind (fun _ after => after.data = state.data.cut max) ?_ fun _ seventh whole => ?_
  · refine Triple.read ?_
    unfold onlyIf
    split
    · refine Triple.bind _ (quiet balancings (Records.allocate _ _) sixth) fun _ last kept => ?_
      refine (record_triple _ last).weaken fun _ after affinities => ?_
      rw [affinities, kept, resized]
      rfl
    next absent =>
      have missing : state.data.osdPrimaryAffinity = none := by
        rw [resized] at absent
        exact Option.not_isSome_iff_eq_none.mp absent
      refine Triple.pure ?_
      simp only [resized, TreeMap.cut, missing, Option.map_none]
  · refine (record_triple _ seventh).weaken fun _ after done => ⟨small, ?_⟩
    rw [done, whole]
    exact state.data.withMaxOsd_cut max

theorem osdmapSetMaxOsd_shapes (max : UInt32) : Shapes (osdmapSetMaxOsd balancings max) :=
  fun state shaped => (osdmapSetMaxOsd_triple max state).mono
    (fun _ _ set => set.2 ▸ shaped.withMaxOsd set.1) fun _ _ _ => trivial

theorem fetch_length (count : Nat) (state : Reading MapNote TreeMap) :
    Triple (fetch region count) state (fun bytes after => bytes.length = count ∧ after.data = state.data)
      fun _ _ => True := by
  refine Triple.fetch (fun nonneg inside => ⟨?_, rfl⟩) fun _ => trivial
  rw [List.length_take, length_drop]
  lia

theorem gather_length {γ : Type} {body : MapDecoder γ} (makes : Makes balancings (fun _ => False) body) (count : Nat)
    (state : Reading MapNote TreeMap) :
    Triple (gather count body) state (fun results after => results.length = count ∧ after.data = state.data)
      fun _ _ => True := by
  refine (@Triple.gather _ _ _ _ body (fun after => after.data = state.data) (fun _ => True) (fun before kept => ?_) count
    state rfl).weaken fun _ _ kept => ⟨kept.1, kept.2.2⟩
  exact (quiet balancings makes before).weaken fun _ _ same => ⟨trivial, same.trans kept⟩

variable {allowed : Update → Prop} {newPoolMax : UInt64} {newFlags : UInt32}

theorem checkMaxOsd_makes : Makes balancings allowed (checkMaxOsd region) := by
  refine Records.bind Records.fetch32 fun len => Records.read fun state => ?_
  split
  · exact Records.fail _
  · exact Records.pure _

theorem decodeOsds_shapes : Shapes (decodeOsds balancings region) := by
  intro state shaped
  refine Triple.read ?_
  refine Triple.bind _ (quiet balancings (Records.need _ _) state) fun _ first kept => ?_
  refine Triple.bind _ (quiet balancings checkMaxOsd_makes first) fun _ second kept' => ?_
  refine Triple.bind _ (fetch_length _ second) fun states third fetched => ?_
  refine Triple.bind _ (record_triple _ third) fun _ fourth stored => ?_
  refine Triple.bind _ (quiet balancings checkMaxOsd_makes fourth) fun _ fifth counted => ?_
  refine Triple.bind _ (gather_length (Records.fetch32 : Makes balancings _ _) _ fifth) fun weights sixth fetchedWeights => ?_
  refine Triple.bind _ (record_triple _ sixth) fun _ seventh storedWeights => ?_
  refine Triple.bind _ (quiet balancings checkMaxOsd_makes seventh) fun _ eighth counted' => ?_
  refine Triple.bind _ (gather_length (Records.fetch _ : Makes balancings _ _) _ eighth) fun addrs ninth fetchedAddrs => ?_
  refine (record_triple _ ninth).weaken fun _ after storedAddrs => ?_
  have result : after.data = { state.data with
      osdState := states
      osdWeight := weights
      osdAddr := addrs.map cephDecodeAddr } := by
    rw [storedAddrs, fetchedAddrs.2, counted', storedWeights, fetchedWeights.2, counted, stored, fetched.2, kept', kept]
    rfl
  rw [result]
  exact { shaped with
    states := fetched.1
    weights := fetchedWeights.1
    addrs := (length_map _).trans fetchedAddrs.1 }

theorem decodeMaxOsd_shapes : Shapes (decodeMaxOsd balancings region) := by
  refine (Shapes.plain balancings Makes.needFetch32).bind fun poolMax => ?_
  refine (Shapes.plain balancings (Makes.record (by trivial))).bind fun _ => ?_
  refine (Shapes.plain balancings Makes.needFetch32).bind fun flags => ?_
  refine (Shapes.plain balancings (Makes.record (by trivial))).bind fun _ => ?_
  refine (Shapes.plain balancings Makes.needFetch32).bind fun max => ?_
  exact (osdmapSetMaxOsd_shapes max).bind fun _ => decodeOsds_shapes

theorem cephOsdmapDecode_shapes : Shapes (cephOsdmapDecode balancings region) := by
  refine (Shapes.plain balancings (Records.allocate _ _)).bind fun _ => ?_
  refine (Shapes.plain balancings getOsdmapClientDataV_makes).bind fun structV => ?_
  refine (Shapes.plain balancings decodeHeader_makes).bind fun _ => ?_
  refine (Shapes.plain balancings decodePools_makes).bind fun _ => ?_
  refine (Shapes.plain balancings decodePoolNames_makes).bind fun _ => ?_
  refine decodeMaxOsd_shapes.bind fun _ => ?_
  refine (Shapes.plain balancings decodeMappings_makes).bind fun _ => ?_
  exact (Shapes.plain balancings decodeCrush_makes).bind fun _ => Shapes.plain balancings (Records.jump _)

theorem Shapes.onlyIf {condition : Bool} {program : MapDecoder PUnit} (shapes : Shapes program) :
    Shapes (onlyIf condition program) := by
  unfold Osdmap.onlyIf
  split
  · exact shapes
  · exact fun state shaped => Triple.pure shaped

theorem decodeNewSizes_shapes : Shapes (decodeNewSizes balancings region newPoolMax newFlags) := by
  refine (Shapes.plain balancings (Makes.onlyIf (Makes.record (by trivial)))).bind fun _ => ?_
  refine (Shapes.plain balancings (Makes.onlyIf (Makes.record (by trivial)))).bind fun _ => ?_
  refine (Shapes.plain balancings Makes.needFetch32).bind fun max => ?_
  exact Shapes.onlyIf (osdmapSetMaxOsd_shapes max)

theorem Makes.gentle (makes : Makes balancings allowed program)
    (loosen : ∀ change, allowed change → Update.Gentle change) : Makes balancings Update.Gentle program :=
  Records.mono makes fun entry within => by
    cases entry with
    | update change => exact loosen change within
    | pool | state | osd | temp | epoch => trivial

theorem applySections_shapes {structV : UInt8} {modified : List UInt8} :
    Shapes (applySections balancings region structV modified newPoolMax newFlags) := by
  refine (Shapes.plain balancings decodeNewCrush_makes).bind fun newcrush => ?_
  refine decodeNewSizes_shapes.bind fun _ => ?_
  refine (Shapes.plain balancings advance_makes).bind fun _ => ?_
  refine (Shapes.plain balancings decodePools_makes).bind fun _ => ?_
  refine (Shapes.plain balancings decodePoolNames_makes).bind fun _ => ?_
  refine (Shapes.plain balancings (decodeSection_makes decodeOldPool_makes)).bind fun _ => ?_
  refine (Shapes.gentle balancings ((decodeSection_makes decodeNewUp_makes).gentle fun _ up => .inr (.inl up))).bind
    fun _ => ?_
  refine (Shapes.gentle balancings ((decodeSection_makes decodeNewState_makes).gentle fun _ flip => .inr (.inr flip))).bind
    fun _ => ?_
  refine (Shapes.plain balancings (decodeSection_makes decodeNewWeight_makes)).bind fun _ => ?_
  exact (Shapes.plain balancings decodeNewMappings_makes).bind fun _ => Shapes.plain balancings (Records.jump _)

theorem TreeMap.blank_shaped : TreeMap.blank.Shaped :=
  ⟨by decide, rfl, rfl, rfl, nofun, sorted_nil, sorted_nil, sorted_nil⟩

theorem embeddedMap_triple (len : Int) (state : Reading MapNote TreeMap) :
    Triple (embeddedMap balancings region len) state (fun map after => map.Shaped ∧ after.data = state.data)
      fun _ _ => True := by
  refine Triple.read ?_
  refine Triple.bind (fun result after => result.2.Shaped ∧ after.data = state.data) ?_ fun _ _ kept => Triple.pure kept
  unfold Triple nested
  split
  next result after ran =>
    split at ran
    next fresh inner =>
      cases ran
      exact ⟨(cephOsdmapDecode_shapes _ TreeMap.blank_shaped).ok inner, rfl⟩
    next => cases ran
    next => cases ran
  next => trivial

/-- A map that is returned has the shape, and so has the one that was applied to. -/
theorem osdmapApplyIncremental_triple (state : Reading MapNote TreeMap) (shaped : state.data.Shaped) :
    Triple (osdmapApplyIncremental balancings region) state
      (fun result after => after.data.Shaped ∧ ∀ map, result = some map → map.Shaped) fun _ _ => True := by
  refine Triple.bind _ (quiet balancings getOsdmapClientDataV_makes state) fun structV first kept => ?_
  refine Triple.bind _ (quiet balancings (Records.need _ _) first) fun _ second kept' => ?_
  refine Triple.bind _ (quiet balancings (Records.fetch _) second) fun _ third later => ?_
  refine Triple.bind _ (quiet balancings Records.fetch32 third) fun epoch fourth later' => ?_
  have same : fourth.data = state.data := later'.trans (later.trans (kept'.trans kept))
  refine Triple.read ?_
  refine Triple.bind _ (quiet balancings (Records.note (by trivial) fun _ => rfl) fourth) fun _ fifth noted => ?_
  split
  · exact Triple.throw trivial
  refine Triple.bind _ (quiet balancings (Records.fetch _) fifth) fun modified sixth kept => ?_
  refine Triple.bind _ (quiet balancings Records.fetch64 sixth) fun newPoolMax seventh kept' => ?_
  refine Triple.bind _ (quiet balancings Records.fetch32 seventh) fun newFlags eighth later => ?_
  refine Triple.bind _ (quiet balancings Makes.needFetch32 eighth) fun len ninth later' => ?_
  have shapedNow : ninth.data.Shaped := by
    rw [later', later, kept', kept, noted, same]
    exact shaped
  split
  · refine Triple.bind _ (embeddedMap_triple _ ninth) fun map after result => Triple.pure ⟨?_, fun new returned => ?_⟩
    · exact result.2 ▸ shapedNow
    · cases returned
      exact result.1
  · exact Triple.bind _ (applySections_shapes ninth shapedNow) fun _ after kept => Triple.pure ⟨kept, nofun⟩

theorem Accepted.shaped (accepted : Accepted balancings map) : map.Shaped := by
  induction accepted with
  | full decoded => exact (cephOsdmapDecode_shapes _ TreeMap.blank_shaped).ok decoded
  | incremental accepted applied shaped => exact ((osdmapApplyIncremental_triple _ shaped).ok applied).1
  | replaced accepted applied shaped => exact ((osdmapApplyIncremental_triple _ shaped).ok applied).2 _ rfl

end

def Balancings.small : Balancings := ⟨.small _, .small _, .small _⟩

def fullMessage (pools : List UInt8) (state : UInt8) (pgTemp crush : List UInt8) : List UInt8 :=
  leBytes 2 6 ++ replicate 16 0 ++ leBytes 4 1 ++ replicate 16 0 ++ pools ++ leBytes 4 0 ++ leBytes 4 0 ++
    leBytes 4 0 ++ leBytes 4 1 ++ leBytes 4 1 ++ [state] ++ leBytes 4 1 ++ leBytes 4 0x10000 ++ leBytes 4 1 ++
    replicate 136 0 ++ pgTemp ++ leBytes 4 crush.length ++ crush

def emptyCrush : List UInt8 := leBytes 4 0x10000 ++ leBytes 4 0 ++ leBytes 4 0 ++ leBytes 4 0

def incrementalMessage (newUp newState pgTemp : List UInt8) : List UInt8 :=
  leBytes 2 6 ++ replicate 16 0 ++ leBytes 4 2 ++ replicate 8 0 ++ replicate 8 255 ++ replicate 4 255 ++
    leBytes 4 0 ++ leBytes 4 0 ++ replicate 4 255 ++ leBytes 4 0 ++ leBytes 4 0 ++ leBytes 4 0 ++ newUp ++ newState ++
    leBytes 4 0 ++ pgTemp

def messageRegion (message : List UInt8) : Region := ⟨message, message.length⟩

def mapOf (message : List UInt8) : TreeMap :=
  (finalState (cephOsdmapDecode .small (messageRegion message) (mapStart 0 [] .blank))).data

theorem mapOf_accepted {message : List UInt8}
    (decodes : valueOf (cephOsdmapDecode .small (messageRegion message) (mapStart 0 [] .blank)) = some ⟨⟩) :
    Accepted .small (mapOf message) :=
  .full (eq_ok_of_valueOf decodes)

/-- In all maps that the client can have, the arrays have an element for each osd, no two pools have one id, and a
lookup in `pg_temp` or `primary_temp` finds the only mapping of the placement group. -/
theorem osdmap_shaped {balancings : Balancings} {map : TreeMap} (accepted : Accepted balancings map) :
    (map.maxOsd.toNat < 2 ^ 31 ∧ map.osdState.length = map.maxOsd.toNat ∧
      map.osdWeight.length = map.maxOsd.toNat ∧ map.osdAddr.length = map.maxOsd.toNat ∧
      ∀ affinity, map.osdPrimaryAffinity = some affinity → affinity.length = map.maxOsd.toNat) ∧
    ((inorder map.pgPools).map PgPoolInfo.id).Nodup ∧
    (∀ pgid pg, findPgMapping map.pgTemp pgid = some pg ↔ pg ∈ inorder map.pgTemp ∧ pg.1 = pgid) ∧
    ∀ pgid pg, findPgMapping map.primaryTemp pgid = some pg ↔ pg ∈ inorder map.primaryTemp ∧ pg.1 = pgid := by
  have shaped := accepted.shaped
  refine ⟨⟨shaped.small, shaped.states, shaped.weights, shaped.addrs, shaped.affinities⟩, ?_,
    fun _ _ => findPgMapping_iff shaped.temps, fun _ _ => findPgMapping_iff shaped.primaries⟩
  refine Pairwise.map _ ?_ shaped.pools
  intro pool other below same
  exact below.ne (congrArg (fun id => id.toInt64.toInt) same)

theorem osdmap_shaped_temp : findPgMapping (mapOf (fullMessage (leBytes 4 0) 1 (leBytes 4 1 ++ [1] ++ leBytes 8 3 ++
    replicate 8 0 ++ leBytes 4 1 ++ replicate 4 0) emptyCrush)).pgTemp ⟨3, 0⟩ = some (⟨3, 0⟩, [0]) :=
  ((osdmap_shaped (mapOf_accepted (by decide +kernel))).2.2.1 _ _).mpr ⟨by decide +kernel, rfl⟩

end KmodCeph.Osdmap
