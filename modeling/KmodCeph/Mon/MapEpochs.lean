import KmodCeph.Mon.Carried

namespace KmodCeph.Mon

open Lib Osdmap Mdsmap

def announcedEpoch (front : List UInt8) : UInt32 := UInt32.ofNat (leValue ((front.drop 16).take 4))

def mdsmapOf (front : List UInt8) (allocs : List Bool) : EStateM.Result Stop (Reading MdsNote MdsMemory) MdsMap :=
  cephMdsmapDecode (frontRegion front) { pos := 24, allocs, trail := [], data := ⟨.blank, [], 0⟩ }

def MapClient.Foreign (client : MapClient) (front : List UInt8) : Prop :=
  client.haveFsid = true ∧ client.fsid ≠ front.take 16

/-- An mds map message has no map, or the one that is there, or a newer one that can be decoded and has the epoch with
which it is announced. -/
def MdsMeets (front : List UInt8) (allocs : List Bool) (client : MapClient) : Prop :=
  front.length < 24 ∨ client.Foreign front ∨ announcedEpoch front = client.mdsmap.epoch ∨
    client.mdsmap.epoch < announcedEpoch front ∧
      ∃ mdsmap after, mdsmapOf front allocs = .ok mdsmap after ∧ mdsmap.epoch = announcedEpoch front

section

variable {front : List UInt8} {allocs : List Bool} {client : MapClient}

def mdsStart (pos : Int) (allocs : List Bool) (client : MapClient) : Reading MapEvent MapClient :=
  { pos, allocs, trail := [], data := client }

theorem fetch_front {pos count : Nat} (inside : pos + count ≤ front.length) :
    fetch (frontRegion front) count (mdsStart pos allocs client) =
      .ok ((front.drop pos).take count) (mdsStart (pos + count : Nat) allocs client) := by
  have within : (pos : Int) + count ≤ front.length := by exact_mod_cast inside
  exact if_pos ⟨Int.natCast_nonneg pos, within⟩

theorem fetch32_front {pos : Nat} (inside : pos + 4 ≤ front.length) :
    fetch32 (frontRegion front) (mdsStart pos allocs client) =
      .ok (UInt32.ofNat (leValue ((front.drop pos).take 4))) (mdsStart (pos + 4 : Nat) allocs client) :=
  bind_of_ok (fetch_front inside)

theorem cephMdscHandleMap_short (short : front.length < 24) :
    cephMdscHandleMap (frontRegion front) (mdsStart 0 allocs client) =
      .error (.error (-einval)) (mdsStart 0 allocs client) := by
  refine bind_of_error (if_neg ?_)
  unfold Region.hasRoom frontRegion mdsStart
  simp only [decide_eq_true_eq, sub_zero]
  omega

theorem need_front (long : 24 ≤ front.length) :
    need (frontRegion front) (-einval) (16 + 2 * 4) (mdsStart 0 allocs client) = .ok ⟨⟩ (mdsStart 0 allocs client) := by
  refine if_pos ?_
  unfold Region.hasRoom frontRegion mdsStart
  simp only [decide_eq_true_eq, sub_zero]
  omega

theorem fetch_fsid (long : 24 ≤ front.length) :
    fetch (frontRegion front) 16 (mdsStart 0 allocs client) = .ok (front.take 16) (mdsStart 16 allocs client) :=
  @fetch_front front allocs client 0 16 (by omega)

theorem cephMdscHandleMap_foreign (long : 24 ≤ front.length) (foreign : client.Foreign front) :
    cephMdscHandleMap (frontRegion front) (mdsStart 0 allocs client) = .ok .foreign (mdsStart 16 allocs client) := by
  have check : cephCheckFsid (front.take 16) (mdsStart 16 allocs client) = .ok false (mdsStart 16 allocs client) := by
    change (if client.haveFsid then pure (decide (client.fsid = front.take 16)) else _ : ClientDecoder Bool) _ = _
    rw [if_pos foreign.1, decide_eq_false foreign.2]
    rfl
  unfold cephMdscHandleMap
  rw [bind_of_ok (need_front long), bind_of_ok (fetch_fsid long), bind_of_ok check]
  rfl

def MapClient.told (client : MapClient) (front : List UInt8) : MapClient :=
  { client with
    fsid := if client.haveFsid then client.fsid else front.take 16
    monc := client.monc.gotMdsmap (announcedEpoch front) }

theorem cephMdscHandleMap_own (long : 24 ≤ front.length) (own : ¬client.Foreign front) :
    cephMdscHandleMap (frontRegion front) (mdsStart 0 allocs client) =
      takeMdsmap (frontRegion front) (announcedEpoch front) (mdsStart 24 allocs (client.told front)) := by
  let known : MapClient := { client with fsid := if client.haveFsid then client.fsid else front.take 16 }
  have check : cephCheckFsid (front.take 16) (mdsStart 16 allocs client) = .ok true (mdsStart 16 allocs known) := by
    change (if client.haveFsid then pure (decide (client.fsid = front.take 16)) else _ : ClientDecoder Bool) _ = _
    cases had : client.haveFsid with
    | true =>
      have same : client.fsid = front.take 16 := by
        by_contra other
        exact own ⟨had, other⟩
      have kept : known = client := congrArg (fun fsid => { client with fsid }) (if_pos had)
      rw [kept, if_pos rfl, decide_eq_true same]
      rfl
    | false =>
      have learned : known = { client with fsid := front.take 16 } :=
        congrArg (fun fsid => { client with fsid }) (if_neg (ne_true_of_eq_false had))
      rw [learned]
      rfl
  have epoch : fetch32 (frontRegion front) (mdsStart 16 allocs known) =
      .ok (announcedEpoch front) (mdsStart 20 allocs known) := @fetch32_front front allocs known 16 (by omega)
  have maplen : fetch32 (frontRegion front) (mdsStart 20 allocs known) = .ok _ (mdsStart 24 allocs known) :=
    @fetch32_front front allocs known 20 (by omega)
  unfold cephMdscHandleMap
  rw [bind_of_ok (need_front long), bind_of_ok (fetch_fsid long), bind_of_ok check]
  change (fetch32 (frontRegion front) >>= _ : ClientDecoder MapExit) _ = _
  rw [bind_of_ok epoch, bind_of_ok maplen]
  rfl

theorem takeMdsmap_old (old : announcedEpoch front ≤ client.mdsmap.epoch) :
    takeMdsmap (frontRegion front) (announcedEpoch front) (mdsStart 24 allocs client) =
      .ok .old (mdsStart 24 allocs client) := by
  change (if announcedEpoch front ≤ client.mdsmap.epoch then pure .old else _ : ClientDecoder MapExit) _ = _
  rw [if_pos old]
  rfl

theorem takeMdsmap_new (new : client.mdsmap.epoch < announcedEpoch front) {mdsmap : MdsMap}
    {after : Reading MdsNote MdsMemory} (decoded : mdsmapOf front allocs = .ok mdsmap after) :
    takeMdsmap (frontRegion front) (announcedEpoch front) (mdsStart 24 allocs client) =
      .ok .done (mdsStart 24 after.allocs { client with mdsmap }) := by
  have tried : nested (attempt (cephMdsmapDecode (frontRegion front))) ⟨.blank, [], 0⟩ (fun _ => []) id
      (mdsStart 24 allocs client) = .ok (.ok mdsmap, after.data) (mdsStart 24 after.allocs client) := by
    have ran : attempt (cephMdsmapDecode (frontRegion front))
      { pos := 24, allocs, trail := [], data := ⟨.blank, [], 0⟩ } =
        .ok (.ok mdsmap) after := by
      unfold attempt
      unfold mdsmapOf at decoded
      rw [decoded]
    unfold nested mdsStart
    rw [ran]
    rfl
  change (if announcedEpoch front ≤ client.mdsmap.epoch then pure .old else _ : ClientDecoder MapExit) _ = _
  rw [if_neg (UInt32.not_le.mpr new), bind_of_ok tried]
  rfl

end

def Meets (balancings : Balancings) : MapMsg → MapClient → Prop
  | .mds front allocs, client => MdsMeets front allocs client
  | .osd front allocs needmaps, client =>
    ∀ entry ∈ (finalState (handleMap balancings (.osd front allocs needmaps) client)).trail, entry.Rising

structure MapClient.Fresh (client : MapClient) : Prop where
  haveMdsmap : client.monc.haveMdsmap = 0
  haveOsdmap : client.monc.haveOsdmap = 0
  mdsmap : client.mdsmap = .blank
  osdmap : client.osdmap = none

/-- The client after messages that meet a condition; the monitor client may do anything else in between. -/
inductive Reached (balancings : Balancings) (meets : MapMsg → MapClient → Prop) : MapClient → Prop
  | start {client : MapClient} (fresh : client.Fresh) : Reached balancings meets client
  | message {client next : MapClient} {msg : MapMsg} {exit : Option MapExit} (reached : Reached balancings meets client)
      (allowed : meets msg client) (handled : Handles balancings msg client exit next) : Reached balancings meets next
  | elsewhere {client : MapClient} {monc : MonClient} (reached : Reached balancings meets client)
      (haveMdsmap : monc.haveMdsmap = client.monc.haveMdsmap) (haveOsdmap : monc.haveOsdmap = client.monc.haveOsdmap) :
      Reached balancings meets { client with monc }

def MapMsg.isMds : MapMsg → Bool
  | .mds _ _ => true
  | .osd _ _ _ => false

def SubscribeItem.Within (client : MapClient) : SubscribeItem → Prop
  | .osdmap have_ => have_ ≤ osdmapEpoch client.osdmap
  | .mdsmap have_ => have_ ≤ client.mdsmap.epoch
  | .monmap => True

/-- The epochs that are asked for stay within those of the maps and get no smaller; when a message was no error, that of
the mds map is the one asked for, and after an osd map message that of the osd map; and the next subscription names
them. -/
structure EpochsAgree (msg : MapMsg) (exit : Option MapExit) (before after : MapClient) : Prop where
  mdsWithin : after.monc.haveMdsmap ≤ after.mdsmap.epoch
  osdWithin : after.monc.haveOsdmap ≤ osdmapEpoch after.osdmap
  mdsRises : before.monc.haveMdsmap ≤ after.monc.haveMdsmap
  osdRises : before.monc.haveOsdmap ≤ after.monc.haveOsdmap
  mdsEqual : exit = some .old ∨ exit = some .done → after.monc.haveMdsmap = after.mdsmap.epoch
  osdEqual : exit = some .old ∨ exit = some .done → msg.isMds = false →
    after.monc.haveOsdmap = osdmapEpoch after.osdmap
  asked : ∀ item ∈ after.monc.subscribeItems, item.Within after

/-- The epochs that a subscription names and those of the maps. -/
structure InStep (client : MapClient) : Prop where
  mds : client.monc.haveMdsmap = client.mdsmap.epoch
  osd : client.monc.haveOsdmap ≤ osdmapEpoch client.osdmap

section

variable {balancings : Balancings} {client next : MapClient} {msg : MapMsg} {exit : Option MapExit}

theorem asked_within (mds : client.monc.haveMdsmap ≤ client.mdsmap.epoch)
    (osd : client.monc.haveOsdmap ≤ osdmapEpoch client.osdmap) :
    ∀ item ∈ client.monc.subscribeItems, item.Within client := by
  intro item member
  rcases List.mem_append.mp member with maps | monmap
  · rcases List.mem_append.mp maps with osdmap | mdsmap
    · split at osdmap
      · cases List.mem_singleton.mp osdmap
        exact osd
      · cases osdmap
    · split at mdsmap
      · cases List.mem_singleton.mp mdsmap
        exact mds
      · cases mdsmap
  · cases List.mem_singleton.mp monmap
    trivial

variable {after : Reading MapEvent MapClient} {front : List UInt8} {allocs : List Bool}

theorem Handles.of_ok {value : MapExit}
    (handled : Handles balancings msg client exit next) (ran : handleMap balancings msg client = .ok value after) :
    exit = some value ∧ next = after.data := by
  cases handled with
  | returns returned =>
    cases ran.symm.trans returned
    exact ⟨rfl, rfl⟩
  | corrupt failed => cases ran.symm.trans failed

theorem Handles.of_error {code : Int} (handled : Handles balancings msg client exit next)
    (ran : handleMap balancings msg client = .error (.error code) after) : exit = none ∧ next = after.data := by
  cases handled with
  | returns returned => cases ran.symm.trans returned
  | corrupt failed =>
    cases ran.symm.trans failed
    exact ⟨rfl, rfl⟩

/-- An mds map message keeps the epoch that is asked for in step with that of the map. -/
theorem mds_message (inStep : InStep client) (meets : MdsMeets front allocs client)
    (handled : Handles balancings (.mds front allocs) client exit next) :
    InStep next ∧ next.osdmap = client.osdmap ∧ next.monc.haveOsdmap = client.monc.haveOsdmap ∧
      client.monc.haveMdsmap ≤ next.monc.haveMdsmap := by
  have unchanged : InStep client ∧ client.osdmap = client.osdmap ∧ client.monc.haveOsdmap = client.monc.haveOsdmap ∧
      client.monc.haveMdsmap ≤ client.monc.haveMdsmap := ⟨inStep, rfl, rfl, UInt32.le_refl _⟩
  by_cases short : front.length < 24
  · obtain ⟨-, rfl⟩ := handled.of_error (cephMdscHandleMap_short short)
    exact unchanged
  have long := Nat.not_lt.mp short
  by_cases foreign : client.Foreign front
  · obtain ⟨-, rfl⟩ := handled.of_ok (cephMdscHandleMap_foreign long foreign)
    exact unchanged
  have ran : handleMap balancings (.mds front allocs) client =
      takeMdsmap (frontRegion front) (announcedEpoch front) (mdsStart 24 allocs (client.told front)) :=
    cephMdscHandleMap_own long foreign
  rcases meets with short' | foreign' | same | ⟨new, mdsmap, after, decoded, epoch⟩
  · exact absurd short' short
  · exact absurd foreign' foreign
  · obtain ⟨-, rfl⟩ := handled.of_ok (ran.trans (takeMdsmap_old (same ▸ UInt32.le_refl _)))
    exact ⟨⟨same, inStep.osd⟩, rfl, rfl, inStep.mds.symm ▸ same ▸ UInt32.le_refl _⟩
  · have taken := @takeMdsmap_new front allocs (client.told front) new mdsmap after decoded
    obtain ⟨-, rfl⟩ := handled.of_ok (ran.trans taken)
    exact ⟨⟨epoch.symm, inStep.osd⟩, rfl, rfl, inStep.mds.symm ▸ UInt32.le_of_lt new⟩

theorem osd_message {needmaps : List Bool} (inStep : InStep client)
    (meets : Meets balancings (.osd front allocs needmaps) client)
    (handled : Handles balancings (.osd front allocs needmaps) client exit next) : InStep next ∧ Upholds client next ∧
      (exit = some .old ∨ exit = some .done → next.monc.haveOsdmap = osdmapEpoch next.osdmap) := by
  have carries := @cephOsdcHandleMap_carries
    { pos := 0, allocs, trail := [], data := { client with needmaps } } (frontRegion front) balancings
  have held {after : Reading MapEvent MapClient}
      (carried : Carried { pos := 0, allocs, trail := [], data := { client with needmaps } } after)
      (rising : ∀ entry ∈ after.trail, entry.Rising) : InStep after.data ∧ Upholds client after.data := by
    have upholds := carried.upholds rising
    refine ⟨⟨?_, upholds.within inStep.osd⟩, ⟨upholds.haveMdsmap, upholds.mdsmap, upholds.within, upholds.rises⟩⟩
    rw [upholds.haveMdsmap, upholds.mdsmap]
    exact inStep.mds
  change ∀ entry ∈ (finalState (handleMap balancings (.osd front allocs needmaps) client)).trail, entry.Rising at meets
  cases handled with
  | returns ran =>
    obtain ⟨carried, told⟩ := carries.ok ran
    rw [ran] at meets
    obtain ⟨kept, upholds⟩ := held carried meets
    refine ⟨kept, upholds, fun left => told ?_⟩
    rintro rfl
    simp at left
  | corrupt ran =>
    rw [ran] at meets
    obtain ⟨kept, upholds⟩ := held (carries.error ran) meets
    exact ⟨kept, upholds, fun left => by simp at left⟩

theorem Reached.inStep (reached : Reached balancings (Meets balancings) client) : InStep client := by
  induction reached with
  | start fresh =>
    refine ⟨?_, ?_⟩
    · rw [fresh.haveMdsmap, fresh.mdsmap]
      rfl
    · rw [fresh.haveOsdmap, fresh.osdmap]
      decide
  | message reached allowed handled inStep =>
    rename_i msg _
    cases msg with
    | mds front allocs => exact (mds_message inStep allowed handled).1
    | osd front allocs needmaps => exact (osd_message inStep allowed handled).1
  | elsewhere reached haveMdsmap haveOsdmap inStep => exact ⟨haveMdsmap.trans inStep.mds, haveOsdmap ▸ inStep.osd⟩

end

/-- The epochs that the client subscribes with and its maps, over all runs of messages that meet the condition. -/
theorem subscription_epochs (balancings : Balancings) (client : MapClient)
    (reached : Reached balancings (Meets balancings) client) (msg : MapMsg) (meets : Meets balancings msg client)
    (exit : Option MapExit) (next : MapClient) (handled : Handles balancings msg client exit next) :
    EpochsAgree msg exit client next := by
  have inStep := reached.inStep
  have agree (kept : InStep next) (mdsRises : client.monc.haveMdsmap ≤ next.monc.haveMdsmap)
      (osdRises : client.monc.haveOsdmap ≤ next.monc.haveOsdmap)
      (osdEqual : exit = some .old ∨ exit = some .done → msg.isMds = false →
        next.monc.haveOsdmap = osdmapEpoch next.osdmap) : EpochsAgree msg exit client next :=
    { mdsWithin := kept.mds ▸ UInt32.le_refl _
      osdWithin := kept.osd
      mdsRises
      osdRises
      mdsEqual := fun _ => kept.mds
      osdEqual
      asked := asked_within (kept.mds ▸ UInt32.le_refl _) kept.osd }
  cases msg with
  | mds front allocs =>
    obtain ⟨kept, -, same, rises⟩ := mds_message inStep meets handled
    exact agree kept rises (same ▸ UInt32.le_refl _) fun _ osd => nomatch osd
  | osd front allocs needmaps =>
    obtain ⟨kept, upholds, told⟩ := osd_message inStep meets handled
    exact agree kept (upholds.haveMdsmap ▸ UInt32.le_refl _) (upholds.rises inStep.osd) fun left _ => told left

def freshClient : MapClient :=
  { fsid := List.replicate 16 0, haveFsid := false, monc := .init, mdsmap := .blank, osdmap := none, needmaps := [] }

theorem freshClient_fresh : freshClient.Fresh := ⟨rfl, rfl, rfl, rfl⟩

def mdsmapFront (epoch : Nat) (map : List UInt8) : List UInt8 :=
  List.replicate 16 0 ++ leBytes 4 epoch ++ leBytes 4 map.length ++ map

def emptyMdsmap (epoch : Nat) : List UInt8 :=
  leBytes 2 3 ++ leBytes 4 epoch ++ List.replicate 28 0 ++ leBytes 4 0 ++ leBytes 4 0 ++ leBytes 4 0 ++ leBytes 8 0

def mdsMsg (epoch : Nat) : MapMsg := .mds (mdsmapFront epoch (emptyMdsmap epoch)) []

def clientAfter (msg : MapMsg) (client : MapClient) : MapClient := (finalState (handleMap .small msg client)).data

theorem mdsMsg_meets : Meets .small (mdsMsg 2) freshClient :=
  .inr (.inr (.inr ⟨by decide +kernel,
    { MdsMap.blank with epoch := 2, info := some (1, []), dataPgPools := some (2, []) }, _,
    eq_ok_of_valueOf (by decide +kernel), by decide +kernel⟩))

def mapEntries (entries : List (Nat × List UInt8)) : List UInt8 :=
  leBytes 4 entries.length ++ entries.flatMap fun entry => leBytes 4 entry.1 ++ leBytes 4 entry.2.length ++ entry.2

def osdMsg (incrementals fulls : List (Nat × List UInt8)) : MapMsg :=
  .osd (List.replicate 16 0 ++ mapEntries incrementals ++ mapEntries fulls) [] []

def firstOsdmap : MapMsg := osdMsg [] [(1, fullMessage (leBytes 4 0) 1 (leBytes 4 0) emptyCrush)]

def nextOsdmap : MapMsg := osdMsg [(2, incrementalMessage (leBytes 4 0) (leBytes 4 0) (leBytes 4 0))] []

def mappedClient : MapClient := clientAfter firstOsdmap (clientAfter (mdsMsg 2) freshClient)

instance : DecidablePred MapEvent.Rising
  | .apply announced _ => inferInstanceAs (Decidable (announced ≠ 0))
  | .replace before after => inferInstanceAs (Decidable (before ≤ after))
  | .kick _ _ => inferInstanceAs (Decidable True)

theorem mappedClient_reached : Reached .small (Meets .small) mappedClient := by
  have mds : Handles .small (mdsMsg 2) freshClient (some .done) (clientAfter (mdsMsg 2) freshClient) :=
    .returns (eq_ok_of_valueOf (by decide +kernel))
  have osd : Handles .small firstOsdmap (clientAfter (mdsMsg 2) freshClient) (some .done) mappedClient :=
    .returns (eq_ok_of_valueOf (by decide +kernel))
  have meets : Meets .small firstOsdmap (clientAfter (mdsMsg 2) freshClient) := by
    unfold firstOsdmap osdMsg Meets
    decide +kernel
  exact .message (.message (.start freshClient_fresh) mdsMsg_meets mds) meets osd

theorem nextOsdmap_meets : Meets .small nextOsdmap mappedClient := by
  unfold nextOsdmap osdMsg Meets
  decide +kernel

/-- Both maps are there, and an incremental brings the next osd map. -/
theorem subscription_epochs_next : mappedClient.monc.haveMdsmap = 2 ∧ mappedClient.monc.haveOsdmap = 1 ∧
    (clientAfter nextOsdmap mappedClient).monc.haveOsdmap = 2 ∧
      EpochsAgree nextOsdmap (some .done) mappedClient (clientAfter nextOsdmap mappedClient) :=
  ⟨by decide +kernel, by decide +kernel, by decide +kernel,
    subscription_epochs .small mappedClient mappedClient_reached nextOsdmap nextOsdmap_meets _ _
      (.returns (eq_ok_of_valueOf (by decide +kernel)))⟩

/-- An old map comes once more: the client asks for what follows it, though it has a newer one. -/
theorem subscription_epochs_old :
    (clientAfter (mdsMsg 1) (clientAfter (mdsMsg 2) freshClient)).mdsmap.epoch = 2 ∧
    (clientAfter (mdsMsg 1) (clientAfter (mdsMsg 2) freshClient)).monc.haveMdsmap = 1 ∧
    ¬ ∀ (balancings : Balancings) (client : MapClient), Reached balancings (fun _ _ => True) client →
      ∀ (msg : MapMsg) (exit : Option MapExit) (next : MapClient), Handles balancings msg client exit next →
        EpochsAgree msg exit client next := by
  have installed : (clientAfter (mdsMsg 1) (clientAfter (mdsMsg 2) freshClient)).mdsmap.epoch = 2 := by decide +kernel
  have asked : (clientAfter (mdsMsg 1) (clientAfter (mdsMsg 2) freshClient)).monc.haveMdsmap = 1 := by decide +kernel
  have first : Handles .small (mdsMsg 2) freshClient (some .done) (clientAfter (mdsMsg 2) freshClient) :=
    .returns (eq_ok_of_valueOf (by decide +kernel))
  have second : Handles .small (mdsMsg 1) (clientAfter (mdsMsg 2) freshClient) (some .old)
      (clientAfter (mdsMsg 1) (clientAfter (mdsMsg 2) freshClient)) :=
    .returns (eq_ok_of_valueOf (by decide +kernel))
  refine ⟨installed, asked, fun claim => ?_⟩
  have agrees := claim .small _ (.message (.start freshClient_fresh) trivial first) (mdsMsg 1) _ _ second
  have equal := agrees.mdsEqual (.inl rfl)
  rw [installed, asked] at equal
  exact absurd equal (by decide)

end KmodCeph.Mon
