import KmodCeph.Caps.Issued

namespace KmodCeph.Caps

open Lib List

def countedCaps : CapMask :=
  cephCapPin ||| cephCapFileRd ||| cephCapFileCache ||| cephCapFileWr ||| cephCapFileBuffer

def refCounts (ci : CephInode) : List (CapMask × Int) :=
  [(cephCapPin, ci.pinRef), (cephCapFileRd, ci.rdRef), (cephCapFileCache, ci.rdcacheRef), (cephCapFileWr, ci.wrRef),
    (cephCapFileBuffer, ci.wbRef)]

def referenced (ci : CephInode) : CapMask :=
  (refCounts ci).foldr (fun ref union => (if 0 < ref.2 then ref.1 else 0) ||| union) 0

def covering (inode : CapInode) : CapMask :=
  unionOf (·.implemented) inode.caps inode.snapCaps

def coveringOthers (mds : Session) (inode : CapInode) : CapMask :=
  unionOf (·.implemented) (inode.caps.filter (·.mds ≠ mds)) inode.snapCaps

/-- One inode with the lists that all inodes are on, and what was sent. -/
structure CapState where
  inode : CapInode
  lists : CapLists
  sent : List CapMessage

/-- What is done with the capabilities of an inode; `elsewhere` is everything else, such as
`__ceph_mark_dirty_caps`, that changes neither its caps nor what is referenced. -/
inductive CapCall where
  | addCap (stale : List Session) (mds : Session) (given : IssuedCap)
  | grant (stale : List Session) (mds : Session) (given : CapGrant) (issued : CapMask) (pagesLeft : Nat)
  | checkCaps (check : CapsToCheck)
  | tryFlush (early memory : Bool)
  | kickFlushing (early memory : Bool)
  | tryGetRefs (stale : List Session) (need want : CapMask) (endoff : Int)
  | getRefs (caps : CapMask)
  | putRefs (had : CapMask)
  | elsewhere (inode : CapInode) (lists : CapLists)

def CapState.init (snapc : SnapContext) (snapCaps : CapMask) : CapState where
  inode := { CephInode.clean snapc with
    caps := []
    authCap := none
    snapCaps := snapCaps
    nrByMode := fun _ => 0
    noDelay := false
    flush := false
    noFlush := false
    maxSize := 0
    reportedSize := 0
    wantedMaxSize := 0
    requestedMaxSize := 0
    rdcacheGen := 0
    rdcacheRevoking := 0
    sharedGen := 0
    nlink := 1 }
  lists := { capDirty := [], capFlushing := [], numCapFlushing := 0, capFlushSeq := 0 }
  sent := []

def CapState.with (state : CapState) (inode : CapInode) (message : Option CapMessage) : CapState :=
  { state with inode := inode, sent := state.sent ++ message.toList }

def CapCall.run : CapCall → CapState → Except InodeBug CapState
  | .addCap stale mds given, state => return state.with (cephAddCap stale mds given state.inode) none
  | .grant stale mds given issued pagesLeft, state => do
    let (_, inode) ← handleCapGrant stale mds given issued pagesLeft state.inode
    return state.with inode none
  | .checkCaps check, state => do
    let (message, inode, lists) ← cephCheckCaps check state.inode state.lists
    return { state with lists := lists }.with inode message
  | .tryFlush early memory, state => do
    let (message, inode, lists) ← tryFlushCaps early memory state.inode state.lists
    return { state with lists := lists }.with inode message
  | .kickFlushing early memory, state => do
    let (message, inode) ← kickFlushingInodeCaps early memory state.inode
    return state.with inode message
  | .tryGetRefs stale need want endoff, state => return state.with (tryGetCapRefs stale need want endoff state.inode).2 none
  | .getRefs caps, state => return state.with (cephGetCapRefs caps state.inode) none
  | .putRefs had, state => do
    let ci ← cephPutCapRefs had state.inode.toCephInode
    return state.with { state.inode with toCephInode := ci } none
  | .elsewhere inode lists, state => return { state with lists := lists }.with inode none

structure SameCaps (before after : CapInode) : Prop where
  caps : after.caps = before.caps
  snapCaps : after.snapCaps = before.snapCaps
  refs : referenced after.toCephInode = referenced before.toCephInode

def CapCall.Proper : CapCall → CapState → Prop
  | .elsewhere inode _, state => SameCaps state.inode inode
  | _, _ => True

/-- References are taken without a check only to what is referenced or covered already. -/
def CapCall.Known : CapCall → CapState → Prop
  | .getRefs caps, state =>
    Within (caps &&& countedCaps) (referenced state.inode.toCephInode ||| covering state.inode)
  | _, _ => True

/-- What is issued is implemented, and what is referenced is covered. -/
structure Covered (inode : CapInode) : Prop where
  distinct : (inode.caps.map (·.mds)).Nodup
  issued : ∀ cap ∈ inode.caps, Within cap.issued cap.implemented
  referenced : Within (referenced inode.toCephInode) (covering inode)

section

variable {inode after : CapInode} {mds : Session} {bit : Nat} {message : Option CapMessage}

theorem mem_covering : (covering inode).getLsbD bit = true ↔
    inode.snapCaps.getLsbD bit = true ∨ ∃ cap ∈ inode.caps, cap.implemented.getLsbD bit = true :=
  mem_foldr_or (fun cap : Cap => cap.implemented) inode.caps bit

theorem mem_coveringOthers : (coveringOthers mds inode).getLsbD bit = true ↔ inode.snapCaps.getLsbD bit = true ∨
    ∃ cap ∈ inode.caps, cap.mds ≠ mds ∧ cap.implemented.getLsbD bit = true := by
  refine (mem_foldr_or (fun cap : Cap => cap.implemented) _ bit).trans ?_
  simp only [mem_filter, decide_eq_true_eq, and_assoc]

theorem Covered.of_change (covered : Covered inode) {change : Cap → Cap}
    (caps : after.caps = inode.caps.map fun cap => if cap.mds = mds then change cap else cap)
    (snapCaps : after.snapCaps = inode.snapCaps)
    (refs : Caps.referenced after.toCephInode = Caps.referenced inode.toCephInode)
    (same : ∀ cap ∈ inode.caps, cap.mds = mds → (change cap).mds = cap.mds)
    (issued : ∀ cap ∈ inode.caps, cap.mds = mds → Within (change cap).issued (change cap).implemented)
    (kept : ∀ cap ∈ inode.caps, cap.mds = mds → ∀ bit, (Caps.referenced inode.toCephInode).getLsbD bit = true →
      cap.implemented.getLsbD bit = true → (change cap).implemented.getLsbD bit = true ∨
        ∃ other ∈ inode.caps, other.mds ≠ mds ∧ other.implemented.getLsbD bit = true) : Covered after := by
  have member : ∀ cap ∈ inode.caps, (if cap.mds = mds then change cap else cap) ∈ after.caps := by
    intro cap listed
    rw [caps]
    exact mem_map_of_mem (f := fun cap => if cap.mds = mds then change cap else cap) listed
  refine ⟨?_, ?_, ?_⟩
  · have names : after.caps.map (·.mds) = inode.caps.map (·.mds) := by
      rw [caps, map_map]
      apply map_congr_left
      intro cap listed
      simp only [Function.comp]
      split
      · exact same cap listed ‹_›
      · rfl
    rw [names]
    exact covered.distinct
  · intro cap listed
    rw [caps] at listed
    obtain ⟨old, oldListed, rfl⟩ := List.mem_map.mp listed
    split
    · exact issued old oldListed ‹_›
    · exact covered.issued old oldListed
  · rw [refs, within_iff]
    intro bit used
    rw [mem_covering, snapCaps]
    rcases mem_covering.mp (within_iff.mp covered.referenced bit used) with snapped | ⟨cap, listed, implemented⟩
    · exact .inl snapped
    · right
      by_cases changed : cap.mds = mds
      · rcases kept cap listed changed bit used implemented with stays | ⟨other, otherListed, different, others⟩
        · have isMember := member cap listed
          rw [if_pos changed] at isMember
          exact ⟨_, isMember, stays⟩
        · have isMember := member other otherListed
          rw [if_neg different] at isMember
          exact ⟨other, isMember, others⟩
      · have isMember := member cap listed
        rw [if_neg changed] at isMember
        exact ⟨cap, isMember, implemented⟩

theorem Covered.of_same (covered : Covered inode) (same : SameCaps inode after) : Covered after := by
  refine ⟨?_, ?_, ?_⟩
  · rw [same.caps]
    exact covered.distinct
  · rw [same.caps]
    exact covered.issued
  · unfold covering
    rw [same.caps, same.snapCaps, same.refs]
    exact covered.referenced

variable {cap : Cap} {middle : CapInode} {send : CapSend} {early memory : Bool} {ci ci' : CephInode}
variable {session : Session} {lists lists' : CapLists} {flushing had : CapMask}

theorem getCapForMds_some (found : getCapForMds mds inode = some cap) : cap ∈ inode.caps ∧ cap.mds = mds :=
  ⟨mem_of_find?_eq_some found, by simpa using find?_some found⟩

theorem mem_of_auth {auth : Cap} (found : inode.auth = some auth) : auth ∈ inode.caps := by
  obtain ⟨mds, -, isAuth⟩ := Option.bind_eq_some_iff.mp found
  exact (getCapForMds_some isAuth).1

theorem not_mem_of_getCapForMds (absent : getCapForMds mds inode = none) : mds ∉ inode.caps.map (·.mds) := by
  intro listed
  obtain ⟨cap, member, same⟩ := List.mem_map.mp listed
  exact absurd same (by simpa using List.find?_eq_none.mp absent cap member)

theorem Covered.of_insert (covered : Covered inode) {new : Cap} (absent : getCapForMds new.mds inode = none)
    (issued : Within new.issued new.implemented) : Covered (insertCapNode new inode) := by
  have order : (insertCapNode new inode).caps.Perm (new :: inode.caps) := perm_orderedInsert _ _ _
  refine ⟨?_, ?_, ?_⟩
  · rw [(order.map (·.mds)).nodup_iff, map_cons, nodup_cons]
    exact ⟨not_mem_of_getCapForMds absent, covered.distinct⟩
  · intro cap listed
    rcases List.mem_cons.mp (order.subset listed) with rfl | old
    · exact issued
    · exact covered.issued cap old
  · refine covered.referenced.trans (within_iff.mpr ?_)
    intro bit held
    rw [mem_covering] at held ⊢
    rcases held with snapped | ⟨cap, listed, implemented⟩
    · exact .inl snapped
    · exact .inr ⟨cap, order.symm.subset (mem_cons_of_mem _ listed), implemented⟩

theorem Covered.of_addedCap (covered : Covered inode) (mds : Session) (given : IssuedCap) :
    Covered (addedCap mds given inode).1 := by
  unfold addedCap
  split
  · rename_i absent
    exact covered.of_insert absent (Within.refl 0)
  · split
    · exact covered
    · exact covered

theorem Covered.of_add (covered : Covered inode) (mds : Session) (given : IssuedCap) (wanted mdsWanted : CapMask) :
    Covered (inode.setCap mds (Cap.add given wanted mdsWanted)) := by
  refine covered.of_change rfl rfl rfl ?_ ?_ ?_
  · exact fun _ _ _ => rfl
  · exact fun cap _ _ => within_or_right cap.implemented given.issued
  · exact fun cap _ _ bit _ held => .inl (within_iff.mp (within_or_left cap.implemented given.issued) bit held)

theorem checkCapIssue_same (stale : List Session) (issued : CapMask) (inode : CapInode) :
    SameCaps inode (checkCapIssue stale issued inode) :=
  ⟨rfl, rfl, rfl⟩

theorem getFmode_same (fmode : Option (BitVec 3)) (inode : CapInode) : SameCaps inode (getFmode fmode inode) := by
  cases fmode with
  | none => exact ⟨rfl, rfl, rfl⟩
  | some fmode => exact ⟨rfl, rfl, rfl⟩

theorem authCap_same (becomesAuth : Prop) [Decidable becomesAuth] (mds : Session) (inode : CapInode) :
    SameCaps inode (if becomesAuth then { inode with authCap := some mds } else inode) := by
  split
  · exact ⟨rfl, rfl, rfl⟩
  · exact ⟨rfl, rfl, rfl⟩

theorem Covered.of_addCap (covered : Covered inode) (stale : List Session) (mds : Session) (given : IssuedCap) :
    Covered (cephAddCap stale mds given inode) := by
  have added := covered.of_addedCap mds given
  unfold cephAddCap
  simp only
  generalize addedCap mds given inode = prepared at added ⊢
  obtain ⟨base, cap, taken⟩ := prepared
  have issued := added.of_same (checkCapIssue_same stale taken.issued base)
  refine Covered.of_same (Covered.of_add ?_ mds taken _ _) (getFmode_same _ _)
  exact issued.of_same (authCap_same _ mds _)

theorem tryInvalidate_same (pagesLeft : Nat) (inode : CapInode) :
    SameCaps inode (tryNonblockingInvalidate pagesLeft inode).2 := by
  unfold tryNonblockingInvalidate
  split
  · exact ⟨rfl, rfl, rfl⟩
  · exact ⟨rfl, rfl, rfl⟩

theorem invalidateRevoked_same (newcaps : CapMask) (pagesLeft : Nat) (cap : Cap) (inode : CapInode) :
    SameCaps inode (invalidateRevoked newcaps pagesLeft cap inode).2 := by
  have tried := tryInvalidate_same pagesLeft inode
  unfold invalidateRevoked
  split
  · simp only
    split
    · exact ⟨tried.caps, tried.snapCaps, tried.refs⟩
    · exact tried
  · exact ⟨rfl, rfl, rfl⟩

theorem grantFile_same (grant : CapGrant) (newcaps issued : CapMask) (mds : Session) (inode : CapInode) :
    SameCaps inode (grantFile grant newcaps issued mds inode) := by
  unfold grantFile
  simp only
  split
  · exact ⟨rfl, rfl, rfl⟩
  · exact ⟨rfl, rfl, rfl⟩

theorem SameCaps.trans (first : SameCaps inode middle) (second : SameCaps middle after) : SameCaps inode after :=
  ⟨second.caps.trans first.caps, second.snapCaps.trans first.snapCaps, second.refs.trans first.refs⟩

theorem eq_of_mds (covered : Covered inode) {other : Cap} (listed : cap ∈ inode.caps) (also : other ∈ inode.caps)
    (same : cap.mds = other.mds) : cap = other :=
  inj_on_of_nodup_map covered.distinct listed also same

theorem Covered.of_reissue (covered : Covered inode) (listed : cap ∈ inode.caps) {seq : BitVec 32}
    {newcaps implemented : CapMask} (issued : Within newcaps implemented) (more : Within cap.implemented implemented)
    (same : SameCaps (inode.setCap cap.mds fun cap => { cap with seq := seq }) middle) :
    Covered (middle.setCap cap.mds fun cap => { cap with issued := newcaps, implemented := implemented }) := by
  refine @Covered.of_change inode _ cap.mds covered
    (fun cap => { cap with seq := seq, issued := newcaps, implemented := implemented }) ?_ same.snapCaps same.refs ?_ ?_ ?_
  · simp only [CapInode.setCap, same.caps, map_map]
    apply map_congr_left
    intro other _
    simp only [Function.comp]
    by_cases this : other.mds = cap.mds
    · simp only [this, if_true]
    · simp only [this, if_false]
  · exact fun _ _ _ => rfl
  · exact fun _ _ _ => issued
  · intro other also isMds bit _ held
    rw [eq_of_mds covered also listed isMds] at held
    exact .inl (within_iff.mp more bit held)

theorem Covered.of_grant (covered : Covered inode) {stale : List Session} {grant : CapGrant} {issued : CapMask}
    {pagesLeft : Nat} {check : CapCheck}
    (ran : handleCapGrant stale mds grant issued pagesLeft inode = .ok (check, after)) : Covered after := by
  unfold handleCapGrant at ran
  split at ran
  · cases ran
    exact covered
  · rename_i cap found
    obtain ⟨listed, rfl⟩ := getCapForMds_some found
    simp only at ran
    generalize (if cephSeqCmp grant.seq cap.seq ≤ 0 then grant.caps ||| cap.issued else grant.caps) = newcaps at ran
    obtain ⟨_, within, done⟩ := ok_of_bind ran
    cases done
    have invalidated := invalidateRevoked_same newcaps pagesLeft cap inode
    have listedStill : cap ∈ (invalidateRevoked newcaps pagesLeft cap inode).2.caps := by
      rw [invalidated.caps]
      exact listed
    refine (covered.of_same invalidated).of_reissue listedStill (not_not.mp (not_of_haltIf within)) ?_
      ((checkCapIssue_same stale newcaps _).trans (grantFile_same grant newcaps issued cap.mds _))
    split
    · exact Within.refl _
    · exact within_or_left _ _

theorem assignFlushTid_refs (flushing : CapMask) (ci : CephInode) :
    Caps.referenced (assignFlushTid flushing ci) = Caps.referenced ci := by
  unfold assignFlushTid
  split
  · rfl
  · rfl

theorem sendCap_ok (ran : sendCap send early memory mds inode = .ok (message, after)) :
    (after = inode ∧ message = none) ∨ ∃ cap delaying, cap ∈ inode.caps ∧ cap.mds = mds ∧
      SameCaps (inode.setCap mds fun cap => cap.sent send delaying) after ∧
      ∀ sent, message = some sent → sent.mds = mds ∧ sent.caps = (cap.sent send delaying).implemented := by
  unfold sendCap at ran
  split at ran
  · cases ran
    exact .inl ⟨rfl, rfl⟩
  · rename_i cap found
    obtain ⟨listed, isMds⟩ := getCapForMds_some found
    obtain ⟨_, _, sends⟩ := ok_of_bind ran
    obtain ⟨follows, _, done⟩ := ok_of_bind sends
    cases done
    refine .inr ⟨cap, _, listed, isMds, ⟨rfl, rfl, assignFlushTid_refs send.flushing inode.toCephInode⟩, ?_⟩
    intro sent isSent
    split at isSent
    · cases isSent
      exact ⟨rfl, rfl⟩
    · cases isSent

theorem Cap.sent_issued {delaying : Bool} (issued : Within cap.issued cap.implemented) :
    Within (cap.sent send delaying).issued (cap.sent send delaying).implemented := by
  exact ((within_and_left _ _).trans issued).and (within_or_left _ _)

theorem Covered.of_send (covered : Covered inode)
    (sound : ∀ bit, (Caps.referenced inode.toCephInode).getLsbD bit = true → send.used.getLsbD bit = true ∨
      ∃ other ∈ inode.caps, other.mds ≠ mds ∧ other.implemented.getLsbD bit = true)
    (ran : sendCap send early memory mds inode = .ok (message, after)) : Covered after := by
  rcases sendCap_ok ran with ⟨rfl, -⟩ | ⟨cap, delaying, listed, isMds, same, -⟩
  · exact covered
  · refine Covered.of_same ?_ same
    refine covered.of_change rfl rfl rfl ?_ ?_ ?_
    · exact fun _ _ _ => rfl
    · exact fun other also _ => Cap.sent_issued (covered.issued other also)
    · intro other _ _ bit used held
      rcases sound bit used with stays | others
      · left
        unfold Cap.sent
        simp only [BitVec.getLsbD_and, BitVec.getLsbD_or, held, stays, Bool.or_true, Bool.true_and]
      · exact .inr others

def Honest (message : CapMessage) (inode : CapInode) : Prop :=
  Within (referenced inode.toCephInode &&& ~~~coveringOthers message.mds inode) message.caps

theorem Covered.honest (covered : Covered after) {sent : CapMessage} (listed : cap ∈ after.caps)
    (isMds : cap.mds = sent.mds) (caps : sent.caps = cap.implemented) : Honest sent after := by
  unfold Honest
  rw [within_iff]
  intro bit uncovered
  rw [BitVec.getLsbD_and, Bool.and_eq_true] at uncovered
  obtain ⟨used, notOthers⟩ := uncovered
  have small := BitVec.lt_of_getLsbD used
  have alone : (coveringOthers sent.mds after).getLsbD bit = false := by
    simpa [BitVec.getLsbD_not, small] using notOthers
  have others := mem_coveringOthers.not.mp (Bool.eq_false_iff.mp alone)
  rw [caps]
  rcases mem_covering.mp (within_iff.mp covered.referenced bit used) with snapped | ⟨other, also, implemented⟩
  · exact absurd (.inl snapped) others
  · by_cases this : other.mds = sent.mds
    · rwa [eq_of_mds covered listed also (isMds.trans this.symm)]
    · exact absurd (.inr ⟨other, also, this, implemented⟩) others

theorem Covered.of_send_honest (covered : Covered inode)
    (sound : ∀ bit, (Caps.referenced inode.toCephInode).getLsbD bit = true → send.used.getLsbD bit = true ∨
      ∃ other ∈ inode.caps, other.mds ≠ mds ∧ other.implemented.getLsbD bit = true)
    (ran : sendCap send early memory mds inode = .ok (message, after)) :
    Covered after ∧ ∀ sent, message = some sent → Honest sent after := by
  have coveredAfter := covered.of_send sound ran
  refine ⟨coveredAfter, ?_⟩
  rcases sendCap_ok ran with ⟨-, none⟩ | ⟨cap, delaying, listed, isMds, same, tells⟩
  · intro sent isSent
    rw [none] at isSent
    cases isSent
  · intro sent isSent
    obtain ⟨sentMds, caps⟩ := tells sent isSent
    have listedAfter : cap.sent send delaying ∈ after.caps := by
      rw [same.caps]
      exact List.mem_map.mpr ⟨cap, listed, by rw [if_pos isMds]⟩
    exact coveredAfter.honest listedAfter (isMds.trans sentMds.symm) caps

theorem mem_referenced : (Caps.referenced ci).getLsbD bit = true ↔
    ∃ ref ∈ refCounts ci, 0 < ref.2 ∧ ref.1.getLsbD bit = true := by
  refine (mem_foldr_or (fun ref : CapMask × Int => if 0 < ref.2 then ref.1 else 0) _ bit).trans ?_
  have none : (0 : CapMask).getLsbD bit = false := BitVec.getLsbD_zero
  rw [none, Bool.false_eq_true, false_or]
  refine exists_congr fun ref => and_congr_right fun _ => ?_
  by_cases some : 0 < ref.2
  · simp [some]
  · simp [some]

theorem referenced_within_used (ci : CephInode) : Within (Caps.referenced ci) (cephCapsUsed ci) := by
  rw [within_iff]
  intro bit isReferenced
  obtain ⟨ref, listed, some, holds⟩ := mem_referenced.mp isReferenced
  simp only [refCounts, mem_cons, not_mem_nil, or_false] at listed
  unfold cephCapsUsed
  rcases listed with rfl | rfl | rfl | rfl | rfl
  · simp [BitVec.getLsbD_or, holds, Int.ne_of_gt some]
  · simp [BitVec.getLsbD_or, holds, Int.ne_of_gt some]
  · simp [BitVec.getLsbD_or, holds, Int.ne_of_gt some]
  · simp [BitVec.getLsbD_or, holds, Int.ne_of_gt some]
  · simp [BitVec.getLsbD_or, holds, Int.ne_of_gt some]

theorem Covered.of_used (covered : Covered inode) (listed : cap ∈ inode.caps) (bit : Nat)
    (used : (Caps.referenced inode.toCephInode).getLsbD bit = true) : (cephCapsUsedOf cap inode).getLsbD bit = true ∨
      ∃ other ∈ inode.caps, other.mds ≠ cap.mds ∧ other.implemented.getLsbD bit = true := by
  have inUse := within_iff.mp (referenced_within_used inode.toCephInode) bit used
  unfold cephCapsUsedOf
  cases isAuth : inode.auth with
  | none => exact .inl inUse
  | some auth =>
    simp only
    split
    · rename_i different
      have isListed := mem_of_auth isAuth
      by_cases issued : auth.issued.getLsbD bit = true
      · exact .inr ⟨auth, isListed, Ne.symm different, within_iff.mp (covered.issued auth isListed) bit issued⟩
      · have small := BitVec.lt_of_getLsbD inUse
        left
        simp only [BitVec.getLsbD_and, BitVec.getLsbD_not, inUse, small, decide_true, Bool.true_and]
        simpa using issued
    · exact .inl inUse

theorem markCapsFlushing_same
    (ran : markCapsFlushing flushedInode session inode.toCephInode lists = .ok (flushing, ci, lists')) :
    SameCaps inode { inode with toCephInode := ci } := by
  obtain ⟨-, rfl, -⟩ := markCapsFlushing_changes ran
  exact ⟨rfl, rfl, rfl⟩

theorem Covered.of_mark_send (covered : Covered inode)
    (marked : markCapsFlushing flushedInode session inode.toCephInode lists = .ok (flushing, ci, lists'))
    (sound : ∀ bit, (Caps.referenced inode.toCephInode).getLsbD bit = true → send.used.getLsbD bit = true ∨
      ∃ other ∈ inode.caps, other.mds ≠ mds ∧ other.implemented.getLsbD bit = true)
    (ran : sendCap send early memory mds { inode with toCephInode := ci } = .ok (message, after)) :
    Covered after ∧ ∀ sent, message = some sent → Honest sent after := by
  have same := markCapsFlushing_same marked
  refine (covered.of_same same).of_send_honest ?_ ran
  rw [same.refs]
  exact sound

theorem Covered.of_checkCaps (covered : Covered inode) {check : CapsToCheck}
    (ran : cephCheckCaps check inode lists = .ok (message, after, lists')) :
    Covered after ∧ ∀ sent, message = some sent → Honest sent after := by
  unfold cephCheckCaps at ran
  split at ran
  · cases ran
    have tried := tryInvalidate_same check.pagesLeft inode
    exact ⟨covered.of_same ⟨tried.caps, tried.snapCaps, tried.refs⟩, by simp⟩
  · split at ran
    · cases ran
      exact ⟨covered, by simp⟩
    · rename_i cap found
      have listed : cap ∈ inode.caps := mem_of_find?_eq_some found
      split at ran
      · obtain ⟨⟨flushing, ci, lists''⟩, marked, sends⟩ := ok_of_bind ran
        obtain ⟨⟨message', after'⟩, sent, done⟩ := ok_of_bind sends
        cases done
        exact covered.of_mark_send marked (covered.of_used listed) sent
      · obtain ⟨⟨message', after'⟩, sent, done⟩ := ok_of_bind ran
        cases done
        exact covered.of_send_honest (covered.of_used listed) sent

theorem Covered.of_tryFlush (covered : Covered inode)
    (ran : tryFlushCaps early memory inode lists = .ok (message, after, lists')) :
    Covered after ∧ ∀ sent, message = some sent → Honest sent after := by
  unfold tryFlushCaps at ran
  split at ran
  · cases ran
    exact ⟨covered, by simp⟩
  · split at ran
    · cases ran
      exact ⟨covered, by simp⟩
    · obtain ⟨⟨flushing, ci, lists''⟩, marked, sends⟩ := ok_of_bind ran
      obtain ⟨⟨message', after'⟩, sent, done⟩ := ok_of_bind sends
      cases done
      refine covered.of_mark_send marked ?_ sent
      exact fun bit used => .inl (within_iff.mp (referenced_within_used inode.toCephInode) bit used)

theorem Covered.of_kickFlushing (covered : Covered inode)
    (ran : kickFlushingInodeCaps early memory inode = .ok (message, after)) :
    Covered after ∧ ∀ sent, message = some sent → Honest sent after := by
  unfold kickFlushingInodeCaps at ran
  split at ran
  · cases ran
    exact ⟨covered, by simp⟩
  · split at ran
    · cases ran
      exact ⟨covered, by simp⟩
    · refine covered.of_send_honest ?_ ran
      exact fun bit used => .inl (within_iff.mp (referenced_within_used inode.toCephInode) bit used)

theorem counted_single {ref : CapMask × Int} (listed : ref ∈ refCounts ci) :
    Within ref.1 countedCaps ∧ ∃ place, ref.1 = BitVec.twoPow 32 place := by
  simp only [refCounts, mem_cons, not_mem_nil, or_false] at listed
  rcases listed with rfl | rfl | rfl | rfl | rfl
  · exact ⟨(by decide : Within cephCapPin countedCaps), 0, (by decide : cephCapPin = BitVec.twoPow 32 0)⟩
  · exact ⟨(by decide : Within cephCapFileRd countedCaps), 11, (by decide : cephCapFileRd = BitVec.twoPow 32 11)⟩
  · exact ⟨(by decide : Within cephCapFileCache countedCaps), 10, (by decide : cephCapFileCache = BitVec.twoPow 32 10)⟩
  · exact ⟨(by decide : Within cephCapFileWr countedCaps), 12, (by decide : cephCapFileWr = BitVec.twoPow 32 12)⟩
  · exact ⟨(by decide : Within cephCapFileBuffer countedCaps), 13, (by decide : cephCapFileBuffer = BitVec.twoPow 32 13)⟩

theorem referenced_takeCapRefs (got : CapMask) (ci : CephInode) :
    Within (Caps.referenced (takeCapRefs got ci)) (Caps.referenced ci ||| (got &&& countedCaps)) := by
  have taken : refCounts (takeCapRefs got ci) =
      (refCounts ci).map fun ref => (ref.1, if got &&& ref.1 ≠ 0 then ref.2 + 1 else ref.2) := rfl
  rw [within_iff]
  intro bit isReferenced
  obtain ⟨after, listed, some, holds⟩ := mem_referenced.mp isReferenced
  rw [taken] at listed
  obtain ⟨ref, listedBefore, rfl⟩ := List.mem_map.mp listed
  obtain ⟨counted, place, single⟩ := counted_single listedBefore
  rw [BitVec.getLsbD_or, Bool.or_eq_true]
  by_cases takes : got &&& ref.1 ≠ 0
  · right
    have isGot : Within ref.1 got := by
      rw [single] at takes ⊢
      exact within_of_meets takes
    rw [BitVec.getLsbD_and, within_iff.mp isGot bit holds, within_iff.mp counted bit holds, Bool.true_and]
  · left
    simp only [if_neg takes] at some
    exact mem_referenced.mpr ⟨ref, listedBefore, some, holds⟩

theorem Covered.of_take (covered : Covered inode) {got : CapMask}
    (known : Within (got &&& countedCaps) (Caps.referenced inode.toCephInode ||| covering inode)) :
    Covered { inode with toCephInode := takeCapRefs got inode.toCephInode } where
  distinct := covered.distinct
  issued := covered.issued
  referenced := by
    refine (referenced_takeCapRefs got inode.toCephInode).trans ?_
    exact covered.referenced.or (known.trans (covered.referenced.or (.refl _)))

theorem refCounts_put (ran : cephPutCapRefs had ci = .ok ci') :
    refCounts ci' = (refCounts ci).map fun ref => (ref.1, if had &&& ref.1 ≠ 0 then ref.2 - 1 else ref.2) := by
  unfold cephPutCapRefs at ran
  by_cases writer : had &&& cephCapFileWr ≠ 0
  · simp only [if_pos writer] at ran
    by_cases last : ci.wrRef - 1 = 0
    · simp only [if_pos last] at ran
      obtain ⟨capSnaps, _, done⟩ := ok_of_bind ran
      cases done
      simp only [refCounts, map_cons, map_nil, if_pos writer]
    · simp only [if_neg last] at ran
      cases ran
      simp only [refCounts, map_cons, map_nil, if_pos writer]
  · simp only [if_neg writer] at ran
    cases ran
    simp only [refCounts, map_cons, map_nil, if_neg writer]

theorem referenced_putCapRefs (ran : cephPutCapRefs had ci = .ok ci') :
    Within (Caps.referenced ci') (Caps.referenced ci) := by
  rw [within_iff]
  intro bit isReferenced
  obtain ⟨after, listed, some, holds⟩ := mem_referenced.mp isReferenced
  rw [refCounts_put ran] at listed
  obtain ⟨ref, listedBefore, rfl⟩ := List.mem_map.mp listed
  refine mem_referenced.mpr ⟨ref, listedBefore, ?_, holds⟩
  split at some
  · omega
  · exact some

theorem Covered.of_put (covered : Covered inode)
    (ran : cephPutCapRefs had inode.toCephInode = .ok ci) : Covered { inode with toCephInode := ci } where
  distinct := covered.distinct
  issued := covered.issued
  referenced := (referenced_putCapRefs ran).trans covered.referenced

theorem Covered.issued_within (covered : Covered inode) (stale : List Session) :
    Within (cephCapsIssued stale inode) (covering inode) := by
  have issued : Within (unionOf (·.issued) (inode.valid stale) inode.snapCaps) (covering inode) := by
    rw [within_iff]
    intro bit held
    rw [mem_covering]
    rcases (mem_foldr_or (fun cap : Cap => cap.issued) _ bit).mp held with snapped | ⟨cap, valid, isIssued⟩
    · exact .inl snapped
    · have listed := mem_of_mem_filter valid
      exact .inr ⟨cap, listed, within_iff.mp (covered.issued cap listed) bit isIssued⟩
  unfold cephCapsIssued
  simp only
  split
  · exact (within_and_left _ _).trans issued
  · exact issued

theorem Covered.of_tryGet (covered : Covered inode) (stale : List Session) (need want : CapMask) (endoff : Int) :
    Covered (tryGetCapRefs stale need want endoff inode).2 := by
  have issued := covered.issued_within stale
  unfold tryGetCapRefs
  split
  · exact covered
  · simp only
    split
    · exact covered
    · split
      · exact covered
      · split
        · rename_i needed
          split
          · refine covered.of_take ?_
            have held : Within need (covering inode) := by
              rw [← needed]
              exact (within_and_left _ _).trans issued
            have all : Within (need ||| (cephCapsIssued stale inode &&& want)) (covering inode) :=
              held.or ((within_and_left _ _).trans issued)
            exact ((within_and_left _ _).trans all).trans (within_or_right _ _)
          · exact covered
        · exact covered

/-- Every call keeps what is referenced covered, and says nothing else to an mds. -/
theorem CapCall.covered {call : CapCall} {state next : CapState} (known : call.Proper state ∧ call.Known state)
    (covered : Covered state.inode) (ran : call.run state = .ok next) :
    Covered next.inode ∧ ∃ sent : Option CapMessage, next.sent = state.sent ++ sent.toList ∧
      ∀ message, sent = some message → Honest message next.inode := by
  cases call with
  | addCap stale mds given =>
    cases ran
    exact ⟨covered.of_addCap stale mds given, none, rfl, by simp⟩
  | grant stale mds given issued pagesLeft =>
    obtain ⟨⟨check, inode⟩, granted, done⟩ := ok_of_bind ran
    cases done
    exact ⟨covered.of_grant granted, none, rfl, by simp⟩
  | checkCaps check =>
    obtain ⟨⟨message, inode, lists⟩, checked, done⟩ := ok_of_bind ran
    cases done
    obtain ⟨stays, honest⟩ := covered.of_checkCaps checked
    exact ⟨stays, message, rfl, honest⟩
  | tryFlush early memory =>
    obtain ⟨⟨message, inode, lists⟩, flushed, done⟩ := ok_of_bind ran
    cases done
    obtain ⟨stays, honest⟩ := covered.of_tryFlush flushed
    exact ⟨stays, message, rfl, honest⟩
  | kickFlushing early memory =>
    obtain ⟨⟨message, inode⟩, kicked, done⟩ := ok_of_bind ran
    cases done
    obtain ⟨stays, honest⟩ := covered.of_kickFlushing kicked
    exact ⟨stays, message, rfl, honest⟩
  | tryGetRefs stale need want endoff =>
    cases ran
    exact ⟨covered.of_tryGet stale need want endoff, none, rfl, by simp⟩
  | getRefs caps =>
    cases ran
    exact ⟨covered.of_take known.2, none, rfl, by simp⟩
  | putRefs had =>
    obtain ⟨ci, put, done⟩ := ok_of_bind ran
    cases done
    exact ⟨covered.of_put put, none, rfl, by simp⟩
  | elsewhere inode lists =>
    cases ran
    exact ⟨covered.of_same known.1, none, rfl, by simp⟩

theorem init_covered {snapc : SnapContext} {snapCaps : CapMask} : Covered (CapState.init snapc snapCaps).inode where
  distinct := nodup_nil
  issued := by simp [CapState.init]
  referenced := by
    have none : Caps.referenced (CapState.init snapc snapCaps).inode.toCephInode = 0 := by
      simp [Caps.referenced, refCounts, CapState.init, CephInode.clean]
    rw [none]
    exact within_iff.mpr fun bit inZero => by simp at inZero

/-- If references are taken without a check only to what is held, issued capabilities are
implemented and referenced ones are covered, and no message gives back a referenced
capability that only its cap covers. -/
theorem caps_covered {snapc : SnapContext} {snapCaps : CapMask} {state : CapState}
    (reached : Reached CapCall.run (fun call state => call.Proper state ∧ call.Known state)
      (.init snapc snapCaps) state) :
    (∀ cap ∈ state.inode.caps, Within cap.issued cap.implemented) ∧
    Within (referenced state.inode.toCephInode) (covering state.inode) ∧
    ∀ call next, CapCall.Proper call state ∧ CapCall.Known call state → CapCall.run call state = .ok next →
      ∃ sent : Option CapMessage, next.sent = state.sent ++ sent.toList ∧
        ∀ message, sent = some message → Honest message next.inode := by
  have covered : Covered state.inode := by
    refine @Reached.preserved _ _ _ _ _ (fun state => Covered state.inode) _ _ ?_ init_covered reached
    exact fun call before after known holds ran => (CapCall.covered known holds ran).1
  exact ⟨covered.issued, covered.referenced, fun call next known ran => (CapCall.covered known covered ran).2⟩

end

/-- A file is read while the mds revokes the capability to read it. -/
theorem caps_covered_reading : ∃ state : CapState,
    referenced state.inode.toCephInode = cephCapFileRd ||| cephCapFileCache ∧
    (∀ cap ∈ state.inode.caps, cap.issued = cephCapPin) ∧
    Within (referenced state.inode.toCephInode) (covering state.inode) := by
  have added : Reached CapCall.run (fun call state => call.Proper state ∧ call.Known state)
      (.init { addr := 4096, seq := 1 } 0) _ :=
    Reached.start.next (.addCap [] 0
      { capId := 1
        fmode := some cephFileModeRd
        issued := cephCapPin ||| cephCapFileRd ||| cephCapFileCache
        wanted := 0
        seq := 1
        mseq := 1
        auth := true }) ⟨trivial, trivial⟩ rfl
  have taken := added.next (.tryGetRefs [] cephCapFileRd cephCapFileCache (-1)) ⟨trivial, trivial⟩ rfl
  have revoked := taken.next (.grant [] 0
    { op := .revoke
      seq := 2
      caps := cephCapPin
      wanted := 0
      nlink := 1
      maxSize := 0
      file := { size := 0, mtime := 0, atime := 0, ctime := 0, timeWarpSeq := 0 } } 0 0) ⟨trivial, trivial⟩ rfl
  exact ⟨_, by decide +kernel, by decide +kernel, (caps_covered revoked).2.1⟩

/-- An mds request pins an inode that has no caps. -/
theorem caps_uncovered : ∃ state : CapState, Reached CapCall.run CapCall.Proper (.init { addr := 4096, seq := 1 } 0) state ∧
    ¬ Within (referenced state.inode.toCephInode) (covering state.inode) :=
  ⟨_, Reached.start.next (.getRefs cephCapPin) trivial rfl, by decide +kernel⟩

end KmodCeph.Caps
