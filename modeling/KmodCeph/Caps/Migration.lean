import KmodCeph.Caps.Covered

namespace KmodCeph.Caps

open Lib List Option

def cephCapFlagRelease : BitVec 8 := 2

/-- `struct ceph_mds_cap_peer`, with its mds as the `int` that it is read to. -/
structure CapPeer where
  capId : Nat
  seq : BitVec 32
  mseq : BitVec 32
  mds : Int
  flags : BitVec 8

def peerMds (peer : Option CapPeer) : Option (Session × CapPeer) :=
  match peer with
  | none => none
  | some peer => if peer.mds < 0 then none else some (peer.mds.toNat, peer)

def removeCap (mds : Session) (inode : CapInode) : CapInode :=
  { inode with
    caps := inode.caps.filter (·.mds ≠ mds)
    authCap := if inode.authCap = some mds then none else inode.authCap }

def Cap.import (peer : CapPeer) (issued : CapMask) (cap : Cap) : Cap :=
  { cap with
    capId := peer.capId
    seq := peer.seq - 1
    issueSeq := peer.seq - 1
    mseq := peer.mseq
    issued := cap.issued ||| issued
    implemented := cap.implemented ||| issued }

def exportToCap (mds target : Session) (peer : CapPeer) (cap tcap : Cap) (inode : CapInode) (lists : CapLists) :
    CapInode × CapLists :=
  if tcap.capId ≠ peer.capId ∨ cephSeqCmp tcap.seq peer.seq < 0 then
    let inode := inode.setCap target (Cap.import peer cap.issued)
    let inode := if inode.authCap = some mds then { inode with authCap := some target } else inode
    let lists :=
      if inode.flushingCaps ≠ 0 ∧ inode.authCap = some target then
        { lists with capFlushing := lists.unlinkFlushing flushedInode ++ [(target, flushedInode)] }
      else lists
    (inode, lists)
  else (inode, lists)

/-- `handle_cap_export` from `retry` on with `i_ceph_lock` held, or nothing if it lets the locks go to open the session
of the target. -/
def exportLocked (stale : List Session) (mds : Session) (capId : Nat) (target : Option (Session × CapPeer))
    (tsession : Bool) (state : CapInode × CapLists) : Option (CapInode × CapLists) :=
  let (inode, lists) := state
  match getCapForMds mds inode with
  | none => some (inode, lists)
  | some cap =>
    if cap.capId ≠ capId then some (inode, lists)
    else
      match target with
      | none => some (removeCap mds inode, lists)
      | some (target, peer) =>
        match getCapForMds target inode with
        | some tcap =>
          let (inode, lists) := exportToCap mds target peer cap tcap inode lists
          some (removeCap mds inode, lists)
        | none =>
          if tsession then
            let inode := cephAddCap stale target
              { capId := peer.capId
                fmode := none
                issued := cap.issued
                wanted := 0
                seq := peer.seq - 1
                mseq := peer.mseq
                auth := inode.authCap = some mds } inode
            some (removeCap mds inode, lists)
          else none

/-- `handle_cap_export`; `opens` says whether the session of the target can be opened, and `meanwhile` is what else is
handled while the locks are let go for that. -/
def handleCapExport (stale : List Session) (mds : Session) (capId : Nat) (peer : Option CapPeer) (opens : Bool)
    (meanwhile : CapInode × CapLists → CapInode × CapLists) (state : CapInode × CapLists) : CapInode × CapLists :=
  match exportLocked stale mds capId (peerMds peer) false state with
  | some after => after
  | none =>
    let state := meanwhile state
    (exportLocked stale mds capId (if opens then peerMds peer else none) opens state).getD state

structure CapImport where
  capId : Nat
  caps : CapMask
  wanted : CapMask
  seq : BitVec 32
  mseq : BitVec 32

/-- The part of `handle_cap_import` that removes the cap of the exporter, with the cap that is to be released. -/
def removeExported (peer : Option CapPeer) (inode : CapInode) : Option Cap × CapInode :=
  match peerMds peer with
  | none => (none, inode)
  | some (mds, peer) =>
    match getCapForMds mds inode with
    | none => (none, inode)
    | some ocap =>
      if ocap.capId = peer.capId then
        (if peer.flags &&& cephCapFlagRelease ≠ 0 then some ocap else none, removeCap mds inode)
      else (none, inode)

/-- `handle_cap_import`, with the old issued capabilities and the cap that is to be released. -/
def handleCapImport (stale : List Session) (mds : Session) (im : CapImport) (peer : Option CapPeer)
    (inode : CapInode) : CapMask × Option Cap × CapInode :=
  let issued := cephCapsImplemented stale inode ||| cephCapsDirty inode.toCephInode
  let inode := cephAddCap stale mds
    { capId := im.capId
      fmode := none
      issued := im.caps
      wanted := im.wanted
      seq := im.seq
      mseq := im.mseq
      auth := true } inode
  let (released, inode) := removeExported peer inode
  (issued, released, { inode with
    wantedMaxSize := 0
    requestedMaxSize := 0 })

def Cap.bare (cap : Cap) : Cap :=
  { cap with mdsWanted := 0 }

/-- The caps are in the order of their mds, one for each, and the auth cap is one of them. -/
structure CapInode.Indexed (inode : CapInode) : Prop where
  sorted : inode.caps.Pairwise fun l r => l.mds < r.mds
  auth : ∀ mds, inode.authCap = some mds → getCapForMds mds inode ≠ none

section

variable {inode after : CapInode} {lists : CapLists} {mds other : Session} {change : Cap → Cap} {cap new : Cap}

@[simp] theorem Cap.bare_mds (cap : Cap) : cap.bare.mds = cap.mds := rfl

theorem getCapForMds_of_caps (caps : after.caps = inode.caps) (mds : Session) :
    getCapForMds mds after = getCapForMds mds inode := by
  rw [getCapForMds, getCapForMds, caps]

theorem getCapForMds_mds (found : getCapForMds mds inode = some cap) : cap.mds = mds :=
  (getCapForMds_some found).2

theorem find_map_same {caps : List Cap} (same : ∀ cap, (change cap).mds = cap.mds) :
    (caps.map change).find? (·.mds = mds) = (caps.find? (·.mds = mds)).map change := by
  rw [find?_map]
  congr 2
  funext cap
  rw [Function.comp_apply, same]

theorem getCapForMds_setCap (same : ∀ cap, (change cap).mds = cap.mds) :
    getCapForMds other (inode.setCap mds change) =
      if other = mds then (getCapForMds other inode).map change else getCapForMds other inode := by
  have keeps : ∀ cap : Cap, (if cap.mds = mds then change cap else cap).mds = cap.mds := by
    intro cap
    split
    · exact same cap
    · rfl
  rw [getCapForMds, CapInode.setCap, find_map_same keeps]
  change (getCapForMds other inode).map _ = _
  cases found : getCapForMds other inode with
  | none => split <;> rfl
  | some cap =>
    have here := getCapForMds_mds found
    rw [map_some, here]
    split
    · rfl
    · rfl

theorem find_cons (first : Cap) (rest : List Cap) (mds : Session) :
    (first :: rest).find? (·.mds = mds) = if first.mds = mds then some first else rest.find? (·.mds = mds) := by
  rw [find?_cons]
  by_cases same : first.mds = mds
  · rw [decide_eq_true same, if_pos same]
  · rw [decide_eq_false same, if_neg same]

theorem find_orderedInsert {caps : List Cap} (absent : ∀ cap ∈ caps, cap.mds ≠ new.mds) :
    (caps.orderedInsert (·.mds ≤ ·.mds) new).find? (·.mds = other) =
      if other = new.mds then some new else caps.find? (·.mds = other) := by
  have symm : (other = new.mds) = (new.mds = other) := propext ⟨Eq.symm, Eq.symm⟩
  induction caps with
  | nil =>
    rw [orderedInsert_nil, find_cons]
    simp only [symm]
  | cons first rest ih =>
    have differs := absent first mem_cons_self
    have found := ih fun cap listed => absent cap (mem_cons_of_mem _ listed)
    rw [orderedInsert_cons]
    split
    · rw [find_cons]
      simp only [symm]
    · rw [find_cons, find_cons, found]
      by_cases same : first.mds = other
      · have fresh : other ≠ new.mds := same ▸ differs
        rw [if_pos same, if_neg fresh, if_pos same]
      · rw [if_neg same, if_neg same]

theorem sorted_orderedInsert {caps : List Cap} (sorted : caps.Pairwise fun l r => l.mds < r.mds)
    (absent : ∀ cap ∈ caps, cap.mds ≠ new.mds) :
    (caps.orderedInsert (·.mds ≤ ·.mds) new).Pairwise fun l r => l.mds < r.mds := by
  induction caps with
  | nil => exact pairwise_singleton _ _
  | cons first rest ih =>
    obtain ⟨before, restSorted⟩ := List.pairwise_cons.mp sorted
    have differs := absent first mem_cons_self
    rw [orderedInsert_cons]
    split
    · next less =>
      refine List.pairwise_cons.mpr ⟨?_, sorted⟩
      intro cap listed
      have ahead : new.mds < first.mds := lt_of_le_of_ne less differs.symm
      rcases List.mem_cons.mp listed with rfl | later
      · exact ahead
      · exact ahead.trans (before cap later)
    · next greater =>
      refine List.pairwise_cons.mpr ⟨?_, ih restSorted fun cap listed => absent cap (mem_cons_of_mem _ listed)⟩
      intro cap listed
      rcases (mem_orderedInsert _).mp listed with rfl | later
      · exact lt_of_not_ge greater
      · exact before cap later

theorem getCapForMds_insertCapNode (absent : getCapForMds new.mds inode = none) :
    getCapForMds other (insertCapNode new inode) = if other = new.mds then some new else getCapForMds other inode := by
  apply find_orderedInsert
  intro cap listed same
  exact not_mem_of_getCapForMds absent (same ▸ mem_map_of_mem listed)

theorem getCapForMds_removeCap :
    getCapForMds other (removeCap mds inode) = if other = mds then none else getCapForMds other inode := by
  rw [getCapForMds, removeCap, find?_filter]
  by_cases same : other = mds
  · rw [if_pos same, find?_eq_none]
    intro cap _
    simp [same]
  · rw [if_neg same, getCapForMds]
    congr 1
    funext cap
    by_cases here : cap.mds = other
    · simp [here, same]
    · simp [here]

theorem caps_ext {l r : List Cap} (left : l.Pairwise fun a b => a.mds < b.mds)
    (right : r.Pairwise fun a b => a.mds < b.mds)
    (same : ∀ mds, l.find? (·.mds = mds) = r.find? (·.mds = mds)) : l = r := by
  have find {caps : List Cap} (sorted : caps.Pairwise fun a b => a.mds < b.mds) (cap : Cap) :
      cap ∈ caps ↔ caps.find? (·.mds = cap.mds) = some cap := by
    refine ⟨fun listed => ?_, mem_of_find?_eq_some⟩
    induction caps with
    | nil => cases listed
    | cons first rest ih =>
      obtain ⟨before, restSorted⟩ := List.pairwise_cons.mp sorted
      rcases List.mem_cons.mp listed with rfl | later
      · exact find?_cons_of_pos (by simp)
      · have differs := (before cap later).ne
        rw [find?_cons_of_neg (by simpa using differs)]
        exact ih restSorted later
  have nodup {caps : List Cap} (sorted : caps.Pairwise fun a b => a.mds < b.mds) : caps.Nodup :=
    sorted.imp fun less equal => (equal ▸ less).ne rfl
  have perm : l.Perm r := by
    rw [perm_ext_iff_of_nodup (nodup left) (nodup right)]
    intro cap
    rw [find left, find right, same]
  exact perm.eq_of_pairwise (fun a b _ _ less greater => absurd less greater.asymm) left right

namespace CapInode.Indexed

theorem setCap (indexed : inode.Indexed) (mds : Session) (same : ∀ cap, (change cap).mds = cap.mds) :
    (inode.setCap mds change).Indexed where
  sorted := by
    refine List.pairwise_map.mpr (indexed.sorted.imp ?_)
    intro l r less
    have keeps : ∀ cap : Cap, (if cap.mds = mds then change cap else cap).mds = cap.mds := by
      intro cap
      split
      · exact same cap
      · rfl
    rw [keeps, keeps]
    exact less
  auth := by
    intro auth isAuth
    have held := indexed.auth auth isAuth
    rw [getCapForMds_setCap same]
    split
    · exact fun absent => held (Option.map_eq_none_iff.mp absent)
    · exact held

theorem insertCapNode (indexed : inode.Indexed) (absent : getCapForMds new.mds inode = none) :
    (insertCapNode new inode).Indexed where
  sorted := by
    apply sorted_orderedInsert indexed.sorted
    intro cap listed same
    exact not_mem_of_getCapForMds absent (same ▸ mem_map_of_mem listed)
  auth := by
    intro auth isAuth
    have held := indexed.auth auth isAuth
    rw [getCapForMds_insertCapNode absent]
    split
    · exact nofun
    · exact held

theorem removeCap (indexed : inode.Indexed) (mds : Session) : (removeCap mds inode).Indexed where
  sorted := indexed.sorted.filter _
  auth := by
    intro auth isAuth
    dsimp only [Caps.removeCap] at isAuth
    split at isAuth
    · cases isAuth
    · next other =>
      have differs : auth ≠ mds := fun same => other (same ▸ isAuth)
      rw [getCapForMds_removeCap, if_neg differs]
      exact indexed.auth auth isAuth

end CapInode.Indexed

/-- A message that is not from before a cap was imported. -/
def Later (mds : Session) (given : IssuedCap) (inode : CapInode) : Prop :=
  ∀ cap, getCapForMds mds inode = some cap → 0 < cephSeqCmp given.seq cap.seq

/-- What `ceph_add_cap` leaves of a cap, but for what its mds was told is wanted. -/
def IssuedCap.issuedTo (given : IssuedCap) (mds : Session) (implemented : CapMask) : Cap where
  mds := mds
  capId := given.capId
  issued := given.issued
  implemented := implemented ||| given.issued
  mdsWanted := 0
  seq := given.seq
  issueSeq := given.seq
  mseq := given.mseq

def implementedOf (mds : Session) (inode : CapInode) : CapMask :=
  match getCapForMds mds inode with
  | none => 0
  | some cap => cap.implemented

def CapInode.yields (inode : CapInode) (mseq : BitVec 32) : Bool :=
  match inode.auth with
  | none => true
  | some auth => cephSeqCmp auth.mseq mseq < 0

theorem addedCap_later {given : IssuedCap} (later : Later mds given inode) (indexed : inode.Indexed) :
    ∃ base cap, addedCap mds given inode = (base, cap, given) ∧ base.Indexed ∧ base.authCap = inode.authCap ∧
      base.auth = inode.auth ∧
      (∀ other, getCapForMds other base = if other = mds then some cap else getCapForMds other inode) ∧
      cap.mds = mds ∧ cap.implemented = implementedOf mds inode := by
  rw [addedCap, implementedOf]
  cases found : getCapForMds mds inode with
  | none =>
    let new : Cap :=
      { mds := mds, capId := 0, issued := 0, implemented := 0, mdsWanted := 0, seq := 0, issueSeq := 0, mseq := 0 }
    have absent : getCapForMds new.mds inode = none := found
    refine ⟨insertCapNode new inode, new, rfl, indexed.insertCapNode absent, rfl, ?_, ?_, rfl, rfl⟩
    · rw [CapInode.auth, CapInode.auth]
      change inode.authCap.bind _ = _
      cases isAuth : inode.authCap with
      | none => rfl
      | some auth =>
        have differs : auth ≠ mds := fun same => indexed.auth auth isAuth (same ▸ found)
        rw [bind_some, bind_some, getCapForMds_insertCapNode absent, if_neg differs]
    · exact fun other => getCapForMds_insertCapNode absent
  | some cap =>
    have newer : ¬ cephSeqCmp given.seq cap.seq ≤ 0 := not_le.mpr (later cap found)
    refine ⟨inode, cap, if_neg newer, indexed, rfl, rfl, ?_, getCapForMds_mds found, rfl⟩
    intro other
    split
    · next same => rw [same, found]
    · rfl

theorem cephAddCap_shape {given taken : IssuedCap} {base : CapInode} (stale : List Session)
    (added : addedCap mds given inode = (base, cap, taken)) :
    ∃ wanted mdsWanted, cephAddCap stale mds given inode =
      getFmode taken.fmode ((if taken.auth && base.yields taken.mseq then
          { checkCapIssue stale taken.issued base with authCap := some mds }
        else checkCapIssue stale taken.issued base).setCap mds (Cap.add taken wanted mdsWanted)) := by
  rw [cephAddCap, added]
  exact ⟨_, _, rfl⟩

theorem cephAddCap_later {given : IssuedCap} (stale : List Session) (later : Later mds given inode)
    (indexed : inode.Indexed) :
    (cephAddCap stale mds given inode).Indexed ∧
      (cephAddCap stale mds given inode).authCap =
        (if given.auth && inode.yields given.mseq then some mds else inode.authCap) ∧
      ∀ other, (getCapForMds other (cephAddCap stale mds given inode)).map Cap.bare =
        if other = mds then some (given.issuedTo mds (implementedOf mds inode))
        else (getCapForMds other inode).map Cap.bare := by
  obtain ⟨base, old, added, baseIndexed, sameAuthCap, sameAuth, lookup, isMds, implemented⟩ := addedCap_later later indexed
  obtain ⟨wanted, mdsWanted, shape⟩ := cephAddCap_shape stale added
  have yields : base.yields given.mseq = inode.yields given.mseq := by
    rw [CapInode.yields, sameAuth, CapInode.yields]
  rw [yields] at shape
  generalize (given.auth && inode.yields given.mseq) = becomes at shape ⊢
  have sameFmode (inode : CapInode) : (getFmode given.fmode inode).caps = inode.caps ∧
      (getFmode given.fmode inode).authCap = inode.authCap := by
    cases given.fmode with
    | none => exact ⟨rfl, rfl⟩
    | some fmode => exact ⟨rfl, rfl⟩
  have keeps (cap : Cap) : (cap.add given wanted mdsWanted).mds = cap.mds := rfl
  rw [shape]
  generalize chosen : (if becomes then { checkCapIssue stale given.issued base with authCap := some mds }
    else checkCapIssue stale given.issued base) = issuing
  have caps : issuing.caps = base.caps := by
    rw [← chosen]
    split <;> rfl
  have auth : issuing.authCap = if becomes then some mds else inode.authCap := by
    rw [← chosen, ← sameAuthCap]
    split <;> rfl
  have found (other : Session) :
      getCapForMds other issuing = if other = mds then some old else getCapForMds other inode := by
    rw [getCapForMds_of_caps caps, lookup]
  have issuingIndexed : issuing.Indexed := by
    refine ⟨caps ▸ baseIndexed.sorted, ?_⟩
    intro other isAuth
    rw [found]
    rw [auth] at isAuth
    split
    · exact nofun
    · next differs =>
      split at isAuth
      · exact absurd (Option.some.inj isAuth).symm differs
      · exact indexed.auth other isAuth
  obtain ⟨sameCaps, sameAuth⟩ := sameFmode (issuing.setCap mds (Cap.add given wanted mdsWanted))
  have changed := issuingIndexed.setCap mds keeps
  refine ⟨⟨sameCaps ▸ changed.sorted, ?_⟩, sameAuth.trans auth, ?_⟩
  · intro other isAuth
    rw [getCapForMds_of_caps sameCaps]
    exact changed.auth other (sameAuth ▸ isAuth)
  · intro other
    rw [getCapForMds_of_caps sameCaps, getCapForMds_setCap keeps, found]
    split
    · rw [map_some, map_some, IssuedCap.issuedTo, ← implemented, ← isMds]
      rfl
    · rfl

/-- A migration with what the two messages about it say. -/
structure Migration where
  exporter : Session
  importer : Session
  exportedId : Nat
  importedId : Nat
  seq : BitVec 32
  mseq : BitVec 32
  peerSeq : BitVec 32
  peerMseq : BitVec 32
  caps : CapMask
  wanted : CapMask
  exportFlags : BitVec 8
  importFlags : BitVec 8

namespace Migration

variable {migration : Migration} {state : CapInode × CapLists}

def exportPeer (migration : Migration) : CapPeer where
  capId := migration.importedId
  seq := migration.seq
  mseq := migration.mseq
  mds := migration.importer
  flags := migration.exportFlags

def importPeer (migration : Migration) : CapPeer where
  capId := migration.exportedId
  seq := migration.peerSeq
  mseq := migration.peerMseq
  mds := migration.exporter
  flags := migration.importFlags

def handleExport (migration : Migration) (stale : List Session) (opens : Bool)
    (meanwhile : CapInode × CapLists → CapInode × CapLists) (state : CapInode × CapLists) : CapInode × CapLists :=
  handleCapExport stale migration.exporter migration.exportedId (some migration.exportPeer) opens meanwhile state

def handleImport (migration : Migration) (stale : List Session) (state : CapInode × CapLists) : CapInode × CapLists :=
  let im : CapImport :=
    { capId := migration.importedId
      caps := migration.caps
      wanted := migration.wanted
      seq := migration.seq
      mseq := migration.mseq }
  ((handleCapImport stale migration.importer im (some migration.importPeer) state.1).2.2, state.2)

structure Consistent (migration : Migration) (inode : CapInode) (cap : Cap) : Prop where
  apart : migration.exporter ≠ migration.importer
  held : getCapForMds migration.exporter inode = some cap
  capId : cap.capId = migration.exportedId
  settled : cap.issued = cap.implemented
  mseq : 0 < cephSeqCmp migration.mseq cap.mseq
  older : ∀ old, getCapForMds migration.importer inode = some old →
    0 < cephSeqCmp migration.seq old.seq ∧ 0 < cephSeqCmp migration.mseq old.mseq
  issued : Within cap.issued migration.caps

def imported (migration : Migration) (inode : CapInode) : Cap where
  mds := migration.importer
  capId := migration.importedId
  issued := migration.caps
  implemented := implementedOf migration.importer inode ||| migration.caps
  mdsWanted := 0
  seq := migration.seq
  issueSeq := migration.seq
  mseq := migration.mseq

def authAfter (migration : Migration) (inode : CapInode) : Option Session :=
  if inode.yields migration.mseq then some migration.importer else inode.authCap

structure Migrated (migration : Migration) (inode after : CapInode) : Prop where
  indexed : after.Indexed
  caps : ∀ mds, (getCapForMds mds after).map Cap.bare =
    if mds = migration.exporter then none
    else if mds = migration.importer then some (migration.imported inode)
    else (getCapForMds mds inode).map Cap.bare
  auth : after.authCap = migration.authAfter inode

structure Exported (migration : Migration) (inode after : CapInode) : Prop where
  indexed : after.Indexed
  gone : getCapForMds migration.exporter after = none
  others : ∀ mds, mds ≠ migration.exporter → mds ≠ migration.importer →
    (getCapForMds mds after).map Cap.bare = (getCapForMds mds inode).map Cap.bare
  later : ∀ cap, getCapForMds migration.importer after = some cap → 0 < cephSeqCmp migration.seq cap.seq
  implemented :
    implementedOf migration.importer after ||| migration.caps = implementedOf migration.importer inode ||| migration.caps
  auth : migration.authAfter after = migration.authAfter inode

def CoveredBy (cap : Cap) (after : CapInode) : Prop :=
  ∃ covering ∈ after.caps, Within cap.issued covering.implemented

theorem cephSeqCmp_neg {a b : BitVec 32} (later : 0 < cephSeqCmp a b) : cephSeqCmp b a < 0 := by
  simp only [cephSeqCmp, BitVec.toInt_sub, Int.bmod_def] at later ⊢
  lia

theorem cephSeqCmp_self (a : BitVec 32) : cephSeqCmp a a = 0 := by
  rw [cephSeqCmp, BitVec.sub_self]
  rfl

theorem cephSeqCmp_pred (a : BitVec 32) : cephSeqCmp a (a - 1) = 1 := by
  have one : a - (a - 1) = 1 := by bv_omega
  rw [cephSeqCmp, one]
  rfl

theorem yields_of_auth {auth : Session} {mseq : BitVec 32} (isAuth : inode.authCap = some auth)
    (found : getCapForMds auth inode = some cap) : inode.yields mseq = decide (cephSeqCmp cap.mseq mseq < 0) := by
  rw [CapInode.yields, CapInode.auth, isAuth, bind_some, found]

theorem yields_of_none {mseq : BitVec 32} (none : inode.authCap = none) : inode.yields mseq = true := by
  rw [CapInode.yields, CapInode.auth, none, bind_none]

theorem peerMds_import (migration : Migration) :
    peerMds (some migration.importPeer) = some (migration.exporter, migration.importPeer) := by
  have named : ¬ migration.importPeer.mds < 0 := not_lt.mpr (Int.natCast_nonneg _)
  rfl

theorem peerMds_export (migration : Migration) :
    peerMds (some migration.exportPeer) = some (migration.importer, migration.exportPeer) := by
  have named : ¬ migration.exportPeer.mds < 0 := not_lt.mpr (Int.natCast_nonneg _)
  rfl

def given (migration : Migration) : IssuedCap where
  capId := migration.importedId
  fmode := none
  issued := migration.caps
  wanted := migration.wanted
  seq := migration.seq
  mseq := migration.mseq
  auth := true

theorem removeExported_absent (gone : getCapForMds migration.exporter inode = none) :
    (removeExported (some migration.importPeer) inode).2 = inode := by
  rw [removeExported, peerMds_import]
  dsimp only
  rw [gone]

theorem removeExported_named (held : getCapForMds migration.exporter inode = some cap)
    (capId : cap.capId = migration.exportedId) :
    (removeExported (some migration.importPeer) inode).2 = removeCap migration.exporter inode := by
  rw [removeExported, peerMds_import]
  dsimp only
  rw [held]
  have named : cap.capId = migration.importPeer.capId := capId
  dsimp only
  rw [if_pos named]

theorem Migrated.of_same {before : CapInode} (migrated : migration.Migrated inode before)
    (caps : after.caps = before.caps) (auth : after.authCap = before.authCap) : migration.Migrated inode after where
  indexed := by
    refine ⟨caps ▸ migrated.indexed.sorted, fun mds isAuth => ?_⟩
    rw [getCapForMds_of_caps caps]
    exact migrated.indexed.auth mds (auth ▸ isAuth)
  caps := fun mds => by rw [getCapForMds_of_caps caps, migrated.caps]
  auth := auth.trans migrated.auth

theorem yields_congr {l r : CapInode} {mseq : BitVec 32} (same : l.authCap = r.authCap)
    (caps : ∀ mds, r.authCap = some mds → (getCapForMds mds l).map Cap.bare = (getCapForMds mds r).map Cap.bare) :
    l.yields mseq = r.yields mseq := by
  rw [CapInode.yields, CapInode.yields, CapInode.auth, CapInode.auth, same]
  cases isAuth : r.authCap with
  | none => rfl
  | some mds =>
    rw [bind_some, bind_some]
    have bare := caps mds isAuth
    cases left : getCapForMds mds l with
    | none =>
      rw [left] at bare
      cases right : getCapForMds mds r with
      | none => rfl
      | some cap =>
        rw [right] at bare
        cases bare
    | some cap =>
      rw [left] at bare
      cases right : getCapForMds mds r with
      | none =>
        rw [right] at bare
        cases bare
      | some other =>
        rw [right] at bare
        have mseq := congrArg Cap.mseq (Option.some.inj bare)
        change cap.mseq = other.mseq at mseq
        dsimp only
        rw [mseq]

theorem handleImport_same (migration : Migration) (stale : List Session) (state : CapInode × CapLists) :
    (migration.handleImport stale state).1.caps =
        (removeExported (some migration.importPeer)
          (cephAddCap stale migration.importer migration.given state.1)).2.caps ∧
      (migration.handleImport stale state).1.authCap =
        (removeExported (some migration.importPeer)
          (cephAddCap stale migration.importer migration.given state.1)).2.authCap :=
  ⟨rfl, rfl⟩

/-- The IMPORT completes an EXPORT. -/
theorem Exported.import {state : CapInode × CapLists} (exported : migration.Exported inode state.1)
    (apart : migration.exporter ≠ migration.importer) (stale : List Session) :
    migration.Migrated inode (migration.handleImport stale state).1 := by
  have later : Later migration.importer migration.given state.1 := exported.later
  obtain ⟨indexed, auth, found⟩ := cephAddCap_later stale later exported.indexed
  have gone : getCapForMds migration.exporter (cephAddCap stale migration.importer migration.given state.1) = none := by
    have absent := found migration.exporter
    rw [if_neg apart, exported.gone] at absent
    exact Option.map_eq_none_iff.mp absent
  have removed := removeExported_absent gone
  have migrated : migration.Migrated inode (cephAddCap stale migration.importer migration.given state.1) := by
    refine ⟨indexed, ?_, auth.trans exported.auth⟩
    intro mds
    rw [found]
    by_cases isImporter : mds = migration.importer
    · have implemented : migration.given.issuedTo migration.importer (implementedOf migration.importer state.1) =
          migration.imported inode := by
        rw [IssuedCap.issuedTo, imported, ← exported.implemented]
        rfl
      rw [if_pos isImporter, if_neg (isImporter ▸ apart.symm), if_pos isImporter, implemented]
    · rw [if_neg isImporter, if_neg isImporter]
      split
      · next isExporter =>
        rw [isExporter, exported.gone]
        rfl
      · next other => exact exported.others mds other isImporter
  obtain ⟨sameCaps, sameAuth⟩ := handleImport_same migration stale state
  rw [removed] at sameCaps sameAuth
  exact migrated.of_same sameCaps sameAuth

/-- The IMPORT comes first. -/
theorem Consistent.import (consistent : migration.Consistent inode cap) (indexed : inode.Indexed)
    (stale : List Session) (lists : CapLists) :
    migration.Migrated inode (migration.handleImport stale (inode, lists)).1 := by
  have later : Later migration.importer migration.given inode := fun old found => (consistent.older old found).1
  obtain ⟨added, auth, found⟩ := cephAddCap_later stale later indexed
  obtain ⟨ocap, held, bare⟩ : ∃ ocap, getCapForMds migration.exporter
      (cephAddCap stale migration.importer migration.given inode) = some ocap ∧ ocap.bare = cap.bare := by
    have here := found migration.exporter
    rw [if_neg consistent.apart, consistent.held] at here
    exact Option.map_eq_some_iff.mp here
  have capId : ocap.capId = migration.exportedId := (congrArg Cap.capId bare).trans consistent.capId
  have removed := removeExported_named held capId
  have notAuth : (cephAddCap stale migration.importer migration.given inode).authCap ≠ some migration.exporter := by
    rw [auth]
    split
    · exact fun same => consistent.apart (Option.some.inj same).symm
    · next stays =>
      intro isAuth
      apply stays
      rw [yields_of_auth isAuth consistent.held]
      exact decide_eq_true (cephSeqCmp_neg consistent.mseq)
  have migrated : migration.Migrated inode
      (removeCap migration.exporter (cephAddCap stale migration.importer migration.given inode)) := by
    refine ⟨added.removeCap _, ?_, ?_⟩
    · intro mds
      rw [getCapForMds_removeCap]
      split
      · rfl
      · rw [found]
        rfl
    · rw [removeCap]
      rw [if_neg notAuth]
      exact auth
  obtain ⟨sameCaps, sameAuth⟩ := handleImport_same migration stale (inode, lists)
  rw [removed] at sameCaps sameAuth
  exact migrated.of_same sameCaps sameAuth

section

variable (gone : getCapForMds migration.exporter state.1 = none) (stale : List Session)
include gone stale

theorem exportLocked_gone (capId : Nat) (target : Option (Session × CapPeer)) (tsession : Bool) :
    exportLocked stale migration.exporter capId target tsession state = some state := by
  rw [exportLocked]
  rw [gone]

theorem handleExport_gone (opens : Bool) (meanwhile : CapInode × CapLists → CapInode × CapLists) :
    migration.handleExport stale opens meanwhile state = state := by
  rw [handleExport, handleCapExport, exportLocked_gone gone]

end

structure Exporting (migration : Migration) (inode base : CapInode) : Prop where
  indexed : base.Indexed
  held : ∃ cap, getCapForMds migration.exporter base = some cap ∧ 0 < cephSeqCmp migration.mseq cap.mseq
  others : ∀ mds, mds ≠ migration.exporter → mds ≠ migration.importer →
    (getCapForMds mds base).map Cap.bare = (getCapForMds mds inode).map Cap.bare
  later : ∀ cap, getCapForMds migration.importer base = some cap → 0 < cephSeqCmp migration.seq cap.seq
  implemented :
    implementedOf migration.importer base ||| migration.caps = implementedOf migration.importer inode ||| migration.caps
  auth : migration.authAfter base = migration.authAfter inode

theorem Exporting.removed {base : CapInode} (exporting : migration.Exporting inode base)
    (apart : migration.exporter ≠ migration.importer) :
    migration.Exported inode (removeCap migration.exporter base) := by
  obtain ⟨cap, held, mseq⟩ := exporting.held
  have others (mds : Session) (other : mds ≠ migration.exporter) :
      getCapForMds mds (removeCap migration.exporter base) = getCapForMds mds base := by
    rw [getCapForMds_removeCap, if_neg other]
  refine ⟨exporting.indexed.removeCap _, ?_, ?_, ?_, ?_, ?_⟩
  · rw [getCapForMds_removeCap, if_pos rfl]
  · intro mds notExporter notImporter
    rw [others mds notExporter]
    exact exporting.others mds notExporter notImporter
  · intro cap found
    rw [others _ apart.symm] at found
    exact exporting.later cap found
  · rw [implementedOf, others _ apart.symm]
    exact exporting.implemented
  · rw [← exporting.auth, authAfter, authAfter]
    by_cases isAuth : base.authCap = some migration.exporter
    · have none : (removeCap migration.exporter base).authCap = none := if_pos isAuth
      rw [yields_of_none none, yields_of_auth isAuth held, decide_eq_true (cephSeqCmp_neg mseq)]
      rfl
    · have same : (removeCap migration.exporter base).authCap = base.authCap := if_neg isAuth
      rw [same, yields_congr same]
      intro mds isMds
      rw [others mds fun exporter => isAuth (exporter ▸ isMds)]

theorem Consistent.exporting (consistent : migration.Consistent inode cap) (indexed : inode.Indexed) :
    migration.Exporting inode inode where
  indexed := indexed
  held := ⟨cap, consistent.held, consistent.mseq⟩
  others _ _ _ := rfl
  later old found := (consistent.older old found).1
  implemented := rfl
  auth := rfl

theorem Consistent.exporting_cap {tcap : Cap} (consistent : migration.Consistent inode cap) (indexed : inode.Indexed)
    (found : getCapForMds migration.importer inode = some tcap) (lists : CapLists) :
    migration.Exporting inode
        (exportToCap migration.exporter migration.importer migration.exportPeer cap tcap inode lists).1 ∧
      ∃ covering, getCapForMds migration.importer
          (exportToCap migration.exporter migration.importer migration.exportPeer cap tcap inode lists).1 = some covering ∧
        Within cap.issued covering.implemented := by
  obtain ⟨seq, mseq⟩ := consistent.older tcap found
  have updates : tcap.capId ≠ migration.exportPeer.capId ∨ cephSeqCmp tcap.seq migration.exportPeer.seq < 0 :=
    .inr (cephSeqCmp_neg seq)
  have keeps (old : Cap) : (Cap.import migration.exportPeer cap.issued old).mds = old.mds := rfl
  rw [exportToCap, if_pos updates]
  dsimp only
  generalize chosen : (if (inode.setCap migration.importer
      (Cap.import migration.exportPeer cap.issued)).authCap = some migration.exporter then
    { inode.setCap migration.importer (Cap.import migration.exportPeer cap.issued) with
      authCap := some migration.importer }
    else inode.setCap migration.importer (Cap.import migration.exportPeer cap.issued)) = base
  have caps : base.caps = (inode.setCap migration.importer (Cap.import migration.exportPeer cap.issued)).caps := by
    rw [← chosen]
    split <;> rfl
  have auth : base.authCap = if inode.authCap = some migration.exporter then some migration.importer
      else inode.authCap := by
    rw [← chosen]
    split
    · next isExporter => exact (if_pos isExporter).symm
    · next other => exact (if_neg other).symm
  have lookup (mds : Session) : getCapForMds mds base = if mds = migration.importer then
      some (Cap.import migration.exportPeer cap.issued tcap) else getCapForMds mds inode := by
    rw [getCapForMds_of_caps caps, getCapForMds_setCap keeps]
    split
    · next same => rw [same, found, map_some]
    · rfl
  have atImporter := lookup migration.importer
  rw [if_pos rfl] at atImporter
  refine ⟨⟨⟨?_, ?_⟩, ⟨cap, ?_, consistent.mseq⟩, ?_, ?_, ?_, ?_⟩, _, atImporter, within_or_right _ _⟩
  · rw [caps]
    exact (indexed.setCap migration.importer keeps).sorted
  · intro mds isAuth
    rw [lookup]
    rw [auth] at isAuth
    split
    · exact nofun
    · next other =>
      split at isAuth
      · exact absurd (Option.some.inj isAuth).symm other
      · exact indexed.auth mds isAuth
  · rw [lookup, if_neg consistent.apart]
    exact consistent.held
  · intro mds _ other
    rw [lookup, if_neg other]
  · intro old held
    rw [atImporter] at held
    cases held
    change 0 < cephSeqCmp migration.seq (migration.seq - 1)
    rw [cephSeqCmp_pred]
    exact Int.one_pos
  · rw [implementedOf, atImporter, implementedOf, found]
    change (tcap.implemented ||| cap.issued) ||| migration.caps = tcap.implemented ||| migration.caps
    rw [BitVec.or_assoc, consistent.issued.or_eq]
  · have notYields (isAuth : base.authCap = some migration.importer) : base.yields migration.mseq = false := by
      rw [yields_of_auth isAuth atImporter]
      change decide (cephSeqCmp migration.mseq migration.mseq < 0) = false
      rw [cephSeqCmp_self]
      rfl
    rw [authAfter, authAfter]
    by_cases isExporter : inode.authCap = some migration.exporter
    · rw [if_pos isExporter] at auth
      rw [notYields auth, yields_of_auth isExporter consistent.held, decide_eq_true (cephSeqCmp_neg consistent.mseq)]
      exact auth
    · rw [if_neg isExporter] at auth
      by_cases isImporter : inode.authCap = some migration.importer
      · rw [notYields (auth.trans isImporter), yields_of_auth isImporter found, decide_eq_true (cephSeqCmp_neg mseq)]
        exact auth.trans isImporter
      · rw [auth, yields_congr auth]
        intro mds isAuth
        rw [lookup, if_neg fun same : mds = migration.importer => isImporter (same ▸ isAuth)]

theorem Consistent.exporting_placeholder (consistent : migration.Consistent inode cap) (indexed : inode.Indexed)
    (alone : getCapForMds migration.importer inode = none) (stale : List Session) {given : IssuedCap}
    (isGiven : given = {
      capId := migration.importedId
      fmode := none
      issued := cap.issued
      wanted := 0
      seq := migration.seq - 1
      mseq := migration.mseq
      auth := inode.authCap = some migration.exporter }) :
    migration.Exporting inode (cephAddCap stale migration.importer given inode) ∧
      ∃ covering, getCapForMds migration.importer (cephAddCap stale migration.importer given inode) = some covering ∧
        Within cap.issued covering.implemented := by
  have later : Later migration.importer given inode := by
    intro old found
    rw [alone] at found
    cases found
  obtain ⟨added, auth, found⟩ := cephAddCap_later stale later indexed
  obtain ⟨tcap, atImporter, bare⟩ : ∃ tcap, getCapForMds migration.importer
      (cephAddCap stale migration.importer given inode) = some tcap ∧
        tcap.bare = given.issuedTo migration.importer 0 := by
    have here := found migration.importer
    rw [if_pos rfl, implementedOf, alone] at here
    exact Option.map_eq_some_iff.mp here
  have implemented : tcap.implemented = 0 ||| cap.issued := by
    have same := congrArg Cap.implemented bare
    rw [isGiven] at same
    exact same
  refine ⟨⟨added, ?_, ?_, ?_, ?_, ?_⟩, tcap, atImporter, ?_⟩
  · have here := found migration.exporter
    rw [if_neg consistent.apart, consistent.held] at here
    obtain ⟨same, held, sameBare⟩ := Option.map_eq_some_iff.mp here
    have mseq : same.bare.mseq = cap.bare.mseq := congrArg Cap.mseq sameBare
    change same.mseq = cap.mseq at mseq
    exact ⟨same, held, mseq ▸ consistent.mseq⟩
  · intro mds _ other
    rw [found, if_neg other]
  · intro old held
    rw [atImporter] at held
    cases held
    have seq : tcap.seq = migration.seq - 1 := by
      have same := congrArg Cap.seq bare
      rw [isGiven] at same
      exact same
    rw [seq, cephSeqCmp_pred]
    exact Int.one_pos
  · rw [implementedOf, atImporter, implementedOf, alone]
    dsimp only
    rw [implemented, BitVec.or_assoc, consistent.issued.or_eq]
  · rw [authAfter, authAfter]
    by_cases isExporter : inode.authCap = some migration.exporter
    · have yields : inode.yields migration.mseq = true := by
        rw [yields_of_auth isExporter consistent.held, decide_eq_true (cephSeqCmp_neg consistent.mseq)]
      have becomes : (cephAddCap stale migration.importer given inode).authCap = some migration.importer := by
        rw [auth, isGiven]
        rw [yields, decide_eq_true isExporter]
        rfl
      rw [becomes, yields, if_pos rfl, ite_self]
    · have stays : (cephAddCap stale migration.importer given inode).authCap = inode.authCap := by
        rw [auth, isGiven]
        rw [decide_eq_false isExporter]
        rfl
      rw [stays, yields_congr stays]
      intro mds isAuth
      have differs : mds ≠ migration.importer := by
        rintro rfl
        exact indexed.auth _ isAuth alone
      rw [found, if_neg differs]
  · rw [implemented]
    exact within_or_right _ _

theorem covered_removed {base : CapInode} {covering : Cap} (apart : migration.exporter ≠ migration.importer)
    (found : getCapForMds migration.importer base = some covering) (covers : Within cap.issued covering.implemented) :
    CoveredBy cap (removeCap migration.exporter base) := by
  have still : getCapForMds migration.importer (removeCap migration.exporter base) = some covering := by
    rw [getCapForMds_removeCap, if_neg apart.symm]
    exact found
  exact ⟨covering, (getCapForMds_some still).1, covers⟩

theorem Consistent.exportLocked_alone (consistent : migration.Consistent inode cap)
    (alone : getCapForMds migration.importer inode = none) (stale : List Session) (lists : CapLists) :
    exportLocked stale migration.exporter migration.exportedId (some (migration.importer, migration.exportPeer)) false
      (inode, lists) = none := by
  rw [exportLocked]
  rw [consistent.held]
  dsimp only
  rw [if_neg (not_not_intro consistent.capId), alone]
  rfl

theorem Consistent.export (consistent : migration.Consistent inode cap) (indexed : inode.Indexed)
    (stale : List Session) (opens : Bool) (lists : CapLists) :
    migration.Exported inode (migration.handleExport stale opens id (inode, lists)).1 ∧
      (opens = true ∨ getCapForMds migration.importer inode ≠ none →
        CoveredBy cap (migration.handleExport stale opens id (inode, lists)).1) := by
  have apart := consistent.apart
  rw [handleExport, handleCapExport, peerMds_export]
  cases found : getCapForMds migration.importer inode with
  | some tcap =>
    obtain ⟨exporting, covering, atImporter, covers⟩ := consistent.exporting_cap indexed found lists
    have ran : exportLocked stale migration.exporter migration.exportedId
        (some (migration.importer, migration.exportPeer)) false (inode, lists) =
        some (removeCap migration.exporter
          (exportToCap migration.exporter migration.importer migration.exportPeer cap tcap inode lists).1,
          (exportToCap migration.exporter migration.importer migration.exportPeer cap tcap inode lists).2) := by
      rw [exportLocked]
      rw [consistent.held]
      dsimp only
      rw [if_neg (not_not_intro consistent.capId), found]
    rw [ran]
    exact ⟨exporting.removed apart, fun _ => covered_removed apart atImporter covers⟩
  | none =>
    rw [consistent.exportLocked_alone found]
    cases opens with
    | false =>
      have ran : exportLocked stale migration.exporter migration.exportedId none false (inode, lists) =
          some (removeCap migration.exporter inode, lists) := by
        rw [exportLocked]
        rw [consistent.held]
        dsimp only
        rw [if_neg (not_not_intro consistent.capId)]
      dsimp only [id]
      rw [if_neg Bool.false_ne_true, ran]
      refine ⟨(consistent.exporting indexed).removed apart, ?_⟩
      rintro (never | some)
      · cases never
      · exact absurd rfl some
    | true =>
      obtain ⟨exporting, covering, atImporter, covers⟩ :=
        consistent.exporting_placeholder indexed found stale rfl
      have ran : exportLocked stale migration.exporter migration.exportedId
          (some (migration.importer, migration.exportPeer)) true (inode, lists) =
          some (removeCap migration.exporter (cephAddCap stale migration.importer
            { capId := migration.importedId
              fmode := none
              issued := cap.issued
              wanted := 0
              seq := migration.seq - 1
              mseq := migration.mseq
              auth := inode.authCap = some migration.exporter } inode), lists) := by
        rw [exportLocked]
        rw [consistent.held]
        dsimp only
        rw [if_neg (not_not_intro consistent.capId), found]
        rfl
      dsimp only [id]
      rw [if_pos rfl, ran]
      exact ⟨exporting.removed apart, fun _ => covered_removed apart atImporter covers⟩

inductive Handled (migration : Migration) (state : CapInode × CapLists) : CapInode × CapLists → Prop where
  | exportFirst (staleExport staleImport : List Session) (opens : Bool) :
      Handled migration state (migration.handleImport staleImport (migration.handleExport staleExport opens id state))
  | importFirst (staleExport staleImport : List Session) (opens : Bool) :
      Handled migration state (migration.handleExport staleExport opens id (migration.handleImport staleImport state))
  | importMeanwhile (staleExport staleImport : List Session) (opens : Bool)
      (alone : getCapForMds migration.importer state.1 = none) :
      Handled migration state (migration.handleExport staleExport opens (migration.handleImport staleImport) state)

inductive Between (migration : Migration) (state : CapInode × CapLists) : CapInode × CapLists → Prop where
  | exported (stale : List Session) (opens : Bool)
      (replaced : opens = true ∨ getCapForMds migration.importer state.1 ≠ none) :
      Between migration state (migration.handleExport stale opens id state)
  | imported (stale : List Session) : Between migration state (migration.handleImport stale state)

theorem Migrated.gone {after : CapInode × CapLists} (migrated : migration.Migrated inode after.1) :
    getCapForMds migration.exporter after.1 = none := by
  have absent := migrated.caps migration.exporter
  rw [if_pos rfl] at absent
  exact Option.map_eq_none_iff.mp absent

theorem Migrated.at_importer (migrated : migration.Migrated inode after)
    (apart : migration.exporter ≠ migration.importer) :
    (getCapForMds migration.importer after).map Cap.bare = some (migration.imported inode) := by
  rw [migrated.caps, if_neg apart.symm, if_pos rfl]

theorem Consistent.handled {after : CapInode × CapLists} (consistent : migration.Consistent state.1 cap)
    (indexed : state.1.Indexed) (handled : migration.Handled state after) : migration.Migrated state.1 after.1 := by
  have imports (stale : List Session) := consistent.import indexed stale state.2
  cases handled with
  | exportFirst staleExport staleImport opens =>
    exact (consistent.export indexed staleExport opens state.2).1.import consistent.apart staleImport
  | importFirst staleExport staleImport opens =>
    rw [handleExport_gone (imports staleImport).gone]
    exact imports staleImport
  | importMeanwhile staleExport staleImport opens alone =>
    rw [handleExport, handleCapExport, peerMds_export, consistent.exportLocked_alone alone]
    dsimp only
    rw [exportLocked_gone (imports staleImport).gone]
    exact imports staleImport

theorem Consistent.between {after : CapInode × CapLists} (consistent : migration.Consistent state.1 cap)
    (indexed : state.1.Indexed) (between : migration.Between state after) : CoveredBy cap after.1 := by
  cases between with
  | exported stale opens replaced => exact (consistent.export indexed stale opens state.2).2 replaced
  | imported stale =>
    have migrated := consistent.import indexed stale state.2
    obtain ⟨covering, found, bare⟩ := Option.map_eq_some_iff.mp (migrated.at_importer consistent.apart)
    have implemented : covering.implemented = implementedOf migration.importer state.1 ||| migration.caps :=
      congrArg Cap.implemented bare
    refine ⟨covering, (getCapForMds_some found).1, ?_⟩
    rw [implemented]
    exact consistent.issued.trans (within_or_right _ _)

theorem Migrated.caps_eq {l r : CapInode} (left : migration.Migrated inode l) (right : migration.Migrated inode r) :
    l.caps.map Cap.bare = r.caps.map Cap.bare := by
  have sorted {inode : CapInode} (indexed : inode.Indexed) :
      (inode.caps.map Cap.bare).Pairwise fun a b => a.mds < b.mds :=
    List.pairwise_map.mpr indexed.sorted
  apply caps_ext (sorted left.indexed) (sorted right.indexed)
  intro mds
  have lookup (inode : CapInode) :
      (inode.caps.map Cap.bare).find? (·.mds = mds) = (getCapForMds mds inode).map Cap.bare :=
    find_map_same Cap.bare_mds
  rw [lookup, lookup]
  exact (left.caps mds).trans (right.caps mds).symm

theorem filter_of_indexed {mds : Session} (indexed : inode.Indexed) (found : getCapForMds mds inode = some cap) :
    inode.caps.filter (·.mds = mds) = [cap] := by
  have sorted := indexed.sorted
  rw [getCapForMds] at found
  generalize inode.caps = caps at sorted found ⊢
  induction caps with
  | nil => cases found
  | cons first rest ih =>
    obtain ⟨before, restSorted⟩ := List.pairwise_cons.mp sorted
    rw [find_cons] at found
    by_cases same : first.mds = mds
    · rw [if_pos same] at found
      cases found
      rw [filter_cons_of_pos (by simpa using same), List.filter_eq_nil_iff.mpr]
      intro other later
      simpa using (same ▸ before other later).ne'
    · rw [if_neg same] at found
      rw [filter_cons_of_neg (by simpa using same)]
      exact ih restSorted found

/-- The messages of a migration leave the same caps in whatever order they are handled, none of the exporter and one of
the importer, and in between what the exporter issued stays covered, but where an EXPORT comes first to an inode without
a cap of the importer and cannot open its session. -/
theorem migration_commutes {l r : CapInode × CapLists} (indexed : state.1.Indexed)
    (consistent : migration.Consistent state.1 cap) (left : migration.Handled state l)
    (right : migration.Handled state r) :
    l.1.caps.map Cap.bare = r.1.caps.map Cap.bare ∧ l.1.authCap = r.1.authCap ∧
      (∀ held ∈ l.1.caps, held.mds ≠ migration.exporter) ∧
      (l.1.caps.filter (·.mds = migration.importer)).map Cap.bare = [migration.imported state.1] ∧
      ∀ between, migration.Between state between → CoveredBy cap between.1 := by
  have leftMigrated := consistent.handled indexed left
  have rightMigrated := consistent.handled indexed right
  refine ⟨leftMigrated.caps_eq rightMigrated, leftMigrated.auth.trans rightMigrated.auth.symm, ?_, ?_,
    fun _ between => consistent.between indexed between⟩
  · intro held listed same
    exact not_mem_of_getCapForMds leftMigrated.gone (same ▸ mem_map_of_mem listed)
  · obtain ⟨covering, found, bare⟩ := Option.map_eq_some_iff.mp (leftMigrated.at_importer consistent.apart)
    rw [filter_of_indexed leftMigrated.indexed found, map_singleton, bare]

end Migration

end

def spread (caps : List Cap) : CapInode × CapLists :=
  ({ (CapState.init { addr := 1, seq := 1 } 0).inode with
    caps := caps
    authCap := some 1 }, (CapState.init { addr := 1, seq := 1 } 0).lists)

def spreadMigration : Migration where
  exporter := 1
  importer := 2
  exportedId := 100
  importedId := 200
  seq := 5
  mseq := 4
  peerSeq := 9
  peerMseq := 3
  caps := 0xd55
  wanted := 0xd55
  exportFlags := 1
  importFlags := 2

def spreadAuth : Cap where
  mds := 1
  capId := 100
  issued := 0x555
  implemented := 0x555
  mdsWanted := 0x555
  seq := 9
  issueSeq := 8
  mseq := 3

def spreadOld : Cap where
  mds := 2
  capId := 150
  issued := 0x1
  implemented := 0x101
  mdsWanted := 0x1
  seq := 0xfffffffe
  issueSeq := 2
  mseq := 2

def spreadOther : Cap where
  mds := 3
  capId := 300
  issued := 0x1
  implemented := 0x1
  mdsWanted := 0
  seq := 1
  issueSeq := 1
  mseq := 7

theorem spread_indexed {caps : List Cap} (sorted : caps.Pairwise fun l r => l.mds < r.mds)
    (auth : (caps.find? (·.mds = 1)).isSome) : (spread caps).1.Indexed where
  sorted := sorted
  auth := by
    rintro mds isAuth absent
    cases isAuth
    change caps.find? (·.mds = 1) = none at absent
    rw [absent] at auth
    cases auth

theorem spread_consistent {caps : List Cap} (held : caps.find? (·.mds = 1) = some spreadAuth)
    (older : ∀ old, caps.find? (·.mds = 2) = some old → old = spreadOld) :
    spreadMigration.Consistent (spread caps).1 spreadAuth where
  apart := by decide
  held := held
  capId := rfl
  settled := rfl
  mseq := by decide
  older := by
    intro old found
    rw [older old found]
    decide
  issued := by decide

/-- The cap of the third mds stays, and that of the second one is imported in either order. -/
theorem migration_commutes_spread :
    (spreadMigration.handleImport [] (spreadMigration.handleExport [] true id
          (spread [spreadAuth, spreadOld, spreadOther]))).1.caps.map Cap.bare =
        [spreadMigration.imported (spread [spreadAuth, spreadOld, spreadOther]).1, spreadOther.bare] ∧
      (spreadMigration.handleImport [] (spreadMigration.handleExport [] true id
          (spread [spreadAuth, spreadOld, spreadOther]))).1.caps.map Cap.bare =
        (spreadMigration.handleExport [] true id (spreadMigration.handleImport []
          (spread [spreadAuth, spreadOld, spreadOther]))).1.caps.map Cap.bare := by
  have indexed := @spread_indexed [spreadAuth, spreadOld, spreadOther] (by decide) (by decide)
  have consistent := @spread_consistent [spreadAuth, spreadOld, spreadOther] (by decide) (by decide)
  exact ⟨by decide, (Migration.migration_commutes indexed consistent (.exportFirst [] [] true)
    (.importFirst [] [] true)).1⟩

/-- The session of the importer cannot be opened for an EXPORT. -/
theorem export_uncovers :
    (spread [spreadAuth]).1.Indexed ∧ spreadMigration.Consistent (spread [spreadAuth]).1 spreadAuth ∧
      ¬ Migration.CoveredBy spreadAuth (spreadMigration.handleExport [] false id (spread [spreadAuth])).1 := by
  refine ⟨spread_indexed (by decide) (by decide), spread_consistent (by decide) nofun, ?_⟩
  have nothing : (spreadMigration.handleExport [] false id (spread [spreadAuth])).1.caps = [] := by decide
  rintro ⟨covering, listed, -⟩
  rw [nothing] at listed
  cases listed

end KmodCeph.Caps
