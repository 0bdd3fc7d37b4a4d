import KmodCeph.Caps.Issued

namespace KmodCeph.Caps

open Lib

/-- What `__cap_is_valid` looks at: the generation of the cap of each session, and the generation and the
time to live of the session itself. -/
structure CapClock where
  capGen : Session → BitVec 32
  sCapGen : Session → BitVec 32
  sCapTtl : Session → BitVec 64
  jiffies : BitVec 64

def timeAfterEq (a b : BitVec 64) : Bool := 0 ≤ (a - b).toInt

def capIsValid (clock : CapClock) (cap : Cap) : Bool :=
  if clock.capGen cap.mds < clock.sCapGen cap.mds || timeAfterEq clock.jiffies (clock.sCapTtl cap.mds) then false else true

def CapInode.stale (clock : CapClock) (inode : CapInode) : List Session :=
  (inode.caps.filter fun cap => !capIsValid clock cap).map (·.mds)

/-- The caps of a session in the order of their use, and whether `s_cap_iterator` is at one of them. -/
structure SessionCaps where
  sCaps : List InodeId
  iterating : Bool

def touchCap (self : InodeId) (cap : Cap) (sessions : Session → SessionCaps) : Session → SessionCaps :=
  let session := sessions cap.mds
  if session.iterating then sessions
  else Function.update sessions cap.mds { session with sCaps := session.sCaps.erase self ++ [self] }

def scanIssued (clock : CapClock) (mask : CapMask) : CapMask → List Cap → List Cap → Option (List Cap)
  | _, _, [] => none
  | have', preceding, cap :: rest =>
    if capIsValid clock cap = false then scanIssued clock mask have' (preceding ++ [cap]) rest
    else if cap.issued &&& mask = mask then some [cap]
    else
      -- does a combination of caps satisfy mask?
      let have' := have' ||| cap.issued
      if have' &&& mask = mask then some (cap :: preceding.filter (capIsValid clock))
      else scanIssued clock mask have' (preceding ++ [cap]) rest

def cephCapsIssuedMask (clock : CapClock) (self : InodeId) (mask : CapMask) (touch : Bool) (inode : CapInode)
    (sessions : Session → SessionCaps) : Bool × (Session → SessionCaps) :=
  if inode.snapCaps &&& mask = mask then (true, sessions)
  else
    match scanIssued clock mask inode.snapCaps [] inode.caps with
    | none => (false, sessions)
    | some touched =>
      (true, if touch then touched.foldl (fun sessions cap => touchCap self cap sessions) sessions else sessions)

def CapInode.revoked (inode : CapInode) : CapMask :=
  match inode.auth with
  | some auth => auth.implemented &&& ~~~auth.issued
  | none => 0

def CapInode.Holds (clock : CapClock) (mask : CapMask) (inode : CapInode) : Prop :=
  ∀ bit, mask.getLsbD bit = true → inode.snapCaps.getLsbD bit = true ∨
    ∃ cap ∈ inode.caps, capIsValid clock cap = true ∧ cap.issued.getLsbD bit = true

section

variable {clock : CapClock} {mask issued : CapMask} {inode : CapInode} {caps preceding : List Cap} {cap : Cap}

theorem and_eq_right_iff : issued &&& mask = mask ↔ Within mask issued := by
  rw [within_iff]
  constructor
  · intro same bit inMask
    rw [← same, BitVec.getLsbD_and, Bool.and_eq_true] at inMask
    exact inMask.1
  · intro all
    apply BitVec.eq_of_getLsbD_eq
    intro bit _
    rw [BitVec.getLsbD_and]
    cases inMask : mask.getLsbD bit with
    | false => rw [Bool.and_false]
    | true => rw [all bit inMask, Bool.true_and]

/-- The scan ends early exactly if the caps that are left complete the mask. -/
theorem scanIssued_isSome (short : ¬ Within mask issued) :
    (scanIssued clock mask issued preceding caps).isSome = true ↔
      ∀ bit, mask.getLsbD bit = true → issued.getLsbD bit = true ∨
        ∃ cap ∈ caps, capIsValid clock cap = true ∧ cap.issued.getLsbD bit = true := by
  induction caps generalizing issued preceding with
  | nil =>
    rw [within_iff] at short
    simp [scanIssued, short]
  | cons cap rest ih =>
    unfold scanIssued
    by_cases valid : capIsValid clock cap = false
    · rw [if_pos valid, ih short]
      simp [valid]
    · rw [if_neg valid]
      have split : ∀ bit, (issued.getLsbD bit = true ∨
          ∃ other ∈ cap :: rest, capIsValid clock other = true ∧ other.issued.getLsbD bit = true) ↔
          (issued ||| cap.issued).getLsbD bit = true ∨
            ∃ other ∈ rest, capIsValid clock other = true ∧ other.issued.getLsbD bit = true := by
        intro bit
        rw [BitVec.getLsbD_or, Bool.or_eq_true]
        simp only [List.mem_cons, exists_eq_or_imp, valid, true_and, or_assoc]
      simp only [split]
      by_cases alone : cap.issued &&& mask = mask
      · rw [if_pos alone]
        have within := within_iff.mp (and_eq_right_iff.mp alone)
        refine iff_of_true rfl fun bit inMask => .inl ?_
        rw [BitVec.getLsbD_or, within bit inMask, Bool.or_true]
      rw [if_neg alone]
      by_cases together : (issued ||| cap.issued) &&& mask = mask
      · rw [if_pos together]
        exact iff_of_true rfl fun bit inMask => .inl (within_iff.mp (and_eq_right_iff.mp together) bit inMask)
      · rw [if_neg together]
        exact ih fun within => together (and_eq_right_iff.mpr within)

theorem cephCapsIssuedMask_iff {self : InodeId} {touch : Bool} {sessions : Session → SessionCaps} :
    (cephCapsIssuedMask clock self mask touch inode sessions).1 = true ↔ inode.Holds clock mask := by
  unfold cephCapsIssuedMask
  by_cases snapped : inode.snapCaps &&& mask = mask
  · rw [if_pos snapped]
    exact iff_of_true rfl fun bit inMask => .inl (within_iff.mp (and_eq_right_iff.mp snapped) bit inMask)
  · rw [if_neg snapped]
    rw [CapInode.Holds, ← scanIssued_isSome fun within => snapped (and_eq_right_iff.mpr within)]
    cases scanIssued clock mask inode.snapCaps [] inode.caps with
    | none => exact iff_of_false Bool.false_ne_true Bool.false_ne_true
    | some touched => exact iff_of_true rfl rfl

theorem CapInode.mem_valid : cap ∈ inode.valid (inode.stale clock) ↔ cap ∈ inode.caps ∧ capIsValid clock cap = true := by
  have alike : ∀ other : Cap, other.mds = cap.mds → capIsValid clock other = capIsValid clock cap := by
    intro other same
    rw [capIsValid, capIsValid, same]
  simp only [CapInode.valid, CapInode.stale, List.mem_filter, List.mem_map, decide_eq_true_iff, Bool.not_eq_true',
    not_exists, not_and, and_imp]
  refine and_congr_right fun listed => ?_
  constructor
  · intro fresh
    by_contra invalid
    exact fresh cap listed (Bool.eq_false_iff.mpr invalid) rfl
  · intro valid other _ invalid same
    rw [alike other same, valid] at invalid
    cases invalid

theorem cephCapsIssued_getLsbD {bit : Nat} (small : bit < 32) :
    (cephCapsIssued (inode.stale clock) inode).getLsbD bit = true ↔
      (inode.snapCaps.getLsbD bit = true ∨ ∃ cap ∈ inode.caps, capIsValid clock cap = true ∧ cap.issued.getLsbD bit = true) ∧
        inode.revoked.getLsbD bit = false := by
  have union : (unionOf (·.issued) (inode.valid (inode.stale clock)) inode.snapCaps).getLsbD bit = true ↔
      inode.snapCaps.getLsbD bit = true ∨ ∃ cap ∈ inode.caps, capIsValid clock cap = true ∧ cap.issued.getLsbD bit = true := by
    rw [unionOf, mem_foldr_or]
    simp only [CapInode.mem_valid, and_assoc]
  unfold cephCapsIssued CapInode.revoked
  cases inode.auth with
  | none =>
    rw [union]
    simp
  | some auth =>
    simp only [BitVec.getLsbD_and, Bool.and_eq_true, union, BitVec.getLsbD_or, BitVec.getLsbD_not, small, decide_true,
      Bool.true_and]
    cases auth.implemented.getLsbD bit <;> cases auth.issued.getLsbD bit <;> simp

/-- The queries agree on a mask unless it is issued and the auth MDS is taking a part of it back. -/
theorem capQueries_agree_iff (clock : CapClock) (self : InodeId) (mask : CapMask) (touch : Bool) (inode : CapInode)
    (sessions : Session → SessionCaps) :
    ((cephCapsIssuedMask clock self mask touch inode sessions).1 = true ↔
      cephCapsIssued (inode.stale clock) inode &&& mask = mask) ↔
    inode.revoked &&& mask = 0 ∨ ∃ bit, mask.getLsbD bit = true ∧ inode.snapCaps.getLsbD bit = false ∧
      ∀ cap ∈ inode.caps, capIsValid clock cap = true → cap.issued.getLsbD bit = false := by
  have whole : cephCapsIssued (inode.stale clock) inode &&& mask = mask ↔
      inode.Holds clock mask ∧ ∀ bit, mask.getLsbD bit = true → inode.revoked.getLsbD bit = false := by
    rw [and_eq_right_iff, within_iff, CapInode.Holds, ← forall_and]
    refine forall_congr' fun bit => ?_
    constructor
    · intro issued
      have both := fun inMask => (cephCapsIssued_getLsbD (BitVec.lt_of_getLsbD inMask)).mp (issued inMask)
      exact ⟨fun inMask => (both inMask).1, fun inMask => (both inMask).2⟩
    · rintro ⟨holds, kept⟩ inMask
      exact (cephCapsIssued_getLsbD (BitVec.lt_of_getLsbD inMask)).mpr ⟨holds inMask, kept inMask⟩
  have apart : inode.revoked &&& mask = 0 ↔ ∀ bit, mask.getLsbD bit = true → inode.revoked.getLsbD bit = false := by
    constructor
    · intro none bit inMask
      have cleared := congrArg (BitVec.getLsbD · bit) none
      simpa [BitVec.getLsbD_and, inMask] using cleared
    · intro kept
      apply BitVec.eq_of_getLsbD_eq
      intro bit _
      cases inMask : mask.getLsbD bit with
      | false => simp [inMask]
      | true => simp [kept bit inMask]
  have lacking : (∃ bit, mask.getLsbD bit = true ∧ inode.snapCaps.getLsbD bit = false ∧
      ∀ cap ∈ inode.caps, capIsValid clock cap = true → cap.issued.getLsbD bit = false) ↔ ¬ inode.Holds clock mask := by
    simp only [CapInode.Holds, not_forall, not_or, not_exists, not_and, Bool.not_eq_true, exists_prop]
  rw [cephCapsIssuedMask_iff, whole, apart, lacking]
  by_cases holds : inode.Holds clock mask <;> simp [holds]

end

def revokingInode : CapInode where
  toCephInode := .clean { addr := 4096, seq := 1 }
  caps :=
    [{ mds := 0, capId := 1, issued := cephCapPin, implemented := cephCapPin ||| cephCapFileCache, mdsWanted := 0
       seq := 2, issueSeq := 1, mseq := 0 },
     { mds := 1, capId := 2, issued := cephCapPin ||| cephCapFileCache, implemented := cephCapPin ||| cephCapFileCache
       mdsWanted := 0, seq := 1, issueSeq := 1, mseq := 0 }]
  authCap := some 0
  snapCaps := 0
  nrByMode := fun _ => 0
  noDelay := false
  flush := false
  noFlush := false
  maxSize := 0
  reportedSize := 0
  wantedMaxSize := 0
  requestedMaxSize := 0
  rdcacheGen := 0
  rdcacheRevoking := 0
  sharedGen := 0
  nlink := 1

def freshClock : CapClock where
  capGen := fun _ => 1
  sCapGen := fun _ => 1
  sCapTtl := fun _ => 1000
  jiffies := 0

theorem capQueries_disagree :
    ¬ ((cephCapsIssuedMask freshClock 1 cephCapFileCache false revokingInode fun _ => ⟨[1], false⟩).1 = true ↔
      cephCapsIssued (revokingInode.stale freshClock) revokingInode &&& cephCapFileCache = cephCapFileCache) := by
  decide

end KmodCeph.Caps
