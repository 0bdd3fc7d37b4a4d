import KmodCeph.Lib.Masks
import KmodCeph.Caps.Flush

namespace KmodCeph.Caps

open Lib

def cephCapAuthShared : CapMask := 0x4
def cephCapLinkShared : CapMask := 0x10
def cephCapLinkExcl : CapMask := 0x20
def cephCapXattrShared : CapMask := 0x40
def cephCapFileShared : CapMask := 0x100
def cephCapFileLazyio : CapMask := 0x8000

def cephCapAnyShared : CapMask := cephCapAuthShared ||| cephCapLinkShared ||| cephCapXattrShared ||| cephCapFileShared
def cephCapAnyRd : CapMask := cephCapAnyShared ||| cephCapFileRd ||| cephCapFileCache
def cephCapAnyExcl : CapMask := cephCapAuthExcl ||| cephCapLinkExcl ||| cephCapXattrExcl ||| cephCapFileExcl
def cephCapAnyFileRd : CapMask := cephCapFileRd ||| cephCapFileCache ||| cephCapFileShared
def cephCapAnyFileWr : CapMask := cephCapFileWr ||| cephCapFileBuffer ||| cephCapFileExcl
def cephCapAny : CapMask := cephCapAnyRd ||| cephCapAnyExcl ||| cephCapAnyFileWr ||| cephCapFileLazyio ||| cephCapPin

def cephFileModeRd : BitVec 3 := 1
def cephFileModeWr : BitVec 3 := 2
def cephFileModeLazy : BitVec 3 := 4

/-- `struct ceph_cap`. -/
structure Cap where
  mds : Session
  capId : Nat
  issued : CapMask
  implemented : CapMask
  mdsWanted : CapMask
  seq : BitVec 32
  issueSeq : BitVec 32
  mseq : BitVec 32
deriving DecidableEq

/-- What else an inode keeps of its capabilities; the caps are in the order of their mds. -/
structure CapInode extends CephInode where
  caps : List Cap
  authCap : Option Session
  snapCaps : CapMask
  nrByMode : BitVec 3 → Nat
  noDelay : Bool
  flush : Bool
  noFlush : Bool
  maxSize : Nat
  reportedSize : Nat
  wantedMaxSize : Nat
  requestedMaxSize : Nat
  rdcacheGen : BitVec 32
  rdcacheRevoking : BitVec 32
  sharedGen : BitVec 32
  nlink : Nat

inductive CapOp where
  | grant
  | revoke
  | imported
  | update
  | flush
deriving DecidableEq

structure CapMessage where
  mds : Session
  capId : Nat
  op : CapOp
  caps : CapMask
  wanted : CapMask
  dirty : CapMask
  seq : BitVec 32
  flushTid : Nat
  issueSeq : BitVec 32
  mseq : BitVec 32
  file : FileState
  maxSize : Nat
  follows : Nat

def cephSeqCmp (a b : BitVec 32) : Int := (a - b).toInt

def cephCapsForMode (mode : BitVec 3) : CapMask :=
  cephCapPin |||
  (if mode &&& cephFileModeRd ≠ 0 then cephCapFileShared ||| cephCapFileRd ||| cephCapFileCache else 0) |||
  (if mode &&& cephFileModeWr ≠ 0 then
    cephCapFileExcl ||| cephCapFileWr ||| cephCapFileBuffer ||| cephCapAuthShared ||| cephCapAuthExcl |||
      cephCapXattrShared ||| cephCapXattrExcl
   else 0) |||
  (if mode &&& cephFileModeLazy ≠ 0 then cephCapFileLazyio else 0)

def cephCapsFileWanted (inode : CapInode) : CapMask :=
  (List.finRange 8).foldl (fun want mode =>
    if inode.nrByMode (BitVec.ofFin mode) ≠ 0 then want ||| cephCapsForMode (BitVec.ofFin mode) else want) 0

def cephCapsWanted (inode : CapInode) : CapMask :=
  let wanted := cephCapsFileWanted inode ||| cephCapsUsed inode.toCephInode
  if wanted &&& cephCapFileBuffer ≠ 0 then wanted ||| cephCapFileExcl else wanted

def getCapForMds (mds : Session) (inode : CapInode) : Option Cap :=
  inode.caps.find? (·.mds = mds)

def CapInode.auth (inode : CapInode) : Option Cap :=
  inode.authCap.bind fun mds => getCapForMds mds inode

def CapInode.valid (inode : CapInode) (stale : List Session) : List Cap :=
  inode.caps.filter (·.mds ∉ stale)

def unionOf (mask : Cap → CapMask) (caps : List Cap) (start : CapMask) : CapMask :=
  caps.foldr (fun cap union => mask cap ||| union) start

def cephCapsIssued (stale : List Session) (inode : CapInode) : CapMask :=
  let issued := unionOf (·.issued) (inode.valid stale) inode.snapCaps
  match inode.auth with
  | some auth => issued &&& (~~~auth.implemented ||| auth.issued)
  | none => issued

def cephCapsImplemented (stale : List Session) (inode : CapInode) : CapMask :=
  unionOf (·.implemented) (inode.valid stale) 0

def cephCapsRevokingOther (mds : Session) (mask : CapMask) (inode : CapInode) : Bool :=
  inode.caps.any fun cap => cap.mds ≠ mds ∧ cap.implemented &&& ~~~cap.issued &&& mask ≠ 0

def checkCapIssue (stale : List Session) (issued : CapMask) (inode : CapInode) : CapInode :=
  let had := cephCapsIssued stale inode
  let cache := cephCapFileCache ||| cephCapFileLazyio
  { inode with
    rdcacheGen := if issued &&& cache ≠ 0 ∧ had &&& cache = 0 then inode.rdcacheGen + 1 else inode.rdcacheGen
    sharedGen :=
      if issued &&& cephCapFileShared ≠ 0 ∧ had &&& cephCapFileShared = 0 then inode.sharedGen + 1
      else inode.sharedGen }

def insertCapNode (cap : Cap) (inode : CapInode) : CapInode :=
  { inode with caps := inode.caps.orderedInsert (·.mds ≤ ·.mds) cap }

def CapInode.setCap (mds : Session) (change : Cap → Cap) (inode : CapInode) : CapInode :=
  { inode with caps := inode.caps.map fun cap => if cap.mds = mds then change cap else cap }

structure IssuedCap where
  capId : Nat
  fmode : Option (BitVec 3)
  issued : CapMask
  wanted : CapMask
  seq : BitVec 32
  mseq : BitVec 32
  auth : Bool

/-- The cap that `ceph_add_cap` is about, a new one if there is none, and what the message
is taken to say of it if it was sent before the cap was imported. -/
def addedCap (mds : Session) (given : IssuedCap) (inode : CapInode) : CapInode × Cap × IssuedCap :=
  match getCapForMds mds inode with
  | none =>
    let new : Cap :=
      { mds := mds, capId := 0, issued := 0, implemented := 0, mdsWanted := 0, seq := 0, issueSeq := 0, mseq := 0 }
    (insertCapNode new inode, new, given)
  | some cap =>
    if cephSeqCmp given.seq cap.seq ≤ 0 then
      (inode, cap, { given with seq := cap.seq, mseq := cap.mseq, issued := given.issued ||| cap.issued, auth := true })
    else (inode, cap, given)

def Cap.add (given : IssuedCap) (wanted mdsWanted : CapMask) (cap : Cap) : Cap :=
  { cap with
    capId := given.capId
    issued := given.issued
    implemented := cap.implemented ||| given.issued
    mdsWanted := if cephSeqCmp given.mseq cap.mseq > 0 then wanted else mdsWanted ||| wanted
    seq := given.seq
    issueSeq := given.seq
    mseq := given.mseq }

def getFmode (fmode : Option (BitVec 3)) (inode : CapInode) : CapInode :=
  match fmode with
  | some fmode => { inode with nrByMode := Function.update inode.nrByMode fmode (inode.nrByMode fmode + 1) }
  | none => inode

def cephAddCap (stale : List Session) (mds : Session) (given : IssuedCap) (inode : CapInode) : CapInode :=
  let wanted := match given.fmode with
    | some fmode => given.wanted ||| cephCapsForMode fmode
    | none => given.wanted
  let (inode, cap, given) := addedCap mds given inode
  let inode := checkCapIssue stale given.issued inode
  let becomesAuth : Bool := given.auth && match inode.auth with
    | none => true
    | some auth => cephSeqCmp auth.mseq given.mseq < 0
  let inode := if becomesAuth then { inode with authCap := some mds } else inode
  let mdsWanted := if becomesAuth then wanted else cap.mdsWanted
  getFmode given.fmode (inode.setCap mds (Cap.add given wanted mdsWanted))

def tryNonblockingInvalidate (pagesLeft : Nat) (inode : CapInode) : Bool × CapInode :=
  let inode := { inode with nrpages := pagesLeft }
  if pagesLeft = 0 then (true, { inode with rdcacheRevoking := inode.rdcacheGen - 1 }) else (false, inode)

/-- What a grant says, with what the inode's size and times become by it. -/
structure CapGrant where
  op : CapOp
  seq : BitVec 32
  caps : CapMask
  wanted : CapMask
  nlink : Nat
  maxSize : Nat
  file : FileState

inductive CapCheck where
  | nothing
  | authOnly
  | all

def invalidateRevoked (newcaps : CapMask) (pagesLeft : Nat) (cap : Cap) (inode : CapInode) : Bool × CapInode :=
  if cap.issued &&& ~~~newcaps &&& cephCapFileCache ≠ 0 ∧ newcaps &&& cephCapFileLazyio = 0 ∧ inode.wrbufferRef = 0 then
    let (done, inode) := tryNonblockingInvalidate pagesLeft inode
    if ¬ done ∧ inode.rdcacheRevoking ≠ inode.rdcacheGen then
      (true, { inode with rdcacheRevoking := inode.rdcacheGen })
    else (false, inode)
  else (false, inode)

def grantFile (grant : CapGrant) (newcaps issued : CapMask) (mds : Session) (inode : CapInode) : CapInode :=
  let inode := { inode with
    nlink := if newcaps &&& cephCapAuthShared ≠ 0 ∧ issued &&& cephCapLinkExcl = 0 then grant.nlink else inode.nlink
    file := if newcaps &&& (cephCapAnyRd ||| cephCapAnyFileWr) ≠ 0 then grant.file else inode.file }
  if newcaps &&& (cephCapAnyFileRd ||| cephCapAnyFileWr) ≠ 0 ∧ inode.authCap = some mds ∧
      grant.maxSize ≠ inode.maxSize then
    { inode with
      maxSize := grant.maxSize
      wantedMaxSize := if grant.maxSize ≥ inode.wantedMaxSize then 0 else inode.wantedMaxSize
      requestedMaxSize := if grant.maxSize ≥ inode.wantedMaxSize then 0 else inode.requestedMaxSize }
  else inode

def checkAfterGrant (grant : CapGrant) (newcaps : CapMask) (queueInvalidate : Bool) (cap : Cap) (inode : CapInode) :
    CapCheck :=
  let imported := if cephCapsWanted inode ≠ grant.wanted ∧ grant.op = .imported then CapCheck.authOnly else .nothing
  let revoking := cap.issued &&& ~~~newcaps
  if revoking ≠ 0 then
    if revoking &&& cephCapsUsed inode.toCephInode &&& cephCapFileBuffer ≠ 0 then imported
    else if revoking = cephCapFileCache ∧ newcaps &&& cephCapFileLazyio = 0 ∧ queueInvalidate then imported
    else if inode.authCap = some cap.mds then .authOnly
    else .all
  else if cap.issued ≠ newcaps ∧ inode.authCap = some cap.mds ∧ cephCapsRevokingOther cap.mds newcaps inode then .all
  else imported

/-- `handle_cap_grant`, with the capabilities that were implemented or dirty before. -/
def handleCapGrant (stale : List Session) (mds : Session) (grant : CapGrant) (issued : CapMask) (pagesLeft : Nat)
    (inode : CapInode) : Except InodeBug (CapCheck × CapInode) :=
  match getCapForMds mds inode with
  | none => return (.nothing, inode)
  | some cap => do
    let early := cephSeqCmp grant.seq cap.seq ≤ 0
    let seq := if early then cap.seq else grant.seq
    let newcaps := if early then grant.caps ||| cap.issued else grant.caps
    let (queueInvalidate, inode) := invalidateRevoked newcaps pagesLeft cap inode
    let inode := inode.setCap mds fun cap => { cap with seq := seq }
    let inode := checkCapIssue stale newcaps inode
    let inode := grantFile grant newcaps issued mds inode
    let check := checkAfterGrant grant newcaps queueInvalidate cap inode
    let implemented := if cap.issued = newcaps then cap.implemented else cap.implemented ||| newcaps
    haltIf (¬ Within newcaps implemented) .issuedNotImplemented
    return (check, inode.setCap mds fun cap => { cap with issued := newcaps, implemented := implemented })

structure CapSend where
  op : CapOp
  used : CapMask
  want : CapMask
  retain : CapMask
  flushing : CapMask

def Cap.sent (send : CapSend) (delaying : Bool) (cap : Cap) : Cap :=
  let retain := send.retain &&& ~~~(cap.implemented &&& ~~~cap.issued)
  let issued := cap.issued &&& (if delaying then retain ||| cap.issued else retain)
  { cap with
    issued := issued
    implemented := cap.implemented &&& (issued ||| send.used)
    mdsWanted := if delaying then send.want ||| cap.mdsWanted else send.want }

def flushFollows (flushing : CapMask) (headSnapc : Option SnapContext) : Except InodeBug Nat :=
  if flushing = 0 then .ok 0
  else match headSnapc with
    | some snapc => .ok snapc.seq
    | none => .error .headUnset

/-- `__send_cap`, early if it is not yet time to drop capabilities; without memory no
message is sent. -/
def sendCap (send : CapSend) (early memory : Bool) (mds : Session) (inode : CapInode) :
    Except InodeBug (Option CapMessage × CapInode) :=
  match getCapForMds mds inode with
  | none => return (none, inode)
  | some cap => do
    haltIf (send.retain &&& ~~~(cap.implemented &&& ~~~cap.issued) &&& cephCapPin = 0) .pinNotRetained
    let delaying := !inode.noDelay && early
    let after := cap.sent send delaying
    let inode := { inode with
      toCephInode := assignFlushTid send.flushing inode.toCephInode
      noDelay := false
      flush := false
      reportedSize := inode.file.size
      requestedMaxSize := inode.wantedMaxSize }
    let follows ← flushFollows send.flushing inode.headSnapc
    let message : CapMessage :=
      { mds := mds
        capId := cap.capId
        op := send.op
        caps := after.implemented
        wanted := after.mdsWanted
        dirty := send.flushing
        seq := cap.seq
        flushTid := if send.flushing = 0 then 0 else inode.capFlushLastTid.toNat
        issueSeq := cap.issueSeq
        mseq := cap.mseq
        file := inode.file
        maxSize := inode.wantedMaxSize
        follows := follows }
    return (if memory then some message else none, inode.setCap mds fun cap => cap.sent send delaying)

/-- How `ceph_check_caps` is called and where it is: whether it flushes, by its flags or by
those of the inode when it began, the mds of the last cap it sent, whether it is early for
dropping capabilities and whether there is memory for a message. -/
structure CapsToCheck where
  stale : List Session
  noDelay : Bool
  authOnly : Bool
  flush : Bool
  stopping : Bool
  triedInvalidate : Bool
  pagesLeft : Nat
  past : Option Session
  earlyMin : Bool
  earlyMax : Bool
  memory : Bool

def CapsToCheck.isDelayed (check : CapsToCheck) : Bool := check.noDelay || check.stopping

def cephCapsRetain (check : CapsToCheck) (inode : CapInode) : CapMask :=
  let want := cephCapsFileWanted inode ||| cephCapsUsed inode.toCephInode
  want ||| cephCapPin |||
  (if check.stopping = false ∧ inode.nlink > 0 then
    if want ≠ 0 then cephCapAny
    else cephCapAnyShared ||| (if inode.maxSize = 0 then cephCapAnyRd else 0)
   else 0)

def cephCapsUsedOf (cap : Cap) (inode : CapInode) : CapMask :=
  match inode.auth with
  | some auth =>
    if cap.mds ≠ auth.mds then cephCapsUsed inode.toCephInode &&& ~~~auth.issued else cephCapsUsed inode.toCephInode
  | none => cephCapsUsed inode.toCephInode

def asksMaxSize (cap : Cap) (inode : CapInode) : Bool :=
  inode.authCap = some cap.mds ∧ cap.issued &&& cephCapFileWr ≠ 0 ∧
    ((inode.wantedMaxSize > inode.maxSize ∧ inode.wantedMaxSize > inode.requestedMaxSize) ∨
      (inode.file.size * 2 ≥ inode.maxSize ∧ inode.reportedSize * 2 < inode.maxSize))

def needsMessage (check : CapsToCheck) (cap : Cap) (inode : CapInode) : Bool :=
  let want := cephCapsFileWanted inode ||| cephCapsUsed inode.toCephInode
  let revoking := cap.implemented &&& ~~~cap.issued
  asksMaxSize cap inode ||
  decide (inode.authCap = some cap.mds ∧ check.flush ∧ inode.dirtyCaps ≠ 0) ||
  decide (revoking ≠ 0 ∧ revoking &&& cephCapsUsedOf cap inode = 0) ||
  decide (want &&& ~~~(cap.mdsWanted ||| cap.issued) ≠ 0) ||
  (decide (¬ (cap.issued &&& ~~~cephCapsRetain check inode = 0 ∧ cap.mdsWanted = want)) &&
    (check.isDelayed || inode.noDelay || !check.earlyMax))

def checkedCap (check : CapsToCheck) (inode : CapInode) : Option Cap :=
  inode.caps.find? fun cap =>
    decide (∀ past, check.past = some past → past < cap.mds) &&
    decide (check.authOnly → inode.authCap = some cap.mds) && needsMessage check cap inode && !inode.noFlush

def triesInvalidate (check : CapsToCheck) (inode : CapInode) : Bool :=
  let issued := cephCapsIssued check.stale inode
  let revoking := cephCapsImplemented check.stale inode &&& ~~~issued
  (!check.isDelayed || check.stopping) && decide (inode.wrbufferRef = 0 ∧ inode.nrpages ≠ 0 ∧
    (cephCapsFileWanted inode = 0 ∨ revoking &&& (cephCapFileCache ||| cephCapFileLazyio) ≠ 0)) &&
  !check.triedInvalidate

/-- From `retry` in `ceph_check_caps` on until the lock is dropped or all is done. -/
def cephCheckCaps (check : CapsToCheck) (inode : CapInode) (lists : CapLists) :
    Except InodeBug (Option CapMessage × CapInode × CapLists) := do
  if triesInvalidate check inode then
    let revoking := cephCapsImplemented check.stale inode &&& ~~~cephCapsIssued check.stale inode
    let (done, inode) := tryNonblockingInvalidate check.pagesLeft inode
    return (none, { inode with
      rdcacheRevoking :=
        if ¬ done ∧ revoking &&& (cephCapFileCache ||| cephCapFileLazyio) ≠ 0 then inode.rdcacheGen
        else inode.rdcacheRevoking }, lists)
  else
    match checkedCap check inode with
    | none => return (none, inode, lists)
    | some cap =>
      let want := cephCapsFileWanted inode ||| cephCapsUsed inode.toCephInode
      let send : CapSend :=
        { op := .update
          used := cephCapsUsedOf cap inode
          want := want
          retain := cephCapsRetain check inode
          flushing := 0 }
      if inode.authCap = some cap.mds ∧ inode.dirtyCaps ≠ 0 then do
        let (flushing, ci, lists) ← markCapsFlushing flushedInode cap.mds inode.toCephInode lists
        let (message, inode) ← sendCap { send with flushing := flushing } check.earlyMin check.memory cap.mds
          { inode with toCephInode := ci }
        return (message, inode, lists)
      else do
        let (message, inode) ← sendCap send check.earlyMin check.memory cap.mds inode
        return (message, inode, lists)

def flushSend (auth : Cap) (flushing : CapMask) (inode : CapInode) : CapSend where
  op := .flush
  used := cephCapsUsed inode.toCephInode
  want := cephCapsWanted inode
  retain := auth.issued ||| auth.implemented
  flushing := flushing

def tryFlushCaps (early memory : Bool) (inode : CapInode) (lists : CapLists) :
    Except InodeBug (Option CapMessage × CapInode × CapLists) :=
  match inode.auth with
  | none => return (none, inode, lists)
  | some auth =>
    if inode.noFlush ∨ inode.dirtyCaps = 0 then return (none, inode, lists)
    else do
      let (flushing, ci, lists) ← markCapsFlushing flushedInode auth.mds inode.toCephInode lists
      let (message, after) ← sendCap (flushSend auth flushing inode) early memory auth.mds { inode with toCephInode := ci }
      return (message, after, lists)

def kickFlushingInodeCaps (early memory : Bool) (inode : CapInode) :
    Except InodeBug (Option CapMessage × CapInode) :=
  match inode.auth with
  | none => return (none, inode)
  | some auth =>
    if inode.flushingCaps = 0 then return (none, inode)
    else sendCap (flushSend auth inode.flushingCaps inode) early memory auth.mds inode

inductive CapRefs where
  | notOpen
  | checkMax
  | wait
  | got (caps : CapMask)

def tryGetCapRefs (stale : List Session) (need want : CapMask) (endoff : Int) (inode : CapInode) : CapRefs × CapInode :=
  if cephCapsFileWanted inode &&& need = 0 then (.notOpen, inode)
  else
    let issued := cephCapsIssued stale inode
    let writes := issued &&& need &&& cephCapFileWr ≠ 0
    if writes ∧ 0 ≤ endoff ∧ endoff > inode.maxSize then
      (if endoff > inode.requestedMaxSize then .checkMax else .wait, inode)
    else if writes ∧ havePendingCapSnap inode.toCephInode then (.wait, inode)
    else if issued &&& need = need then
      let not := want &&& ~~~(issued &&& need)
      let revoking := cephCapsImplemented stale inode &&& ~~~issued
      if revoking &&& not = 0 then
        let got := need ||| (issued &&& want)
        (.got got, { inode with toCephInode := takeCapRefs got inode.toCephInode })
      else (.wait, inode)
    else (.wait, inode)

def cephGetCapRefs (caps : CapMask) (inode : CapInode) : CapInode :=
  { inode with toCephInode := takeCapRefs caps inode.toCephInode }

end KmodCeph.Caps
