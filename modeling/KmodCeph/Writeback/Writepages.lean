import KmodCeph.Basic
import KmodCeph.Caps.Inode
import KmodCeph.Osdmap.Striping

namespace KmodCeph.Writeback

open Lib Osdmap
open Caps (SnapContext)

def pageCacheSize : Nat := 4096
def pagevecSize : Nat := 14

def calcPagesFor (off len : Nat) : Nat :=
  (off + len + pageCacheSize - 1) / pageCacheSize - off / pageCacheSize

/-- A page of the file. One that was `cleared` is no longer dirty, and still has its snap context; one under writeback is
in the request of that number, or in one of another call. -/
inductive PageState where
  | clean
  | dirty
  | cleared
  | writeback (request : Option Nat)
deriving DecidableEq

/-- The part of `struct ceph_cap_snap` that counts dirty pages. -/
structure CapSnap where
  context : SnapContext
  dirtyPages : Nat
  size : Nat

structure Inode where
  capSnaps : List CapSnap
  headSnapc : SnapContext
  wrbufferRefHead : Nat
  size : Nat
  blkbits : Nat
  layout : FileLayout
  indices : List Nat
  context : Nat → SnapContext
  state : Nat → PageState

inductive SyncMode where
  | none
  | all
deriving DecidableEq

structure WritebackControl where
  rangeCyclic : Bool
  rangeStart : Nat
  rangeEnd : Nat
  syncMode : SyncMode
  nrToWrite : Int

/-- A request that was submitted, with the size of its snap context and the length of the extent that was mapped for its
first page. -/
structure Request where
  snapc : SnapContext
  snapSize : Nat
  offset : Nat
  len : Nat
  pages : List Nat
  maxPages : Nat
  extent : Nat
  completed : Bool

/-- `req`: no request, an error pointer or a new request with the length of its extent. -/
inductive ReqPtr where
  | null
  | err (errno : Int)
  | made (extent : Nat)

/-- The labels of `ceph_writepages_start`, between which completions come. -/
inductive Label where
  | retry
  | loop
  | getMorePages
  | visit
  | collected
  | submit
  | releasePvecPages
  | after
  | out
  | returned
deriving DecidableEq

inductive WritepagesBug where
  | pagesLeft
  | nothingFirst
  | extentGrows
  | noPage
  | nullPointer
  | errorPointer

/-- What is met: which pages a lookup finds tagged, and at a page whether it is locked by others, was cleaned or taken
out of the mapping, is under writeback, is found clean in the end, and how a new request fails. -/
structure Answer where
  tagged : Nat → Bool
  lockFails : Bool
  gone : Bool
  writeback : Bool
  undirtied : Bool
  request : Option Int

/-- `ceph_writepages_start` with its variables, and all that it has submitted. -/
structure Writepages where
  inode : Inode
  wbc : WritebackControl
  wsize : Nat
  writebackIndex : Nat
  start : Nat
  last : Option Nat
  rangeWhole : Bool
  index : Nat
  shouldLoop : Bool
  done : Bool
  rc : Int
  snapc : Option SnapContext
  lastSnapc : Option SnapContext
  snapSize : Nat
  maxPages : Nat
  next : Nat
  lockedPages : Nat
  pages : List Nat
  pvec : List Nat
  i : Nat
  first : Option Nat
  req : ReqPtr
  requests : List Request
  label : Label

/-- `get_oldest_context`, with the size it stores. -/
def getOldestContext (inode : Inode) : Option SnapContext × Nat :=
  match inode.capSnaps.find? (·.dirtyPages ≠ 0) with
  | some capsnap => (some capsnap.context, capsnap.size)
  | none => (if inode.wrbufferRefHead ≠ 0 then some inode.headSnapc else none, 0)

def putWrbufferCapRefs (nr : Nat) (snapc : SnapContext) (inode : Inode) : Inode :=
  if inode.headSnapc = snapc then { inode with wrbufferRefHead := inode.wrbufferRefHead - nr }
  else { inode with
    capSnaps := inode.capSnaps.map fun capsnap =>
      if capsnap.context = snapc then { capsnap with dirtyPages := capsnap.dirtyPages - nr } else capsnap }

def effectiveWsize (blkbits option : Nat) : Nat :=
  max (if option ≠ 0 ∧ option < 2 ^ blkbits then option else 2 ^ blkbits) pageCacheSize

namespace Writepages

def begin_ (inode : Inode) (wbc : WritebackControl) (wsizeOption writebackIndex : Nat) : Writepages where
  inode := inode
  wbc := wbc
  wsize := effectiveWsize inode.blkbits wsizeOption
  writebackIndex := writebackIndex
  start := if wbc.rangeCyclic then writebackIndex else wbc.rangeStart / pageCacheSize
  last := if wbc.rangeCyclic then none else some (wbc.rangeEnd / pageCacheSize)
  rangeWhole := !wbc.rangeCyclic && wbc.rangeStart == 0 && wbc.rangeEnd == 2 ^ 63 - 1
  index := if wbc.rangeCyclic then writebackIndex else wbc.rangeStart / pageCacheSize
  shouldLoop := wbc.rangeCyclic
  done := false
  rc := 0
  snapc := none
  lastSnapc := none
  snapSize := 0
  maxPages := 0
  next := 0
  lockedPages := 0
  pages := []
  pvec := []
  i := 0
  first := none
  req := .null
  requests := []
  label := .retry

def past (index : Nat) (s : Writepages) : Bool :=
  s.last.any (· < index)

def setState (page : Nat) (state : PageState) (s : Writepages) : Writepages :=
  { s with inode := { s.inode with state := Function.update s.inode.state page state } }

def retry (s : Writepages) : Writepages :=
  let oldest := getOldestContext s.inode
  match oldest.1 with
  | none => { s with
      snapc := none
      snapSize := oldest.2
      label := .out }
  | some snapc => { s with
      snapc := some snapc
      snapSize := if oldest.2 = 0 then s.inode.size else oldest.2
      index := if s.lastSnapc ≠ none ∧ s.lastSnapc ≠ some snapc then s.start else s.index
      lastSnapc := some snapc
      label := .loop }

def loop (s : Writepages) : Writepages :=
  if ¬ s.done ∧ ¬ s.past s.index then
    { s with
      next := 0
      lockedPages := 0
      pages := []
      maxPages := s.wsize / pageCacheSize
      label := .getMorePages }
  else { s with label := .after }

def want (s : Writepages) : Nat :=
  let room := min pagevecSize (s.maxPages - s.lockedPages) - 1
  match s.last with
  | some last => if s.index ≤ last then min (last - s.index) room + 1 else room + 1
  | none => room + 1

def lookup (tagged : Nat → Bool) (s : Writepages) : List Nat :=
  (s.inode.indices.filter fun index => s.index ≤ index ∧ tagged index).take s.want

def getMorePages (tagged : Nat → Bool) (s : Writepages) : Writepages :=
  let pvec := s.lookup tagged
  let s := { s with
    first := none
    pvec := pvec
    index := match pvec.getLast? with
      | some page => page + 1
      | none => s.index
    i := 0 }
  if pvec = [] ∧ s.lockedPages = 0 then { s with label := .after } else { s with label := .visit }

def newRequest (failure : Option Int) (page : Nat) (s : Writepages) : Except Int Nat :=
  match failure with
  | some errno => .error errno
  | none =>
    let mapping := cephCalcFileObjectMapping s.inode.layout (UInt64.ofNat (page * pageCacheSize)) (UInt64.ofNat s.wsize)
    if mapping.ret < 0 then .error mapping.ret else .ok mapping.oxlen.toNat

def addPage (page : Nat) (s : Writepages) : Writepages :=
  { s.setState page (.writeback (some s.requests.length)) with
    first := s.first.or (some s.i)
    pages := s.pages ++ [page]
    lockedPages := s.lockedPages + 1
    next := page + 1
    i := s.i + 1 }

/-- A page whose dirty flag is cleared, with a new request if it is the first one. -/
def takePage (failure : Option Int) (page : Nat) (s : Writepages) : Except WritepagesBug Writepages :=
  let s := s.setState page .cleared
  if s.lockedPages = 0 then do
    haltIf (s.pages ≠ []) .pagesLeft
    match s.newRequest failure page with
    | .error errno => return { s with
        rc := errno
        req := .err errno
        label := .collected }
    | .ok len => return { s with
        req := .made len
        maxPages := calcPagesFor 0 len }.addPage page
  else return s.addPage page

def visitPage (answer : Answer) (page : Nat) (s : Writepages) : Except WritepagesBug Writepages :=
  if s.lockedPages ≠ 0 ∧ answer.lockFails then return { s with label := .collected }
  else if s.inode.state page ≠ .dirty ∨ answer.gone then return { s with label := .collected }
  else if ¬ s.wbc.rangeCyclic ∧ s.past page then return { s with
    done := true
    label := .collected }
  else if s.next ≠ 0 ∧ page ≠ s.next then return { s with label := .collected }
  else if s.snapSize ≤ page * pageCacheSize then return { s with
    done := true
    label := .collected }
  else if s.wbc.syncMode = .none ∧ answer.writeback then return { s with label := .collected }
  else
    match s.snapc with
    | none => throw .nullPointer
    | some snapc =>
      if snapc.seq < (s.inode.context page).seq then
        if s.lockedPages = 0 then return { s with i := s.i + 1 } else return { s with label := .collected }
      else if answer.undirtied then return { s with label := .collected }
      else s.takePage answer.request page

def visit (answer : Answer) (s : Writepages) : Except WritepagesBug Writepages :=
  match s.pvec[s.i]? with
  | none => return { s with label := .collected }
  | some page =>
    if s.lockedPages < s.maxPages then s.visitPage answer page else return { s with label := .collected }

def collected (s : Writepages) : Except WritepagesBug Writepages :=
  if s.lockedPages = 0 then return { s with label := .releasePvecPages }
  else if s.i ≠ 0 then do
    haltIf (s.first = none) .nothingFirst
    if s.pvec ≠ [] ∧ s.i = s.pvec.length ∧ s.lockedPages < s.maxPages then return { s with label := .getMorePages }
    else return { s with label := .submit }
  else return { s with label := .submit }

/-- "Format the osd request message and submit the write"; `ceph_osdc_start_request` returns 0 when it may not fail. -/
def submit (s : Writepages) : Except WritepagesBug Writepages :=
  match s.pages, s.snapc, s.req with
  | page :: _, some snapc, .made extent => do
    let offset := page * pageCacheSize
    let len := min (s.snapSize - offset) (s.lockedPages * pageCacheSize)
    haltIf (extent < len) .extentGrows
    let nrToWrite := s.wbc.nrToWrite - s.lockedPages
    return { s with
      requests := s.requests ++ [{ snapc := snapc
                                   snapSize := s.snapSize
                                   offset := offset
                                   len := len
                                   pages := s.pages
                                   maxPages := s.maxPages
                                   extent := extent
                                   completed := false }]
      rc := 0
      req := .null
      pages := []
      index := s.next
      wbc := { s.wbc with nrToWrite := nrToWrite }
      done := s.done || decide (nrToWrite ≤ 0)
      label := .releasePvecPages }
  | _, _, _ => throw .nullPointer

def releasePvecPages (s : Writepages) : Writepages :=
  { s with label := if s.lockedPages ≠ 0 ∧ ¬ s.done then .retry else .loop }

def after (s : Writepages) : Writepages :=
  if s.shouldLoop ∧ ¬ s.done then
    { s with
      shouldLoop := false
      index := 0
      label := .retry }
  else { s with
    writebackIndex :=
      if s.wbc.rangeCyclic ∨ s.rangeWhole ∧ s.wbc.nrToWrite > 0 then s.index else s.writebackIndex
    label := .out }

def out (s : Writepages) : Except WritepagesBug Writepages :=
  match s.req with
  | .err _ => throw .errorPointer
  | _ => return { s with
      req := .null
      label := .returned }

def go (answer : Answer) (s : Writepages) : Except WritepagesBug Writepages :=
  match s.label with
  | .retry => return s.retry
  | .loop => return s.loop
  | .getMorePages => return s.getMorePages answer.tagged
  | .visit => s.visit answer
  | .collected => s.collected
  | .submit => s.submit
  | .releasePvecPages => return s.releasePvecPages
  | .after => return s.after
  | .out => s.out
  | .returned => return s

def writepagesFinish (number : Nat) (req : Request) (s : Writepages) : Except WritepagesBug Writepages := do
  let numPages := calcPagesFor 0 req.len
  haltIf (req.pages.length < numPages) .noPage
  let inode := { s.inode with
    state := fun page => if page ∈ req.pages.take numPages then .clean else s.inode.state page }
  return { s with
    inode := putWrbufferCapRefs numPages req.snapc inode
    requests := s.requests.set number { req with completed := true } }

def writtenElsewhere (page : Nat) (s : Writepages) : Writepages :=
  if page ∈ s.inode.indices ∧ s.inode.state page = .writeback none then
    { s.setState page .clean with
      inode := putWrbufferCapRefs 1 (s.inode.context page) (s.setState page .clean).inode }
  else s

end Writepages

inductive Event where
  | go (answer : Answer)
  | finish (number : Nat)
  | written (page : Nat)

def Event.run : Event → Writepages → Except WritepagesBug Writepages
  | .go answer, s => s.go answer
  | .finish number, s =>
    match s.requests[number]? with
    | some req => if req.completed then return s else s.writepagesFinish number req
    | none => return s
  | .written page, s => return s.writtenElsewhere page

end KmodCeph.Writeback
