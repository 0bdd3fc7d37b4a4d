import KmodCeph.Mds.Releases
import Mathlib.Logic.Function.Basic

namespace KmodCeph.Mds

open Lib Function List

/-- What a session and its caps know of each other. `ci` is the inode, null once the cap is removed, and `session`
says whether the backpointer to the session is set. -/
structure SessionCap where
  ci : Option (BitVec 64)
  session : Bool
  capId : BitVec 64
  mseq : BitVec 32
  issueSeq : BitVec 32
  capGen : Nat

inductive CapEvent where
  | visited (cap : Nat)
  | unlinked (cap : Nat)
  | putCap (cap : Nat)
deriving DecidableEq

/-- Where `iterate_session_caps` let go of the lock, and its `old_cap`. -/
inductive PassAt where
  | idle
  | selected (cap : Nat) (oldCap : Option Nat)
  | visiting (cap : Nat)
  | ended (ret : Int) (oldCap : Option Nat)

def PassAt.oldCap : PassAt → Option Nat
  | .selected _ oldCap => oldCap
  | .ended _ oldCap => oldCap
  | .idle | .visiting _ => none

def PassAt.cap : PassAt → Option Nat
  | .selected cap _ => some cap
  | .visiting cap => some cap
  | .idle | .ended _ _ => none

/-- The caps are told apart by when they were allocated. `removals` are the calls of `__ceph_remove_cap` that are past
the lock, with their `removed`. `listed`, `visited` and `skipped` are of the last pass: the list it started with, the
caps that it passed to the callback, and those whose inode it could not grab; `completed` is the list it ended with,
unless the callback stopped it. -/
structure CapSession where
  caps : Nat → SessionCap
  nextCap : Nat
  sCaps : List Nat
  nrCaps : Int
  capIterator : Option Nat
  releases : ReleaseQueue
  removals : List (Nat × Bool)
  pass : PassAt
  listed : List Nat
  visited : List Nat
  skipped : List Nat
  completed : Option (List Nat)
  log : List CapEvent

inductive CapFault where
  | nullInode
  | nullSession
  | unlinkedPosition
  | otherSession
  | release (bug : ReleaseBug)

namespace CapSession

def init : CapSession where
  caps _ := { ci := none, session := false, capId := 0, mseq := 0, issueSeq := 0, capGen := 0 }
  nextCap := 0
  sCaps := []
  nrCaps := 0
  capIterator := none
  releases := .init
  removals := []
  pass := .idle
  listed := []
  visited := []
  skipped := []
  completed := none
  log := []

def unlink (cap : Nat) (state : CapSession) : CapSession :=
  { state with
    caps := Function.update state.caps cap { state.caps cap with session := false }
    sCaps := state.sCaps.erase cap
    nrCaps := state.nrCaps - 1
    log := .unlinked cap :: state.log }

def clearInode (cap : Nat) (state : CapSession) : CapSession :=
  { state with caps := Function.update state.caps cap { state.caps cap with ci := none } }

def putCap (cap : Nat) (state : CapSession) : CapSession :=
  { state with log := .putCap cap :: state.log }

def addCap (ino capId : BitVec 64) (mseq issueSeq : BitVec 32) (capGen : Nat) (state : CapSession) : CapSession :=
  { state with
    caps := Function.update state.caps state.nextCap
      { ci := some ino, session := true, capId, mseq, issueSeq, capGen }
    nextCap := state.nextCap + 1
    sCaps := state.sCaps ++ [state.nextCap]
    nrCaps := state.nrCaps + 1 }

def updateCap (cap : Nat) (capId : BitVec 64) (mseq issueSeq : BitVec 32) (capGen : Nat) (state : CapSession) :
    CapSession :=
  { state with
    caps := Function.update state.caps cap { state.caps cap with
      capId := capId
      mseq := mseq
      issueSeq := issueSeq
      capGen := capGen } }

def touchCap (cap : Nat) (state : CapSession) : Except CapFault CapSession := do
  haltIf ((state.caps cap).session = false) .nullSession
  match state.capIterator with
  | none => return { state with sCaps := state.sCaps.erase cap ++ [cap] }
  | some _ => return state

def queueRelease (ino : BitVec 64) (cap : Nat) (queueRelease capReconnect : Bool) (sCapGen : Nat)
    (state : CapSession) : Except CapFault ReleaseQueue :=
  if queueRelease ∧ (capReconnect = false ∨ (state.caps cap).capGen = sCapGen) then
    match state.releases.queueCapRelease ino (state.caps cap).capId (state.caps cap).mseq
        (state.caps cap).issueSeq with
    | .ok releases => .ok releases
    | .error bug => .error (.release bug)
  else .ok state.releases

/-- What `__ceph_remove_cap` does to the list: it leaves the cap that the pass is at to the pass. -/
def detach (cap : Nat) (state : CapSession) : CapSession :=
  if state.capIterator = some cap then
    { state.clearInode cap with removals := state.removals ++ [(cap, false)] }
  else { (state.unlink cap).clearInode cap with removals := state.removals ++ [(cap, true)] }

/-- `__ceph_remove_cap` up to where it lets go of `s_cap_lock`. -/
def removeCap (cap : Nat) (queueRelease capReconnect : Bool) (sCapGen : Nat) (state : CapSession) :
    Except CapFault CapSession := do
  match (state.caps cap).ci with
  | none => throw .nullInode
  | some ino =>
    haltIf ((state.caps cap).session = false) .nullSession
    let releases ← state.queueRelease ino cap queueRelease capReconnect sCapGen
    return { state.detach cap with releases := releases }

def eraseCap (cap : Nat) (removed : Bool) (state : CapSession) : CapSession :=
  let state := { state with removals := state.removals.erase (cap, removed) }
  if removed then state.putCap cap else state

def following (cap : Nat) (caps : List Nat) : List Nat :=
  (caps.dropWhile (· ≠ cap)).tail

/-- The loop of `iterate_session_caps` from a position on, until it lets go of the lock. -/
def select (grabs : Nat → Bool) (oldCap : Option Nat) : List Nat → CapSession → Except CapFault CapSession
  | [], state => return { state with
      capIterator := none
      pass := .ended 0 oldCap
      completed := some state.sCaps }
  | cap :: rest, state =>
    match (state.caps cap).ci with
    | none => throw .nullInode
    | some _ =>
      if grabs cap then
        return { state with
          capIterator := some cap
          pass := .selected cap oldCap }
      else select grabs oldCap rest { state with skipped := cap :: state.skipped }

def beginPass (grabs : Nat → Bool) (state : CapSession) : Except CapFault CapSession :=
  select grabs none state.sCaps { state with
    listed := state.sCaps
    visited := []
    skipped := []
    completed := none }

def putOldCap (state : CapSession) : CapSession :=
  match state.pass with
  | .selected cap (some oldCap) => { state.putCap oldCap with pass := .selected cap none }
  | _ => state

def callBack (state : CapSession) : CapSession :=
  match state.pass with
  | .selected cap _ =>
    { state with
      pass := .visiting cap
      visited := cap :: state.visited
      log := .visited cap :: state.log }
  | _ => state

def advance (ret : Int) (grabs : Nat → Bool) (state : CapSession) : Except CapFault CapSession := do
  match state.pass with
  | .visiting cap =>
    haltIf (cap ∉ state.sCaps) .unlinkedPosition
    let rest := following cap state.sCaps
    if (state.caps cap).ci = none then
      haltIf ((state.caps cap).session = false) .otherSession
      let state := state.unlink cap
      if ret < 0 then return { state with
        capIterator := none
        pass := .ended ret (some cap) }
      else select grabs (some cap) rest state
    else if ret < 0 then return { state with
      capIterator := none
      pass := .ended ret none }
    else select grabs none rest state
  | _ => return state

def finishPass (state : CapSession) : CapSession :=
  match state.pass with
  | .ended _ (some oldCap) => { state.putCap oldCap with pass := .idle }
  | .ended _ none => { state with pass := .idle }
  | _ => state

end CapSession

inductive CapStep where
  | add (ino capId : BitVec 64) (mseq issueSeq : BitVec 32) (capGen : Nat)
  | update (cap : Nat) (capId : BitVec 64) (mseq issueSeq : BitVec 32) (capGen : Nat)
  | touch (cap : Nat)
  | remove (cap : Nat) (queueRelease capReconnect : Bool) (sCapGen : Nat)
  | erase (cap : Nat) (removed : Bool)
  | queueing (call : ReleaseCall)
  | beginPass (grabs : Nat → Bool)
  | putOldCap
  | callBack
  | advance (ret : Int) (grabs : Nat → Bool)
  | finishPass

namespace CapStep

def run : CapStep → CapSession → Except CapFault CapSession
  | .add ino capId mseq issueSeq capGen, state => return state.addCap ino capId mseq issueSeq capGen
  | .update cap capId mseq issueSeq capGen, state => return state.updateCap cap capId mseq issueSeq capGen
  | .touch cap, state => state.touchCap cap
  | .remove cap queueRelease capReconnect sCapGen, state => state.removeCap cap queueRelease capReconnect sCapGen
  | .erase cap removed, state => return state.eraseCap cap removed
  | .queueing call, state =>
    match call.run state.releases with
    | .ok releases => return { state with releases := releases }
    | .error bug => throw (.release bug)
  | .beginPass grabs, state => state.beginPass grabs
  | .putOldCap, state => return state.putOldCap
  | .callBack, state => return state.callBack
  | .advance ret grabs, state => state.advance ret grabs
  | .finishPass, state => return state.finishPass

def Due : CapStep → CapSession → Prop
  | .erase cap removed, state => (cap, removed) ∈ state.removals
  | .beginPass _, state => state.pass = .idle
  | .putOldCap, state => ∃ cap oldCap, state.pass = .selected cap (some oldCap)
  | .callBack, state => ∃ cap, state.pass = .selected cap none
  | .advance _ _, state => ∃ cap, state.pass = .visiting cap
  | .finishPass, state => ∃ ret oldCap, state.pass = .ended ret oldCap
  | .add _ _ _ _ _, _ | .update _ _ _ _ _, _ | .touch _, _ | .remove _ _ _ _, _ | .queueing _, _ => True

def OfPass : CapStep → Prop
  | .beginPass _ | .putOldCap | .callBack | .advance _ _ | .finishPass => True
  | _ => False

end CapStep

namespace CapSession

/-- The list, its length and the backpointers agree; only at the cursor of the pass a cap that was removed is on it. -/
structure ListKept (state : CapSession) (cursor : Option Nat) : Prop where
  nodup : state.sCaps.Nodup
  counted : state.nrCaps = state.sCaps.length
  known : ∀ cap ∈ state.sCaps, cap < state.nextCap
  session : ∀ cap, cap ∈ state.sCaps ↔ (state.caps cap).session = true
  inode : ∀ cap, (state.caps cap).ci ≠ none → cap ∈ state.sCaps
  removed : ∀ cap ∈ state.sCaps, (state.caps cap).ci = none → cursor = some cap
  cursorListed : ∀ cap, cursor = some cap → cap ∈ state.sCaps

def owed (state : CapSession) (oldCap : Option Nat) (cap : Nat) : Nat :=
  state.removals.count (cap, true) + if oldCap = some cap then 1 else 0

/-- Caps that are no longer on the list were unlinked once, and are put once, and not visited after that. -/
structure LogKept (state : CapSession) (oldCap : Option Nat) : Prop where
  unlinked : ∀ cap, state.log.count (.unlinked cap) = if cap < state.nextCap ∧ cap ∉ state.sCaps then 1 else 0
  putOnce : ∀ cap, state.log.count (.putCap cap) + state.owed oldCap cap = state.log.count (.unlinked cap)
  ordered : state.log.Pairwise fun newer older => ∀ cap, newer = .visited cap →
    older ≠ .unlinked cap ∧ older ≠ .putCap cap

/-- What the pass has behind it and what it has yet to do. -/
structure VisitKept (state : CapSession) (todo : List Nat) : Prop where
  once : state.visited.Nodup
  ahead : ∀ cap ∈ todo, cap ∉ state.visited ∧ cap ∉ state.skipped
  known : ∀ cap, cap ∈ state.visited ∨ cap ∈ state.skipped → cap < state.nextCap
  completed : ∀ caps, state.completed = some caps →
    ∀ cap ∈ state.listed, cap ∈ caps → cap ∈ state.visited ∨ cap ∈ state.skipped

/-- The caps that the pass started with and that are still on the list are behind it or ahead of it. -/
def Pending (state : CapSession) (todo : List Nat) : Prop :=
  ∀ cap ∈ state.listed, cap ∈ state.sCaps → cap ∈ todo ∨ cap ∈ state.visited ∨ cap ∈ state.skipped

def todo (state : CapSession) : List Nat :=
  match state.pass with
  | .selected cap _ => cap :: following cap state.sCaps
  | .visiting cap => following cap state.sCaps
  | .idle | .ended _ _ => []

structure Kept (state : CapSession) : Prop where
  iterator : state.capIterator = state.pass.cap
  list : state.ListKept state.pass.cap
  log : state.LogKept state.pass.oldCap
  visits : state.VisitKept state.todo
  pending : state.pass.cap ≠ none → state.Pending state.todo

section

variable {state : CapSession} {cap : Nat} {cursor oldCap : Option Nat} {todo rest : List Nat}

variable {caps : List Nat}

theorem suffix_erase (nodup : caps.Nodup) (suffix : todo <:+ caps) (cap : Nat) :
    todo.erase cap <:+ caps.erase cap := by
  obtain ⟨before, rfl⟩ := suffix
  by_cases earlier : cap ∈ before
  · have absent : cap ∉ todo := fun later => (List.nodup_append.mp nodup).2.2 cap earlier cap later rfl
    rw [erase_append_left _ earlier, erase_of_not_mem absent]
    exact suffix_append _ _
  · rw [erase_append_right _ earlier]
    exact suffix_append _ _

theorem following_of_suffix (nodup : caps.Nodup) (position : cap :: rest <:+ caps) : following cap caps = rest := by
  obtain ⟨before, rfl⟩ := position
  have passed : ∀ other ∈ before, decide (other ≠ cap) = true := by
    intro other earlier
    apply decide_eq_true
    intro same
    exact (List.nodup_append.mp nodup).2.2 other earlier cap mem_cons_self same
  rw [following, dropWhile_append_of_pos passed, dropWhile_cons_of_neg (by simp)]
  rfl

theorem following_suffix (cap : Nat) (caps : List Nat) : following cap caps <:+ caps :=
  (tail_suffix _).trans (dropWhile_suffix _)

theorem following_cons_self (cap : Nat) (rest : List Nat) : following cap (cap :: rest) = rest := by
  rw [following, dropWhile_cons_of_neg (by simp)]
  rfl

theorem following_cons_of_ne {first : Nat} (differs : first ≠ cap) (rest : List Nat) :
    following cap (first :: rest) = following cap rest := by
  rw [following, following, dropWhile_cons_of_pos (by simpa using differs)]

theorem following_not_mem (nodup : caps.Nodup) : cap ∉ following cap caps := by
  induction caps with
  | nil => exact not_mem_nil
  | cons first rest ih =>
    obtain ⟨absent, restNodup⟩ := List.nodup_cons.mp nodup
    by_cases same : first = cap
    · rw [← same, following_cons_self]
      exact absent
    · rw [following_cons_of_ne same]
      exact ih restNodup

theorem following_append (listed : cap ∈ caps) (more : List Nat) :
    following cap (caps ++ more) = following cap caps ++ more := by
  induction caps with
  | nil => cases listed
  | cons first rest ih =>
    rw [cons_append]
    by_cases same : first = cap
    · rw [same, following_cons_self, following_cons_self]
    · rw [following_cons_of_ne same, following_cons_of_ne same]
      exact ih ((List.mem_cons.mp listed).resolve_left (Ne.symm same))

theorem following_erase {other : Nat} (nodup : caps.Nodup) (differs : other ≠ cap) :
    following cap (caps.erase other) = (following cap caps).erase other := by
  induction caps with
  | nil => rfl
  | cons first rest ih =>
    obtain ⟨absent, restNodup⟩ := List.nodup_cons.mp nodup
    by_cases taken : first = other
    · have notCap : first ≠ cap := taken ▸ differs
      have notLater : other ∉ following cap rest := fun later =>
        absent (taken ▸ (following_suffix cap rest).subset later)
      rw [taken, erase_cons_head, ← taken, following_cons_of_ne notCap, taken, erase_of_not_mem notLater]
    · rw [erase_cons_tail (by simpa using taken)]
      by_cases same : first = cap
      · rw [same, following_cons_self, following_cons_self]
      · rw [following_cons_of_ne same, following_cons_of_ne same, ih restNodup]

theorem ListKept.session_of_mem (kept : state.ListKept cursor) (listed : cap ∈ state.sCaps) :
    (state.caps cap).session = true :=
  (kept.session cap).mp listed

theorem ListKept.moved (kept : state.ListKept none) (next : ∀ cap, cursor = some cap → cap ∈ state.sCaps) :
    state.ListKept cursor :=
  { kept with
    removed := fun cap listed gone => absurd (kept.removed cap listed gone) nofun
    cursorListed := next }

theorem ListKept.added (kept : state.ListKept cursor) (ino capId : BitVec 64) (mseq issueSeq : BitVec 32)
    (capGen : Nat) : (state.addCap ino capId mseq issueSeq capGen).ListKept cursor where
  nodup := by
    apply List.nodup_append.mpr
    refine ⟨kept.nodup, nodup_singleton _, ?_⟩
    intro cap listed new isNew same
    have below := kept.known cap listed
    rw [List.mem_singleton.mp isNew] at same
    omega
  counted := by
    have counted := kept.counted
    simp only [addCap, length_append, length_singleton]
    omega
  known := by
    intro cap listed
    show cap < state.nextCap + 1
    rcases List.mem_append.mp listed with old | new
    · exact Nat.lt_succ_of_lt (kept.known cap old)
    · rw [List.mem_singleton.mp new]
      exact Nat.lt_succ_self _
  session := by
    intro cap
    simp only [addCap, mem_append, mem_singleton]
    by_cases new : cap = state.nextCap
    · simp [new]
    · simp [new, kept.session cap]
  inode := by
    intro cap present
    simp only [addCap, mem_append, mem_singleton] at present ⊢
    by_cases new : cap = state.nextCap
    · exact .inr new
    · rw [update_of_ne new] at present
      exact .inl (kept.inode cap present)
  removed := by
    intro cap listed gone
    simp only [addCap, mem_append, mem_singleton] at listed gone
    by_cases new : cap = state.nextCap
    · rw [new, update_self] at gone
      cases gone
    · rw [update_of_ne new] at gone
      exact kept.removed cap (listed.resolve_right new) gone
  cursorListed cap atCursor := mem_append_left _ (kept.cursorListed cap atCursor)

theorem ListKept.unlinked (kept : state.ListKept cursor) (listed : cap ∈ state.sCaps) {next : Option Nat}
    (elsewhere : next ≠ some cap) (moves : next = cursor ∨ next = none ∧ cursor = some cap) {after : CapSession}
    (sCaps : after.sCaps = state.sCaps.erase cap) (nrCaps : after.nrCaps = state.nrCaps - 1)
    (nextCap : after.nextCap = state.nextCap) (ci : (after.caps cap).ci = none)
    (session : (after.caps cap).session = false) (others : ∀ other, other ≠ cap → after.caps other = state.caps other) :
    after.ListKept next where
  nodup := by
    rw [sCaps]
    exact kept.nodup.erase cap
  counted := by
    have counted := kept.counted
    have positive := length_pos_of_mem listed
    rw [nrCaps, sCaps, length_erase_of_mem listed]
    lia
  known other held := by
    rw [sCaps] at held
    rw [nextCap]
    exact kept.known other (mem_of_mem_erase held)
  session other := by
    rw [sCaps]
    by_cases same : other = cap
    · simp [same, session, kept.nodup.not_mem_erase]
    · rw [others other same, mem_erase_of_ne same]
      exact kept.session other
  inode other present := by
    by_cases same : other = cap
    · rw [same] at present
      exact absurd ci present
    · rw [others other same] at present
      rw [sCaps, mem_erase_of_ne same]
      exact kept.inode other present
  removed other held emptied := by
    rw [sCaps] at held
    have differs : other ≠ cap := by
      rintro rfl
      exact kept.nodup.not_mem_erase held
    rw [others other differs] at emptied
    have atCursor := kept.removed other (mem_of_mem_erase held) emptied
    rcases moves with rfl | ⟨-, atCap⟩
    · exact atCursor
    · rw [atCap] at atCursor
      exact absurd (Option.some.inj atCursor).symm differs
  cursorListed other atCursor := by
    have differs : other ≠ cap := by
      rintro rfl
      exact elsewhere atCursor
    rw [sCaps, mem_erase_of_ne differs]
    rcases moves with rfl | ⟨none, -⟩
    · exact kept.cursorListed other atCursor
    · rw [none] at atCursor
      cases atCursor

theorem ListKept.cleared (kept : state.ListKept (some cap)) : (state.clearInode cap).ListKept (some cap) where
  nodup := kept.nodup
  counted := kept.counted
  known := kept.known
  session other := by
    by_cases same : other = cap
    · simp only [clearInode, same, update_self]
      exact kept.session cap
    · simp only [clearInode, update_of_ne same]
      exact kept.session other
  inode other present := by
    by_cases same : other = cap
    · simp only [clearInode, same, update_self] at present
      exact absurd rfl present
    · simp only [clearInode, update_of_ne same] at present
      exact kept.inode other present
  removed other held emptied := by
    by_cases same : other = cap
    · rw [same]
    · simp only [clearInode, update_of_ne same] at emptied
      exact kept.removed other held emptied
  cursorListed := kept.cursorListed

theorem LogKept.added (kept : state.LogKept oldCap) (ino capId : BitVec 64) (mseq issueSeq : BitVec 32)
    (capGen : Nat) : (state.addCap ino capId mseq issueSeq capGen).LogKept oldCap where
  unlinked cap := by
    have before := kept.unlinked cap
    simp only [addCap, mem_append, mem_singleton, not_or]
    rw [before]
    congr 1
    apply propext
    constructor
    · rintro ⟨below, gone⟩
      exact ⟨by omega, gone, by omega⟩
    · rintro ⟨below, gone, old⟩
      exact ⟨by omega, gone⟩
  putOnce := kept.putOnce
  ordered := kept.ordered

theorem LogKept.unlinked_owed (kept : state.LogKept oldCap) (list : state.ListKept cursor)
    (listed : cap ∈ state.sCaps) {after : CapSession} {next : Option Nat} (nextCap : after.nextCap = state.nextCap)
    (sCaps : after.sCaps = state.sCaps.erase cap) (log : after.log = .unlinked cap :: state.log)
    (owes : ∀ other, after.owed next other = state.owed oldCap other + if other = cap then 1 else 0) :
    after.LogKept next where
  unlinked other := by
    have before := kept.unlinked other
    rw [log, nextCap, sCaps]
    by_cases same : other = cap
    · subst same
      have known := list.known other listed
      rw [count_cons_self, before, if_neg (fun gone => gone.2 listed),
        if_pos ⟨known, list.nodup.not_mem_erase⟩]
    · rw [count_cons_of_ne (fun event => same (CapEvent.unlinked.inj event).symm), before]
      simp only [mem_erase_of_ne same]
  putOnce other := by
    have before := kept.putOnce other
    rw [log, owes, count_cons_of_ne (by simp)]
    by_cases same : other = cap
    · rw [if_pos same, same, count_cons_self]
      rw [same] at before
      lia
    · rw [if_neg same, count_cons_of_ne (fun event => same (CapEvent.unlinked.inj event).symm)]
      omega
  ordered := by
    rw [log]
    exact List.pairwise_cons.mpr ⟨fun _ _ _ visit => (nomatch visit), kept.ordered⟩

theorem LogKept.put (kept : state.LogKept oldCap) {after : CapSession} {next : Option Nat}
    (nextCap : after.nextCap = state.nextCap) (sCaps : after.sCaps = state.sCaps)
    (log : after.log = .putCap cap :: state.log)
    (owes : ∀ other, after.owed next other + (if other = cap then 1 else 0) = state.owed oldCap other) :
    after.LogKept next where
  unlinked other := by
    rw [log, nextCap, sCaps, count_cons_of_ne (by simp)]
    exact kept.unlinked other
  putOnce other := by
    have before := kept.putOnce other
    have owes := owes other
    rw [log, count_cons_of_ne (a := CapEvent.unlinked other) (by simp)]
    by_cases same : other = cap
    · rw [if_pos same] at owes
      rw [same, count_cons_self]
      rw [same] at before owes
      lia
    · rw [if_neg same] at owes
      rw [count_cons_of_ne (fun event => same (CapEvent.putCap.inj event).symm)]
      lia
  ordered := by
    rw [log]
    exact List.pairwise_cons.mpr ⟨fun _ _ _ visit => (nomatch visit), kept.ordered⟩

theorem LogKept.quiet (kept : state.LogKept oldCap) {after : CapSession} (nextCap : after.nextCap = state.nextCap)
    (sCaps : ∀ cap, cap ∈ after.sCaps ↔ cap ∈ state.sCaps) (log : after.log = state.log)
    (removals : ∀ cap, after.removals.count (cap, true) = state.removals.count (cap, true)) :
    after.LogKept oldCap where
  unlinked cap := by
    simp only [log, nextCap, sCaps]
    exact kept.unlinked cap
  putOnce cap := by
    rw [log, owed, removals]
    exact kept.putOnce cap
  ordered := by
    rw [log]
    exact kept.ordered

theorem ListKept.quiet (kept : state.ListKept cursor) {after : CapSession}
    (session : ∀ cap, (after.caps cap).session = (state.caps cap).session)
    (ci : ∀ cap, (after.caps cap).ci = (state.caps cap).ci) (nextCap : after.nextCap = state.nextCap)
    (sCaps : after.sCaps = state.sCaps) (nrCaps : after.nrCaps = state.nrCaps) : after.ListKept cursor where
  nodup := sCaps ▸ kept.nodup
  counted := by rw [nrCaps, sCaps, kept.counted]
  known cap := by
    rw [sCaps, nextCap]
    exact kept.known cap
  session cap := by
    rw [sCaps, session]
    exact kept.session cap
  inode cap := by
    rw [sCaps, ci]
    exact kept.inode cap
  removed cap := by
    rw [sCaps, ci]
    exact kept.removed cap
  cursorListed cap := by
    rw [sCaps]
    exact kept.cursorListed cap

theorem VisitKept.quiet (kept : state.VisitKept todo) {after : CapSession} {later : List Nat}
    (within : ∀ cap ∈ later, cap ∈ todo) (nextCap : state.nextCap ≤ after.nextCap)
    (visited : after.visited = state.visited) (skipped : after.skipped = state.skipped)
    (listed : after.listed = state.listed) (completed : after.completed = state.completed) :
    after.VisitKept later where
  once := visited ▸ kept.once
  ahead cap held := by
    rw [visited, skipped]
    exact kept.ahead cap (within cap held)
  known cap := by
    rw [visited, skipped]
    exact fun behind => Nat.lt_of_lt_of_le (kept.known cap behind) nextCap
  completed caps := by
    rw [visited, skipped, listed, completed]
    exact kept.completed caps

/-- The loop stops at a cap that it grabbed, or at the end of the list. -/
theorem select_kept (grabs : Nat → Bool) (list : state.ListKept none) (log : state.LogKept oldCap)
    (visits : state.VisitKept todo) (pending : state.Pending todo) (suffix : todo <:+ state.sCaps) :
    Returns (select grabs oldCap todo state) Kept := by
  induction todo generalizing state with
  | nil =>
    refine ⟨_, rfl, rfl, ?_, ?_, ⟨visits.once, nofun, visits.known, ?_⟩, (absurd rfl ·)⟩
    · exact list.quiet (fun _ => rfl) (fun _ => rfl) rfl rfl rfl
    · exact log.quiet rfl (fun _ => Iff.rfl) rfl (fun _ => rfl)
    · intro caps ended cap listed held
      cases ended
      exact (pending cap listed held).resolve_left not_mem_nil
  | cons cap rest ih =>
    have present : cap ∈ state.sCaps := suffix.subset mem_cons_self
    have restSuffix : rest <:+ state.sCaps := (suffix_cons cap rest).trans suffix
    have restNodup : (cap :: rest).Nodup := list.nodup.sublist suffix.sublist
    rw [select]
    cases inode : (state.caps cap).ci with
    | none => cases list.removed cap present inode
    | some ino =>
      dsimp only
      split
      · have ahead := following_of_suffix list.nodup suffix
        refine ⟨_, rfl, rfl, ?_, ?_, ?_, fun _ => ?_⟩
        · have moved : state.ListKept (some cap) := list.moved fun other same => Option.some.inj same ▸ present
          exact moved.quiet (fun _ => rfl) (fun _ => rfl) rfl rfl rfl
        · exact log.quiet rfl (fun _ => Iff.rfl) rfl (fun _ => rfl)
        · rw [todo]
          dsimp only
          rw [ahead]
          exact visits.quiet (fun _ held => held) le_rfl rfl rfl rfl rfl
        · rw [todo]
          dsimp only
          rw [ahead]
          exact pending
      · apply ih
        · exact list.quiet (fun _ => rfl) (fun _ => rfl) rfl rfl rfl
        · exact log.quiet rfl (fun _ => Iff.rfl) rfl (fun _ => rfl)
        · refine ⟨visits.once, ?_, ?_, ?_⟩
          · intro other held
            obtain ⟨unvisited, unskipped⟩ := visits.ahead other (mem_cons_of_mem _ held)
            refine ⟨unvisited, ?_⟩
            intro skipped
            rcases List.mem_cons.mp skipped with rfl | earlier
            · exact (List.nodup_cons.mp restNodup).1 held
            · exact unskipped earlier
          · intro other behind
            rcases behind with visited | skipped
            · exact visits.known other (.inl visited)
            · rcases List.mem_cons.mp skipped with rfl | earlier
              · exact list.known other present
              · exact visits.known other (.inr earlier)
          · intro caps ended other listed held
            exact (visits.completed caps ended other listed held).imp_right (mem_cons_of_mem _)
        · intro other listed held
          rcases pending other listed held with ahead | visited | skipped
          · rcases List.mem_cons.mp ahead with rfl | later
            · exact .inr (.inr mem_cons_self)
            · exact .inl later
          · exact .inr (.inl visited)
          · exact .inr (.inr (mem_cons_of_mem _ skipped))
        · exact restSuffix

theorem beginPass_kept (grabs : Nat → Bool) (idle : state.pass = .idle) (kept : state.Kept) :
    Returns (state.beginPass grabs) Kept := by
  obtain ⟨-, list, log, -, -⟩ := kept
  rw [idle] at list log
  apply select_kept
  · exact list.quiet (fun _ => rfl) (fun _ => rfl) rfl rfl rfl
  · exact log.quiet rfl (fun _ => Iff.rfl) rfl (fun _ => rfl)
  · refine ⟨nodup_nil, fun _ _ => ⟨not_mem_nil, not_mem_nil⟩, ?_, nofun⟩
    rintro cap (visited | skipped)
    · cases visited
    · cases skipped
  · exact fun cap _ held => .inl held
  · exact suffix_rfl

theorem putOldCap_kept {old : Nat} (selected : state.pass = .selected cap (some old)) (kept : state.Kept) :
    state.putOldCap.Kept := by
  obtain ⟨iterator, list, log, visits, pending⟩ := kept
  rw [todo, selected] at visits pending
  rw [selected] at iterator list log
  rw [putOldCap, selected]
  refine ⟨iterator, ?_, ?_, ?_, pending⟩
  · exact list.quiet (fun _ => rfl) (fun _ => rfl) rfl rfl rfl
  · refine @LogKept.put state old (some old) log _ none rfl rfl rfl ?_
    intro other
    simp only [owed, putCap, Option.some.injEq, reduceCtorEq, if_false, @eq_comm _ old]
    omega
  · exact visits.quiet (fun _ held => held) le_rfl rfl rfl rfl rfl

theorem callBack_kept (selected : state.pass = .selected cap none) (kept : state.Kept) : state.callBack.Kept := by
  obtain ⟨iterator, list, log, visits, pending⟩ := kept
  have pending : state.Pending state.todo := pending (by simp [selected, PassAt.cap])
  rw [todo, selected] at visits pending
  rw [selected] at iterator list log
  have present : cap ∈ state.sCaps := list.cursorListed cap rfl
  have absent : cap ∉ following cap state.sCaps := following_not_mem list.nodup
  obtain ⟨unvisited, unskipped⟩ := visits.ahead cap mem_cons_self
  rw [callBack, selected]
  refine ⟨iterator, ?_, ?_, ?_, fun _ => ?_⟩
  · exact list.quiet (fun _ => rfl) (fun _ => rfl) rfl rfl rfl
  · refine ⟨fun other => ?_, fun other => ?_, ?_⟩
    · rw [count_cons_of_ne (by simp)]
      exact log.unlinked other
    · rw [count_cons_of_ne (by simp), count_cons_of_ne (by simp)]
      exact log.putOnce other
    · apply List.pairwise_cons.mpr
      refine ⟨?_, log.ordered⟩
      intro older earlier other visit
      cases visit
      have notUnlinked : state.log.count (.unlinked cap) = 0 := by
        rw [log.unlinked cap, if_neg (fun gone => gone.2 present)]
      have putOnce := log.putOnce cap
      have notPut : state.log.count (.putCap cap) = 0 := by omega
      constructor
      · rintro rfl
        exact List.count_eq_zero.mp notUnlinked earlier
      · rintro rfl
        exact List.count_eq_zero.mp notPut earlier
  · refine ⟨List.nodup_cons.mpr ⟨unvisited, visits.once⟩, ?_, ?_, ?_⟩
    · intro other held
      obtain ⟨notVisited, notSkipped⟩ := visits.ahead other (mem_cons_of_mem _ held)
      refine ⟨?_, notSkipped⟩
      intro visited
      rcases List.mem_cons.mp visited with rfl | earlier
      · exact absent held
      · exact notVisited earlier
    · rintro other (visited | skipped)
      · rcases List.mem_cons.mp visited with rfl | earlier
        · exact list.known other present
        · exact visits.known other (.inl earlier)
      · exact visits.known other (.inr skipped)
    · intro caps ended other listed held
      exact (visits.completed caps ended other listed held).imp_left (mem_cons_of_mem _)
  · intro other listed held
    rcases pending other listed held with ahead | visited | skipped
    · rcases List.mem_cons.mp ahead with rfl | later
      · exact .inr (.inl mem_cons_self)
      · exact .inl later
    · exact .inr (.inl (mem_cons_of_mem _ visited))
    · exact .inr (.inr skipped)

theorem advance_kept (ret : Int) (grabs : Nat → Bool) (visiting : state.pass = .visiting cap) (kept : state.Kept) :
    Returns (state.advance ret grabs) Kept := by
  obtain ⟨iterator, list, log, visits, pending⟩ := kept
  have pending : state.Pending state.todo := pending (by simp [visiting, PassAt.cap])
  rw [todo, visiting] at visits pending
  rw [visiting] at iterator list log
  have present : cap ∈ state.sCaps := list.cursorListed cap rfl
  have absent : cap ∉ following cap state.sCaps := following_not_mem list.nodup
  have suffix := following_suffix cap state.sCaps
  rw [advance, visiting]
  apply Returns.haltIf (not_not_intro present)
  split
  · next gone =>
    apply Returns.haltIf (by simp [list.session_of_mem present])
    have unlinkedList : (state.unlink cap).ListKept none := by
      refine list.unlinked present ?_ (.inr ⟨rfl, rfl⟩) rfl rfl rfl ?_ ?_ ?_
      · exact (Option.some_ne_none cap).symm
      · simpa only [unlink, update_self] using gone
      · simp only [unlink, update_self]
      · exact fun other differs => update_of_ne differs _ _
    have unlinkedLog : (state.unlink cap).LogKept (some cap) := by
      refine log.unlinked_owed list present rfl rfl rfl ?_
      intro other
      simp only [owed, unlink, PassAt.oldCap, Option.some.injEq, reduceCtorEq, if_false, @eq_comm _ cap]
      omega
    have unlinkedVisits : (state.unlink cap).VisitKept (following cap state.sCaps) :=
      visits.quiet (fun _ held => held) le_rfl rfl rfl rfl rfl
    split
    · refine ⟨_, rfl, rfl, ?_, ?_, ?_, (absurd rfl ·)⟩
      · exact unlinkedList.quiet (fun _ => rfl) (fun _ => rfl) rfl rfl rfl
      · exact unlinkedLog.quiet rfl (fun _ => Iff.rfl) rfl (fun _ => rfl)
      · exact unlinkedVisits.quiet nofun le_rfl rfl rfl rfl rfl
    · apply select_kept grabs unlinkedList unlinkedLog unlinkedVisits
      · exact fun other listed held => pending other listed (mem_of_mem_erase held)
      · have suffix := suffix_erase list.nodup suffix cap
        rwa [erase_of_not_mem absent] at suffix
  · next alive =>
    have settled : state.ListKept none := { list with
      removed := fun other listed gone => by
        have same := Option.some.inj (list.removed other listed gone)
        exact absurd (same ▸ gone) alive
      cursorListed := nofun }
    split
    · refine ⟨_, rfl, rfl, ?_, ?_, ?_, (absurd rfl ·)⟩
      · exact settled.quiet (fun _ => rfl) (fun _ => rfl) rfl rfl rfl
      · exact log.quiet rfl (fun _ => Iff.rfl) rfl (fun _ => rfl)
      · exact visits.quiet nofun le_rfl rfl rfl rfl rfl
    · exact select_kept grabs settled log visits pending suffix

theorem finishPass_kept {ret : Int} (ended : state.pass = .ended ret oldCap) (kept : state.Kept) :
    state.finishPass.Kept := by
  obtain ⟨iterator, list, log, visits, -⟩ := kept
  rw [todo, ended] at visits
  rw [ended] at iterator list log
  rw [finishPass, ended]
  cases oldCap with
  | none =>
    refine ⟨iterator, ?_, ?_, ?_, (absurd rfl ·)⟩
    · exact list.quiet (fun _ => rfl) (fun _ => rfl) rfl rfl rfl
    · exact log.quiet rfl (fun _ => Iff.rfl) rfl (fun _ => rfl)
    · exact visits.quiet nofun le_rfl rfl rfl rfl rfl
  | some old =>
    refine ⟨iterator, ?_, ?_, ?_, (absurd rfl ·)⟩
    · exact list.quiet (fun _ => rfl) (fun _ => rfl) rfl rfl rfl
    · refine @LogKept.put state old (some old) log _ none rfl rfl rfl ?_
      intro other
      simp only [owed, putCap, Option.some.injEq, reduceCtorEq, if_false, @eq_comm _ old]
      omega
    · exact visits.quiet nofun le_rfl rfl rfl rfl rfl

theorem addCap_kept (kept : state.Kept) (ino capId : BitVec 64) (mseq issueSeq : BitVec 32) (capGen : Nat) :
    (state.addCap ino capId mseq issueSeq capGen).Kept := by
  obtain ⟨iterator, list, log, visits, pending⟩ := kept
  have ahead : ∀ other, other ∈ (state.addCap ino capId mseq issueSeq capGen).todo ↔
      other ∈ state.todo ∨ state.pass.cap ≠ none ∧ other = state.nextCap := by
    intro other
    simp only [todo, addCap]
    cases under : state.pass with
    | idle | ended => simp [PassAt.cap]
    | selected cap | visiting cap =>
      have present := list.cursorListed cap (by rw [under, PassAt.cap])
      simp [PassAt.cap, following_append present, or_assoc]
  refine ⟨iterator, list.added ino capId mseq issueSeq capGen, log.added ino capId mseq issueSeq capGen, ?_, ?_⟩
  · refine ⟨visits.once, ?_, fun other behind => Nat.lt_succ_of_lt (visits.known other behind), visits.completed⟩
    intro other held
    rcases (ahead other).mp held with old | ⟨-, rfl⟩
    · exact visits.ahead other old
    · exact ⟨fun visited => (visits.known _ (.inl visited)).false, fun skipped =>
        (visits.known _ (.inr skipped)).false⟩
  · intro under other listed held
    rcases List.mem_append.mp held with old | new
    · exact (pending under other listed old).imp_left fun held => (ahead other).mpr (.inl held)
    · exact .inl ((ahead other).mpr (.inr ⟨under, List.mem_singleton.mp new⟩))

theorem Kept.quiet (kept : state.Kept) {after : CapSession}
    (session : ∀ cap, (after.caps cap).session = (state.caps cap).session)
    (ci : ∀ cap, (after.caps cap).ci = (state.caps cap).ci) (same : after = { state with
      caps := after.caps
      releases := after.releases }) : after.Kept := by
  obtain ⟨iterator, list, log, visits, pending⟩ := kept
  rw [same] at session ci ⊢
  refine ⟨iterator, list.quiet session ci rfl rfl rfl, ?_, ?_, pending⟩
  · exact log.quiet rfl (fun _ => Iff.rfl) rfl (fun _ => rfl)
  · exact visits.quiet (fun _ held => held) le_rfl rfl rfl rfl rfl

theorem updateCap_kept (kept : state.Kept) (cap : Nat) (capId : BitVec 64) (mseq issueSeq : BitVec 32) (capGen : Nat) :
    (state.updateCap cap capId mseq issueSeq capGen).Kept := by
  refine kept.quiet ?_ ?_ rfl
  · intro other
    simp only [updateCap, update_apply]
    split
    · next same => rw [same]
    · rfl
  · intro other
    simp only [updateCap, update_apply]
    split
    · next same => rw [same]
    · rfl

theorem todo_resting (resting : state.pass.cap = none) : state.todo = [] := by
  rw [todo]
  cases at_ : state.pass with
  | idle | ended => rfl
  | selected | visiting =>
    rw [at_] at resting
    cases resting

theorem touchCap_kept {after : CapSession} (kept : state.Kept) (ran : state.touchCap cap = .ok after) :
    after.Kept := by
  obtain ⟨_, connected, ran⟩ := ok_of_bind ran
  have held : (state.caps cap).session = true := by simpa using not_of_haltIf connected
  cases under : state.capIterator with
  | some other =>
    rw [under] at ran
    cases ran
    exact kept
  | none =>
    rw [under] at ran
    cases ran
    obtain ⟨iterator, list, log, visits, -⟩ := kept
    have resting : state.pass.cap = none := iterator ▸ under
    have present : cap ∈ state.sCaps := (list.session cap).mpr held
    have moved : (state.sCaps.erase cap ++ [cap]).Perm state.sCaps :=
      (perm_append_singleton _ _).trans (perm_cons_erase present).symm
    refine ⟨resting.symm, ?_, ?_, ?_, fun busy => absurd resting busy⟩
    · exact {
        nodup := moved.nodup_iff.mpr list.nodup
        counted := by rw [list.counted, moved.length_eq]
        known := fun other listed => list.known other (moved.mem_iff.mp listed)
        session := fun other => moved.mem_iff.trans (list.session other)
        inode := fun other present => moved.mem_iff.mpr (list.inode other present)
        removed := fun other listed gone => list.removed other (moved.mem_iff.mp listed) gone
        cursorListed := fun other atCursor => moved.mem_iff.mpr (list.cursorListed other atCursor) }
    · exact log.quiet rfl (fun _ => moved.mem_iff) rfl (fun _ => rfl)
    · refine visits.quiet ?_ le_rfl rfl rfl rfl rfl
      intro other held
      rw [todo_resting] at held
      · cases held
      · exact resting

theorem todo_unlinked {after : CapSession} (nodup : state.sCaps.Nodup) (elsewhere : state.pass.cap ≠ some cap)
    (pass : after.pass = state.pass) (sCaps : after.sCaps = state.sCaps.erase cap) :
    after.todo = state.todo.erase cap := by
  rw [todo, todo, pass, sCaps]
  cases at_ : state.pass with
  | idle | ended => rfl
  | selected here old =>
    rw [at_] at elsewhere
    have differs : here ≠ cap := fun same => elsewhere (congrArg some same)
    dsimp only
    rw [following_erase nodup (Ne.symm differs), erase_cons_tail (by simpa using differs)]
  | visiting here =>
    rw [at_] at elsewhere
    have differs : here ≠ cap := fun same => elsewhere (congrArg some same)
    exact following_erase nodup (Ne.symm differs)

theorem detach_kept (kept : state.Kept) (present : cap ∈ state.sCaps) : (state.detach cap).Kept := by
  obtain ⟨iterator, list, log, visits, pending⟩ := kept
  unfold detach
  split
  · next here =>
    have cursor : state.pass.cap = some cap := iterator ▸ here
    have cleared : (state.clearInode cap).ListKept (some cap) := by
      rw [cursor] at list
      exact list.cleared
    refine ⟨iterator, ?_, ?_, ?_, pending⟩
    · show ListKept _ state.pass.cap
      rw [cursor]
      exact cleared.quiet (fun _ => rfl) (fun _ => rfl) rfl rfl rfl
    · refine @LogKept.quiet state _ log _ rfl (fun _ => Iff.rfl) rfl ?_
      intro other
      simp
    · exact visits.quiet (fun _ held => held) le_rfl rfl rfl rfl rfl
  · next other =>
    have elsewhere : state.pass.cap ≠ some cap := fun here => other (iterator.trans here)
    have ahead : todo { (state.unlink cap).clearInode cap with removals := state.removals ++ [(cap, true)] } =
        state.todo.erase cap :=
      todo_unlinked list.nodup elsewhere rfl rfl
    refine ⟨iterator, ?_, ?_, ?_, ?_⟩
    · refine list.unlinked present elsewhere (.inl rfl) rfl rfl rfl ?_ ?_ ?_
      · simp only [clearInode, update_self]
      · simp only [clearInode, unlink, update_self]
      · intro other differs
        simp only [clearInode, unlink, update_of_ne differs]
    · refine log.unlinked_owed list present rfl rfl rfl ?_
      intro other
      have counts : (state.removals ++ [(cap, true)]).count (other, true) =
          state.removals.count (other, true) + if other = cap then 1 else 0 := by
        rw [count_append, count_singleton]
        simp [@eq_comm _ cap]
      show (state.removals ++ [(cap, true)]).count (other, true) + _ = state.removals.count (other, true) + _ + _
      rw [counts]
      exact Nat.add_right_comm _ _ _
    · rw [ahead]
      exact visits.quiet (fun _ held => mem_of_mem_erase held) le_rfl rfl rfl rfl rfl
    · intro busy other listed held
      rw [ahead]
      have differs : other ≠ cap := by
        rintro rfl
        exact list.nodup.not_mem_erase held
      rw [mem_erase_of_ne differs]
      exact pending busy other listed (mem_of_mem_erase held)

theorem removeCap_kept {queueRelease capReconnect : Bool} {sCapGen : Nat} {after : CapSession} (kept : state.Kept)
    (ran : state.removeCap cap queueRelease capReconnect sCapGen = .ok after) : after.Kept := by
  unfold removeCap at ran
  cases inode : (state.caps cap).ci with
  | none =>
    rw [inode] at ran
    cases ran
  | some ino =>
    rw [inode] at ran
    obtain ⟨_, -, ran⟩ := ok_of_bind ran
    obtain ⟨releases, -, ran⟩ := ok_of_bind ran
    cases ran
    have present : cap ∈ state.sCaps := kept.list.inode cap (by simp [inode])
    exact (detach_kept kept present).quiet (fun _ => rfl) (fun _ => rfl) rfl

theorem eraseCap_kept {removed : Bool} (due : (cap, removed) ∈ state.removals) (kept : state.Kept) :
    (state.eraseCap cap removed).Kept := by
  obtain ⟨iterator, list, log, visits, pending⟩ := kept
  cases removed with
  | false =>
    refine ⟨iterator, ?_, ?_, ?_, pending⟩
    · exact list.quiet (fun _ => rfl) (fun _ => rfl) rfl rfl rfl
    · refine @LogKept.quiet state _ log _ rfl (fun _ => Iff.rfl) rfl ?_
      intro other
      exact count_erase_of_ne (by simp)
    · exact visits.quiet (fun _ held => held) le_rfl rfl rfl rfl rfl
  | true =>
    refine ⟨iterator, ?_, ?_, ?_, pending⟩
    · exact list.quiet (fun _ => rfl) (fun _ => rfl) rfl rfl rfl
    · refine @LogKept.put state cap _ log _ _ rfl rfl rfl ?_
      intro other
      show (state.removals.erase (cap, true)).count (other, true) + _ + _ = state.removals.count (other, true) + _
      by_cases same : other = cap
      · have positive := List.count_pos_iff.mpr due
        rw [same, count_erase_self, if_pos rfl]
        show state.removals.count (cap, true) - 1 + (if state.pass.oldCap = some cap then 1 else 0) + 1 = _
        lia
      · rw [count_erase_of_ne (by simpa using same), if_neg same]
        rfl
    · exact visits.quiet (fun _ held => held) le_rfl rfl rfl rfl rfl

end

theorem init_kept : init.Kept where
  iterator := rfl
  list := {
    nodup := nodup_nil
    counted := rfl
    known := nofun
    session := fun _ => ⟨nofun, nofun⟩
    inode := fun _ present => absurd rfl present
    removed := nofun
    cursorListed := nofun }
  log := {
    unlinked := fun _ => rfl
    putOnce := fun _ => rfl
    ordered := .nil }
  visits := {
    once := nodup_nil
    ahead := nofun
    known := fun _ behind => behind.elim nofun nofun
    completed := nofun }
  pending busy := absurd rfl busy

end CapSession

theorem CapStep.preserves : Preserves CapStep.run CapStep.Due CapSession.Kept := by
  intro step before after due kept ran
  cases step with
  | add ino capId mseq issueSeq capGen =>
    cases ran
    exact CapSession.addCap_kept kept ino capId mseq issueSeq capGen
  | update cap capId mseq issueSeq capGen =>
    cases ran
    exact CapSession.updateCap_kept kept cap capId mseq issueSeq capGen
  | touch cap => exact CapSession.touchCap_kept kept ran
  | remove cap queueRelease capReconnect sCapGen => exact CapSession.removeCap_kept kept ran
  | erase cap removed =>
    cases ran
    exact CapSession.eraseCap_kept due kept
  | queueing call =>
    simp only [CapStep.run] at ran
    split at ran
    · cases ran
      exact kept.quiet (fun _ => rfl) (fun _ => rfl) rfl
    · cases ran
  | beginPass grabs => exact Returns.of_ok (CapSession.beginPass_kept grabs due kept) ran
  | putOldCap =>
    obtain ⟨cap, old, selected⟩ := due
    cases ran
    exact CapSession.putOldCap_kept selected kept
  | callBack =>
    obtain ⟨cap, selected⟩ := due
    cases ran
    exact CapSession.callBack_kept selected kept
  | advance ret grabs =>
    obtain ⟨cap, visiting⟩ := due
    exact Returns.of_ok (CapSession.advance_kept ret grabs visiting kept) ran
  | finishPass =>
    obtain ⟨ret, oldCap, ended⟩ := due
    cases ran
    exact CapSession.finishPass_kept ended kept

theorem CapStep.pass_returns {step : CapStep} {state : CapSession} (kept : state.Kept) (ofPass : step.OfPass)
    (due : step.Due state) : ∃ after, step.run state = .ok after := by
  cases step with
  | beginPass grabs =>
    obtain ⟨after, ran, -⟩ := CapSession.beginPass_kept grabs due kept
    exact ⟨after, ran⟩
  | advance ret grabs =>
    obtain ⟨cap, visiting⟩ := due
    obtain ⟨after, ran, -⟩ := CapSession.advance_kept ret grabs visiting kept
    exact ⟨after, ran⟩
  | putOldCap | callBack | finishPass => exact ⟨_, rfl⟩
  | add | update | touch | remove | erase | queueing => cases ofPass

namespace CapSession

def deferred (state : CapSession) (cap : Nat) : Nat :=
  if state.capIterator = some cap ∧ (state.caps cap).ci = none then 1 else 0

/-- The pass over the caps of a session visits each once, whatever is done while their lock is let go of. -/
structure Tolerant (state : CapSession) : Prop where
  counted : state.nrCaps = state.sCaps.length
  visitedOnce : ∀ caps, state.completed = some caps → ∀ cap ∈ state.listed, cap ∈ caps → cap ∉ state.skipped →
    state.visited.count cap = 1
  notAgain : ∀ cap, state.visited.count cap ≤ 1
  notAfter : state.log.Pairwise fun newer older => ∀ cap, newer = .visited cap →
    older ≠ .unlinked cap ∧ older ≠ .putCap cap
  unlinkedOnce : ∀ cap < state.nextCap, (state.caps cap).ci = none →
    state.log.count (.unlinked cap) + state.deferred cap = 1
  putOnce : ∀ cap < state.nextCap, (state.caps cap).ci = none →
    state.log.count (.putCap cap) + state.owed state.pass.oldCap cap + state.deferred cap = 1
  notRemoved : ∀ cap, (state.caps cap).ci ≠ none →
    state.log.count (.unlinked cap) = 0 ∧ state.log.count (.putCap cap) = 0

theorem Kept.tolerant {state : CapSession} (kept : state.Kept) : state.Tolerant := by
  obtain ⟨iterator, list, log, visits, pending⟩ := kept
  have unlinkedOnce : ∀ cap < state.nextCap, (state.caps cap).ci = none →
      state.log.count (.unlinked cap) + state.deferred cap = 1 := by
    intro cap known gone
    have unlinked := log.unlinked cap
    by_cases held : cap ∈ state.sCaps
    · have here : state.capIterator = some cap := iterator.trans (list.removed cap held gone)
      rw [unlinked, deferred, if_neg (fun absent => absent.2 held), if_pos ⟨here, gone⟩]
    · have notHere : state.capIterator ≠ some cap := by
        intro here
        exact held (list.cursorListed cap (iterator.symm.trans here))
      rw [unlinked, deferred, if_pos ⟨known, held⟩, if_neg (fun left => notHere left.1)]
  refine ⟨list.counted, ?_, List.nodup_iff_count_le_one.mp visits.once, log.ordered, unlinkedOnce, ?_, ?_⟩
  · intro caps ended cap listed held unskipped
    have visited := (visits.completed caps ended cap listed held).resolve_right unskipped
    exact count_eq_one_of_mem visits.once visited
  · intro cap known gone
    rw [log.putOnce cap]
    exact unlinkedOnce cap known gone
  · intro cap present
    have unlinked := log.unlinked cap
    rw [if_neg (fun absent => absent.2 (list.inode cap present))] at unlinked
    have putOnce := log.putOnce cap
    lia

/-- Between any steps of passes, removals, additions and touches the list is counted, a pass visits what stays on the
list once, and what leaves it is unlinked and put once; and each step of a pass finds what it needs. -/
theorem iterateSessionCaps_tolerant {state : CapSession} (reached : Reached CapStep.run CapStep.Due init state) :
    state.Tolerant ∧ ∀ step : CapStep, step.OfPass → step.Due state → ∃ after, step.run state = .ok after := by
  have kept := reached.preserved CapStep.preserves init_kept
  exact ⟨kept.tolerant, fun _ ofPass due => CapStep.pass_returns kept ofPass due⟩

/-- The first of two caps is removed while the pass is at it. -/
theorem iterateSessionCaps_tolerant_removed :
    ∃ state, Reached CapStep.run CapStep.Due init state ∧ state.sCaps = [1] ∧
      state.log = [.visited 1, .putCap 0, .unlinked 0, .visited 0] ∧ state.Tolerant := by
  have first : Reached CapStep.run CapStep.Due init _ := Reached.start.next (.add 1 1 0 0 0) trivial rfl
  have both := first.next (.add 2 2 0 0 0) trivial rfl
  have begun := both.next (.beginPass fun _ => true) rfl rfl
  have called := begun.next .callBack ⟨0, rfl⟩ rfl
  have removed := called.next (.remove 0 false false 0) trivial rfl
  have erased := removed.next (.erase 0 false) mem_cons_self rfl
  have unlinked := erased.next (.advance 0 fun _ => true) ⟨0, rfl⟩ rfl
  have old := unlinked.next .putOldCap ⟨1, 0, rfl⟩ rfl
  have calledAgain := old.next .callBack ⟨1, rfl⟩ rfl
  have ended := calledAgain.next (.advance 0 fun _ => true) ⟨1, rfl⟩ rfl
  have finished := ended.next .finishPass ⟨0, none, rfl⟩ rfl
  exact ⟨_, finished, rfl, rfl, (iterateSessionCaps_tolerant finished).1⟩

end CapSession

end KmodCeph.Mds
