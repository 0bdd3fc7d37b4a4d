import KmodCeph.Caps.Dirty

namespace KmodCeph.Caps

open Lib List

def assignFlushTid (flushing : CapMask) (ci : CephInode) : CephInode :=
  if flushing = 0 then ci
  else
    let tid := ci.capFlushLastTid + 1
    { ci with
      capFlushLastTid := tid
      capFlushTid := fun bit => if bit < cephCapBits ∧ flushing.getLsbD bit then tid else ci.capFlushTid bit }

def capsAreFlushed (ci : CephInode) (tid : Nat) : Bool :=
  (List.range cephCapBits).all fun bit => !(ci.flushingCaps.getLsbD bit && (ci.capFlushTid bit).toNat ≤ tid)

/-- An inode with the capabilities of each of its flushes, which are numbered from 1
on, and the acks that have been handled; a cap_snap is flushed without capabilities. -/
structure FlushState where
  ci : CephInode
  lists : CapLists
  last : Nat
  flushes : Nat → CapMask
  acks : List (Nat × CapMask)

/-- Flushes of one inode and their acks. -/
inductive FlushCall where
  | markDirty (mask : CapMask)
  | flush (session : Session)
  | resend
  | flushCapSnap (addr : Nat)
  | ack (number : Nat) (bits : CapMask)

def FlushState.init (snapc : SnapContext) : FlushState where
  ci := .clean snapc
  lists := { capDirty := [], capFlushing := [], numCapFlushing := 0, capFlushSeq := 0 }
  last := 0
  flushes := fun _ => 0
  acks := []

def FlushState.issue (bits : CapMask) (state : FlushState) : FlushState :=
  { state with last := state.last + 1, flushes := Function.update state.flushes (state.last + 1) bits }

def FlushState.send (flushing : CapMask) (state : FlushState) : FlushState :=
  if flushing = 0 then state else { state with ci := assignFlushTid flushing state.ci }.issue flushing

def sentTid (number : Nat) : Nat := number % 2 ^ 16

def flushedInode : InodeId := 0

def FlushCall.run : FlushCall → FlushState → Except InodeBug FlushState
  | .markDirty mask, state => do
    let (ci, lists) ← cephMarkDirtyCaps flushedInode mask state.ci state.lists
    return { state with ci := ci, lists := lists }
  | .flush session, state => do
    let (flushing, ci, lists) ← markCapsFlushing flushedInode session state.ci state.lists
    return { state with ci := ci, lists := lists }.send flushing
  | .resend, state => return state.send state.ci.flushingCaps
  | .flushCapSnap addr, state => do
    let ci ← Caps.flushCapSnap addr state.ci
    return { state with ci := ci }.issue 0
  | .ack number bits, state => do
    let (ci, lists) ← handleCapFlushAck flushedInode (sentTid number) bits state.ci state.lists
    return { state with ci := ci, lists := lists, acks := (number, bits) :: state.acks }

/-- Only flushes are acked, each for its capabilities. -/
def FlushCall.Proper : FlushCall → FlushState → Prop
  | .ack number bits, state => 1 ≤ number ∧ number ≤ state.last ∧ bits &&& ~~~state.flushes number = 0
  | _, _ => True

instance FlushCall.decidableProper : (call : FlushCall) → (state : FlushState) → Decidable (call.Proper state)
  | .ack _ _, _ => inferInstanceAs (Decidable (_ ∧ _))
  | .markDirty _, _ => .isTrue trivial
  | .flush _, _ => .isTrue trivial
  | .resend, _ => .isTrue trivial
  | .flushCapSnap _, _ => .isTrue trivial

structure MostRecent (state : FlushState) (bit number : Nat) : Prop where
  issued : 1 ≤ number ∧ number ≤ state.last
  carried : (state.flushes number).getLsbD bit = true
  latest : ∀ later, number < later → later ≤ state.last → (state.flushes later).getLsbD bit = false

def FlushState.Acked (state : FlushState) (number bit : Nat) : Prop :=
  ∃ bits, (number, bits) ∈ state.acks ∧ bits.getLsbD bit = true

/-- An ack does not come so late that its tid is that of a later flush. -/
def FlushCall.Timely : FlushCall → FlushState → Prop
  | .ack number bits, state => ∀ bit < cephCapBits, bits.getLsbD bit = true → ∀ recent,
      MostRecent state bit recent → ¬ state.Acked recent bit → sentTid recent = sentTid number → recent = number
  | _, _ => True

def FlushState.Safe (state : FlushState) (number : Nat) : Prop :=
  ∀ earlier, 1 ≤ earlier → earlier ≤ number → ∀ bit < cephCapBits,
    (state.flushes earlier).getLsbD bit = true → state.Acked earlier bit

/-- While not all flushes up to the number have been acked, some capability has not
been flushed again since, and its flush has not been acked. -/
def FlushState.Waiting (state : FlushState) (number : Nat) : Prop :=
  ¬ state.Safe number → ∃ bit < cephCapBits, ∃ recent, MostRecent state bit recent ∧
    ¬ state.Acked recent bit ∧ sentTid recent ≤ sentTid number

/-- The tid of each capability is that of its last flush, which is acked if it is no
longer flushing. -/
structure FlushTracked (state : FlushState) : Prop where
  lastTid : state.ci.capFlushLastTid = BitVec.ofNat 16 state.last
  tids : ∀ bit < cephCapBits, ∀ number, MostRecent state bit number →
    state.ci.capFlushTid bit = BitVec.ofNat 16 number
  flushing : ∀ bit < cephCapBits, state.ci.flushingCaps.getLsbD bit = true ↔
    ∃ number, MostRecent state bit number ∧ ¬ state.Acked number bit
  acked : ∀ ack ∈ state.acks, ack.1 ≤ state.last

section

variable {state after : FlushState} {bit number : Nat} {flushing : CapMask}

theorem mostRecent_issue : MostRecent (state.issue flushing) bit number ↔
    if flushing.getLsbD bit then number = state.last + 1 else MostRecent state bit number := by
  have other : ∀ {old}, old ≤ state.last → (state.issue flushing).flushes old = state.flushes old := by
    intro old within
    exact Function.update_of_ne (by omega) _ _
  have new : (state.issue flushing).flushes (state.last + 1) = flushing := Function.update_self _ _ _
  have last : (state.issue flushing).last = state.last + 1 := rfl
  split
  · rename_i flushed
    constructor
    · rintro ⟨issued, -, latest⟩
      by_contra different
      have off := latest (state.last + 1) (by omega) (by rw [last])
      rw [new, flushed] at off
      cases off
    · rintro rfl
      refine ⟨⟨by omega, by rw [last]⟩, by rw [new, flushed], ?_⟩
      intro later after within
      omega
  · rename_i unflushed
    constructor
    · rintro ⟨issued, set, latest⟩
      have old : number ≤ state.last := by
        by_contra beyond
        have isNew : number = state.last + 1 := by omega
        rw [isNew, new] at set
        exact unflushed set
      rw [other old] at set
      refine ⟨⟨issued.1, old⟩, set, ?_⟩
      intro later after within
      have off := latest later after (by rw [last]; omega)
      rwa [other within] at off
    · rintro ⟨issued, set, latest⟩
      refine ⟨⟨issued.1, by rw [last]; omega⟩, by rwa [other issued.2], ?_⟩
      intro later after within
      by_cases isNew : later = state.last + 1
      · rw [isNew, new]
        simpa using unflushed
      · rw [other (by omega)]
        exact latest later after (by omega)

theorem FlushTracked.not_acked (tracked : FlushTracked state) (new : state.last < number) : ¬ state.Acked number bit := by
  rintro ⟨bits, listed, -⟩
  have old := tracked.acked _ listed
  omega

variable {flushTid : Nat} {lists' : CapLists}

theorem getLsbD_cleanedBits {ci : CephInode} {dirty : CapMask} (known : bit < cephCapBits) :
    (cleanedBits ci flushTid dirty).getLsbD bit = true ↔
      dirty.getLsbD bit = true ∧ BitVec.ofNat 16 flushTid = ci.capFlushTid bit := by
  have all : ∀ bits : List Nat, (∀ other ∈ bits, other < cephCapBits) → ∀ cleaned : CapMask,
      ((bits.foldl (fun (cleaned : CapMask) bit => if dirty.getLsbD bit ∧ BitVec.ofNat 16 flushTid = ci.capFlushTid bit
        then cleaned ||| ((1 : CapMask) <<< bit) else cleaned) cleaned).getLsbD bit = true ↔
      cleaned.getLsbD bit = true ∨ bit ∈ bits ∧ dirty.getLsbD bit = true ∧ BitVec.ofNat 16 flushTid = ci.capFlushTid bit) := by
    intro bits
    induction bits with
    | nil => simp
    | cons first rest ih =>
      intro within cleaned
      have small : bit < 32 := Nat.lt_trans known (by decide)
      have firstSmall : first < 32 := Nat.lt_trans (within first (by simp)) (by decide)
      rw [foldl_cons, ih (fun other member => within other (by simp [member]))]
      have single : ((1 : CapMask) <<< first).getLsbD bit = decide (bit = first) := by
        by_cases same : bit = first
        · simp [same, firstSmall]
        · simp [same, small]
          lia
      split
      · rename_i matching
        rw [BitVec.getLsbD_or, single, Bool.or_eq_true, decide_eq_true_eq, mem_cons]
        constructor
        · rintro ((old | rfl) | ⟨later, holds⟩)
          · exact .inl old
          · exact .inr ⟨.inl rfl, matching⟩
          · exact .inr ⟨.inr later, holds⟩
        · rintro (old | ⟨rfl | later, holds⟩)
          · exact .inl (.inl old)
          · exact .inl (.inr rfl)
          · exact .inr ⟨later, holds⟩
      · rename_i other
        rw [mem_cons]
        constructor
        · rintro (old | ⟨later, holds⟩)
          · exact .inl old
          · exact .inr ⟨.inr later, holds⟩
        · rintro (old | ⟨rfl | later, holds⟩)
          · exact .inl old
          · exact absurd holds other
          · exact .inr ⟨later, holds⟩
  unfold cleanedBits
  rw [all (List.range cephCapBits) (by simp) 0]
  simp [known]

theorem flushAck_flushing {ci after : CephInode} {lists : CapLists} {dirty : CapMask}
    (ran : handleCapFlushAck flushedInode flushTid dirty ci lists = .ok (after, lists')) :
    after.flushingCaps = ci.flushingCaps &&& ~~~cleanedBits ci flushTid dirty ∧
      after.capFlushLastTid = ci.capFlushLastTid ∧ after.capFlushTid = ci.capFlushTid := by
  obtain ⟨_, _, rfl, -, -⟩ := handleCapFlushAck_changes ran
  exact ⟨rfl, rfl, rfl⟩

theorem FlushTracked.of_same (tracked : FlushTracked state) {ci : CephInode} {lists : CapLists}
    (flushing : ci.flushingCaps = state.ci.flushingCaps) (lastTid : ci.capFlushLastTid = state.ci.capFlushLastTid)
    (tids : ci.capFlushTid = state.ci.capFlushTid) : FlushTracked { state with ci := ci, lists := lists } where
  lastTid := lastTid.trans tracked.lastTid
  tids bit known number recent := by
    rw [tids]
    exact tracked.tids bit known number ⟨recent.issued, recent.carried, recent.latest⟩
  flushing bit known := by
    rw [flushing, tracked.flushing bit known]
    constructor
    · rintro ⟨number, ⟨issued, carried, latest⟩, unacked⟩
      exact ⟨number, ⟨issued, carried, latest⟩, unacked⟩
    · rintro ⟨number, ⟨issued, carried, latest⟩, unacked⟩
      exact ⟨number, ⟨issued, carried, latest⟩, unacked⟩
  acked := tracked.acked

theorem FlushTracked.of_issue (tracked : FlushTracked state) {ci : CephInode} {lists : CapLists}
    (flushes : ∀ bit < cephCapBits, ci.flushingCaps.getLsbD bit = true ↔
      state.ci.flushingCaps.getLsbD bit = true ∨ flushing.getLsbD bit = true)
    (lastTid : ci.capFlushLastTid = state.ci.capFlushLastTid + 1)
    (tids : ∀ bit < cephCapBits, ci.capFlushTid bit =
      if flushing.getLsbD bit then state.ci.capFlushLastTid + 1 else state.ci.capFlushTid bit) :
    FlushTracked ({ state with ci := ci, lists := lists }.issue flushing) := by
  have next : state.ci.capFlushLastTid + 1 = BitVec.ofNat 16 (state.last + 1) := by
    rw [tracked.lastTid, BitVec.ofNat_add]
    rfl
  have recent : ∀ {bit number}, MostRecent ({ state with ci := ci, lists := lists }.issue flushing) bit number ↔
      if flushing.getLsbD bit then number = state.last + 1 else MostRecent state bit number := by
    intro bit number
    rw [mostRecent_issue]
    split
    · rfl
    · exact ⟨fun old => ⟨old.issued, old.carried, old.latest⟩, fun old => ⟨old.issued, old.carried, old.latest⟩⟩
  refine ⟨lastTid.trans next, ?_, ?_, ?_⟩
  · intro bit known number latest
    rw [recent] at latest
    have tid := tids bit known
    split at latest
    · rename_i flushed
      rw [if_pos flushed, next, ← latest] at tid
      exact tid
    · rename_i unflushed
      rw [if_neg unflushed] at tid
      exact tid.trans (tracked.tids bit known number latest)
  · intro bit known
    refine (flushes bit known).trans ?_
    simp only [recent]
    by_cases flushed : flushing.getLsbD bit = true
    · simp only [flushed, or_true, if_true, true_iff]
      exact ⟨_, rfl, tracked.not_acked (Nat.lt_succ_self _)⟩
    · simp only [flushed, or_false, if_false, Bool.false_eq_true]
      exact tracked.flushing bit known
  · intro ack listed
    exact Nat.le_succ_of_le (tracked.acked ack listed)

theorem markDirty_tids {ci after : CephInode} {lists : CapLists} {mask : CapMask}
    (ran : cephMarkDirtyCaps flushedInode mask ci lists = .ok (after, lists')) :
    after.flushingCaps = ci.flushingCaps ∧ after.capFlushLastTid = ci.capFlushLastTid ∧
      after.capFlushTid = ci.capFlushTid := by
  obtain ⟨_, _, _, rfl, -, -⟩ := cephMarkDirtyCaps_changes ran
  exact ⟨rfl, rfl, rfl⟩

theorem assignFlushTid_tids {ci : CephInode} (some : flushing ≠ 0) :
    (assignFlushTid flushing ci).capFlushLastTid = ci.capFlushLastTid + 1 ∧
    (assignFlushTid flushing ci).flushingCaps = ci.flushingCaps ∧
    ∀ bit < cephCapBits, (assignFlushTid flushing ci).capFlushTid bit =
      if flushing.getLsbD bit then ci.capFlushLastTid + 1 else ci.capFlushTid bit := by
  unfold assignFlushTid
  rw [if_neg some]
  refine ⟨rfl, rfl, ?_⟩
  intro bit known
  simp only [known, true_and]

theorem send_flushing : (state.send flushing).ci.flushingCaps = state.ci.flushingCaps := by
  unfold FlushState.send
  split
  · rfl
  · rename_i some
    exact (assignFlushTid_tids some).2.1

theorem flush_tracked (tracked : FlushTracked state) {session : Session}
    (ran : FlushCall.run (.flush session) state = .ok after) : FlushTracked after := by
  obtain ⟨⟨flushing, ci, lists⟩, marked, sent⟩ := ok_of_bind ran
  obtain ⟨_, dirty, listed⟩ := ok_of_bind marked
  obtain ⟨-, -, done⟩ := ok_of_bind listed
  cases done
  cases sent
  have some : state.ci.dirtyCaps ≠ 0 := not_of_haltIf dirty
  unfold FlushState.send
  rw [if_neg some]
  obtain ⟨lastTid, flushing, tids⟩ := @assignFlushTid_tids state.ci.dirtyCaps { state.ci with
    flushingCaps := state.ci.flushingCaps ||| state.ci.dirtyCaps
    dirtyCaps := 0
    capFlushSeq := state.lists.capFlushSeq + 1 } some
  refine tracked.of_issue ?_ lastTid tids
  intro bit _
  rw [flushing, BitVec.getLsbD_or, Bool.or_eq_true]

theorem resend_tracked (tracked : FlushTracked state) : FlushTracked (state.send state.ci.flushingCaps) := by
  unfold FlushState.send
  split
  · exact tracked
  · rename_i some
    obtain ⟨lastTid, flushing, tids⟩ := @assignFlushTid_tids _ state.ci some
    refine @FlushTracked.of_issue _ _ tracked _ state.lists ?_ lastTid tids
    intro bit _
    rw [flushing, or_self]

theorem flushSnap_tracked (tracked : FlushTracked state) {addr : Nat}
    (ran : FlushCall.run (.flushCapSnap addr) state = .ok after) : FlushTracked after := by
  obtain ⟨ci, flushed, done⟩ := ok_of_bind ran
  cases done
  obtain ⟨-, -, sent⟩ := ok_of_bind flushed
  cases sent
  refine @FlushTracked.of_issue _ _ tracked _ state.lists ?_ rfl ?_
  · simp
  · simp

/-- An ack in time cleans the capabilities whose last flush it is for. -/
theorem ack_tracked (tracked : FlushTracked state) {bits : CapMask} (proper : (FlushCall.ack number bits).Proper state)
    (timely : (FlushCall.ack number bits).Timely state)
    (ran : FlushCall.run (.ack number bits) state = .ok after) :
    FlushTracked after ∧ ∀ bit < cephCapBits, state.ci.flushingCaps.getLsbD bit = true →
      after.ci.flushingCaps.getLsbD bit = false → MostRecent state bit number ∧ bits.getLsbD bit = true := by
  obtain ⟨⟨ci, lists⟩, acked, done⟩ := ok_of_bind ran
  cases done
  obtain ⟨flushing, lastTid, tids⟩ := flushAck_flushing acked
  -- The tid is that of the last flush only for the flush that is acked.
  have cleans : ∀ bit < cephCapBits, ∀ recent, MostRecent state bit recent → ¬ state.Acked recent bit →
      ((cleanedBits state.ci (sentTid number) bits).getLsbD bit = true ↔
        bits.getLsbD bit = true ∧ recent = number) := by
    intro bit known recent latest unacked
    rw [getLsbD_cleanedBits known, tracked.tids bit known recent latest]
    refine and_congr_right fun carried => ?_
    constructor
    · intro same
      refine timely bit known carried recent latest unacked ?_
      have equal := congrArg BitVec.toNat same
      simp only [BitVec.toNat_ofNat, sentTid] at equal ⊢
      lia
    · rintro rfl
      apply BitVec.eq_of_toNat_eq
      simp only [BitVec.toNat_ofNat, sentTid, Nat.mod_mod]
  have left : ∀ bit < cephCapBits, ci.flushingCaps.getLsbD bit = true ↔
      state.ci.flushingCaps.getLsbD bit = true ∧ (cleanedBits state.ci (sentTid number) bits).getLsbD bit = false := by
    intro bit known
    have small : bit < 32 := Nat.lt_trans known (by decide)
    rw [flushing, BitVec.getLsbD_and, BitVec.getLsbD_not]
    simp [small]
  refine ⟨⟨lastTid.trans tracked.lastTid, ?_, ?_, ?_⟩, ?_⟩
  · intro bit known recent latest
    rw [tids]
    exact tracked.tids bit known recent ⟨latest.issued, latest.carried, latest.latest⟩
  · intro bit known
    rw [left bit known, tracked.flushing bit known]
    constructor
    · rintro ⟨⟨recent, latest, unacked⟩, dirty⟩
      refine ⟨recent, ⟨latest.issued, latest.carried, latest.latest⟩, ?_⟩
      rintro ⟨bits', listed, carried⟩
      rcases List.mem_cons.mp listed with new | old
      · obtain ⟨same, rfl⟩ := Prod.mk.inj new
        have clean := (cleans bit known recent latest unacked).mpr ⟨carried, same⟩
        rw [dirty] at clean
        cases clean
      · exact unacked ⟨bits', old, carried⟩
    · rintro ⟨recent, ⟨issued, carried, latest⟩, unacked⟩
      have before : MostRecent state bit recent := ⟨issued, carried, latest⟩
      have unackedBefore : ¬ state.Acked recent bit := by
        rintro ⟨bits', listed, also⟩
        exact unacked ⟨bits', mem_cons_of_mem _ listed, also⟩
      refine ⟨⟨recent, before, unackedBefore⟩, ?_⟩
      rw [Bool.eq_false_iff]
      intro clean
      obtain ⟨also, same⟩ := (cleans bit known recent before unackedBefore).mp clean
      exact unacked ⟨bits, by simp [same], also⟩
  · intro ack listed
    rcases List.mem_cons.mp listed with rfl | old
    · exact proper.2.1
    · exact tracked.acked ack old
  · intro bit known was gone
    obtain ⟨recent, latest, unacked⟩ := (tracked.flushing bit known).mp was
    have clean : (cleanedBits state.ci (sentTid number) bits).getLsbD bit = true := by
      by_contra dirty
      have stays := (left bit known).mpr ⟨was, by simpa using dirty⟩
      rw [gone] at stays
      cases stays
    obtain ⟨carried, same⟩ := (cleans bit known recent latest unacked).mp clean
    exact ⟨same ▸ latest, carried⟩

theorem init_flushTracked {snapc : SnapContext} : FlushTracked (.init snapc) where
  lastTid := rfl
  tids _ _ number recent := by
    have issued := recent.issued
    simp only [FlushState.init] at issued
    omega
  flushing bit _ := by
    have none : (FlushState.init snapc).ci.flushingCaps.getLsbD bit = false := BitVec.getLsbD_zero
    rw [none]
    refine iff_of_false (by simp) ?_
    rintro ⟨number, recent, -⟩
    have issued := recent.issued
    simp only [FlushState.init] at issued
    omega
  acked := by simp [FlushState.init]

theorem flushTracked_preserved :
    Preserves FlushCall.run (fun call state => call.Proper state ∧ call.Timely state) FlushTracked := by
  rintro call state after ⟨proper, timely⟩ tracked ran
  cases call with
  | markDirty mask =>
    obtain ⟨⟨ci, lists⟩, marked, done⟩ := ok_of_bind ran
    cases done
    obtain ⟨flushing, lastTid, tids⟩ := markDirty_tids marked
    exact tracked.of_same flushing lastTid tids
  | flush session => exact flush_tracked tracked ran
  | resend =>
    cases ran
    exact resend_tracked tracked
  | flushCapSnap addr => exact flushSnap_tracked tracked ran
  | ack number bits => exact (ack_tracked tracked proper timely ran).1

theorem capsAreFlushed_iff (tracked : FlushTracked state) :
    capsAreFlushed state.ci (sentTid number) = true ↔ ∀ bit < cephCapBits, ∀ recent, MostRecent state bit recent →
      ¬ state.Acked recent bit → sentTid number < sentTid recent := by
  unfold capsAreFlushed
  rw [all_eq_true]
  constructor
  · intro none bit known recent latest unacked
    have still := none bit (List.mem_range.mpr known)
    have flushing := (tracked.flushing bit known).mpr ⟨recent, latest, unacked⟩
    rw [flushing, tracked.tids bit known recent latest, BitVec.toNat_ofNat] at still
    simp only [Bool.true_and, Bool.not_eq_true', decide_eq_false_iff_not, Nat.not_le] at still
    exact still
  · intro none bit member
    have known := List.mem_range.mp member
    by_cases flushing : state.ci.flushingCaps.getLsbD bit = true
    · obtain ⟨recent, latest, unacked⟩ := (tracked.flushing bit known).mp flushing
      have later := none bit known recent latest unacked
      rw [flushing, tracked.tids bit known recent latest, BitVec.toNat_ofNat]
      simp only [Bool.true_and, Bool.not_eq_true', decide_eq_false_iff_not, Nat.not_le]
      exact later
    · simp [flushing]

/-- If no ack is so late that its tid has come round, a capability stops flushing only by
the ack of its last flush; and `caps_are_flushed` tells that all flushes up to a number are
acked just if, as long as they are not, some of their capabilities wait for their last flush. -/
theorem flushes_tracked {snapc : SnapContext} (reached : Reached FlushCall.run
      (fun call state => call.Proper state ∧ call.Timely state) (.init snapc) state) :
    (∀ call after, call.Proper state → call.Timely state → FlushCall.run call state = .ok after →
      ∀ bit < cephCapBits, state.ci.flushingCaps.getLsbD bit = true → after.ci.flushingCaps.getLsbD bit = false →
        ∃ number bits, call = .ack number bits ∧ bits.getLsbD bit = true ∧ MostRecent state bit number) ∧
    ∀ number, (capsAreFlushed state.ci (sentTid number) = true → state.Safe number) ↔ state.Waiting number := by
  have tracked := reached.preserved flushTracked_preserved init_flushTracked
  refine ⟨?_, ?_⟩
  · intro call after proper timely ran bit known was gone
    cases call with
    | markDirty mask =>
      obtain ⟨⟨ci, lists⟩, marked, done⟩ := ok_of_bind ran
      cases done
      rw [(markDirty_tids marked).1, was] at gone
      cases gone
    | flush session =>
      obtain ⟨⟨flushing, ci, lists⟩, marked, sent⟩ := ok_of_bind ran
      obtain ⟨-, -, listed⟩ := ok_of_bind marked
      obtain ⟨-, -, done⟩ := ok_of_bind listed
      cases done
      cases sent
      rw [send_flushing, BitVec.getLsbD_or, was] at gone
      cases gone
    | resend =>
      cases ran
      rw [send_flushing, was] at gone
      cases gone
    | flushCapSnap addr =>
      obtain ⟨ci, flushed, done⟩ := ok_of_bind ran
      cases done
      unfold flushCapSnap at flushed
      obtain ⟨-, -, sent⟩ := ok_of_bind flushed
      cases sent
      have same : state.ci.flushingCaps.getLsbD bit = false := gone
      rw [was] at same
      cases same
    | ack number bits =>
      obtain ⟨recent, cleaned⟩ := (ack_tracked tracked proper timely ran).2 bit known was gone
      exact ⟨number, bits, rfl, cleaned, recent⟩
  · intro number
    rw [capsAreFlushed_iff tracked]
    unfold FlushState.Waiting
    constructor
    · intro safe unsafeNow
      by_contra none
      refine unsafeNow (safe ?_)
      intro bit known recent latest unacked
      by_contra early
      exact none ⟨bit, known, recent, latest, unacked, Nat.le_of_not_lt early⟩
    · intro waiting flushed
      by_contra unsafeNow
      obtain ⟨bit, known, recent, latest, unacked, early⟩ := waiting unsafeNow
      exact Nat.not_lt.mpr early (flushed bit known recent latest unacked)

end

/-- Two capabilities flushed one after the other; the first flush is acked. -/
theorem flushes_tracked_pipelined : ∃ state : FlushState, state.last = 2 ∧ state.ci.flushingCaps = cephCapXattrExcl ∧
    ∀ number, (capsAreFlushed state.ci (sentTid number) = true → state.Safe number) ↔ state.Waiting number := by
  have marked : Reached FlushCall.run (fun call state => call.Proper state ∧ call.Timely state)
      (.init { addr := 4096, seq := 1 }) _ :=
    Reached.start.next (.markDirty cephCapAuthExcl) ⟨trivial, trivial⟩ rfl
  have flushed := marked.next (.flush 0) ⟨trivial, trivial⟩ rfl
  have markedAgain := flushed.next (.markDirty cephCapXattrExcl) ⟨trivial, trivial⟩ rfl
  have flushedAgain := markedAgain.next (.flush 0) ⟨trivial, trivial⟩ rfl
  have acked := flushedAgain.next (.ack 1 cephCapAuthExcl) ⟨by decide +kernel, by
    intro bit _ _ recent latest _ same
    have last : recent ≤ 2 := latest.issued.2
    have tids : recent % 2 ^ 16 = 1 % 2 ^ 16 := same
    lia⟩ rfl
  exact ⟨_, rfl, by decide +kernel, (flushes_tracked acked).2⟩

/-- One capability flushed twice: the first flush counts as done before any ack. -/
theorem flushes_untracked : ∃ state : FlushState,
    Reached FlushCall.run FlushCall.Proper (.init { addr := 4096, seq := 1 }) state ∧
      capsAreFlushed state.ci (sentTid 1) = true ∧ ¬ state.Safe 1 := by
  have marked : Reached FlushCall.run FlushCall.Proper (.init { addr := 4096, seq := 1 }) _ :=
    Reached.start.next (.markDirty cephCapAuthExcl) trivial rfl
  have flushed := marked.next (.flush 0) trivial rfl
  have markedAgain := flushed.next (.markDirty cephCapAuthExcl) trivial rfl
  have flushedAgain := markedAgain.next (.flush 0) trivial rfl
  refine ⟨_, flushedAgain, by decide +kernel, ?_⟩
  intro safe
  obtain ⟨bits, listed, -⟩ := safe 1 (by decide) (by decide) 3 (by decide) (by decide +kernel)
  cases listed

end KmodCeph.Caps
