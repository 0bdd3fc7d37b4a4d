import KmodCeph.Caps.Inode

namespace KmodCeph.Caps

open Lib List

/-- All inodes, and the lists of those that are dirty or flushing. -/
structure CapWorld where
  inodes : InodeId → CephInode
  lists : CapLists

def CephInode.clean (context : SnapContext) : CephInode where
  dirtyCaps := 0
  flushingCaps := 0
  capFlushSeq := 0
  capFlushLastTid := 0
  capFlushTid := fun _ => 0
  capSnaps := []
  headSnapc := none
  pinRef := 0
  rdRef := 0
  rdcacheRef := 0
  wrRef := 0
  wbRef := 0
  wrbufferRef := 0
  wrbufferRefHead := 0
  nrpages := 0
  cachedContext := context
  file := { size := 0, mtime := 0, atime := 0, ctime := 0, timeWarpSeq := 0 }
  refs := 0
  dirtying := []
  pages := []

def CapWorld.init (contexts : InodeId → SnapContext) : CapWorld where
  inodes self := .clean (contexts self)
  lists := { capDirty := [], capFlushing := [], numCapFlushing := 0, capFlushSeq := 0 }

inductive DirtyCall where
  | markDirty (mask : CapMask)
  | markFlushing (session : Session)
  | flushAck (flushTid : Nat) (dirty : CapMask)
  | readContext (page : PageId)
  | dirtyPage (page : PageId) (snapc : SnapContext)
  | putPages (pages : List DirtyPage) (snapc : SnapContext)
deriving DecidableEq

def releasePages (pages : List DirtyPage) (snapc : SnapContext) (ci : CephInode) : Except InodeBug CephInode := do
  let ci ← cephPutWrbufferCapRefs pages.length snapc ci
  return { ci with pages := ci.pages.diff pages }

def DirtyCall.apply (self : InodeId) (ci : CephInode) (lists : CapLists) :
    DirtyCall → Except InodeBug (CephInode × CapLists)
  | .markDirty mask => cephMarkDirtyCaps self mask ci lists
  | .markFlushing session => (markCapsFlushing self session ci lists).map (·.2)
  | .flushAck flushTid dirty => handleCapFlushAck self flushTid dirty ci lists
  | .readContext page => return (readPageContext page ci, lists)
  | .dirtyPage page snapc => return (dirtyHead page snapc ci, lists)
  | .putPages pages snapc => (releasePages pages snapc ci).map (·, lists)

def CapWorld.run (call : InodeId × DirtyCall) (world : CapWorld) : Except InodeBug CapWorld := do
  let (ci, lists) ← call.2.apply call.1 (world.inodes call.1) world.lists
  return { inodes := Function.update world.inodes call.1 ci, lists := lists }

/-- How the functions are called: masks are not empty, only dirty capabilities are
flushed, a page is dirtied once, and what is released are dirty pages with their context. -/
def DirtyCall.Proper (ci : CephInode) : DirtyCall → Prop
  | .markDirty mask => mask ≠ 0
  | .markFlushing _ => ci.dirtyCaps ≠ 0
  | .flushAck _ _ => True
  | .readContext page => (∀ dirty ∈ ci.pages, dirty.page ≠ page) ∧ ∀ item ∈ ci.dirtying, item.1 ≠ page
  | .dirtyPage page snapc => (page, snapc) ∈ ci.dirtying
  | .putPages pages snapc => pages ≠ [] ∧ pages.Subperm ci.pages ∧ ∀ dirty ∈ pages, dirty.snapc = snapc

instance DirtyCall.decidableProper : (call : DirtyCall) → (ci : CephInode) → Decidable (call.Proper ci)
  | .markDirty mask, _ => inferInstanceAs (Decidable (mask ≠ 0))
  | .markFlushing _, ci => inferInstanceAs (Decidable (ci.dirtyCaps ≠ 0))
  | .flushAck _ _, _ => .isTrue trivial
  | .readContext _, _ => inferInstanceAs (Decidable (_ ∧ _))
  | .dirtyPage page snapc, ci => inferInstanceAs (Decidable ((page, snapc) ∈ ci.dirtying))
  | .putPages _ _, _ => inferInstanceAs (Decidable (_ ∧ _))

def CapWorld.Proper (call : InodeId × DirtyCall) (world : CapWorld) : Prop :=
  call.2.Proper (world.inodes call.1)

structure Listed (lists : CapLists) (inode : InodeId) (ci : CephInode) : Prop where
  dirty : inode ∈ lists.capDirty ↔ ci.dirtyCaps ≠ 0
  flushing : lists.Flushing inode ↔ ci.flushingCaps ≠ 0

structure CapLists.Counted (lists : CapLists) : Prop where
  dirty : lists.capDirty.Nodup
  flushing : (lists.capFlushing.map (·.2)).Nodup
  count : lists.numCapFlushing = lists.capFlushing.length

def metadataRef (ci : CephInode) : Int := if cephCapsDirty ci ≠ 0 then 1 else 0

def wrbufferRefs (ci : CephInode) : Int := if 0 < ci.wrbufferRef then 1 else 0

/-- The references that an inode holds, and the head context it needs. -/
structure Held (ci : CephInode) : Prop where
  refs : ci.refs = metadataRef ci + wrbufferRefs ci
  head : 0 < ci.wrbufferRefHead ∨ cephCapsDirty ci ≠ 0 → ci.headSnapc ≠ none
  context : ∀ snapc, ci.headSnapc = some snapc → snapc = ci.cachedContext
  counted : ci.wrbufferRefHead = ci.pages.length ∧ ci.wrbufferRef = ci.pages.length
  pages : ∀ dirty ∈ ci.pages, dirty.snapc = ci.cachedContext
  dirtying : ∀ item ∈ ci.dirtying, item.2 = ci.cachedContext

structure SameOthers (inode : InodeId) (before after : CapLists) : Prop where
  dirty : ∀ other ≠ inode, other ∈ after.capDirty ↔ other ∈ before.capDirty
  flushing : ∀ other ≠ inode, after.Flushing other ↔ before.Flushing other

structure Tracked (inode : InodeId) (ci : CephInode) (lists : CapLists) : Prop where
  listed : Listed lists inode ci
  counted : lists.Counted
  held : Held ci

section

variable {self : InodeId} {ci : CephInode} {lists : CapLists}

theorem cephCapsDirty_eq_zero : cephCapsDirty ci = 0 ↔ ci.dirtyCaps = 0 ∧ ci.flushingCaps = 0 :=
  BitVec.or_eq_zero_iff

theorem SameOthers.refl (self : InodeId) (lists : CapLists) : SameOthers self lists lists :=
  ⟨fun _ _ => .rfl, fun _ _ => .rfl⟩

theorem metadataRef_of_dirty (dirty : ci.dirtyCaps ≠ 0) : metadataRef ci = 1 :=
  if_pos fun clean => dirty (cephCapsDirty_eq_zero.mp clean).1

theorem metadataRef_of_flushing (flushing : ci.flushingCaps ≠ 0) : metadataRef ci = 1 :=
  if_pos fun clean => flushing (cephCapsDirty_eq_zero.mp clean).2

theorem metadataRef_of_clean (dirty : ci.dirtyCaps = 0) (flushing : ci.flushingCaps = 0) : metadataRef ci = 0 :=
  if_neg (not_not.mpr (cephCapsDirty_eq_zero.mpr ⟨dirty, flushing⟩))

theorem mem_unlinkFlushing {item : Session × InodeId} :
    item ∈ lists.unlinkFlushing self ↔ item ∈ lists.capFlushing ∧ item.2 ≠ self := by
  simp [CapLists.unlinkFlushing]

theorem flushing_iff_mem_map : lists.Flushing self ↔ self ∈ lists.capFlushing.map (·.2) := by
  simp [CapLists.Flushing]

theorem map_unlinkFlushing (counted : lists.Counted) (self : InodeId) :
    (lists.unlinkFlushing self).map (·.2) = (lists.capFlushing.map (·.2)).erase self := by
  rw [counted.flushing.erase_eq_filter, filter_map]
  congr 1
  apply filter_congr
  intro item _
  rw [Bool.eq_iff_iff]
  simp

theorem nodup_unlinkFlushing (counted : lists.Counted) : ((lists.unlinkFlushing self).map (·.2)).Nodup := by
  rw [map_unlinkFlushing counted]
  exact counted.flushing.erase self

theorem length_unlinkFlushing (counted : lists.Counted) (listed : self ∈ lists.capFlushing.map (·.2)) :
    ((lists.unlinkFlushing self).length : Int) = lists.numCapFlushing - 1 := by
  have length := congrArg List.length (map_unlinkFlushing counted self)
  rw [length_erase_of_mem listed, length_map, length_map] at length
  have some := length_pos_of_mem listed
  rw [length_map] at some
  have count := counted.count
  lia

theorem unlinkFlushing_of_not_mem (unlisted : self ∉ lists.capFlushing.map (·.2)) :
    lists.unlinkFlushing self = lists.capFlushing := by
  apply List.filter_eq_self.mpr
  intro item member
  simp only [decide_eq_true_eq]
  rintro rfl
  exact unlisted (mem_map_of_mem member)

theorem mem_map_unlinkFlushing {other : InodeId} :
    other ∈ (lists.unlinkFlushing self).map (·.2) ↔ other ∈ lists.capFlushing.map (·.2) ∧ other ≠ self := by
  simp only [mem_map, mem_unlinkFlushing]
  constructor
  · rintro ⟨item, ⟨member, different⟩, rfl⟩
    exact ⟨⟨item, member, rfl⟩, different⟩
  · rintro ⟨⟨item, member, rfl⟩, different⟩
    exact ⟨item, ⟨member, different⟩, rfl⟩

theorem markDirty_tracked (tracked : Tracked self ci lists) {mask : CapMask} (nonzero : mask ≠ 0) :
    Returns (cephMarkDirtyCaps self mask ci lists) fun after =>
      Tracked self after.1 after.2 ∧ SameOthers self lists after.2 := by
  have now : ci.dirtyCaps ||| mask ≠ 0 := fun zero => nonzero (BitVec.or_eq_zero_iff.mp zero).2
  obtain ⟨⟨dirtyListed, flushingListed⟩, counted, held⟩ := tracked
  unfold cephMarkDirtyCaps
  by_cases clean : ci.dirtyCaps = 0
  · have unlisted : self ∉ lists.capDirty := fun listed => dirtyListed.mp listed clean
    simp only [clean, if_true]
    refine .haltIf unlisted (.pure ⟨⟨⟨?_, flushingListed⟩, ?_, ?_⟩, ?_, fun _ _ => .rfl⟩)
    · simpa [clean] using now
    · exact ⟨List.nodup_cons.mpr ⟨unlisted, counted.dirty⟩, counted.flushing, counted.count⟩
    · refine ⟨?_, fun _ => by simp, ?_, held.counted, held.pages, held.dirtying⟩
      · have refs := held.refs
        rw [metadataRef_of_dirty (by simpa [clean] using now)]
        by_cases flushing : ci.flushingCaps = 0
        · rw [metadataRef_of_clean clean flushing] at refs
          simp only [flushing, if_true, wrbufferRefs] at refs ⊢
          omega
        · rw [metadataRef_of_flushing flushing] at refs
          simp only [flushing, if_false, wrbufferRefs] at refs ⊢
          omega
      · intro snapc head
        cases set : ci.headSnapc with
        | none => simpa [set] using head.symm
        | some context =>
          simp only [set, Option.getD_some, Option.some.injEq] at head
          exact head ▸ held.context context set
    · intro other different
      simp [different]
  · have listed : self ∈ lists.capDirty := dirtyListed.mpr clean
    simp only [clean, if_false]
    refine .haltIf (not_not.mpr listed) (.pure ⟨⟨⟨?_, flushingListed⟩, counted, ?_⟩, .refl self lists⟩)
    · exact iff_of_true listed now
    · refine ⟨?_, ?_, held.context, held.counted, held.pages, held.dirtying⟩
      · have refs := held.refs
        rw [metadataRef_of_dirty clean] at refs
        rw [metadataRef_of_dirty now]
        exact refs
      · intro _
        exact held.head (.inr fun zero => clean (cephCapsDirty_eq_zero.mp zero).1)

theorem markFlushing_tracked (tracked : Tracked self ci lists) (dirty : ci.dirtyCaps ≠ 0) (session : Session) :
    Returns (markCapsFlushing self session ci lists) fun after =>
      Tracked self after.2.1 after.2.2 ∧ SameOthers self lists after.2.2 := by
  obtain ⟨⟨dirtyListed, flushingListed⟩, counted, held⟩ := tracked
  have listed := dirtyListed.mpr dirty
  have now : ci.flushingCaps ||| ci.dirtyCaps ≠ 0 := fun zero => dirty (BitVec.or_eq_zero_iff.mp zero).2
  refine .haltIf dirty (.haltIf (not_not.mpr listed) (.pure ⟨⟨⟨?_, ?_⟩, ⟨?_, ?_, ?_⟩, ?_⟩, ?_, ?_⟩))
  · exact iff_of_false counted.dirty.not_mem_erase fun nonzero => nonzero rfl
  · refine iff_of_true ⟨session, ?_⟩ now
    simp
  · exact counted.dirty.erase self
  · rw [map_append, nodup_append]
    refine ⟨nodup_unlinkFlushing counted, by simp, ?_⟩
    intro other member self' same
    rw [map_singleton, mem_singleton] at same
    rw [same]
    exact (mem_map_unlinkFlushing.mp member).2
  · simp only [length_append, length_singleton]
    split
    · have length := length_unlinkFlushing counted ‹_›
      omega
    · rw [unlinkFlushing_of_not_mem ‹_›, counted.count]
      omega
  · refine ⟨?_, ?_, held.context, held.counted, held.pages, held.dirtying⟩
    · have refs := held.refs
      rw [metadataRef_of_dirty dirty] at refs
      rw [metadataRef_of_flushing now]
      exact refs
    · exact fun _ => held.head (.inr fun zero => dirty (cephCapsDirty_eq_zero.mp zero).1)
  · intro other different
    exact mem_erase_of_ne different
  · intro other different
    simp only [flushing_iff_mem_map, map_append, mem_append, mem_map_unlinkFlushing]
    simp [different]

theorem flushAck_tracked (tracked : Tracked self ci lists) (flushTid : Nat) (dirty : CapMask) :
    Returns (handleCapFlushAck self flushTid dirty ci lists) fun after =>
      Tracked self after.1 after.2 ∧ SameOthers self lists after.2 := by
  obtain ⟨⟨dirtyListed, flushingListed⟩, counted, held⟩ := tracked
  have whole : Tracked self ci lists := ⟨⟨dirtyListed, flushingListed⟩, counted, held⟩
  unfold handleCapFlushAck
  generalize cleanedBits ci flushTid dirty = cleaned
  by_cases same : ci.flushingCaps = ci.flushingCaps &&& ~~~cleaned
  · simp only [if_pos same]
    exact .pure ⟨whole, .refl self lists⟩
  · have flushing : ci.flushingCaps ≠ 0 := by
      intro zero
      rw [zero] at same
      exact same (by simp)
    have refs := held.refs
    rw [metadataRef_of_flushing flushing] at refs
    have headSet := held.head (.inr fun zero => flushing (cephCapsDirty_eq_zero.mp zero).2)
    simp only [if_neg same]
    by_cases left : ci.flushingCaps &&& ~~~cleaned = 0
    · simp only [left, ne_eq, not_true_eq_false, if_false]
      have flushListed := flushing_iff_mem_map.mp (flushingListed.mpr flushing)
      have countedAfter : CapLists.Counted { lists with
          capFlushing := lists.unlinkFlushing self, numCapFlushing := lists.numCapFlushing - 1 } :=
        ⟨counted.dirty, nodup_unlinkFlushing counted, (length_unlinkFlushing counted flushListed).symm⟩
      have others : SameOthers self lists { lists with
          capFlushing := lists.unlinkFlushing self, numCapFlushing := lists.numCapFlushing - 1 } := by
        refine ⟨fun _ _ => .rfl, fun other different => ?_⟩
        simp [flushing_iff_mem_map, mem_map_unlinkFlushing, different]
      have unlisted : ¬ CapLists.Flushing { lists with
          capFlushing := lists.unlinkFlushing self, numCapFlushing := lists.numCapFlushing - 1 } self := by
        simp [flushing_iff_mem_map, mem_map_unlinkFlushing]
      by_cases clean : ci.dirtyCaps = 0
      · simp only [clean, if_true]
        refine .haltIf (fun listed => dirtyListed.mp listed clean) ?_
        by_cases unused : ci.wrbufferRefHead = 0
        · simp only [unused, if_true]
          refine .haltIf headSet (.pure ⟨⟨⟨?_, ?_⟩, countedAfter, ?_⟩, others⟩)
          · simpa [clean] using dirtyListed
          · exact iff_of_false unlisted (by simp)
          · refine ⟨?_, ?_, by simp, unused ▸ held.counted, held.pages, held.dirtying⟩
            · rw [metadataRef_of_clean (by simp) (by simp), refs]
              simp only [wrbufferRefs]
              omega
            · rintro (some | dirty)
              · simp at some
              · exact absurd (cephCapsDirty_eq_zero.mpr ⟨by simp, by simp⟩) dirty
        · simp only [unused, if_false]
          refine .pure ⟨⟨⟨?_, ?_⟩, countedAfter, ?_⟩, others⟩
          · simpa [clean] using dirtyListed
          · exact iff_of_false unlisted (by simp)
          · refine ⟨?_, fun _ => headSet, held.context, held.counted, held.pages, held.dirtying⟩
            rw [metadataRef_of_clean (by simp) (by simp), refs]
            simp only [wrbufferRefs]
            omega
      · simp only [clean, if_false]
        refine .haltIf (not_not.mpr (dirtyListed.mpr clean)) (.pure ⟨⟨⟨?_, ?_⟩, countedAfter, ?_⟩, others⟩)
        · exact dirtyListed
        · exact iff_of_false unlisted (by simp)
        · refine ⟨?_, fun _ => headSet, held.context, held.counted, held.pages, held.dirtying⟩
          rw [metadataRef_of_dirty (by simpa using clean), refs]
          rfl
    · simp only [left, ne_eq, not_false_eq_true, if_true]
      refine .pure ⟨⟨⟨dirtyListed, ?_⟩, counted, ?_⟩, .refl self lists⟩
      · exact iff_of_true (flushingListed.mpr flushing) left
      · refine ⟨?_, fun _ => headSet, held.context, held.counted, held.pages, held.dirtying⟩
        rw [metadataRef_of_flushing (by simpa using left), refs]
        rfl

theorem readContext_held (held : Held ci) (page : PageId) : Held (readPageContext page ci) where
  refs := held.refs
  head := held.head
  context := held.context
  counted := held.counted
  pages := held.pages
  dirtying := by
    intro item member
    rcases List.mem_cons.mp member with rfl | old
    · rfl
    · exact held.dirtying item old

theorem wrbufferRefs_of_pos (positive : 0 < ci.wrbufferRef) : wrbufferRefs ci = 1 := if_pos positive

theorem wrbufferRefs_of_zero (zero : ci.wrbufferRef = 0) : wrbufferRefs ci = 0 := if_neg (by omega)

theorem dirtyHead_held (held : Held ci) {page : PageId} {snapc : SnapContext} (reading : (page, snapc) ∈ ci.dirtying) :
    Held (dirtyHead page snapc ci) := by
  have same : snapc = ci.cachedContext := held.dirtying _ reading
  have refs := held.refs
  have counted := held.counted
  have unchanged : metadataRef (dirtyHead page snapc ci) = metadataRef ci := rfl
  refine ⟨?_, fun _ => by simp [dirtyHead], ?_, ?_, ?_, ?_⟩
  · rw [unchanged, wrbufferRefs_of_pos (by simp only [dirtyHead]; omega)]
    by_cases unused : ci.wrbufferRef = 0
    · rw [wrbufferRefs_of_zero unused] at refs
      simp only [dirtyHead, if_pos unused]
      omega
    · rw [wrbufferRefs_of_pos (by lia)] at refs
      simp only [dirtyHead, if_neg unused]
      omega
  · intro context head
    cases set : ci.headSnapc with
    | none =>
      simp only [dirtyHead, set, Option.getD_none, Option.some.injEq] at head
      exact head ▸ same
    | some old =>
      simp only [dirtyHead, set, Option.getD_some, Option.some.injEq] at head
      exact head ▸ held.context old set
  · simp only [dirtyHead, length_cons]
    lia
  · intro dirty member
    rcases List.mem_cons.mp member with rfl | old
    · exact same
    · exact held.pages dirty old
  · exact fun item member => held.dirtying item (mem_of_mem_erase member)

theorem length_diff_pages {pages all : List DirtyPage} (within : pages.Subperm all) :
    pages.length + (all.diff pages).length = all.length := by
  rw [← length_append]
  exact (subperm_append_diff_self_of_count_le (List.subperm_ext_iff.mp within)).length_eq

theorem releasePages_held (held : Held ci) {pages : List DirtyPage} {snapc : SnapContext} (some : pages ≠ [])
    (within : pages.Subperm ci.pages) (context : ∀ dirty ∈ pages, dirty.snapc = snapc) :
    Returns (releasePages pages snapc ci) fun after =>
      Held after ∧ after.dirtyCaps = ci.dirtyCaps ∧ after.flushingCaps = ci.flushingCaps := by
  have refs := held.refs
  have length := length_diff_pages within
  obtain ⟨headCount, count⟩ := held.counted
  have positive : 0 < pages.length := List.length_pos_iff.mpr some
  obtain ⟨first, member⟩ := exists_mem_of_ne_nil pages some
  have current : snapc = ci.cachedContext := by
    rw [← context first member]
    exact held.pages first (within.subset member)
  have head : ci.headSnapc = Option.some snapc := by
    cases set : ci.headSnapc with
    | none => exact absurd set (held.head (.inl (by lia)))
    | some old => rw [held.context old set, current]
  rw [wrbufferRefs_of_pos (by lia)] at refs
  unfold releasePages
  rw [putWrbuffer_head head]
  refine .pure ⟨⟨?_, ?_, ?_, ?_, ?_, held.dirtying⟩, rfl, rfl⟩
  · by_cases last : ci.wrbufferRef - pages.length = 0
    · rw [wrbufferRefs_of_zero last]
      simp only [if_pos last]
      rw [refs, Int.add_sub_cancel, Int.add_zero]
      rfl
    · rw [wrbufferRefs_of_pos (by simp only; lia)]
      simp only [if_neg last]
      exact refs
  · intro needed
    unfold CephInode.headAfter
    rw [if_neg]
    · simp [head]
    · rintro ⟨zero, dirty, flushing⟩
      rcases needed with used | unclean
      · simp only [zero] at used
        exact lt_irrefl _ used
      · exact unclean (cephCapsDirty_eq_zero.mpr ⟨dirty, flushing⟩)
  · intro context after
    unfold CephInode.headAfter at after
    split at after
    · cases after
    · exact held.context context after
  · simp only
    lia
  · exact fun dirty member => held.pages dirty (diff_subset ci.pages pages member)

/-- Every proper call keeps what is tracked of its inode, and the rest. -/
theorem apply_tracked (tracked : Tracked self ci lists) {call : DirtyCall} (proper : call.Proper ci) :
    Returns (call.apply self ci lists) fun after => Tracked self after.1 after.2 ∧ SameOthers self lists after.2 := by
  cases call with
  | markDirty mask => exact markDirty_tracked tracked proper
  | markFlushing session =>
    obtain ⟨after, ran, holds⟩ := markFlushing_tracked tracked proper session
    exact ⟨after.2, by rw [DirtyCall.apply, ran]; rfl, holds⟩
  | flushAck flushTid dirty => exact flushAck_tracked tracked flushTid dirty
  | readContext page =>
    exact .pure ⟨⟨⟨tracked.listed.dirty, tracked.listed.flushing⟩, tracked.counted,
      readContext_held tracked.held page⟩, .refl self lists⟩
  | dirtyPage page snapc =>
    exact .pure ⟨⟨⟨tracked.listed.dirty, tracked.listed.flushing⟩, tracked.counted,
      dirtyHead_held tracked.held proper⟩, .refl self lists⟩
  | putPages pages snapc =>
    obtain ⟨some, within, context⟩ := proper
    obtain ⟨after, ran, held, dirty, flushing⟩ := releasePages_held tracked.held some within context
    refine ⟨(after, lists), by rw [DirtyCall.apply, ran]; rfl, ⟨⟨?_, ?_⟩, tracked.counted, held⟩, .refl self lists⟩
    · rw [dirty]
      exact tracked.listed.dirty
    · rw [flushing]
      exact tracked.listed.flushing

end

structure Bookkept (world : CapWorld) : Prop where
  counted : world.lists.Counted
  listed : ∀ self, Listed world.lists self (world.inodes self)
  held : ∀ self, Held (world.inodes self)

section

variable {world : CapWorld}

theorem init_bookkept (contexts : InodeId → SnapContext) : Bookkept (.init contexts) where
  counted := ⟨nodup_nil, nodup_nil, rfl⟩
  listed self := by
    constructor
    · simp [CapWorld.init, CephInode.clean]
    · simp [CapWorld.init, CephInode.clean, CapLists.Flushing]
  held self := by
    constructor <;> simp [CapWorld.init, CephInode.clean, metadataRef, wrbufferRefs, cephCapsDirty]

theorem bookkept_keeps : Keeps CapWorld.run CapWorld.Proper Bookkept := by
  rintro ⟨self, call⟩ world proper ⟨counted, listed, held⟩
  obtain ⟨⟨ci, lists⟩, ran, ⟨trackedSelf, countedAfter, heldSelf⟩, others⟩ :=
    apply_tracked ⟨listed self, counted, held self⟩ proper
  refine ⟨_, by rw [CapWorld.run, ran]; rfl, countedAfter, ?_, ?_⟩
  · intro other
    by_cases same : other = self
    · subst same
      simpa using trackedSelf
    · simp only [ne_eq, same, not_false_eq_true, Function.update_of_ne]
      exact ⟨(others.dirty other same).trans (listed other).dirty, (others.flushing other same).trans (listed other).flushing⟩
  · intro other
    by_cases same : other = self
    · subst same
      simpa using heldSelf
    · simpa only [ne_eq, same, not_false_eq_true, Function.update_of_ne] using held other

/-- Dirty and flushing inodes are on their lists and counted, the references and the
head context are held when they should be, and no `BUG_ON` can fire. -/
theorem capWorld_bookkept {contexts : InodeId → SnapContext}
    (reached : Reached CapWorld.run CapWorld.Proper (.init contexts) world) :
    (∀ self, (self ∈ world.lists.capDirty ↔ (world.inodes self).dirtyCaps ≠ 0) ∧
      (world.lists.Flushing self ↔ (world.inodes self).flushingCaps ≠ 0) ∧
      (world.inodes self).refs = metadataRef (world.inodes self) + wrbufferRefs (world.inodes self) ∧
      (0 < (world.inodes self).wrbufferRefHead ∨ cephCapsDirty (world.inodes self) ≠ 0 →
        (world.inodes self).headSnapc ≠ none)) ∧
    (world.lists.capFlushing.map (·.2)).Nodup ∧ world.lists.numCapFlushing = world.lists.capFlushing.length ∧
    ∀ call, CapWorld.Proper call world → Returns (CapWorld.run call world) fun _ => True := by
  have bookkept := reached.holds bookkept_keeps (init_bookkept contexts)
  refine ⟨?_, bookkept.counted.flushing, bookkept.counted.count, ?_⟩
  · intro self
    exact ⟨(bookkept.listed self).dirty, (bookkept.listed self).flushing, (bookkept.held self).refs, (bookkept.held self).head⟩
  · exact fun call proper => (bookkept_keeps call world proper bookkept).mono fun _ _ => trivial

end

instance (call : InodeId × DirtyCall) (world : CapWorld) : Decidable (CapWorld.Proper call world) :=
  DirtyCall.decidableProper ..

/-- Two inodes are made dirty, one of them is flushed and gets a dirty page, and the flush is acknowledged. -/
def flushedCalls : List (InodeId × DirtyCall) :=
  [(0, .markDirty cephCapFileWr), (1, .markDirty cephCapFileWr), (0, .markFlushing 0), (0, .readContext 0),
    (0, .dirtyPage 0 { addr := 4096, seq := 1 }), (0, .flushAck 1 cephCapFileWr)]

theorem capWorld_bookkept_flushed : ∃ world : CapWorld,
    runAll CapWorld.run CapWorld.Proper flushedCalls (.init fun _ => { addr := 4096, seq := 1 }) = some world ∧
    (1 ∈ world.lists.capDirty ↔ (world.inodes 1).dirtyCaps ≠ 0) ∧
    (world.inodes 0).refs = metadataRef (world.inodes 0) + wrbufferRefs (world.inodes 0) ∧
    ∀ call, CapWorld.Proper call world → Returns (CapWorld.run call world) fun _ => True := by
  obtain ⟨world, ran⟩ := Option.isSome_iff_exists.mp (by decide +kernel :
    (runAll CapWorld.run CapWorld.Proper flushedCalls (.init fun _ => { addr := 4096, seq := 1 })).isSome)
  obtain ⟨inodes, _, _, runs⟩ := capWorld_bookkept (.runAll .start ran)
  exact ⟨world, ran, (inodes 1).1, (inodes 0).2.2.1, runs⟩

end KmodCeph.Caps
