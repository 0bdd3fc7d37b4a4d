import KmodCeph.Caps.Snapshots

namespace KmodCeph.Caps

open Lib List

def snapCounter (snapc : SnapContext) (capSnaps : List CapSnap) : Option Nat :=
  (capSnaps.find? (·.context = snapc)).map (·.addr)

/-- A page will be released from the counter it is counted in. -/
def DirtyPage.Located (head : Option SnapContext) (capSnaps : List CapSnap) (page : DirtyPage) : Prop :=
  match page.counter with
  | none => head = some page.snapc
  | some addr => head ≠ some page.snapc ∧ snapCounter page.snapc capSnaps = some addr

def countIn (counter : Option Nat) (pages : List DirtyPage) : Int :=
  pages.countP (·.counter = counter)

def CephInode.counted (ci : CephInode) : Option Nat → Int
  | none => ci.wrbufferRefHead
  | some addr => ((ci.capSnaps.find? (·.addr = addr)).map (·.dirtyPages)).getD 0

def Unused (snapc : SnapContext) (capSnaps : List CapSnap) : Prop :=
  ∀ capsnap ∈ capSnaps, capsnap.context = snapc → capsnap.dirtyPages = 0

instance (snapc : SnapContext) (capSnaps : List CapSnap) : Decidable (Unused snapc capSnaps) :=
  inferInstanceAs (Decidable (∀ capsnap ∈ capSnaps, _))

/-- The contexts of counters with pages stay different: none becomes that of the head,
the head's is none of theirs when it becomes that of a cap_snap, and a page that is
dirtied has the head's. -/
def SnapCall.Distinct : SnapCall → SnapState → Prop
  | .dirty (.markDirty _), (ci, _) =>
    ci.dirtyCaps = 0 → ci.headSnapc = none → Unused ci.cachedContext ci.capSnaps
  | .dirty (.dirtyPage _ snapc), (ci, _) =>
    (ci.headSnapc = none ∧ Unused snapc ci.capSnaps) ∨ ci.headSnapc = some snapc
  | .queueCapSnap _, (ci, _) => Queues ci → Unused ci.cachedContext ci.capSnaps ∧
      (0 < ci.wrbufferRefHead → ci.headSnapc ≠ some ci.cachedContext ∧
        ∀ capsnap ∈ ci.capSnaps, ci.headSnapc ≠ some capsnap.context)
  | _, _ => True

instance SnapCall.decidableDistinct : (call : SnapCall) → (state : SnapState) → Decidable (call.Distinct state)
  | .dirty (.markDirty _), (ci, _) => inferInstanceAs (Decidable
      (ci.dirtyCaps = 0 → ci.headSnapc = none → Unused ci.cachedContext ci.capSnaps))
  | .dirty (.dirtyPage _ _), (_, _) => inferInstanceAs (Decidable (_ ∨ _))
  | .queueCapSnap _, (ci, _) => inferInstanceAs (Decidable (Queues ci → _ ∧ _))
  | .dirty (.markFlushing _), _ => .isTrue trivial
  | .dirty (.flushAck _ _), _ => .isTrue trivial
  | .dirty (.readContext _), _ => .isTrue trivial
  | .dirty (.putPages _ _), _ => .isTrue trivial
  | .takeRefs _, _ => .isTrue trivial
  | .putRefs _, _ => .isTrue trivial
  | .flushCapSnap _, _ => .isTrue trivial
  | .flushsnapAck _ _, _ => .isTrue trivial
  | .changeContext _, _ => .isTrue trivial
  | .changeFile _, _ => .isTrue trivial

structure SameCounter (old new : CapSnap) : Prop where
  addr : new.addr = old.addr
  context : new.context = old.context
  dirtyPages : new.dirtyPages = old.dirtyPages
  flushing : new.flushing = true → old.flushing = true ∨ old.dirtyPages = 0

structure PagesCounted (ci : CephInode) : Prop where
  total : ci.wrbufferRef = ci.wrbufferRefHead + (ci.capSnaps.map (·.dirtyPages)).sum
  head : ci.wrbufferRefHead = countIn none ci.pages
  snaps : ∀ capsnap ∈ ci.capSnaps, capsnap.dirtyPages = countIn (some capsnap.addr) ci.pages
  addrs : (ci.capSnaps.map (·.addr)).Nodup
  located : ∀ page ∈ ci.pages, page.Located ci.headSnapc ci.capSnaps
  flushing : ∀ capsnap ∈ ci.capSnaps, capsnap.flushing = true → capsnap.dirtyPages = 0

section

variable {ci after : CephInode} {lists : CapLists} {snapc : SnapContext} {counter : Option Nat}
variable {pages : List DirtyPage} {page : DirtyPage} {capSnaps : List CapSnap} {head : Option SnapContext}

theorem countIn_nonneg (counter : Option Nat) (pages : List DirtyPage) : 0 ≤ countIn counter pages :=
  Int.natCast_nonneg _

theorem countIn_pos (member : page ∈ pages) : 0 < countIn page.counter pages := by
  have some : 0 < pages.countP (·.counter = page.counter) := List.countP_pos_iff.mpr ⟨page, member, by simp⟩
  exact Int.natCast_pos.mpr some

theorem countIn_eq_zero : countIn counter pages = 0 ↔ ∀ page ∈ pages, page.counter ≠ counter := by
  simp [countIn, countP_eq_zero]

theorem countIn_eq_length (same : ∀ page ∈ pages, page.counter = counter) : countIn counter pages = pages.length := by
  have all : pages.countP (·.counter = counter) = pages.length := List.countP_eq_length.mpr (by simpa using same)
  exact congrArg Nat.cast all

theorem countIn_cons (counter : Option Nat) (page : DirtyPage) (pages : List DirtyPage) :
    countIn counter (page :: pages) = countIn counter pages + if page.counter = counter then 1 else 0 := by
  unfold countIn
  split_ifs with same <;> simp_all

theorem countIn_diff {all : List DirtyPage} (within : pages.Subperm all) (counter : Option Nat) :
    countIn counter (all.diff pages) = countIn counter all - countIn counter pages := by
  have split := subperm_append_diff_self_of_count_le (List.subperm_ext_iff.mp within)
  have counts := split.countP_eq (·.counter = counter)
  rw [countP_append] at counts
  unfold countIn
  omega

theorem countIn_moveTo_none (addr : Nat) (pages : List DirtyPage) :
    countIn none (pages.map (DirtyPage.moveTo addr)) = 0 := by
  rw [countIn_eq_zero]
  intro moved member
  obtain ⟨page, -, rfl⟩ := List.mem_map.mp member
  unfold DirtyPage.moveTo
  split
  · simp
  · assumption

theorem countIn_moveTo_other {addr other : Nat} (different : other ≠ addr) (pages : List DirtyPage) :
    countIn (some other) (pages.map (DirtyPage.moveTo addr)) = countIn (some other) pages := by
  unfold countIn
  rw [countP_map]
  congr 1
  apply countP_congr
  intro page _
  simp only [Function.comp, DirtyPage.moveTo]
  split
  · rename_i inHead
    simp [inHead, different.symm]
  · rfl

theorem countIn_moveTo {addr : Nat} (fresh : ∀ page ∈ pages, page.counter ≠ some addr) :
    countIn (some addr) (pages.map (DirtyPage.moveTo addr)) = countIn none pages := by
  unfold countIn
  rw [countP_map]
  congr 1
  apply countP_congr
  intro page member
  simp only [Function.comp, DirtyPage.moveTo]
  split
  · rename_i inHead
    simp [inHead]
  · rename_i inSnap
    simp [inSnap, fresh page member]

theorem snapCounter_some {addr : Nat} (found : snapCounter snapc capSnaps = some addr) :
    ∃ capsnap ∈ capSnaps, capsnap.context = snapc ∧ capsnap.addr = addr := by
  obtain ⟨capsnap, first, rfl⟩ := Option.map_eq_some_iff.mp found
  exact ⟨capsnap, mem_of_find?_eq_some first, by simpa using find?_some first, rfl⟩

theorem snapCounter_append (snapc : SnapContext) (capSnaps rest : List CapSnap) :
    snapCounter snapc (capSnaps ++ rest) = (snapCounter snapc capSnaps).or (snapCounter snapc rest) := by
  unfold snapCounter
  rw [find?_append]
  cases capSnaps.find? (·.context = snapc) <;> rfl

theorem snapCounter_cons (snapc : SnapContext) (capsnap : CapSnap) (rest : List CapSnap) :
    snapCounter snapc (capsnap :: rest) =
      if capsnap.context = snapc then some capsnap.addr else snapCounter snapc rest := by
  unfold snapCounter
  by_cases same : capsnap.context = snapc
  · simp [same]
  · simp [same]

variable {capSnaps' : List CapSnap} {lists' : CapLists} {flushTid : Nat}

theorem snapCounter_same (same : Forall₂ SameCounter capSnaps capSnaps') :
    snapCounter snapc capSnaps' = snapCounter snapc capSnaps := by
  induction same with
  | nil => rfl
  | cons first _ ih => rw [snapCounter_cons, snapCounter_cons, first.addr, first.context, ih]

theorem PagesCounted.counted_eq (counted : PagesCounted ci) (counter : Option Nat) :
    ci.counted counter = countIn counter ci.pages := by
  cases counter with
  | none => exact counted.head
  | some addr =>
    unfold CephInode.counted
    simp only
    cases found : ci.capSnaps.find? (·.addr = addr) with
    | some capsnap =>
      have same : capsnap.addr = addr := by simpa using find?_some found
      rw [← same]
      exact counted.snaps capsnap (mem_of_find?_eq_some found)
    | none =>
      symm
      rw [Option.map_none, Option.getD_none, countIn_eq_zero]
      intro page member inSnap
      have located := counted.located page member
      simp only [DirtyPage.Located, inSnap] at located
      obtain ⟨capsnap, listed, -, same⟩ := snapCounter_some located.2
      exact absurd same (by simpa using List.find?_eq_none.mp found capsnap listed)

theorem PagesCounted.snapc_ne (counted : PagesCounted ci) (unused : Unused snapc ci.capSnaps) (member : page ∈ ci.pages)
    (inSnap : page.counter ≠ none) : page.snapc ≠ snapc := by
  obtain ⟨addr, set⟩ := Option.ne_none_iff_exists'.mp inSnap
  have located := counted.located page member
  simp only [DirtyPage.Located, set] at located
  obtain ⟨capsnap, listed, context, rfl⟩ := snapCounter_some located.2
  rintro rfl
  have none := unused capsnap listed context
  rw [counted.snaps capsnap listed, countIn_eq_zero] at none
  exact none page member set

theorem PagesCounted.of_same (counted : PagesCounted ci) (wrbufferRef : after.wrbufferRef = ci.wrbufferRef)
    (refHead : after.wrbufferRefHead = ci.wrbufferRefHead) (capSnaps : after.capSnaps = ci.capSnaps)
    (pages : after.pages = ci.pages) (headSnapc : after.headSnapc = ci.headSnapc) : PagesCounted after := by
  obtain ⟨total, head, snaps, addrs, located, flushing⟩ := counted
  rw [← wrbufferRef, ← refHead, ← capSnaps] at total
  rw [← refHead, ← pages] at head
  rw [← capSnaps] at addrs flushing
  rw [← capSnaps, ← pages] at snaps
  rw [← pages, ← headSnapc, ← capSnaps] at located
  exact ⟨total, head, snaps, addrs, located, flushing⟩

theorem PagesCounted.of_head (counted : PagesCounted ci) (wrbufferRef : after.wrbufferRef = ci.wrbufferRef)
    (refHead : after.wrbufferRefHead = ci.wrbufferRefHead) (capSnaps : after.capSnaps = ci.capSnaps)
    (pages : after.pages = ci.pages) (empty : ∀ page ∈ ci.pages, page.counter ≠ none)
    (different : ∀ page ∈ ci.pages, after.headSnapc ≠ some page.snapc) : PagesCounted after := by
  obtain ⟨total, head, snaps, addrs, located, flushing⟩ := counted
  refine ⟨?_, ?_, ?_, ?_, ?_, ?_⟩
  · rw [wrbufferRef, refHead, capSnaps, total]
  · rw [refHead, pages, head]
  · rwa [capSnaps, pages]
  · rwa [capSnaps]
  · rw [pages, capSnaps]
    intro page member
    obtain ⟨addr, set⟩ := Option.ne_none_iff_exists'.mp (empty page member)
    have before := located page member
    simp only [DirtyPage.Located, set] at before ⊢
    exact ⟨different page member, before.2⟩
  · rwa [capSnaps]

section

variable (same : Forall₂ SameCounter capSnaps capSnaps')
include same

theorem sum_same : (capSnaps'.map (·.dirtyPages)).sum = (capSnaps.map (·.dirtyPages)).sum := by
  induction same with
  | nil => rfl
  | cons first _ ih => rw [map_cons, map_cons, sum_cons, sum_cons, first.dirtyPages, ih]

theorem addrs_same : capSnaps'.map (·.addr) = capSnaps.map (·.addr) := by
  induction same with
  | nil => rfl
  | cons first _ ih => rw [map_cons, map_cons, first.addr, ih]

theorem mem_same {new : CapSnap} (member : new ∈ capSnaps') : ∃ old ∈ capSnaps, SameCounter old new := by
  induction same with
  | nil => cases member
  | cons first _ ih =>
    rcases List.mem_cons.mp member with rfl | later
    · exact ⟨_, mem_cons_self, first⟩
    · obtain ⟨old, listed, same⟩ := ih later
      exact ⟨old, mem_cons_of_mem _ listed, same⟩

end

theorem PagesCounted.of_counters (counted : PagesCounted ci) (wrbufferRef : after.wrbufferRef = ci.wrbufferRef)
    (refHead : after.wrbufferRefHead = ci.wrbufferRefHead) (pages : after.pages = ci.pages)
    (headSnapc : after.headSnapc = ci.headSnapc) (same : Forall₂ SameCounter ci.capSnaps after.capSnaps) :
    PagesCounted after := by
  refine ⟨?_, ?_, ?_, ?_, ?_, ?_⟩
  · rw [wrbufferRef, refHead, sum_same same]
    exact counted.total
  · rw [refHead, pages]
    exact counted.head
  · intro new member
    obtain ⟨old, listed, counter⟩ := mem_same same member
    rw [counter.dirtyPages, counter.addr, pages]
    exact counted.snaps old listed
  · rw [addrs_same same]
    exact counted.addrs
  · rw [pages]
    intro page member
    have located := counted.located page member
    unfold DirtyPage.Located at located ⊢
    rwa [snapCounter_same same, headSnapc]
  · intro new member flushing
    obtain ⟨old, listed, counter⟩ := mem_same same member
    rw [counter.dirtyPages]
    rcases counter.flushing flushing with sent | empty
    · exact counted.flushing old listed sent
    · exact empty

theorem PagesCounted.drop (counted : PagesCounted ci) {before rest : List CapSnap} {capsnap : CapSnap}
    (split : ci.capSnaps = before ++ capsnap :: rest) (empty : capsnap.dirtyPages = 0) {refs : Int} :
    PagesCounted { ci with capSnaps := before ++ rest, refs := refs } := by
  have stay : (before ++ rest).Sublist ci.capSnaps := by
    rw [split]
    exact (List.Sublist.refl before).append (sublist_cons_self capsnap rest)
  refine ⟨?_, counted.head, ?_, ?_, ?_, ?_⟩
  · have total := counted.total
    rw [split] at total
    simp only [map_append, map_cons, sum_append, sum_cons, empty, zero_add] at total ⊢
    exact total
  · exact fun other member => counted.snaps other (stay.subset member)
  · exact counted.addrs.sublist (stay.map _)
  · intro page member
    have located := counted.located page member
    have listed : capsnap ∈ ci.capSnaps := by simp [split]
    have notHere := (countIn_eq_zero.mp ((counted.snaps capsnap listed).symm.trans empty)) page member
    rw [split] at located
    unfold DirtyPage.Located at located ⊢
    cases set : page.counter with
    | none => simpa only [set] using located
    | some addr =>
      simp only [set, snapCounter_append, snapCounter_cons] at located ⊢
      refine ⟨located.1, ?_⟩
      cases earlier : snapCounter page.snapc before with
      | some found => simpa [earlier] using located.2
      | none =>
        simp only [earlier, Option.none_or] at located ⊢
        split at located
        · exact absurd (set.trans located.2.symm) notHere
        · exact located.2
  · exact fun other member => counted.flushing other (stay.subset member)

theorem PagesCounted.of_wrbuffer_head (counted : PagesCounted ci) (head : ci.headSnapc = some snapc)
    (within : pages.Subperm ci.pages) (context : ∀ page ∈ pages, page.snapc = snapc) {refs : Int} :
    PagesCounted { ci with
      wrbufferRef := ci.wrbufferRef - pages.length
      wrbufferRefHead := ci.wrbufferRefHead - pages.length
      headSnapc := ci.headAfter pages.length
      refs := refs
      pages := ci.pages.diff pages } := by
  have inHead : ∀ page ∈ pages, page.counter = none := by
    intro page member
    have located := counted.located page (within.subset member)
    cases set : page.counter with
    | none => rfl
    | some addr =>
      simp only [DirtyPage.Located, set, context page member] at located
      exact absurd head located.1
  have inNone : ∀ addr, countIn (some addr) pages = 0 := by
    intro addr
    rw [countIn_eq_zero]
    intro page member
    simp [inHead page member]
  have left : ci.wrbufferRefHead - pages.length = countIn none (ci.pages.diff pages) := by
    rw [countIn_diff within, countIn_eq_length inHead, counted.head]
  refine ⟨?_, left, ?_, counted.addrs, ?_, counted.flushing⟩
  · have total := counted.total
    simp only
    lia
  · intro capsnap member
    rw [countIn_diff within, inNone, sub_zero]
    exact counted.snaps capsnap member
  · intro page member
    have located := counted.located page (diff_subset _ _ member)
    simp only [CephInode.headAfter]
    split
    · rename_i clean
      have empty := countIn_eq_zero.mp (left.symm.trans clean.1) page member
      obtain ⟨addr, set⟩ := Option.ne_none_iff_exists'.mp empty
      simp only [DirtyPage.Located, set] at located ⊢
      exact ⟨by simp, located.2⟩
    · exact located

theorem PagesCounted.of_wrbuffer_snap (counted : PagesCounted ci) {before rest : List CapSnap}
    {capsnap released : CapSnap} (split : ci.capSnaps = before ++ capsnap :: rest)
    (inSnap : ∀ page ∈ pages, page.counter = some capsnap.addr) (some : pages ≠ []) (within : pages.Subperm ci.pages)
    (same : released = { capsnap with dirtyPages := capsnap.dirtyPages - pages.length, queued := released.queued })
    {refs : Int} :
    PagesCounted { ci with
      wrbufferRef := ci.wrbufferRef - pages.length
      capSnaps := before ++ released :: rest
      refs := refs
      pages := ci.pages.diff pages } := by
  have addr : released.addr = capsnap.addr := by rw [same]
  have context : released.context = capsnap.context := by rw [same]
  have dirtyPages : released.dirtyPages = capsnap.dirtyPages - pages.length := by rw [same]
  have listed : capsnap ∈ ci.capSnaps := by simp [split]
  have addrs := counted.addrs
  have notIn : ∀ counter, counter ≠ Option.some capsnap.addr → countIn counter pages = 0 := by
    intro counter different
    rw [countIn_eq_zero]
    intro page member equal
    exact different (equal.symm.trans (inSnap page member))
  have others : ∀ other ∈ before ++ rest, other ∈ ci.capSnaps ∧ other.addr ≠ capsnap.addr := by
    intro other member
    rw [split, map_append, map_cons, nodup_middle, nodup_cons] at addrs
    rw [← map_append] at addrs
    refine ⟨?_, fun equal => addrs.1 (equal ▸ mem_map_of_mem member)⟩
    rw [split]
    rcases List.mem_append.mp member with earlier | later
    · simp [earlier]
    · simp [later]
  have cases_mem : ∀ other ∈ before ++ released :: rest, other = released ∨ other ∈ before ++ rest := by
    intro other member
    simp only [mem_append, mem_cons] at member ⊢
    tauto
  refine ⟨?_, ?_, ?_, ?_, ?_, ?_⟩
  · have total := counted.total
    rw [split] at total
    simp only [map_append, map_cons, sum_append, sum_cons, dirtyPages] at total ⊢
    lia
  · simp only
    rw [countIn_diff within, notIn none (by simp), sub_zero]
    exact counted.head
  · intro other member
    rw [countIn_diff within]
    rcases cases_mem other member with rfl | stays
    · rw [addr, dirtyPages, countIn_eq_length inSnap, counted.snaps capsnap listed]
    · obtain ⟨old, different⟩ := others other stays
      rw [notIn _ (by simpa using different), sub_zero]
      exact counted.snaps other old
  · rw [split] at addrs
    simpa [addr] using addrs
  · intro page member
    have located := counted.located page (diff_subset _ _ member)
    rw [split] at located
    unfold DirtyPage.Located at located ⊢
    simpa only [snapCounter_append, snapCounter_cons, addr, context] using located
  · intro other member flushing
    rcases cases_mem other member with rfl | stays
    · exfalso
      have old : capsnap.flushing = true := by
        rw [same] at flushing
        exact flushing
      have empty := counted.flushing capsnap listed old
      obtain ⟨first, isIn⟩ := exists_mem_of_ne_nil pages some
      rw [counted.snaps capsnap listed, ← inSnap first isIn] at empty
      have positive := countIn_pos (within.subset isIn)
      omega
    · exact counted.flushing other (others other stays).1 flushing

theorem putWrbuffer_snap (other : ci.headSnapc ≠ some snapc) {nr : Int}
    (released : releaseFirst nr snapc ci.capSnaps = some capSnaps) :
    ∃ refs, cephPutWrbufferCapRefs nr snapc ci =
      .ok { ci with wrbufferRef := ci.wrbufferRef - nr, capSnaps := capSnaps, refs := refs } := by
  unfold cephPutWrbufferCapRefs putSnapRefs
  simp only [if_neg other, released]
  by_cases last : ci.wrbufferRef - nr = 0
  · exact ⟨_, by simp only [last, if_true]; rfl⟩
  · exact ⟨_, by simp only [last, if_false]; rfl⟩

theorem releaseFirst_isSome {nr : Int} (found : snapCounter snapc capSnaps ≠ none) :
    ∃ capSnaps', releaseFirst nr snapc capSnaps = some capSnaps' := by
  induction capSnaps with
  | nil => exact absurd rfl found
  | cons capsnap rest ih =>
    rw [snapCounter_cons] at found
    rw [releaseFirst]
    split
    · exact ⟨_, rfl⟩
    · rename_i different
      rw [if_neg different] at found
      obtain ⟨later, released⟩ := ih found
      exact ⟨_, by rw [released, Option.map_some]⟩

section

variable (counted : PagesCounted ci)
include counted

/-- Dirty pages are found, and they leave the counter that they are in. -/
theorem releasePages_counted (some : pages ≠ []) (within : pages.Subperm ci.pages)
    (context : ∀ page ∈ pages, page.snapc = snapc) :
    Returns (releasePages pages snapc ci) fun after => PagesCounted after ∧ after.pages = ci.pages.diff pages := by
  unfold releasePages
  by_cases head : ci.headSnapc = Option.some snapc
  · rw [putWrbuffer_head head]
    exact .pure ⟨counted.of_wrbuffer_head head within context, rfl⟩
  · have located : ∀ page ∈ pages, page.counter = (snapCounter snapc ci.capSnaps) ∧ page.counter ≠ none := by
      intro page member
      have located := counted.located page (within.subset member)
      cases set : page.counter with
      | none =>
        simp only [DirtyPage.Located, set, context page member] at located
        exact absurd located head
      | some addr =>
        simp only [DirtyPage.Located, set, context page member] at located
        exact ⟨located.2.symm, by simp⟩
    obtain ⟨first, member⟩ := exists_mem_of_ne_nil pages some
    obtain ⟨capSnaps, released⟩ := @releaseFirst_isSome snapc ci.capSnaps pages.length
      fun none => (located first member).2 ((located first member).1.trans none)
    obtain ⟨refs, ran⟩ := putWrbuffer_snap head released
    rw [ran]
    obtain ⟨before, capsnap, rest, split, same, earlier, rfl⟩ := releaseFirst_some released
    have found : snapCounter snapc ci.capSnaps = Option.some capsnap.addr := by
      rw [split, snapCounter_append, snapCounter_cons, if_pos same]
      cases before' : snapCounter snapc before with
      | none => rfl
      | some addr =>
        obtain ⟨other, listed, equal, -⟩ := snapCounter_some before'
        exact absurd equal (earlier other listed)
    have inSnap : ∀ page ∈ pages, page.counter = Option.some capsnap.addr :=
      fun page member => (located page member).1.trans found
    refine .pure ⟨?_, rfl⟩
    cases kept : capsnap.release pages.length with
    | some released =>
      have stays : released ∈ (capsnap.release pages.length).toList := by simp [kept]
      exact counted.of_wrbuffer_snap split inSnap some within (mem_release stays).1
    | none =>
      have dropped : capsnap.dirtyPages - pages.length = 0 := by
        unfold CapSnap.release at kept
        simp only at kept
        split_ifs at kept with unused
        exact unused
      have mid := @PagesCounted.of_wrbuffer_snap _ _ counted _ _ _
        { capsnap with dirtyPages := capsnap.dirtyPages - pages.length } split inSnap some within rfl refs
      exact mid.drop rfl dropped

theorem dirtyHead_counted (page : PageId)
    (distinct : (ci.headSnapc = none ∧ Unused snapc ci.capSnaps) ∨ ci.headSnapc = some snapc) :
    PagesCounted (dirtyHead page snapc ci) := by
  have head : ci.headSnapc.getD snapc = snapc := by
    rcases distinct with ⟨none, -⟩ | same
    · rw [none, Option.getD_none]
    · rw [same, Option.getD_some]
  refine ⟨?_, ?_, ?_, counted.addrs, ?_, counted.flushing⟩
  · have total := counted.total
    simp only [dirtyHead]
    omega
  · simp only [dirtyHead, countIn_cons, if_true]
    rw [counted.head]
  · intro capsnap member
    simp only [dirtyHead, countIn_cons]
    exact counted.snaps capsnap member
  · intro dirty member
    simp only [dirtyHead, head] at member ⊢
    rcases List.mem_cons.mp member with rfl | old
    · simp [DirtyPage.Located]
    · have located := counted.located dirty old
      rcases distinct with ⟨none, unused⟩ | same
      · cases set : dirty.counter with
        | none =>
          simp only [DirtyPage.Located, set, none] at located
          cases located
        | some addr =>
          simp only [DirtyPage.Located, set] at located ⊢
          refine ⟨?_, located.2⟩
          have different := counted.snapc_ne unused old (by simp [set])
          simpa using different.symm
      · rwa [same] at located

theorem markDirty_counted {mask : CapMask}
    (distinct : ci.dirtyCaps = 0 → ci.headSnapc = none → Unused ci.cachedContext ci.capSnaps)
    (ran : cephMarkDirtyCaps onlyInode mask ci lists = .ok (after, lists')) : PagesCounted after := by
  obtain ⟨_, _, _, rfl, -, rfl | ⟨clean, rfl⟩⟩ := cephMarkDirtyCaps_changes ran
  · exact counted.of_same rfl rfl rfl rfl rfl
  · cases set : ci.headSnapc with
    | some context => exact counted.of_same rfl rfl rfl rfl (by simp [set])
    | none =>
      have unused := distinct clean set
      have inSnap : ∀ page ∈ ci.pages, page.counter ≠ none := by
        intro page member inHead
        have located := counted.located page member
        simp only [DirtyPage.Located, inHead, set] at located
        cases located
      refine counted.of_head rfl rfl rfl rfl inSnap ?_
      intro page member
      have different := counted.snapc_ne unused member (inSnap page member)
      simpa using different.symm

theorem flushAck_counted {dirty : CapMask}
    (ran : handleCapFlushAck onlyInode flushTid dirty ci lists = .ok (after, lists')) : PagesCounted after := by
  obtain ⟨_, _, rfl, rfl | ⟨unused, rfl⟩, -⟩ := handleCapFlushAck_changes ran
  · exact counted.of_same rfl rfl rfl rfl rfl
  · have empty : countIn none ci.pages = 0 := counted.head.symm.trans unused
    exact counted.of_head rfl rfl rfl rfl (countIn_eq_zero.mp empty) (by simp)

/-- The pages of the head move to the new cap_snap, which has the head's context. -/
theorem queueCapSnap_counted {addr : Nat}
    (fresh : ∀ capsnap ∈ ci.capSnaps, capsnap.addr ≠ addr) (freshPages : ∀ page ∈ ci.pages, page.counter ≠ some addr)
    (distinct : Queues ci → Unused ci.cachedContext ci.capSnaps ∧
      (0 < ci.wrbufferRefHead → ci.headSnapc ≠ some ci.cachedContext ∧
        ∀ capsnap ∈ ci.capSnaps, ci.headSnapc ≠ some capsnap.context))
    (ran : cephQueueCapSnap addr ci = .ok after) : PagesCounted after := by
  by_cases queues : Queues ci
  · obtain ⟨unused, moves⟩ := distinct queues
    obtain ⟨capsnap, rfl, made, -, -, -⟩ := queueCapSnap_ok queues ran
    have newAddr : capsnap.addr = addr := by rw [made]; rfl
    have newPages : capsnap.dirtyPages = ci.wrbufferRefHead := by rw [made]; rfl
    have newContext : capsnap.context = ci.headSnapc.getD ci.cachedContext := by rw [made]; rfl
    have newFlushing : capsnap.flushing = false := by rw [made]; rfl
    refine ⟨?_, ?_, ?_, ?_, ?_, ?_⟩
    · have total := counted.total
      simp only [map_append, sum_append, map_singleton, sum_singleton, newPages]
      lia
    · exact (countIn_moveTo_none addr ci.pages).symm
    · intro other member
      rcases List.mem_append.mp member with old | isNew
      · rw [countIn_moveTo_other (fresh other old)]
        exact counted.snaps other old
      · rw [List.mem_singleton.mp isNew, newAddr, newPages, countIn_moveTo freshPages]
        exact counted.head
    · rw [map_append, map_singleton, newAddr]
      refine counted.addrs.append (nodup_singleton addr) ?_
      rw [disjoint_singleton]
      rw [mem_map]
      rintro ⟨other, member, same⟩
      exact fresh other member same
    · intro moved member
      obtain ⟨page, old, rfl⟩ := List.mem_map.mp member
      have located := counted.located page old
      simp only [DirtyPage.Located, DirtyPage.moveTo, snapCounter_append]
      cases set : page.counter with
      | none =>
        simp only [DirtyPage.Located, set] at located
        have positive : 0 < ci.wrbufferRefHead := by
          rw [counted.head, ← set]
          exact countIn_pos old
        obtain ⟨notCached, notEarlier⟩ := moves positive
        rw [located] at notCached notEarlier newContext
        rw [Option.getD_some] at newContext
        simp only [if_true]
        refine ⟨notCached.symm, ?_⟩
        cases earlier : snapCounter page.snapc ci.capSnaps with
        | none =>
          rw [Option.none_or, snapCounter_cons, if_pos newContext, newAddr]
        | some found =>
          obtain ⟨other, listed, context, -⟩ := snapCounter_some earlier
          exact absurd (congrArg some context.symm) (notEarlier other listed)
      | some other =>
        simp only [DirtyPage.Located, set] at located
        have different := counted.snapc_ne unused old (by simp [set])
        simp only [reduceCtorEq, if_false, set]
        refine ⟨by simpa using different.symm, ?_⟩
        rw [located.2, Option.some_or]
    · intro other member flushing
      rcases List.mem_append.mp member with old | isNew
      · exact counted.flushing other old flushing
      · rw [List.mem_singleton.mp isNew, newFlushing] at flushing
        cases flushing
  · unfold cephQueueCapSnap at ran
    rw [if_neg queues] at ran
    cases ran
    exact counted

end

theorem SameCounter.refl (capsnap : CapSnap) : SameCounter capsnap capsnap :=
  ⟨rfl, rfl, rfl, .inl⟩

theorem finishFirst_same {file : FileState}
    (ran : finishFirst file capSnaps = .ok capSnaps') : Forall₂ SameCounter capSnaps capSnaps' := by
  cases capSnaps with
  | nil =>
    cases ran
    exact .nil
  | cons capsnap rest =>
    have unchanged : Forall₂ SameCounter rest rest := List.forall₂_same.mpr fun other _ => .refl other
    rw [finishFirst] at ran
    split at ran
    · obtain ⟨finished, finishRan, done⟩ := ok_of_bind ran
      cases done
      obtain ⟨-, rfl⟩ := finishCapSnap_ok finishRan
      exact .cons ⟨rfl, rfl, rfl, .inl⟩ unchanged
    · cases ran
      exact .cons (.refl capsnap) unchanged

theorem putCapRefs_counted (counted : PagesCounted ci) {had : CapMask} (ran : cephPutCapRefs had ci = .ok after) :
    PagesCounted after := by
  unfold cephPutCapRefs at ran
  by_cases writer : had &&& cephCapFileWr ≠ 0
  · simp only [if_pos writer] at ran
    by_cases last : ci.wrRef - 1 = 0
    · simp only [if_pos last] at ran
      obtain ⟨capSnaps, finished, done⟩ := ok_of_bind ran
      cases done
      exact counted.of_counters rfl rfl rfl rfl (finishFirst_same finished)
    · simp only [if_neg last] at ran
      cases ran
      exact counted.of_same rfl rfl rfl rfl rfl
  · simp only [if_neg writer] at ran
    cases ran
    exact counted.of_same rfl rfl rfl rfl rfl

theorem flushCapSnap_counted (counted : PagesCounted ci) {addr : Nat}
    (complete : ∀ capsnap ∈ ci.capSnaps, capsnap.addr = addr → capsnap.Complete)
    (ran : flushCapSnap addr ci = .ok after) : PagesCounted after := by
  obtain ⟨-, -, done⟩ := ok_of_bind ran
  cases done
  refine counted.of_counters rfl rfl rfl rfl ?_
  rw [forall₂_map_right_iff, forall₂_same]
  intro capsnap member
  split
  · rename_i sent
    exact ⟨rfl, rfl, rfl, fun _ => .inr (complete capsnap member sent).2⟩
  · exact .refl capsnap

theorem ackFlushSnap_cases (follows flushTid : Nat) (capSnaps : List CapSnap) :
    ackFlushSnap follows flushTid capSnaps = capSnaps ∨
      ∃ before capsnap rest, capSnaps = before ++ capsnap :: rest ∧ capsnap.follows = follows ∧
        capsnap.flushTid = flushTid ∧ ackFlushSnap follows flushTid capSnaps = before ++ rest := by
  induction capSnaps with
  | nil => exact .inl rfl
  | cons capsnap rest ih =>
    rw [ackFlushSnap]
    split_ifs with same other
    · exact .inl rfl
    · exact .inr ⟨[], capsnap, rest, rfl, same, by simpa using other, rfl⟩
    · rcases ih with unchanged | ⟨before, found, after, rfl, follows, tid, acked⟩
      · exact .inl (congrArg (capsnap :: ·) unchanged)
      · exact .inr ⟨capsnap :: before, found, after, rfl, follows, tid, congrArg (capsnap :: ·) acked⟩

theorem flushsnapAck_counted (counted : PagesCounted ci) {follows : Nat}
    (sent : ∀ capsnap ∈ ci.capSnaps, capsnap.follows = follows → capsnap.flushTid = flushTid → capsnap.flushing) :
    PagesCounted (handleCapFlushsnapAck follows flushTid ci) := by
  unfold handleCapFlushsnapAck
  rcases ackFlushSnap_cases follows flushTid ci.capSnaps with same | ⟨before, capsnap, rest, split, follows', tid, acked⟩
  · exact counted.of_same rfl rfl same rfl rfl
  · have listed : capsnap ∈ ci.capSnaps := by simp [split]
    have empty := counted.flushing capsnap listed (sent capsnap listed follows' tid)
    simp only [acked]
    exact counted.drop split empty

theorem counted_preserved :
    Preserves SnapCall.run (fun call state => call.Proper state ∧ call.Distinct state) fun state => PagesCounted state.1 := by
  rintro call ⟨ci, lists⟩ ⟨after, lists'⟩ ⟨proper, distinct⟩ counted ran
  cases call with
  | dirty call =>
    cases call with
    | markDirty mask => exact markDirty_counted counted distinct ran
    | markFlushing session =>
      obtain ⟨marked, markRan, same⟩ := ok_of_map ran
      obtain ⟨-, -, listed⟩ := ok_of_bind markRan
      obtain ⟨-, -, done⟩ := ok_of_bind listed
      cases done
      cases same
      exact counted.of_same rfl rfl rfl rfl rfl
    | flushAck flushTid dirty => exact flushAck_counted counted ran
    | readContext page =>
      cases ran
      exact counted.of_same rfl rfl rfl rfl rfl
    | dirtyPage page snapc =>
      cases ran
      exact dirtyHead_counted counted page distinct
    | putPages pages snapc =>
      obtain ⟨put, putRan, same⟩ := ok_of_map ran
      cases same
      obtain ⟨released, releaseRan, holds, -⟩ := releasePages_counted counted proper.1 proper.2.1 proper.2.2
      rw [putRan] at releaseRan
      cases releaseRan
      exact holds
  | takeRefs got =>
    cases ran
    exact counted.of_same rfl rfl rfl rfl rfl
  | putRefs had =>
    obtain ⟨put, putRan, same⟩ := ok_of_map ran
    cases same
    exact putCapRefs_counted counted putRan
  | queueCapSnap addr =>
    obtain ⟨queued, queueRan, same⟩ := ok_of_map ran
    cases same
    exact queueCapSnap_counted counted proper.1 proper.2 distinct queueRan
  | flushCapSnap addr =>
    obtain ⟨flushed, flushRan, same⟩ := ok_of_map ran
    cases same
    exact flushCapSnap_counted counted proper.1 flushRan
  | flushsnapAck follows flushTid =>
    cases ran
    exact flushsnapAck_counted counted proper
  | changeContext snapc =>
    cases ran
    exact counted.of_same rfl rfl rfl rfl rfl
  | changeFile file =>
    cases ran
    exact counted.of_same rfl rfl rfl rfl rfl

theorem init_counted : PagesCounted (SnapState.init snapc).1 := by
  constructor <;> simp [SnapState.init, CephInode.clean, countIn]

/-- As long as the contexts stay different, the dirty pages of the head and of the
cap_snaps add up, and pages are released from the counters they are counted in. -/
theorem dirtyPages_accounted {state : SnapState} (reached : Reached SnapCall.run
      (fun call state => call.Proper state ∧ call.Distinct state) (.init snapc) state) :
    state.1.wrbufferRef = state.1.wrbufferRefHead + (state.1.capSnaps.map (·.dirtyPages)).sum ∧
    0 ≤ state.1.wrbufferRef ∧ 0 ≤ state.1.wrbufferRefHead ∧
    (∀ capsnap ∈ state.1.capSnaps, 0 ≤ capsnap.dirtyPages) ∧
    (∀ counter, state.1.counted counter = countIn counter state.1.pages) ∧
    ∀ pages snapc, (DirtyCall.putPages pages snapc).Proper state.1 → Returns (releasePages pages snapc state.1)
      fun after => ∀ counter, after.counted counter = state.1.counted counter - countIn counter pages := by
  have counted : PagesCounted state.1 :=
    @Reached.preserved _ _ _ _ _ (fun state => PagesCounted state.1) _ _ counted_preserved init_counted reached
  have head : 0 ≤ state.1.wrbufferRefHead := counted.head ▸ countIn_nonneg none state.1.pages
  have snaps : ∀ capsnap ∈ state.1.capSnaps, 0 ≤ capsnap.dirtyPages :=
    fun capsnap member => counted.snaps capsnap member ▸ countIn_nonneg _ state.1.pages
  refine ⟨counted.total, ?_, head, snaps, counted.counted_eq, ?_⟩
  · have sum : 0 ≤ (state.1.capSnaps.map (·.dirtyPages)).sum := sum_nonneg (by simpa using snaps)
    have total := counted.total
    omega
  · rintro pages snapc ⟨some, within, context⟩
    refine (releasePages_counted counted some within context).mono ?_
    rintro after ⟨countedAfter, left⟩ counter
    rw [countedAfter.counted_eq, counted.counted_eq, left, countIn_diff within]

end

/-- A page dirtied before a snapshot and one after it. -/
theorem dirtyPages_accounted_snapped : ∃ state : SnapState, state.1.wrbufferRef = 2 ∧
    state.1.wrbufferRef = state.1.wrbufferRefHead + (state.1.capSnaps.map (·.dirtyPages)).sum ∧
    Returns (releasePages [{ page := 7, snapc := { addr := 4096, seq := 1 }, counter := some 8192 }]
      { addr := 4096, seq := 1 } state.1) fun _ => True := by
  have read : Reached SnapCall.run (fun call state => call.Proper state ∧ call.Distinct state)
      (.init { addr := 4096, seq := 1 }) _ :=
    Reached.start.next (.dirty (.readContext 7)) (by decide +kernel) rfl
  have dirtied := read.next (.dirty (.dirtyPage 7 { addr := 4096, seq := 1 })) (by decide +kernel) rfl
  have marked := dirtied.next (.dirty (.markDirty cephCapFileWr)) (by decide +kernel) rfl
  have updated := marked.next (.changeContext { addr := 16384, seq := 2 }) (by decide +kernel) rfl
  have queued := updated.next (.queueCapSnap 8192) (by decide +kernel) rfl
  have readAgain := queued.next (.dirty (.readContext 8)) (by decide +kernel) rfl
  have dirtiedAgain := readAgain.next (.dirty (.dirtyPage 8 { addr := 16384, seq := 2 })) (by decide +kernel) rfl
  have accounted := dirtyPages_accounted dirtiedAgain
  refine ⟨_, rfl, accounted.1, ?_⟩
  exact (accounted.2.2.2.2.2 _ _ (by decide +kernel)).mono fun _ _ => trivial

/-- A page is dirtied under a new context while the head still has the old one: it is
counted in the head, and there is nothing to release it from. -/
theorem dirtyPages_unaccounted : ∃ state : SnapState,
    Reached SnapCall.run SnapCall.Proper (.init { addr := 4096, seq := 1 }) state ∧
      ∃ call : SnapCall, call.Proper state ∧ call.run state = .error .notFound := by
  have read : Reached SnapCall.run SnapCall.Proper (.init { addr := 4096, seq := 1 }) _ :=
    Reached.start.next (.dirty (.readContext 7)) (by decide +kernel) rfl
  have dirtied := read.next (.dirty (.dirtyPage 7 { addr := 4096, seq := 1 })) (by decide +kernel) rfl
  have updated := dirtied.next (.changeContext { addr := 16384, seq := 2 }) (by decide +kernel) rfl
  have readAgain := updated.next (.dirty (.readContext 8)) (by decide +kernel) rfl
  have dirtiedAgain := readAgain.next (.dirty (.dirtyPage 8 { addr := 16384, seq := 2 })) (by decide +kernel) rfl
  exact ⟨_, dirtiedAgain, .dirty (.putPages [{ page := 8, snapc := { addr := 16384, seq := 2 }, counter := none }]
    { addr := 16384, seq := 2 }), by decide +kernel, rfl⟩

end KmodCeph.Caps
