import KmodCeph.Writeback.Writepages

namespace KmodCeph.Writeback

open List Inode

open Caps (SnapContext)

/-- The snap contexts, oldest first, each with the number of dirty pages that is counted for it. -/
def Inode.counters (inode : Inode) : List (SnapContext × Nat) :=
  inode.capSnaps.map (fun capsnap => (capsnap.context, capsnap.dirtyPages)) ++
    [(inode.headSnapc, inode.wrbufferRefHead)]

def Inode.dirtyOf (inode : Inode) (snapc : SnapContext) : Nat :=
  inode.indices.countP fun page => inode.context page = snapc ∧ inode.state page ≠ .clean

/-- Distinct contexts have distinct sequence numbers, and every page that is not clean is counted for its own. -/
structure Inode.Counted (inode : Inode) : Prop where
  ascending : inode.indices.Pairwise (· < ·)
  ordered : inode.counters.Pairwise fun older newer => older.1.seq < newer.1.seq
  counts : ∀ counter ∈ inode.counters, counter.2 = inode.dirtyOf counter.1
  placed : ∀ page ∈ inode.indices, inode.state page ≠ .clean → ∃ number, (inode.context page, number) ∈ inode.counters

/-- Nothing is counted for a context that is older than this one. -/
structure Inode.Oldest (inode : Inode) (snapc : SnapContext) : Prop where
  counter : ∃ number, (snapc, number) ∈ inode.counters
  least : ∀ page ∈ inode.indices, inode.state page ≠ .clean → snapc.seq ≤ (inode.context page).seq

def Inode.sizeOf (inode : Inode) (snapc : SnapContext) : Nat :=
  ((inode.capSnaps.find? (·.context = snapc)).map (·.size)).getD inode.size

def lessened (nr : Nat) (snapc : SnapContext) (counter : SnapContext × Nat) : SnapContext × Nat :=
  if counter.1 = snapc then (counter.1, counter.2 - nr) else counter

def Inode.cleaned (pages : List Nat) (inode : Inode) : Inode :=
  { inode with state := fun page => if page ∈ pages then .clean else inode.state page }

section

variable {inode : Inode} {snapc : SnapContext} {nr : Nat} {pages : List Nat} {state : Nat → PageState}

theorem getOldestContext_fst : (getOldestContext inode).1 = (inode.counters.find? (·.2 ≠ 0)).map (·.1) := by
  unfold getOldestContext counters
  rw [find?_append, find?_map]
  cases found : inode.capSnaps.find? (·.dirtyPages ≠ 0) with
  | some capsnap =>
    have same : inode.capSnaps.find?
        ((fun counter : SnapContext × Nat => decide (counter.2 ≠ 0)) ∘
          fun capsnap => (capsnap.context, capsnap.dirtyPages)) = some capsnap := found
    rw [same]
    rfl
  | none =>
    have same : inode.capSnaps.find?
        ((fun counter : SnapContext × Nat => decide (counter.2 ≠ 0)) ∘
          fun capsnap => (capsnap.context, capsnap.dirtyPages)) = none := found
    rw [same]
    by_cases some : inode.wrbufferRefHead = 0
    · simp [some]
    · simp [some]

@[simp] theorem lessened_fst (counter : SnapContext × Nat) : (lessened nr snapc counter).1 = counter.1 := by
  unfold lessened
  split <;> rfl

theorem counters_put (ordered : inode.counters.Pairwise fun older newer => older.1.seq < newer.1.seq) :
    (putWrbufferCapRefs nr snapc inode).counters = inode.counters.map (lessened nr snapc) := by
  unfold putWrbufferCapRefs counters
  split
  next head =>
    have apart : ∀ capsnap ∈ inode.capSnaps, capsnap.context ≠ snapc := by
      intro capsnap member same
      have earlier := (List.pairwise_append.mp ordered).2.2 (capsnap.context, capsnap.dirtyPages)
        (mem_map_of_mem member) _ (mem_singleton_self _)
      simp [same, head] at earlier
    have kept : inode.capSnaps.map (fun capsnap => (capsnap.context, capsnap.dirtyPages)) =
        inode.capSnaps.map (lessened nr snapc ∘ fun capsnap => (capsnap.context, capsnap.dirtyPages)) := by
      apply map_congr_left
      intro capsnap member
      simp [lessened, apart capsnap member]
    rw [map_append, map_map, ← kept, map_singleton]
    simp only [lessened, head, if_true]
  next other =>
    have changed : ∀ capsnap : CapSnap,
        ((if capsnap.context = snapc then { capsnap with dirtyPages := capsnap.dirtyPages - nr } else capsnap).context,
          (if capsnap.context = snapc then { capsnap with dirtyPages := capsnap.dirtyPages - nr }
            else capsnap).dirtyPages) = lessened nr snapc (capsnap.context, capsnap.dirtyPages) := by
      intro capsnap
      unfold lessened
      split <;> rfl
    simp only [map_append, map_map, map_cons, map_nil, lessened, other, if_false]
    congr 1
    apply map_congr_left
    intro capsnap _
    exact changed capsnap

theorem counters_put_cleaned (ordered : inode.counters.Pairwise fun older newer => older.1.seq < newer.1.seq) :
    (putWrbufferCapRefs nr snapc (inode.cleaned pages)).counters = inode.counters.map (lessened nr snapc) :=
  counters_put (show (inode.cleaned pages).counters.Pairwise _ from ordered)

@[simp] theorem indices_put : (putWrbufferCapRefs nr snapc inode).indices = inode.indices := by
  unfold putWrbufferCapRefs
  split <;> rfl

@[simp] theorem context_put : (putWrbufferCapRefs nr snapc inode).context = inode.context := by
  unfold putWrbufferCapRefs
  split <;> rfl

@[simp] theorem state_put : (putWrbufferCapRefs nr snapc inode).state = inode.state := by
  unfold putWrbufferCapRefs
  split <;> rfl

@[simp] theorem layout_put : (putWrbufferCapRefs nr snapc inode).layout = inode.layout := by
  unfold putWrbufferCapRefs
  split <;> rfl

theorem countP_mem (nodup : pages.Nodup) {indices : List Nat} (once : indices.Nodup)
    (inside : ∀ page ∈ pages, page ∈ indices) : indices.countP (· ∈ pages) = pages.length := by
  rw [countP_eq_length_filter]
  apply List.Perm.length_eq
  rw [perm_ext_iff_of_nodup (once.filter _) nodup]
  intro page
  simp only [mem_filter, decide_eq_true_eq]
  exact ⟨And.right, fun member => ⟨inside page member, member⟩⟩

theorem countP_parts {whole first second : Nat → Prop} [DecidablePred whole] [DecidablePred first]
    [DecidablePred second] {indices : List Nat}
    (parts : ∀ page, (whole page ↔ first page ∨ second page) ∧ ¬ (first page ∧ second page)) :
    indices.countP whole = indices.countP first + indices.countP second := by
  induction indices with
  | nil => rfl
  | cons page rest ih =>
    obtain ⟨same, apart⟩ := parts page
    simp only [countP_cons, decide_eq_true_eq, ih]
    by_cases isFirst : first page
    · have notSecond : ¬ second page := fun isSecond => apart ⟨isFirst, isSecond⟩
      simp only [same, isFirst, notSecond, or_false, if_true, if_false]
      omega
    · simp only [same, isFirst, false_or, if_false]
      omega

theorem dirtyOf_cleaned (ascending : inode.indices.Pairwise (· < ·)) (nodup : pages.Nodup)
    (inside : ∀ page ∈ pages, page ∈ inode.indices)
    (counted : ∀ page ∈ pages, inode.context page = snapc ∧ inode.state page ≠ .clean) (other : SnapContext) :
    (inode.cleaned pages).dirtyOf other =
      inode.dirtyOf other - if other = snapc then pages.length else 0 := by
  have once : inode.indices.Nodup := ascending.imp fun less => less.ne
  have parts : inode.dirtyOf other =
      inode.indices.countP (fun page => page ∈ pages ∧ other = snapc) + (inode.cleaned pages).dirtyOf other := by
    apply countP_parts
    intro page
    by_cases member : page ∈ pages
    · obtain ⟨context, notClean⟩ := counted page member
      simp [Inode.cleaned, member, context, notClean, eq_comm]
    · simp [Inode.cleaned, member]
  rw [parts]
  by_cases same : other = snapc
  · simp only [same, and_true, if_true]
    rw [countP_mem nodup once inside]
    lia
  · simp [same]

theorem Inode.Counted.restated (counted : inode.Counted) (same : ∀ page, state page = .clean ↔ inode.state page = .clean) :
    Inode.Counted { inode with state := state } where
  ascending := counted.ascending
  ordered := counted.ordered
  counts := by
    intro counter member
    rw [counted.counts counter member]
    unfold dirtyOf
    simp only [ne_eq, same]
  placed := by
    intro page member notClean
    exact counted.placed page member fun clean => notClean ((same page).mpr clean)

theorem Inode.Oldest.restated (oldest : inode.Oldest snapc)
    (same : ∀ page, state page = .clean ↔ inode.state page = .clean) :
    Inode.Oldest { inode with state := state } snapc where
  counter := oldest.counter
  least := by
    intro page member notClean
    exact oldest.least page member fun clean => notClean ((same page).mpr clean)

theorem Inode.Counted.put (counted : inode.Counted) (nodup : pages.Nodup)
    (inside : ∀ page ∈ pages, page ∈ inode.indices)
    (held : ∀ page ∈ pages, inode.context page = snapc ∧ inode.state page ≠ .clean) :
    (putWrbufferCapRefs pages.length snapc (inode.cleaned pages)).Counted where
  ascending := by
    rw [indices_put]
    exact counted.ascending
  ordered := by
    rw [counters_put_cleaned counted.ordered, pairwise_map]
    simpa using counted.ordered
  counts := by
    intro counter member
    rw [counters_put_cleaned counted.ordered, mem_map] at member
    obtain ⟨before, member, rfl⟩ := member
    have counts := counted.counts before member
    have less := dirtyOf_cleaned counted.ascending nodup inside held before.1
    have same : (putWrbufferCapRefs pages.length snapc (inode.cleaned pages)).dirtyOf before.1 =
        (inode.cleaned pages).dirtyOf before.1 := by
      unfold dirtyOf
      rw [indices_put, context_put, state_put]
    rw [lessened_fst, same, less, ← counts]
    unfold lessened
    split <;> rfl
  placed := by
    intro page member notClean
    rw [indices_put] at member
    rw [state_put] at notClean
    rw [context_put, counters_put_cleaned counted.ordered]
    have before : inode.state page ≠ .clean := by
      intro clean
      apply notClean
      unfold Inode.cleaned
      simp only [clean, ite_self]
    obtain ⟨number, counter⟩ := counted.placed page member before
    exact ⟨(lessened _ _ (inode.context page, number)).2, List.mem_map.mpr ⟨_, counter, Prod.ext (lessened_fst _) rfl⟩⟩

theorem Inode.Oldest.put (counted : inode.Counted) {oldest : SnapContext} (first : inode.Oldest oldest) :
    (putWrbufferCapRefs nr snapc (inode.cleaned pages)).Oldest oldest where
  counter := by
    obtain ⟨number, counter⟩ := first.counter
    rw [counters_put_cleaned counted.ordered]
    exact ⟨(lessened nr snapc (oldest, number)).2, List.mem_map.mpr ⟨_, counter, Prod.ext (lessened_fst _) rfl⟩⟩
  least := by
    intro page member notClean
    rw [indices_put] at member
    rw [state_put] at notClean
    rw [context_put]
    apply first.least page member
    intro clean
    apply notClean
    unfold Inode.cleaned
    simp only [clean, ite_self]

theorem Inode.Counted.counter_pos (counted : inode.Counted) {page : Nat} (member : page ∈ inode.indices)
    (notClean : inode.state page ≠ .clean) {number : Nat} (placed : (inode.context page, number) ∈ inode.counters) :
    number ≠ 0 := by
  have counts := counted.counts _ placed
  rw [show number = inode.dirtyOf (inode.context page) from counts]
  unfold dirtyOf
  rw [← Nat.pos_iff_ne_zero, countP_pos_iff]
  exact ⟨page, member, by simpa using notClean⟩

theorem Inode.Counted.clean (counted : inode.Counted) (nothing : (getOldestContext inode).1 = none) {page : Nat}
    (member : page ∈ inode.indices) : inode.state page = .clean := by
  rw [getOldestContext_fst, Option.map_eq_none_iff, find?_eq_none] at nothing
  by_contra notClean
  obtain ⟨number, placed⟩ := counted.placed page member notClean
  have positive := counted.counter_pos member notClean placed
  have zero := nothing _ placed
  simp [positive] at zero

theorem Inode.Counted.oldest (counted : inode.Counted) (first : (getOldestContext inode).1 = some snapc) :
    inode.Oldest snapc := by
  rw [getOldestContext_fst, Option.map_eq_some_iff] at first
  obtain ⟨⟨_, number⟩, found, rfl⟩ := first
  obtain ⟨_, before, after, split, none⟩ := List.find?_eq_some_iff_append.mp found
  refine ⟨⟨number, mem_of_find?_eq_some found⟩, ?_⟩
  intro page member notClean
  obtain ⟨count, placed⟩ := counted.placed page member notClean
  have some := counted.counter_pos member notClean placed
  have ordered := counted.ordered
  rw [split] at placed ordered
  rcases List.mem_append.mp placed with earlier | later
  · have zero := none _ earlier
    simp [some] at zero
  · rcases List.mem_cons.mp later with same | later
    · rw [(Prod.mk.inj same).1]
    · exact (rel_of_pairwise_cons (List.pairwise_append.mp ordered).2.1 later).le

theorem Inode.Oldest.eq (counted : inode.Counted) (oldest : inode.Oldest snapc) {page : Nat} (member : page ∈ inode.indices)
    (notClean : inode.state page ≠ .clean) (notNewer : (inode.context page).seq ≤ snapc.seq) :
    inode.context page = snapc := by
  obtain ⟨number, placed⟩ := counted.placed page member notClean
  obtain ⟨other, counter⟩ := oldest.counter
  have distinct : (inode.counters.map fun counter => counter.1.seq).Nodup := by
    rw [Nodup, pairwise_map]
    exact counted.ordered.imp fun less => less.ne
  have sameSeq := notNewer.antisymm (oldest.least page member notClean)
  exact (Prod.mk.inj (inj_on_of_nodup_map distinct placed counter sameSeq)).1

theorem find_context {capSnaps : List CapSnap} {capsnap : CapSnap}
    (ordered : capSnaps.Pairwise fun older newer => older.context.seq < newer.context.seq) (member : capsnap ∈ capSnaps) :
    capSnaps.find? (·.context = capsnap.context) = some capsnap := by
  induction capSnaps with
  | nil => cases member
  | cons first rest ih =>
    rcases List.mem_cons.mp member with rfl | later
    · simp
    · have less := rel_of_pairwise_cons ordered later
      have different : first.context ≠ capsnap.context := by
        intro same
        rw [same] at less
        exact lt_irrefl _ less
      rw [find?_cons_of_neg (by simpa using different)]
      exact ih ordered.of_cons later

theorem sizeOf_le (counted : inode.Counted) {size : Nat} (oldest : getOldestContext inode = (some snapc, size)) :
    inode.sizeOf snapc ≤ if size = 0 then inode.size else size := by
  have ordered := counted.ordered
  obtain ⟨ofSnaps, -, before⟩ := List.pairwise_append.mp ordered
  rw [pairwise_map] at ofSnaps
  unfold getOldestContext at oldest
  split at oldest
  next capsnap found =>
    cases oldest
    unfold Inode.sizeOf
    rw [find_context ofSnaps (mem_of_find?_eq_some found)]
    split
    next zero => simp [zero]
    next => simp
  next nothing =>
    have size := (Prod.mk.inj oldest).2
    have head := (Prod.mk.inj oldest).1
    split at head
    next =>
      cases head
      have missing : inode.capSnaps.find? (·.context = inode.headSnapc) = none := by
        rw [find?_eq_none]
        intro capsnap member
        have less := before _ (mem_map_of_mem member) _ (mem_singleton_self _)
        intro same
        rw [of_decide_eq_true same] at less
        exact lt_irrefl _ less
      simp [Inode.sizeOf, missing, ← size]
    next => cases head

theorem sizeOf_put (other : SnapContext) :
    (putWrbufferCapRefs nr snapc (inode.cleaned pages)).sizeOf other = inode.sizeOf other := by
  unfold putWrbufferCapRefs
  split
  · rfl
  · have same : ∀ capSnaps : List CapSnap,
        ((capSnaps.map fun capsnap => if capsnap.context = snapc then
          { capsnap with dirtyPages := capsnap.dirtyPages - nr } else capsnap).find? (·.context = other)).map (·.size) =
          (capSnaps.find? (·.context = other)).map (·.size) := by
      intro capSnaps
      induction capSnaps with
      | nil => rfl
      | cons capsnap rest ih =>
        have context : (if capsnap.context = snapc then
            { capsnap with dirtyPages := capsnap.dirtyPages - nr } else capsnap).context = capsnap.context := by
          split <;> rfl
        have size : (if capsnap.context = snapc then
            { capsnap with dirtyPages := capsnap.dirtyPages - nr } else capsnap).size = capsnap.size := by
          split <;> rfl
        rw [map_cons, find?_cons, find?_cons, context]
        split
        · simp [size]
        · exact ih
    exact congrArg (·.getD inode.size) (same inode.capSnaps)

end

end KmodCeph.Writeback
