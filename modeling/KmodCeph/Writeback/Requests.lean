import KmodCeph.Writeback.Batches

namespace KmodCeph.Writeback

open Lib Osdmap List
open Caps (SnapContext)

/-- The request is for pages that are in the extent that was mapped for the first of them. -/
structure Request.WellFormed (req : Request) (ground : Ground) : Prop extends req.Formed ground where
  inside : ∀ page ∈ req.pages, (page + 1) * pageCacheSize ≤ req.offset + req.extent
  object : ∀ page ∈ req.pages, (ground.mapping page).ono = (ground.mapping (req.offset / pageCacheSize)).ono

/-- No batch gets a page that the extent of its first page ends within: this is the last one that there is room for, if
the extent is no multiple of the page size. -/
def Event.Whole : Event → Writepages → Prop
  | .go answer, s => s.label = .visit → ∀ page extent, s.Takes answer page → s.lockedPages ≠ 0 →
      s.req = .made extent → s.lockedPages + 1 = s.maxPages → pageCacheSize ∣ extent
  | _, _ => True

namespace Writepages

/-- Requests are well formed. -/
structure Whole (s : Writepages) : Prop where
  batch : s.label.Assembling → ∀ extent, s.lockedPages ≠ 0 → s.req = .made extent → s.lockedPages * pageCacheSize ≤ extent
  requests : ∀ req ∈ s.requests, req.pages.length * pageCacheSize ≤ req.extent

section

variable {s after : Writepages} {event : Event} {answer : Answer} {page : Nat} {failure : Option Int}

theorem ground_takePage (ran : s.takePage failure page = .ok after) : after.ground = s.ground := by
  rcases takePage_cases ran with ⟨errno, _, _, rfl⟩ | ⟨len, _, _, rfl⟩ | ⟨_, rfl⟩
  · rfl
  · rfl
  · rfl

theorem ground_go (ran : s.go answer = .ok after) : after.ground = s.ground := by
  unfold Writepages.go at ran
  split at ran
  next =>
    cases ran
    unfold Writepages.retry
    dsimp only
    split <;> rfl
  next =>
    cases ran
    unfold Writepages.loop
    split <;> rfl
  next =>
    cases ran
    unfold Writepages.getMorePages
    dsimp only
    split <;> rfl
  next =>
    rcases visit_cases ran with ⟨done, _, rfl⟩ | ⟨page, _, rfl⟩ | ⟨page, _, ran⟩
    · rfl
    · rfl
    · exact ground_takePage ran
  next => rcases collected_cases ran with ⟨_, rfl⟩ | ⟨_, _, rfl⟩ | ⟨_, rfl⟩ <;> rfl
  next =>
    obtain ⟨_, _, _, _, _, _, _, rfl⟩ := submit_cases ran
    rfl
  next =>
    cases ran
    rfl
  next =>
    cases ran
    unfold Writepages.after
    split <;> rfl
  next =>
    obtain ⟨_, rfl⟩ := out_cases ran
    rfl
  next =>
    cases ran
    rfl

theorem ground_run (ran : event.run s = .ok after) : after.ground = s.ground := by
  cases event with
  | go answer => exact ground_go ran
  | finish number =>
    unfold Event.run at ran
    dsimp only at ran
    split at ran
    · split at ran
      · cases ran
        rfl
      · obtain ⟨_, _, ran⟩ := ok_of_bind ran
        cases ran
        exact ground_cleaned
    · cases ran
      rfl
  | written page =>
    cases ran
    unfold Writepages.writtenElsewhere
    split
    · rw [setState_clean]
      exact ground_cleaned
    · rfl

theorem Whole.addPage (whole : s.Whole) (extent : Nat) (isReq : s.req = .made extent)
    (fits : (s.lockedPages + 1) * pageCacheSize ≤ extent) : (s.addPage page).Whole where
  batch := by
    intro _ other _ isOther
    have isOther : s.req = .made other := isOther
    rw [isReq] at isOther
    cases isOther
    exact fits
  requests := whole.requests

theorem fits_of_room {locked extent : Nat} (room : locked < calcPagesFor 0 extent)
    (aligned : locked + 1 = calcPagesFor 0 extent → pageCacheSize ∣ extent) : (locked + 1) * pageCacheSize ≤ extent := by
  rw [Ground.calcPagesFor_zero] at room aligned
  simp only [pageCacheSize] at aligned ⊢
  by_cases last : locked + 1 = (extent + 4095) / 4096
  · have := aligned last
    lia
  · lia

theorem Whole.takePage (whole : s.Whole) (kept : s.Kept) (label : s.label = .visit)
    (meets : (Event.go answer).Whole s) (takes : s.Takes answer page) (ran : s.takePage failure page = .ok after) :
    after.Whole := by
  have batch := kept.batch (label ▸ trivial)
  rcases takePage_cases ran with ⟨errno, nothing, _, rfl⟩ | ⟨len, nothing, made, rfl⟩ | ⟨some, rfl⟩
  · exact { whole with batch := fun _ _ some => absurd nothing some }
  · have known := (kept.found page (mem_of_getElem? takes.found)).1
    have large := (maps_of_newRequest made).page_le kept.sound (kept.sound.indices page known)
    have begun : Whole { s with
        req := .made len
        maxPages := calcPagesFor 0 len } :=
      { whole with batch := fun _ _ some => absurd nothing some }
    apply begun.addPage len rfl
    show (s.lockedPages + 1) * pageCacheSize ≤ len
    rw [nothing]
    omega
  · obtain ⟨extent, isReq, _, maxPages⟩ := batch.request some
    apply whole.addPage extent isReq
    apply fits_of_room (maxPages ▸ takes.room)
    intro last
    exact meets label page extent takes some isReq (last.trans maxPages.symm)

theorem Whole.go (whole : s.Whole) (kept : s.Kept) (meets : (Event.go answer).Whole s) (ran : s.go answer = .ok after) :
    after.Whole := by
  unfold Writepages.go at ran
  split at ran
  next =>
    cases ran
    unfold Writepages.retry
    dsimp only
    split <;> exact { whole with batch := nofun }
  next =>
    cases ran
    unfold Writepages.loop
    split
    · exact { whole with batch := fun _ _ some => absurd rfl some }
    · exact { whole with batch := nofun }
  next label =>
    cases ran
    have batch := whole.batch (label ▸ trivial)
    unfold Writepages.getMorePages
    dsimp only
    split
    · exact { whole with batch := nofun }
    · exact { whole with batch := fun _ => batch }
  next label =>
    have batch := whole.batch (label ▸ trivial)
    rcases visit_cases ran with ⟨done, _, rfl⟩ | ⟨page, _, rfl⟩ | ⟨page, takes, ran⟩
    · exact { whole with batch := fun _ => batch }
    · exact { whole with batch := fun _ => batch }
    · exact whole.takePage kept label meets takes ran
  next label =>
    have batch := whole.batch (label ▸ trivial)
    rcases collected_cases ran with ⟨_, rfl⟩ | ⟨_, _, rfl⟩ | ⟨_, rfl⟩
    · exact { whole with batch := nofun }
    · exact { whole with batch := fun _ => batch }
    · exact { whole with batch := fun _ => batch }
  next label =>
    obtain ⟨page, rest, snapc, extent, _, _, isReq, rfl⟩ := submit_cases ran
    have fits := whole.batch (label ▸ trivial) extent (kept.filled label) isReq
    exact
      { batch := nofun
        requests := by
          intro req member
          rcases List.mem_append.mp member with earlier | new
          · exact whole.requests req earlier
          · rw [List.mem_singleton.mp new]
            show s.pages.length * pageCacheSize ≤ extent
            rw [(kept.batch (label ▸ trivial)).pages, length_range']
            exact fits }
  next =>
    cases ran
    unfold Writepages.releasePvecPages
    split <;> exact { whole with batch := nofun }
  next =>
    cases ran
    unfold Writepages.after
    split <;> exact { whole with batch := nofun }
  next =>
    obtain ⟨_, rfl⟩ := out_cases ran
    exact { whole with batch := nofun }
  next =>
    cases ran
    exact whole

theorem Whole.run (whole : s.Whole) (kept : s.Kept) (meets : event.Whole s) (ran : event.run s = .ok after) :
    after.Whole := by
  cases event with
  | go answer => exact whole.go kept meets ran
  | finish number =>
    unfold Event.run at ran
    dsimp only at ran
    split at ran
    next req sent =>
      split at ran
      · cases ran
        exact whole
      · obtain ⟨_, _, ran⟩ := ok_of_bind ran
        cases ran
        exact { whole with
          requests := by
            intro other member
            rcases mem_or_eq_of_mem_set member with earlier | rfl
            · exact whole.requests other earlier
            · exact whole.requests req (mem_of_getElem? sent) }
    · cases ran
      exact whole
  | written page =>
    cases ran
    unfold Writepages.writtenElsewhere
    split
    · exact { whole with }
    · exact whole

variable {bug : WritepagesBug}

theorem error_of_haltIf {condition : Prop} [Decidable condition] {fault : WritepagesBug} {α : Type}
    {next : Unit → Except WritepagesBug α} (halts : (haltIf condition fault >>= next) = .error bug)
    (passes : ¬ condition) : next () = .error bug := by
  rw [haltIf, if_neg passes] at halts
  exact halts

theorem Kept.takePage_returns (kept : s.Kept) (label : s.label = .visit) : s.takePage failure page ≠ .error bug := by
  have batch := kept.batch (label ▸ trivial)
  intro halts
  unfold Writepages.takePage at halts
  dsimp only at halts
  split at halts
  next nothing =>
    have nothing : s.lockedPages = 0 := nothing
    have none : s.pages = [] := by
      rw [batch.pages, nothing]
      rfl
    have halts := error_of_haltIf halts (not_not.mpr none)
    split at halts
    · cases halts
    · cases halts
  next => cases halts

theorem Kept.visit_returns (kept : s.Kept) (label : s.label = .visit) : s.visit answer ≠ .error bug := by
  intro halts
  unfold Writepages.visit at halts
  split at halts
  · cases halts
  · split at halts
    · unfold Writepages.visitPage at halts
      iterate 6
        split at halts
        · cases halts
      split at halts
      next none => exact kept.scanning (label ▸ trivial) none
      next =>
        split at halts
        · split at halts
          · cases halts
          · cases halts
        · split at halts
          · cases halts
          · exact kept.takePage_returns label halts
    · cases halts

theorem Kept.submit_returns (kept : s.Kept) (whole : s.Whole) (label : s.label = .submit) :
    s.submit ≠ .error bug := by
  have batch := kept.batch (label ▸ trivial)
  have some := kept.filled label
  intro halts
  unfold Writepages.submit at halts
  split at halts
  next page rest snapc extent isPages isSnapc isReq =>
    have fits := whole.batch (label ▸ trivial) extent some isReq
    have halts := error_of_haltIf halts (not_lt.mpr ((min_le_right _ _).trans fits))
    cases halts
  next missing =>
    obtain ⟨extent, isReq, _⟩ := batch.request some
    obtain ⟨snapc, isSnapc⟩ := Option.ne_none_iff_exists'.mp (kept.scanning (label ▸ trivial))
    have pages := batch.pages
    rw [← Nat.succ_pred_eq_of_ne_zero some, range'_succ] at pages
    exact missing _ _ _ _ pages isSnapc isReq

/-- The only fault is that an error pointer is put. -/
theorem Kept.bug_eq (kept : s.Kept) (whole : s.Whole) (halts : event.run s = .error bug) : bug = .errorPointer := by
  cases event with
  | go answer =>
    have halts : s.go answer = .error bug := halts
    unfold Writepages.go at halts
    split at halts
    next => cases halts
    next => cases halts
    next => cases halts
    next label => exact absurd halts (kept.visit_returns label)
    next label =>
      have batch := kept.batch (label ▸ trivial)
      unfold Writepages.collected at halts
      split at halts
      · cases halts
      next some =>
        split at halts
        next moved =>
          have halts := error_of_haltIf halts (batch.first some moved)
          split at halts
          · cases halts
          · cases halts
        next => cases halts
    next label => exact absurd halts (kept.submit_returns whole label)
    next => cases halts
    next => cases halts
    next =>
      unfold Writepages.out at halts
      split at halts
      · cases halts
        rfl
      · cases halts
    next => cases halts
  | finish number =>
    unfold Event.run at halts
    dsimp only at halts
    split at halts
    next req sent =>
      split at halts
      · cases halts
      · have formed := kept.requests req (mem_of_getElem? sent)
        unfold Writepages.writepagesFinish at halts
        rw [formed.numPages] at halts
        have halts := error_of_haltIf halts (lt_irrefl _)
        cases halts
    · cases halts
  | written page => cases halts

end

section

variable {inode : Inode} {wbc : WritebackControl} {wsizeOption writebackIndex : Nat} {s : Writepages}

theorem sound_begin (blkbits : inode.blkbits < 32) (offsets : ∀ page ∈ inode.indices, page < 2 ^ 51) :
    (begin_ inode wbc wsizeOption writebackIndex).ground.Sound where
  wsize := by
    have power : 2 ^ inode.blkbits ≤ 2 ^ 31 := Nat.pow_le_pow_right (by decide) (by omega)
    show pageCacheSize ≤ effectiveWsize _ _ ∧ effectiveWsize _ _ < 2 ^ 32
    refine ⟨le_max_right _ _, max_lt ?_ (by decide)⟩
    split <;> lia
  indices := offsets

theorem kept_begin (counted : inode.Counted) (blkbits : inode.blkbits < 32)
    (offsets : ∀ page ∈ inode.indices, page < 2 ^ 51) : (begin_ inode wbc wsizeOption writebackIndex).Kept where
  counted := counted
  sound := sound_begin blkbits offsets
  cyclic := by
    show wbc.rangeCyclic = Option.isNone (if wbc.rangeCyclic = true then none else some _)
    cases wbc.rangeCyclic <;> rfl
  looping := by
    intro cyclic
    exact if_pos cyclic
  begun := fun _ => le_rfl
  oldest := nofun
  found := nofun
  scanning := nofun
  batch := nofun
  filled := nofun
  requests := nofun
  inFlight := nofun

theorem whole_begin : (begin_ inode wbc wsizeOption writebackIndex).Whole where
  batch := nofun
  requests := nofun

theorem whole_reached (counted : inode.Counted) (blkbits : inode.blkbits < 32)
    (offsets : ∀ page ∈ inode.indices, page < 2 ^ 51)
    (reached : Reached Event.run Event.Whole (begin_ inode wbc wsizeOption writebackIndex) s) :
    s.Kept ∧ s.Whole ∧ s.ground = (begin_ inode wbc wsizeOption writebackIndex).ground := by
  apply reached.preserved
  · rintro event before after meets ⟨kept, whole, ground⟩ ran
    exact ⟨kept_preserved event before after trivial kept ran, whole.run kept meets ran,
      (ground_run ran).trans ground⟩
  · exact ⟨kept_begin counted blkbits offsets, whole_begin, rfl⟩

end

end Writepages

theorem Request.Formed.wellFormed {req : Request} {ground : Ground} (formed : req.Formed ground) (sound : ground.Sound)
    (fits : req.pages.length * pageCacheSize ≤ req.extent) : req.WellFormed ground where
  toFormed := formed
  inside := by
    intro page member
    obtain ⟨first, offset, pages⟩ := formed.consecutive
    rw [pages, mem_range'_1] at member
    rw [offset]
    have most : page + 1 ≤ first + req.pages.length := member.2
    have product := Nat.mul_le_mul_right pageCacheSize most
    rw [add_mul first] at product
    exact product.trans (Nat.add_le_add_left fits _)
  object := by
    intro page member
    have known := (formed.held page member).known
    obtain ⟨first, offset, pages⟩ := formed.consecutive
    have maps := formed.mapped.1
    rw [offset, Nat.mul_div_cancel _ (by decide)] at maps ⊢
    rw [pages, mem_range'_1] at member
    have inside := sound.indices page known
    have begins : page * pageCacheSize < first * pageCacheSize + req.extent := by
      have product := Nat.mul_lt_mul_of_pos_right member.2 (show 0 < pageCacheSize by decide)
      rw [add_mul] at product
      exact product.trans_le (Nat.add_le_add_left fits _)
    exact maps.ono_eq sound (by omega) inside member.1 begins

/-- In every run in which no batch gets a page that is not in the extent of its first page as a whole, all requests are
well formed, none is for pages of a context while one that is older counts dirty pages, and no `BUG_ON` is met. -/
theorem requests_well_formed {inode : Inode} {wbc : WritebackControl} {wsizeOption writebackIndex : Nat}
    (counted : inode.Counted) (blkbits : inode.blkbits < 32) (offsets : ∀ page ∈ inode.indices, page < 2 ^ 51)
    {s : Writepages} (reached : Reached Event.run Event.Whole (.begin_ inode wbc wsizeOption writebackIndex) s) :
    (∀ req ∈ s.requests, req.WellFormed (Writepages.begin_ inode wbc wsizeOption writebackIndex).ground) ∧
      (s.label = .submit → ∀ snapc, s.snapc = some snapc →
        ∀ counter ∈ s.inode.counters, counter.1.seq < snapc.seq → counter.2 = 0) ∧
      ∀ (event : Event) bug, event.run s = .error bug → bug = .errorPointer := by
  obtain ⟨kept, whole, ground⟩ := Writepages.whole_reached counted blkbits offsets reached
  rw [← ground]
  refine ⟨?_, ?_, ?_⟩
  · intro req member
    exact (kept.requests req member).wellFormed kept.sound (whole.requests req member)
  · intro _ snapc isSnapc counter member older
    rw [kept.counted.counts counter member, Inode.dirtyOf, countP_eq_zero]
    intro page known counts
    obtain ⟨context, notClean⟩ := of_decide_eq_true counts
    have least := (kept.oldest snapc isSnapc).least page known notClean
    rw [context] at least
    exact absurd older (not_lt.mpr least)
  · intro event bug halts
    exact kept.bug_eq whole halts

def smallContext : SnapContext where
  addr := 1
  seq := 1

def twoPages : Inode where
  capSnaps := []
  headSnapc := smallContext
  wrbufferRefHead := 2
  size := 8192
  blkbits := 13
  layout :=
    { objectSize := 8192
      stripeUnit := 8192
      stripeCount := 1 }
  indices := [0, 1]
  context := fun _ => smallContext
  state := fun page => if page < 2 then .dirty else .clean

def wholeRange : WritebackControl where
  rangeCyclic := false
  rangeStart := 0
  rangeEnd := 2 ^ 63 - 1
  syncMode := .all
  nrToWrite := 2 ^ 63 - 1

def undisturbed : Event :=
  .go
    { tagged := fun _ => true
      lockFails := false
      gone := false
      writeback := false
      undirtied := false
      request := none }

theorem twoPages_counted : twoPages.Counted where
  ascending := by decide
  ordered := by decide
  counts := by decide
  placed := fun page _ _ => ⟨2, mem_singleton_self _⟩

theorem requests_well_formed_twoPages :
    ∃ s : Writepages, s.requests.map (·.pages) = [[0, 1]] ∧
      ∀ req ∈ s.requests, req.WellFormed (Writepages.begin_ twoPages wholeRange 8192 0).ground := by
  have looked : Reached Event.run Event.Whole (.begin_ twoPages wholeRange 8192 0) _ :=
    ((Reached.start.next undisturbed nofun rfl).next undisturbed nofun rfl).next undisturbed nofun rfl
  have visited := ((looked.next undisturbed (fun _ _ _ _ some => absurd rfl some) rfl).next undisturbed
    (fun _ _ _ _ _ made _ => ReqPtr.made.inj made ▸ ⟨2, rfl⟩) rfl).next undisturbed
    (fun _ _ _ _ _ made _ => ReqPtr.made.inj made ▸ ⟨2, rfl⟩) rfl
  have submitted := (visited.next undisturbed nofun rfl).next undisturbed nofun rfl
  exact ⟨_, rfl, (requests_well_formed twoPages_counted (by decide) (by decide) submitted).1⟩

/-- With a `wsize` of 5000, the first page is mapped to an extent of 5000 bytes, in which there are said to be 2 pages.
Both get into the batch, and the extent would have to grow. -/
theorem extent_grows : twoPages.layout.Accepted ∧
    ∃ s, Reached Event.run (fun _ _ => True) (.begin_ twoPages wholeRange 5000 0) s ∧ s.pages = [0, 1] ∧
      s.req = .made 5000 ∧ undisturbed.run s = .error .extentGrows := by
  have first : Reached Event.run (fun _ _ => True) (.begin_ twoPages wholeRange 5000 0) _ :=
    ((((Reached.start.next undisturbed trivial rfl).next undisturbed trivial rfl).next undisturbed trivial rfl).next
      undisturbed trivial rfl).next undisturbed trivial rfl
  have both := (((((first.next undisturbed trivial rfl).next undisturbed trivial rfl).next undisturbed trivial rfl).next
    undisturbed trivial rfl).next undisturbed trivial rfl)
  exact ⟨by decide, _, both, rfl, rfl, rfl⟩

/-- In every run the pages of a request in flight are under writeback for it, and in no other request in flight. -/
theorem in_flight_apart {inode : Inode} {wbc : WritebackControl} {wsizeOption writebackIndex : Nat}
    (counted : inode.Counted) (blkbits : inode.blkbits < 32) (offsets : ∀ page ∈ inode.indices, page < 2 ^ 51)
    {s : Writepages} (reached : Reached Event.run (fun _ _ => True) (.begin_ inode wbc wsizeOption writebackIndex) s)
    {number : Nat} {req : Request} (submitted : s.requests[number]? = some req) (flying : req.completed = false) :
    ∀ page ∈ req.pages, s.inode.state page = .writeback (some number) ∧
      ∀ (other : Nat) req', s.requests[other]? = some req' → req'.completed = false → page ∈ req'.pages → other = number := by
  have kept := reached.preserved Writepages.kept_preserved (Writepages.kept_begin counted blkbits offsets)
  intro page member
  have state := kept.inFlight number req submitted flying page member
  refine ⟨state, fun other req' submitted' flying' member' => ?_⟩
  have state' := kept.inFlight other req' submitted' flying' page member'
  exact Option.some.inj (PageState.writeback.inj (state'.symm.trans state))

theorem in_flight_apart_twoPages : ∃ s : Writepages, s.requests.map (·.pages) = [[0, 1]] ∧
    s.inode.state 1 = .writeback (some 0) := by
  have looked : Reached Event.run (fun _ _ => True) (.begin_ twoPages wholeRange 8192 0) _ :=
    ((Reached.start.next undisturbed trivial rfl).next undisturbed trivial rfl).next undisturbed trivial rfl
  have visited := ((looked.next undisturbed trivial rfl).next undisturbed trivial rfl).next undisturbed trivial rfl
  have submitted := (visited.next undisturbed trivial rfl).next undisturbed trivial rfl
  have apart := @in_flight_apart _ _ _ _ twoPages_counted (by decide) (by decide) _ submitted 0 _ rfl rfl 1
  exact ⟨_, rfl, (apart (by decide)).1⟩

/-- The entries of the arrays that `create_fs_client` makes `wb_pagevec_pool` for. -/
def poolPages (wsizeOption : Nat) : Nat :=
  if wsizeOption / pageCacheSize ≠ 0 then wsizeOption / pageCacheSize else 1

namespace Writepages

/-- The entries of the array of the batch, which is of the pool where `kmalloc` fails. -/
def arrayEntries (pooled : Nat → Bool) (wsizeOption : Nat) (s : Writepages) : Nat :=
  if pooled s.requests.length then poolPages wsizeOption else s.maxPages

/-- The pages of a batch stand in the array one behind the other. -/
structure Stored (wsize : Nat) (s : Writepages) : Prop where
  same : s.wsize = wsize
  array : s.label.Assembling → s.pages.length = s.lockedPages ∧ s.lockedPages ≤ s.maxPages ∧
    s.maxPages ≤ calcPagesFor 0 wsize

section

variable {wsize page len : Nat} {s after : Writepages} {answer : Answer} {failure : Option Int}

theorem Stored.idle (stored : s.Stored wsize) (same : after.wsize = s.wsize) (idle : ¬ after.label.Assembling) :
    after.Stored wsize :=
  ⟨same.trans stored.same, fun assembling => absurd assembling idle⟩

theorem newRequest_bounds (made : s.newRequest failure page = .ok len) (positive : 0 < s.wsize)
    (small : s.wsize < 2 ^ 64) : 0 < len ∧ len ≤ s.wsize := by
  have maps := maps_of_newRequest made
  have accepted := maps.accepted
  have inUnit := Nat.mod_lt (UInt64.ofNat (page * pageCacheSize)).toNat accepted.stripeUnit_pos
  rw [← maps.2, Ground.mapping, mapping_of_accepted accepted]
  change 0 < (min _ _ : UInt64).toNat ∧ (min _ _ : UInt64).toNat ≤ _
  rw [UInt64.toNat_min, UInt64.toNat_sub_of_le, UInt64.toNat_mod, UInt32.toNat_toUInt64,
    show (UInt64.ofNat s.ground.wsize).toNat = s.wsize from Nat.mod_eq_of_lt small]
  · omega
  · rw [UInt64.le_iff_toNat_le, UInt64.toNat_mod, UInt32.toNat_toUInt64]
    exact inUnit.le

theorem Stored.addPage (stored : s.Stored wsize) (room : s.lockedPages < s.maxPages)
    (made : s.maxPages ≤ calcPagesFor 0 wsize) (array : s.pages.length = s.lockedPages) : (s.addPage page).Stored wsize := by
  refine ⟨stored.same, fun _ => ⟨?_, room, made⟩⟩
  change (s.pages ++ [page]).length = s.lockedPages + 1
  rw [length_append, array]
  rfl

theorem Stored.visit (stored : s.Stored wsize) (label : s.label = .visit) (positive : 0 < wsize) (small : wsize < 2 ^ 64)
    (ran : s.visit answer = .ok after) : after.Stored wsize := by
  have array := stored.array (label ▸ trivial)
  rcases visit_cases ran with ⟨_, _, rfl⟩ | ⟨_, _, rfl⟩ | ⟨page, takes, ran⟩
  · exact ⟨stored.same, fun _ => array⟩
  · exact ⟨stored.same, fun _ => array⟩
  · rcases takePage_cases ran with ⟨_, _, _, rfl⟩ | ⟨len, nothing, made, rfl⟩ | ⟨_, rfl⟩
    · exact ⟨stored.same, fun _ => array⟩
    · obtain ⟨some, most⟩ := newRequest_bounds made (stored.same ▸ positive) (stored.same ▸ small)
      rw [stored.same] at most
      have pages := Ground.calcPagesFor_zero
      refine Stored.addPage ⟨stored.same, fun _ => ⟨array.1, ?_, ?_⟩⟩ ?_ ?_ array.1
      all_goals simp only [pages]; omega
    · exact stored.addPage takes.room array.2.2 array.1

theorem Stored.run (positive : 0 < wsize) (small : wsize < 2 ^ 64) :
    Preserves Event.run (fun _ _ => True) (Stored wsize) := by
  rintro (answer | number | page) before after - stored ran
  · change before.go answer = .ok after at ran
    unfold Writepages.go at ran
    split at ran
    next label =>
      cases ran
      unfold Writepages.retry
      dsimp only
      split <;> exact stored.idle rfl id
    next label =>
      cases ran
      unfold Writepages.loop
      split
      · refine ⟨stored.same, fun _ => ⟨rfl, Nat.zero_le _, ?_⟩⟩
        change before.wsize / pageCacheSize ≤ _
        rw [stored.same, Ground.calcPagesFor_zero, pageCacheSize]
        omega
      · exact stored.idle rfl id
    next label =>
      cases ran
      have array := stored.array (label ▸ trivial)
      unfold Writepages.getMorePages
      dsimp only
      split
      · exact stored.idle rfl id
      · exact ⟨stored.same, fun _ => array⟩
    next label => exact stored.visit label positive small ran
    next label =>
      have array := stored.array (label ▸ trivial)
      rcases collected_cases ran with ⟨_, rfl⟩ | ⟨_, _, rfl⟩ | ⟨_, rfl⟩
      · exact stored.idle rfl id
      · exact ⟨stored.same, fun _ => array⟩
      · exact ⟨stored.same, fun _ => array⟩
    next label =>
      obtain ⟨_, _, _, _, _, _, _, rfl⟩ := submit_cases ran
      exact stored.idle rfl id
    next label =>
      cases ran
      unfold Writepages.releasePvecPages
      refine stored.idle rfl ?_
      dsimp only
      split <;> exact id
    next label =>
      cases ran
      unfold Writepages.after
      split <;> exact stored.idle rfl id
    next label =>
      obtain ⟨_, rfl⟩ := out_cases ran
      exact stored.idle rfl id
    next label =>
      cases ran
      exact stored
  · unfold Event.run at ran
    dsimp only at ran
    split at ran
    · split at ran
      · cases ran
        exact stored
      · obtain ⟨_, _, ran⟩ := ok_of_bind ran
        cases ran
        exact ⟨stored.same, stored.array⟩
    · cases ran
      exact stored
  · cases ran
    unfold Writepages.writtenElsewhere
    split
    · exact ⟨stored.same, stored.array⟩
    · exact stored

end

end Writepages

/-- In every run the pages of a batch fit its array, if the arrays of the pool are large enough for the batches of the
inode or none is used. -/
theorem page_array_fits {inode : Inode} {wbc : WritebackControl} {wsizeOption writebackIndex : Nat}
    (blkbits : inode.blkbits < 32) {pooled : Nat → Bool} (large : ∀ number, pooled number = true →
      calcPagesFor 0 (effectiveWsize inode.blkbits wsizeOption) ≤ poolPages wsizeOption)
    {s : Writepages} (reached : Reached Event.run (fun _ _ => True) (.begin_ inode wbc wsizeOption writebackIndex) s)
    (assembling : s.label.Assembling) : s.pages.length ≤ s.arrayEntries pooled wsizeOption := by
  have positive : 0 < effectiveWsize inode.blkbits wsizeOption := lt_max_of_lt_right (by decide)
  have small : effectiveWsize inode.blkbits wsizeOption < 2 ^ 64 := by
    have power : 2 ^ inode.blkbits ≤ 2 ^ 31 := Nat.pow_le_pow_right (by decide) (by omega)
    unfold effectiveWsize pageCacheSize
    split <;> omega
  have stored := reached.preserved (Writepages.Stored.run positive small) ⟨rfl, fun assembling => absurd assembling id⟩
  obtain ⟨length, room, most⟩ := stored.array assembling
  rw [length]
  unfold Writepages.arrayEntries
  split
  next fromPool => exact (room.trans most).trans (large _ fromPool)
  next => exact room

theorem page_array_fits_twoPages : ∃ s : Writepages, s.pages = [0, 1] ∧ 2 ≤ s.arrayEntries (fun _ => true) 8192 := by
  have looked : Reached Event.run (fun _ _ => True) (.begin_ twoPages wholeRange 8192 0) _ :=
    ((Reached.start.next undisturbed trivial rfl).next undisturbed trivial rfl).next undisturbed trivial rfl
  have visited := (looked.next undisturbed trivial rfl).next undisturbed trivial rfl
  exact ⟨_, rfl, page_array_fits (by decide) (fun _ _ => by decide) visited trivial⟩

/-- With no `wsize` the pool has arrays for one page, and blocks of 8 KiB give batches of two. -/
theorem page_array_overrun : twoPages.layout.Accepted ∧ ∃ s : Writepages,
    Reached Event.run (fun _ _ => True) (.begin_ twoPages wholeRange 0 0) s ∧ s.label.Assembling ∧
      s.arrayEntries (fun _ => true) 0 = 1 ∧ s.pages = [0, 1] := by
  have looked : Reached Event.run (fun _ _ => True) (.begin_ twoPages wholeRange 0 0) _ :=
    ((Reached.start.next undisturbed trivial rfl).next undisturbed trivial rfl).next undisturbed trivial rfl
  have visited := (looked.next undisturbed trivial rfl).next undisturbed trivial rfl
  exact ⟨by decide, _, visited, trivial, rfl, rfl⟩

end KmodCeph.Writeback
