import KmodCeph.Lib.Reached
import KmodCeph.Writeback.Counters
import KmodCeph.Writeback.Extents

namespace KmodCeph.Writeback

open Lib Osdmap Function List Nat
open Caps (SnapContext)

namespace Writepages

def ground (s : Writepages) : Ground where
  layout := s.inode.layout
  indices := s.inode.indices
  context := s.inode.context
  sizeOf := s.inode.sizeOf
  wsize := s.wsize
  start := s.start
  last := s.last

structure Takes (answer : Answer) (page : Nat) (s : Writepages) : Prop where
  found : s.pvec[s.i]? = some page
  room : s.lockedPages < s.maxPages
  locked : ¬ (s.lockedPages ≠ 0 ∧ answer.lockFails = true)
  dirty : s.inode.state page = .dirty
  here : answer.gone = false
  inRange : ¬ (s.wbc.rangeCyclic = false ∧ s.past page)
  consecutive : s.next ≠ 0 → page = s.next
  below : page * pageCacheSize < s.snapSize
  written : ¬ (s.wbc.syncMode = .none ∧ answer.writeback = true)
  notNewer : ∃ snapc, s.snapc = some snapc ∧ (s.inode.context page).seq ≤ snapc.seq
  still : answer.undirtied = false

/-- The page is of a context that is newer than the oldest one, and nothing is in the batch. -/
structure Skips (page : Nat) (s : Writepages) : Prop where
  found : s.pvec[s.i]? = some page
  nothing : s.lockedPages = 0
  newer : ∃ snapc, s.snapc = some snapc ∧ snapc.seq < (s.inode.context page).seq

/-- Why the `for` loop ends, and whether this ends the pass. -/
inductive Ends (answer : Answer) (s : Writepages) : Bool → Prop where
  | noMore (none : s.pvec[s.i]? = none) : Ends answer s s.done
  | full (full : s.maxPages ≤ s.lockedPages) : Ends answer s s.done
  | lockFails (some : s.lockedPages ≠ 0) : Ends answer s s.done
  | notDirty (page : Nat) (found : s.pvec[s.i]? = some page)
      (notDirty : s.inode.state page ≠ .dirty ∨ answer.gone = true) : Ends answer s s.done
  | past (page : Nat) (found : s.pvec[s.i]? = some page) (acyclic : s.wbc.rangeCyclic = false)
      (past : s.past page = true) : Ends answer s true
  | gap (page : Nat) (found : s.pvec[s.i]? = some page) (gap : s.next ≠ 0 ∧ page ≠ s.next) : Ends answer s s.done
  | eof (page : Nat) (found : s.pvec[s.i]? = some page) (eof : s.snapSize ≤ page * pageCacheSize) : Ends answer s true
  | writeback (async : s.wbc.syncMode = .none) : Ends answer s s.done
  | newer (some : s.lockedPages ≠ 0) : Ends answer s s.done
  | undirtied (undirtied : answer.undirtied = true) : Ends answer s s.done

section

variable {s after : Writepages} {answer : Answer} {page : Nat} {failure : Option Int}

theorem visit_cases (ran : s.visit answer = .ok after) :
    (∃ done, s.Ends answer done ∧ after = { s with
        done := done
        label := .collected }) ∨
      (∃ page, s.Skips page ∧ after = { s with i := s.i + 1 }) ∨
      ∃ page, s.Takes answer page ∧ s.takePage answer.request page = .ok after := by
  unfold visit at ran
  split at ran
  next none =>
    cases ran
    exact .inl ⟨_, .noMore none, rfl⟩
  next page found =>
    split at ran
    next room =>
      unfold visitPage at ran
      split at ran
      next fails =>
        cases ran
        exact .inl ⟨_, .lockFails fails.1, rfl⟩
      next locked =>
        split at ran
        next notDirty =>
          cases ran
          exact .inl ⟨_, .notDirty page found notDirty, rfl⟩
        next dirty =>
          split at ran
          next past =>
            cases ran
            exact .inl ⟨_, .past page found (by simpa using past.1) past.2, rfl⟩
          next inRange =>
            split at ran
            next gap =>
              cases ran
              exact .inl ⟨_, .gap page found gap, rfl⟩
            next consecutive =>
              split at ran
              next eof =>
                cases ran
                exact .inl ⟨_, .eof page found eof, rfl⟩
              next below =>
                split at ran
                next writeback =>
                  cases ran
                  exact .inl ⟨_, .writeback writeback.1, rfl⟩
                next written =>
                  split at ran
                  next => cases ran
                  next snapc isSnapc =>
                    split at ran
                    next newer =>
                      split at ran
                      next nothing =>
                        cases ran
                        exact .inr (.inl ⟨page, ⟨found, nothing, snapc, isSnapc, newer⟩, rfl⟩)
                      next some =>
                        cases ran
                        exact .inl ⟨_, .newer some, rfl⟩
                    next notNewer =>
                      split at ran
                      next undirtied =>
                        cases ran
                        exact .inl ⟨_, .undirtied undirtied, rfl⟩
                      next still =>
                        refine .inr (.inr ⟨page, ?_, ran⟩)
                        exact
                          { found := found
                            room := room
                            locked := locked
                            dirty := by
                              by_contra notDirty
                              exact dirty (.inl notDirty)
                            here := by
                              by_contra gone
                              exact dirty (.inr (by simpa using gone))
                            inRange := by
                              intro past
                              exact inRange ⟨by simp [past.1], past.2⟩
                            consecutive := by
                              intro some
                              by_contra gap
                              exact consecutive ⟨some, gap⟩
                            below := not_le.mp below
                            written := written
                            notNewer := ⟨snapc, isSnapc, not_lt.mp notNewer⟩
                            still := by simpa using still }
    next full =>
      cases ran
      exact .inl ⟨_, .full (not_lt.mp full), rfl⟩

theorem takePage_cases (ran : s.takePage failure page = .ok after) :
    (∃ errno, s.lockedPages = 0 ∧ s.newRequest failure page = .error errno ∧
        after = { s.setState page .cleared with
          rc := errno
          req := .err errno
          label := .collected }) ∨
      (∃ len, s.lockedPages = 0 ∧ s.newRequest failure page = .ok len ∧
        after = { s with
          req := .made len
          maxPages := calcPagesFor 0 len }.addPage page) ∨
      s.lockedPages ≠ 0 ∧ after = s.addPage page := by
  have same : ∀ s : Writepages, (s.setState page .cleared).addPage page = s.addPage page := by
    intro s
    simp [addPage, setState]
  unfold takePage at ran
  dsimp only at ran
  split at ran
  next nothing =>
    obtain ⟨_, _, ran⟩ := ok_of_bind ran
    split at ran
    next errno failed =>
      cases ran
      exact .inl ⟨errno, nothing, failed, rfl⟩
    next len made =>
      cases ran
      refine .inr (.inl ⟨len, nothing, made, ?_⟩)
      exact same { s with
        req := .made len
        maxPages := calcPagesFor 0 len }
  next some =>
    cases ran
    exact .inr (.inr ⟨some, same s⟩)

theorem collected_cases (ran : s.collected = .ok after) :
    s.lockedPages = 0 ∧ after = { s with label := .releasePvecPages } ∨
      s.lockedPages ≠ 0 ∧ s.i = s.pvec.length ∧ after = { s with label := .getMorePages } ∨
      s.lockedPages ≠ 0 ∧ after = { s with label := .submit } := by
  unfold collected at ran
  split at ran
  next nothing =>
    cases ran
    exact .inl ⟨nothing, rfl⟩
  next some =>
    split at ran
    · obtain ⟨_, _, ran⟩ := ok_of_bind ran
      split at ran
      next more =>
        cases ran
        exact .inr (.inl ⟨some, more.2.1, rfl⟩)
      next =>
        cases ran
        exact .inr (.inr ⟨some, rfl⟩)
    · cases ran
      exact .inr (.inr ⟨some, rfl⟩)

def submitted (page : Nat) (snapc : SnapContext) (extent : Nat) (s : Writepages) : Writepages :=
  { s with
    requests := s.requests ++ [{ snapc := snapc
                                 snapSize := s.snapSize
                                 offset := page * pageCacheSize
                                 len := min (s.snapSize - page * pageCacheSize) (s.lockedPages * pageCacheSize)
                                 pages := s.pages
                                 maxPages := s.maxPages
                                 extent := extent
                                 completed := false }]
    rc := 0
    req := .null
    pages := []
    index := s.next
    wbc := { s.wbc with nrToWrite := s.wbc.nrToWrite - s.lockedPages }
    done := s.done || decide (s.wbc.nrToWrite - s.lockedPages ≤ 0)
    label := .releasePvecPages }

theorem submit_cases (ran : s.submit = .ok after) : ∃ page rest snapc extent, s.pages = page :: rest ∧
    s.snapc = some snapc ∧ s.req = .made extent ∧ after = s.submitted page snapc extent := by
  unfold submit at ran
  split at ran
  next page rest snapc extent isPages isSnapc isReq =>
    obtain ⟨_, _, ran⟩ := ok_of_bind ran
    cases ran
    exact ⟨page, rest, snapc, extent, isPages, isSnapc, isReq, rfl⟩
  next => cases ran

theorem out_cases (ran : s.out = .ok after) : (∀ errno, s.req ≠ .err errno) ∧ after = { s with
    req := .null
    label := .returned } := by
  unfold out at ran
  split at ran
  next => cases ran
  next notErr =>
    cases ran
    exact ⟨notErr, rfl⟩

end

end Writepages

structure Ground.Holds (ground : Ground) (snapc : SnapContext) (snapSize page : Nat) : Prop where
  known : page ∈ ground.indices
  context : ground.context page = snapc
  below : page * pageCacheSize < snapSize
  inRange : ground.InRange page

/-- The pages of the batch follow each other, and the request is made for the first of them. -/
structure Writepages.Batch (s : Writepages) : Prop where
  pages : s.pages = range' (s.next - s.lockedPages) s.lockedPages
  most : s.lockedPages ≤ s.next ∧ s.lockedPages ≤ s.maxPages
  held : ∀ snapc, s.snapc = some snapc → ∀ page ∈ s.pages, s.ground.Holds snapc s.snapSize page
  state : ∀ page ∈ s.pages, s.inode.state page = .writeback (some s.requests.length)
  request : s.lockedPages ≠ 0 → ∃ extent, s.req = .made extent ∧
    s.ground.Maps (s.next - s.lockedPages) extent ∧ s.maxPages = calcPagesFor 0 extent
  first : s.lockedPages ≠ 0 → s.i ≠ 0 → s.first ≠ none

structure Request.Formed (req : Request) (ground : Ground) : Prop where
  consecutive : ∃ first, req.offset = first * pageCacheSize ∧ req.pages = range' first req.pages.length
  count : 1 ≤ req.pages.length ∧ req.pages.length ≤ req.maxPages
  held : ∀ page ∈ req.pages, ground.Holds req.snapc req.snapSize page
  len : req.len = min (req.snapSize - req.offset) (req.pages.length * pageCacheSize) ∧ 0 < req.len
  numPages : calcPagesFor 0 req.len = req.pages.length
  mapped : ground.Maps (req.offset / pageCacheSize) req.extent ∧ req.maxPages = calcPagesFor 0 req.extent

def Label.Assembling : Label → Prop
  | .getMorePages | .visit | .collected | .submit => True
  | _ => False

def Label.Scanning : Label → Prop
  | .retry | .after | .out | .returned => False
  | _ => True

namespace Writepages

structure Kept (s : Writepages) : Prop where
  counted : s.inode.Counted
  sound : s.ground.Sound
  cyclic : s.wbc.rangeCyclic = s.last.isNone
  looping : s.shouldLoop = true → s.last = none
  begun : s.last ≠ none → s.start ≤ s.index
  oldest : ∀ snapc, s.snapc = some snapc → s.inode.Oldest snapc
  found : ∀ page ∈ s.pvec, page ∈ s.inode.indices ∧ (s.last ≠ none → s.start ≤ page)
  scanning : s.label.Scanning → s.snapc ≠ none
  batch : s.label.Assembling → s.Batch
  filled : s.label = .submit → s.lockedPages ≠ 0
  requests : ∀ req ∈ s.requests, req.Formed s.ground
  inFlight : ∀ (number : Nat) req, s.requests[number]? = some req → req.completed = false →
    ∀ page ∈ req.pages, s.inode.state page = .writeback (some number)

theorem Kept.after {s : Writepages} (kept : s.Kept) : s.after.Kept := by
  unfold Writepages.after
  split
  next loops =>
    exact { kept with
      looping := nofun
      begun := fun bounded => absurd (kept.looping loops.1) bounded
      scanning := nofun
      batch := nofun
      filled := nofun }
  · exact { kept with
      scanning := nofun
      batch := nofun
      filled := nofun }

section

variable {s after : Writepages} {answer : Answer} {page : Nat} {failure : Option Int}

theorem Kept.retry (kept : s.Kept) : s.retry.Kept := by
  unfold Writepages.retry
  dsimp only
  split
  next none =>
    exact { kept with
      oldest := nofun
      scanning := nofun
      batch := nofun
      filled := nofun }
  next snapc first =>
    exact { kept with
      begun := by
        intro bounded
        split
        · exact le_rfl
        · exact kept.begun bounded
      oldest := by
        intro snapc same
        cases same
        exact kept.counted.oldest first
      scanning := nofun
      batch := nofun
      filled := nofun }

theorem Kept.loop (kept : s.Kept) (label : s.label = .loop) : s.loop.Kept := by
  have scanning := kept.scanning (label ▸ trivial)
  unfold Writepages.loop
  split
  · exact { kept with
      scanning := fun _ => scanning
      batch := fun _ =>
        { pages := rfl
          most := ⟨le_rfl, zero_le _⟩
          held := nofun
          state := nofun
          request := fun some => absurd rfl some
          first := fun some => absurd rfl some }
      filled := nofun }
  · exact { kept with
      scanning := nofun
      batch := nofun
      filled := nofun }

theorem mem_lookup {tagged : Nat → Bool} (found : page ∈ s.lookup tagged) :
    page ∈ s.inode.indices ∧ s.index ≤ page ∧ tagged page = true := by
  have member := List.mem_filter.mp (mem_of_mem_take found)
  exact ⟨member.1, by simpa using member.2⟩

theorem index_le_next (tagged : Nat → Bool) {next : Nat}
    (some_ : ∀ page, (s.lookup tagged).getLast? = some page → next = page + 1)
    (none_ : (s.lookup tagged).getLast? = none → next = s.index) : s.index ≤ next := by
  cases last : (s.lookup tagged).getLast? with
  | some page =>
    have ahead := (mem_lookup (mem_of_getLast? last)).2.1
    have := some_ page last
    omega
  | none => exact (none_ last).ge

theorem Kept.getMorePages (kept : s.Kept) (label : s.label = .getMorePages) (tagged : Nat → Bool) :
    (s.getMorePages tagged).Kept := by
  have scanning := kept.scanning (label ▸ trivial)
  have batch := kept.batch (label ▸ trivial)
  have found : ∀ page ∈ s.lookup tagged, page ∈ s.inode.indices ∧ (s.last ≠ none → s.start ≤ page) := by
    intro page member
    have ahead := mem_lookup member
    exact ⟨ahead.1, fun bounded => (kept.begun bounded).trans ahead.2.1⟩
  unfold Writepages.getMorePages
  dsimp only
  split
  · exact { kept with
      begun := fun bounded => (kept.begun bounded).trans (index_le_next tagged (by simp +contextual) (by simp +contextual))
      found := found
      scanning := fun h => by cases h
      batch := fun h => by cases h
      filled := by simp }
  · exact { kept with
      begun := fun bounded => (kept.begun bounded).trans (index_le_next tagged (by simp +contextual) (by simp +contextual))
      found := found
      scanning := fun _ => scanning
      batch := fun _ => { batch with first := fun _ some => absurd rfl some }
      filled := by simp }

theorem update_eq_clean {state : Nat → PageState} {value : PageState} (before : state page ≠ .clean)
    (now : value ≠ .clean) (other : Nat) : update state page value other = .clean ↔ state other = .clean := by
  by_cases same : other = page
  · subst same
    simp [before, now]
  · rw [update_of_ne same]

theorem ne_of_dirty (dirty : s.inode.state page = .dirty) {other : Nat} {number : Option Nat}
    (state : s.inode.state other = .writeback number) : other ≠ page := by
  rintro rfl
  rw [dirty] at state
  cases state

theorem Kept.cleared (kept : s.Kept) (label : s.label = .visit) (dirty : s.inode.state page = .dirty)
    (nothing : s.lockedPages = 0) (errno : Int) :
    Kept { s.setState page .cleared with
      rc := errno
      req := .err errno
      label := .collected } := by
  have batch := kept.batch (label ▸ trivial)
  have same : ∀ other, update s.inode.state page .cleared other = .clean ↔ s.inode.state other = .clean :=
    update_eq_clean (by simp [dirty]) nofun
  have none : s.pages = [] := by
    rw [batch.pages, nothing]
    rfl
  exact { kept with
    counted := kept.counted.restated same
    oldest := fun snapc isSnapc => (kept.oldest snapc isSnapc).restated same
    scanning := fun _ => kept.scanning (label ▸ trivial)
    batch := fun _ => { batch with
      state := by
        intro other member
        have member : other ∈ s.pages := member
        rw [none] at member
        cases member
      request := fun some => absurd nothing some }
    filled := nofun
    inFlight := by
      intro number req sent completed other member
      have state := kept.inFlight number req sent completed other member
      exact (update_of_ne (ne_of_dirty dirty state) _ _).trans state }

theorem Kept.holds (kept : s.Kept) (takes : s.Takes answer page) {snapc : SnapContext} (isSnapc : s.snapc = some snapc) :
    s.ground.Holds snapc s.snapSize page := by
  obtain ⟨known, begun⟩ := kept.found page (mem_of_getElem? takes.found)
  obtain ⟨other, isOther, notNewer⟩ := takes.notNewer
  rw [isSnapc] at isOther
  cases isOther
  refine ⟨known, ?_, takes.below, ?_⟩
  · apply (kept.oldest snapc isSnapc).eq kept.counted known _ notNewer
    rw [takes.dirty]
    exact nofun
  · intro last bound
    have bound : s.last = some last := bound
    refine ⟨begun (by simp [bound]), ?_⟩
    by_contra past
    apply takes.inRange
    refine ⟨by simp [kept.cyclic, bound], ?_⟩
    simp only [Writepages.past, bound, Option.any_some, decide_eq_true_eq]
    omega

theorem Kept.addPage (kept : s.Kept) (label : s.label = .visit) (dirty : s.inode.state page = .dirty)
    (holds : ∀ snapc, s.snapc = some snapc → s.ground.Holds snapc s.snapSize page)
    (room : s.lockedPages < s.maxPages) (consecutive : s.lockedPages ≠ 0 → page = s.next)
    (request : ∃ extent, s.req = .made extent ∧ s.ground.Maps (page - s.lockedPages) extent ∧
      s.maxPages = calcPagesFor 0 extent) : (s.addPage page).Kept := by
  have batch := kept.batch (label ▸ trivial)
  have same : ∀ other, update s.inode.state page (.writeback (some s.requests.length)) other = .clean ↔
      s.inode.state other = .clean :=
    update_eq_clean (by simp [dirty]) nofun
  have pages : s.pages = range' (page - s.lockedPages) s.lockedPages := by
    by_cases nothing : s.lockedPages = 0
    · rw [batch.pages, nothing]
      rfl
    · rw [batch.pages, consecutive nothing]
  have most : s.lockedPages ≤ page := by
    by_cases nothing : s.lockedPages = 0
    · omega
    · rw [consecutive nothing]
      exact batch.most.1
  have first : page + 1 - (s.lockedPages + 1) = page - s.lockedPages := by lia
  exact { kept with
    counted := kept.counted.restated same
    oldest := fun snapc isSnapc => (kept.oldest snapc isSnapc).restated same
    scanning := kept.scanning
    batch := fun _ =>
      { pages := by
          show s.pages ++ [page] = range' (page + 1 - (s.lockedPages + 1)) (s.lockedPages + 1)
          rw [first, range'_1_concat, Nat.sub_add_cancel most, pages]
        most := ⟨succ_le_succ most, room⟩
        held := by
          intro snapc isSnapc other member
          rcases List.mem_append.mp member with earlier | new
          · exact batch.held snapc isSnapc other earlier
          · rw [List.mem_singleton.mp new]
            exact holds snapc isSnapc
        state := by
          intro other member
          rcases List.mem_append.mp member with earlier | new
          · have state := batch.state other earlier
            exact (update_of_ne (ne_of_dirty dirty state) _ _).trans state
          · rw [List.mem_singleton.mp new]
            exact update_self _ _ _
        request := by
          intro _
          show ∃ extent, s.req = .made extent ∧ s.ground.Maps (page + 1 - (s.lockedPages + 1)) extent ∧ _
          rw [first]
          exact request
        first := by
          intro _ _
          show s.first.or (some s.i) ≠ none
          simp }
    filled := fun submits => absurd (label.symm.trans submits) nofun
    inFlight := by
      intro number req sent completed other member
      have state := kept.inFlight number req sent completed other member
      exact (update_of_ne (ne_of_dirty dirty state) _ _).trans state }

theorem maps_of_newRequest {len : Nat} (made : s.newRequest failure page = .ok len) : s.ground.Maps page len := by
  unfold newRequest at made
  split at made
  · cases made
  · dsimp only at made
    split at made
    · cases made
    next ok =>
      cases made
      exact ⟨not_lt.mp ok, rfl⟩

theorem Kept.takePage (kept : s.Kept) (label : s.label = .visit) (takes : s.Takes answer page)
    (ran : s.takePage failure page = .ok after) : after.Kept := by
  have batch := kept.batch (label ▸ trivial)
  rcases takePage_cases ran with ⟨errno, nothing, _, rfl⟩ | ⟨len, nothing, made, rfl⟩ | ⟨some, rfl⟩
  · exact kept.cleared label takes.dirty nothing errno
  · have maps := maps_of_newRequest made
    have known := (kept.found page (mem_of_getElem? takes.found)).1
    have large := maps.page_le kept.sound (kept.sound.indices page known)
    have begun : Kept { s with
        req := .made len
        maxPages := calcPagesFor 0 len } :=
      { kept with
        batch := fun assembling => { batch with
          most := ⟨batch.most.1, by simp [nothing]⟩
          request := fun some => absurd nothing some } }
    refine begun.addPage label takes.dirty (fun snapc isSnapc => kept.holds takes isSnapc) ?_ ?_ ?_
    · show s.lockedPages < calcPagesFor 0 len
      rw [nothing, Ground.calcPagesFor_zero]
      simp only [pageCacheSize] at large
      omega
    · exact fun some => absurd nothing some
    · refine ⟨len, rfl, ?_, rfl⟩
      show s.ground.Maps (page - s.lockedPages) len
      rw [nothing]
      exact maps
  · have consecutive : page = s.next := by
      apply takes.consecutive
      have := batch.most.1
      omega
    apply kept.addPage label takes.dirty (fun snapc isSnapc => kept.holds takes isSnapc) takes.room
    · exact fun _ => consecutive
    · rw [consecutive]
      exact batch.request some

theorem Kept.visit (kept : s.Kept) (label : s.label = .visit) (ran : s.visit answer = .ok after) : after.Kept := by
  have batch := kept.batch (label ▸ trivial)
  rcases visit_cases ran with ⟨done, _, rfl⟩ | ⟨page, skips, rfl⟩ | ⟨page, takes, ran⟩
  · exact { kept with
      scanning := fun _ => kept.scanning (label ▸ trivial)
      batch := fun _ => { batch with }
      filled := nofun }
  · exact { kept with
      batch := fun _ => { batch with first := fun some => absurd skips.nothing some } }
  · exact kept.takePage label takes ran

theorem Kept.collected (kept : s.Kept) (label : s.label = .collected) (ran : s.collected = .ok after) : after.Kept := by
  have batch := kept.batch (label ▸ trivial)
  have scanning := kept.scanning (label ▸ trivial)
  rcases collected_cases ran with ⟨_, rfl⟩ | ⟨_, _, rfl⟩ | ⟨some, rfl⟩
  · exact { kept with
      scanning := fun _ => scanning
      batch := nofun
      filled := nofun }
  · exact { kept with
      scanning := fun _ => scanning
      batch := fun _ => { batch with }
      filled := nofun }
  · exact { kept with
      scanning := fun _ => scanning
      batch := fun _ => { batch with }
      filled := fun _ => some }

theorem Kept.releasePvecPages (kept : s.Kept) (label : s.label = .releasePvecPages) : s.releasePvecPages.Kept := by
  have scanning := kept.scanning (label ▸ trivial)
  unfold Writepages.releasePvecPages
  split
  · exact { kept with
      scanning := nofun
      batch := nofun
      filled := nofun }
  · exact { kept with
      scanning := fun _ => scanning
      batch := nofun
      filled := nofun }

theorem Kept.out (kept : s.Kept) (ran : s.out = .ok after) : after.Kept := by
  obtain ⟨_, rfl⟩ := out_cases ran
  exact { kept with
    scanning := nofun
    batch := nofun
    filled := nofun }

theorem calcPagesFor_min {first count snapSize : Nat} (some : 0 < count)
    (below : (first + count - 1) * pageCacheSize < snapSize) :
    0 < min (snapSize - first * pageCacheSize) (count * pageCacheSize) ∧
      calcPagesFor 0 (min (snapSize - first * pageCacheSize) (count * pageCacheSize)) = count := by
  rw [Ground.calcPagesFor_zero]
  simp only [pageCacheSize] at below ⊢
  lia

theorem Batch.formed (batch : s.Batch) {snapc : SnapContext} (isSnapc : s.snapc = some snapc) {extent : Nat}
    (made : s.req = .made extent) (some : s.lockedPages ≠ 0) :
    Request.Formed
      { snapc := snapc
        snapSize := s.snapSize
        offset := (s.next - s.lockedPages) * pageCacheSize
        len := min (s.snapSize - (s.next - s.lockedPages) * pageCacheSize) (s.lockedPages * pageCacheSize)
        pages := s.pages
        maxPages := s.maxPages
        extent := extent
        completed := false } s.ground := by
  have count : s.pages.length = s.lockedPages := by rw [batch.pages, length_range']
  have last : (s.next - s.lockedPages) + s.lockedPages - 1 ∈ s.pages := by
    rw [batch.pages, mem_range'_1]
    lia
  obtain ⟨positive, numPages⟩ := calcPagesFor_min (Nat.pos_of_ne_zero some) (batch.held snapc isSnapc _ last).below
  obtain ⟨_, isReq, maps, maxPages⟩ := batch.request some
  rw [made] at isReq
  cases isReq
  exact
    { consecutive := ⟨s.next - s.lockedPages, rfl, by rw [count]; exact batch.pages⟩
      count := by
        rw [count]
        exact ⟨Nat.pos_of_ne_zero some, batch.most.2⟩
      held := batch.held snapc isSnapc
      len := by
        rw [count]
        exact ⟨rfl, positive⟩
      numPages := by
        rw [count]
        exact numPages
      mapped := by
        rw [Nat.mul_div_cancel _ (by decide)]
        exact ⟨maps, maxPages⟩ }

theorem Kept.submit (kept : s.Kept) (label : s.label = .submit) (ran : s.submit = .ok after) : after.Kept := by
  have batch := kept.batch (label ▸ trivial)
  have some := kept.filled label
  obtain ⟨page, rest, snapc, extent, isPages, isSnapc, isReq, rfl⟩ := submit_cases ran
  have first : page = s.next - s.lockedPages := by
    have pages := batch.pages
    rw [isPages, ← succ_pred_eq_of_ne_zero some, range'_succ] at pages
    exact (List.cons.inj pages).1.trans (by rw [succ_pred_eq_of_ne_zero some])
  have formed := batch.formed isSnapc isReq some
  rw [← first] at formed
  exact { kept with
    begun := by
      intro bounded
      obtain ⟨last, isLast⟩ := Option.ne_none_iff_exists'.mp bounded
      have member : page ∈ s.pages := isPages ▸ mem_cons_self
      have inRange := ((batch.held snapc isSnapc page member).inRange last isLast).1
      have ahead : s.start ≤ s.next := inRange.trans (first ▸ sub_le _ _)
      exact ahead
    scanning := fun _ => kept.scanning (label ▸ trivial)
    batch := nofun
    filled := nofun
    requests := by
      intro req member
      rcases List.mem_append.mp member with earlier | new
      · exact kept.requests req earlier
      · rw [List.mem_singleton.mp new]
        exact formed
    inFlight := by
      intro number req sent completed other member
      have sent : (s.requests ++ [_])[number]? = Option.some req := sent
      rcases lt_or_ge number s.requests.length with earlier | new
      · rw [getElem?_append_left earlier] at sent
        exact kept.inFlight number req sent completed other member
      · rw [getElem?_append_right new, getElem?_singleton] at sent
        split at sent
        next same =>
          cases sent
          rw [show number = s.requests.length by lia]
          exact batch.state other member
        next => cases sent }

theorem state_cleaned {inode : Inode} {pages : List Nat} {nr : Nat} {snapc : SnapContext} (apart : page ∉ pages) :
    (putWrbufferCapRefs nr snapc (inode.cleaned pages)).state page = inode.state page := by
  rw [state_put]
  exact if_neg apart

theorem ground_cleaned {pages : List Nat} {nr : Nat} {snapc : SnapContext} {requests : List Request} :
    Writepages.ground { s with
      inode := putWrbufferCapRefs nr snapc (s.inode.cleaned pages)
      requests := requests } = s.ground := by
  have sizes : (putWrbufferCapRefs nr snapc (s.inode.cleaned pages)).sizeOf = s.inode.sizeOf := funext sizeOf_put
  unfold Writepages.ground
  rw [sizes, layout_put, indices_put, context_put]
  rfl

theorem Kept.cleaned (kept : s.Kept) {snapc : SnapContext} {pages : List Nat} {requests : List Request}
    (nodup : pages.Nodup)
    (counted : ∀ page ∈ pages, page ∈ s.inode.indices ∧ s.inode.context page = snapc ∧
      ∃ number, s.inode.state page = .writeback number ∧ number ≠ some s.requests.length)
    (formed : ∀ req ∈ requests, req.Formed s.ground) (sameLength : requests.length = s.requests.length)
    (open_ : ∀ (number : Nat) (req : Request), requests[number]? = some req → req.completed = false →
      s.requests[number]? = some req ∧ ∀ page ∈ req.pages, page ∉ pages) :
    Kept { s with
      inode := putWrbufferCapRefs pages.length snapc (s.inode.cleaned pages)
      requests := requests } := by
  have ground : Writepages.ground { s with
      inode := putWrbufferCapRefs pages.length snapc (s.inode.cleaned pages)
      requests := requests } = s.ground := ground_cleaned
  exact
    { cyclic := kept.cyclic
      looping := kept.looping
      begun := kept.begun
      scanning := kept.scanning
      filled := kept.filled
      counted := by
        apply kept.counted.put nodup fun page member => (counted page member).1
        intro page member
        obtain ⟨-, context, number, state, -⟩ := counted page member
        rw [state]
        exact ⟨context, nofun⟩
      sound := ground ▸ kept.sound
      oldest := fun snapc isSnapc => (kept.oldest snapc isSnapc).put kept.counted
      found := by
        intro page member
        rw [indices_put]
        exact kept.found page member
      batch := by
        intro assembling
        have batch := kept.batch assembling
        exact { batch with
          held := ground ▸ batch.held
          state := by
            intro page member
            have state := batch.state page member
            have apart : page ∉ pages := by
              intro completed
              obtain ⟨-, -, number, other, different⟩ := counted page completed
              rw [other] at state
              exact different (PageState.writeback.inj state)
            rw [sameLength]
            exact (state_cleaned apart).trans state
          request := ground ▸ batch.request }
      requests := ground ▸ formed
      inFlight := by
        intro number req sent completed page member
        obtain ⟨before, apart⟩ := open_ number req sent completed
        exact (state_cleaned (apart page member)).trans (kept.inFlight number req before completed page member) }

theorem Kept.finish (kept : s.Kept) {number : Nat} {req : Request} (sent : s.requests[number]? = some req)
    (isOpen : req.completed = false) (ran : s.writepagesFinish number req = .ok after) : after.Kept := by
  have formed := kept.requests req (mem_of_getElem? sent)
  obtain ⟨first, -, consecutive⟩ := formed.consecutive
  have known := (List.getElem?_eq_some_iff.mp sent).1
  unfold Writepages.writepagesFinish at ran
  dsimp only at ran
  rw [formed.numPages, take_length] at ran
  obtain ⟨_, _, ran⟩ := ok_of_bind ran
  cases ran
  apply kept.cleaned
  · rw [consecutive]
    exact nodup_range'
  · intro page member
    have held := formed.held page member
    refine ⟨held.known, held.context, some number, kept.inFlight number req sent isOpen page member, ?_⟩
    intro same
    exact known.ne (Option.some.inj same)
  · intro other member
    rcases mem_or_eq_of_mem_set member with earlier | rfl
    · exact kept.requests other earlier
    · exact { formed with }
  · exact length_set
  · intro other later isLater completed
    by_cases same : number = other
    · subst same
      rw [getElem?_set_self known] at isLater
      cases isLater
      cases completed
    · rw [getElem?_set_ne same] at isLater
      refine ⟨isLater, ?_⟩
      intro page inLater inReq
      have one := kept.inFlight other later isLater completed page inLater
      have two := kept.inFlight number req sent isOpen page inReq
      rw [one] at two
      exact same (Option.some.inj (PageState.writeback.inj two)).symm

theorem setState_clean (page : Nat) : (s.setState page .clean).inode = s.inode.cleaned [page] := by
  simp only [setState, Inode.cleaned, mem_singleton]
  congr 1
  funext other
  by_cases same : other = page
  · simp [same]
  · simp [same]

theorem Kept.writtenElsewhere (kept : s.Kept) (page : Nat) : (s.writtenElsewhere page).Kept := by
  unfold Writepages.writtenElsewhere
  split
  next written =>
    rw [setState_clean]
    refine kept.cleaned (nodup_singleton page) ?_ kept.requests rfl ?_
    · intro other member
      rw [List.mem_singleton.mp member]
      exact ⟨written.1, rfl, none, written.2, nofun⟩
    · intro number req sent completed
      refine ⟨sent, ?_⟩
      intro other member same
      have state := kept.inFlight number req sent completed other member
      rw [List.mem_singleton.mp same, written.2] at state
      cases state
  · exact kept

theorem Kept.go (kept : s.Kept) (ran : s.go answer = .ok after) : after.Kept := by
  unfold Writepages.go at ran
  split at ran
  next label =>
    cases ran
    exact kept.retry
  next label =>
    cases ran
    exact kept.loop label
  next label =>
    cases ran
    exact kept.getMorePages label answer.tagged
  next label => exact kept.visit label ran
  next label => exact kept.collected label ran
  next label => exact kept.submit label ran
  next label =>
    cases ran
    exact kept.releasePvecPages label
  next label =>
    cases ran
    exact kept.after
  next label => exact kept.out ran
  next label =>
    cases ran
    exact kept

theorem kept_preserved : Preserves Event.run (fun _ _ => True) Kept := by
  intro event before after _ kept ran
  cases event with
  | go answer => exact kept.go ran
  | finish number =>
    unfold Event.run at ran
    dsimp only at ran
    split at ran
    next req sent =>
      split at ran
      · cases ran
        exact kept
      next isOpen => exact kept.finish sent (by simpa using isOpen) ran
    · cases ran
      exact kept
  | written page =>
    cases ran
    exact kept.writtenElsewhere page

end

end Writepages

end KmodCeph.Writeback
