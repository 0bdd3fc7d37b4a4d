import KmodCeph.Writeback.Requests

namespace KmodCeph.Writeback

open Lib Osdmap Function List
open Caps (SnapContext)

/-- What has to be submitted when `ceph_writepages_start` returns. -/
structure Inode.Dirty (inode : Inode) (page : Nat) : Prop where
  known : page ∈ inode.indices
  dirty : inode.state page = .dirty
  below : page * pageCacheSize < inode.sizeOf (inode.context page)

/-- Nobody else dirties, cleans, truncates or locks a page. A page whose dirty flag was cleared without that it was put
under writeback is still tagged. -/
structure Answer.Undisturbed (answer : Answer) (s : Writepages) : Prop where
  tagged : ∀ page ∈ s.inode.indices,
    (answer.tagged page = true ↔ s.inode.state page = .dirty ∨ s.inode.state page = .cleared)
  lockFails : answer.lockFails = false
  gone : answer.gone = false
  undirtied : answer.undirtied = false

def Event.Undisturbed : Event → Writepages → Prop
  | .go answer, s => answer.Undisturbed s
  | _, _ => True

/-- No new request fails, and when the last walk ends, what is dirty in the range is not of a newer context than its
own, and not before the start of a cyclic walk. -/
def Event.Meets : Event → Writepages → Prop
  | .go answer, s =>
    (s.label = .visit → ∀ page, s.Takes answer page → s.lockedPages = 0 →
      ∃ extent, s.newRequest answer.request page = .ok extent) ∧
    (s.label = .after → ¬ (s.shouldLoop = true ∧ s.done = false) → ∀ snapc, s.snapc = some snapc →
      ∀ page, s.inode.Dirty page → s.ground.InRange page →
        (s.inode.context page).seq ≤ snapc.seq ∧ s.start ≤ page)
  | _, _ => True

/-- Where a context is there of which pages were looked up. -/
def Label.Passing : Label → Prop
  | .retry | .out | .returned => False
  | _ => True

/-- The page is to be written in the pass of the context. -/
structure Inode.Owed (inode : Inode) (ground : Ground) (snapc : SnapContext) (page : Nat) : Prop where
  dirty : inode.Dirty page
  context : inode.context page = snapc
  inRange : ground.InRange page
  begun : ground.start ≤ page

namespace Writepages

/-- The page is ahead in the pass. -/
def Ahead (page : Nat) (s : Writepages) : Prop :=
  match s.label with
  | .visit | .submit => page ∈ s.pvec.drop s.i ∨ s.index ≤ page
  | .collected => s.lockedPages ≠ 0 ∧ page ∈ s.pvec.drop s.i ∨ s.index ≤ page
  | .after | .out | .returned => False
  | _ => s.index ≤ page

/-- What is in the page vector and was not visited is dirty, and behind the batch. -/
structure Vector (s : Writepages) : Prop where
  ascending : s.pvec.Pairwise (· < ·)
  dirty : ∀ page ∈ s.pvec.drop s.i, s.inode.state page = .dirty
  found : ∀ page ∈ s.pvec, page < s.index
  behind : s.lockedPages ≠ 0 → ∀ page ∈ s.pvec.drop s.i, s.next ≤ page

/-- How often a page is to be submitted that was and is in the states. -/
def due (before now : PageState) : Nat :=
  if before = .dirty ∧ now ≠ .dirty then 1 else 0

def dirtyPages (indices : List Nat) (state : Nat → PageState) : Nat :=
  indices.countP (state · = .dirty)

/-- Every page that was dirty is so, or was submitted once. -/
structure Ledger (first s : Writepages) : Prop where
  once : ∀ page, s.requests.countP (page ∈ ·.pages) + s.pages.count page =
    due (first.inode.state page) (s.inode.state page)
  dirty : ∀ page, s.inode.state page = .dirty → first.inode.state page = .dirty
  uncleared : ∀ page, s.inode.state page ≠ .cleared
  enough : (dirtyPages s.inode.indices s.inode.state + s.pages.length : Int) < s.wbc.nrToWrite
  pointer : ∀ errno, s.req ≠ .err errno
  sync : s.wbc.syncMode = .all

/-- No page of the context of the pass is left behind. -/
structure Swept (s : Writepages) : Prop where
  passing : s.label.Passing → s.lastSnapc = s.snapc ∧ s.snapc ≠ none
  fresh : s.lastSnapc = none → s.index = s.start
  resumed : s.label = .retry → s.done = false
  sized : s.label.Passing → ∀ snapc, s.snapc = some snapc → s.inode.sizeOf snapc ≤ s.snapSize
  ahead : ∀ snapc, s.lastSnapc = some snapc → ∀ page, s.inode.Owed s.ground snapc page → s.done = false ∧ s.Ahead page
  empty : ¬ s.label.Assembling → s.pages = []
  idle : s.label.Assembling → s.lockedPages = 0 → s.next = 0 ∧ 1 ≤ s.maxPages
  further : s.label.Assembling → s.lockedPages ≠ 0 → s.next ≤ s.index
  vector : s.label = .visit ∨ s.label = .collected ∨ s.label = .submit → s.Vector
  finished : s.label = .out ∨ s.label = .returned → ∀ page, s.inode.Dirty page → ¬ s.ground.InRange page

section

variable {first s after : Writepages} {answer : Answer} {page : Nat} {failure : Option Int}

theorem Swept.retry (swept : s.Swept) (kept : s.Kept) (label : s.label = .retry) : s.retry.Swept := by
  have empty := swept.empty (by rw [label]; exact id)
  have resumed := swept.resumed label
  unfold Writepages.retry
  dsimp only
  split
  next nothing =>
    have clean : ∀ page, ¬ s.inode.Dirty page := by
      intro page dirty
      have clean := kept.counted.clean nothing dirty.known
      rw [dirty.dirty] at clean
      cases clean
    exact { swept with
      passing := nofun
      resumed := nofun
      sized := nofun
      ahead := fun snapc _ page owed => absurd owed.dirty (clean page)
      empty := fun _ => empty
      idle := nofun
      further := nofun
      vector := nofun
      finished := fun _ page dirty => absurd dirty (clean page) }
  next snapc isSnapc =>
    have ahead : ∀ page, s.inode.Owed s.ground snapc page →
        (if s.lastSnapc ≠ none ∧ s.lastSnapc ≠ some snapc then s.start else s.index) ≤ page := by
      intro page owed
      split
      next => exact owed.begun
      next same =>
        rw [not_and_or, not_not, not_not] at same
        rcases same with fresh | same
        · rw [swept.fresh fresh]
          exact owed.begun
        · have ahead := (swept.ahead snapc same page owed).2
          simpa only [Ahead, label] using ahead
    exact { swept with
      passing := fun _ => ⟨rfl, nofun⟩
      fresh := nofun
      resumed := nofun
      sized := by
        intro _ other same
        cases same
        exact sizeOf_le kept.counted (Prod.ext isSnapc rfl)
      ahead := by
        intro other same page owed
        cases same
        exact ⟨resumed, ahead page owed⟩
      empty := fun _ => empty
      idle := nofun
      further := nofun
      vector := nofun
      finished := nofun }

theorem Swept.loop (swept : s.Swept) (kept : s.Kept) (label : s.label = .loop) : s.loop.Swept := by
  have passing := swept.passing (label ▸ trivial)
  have sized := swept.sized (label ▸ trivial)
  have ahead : ∀ snapc, s.lastSnapc = some snapc → ∀ page, s.inode.Owed s.ground snapc page →
      s.done = false ∧ s.index ≤ page := by
    intro snapc isSnapc page owed
    simpa only [Ahead, label] using swept.ahead snapc isSnapc page owed
  unfold Writepages.loop
  split
  · exact { swept with
      passing := fun _ => passing
      resumed := nofun
      sized := fun _ => sized
      ahead := ahead
      empty := fun _ => rfl
      idle := fun _ _ => ⟨rfl, Nat.div_pos kept.sound.wsize.1 (by decide)⟩
      further := fun _ locked => absurd rfl locked
      vector := nofun
      finished := nofun }
  next ends =>
    exact { swept with
      passing := fun _ => passing
      resumed := nofun
      sized := fun _ => sized
      ahead := by
        intro snapc isSnapc page owed
        obtain ⟨notDone, ahead⟩ := ahead snapc isSnapc page owed
        refine absurd ⟨by simp [notDone], ?_⟩ ends
        intro past
        unfold Writepages.past at past
        rw [Option.any_eq_true] at past
        obtain ⟨last, isLast, past⟩ := past
        have inRange := (owed.inRange last isLast).2
        have := of_decide_eq_true past
        omega
      empty := fun _ => swept.empty (by rw [label]; exact id)
      idle := nofun
      further := nofun
      vector := nofun
      finished := nofun }

variable {pages : List Nat} {snapc : SnapContext} {other : Nat}

theorem le_getLast (ascending : pages.Pairwise (· < ·)) (member : page ∈ pages) :
    page ≤ pages.getLast (ne_nil_of_mem member) := by
  have parts := dropLast_append_getLast (ne_nil_of_mem member)
  have inParts : page ∈ pages.dropLast ++ [pages.getLast (ne_nil_of_mem member)] := by
    rw [parts]
    exact member
  rcases List.mem_append.mp inParts with earlier | last
  · rw [← parts] at ascending
    exact ((List.pairwise_append.mp ascending).2.2 page earlier _ (mem_singleton_self _)).le
  · exact (List.mem_singleton.mp last).le

theorem want_pos : 0 < s.want := by
  unfold want
  dsimp only
  split
  · split <;> lia
  · omega

theorem lookup_ascending (kept : s.Kept) (tagged : Nat → Bool) : (s.lookup tagged).Pairwise (· < ·) :=
  (kept.counted.ascending.filter _).sublist (take_sublist _ _)

theorem lookup_ahead (kept : s.Kept) {tagged : Nat → Bool} (known : page ∈ s.inode.indices) (ahead : s.index ≤ page)
    (isTagged : tagged page = true) :
    page ∈ s.lookup tagged ∨ ∃ last, (s.lookup tagged).getLast? = some last ∧ last < page := by
  have ascending := kept.counted.ascending.filter fun index => decide (s.index ≤ index ∧ tagged index)
  have member : page ∈ s.inode.indices.filter fun index => s.index ≤ index ∧ tagged index := by
    rw [mem_filter]
    exact ⟨known, decide_eq_true ⟨ahead, isTagged⟩⟩
  rw [← take_append_drop s.want (s.inode.indices.filter _)] at member ascending
  rcases List.mem_append.mp member with found | later
  · exact .inl found
  · right
    have nonempty : s.lookup tagged ≠ [] := by
      intro nothing
      rw [lookup, take_eq_nil_iff] at nothing
      rcases nothing with zero | nothing
      · exact want_pos.ne' zero
      · rw [nothing] at later
        simp at later
    refine ⟨_, getLast?_eq_some_getLast nonempty, ?_⟩
    exact (List.pairwise_append.mp ascending).2.2 _ (getLast_mem nonempty) page later

theorem Swept.getMorePages (swept : s.Swept) (kept : s.Kept) (undisturbed : answer.Undisturbed s)
    (uncleared : ∀ page, s.inode.state page ≠ .cleared) (label : s.label = .getMorePages) : (s.getMorePages answer.tagged).Swept := by
  have passing := swept.passing (label ▸ trivial)
  have sized := swept.sized (label ▸ trivial)
  have idle := swept.idle (label ▸ trivial)
  have further := swept.further (label ▸ trivial)
  have batch := kept.batch (label ▸ trivial)
  have fresh : s.lastSnapc ≠ none := passing.1 ▸ passing.2
  have ahead : ∀ snapc, s.lastSnapc = some snapc → ∀ page, s.inode.Owed s.ground snapc page →
      s.done = false ∧ (page ∈ s.lookup answer.tagged ∨
        ∃ last, (s.lookup answer.tagged).getLast? = some last ∧ last < page) := by
    intro snapc isSnapc page owed
    obtain ⟨notDone, ahead⟩ := swept.ahead snapc isSnapc page owed
    simp only [Ahead, label] at ahead
    have known := owed.dirty.known
    exact ⟨notDone, lookup_ahead kept known ahead ((undisturbed.tagged page known).mpr (.inl owed.dirty.dirty))⟩
  unfold Writepages.getMorePages
  dsimp only
  split
  next nothing =>
    exact { swept with
      passing := fun _ => passing
      fresh := fun none => absurd none fresh
      resumed := by simp
      sized := fun _ => sized
      ahead := by
        intro snapc isSnapc page owed
        have found := (ahead snapc isSnapc page owed).2
        rw [nothing.1] at found
        rcases found with found | ⟨last, isLast, _⟩
        · cases found
        · cases isLast
      empty := by
        intro _
        show s.pages = []
        rw [batch.pages, nothing.2]
        rfl
      idle := fun h => by cases h
      further := fun h => by cases h
      vector := by simp
      finished := by simp }
  next =>
    exact { swept with
      passing := fun _ => passing
      fresh := fun none => absurd none fresh
      resumed := by simp
      sized := fun _ => sized
      ahead := by
        intro snapc isSnapc page owed
        obtain ⟨notDone, found⟩ := ahead snapc isSnapc page owed
        refine ⟨notDone, ?_⟩
        rcases found with found | ⟨last, isLast, before⟩
        · exact .inl found
        · right
          rw [isLast]
          exact before
      empty := fun notAssembling => absurd trivial notAssembling
      idle := fun _ => idle
      further := fun _ locked => (further locked).trans (index_le_next answer.tagged (by simp +contextual) (by simp +contextual))
      vector := fun _ =>
        { ascending := lookup_ascending kept _
          dirty := by
            intro page member
            obtain ⟨known, _, isTagged⟩ := mem_lookup (mem_of_mem_drop member)
            exact ((undisturbed.tagged page known).mp isTagged).resolve_right (uncleared page)
          found := by
            intro page member
            rw [getLast?_eq_some_getLast (ne_nil_of_mem member)]
            exact Nat.lt_succ_of_le (le_getLast (lookup_ascending kept _) member)
          behind := by
            intro locked page member
            exact (further locked).trans (mem_lookup (mem_of_mem_drop member)).2.1 }
      finished := by simp }

theorem drop_of_getElem? {i : Nat} (found : pages[i]? = some page) : pages.drop i = page :: pages.drop (i + 1) := by
  obtain ⟨bound, same⟩ := List.getElem?_eq_some_iff.mp found
  rw [drop_eq_getElem_cons bound, same]

theorem Swept.le (swept : s.Swept) (label : s.label = .visit) (found : s.pvec[s.i]? = some page)
    (isSnapc : s.lastSnapc = some snapc) (owed : s.inode.Owed s.ground snapc other) : page ≤ other := by
  have vector := swept.vector (.inl label)
  have ahead := (swept.ahead snapc isSnapc other owed).2
  simp only [Ahead, label] at ahead
  rcases ahead with inVector | behind
  · have ascending := vector.ascending.sublist (drop_sublist s.i s.pvec)
    rw [drop_of_getElem? found] at inVector ascending
    rcases List.mem_cons.mp inVector with same | later
    · exact same.ge
    · exact (rel_of_pairwise_cons ascending later).le
  · exact (vector.found page (mem_of_getElem? found)).le.trans behind

/-- If the loop ends with nothing in the batch, all pages were visited, unless the pass ends. -/
theorem Swept.ends_cases (swept : s.Swept) (undisturbed : answer.Undisturbed s) (sync : s.wbc.syncMode = .all)
    (label : s.label = .visit) {done : Bool} (ends : s.Ends answer done) :
    done = s.done ∧ (s.lockedPages ≠ 0 ∨ s.pvec.drop s.i = []) ∨
      ∀ snapc, s.lastSnapc = some snapc → ∀ page, ¬ s.inode.Owed s.ground snapc page := by
  have vector := swept.vector (.inl label)
  have idle := swept.idle (label ▸ trivial)
  cases ends with
  | noMore none => exact .inl ⟨rfl, .inr (drop_eq_nil_of_le (List.getElem?_eq_none_iff.mp none))⟩
  | full full =>
    refine .inl ⟨rfl, .inl ?_⟩
    intro nothing
    have := (idle nothing).2
    omega
  | lockFails some => exact .inl ⟨rfl, .inl some⟩
  | notDirty page found notDirty =>
    have dirty := vector.dirty page (by rw [drop_of_getElem? found]; exact mem_cons_self)
    rcases notDirty with notDirty | gone
    · exact absurd dirty notDirty
    · rw [undisturbed.gone] at gone
      cases gone
  | past page found acyclic past =>
    right
    intro snapc isSnapc other owed
    have before := swept.le label found isSnapc owed
    unfold Writepages.past at past
    rw [Option.any_eq_true] at past
    obtain ⟨last, isLast, past⟩ := past
    have inRange := (owed.inRange last isLast).2
    have := of_decide_eq_true past
    omega
  | gap page found gap =>
    refine .inl ⟨rfl, .inl ?_⟩
    intro nothing
    exact gap.1 (idle nothing).1
  | eof page found eof =>
    right
    intro snapc isSnapc other owed
    have before := Nat.mul_le_mul_right pageCacheSize (swept.le label found isSnapc owed)
    have below := owed.dirty.below
    have passing := swept.passing (label ▸ trivial)
    have sized := swept.sized (label ▸ trivial) snapc (passing.1 ▸ isSnapc)
    rw [owed.context] at below
    omega
  | writeback async =>
    rw [sync] at async
    cases async
  | newer some => exact .inl ⟨rfl, .inl some⟩
  | undirtied undirtied =>
    rw [undisturbed.undirtied] at undirtied
    cases undirtied

theorem Inode.Owed.of_update {inode : Inode} {ground : Ground} {value : PageState} (notDirty : value ≠ .dirty)
    (owed : Inode.Owed { inode with state := update inode.state page value } ground snapc other) :
    other ≠ page ∧ inode.Owed ground snapc other := by
  have dirty : update inode.state page value other = .dirty := owed.dirty.dirty
  have different : other ≠ page := by
    rintro rfl
    rw [update_self] at dirty
    exact notDirty dirty
  rw [update_of_ne different] at dirty
  exact ⟨different, { owed with dirty := { owed.dirty with dirty := dirty } }⟩

theorem Swept.addPage (swept : s.Swept) (label : s.label = .visit) (found : s.pvec[s.i]? = some page) :
    (s.addPage page).Swept := by
  have vector := swept.vector (.inl label)
  have rest := drop_of_getElem? found
  have ascending := vector.ascending.sublist (drop_sublist s.i s.pvec)
  rw [rest] at ascending
  exact { swept with
    ahead := by
      intro snapc isSnapc other owed
      have notDirty : PageState.writeback (some s.requests.length) ≠ .dirty := nofun
      obtain ⟨different, owed⟩ := Inode.Owed.of_update notDirty owed
      obtain ⟨notDone, ahead⟩ := swept.ahead snapc isSnapc other owed
      refine ⟨notDone, ?_⟩
      simp only [Ahead, Writepages.addPage, setState, label] at ahead ⊢
      rcases ahead with inVector | behind
      · rw [rest] at inVector
        exact .inl ((List.mem_cons.mp inVector).resolve_left different)
      · exact .inr behind
    empty := fun notAssembling => absurd (show s.label.Assembling from label ▸ trivial) notAssembling
    idle := fun _ => nofun
    further := fun _ _ => vector.found page (mem_of_getElem? found)
    vector := fun _ =>
      { ascending := vector.ascending
        dirty := by
          intro other member
          have later := rel_of_pairwise_cons ascending member
          have dirty := vector.dirty other (by rw [rest]; exact mem_cons_of_mem _ member)
          exact (update_of_ne later.ne' _ _).trans dirty
        found := vector.found
        behind := fun _ other member => rel_of_pairwise_cons ascending member }
    finished := by
      intro ended
      have ended : s.label = .out ∨ s.label = .returned := ended
      rw [label] at ended
      rcases ended with ended | ended <;> cases ended }

theorem Swept.visit (swept : s.Swept) (kept : s.Kept) (undisturbed : answer.Undisturbed s)
    (sync : s.wbc.syncMode = .all) (meets : (Event.go answer).Meets s) (label : s.label = .visit)
    (ran : s.visit answer = .ok after) : after.Swept := by
  have passing := swept.passing (label ▸ trivial)
  have sized := swept.sized (label ▸ trivial)
  have idle := swept.idle (label ▸ trivial)
  have further := swept.further (label ▸ trivial)
  have vector := swept.vector (.inl label)
  have ahead : ∀ snapc, s.lastSnapc = some snapc → ∀ page, s.inode.Owed s.ground snapc page →
      s.done = false ∧ (page ∈ s.pvec.drop s.i ∨ s.index ≤ page) := by
    intro snapc isSnapc page owed
    simpa only [Ahead, label] using swept.ahead snapc isSnapc page owed
  rcases visit_cases ran with ⟨done, ends, rfl⟩ | ⟨page, skips, rfl⟩ | ⟨page, takes, ran⟩
  · exact { swept with
      passing := fun _ => passing
      resumed := nofun
      sized := fun _ => sized
      ahead := by
        intro snapc isSnapc page owed
        rcases swept.ends_cases undisturbed sync label ends with ⟨same, visited⟩ | nothing
        · obtain ⟨notDone, ahead⟩ := ahead snapc isSnapc page owed
          refine ⟨same.trans notDone, ?_⟩
          rcases ahead with inVector | behind
          · rcases visited with locked | all
            · exact .inl ⟨locked, inVector⟩
            · rw [all] at inVector
              cases inVector
          · exact .inr behind
        · exact absurd owed (nothing snapc isSnapc page)
      empty := fun notAssembling => absurd trivial notAssembling
      idle := fun _ => idle
      further := fun _ => further
      vector := fun _ => { vector with }
      finished := nofun }
  · have rest := drop_of_getElem? skips.found
    have inRest : ∀ other ∈ s.pvec.drop (s.i + 1), other ∈ s.pvec.drop s.i := by
      intro other member
      rw [rest]
      exact mem_cons_of_mem _ member
    exact { swept with
      ahead := by
        intro snapc isSnapc other owed
        obtain ⟨notDone, ahead⟩ := ahead snapc isSnapc other owed
        refine ⟨notDone, ?_⟩
        simp only [Ahead, label]
        rcases ahead with inVector | behind
        · rw [rest] at inVector
          rcases List.mem_cons.mp inVector with rfl | later
          · obtain ⟨current, isCurrent, newer⟩ := skips.newer
            rw [passing.1, isCurrent] at isSnapc
            cases isSnapc
            rw [owed.context] at newer
            exact absurd newer (lt_irrefl _)
          · exact .inl later
        · exact .inr behind
      vector := fun _ =>
        { ascending := vector.ascending
          dirty := fun other member => vector.dirty other (inRest other member)
          found := vector.found
          behind := fun locked => absurd skips.nothing locked } }
  · have known := (kept.found page (mem_of_getElem? takes.found)).1
    rcases takePage_cases ran with ⟨errno, nothing, failed, rfl⟩ | ⟨len, nothing, made, rfl⟩ | ⟨some, rfl⟩
    · obtain ⟨extent, made⟩ := meets.1 label page takes nothing
      rw [failed] at made
      cases made
    · have large := (maps_of_newRequest made).page_le kept.sound (kept.sound.indices page known)
      have room : 1 ≤ calcPagesFor 0 len := by
        rw [Ground.calcPagesFor_zero]
        simp only [pageCacheSize] at large
        omega
      have begun : Swept { s with
          req := .made len
          maxPages := calcPagesFor 0 len } :=
        { swept with
          idle := fun _ nothing => ⟨(idle nothing).1, room⟩
          vector := fun _ => { vector with } }
      exact begun.addPage label takes.found
    · exact swept.addPage label takes.found

theorem Swept.collected (swept : s.Swept) (kept : s.Kept) (label : s.label = .collected)
    (ran : s.collected = .ok after) : after.Swept := by
  have passing := swept.passing (label ▸ trivial)
  have sized := swept.sized (label ▸ trivial)
  have idle := swept.idle (label ▸ trivial)
  have further := swept.further (label ▸ trivial)
  have vector := swept.vector (.inr (.inl label))
  have batch := kept.batch (label ▸ trivial)
  have ahead : ∀ snapc, s.lastSnapc = some snapc → ∀ page, s.inode.Owed s.ground snapc page →
      s.done = false ∧ (s.lockedPages ≠ 0 ∧ page ∈ s.pvec.drop s.i ∨ s.index ≤ page) := by
    intro snapc isSnapc page owed
    simpa only [Ahead, label] using swept.ahead snapc isSnapc page owed
  rcases collected_cases ran with ⟨nothing, rfl⟩ | ⟨_, all, rfl⟩ | ⟨_, rfl⟩
  · exact { swept with
      passing := fun _ => passing
      resumed := nofun
      sized := fun _ => sized
      ahead := by
        intro snapc isSnapc page owed
        obtain ⟨notDone, ahead⟩ := ahead snapc isSnapc page owed
        exact ⟨notDone, ahead.resolve_left fun locked => locked.1 nothing⟩
      empty := by
        intro _
        show s.pages = []
        rw [batch.pages, nothing]
        rfl
      idle := nofun
      further := nofun
      vector := nofun
      finished := nofun }
  · exact { swept with
      passing := fun _ => passing
      resumed := nofun
      sized := fun _ => sized
      ahead := by
        intro snapc isSnapc page owed
        obtain ⟨notDone, ahead⟩ := ahead snapc isSnapc page owed
        rw [drop_eq_nil_of_le all.ge] at ahead
        exact ⟨notDone, ahead.resolve_left fun locked => nomatch locked.2⟩
      empty := fun notAssembling => absurd trivial notAssembling
      idle := fun _ => idle
      further := fun _ => further
      vector := nofun
      finished := nofun }
  · exact { swept with
      passing := fun _ => passing
      resumed := nofun
      sized := fun _ => sized
      ahead := by
        intro snapc isSnapc page owed
        obtain ⟨notDone, ahead⟩ := ahead snapc isSnapc page owed
        exact ⟨notDone, ahead.imp_left And.right⟩
      empty := fun notAssembling => absurd trivial notAssembling
      idle := fun _ => idle
      further := fun _ => further
      vector := fun _ => { vector with }
      finished := nofun }

theorem Swept.submit (swept : s.Swept) (kept : s.Kept) (label : s.label = .submit)
    (enough : (s.pages.length : Int) < s.wbc.nrToWrite) (ran : s.submit = .ok after) : after.Swept := by
  have passing := swept.passing (label ▸ trivial)
  have sized := swept.sized (label ▸ trivial)
  have further := swept.further (label ▸ trivial) (kept.filled label)
  have vector := swept.vector (.inr (.inr label))
  have batch := kept.batch (label ▸ trivial)
  have fresh : s.lastSnapc ≠ none := passing.1 ▸ passing.2
  have count : s.pages.length = s.lockedPages := by rw [batch.pages, length_range']
  obtain ⟨page, rest, snapc, extent, _, _, _, rfl⟩ := submit_cases ran
  exact { swept with
    passing := fun _ => passing
    fresh := fun none => absurd none fresh
    resumed := nofun
    sized := fun _ => sized
    ahead := by
      intro snapc isSnapc page owed
      obtain ⟨notDone, ahead⟩ := swept.ahead snapc isSnapc page owed
      simp only [Ahead, label] at ahead
      refine ⟨?_, ?_⟩
      · show (s.done || decide (s.wbc.nrToWrite - s.lockedPages ≤ 0)) = false
        rw [notDone, Bool.false_or, decide_eq_false_iff_not]
        omega
      · show s.next ≤ page
        rcases ahead with inVector | behind
        · exact vector.behind (kept.filled label) page inVector
        · exact further.trans behind
    empty := fun _ => rfl
    idle := nofun
    further := nofun
    vector := nofun
    finished := nofun }

theorem Swept.releasePvecPages (swept : s.Swept) (label : s.label = .releasePvecPages) : s.releasePvecPages.Swept := by
  have passing := swept.passing (label ▸ trivial)
  have sized := swept.sized (label ▸ trivial)
  have empty := swept.empty (by rw [label]; exact id)
  have ahead : ∀ snapc, s.lastSnapc = some snapc → ∀ page, s.inode.Owed s.ground snapc page →
      s.done = false ∧ s.index ≤ page := by
    intro snapc isSnapc page owed
    simpa only [Ahead, label] using swept.ahead snapc isSnapc page owed
  unfold Writepages.releasePvecPages
  split
  next again =>
    exact { swept with
      passing := nofun
      resumed := fun _ => by simpa using again.2
      sized := nofun
      ahead := ahead
      empty := fun _ => empty
      idle := nofun
      further := nofun
      vector := nofun
      finished := nofun }
  · exact { swept with
      passing := fun _ => passing
      resumed := nofun
      sized := fun _ => sized
      ahead := ahead
      empty := fun _ => empty
      idle := nofun
      further := nofun
      vector := nofun
      finished := nofun }

theorem Swept.out (swept : s.Swept) (label : s.label = .out) (ran : s.out = .ok after) : after.Swept := by
  have empty := swept.empty (by rw [label]; exact id)
  have finished := swept.finished (.inl label)
  obtain ⟨_, rfl⟩ := out_cases ran
  exact { swept with
    passing := nofun
    resumed := nofun
    sized := nofun
    ahead := fun snapc _ page owed => absurd owed.inRange (finished page owed.dirty)
    empty := fun _ => empty
    idle := nofun
    further := nofun
    vector := nofun
    finished := fun _ => finished }

end

section

variable {s : Writepages} {answer : Answer}

theorem Swept.finish_walk (swept : s.Swept) (kept : s.Kept) (meets : (Event.go answer).Meets s) (label : s.label = .after)
    (last : ¬ (s.shouldLoop = true ∧ s.done = false)) (page : Nat) (dirty : s.inode.Dirty page) :
    ¬ s.ground.InRange page := by
  intro inRange
  obtain ⟨same, isSome⟩ := swept.passing (label ▸ trivial)
  obtain ⟨snapc, isSnapc⟩ := Option.ne_none_iff_exists'.mp isSome
  obtain ⟨notNewer, begun⟩ := meets.2 label last snapc isSnapc page dirty inRange
  have context := (kept.oldest snapc isSnapc).eq kept.counted dirty.known (by rw [dirty.dirty]; exact nofun) notNewer
  have owed : s.inode.Owed s.ground snapc page :=
    { dirty := dirty
      context := context
      inRange := inRange
      begun := begun }
  have ahead := (swept.ahead snapc (same.trans isSnapc) page owed).2
  simp only [Ahead, label] at ahead

theorem Swept.after (swept : s.Swept) (kept : s.Kept) (meets : (Event.go answer).Meets s) (label : s.label = .after) :
    s.after.Swept := by
  have passing := swept.passing (label ▸ trivial)
  have empty := swept.empty (by rw [label]; exact id)
  have fresh : s.lastSnapc ≠ none := passing.1 ▸ passing.2
  unfold Writepages.after
  split
  next loops =>
    have notDone : s.done = false := by simpa using loops.2
    exact { swept with
      passing := nofun
      fresh := fun none => absurd none fresh
      resumed := fun _ => notDone
      sized := nofun
      ahead := fun _ _ page _ => ⟨notDone, Nat.zero_le page⟩
      empty := fun _ => empty
      idle := nofun
      further := nofun
      vector := nofun
      finished := nofun }
  next ends =>
    have finished := swept.finish_walk kept meets label (by simpa using ends)
    exact { swept with
      passing := nofun
      resumed := nofun
      sized := nofun
      ahead := fun snapc _ page owed => absurd owed.inRange (finished page owed.dirty)
      empty := fun _ => empty
      idle := nofun
      further := nofun
      vector := nofun
      finished := fun _ => finished }

end

section

variable {first s after : Writepages} {event : Event} {answer : Answer} {page : Nat} {pages : List Nat} {nr : Nat}
  {snapc : SnapContext} {requests : List Request}

theorem state_put_cleaned (page : Nat) : (putWrbufferCapRefs nr snapc (s.inode.cleaned pages)).state page =
    if page ∈ pages then .clean else s.inode.state page := by
  rw [state_put]
  rfl

theorem Swept.cleaned (swept : s.Swept) (apart : ∀ page ∈ pages, s.inode.state page ≠ .dirty) :
    Swept { s with
      inode := putWrbufferCapRefs nr snapc (s.inode.cleaned pages)
      requests := requests } := by
  have dirtyBefore : ∀ page, (putWrbufferCapRefs nr snapc (s.inode.cleaned pages)).Dirty page → s.inode.Dirty page := by
    intro page dirty
    have known := dirty.known
    have state := dirty.dirty
    have below := dirty.below
    rw [indices_put] at known
    rw [state_put_cleaned] at state
    rw [sizeOf_put, context_put] at below
    split at state
    · cases state
    · exact ⟨known, state, below⟩
  have ground : Writepages.ground { s with
      inode := putWrbufferCapRefs nr snapc (s.inode.cleaned pages)
      requests := requests } = s.ground := ground_cleaned
  exact { swept with
    sized := by
      intro passing other isOther
      rw [sizeOf_put]
      exact swept.sized passing other isOther
    ahead := by
      intro other isOther page owed
      have context := owed.context
      rw [context_put] at context
      exact swept.ahead other isOther page
        { dirty := dirtyBefore page owed.dirty
          context := context
          inRange := owed.inRange
          begun := owed.begun }
    vector := by
      intro label
      have vector := swept.vector label
      exact { vector with
        dirty := by
          intro page member
          have dirty := vector.dirty page member
          rw [state_put_cleaned, if_neg fun completed => apart page completed dirty]
          exact dirty }
    finished := by
      intro label page dirty
      exact swept.finished label page (dirtyBefore page dirty) }

theorem dirtyPages_update {state : Nat → PageState} {value : PageState} {indices : List Nat} (once : indices.Nodup)
    (member : page ∈ indices) (dirty : state page = .dirty) (notDirty : value ≠ .dirty) :
    dirtyPages indices state = 1 + dirtyPages indices (update state page value) := by
  have one : indices.countP (· = page) = 1 := by
    have count := count_eq_one_of_mem once member
    exact count
  rw [← one]
  apply countP_parts
  intro other
  by_cases same : other = page
  · simp [same, dirty, notDirty]
  · simp [same]

theorem Ledger.addPage (ledger : Ledger first s) (ascending : s.inode.indices.Pairwise (· < ·)) (known : page ∈ s.inode.indices)
    (dirty : s.inode.state page = .dirty) {extent : Nat} (isReq : s.req = .made extent) :
    Ledger first (s.addPage page) where
  once := by
    intro other
    have once := ledger.once other
    show s.requests.countP (other ∈ ·.pages) + (s.pages ++ [page]).count other =
      due (first.inode.state other) (update s.inode.state page (.writeback (some s.requests.length)) other)
    rw [count_append, ← add_assoc, once]
    by_cases same : other = page
    · subst same
      simp [due, dirty, ledger.dirty other dirty]
    · rw [update_of_ne same, count_eq_zero_of_not_mem (by simpa using same), add_zero]
  dirty := by
    intro other now
    have now : update s.inode.state page _ other = .dirty := now
    by_cases same : other = page
    · rw [same, update_self] at now
      cases now
    · rw [update_of_ne same] at now
      exact ledger.dirty other now
  uncleared := by
    intro other
    show update s.inode.state page _ other ≠ .cleared
    by_cases same : other = page
    · rw [same, update_self]
      exact nofun
    · rw [update_of_ne same]
      exact ledger.uncleared other
  enough := by
    have enough := ledger.enough
    have once : s.inode.indices.Nodup := ascending.imp fun less => less.ne
    have notDirty : PageState.writeback (some s.requests.length) ≠ .dirty := nofun
    have fewer := dirtyPages_update once known dirty notDirty
    show (dirtyPages s.inode.indices (update s.inode.state page (.writeback (some s.requests.length))) +
      (s.pages ++ [page]).length : Int) < s.wbc.nrToWrite
    rw [length_append, length_singleton]
    omega
  pointer := by
    intro errno
    show s.req ≠ _
    rw [isReq]
    exact nofun
  sync := ledger.sync

theorem Ledger.submit (ledger : Ledger first s) (kept : s.Kept) (label : s.label = .submit)
    (ran : s.submit = .ok after) : Ledger first after := by
  have batch := kept.batch (label ▸ trivial)
  have count : s.pages.length = s.lockedPages := by rw [batch.pages, length_range']
  have nodup : s.pages.Nodup := by
    rw [batch.pages]
    exact nodup_range'
  obtain ⟨page, rest, snapc, extent, _, _, _, rfl⟩ := submit_cases ran
  exact { ledger with
    once := by
      intro other
      rw [show (s.submitted page snapc extent).inode = s.inode from rfl, ← ledger.once other]
      simp only [submitted, countP_append, countP_cons, countP_nil, count_nil, nodup.count,
        decide_eq_true_eq, zero_add, add_zero]
    enough := by
      have enough := ledger.enough
      show (dirtyPages s.inode.indices s.inode.state + ([] : List Nat).length : Int) < s.wbc.nrToWrite - s.lockedPages
      simp only [length_nil]
      omega
    pointer := nofun }

theorem Ledger.cleaned (ledger : Ledger first s) (apart : ∀ page ∈ pages, s.inode.state page ≠ .dirty)
    (same : requests.map (·.pages) = s.requests.map (·.pages)) :
    Ledger first { s with
      inode := putWrbufferCapRefs nr snapc (s.inode.cleaned pages)
      requests := requests } := by
  have dirtyBefore : ∀ page, (putWrbufferCapRefs nr snapc (s.inode.cleaned pages)).state page = .dirty ↔
      s.inode.state page = .dirty := by
    intro page
    rw [state_put_cleaned]
    split
    next completed => simp [apart page completed]
    next => exact Iff.rfl
  exact { ledger with
    once := by
      intro page
      have once := ledger.once page
      have count : ∀ requests : List Request,
          requests.countP (page ∈ ·.pages) = (requests.map (·.pages)).countP (page ∈ ·) := by
        intro requests
        rw [countP_map]
        rfl
      rw [count, ← same, ← count] at once
      unfold due at once ⊢
      rw [once]
      simp only [ne_eq, dirtyBefore page]
    dirty := by
      intro page dirty
      exact ledger.dirty page ((dirtyBefore page).mp dirty)
    uncleared := by
      intro page
      rw [state_put_cleaned]
      split
      · exact nofun
      · exact ledger.uncleared page
    enough := by
      have count : dirtyPages (putWrbufferCapRefs nr snapc (s.inode.cleaned pages)).indices
          (putWrbufferCapRefs nr snapc (s.inode.cleaned pages)).state = dirtyPages s.inode.indices s.inode.state := by
        unfold dirtyPages
        rw [indices_put]
        simp only [dirtyBefore]
        rfl
      rw [count]
      exact ledger.enough }

theorem Ledger.go (ledger : Ledger first s) (kept : s.Kept) (swept : s.Swept) (meets : (Event.go answer).Meets s)
    (ran : s.go answer = .ok after) : Ledger first after := by
  unfold Writepages.go at ran
  split at ran
  next =>
    cases ran
    unfold Writepages.retry
    dsimp only
    split <;> exact { ledger with }
  next label =>
    cases ran
    have empty := swept.empty (by rw [label]; exact id)
    have once := ledger.once
    have enough := ledger.enough
    rw [empty] at once enough
    unfold Writepages.loop
    split
    · exact { ledger with
        once := once
        enough := enough }
    · exact { ledger with }
  next =>
    cases ran
    unfold Writepages.getMorePages
    dsimp only
    split <;> exact { ledger with }
  next label =>
    have batch := kept.batch (label ▸ trivial)
    rcases visit_cases ran with ⟨done, _, rfl⟩ | ⟨page, _, rfl⟩ | ⟨page, takes, ran⟩
    · exact { ledger with }
    · exact { ledger with }
    · have known := (kept.found page (mem_of_getElem? takes.found)).1
      rcases takePage_cases ran with ⟨errno, nothing, failed, rfl⟩ | ⟨len, nothing, _, rfl⟩ | ⟨some, rfl⟩
      · obtain ⟨extent, made⟩ := meets.1 label page takes nothing
        rw [failed] at made
        cases made
      · have begun : Ledger first { s with
            req := .made len
            maxPages := calcPagesFor 0 len } :=
          { ledger with pointer := nofun }
        exact begun.addPage kept.counted.ascending known takes.dirty rfl
      · obtain ⟨extent, isReq, _⟩ := batch.request some
        exact ledger.addPage kept.counted.ascending known takes.dirty isReq
  next => rcases collected_cases ran with ⟨_, rfl⟩ | ⟨_, _, rfl⟩ | ⟨_, rfl⟩ <;> exact { ledger with }
  next label => exact ledger.submit kept label ran
  next =>
    cases ran
    exact { ledger with }
  next =>
    cases ran
    unfold Writepages.after
    split <;> exact { ledger with }
  next =>
    obtain ⟨_, rfl⟩ := out_cases ran
    exact { ledger with pointer := nofun }
  next =>
    cases ran
    exact ledger

theorem Swept.go (swept : s.Swept) (kept : s.Kept) (ledger : Ledger first s) (undisturbed : answer.Undisturbed s)
    (meets : (Event.go answer).Meets s) (ran : s.go answer = .ok after) : after.Swept := by
  unfold Writepages.go at ran
  split at ran
  next label =>
    cases ran
    exact swept.retry kept label
  next label =>
    cases ran
    exact swept.loop kept label
  next label =>
    cases ran
    exact swept.getMorePages kept undisturbed ledger.uncleared label
  next label => exact swept.visit kept undisturbed ledger.sync meets label ran
  next label => exact swept.collected kept label ran
  next label =>
    have enough := ledger.enough
    exact swept.submit kept label (by omega) ran
  next label =>
    cases ran
    exact swept.releasePvecPages label
  next label =>
    cases ran
    exact swept.after kept meets label
  next label => exact swept.out label ran
  next =>
    cases ran
    exact swept

theorem completed_cases (kept : s.Kept) (notGo : ∀ answer, event ≠ .go answer) (ran : event.run s = .ok after) :
    after = s ∨ ∃ pages nr snapc requests, (∀ page ∈ pages, s.inode.state page ≠ .dirty) ∧
      requests.map (·.pages) = s.requests.map (·.pages) ∧ after = { s with
        inode := putWrbufferCapRefs nr snapc (s.inode.cleaned pages)
        requests := requests } := by
  cases event with
  | go answer => exact absurd rfl (notGo answer)
  | finish number =>
    unfold Event.run at ran
    dsimp only at ran
    split at ran
    next req sent =>
      split at ran
      · cases ran
        exact .inl rfl
      next isOpen =>
        have isOpen : req.completed = false := by simpa using isOpen
        have inFlight := kept.inFlight number req sent isOpen
        obtain ⟨_, _, ran⟩ := ok_of_bind ran
        cases ran
        refine .inr ⟨_, _, _, _, ?_, ?_, rfl⟩
        · intro page member
          rw [inFlight page (mem_of_mem_take member)]
          exact nofun
        · have pages : (s.requests.map (·.pages))[number]? = some req.pages := by
            rw [getElem?_map, sent]
            rfl
          obtain ⟨known, same⟩ := List.getElem?_eq_some_iff.mp pages
          rw [map_set]
          show (s.requests.map (·.pages)).set number req.pages = _
          rw [← same, set_getElem_self]
    · cases ran
      exact .inl rfl
  | written page =>
    cases ran
    unfold Writepages.writtenElsewhere
    split
    next written =>
      rw [setState_clean]
      refine .inr ⟨[page], 1, s.inode.context page, s.requests, ?_, rfl, rfl⟩
      intro other member
      rw [List.mem_singleton.mp member, written.2]
      exact nofun
    · exact .inl rfl

theorem swept_preserved (first : Writepages) :
    Preserves Event.run (fun event s => event.Undisturbed s ∧ event.Meets s)
      (fun s => s.Kept ∧ s.Swept ∧ Ledger first s) := by
  rintro event before after ⟨undisturbed, meets⟩ ⟨kept, swept, ledger⟩ ran
  refine ⟨kept_preserved event before after trivial kept ran, ?_⟩
  by_cases goes : ∃ answer, event = .go answer
  · obtain ⟨answer, rfl⟩ := goes
    exact ⟨swept.go kept ledger undisturbed meets ran, ledger.go kept swept meets ran⟩
  · rcases completed_cases kept (not_exists.mp goes) ran with rfl | ⟨pages, nr, snapc, requests, apart, same, rfl⟩
    · exact ⟨swept, ledger⟩
    · exact ⟨swept.cleaned apart, ledger.cleaned apart same⟩

end

section

variable {inode : Inode} {wbc : WritebackControl} {wsizeOption writebackIndex : Nat} {s : Writepages}

theorem swept_begin : (begin_ inode wbc wsizeOption writebackIndex).Swept where
  passing := nofun
  fresh := fun _ => rfl
  resumed := fun _ => rfl
  sized := nofun
  ahead := nofun
  empty := fun _ => rfl
  idle := nofun
  further := nofun
  vector := nofun
  finished := nofun

theorem ledger_begin (uncleared : ∀ page, inode.state page ≠ .cleared) (sync : wbc.syncMode = .all)
    (enough : (dirtyPages inode.indices inode.state : Int) < wbc.nrToWrite) :
    Ledger (begin_ inode wbc wsizeOption writebackIndex) (begin_ inode wbc wsizeOption writebackIndex) where
  once := by
    intro page
    show 0 + 0 = due (inode.state page) (inode.state page)
    unfold due
    rw [if_neg fun both => both.2 both.1]
  dirty := fun _ dirty => dirty
  uncleared := uncleared
  enough := by
    show (dirtyPages inode.indices inode.state + (0 : Nat) : Int) < wbc.nrToWrite
    simpa using enough
  pointer := nofun
  sync := sync

end

section

variable {s : Writepages} {event : Event}

theorem error_or_of_haltIf {condition : Prop} [Decidable condition] {fault bug : WritepagesBug} {α : Type}
    {next : Unit → Except WritepagesBug α} (halts : (haltIf condition fault >>= next) = .error bug) :
    fault = bug ∨ next () = .error bug := by
  by_cases holds : condition
  · rw [haltIf, if_pos holds] at halts
    exact .inl (Except.error.inj halts)
  · exact .inr (error_of_haltIf halts holds)

theorem err_of_errorPointer (kept : s.Kept) (halts : event.run s = .error .errorPointer) : ∃ errno, s.req = .err errno := by
  cases event with
  | go answer =>
    have halts : s.go answer = .error .errorPointer := halts
    unfold Writepages.go at halts
    split at halts
    next => cases halts
    next => cases halts
    next => cases halts
    next label => exact absurd halts (kept.visit_returns label)
    next =>
      unfold Writepages.collected at halts
      split at halts
      · cases halts
      · split at halts
        · rcases error_or_of_haltIf halts with other | halts
          · cases other
          · split at halts <;> cases halts
        · cases halts
    next =>
      unfold Writepages.submit at halts
      split at halts
      · rcases error_or_of_haltIf halts with other | halts
        · cases other
        · cases halts
      · cases halts
    next => cases halts
    next => cases halts
    next =>
      unfold Writepages.out at halts
      split at halts
      next errno isErr => exact ⟨errno, isErr⟩
      next => cases halts
    next => cases halts
  | finish number =>
    unfold Event.run at halts
    dsimp only at halts
    split at halts
    · split at halts
      · cases halts
      · unfold Writepages.writepagesFinish at halts
        rcases error_or_of_haltIf halts with other | halts
        · cases other
        · cases halts
    · cases halts
  | written page => cases halts

end

end Writepages

/-- When `ceph_writepages_start` returns after a run in which no new request failed, and whose last walk left no dirty
pages of newer contexts or before its start in the range, every page whose dirty flag was cleared is in one request,
all that was dirty in the range is in a request, and no error pointer was put. -/
theorem writes_all {inode : Inode} {wbc : WritebackControl} {wsizeOption writebackIndex : Nat}
    (counted : inode.Counted) (blkbits : inode.blkbits < 32) (offsets : ∀ page ∈ inode.indices, page < 2 ^ 51)
    (uncleared : ∀ page, inode.state page ≠ .cleared) (sync : wbc.syncMode = .all)
    (enough : (Writepages.dirtyPages inode.indices inode.state : Int) < wbc.nrToWrite) {s : Writepages}
    (reached : Reached Event.run (fun event s => event.Undisturbed s ∧ event.Meets s)
      (.begin_ inode wbc wsizeOption writebackIndex) s) :
    (s.label = .returned →
      (∀ page, inode.state page = .dirty → s.inode.state page ≠ .dirty →
        s.requests.countP (page ∈ ·.pages) = 1) ∧
      ∀ page, inode.Dirty page → (Writepages.begin_ inode wbc wsizeOption writebackIndex).ground.InRange page →
        ∃ req ∈ s.requests, page ∈ req.pages) ∧
    ∀ event : Event, event.run s ≠ .error .errorPointer := by
  have holds : (s.Kept ∧ s.Swept ∧ Writepages.Ledger (.begin_ inode wbc wsizeOption writebackIndex) s) ∧
      s.ground = (Writepages.begin_ inode wbc wsizeOption writebackIndex).ground := by
    apply reached.preserved
    · rintro event before after meets ⟨all, ground⟩ ran
      exact ⟨Writepages.swept_preserved _ event before after meets all ran,
        (Writepages.ground_run ran).trans ground⟩
    · exact ⟨⟨Writepages.kept_begin counted blkbits offsets, Writepages.swept_begin,
        Writepages.ledger_begin uncleared sync enough⟩, rfl⟩
  obtain ⟨⟨kept, swept, ledger⟩, ground⟩ := holds
  have pointer : ∀ event : Event, event.run s ≠ .error .errorPointer := by
    intro event halts
    obtain ⟨errno, isErr⟩ := Writepages.err_of_errorPointer kept halts
    exact ledger.pointer errno isErr
  refine ⟨?_, pointer⟩
  intro label
  have once : ∀ page, inode.state page = .dirty → s.inode.state page ≠ .dirty →
      s.requests.countP (page ∈ ·.pages) = 1 := by
    intro page dirty cleared
    have once := ledger.once page
    rw [swept.empty (by rw [label]; exact id), count_nil, add_zero] at once
    rw [once]
    exact if_pos ⟨dirty, cleared⟩
  refine ⟨once, ?_⟩
  intro page dirty inRange
  have cleared : s.inode.state page ≠ .dirty := by
    intro still
    have known : page ∈ s.ground.indices := ground ▸ dirty.known
    have below : page * pageCacheSize < s.ground.sizeOf (s.ground.context page) := ground ▸ dirty.below
    apply swept.finished (.inr label) page ⟨known, still, below⟩
    rw [ground]
    exact inRange
  have found : 0 < s.requests.countP (page ∈ ·.pages) := by
    rw [once page dirty.dirty cleared]
    exact Nat.one_pos
  obtain ⟨req, member, holds⟩ := List.countP_pos_iff.mp found
  exact ⟨req, member, of_decide_eq_true holds⟩

def quietly (tagged : List Nat) (request : Option Int) : Event :=
  .go
    { tagged := fun page => page ∈ tagged
      lockFails := false
      gone := false
      writeback := false
      undirtied := false
      request := request }

instance Event.decidableUndisturbed : (event : Event) → (s : Writepages) → Decidable (event.Undisturbed s)
  | .go answer, s => decidable_of_iff ((∀ page ∈ s.inode.indices,
      (answer.tagged page = true ↔ s.inode.state page = .dirty ∨ s.inode.state page = .cleared)) ∧
        answer.lockFails = false ∧ answer.gone = false ∧ answer.undirtied = false)
      ⟨fun all => ⟨all.1, all.2.1, all.2.2.1, all.2.2.2⟩, fun all => ⟨all.1, all.2, all.3, all.4⟩⟩
  | .finish _, _ => .isTrue trivial
  | .written _, _ => .isTrue trivial

/-- Enough of `Event.Meets` for a run to be checked. -/
def Event.Plain : Event → Writepages → Prop
  | .go answer, s => (Event.go answer).Undisturbed s ∧
    (s.label = .visit → ∀ page ∈ s.pvec[s.i]?, (s.newRequest answer.request page).toOption.isSome = true) ∧
    (s.label = .after → ∀ page ∈ s.inode.indices, s.inode.state page ≠ .dirty)
  | _, _ => True

instance (event : Event) (s : Writepages) : Decidable (event.Plain s) := by
  cases event <;> unfold Event.Plain <;> infer_instance

theorem Event.Plain.meets {event : Event} {s : Writepages} (plain : event.Plain s) :
    event.Undisturbed s ∧ event.Meets s := by
  cases event with
  | go answer =>
    obtain ⟨undisturbed, made, nothing⟩ := plain
    refine ⟨undisturbed, fun visit page takes _ => ?_, fun after _ _ _ page dirty _ => ?_⟩
    · have some' := made visit page takes.found
      cases made : s.newRequest answer.request page with
      | ok extent => exact ⟨extent, rfl⟩
      | error errno =>
        rw [made] at some'
        cases some'
    · exact absurd dirty.dirty (nothing after page dirty.known)
  | finish number => exact ⟨trivial, trivial⟩
  | written page => exact ⟨trivial, trivial⟩

/-- A cap_snap that counts the first page, and the second page in the context of the head. -/
def twoContexts (size : Nat) : Inode :=
  { twoPages with
    capSnaps := [⟨smallContext, 1, size⟩]
    headSnapc :=
      { addr := 2
        seq := 2 }
    wrbufferRefHead := 1
    context := fun page => if page = 0 then smallContext else ⟨2, 2⟩ }

theorem twoContexts_counted (size : Nat) : (twoContexts size).Counted where
  ascending := (by decide : [0, 1].Pairwise (· < ·))
  ordered := (by decide : (twoContexts 0).counters.Pairwise fun older newer => older.1.seq < newer.1.seq)
  counts := (by decide : ∀ counter ∈ (twoContexts 0).counters, counter.2 = (twoContexts 0).dirtyOf counter.1)
  placed := by
    intro page known _
    rcases List.mem_pair.mp known with rfl | rfl
    · exact ⟨1, (by decide : ((twoContexts 0).context 0, 1) ∈ (twoContexts 0).counters)⟩
    · exact ⟨1, (by decide : ((twoContexts 0).context 1, 1) ∈ (twoContexts 0).counters)⟩

/-- The page of the cap_snap is written and completed, and then that of the head. -/
theorem writes_all_twoContexts : ∃ s : Writepages, s.label = .returned ∧ s.rc = 0 ∧
    s.requests.map (·.pages) = [[0], [1]] ∧ ∀ page ∈ [0, 1], ∃ req ∈ s.requests, page ∈ req.pages := by
  have saw : (runAll Event.run Event.Plain (replicate 4 (quietly [0, 1] none) ++ replicate 4 (quietly [1] none) ++
      [.finish 0] ++ replicate 4 (quietly [1] none) ++ replicate 9 (quietly [] none))
        (.begin_ (twoContexts 8192) wholeRange 4096 0)).map (fun s => (s.label, s.rc, s.requests.map (·.pages))) =
      some (.returned, 0, [[0], [1]]) := by
    decide +kernel
  obtain ⟨s, ran, same⟩ := Option.map_eq_some_iff.mp saw
  have reached := (Reached.start.runAll ran).mono fun _ _ plain => plain.meets
  have uncleared : ∀ page, (twoContexts 8192).state page ≠ .cleared := by
    intro page
    change (if page < 2 then PageState.dirty else .clean) ≠ .cleared
    split <;> exact nofun
  have all := writes_all (twoContexts_counted 8192) (by decide) (by decide) uncleared rfl (by decide) reached
  obtain ⟨label, rc, pages⟩ : s.label = .returned ∧ s.rc = 0 ∧ s.requests.map (·.pages) = [[0], [1]] := by
    simpa using same
  refine ⟨s, label, rc, pages, fun page listed => (all.1 label).2 page ?_ ?_⟩
  · rcases List.mem_pair.mp listed with rfl | rfl
    · exact ⟨by decide, rfl, by decide⟩
    · exact ⟨by decide, rfl, by decide⟩
  · rintro last ⟨⟩
    rcases List.mem_pair.mp listed with rfl | rfl <;> decide

def onePage : Inode :=
  { twoPages with
    wrbufferRefHead := 1
    size := 4096
    indices := [0]
    state := fun page => if page = 0 then .dirty else .clean }

/-- What is seen of a run after the calls: where it is, what it returns, the states of the first two pages and the pages
of the requests. -/
def seen (inode : Inode) (calls : List Event) : Option (Label × Int × List PageState × List (List Nat)) :=
  (runAll Event.run Event.Undisturbed calls (.begin_ inode wholeRange 4096 0)).map fun s =>
    (s.label, s.rc, [s.inode.state 0, s.inode.state 1], s.requests.map (·.pages))

theorem reached_of_seen {inode : Inode} {calls : List Event} {label : Label} {rc : Int} {first second : PageState}
    {pages : List (List Nat)} (saw : seen inode calls = some (label, rc, [first, second], pages)) :
    ∃ s : Writepages, Reached Event.run Event.Undisturbed (.begin_ inode wholeRange 4096 0) s ∧ s.label = label ∧
      s.rc = rc ∧ s.inode.state 0 = first ∧ s.inode.state 1 = second ∧ s.requests.map (·.pages) = pages := by
  unfold seen at saw
  rw [Option.map_eq_some_iff] at saw
  obtain ⟨s, ran, same⟩ := saw
  cases same
  exact ⟨s, Reached.start.runAll ran, rfl, rfl, rfl, rfl, rfl⟩

/-- A page for which no request could be made stays neither dirty nor submitted, and 0 is returned if the next page was
submitted; the error pointer is put if there is none. Without any failure, 0 is returned and a page of a newer context
is left that begins at the size of the oldest one. -/
theorem loses_pages :
    (∃ s : Writepages, Reached Event.run Event.Undisturbed (.begin_ twoPages wholeRange 4096 0) s ∧
      s.label = .returned ∧ s.rc = 0 ∧ s.inode.state 0 = .cleared ∧ s.inode.state 1 = .writeback (some 0) ∧
      s.requests.map (·.pages) = [[1]]) ∧
    (∃ s : Writepages, Reached Event.run Event.Undisturbed (.begin_ onePage wholeRange 4096 0) s ∧
      (quietly [0] none).run s = .error .errorPointer) ∧
    ((twoContexts 4096).Counted ∧ (twoContexts 4096).Dirty 1) ∧
    ∃ s : Writepages, Reached Event.run Event.Undisturbed (.begin_ (twoContexts 4096) wholeRange 4096 0) s ∧
      s.label = .returned ∧ s.rc = 0 ∧ s.inode.state 0 = .writeback (some 0) ∧ s.inode.state 1 = .dirty ∧
      s.requests.map (·.pages) = [[0]] := by
  have alone : Reached Event.run Event.Undisturbed (.begin_ onePage wholeRange 4096 0) _ :=
    ((((((((Reached.start.next (quietly [0] none) (by decide) rfl).next
      (quietly [0] none) (by decide) rfl).next
      (quietly [0] none) (by decide) rfl).next
      (quietly [0] (some (-enomem))) (by decide) rfl).next
      (quietly [0] none) (by decide) rfl).next
      (quietly [0] none) (by decide) rfl).next
      (quietly [0] none) (by decide) rfl).next
      (quietly [0] none) (by decide) rfl).next
      (quietly [0] none) (by decide) rfl
  refine ⟨?_, ⟨_, alone, rfl⟩, ⟨twoContexts_counted 4096, by decide, rfl, by decide⟩, ?_⟩
  · apply reached_of_seen
    show seen twoPages (replicate 3 (quietly [0, 1] none) ++ [quietly [0, 1] (some (-enomem))] ++
      replicate 5 (quietly [0, 1] none) ++ replicate 9 (quietly [0] none)) = _
    decide +kernel
  · apply reached_of_seen
    show seen (twoContexts 4096) (replicate 4 (quietly [0, 1] none) ++ replicate 13 (quietly [1] none)) = _
    decide +kernel

end KmodCeph.Writeback
