import KmodCeph.Dir.Readdir

namespace KmodCeph.Dir

open Lib List Fragment Nat

def direntsFrom (frag : Frag) : Nat → List Entry → List Dirent
  | _, [] => []
  | off, entry :: rest => entry.dirent ⟨frag, off⟩ :: direntsFrom frag (off + 1) rest

def Fragment.first (fragment : Fragment) : Nat :=
  DirFile.firstOffset fragment.frag

def Fragment.direntsAfter (fragment : Fragment) (place : Nat) : List Dirent :=
  direntsFrom fragment.frag (fragment.first + place) (fragment.entries.drop place)

def Fragment.dirents (fragment : Fragment) : List Dirent :=
  fragment.direntsAfter 0

def Directory.listing (dir : Directory) : List Dirent :=
  dir.dot :: dir.dotDot :: dir.fragments.flatMap dirents

def DirFile.accepted (file : DirFile) : List Dirent :=
  (file.offers.filter Prod.snd).map Prod.fst

section

variable {dir : Directory} {fragment : Fragment} {rest fragments : List Fragment} {start place : Nat}

theorem length_direntsFrom (frag : Frag) (off : Nat) (entries : List Entry) :
    (direntsFrom frag off entries).length = entries.length := by
  induction entries generalizing off with
  | nil => rfl
  | cons entry rest ih => rw [direntsFrom, length_cons, ih, length_cons]

variable {frag : Frag} {off : Nat} {entries : List Entry} {dirent : Dirent} {name : Option (List UInt8)}

theorem mem_direntsFrom
    (listed : dirent ∈ direntsFrom frag off entries) : dirent.pos.frag = frag ∧ off ≤ dirent.pos.off := by
  induction entries generalizing off with
  | nil => cases listed
  | cons entry rest ih =>
    rcases List.mem_cons.mp listed with rfl | later
    · exact ⟨rfl, le_rfl⟩
    · exact ⟨(ih later).1, le_of_succ_le (ih later).2⟩

theorem fragCompare_self (frag : Frag) : fragCompare frag frag = 0 := by
  simp [fragCompare]

theorem fragCompare_of_value {l r : Frag} (less : (fragValue l).toNat < (fragValue r).toNat) : fragCompare l r = -1 := by
  rw [fragCompare, if_pos (BitVec.lt_def.mpr less)]

theorem fposCmp_of_value {l r : Fpos} (less : (fragValue l.frag).toNat < (fragValue r.frag).toNat) :
    fposCmp l r < 0 := by
  rw [fposCmp, fragCompare_of_value less, if_pos (by decide)]
  decide

theorem fposCmp_of_off {l r : Fpos} (same : l.frag = r.frag) (less : l.off < r.off) : fposCmp l r < 0 := by
  rw [fposCmp, same, fragCompare_self, if_neg (not_not_intro rfl)]
  omega

theorem direntsFrom_rising (frag : Frag) (off : Nat) (entries : List Entry) :
    (direntsFrom frag off entries).Pairwise fun l r => fposCmp l.pos r.pos < 0 := by
  induction entries generalizing off with
  | nil => exact .nil
  | cons entry rest ih =>
    refine List.pairwise_cons.mpr ⟨?_, ih (off + 1)⟩
    intro dirent later
    obtain ⟨frag, beyond⟩ := mem_direntsFrom later
    exact fposCmp_of_off frag.symm beyond

theorem Tiled.value_ge (tiled : Tiled start fragments) (listed : fragment ∈ fragments) :
    FragWellFormed fragment.frag ∧ start ≤ (fragValue fragment.frag).toNat ∧
      (fragValue fragment.frag).toNat + fragSize fragment.frag ≤ 2 ^ 24 := by
  induction fragments generalizing start with
  | nil => cases listed
  | cons first rest ih =>
    obtain ⟨wellFormed, value, later⟩ := tiled
    rcases List.mem_cons.mp listed with rfl | held
    · refine ⟨wellFormed, value.ge, ?_⟩
      rw [value]
      clear ih listed
      generalize start + fragSize fragment.frag = next at later
      induction rest generalizing next with
      | nil => exact later.le
      | cons other rest ih =>
        obtain ⟨-, -, later⟩ := later
        exact (le_add_right _ _).trans (ih _ later)
    · obtain ⟨formed, beyond, bound⟩ := ih later held
      exact ⟨formed, (le_add_right _ _).trans beyond, bound⟩

theorem Tiled.drop {before : List Fragment} (tiled : Tiled start (before ++ fragment :: rest)) :
    Tiled (fragValue fragment.frag).toNat (fragment :: rest) ∧
      ∀ earlier ∈ before, (fragValue earlier.frag).toNat + fragSize earlier.frag ≤ (fragValue fragment.frag).toNat := by
  induction before generalizing start with
  | nil =>
    have value := tiled.2.1
    exact ⟨value ▸ tiled, nofun⟩
  | cons first before ih =>
    obtain ⟨-, value, later⟩ := tiled
    obtain ⟨here, behind⟩ := ih later
    refine ⟨here, ?_⟩
    intro earlier listed
    rcases List.mem_cons.mp listed with rfl | held
    · have beyond := (later.value_ge (mem_append_right _ mem_cons_self)).2.1
      rw [value]
      exact beyond
    · exact behind earlier held

theorem dirents_frag (listed : dirent ∈ fragment.dirents) :
    dirent.pos.frag = fragment.frag ∧ fragment.first ≤ dirent.pos.off :=
  mem_direntsFrom listed

theorem Tiled.rising (tiled : Tiled start fragments) :
    (fragments.flatMap dirents).Pairwise fun l r => fposCmp l.pos r.pos < 0 := by
  induction fragments generalizing start with
  | nil => exact .nil
  | cons fragment rest ih =>
    obtain ⟨wellFormed, value, later⟩ := tiled
    refine List.pairwise_append.mpr ⟨direntsFrom_rising _ _ _, ih later, ?_⟩
    intro l here r there
    obtain ⟨other, listed, there⟩ := List.mem_flatMap.mp there
    apply fposCmp_of_value
    rw [(dirents_frag here).1, (dirents_frag there).1, value]
    have beyond := (later.value_ge listed).2.1
    have size := fragSize_pos fragment.frag
    omega

theorem dot_before (early : off < 2)
    (listed : dirent ∈ dir.fragments.flatMap dirents) : fposCmp ⟨0, off⟩ dirent.pos < 0 := by
  obtain ⟨fragment, held, listed⟩ := List.mem_flatMap.mp listed
  obtain ⟨frag, beyond⟩ := dirents_frag listed
  by_cases leftmost : (fragValue fragment.frag).toNat = 0
  · have first : fragment.first = 2 := by
      rw [Fragment.first, DirFile.firstOffset, if_pos (fragIsLeftmost_iff.mpr leftmost)]
    by_cases whole : fragment.frag = 0
    · apply fposCmp_of_off
      · rw [frag, whole]
      · dsimp only
        omega
    · have value : fragValue fragment.frag = fragValue 0 := BitVec.eq_of_toNat_eq leftmost
      have bits : fragBits 0 < fragBits fragment.frag := by
        apply BitVec.lt_def.mpr
        have differs : (fragBits fragment.frag).toNat ≠ 0 := by
          intro zero
          exact whole (frag_ext (BitVec.eq_of_toNat_eq zero) value)
        exact Nat.pos_of_ne_zero differs
      have compare : fragCompare 0 fragment.frag = -1 := by
        rw [fragCompare, value, if_neg (BitVec.lt_irrefl _), if_neg (BitVec.lt_irrefl _), if_pos bits]
      rw [fposCmp, frag, compare, if_pos (by decide)]
      decide
  · apply fposCmp_of_value
    rw [frag]
    have zero : (fragValue 0).toNat = 0 := by decide
    exact zero ▸ Nat.pos_of_ne_zero leftmost

theorem listing_rising (dir : Directory) : dir.listing.Pairwise fun l r => fposCmp l.pos r.pos < 0 := by
  refine List.pairwise_cons.mpr ⟨?_, List.pairwise_cons.mpr ⟨?_, dir.tiled.rising⟩⟩
  · intro dirent later
    rcases List.mem_cons.mp later with rfl | listed
    · exact fposCmp_of_off rfl Nat.zero_lt_one
    · exact dot_before (by decide) listed
  · exact fun dirent listed => dot_before (by decide) listed

theorem entriesAfter_take (names : (entries.map Entry.name).Nodup) {entry : Entry}
    (last : (entries.take place).getLast? = some entry) : entriesAfter entry.name entries = entries.drop place := by
  induction entries generalizing place with
  | nil => simp at last
  | cons first more ih =>
    cases place with
    | zero => simp at last
    | succ place =>
      obtain ⟨fresh, moreNames⟩ := List.nodup_cons.mp names
      rw [take_succ_cons, getLast?_cons] at last
      cases later : (more.take place).getLast? with
      | none =>
        rw [later] at last
        cases last
        have nothing : more.take place = [] := getLast?_eq_none_iff.mp later
        rw [entriesAfter, dropWhile_cons_of_neg (by simp), tail_cons, drop_succ_cons]
        rcases List.take_eq_nil_iff.mp nothing with rfl | rfl
        · rfl
        · exact (drop_nil).symm
      | some found =>
        rw [later] at last
        cases last
        have held : found ∈ more := mem_of_mem_take (mem_of_getLast? later)
        have differs : first.name ≠ found.name := by
          intro same
          exact fresh (same ▸ mem_map_of_mem held)
        rw [entriesAfter, dropWhile_cons_of_pos (by simpa using differs), drop_succ_cons]
        exact ih moreNames later

/-- The reply is for the fragment, from a place in it on. -/
structure Slice (fragment : Fragment) (begins : Nat) (reply : Reply) : Prop
    extends reply.Lists (fragment.entries.drop begins) where
  frag : reply.frag = fragment.frag

def Fragment.nameBefore (fragment : Fragment) (place : Nat) : Option (List UInt8) :=
  (fragment.entries.take place).getLast?.map Entry.name

/-- Only one fragment has the value. -/
theorem holds_unique {other : Fragment} (suffix : fragment :: rest <:+ dir.fragments) (listed : other ∈ dir.fragments)
    (value : fragValue frag = fragValue fragment.frag) (holds : other.holds (fragValue frag).toNat) :
    other = fragment := by
  obtain ⟨before, split⟩ := suffix
  have tiled := dir.tiled
  rw [← split] at tiled listed
  obtain ⟨⟨-, -, later⟩, behind⟩ := tiled.drop
  rw [value, Fragment.holds, decide_eq_true_eq] at holds
  rcases List.mem_append.mp listed with earlier | here
  · have ends := behind other earlier
    omega
  rcases List.mem_cons.mp here with same | held
  · exact same
  · have beyond := (later.value_ge held).2.1
    have size := fragSize_pos fragment.frag
    omega

theorem Serves.slice {serve : Serve} (serves : Serves dir serve) (suffix : fragment :: rest <:+ dir.fragments)
    (value : fragValue frag = fragValue fragment.frag)
    (known : frag = fragment.frag → name = fragment.nameBefore place) (unknown : frag ≠ fragment.frag → place = 0) :
    Slice fragment place (serve frag name) := by
  have listed : fragment ∈ dir.fragments := suffix.subset mem_cons_self
  obtain ⟨other, held, holds, answered⟩ := serves.answers frag name
  rw [holds_unique suffix held value holds] at answered
  refine ⟨?_, answered⟩
  by_cases same : frag = fragment.frag
  · have isName := known same
    subst isName same
    cases last : (fragment.entries.take place).getLast? with
    | none =>
      have unnamed : fragment.nameBefore place = none := by
        rw [nameBefore, last]
        rfl
      have all : fragment.entries.drop place = fragment.entries := by
        rcases List.take_eq_nil_iff.mp (getLast?_eq_none_iff.mp last) with rfl | nothing
        · rfl
        · rw [nothing, List.drop_nil]
      rw [unnamed] at answered ⊢
      rw [all]
      exact serves.unnamed fragment listed _ answered
    | some entry =>
      have named : fragment.nameBefore place = some entry.name := by
        rw [nameBefore, last]
        rfl
      rw [named, ← entriesAfter_take (dir.names fragment listed) last]
      exact serves.named fragment listed entry (mem_of_mem_take (mem_of_getLast? last))
  · rw [unknown same]
    exact serves.replaced fragment listed frag name same answered

namespace DirFile

structure Buffered (fragment : Fragment) (place : Nat) (file : DirFile) (reply : Reply) (begins : Nat) : Prop where
  held : file.lastReaddir = some reply
  frag : file.frag = fragment.frag
  slice : Slice fragment begins reply
  offset : file.offset = fragment.first + begins
  behind : begins ≤ place
  within : place ≤ begins + reply.entries.length
  final : reply.dirEnd = true → file.lastName = none ∧
    file.nextOffset = if fragIsRightmost fragment.frag then 2 else 0
  more : reply.dirEnd = false → file.lastName = fragment.nameBefore (begins + reply.entries.length) ∧
    file.nextOffset = fragment.first + (begins + reply.entries.length)

/-- What `more` starts with: the buffer has what comes next, or the next request is for it, or for a fragment that is
not there and begins as this one does. -/
inductive Ready (fragment : Fragment) (place : Nat) (frag : Frag) (off : Nat) (file : DirFile) : Prop where
  | buffered (reply : Reply) (begins : Nat) (same : frag = fragment.frag) (here : off = fragment.first + place)
      (buffer : file.Buffered fragment place reply begins)
      (goesOn : reply.dirEnd = true ∨ place < begins + reply.entries.length)
  | continuing (same : frag = fragment.frag) (here : off = fragment.first + place)
      (stale : file.frag ≠ frag ∨ file.lastReaddir = none) (next : file.nextOffset = fragment.first + place)
      (name : file.lastName = fragment.nameBefore place)
  | starting (differs : frag ≠ fragment.frag) (value : fragValue frag = fragValue fragment.frag)
      (stale : file.frag ≠ frag ∨ file.lastReaddir = none) (start : place = 0)

/-- What was given so far, and where that leaves the position. -/
structure Progress (dir : Directory) (fragment : Fragment) (rest : List Fragment) (place : Nat) (file : DirFile) :
    Prop where
  suffix : fragment :: rest <:+ dir.fragments
  bound : place ≤ fragment.entries.length
  given : file.accepted ++ (fragment.direntsAfter place ++ rest.flatMap dirents) = dir.listing
  fpos : file.fpos = ⟨fragment.frag, fragment.first + place⟩ ∨
    place = 0 ∧ file.fpos.frag ≠ fragment.frag ∧ fragValue file.fpos.frag = fragValue fragment.frag ∧
      file.fpos.off = firstOffset file.fpos.frag
  dentry : file.dentry = none
  atEnd : file.atEnd = false

/-- Positions go up: nothing is offered at or before one that was taken. -/
def Rising (file : DirFile) : Prop :=
  file.offers.Pairwise fun earlier later => earlier.2 = true → fposCmp earlier.1.pos later.1.pos < 0

theorem accepted_snoc (file : DirFile) (dirent : Dirent) (taken : Bool) :
    accepted { file with offers := file.offers ++ [(dirent, taken)] } =
      file.accepted ++ if taken then [dirent] else [] := by
  cases taken <;> simp [accepted]

variable {dirent : Dirent}

theorem Rising.snoc {file : DirFile} {todo : List Dirent} (rising : file.Rising)
    (given : file.accepted ++ dirent :: todo = dir.listing) (taken : Bool) :
    Rising { file with offers := file.offers ++ [(dirent, taken)] } := by
  refine List.pairwise_append.mpr ⟨rising, pairwise_singleton _ _, ?_⟩
  intro earlier listed later last was
  rw [List.mem_singleton.mp last]
  have before : earlier.1 ∈ file.accepted := by
    exact mem_map_of_mem (List.mem_filter.mpr ⟨listed, was⟩)
  have order := listing_rising dir
  rw [← given] at order
  exact (List.pairwise_append.mp order).2.2 _ before _ mem_cons_self

theorem fetch_reply {file : DirFile} {frag : Frag} {off : Nat} {serve : Serve}
    (stale : file.frag ≠ frag ∨ file.lastReaddir = none) (slice : Slice fragment place (serve frag file.lastName))
    (known : frag = fragment.frag → off = fragment.first + place ∧ file.nextOffset = fragment.first + place)
    (unknown : frag ≠ fragment.frag → place = 0) :
    ∃ after, file.fetch serve frag off = .ok (fragment.frag, fragment.first + place, after) ∧
      after.Buffered fragment place (serve frag file.lastName) place ∧
      after = { file with
        frag := after.frag
        offset := after.offset
        lastReaddir := after.lastReaddir
        lastName := after.lastName
        nextOffset := after.nextOffset } := by
  generalize isReply : serve frag file.lastName = reply at slice ⊢
  have offsets : (if reply.frag ≠ frag then (firstOffset reply.frag, firstOffset reply.frag)
      else (off, file.nextOffset)) = (fragment.first + place, fragment.first + place) := by
    rw [slice.frag]
    by_cases same : frag = fragment.frag
    · rw [if_neg (by simp [same]), (known same).1, (known same).2]
    · rw [if_pos (Ne.symm same), unknown same]
      rfl
  unfold fetch
  rw [if_pos stale, isReply]
  dsimp only
  rw [offsets, slice.frag]
  cases finished : reply.dirEnd with
  | true =>
    refine ⟨_, rfl, ⟨rfl, rfl, slice, rfl, le_rfl, le_add_right _ _, fun _ => ⟨rfl, rfl⟩, ?_⟩, rfl⟩
    intro unfinished
    rw [finished] at unfinished
    cases unfinished
  | false =>
    have nonempty := slice.more finished
    cases last : reply.entries.getLast? with
    | none => exact absurd (getLast?_eq_none_iff.mp last) nonempty
    | some entry =>
      refine ⟨_, rfl, ⟨rfl, rfl, slice, rfl, le_rfl, le_add_right _ _, ?_, fun _ => ⟨?_, ?_⟩⟩, rfl⟩
      · intro finish
        rw [finished] at finish
        cases finish
      · have taken : fragment.entries.take (place + reply.entries.length) =
            fragment.entries.take place ++ reply.entries := by
          rw [take_add, ← List.prefix_iff_eq_take.mp slice.entries]
        rw [nameBefore, taken, getLast?_append, last]
        rfl
      · exact Nat.add_assoc _ _ _

/-- The request at `more` is for what comes next, and what it gives is buffered. -/
theorem fetch_buffered {file : DirFile} {frag : Frag} {off : Nat} {serve : Serve} (serves : Serves dir serve)
    (progress : file.Progress dir fragment rest place) (ready : file.Ready fragment place frag off) :
    ∃ after reply begins, file.fetch serve frag off = .ok (fragment.frag, fragment.first + place, after) ∧
      after.Buffered fragment place reply begins ∧
      (reply.dirEnd = true ∨ place < begins + reply.entries.length) ∧
      after = { file with
        frag := after.frag
        offset := after.offset
        lastReaddir := after.lastReaddir
        lastName := after.lastName
        nextOffset := after.nextOffset } := by
  have ahead : ∀ reply, Slice fragment place reply →
      reply.dirEnd = true ∨ place < place + reply.entries.length := by
    intro reply slice
    cases finished : reply.dirEnd with
    | true => exact .inl rfl
    | false => exact .inr (Nat.lt_add_of_pos_right (List.length_pos_iff.mpr (slice.more finished)))
  cases ready with
  | buffered reply begins same here buffer goesOn =>
    refine ⟨file, reply, begins, ?_, buffer, goesOn, rfl⟩
    have current : ¬ (file.frag ≠ frag ∨ file.lastReaddir = none) := by
      rw [buffer.frag, buffer.held, same]
      simp
    rw [fetch, if_neg current, same, here]
    rfl
  | continuing same here stale next name =>
    have slice := serves.slice progress.suffix (same ▸ rfl) (fun _ => name) (fun differs => absurd same differs)
    obtain ⟨after, fetched, buffer, frame⟩ := fetch_reply stale slice
      (fun _ => ⟨here, next⟩) (fun differs => absurd same differs)
    exact ⟨after, _, place, fetched, buffer, ahead _ slice, frame⟩
  | starting differs value stale start =>
    have slice : Slice fragment place (serve frag file.lastName) :=
      serves.slice progress.suffix value (fun same => absurd same differs) (fun _ => start)
    obtain ⟨after, fetched, buffer, frame⟩ := fetch_reply stale slice
      (fun same => absurd same differs) (fun _ => start)
    exact ⟨after, _, place, fetched, buffer, ahead _ slice, frame⟩

theorem direntsAfter_cons {entry : Entry} (here : fragment.entries[place]? = some entry) :
    fragment.direntsAfter place =
      entry.dirent ⟨fragment.frag, fragment.first + place⟩ :: fragment.direntsAfter (place + 1) := by
  obtain ⟨bound, same⟩ := List.getElem?_eq_some_iff.mp here
  rw [direntsAfter, drop_eq_getElem_cons bound, same]
  rfl

theorem direntsAfter_all (fragment : Fragment) : fragment.direntsAfter fragment.entries.length = [] := by
  rw [direntsAfter, drop_length]
  rfl

theorem Buffered.entry {file : DirFile} {reply : Reply} {begins : Nat}
    (buffer : file.Buffered fragment place reply begins) (inside : place < begins + reply.entries.length) :
    ∃ entry, reply.entries[place - begins]? = some entry ∧ fragment.entries[place]? = some entry := by
  have behind := buffer.behind
  have bound : place - begins < reply.entries.length := by omega
  refine ⟨reply.entries[place - begins], getElem?_eq_getElem bound, ?_⟩
  obtain ⟨tail, split⟩ := buffer.slice.entries
  have listed : (fragment.entries.drop begins)[place - begins]? = some reply.entries[place - begins] := by
    rw [← split, getElem?_append_left bound, getElem?_eq_getElem bound]
  rwa [getElem?_drop, Nat.add_sub_cancel' behind] at listed

/-- The loop over the buffer gives what is in it, up to what `filldir` takes. -/
theorem emit_progress {file : DirFile} {reply : Reply} {begins : Nat} (fuel room : Nat)
    (progress : file.Progress dir fragment rest place) (rising : file.Rising)
    (buffer : file.Buffered fragment place reply begins) (enough : begins + reply.entries.length ≤ place + fuel) :
    ∃ later left after, file.emit reply fragment.frag fuel (fragment.first + place) room = .ok (left, after) ∧
      after.Progress dir fragment rest later ∧ after.Rising ∧ after.Buffered fragment later reply begins ∧
      after.accepted.length = file.accepted.length + (later - place) ∧ place ≤ later ∧
      (left = none ∧ later = place + room ∧ later < begins + reply.entries.length ∨
        left = some (room - (later - place), fragment.first + later) ∧ later = begins + reply.entries.length ∧
          later - place ≤ room) := by
  have behind := buffer.behind
  have within := buffer.within
  induction fuel generalizing place room file with
  | zero =>
    refine ⟨place, _, file, rfl, progress, rising, buffer, by lia, le_rfl, .inr ⟨?_, by omega, by omega⟩⟩
    rw [Nat.sub_self, Nat.sub_zero]
  | succ fuel ih =>
    have index : fragment.first + place - file.offset = place - begins := by
      rw [buffer.offset]
      lia
    rw [emit, index]
    by_cases inside : place < begins + reply.entries.length
    · obtain ⟨entry, buffered, listed⟩ := buffer.entry inside
      have next := direntsAfter_cons listed
      have given := progress.given
      rw [next, cons_append] at given
      obtain ⟨bound, -⟩ := List.getElem?_eq_some_iff.mp listed
      rw [if_pos ⟨by rw [buffer.offset]; omega, by lia⟩, buffered]
      cases room with
      | zero =>
        refine ⟨place, _, _, rfl, ?_, rising.snoc given false, ?_, ?_, le_rfl, .inl ⟨rfl, rfl, inside⟩⟩
        · refine ⟨progress.suffix, progress.bound, ?_, progress.fpos, progress.dentry, progress.atEnd⟩
          rw [accepted_snoc]
          simpa using progress.given
        · exact ⟨buffer.held, buffer.frag, buffer.slice, buffer.offset, behind, within, buffer.final, buffer.more⟩
        · rw [accepted_snoc]
          simp
      | succ room =>
        have moved : Progress dir fragment rest (place + 1) { file with
            offers := file.offers ++ [(entry.dirent ⟨fragment.frag, fragment.first + place⟩, true)]
            fpos := ⟨fragment.frag, fragment.first + place + 1⟩ } := by
          refine ⟨progress.suffix, bound, ?_, .inl rfl, progress.dentry, progress.atEnd⟩
          have taken := accepted_snoc file (entry.dirent ⟨fragment.frag, fragment.first + place⟩) true
          rw [if_pos rfl] at taken
          calc
            _ = (file.accepted ++ [entry.dirent ⟨fragment.frag, fragment.first + place⟩]) ++
                (fragment.direntsAfter (place + 1) ++ rest.flatMap dirents) := by rw [← taken]; rfl
            _ = dir.listing := by rw [append_assoc, singleton_append, given]
        obtain ⟨later, left, after, ran, progressed, rose, buffered, count, ahead, outcome⟩ :=
          ih room moved (rising.snoc given true)
            ⟨buffer.held, buffer.frag, buffer.slice, buffer.offset, by omega, inside, buffer.final, buffer.more⟩
            (by omega) (by omega) inside
        have length : accepted { file with
            offers := file.offers ++ [(entry.dirent ⟨fragment.frag, fragment.first + place⟩, true)]
            fpos := ⟨fragment.frag, fragment.first + place + 1⟩ } = _ :=
          accepted_snoc file (entry.dirent ⟨fragment.frag, fragment.first + place⟩) true
        rw [length, length_append, if_pos rfl, length_singleton] at count
        refine ⟨later, left, after, ran, progressed, rose, buffered, by lia, by omega, ?_⟩
        rcases outcome with ⟨refused, at_, inside⟩ | ⟨passed, done, enoughRoom⟩
        · exact .inl ⟨refused, by lia, inside⟩
        · refine .inr ⟨?_, done, by lia⟩
          rw [passed, show room - (later - (place + 1)) = room + 1 - (later - place) by lia]
    · refine ⟨place, _, file, ?_, progress, rising, buffer, by lia, le_rfl, .inr ⟨rfl, by omega, by omega⟩⟩
      rw [if_neg (by lia), Nat.sub_self, Nat.sub_zero]
      rfl

inductive Resting (dir : Directory) (file : DirFile) : Prop where
  | dot (fresh : file = { opened with offers := file.offers }) (given : file.accepted = [])
  | dotDot (fresh : file = { opened with
      fpos := ⟨0, 1⟩
      offers := file.offers }) (given : file.accepted = [dir.dot])
  | within (fragment : Fragment) (rest : List Fragment) (place : Nat)
      (progress : file.Progress dir fragment rest place)
      (ready : file.Ready fragment place file.fpos.frag file.fpos.off)
  | ended (atEnd : file.atEnd = true) (dentry : file.dentry = none) (given : file.accepted = dir.listing)

structure Called (dir : Directory) (given room : Nat) (after : DirFile) : Prop where
  resting : after.Resting dir
  rising : after.Rising
  count : after.accepted.length = min (given + room) dir.listing.length
  atEnd : after.atEnd = true ↔ dir.listing.length ≤ given + room

theorem Progress.frame {file after : DirFile} (progress : file.Progress dir fragment rest place)
    (offers : after.offers = file.offers) (fpos : after.fpos = file.fpos) (dentry : after.dentry = file.dentry)
    (atEnd : after.atEnd = file.atEnd) : after.Progress dir fragment rest place where
  suffix := progress.suffix
  bound := progress.bound
  given := by
    rw [accepted, offers]
    exact progress.given
  fpos := fpos ▸ progress.fpos
  dentry := dentry.trans progress.dentry
  atEnd := atEnd.trans progress.atEnd

theorem Progress.count {file : DirFile} (progress : file.Progress dir fragment rest place) :
    file.accepted.length + (fragment.entries.length - place) + (rest.flatMap dirents).length =
      dir.listing.length := by
  rw [← progress.given, length_append, length_append, direntsAfter, length_direntsFrom,
    length_drop, Nat.add_assoc]

/-- The fragment after one that is not the rightmost begins at its `ceph_frag_next`. -/
theorem rest_of_inner (suffix : fragment :: rest <:+ dir.fragments) :
    FragWellFormed fragment.frag ∧ (fragIsRightmost fragment.frag = true → rest = []) ∧
      (fragIsRightmost fragment.frag = false → ∃ next more, rest = next :: more ∧
        fragValue (fragNext fragment.frag) = fragValue next.frag ∧
        (fragValue fragment.frag).toNat < (fragValue next.frag).toNat) := by
  obtain ⟨before, split⟩ := suffix
  have tiled := dir.tiled
  rw [← split] at tiled
  obtain ⟨⟨wellFormed, -, later⟩, -⟩ := tiled.drop
  refine ⟨wellFormed, ?_, ?_⟩
  · intro rightmost
    rw [(fragIsRightmost_iff wellFormed.bits).mp rightmost] at later
    cases rest with
    | nil => rfl
    | cons next more =>
      obtain ⟨-, value, -⟩ := later
      have below := fragValue_lt next.frag
      omega
  · intro inner
    have notLast : (fragValue fragment.frag).toNat + fragSize fragment.frag ≠ 2 ^ 24 := by
      intro last
      rw [(fragIsRightmost_iff wellFormed.bits).mpr last] at inner
      cases inner
    cases rest with
    | nil => exact absurd later notLast
    | cons next more =>
      obtain ⟨-, value, -⟩ := later
      have below := fragValue_lt next.frag
      have size := fragSize_pos fragment.frag
      obtain ⟨-, nextValue⟩ := fragNext_spec wellFormed (by omega)
      refine ⟨next, more, rfl, BitVec.eq_of_toNat_eq ?_, ?_⟩
      · rw [nextValue, value]
      · omega

theorem Buffered.dirEnd_iff {file : DirFile} {reply : Reply} {begins : Nat}
    (buffer : file.Buffered fragment place reply begins) : file.lastName = none ↔ reply.dirEnd = true := by
  constructor
  · intro unnamed
    by_contra unfinished
    have unfinished : reply.dirEnd = false := by simpa using unfinished
    rw [(buffer.more unfinished).1, nameBefore, Option.map_eq_none_iff, getLast?_eq_none_iff] at unnamed
    have nonempty := List.length_pos_iff.mpr (buffer.slice.more unfinished)
    have bound := buffer.slice.entries.length_le
    rw [length_drop] at bound
    have length := congrArg List.length unnamed
    rw [List.length_take, length_nil] at length
    lia
  · exact fun finished => (buffer.final finished).1

/-- A call that goes on after it has given some. -/
theorem Called.later {given passed room : Nat} {after : DirFile} (called : after.Called dir (given + passed) (room - passed))
    (fits : passed ≤ room) : after.Called dir given room := by
  have all : given + passed + (room - passed) = given + room := by omega
  exact ⟨called.resting, called.rising, all ▸ called.count, all ▸ called.atEnd⟩

/-- Behind the last entry of a fragment the position is at the start of the next one, or of one that is not there and
begins as it does. -/
theorem Progress.nextFragment {file : DirFile} {next : Fragment} {more : List Fragment}
    (progress : file.Progress dir fragment (next :: more) fragment.entries.length)
    (value : fragValue (fragNext fragment.frag) = fragValue next.frag)
    (above : (fragValue fragment.frag).toNat < (fragValue next.frag).toNat) (buffered : file.frag = fragment.frag)
    (unnamed : file.lastName = none) (offset : file.nextOffset = 0) :
    Progress dir next more 0 { file with fpos := ⟨fragNext fragment.frag, 0⟩ } ∧
      Ready next 0 (fragNext fragment.frag) 0 { file with fpos := ⟨fragNext fragment.frag, 0⟩ } := by
  have notLeftmost : ∀ frag, fragValue frag = fragValue next.frag → firstOffset frag = 0 := by
    intro frag same
    rw [firstOffset, if_neg]
    rw [fragIsLeftmost_iff, same]
    lia
  have stale : file.frag ≠ fragNext fragment.frag := by
    rw [buffered]
    intro same
    rw [← same] at value
    rw [value] at above
    omega
  have given := progress.given
  rw [direntsAfter_all, nil_append, flatMap_cons] at given
  have suffix := (suffix_cons _ _).trans progress.suffix
  by_cases same : fragNext fragment.frag = next.frag
  · have start : next.first + 0 = 0 := by rw [Fragment.first, notLeftmost _ rfl]
    refine ⟨⟨suffix, zero_le _, given, .inl ?_, progress.dentry, progress.atEnd⟩, ?_⟩
    · rw [same, start]
    · exact .continuing same start.symm (.inl stale) (offset.trans start.symm) unnamed
  · refine ⟨⟨suffix, zero_le _, given, .inr ⟨rfl, same, value, (notLeftmost _ value).symm⟩, progress.dentry,
      progress.atEnd⟩, ?_⟩
    exact .starting same value (.inl stale) rfl

/-- From `more` on a call gives what is left, up to what `filldir` takes, with enough requests for it. -/
theorem listFrom_called {serves : Nat → Serve} (served : ∀ request, Serves dir (serves request)) (fuel room : Nat)
    {file : DirFile} {frag : Frag} {off : Nat}
    (progress : file.Progress dir fragment rest place) (rising : file.Rising)
    (ready : file.Ready fragment place frag off)
    (enough : fragment.entries.length - place + (rest.map fun fragment => fragment.entries.length + 1).sum < fuel) :
    ∃ after, listFrom serves fuel frag off room file = .ok (0, after) ∧
      after.Called dir file.accepted.length room := by
  induction fuel generalizing fragment rest place room file frag off with
  | zero => omega
  | succ fuel ih =>
    obtain ⟨fetched, reply, begins, ran, buffer, goesOn, frame⟩ := fetch_buffered (served fuel) progress ready
    have sameOffers : fetched.offers = file.offers := by rw [frame]
    have fetchedProgress : fetched.Progress dir fragment rest place :=
      progress.frame sameOffers (by rw [frame]) (by rw [frame]) (by rw [frame])
    have fetchedRising : fetched.Rising := by
      rw [Rising, sameOffers]
      exact rising
    have sameCount : fetched.accepted.length = file.accepted.length := by rw [accepted, sameOffers, accepted]
    have behind := buffer.behind
    obtain ⟨later, left, emitted, emits, progressed, rose, buffered, count, ahead, outcome⟩ :=
      emit_progress reply.entries.length room fetchedProgress fetchedRising buffer (by omega)
    have passed : emitted.accepted.length = file.accepted.length + (later - place) := sameCount ▸ count
    have total := progressed.count
    rw [listFrom, ran]
    simp only [bind, Except.bind, buffer.held, emits]
    have inside := buffered.slice.entries.length_le
    rw [length_drop] at inside
    rcases outcome with ⟨rfl, at_, refused⟩ | ⟨rfl, done, enoughRoom⟩
    · have bound := progressed.bound
      refine ⟨emitted, rfl, ?_, rose, by lia, ?_⟩
      · refine .within fragment rest later progressed ?_
        rcases progressed.fpos with settled | ⟨start, differs, value, -⟩
        · rw [settled]
          exact .buffered reply begins rfl rfl buffered (.inr refused)
        · exact .starting differs value (.inl (by rw [buffered.frag]; exact differs.symm)) start
      · rw [progressed.atEnd]
        constructor
        · exact nofun
        · intro all
          lia
    · dsimp only
      by_cases named : emitted.lastName = none
      · have finished := buffered.dirEnd_iff.mp named
        have whole := congrArg List.length (buffered.slice.final finished)
        rw [length_drop] at whole
        have bound := progressed.bound
        have complete : later = fragment.entries.length := by lia
        obtain ⟨wellFormed, last, inner⟩ := rest_of_inner progressed.suffix
        rw [if_neg (not_not_intro named)]
        by_cases rightmost : fragIsRightmost fragment.frag = true
        · have nothing := last rightmost
          subst nothing
          have given := progressed.given
          rw [complete, direntsAfter_all, nil_append, flatMap_nil, List.append_nil] at given
          rw [if_pos rightmost]
          refine ⟨_, rfl, .ended rfl progressed.dentry given, rose, ?_, ?_⟩
          · show emitted.accepted.length = _
            lia
          · exact ⟨fun _ => by lia, fun _ => rfl⟩
        · rw [if_neg rightmost]
          obtain ⟨next, more, rfl, value, above⟩ := inner (by simpa using rightmost)
          subst complete
          obtain ⟨moved, nextReady⟩ := progressed.nextFragment value above buffered.frag named
            ((buffered.final finished).2.trans (if_neg rightmost))
          rw [map_cons, sum_cons] at enough
          obtain ⟨after, listed, called⟩ := ih (room - (fragment.entries.length - place)) moved rose nextReady (by lia)
          have went : after.Called dir emitted.accepted.length _ := called
          rw [passed] at went
          exact ⟨after, listed, went.later enoughRoom⟩
      · rw [if_pos named]
        have unfinished : reply.dirEnd = false := by
          rw [← Bool.not_eq_true, ← buffered.dirEnd_iff]
          exact named
        obtain ⟨name, nextOffset⟩ := buffered.more unfinished
        rw [← done] at name nextOffset
        have further : place < later := by
          rcases goesOn with finished | further
          · rw [finished] at unfinished
            cases unfinished
          · lia
        have dropped : Progress dir fragment rest later { emitted with lastReaddir := none } :=
          progressed.frame rfl rfl rfl rfl
        have nextReady : Ready fragment later fragment.frag (fragment.first + later)
            { emitted with lastReaddir := none } :=
          .continuing rfl rfl (.inr rfl) nextOffset name
        obtain ⟨after, listed, called⟩ := ih (room - (later - place)) dropped rose nextReady (by lia)
        have went : after.Called dir emitted.accepted.length _ := called
        rw [passed] at went
        exact ⟨after, listed, went.later enoughRoom⟩

theorem length_listing (dir : Directory) :
    dir.listing.length = 2 + (dir.fragments.flatMap dirents).length := by
  rw [Directory.listing, length_cons, length_cons]
  omega

theorem fuel_enough (suffix : fragment :: rest <:+ dir.fragments) :
    fragment.entries.length - place + (rest.map fun fragment => fragment.entries.length + 1).sum < dir.fuel := by
  obtain ⟨before, split⟩ := suffix
  rw [Directory.fuel, ← split, map_append, List.sum_append_nat, map_cons, sum_cons]
  lia

theorem syncReaddir_called {file : DirFile} {call : ReaddirCall} (served : call.Served dir) (room : Nat)
    (progress : file.Progress dir fragment rest place) (rising : file.Rising)
    (ready : file.Ready fragment place file.fpos.frag file.fpos.off) :
    ∃ after, file.syncReaddir dir call room = .ok (0, after) ∧ after.Called dir file.accepted.length room := by
  rw [syncReaddir, progress.dentry]
  exact listFrom_called served dir.fuel room progress rising ready (fuel_enough progress.suffix)

theorem started_progress {offers : List (Dirent × Bool)} {file : DirFile}
    (fresh : file = { opened with
      fpos := ⟨0, 2⟩
      offers := offers })
    (given : file.accepted = [dir.dot, dir.dotDot]) :
    ∃ fragment rest, file.Progress dir fragment rest 0 ∧ file.Ready fragment 0 file.fpos.frag file.fpos.off := by
  have tiled := dir.tiled
  cases split : dir.fragments with
  | nil =>
    rw [split] at tiled
    cases tiled
  | cons fragment rest =>
    rw [split] at tiled
    obtain ⟨-, value, -⟩ := tiled
    have sameValue : fragValue 0 = fragValue fragment.frag := BitVec.eq_of_toNat_eq value.symm
    have isDot : file.fpos = ⟨0, 2⟩ := by rw [fresh]
    refine ⟨fragment, rest, ⟨split ▸ suffix_rfl, zero_le _, ?_, ?_, by rw [fresh]; rfl,
      by rw [fresh]; rfl⟩, ?_⟩
    · rw [given, Directory.listing, split]
      rfl
    · rw [isDot]
      by_cases whole : 0 = fragment.frag
      · left
        rw [Fragment.first, ← whole]
        rfl
      · exact .inr ⟨rfl, whole, sameValue, rfl⟩
    · rw [isDot]
      have stale : file.frag ≠ 0 ∨ file.lastReaddir = none := .inr (by rw [fresh]; rfl)
      by_cases whole : 0 = fragment.frag
      · refine .continuing whole ?_ stale ?_ ?_
        · rw [Fragment.first, ← whole]
          rfl
        · rw [fresh, Fragment.first, ← whole]
          rfl
        · rw [fresh]
          rfl
      · exact .starting whole sameValue stale rfl

theorem Progress.fpos_ne {file : DirFile} (progress : file.Progress dir fragment rest place) {off : Nat}
    (early : off < 2) : file.fpos ≠ ⟨0, off⟩ := by
  intro at_
  rcases progress.fpos with settled | ⟨-, -, -, here⟩
  · rw [settled, Fpos.mk.injEq] at at_
    obtain ⟨whole, same⟩ := at_
    rw [Fragment.first, whole] at same
    have two : firstOffset 0 = 2 := by decide
    omega
  · rw [at_] at here
    have two : firstOffset 0 = 2 := by decide
    dsimp only at here
    omega

/-- How many of `.` and `..` are left, while no entry was taken. -/
def dotsLeft (file : DirFile) : Option Nat :=
  if file.fpos = ⟨0, 0⟩ then some 2
  else if file.fpos = ⟨0, 1⟩ then some 1
  else if file.fpos = ⟨0, 2⟩ then some 0
  else none

/-- A call is over, or it comes to the entries with the position behind `..`. -/
inductive Begun (dir : Directory) (call : ReaddirCall) (file : DirFile) : Prop where
  | returned (after : DirFile) (ran : file.readdir dir call = .ok (0, after))
      (called : after.Called dir file.accepted.length call.room)
  | entries (started : DirFile) (room place : Nat) (fragment : Fragment) (rest : List Fragment)
      (ran : file.readdir dir call = started.readdirEntries dir call room)
      (progress : started.Progress dir fragment rest place) (rising : started.Rising)
      (ready : started.Ready fragment place started.fpos.frag started.fpos.off)
      (count : started.accepted.length + room = file.accepted.length + call.room)
      (dots : started.fpos = ⟨0, 2⟩ → ∃ left, file.dotsLeft = some left ∧
        started.accepted.length = file.accepted.length + left)

theorem filldirDot_other {file : DirFile} {room : Nat} (elsewhere : file.fpos ≠ dirent.pos) :
    file.filldirDot dirent room = (true, room, file) := by
  rw [filldirDot, if_neg elsewhere]

theorem begun_dotDot {call : ReaddirCall} {file started : DirFile} (room : Nat)
    (ran : file.readdir dir call = match started.filldirDot dir.dotDot room with
      | (false, _, file) => .ok (0, file)
      | (true, room, file) => file.readdirEntries dir call room)
    (fresh : started = { opened with
      fpos := ⟨0, 1⟩
      offers := started.offers })
    (given : started.accepted = [dir.dot]) (rising : started.Rising)
    (count : 1 + room = file.accepted.length + call.room) {left : Nat} (dots : file.dotsLeft = some left)
    (both : file.accepted.length + left = 2) : file.Begun dir call := by
  have whole : started.accepted ++ dir.dotDot :: dir.fragments.flatMap dirents = dir.listing := by
    rw [given]
    rfl
  have here : started.fpos = dir.dotDot.pos := by
    rw [fresh]
    rfl
  rw [filldirDot, if_pos here, filldir] at ran
  have total := length_listing dir
  cases room with
  | zero =>
    refine .returned _ ran ⟨.dotDot ?_ ?_, rising.snoc whole false, ?_, ?_⟩
    · rw [fresh]
    · rw [accepted_snoc, given]
      rfl
    · have untaken := accepted_snoc started dir.dotDot false
      rw [if_neg Bool.false_ne_true, List.append_nil, given] at untaken
      have length := congrArg List.length untaken
      rw [length_singleton] at length
      exact length.trans (by lia)
    · have notEnd : started.atEnd = false := by
        rw [fresh]
        rfl
      rw [notEnd]
      exact ⟨nofun, fun all => by lia⟩
  | succ room =>
    have taken : accepted { started with
        offers := started.offers ++ [(dir.dotDot, true)]
        fpos := ⟨0, 2⟩ } = [dir.dot, dir.dotDot] := by
      have snoc := accepted_snoc started dir.dotDot true
      rw [given] at snoc
      exact snoc
    obtain ⟨fragment, rest, progress, ready⟩ := @started_progress dir (started.offers ++ [(dir.dotDot, true)]) { started with
      offers := started.offers ++ [(dir.dotDot, true)]
      fpos := ⟨0, 2⟩ } (by rw [fresh]) taken
    have length := congrArg List.length taken
    rw [length_cons, length_singleton] at length
    refine .entries _ room 0 fragment rest ran progress (rising.snoc whole true) ready ?_ fun _ => ⟨left, dots, ?_⟩
    · exact (congrArg (· + room) length).trans (by lia)
    · exact length.trans both.symm

theorem readdir_begun (call : ReaddirCall) {file : DirFile} (resting : file.Resting dir) (rising : file.Rising) :
    file.Begun dir call := by
  have total := length_listing dir
  cases resting with
  | ended atEnd dentry given =>
    refine .returned file (by rw [readdir, if_pos atEnd]; rfl) ⟨.ended atEnd dentry given, rising, ?_, ?_⟩
    · rw [given]
      lia
    · rw [atEnd, given]
      exact ⟨fun _ => by omega, fun _ => rfl⟩
  | within fragment rest place progress ready =>
    refine .entries file call.room place fragment rest ?_ progress rising ready rfl fun here => ⟨0, ?_, rfl⟩
    swap
    · rw [dotsLeft, here]
      rfl
    have notEnd : ¬ file.atEnd = true := by
      rw [progress.atEnd]
      decide
    have notDot : file.filldirDot dir.dot call.room = (true, call.room, file) :=
      filldirDot_other (progress.fpos_ne (by decide))
    have notDotDot : file.filldirDot dir.dotDot call.room = (true, call.room, file) :=
      filldirDot_other (progress.fpos_ne (by decide))
    rw [readdir, if_neg notEnd, notDot]
    dsimp only
    rw [notDotDot]
  | dotDot fresh given =>
    refine begun_dotDot call.room ?_ fresh given rising (by rw [given]; rfl) (by rw [dotsLeft, fresh]; rfl)
      (by rw [given]; rfl)
    have notEnd : ¬ file.atEnd = true := by
      rw [fresh]
      exact Bool.false_ne_true
    have notDot : file.filldirDot dir.dot call.room = (true, call.room, file) := by
      apply filldirDot_other
      rw [fresh]
      intro same
      cases (Fpos.mk.inj same).2
    rw [readdir, if_neg notEnd, notDot]
    rfl
  | dot fresh given =>
    have whole : file.accepted ++ dir.dot :: dir.dotDot :: dir.fragments.flatMap dirents = dir.listing := by
      rw [given]
      rfl
    have notEnd : ¬ file.atEnd = true := by
      rw [fresh]
      exact Bool.false_ne_true
    have here : file.fpos = dir.dot.pos := by
      rw [fresh]
      rfl
    have ran : file.readdir dir call = match file.filldirDot dir.dot call.room with
        | (false, _, file) => .ok (0, file)
        | (true, room, file) =>
          match file.filldirDot dir.dotDot room with
          | (false, _, file) => .ok (0, file)
          | (true, room, file) => file.readdirEntries dir call room := by
      rw [readdir, if_neg notEnd]
      rfl
    rw [filldirDot, if_pos here, filldir] at ran
    by_cases full : call.room = 0
    · rw [full] at ran
      refine .returned _ ran ⟨.dot ?_ ?_, rising.snoc whole false, ?_, ?_⟩
      · rw [fresh]
      · rw [accepted_snoc, given]
        rfl
      · rw [accepted_snoc, given, full]
        simp
      · have still : file.atEnd = false := by simpa using notEnd
        rw [still, given, full]
        exact ⟨nofun, fun all => by simp only [length_nil] at all; omega⟩
    · rw [decide_eq_true full] at ran
      have one : accepted { file with
          offers := file.offers ++ [(dir.dot, true)]
          fpos := ⟨0, 1⟩ } = [dir.dot] := by
        have taken := accepted_snoc file dir.dot true
        rw [given] at taken
        exact taken
      refine begun_dotDot (call.room - 1) ran ?_ one (rising.snoc whole true) ?_ (by rw [dotsLeft, fresh]; rfl)
        (by rw [given]; rfl)
      · rw [fresh]
        rfl
      · rw [given, length_nil]
        lia

theorem readdir_called {call : ReaddirCall} {file : DirFile} (sync : call.Sync dir file) (resting : file.Resting dir)
    (rising : file.Rising) :
    ∃ after, file.readdir dir call = .ok (0, after) ∧ after.Called dir file.accepted.length call.room := by
  cases readdir_begun call resting rising with
  | returned after ran called => exact ⟨after, ran, called⟩
  | entries started room place fragment rest ran progress rising ready count dots =>
    obtain ⟨after, listed, called⟩ := syncReaddir_called sync.1 room progress rising ready
    refine ⟨after, ?_, called.resting, called.rising, ?_, ?_⟩
    · rw [ran, readdirEntries, sync.2]
      exact listed
    · rw [called.count, count]
    · rw [called.atEnd, count]

theorem Resting.accepted_prefix {file : DirFile} (resting : file.Resting dir) : file.accepted <+: dir.listing := by
  cases resting with
  | dot fresh given => exact given ▸ nil_prefix
  | dotDot fresh given => exact ⟨_, by rw [given]; rfl⟩
  | within fragment rest place progress ready => exact ⟨_, progress.given⟩
  | ended atEnd dentry given => exact given ▸ prefix_rfl

theorem Resting.accepted_all {file : DirFile} (resting : file.Resting dir) (atEnd : file.atEnd = true) :
    file.accepted = dir.listing := by
  cases resting with
  | dot fresh given =>
    rw [fresh] at atEnd
    cases atEnd
  | dotDot fresh given =>
    rw [fresh] at atEnd
    cases atEnd
  | within fragment rest place progress ready =>
    rw [progress.atEnd] at atEnd
    cases atEnd
  | ended atEnd dentry given => exact given

theorem ReaddirCall.keeps_resting (dir : Directory) :
    Keeps (ReaddirCall.run dir) (ReaddirCall.Sync dir) fun file => file.Resting dir ∧ file.Rising := by
  intro call file sync ⟨resting, rising⟩
  obtain ⟨after, ran, called⟩ := readdir_called sync resting rising
  refine ⟨after, ?_, called.resting, called.rising⟩
  rw [ReaddirCall.run, ran]
  rfl

/-- Calls of `ceph_readdir` that do not use the dcache, however `filldir` and the mds cut them, give `.`, `..` and the
entries of all fragments in order, each once and at rising positions, and come to the end when nothing is refused. -/
theorem readdir_lists {file : DirFile}
    (reached : Reached (ReaddirCall.run dir) (ReaddirCall.Sync dir) opened file) :
    file.accepted <+: dir.listing ∧ (file.atEnd = true → file.accepted = dir.listing) ∧ file.Rising ∧
      ∀ call : ReaddirCall, call.Sync dir file → ∃ after, call.run dir file = .ok after ∧
        after.accepted.length = min (file.accepted.length + call.room) dir.listing.length ∧
        (after.atEnd = true ↔ dir.listing.length ≤ file.accepted.length + call.room) := by
  have openedRising : opened.Rising := List.Pairwise.nil
  obtain ⟨resting, rising⟩ := reached.holds (ReaddirCall.keeps_resting dir) ⟨.dot rfl rfl, openedRising⟩
  refine ⟨resting.accepted_prefix, resting.accepted_all, rising, ?_⟩
  intro call sync
  obtain ⟨after, ran, called⟩ := readdir_called sync resting rising
  refine ⟨after, ?_, called.count, called.atEnd⟩
  rw [ReaddirCall.run, ran]
  rfl

end DirFile

end

theorem Tiled.covers {start value : Nat} {fragments : List Fragment} (tiled : Tiled start fragments)
    (above : start ≤ value) (below : value < 2 ^ 24) : ∃ fragment ∈ fragments, fragment.holds value := by
  induction fragments generalizing start with
  | nil =>
    have whole : start = 2 ^ 24 := tiled
    omega
  | cons first rest ih =>
    obtain ⟨-, begins, later⟩ := tiled
    by_cases here : value < start + fragSize first.frag
    · exact ⟨first, mem_cons_self, by rw [Fragment.holds, decide_eq_true_eq]; omega⟩
    · obtain ⟨fragment, held, holds⟩ := ih later (not_lt.mp here)
      exact ⟨fragment, mem_cons_of_mem _ held, holds⟩

/-- A reply with these entries: all of them, or the first so many and at least one. -/
def Fragment.reply (fragment : Fragment) (cut : Option Nat) (rest : List Entry) : Reply :=
  match cut, rest with
  | some most, first :: more =>
    { frag := fragment.frag
      entries := (first :: more).take (max most 1)
      dirEnd := false }
  | _, _ =>
    { frag := fragment.frag
      entries := rest
      dirEnd := true }

/-- An mds that answers as `Serves` says, and cuts its replies like this. -/
def Directory.serve (dir : Directory) (cut : Option Nat) : Serve := fun asked name =>
  match dir.fragments.find? fun fragment => fragment.holds (fragValue asked).toNat with
  | none => ⟨asked, [], true⟩
  | some fragment =>
    match name with
    | none => fragment.reply cut fragment.entries
    | some name =>
      fragment.reply cut (if fragment.frag = asked then entriesAfter name fragment.entries else fragment.entries)

theorem Fragment.reply_lists (fragment : Fragment) (cut : Option Nat) (rest : List Entry) :
    (fragment.reply cut rest).frag = fragment.frag ∧ (fragment.reply cut rest).Lists rest := by
  unfold Fragment.reply
  split
  · next most first more =>
    refine ⟨rfl, take_prefix _ _, nofun, ?_⟩
    intro _ nothing
    rcases List.take_eq_nil_iff.mp nothing with zero | empty
    · omega
    · cases empty
  · exact ⟨rfl, prefix_rfl, fun _ => rfl, nofun⟩

theorem Directory.serves (dir : Directory) (cut : Option Nat) : Serves dir (dir.serve cut) := by
  have found : ∀ asked, ∃ fragment, dir.fragments.find? (fun fragment => fragment.holds (fragValue asked).toNat) =
      some fragment ∧ fragment ∈ dir.fragments ∧ fragment.holds (fragValue asked).toNat := by
    intro asked
    cases ran : dir.fragments.find? fun fragment => fragment.holds (fragValue asked).toNat with
    | some fragment =>
      have holds := List.find?_some ran
      exact ⟨fragment, rfl, mem_of_find?_eq_some ran, holds⟩
    | none =>
      obtain ⟨fragment, held, holds⟩ := dir.tiled.covers (Nat.zero_le _) (fragValue_lt asked)
      exact absurd holds (by simpa using List.find?_eq_none.mp ran fragment held)
  have same : ∀ {fragment other : Fragment}, fragment ∈ dir.fragments → other ∈ dir.fragments →
      other.frag = fragment.frag → other = fragment := by
    intro fragment other held listed alike
    obtain ⟨before, after, split⟩ := append_of_mem held
    refine @holds_unique dir fragment after fragment.frag other ⟨before, split.symm⟩ listed rfl ?_
    have size := fragSize_pos fragment.frag
    rw [Fragment.holds, alike, decide_eq_true_eq]
    omega
  refine ⟨?_, ?_, ?_, ?_⟩
  · intro asked name
    obtain ⟨fragment, ran, held, holds⟩ := found asked
    refine ⟨fragment, held, holds, ?_⟩
    rw [Directory.serve, ran]
    cases name with
    | none => exact (fragment.reply_lists cut _).1
    | some name => exact (fragment.reply_lists cut _).1
  · intro fragment held asked answered
    obtain ⟨other, ran, listed, -⟩ := found asked
    rw [Directory.serve, ran] at answered ⊢
    rw [same held listed ((other.reply_lists cut _).1.symm.trans answered)]
    exact (fragment.reply_lists cut _).2
  · intro fragment held entry member
    obtain ⟨other, ran, listed, holds⟩ := found fragment.frag
    obtain ⟨before, after, split⟩ := append_of_mem held
    rw [holds_unique ⟨before, split.symm⟩ listed rfl holds] at ran
    rw [Directory.serve, ran]
    dsimp only
    rw [if_pos rfl]
    exact (fragment.reply_lists cut _).2
  · intro fragment held asked name differs answered
    obtain ⟨other, ran, listed, -⟩ := found asked
    rw [Directory.serve, ran] at answered ⊢
    cases name with
    | none =>
      rw [same held listed ((other.reply_lists cut _).1.symm.trans answered)]
      exact (fragment.reply_lists cut _).2
    | some name =>
      rw [same held listed ((other.reply_lists cut _).1.symm.trans answered)]
      dsimp only
      rw [if_neg (Ne.symm differs)]
      exact (fragment.reply_lists cut _).2

def halves : Directory where
  ino := 1
  parentIno := 1
  mode := 0x41ed
  fragments := [
    { frag := 0x01000000
      entries := [{ name := [97], ino := 2, mode := 0x81a4 }, { name := [98], ino := 3, mode := 0x81a4 }] },
    { frag := 0x01800000
      entries := [{ name := [99], ino := 4, mode := 0x81a4 }] }]
  tiled := ⟨⟨by decide, by decide⟩, by decide, ⟨by decide, by decide⟩, by decide,
    (by decide : 0 + fragSize 0x01000000 + fragSize 0x01800000 = 2 ^ 24)⟩
  names := by decide

/-- The first entry is refused, in a reply that is cut and is not for the fragment that was asked for. -/
theorem readdir_lists_halves :
    ∃ file, Reached (ReaddirCall.run halves) (ReaddirCall.Sync halves) DirFile.opened file ∧
      file.atEnd = true ∧ file.accepted = halves.listing := by
  have served : ∀ request : Nat, Serves halves (halves.serve (some 1)) := fun _ => halves.serves _
  have refused : Reached (ReaddirCall.run halves) (ReaddirCall.Sync halves) DirFile.opened _ :=
    Reached.start.next { room := 2, serves := fun _ => halves.serve (some 1), dcache := none } ⟨served, rfl⟩ rfl
  have again := refused.next { room := 10, serves := fun _ => halves.serve (some 1), dcache := none } ⟨served, rfl⟩ rfl
  exact ⟨_, again, by decide +kernel, (DirFile.readdir_lists again).2.1 (by decide +kernel)⟩

end KmodCeph.Dir
