import KmodCeph.Dir.Listing

namespace KmodCeph.Dir

open Lib List

structure Dcache.HoldsAll (cache : Dcache) (dir : Directory) : Prop where
  complete : ∀ index, cache.complete index = true
  leases : ∀ child ∈ cache.children, child.leaseSharedGen = cache.sharedGen ∧ child.listed = true
  rising : cache.children.Pairwise fun l r => fposCmp l.offset r.offset < 0
  behind : ∀ child ∈ cache.children, fposCmp ⟨0, 2⟩ child.offset ≤ 0
  entries : (cache.children.map Child.entry).Perm (dir.fragments.flatMap Fragment.entries)

structure Shown where
  name : List UInt8
  ino : BitVec 64
  ftype : BitVec 32
deriving DecidableEq

def Dirent.shown (dirent : Dirent) : Shown where
  name := dirent.name
  ino := dirent.ino
  ftype := dirent.ftype

def Entry.shown (entry : Entry) : Shown where
  name := entry.name
  ino := entry.ino
  ftype := entry.mode >>> 12

def Directory.shown (dir : Directory) : List Shown :=
  dir.dot.shown :: dir.dotDot.shown :: (dir.fragments.flatMap Fragment.entries).map Entry.shown

def Child.dirent (child : Child) : Dirent :=
  child.entry.dirent child.offset

/-- The mds answers, and the dcache is used or not. -/
def ReaddirCall.Cached (dir : Directory) (cache : Dcache) (call : ReaddirCall) (_ : DirFile) : Prop :=
  call.Served dir ∧ (call.dcache = none ∨ call.dcache = some cache)

def ReaddirCall.Unrefused (dir : Directory) (cache : Dcache) (call : ReaddirCall) (file : DirFile) : Prop :=
  call.Served dir ∧ (call.dcache = none ∨ call.dcache = some cache ∧
    ∀ left, file.dotsLeft = some left → call.room < left ∨ left + cache.children.length ≤ call.room)

section

variable {dir : Directory} {cache : Dcache}

theorem shown_direntsFrom (frag : Frag) (off : Nat) (entries : List Entry) :
    (direntsFrom frag off entries).map Dirent.shown = entries.map Entry.shown := by
  induction entries generalizing off with
  | nil => rfl
  | cons entry rest ih =>
    rw [direntsFrom, map_cons, ih, map_cons]
    rfl

theorem shown_listing (dir : Directory) : dir.listing.map Dirent.shown = dir.shown := by
  have fragments : ∀ fragments : List Fragment, (fragments.flatMap Fragment.dirents).map Dirent.shown =
      (fragments.flatMap Fragment.entries).map Entry.shown := by
    intro fragments
    induction fragments with
    | nil => rfl
    | cons fragment rest ih =>
      rw [flatMap_cons, map_append, ih, flatMap_cons, map_append, Fragment.dirents,
        Fragment.direntsAfter, shown_direntsFrom, drop_zero]
  rw [Directory.listing, map_cons, map_cons, fragments]
  rfl

theorem fposCmp_next {l r : Fpos} (less : fposCmp l r < 0) : fposCmp ⟨l.frag, l.off + 1⟩ r ≤ 0 := by
  unfold fposCmp at less ⊢
  split at less
  · next differs =>
    rw [if_pos differs]
    exact less.le
  · next same =>
    dsimp only
    omega

namespace DirFile

/-- The walk gives all children that are left when all of them are taken. -/
theorem dcacheWalk_all {sharedGen : Nat} {complete : Nat → Bool} {children : List Child} {index room : Nat}
    {last : Option (Nat × Child)} {file : DirFile} (always : ∀ index, complete index = true)
    (leases : ∀ child ∈ children, child.leaseSharedGen = sharedGen ∧ child.listed = true)
    (rising : children.Pairwise fun l r => fposCmp l.offset r.offset < 0)
    (behind : ∀ child ∈ children, fposCmp file.fpos child.offset ≤ 0) (enough : children.length ≤ room) :
    ∃ after left, dcacheWalk sharedGen complete children index last room file = (0, left, after) ∧
      after.atEnd = true ∧ after.dentry = file.dentry ∧
      after.accepted = file.accepted ++ children.map Child.dirent := by
  induction children generalizing index room last file with
  | nil => exact ⟨_, room, rfl, rfl, rfl, (List.append_nil _).symm⟩
  | cons child rest ih =>
    obtain ⟨before, restRising⟩ := List.pairwise_cons.mp rising
    obtain ⟨lease, listed⟩ := leases child mem_cons_self
    have here := behind child mem_cons_self
    obtain ⟨room, rfl⟩ := Nat.exists_eq_add_of_le' (Nat.lt_of_lt_of_le (Nat.succ_pos _) enough)
    obtain ⟨after, left, ran, ended, dentry, gives⟩ := @ih (index + 1) room (some (index, child)) { file with
        fpos := ⟨child.offset.frag, child.offset.off + 1⟩
        offers := file.offers ++ [(child.dirent, true)] }
      (fun other held => leases other (mem_cons_of_mem _ held)) restRising
      (fun other held => fposCmp_next (before other held)) (Nat.le_of_succ_le_succ enough)
    refine ⟨after, left, ?_, ended, dentry, ?_⟩
    · rw [dcacheWalk, if_pos ⟨lease, listed, here⟩, if_pos (always index)]
      cases last with
      | none => exact ran
      | some last => exact ran
    · have snoc := accepted_snoc file child.dirent true
      rw [gives, map_cons]
      change (accepted { file with offers := file.offers ++ [(child.dirent, true)] }) ++ _ = _
      rw [snoc, if_pos rfl, append_assoc, singleton_append]

variable {fragment : Fragment} {rest : List Fragment} {place : Nat} {file : DirFile} {call : ReaddirCall}

theorem Progress.started (progress : file.Progress dir fragment rest place) (here : file.fpos = ⟨0, 2⟩) :
    file.accepted = [dir.dot, dir.dotDot] := by
  have zero : (fragValue fragment.frag).toNat = 0 ∧ place = 0 := by
    rcases progress.fpos with settled | ⟨start, -, value, -⟩
    · rw [settled, Fpos.mk.injEq] at here
      obtain ⟨whole, off⟩ := here
      rw [Fragment.first, whole] at off
      have two : firstOffset 0 = 2 := by decide
      refine ⟨?_, by omega⟩
      rw [whole]
      decide
    · rw [here] at value
      rw [← value]
      exact ⟨by decide, start⟩
  obtain ⟨leftmost, rfl⟩ := zero
  obtain ⟨before, split⟩ := progress.suffix
  have nothing : before = [] := by
    have tiled := dir.tiled
    rw [← split] at tiled
    obtain ⟨-, behind⟩ := tiled.drop
    cases before with
    | nil => rfl
    | cons first more =>
      have ends := behind first mem_cons_self
      have size := fragSize_pos first.frag
      omega
  have given := progress.given
  rw [Directory.listing, ← split, nothing, nil_append, flatMap_cons] at given
  exact append_cancel_right (given.trans (by rfl : _ = [dir.dot, dir.dotDot] ++ _))

/-- A listing that goes on at the mds, or that the dcache answered. -/
inductive Settled (dir : Directory) (cache : Dcache) (file : DirFile) : Prop where
  | sync (resting : file.Resting dir) (rising : file.Rising)
  | cached (atEnd : file.atEnd = true) (dentry : file.dentry = none)
      (given : file.accepted = dir.dot :: dir.dotDot :: cache.children.map Child.dirent)

theorem readdirEntries_cached {room : Nat} (holdsAll : cache.HoldsAll dir) (isCache : call.dcache = some cache)
    (here : file.fpos = ⟨0, 2⟩) (enough : cache.children.length ≤ room) (rising : file.Rising)
    (progress : file.Progress dir fragment rest place)
    (ready : file.Ready fragment place file.fpos.frag file.fpos.off) :
    ∃ after, file.readdirEntries dir call room = .ok (0, after) ∧ after.Settled dir cache ∧
      after.accepted.length = 2 + cache.children.length := by
  have given := progress.started here
  have noDentry : { file with dentry := none } = file := by
    rw [← progress.dentry]
  rw [readdirEntries, isCache]
  dsimp only
  rw [if_pos (.inl here), dcacheReaddir, progress.dentry]
  by_cases nothing : cache.children = []
  · refine ⟨file, ?_, .sync (.within fragment rest place progress ready) rising, ?_⟩
    · rw [if_pos nothing, noDentry]
      rfl
    · rw [given, nothing]
      rfl
  · rw [if_neg nothing, drop_zero, noDentry]
    obtain ⟨after, left, ran, ended, dentry, accepted⟩ := @dcacheWalk_all cache.sharedGen cache.complete
      cache.children 0 room none file holdsAll.complete holdsAll.leases holdsAll.rising
      (fun child held => here ▸ holdsAll.behind child held) enough
    rw [given] at accepted
    refine ⟨after, ?_, .cached ended (dentry.trans progress.dentry) accepted, ?_⟩
    · rw [ran]
      rfl
    · rw [accepted, length_append, length_map]
      rfl

/-- Calls for which `filldir` refuses nothing from the dcache go on with the listing. -/
theorem readdir_settled (holdsAll : cache.HoldsAll dir)
    (unrefused : call.Unrefused dir cache file) (settled : file.Settled dir cache) :
    ∃ after, file.readdir dir call = .ok (0, after) ∧ after.Settled dir cache ∧
      (dir.listing.length ≤ file.accepted.length + call.room → after.accepted.length = dir.listing.length) := by
  have total : dir.listing.length = 2 + cache.children.length := by
    have children := holdsAll.entries.length_eq
    rw [length_map] at children
    have shown := congrArg List.length (shown_listing dir)
    rw [length_map] at shown
    rw [shown, children, Directory.shown, length_cons, length_cons, length_map]
    omega
  cases settled with
  | cached atEnd dentry given =>
    refine ⟨file, ?_, .cached atEnd dentry given, ?_⟩
    · rw [readdir, if_pos atEnd]
      rfl
    · intro _
      rw [given, total, length_cons, length_cons, length_map]
      omega
  | sync resting rising =>
    cases readdir_begun call resting rising with
    | returned after ran called =>
      refine ⟨after, ran, .sync called.resting called.rising, ?_⟩
      intro enough
      rw [called.count, Nat.min_eq_right enough]
    | entries started room place fragment rest ran progress startedRising ready count dots =>
      have bySync (listed : started.readdirEntries dir call room = started.syncReaddir dir call room) :
          ∃ after, file.readdir dir call = .ok (0, after) ∧ after.Settled dir cache ∧
            (dir.listing.length ≤ file.accepted.length + call.room →
              after.accepted.length = dir.listing.length) := by
        obtain ⟨after, returned, called⟩ := syncReaddir_called unrefused.1 room progress startedRising ready
        refine ⟨after, ?_, .sync called.resting called.rising, ?_⟩
        · rw [ran, listed]
          exact returned
        · intro enough
          rw [called.count, Nat.min_eq_right (count ▸ enough)]
      rcases unrefused.2 with sync | ⟨isCache, room_⟩
      · apply bySync
        rw [readdirEntries, sync]
      · by_cases here : started.fpos = ⟨0, 2⟩
        · obtain ⟨left, isLeft, given⟩ := dots here
          have enough : cache.children.length ≤ room := by
            rcases room_ left isLeft with refused | enough <;> lia
          obtain ⟨after, listed, settled, length⟩ :=
            readdirEntries_cached holdsAll isCache here enough startedRising progress ready
          exact ⟨after, ran.trans listed, settled, fun _ => length.trans total.symm⟩
        · apply bySync
          rw [readdirEntries, isCache]
          dsimp only
          rw [if_neg (not_or.mpr ⟨here, not_not_intro progress.dentry⟩)]

theorem Settled.shown (holdsAll : cache.HoldsAll dir) (settled : file.Settled dir cache) :
    (file.accepted.map Dirent.shown).Subperm dir.shown := by
  cases settled with
  | sync resting rising =>
    rw [← shown_listing]
    exact (resting.accepted_prefix.map Dirent.shown).sublist.subperm
  | cached atEnd dentry given =>
    apply List.Perm.subperm
    rw [given, map_cons, map_cons, map_map]
    refine .cons _ (.cons _ ?_)
    have children := holdsAll.entries.map Entry.shown
    rw [map_map] at children
    exact children

theorem Settled.shown_all (holdsAll : cache.HoldsAll dir) (settled : file.Settled dir cache)
    (all : dir.listing.length ≤ file.accepted.length) : (file.accepted.map Dirent.shown).Perm dir.shown := by
  apply (settled.shown holdsAll).perm_of_length_le
  rw [← shown_listing, length_map, length_map]
  exact all

theorem ReaddirCall.keeps_settled (holdsAll : cache.HoldsAll dir) :
    Keeps (ReaddirCall.run dir) (ReaddirCall.Unrefused dir cache) (Settled dir cache) := by
  intro call file unrefused settled
  obtain ⟨after, ran, kept, -⟩ := readdir_settled holdsAll unrefused settled
  refine ⟨after, ?_, kept⟩
  rw [ReaddirCall.run, ran]
  rfl

/-- Calls of `ceph_readdir` that the dcache or the mds answers, with nothing refused that comes from the dcache, give no
name twice, and all of them once when `filldir` has room for what is left. -/
theorem readdir_unrefused {file : DirFile} (holdsAll : cache.HoldsAll dir)
    (reached : Reached (ReaddirCall.run dir) (ReaddirCall.Unrefused dir cache) opened file) :
    (file.accepted.map Dirent.shown).Subperm dir.shown ∧
      (file.atEnd = true → (file.accepted.map Dirent.shown).Perm dir.shown) ∧
      ∀ call : ReaddirCall, call.Unrefused dir cache file → ∃ after, call.run dir file = .ok after ∧
        (dir.shown.length ≤ file.accepted.length + call.room → (after.accepted.map Dirent.shown).Perm dir.shown) := by
  have openedRising : opened.Rising := List.Pairwise.nil
  have settled := reached.holds (ReaddirCall.keeps_settled holdsAll) (.sync (.dot rfl rfl) openedRising)
  refine ⟨settled.shown holdsAll, ?_, ?_⟩
  · intro atEnd
    have all := settled
    cases all with
    | sync resting rising =>
      rw [resting.accepted_all atEnd, shown_listing]
    | cached ended dentry given =>
      apply settled.shown_all holdsAll
      have children := holdsAll.entries.length_eq
      rw [length_map] at children
      have shown := congrArg List.length (shown_listing dir)
      rw [length_map, Directory.shown, length_cons, length_cons, length_map] at shown
      rw [given, shown, length_cons, length_cons, length_map, children]
  · intro call unrefused
    obtain ⟨after, ran, kept, all⟩ := readdir_settled holdsAll unrefused settled
    refine ⟨after, by rw [ReaddirCall.run, ran]; rfl, ?_⟩
    intro enough
    rw [← shown_listing, length_map] at enough
    exact kept.shown_all holdsAll (all enough).ge

end DirFile

end

def halvesCache : Dcache where
  children := [
    { entry := { name := [97], ino := 2, mode := 0x81a4 }
      offset := ⟨0x01000000, 2⟩
      leaseSharedGen := 1
      listed := true },
    { entry := { name := [98], ino := 3, mode := 0x81a4 }
      offset := ⟨0x01000000, 3⟩
      leaseSharedGen := 1
      listed := true },
    { entry := { name := [99], ino := 4, mode := 0x81a4 }
      offset := ⟨0x01800000, 0⟩
      leaseSharedGen := 1
      listed := true }]
  sharedGen := 1
  complete := fun _ => true

theorem halvesCache_holdsAll : halvesCache.HoldsAll halves where
  complete _ := rfl
  leases := by decide
  rising := by decide
  behind := by decide
  entries := by
    have same : halvesCache.children.map Child.entry = halves.fragments.flatMap Fragment.entries := by decide
    rw [same]

/-- `..` is refused, and the next call gives everything else from the dcache. -/
theorem readdir_unrefused_halves :
    ∃ file, Reached (ReaddirCall.run halves) (ReaddirCall.Unrefused halves halvesCache) DirFile.opened file ∧
      file.atEnd = true ∧ (file.accepted.map Dirent.shown).Perm halves.shown := by
  have served : ∀ request : Nat, Serves halves (halves.serve none) := fun _ => halves.serves _
  have dot : Reached (ReaddirCall.run halves) (ReaddirCall.Unrefused halves halvesCache) DirFile.opened _ :=
    Reached.start.next { room := 1, serves := fun _ => halves.serve none, dcache := some halvesCache } ⟨served, .inr ⟨rfl, by decide⟩⟩ rfl
  have listed := dot.next { room := 4, serves := fun _ => halves.serve none, dcache := some halvesCache } ⟨served, .inr ⟨rfl, by decide⟩⟩ rfl
  exact ⟨_, listed, by decide +kernel,
    (DirFile.readdir_unrefused halvesCache_holdsAll listed).2.1 (by decide +kernel)⟩

/-- The second entry is refused, and neither the mds nor the dcache gives it to a later call. -/
theorem readdir_loses_refused : halvesCache.HoldsAll halves ∧
    (∃ file, Reached (ReaddirCall.run halves) (ReaddirCall.Cached halves halvesCache) DirFile.opened file ∧
      file.atEnd = true ∧ file.lastReaddir ≠ none ∧ file.accepted.map Dirent.name = [[46], [46, 46], [97], [99]] ∧
      ¬ (file.accepted.map Dirent.shown).Perm halves.shown) ∧
    ∃ file, Reached (ReaddirCall.run halves) (ReaddirCall.Cached halves halvesCache) DirFile.opened file ∧
      file.atEnd = true ∧ file.lastReaddir = none ∧ file.accepted.map Dirent.name = [[46], [46, 46], [97], [99]] ∧
      ¬ (file.accepted.map Dirent.shown).Perm halves.shown := by
  have served : ∀ request : Nat, Serves halves (halves.serve none) := fun _ => halves.serves _
  have refused : Reached (ReaddirCall.run halves) (ReaddirCall.Cached halves halvesCache) DirFile.opened _ :=
    Reached.start.next { room := 3, serves := fun _ => halves.serve none, dcache := some halvesCache } ⟨served, .inr rfl⟩ rfl
  have byMds := refused.next { room := 10, serves := fun _ => halves.serve none, dcache := none } ⟨served, .inl rfl⟩ rfl
  have byDcache := refused.next { room := 10, serves := fun _ => halves.serve none, dcache := some halvesCache } ⟨served, .inr rfl⟩ rfl
  refine ⟨halvesCache_holdsAll, ⟨_, byMds, ?_⟩, ⟨_, byDcache, ?_⟩⟩
  · decide +kernel
  · decide +kernel

end KmodCeph.Dir
