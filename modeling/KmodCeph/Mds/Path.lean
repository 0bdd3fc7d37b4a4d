import KmodCeph.Basic

namespace KmodCeph.Mds

open List

def cephNosnap : UInt64 := 0xfffffffffffffffe
def cephSnapdir : UInt64 := 0xffffffffffffffff
def slash : UInt8 := 0x2f

/-- The inode of a dentry: its `i_vino`. -/
structure Vino where
  ino : UInt64
  snap : UInt64
deriving DecidableEq

/-- A dentry of a path in which no directory is renamed. -/
structure Dentry where
  name : List UInt8
  inode : Option Vino

def Dentry.isSnapdir (dentry : Dentry) : Bool := dentry.inode.any (·.snap = cephSnapdir)

/-- Whether the path begins below this dentry. -/
def Dentry.stops (stopOnNosnap : Bool) (dentry : Dentry) : Bool :=
  !dentry.isSnapdir && stopOnNosnap && dentry.inode.any (·.snap = cephNosnap)

inductive PathStop where
  | code (code : Int)
  | outside
  | null

/-- What is returned: the bytes with the trailing null, `*plen` and `*base`. -/
structure BuiltPath where
  path : List (Option UInt8)
  plen : Nat
  base : UInt64

/-- The first walk, from a dentry up to below the root. -/
def walkLen (stopOnNosnap : Bool) : List Dentry → Nat
  | [] => 0
  | temp :: up =>
    if temp.isSnapdir then 1 + walkLen stopOnNosnap up
    else if temp.stops stopOnNosnap then 0
    else 1 + temp.name.length + walkLen stopOnNosnap up

def writeBytes (path : List (Option UInt8)) (pos : Nat) (bytes : List UInt8) : Except PathStop (List (Option UInt8)) :=
  if pos + bytes.length ≤ path.length then
    .ok (path.take pos ++ bytes.map some ++ path.drop (pos + bytes.length))
  else .error .outside

def putSlash (path : List (Option UInt8)) : Nat → Except PathStop (Nat × List (Option UInt8))
  | 0 => .ok (0, path)
  | pos + 1 => do
    let path ← writeBytes path pos [slash]
    pure (pos, path)

/-- The second walk: where it ends and the path, none where `pos` is not 0 then. -/
def fillPath (stopOnNosnap : Bool) :
    List Dentry → Nat → List (Option UInt8) → Except PathStop (Option (List Dentry × List (Option UInt8)))
  | [], pos, path => .ok (if pos = 0 then some ([], path) else none)
  | temp :: up, pos, path =>
    if pos = 0 then .ok (some (temp :: up, path))
    else if temp.isSnapdir then do
      let (pos, path) ← putSlash path pos
      fillPath stopOnNosnap up pos path
    else if temp.stops stopOnNosnap then .ok none
    else if pos < temp.name.length then .ok none
    else do
      let path ← writeBytes path (pos - temp.name.length) temp.name
      let (pos, path) ← putSlash path (pos - temp.name.length)
      fillPath stopOnNosnap up pos path

/-- `ceph_ino` of the dentry reached; none of a dentry without inode. -/
def dentryIno (root : UInt64) : List Dentry → Option UInt64
  | [] => some root
  | temp :: _ => temp.inode.map (·.ino)

/-- One try of `ceph_mdsc_build_path`, none to try again. The dentries go from the one that is
given up to below the root; `kmalloc` has no more than `kmallocMax` bytes. -/
def buildPath (kmallocMax : Nat) (memory : Bool) (root : UInt64) (dentries : List Dentry) (stopOnNosnap : Bool) :
    Except PathStop (Option BuiltPath) := do
  let len := walkLen stopOnNosnap dentries % 2 ^ 32 - 1
  if memory ∧ len + 1 ≤ kmallocMax then
    let path ← writeBytes (replicate (len + 1) none) len [0]
    match ← fillPath stopOnNosnap dentries len path with
    | none => pure none
    | some (temp, path) =>
      match dentryIno root temp with
      | none => .error .null
      | some base => pure (some { path, plen := len, base })
  else .error (.code (-enomem))

def Dentry.component (dentry : Dentry) : List UInt8 := if dentry.isSnapdir then [] else dentry.name

/-- The components from the stop point down. -/
def components (stopOnNosnap : Bool) (dentries : List Dentry) : List (List UInt8) :=
  ((dentries.takeWhile (!·.stops stopOnNosnap)).map Dentry.component).reverse

/-- The names are not empty, and a snapdir has the number of the directory it is in. -/
def Proper (root : UInt64) : List Dentry → Prop
  | [] => True
  | dentry :: up => dentry.name ≠ [] ∧ (dentry.isSnapdir → dentryIno root (dentry :: up) = dentryIno root up) ∧ Proper root up

/-- The components, each behind a slash. -/
def slashed (components : List (List UInt8)) : List UInt8 := components.flatMap (slash :: ·)

section

variable {stopOnNosnap : Bool} {root : UInt64} {dentries : List Dentry}

theorem tail_slashed (components : List (List UInt8)) : (slashed components).tail = [slash].intercalate components := by
  induction components with
  | nil => rfl
  | cons first rest ih =>
    cases rest with
    | nil => simp [slashed]
    | cons second rest =>
      rw [intercalate_cons_cons, ← ih]
      simp [slashed]

theorem components_cons {temp : Dentry} (continues : ¬ temp.stops stopOnNosnap) (up : List Dentry) :
    slashed (components stopOnNosnap (temp :: up)) =
      slashed (components stopOnNosnap up) ++ slash :: temp.component := by
  simp [components, continues, slashed]

theorem components_stop {temp : Dentry} (stops : temp.stops stopOnNosnap) (up : List Dentry) :
    slashed (components stopOnNosnap (temp :: up)) = [] := by
  simp [components, stops, slashed]

theorem not_stops_of_snapdir {temp : Dentry} (snapdir : temp.isSnapdir) : ¬ temp.stops stopOnNosnap := by
  simp [Dentry.stops, snapdir]

theorem walkLen_eq (stopOnNosnap : Bool) (dentries : List Dentry) :
    walkLen stopOnNosnap dentries = (slashed (components stopOnNosnap dentries)).length := by
  induction dentries with
  | nil => rfl
  | cons temp up ih =>
    unfold walkLen
    split
    next snapdir =>
      rw [components_cons (not_stops_of_snapdir snapdir), length_append, ih]
      simp [Dentry.component, snapdir]
      omega
    next inside =>
      split
      next stops => rw [components_stop stops, length_nil]
      next continues =>
        rw [components_cons continues, length_append, ih]
        simp [Dentry.component, inside]
        omega

/-- What has been written lies at the end of bytes that have not. -/
def filled (pos : Nat) (done : List (Option UInt8)) : List (Option UInt8) := replicate pos none ++ done

theorem writeBytes_filled (pos : Nat) (bytes : List UInt8) (done : List (Option UInt8)) :
    writeBytes (filled (pos + bytes.length) done) pos bytes = .ok (filled pos (bytes.map some ++ done)) := by
  unfold writeBytes filled
  have inside : pos + bytes.length ≤ (replicate (pos + bytes.length) none ++ done).length := by simp
  have before : (replicate (pos + bytes.length) none ++ done).take pos = replicate pos none := by
    rw [replicate_add, append_assoc, take_left' length_replicate]
  rw [if_pos inside, before, drop_left' length_replicate, append_assoc]

theorem putSlash_filled (pos : Nat) (done : List (Option UInt8)) :
    putSlash (filled pos done) pos = .ok (pos - 1, filled (pos - 1) (if pos = 0 then done else some slash :: done)) := by
  cases pos with
  | zero => rfl
  | succ pos =>
    have wrote := writeBytes_filled pos [slash] done
    simp only [putSlash, length_singleton] at wrote ⊢
    rw [wrote]
    rfl

theorem dropWhile_of_nil (none : slashed (components stopOnNosnap dentries) = []) :
    dentries.dropWhile (!·.stops stopOnNosnap) = dentries := by
  cases dentries with
  | nil => rfl
  | cons temp up =>
    by_cases stops : temp.stops stopOnNosnap
    · simp [stops]
    · rw [components_cons stops] at none
      simp at none

/-- The walk fills in what is left, and ends where the base is that of the stop point. -/
theorem fillPath_fills (proper : Proper root dentries) {text : List UInt8}
    (left : slashed (components stopOnNosnap dentries) = text) (done : List (Option UInt8)) :
    ∃ temp, fillPath stopOnNosnap dentries (text.length - 1) (filled (text.length - 1) done) =
        .ok (some (temp, text.tail.map some ++ done)) ∧
      dentryIno root temp = dentryIno root (dentries.dropWhile (!·.stops stopOnNosnap)) := by
  induction dentries generalizing text done with
  | nil =>
    subst left
    exact ⟨[], rfl, rfl⟩
  | cons temp up ih =>
    obtain ⟨named, inherits, properUp⟩ := proper
    by_cases stops : temp.stops stopOnNosnap
    · obtain rfl : [] = text := (components_stop stops up).symm.trans left
      exact ⟨temp :: up, rfl, by simp [stops]⟩
    · obtain rfl : _ = text := (components_cons stops up).symm.trans left
      have continues : (temp :: up).dropWhile (!·.stops stopOnNosnap) = up.dropWhile (!·.stops stopOnNosnap) := by
        simp [stops]
      have length : (slashed (components stopOnNosnap up) ++ slash :: temp.component).length - 1 =
          (slashed (components stopOnNosnap up)).length + temp.component.length := by
        simp
      rw [continues, length]
      generalize rest : slashed (components stopOnNosnap up) = text at *
      have goOn : ∀ done, ∃ temp', fillPath stopOnNosnap up (text.length - 1)
            (filled (text.length - 1) (if text.length = 0 then done else some slash :: done)) =
          .ok (some (temp', (text ++ [slash]).tail.map some ++ done)) ∧
          dentryIno root temp' = dentryIno root (up.dropWhile (!·.stops stopOnNosnap)) := fun done => by
        obtain ⟨temp', filled, base⟩ := ih properUp rfl (if text.length = 0 then done else some slash :: done)
        refine ⟨temp', filled.trans ?_, base⟩
        cases text <;> simp
      unfold fillPath
      by_cases snapdir : temp.isSnapdir
      · have empty : temp.component = [] := if_pos snapdir
        rw [empty, length_nil, Nat.add_zero]
        by_cases last : text.length = 0
        · obtain rfl := List.length_eq_zero_iff.mp last
          refine ⟨temp :: up, if_pos rfl, ?_⟩
          rw [inherits snapdir, dropWhile_of_nil rest]
        · rw [if_neg last, if_pos snapdir, putSlash_filled]
          exact goOn done
      · have name : temp.component = temp.name := if_neg snapdir
        have long : 0 < temp.name.length := List.length_pos_iff.mpr named
        rw [name, if_neg (by omega), if_neg snapdir, if_neg stops, if_neg (by omega), Nat.add_sub_cancel,
          writeBytes_filled]
        obtain ⟨temp', ran, base⟩ := goOn (temp.name.map some ++ done)
        refine ⟨temp', ?_, base⟩
        simp only [bind, Except.bind, putSlash_filled]
        rw [ran]
        cases text <;> simp

theorem stopPoint_ino : ∃ base, dentryIno root (dentries.dropWhile (!·.stops stopOnNosnap)) = some base := by
  cases rest : dentries.dropWhile (!·.stops stopOnNosnap) with
  | nil => exact ⟨root, rfl⟩
  | cons temp up =>
    have stops := head?_dropWhile_not (!·.stops stopOnNosnap) dentries
    rw [rest] at stops
    cases inode : temp.inode with
    | none => simp [Dentry.stops, inode] at stops
    | some vino => exact ⟨vino.ino, congrArg (Option.map Vino.ino) inode⟩

/-- The first try gives the components down from the stop point, joined by slashes, their
length, and the number of the stop point. -/
theorem build_path_succeeds {kmallocMax : Nat} (proper : Proper root dentries)
    (gives : ([slash].intercalate (components stopOnNosnap dentries)).length + 1 ≤ kmallocMax) (limited : kmallocMax < 2 ^ 31) :
    ∃ base, dentryIno root (dentries.dropWhile (!·.stops stopOnNosnap)) = some base ∧
      buildPath kmallocMax true root dentries stopOnNosnap = .ok (some {
        path := ([slash].intercalate (components stopOnNosnap dentries) ++ [0]).map some
        plen := ([slash].intercalate (components stopOnNosnap dentries)).length
        base }) := by
  rw [← tail_slashed, length_tail] at gives
  rw [← tail_slashed, length_tail]
  obtain ⟨base, based⟩ := @stopPoint_ino stopOnNosnap root dentries
  obtain ⟨temp, fills, same⟩ := @fillPath_fills stopOnNosnap root dentries proper _ rfl [some 0]
  have ended : writeBytes (replicate ((slashed (components stopOnNosnap dentries)).length - 1 + 1) none)
      ((slashed (components stopOnNosnap dentries)).length - 1) [0] =
      .ok (filled ((slashed (components stopOnNosnap dentries)).length - 1) [some 0]) := by
    simpa [filled] using writeBytes_filled ((slashed (components stopOnNosnap dentries)).length - 1) [0] []
  refine ⟨base, based, ?_⟩
  unfold buildPath
  rw [Nat.mod_eq_of_lt (by rw [walkLen_eq]; lia), walkLen_eq, if_pos ⟨rfl, gives⟩]
  simp only [bind, Except.bind, ended, fills, same.trans based, map_append, map_cons, map_nil]
  rfl

end

/-- A file in a hidden snapdir below a directory. -/
def hiddenSnapdir : List Dentry :=
  [⟨[0x62], some ⟨3, 7⟩⟩, ⟨[0x2e], some ⟨2, cephSnapdir⟩⟩, ⟨[0x66], some ⟨2, cephNosnap⟩⟩]

theorem build_path_succeeds_snapdir :
    ∃ base, dentryIno 1 [] = some base ∧ buildPath 4096 true 1 hiddenSnapdir false =
      .ok (some { path := [0x66, slash, slash, 0x62, 0].map some, plen := 4, base }) :=
  @build_path_succeeds false 1 hiddenSnapdir 4096 ⟨by decide, by decide, by decide, by decide, by decide, by decide, trivial⟩
    (by decide) (by decide)

end KmodCeph.Mds
