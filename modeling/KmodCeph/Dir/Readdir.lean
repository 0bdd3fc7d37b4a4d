import KmodCeph.Basic
import KmodCeph.Dir.Frag
import KmodCeph.Lib.Reached

namespace KmodCeph.Dir

open Lib

/-- `f_pos` of a directory, as its fragment and its offset. -/
structure Fpos where
  frag : Frag
  off : Nat
deriving DecidableEq

def fposCmp (l r : Fpos) : Int :=
  if fragCompare l.frag r.frag ≠ 0 then fragCompare l.frag r.frag else l.off - r.off

structure Entry where
  name : List UInt8
  ino : BitVec 64
  mode : BitVec 32
deriving DecidableEq

structure Dirent where
  name : List UInt8
  pos : Fpos
  ino : BitVec 64
  ftype : BitVec 32
deriving DecidableEq

def Entry.dirent (entry : Entry) (pos : Fpos) : Dirent where
  name := entry.name
  pos := pos
  ino := entry.ino
  ftype := entry.mode >>> 12

structure Reply where
  frag : Frag
  entries : List Entry
  dirEnd : Bool
deriving DecidableEq

/-- A child of the directory in the dcache, with its `ceph_dentry_info`. `listed` says that it is hashed, has an inode,
and is neither the snapshot directory nor the hidden one of the mount. -/
structure Child where
  entry : Entry
  offset : Fpos
  leaseSharedGen : Nat
  listed : Bool
deriving DecidableEq

/-- `struct ceph_file_info` and `f_pos` of an open directory. `dentry` is a child with its place in the order in which
children are visited. `offers` is what `filldir` was called with, and whether it took it. -/
structure DirFile where
  fpos : Fpos
  frag : Frag
  lastReaddir : Option Reply
  offset : Nat
  nextOffset : Nat
  lastName : Option (List UInt8)
  dentry : Option (Nat × Child)
  atEnd : Bool
  offers : List (Dirent × Bool)

inductive ReaddirFault where
  | unbuffered
  | endless

structure Fragment where
  frag : Frag
  entries : List Entry

def Tiled : Nat → List Fragment → Prop
  | start, [] => start = 2 ^ 24
  | start, fragment :: rest =>
    FragWellFormed fragment.frag ∧ (fragValue fragment.frag).toNat = start ∧
      Tiled (start + fragSize fragment.frag) rest

/-- A directory at the mds, whose fragments partition the hashes. -/
structure Directory where
  ino : BitVec 64
  parentIno : BitVec 64
  mode : BitVec 32
  fragments : List Fragment
  tiled : Tiled 0 fragments
  names : ∀ fragment ∈ fragments, (fragment.entries.map Entry.name).Nodup

def entriesAfter (name : List UInt8) (entries : List Entry) : List Entry :=
  (entries.dropWhile fun entry => entry.name ≠ name).tail

def Fragment.holds (fragment : Fragment) (value : Nat) : Bool :=
  (fragValue fragment.frag).toNat ≤ value ∧ value < (fragValue fragment.frag).toNat + fragSize fragment.frag

/-- The entries of a reply are the first of these, and all of them if it says so. -/
structure Reply.Lists (reply : Reply) (remaining : List Entry) : Prop where
  entries : reply.entries <+: remaining
  final : reply.dirEnd = true → reply.entries = remaining
  more : reply.dirEnd = false → reply.entries ≠ []

/-- How the mds answers a readdir request for a fragment, with a name to go on after. -/
abbrev Serve := Frag → Option (List UInt8) → Reply

/-- What `ceph_readdir` relies on of the mds while the directory stays as it is. It
answers for the fragment with the value that is asked for, and lists what comes
after the name that was sent. Where it lists a fragment in the place of another it
drops the name and starts anew, as the client's offset does then. -/
structure Serves (dir : Directory) (serve : Serve) : Prop where
  answers : ∀ asked name, ∃ fragment ∈ dir.fragments,
    fragment.holds (fragValue asked).toNat ∧ (serve asked name).frag = fragment.frag
  unnamed : ∀ fragment ∈ dir.fragments, ∀ asked, (serve asked none).frag = fragment.frag →
    (serve asked none).Lists fragment.entries
  named : ∀ fragment ∈ dir.fragments, ∀ entry ∈ fragment.entries,
    (serve fragment.frag (some entry.name)).Lists (entriesAfter entry.name fragment.entries)
  replaced : ∀ fragment ∈ dir.fragments, ∀ asked name, asked ≠ fragment.frag →
    (serve asked name).frag = fragment.frag → (serve asked name).Lists fragment.entries

namespace DirFile

def opened : DirFile where
  fpos := ⟨0, 0⟩
  frag := 0
  lastReaddir := none
  offset := 0
  nextOffset := 2
  lastName := none
  dentry := none
  atEnd := false
  offers := []

/-- A call of `filldir`, which takes so many entries before it refuses one. -/
def filldir (dirent : Dirent) (room : Nat) (file : DirFile) : Bool × DirFile :=
  (room ≠ 0, { file with offers := file.offers ++ [(dirent, decide (room ≠ 0))] })

/-- The loop of `__dcache_readdir` from a child on. The room is what `filldir` takes, `complete` whether the directory
is found complete with the lock let go at a child, and `last` the last child that was visited. -/
def dcacheWalk (sharedGen : Nat) (complete : Nat → Bool) :
    List Child → Nat → Option (Nat × Child) → Nat → DirFile → Int × Nat × DirFile
  | [], _, _, room, file => (0, room, { file with atEnd := true })
  | child :: rest, index, last, room, file =>
    if child.leaseSharedGen = sharedGen ∧ child.listed ∧ fposCmp file.fpos child.offset ≤ 0 then
      if complete index then
        match filldir (child.entry.dirent child.offset) room { file with fpos := child.offset } with
        | (taken, file) =>
          let file := match last, taken with
            | some last, false => { file with
                dentry := some last
                nextOffset := child.offset.off }
            | _, _ => file
          let file := { file with fpos := ⟨child.offset.frag, child.offset.off + 1⟩ }
          if taken then dcacheWalk sharedGen complete rest (index + 1) (some (index, child)) (room - 1) file
          else (-einval, room, file)
      else (-eagain, room, file)
    else dcacheWalk sharedGen complete rest (index + 1) last room file

/-- `__dcache_readdir`, with what is left of the room. -/
def dcacheReaddir (children : List Child) (sharedGen : Nat) (complete : Nat → Bool) (room : Nat) (file : DirFile) :
    Int × Nat × DirFile :=
  let last := file.dentry
  let file := { file with dentry := none }
  let start := match last with
    | none => 0
    | some (index, child) => if file.fpos = ⟨0, 2⟩ ∨ fposCmp file.fpos child.offset < 0 then 0 else index + 1
  if children = [] then (0, room, file)
  else dcacheWalk sharedGen complete (children.drop start) start last room file

/-- `fi->next_offset` at the start of a fragment, behind `.` and `..` if it is the leftmost. -/
def firstOffset (frag : Frag) : Nat :=
  if fragIsLeftmost frag then 2 else 0

/-- `ceph_readdir` from `more` on, up to where the fragment is buffered. -/
def fetch (serve : Serve) (frag : Frag) (off : Nat) (file : DirFile) :
    Except ReaddirFault (Frag × Nat × DirFile) := do
  if file.frag ≠ frag ∨ file.lastReaddir = none then
    let reply := serve frag file.lastName
    let (off, nextOffset) :=
      if reply.frag ≠ frag then (firstOffset reply.frag, firstOffset reply.frag) else (off, file.nextOffset)
    let file := { file with
      frag := reply.frag
      offset := nextOffset
      lastReaddir := some reply }
    if reply.dirEnd then
      return (reply.frag, off, { file with
        lastName := none
        nextOffset := if fragIsRightmost reply.frag then 2 else 0 })
    else
      match reply.entries.getLast? with
      | none => throw .unbuffered
      | some entry => return (reply.frag, off, { file with
          lastName := some entry.name
          nextOffset := nextOffset + reply.entries.length })
  else return (frag, off, file)

/-- The loop of `ceph_readdir` over the entries that are buffered. The result is what is left of the room and the
offset, or nothing if `filldir` refused an entry. -/
def emit (reply : Reply) (frag : Frag) : Nat → Nat → Nat → DirFile → Except ReaddirFault (Option (Nat × Nat) × DirFile)
  | 0, off, room, file => return (some (room, off), file)
  | fuel + 1, off, room, file =>
    if file.offset ≤ off ∧ off - file.offset < reply.entries.length then
      match reply.entries[off - file.offset]? with
      | none => throw .unbuffered
      | some entry =>
        match filldir (entry.dirent ⟨frag, off⟩) room file with
        | (false, file) => return (none, file)
        | (true, file) => emit reply frag fuel (off + 1) (room - 1) { file with fpos := ⟨frag, off + 1⟩ }
    else return (some (room, off), file)

/-- `ceph_readdir` from `more` on. -/
def listFrom (serves : Nat → Serve) : Nat → Frag → Nat → Nat → DirFile →
    Except ReaddirFault (Int × DirFile)
  | 0, _, _, _, _ => throw .endless
  | fuel + 1, frag, off, room, file => do
    let (frag, off, file) ← file.fetch (serves fuel) frag off
    match file.lastReaddir with
    | none => throw .unbuffered
    | some reply =>
      let (left, file) ← file.emit reply frag reply.entries.length off room
      match left with
      | none => return (0, file)
      | some (room, off) =>
        if file.lastName ≠ none then
          listFrom serves fuel frag off room { file with lastReaddir := none }
        else if fragIsRightmost frag then return (0, { file with atEnd := true })
        else listFrom serves fuel (fragNext frag) 0 room { file with fpos := ⟨fragNext frag, 0⟩ }

end DirFile

def Directory.dot (dir : Directory) : Dirent where
  name := [46]
  pos := ⟨0, 0⟩
  ino := dir.ino
  ftype := dir.mode >>> 12

def Directory.dotDot (dir : Directory) : Dirent where
  name := [46, 46]
  pos := ⟨0, 1⟩
  ino := dir.parentIno
  ftype := dir.mode >>> 12

def Directory.fuel (dir : Directory) : Nat :=
  (dir.fragments.map fun fragment => fragment.entries.length + 1).sum + 1

structure Dcache where
  children : List Child
  sharedGen : Nat
  complete : Nat → Bool

/-- A call of `ceph_readdir`: how many entries `filldir` takes, how the mds answers its requests, each by what is left
of the fuel, and the dcache if it may be used. -/
structure ReaddirCall where
  room : Nat
  serves : Nat → Serve
  dcache : Option Dcache

namespace DirFile

/-- `ceph_readdir` behind the part that uses the dcache. -/
def syncReaddir (dir : Directory) (call : ReaddirCall) (room : Nat) (file : DirFile) :
    Except ReaddirFault (Int × DirFile) :=
  let file := match file.dentry with
    | none => file
    | some (_, child) => { file with
        lastName := some child.entry.name
        dentry := none }
  file.listFrom call.serves dir.fuel file.fpos.frag file.fpos.off room

/-- `ceph_readdir` behind `..`. -/
def readdirEntries (dir : Directory) (call : ReaddirCall) (room : Nat) (file : DirFile) :
    Except ReaddirFault (Int × DirFile) :=
  match call.dcache with
  | none => file.syncReaddir dir call room
  | some dcache =>
    if file.fpos = ⟨0, 2⟩ ∨ file.dentry ≠ none then
      match file.dcacheReaddir dcache.children dcache.sharedGen dcache.complete room with
      | (err, room, file) => if err ≠ -eagain then return (err, file) else file.syncReaddir dir call room
    else file.syncReaddir dir call room

/-- `.` or `..`, if they are next, and whether the listing goes on. -/
def filldirDot (dirent : Dirent) (room : Nat) (file : DirFile) : Bool × Nat × DirFile :=
  if file.fpos = dirent.pos then
    match file.filldir dirent room with
    | (false, file) => (false, room, file)
    | (true, file) => (true, room - 1, { file with fpos := ⟨dirent.pos.frag, dirent.pos.off + 1⟩ })
  else (true, room, file)

def readdir (dir : Directory) (call : ReaddirCall) (file : DirFile) : Except ReaddirFault (Int × DirFile) :=
  if file.atEnd then return (0, file)
  else
    match file.filldirDot dir.dot call.room with
    | (false, _, file) => return (0, file)
    | (true, room, file) =>
      match file.filldirDot dir.dotDot room with
      | (false, _, file) => return (0, file)
      | (true, room, file) => file.readdirEntries dir call room

end DirFile

namespace ReaddirCall

def run (dir : Directory) (call : ReaddirCall) (file : DirFile) : Except ReaddirFault DirFile :=
  (file.readdir dir call).map Prod.snd

def Served (dir : Directory) (call : ReaddirCall) : Prop := ∀ request, Serves dir (call.serves request)

/-- The mds answers, and the dcache is not used. -/
def Sync (dir : Directory) (call : ReaddirCall) (_ : DirFile) : Prop := call.Served dir ∧ call.dcache = none

end ReaddirCall

end KmodCeph.Dir
