import KmodCeph.Lib.Paged

namespace KmodCeph.Pagelist

open Lib List Nat

def pageSize : Nat := 4096

/-- `struct ceph_pagelist` with the memory around it; pages from `allocated` on are not in use. -/
structure CephPagelist where
  head : List Nat
  mappedTail : Option Nat
  length : Nat
  room : Nat
  freeList : List Nat
  numPagesFree : Nat
  bytes : Nat → Nat → UInt8
  allocated : Nat

def CephPagelist.init (bytes : Nat → Nat → UInt8) (allocated : Nat) : CephPagelist :=
  { head := [], mappedTail := none, length := 0, room := 0, freeList := [], numPagesFree := 0, bytes, allocated }

/-- `struct ceph_pagelist_cursor`; no page is the head of the list itself. -/
structure CephPagelistCursor where
  pageLru : Option Nat
  room : Nat

/-- `memcpy` to the mapped tail; no bytes can be copied anywhere, others only inside the page. -/
def memcpy (s : CephPagelist) (offset : Nat) (buf : List UInt8) : Option CephPagelist :=
  match buf, s.mappedTail with
  | [], _ => some s
  | _ :: _, none => none
  | _ :: _, some page =>
    if offset + buf.length ≤ pageSize then some { s with bytes := stored s.bytes page offset buf } else none

def copy (s : CephPagelist) (buf : List UInt8) : Option CephPagelist := do
  let s ← memcpy s (s.length % pageSize) buf
  some { s with length := s.length + buf.length, room := s.room - buf.length }

/-- The page that `ceph_pagelist_addpage` adds, from the reserve or one of those `available`. -/
def takePage (s : CephPagelist) (available : Nat) : Option (Nat × CephPagelist × Nat) :=
  if s.numPagesFree = 0 then
    match available with
    | 0 => none
    | available + 1 => some (s.allocated, { s with allocated := s.allocated + 1 }, available)
  else
    match s.freeList with
    | [] => none
    | page :: freeList => some (page, { s with freeList, numPagesFree := s.numPagesFree - 1 }, available)

def addpage (s : CephPagelist) (available : Nat) : Option (CephPagelist × Nat) := do
  let (page, s, available) ← takePage s available
  some ({ s with room := s.room + pageSize, head := s.head ++ [page], mappedTail := some page }, available)

/-- The loop of `ceph_pagelist_append`; each round but the last uses one of the pages there are. -/
def appendFrom : Nat → CephPagelist → Nat → List UInt8 → Option (CephPagelist × Nat)
  | rounds, s, available, buf =>
    if s.room < buf.length then
      match rounds with
      | 0 => none
      | rounds + 1 => do
        let bit := s.room
        let s ← copy s (buf.take bit)
        let (s, available) ← addpage s available
        appendFrom rounds s available (buf.drop bit)
    else do
      let s ← copy s buf
      some (s, available)

/-- `ceph_pagelist_append` while so many pages are available; what is left of them. -/
def append (s : CephPagelist) (available : Nat) (buf : List UInt8) : Option (CephPagelist × Nat) :=
  appendFrom (s.numPagesFree + available) s available buf

/-- The loop of `ceph_pagelist_reserve`. -/
def reserveFrom (space : Nat) : Nat → CephPagelist → Option (CephPagelist × Nat)
  | available, s =>
    if space > s.numPagesFree then
      match available with
      | 0 => none
      | available + 1 =>
        reserveFrom space available
          { s with
            freeList := s.freeList ++ [s.allocated]
            numPagesFree := s.numPagesFree + 1
            allocated := s.allocated + 1 }
    else some (s, available)

/-- `space - room` in pages; the sum is a `size_t`. -/
def pagesFor (bytes : Nat) : Nat := (bytes + pageSize - 1) % 2 ^ 64 / pageSize

def reserve (s : CephPagelist) (available : Nat) (space : UInt64) : Option (CephPagelist × Nat) :=
  if space.toNat ≤ s.room then some (s, available)
  else reserveFrom (pagesFor (space.toNat - s.room)) available s

def setCursor (s : CephPagelist) : CephPagelistCursor := { pageLru := s.head.getLast?, room := s.room }

/-- The loop of `ceph_pagelist_truncate`, pages newest first. It does not end at a page that is not in the list. -/
def popTo (pageLru : Option Nat) : List Nat → List Nat → Option (List Nat × List Nat)
  | [], freeList => if pageLru = none then some ([], freeList) else none
  | page :: pages, freeList =>
    if pageLru = some page then some (page :: pages, freeList) else popTo pageLru pages (freeList ++ [page])

def truncate (s : CephPagelist) (c : CephPagelistCursor) : Option CephPagelist := do
  let (pages, freeList) ← popTo c.pageLru s.head.reverse s.freeList
  some { s with
    head := pages.reverse
    freeList
    numPagesFree := s.numPagesFree + (s.head.length - pages.length)
    room := c.room
    mappedTail := pages.head? }

inductive Op where
  | append (buf : List UInt8) (available : Nat)
  | reserve (space : UInt64) (available : Nat)
  | setCursor (c : Nat)
  | truncate (c : Nat)

/-- Page lists, `net/ceph/pagelist.c`. A page is its number; `bytes` is what the pages hold. -/
structure Machine where
  state : CephPagelist
  cursors : Nat → Option CephPagelistCursor

def Machine.step (m : Machine) : Op → Option Machine
  | .append buf available => do
    let (state, _) ← Pagelist.append m.state available buf
    some { m with state }
  | .reserve space available => do
    let (state, _) ← Pagelist.reserve m.state available space
    some { m with state }
  | .setCursor c => some { m with cursors := Function.update m.cursors c (some (Pagelist.setCursor m.state)) }
  | .truncate c => do
    let state ← Pagelist.truncate m.state (← m.cursors c)
    some { m with state }

def Machine.run (m : Machine) : List Op → Option Machine
  | [] => some m
  | op :: ops => do (← m.step op).run ops

/-- The purpose of a page list: the contents, and those there were when a cursor was set. -/
structure Contents where
  bytes : List UInt8
  recorded : Nat → List UInt8

def Contents.step (spec : Contents) : Op → Contents
  | .append buf _ => { spec with bytes := spec.bytes ++ buf }
  | .reserve _ _ => spec
  | .setCursor c => { spec with recorded := Function.update spec.recorded c spec.bytes }
  | .truncate c => { spec with bytes := spec.recorded c }

def Contents.run (spec : Contents) (ops : List Op) : Contents := ops.foldl Contents.step spec

def Machine.start (bytes : Nat → Nat → UInt8) (allocated : Nat) : Machine :=
  { state := .init bytes allocated, cursors := fun _ => none }

def Contents.empty : Contents := { bytes := [], recorded := fun _ => [] }

structure Holds (s : CephPagelist) (bytes : List UInt8) : Prop where
  length : s.length = bytes.length
  room : (s.room : Int) = s.head.length * pageSize - s.length
  placed : Paged pageSize s.bytes s.head bytes

def appendAll (s : CephPagelist) (available : Nat) : List (List UInt8) → Option (CephPagelist × Nat)
  | [] => some (s, available)
  | buf :: bufs => do
    let (s, available) ← append s available buf
    appendAll s available bufs

def Ready (s : CephPagelist) (space : Nat) : Prop :=
  ∀ bufs : List (List UInt8), (bufs.map List.length).sum ≤ space →
    ∀ available, ∃ t, appendAll s available bufs = some (t, available)

/-- A cut goes back to a cursor behind which nothing was appended, and a reserve asks for less than `size_t` can count
pages for, or for nothing that is not there. -/
def Meets (s : CephPagelist) (spec : Contents) : Op → Prop
  | .truncate c => s.length = (spec.recorded c).length
  | .reserve space _ =>
    space.toNat - s.room + pageSize - 1 < 2 ^ 64 ∨ space.toNat ≤ s.room + pageSize * s.numPagesFree
  | _ => True

structure Fits (s : CephPagelist) (bytes : List UInt8) : Prop where
  length : s.length = bytes.length
  total : s.room + s.length = pageSize * s.head.length
  room : s.room ≤ pageSize
  placed : Paged pageSize s.bytes s.head bytes
  tail : s.mappedTail = s.head.getLast?
  distinct : (s.head ++ s.freeList).Nodup
  known : ∀ page ∈ s.head ++ s.freeList, page < s.allocated
  free : s.numPagesFree = s.freeList.length

section

variable {s t : CephPagelist} {bytes buf : List UInt8} {available : Nat}

theorem Fits.holds (fits : Fits s bytes) : Holds s bytes := by
  have total := fits.total
  exact ⟨fits.length, by lia, fits.placed⟩

/-- There is a page for what is copied, and room in it. -/
theorem Fits.lastPage (fits : Fits s bytes) (some : 0 < s.room) :
    ∃ front page, s.head = front ++ [page] ∧ s.mappedTail = .some page ∧ page ∉ front ∧
      s.length = pageSize * front.length + s.length % pageSize ∧ s.length % pageSize + s.room = pageSize := by
  have total := fits.total
  have room := fits.room
  rcases eq_nil_or_concat s.head with none | ⟨front, page, split⟩
  · rw [none] at total
    simp only [length_nil] at total
    omega
  · rw [concat_eq_append] at split
    have distinct := fits.distinct
    rw [split, append_assoc] at distinct
    have apart := (List.nodup_append.mp distinct).2.2
    rw [split, length_append, length_singleton, Nat.mul_add, Nat.mul_one] at total
    have place : s.length = (pageSize - s.room) + pageSize * front.length := by lia
    have remainder : s.length % pageSize = pageSize - s.room := by
      rw [place, add_mul_mod_self_left, mod_eq_of_lt (by omega)]
    refine ⟨front, page, split, ?_, fun inside => ?_, by lia, by lia⟩
    · rw [fits.tail, split, getLast?_append]
      rfl
    · exact apart page inside page (by simp) rfl

theorem copy_fits (buf : List UInt8) (fits : Fits s bytes) (small : buf.length ≤ s.room) :
    ∃ written, copy s buf =
        some { s with bytes := written, length := s.length + buf.length, room := s.room - buf.length } ∧
      Fits { s with bytes := written, length := s.length + buf.length, room := s.room - buf.length }
        (bytes ++ buf) := by
  have total := fits.total
  have room := fits.room
  have length : s.length + buf.length = (bytes ++ buf).length := by rw [length_append, fits.length]
  cases buf with
  | nil =>
    refine ⟨s.bytes, rfl, { fits with length, total := ?_, room := ?_, placed := ?_ }⟩
    · exact total
    · exact room
    · rw [List.append_nil]
      exact fits.placed
  | cons first rest =>
    rw [length_cons] at small
    obtain ⟨front, page, split, mapped, apart, place, remaining⟩ := fits.lastPage (by lia)
    have inside : s.length % pageSize + (first :: rest).length ≤ pageSize := by
      rw [length_cons]
      lia
    refine ⟨stored s.bytes page (s.length % pageSize) (first :: rest), ?_,
      { fits with length, total := ?_, room := ?_, placed := ?_ }⟩
    · unfold copy memcpy
      rw [mapped]
      dsimp only
      rw [if_pos inside]
      rfl
    · dsimp only
      lia
    · dsimp only
      lia
    · dsimp only
      have placed := fits.placed
      rw [split] at placed ⊢
      exact placed.append apart (by rw [← fits.length]; exact place) inside

theorem takePage_fits (fits : Fits s bytes) (any : 0 < s.numPagesFree + available) :
    ∃ page t left, takePage s available = some (page, t, left) ∧
      t.numPagesFree + left + 1 = s.numPagesFree + available ∧ (0 < s.numPagesFree → left = available) ∧
      (s.head ++ page :: t.freeList).Nodup ∧ (∀ other ∈ s.head ++ page :: t.freeList, other < t.allocated) ∧
      t.numPagesFree = t.freeList.length ∧
      t = { s with freeList := t.freeList, numPagesFree := t.numPagesFree, allocated := t.allocated } := by
  have free := fits.free
  unfold takePage
  split
  next none =>
    have nothing : s.freeList = [] := eq_nil_of_length_eq_zero (by omega)
    obtain ⟨left, rfl⟩ : ∃ left, available = left + 1 := ⟨available - 1, by lia⟩
    have distinct := fits.distinct
    have known := fits.known
    rw [nothing, List.append_nil] at distinct known
    refine ⟨s.allocated, _, left, rfl, by dsimp only; omega, by omega, ?_, ?_, free, rfl⟩
    · dsimp only
      rw [nothing]
      refine List.nodup_append.mpr ⟨distinct, nodup_singleton _, ?_⟩
      intro page inside other same equal
      have bound := known page inside
      rw [mem_singleton] at same
      omega
    · intro other inside
      rw [nothing, mem_append, mem_singleton] at inside
      rcases inside with old | rfl
      · exact lt_succ_of_lt (known other old)
      · exact lt_succ_self _
  next more =>
    split
    next nothing =>
      rw [nothing] at free
      exact absurd free more
    next page freeList split =>
      have distinct := fits.distinct
      have known := fits.known
      rw [split] at distinct known free
      refine ⟨page, _, available, rfl, by dsimp only; lia, fun _ => rfl, distinct, known, ?_, rfl⟩
      rw [free]
      rfl

theorem addpage_fits (available : Nat) (fits : Fits s bytes) (full : s.room = 0)
    (any : 0 < s.numPagesFree + available) :
    ∃ t left, addpage s available = some (t, left) ∧ Fits t bytes ∧ t.room = pageSize ∧
      t.numPagesFree + left + 1 = s.numPagesFree + available ∧ (0 < s.numPagesFree → left = available) := by
  obtain ⟨page, t, left, taken, count, kept, distinct, known, free, same⟩ := takePage_fits fits any
  have room : t.room = 0 := by rw [same]; exact full
  have head : t.head = s.head := by rw [same]
  have length : t.length = s.length := by rw [same]
  have held : t.bytes = s.bytes := by rw [same]
  have added : addpage s available =
      some ({ t with room := t.room + pageSize, head := t.head ++ [page], mappedTail := some page }, left) := by
    rw [addpage, taken]
    rfl
  refine ⟨_, left, added, ?_, ?_, count, kept⟩
  · refine ⟨?_, ?_, ?_, ?_, ?_, ?_, ?_, free⟩
    · exact length.trans fits.length
    · have total := fits.total
      rw [room, length, head, length_append, length_singleton, Nat.mul_add]
      lia
    · dsimp only
      rw [room, Nat.zero_add]
    · dsimp only
      rw [held, head]
      exact fits.placed.more [page]
    · dsimp only
      rw [getLast?_append]
      rfl
    · dsimp only
      rw [head, append_assoc]
      exact distinct
    · dsimp only
      rw [head, append_assoc]
      exact known
  · dsimp only
    rw [room, Nat.zero_add]

def Appended (s t : CephPagelist) (available left : Nat) (bytes buf : List UInt8) : Prop :=
  Fits t (bytes ++ buf) ∧
  t.room + pageSize * (t.numPagesFree + left) + buf.length = s.room + pageSize * (s.numPagesFree + available) ∧
  (buf.length ≤ s.room + pageSize * s.numPagesFree → left = available) ∧
  (s.room < pageSize ∨ 0 < buf.length → t.room < pageSize)

theorem appendFrom_last (rounds : Nat) (fits : Fits s bytes) (small : buf.length ≤ s.room) :
    ∃ t left, appendFrom rounds s available buf = some (t, left) ∧ Appended s t available left bytes buf := by
  obtain ⟨written, copied, kept⟩ := copy_fits buf fits small
  have room := fits.room
  refine ⟨_, available, ?_, kept, ?_, fun _ => rfl, ?_⟩
  · unfold appendFrom
    rw [if_neg (by omega), copied]
    rfl
  · dsimp only
    lia
  · dsimp only
    lia

/-- Appending succeeds if the pages suffice, and takes those of the reserve first. -/
theorem appendFrom_fits (rounds : Nat) : ∀ {s : CephPagelist} {available : Nat} {bytes buf : List UInt8},
    rounds = s.numPagesFree + available → Fits s bytes → buf.length ≤ s.room + pageSize * rounds →
    ∃ t left, appendFrom rounds s available buf = some (t, left) ∧ Appended s t available left bytes buf := by
  induction rounds with
  | zero =>
    intro s available bytes buf _ fits enough
    exact appendFrom_last 0 fits (by omega)
  | succ rounds ih =>
    intro s available bytes buf count fits enough
    by_cases small : buf.length ≤ s.room
    · exact appendFrom_last _ fits small
    · obtain ⟨written, copied, kept⟩ := copy_fits (buf.take s.room) fits (length_take_le _ _)
      have taken : (buf.take s.room).length = s.room := length_take_of_le (by omega)
      rw [taken, Nat.sub_self] at copied kept
      obtain ⟨t, left, added, next, full, fewer, reserve⟩ := addpage_fits available kept rfl
        (by dsimp only; omega)
      have behind : (buf.drop s.room).length = buf.length - s.room := length_drop
      have rounds_eq : rounds = t.numPagesFree + left := by lia
      have remains : (buf.drop s.room).length ≤ t.room + pageSize * rounds := by
        lia
      obtain ⟨u, rest, ran, ended, sum, noneTaken, below⟩ := ih rounds_eq next remains
      refine ⟨u, rest, ?_, ?_, ?_, ?_, ?_⟩
      · unfold appendFrom
        rw [if_pos (by omega)]
        dsimp only
        rw [copied]
        change (addpage _ available).bind _ = _
        rw [added]
        exact ran
      · rw [append_assoc, take_append_drop] at ended
        exact ended
      · rw [behind, full, ← rounds_eq] at sum
        rw [← count]
        lia
      · intro there
        have some : 0 < s.numPagesFree := by
          by_contra none
          lia
        have left_eq := reserve some
        have one : s.numPagesFree = t.numPagesFree + 1 := by lia
        rw [one, mul_succ] at there
        rw [← left_eq]
        exact noneTaken (by rw [full, behind]; lia)
      · exact fun _ => below (Or.inr (by lia))

theorem appendFrom_none (rounds : Nat) : ∀ {s : CephPagelist} {available : Nat} {bytes buf : List UInt8},
    rounds = s.numPagesFree + available → Fits s bytes → s.room + pageSize * rounds < buf.length →
    appendFrom rounds s available buf = none := by
  induction rounds with
  | zero =>
    intro s available bytes buf _ _ few
    unfold appendFrom
    rw [if_pos (by omega)]
  | succ rounds ih =>
    intro s available bytes buf count fits few
    obtain ⟨written, copied, kept⟩ := copy_fits (buf.take s.room) fits (length_take_le _ _)
    have more : s.room < buf.length := by omega
    have taken : (buf.take s.room).length = s.room := length_take_of_le (by omega)
    rw [taken, Nat.sub_self] at copied kept
    obtain ⟨t, left, added, next, full, fewer, -⟩ := addpage_fits available kept rfl
      (by dsimp only; omega)
    have behind : (buf.drop s.room).length = buf.length - s.room := length_drop
    have rounds_eq : rounds = t.numPagesFree + left := by lia
    unfold appendFrom
    rw [if_pos more]
    dsimp only
    rw [copied]
    change (addpage _ available).bind _ = _
    rw [added]
    exact ih rounds_eq next (by rw [full, behind]; lia)

variable {left count : Nat}

theorem append_fits (fits : Fits s bytes) (ran : append s available buf = some (t, left)) :
    Appended s t available left bytes buf ∧ buf.length ≤ s.room + pageSize * (s.numPagesFree + available) := by
  by_cases enough : buf.length ≤ s.room + pageSize * (s.numPagesFree + available)
  · obtain ⟨u, rest, appended, leaves⟩ := appendFrom_fits _ rfl fits enough
    unfold append at ran
    rw [appended] at ran
    cases ran
    exact ⟨leaves, enough⟩
  · unfold append at ran
    rw [appendFrom_none _ rfl fits (by omega)] at ran
    cases ran

theorem append_nil : append s available [] = some (s, available) := by
  unfold append appendFrom
  rfl

theorem ready_of_fits : ∀ (bufs : List (List UInt8)) {s : CephPagelist} {bytes : List UInt8}, Fits s bytes →
    (bufs.map List.length).sum ≤ s.room + pageSize * s.numPagesFree →
    ∀ available, ∃ t, appendAll s available bufs = some (t, available)
  | [], s, _, _, _, available => ⟨s, rfl⟩
  | buf :: bufs, s, bytes, fits, enough, available => by
    rw [map_cons, sum_cons] at enough
    have apart : pageSize * (s.numPagesFree + available) = pageSize * s.numPagesFree + pageSize * available :=
      Nat.mul_add _ _ _
    have bound : buf.length ≤ s.room + pageSize * (s.numPagesFree + available) := by lia
    obtain ⟨t, left, ran, next, sum, kept, -⟩ :=
      appendFrom_fits (s.numPagesFree + available) rfl fits bound
    have same := kept (by lia)
    subst same
    obtain ⟨u, rest⟩ := ready_of_fits bufs next (by lia) left
    refine ⟨u, ?_⟩
    change (append s left buf).bind _ = _
    rw [append, ran]
    exact rest

theorem Ready.enough {space : Nat} (ready : Ready s space) (fits : Fits s bytes) :
    space ≤ s.room + pageSize * s.numPagesFree := by
  obtain ⟨t, ran⟩ := ready [replicate space 0] (by simp) 0
  rw [appendAll] at ran
  cases appended : append s 0 (replicate space 0) with
  | none =>
    rw [appended] at ran
    cases ran
  | some result =>
    have bound := (append_fits fits appended).2
    rwa [length_replicate] at bound

theorem reserveFrom_fits {space : Nat} (available : Nat) : ∀ {s : CephPagelist} {left : Nat}, Fits s bytes →
    reserveFrom space available s = some (t, left) →
    Fits t bytes ∧ space ≤ t.numPagesFree ∧ t.head = s.head ∧ t.room = s.room ∧ t.length = s.length := by
  induction available with
  | zero =>
    intro s left fits ran
    unfold reserveFrom at ran
    split at ran
    · cases ran
    next enough =>
      cases ran
      exact ⟨fits, by omega, rfl, rfl, rfl⟩
  | succ available ih =>
    intro s left fits ran
    unfold reserveFrom at ran
    split at ran
    next few =>
      refine ih (s := { s with
        freeList := s.freeList ++ [s.allocated]
        numPagesFree := s.numPagesFree + 1
        allocated := s.allocated + 1 }) ⟨fits.length, fits.total, fits.room, fits.placed, fits.tail, ?_, ?_, ?_⟩ ran
      · dsimp only
        rw [← append_assoc]
        refine List.nodup_append.mpr ⟨fits.distinct, nodup_singleton _, ?_⟩
        intro page inside other same equal
        have bound := fits.known page inside
        rw [mem_singleton] at same
        omega
      · intro page inside
        rw [← append_assoc, mem_append, mem_singleton] at inside
        rcases inside with old | rfl
        · exact lt_succ_of_lt (fits.known page old)
        · exact lt_succ_self _
      · dsimp only
        rw [length_append, fits.free]
        rfl
    next enough =>
      cases ran
      exact ⟨fits, by omega, rfl, rfl, rfl⟩

theorem pagesFor_enough (small : count + pageSize - 1 < 2 ^ 64) : count ≤ pageSize * pagesFor count := by
  have value : pagesFor count = (count + 4096 - 1) / 4096 := by rw [pagesFor, mod_eq_of_lt small, pageSize]
  rw [value, pageSize]
  lia

/-- The sum has run past the greatest `size_t`. -/
theorem pagesFor_wrapped (bound : count < 2 ^ 64) (large : 2 ^ 64 ≤ count + pageSize - 1) : pagesFor count = 0 := by
  rw [pageSize] at large
  rw [pagesFor, pageSize]
  lia

theorem reserve_fits {space : UInt64} (fits : Fits s bytes) (ran : reserve s available space = some (t, left)) :
    Fits t bytes ∧ t.head = s.head ∧ t.room = s.room ∧ t.length = s.length := by
  unfold reserve at ran
  split at ran
  · cases ran
    exact ⟨fits, rfl, rfl, rfl⟩
  · obtain ⟨next, -, same⟩ := reserveFrom_fits available fits ran
    exact ⟨next, same⟩

theorem reserve_ready {space : UInt64} (fits : Fits s bytes) (ran : reserve s available space = some (t, left)) :
    Ready t space.toNat ↔
      space.toNat - s.room + pageSize - 1 < 2 ^ 64 ∨ space.toNat ≤ s.room + pageSize * s.numPagesFree := by
  obtain ⟨next, -, room, -⟩ := reserve_fits fits ran
  have ready : Ready t space.toNat ↔ space.toNat ≤ t.room + pageSize * t.numPagesFree :=
    ⟨fun ready => ready.enough next, fun enough bufs total => ready_of_fits bufs next (total.trans enough)⟩
  rw [ready, room]
  have bound := space.toNat_lt
  unfold reserve at ran
  split at ran
  next inside =>
    cases ran
    exact ⟨Or.inr, fun _ => by omega⟩
  next more =>
    by_cases small : space.toNat - s.room + pageSize - 1 < 2 ^ 64
    · have pages := pagesFor_enough small
      have has := mul_le_mul_left pageSize (reserveFrom_fits available fits ran).2.1
      exact ⟨fun _ => Or.inl small, fun _ => by lia⟩
    · rw [pagesFor_wrapped (by lia) (by omega)] at ran
      have same : some (s, available) = some (t, left) := by
        rw [← ran]
        unfold reserveFrom
        rw [if_neg (by omega)]
      cases same
      exact ⟨Or.inr, fun meets => meets.resolve_left small⟩

theorem popTo_last (pages freeList : List Nat) : popTo pages.getLast? pages.reverse freeList =
    some (pages.reverse, freeList) := by
  rw [getLast?_eq_head?_reverse]
  cases pages.reverse with
  | nil => rfl
  | cons page pages =>
    rw [popTo, head?_cons, if_pos rfl]

theorem truncate_last (fits : Fits s bytes) {c : CephPagelistCursor} (last : c.pageLru = s.head.getLast?)
    (room : c.room = s.room) : truncate s c = some s := by
  unfold truncate
  rw [last, popTo_last]
  change some _ = some s
  have back : s.head.reverse.reverse = s.head := reverse_reverse _
  rw [back, length_reverse, Nat.sub_self, Nat.add_zero, room, ← getLast?_eq_head?_reverse, ← fits.tail]

theorem truncate_length {c : CephPagelistCursor} (ran : truncate s c = some t) : t.length = s.length := by
  unfold truncate at ran
  cases found : popTo c.pageLru s.head.reverse s.freeList with
  | none =>
    rw [found] at ran
    cases ran
  | some split =>
    rw [found] at ran
    cases ran
    rfl

/-- What holds between the calls; a cursor behind which nothing was appended is still the end of the list. -/
structure Sound (m : Machine) (spec : Contents) : Prop where
  fits : Fits m.state spec.bytes
  below : m.state.room < pageSize
  cursors : ∀ c cursor, m.cursors c = some cursor → ∃ rest, spec.bytes = spec.recorded c ++ rest ∧
    (rest = [] → cursor.pageLru = m.state.head.getLast? ∧ cursor.room = m.state.room)

theorem Sound.start (bytes : Nat → Nat → UInt8) (allocated : Nat) : Sound (.start bytes allocated) .empty := by
  refine ⟨⟨rfl, rfl, zero_le _, Paged.nil, rfl, nodup_nil, ?_, rfl⟩, succ_pos _, ?_⟩
  · intro page inside
    cases inside
  · intro c cursor found
    cases found

variable {m n : Machine} {spec : Contents} {op : Op} {ops : List Op}

theorem Sound.step (sound : Sound m spec) (meets : Meets m.state spec op) (ran : m.step op = some n) :
    Sound n (spec.step op) := by
  have fits := sound.fits
  cases op with
  | append buf available =>
    cases appended : append m.state available buf with
    | none =>
      rw [Machine.step, appended] at ran
      cases ran
    | some result =>
      rw [Machine.step, appended] at ran
      cases ran
      obtain ⟨next, -, -, below⟩ := (append_fits fits appended).1
      refine ⟨next, below (Or.inl sound.below), ?_⟩
      intro c cursor found
      obtain ⟨rest, split, last⟩ := sound.cursors c cursor found
      refine ⟨rest ++ buf, ?_, ?_⟩
      · change spec.bytes ++ buf = spec.recorded c ++ (rest ++ buf)
        rw [split, append_assoc]
      · intro nothing
        obtain ⟨none, rfl⟩ := List.append_eq_nil_iff.mp nothing
        rw [append_nil] at appended
        cases appended
        exact last none
  | reserve space available =>
    cases reserved : reserve m.state available space with
    | none =>
      rw [Machine.step, reserved] at ran
      cases ran
    | some result =>
      rw [Machine.step, reserved] at ran
      cases ran
      obtain ⟨next, head, room, -⟩ := reserve_fits fits reserved
      refine ⟨next, ?_, ?_⟩
      · change result.1.room < pageSize
        rw [room]
        exact sound.below
      · intro c cursor found
        obtain ⟨rest, split, last⟩ := sound.cursors c cursor found
        refine ⟨rest, split, ?_⟩
        change rest = [] → cursor.pageLru = result.1.head.getLast? ∧ cursor.room = result.1.room
        rw [head, room]
        exact last
  | setCursor c =>
    cases ran
    refine ⟨fits, sound.below, ?_⟩
    intro other cursor found
    change Function.update m.cursors c (some (setCursor m.state)) other = some cursor at found
    change ∃ rest, spec.bytes = Function.update spec.recorded c spec.bytes other ++ rest ∧ _
    by_cases same : other = c
    · subst same
      rw [Function.update_self] at found ⊢
      cases found
      exact ⟨[], (List.append_nil _).symm, fun _ => ⟨rfl, rfl⟩⟩
    · rw [Function.update_of_ne same] at found ⊢
      exact sound.cursors other cursor found
  | truncate c =>
    cases found : m.cursors c with
    | none =>
      rw [Machine.step, found] at ran
      cases ran
    | some cursor =>
      obtain ⟨rest, split, last⟩ := sound.cursors c cursor found
      have none : rest = [] := by
        have lengths := congrArg List.length split
        rw [length_append, ← fits.length, meets] at lengths
        exact eq_nil_of_length_eq_zero (by omega)
      have same : spec.recorded c = spec.bytes := by rw [split, none, List.append_nil]
      have stays : Contents.step spec (.truncate c) = spec := by
        rw [Contents.step, same]
      have there : m.step (.truncate c) = some m := by
        rw [Machine.step, found]
        change (truncate m.state cursor).bind _ = _
        rw [truncate_last fits (last none).1 (last none).2]
        rfl
      rw [there] at ran
      cases ran
      rw [stays]
      exact sound

theorem meets_of_holds {c : Nat} (ran : m.step (.truncate c) = some n)
    (holds : Holds n.state (spec.recorded c)) : m.state.length = (spec.recorded c).length := by
  cases found : m.cursors c with
  | none =>
    rw [Machine.step, found] at ran
    cases ran
  | some cursor =>
    cases cut : truncate m.state cursor with
    | none =>
      rw [Machine.step, found] at ran
      change (truncate m.state cursor).bind _ = _ at ran
      rw [cut] at ran
      cases ran
    | some state =>
      rw [Machine.step, found] at ran
      change (truncate m.state cursor).bind _ = _ at ran
      rw [cut] at ran
      cases ran
      rw [← truncate_length cut]
      exact holds.length

/-- What is claimed of a page list after `done`. -/
def Kept (m : Machine) (spec : Contents) (done : List Op) : Prop :=
  Holds m.state spec.bytes ∧
    ∀ earlier space available, done = earlier ++ [.reserve space available] → Ready m.state space.toNat

/-- One successful call keeps what is claimed if and only if it meets its condition. -/
theorem kept_step (done : List Op) (sound : Sound m spec) (ran : m.step op = some n) :
    Kept n (spec.step op) (done ++ [op]) ↔ Meets m.state spec op := by
  constructor
  · rintro ⟨holds, ready⟩
    cases op with
    | append buf available => trivial
    | setCursor c => trivial
    | truncate c => exact meets_of_holds ran holds
    | reserve space available =>
      cases reserved : reserve m.state available space with
      | none =>
        rw [Machine.step, reserved] at ran
        cases ran
      | some result =>
        rw [Machine.step, reserved] at ran
        cases ran
        exact (reserve_ready sound.fits reserved).mp (ready done space available rfl)
  · intro meets
    refine ⟨(sound.step meets ran).fits.holds, ?_⟩
    intro earlier space available last
    cases append_inj_right' last rfl
    cases reserved : reserve m.state available space with
    | none =>
      rw [Machine.step, reserved] at ran
      cases ran
    | some result =>
      rw [Machine.step, reserved] at ran
      cases ran
      exact (reserve_ready sound.fits reserved).mpr meets

theorem Machine.run_append (first second : List Op) :
    m.run (first ++ second) = (m.run first).bind fun n => n.run second := by
  induction first generalizing m with
  | nil => rfl
  | cons op ops ih =>
    rw [cons_append, Machine.run, Machine.run]
    cases m.step op with
    | none => rfl
    | some next => exact ih

theorem Machine.run_last (ran : m.run (ops ++ [op]) = some n) :
    ∃ last, m.run ops = some last ∧ last.step op = some n := by
  rw [Machine.run_append] at ran
  obtain ⟨last, before, after⟩ := Option.bind_eq_some_iff.mp ran
  refine ⟨last, before, ?_⟩
  obtain ⟨next, stepped, ended⟩ := Option.bind_eq_some_iff.mp after
  cases ended
  exact stepped

theorem Machine.run_snoc {last : Machine} (first : m.run ops = some last) (stepped : last.step op = some n) :
    m.run (ops ++ [op]) = some n := by
  rw [Machine.run_append, first]
  change (last.step op).bind _ = _
  rw [stepped]
  rfl

theorem Contents.run_last (spec : Contents) (ops : List Op) (op : Op) :
    spec.run (ops ++ [op]) = (spec.run ops).step op :=
  foldl_append ..

theorem run_sound (sound : Sound m spec) {ops : List Op}
    (each : ∀ done op after last next, ops = done ++ op :: after → m.run done = some last → last.step op = some next →
      Sound last (spec.run done) → Meets last.state (spec.run done) op) :
    ∀ done after last, ops = done ++ after → m.run done = some last → Sound last (spec.run done) := by
  intro done
  induction done using reverseRecOn with
  | nil =>
    intro after last _ ran
    cases ran
    exact sound
  | append_singleton done op ih =>
    intro after last split ran
    obtain ⟨before, first, stepped⟩ := Machine.run_last ran
    rw [append_assoc, singleton_append] at split
    have earlier := ih (op :: after) before split first
    rw [Contents.run_last]
    exact earlier.step (each done op after before last split first stepped earlier) stepped

end

variable {memory : Nat → Nat → UInt8} {allocated : Nat} {ops : List Op}

/-- In a run of successful calls, the page list holds the contents all along and a reserve makes ready what it was
asked for, if and only if every call meets its condition. -/
theorem pagelist_contents (successful : ((Machine.start memory allocated).run ops).isSome) :
    (∀ done after m, ops = done ++ after → (Machine.start memory allocated).run done = some m →
      Kept m (Contents.empty.run done) done) ↔
    ∀ done op after m, ops = done ++ op :: after → (Machine.start memory allocated).run done = some m →
      Meets m.state (Contents.empty.run done) op := by
  have start := Sound.start memory allocated
  constructor
  · intro kept
    have each : ∀ done op after last next, ops = done ++ op :: after →
        (Machine.start memory allocated).run done = some last → last.step op = some next →
        Sound last (Contents.empty.run done) → Meets last.state (Contents.empty.run done) op := by
      intro done op after last next split first stepped sound
      have longer : ops = (done ++ [op]) ++ after := by
        rw [split, append_assoc]
        rfl
      have both := kept (done ++ [op]) after next longer (Machine.run_snoc first stepped)
      rw [Contents.run_last] at both
      exact (kept_step done sound stepped).mp both
    intro done op after m split first
    have sound := run_sound start each done (op :: after) m split first
    obtain ⟨last, ran⟩ := Option.isSome_iff_exists.mp successful
    rw [split, Machine.run_append, first] at ran
    change (m.step op).bind (fun next => next.run after) = some last at ran
    obtain ⟨next, stepped, -⟩ := Option.bind_eq_some_iff.mp ran
    exact each done op after m next split first stepped sound
  · intro meets done after m split ran
    have sound := run_sound start fun done op after last _ split first _ _ => meets done op after last split first
    rcases eq_nil_or_concat done with rfl | ⟨earlier, op, rfl⟩
    · refine ⟨(sound [] after m split ran).fits.holds, ?_⟩
      intro earlier space available last
      exact absurd last.symm (by simp)
    · rw [concat_eq_append] at split ran ⊢
      obtain ⟨before, first, stepped⟩ := Machine.run_last ran
      rw [append_assoc, singleton_append] at split
      rw [Contents.run_last]
      exact (kept_step earlier (sound earlier (op :: after) before split first) stepped).mpr
        (meets earlier op after before split first)

/-- A cut back to a cursor that is still the end. -/
theorem pagelist_contents_kept :
    ∃ ops m, ops = [.append [1, 2] 1, .setCursor 0, .reserve 10 0, .truncate 0] ∧
      (Machine.start (fun _ _ => 0) 0).run ops = some m ∧ Kept m (Contents.empty.run ops) ops := by
  have kept : ∀ done after m, [.append [1, 2] 1, .setCursor 0, .reserve 10 0, .truncate 0] = done ++ after →
      (Machine.start (fun _ _ => 0) 0).run done = some m → Kept m (Contents.empty.run done) done := by
    refine (pagelist_contents rfl).mpr ?_
    intro done op after m split ran
    match done with
    | [] =>
      cases split
      trivial
    | [_] =>
      cases split
      trivial
    | [_, _] =>
      cases split
      cases ran
      exact Or.inl (by decide)
    | [_, _, _] =>
      cases split
      cases ran
      rfl
    | _ :: _ :: _ :: _ :: rest =>
      simp at split
  exact ⟨_, _, rfl, rfl, kept _ [] _ (List.append_nil _).symm rfl⟩

/-- A cut that takes away what was appended leaves the length as it is. -/
theorem pagelist_contents_cut :
    ¬∀ (memory : Nat → Nat → UInt8) (allocated : Nat) (ops : List Op),
      ((Machine.start memory allocated).run ops).isSome →
      ∀ done after m, ops = done ++ after → (Machine.start memory allocated).run done = some m →
        Kept m (Contents.empty.run done) done := by
  intro claimed
  have ran := claimed (fun _ _ => 0) 0 [.setCursor 0, .append [1] 1, .truncate 0] rfl
    [.setCursor 0, .append [1] 1, .truncate 0] [] _ (List.append_nil _).symm rfl
  have length := ran.1.length
  exact absurd length (by decide)

end KmodCeph.Pagelist
