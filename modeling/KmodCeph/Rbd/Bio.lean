import KmodCeph.Lib.Loop

namespace KmodCeph.Rbd

open Lib List

structure BioVec where
  page : Nat
  offset : Nat
  len : Nat
deriving DecidableEq

/-- `struct bio`, where `bi_vcnt` is the length of `ioVec`. -/
structure Bio where
  bdev : Nat
  sector : Nat
  rw : Nat
  cloned : Bool
  size : Nat
  idx : Nat
  ioVec : List BioVec
deriving DecidableEq

inductive CloneBug where
  | endless
deriving DecidableEq

def Bio.segments (bio : Bio) : List BioVec := bio.ioVec.drop bio.idx

/-- The loops over segments of `bio_clone_range`: where the rest is not more than a segment, and what the rest is. -/
def scanSegments (stops : Nat → Nat → Bool) : List BioVec → Nat → Nat → Nat × Nat
  | [], idx, resid => (idx, resid)
  | bv :: rest, idx, resid =>
    if stops resid bv.len then (idx, resid)
    else scanSegments stops rest (idx + 1) (resid - bv.len)

/-- What `bio_clone`, which is not part of the source, leaves as it is in a clone. -/
structure Clones (bioClone : Bio → Bio) : Prop where
  segments : ∀ src, (bioClone src).segments = src.segments
  size : ∀ src, (bioClone src).size = src.size
  sector : ∀ src, (bioClone src).sector = src.sector

def trimSegments (voff len resid : Nat) (ioVec : List BioVec) : List BioVec :=
  let ioVec := ioVec.modify 0 fun bv => { bv with offset := bv.offset + voff }
  if ioVec.length > 1 then
    (ioVec.modify 0 fun bv => { bv with len := bv.len - voff }).modify (ioVec.length - 1) fun bv => { bv with len := resid }
  else ioVec.modify 0 fun bv => { bv with len := len }

def bioCloneRange (bioClone : Bio → Bio) (memory : Bool) (src : Bio) (offset len : Nat) : Option Bio :=
  if offset = 0 ∧ len = src.size then
    if memory then some (bioClone src) else none
  else if len = 0 then none
  else if len > src.size then none
  else if offset > src.size - len then none
  else
    let (idx, voff) := scanSegments (fun resid bvLen => resid < bvLen) src.segments src.idx offset
    let (endIdx, resid) := scanSegments (fun resid bvLen => resid ≤ bvLen) (src.ioVec.drop idx) idx (voff + len)
    let vcnt := endIdx - idx + 1
    if memory then
      some
        { bdev := src.bdev
          sector := src.sector + offset / 512
          rw := src.rw
          cloned := true
          size := len
          idx := 0
          ioVec := trimSegments voff len resid ((src.ioVec.drop idx).take vcnt) }
    else none

structure CloneState where
  chain : List Bio
  bi : List Bio
  off : Nat
  len : Nat

def cloneStep (bioClone : Bio → Bio) (memory : Nat → Bool) (state : CloneState) : Except CloneBug (Next CloneState (Option CloneState)) :=
  if state.len = 0 then .ok (.done (some state))
  else
    match state.bi with
    | [] => .ok (.done none)
    | bi :: next =>
      let biSize := min (bi.size - state.off) state.len
      match bioCloneRange bioClone (memory state.chain.length) bi state.off biSize with
      | none => .ok (.done none)
      | some bio =>
        let off := state.off + biSize
        .ok (.again
          { chain := state.chain ++ [bio]
            bi := if off = bi.size then next else bi :: next
            off := if off = bi.size then 0 else off
            len := state.len - biSize })

/-- `bio_chain_clone_range` in at most `bound` passes, with what `bio_src` and `offset` are afterwards. -/
def bioChainCloneRange (bioClone : Bio → Bio) (memory : Nat → Bool) (bound : Nat) (bioSrc : List Bio)
    (offset len : Nat) : Except CloneBug (Option (List Bio) × List Bio × Nat) :=
  match bioSrc with
  | [] => .ok (none, bioSrc, offset)
  | bi :: _ =>
    if offset ≥ bi.size ∨ len = 0 then .ok (none, bioSrc, offset)
    else do
      match ← loop .endless (cloneStep bioClone memory) bound { chain := [], bi := bioSrc, off := offset, len := len } with
      | none => return (none, bioSrc, offset)
      | some state => return (some state.chain, state.bi, state.off)

def cloneParts (bioClone : Bio → Bio) (memory : Nat → Bool) (bound : Nat) :
    List Nat → List Bio → Nat → Except CloneBug (List (Option (List Bio)) × List Bio × Nat)
  | [], bioSrc, offset => .ok ([], bioSrc, offset)
  | len :: lens, bioSrc, offset => do
    let (chain, bioSrc, offset) ← bioChainCloneRange bioClone memory bound bioSrc offset len
    let (chains, bioSrc, offset) ← cloneParts bioClone memory bound lens bioSrc offset
    return (chain :: chains, bioSrc, offset)

/-- The bytes of a segment, each by its page and its place there. -/
def BioVec.bytes (bv : BioVec) : List (Nat × Nat) :=
  (range' bv.offset bv.len).map fun place => (bv.page, place)

def segmentBytes (segments : List BioVec) : List (Nat × Nat) := segments.flatMap BioVec.bytes

def Bio.bytes (bio : Bio) : List (Nat × Nat) := segmentBytes bio.segments

def Bio.placed (bio : Bio) : List ((Nat × Nat) × Nat) := bio.bytes.zipIdx (bio.sector * 512)

def chainBytes (chain : List Bio) : List (Nat × Nat) := chain.flatMap Bio.bytes

def chainPlaced (chain : List Bio) : List ((Nat × Nat) × Nat) := chain.flatMap Bio.placed

def segmentsLen (segments : List BioVec) : Nat := (segments.map BioVec.len).sum

structure Bio.Valid (bio : Bio) : Prop where
  nonempty : bio.segments ≠ []
  positive : ∀ bv ∈ bio.segments, 0 < bv.len
  size : bio.size = segmentsLen bio.segments

structure Cloned (src : List Bio) (offset len : Nat) (chain after : List Bio) (off : Nat) : Prop where
  bytes : chainBytes chain = ((chainBytes src).drop offset).take len
  placed : 512 ∣ offset → chainPlaced chain = ((chainPlaced src).drop offset).take len
  valid : ∀ bio ∈ chain, bio.Valid
  passed : ∃ passed, src = passed ++ after ∧ (chainBytes passed).length + off = offset + len
  within : ∀ bi ∈ after.head?, off < bi.size
  ended : after = [] → off = 0

section

variable {bv : BioVec} {segments : List BioVec} {bio : Bio} {offset len resid idx : Nat} {bioClone : Bio → Bio}

@[simp] theorem BioVec.length_bytes (bv : BioVec) : bv.bytes.length = bv.len := by
  simp [BioVec.bytes]

@[simp] theorem segmentBytes_nil : segmentBytes [] = [] := rfl

@[simp] theorem segmentBytes_cons : segmentBytes (bv :: segments) = bv.bytes ++ segmentBytes segments :=
  flatMap_cons

@[simp] theorem segmentBytes_append {others : List BioVec} :
    segmentBytes (segments ++ others) = segmentBytes segments ++ segmentBytes others :=
  flatMap_append

@[simp] theorem length_segmentBytes (segments : List BioVec) : (segmentBytes segments).length = segmentsLen segments := by
  simp [segmentBytes, segmentsLen, length_flatMap]

theorem BioVec.bytes_drop : ({ bv with offset := bv.offset + offset, len := bv.len - offset } : BioVec).bytes = bv.bytes.drop offset := by
  simp [BioVec.bytes, ← map_drop, drop_range']

theorem BioVec.bytes_take (fits : len ≤ bv.len) : ({ bv with len := len } : BioVec).bytes = bv.bytes.take len := by
  simp [BioVec.bytes, ← map_take, take_range'_of_length_ge fits]

theorem scanSegments_first (inside : offset < segmentsLen segments) :
    ∃ before bv behind voff, segments = before ++ bv :: behind ∧
      scanSegments (fun resid bvLen => resid < bvLen) segments idx offset = (idx + before.length, voff) ∧
      segmentsLen before + voff = offset ∧ voff < bv.len := by
  induction segments generalizing idx offset with
  | nil => exact absurd inside (Nat.not_lt_zero _)
  | cons bv rest ih =>
    by_cases here : offset < bv.len
    · exact ⟨[], bv, rest, offset, rfl, by simp [scanSegments, here], Nat.zero_add _, here⟩
    · have later : offset - bv.len < segmentsLen rest := by
        simp only [segmentsLen, map_cons, sum_cons] at inside ⊢
        omega
      obtain ⟨before, bw, behind, voff, split, scan, place, fits⟩ := @ih _ (idx + 1) later
      refine ⟨bv :: before, bw, behind, voff, by rw [split, cons_append], ?_, ?_, fits⟩
      · simp only [scanSegments, here, decide_false, Bool.false_eq_true, if_false, scan, length_cons]
        rw [Nat.add_right_comm, Nat.add_assoc]
      · simp only [segmentsLen, map_cons, sum_cons] at place ⊢
        lia

theorem scanSegments_last (positive : 0 < resid) (inside : resid ≤ segmentsLen segments) :
    ∃ before bv behind rest, segments = before ++ bv :: behind ∧
      scanSegments (fun resid bvLen => resid ≤ bvLen) segments idx resid = (idx + before.length, rest) ∧
      segmentsLen before + rest = resid ∧ 0 < rest ∧ rest ≤ bv.len := by
  induction segments generalizing idx resid with
  | nil => exact absurd inside (not_le.mpr positive)
  | cons bv rest ih =>
    by_cases here : resid ≤ bv.len
    · exact ⟨[], bv, rest, resid, rfl, by simp [scanSegments, here], Nat.zero_add _, positive, here⟩
    · have later : resid - bv.len ≤ segmentsLen rest := by
        simp only [segmentsLen, map_cons, sum_cons] at inside ⊢
        lia
      obtain ⟨before, bw, behind, voff, split, scan, place, fits⟩ := @ih _ (idx + 1) (by lia) later
      refine ⟨bv :: before, bw, behind, voff, by rw [split, cons_append], ?_, ?_, fits⟩
      · simp only [scanSegments, here, decide_false, Bool.false_eq_true, if_false, scan, length_cons]
        rw [Nat.add_right_comm, Nat.add_assoc]
      · simp only [segmentsLen, map_cons, sum_cons] at place ⊢
        lia

theorem modify_last {α : Type} {front : List α} {last : α} {change : α → α} :
    (front ++ [last]).modify front.length change = front ++ [change last] := by
  induction front with
  | nil => rfl
  | cons first front ih => simp [ih]

theorem segmentsLen_append {others : List BioVec} : segmentsLen (segments ++ others) = segmentsLen segments + segmentsLen others := by
  simp [segmentsLen]

theorem segmentsLen_cons : segmentsLen (bv :: segments) = bv.len + segmentsLen segments := by
  simp [segmentsLen]

/-- What is left of segments that are cut at both ends. -/
theorem trimSegments_spec {front behind : List BioVec} {last : BioVec} {voff rest : Nat}
    (positive : ∀ bv ∈ front ++ [last], 0 < bv.len) (first : ∀ bv ∈ (front ++ [last]).head?, voff < bv.len) (some' : 0 < len)
    (total : segmentsLen front + rest = voff + len) (more : 0 < rest) (fits : rest ≤ last.len) :
    trimSegments voff len rest (front ++ [last]) ≠ [] ∧ (∀ bv ∈ trimSegments voff len rest (front ++ [last]), 0 < bv.len) ∧
      segmentBytes (trimSegments voff len rest (front ++ [last])) =
        ((segmentBytes (front ++ last :: behind)).drop voff).take len := by
  cases front with
  | nil =>
    have trimmed : trimSegments voff len rest ([] ++ [last]) = [{ last with offset := last.offset + voff, len := len }] := rfl
    have restEq : rest = voff + len := by simpa [segmentsLen] using total
    have cut : ({ last with offset := last.offset + voff, len := len } : BioVec).bytes = (last.bytes.drop voff).take len := by
      rw [← BioVec.bytes_drop, ← BioVec.bytes_take]
      lia
    rw [trimmed]
    refine ⟨cons_ne_nil _ _, by simpa using some', ?_⟩
    rw [segmentBytes_cons, segmentBytes_nil, List.append_nil, cut, nil_append, segmentBytes_cons,
      drop_append_of_le_length (by rw [BioVec.length_bytes]; lia),
      take_append_of_le_length (by rw [length_drop, BioVec.length_bytes]; lia)]
  | cons bv front =>
    have room : voff < bv.len := first bv rfl
    have trimmed : trimSegments voff len rest (bv :: front ++ [last]) =
        { bv with offset := bv.offset + voff, len := bv.len - voff } :: front ++ [{ last with len := rest }] := by
      have count : (bv :: front ++ [last]).length - 1 = ({ bv with offset := bv.offset + voff, len := bv.len - voff } :: front).length := by
        simp
      unfold trimSegments
      simp only [length_modify, count]
      rw [if_pos (by simp)]
      exact modify_last
    rw [trimmed]
    refine ⟨cons_ne_nil _ _, ?_, ?_⟩
    · intro other member
      rcases List.mem_cons.mp member with rfl | member
      · exact Nat.sub_pos_of_lt room
      · rcases List.mem_append.mp member with inner | inner
        · exact positive other (mem_append_left _ (mem_cons_of_mem _ inner))
        · rw [List.mem_singleton.mp inner]
          exact more
    · rw [segmentsLen_cons] at total
      have parts : len = (bv.bytes.drop voff).length + ((segmentBytes front).length + rest) := by
        rw [length_drop, BioVec.length_bytes, length_segmentBytes]
        lia
      have cut : ((segmentBytes (bv :: front ++ last :: behind)).drop voff).take len =
          bv.bytes.drop voff ++ (segmentBytes front ++ last.bytes.take rest) := by
        rw [cons_append, segmentBytes_cons, segmentBytes_append, segmentBytes_cons,
          drop_append_of_le_length (by rw [BioVec.length_bytes]; exact room.le), parts, take_length_add_append,
          take_length_add_append, take_append_of_le_length (by rwa [BioVec.length_bytes])]
      rw [cut, cons_append, segmentBytes_cons, segmentBytes_append, segmentBytes_cons, BioVec.bytes_drop,
        BioVec.bytes_take fits, segmentBytes_nil, List.append_nil]

/-- A clone has the bytes of its part of the source. -/
theorem bioCloneRange_spec (clones : Clones bioClone) (valid : bio.Valid) (some' : 0 < len) (inside : offset + len ≤ bio.size) :
    ∃ clone, bioCloneRange bioClone true bio offset len = some clone ∧ clone.Valid ∧ clone.size = len ∧
      clone.bytes = (bio.bytes.drop offset).take len ∧ clone.sector = bio.sector + offset / 512 := by
  by_cases whole : offset = 0 ∧ len = bio.size
  · obtain ⟨rfl, rfl⟩ := whole
    have segments := clones.segments bio
    have size := clones.size bio
    refine ⟨bioClone bio, ?_, ⟨?_, ?_, ?_⟩, size, ?_, by rw [clones.sector, Nat.zero_div, Nat.add_zero]⟩
    · simp [bioCloneRange]
    · rw [segments]
      exact valid.nonempty
    · rw [segments]
      exact valid.positive
    · rw [segments, size]
      exact valid.size
    · have all : bio.size = bio.bytes.length := by
        rw [valid.size, Bio.bytes, length_segmentBytes]
      rw [drop_zero, all, take_length, Bio.bytes, segments]
      rfl
  have size := valid.size
  obtain ⟨before, bv, behind, voff, split, scan, place, room⟩ :=
    @scanSegments_first bio.segments offset bio.idx (by omega)
  have live : bio.ioVec.drop (bio.idx + before.length) = bv :: behind := by
    rw [← drop_drop, ← Bio.segments, split, drop_left]
  rw [split, segmentsLen_append] at size
  obtain ⟨front, last, after, rest, split', scan', place', more, fits⟩ :=
    @scanSegments_last (bv :: behind) (voff + len) (bio.idx + before.length) (by omega) (by lia)
  have positive : ∀ bw ∈ bv :: behind, 0 < bw.len :=
    fun bw member => valid.positive bw (by rw [split]; exact mem_append_right _ member)
  have taken : (bv :: behind).take (bio.idx + before.length + front.length - (bio.idx + before.length) + 1) = front ++ [last] := by
    rw [Nat.add_sub_cancel_left, split', take_append, take_of_length_le (Nat.le_succ _), Nat.add_sub_cancel_left, take_one]
    rfl
  have head : ∀ bw ∈ (front ++ [last]).head?, voff < bw.len := by
    have same : (front ++ [last]).head? = some bv := by
      rw [← taken]
      rfl
    rw [same]
    intro bw member
    cases member
    exact room
  obtain ⟨nonempty, positive', bytes⟩ := @trimSegments_spec len front after last voff rest
    (fun bw member => positive bw (by
      rw [← taken] at member
      exact mem_of_mem_take member)) head some' place' more fits
  have total : segmentsLen (trimSegments voff len rest (front ++ [last])) = len := by
    rw [← length_segmentBytes, bytes, List.length_take, length_drop, ← split', length_segmentBytes]
    lia
  refine ⟨⟨bio.bdev, bio.sector + offset / 512, bio.rw, true, len, 0, trimSegments voff len rest (front ++ [last])⟩, ?_,
    ⟨nonempty, positive', total.symm⟩, rfl, ?_, rfl⟩
  · unfold bioCloneRange
    rw [if_neg whole, if_neg (by lia), if_neg (by lia), if_neg (by lia), scan]
    dsimp only
    rw [live, scan']
    rw [taken, if_pos rfl]
  · have before' : bio.bytes = segmentBytes before ++ segmentBytes (bv :: behind) := by
      rw [Bio.bytes, split, segmentBytes_append]
    rw [before', ← place, ← length_segmentBytes, drop_length_add_append, split', ← bytes]
    rfl

theorem Bio.Valid.length_bytes (valid : bio.Valid) : bio.bytes.length = bio.size := by
  rw [valid.size, Bio.bytes, length_segmentBytes]

theorem Bio.Valid.size_pos (valid : bio.Valid) : 0 < bio.size := by
  obtain ⟨bv, rest, segments⟩ := exists_cons_of_ne_nil valid.nonempty
  have first := valid.positive bv (by rw [segments]; exact mem_cons_self)
  rw [valid.size, segments, segmentsLen_cons]
  omega

theorem zipIdx_drop_take {α : Type} {list : List α} {start : Nat} :
    ((list.drop offset).take len).zipIdx (start + offset) = ((list.zipIdx start).drop offset).take len := by
  induction offset generalizing list start with
  | zero =>
    induction len generalizing list start with
    | zero => rfl
    | succ len ih => cases list <;> simp_all
  | succ offset ih =>
    cases list with
    | nil => simp
    | cons first rest =>
      have next := @ih rest (start + 1)
      rw [Nat.add_right_comm, Nat.add_assoc] at next
      exact next

theorem Bio.placed_of_clone {clone : Bio} (aligned : 512 ∣ offset) (bytes : clone.bytes = (bio.bytes.drop offset).take len)
    (sector : clone.sector = bio.sector + offset / 512) : clone.placed = (bio.placed.drop offset).take len := by
  rw [Bio.placed, Bio.placed, bytes, sector, Nat.add_mul, Nat.div_mul_cancel aligned, zipIdx_drop_take]

end

section

variable {src chain after next : List Bio} {bi clone : Bio} {offset len off size bound total : Nat} {memory : Nat → Bool}
variable {bioClone : Bio → Bio}

@[simp] theorem chainBytes_append {others : List Bio} : chainBytes (chain ++ others) = chainBytes chain ++ chainBytes others :=
  flatMap_append

@[simp] theorem chainPlaced_append {others : List Bio} : chainPlaced (chain ++ others) = chainPlaced chain ++ chainPlaced others :=
  flatMap_append

theorem length_chainBytes (valid : ∀ bio ∈ chain, bio.Valid) : (chainBytes chain).length = (chain.map Bio.size).sum := by
  rw [chainBytes, length_flatMap, map_congr_left fun bio member => (valid bio member).length_bytes]

theorem length_chainPlaced (chain : List Bio) : (chainPlaced chain).length = (chainBytes chain).length := by
  simp [chainPlaced, chainBytes, Bio.placed, length_flatMap]

theorem slice_within {α : Type} {front middle behind : List α} {start : Nat} (place : front.length + off = start + len)
    (fits : off + size ≤ middle.length) :
    ((front ++ (middle ++ behind)).drop start).take (len + size) =
      ((front ++ (middle ++ behind)).drop start).take len ++ (middle.drop off).take size := by
  have later : (front ++ (middle ++ behind)).drop (start + len) = middle.drop off ++ behind := by
    rw [← place, drop_length_add_append, drop_append_of_le_length (by omega)]
  rw [take_add, drop_drop, later, take_append_of_le_length (by rw [length_drop]; lia)]

theorem Cloned.extend (cloned : Cloned src offset len chain (bi :: next) off) (sources : ∀ bio ∈ src, bio.Valid)
    (valid : clone.Valid) (fits : off + size ≤ bi.size) (bytes : clone.bytes = (bi.bytes.drop off).take size)
    (sector : clone.sector = bi.sector + off / 512) (aligned : 512 ∣ offset → 512 ∣ off) :
    Cloned src offset (len + size) (chain ++ [clone]) (if off + size = bi.size then next else bi :: next)
      (if off + size = bi.size then 0 else off + size) := by
  obtain ⟨passed, split, place⟩ := cloned.passed
  have here : bi.Valid := sources bi (by rw [split]; exact mem_append_right _ mem_cons_self)
  have single : chainBytes [clone] = clone.bytes := flatMap_singleton _ _
  have single' : chainPlaced [clone] = clone.placed := flatMap_singleton _ _
  have whole : chainBytes src = chainBytes passed ++ (bi.bytes ++ chainBytes next) := by
    rw [split, chainBytes_append]
    rfl
  have whole' : chainPlaced src = chainPlaced passed ++ (bi.placed ++ chainPlaced next) := by
    rw [split, chainPlaced_append]
    rfl
  refine ⟨?_, fun aligns => ?_, ?_, ?_, ?_, ?_⟩
  · rw [chainBytes_append, cloned.bytes, single, bytes, whole, slice_within place (by rwa [here.length_bytes])]
  · rw [chainPlaced_append, cloned.placed aligns, single', Bio.placed_of_clone (aligned aligns) bytes sector, whole',
      slice_within (by rwa [length_chainPlaced]) (by simpa [Bio.placed, here.length_bytes] using fits)]
  · intro bio member
    rcases List.mem_append.mp member with old | new
    · exact cloned.valid bio old
    · rw [List.mem_singleton.mp new]
      exact valid
  · split_ifs with ends
    · refine ⟨passed ++ [bi], by rw [split, append_assoc, singleton_append], ?_⟩
      rw [chainBytes_append, length_append, show chainBytes [bi] = bi.bytes from flatMap_singleton _ _, here.length_bytes]
      lia
    · exact ⟨passed, split, by lia⟩
  · split_ifs with ends
    · intro bio head
      exact (sources bio (by
        rw [split]
        exact mem_append_right _ (mem_cons_of_mem _ (mem_of_mem_head? head)))).size_pos
    · intro bio head
      cases head
      lia
  · split_ifs with ends
    · exact fun _ => rfl
    · exact nofun

structure Cloning (src : List Bio) (offset total variant : Nat) (state : CloneState) : Prop where
  left : state.len = variant
  le : state.len ≤ total
  cloned : Cloned src offset (total - state.len) state.chain state.bi state.off
  aligned : 0 < state.len → 512 ∣ offset → 512 ∣ state.off

theorem cloneStep_cloning {variant : Nat} {state : CloneState} (clones : Clones bioClone) (sources : ∀ bio ∈ src, bio.Valid) (allocates : ∀ i, memory i = true)
    (enough : offset + total ≤ (chainBytes src).length) (cloning : Cloning src offset total variant state) :
    Returns (cloneStep bioClone memory state) (Next.Holds (fun after => ∃ lower < variant, Cloning src offset total lower after)
      fun result => ∃ last, result = some last ∧ Cloned src offset total last.chain last.bi last.off) := by
  obtain ⟨left, le, cloned, aligned⟩ := cloning
  unfold cloneStep
  by_cases finished : state.len = 0
  · rw [if_pos finished]
    rw [finished, Nat.sub_zero] at cloned
    exact ⟨_, rfl, state, rfl, cloned⟩
  rw [if_neg finished]
  cases chainEq : state.bi with
  | nil =>
    obtain ⟨passed, split, place⟩ := cloned.passed
    rw [chainEq, List.append_nil] at split
    rw [split] at enough
    lia
  | cons bi next =>
    rw [chainEq] at cloned
    have inside : state.off < bi.size := cloned.within bi rfl
    obtain ⟨passed, split, -⟩ := cloned.passed
    have here : bi.Valid := sources bi (by rw [split]; exact mem_append_right _ mem_cons_self)
    obtain ⟨clone, made, valid, -, bytes, sector⟩ := @bioCloneRange_spec bi state.off (min (bi.size - state.off) state.len) bioClone
      clones here (by lia) (by lia)
    dsimp only
    rw [allocates, made]
    refine ⟨_, rfl, state.len - min (bi.size - state.off) state.len, by lia, rfl, by dsimp only; lia, ?_, ?_⟩
    · have extended := cloned.extend sources valid (by lia) bytes sector
        (aligned (by lia))
      convert extended using 1
      lia
    · dsimp only
      intro more _
      rw [if_pos (by lia)]
      exact dvd_zero 512

theorem bioChainCloneRange_cloned {first : Bio} {rest : List Bio} (clones : Clones bioClone) (sources : ∀ bio ∈ first :: rest, bio.Valid)
    (inside : offset < first.size) (some' : 0 < len) (enough : offset + len ≤ (chainBytes (first :: rest)).length)
    (allocates : ∀ i, memory i = true) (bounded : len < bound) :
    ∃ chain after off, bioChainCloneRange bioClone memory bound (first :: rest) offset len = .ok (some chain, after, off) ∧
      Cloned (first :: rest) offset len chain after off := by
  have start : Cloning (first :: rest) offset len len { chain := [], bi := first :: rest, off := offset, len := len } := by
    refine ⟨rfl, le_rfl, ?_, fun _ => id⟩
    rw [Nat.sub_self]
    exact ⟨by simp [chainBytes], fun _ => by simp [chainPlaced], nofun, ⟨[], rfl, by simp [chainBytes]⟩,
      fun bi head => by cases head; exact inside, nofun⟩
  obtain ⟨result, run, last, rfl, cloned⟩ := Returns.loop (Cloning (first :: rest) offset len)
    (fun variant state => cloneStep_cloning clones sources allocates enough) bounded start
  refine ⟨last.chain, last.bi, last.off, ?_, cloned⟩
  unfold bioChainCloneRange
  dsimp only
  rw [if_neg (by omega), run]
  rfl

theorem bioChainCloneRange_none {off' : Nat} (run : bioChainCloneRange bioClone memory bound src offset len = .ok (none, after, off')) :
    after = src ∧ off' = offset := by
  unfold bioChainCloneRange at run
  split at run
  · cases run
    exact ⟨rfl, rfl⟩
  · split_ifs at run
    · cases run
      exact ⟨rfl, rfl⟩
    · obtain ⟨result, -, run⟩ := ok_of_bind run
      cases result with
      | none =>
        cases run
        exact ⟨rfl, rfl⟩
      | some state => cases run

/-- Successive calls clone successive parts. -/
theorem cloneParts_spec {lens : List Nat} (clones : Clones bioClone) (sources : ∀ bio ∈ src, bio.Valid) (inside : ∀ bi ∈ src.head?, offset < bi.size)
    (positive : ∀ len ∈ lens, 0 < len ∧ len < bound) (enough : offset + lens.sum ≤ (chainBytes src).length)
    (allocates : ∀ i, memory i = true) :
    ∃ (chains : List (List Bio)) (after : List Bio) (off : Nat), cloneParts bioClone memory bound lens src offset = .ok (chains.map some, after, off) ∧
      chains.map (fun chain => (chainBytes chain).length) = lens ∧
      chains.flatMap chainBytes = ((chainBytes src).drop offset).take lens.sum := by
  induction lens generalizing src offset with
  | nil => exact ⟨[], src, offset, rfl, rfl, by simp⟩
  | cons len lens ih =>
    obtain ⟨some', bounded⟩ := positive len mem_cons_self
    rw [sum_cons] at enough
    cases src with
    | nil =>
      have none' : (chainBytes []).length = 0 := rfl
      omega
    | cons first rest =>
      obtain ⟨chain, next, off, run, cloned⟩ := bioChainCloneRange_cloned clones sources (inside first rfl) some' (by omega) allocates bounded
      obtain ⟨passed, split, place⟩ := cloned.passed
      have whole : chainBytes (first :: rest) = chainBytes passed ++ chainBytes next := by
        rw [split, chainBytes_append]
      rw [whole, length_append] at enough
      obtain ⟨chains, after, off', runs, lengths, bytes⟩ := ih
        (fun bio member => sources bio (by rw [split]; exact mem_append_right _ member)) cloned.within
        (fun other member => positive other (mem_cons_of_mem _ member)) (by lia)
      refine ⟨chain :: chains, after, off', ?_, ?_, ?_⟩
      · rw [cloneParts, run]
        simp only [bind, Except.bind, runs]
        rfl
      · have length : (chainBytes chain).length = len := by
          rw [cloned.bytes, whole, List.length_take, length_drop, length_append]
          lia
        rw [map_cons, length, lengths]
      · rw [flatMap_cons, bytes, cloned.bytes, sum_cons, take_add, drop_drop, ← place, whole,
          drop_length_add_append]

/-- A call makes a chain of the bytes that are asked for, in their places, and moves on to the byte behind them, so that
successive calls partition the chain; where it makes none it moves nothing. -/
theorem bioChainClone_partitions (clones : Clones bioClone) {first : Bio} {rest : List Bio} (sources : ∀ bio ∈ first :: rest, bio.Valid)
    (inside : offset < first.size) (allocates : ∀ i, memory i = true) :
    (∀ len bound, 0 < len → offset + len ≤ (chainBytes (first :: rest)).length → len < bound →
      ∃ chain after off, bioChainCloneRange bioClone memory bound (first :: rest) offset len = .ok (some chain, after, off) ∧
        Cloned (first :: rest) offset len chain after off) ∧
    (∀ lens bound, (∀ len ∈ lens, 0 < len ∧ len < bound) → offset + lens.sum ≤ (chainBytes (first :: rest)).length →
      ∃ (chains : List (List Bio)) (after : List Bio) (off : Nat), cloneParts bioClone memory bound lens (first :: rest) offset = .ok (chains.map some, after, off) ∧
        chains.map (fun chain => (chainBytes chain).length) = lens ∧
        chains.flatMap chainBytes = ((chainBytes (first :: rest)).drop offset).take lens.sum) ∧
    ∀ memory bound src offset len after off, bioChainCloneRange bioClone memory bound src offset len = .ok (none, after, off) →
      after = src ∧ off = offset := by
  refine ⟨fun len bound some' enough bounded => bioChainCloneRange_cloned clones sources inside some' enough allocates bounded,
    fun lens bound positive enough => cloneParts_spec clones sources ?_ positive enough allocates,
    fun memory bound src offset len after off => bioChainCloneRange_none⟩
  intro bi head
  cases head
  exact inside

end

def twoBios : List Bio :=
  [⟨1, 8, 0, false, 1536, 1, [⟨9, 0, 512⟩, ⟨10, 512, 1024⟩, ⟨11, 0, 512⟩]⟩, ⟨1, 16, 0, false, 512, 0, [⟨12, 0, 512⟩]⟩]

theorem twoBios_valid : ∀ bio ∈ twoBios, bio.Valid := by
  intro bio member
  simp only [twoBios, mem_cons, not_mem_nil, or_false] at member
  rcases member with rfl | rfl
  · exact ⟨by decide, by decide, by decide⟩
  · exact ⟨by decide, by decide, by decide⟩

/-- From behind the first live segment to the end of the second bio, which is cloned as a whole. -/
theorem bioChainClone_partitions_two : ∃ chain after off,
    bioChainCloneRange (fun src => { src with cloned := true }) (fun _ => true) 2000 twoBios 512 1536 =
        .ok (some chain, after, off) ∧
      Cloned twoBios 512 1536 chain after off := by
  have clones : Clones fun src => { src with cloned := true } := ⟨fun _ => rfl, fun _ => rfl, fun _ => rfl⟩
  exact (bioChainClone_partitions clones twoBios_valid (by decide) (fun _ => rfl)).1 1536 2000 (by decide)
    (length_chainBytes twoBios_valid).ge (by decide)

end KmodCeph.Rbd
