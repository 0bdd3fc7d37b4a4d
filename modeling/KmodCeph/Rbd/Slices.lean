import KmodCeph.Messenger.Cursor
import KmodCeph.Rbd.Bio
import KmodCeph.Rbd.Image

namespace KmodCeph.Rbd

open Lib Messenger List Nat

/-- What an image request is filled with: the head of a list of bios, or a page array. -/
inductive DataDesc where
  | nodata
  | bio (bioList : List Bio)
  | pages

/-- The data of an object request. Pages are counted from the first of the array, and `alignment` is where the OSD
operation has its first byte. -/
inductive SliceData where
  | nodata
  | bio (bioList : List Bio)
  | pages (pages pageCount alignment : Nat)

/-- The data of one object request of an image request. -/
structure Slice where
  obj : ObjRequest Unit
  segment : Nat
  data : SliceData

inductive FillBug where
  | noBytes
  | notAtBio
  | lengthFits
  | uintFits
  | endless
  | clone (bug : CloneBug)

structure FillState where
  imgOffset : Nat
  resid : Nat
  bioList : List Bio
  bioOffset : Nat
  pages : Nat
  objRequests : List Slice

def FillState.start (offset length : Nat) (bioList : List Bio) : FillState where
  imgOffset := offset
  resid := length
  bioList := bioList
  bioOffset := 0
  pages := 0
  objRequests := []

def DataDesc.type : DataDesc → ObjRequestType
  | .nodata => .nodata
  | .bio _ => .bio
  | .pages => .pages

/-- How far `pages` moves behind an object request. -/
def pagesAdvance (offset length : Nat) : Nat :=
  let pageCount := calcPagesFor offset length
  if (offset + length) % pageSize ≠ 0 then pageCount - 1 else pageCount

section

variable (bioClone : Bio → Bio) (memory : Nat → Bool) (bound order : Nat) (type : ObjRequestType)

def fillStep (state : FillState) : Except FillBug (Next FillState (Option (List Slice))) :=
  if state.resid = 0 then .ok (.done (some state.objRequests))
  else if memory state.objRequests.length = false then .ok (.done none)
  else
    let offset := rbdSegmentOffset order state.imgOffset
    if 2 ^ 64 - 1 - offset < state.resid then .error .lengthFits
    else
      let length := rbdSegmentLength order state.imgOffset state.resid
      let obj := rbdObjRequestCreate order type () state.imgOffset state.resid
      let segment := state.imgOffset / 2 ^ order
      match type with
      | .bio =>
        if uintMax < length then .error .uintFits
        else
          match bioChainCloneRange bioClone (fun _ => memory state.objRequests.length) bound state.bioList state.bioOffset
            length with
          | .error bug => .error (.clone bug)
          | .ok (none, _, _) => .ok (.done none)
          | .ok (some chain, bioList, bioOffset) =>
            .ok (.again
              { imgOffset := state.imgOffset + length
                resid := state.resid - length
                bioList := bioList
                bioOffset := bioOffset
                pages := state.pages
                objRequests := state.objRequests ++ [⟨obj, segment, .bio chain⟩] })
      | .pages =>
        let data := SliceData.pages state.pages (calcPagesFor offset length) (offset % pageSize)
        .ok (.again
          { imgOffset := state.imgOffset + length
            resid := state.resid - length
            bioList := state.bioList
            bioOffset := state.bioOffset
            pages := state.pages + pagesAdvance offset length
            objRequests := state.objRequests ++ [⟨obj, segment, data⟩] })
      | .nodata =>
        .ok (.again
          { imgOffset := state.imgOffset + length
            resid := state.resid - length
            bioList := state.bioList
            bioOffset := state.bioOffset
            pages := state.pages
            objRequests := state.objRequests ++ [⟨obj, segment, .nodata⟩] })

end

/-- `rbd_img_request_fill` with loops of `bound` passes at most; without memory it has no object requests. -/
def imgRequestFill (bioClone : Bio → Bio) (memory : Nat → Bool) (bound order : Nat) (data : DataDesc)
    (offset length : Nat) : Except FillBug (Option (List Slice)) := do
  haltIf (length = 0) .noBytes
  let bioList ← match data with
    | .bio bioList => do
      haltIf (bioList.head?.all fun bio => offset ≠ bio.sector * 512) .notAtBio
      pure bioList
    | _ => pure []
  loop .endless (fillStep bioClone memory bound order data.type) bound (.start offset length bioList)

/-- The data that comes with an image request: bios of its bytes, from its first sector on. -/
def DataDesc.Covers (data : DataDesc) (offset length : Nat) : Prop :=
  match data with
  | .bio bioList => (∀ bio ∈ bioList, bio.Valid) ∧ (∀ bio ∈ bioList.head?, offset = bio.sector * 512) ∧
      length ≤ (chainBytes bioList).length
  | _ => True

/-- The object requests follow each other through the image request, each in an object of its own. -/
structure Tiles (order offset length : Nat) (slices : List Slice) : Prop where
  consecutive : ∀ before slice behind, slices = before ++ slice :: behind →
    slice.obj.imgOffset = offset + (before.map (·.obj.length)).sum
  whole : (slices.map (·.obj.length)).sum = length
  inside : ∀ slice ∈ slices, 0 < slice.obj.length ∧ slice.obj.offset + slice.obj.length ≤ 2 ^ order ∧
    slice.obj.offset = slice.obj.imgOffset % 2 ^ order ∧ slice.segment = slice.obj.imgOffset / 2 ^ order
  distinct : (slices.map Slice.segment).Nodup

/-- An object request has the data of its bytes. In a page array byte `k` of the image request is byte `k` of the array. -/
def Slice.Denotes (data : DataDesc) (offset : Nat) (slice : Slice) : Prop :=
  match data, slice.data with
  | .nodata, .nodata => True
  | .bio source, .bio bioList =>
    chainBytes bioList = ((chainBytes source).drop (slice.obj.imgOffset - offset)).take slice.obj.length
  | .pages, .pages pages _ alignment =>
    ∀ byte < slice.obj.length, pages * pageSize + alignment + byte = slice.obj.imgOffset - offset + byte
  | _, _ => False

/-- The pages of a request that starts with one, for objects that are made of pages or for one object only. -/
def PagesAligned (order offset length : Nat) : Prop :=
  offset % 2 ^ order % pageSize = 0 ∧ (12 ≤ order ∨ offset % 2 ^ order + length ≤ 2 ^ order)

section

variable {σ : Type} {order imgOffset resid offset length fuel : Nat} {type : ObjRequestType} {stage : σ}

theorem fillObjRequests_fuel {fuel' : Nat} (enough : resid ≤ fuel) (enough' : resid ≤ fuel') :
    fillObjRequests order type stage fuel imgOffset resid = fillObjRequests order type stage fuel' imgOffset resid := by
  induction fuel generalizing fuel' imgOffset resid with
  | zero =>
    have none' : resid = 0 := by omega
    cases fuel' <;> simp [fillObjRequests, none']
  | succ fuel ih =>
    cases fuel' with
    | zero =>
      have none' : resid = 0 := by omega
      simp [fillObjRequests, none']
    | succ fuel' =>
      unfold fillObjRequests
      split_ifs with finished
      · rfl
      · have positive := @rbdSegmentLength_pos order imgOffset resid (by omega)
        dsimp only [rbdObjRequestCreate]
        rw [@ih _ _ fuel' (by lia) (by lia)]

theorem fillObjRequests_consecutive {before behind : List (ObjRequest σ)} {obj : ObjRequest σ}
    (split : fillObjRequests order type stage fuel imgOffset resid = before ++ obj :: behind) :
    obj.imgOffset = imgOffset + (before.map (·.length)).sum := by
  induction fuel generalizing imgOffset resid before with
  | zero => cases before <;> cases split
  | succ fuel ih =>
    unfold fillObjRequests at split
    split_ifs at split with finished
    · cases before <;> cases split
    · cases before with
      | nil =>
        obtain ⟨rfl, -⟩ := List.cons.inj split
        rfl
      | cons first before =>
        obtain ⟨rfl, rest⟩ := List.cons.inj split
        have later := ih rest
        rw [map_cons, sum_cons]
        lia

theorem tiles_of_fillObjRequests {slices : List Slice} (segments : ∀ slice ∈ slices, slice.segment = slice.obj.imgOffset / 2 ^ order)
    (objs : slices.map Slice.obj = fillObjRequests order type () length offset length) : Tiles order offset length slices := by
  have lengths : ∀ list : List Slice, list.map (fun slice => slice.obj.length) = (list.map Slice.obj).map (·.length) :=
    fun list => (map_map).symm
  refine ⟨fun before slice behind split => ?_, ?_, fun slice member => ?_, ?_⟩
  · rw [split, map_append, map_cons] at objs
    rw [lengths]
    exact fillObjRequests_consecutive objs.symm
  · rw [lengths, objs]
    exact fillObjRequests_sum le_rfl
  · have listed := mem_map_of_mem (f := Slice.obj) member
    rw [objs] at listed
    obtain ⟨positive, -, place, within, -⟩ := fillObjRequests_mem listed
    exact ⟨positive, within, place, segments slice member⟩
  · rw [map_congr_left segments, ← Function.comp_def (fun obj : ObjRequest Unit => obj.imgOffset / 2 ^ order) Slice.obj,
      ← map_map, objs]
    exact fillObjRequests_numbers

end

def FillState.add (order : Nat) (type : ObjRequestType) (state : FillState) (data : SliceData) (bioList : List Bio)
    (bioOffset pages : Nat) : FillState where
  imgOffset := state.imgOffset + rbdSegmentLength order state.imgOffset state.resid
  resid := state.resid - rbdSegmentLength order state.imgOffset state.resid
  bioList := bioList
  bioOffset := bioOffset
  pages := pages
  objRequests := state.objRequests ++
    [⟨rbdObjRequestCreate order type () state.imgOffset state.resid, state.imgOffset / 2 ^ order, data⟩]

structure Filling (order : Nat) (type : ObjRequestType) (offset length : Nat) (state : FillState) : Prop where
  place : state.imgOffset + state.resid = offset + length
  first : offset ≤ state.imgOffset
  objs : state.objRequests.map Slice.obj ++ fillObjRequests order type () state.resid state.imgOffset state.resid =
    fillObjRequests order type () length offset length
  segments : ∀ slice ∈ state.objRequests, slice.segment = slice.obj.imgOffset / 2 ^ order

section

variable {memory : Nat → Bool} {bound order offset length : Nat} {type : ObjRequestType} {state : FillState}
variable {bioClone : Bio → Bio}

theorem Filling.add (filling : Filling order type offset length state) (more : 0 < state.resid) (data : SliceData)
    (bioList : List Bio) (bioOffset pages : Nat) : Filling order type offset length (state.add order type data bioList bioOffset pages) := by
  obtain ⟨place, first, objs, segments⟩ := filling
  have positive := @rbdSegmentLength_pos order state.imgOffset state.resid more
  have within := @rbdSegmentLength_le order state.imgOffset state.resid
  refine ⟨?_, ?_, ?_, ?_⟩
  · unfold FillState.add
    lia
  · unfold FillState.add
    dsimp only
    omega
  · rw [← objs]
    obtain ⟨resid, residEq⟩ := Nat.exists_eq_add_of_le' more
    conv_rhs => rw [residEq, fillObjRequests, if_neg (succ_ne_zero resid), ← residEq]
    unfold FillState.add
    dsimp only [rbdObjRequestCreate]
    rw [map_append, append_assoc, map_singleton, singleton_append,
      @fillObjRequests_fuel _ _ _ _ _ _ _ resid le_rfl (by lia)]
  · intro slice member
    rcases List.mem_append.mp member with old | new
    · exact segments slice old
    · rw [List.mem_singleton.mp new]
      rfl

theorem fill_runs (kept : FillState → Prop)
    (pass : ∀ state, Filling order type offset length state → kept state → 0 < state.resid →
      ∃ data bioList bioOffset pages, fillStep bioClone memory bound order type state =
        .ok (.again (state.add order type data bioList bioOffset pages)) ∧ kept (state.add order type data bioList bioOffset pages))
    (bounded : length < bound) {bioList : List Bio}
    (start : kept (.start offset length bioList)) :
    ∃ last, loop .endless (fillStep bioClone memory bound order type) bound (.start offset length bioList) =
        .ok (some last.objRequests) ∧
      Tiles order offset length last.objRequests ∧ last.resid = 0 ∧ kept last := by
  have initial : Filling order type offset length (.start offset length bioList) :=
    ⟨rfl, le_rfl, rfl, forall_mem_nil _⟩
  obtain ⟨result, run, last, rfl, filled, finished, holds⟩ := @Returns.loop _ _ _ .endless
    (fillStep bioClone memory bound order type) bound _
    (fun variant state => state.resid = variant ∧ Filling order type offset length state ∧ kept state)
    (fun result => ∃ last : FillState, result = some last.objRequests ∧ Filling order type offset length last ∧
      last.resid = 0 ∧ kept last) (by
      rintro variant state ⟨rfl, filling, holds⟩
      by_cases finished : state.resid = 0
      · refine ⟨.done (some state.objRequests), ?_, state, rfl, filling, finished, holds⟩
        rw [fillStep, if_pos finished]
      · obtain ⟨data, bioList, bioOffset, pages, step, next⟩ := pass state filling holds (by omega)
        have positive := @rbdSegmentLength_pos order state.imgOffset state.resid (by omega)
        exact ⟨_, step, (state.add order type data bioList bioOffset pages).resid, by unfold FillState.add; dsimp only; lia, rfl,
          filling.add (by omega) data bioList bioOffset pages, next⟩)
    _ bounded ⟨rfl, initial, start⟩
  refine ⟨last, run, @tiles_of_fillObjRequests _ _ _ type _ filled.segments ?_, finished, holds⟩
  have objs := filled.objs
  rw [finished, fillObjRequests, List.append_nil] at objs
  exact objs

theorem Filling.step (filling : Filling order type offset length state) (more : 0 < state.resid) (fits : offset + length < 2 ^ 64)
    (allocates : ∀ i, memory i = true) :
    ¬ state.resid = 0 ∧ ¬ memory state.objRequests.length = false ∧
      ¬ 2 ^ 64 - 1 - rbdSegmentOffset order state.imgOffset < state.resid := by
  have below : rbdSegmentOffset order state.imgOffset ≤ state.imgOffset := mod_le _ _
  have place := filling.place
  refine ⟨by omega, by simp [allocates], by lia⟩

def pageSlices (order : Nat) : Nat → Nat → Nat → Nat → List Slice
  | 0, _, _, _ => []
  | fuel + 1, pages, imgOffset, resid =>
    if resid = 0 then []
    else
      let offset := rbdSegmentOffset order imgOffset
      let length := rbdSegmentLength order imgOffset resid
      ⟨rbdObjRequestCreate order .pages () imgOffset resid, imgOffset / 2 ^ order,
        .pages pages (calcPagesFor offset length) (offset % pageSize)⟩ ::
        pageSlices order fuel (pages + pagesAdvance offset length) (imgOffset + length) (resid - length)

theorem pageSlices_fuel {fuel fuel' pages imgOffset resid : Nat} (enough : resid ≤ fuel) (enough' : resid ≤ fuel') :
    pageSlices order fuel pages imgOffset resid = pageSlices order fuel' pages imgOffset resid := by
  induction fuel generalizing fuel' pages imgOffset resid with
  | zero =>
    have none' : resid = 0 := by omega
    cases fuel' <;> simp [pageSlices, none']
  | succ fuel ih =>
    cases fuel' with
    | zero =>
      have none' : resid = 0 := by omega
      simp [pageSlices, none']
    | succ fuel' =>
      unfold pageSlices
      split_ifs with finished
      · rfl
      · have positive := @rbdSegmentLength_pos order imgOffset resid (by omega)
        dsimp only
        rw [@ih fuel' _ _ _ (by lia) (by lia)]

theorem fill_pages (fits : offset + length < 2 ^ 64) (allocates : ∀ i, memory i = true) (bounded : length < bound) {bioList : List Bio} :
    loop .endless (fillStep bioClone memory bound order .pages) bound (.start offset length bioList) =
      .ok (some (pageSlices order length 0 offset length)) ∧ Tiles order offset length (pageSlices order length 0 offset length) := by
  obtain ⟨last, run, tiles, finished, holds⟩ := @fill_runs memory bound order offset length .pages bioClone
    (fun state => state.objRequests ++ pageSlices order state.resid state.pages state.imgOffset state.resid =
      pageSlices order length 0 offset length)
    (by
      intro state filling holds more
      obtain ⟨notDone, memory', short⟩ := filling.step more fits allocates
      refine ⟨.pages state.pages (calcPagesFor (rbdSegmentOffset order state.imgOffset) (rbdSegmentLength order state.imgOffset state.resid))
        (rbdSegmentOffset order state.imgOffset % pageSize), state.bioList, state.bioOffset,
        state.pages + pagesAdvance (rbdSegmentOffset order state.imgOffset) (rbdSegmentLength order state.imgOffset state.resid), ?_, ?_⟩
      · rw [fillStep, if_neg notDone, if_neg memory']
        rw [if_neg short]
        rfl
      · have positive := @rbdSegmentLength_pos order state.imgOffset state.resid more
        rw [← holds]
        obtain ⟨resid, residEq⟩ := Nat.exists_eq_add_of_le' more
        conv_rhs => rw [residEq, pageSlices, if_neg (succ_ne_zero resid), ← residEq]
        unfold FillState.add
        rw [append_assoc, singleton_append, @pageSlices_fuel _ _ resid _ _ _ le_rfl (by lia)])
    bounded bioList (nil_append _)
  rw [finished] at holds
  rw [pageSlices, List.append_nil] at holds
  rw [← holds]
  exact ⟨run, tiles⟩

theorem fill_nodata (fits : offset + length < 2 ^ 64) (allocates : ∀ i, memory i = true) (bounded : length < bound) {bioList : List Bio} :
    ∃ slices, loop .endless (fillStep bioClone memory bound order .nodata) bound (.start offset length bioList) =
      .ok (some slices) ∧ Tiles order offset length slices ∧ ∀ slice ∈ slices, slice.data = .nodata := by
  obtain ⟨last, run, tiles, -, holds⟩ := @fill_runs memory bound order offset length .nodata bioClone
    (fun state => ∀ slice ∈ state.objRequests, slice.data = .nodata)
    (by
      intro state filling holds more
      obtain ⟨notDone, memory', short⟩ := filling.step more fits allocates
      refine ⟨.nodata, state.bioList, state.bioOffset, state.pages, ?_, ?_⟩
      · rw [fillStep, if_neg notDone, if_neg memory']
        rw [if_neg short]
        rfl
      · intro slice member
        rcases List.mem_append.mp member with old | new
        · exact holds slice old
        · rw [List.mem_singleton.mp new])
    bounded bioList (forall_mem_nil _)
  exact ⟨last.objRequests, run, tiles, holds⟩

/-- Where the list of bios stands, and that the clones have their bytes. -/
structure BioKept (source : List Bio) (offset : Nat) (state : FillState) : Prop where
  passed : ∃ passed, source = passed ++ state.bioList ∧ (chainBytes passed).length + state.bioOffset = state.imgOffset - offset
  within : ∀ bi ∈ state.bioList.head?, state.bioOffset < bi.size
  ended : state.bioList = [] → state.bioOffset = 0
  denotes : ∀ slice ∈ state.objRequests, slice.Denotes (.bio source) offset

theorem fill_bio {source : List Bio} (clones : Clones bioClone) (covers : (DataDesc.bio source).Covers offset length) (small : order ≤ 31)
    (fits : offset + length < 2 ^ 64) (allocates : ∀ i, memory i = true) (bounded : length < bound) :
    ∃ slices, loop .endless (fillStep bioClone memory bound order .bio) bound (.start offset length source) = .ok (some slices) ∧
      Tiles order offset length slices ∧ ∀ slice ∈ slices, slice.Denotes (.bio source) offset := by
  obtain ⟨valid, -, enough⟩ := covers
  obtain ⟨last, run, tiles, -, holds⟩ := @fill_runs memory bound order offset length .bio bioClone (BioKept source offset)
    (by
      intro state filling holds more
      obtain ⟨notDone, memory', short⟩ := filling.step more fits allocates
      obtain ⟨passed, split, place⟩ := holds.passed
      have reached := filling.place
      have started := filling.first
      have part := @rbdSegmentLength_le order state.imgOffset state.resid
      have positive := @rbdSegmentLength_pos order state.imgOffset state.resid more
      have segment := @rbdSegmentLength_segment order state.imgOffset state.resid
      have object : 2 ^ order ≤ 2 ^ 31 := Nat.pow_le_pow_right (by decide) small
      have uint : ¬ uintMax < rbdSegmentLength order state.imgOffset state.resid := by
        unfold uintMax
        lia
      rw [split, chainBytes_append, length_append] at enough
      cases rest : state.bioList with
      | nil =>
        have empty : (chainBytes []).length = 0 := rfl
        lia
      | cons first behind =>
        have inside : state.bioOffset < first.size := holds.within first (by rw [rest]; rfl)
        rw [rest] at enough split
        obtain ⟨chain, after, off, clone, cloned⟩ := bioChainCloneRange_cloned clones
          (fun bio member => valid bio (by rw [split]; exact mem_append_right _ member)) inside positive (by lia)
          (fun _ => allocates _) (part.trans_lt (by lia : state.resid < bound))
        obtain ⟨passed', split', place'⟩ := cloned.passed
        refine ⟨.bio chain, after, off, state.pages, ?_, ?_, cloned.within, cloned.ended, ?_⟩
        · rw [fillStep, if_neg notDone, if_neg memory']
          dsimp only
          rw [if_neg short, if_neg uint, rest, clone]
          rfl
        · refine ⟨passed ++ passed', by rw [split, split', append_assoc]; rfl, ?_⟩
          rw [chainBytes_append, length_append]
          unfold FillState.add
          lia
        · intro slice member
          rcases List.mem_append.mp member with old | new
          · exact holds.denotes slice old
          · rw [List.mem_singleton.mp new]
            unfold Slice.Denotes
            dsimp only [rbdObjRequestCreate]
            rw [cloned.bytes, split, chainBytes_append, ← place, drop_length_add_append])
    bounded source ⟨⟨[], rfl, by simp [FillState.start, chainBytes]⟩, by
      intro bi head
      exact (valid bi (mem_of_mem_head? head)).size_pos, fun _ => rfl, forall_mem_nil _⟩
  exact ⟨last.objRequests, run, tiles, holds.denotes⟩

end

section

variable {order offset length pages imgOffset resid fuel : Nat}

theorem pagesAdvance_object {object start : Nat} (paged : pageSize ∣ object) (aligned : start % pageSize = 0) (inside : start ≤ object) :
    pagesAdvance start (object - start) * pageSize = object - start := by
  obtain ⟨count, rfl⟩ := paged
  unfold pagesAdvance calcPagesFor
  unfold pageSize at *
  lia

/-- From a page boundary on every object request has its bytes. -/
theorem pageSlices_denote (place : pages * pageSize + offset = imgOffset) (aligned : imgOffset % 2 ^ order % pageSize = 0)
    (objects : 12 ≤ order ∨ imgOffset % 2 ^ order + resid ≤ 2 ^ order) :
    ∀ slice ∈ pageSlices order fuel pages imgOffset resid, slice.Denotes .pages offset := by
  induction fuel generalizing pages imgOffset resid with
  | zero => exact forall_mem_nil _
  | succ fuel ih =>
    intro slice member
    unfold pageSlices at member
    split_ifs at member with finished
    · cases member
    rcases List.mem_cons.mp member with rfl | later
    · intro byte _
      dsimp only [rbdObjRequestCreate, rbdSegmentOffset]
      lia
    · rcases Nat.lt_or_ge (rbdSegmentLength order imgOffset resid) resid with less | all
      · -- the object ends here, and a page with it
        have inside : imgOffset % 2 ^ order < 2 ^ order := mod_lt _ (Nat.two_pow_pos order)
        have across : ¬ imgOffset % 2 ^ order + resid ≤ 2 ^ order := by
          intro single
          unfold rbdSegmentLength at less
          rw [if_neg (by omega)] at less
          omega
        have large : 12 ≤ order := objects.resolve_right across
        have part : rbdSegmentLength order imgOffset resid = 2 ^ order - imgOffset % 2 ^ order := by
          unfold rbdSegmentLength
          rw [if_pos (by omega)]
        have boundary := rbdSegmentLength_end less
        have start : (imgOffset + rbdSegmentLength order imgOffset resid) % 2 ^ order = 0 := by
          rw [boundary]
          exact mul_mod_left _ _
        have advance := pagesAdvance_object (pow_dvd_pow 2 large) aligned inside.le
        rw [← part] at advance
        refine ih ?_ ?_ (.inl large) slice later
        · rw [Nat.add_mul, rbdSegmentOffset, advance]
          lia
        · rw [start]
          rfl
      · rw [Nat.sub_eq_zero_of_le all] at later
        cases fuel with
        | zero => cases later
        | succ fuel =>
          cases later

theorem pageSlices_denote_iff (some' : 0 < length) :
    (∀ slice ∈ pageSlices order length 0 offset length, slice.Denotes .pages offset) ↔ PagesAligned order offset length := by
  constructor
  · intro denote
    obtain ⟨rest, lengthEq⟩ := Nat.exists_eq_add_of_le' some'
    have unfolded : pageSlices order length 0 offset length = pageSlices order (rest + 1) 0 offset length := by rw [lengthEq]
    rw [unfolded, pageSlices, if_neg (by omega)] at denote
    dsimp only at denote
    have positive := @rbdSegmentLength_pos order offset length some'
    have first := denote _ mem_cons_self 0 positive
    dsimp only [rbdObjRequestCreate, rbdSegmentOffset] at first
    have aligned : offset % 2 ^ order % pageSize = 0 := by lia
    refine ⟨aligned, ?_⟩
    by_contra neither
    rw [not_or, not_le, not_le] at neither
    obtain ⟨small, across⟩ := neither
    have inside : offset % 2 ^ order < 2 ^ order := mod_lt _ (Nat.two_pow_pos order)
    have object : 2 ^ order ≤ 2 ^ 11 := Nat.pow_le_pow_right (by decide) (by omega)
    have start : offset % 2 ^ order = 0 := by
      unfold pageSize at aligned
      lia
    have part : rbdSegmentLength order offset length = 2 ^ order := by
      unfold rbdSegmentLength
      rw [if_pos (by omega), start, Nat.sub_zero]
    -- the pointer stays at the first page
    have stays : pagesAdvance (rbdSegmentOffset order offset) (rbdSegmentLength order offset length) = 0 := by
      have advance : pagesAdvance 0 (2 ^ order) = 0 := by
        unfold pagesAdvance calcPagesFor pageSize
        lia
      rw [part, rbdSegmentOffset, start, advance]
    obtain ⟨rest', restEq⟩ : ∃ rest', rest = rest' + 1 := Nat.exists_eq_add_of_le' (by
      lia)
    rw [restEq, pageSlices, if_neg (by lia)] at denote
    have second := denote _ (mem_cons_of_mem _ mem_cons_self) 0 (rbdSegmentLength_pos (by lia))
    dsimp only [rbdObjRequestCreate, rbdSegmentOffset] at second
    rw [rbdSegmentOffset] at stays
    have next : (offset + rbdSegmentLength order offset length) % 2 ^ order = 0 := by
      rw [part, add_mod_right, start]
    lia
  · rintro ⟨aligned, objects⟩
    exact pageSlices_denote (Nat.zero_add _ ▸ by omega) aligned objects

/-- The object requests tile the image request, and each has the data of its own bytes: always those of bios and of
requests without data, and those of pages exactly if the request begins with a page of its object and either stays in
that object or the objects are made of pages. -/
theorem imgRequestFill_slices_iff {bioClone : Bio → Bio} {memory : Nat → Bool} {bound : Nat} {data : DataDesc}
    (clones : Clones bioClone) (small : 9 ≤ order ∧ order ≤ 31)
    (some' : 0 < length) (fits : offset + length < 2 ^ 64) (covers : data.Covers offset length) (allocates : ∀ i, memory i = true)
    (bounded : length < bound) :
    ∃ slices, imgRequestFill bioClone memory bound order data offset length = .ok (some slices) ∧
      (Tiles order offset length slices ∧ (∀ slice ∈ slices, slice.Denotes data offset) ↔
        (data = .pages → PagesAligned order offset length)) := by
  have positive : haltIf (length = 0) FillBug.noBytes = .ok () := if_neg (by omega)
  unfold imgRequestFill
  rw [positive]
  cases data with
  | nodata =>
    obtain ⟨slices, run, tiles, none'⟩ := fill_nodata fits allocates bounded
    refine ⟨slices, run, iff_of_true ⟨tiles, fun slice member => ?_⟩ nofun⟩
    unfold Slice.Denotes
    rw [none' slice member]
    trivial
  | bio source =>
    obtain ⟨slices, run, tiles, denote⟩ := fill_bio clones covers small.2 fits allocates bounded
    refine ⟨slices, ?_, iff_of_true ⟨tiles, denote⟩ nofun⟩
    obtain ⟨-, sector, enough⟩ := covers
    cases source with
    | nil =>
      have empty : (chainBytes []).length = 0 := rfl
      omega
    | cons first rest =>
      have here : haltIf ((first :: rest).head?.all fun bio => offset ≠ bio.sector * 512) FillBug.notAtBio = .ok () := by
        refine if_neg ?_
        simpa using sector first rfl
      dsimp only [bind, Except.bind]
      rw [here]
      exact run
  | pages =>
    obtain ⟨run, tiles⟩ := fill_pages fits allocates bounded
    refine ⟨_, run, ?_⟩
    rw [pageSlices_denote_iff some']
    exact ⟨fun both _ => both.2, fun aligned => ⟨tiles, aligned rfl⟩⟩

end

/-- Pages of the first two objects of 4 MB. -/
theorem imgRequestFill_slices_iff_pages : ∃ slices,
    imgRequestFill (fun src => { src with cloned := true }) (fun _ => true) (2 ^ 23) 22 .pages 4096 (2 ^ 22) = .ok (some slices) ∧
      (Tiles 22 4096 (2 ^ 22) slices ∧ (∀ slice ∈ slices, slice.Denotes .pages 4096) ↔
        (DataDesc.pages = .pages → PagesAligned 22 4096 (2 ^ 22))) :=
  imgRequestFill_slices_iff ⟨fun _ => rfl, fun _ => rfl, fun _ => rfl⟩ ⟨by decide, by decide⟩ (by decide) (by decide) trivial (fun _ => rfl) (by decide)

/-- A sector that is not the first of its page goes to its place in the page of the object. -/
theorem imgRequestFill_misplaced : ∃ slices,
    imgRequestFill (fun src => { src with cloned := true }) (fun _ => true) 513 22 .pages 512 512 = .ok (some slices) ∧
    ∃ slice ∈ slices, ¬ slice.Denotes .pages 512 := by
  refine ⟨_, rfl, _, mem_cons_self, fun denotes => ?_⟩
  have first := denotes 0 (by decide)
  exact absurd first (by decide)

end KmodCeph.Rbd
