import KmodCeph.Crush.Map

namespace KmodCeph.Crush

open Lib

def isOut (weight : List UInt32) (weightMax item : Int) (x : UInt32) : Except Fault Bool :=
  if item ≥ weightMax then .ok true
  else if item < 0 then .error .weights
  else do
    let w ← readAt .weights weight item.toNat
    if w ≥ 0x10000 then .ok false
    else if w = 0 then .ok true
    else .ok (¬ (crushHash32Two crushHashRjenkins1 x (UInt32.ofInt item) &&& 0xffff) < w)

/-- The arguments of `crush_choose_firstn` that its loops only read. -/
structure FirstnArgs where
  map : CrushMap
  weight : List UInt32
  weightMax : Int
  x : UInt32
  type : Int
  tries : UInt32
  localRetries : UInt32
  localFallbackRetries : UInt32
  varyR : UInt32
  parentR : UInt32

structure Search where
  slot : Int
  ftotal : UInt32
  flocal : UInt32
  out2 : List Int
  perms : Perms

structure Found where
  item : Option Int
  out2 : List Int
  perms : Perms

/-- The nested call that looks for a device below a chosen bucket: bucket
slot, `outpos`, `sub_r`, `out2`, permutations; it returns the new `outpos`. -/
abbrev LeafCall :=
  Int → Nat → UInt32 → List Int → Perms → Except Fault (Nat × List Int × Perms)

/-- `r >> (vary_r - 1)` on an `int`; the machine takes the distance mod 32. -/
def subR (varyR r : UInt32) : UInt32 :=
  if varyR = 0 then 0
  else UInt32.ofBitVec (r.toBitVec.sshiftRight ((varyR - 1).toNat % 32))

def firstnDraw (args : FirstnArgs) (bound : Nat) (bucket : Bucket) (r flocal : UInt32)
    (cache : PermCache) : Except Fault (Int × PermCache) :=
  if args.localFallbackRetries > 0 ∧ flocal ≥ bucket.size >>> 1 ∧
      flocal > args.localFallbackRetries then
    bucketPermChoose bucket args.x r cache
  else crushBucketChoose bound bucket args.x r cache

/-- The code at the label `reject`, reached with `reject` or `collide` set:
retry in the bucket, retry the descent, or give up. -/
def firstnRetry (args : FirstnArgs) (bucket : Bucket) (collide : Bool) (search : Search) :
    Next Search (Next Search Found) :=
  let search := { search with ftotal := search.ftotal + 1, flocal := search.flocal + 1 }
  if collide ∧ search.flocal ≤ args.localRetries then .again search
  else if args.localFallbackRetries > 0 ∧
      search.flocal ≤ bucket.size + args.localFallbackRetries then .again search
  else if search.ftotal < args.tries then .done (.again search)
  else .done (.done { item := none, out2 := search.out2, perms := search.perms })

/-- The leaf below an item that does not collide. Returns `reject`. -/
def firstnLeaf (args : FirstnArgs) (leaf : Option LeafCall) (outpos : Nat) (item : Int)
    (r : UInt32) (search : Search) : Except Fault (Bool × Search) :=
  match leaf with
  | none => .ok (false, search)
  | some call =>
    if item < 0 then do
      let (reached, out2, perms) ←
        call (bucketSlot item) outpos (subR args.varyR r) search.out2 search.perms
      .ok (decide (reached ≤ outpos), { search with out2, perms })
    else do
      let out2 ← writeAt .scratch search.out2 outpos item
      .ok (false, { search with out2 })

/-- From the comment "collision?" on: the item has the wanted type. -/
def firstnAccept (args : FirstnArgs) (leaf : Option LeafCall) (bucket : Bucket) (outpos : Nat)
    (out : List Int) (item itemtype : Int) (r : UInt32) (search : Search) :
    Except Fault (Next Search (Next Search Found)) :=
  if item ∈ out.take outpos then do
    let _ ← if itemtype = 0 then isOut args.weight args.weightMax item args.x else .ok false
    .ok (firstnRetry args bucket true search)
  else do
    let (reject, search) ← firstnLeaf args leaf outpos item r search
    let reject ←
      if reject then .ok true
      else if itemtype = 0 then isOut args.weight args.weightMax item args.x
      else .ok false
    if reject then .ok (firstnRetry args bucket false search)
    else .ok (.done (.done { item := some item, out2 := search.out2, perms := search.perms }))

def firstnPass (args : FirstnArgs) (leaf : Option LeafCall) (bound rep outpos : Nat)
    (out : List Int) (search : Search) : Except Fault (Next Search (Next Search Found)) := do
  let bucket ← args.map.bucketAt search.slot
  let r := UInt32.ofNat rep + args.parentR + search.ftotal
  if bucket.size = 0 then .ok (firstnRetry args bucket false search)
  else do
    let (item, cache) ← firstnDraw args bound bucket r search.flocal (search.perms search.slot)
    let search := { search with perms := Function.update search.perms search.slot cache }
    let skip : Next Search (Next Search Found) :=
      .done (.done { item := none, out2 := search.out2, perms := search.perms })
    if item ≥ args.map.maxDevices then .ok skip
    else do
      let itemtype ← args.map.itemType item
      if itemtype ≠ args.type then
        if item ≥ 0 ∨ bucketSlot item ≥ args.map.buckets.length then .ok skip
        else .ok (.again { search with slot := bucketSlot item })
      else firstnAccept args leaf bucket outpos out item itemtype r search

/-- The two retry loops for one replica: each descent starts at `slot` with
`flocal = 0`. -/
def firstnSearch (args : FirstnArgs) (leaf : Option LeafCall) (bound : Nat) (slot : Int)
    (rep outpos : Nat) (out out2 : List Int) (perms : Perms) : Except Fault Found :=
  loop .exhausted
    (fun search => loop .exhausted (firstnPass args leaf bound rep outpos out) bound
      { search with slot, flocal := 0 })
    bound { slot, ftotal := 0, flocal := 0, out2, perms }

/-- The `for (rep = outpos; rep < numrep; rep++)` loop with `count` replicas
left. Returns `outpos` and the vectors. -/
def firstnReps (args : FirstnArgs) (leaf : Option LeafCall) (bound : Nat) (slot : Int) :
    Nat → Nat → Nat → List Int → List Int → Perms →
      Except Fault (Nat × List Int × List Int × Perms)
  | 0, _, outpos, out, out2, perms => .ok (outpos, out, out2, perms)
  | count + 1, rep, outpos, out, out2, perms => do
    let found ← firstnSearch args leaf bound slot rep outpos out out2 perms
    match found.item with
    | none => firstnReps args leaf bound slot count (rep + 1) outpos out found.out2 found.perms
    | some item => do
      let out ← writeAt .scratch out outpos item
      firstnReps args leaf bound slot count (rep + 1) (outpos + 1) out found.out2 found.perms

/-- `crush_choose_firstn` with `recurse_to_leaf = 0`, as the nested call has
it: type 0, one replica at `outpos`, no second vector. -/
def chooseLeafFirstn (args : FirstnArgs) (recurseTries : UInt32) (bound : Nat) : LeafCall :=
  fun slot outpos subR out2 perms => do
    let (outpos, out, _, perms) ← firstnReps
      { args with type := 0, tries := recurseTries, parentR := subR } none bound slot
      1 outpos outpos out2 [] perms
    .ok (outpos, out, perms)

def crushChooseFirstn (args : FirstnArgs) (bound : Nat) (slot : Int) (numrep outpos : Nat)
    (out out2 : List Int) (perms : Perms) (recurseTries : UInt32) (recurseToLeaf : Bool) :
    Except Fault (Nat × List Int × List Int × Perms) :=
  firstnReps args (if recurseToLeaf then some (chooseLeafFirstn args recurseTries bound) else none)
    bound slot (numrep - outpos) outpos outpos out out2 perms

def crushItemUndef : Int := 0x7ffffffe
def crushItemNone : Int := 0x7fffffff

/-- The arguments of `crush_choose_indep` that its loops only read. The size of
a uniform bucket is divided by `numrep`, which `crush_do_rule` has checked. -/
structure IndepArgs where
  map : CrushMap
  weight : List UInt32
  weightMax : Int
  x : UInt32
  numrep : Nat
  positive : 0 < numrep
  type : Int
  tries : UInt32
  parentR : UInt32

/-- The variables of `crush_choose_indep`; `out2` is absent in the nested
call. -/
structure Indep where
  left : Int
  out : List Int
  out2 : Option (List Int)
  perms : Perms

/-- The nested call for one position: bucket slot, position, `r`, vector,
permutations. -/
abbrev IndepLeafCall := Int → Nat → UInt32 → List Int → Perms → Except Fault (List Int × Perms)

def writeOut2 (out2 : Option (List Int)) (rep : Nat) (item : Int) :
    Except Fault (Option (List Int)) :=
  match out2 with
  | none => .ok none
  | some values => (writeAt .scratch values rep item).map some

/-- `r` of one pass: the step is `numrep + 1` in a uniform bucket whose size
is a multiple of `numrep`. -/
def indepR (args : IndepArgs) (bucket : Bucket) (rep : Nat) (ftotal : UInt32) : UInt32 :=
  let numrep := UInt32.ofNat args.numrep
  UInt32.ofNat rep + args.parentR +
    if bucket.alg = crushBucketUniform ∧ bucket.size % numrep = 0 then (numrep + 1) * ftotal
    else numrep * ftotal

def indepNone (rep : Nat) (state : Indep) : Except Fault Indep := do
  let out ← writeAt .scratch state.out rep crushItemNone
  let out2 ← writeOut2 state.out2 rep crushItemNone
  .ok { state with out, out2, left := state.left - 1 }

def indepLeaf (leaf : Option IndepLeafCall) (rep : Nat) (item : Int) (r : UInt32)
    (state : Indep) : Except Fault (Bool × Indep) :=
  match leaf, state.out2 with
  | none, _ => .ok (true, state)
  | some _, none => .error .scratch
  | some call, some out2 =>
    if item < 0 then do
      let (out2, perms) ← call (bucketSlot item) rep r out2 state.perms
      let placed ← readAt .scratch out2 rep
      .ok (decide (placed ≠ crushItemNone), { state with out2 := some out2, perms })
    else do
      let out2 ← writeAt .scratch out2 rep item
      .ok (true, { state with out2 := some out2 })

/-- One pass of the `for (;;)` loop, in the bucket `slot`. -/
def indepPass (args : IndepArgs) (leaf : Option IndepLeafCall) (bound rep outpos endpos : Nat)
    (ftotal : UInt32) (current : Int × Indep) : Except Fault (Next (Int × Indep) Indep) := do
  let (slot, state) := current
  let bucket ← args.map.bucketAt slot
  let r := indepR args bucket rep ftotal
  if bucket.size = 0 then .ok (.done state)
  else do
    let (item, cache) ← crushBucketChoose bound bucket args.x r (state.perms slot)
    let state := { state with perms := Function.update state.perms slot cache }
    if item ≥ args.map.maxDevices then do
      let state ← indepNone rep state
      .ok (.done state)
    else do
      let itemtype ← args.map.itemType item
      if itemtype ≠ args.type then
        if item ≥ 0 ∨ bucketSlot item ≥ args.map.buckets.length then do
          let state ← indepNone rep state
          .ok (.done state)
        else .ok (.again (bucketSlot item, state))
      else if item ∈ (state.out.take endpos).drop outpos then .ok (.done state)
      else do
        let (placed, state) ← indepLeaf leaf rep item r state
        if ¬ placed then .ok (.done state)
        else do
          let reject ←
            if itemtype = 0 then isOut args.weight args.weightMax item args.x else .ok false
          if reject then .ok (.done state)
          else do
            let out ← writeAt .scratch state.out rep item
            .ok (.done { state with out, left := state.left - 1 })

/-- One round over the positions from `rep` with `count` left. -/
def indepRound (args : IndepArgs) (leaf : Option IndepLeafCall) (bound : Nat) (slot : Int)
    (outpos endpos : Nat) (ftotal : UInt32) : Nat → Nat → Indep → Except Fault Indep
  | 0, _, state => .ok state
  | count + 1, rep, state => do
    let current ← readAt .scratch state.out rep
    let state ←
      if current ≠ crushItemUndef then .ok state
      else loop .exhausted (indepPass args leaf bound rep outpos endpos ftotal) bound (slot, state)
    indepRound args leaf bound slot outpos endpos ftotal count (rep + 1) state

/-- The `for (ftotal = 0; left > 0 && ftotal < tries; ftotal++)` loop with
`count` tries left. -/
def indepRounds (args : IndepArgs) (leaf : Option IndepLeafCall) (bound : Nat) (slot : Int)
    (outpos endpos : Nat) : Nat → UInt32 → Indep → Except Fault Indep
  | 0, _, state => .ok state
  | count + 1, ftotal, state =>
    if state.left ≤ 0 then .ok state
    else do
      let state ← indepRound args leaf bound slot outpos endpos ftotal (endpos - outpos) outpos state
      indepRounds args leaf bound slot outpos endpos count (ftotal + 1) state

/-- Assign the positions from `rep` with `count` left. -/
def fillPositions (item : Int) : Nat → Nat → List Int → Except Fault (List Int)
  | 0, _, out => .ok out
  | count + 1, rep, out => do
    let out ← writeAt .scratch out rep item
    fillPositions item count (rep + 1) out

def settlePositions : Nat → Nat → List Int → Except Fault (List Int)
  | 0, _, out => .ok out
  | count + 1, rep, out => do
    let current ← readAt .scratch out rep
    let out ←
      if current = crushItemUndef then writeAt .scratch out rep crushItemNone else .ok out
    settlePositions count (rep + 1) out

def onOut2 (out2 : Option (List Int)) (fill : List Int → Except Fault (List Int)) :
    Except Fault (Option (List Int)) :=
  match out2 with
  | none => .ok none
  | some values => (fill values).map some

def chooseIndepWith (args : IndepArgs) (leaf : Option IndepLeafCall) (bound : Nat) (slot : Int)
    (left outpos : Nat) (out : List Int) (out2 : Option (List Int)) (perms : Perms) :
    Except Fault (List Int × Option (List Int) × Perms) := do
  let out ← fillPositions crushItemUndef left outpos out
  let out2 ← onOut2 out2 (fillPositions crushItemUndef left outpos)
  let state ← indepRounds args leaf bound slot outpos (outpos + left) args.tries.toNat 0
    { left, out, out2, perms }
  let out ← settlePositions left outpos state.out
  let out2 ← onOut2 state.out2 (settlePositions left outpos)
  .ok (out, out2, state.perms)

/-- The nested call has type 0, one position, and no second vector. -/
def chooseLeafIndep (args : IndepArgs) (recurseTries : UInt32) (bound : Nat) : IndepLeafCall :=
  fun slot rep r out2 perms => do
    let (out, _, perms) ← chooseIndepWith { args with type := 0, tries := recurseTries, parentR := r }
      none bound slot 1 rep out2 none perms
    .ok (out, perms)

def crushChooseIndep (args : IndepArgs) (bound : Nat) (slot : Int) (left outpos : Nat)
    (out : List Int) (out2 : Option (List Int)) (perms : Perms) (recurseTries : UInt32)
    (recurseToLeaf : Bool) : Except Fault (List Int × Option (List Int) × Perms) :=
  chooseIndepWith args (if recurseToLeaf then some (chooseLeafIndep args recurseTries bound) else none)
    bound slot left outpos out out2 perms

end KmodCeph.Crush
