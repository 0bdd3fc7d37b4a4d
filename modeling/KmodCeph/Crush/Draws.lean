import KmodCeph.Crush.Permutation
import KmodCeph.Crush.Separation

namespace KmodCeph.Crush

open Lib List

def Bucket.pick (bucket : Bucket) (bound : Nat) (x r : UInt32) : Except Fault Int :=
  (crushBucketChoose bound bucket x r ⟨0, 0, replicate bucket.size.toNat 0⟩).map (·.1)

def Perms.Follow (perms : Perms) (map : CrushMap) : Prop :=
  ∀ slot bucket, map.bucketAt slot = .ok bucket → (perms slot).Follows bucket

section

variable {bucket : Bucket} {cache : PermCache} {x r : UInt32}

theorem PermCache.Follows.fresh : (⟨0, 0, replicate bucket.size.toNat 0⟩ : PermCache).Follows bucket :=
  ⟨length_replicate, fun started => absurd rfl started, fun started => absurd rfl started⟩

theorem Perms.Follow.update {perms : Perms} {map : CrushMap} (follow : perms.Follow map) {slot : Int}
    (found : map.bucketAt slot = .ok bucket) (follows : cache.Follows bucket) :
    Perms.Follow (Function.update perms slot cache) map := by
  intro other otherBucket otherFound
  by_cases same : other = slot
  · subst same
    rw [found] at otherFound
    cases otherFound
    simpa using follows
  · simpa [same] using follow other otherBucket otherFound

theorem Bucket.Permutes.unique {item other : Int} (first : bucket.Permutes x r item)
    (second : bucket.Permutes x r other) : item = other := by
  obtain ⟨entry, at_, stored⟩ := first
  obtain ⟨entry', at', stored'⟩ := second
  rw [at_] at at'
  cases at'
  rw [stored] at stored'
  exact Option.some.inj stored'

/-- Every choose method returns the same item for every cache. -/
theorem crushBucketChoose_follows (allocated : bucket.Allocated)
    (sound : bucket.alg = crushBucketTree → bucket.TreeSound) (follows : cache.Follows bucket)
    (nonempty : bucket.size ≠ 0) {bound : Nat} (enough : bucket.numNodes.toNat < bound) :
    Returns (crushBucketChoose bound bucket x r cache) fun result =>
      bucket.pick bound x r = .ok result.1 ∧ result.1 ∈ bucket.items ∧ result.2.Follows bucket := by
  have usable : (⟨0, 0, replicate bucket.size.toNat 0⟩ : PermCache).Fits bucket := by
    refine ⟨length_replicate, fun entry member => ?_⟩
    obtain ⟨nonzero, rfl⟩ := List.mem_replicate.mp member
    omega
  obtain ⟨⟨item, after⟩, chosen, member, -⟩ :=
    @crushBucketChoose_returns bucket _ x r allocated sound usable nonempty bound enough
  have picked : bucket.pick bound x r = .ok item := by
    rw [Bucket.pick, chosen]
    rfl
  have uncached : ∀ choice : Except Fault Int,
      choice.map (·, (⟨0, 0, replicate bucket.size.toNat 0⟩ : PermCache)) = .ok (item, after) →
      Returns (choice.map (·, cache)) fun result =>
        bucket.pick bound x r = .ok result.1 ∧ result.1 ∈ bucket.items ∧ result.2.Follows bucket := by
    intro choice ran
    cases choice with
    | error fault => cases ran
    | ok other =>
      cases ran
      exact ⟨(item, cache), rfl, picked, member, follows⟩
  unfold crushBucketChoose at chosen ⊢
  simp only [nonempty, if_false] at chosen ⊢
  split at chosen
  next uniform =>
    rw [if_pos uniform]
    obtain ⟨⟨other, later⟩, ran, permutes, kept⟩ :=
      @bucketPermChoose_permutes bucket cache x r allocated.items nonempty follows
    have same := (@bucketPermChoose_permutes bucket _ x r allocated.items nonempty .fresh).of_ok chosen
    obtain rfl := permutes.unique same.1
    exact ⟨(other, later), ran, picked, member, kept⟩
  next uniform =>
    rw [if_neg uniform]
    split at chosen
    next list => simpa only [if_pos list] using uncached _ chosen
    next list =>
      rw [if_neg list]
      split at chosen
      next tree => simpa only [if_pos tree] using uncached _ chosen
      next tree =>
        rw [if_neg tree]
        split at chosen
        next straw => simpa only [if_pos straw] using uncached _ chosen
        next straw => simpa only [if_neg straw] using uncached _ chosen

end

theorem treeDescend_mono {bucket : Bucket} {x r : UInt32} {bound more n : Nat} (later : bound ≤ more)
    {next : Next Nat Nat} (ran : treeDescend bucket x r bound n = .ok next) :
    treeDescend bucket x r more n = .ok next := by
  unfold treeDescend at ran ⊢
  split
  next terminal => rwa [if_pos terminal] at ran
  next inner =>
    rw [if_neg inner] at ran
    obtain ⟨w, read, ran⟩ := ok_of_bind ran
    obtain ⟨h, tall, ran⟩ := ok_of_bind ran
    have tall' : height more n = .ok h := loop_mono (fun _ _ ran => ran) later tall
    simp only [read, tall', bind, Except.bind]
    exact ran

theorem Bucket.pick_mono {bucket : Bucket} {x r : UInt32} {bound more : Nat} {item : Int} (later : bound ≤ more)
    (picked : bucket.pick bound x r = .ok item) : bucket.pick more x r = .ok item := by
  have trees : ∀ chosen, bucketTreeChoose bound bucket x r = .ok chosen →
      bucketTreeChoose more bucket x r = .ok chosen := by
    intro chosen ran
    obtain ⟨leaf, descended, ran⟩ := ok_of_bind ran
    have descended' := loop_mono (fun _ _ ran => treeDescend_mono later ran) later descended
    simp only [bucketTreeChoose, descended', bind, Except.bind]
    exact ran
  unfold Bucket.pick crushBucketChoose at picked ⊢
  by_cases tree : bucket.alg = crushBucketTree
  · simp only [tree, if_true] at picked ⊢
    cases ran : bucketTreeChoose bound bucket x r with
    | error fault =>
      rw [ran] at picked
      split at picked <;> cases picked
    | ok chosen =>
      rw [ran] at picked
      rw [trees chosen ran]
      exact picked
  · simpa only [if_neg tree] using picked

/-- The descent from a bucket for one position and try ends at an empty
bucket, or at an item of the wanted type. -/
inductive Draws (args : IndepArgs) (bound rep : Nat) (ftotal : UInt32) : Int → Option Int → Prop where
  | empty {slot : Int} {bucket : Bucket} (located : args.map.bucketAt slot = .ok bucket)
      (nothing : bucket.size = 0) : Draws args bound rep ftotal slot none
  | wanted {slot item : Int} {bucket : Bucket} (located : args.map.bucketAt slot = .ok bucket)
      (nonempty : bucket.size ≠ 0)
      (picked : bucket.pick bound args.x (indepR args bucket rep ftotal) = .ok item)
      (typed : args.map.itemType item = .ok args.type) : Draws args bound rep ftotal slot (some item)
  | deeper {slot item type : Int} {bucket : Bucket} {result : Option Int}
      (located : args.map.bucketAt slot = .ok bucket) (nonempty : bucket.size ≠ 0)
      (picked : bucket.pick bound args.x (indepR args bucket rep ftotal) = .ok item)
      (typed : args.map.itemType item = .ok type) (other : type ≠ args.type) (negative : item < 0)
      (below : Draws args bound rep ftotal (bucketSlot item) result) : Draws args bound rep ftotal slot result

structure Serves (args : IndepArgs) (item device : Int) : Prop where
  nonneg : 0 ≤ device
  defined : device ≠ crushItemUndef
  present : device ≠ crushItemNone
  isIn : isOut args.weight args.weightMax device args.x = .ok false
  inside : device = item ∨ item < 0 ∧ Below args.map (bucketSlot item) device

def window (outpos endpos : Nat) (out : List Int) : List Int := (out.take endpos).drop outpos

theorem mem_window {outpos endpos : Nat} {out : List Int} {item : Int} :
    item ∈ window outpos endpos out ↔ ∃ i, outpos ≤ i ∧ i < endpos ∧ out[i]? = some item := by
  rw [window, mem_iff_getElem?]
  constructor
  · rintro ⟨i, stored⟩
    rw [getElem?_drop, getElem?_take] at stored
    split at stored
    next inside => exact ⟨outpos + i, by omega, inside, stored⟩
    next => cases stored
  · rintro ⟨i, lower, upper, stored⟩
    refine ⟨i - outpos, ?_⟩
    rw [getElem?_drop, getElem?_take, if_pos (by omega)]
    rwa [Nat.add_sub_cancel' lower]

structure Drawn (args : IndepArgs) (bound : Nat) (root : Int) (outpos endpos rep : Nat) (ftotal : UInt32)
    (out : List Int) (item : Int) : Prop where
  draws : Draws args bound rep ftotal root (some item)
  reached : Descends args.map args.type root item
  typed : args.map.itemType item = .ok args.type
  fresh : item ∉ window outpos endpos out

/-- What the search for one position leaves behind; `leafing` tells whether
devices are looked for below the items. -/
inductive Outcome (args : IndepArgs) (leafing : Bool) (bound : Nat) (root : Int) (outpos endpos rep : Nat)
    (ftotal : UInt32) (before : Indep) : Indep → Prop where
  | empty {perms : Perms} (follow : perms.Follow args.map) (drew : Draws args bound rep ftotal root none) :
      Outcome args leafing bound root outpos endpos rep ftotal before { before with perms }
  | collided {perms : Perms} {item : Int} (follow : perms.Follow args.map)
      (drew : Draws args bound rep ftotal root (some item)) (taken : item ∈ window outpos endpos before.out) :
      Outcome args leafing bound root outpos endpos rep ftotal before { before with perms }
  | barren {perms : Perms} {item : Int} {out2 : List Int} (follow : perms.Follow args.map)
      (drawn : Drawn args bound root outpos endpos rep ftotal before.out item) (looks : leafing = true)
      (bucket : item < 0) (second : before.out2 = some out2) :
      Outcome args leafing bound root outpos endpos rep ftotal before
        { before with out2 := some (out2.set rep crushItemNone), perms }
  | rejected {perms : Perms} {item : Int} (follow : perms.Follow args.map)
      (drawn : Drawn args bound root outpos endpos rep ftotal before.out item) (device : args.type = 0)
      (isOut : isOut args.weight args.weightMax item args.x = .ok true) :
      Outcome args leafing bound root outpos endpos rep ftotal before
        { before with out2 := if leafing then before.out2.map (·.set rep item) else before.out2, perms }
  | dead {perms : Perms} (follow : perms.Follow args.map) (other : args.type ≠ 0) :
      Outcome args leafing bound root outpos endpos rep ftotal before
        { left := before.left - 1, out := before.out.set rep crushItemNone
          out2 := before.out2.map (·.set rep crushItemNone), perms }
  | placed {perms : Perms} {item device : Int} (follow : perms.Follow args.map)
      (drawn : Drawn args bound root outpos endpos rep ftotal before.out item)
      (isIn : args.type = 0 → isOut args.weight args.weightMax item args.x = .ok false)
      (serves : leafing = true → Serves args item device) (itself : args.type = 0 → device = item) :
      Outcome args leafing bound root outpos endpos rep ftotal before
        { left := before.left - 1, out := before.out.set rep item
          out2 := if leafing then before.out2.map (·.set rep device) else before.out2, perms }

/-- What a nested call does for an item: it stores a device that serves it,
or the mark that there is none. -/
def IndepLeafCall.Places (call : IndepLeafCall) (args : IndepArgs) (root : Int) : Prop :=
  ∀ item rep r out2 perms, item < 0 → Descends args.map args.type root item →
    args.map.itemType item = .ok args.type → rep < out2.length → perms.Follow args.map →
    Returns (call (bucketSlot item) rep r out2 perms) fun result =>
      result.2.Follow args.map ∧ ∃ device, result.1 = out2.set rep device ∧
        (device = crushItemNone ∨ Serves args item device)

structure Indep.Ready (state : Indep) (args : IndepArgs) (leafing : Bool) (rep : Nat) : Prop where
  perms : state.perms.Follow args.map
  out : rep < state.out.length
  out2 : ∀ out2, state.out2 = some out2 → rep < out2.length
  second : leafing = true → state.out2 ≠ none

structure Descending (args : IndepArgs) (bound : Nat) (root : Int) (rep : Nat) (ftotal : UInt32) (before : Indep)
    (slot : Int) (state : Indep) : Prop where
  bucket : ∃ bucket, args.map.bucketAt slot = .ok bucket
  passed : Passed args.map args.type root slot
  same : state = { before with perms := state.perms }
  perms : state.perms.Follow args.map
  chain : ∀ result, Draws args bound rep ftotal slot result → Draws args bound rep ftotal root result

section

variable {args : IndepArgs} {rank : Int → Nat} {leaf : Option IndepLeafCall} {bound rep outpos endpos : Nat}
variable {root slot : Int} {ftotal : UInt32} {before state : Indep}

structure IndepArgs.Sound (args : IndepArgs) : Prop where
  map : args.map.Sound
  range : args.map.maxDevices ≤ 0x7fffffff
  weights : (args.weight.length : Int) = args.weightMax

theorem item_lt (sound : args.Sound) {bucket : Bucket} {item : Int} (located : args.map.bucketAt slot = .ok bucket)
    (member : item ∈ bucket.items) : ¬ item ≥ args.map.maxDevices ∧ item ≠ crushItemNone := by
  have devices := sound.map.wellFormed.devices
  have range := sound.range
  have known := sound.map.wellFormed.itemsExist _ _ located item member
  unfold crushItemNone
  omega

theorem Indep.Ready.nothing (ready : before.Ready args leaf.isSome rep) :
    indepNone rep before = .ok
      { left := before.left - 1, out := before.out.set rep crushItemNone
        out2 := before.out2.map (·.set rep crushItemNone), perms := before.perms } := by
  unfold indepNone
  rw [writeAt_eq_ok ready.out]
  cases second : before.out2 with
  | none => rfl
  | some out2 =>
    simp only [writeOut2, writeAt_eq_ok (ready.out2 out2 second), bind, Except.bind]
    rfl

/-- What the code does with an item of the wanted type that does not
collide. -/
theorem indepAccept_returns (sound : args.Sound) (places : ∀ call, leaf = some call → call.Places args root)
    (ready : before.Ready args leaf.isSome rep) {item : Int} {r : UInt32}
    (drawn : Drawn args bound root outpos endpos rep ftotal before.out item) (present : item ≠ crushItemNone)
    (defined : item ≠ crushItemUndef) {perms : Perms} (follow : perms.Follow args.map) :
    Returns (do
      let (placed, state) ← indepLeaf leaf rep item r { before with perms }
      if ¬ placed then .ok (.done state)
      else do
        let reject ←
          if args.type = 0 then isOut args.weight args.weightMax item args.x else .ok false
        if reject then .ok (.done state)
        else do
          let out ← writeAt .scratch state.out rep item
          .ok (.done { state with out, left := state.left - 1 }) : Except Fault (Next (Int × Indep) Indep))
      (Next.Holds (fun _ => False)
        (Outcome args leaf.isSome bound root outpos endpos rep ftotal before)) := by
  have wellFormed := sound.map.wellFormed
  have device : args.type = 0 → 0 ≤ item := by
    intro zero
    have typed := drawn.typed
    rw [zero] at typed
    exact device_of_itemType_zero wellFormed typed
  have decided : ∀ zero : args.type = 0, ∃ out?, isOut args.weight args.weightMax item args.x = .ok out? := by
    intro zero
    obtain ⟨out?, decided, -⟩ := @isOut_returns _ _ _ args.x sound.weights (device zero)
    exact ⟨out?, decided⟩
  cases leaf with
  | none =>
    simp only [indepLeaf, bind, Except.bind, not_true_eq_false, if_false, writeAt_eq_ok ready.out]
    by_cases zero : args.type = 0
    · obtain ⟨out?, decided⟩ := decided zero
      simp only [zero, if_true, decided]
      cases out? with
      | true => exact Returns.pure (.rejected follow drawn zero decided)
      | false => exact Returns.pure (.placed follow drawn (fun _ => decided) (by simp) fun _ => rfl)
    · simp only [zero, if_false, Bool.false_eq_true]
      exact Returns.pure (@Outcome.placed _ _ _ _ _ _ _ _ _ _ _ item follow drawn
        (fun same => absurd same zero) (by simp) fun _ => rfl)
  | some call =>
    cases second : before.out2 with
    | none => exact absurd second (ready.second rfl)
    | some out2 =>
      have inside := ready.out2 out2 second
      unfold indepLeaf
      by_cases negative : item < 0
      · have nonzero : args.type ≠ 0 := fun zero => by
          omega
        obtain ⟨⟨after, perms'⟩, called, follow', device, stored, served⟩ :=
          places call rfl item rep r out2 perms negative drawn.reached drawn.typed inside follow
        subst stored
        have read : readAt Fault.scratch (out2.set rep device) rep = .ok device := by
          rw [readAt_eq_ok (by simpa using inside), getElem_set_self]
        simp only [if_pos negative, called, read, bind, Except.bind, nonzero, if_false]
        by_cases nothing : device = crushItemNone
        · subst nothing
          have left := @Outcome.barren args true bound root outpos endpos rep ftotal before perms' item out2
            follow' drawn rfl negative second
          exact Returns.pure left
        · simp only [ne_eq, nothing, not_false_eq_true, decide_true, not_true_eq_false, if_false,
            Bool.false_eq_true, writeAt_eq_ok ready.out]
          have placed := @Outcome.placed args true bound root outpos endpos rep ftotal before perms' item device
            follow' drawn (fun same => absurd same nonzero) (fun _ => served.resolve_left nothing)
            (fun same => absurd same nonzero)
          simp only [second, Option.map_some, if_true] at placed
          exact Returns.pure placed
      · have zero : args.type = 0 := by
          have typed := drawn.typed
          unfold CrushMap.itemType at typed
          rw [if_neg negative] at typed
          exact (Except.ok.inj typed).symm
        obtain ⟨out?, decided⟩ := decided zero
        simp only [if_neg negative, writeAt_eq_ok inside, bind, Except.bind, zero, if_true, decided,
          not_true_eq_false, if_false, writeAt_eq_ok ready.out]
        cases out? with
        | true =>
          have rejected := @Outcome.rejected args true bound root outpos endpos rep ftotal before perms item
            follow drawn zero decided
          simp only [second, Option.map_some, if_true] at rejected
          exact Returns.pure rejected
        | false =>
          have placed := @Outcome.placed args true bound root outpos endpos rep ftotal before perms item item
            follow drawn (fun _ => decided)
            (fun _ => ⟨device zero, defined, present, decided, .inl rfl⟩) (fun _ => rfl)
          simp only [second, Option.map_some, if_true] at placed
          exact Returns.pure placed

theorem indepPass_returns (sound : args.Sound) (ranks : args.map.Ranks rank) (enough : 256 ≤ bound)
    (places : ∀ call, leaf = some call → call.Places args root) (ready : before.Ready args leaf.isSome rep)
    (lower : outpos ≤ rep) (upper : rep < endpos) (undefined : before.out[rep]? = some crushItemUndef)
    (descending : Descending args bound root rep ftotal before slot state) :
    Returns (indepPass args leaf bound rep outpos endpos ftotal (slot, state))
      (Next.Holds
        (fun after => rank after.1 < rank slot ∧
          Descending args bound root rep ftotal before after.1 after.2)
        (Outcome args leaf.isSome bound root outpos endpos rep ftotal before)) := by
  obtain ⟨bucket, located⟩ := descending.bucket
  have allocated := sound.map.wellFormed.allocated _ _ located
  have nodes := bucket.numNodes.toNat_lt
  obtain ⟨perms, rfl⟩ : ∃ perms, state = { before with perms } := ⟨_, descending.same⟩
  have follow : perms.Follow args.map := descending.perms
  unfold indepPass
  simp only [located, bind, Except.bind]
  by_cases empty : bucket.size = 0
  · rw [if_pos empty]
    exact Returns.pure (.empty follow (descending.chain _ (.empty located empty)))
  rw [if_neg empty]
  obtain ⟨⟨item, cache⟩, chosen, picked, member, follows⟩ :=
    @crushBucketChoose_follows _ _ args.x (indepR args bucket rep ftotal) allocated
    (sound.map.trees _ _ located) (follow _ _ located) empty bound (by omega)
  have kept := follow.update located follows
  obtain ⟨small, present⟩ := item_lt sound located member
  obtain ⟨itemtype, typed, kind⟩ := itemType_returns sound.map located member
  have reached := descending.passed.descends located member
  simp only [chosen, if_neg small, typed]
  by_cases wanted : itemtype = args.type
  · subst wanted
    have drew : Draws args bound rep ftotal root (some item) :=
      descending.chain _ (.wanted located empty picked typed)
    simp only [ne_eq, not_true_eq_false, if_false]
    split
    next taken => exact Returns.pure (.collided kept drew taken)
    next fresh =>
      have defined : item ≠ crushItemUndef := by
        rintro rfl
        exact fresh (mem_window.mpr ⟨rep, lower, upper, undefined⟩)
      refine (indepAccept_returns sound places ready ⟨drew, reached, typed, fresh⟩ present defined kept).mono ?_
      rintro (after | after) holds
      · exact holds.elim
      · exact holds
  · simp only [ne_eq, wanted, not_false_eq_true, if_true]
    by_cases device : item ≥ 0
    · have zero : itemtype = 0 := by
        rcases kind with ⟨_, zero⟩ | ⟨negative, _⟩
        · exact zero
        · omega
      have ready' : Indep.Ready { before with perms := Function.update perms slot cache } args leaf.isSome rep :=
        ⟨kept, ready.out, ready.out2, ready.second⟩
      rw [if_pos (.inl device), ready'.nothing]
      exact Returns.pure (.dead kept fun same => wanted (zero.trans same.symm))
    · obtain ⟨child, found, differs⟩ : ∃ child, args.map.bucketAt (bucketSlot item) = .ok child ∧
          itemtype = child.type.toNat := by
        rcases kind with ⟨nonneg, _⟩ | ⟨_, child, found, typed⟩
        · omega
        · exact ⟨child, found, typed⟩
      have inside := checkSlot_of_bucketAt found
      have small : ¬ bucketSlot item ≥ args.map.buckets.length := by
        intro large
        unfold CrushMap.checkSlot at inside
        rw [if_pos (.inr large)] at inside
        cases inside
      rw [if_neg (not_or.mpr ⟨device, small⟩)]
      refine Returns.pure ⟨ranks _ _ located item member (by omega), ⟨child, found⟩, .inr ⟨child, ?_, found, ?_⟩,
        rfl, kept, fun result below => descending.chain _ ?_⟩
      · rw [bucketSlot_bucketSlot]
        exact reached
      · rw [← differs]
        exact wanted
      · exact .deeper located empty picked typed wanted (by omega) below

end

end KmodCeph.Crush
