import KmodCeph.Crush.Search

namespace KmodCeph.Crush

open Lib List

variable {args : FirstnArgs} {most outpos bound : Nat} {rank : Int → Nat} {root : Int}
  {out out2 : List Int} {bucket : Bucket}

theorem isOut_returns {weight : List UInt32} {weightMax item : Int} {x : UInt32}
    (length : (weight.length : Int) = weightMax) (device : 0 ≤ item) :
    Returns (isOut weight weightMax item x) fun _ => True := by
  unfold isOut
  split
  · exact Returns.pure trivial
  · rw [if_neg (by omega)]
    simp only [readAt_eq_ok (show item.toNat < weight.length by lia), bind, Except.bind]
    split
    · exact Returns.pure trivial
    split
    · exact Returns.pure trivial
    · exact Returns.pure trivial

theorem device_of_itemType_zero {map : CrushMap} (wellFormed : map.WellFormed) {item : Int}
    (typed : map.itemType item = .ok 0) : 0 ≤ item := by
  by_contra negative
  unfold CrushMap.itemType at typed
  rw [if_pos (by omega)] at typed
  cases found : map.bucketAt (bucketSlot item) with
  | error fault => simp [found, Except.map] at typed
  | ok bucket =>
    have zero : (bucket.type.toNat : Int) = 0 := by simpa [found, Except.map] using typed
    exact (wellFormed.bucketIds _ _ found).2 (UInt16.toNat_inj.mp (by simpa using zero))

theorem bucket_of_itemType_ne_zero {map : CrushMap} {item type : Int}
    (typed : map.itemType item = .ok type) (nonzero : type ≠ 0) :
    item < 0 ∧ ∃ bucket, map.bucketAt (bucketSlot item) = .ok bucket ∧
      (bucket.type.toNat : Int) = type := by
  unfold CrushMap.itemType at typed
  split at typed
  · rename_i negative
    refine ⟨negative, ?_⟩
    cases found : map.bucketAt (bucketSlot item) with
    | error fault => simp [found, Except.map] at typed
    | ok bucket => exact ⟨bucket, rfl, by simpa [found, Except.map] using typed⟩
  · exact absurd (Except.ok.inj typed).symm nonzero

/-- The nested search accepts a device that is not out; it has no second
vector to write. -/
theorem acceptHolds_device (sound : args.map.Sound) (budget : args.Budget most)
    (weights : (args.weight.length : Int) = args.weightMax) (devices : args.type = 0) :
    AcceptHolds args none outpos out rank root out2
      (fun item after => after = out2 ∧ isOut args.weight args.weightMax item args.x = .ok false)
      most := by
  intro search variant begun bucket item r keeps located started reached typed
  have device := device_of_itemType_zero sound.wellFormed (devices ▸ typed)
  obtain ⟨out?, decided, -⟩ := isOut_returns (x := args.x) weights device
  unfold firstnAccept
  split
  · simp only [decided, bind, Except.bind]
    exact Returns.pure (keeps.retry budget located started true)
  · rename_i fresh
    simp only [firstnLeaf, if_true, decided, bind, Except.bind, Bool.false_eq_true, if_false]
    cases out? with
    | true => exact Returns.pure (keeps.retry budget located started false)
    | false =>
      exact Returns.pure ⟨keeps.perms, .inr ⟨item, rfl, reached, typed, fresh, keeps.out2, decided⟩⟩

structure Leaf (args : FirstnArgs) (slot device : Int) : Prop where
  below : Below args.map slot device
  nonneg : 0 ≤ device
  isIn : isOut args.weight args.weightMax device args.x = .ok false

def LeafCall.Places (call : LeafCall) (args : FirstnArgs) (slot : Int) (outpos : Nat)
    (out2 : List Int) : Prop :=
  ∀ subR perms, perms.Fit args.map → Returns (call slot outpos subR out2 perms) fun result =>
    result.2.2.Fit args.map ∧
      ((result.1 = outpos ∧ result.2.1 = out2) ∨
        (result.1 = outpos + 1 ∧ ∃ device, Leaf args slot device ∧ device ∉ out2.take outpos ∧
          result.2.1 = out2.set outpos device))

theorem chooseLeafFirstn_places (sound : args.map.Sound) (ranks : args.map.Ranks rank)
    {recurseTries : UInt32} (budget : FirstnArgs.Budget { args with tries := recurseTries } most)
    (weights : (args.weight.length : Int) = args.weightMax) {slot : Int}
    (located : args.map.bucketAt slot = .ok bucket)
    (enough : rank slot + most + recurseTries.toNat + 256 ≤ bound)
    (room : outpos < out2.length) :
    (chooseLeafFirstn args recurseTries bound).Places args slot outpos out2 := by
  intro subR perms fit
  let nested : FirstnArgs := { args with type := 0, tries := recurseTries, parentR := subR }
  have nestedBudget : nested.Budget most := ⟨budget.retries, budget.fallback, budget.room⟩
  have accepting : AcceptHolds nested none outpos out2 rank slot [] _ most :=
    @acceptHolds_device nested most outpos rank slot out2 [] sound nestedBudget weights rfl
  obtain ⟨found, searched, fits, ended⟩ := @firstnSearch_returns nested most bucket rank slot [] _
    none outpos outpos bound out2 sound ranks nestedBudget enough accepting located perms fit
  simp only [chooseLeafFirstn, firstnReps, nested, searched, bind, Except.bind]
  rcases ended with ⟨nothing, -⟩ | ⟨device, something, reached, typed, fresh, -, isIn⟩
  · rw [nothing]
    exact Returns.pure ⟨fits, .inl ⟨rfl, rfl⟩⟩
  · rw [something]
    simp only [writeAt_eq_ok room]
    refine Returns.pure ⟨fits, .inr ⟨rfl, device, ⟨reached.toBelow, ?_, isIn⟩, fresh, rfl⟩⟩
    exact device_of_itemType_zero sound.wellFormed typed

/-- The outer search accepts a bucket once the nested call has placed a device
below it. -/
theorem acceptHolds_bucket (budget : args.Budget most) (nonzero : args.type ≠ 0) {call : LeafCall}
    (places : ∀ item, item < 0 → Descends args.map args.type root item →
      args.map.itemType item = .ok args.type → call.Places args (bucketSlot item) outpos out2) :
    AcceptHolds args (some call) outpos out rank root out2
      (fun item after => ∃ device, Leaf args (bucketSlot item) device ∧
        device ∉ out2.take outpos ∧ after = out2.set outpos device)
      most := by
  intro search variant begun bucket item r keeps located started reached typed
  obtain ⟨negative, -⟩ := bucket_of_itemType_ne_zero typed nonzero
  unfold firstnAccept
  split
  · simp only [bind, Except.bind]
    exact Returns.pure (keeps.retry budget located started true)
  · rename_i fresh
    obtain ⟨⟨taken, after, perms⟩, called, fits, ended⟩ :=
      places item negative reached typed (subR args.varyR r) search.perms keeps.perms
    rw [← keeps.out2] at called
    simp only [firstnLeaf, negative, if_true, called, bind, Except.bind]
    rcases ended with ⟨rfl, same⟩ | ⟨rfl, device, leaf, new, stored⟩
    · have calledKeeps : Search.Keeps { search with out2 := after, perms }
          args rank root out2 most begun variant :=
        ⟨keeps.bucket, keeps.passed, same, fits, keeps.few, keeps.total, keeps.rank⟩
      simp only [le_refl, decide_true, if_true]
      exact Returns.pure (calledKeeps.retry budget located started false)
    · have more : ¬ outpos + 1 ≤ outpos := by omega
      simp only [more, decide_false, Bool.false_eq_true, if_false]
      exact Returns.pure
        ⟨fits, .inr ⟨item, rfl, reached, typed, fresh, device, leaf, new, stored⟩⟩

structure Replica (args : FirstnArgs) (root domain device : Int) : Prop where
  descends : Descends args.map args.type root domain
  typed : args.map.itemType domain = .ok args.type
  leaf : Leaf args (bucketSlot domain) device

structure Replicas (args : FirstnArgs) (root : Int) (domains devices : List Int) : Prop where
  domainsNodup : domains.Nodup
  devicesNodup : devices.Nodup
  paired : Forall₂ (Replica args root) domains devices

theorem Replicas.concat {domains devices : List Int} {domain device : Int}
    (replicas : Replicas args root domains devices) (replica : Replica args root domain device)
    (newDomain : domain ∉ domains) (newDevice : device ∉ devices) :
    Replicas args root (domains ++ [domain]) (devices ++ [device]) := by
  refine ⟨?_, ?_, ?_⟩
  · exact replicas.domainsNodup.append (nodup_singleton _)
      (List.disjoint_singleton.mpr newDomain)
  · exact replicas.devicesNodup.append (nodup_singleton _)
      (List.disjoint_singleton.mpr newDevice)
  · exact rel_append replicas.paired (.cons replica .nil)

theorem take_succ_set {values : List Int} {index : Nat} (bounded : index < values.length)
    (value : Int) : (values.set index value).take (index + 1) = values.take index ++ [value] := by
  rw [take_add_one, take_set_of_le (le_refl index), getElem?_set_self bounded]
  rfl

structure Placed (args : FirstnArgs) (root : Int) (most : Nat) (out out2 : List Int)
    (result : Nat × List Int × List Int × Perms) : Prop where
  few : result.1 ≤ most
  outLength : result.2.1.length = out.length
  out2Length : result.2.2.1.length = out2.length
  replicas : Replicas args root (result.2.1.take result.1) (result.2.2.1.take result.1)
  fit : result.2.2.2.Fit args.map

theorem firstnReps_places (sound : args.map.Sound) (ranks : args.map.Ranks rank)
    (recurseTries : UInt32) (budget : args.Budget most)
    (leafBudget : FirstnArgs.Budget { args with tries := recurseTries } most)
    (weights : (args.weight.length : Int) = args.weightMax) (nonzero : args.type ≠ 0)
    (located : args.map.bucketAt root = .ok bucket)
    (enough : rank root + most + args.tries.toNat + recurseTries.toNat + 256 ≤ bound)
    {count : Nat} (rep : Nat) {perms : Perms} (fit : perms.Fit args.map)
    (room : outpos + count ≤ out.length) (room2 : outpos + count ≤ out2.length)
    (replicas : Replicas args root (out.take outpos) (out2.take outpos)) :
    Returns (firstnReps args (some (chooseLeafFirstn args recurseTries bound)) bound root
      count rep outpos out out2 perms) (Placed args root (outpos + count) out out2) := by
  induction count generalizing rep outpos out out2 perms with
  | zero => exact Returns.pure ⟨le_rfl, rfl, rfl, replicas, fit⟩
  | succ count ih =>
    have places : ∀ item, item < 0 → Descends args.map args.type root item →
        args.map.itemType item = .ok args.type →
        (chooseLeafFirstn args recurseTries bound).Places args (bucketSlot item) outpos out2 := by
      intro item negative reached typed
      obtain ⟨-, child, found, -⟩ := bucket_of_itemType_ne_zero typed nonzero
      have lower := reached.rank_lt ranks negative
      exact chooseLeafFirstn_places sound ranks leafBudget weights found (by lia) (by lia)
    have accepting : AcceptHolds args (some (chooseLeafFirstn args recurseTries bound)) outpos out
        rank root out2 _ most := acceptHolds_bucket budget nonzero places
    refine Returns.bind (firstnSearch_returns sound ranks budget (by lia) accepting located fit)
      fun found settles => ?_
    obtain ⟨fits, ended⟩ := settles
    rcases ended with ⟨nothing, same⟩ | ⟨domain, something, reached, typed, fresh, device, leaf, new, stored⟩
    · simp only [nothing, same]
      refine (ih _ fits (by lia) (by lia) replicas).mono fun result placed => ?_
      exact ⟨by have := placed.few; lia, placed.outLength, placed.out2Length, placed.replicas,
        placed.fit⟩
    · simp only [something, stored, writeAt_eq_ok (show outpos < out.length by lia)]
      refine (ih _ fits (by rw [length_set]; lia) (by rw [length_set]; lia) ?_).mono
        fun result placed => ?_
      · rw [take_succ_set (by lia), take_succ_set (by lia)]
        exact replicas.concat ⟨reached, typed, leaf⟩ fresh new
      · exact ⟨by have := placed.few; lia, placed.outLength.trans length_set,
          placed.out2Length.trans length_set, placed.replicas, placed.fit⟩

/-- The type-`t` bucket stored for a device is above every other one that
holds the device. -/
theorem Replica.above (sound : args.map.Sound) {domain device other : Int}
    (nonzero : args.type ≠ 0) (replica : Replica args root domain device)
    (inside : Below args.map root other) (typed : args.map.itemType other = .ok args.type)
    (holds : Below args.map (bucketSlot other) device) :
    other = domain ∨ Below args.map (bucketSlot domain) other := by
  obtain ⟨negative, -⟩ := bucket_of_itemType_ne_zero typed nonzero
  rcases replica.leaf.below.chain sound.wellFormed holds with same | above | below
  · left
    unfold bucketSlot at same
    omega
  · rw [bucketSlot_bucketSlot] at above
    exact .inr above
  · rw [bucketSlot_bucketSlot] at below
    exact absurd below (replica.descends.not_between sound.wellFormed negative inside typed)

/-- Two replicas inside one bucket of the wanted type have the same failure
domain. -/
theorem Replica.domain_eq (sound : args.map.Sound) (nonzero : args.type ≠ 0)
    {domain₁ domain₂ device₁ device₂ other : Int}
    (replica₁ : Replica args root domain₁ device₁) (replica₂ : Replica args root domain₂ device₂)
    (inside : Below args.map root other) (typed : args.map.itemType other = .ok args.type)
    (holds₁ : Below args.map (bucketSlot other) device₁)
    (holds₂ : Below args.map (bucketSlot other) device₂) : domain₁ = domain₂ := by
  obtain ⟨negative, -⟩ := bucket_of_itemType_ne_zero typed nonzero
  have shared : Below args.map (bucketSlot domain₁) device₂ := by
    rcases replica₁.above sound nonzero inside typed holds₁ with rfl | above
    · exact holds₂
    · exact above.trans negative holds₂
  rcases replica₂.above sound nonzero replica₁.descends.toBelow replica₁.typed shared with
    same | above
  · exact same
  · obtain ⟨below, -⟩ := bucket_of_itemType_ne_zero replica₂.typed nonzero
    exact absurd above (replica₁.descends.not_between sound.wellFormed below
      replica₂.descends.toBelow replica₂.typed)

theorem Descends.device_lt {map : CrushMap} (wellFormed : map.WellFormed) {type slot item : Int}
    (reached : Descends map type slot item) (device : 0 ≤ item) : item < map.maxDevices := by
  have exists_or : ∀ {slot bucket}, map.bucketAt slot = .ok bucket → item ∈ bucket.items →
      item < map.maxDevices := by
    intro slot bucket found member
    rcases wellFormed.itemsExist _ _ found item member with ⟨_, small⟩ | ⟨negative, _⟩
    · exact small
    · omega
  cases reached with
  | direct found member => exact exists_or found member
  | deeper _ _ found _ member => exact exists_or found member

/-- No failure counter of `crush_do_rule` with the tunables of the map can
wrap. -/
structure CrushMap.CountersFit (map : CrushMap) (most : Nat) : Prop where
  retries : map.chooseLocalTries.toNat ≤ most
  fallback : map.chooseLocalFallbackTries > 0 → ∀ slot bucket, map.bucketAt slot = .ok bucket →
    bucket.size.toNat + map.chooseLocalFallbackTries.toNat ≤ most
  room : max (map.chooseTotalTries + 1).toNat 1 + most < 2 ^ 32

variable {input : RuleInput}

/-- The result of a rule keeps the replicas apart; `domains` are the buckets
of type `t` that were chosen for them. -/
structure Separated (input : RuleInput) (slot type numrep : Int) (domains result : List Int) :
    Prop where
  few : (result.length : Int) ≤ max 0 (min numrep input.resultMax)
  distinct : result.Nodup
  devices : ∀ device ∈ result, 0 ≤ device ∧ device < input.map.maxDevices ∧
    Below input.map slot device ∧ isOut input.weight input.weightMax device input.x = .ok false
  domainsDistinct : domains.Nodup
  enclosed : Forall₂ (fun domain device => Below input.map slot domain ∧
    input.map.itemType domain = .ok type ∧ Below input.map (bucketSlot domain) device) domains result
  apart : ∀ (other : Int) (index₁ index₂ : Nat) (device₁ device₂ : Int), Below input.map slot other →
    input.map.itemType other = .ok type → result[index₁]? = some device₁ →
    result[index₂]? = some device₂ → Below input.map (bucketSlot other) device₁ →
    Below input.map (bucketSlot other) device₂ → index₁ = index₂

theorem Separated.nil {slot type numrep : Int} : Separated input slot type numrep [] [] := by
  refine ⟨by simp, nodup_nil, by simp, nodup_nil, .nil, ?_⟩
  intro other index₁ index₂ device₁ device₂ _ _ stored
  simp at stored

theorem Replicas.separated {state : RuleState} {slot type numrep : Int} {domains result : List Int}
    (sound : input.map.Sound) (nonzero : type ≠ 0)
    (replicas : Replicas (state.firstnArgs input type) slot domains result)
    (few : (result.length : Int) ≤ min numrep input.resultMax) :
    Separated input slot type numrep domains result := by
  have paired := replicas.paired
  refine ⟨le_max_of_le_right few, replicas.devicesNodup, ?_, replicas.domainsNodup, ?_, ?_⟩
  · intro device member
    obtain ⟨index, bounded, rfl⟩ := List.mem_iff_getElem.mp member
    have replica := paired.get (by rw [paired.length_eq]; exact bounded) bounded
    obtain ⟨negative, -⟩ := bucket_of_itemType_ne_zero replica.typed nonzero
    have below := replica.descends.toBelow.trans negative replica.leaf.below
    exact ⟨replica.leaf.nonneg, below.device_lt sound.wellFormed replica.leaf.nonneg, below,
      replica.leaf.isIn⟩
  · exact paired.imp fun domain device replica =>
      ⟨replica.descends.toBelow, replica.typed, replica.leaf.below⟩
  · intro other index₁ index₂ device₁ device₂ inside typed stored₁ stored₂ holds₁ holds₂
    obtain ⟨bounded₁, rfl⟩ := List.getElem?_eq_some_iff.mp stored₁
    obtain ⟨bounded₂, rfl⟩ := List.getElem?_eq_some_iff.mp stored₂
    have length := paired.length_eq
    have replica₁ := paired.get (by omega) bounded₁
    have replica₂ := paired.get (by omega) bounded₂
    have same : domains[index₁] = domains[index₂] :=
      Replica.domain_eq sound nonzero replica₁ replica₂ inside typed holds₁ holds₂
    exact replicas.domainsNodup.getElem_inj_iff.mp same

def RuleInput.chooseleaf (input : RuleInput) (bound : Nat) (scratch : List Int) (perms : Perms)
    (slot type : Int) (numrep : Nat) : Except Fault (Nat × List Int × List Int × Perms) :=
  let state := input.start scratch perms
  crushChooseFirstn (state.firstnArgs input type) bound slot numrep 0 state.o state.c perms
    (recurseTries input.map state) true

theorem chooseleaf_places (sound : input.map.Sound) (ranks : input.map.Ranks rank)
    (counters : input.map.CountersFit most)
    (weights : (input.weight.length : Int) = input.weightMax)
    {slot type : Int} (located : input.map.bucketAt slot = .ok bucket) (nonzero : type ≠ 0)
    {numrep : Nat} (fitting : numrep ≤ input.resultMax)
    {scratch : List Int} (space : 3 * input.resultMax ≤ scratch.length)
    {perms : Perms} (fit : perms.Fit input.map)
    (enough : rank slot + most + 2 ^ 33 + 256 ≤ bound) :
    Returns (input.chooseleaf bound scratch perms slot type numrep)
      (Placed ((input.start scratch perms).firstnArgs input type) slot numrep
        (input.start scratch perms).o (input.start scratch perms).c) := by
  have room := counters.room
  have recurse : (recurseTries input.map (input.start scratch perms)).toNat ≤
      max (input.map.chooseTotalTries + 1).toNat 1 := by
    unfold recurseTries
    split
    · rename_i set
      exact absurd rfl set
    split
    · exact le_max_right _ _
    · exact le_max_left _ _
  have budget : ((input.start scratch perms).firstnArgs input type).Budget most :=
    ⟨counters.retries, counters.fallback, counters.room⟩
  have leafRoom : max (recurseTries input.map (input.start scratch perms)).toNat 1 + most < 2 ^ 32 := by
    lia
  have large : rank slot + most + (input.map.chooseTotalTries + 1).toNat +
      (recurseTries input.map (input.start scratch perms)).toNat + 256 ≤ bound := by lia
  have roomO : 0 + numrep ≤ (input.start scratch perms).o.length := by
    simp only [RuleInput.start, List.length_take, length_drop]
    lia
  have roomC : 0 + numrep ≤ (input.start scratch perms).c.length := by
    simp only [RuleInput.start, List.length_take, length_drop]
    lia
  have none : Replicas ((input.start scratch perms).firstnArgs input type) slot
      ((input.start scratch perms).o.take 0) ((input.start scratch perms).c.take 0) :=
    ⟨nodup_nil, nodup_nil, .nil⟩
  have placed := firstnReps_places sound ranks (recurseTries input.map (input.start scratch perms))
    budget ⟨budget.retries, budget.fallback, leafRoom⟩ weights nonzero located large 0 fit roomO
    roomC none
  rw [Nat.zero_add] at placed
  exact placed

theorem ruleStep_take {bound : Nat} {root unused : Int} {state : RuleState}
    (space : 0 < state.w.length) :
    ruleStep input bound ⟨crushRuleTake, root, unused⟩ state =
      .ok { state with w := state.w.set 0 root, wsize := 1 } := by
  rw [ruleStep, if_pos rfl, writeAt_eq_ok space]
  rfl

theorem ruleStep_chooseleaf {bound : Nat} {arg1 type : Int} {state : RuleState} :
    ruleStep input bound ⟨crushRuleChooseleafFirstn, arg1, type⟩ state =
      chooseStep input bound ⟨crushRuleChooseleafFirstn, arg1, type⟩ true true state := by
  rfl

theorem ruleStep_emit {bound : Nat} {unused₁ unused₂ : Int} {state : RuleState} :
    ruleStep input bound ⟨crushRuleEmit, unused₁, unused₂⟩ state =
      .ok { state with
        result := state.result ++
          (state.w.take state.wsize).take (input.resultMax - state.result.length)
        wsize := 0 } := by
  rfl

/-- Evaluating a rule `TAKE root; CHOOSELEAF_FIRSTN arg1 type; EMIT` is the
choice below `root`, of which the devices are emitted. -/
theorem crushDoRule_chooseleaf {ruleno : Int} {rule : Rule}
    (found : input.map.rules[(UInt32.ofInt ruleno).toNat]? = some (some rule))
    {root arg1 type unused₁ unused₂ unused₃ : Int}
    (steps : rule.steps = [⟨crushRuleTake, root, unused₁⟩, ⟨crushRuleChooseleafFirstn, arg1, type⟩,
      ⟨crushRuleEmit, unused₂, unused₃⟩])
    (located : input.map.bucketAt (bucketSlot root) = .ok bucket)
    {scratch : List Int} (space : 0 < scratch.length) (bound : Nat) (perms : Perms) :
    crushDoRule input bound ruleno scratch perms =
      if resolveNumrep input.resultMax arg1 ≤ 0 then .ok ([], perms)
      else (input.chooseleaf bound scratch perms (bucketSlot root) type
          (resolveNumrep input.resultMax arg1).toNat).map fun chosen =>
        let o := chosen.2.2.1.take chosen.1 ++ chosen.2.1.drop chosen.1
        (((o ++ ((input.start scratch perms).w.set 0 root).drop o.length).take chosen.1).take input.resultMax,
          chosen.2.2.2) := by
  have listed := (List.getElem?_eq_some_iff.mp found).1
  have first : 0 < (input.start scratch perms).w.length := by
    simp only [RuleInput.start, List.length_take]
    lia
  have taken : ((input.start scratch perms).w.set 0 root)[0]? = some root := by
    rw [getElem?_set_self first]
  simp only [crushDoRule, if_neg (Nat.not_le.mpr listed), found, steps, ruleSteps,
    ruleStep_take first, ruleStep_chooseleaf, ruleStep_emit, bind, Except.bind]
  simp only [chooseStep, chooseEach, bind, Except.bind, readAt, taken, one_ne_zero, if_false, if_true,
    drop_zero, take_zero, nil_append, Nat.zero_add, RuleState.firstnArgs, recurseTries,
    checkSlot_of_bucketAt located]
  have startPerms : (input.start scratch perms).perms = perms := rfl
  have startResult : (input.start scratch perms).result = [] := rfl
  by_cases none : resolveNumrep input.resultMax arg1 ≤ 0
  · simp [none, startPerms, startResult]
  · rw [if_neg none]
    cases run : input.chooseleaf bound scratch perms (bucketSlot root) type
        (resolveNumrep input.resultMax arg1).toNat with
    | error fault =>
      simp only [RuleInput.chooseleaf, RuleState.firstnArgs, recurseTries] at run
      simp only [none, if_false, startPerms, run]
      rfl
    | ok chosen =>
      simp only [RuleInput.chooseleaf, RuleState.firstnArgs, recurseTries] at run
      simp only [none, if_false, startPerms, startResult, run, nil_append, length_nil,
        Nat.sub_zero]
      rfl

/-- Replica separation. The chosen failure domains are the filled part of
`out`. -/
theorem crushDoRule_separates {ruleno : Int} {rule : Rule}
    (found : input.map.rules[(UInt32.ofInt ruleno).toNat]? = some (some rule))
    {root arg1 type unused₁ unused₂ unused₃ : Int}
    (steps : rule.steps = [⟨crushRuleTake, root, unused₁⟩, ⟨crushRuleChooseleafFirstn, arg1, type⟩,
      ⟨crushRuleEmit, unused₂, unused₃⟩])
    (located : input.map.bucketAt (bucketSlot root) = .ok bucket) (nonzero : type ≠ 0)
    (fitting : resolveNumrep input.resultMax arg1 ≤ input.resultMax)
    (wellFormed : input.map.WellFormed) (trees : input.map.TreesSound)
    (counters : input.map.CountersFit most)
    (weights : (input.weight.length : Int) = input.weightMax)
    {scratch : List Int} (space : 3 * input.resultMax ≤ scratch.length) (nonempty : 0 < scratch.length)
    {perms : Perms} (fit : perms.Fit input.map) :
    ∃ enough, ∀ bound ≥ enough, ∃ domains result after,
      crushDoRule input bound ruleno scratch perms = .ok (result, after) ∧ after.Fit input.map ∧
      Separated input (bucketSlot root) type (resolveNumrep input.resultMax arg1) domains result ∧
      (0 < resolveNumrep input.resultMax arg1 → ∃ out out2,
        input.chooseleaf bound scratch perms (bucketSlot root) type
          (resolveNumrep input.resultMax arg1).toNat = .ok (domains.length, out, out2, after) ∧
        domains = out.take domains.length ∧ result = out2.take domains.length) := by
  obtain ⟨rank, ranks⟩ := wellFormed.finite
  refine ⟨rank (bucketSlot root) + most + 2 ^ 33 + 256, fun bound enough => ?_⟩
  rw [crushDoRule_chooseleaf found steps located nonempty bound perms]
  by_cases none : resolveNumrep input.resultMax arg1 ≤ 0
  · rw [if_pos none]
    exact ⟨[], [], perms, rfl, fit, .nil, fun positive => absurd none (by omega)⟩
  · rw [if_neg none]
    have positive : (resolveNumrep input.resultMax arg1).toNat ≤ input.resultMax := by lia
    obtain ⟨⟨taken, out, out2, after⟩, chosen, placed⟩ := chooseleaf_places ⟨wellFormed, trees⟩
      ranks counters weights located nonzero positive space fit enough
    have few := placed.few
    have outLength := placed.outLength
    have out2Length := placed.out2Length
    simp only [RuleInput.start, List.length_take, length_drop] at few outLength out2Length
    have domainsLength : (out.take taken).length = taken := by
      rw [List.length_take]
      lia
    have devicesLength : (out2.take taken).length = taken := by
      rw [List.length_take]
      lia
    have emitted : ∀ rest : List Int, ((out2.take taken ++ out.drop taken ++ rest).take taken).take input.resultMax =
        out2.take taken := by
      intro rest
      rw [append_assoc, take_left' devicesLength, take_of_length_le (by lia)]
    refine ⟨out.take taken, out2.take taken, after, ?_, placed.fit, ?_, fun _ => ?_⟩
    · rw [chosen]
      simp only [Except.map, emitted]
    · exact placed.replicas.separated ⟨wellFormed, trees⟩ nonzero (by lia)
    · rw [domainsLength]
      exact ⟨out, out2, chosen, rfl, rfl⟩

def strawBucket (id : Int) (type : UInt16) (items : List Int) : Bucket :=
  { id, type, alg := crushBucketStraw, hash := 0, size := UInt32.ofNat items.length, items
    itemWeights := [], sumWeights := [], numNodes := 0, nodeWeights := []
    straws := items.map fun _ => 0x10000 }

def treeBucket (id : Int) (type : UInt16) (items : List Int) (nodeWeights : List UInt32) : Bucket :=
  { id, type, alg := crushBucketTree, hash := 0, size := UInt32.ofNat items.length, items
    itemWeights := [], sumWeights := [], numNodes := UInt8.ofNat nodeWeights.length, nodeWeights
    straws := [] }

def hostsMap (buckets : List Bucket) (maxDevices : Int) (localTries fallbackTries : UInt32) :
    CrushMap :=
  { buckets := buckets.map some
    rules := [some { ruleset := 0, type := 1, minSize := 1, maxSize := 10, steps :=
      [⟨crushRuleTake, -1, 0⟩, ⟨crushRuleChooseleafFirstn, 0, 1⟩, ⟨crushRuleEmit, 0, 0⟩] }]
    maxDevices, chooseLocalTries := localTries, chooseLocalFallbackTries := fallbackTries
    chooseTotalTries := 19, chooseleafDescendOnce := 0, chooseleafVaryR := 0 }

def twoHosts : CrushMap :=
  hostsMap [strawBucket (-1) 2 [-2, -3], strawBucket (-2) 1 [0, 1],
    treeBucket (-3) 1 [2] [0, 0x10000]] 3 2 5

theorem twoHosts_wellFormed : twoHosts.WellFormed :=
  CrushMap.wellFormed_of_entries (fun slot => 1 - slot) (by decide) (by decide)

theorem twoHosts_trees : twoHosts.TreesSound := by
  refine forall_bucketAt fun entry member tree => ?_
  simp only [CrushMap.entries, twoHosts, hostsMap, map_cons, map_nil, zipIdx_cons,
    zipIdx_nil, filterMap_cons, filterMap_nil, Option.map_some,
    mem_cons, not_mem_nil, or_false] at member
  rcases member with rfl | rfl | rfl
  · exact absurd tree (by decide)
  · exact absurd tree (by decide)
  · exact ⟨0, 0, rfl, show 0 < 1 by decide⟩

theorem crushDoRule_separates_twoHosts :
    ∃ enough, ∀ bound ≥ enough, ∃ domains result after,
      crushDoRule ⟨twoHosts, 7, 2, [0x10000, 0x10000, 0x10000], 3⟩ bound 0
          (replicate 6 0) (freshPerms twoHosts) = .ok (result, after) ∧
        after.Fit twoHosts ∧
        Separated ⟨twoHosts, 7, 2, [0x10000, 0x10000, 0x10000], 3⟩ 0 1 2 domains result := by
  have located : twoHosts.bucketAt (bucketSlot (-1)) = .ok (strawBucket (-1) 2 [-2, -3]) := rfl
  have counters : twoHosts.CountersFit 7 :=
    ⟨by decide, fun _ => forall_bucketAt (by decide), by decide⟩
  obtain ⟨enough, separates⟩ := @crushDoRule_separates 7 _
    ⟨twoHosts, 7, 2, [0x10000, 0x10000, 0x10000], 3⟩ 0 _ rfl (-1) 0 1 0 0 0 rfl located (by decide)
    (by decide) twoHosts_wellFormed twoHosts_trees counters (by decide) (replicate 6 0) (by decide) (by decide)
    (freshPerms twoHosts) (freshPerms_fit twoHosts)
  refine ⟨enough, fun bound large => ?_⟩
  obtain ⟨domains, result, after, ran, fits, separated, -⟩ := separates bound large
  exact ⟨domains, result, after, ran, fits, separated⟩

def retryingMap : CrushMap :=
  hostsMap [strawBucket (-1) 2 [-2], strawBucket (-2) 1 [0]] 1 0xffffffff 0

def retryingInput : RuleInput := ⟨retryingMap, 7, 2, [0x10000], 1⟩

section

variable {args : FirstnArgs}
variable (arguments : args.map = retryingMap) (wanted : args.type = 1)
variable (retries : args.localRetries = 0xffffffff) (noFallback : args.localFallbackRetries = 0)
include arguments wanted retries noFallback

theorem firstnPass_retrying {leaf : Option LeafCall} {bound : Nat} {search : Search} (slot : search.slot = 0) :
    ∃ after, firstnPass args leaf bound 1 1 [-2, 0] search = .ok (.again after) ∧ after.slot = 0 := by
  obtain ⟨map, weight, weightMax, x, type, tries, localRetries, fallback, varyR, parentR⟩ := args
  obtain ⟨current, ftotal, flocal, out2, perms⟩ := search
  subst arguments wanted retries noFallback slot
  have allowed : flocal + 1 ≤ 0xffffffff := UInt32.le_iff_toNat_le.mpr (by
    have := (flocal + 1).toNat_lt
    simp only [UInt32.reduceToNat]
    omega)
  have drawn : firstnPass ⟨retryingMap, weight, weightMax, x, 1, tries, 0xffffffff, 0, varyR, parentR⟩
      leaf bound 1 1 [-2, 0] ⟨0, ftotal, flocal, out2, perms⟩ = .ok (firstnRetry
        ⟨retryingMap, weight, weightMax, x, 1, tries, 0xffffffff, 0, varyR, parentR⟩
        (strawBucket (-1) 2 [-2]) true ⟨0, ftotal, flocal, out2, Function.update perms 0 (perms 0)⟩) := rfl
  refine ⟨⟨0, ftotal + 1, flocal + 1, out2, Function.update perms 0 (perms 0)⟩, ?_, rfl⟩
  rw [drawn]
  simp [firstnRetry, allowed]

theorem firstnSearch_retrying {leaf : Option LeafCall} {bound : Nat} {out2 : List Int} {perms : Perms} :
    firstnSearch args leaf bound 0 1 1 [-2, 0] out2 perms = .error .exhausted := by
  cases bound with
  | zero => rfl
  | succ bound =>
    rw [firstnSearch, loop, loop_exhausted (fun search : Search => search.slot = 0)
      (fun search slot => firstnPass_retrying arguments wanted retries noFallback slot) _ rfl]

end

def retryingArgs : FirstnArgs :=
  { map := retryingMap, weight := [0x10000], weightMax := 1, x := 7, type := 1, tries := 20
    localRetries := 0xffffffff, localFallbackRetries := 0, varyR := 0, parentR := 0 }

theorem firstnSearch_retrying_first (bound : Nat) (perms : Perms) :
    ∃ after, firstnSearch retryingArgs (some (chooseLeafFirstn retryingArgs 20 (bound + 1)))
      (bound + 1) 0 0 0 [0, 0] [0, 0] perms = .ok ⟨some (-2), [0, 0], after⟩ :=
  ⟨_, rfl⟩

theorem firstnReps_retrying (bound : Nat) (perms : Perms) :
    firstnReps retryingArgs (some (chooseLeafFirstn retryingArgs 20 bound)) bound 0 2 0 0
      [0, 0] [0, 0] perms = .error .exhausted := by
  cases bound with
  | zero => rfl
  | succ bound =>
    obtain ⟨after, first⟩ := firstnSearch_retrying_first bound perms
    rw [firstnReps, first]
    change firstnReps retryingArgs _ (bound + 1) 0 1 1 1 [-2, 0] [0, 0] after = _
    rw [firstnReps, firstnSearch_retrying rfl rfl rfl rfl]
    rfl

theorem crushDoRule_retrying (bound : Nat) (perms : Perms) :
    crushDoRule retryingInput bound 0 (replicate 6 0) perms = .error .exhausted := by
  have chosen : retryingInput.chooseleaf bound (replicate 6 0) perms 0 1 2 =
    .error .exhausted := firstnReps_retrying bound perms
  rw [crushDoRule_chooseleaf rfl rfl rfl (by decide)]
  change Except.map _ (retryingInput.chooseleaf bound (replicate 6 0) perms 0 1 2) = _
  rw [chosen]
  rfl

def weightlessHost : Bucket := treeBucket (-2) 1 [0, 1, 2] [0, 0, 0, 0, 0, 0, 0, 0]

def weightlessMap : CrushMap := hostsMap [strawBucket (-1) 2 [-2], weightlessHost] 3 0 0

def weightlessInput : RuleInput := ⟨weightlessMap, 7, 1, [0x10000, 0x10000, 0x10000], 3⟩

theorem treeDescend_weightless {x r : UInt32} {bound n h : Nat} (even : n % 2 = 0) (small : n < 8)
    (reached : height bound n = .ok (h + 1)) :
    treeDescend weightlessHost x r bound n = .ok (.again (n + 2 ^ h)) := by
  have weightless : ∀ index < 8, readAt Fault.outOfBounds weightlessHost.nodeWeights index = .ok 0 := by
    decide
  have left : n - 2 ^ h < 8 := Nat.lt_of_le_of_lt (Nat.sub_le _ _) small
  simp only [treeDescend, weightless n small, reached, Nat.add_sub_cancel, weightless _ left, bind,
    Except.bind, UInt32.toNat_zero, Nat.mul_zero, Nat.zero_div, lt_irrefl, if_false,
    show ¬ n % 2 = 1 by omega]

theorem bucketTreeChoose_weightless (x r : UInt32) (bound : Nat) :
    bucketTreeChoose (bound + 3) weightlessHost x r = .error .outOfBounds := by
  have start : weightlessHost.numNodes.toNat / 2 = 4 := rfl
  have root : treeDescend weightlessHost x r (bound + 3) 4 = .ok (.again 6) :=
    treeDescend_weightless (n := 4) (h := 1) rfl (by decide) rfl
  have right : treeDescend weightlessHost x r (bound + 3) 6 = .ok (.again 7) :=
    treeDescend_weightless (n := 6) (h := 0) rfl (by decide) rfl
  have leaf : treeDescend weightlessHost x r (bound + 3) 7 = .ok (.done 7) := rfl
  rw [bucketTreeChoose, start, loop_again root, loop_again right, loop_done leaf]
  rfl

theorem firstnSearch_error {args : FirstnArgs} {leaf : Option LeafCall} {bound rep outpos : Nat}
    {slot : Int} {out out2 : List Int} {perms : Perms} {fault : Fault}
    (pass : firstnPass args leaf (bound + 1) rep outpos out ⟨slot, 0, 0, out2, perms⟩ = .error fault) :
    firstnSearch args leaf (bound + 1) slot rep outpos out out2 perms = .error fault := by
  exact loop_error (loop_error pass)

def weightlessArgs : FirstnArgs :=
  { map := weightlessMap, weight := [0x10000, 0x10000, 0x10000], weightMax := 3, x := 7, type := 1
    tries := 20, localRetries := 0, localFallbackRetries := 0, varyR := 0, parentR := 0 }

theorem firstnPass_draw_error {args : FirstnArgs} {leaf : Option LeafCall} {bound rep outpos : Nat}
    {out : List Int} {search : Search} {bucket : Bucket} {fault : Fault}
    (located : args.map.bucketAt search.slot = .ok bucket) (nonempty : ¬ bucket.size = 0)
    (drawn : ∀ r, firstnDraw args bound bucket r search.flocal (search.perms search.slot) =
      .error fault) :
    firstnPass args leaf bound rep outpos out search = .error fault := by
  simp only [firstnPass, located, nonempty, drawn, if_false, bind, Except.bind]

theorem firstnSearch_weightless (args : FirstnArgs) (arguments : args.map = weightlessMap)
    (noFallback : args.localFallbackRetries = 0) {leaf : Option LeafCall} {bound rep outpos : Nat}
    {out out2 : List Int} {perms : Perms} :
    firstnSearch args leaf (bound + 3) 1 rep outpos out out2 perms = .error .outOfBounds := by
  have tree : weightlessHost.alg = crushBucketTree := rfl
  have located : args.map.bucketAt 1 = .ok weightlessHost := by
    rw [arguments]
    rfl
  refine firstnSearch_error (firstnPass_draw_error located (by decide) fun r => ?_)
  rw [firstnDraw, noFallback, if_neg (by simp), crushBucketChoose, if_neg (by decide),
    if_neg (by decide), if_neg (by decide), if_pos tree, bucketTreeChoose_weightless]
  rfl

theorem chooseLeafFirstn_weightless {args : FirstnArgs} (arguments : args.map = weightlessMap)
    (noFallback : args.localFallbackRetries = 0) {recurseTries subR : UInt32} {bound outpos : Nat}
    {out2 : List Int} {perms : Perms} :
    chooseLeafFirstn args recurseTries (bound + 3) 1 outpos subR out2 perms =
      .error .outOfBounds := by
  let nested : FirstnArgs := { args with type := 0, tries := recurseTries, parentR := subR }
  have searched : firstnSearch nested none (bound + 3) 1 outpos outpos out2 [] perms =
      .error .outOfBounds := firstnSearch_weightless nested arguments noFallback
  rw [chooseLeafFirstn, firstnReps, searched]
  rfl

theorem crushDoRule_weightless (bound : Nat) (perms : Perms) :
    crushDoRule weightlessInput (bound + 3) 0 (replicate 3 0) perms = .error .outOfBounds := by
  have pass : firstnPass weightlessArgs (some (chooseLeafFirstn weightlessArgs 20 (bound + 3)))
      (bound + 3) 0 0 [0] ⟨0, 0, 0, [0], perms⟩ = .error .outOfBounds := by
    change ((chooseLeafFirstn weightlessArgs 20 (bound + 3) 1 0 0 [0]
      (Function.update perms 0 (perms 0)) >>= _) >>= _) = _
    rw [chooseLeafFirstn_weightless rfl rfl]
    rfl
  have chosen : weightlessInput.chooseleaf (bound + 3) (replicate 3 0) perms 0 1 1 =
      .error .outOfBounds := by
    change firstnReps weightlessArgs (some (chooseLeafFirstn weightlessArgs 20 (bound + 3)))
      (bound + 3) 0 1 0 0 [0] [0] perms = _
    rw [firstnReps, firstnSearch_error pass]
    rfl
  rw [crushDoRule_chooseleaf rfl rfl rfl (by decide)]
  change Except.map _ (weightlessInput.chooseleaf (bound + 3) (replicate 3 0) perms 0 1 1) = _
  rw [chosen]
  rfl

theorem weightlessMap_wellFormed : weightlessMap.WellFormed :=
  CrushMap.wellFormed_of_entries (fun slot => 1 - slot) (by decide) (by decide)

/-- Neither the retries nor the descent in a tree bucket are safe for every
map of the right shape: with one host and unlimited local retries the second
replica is looked for without end, and a host whose devices weigh nothing is
read out of bounds. -/
theorem crushDoRule_not_always_returns :
    (retryingMap.WellFormed ∧ ∀ bound, crushDoRule retryingInput bound 0 (replicate 6 0)
      (freshPerms retryingMap) = .error .exhausted) ∧
    (weightlessMap.WellFormed ∧ ∀ bound, crushDoRule weightlessInput (bound + 3) 0
      (replicate 3 0) (freshPerms weightlessMap) = .error .outOfBounds) := by
  refine ⟨⟨?_, fun bound => crushDoRule_retrying bound _⟩,
    ⟨weightlessMap_wellFormed, fun bound => crushDoRule_weightless bound _⟩⟩
  exact CrushMap.wellFormed_of_entries (fun slot => 1 - slot) (by decide) (by decide)

end KmodCeph.Crush
