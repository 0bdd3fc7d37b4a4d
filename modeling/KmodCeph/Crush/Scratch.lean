import KmodCeph.Crush.Evaluation

namespace KmodCeph.Crush

open Lib

/-- The arrays of every bucket that is there are as long as its counts say. -/
def CrushMap.Allocated (map : CrushMap) : Prop :=
  ∀ slot bucket, map.bucketAt slot = .ok bucket → bucket.Allocated

section

variable {region : Region} {state : Reading DecodeNote Int}

abbrev Yields {α : Type} (program : Decoder α) (state : Reading DecodeNote Int) (post : α → Prop) : Prop :=
  Triple program state (fun result _ => post result) fun _ _ => True

theorem Yields.skips {α β : Type} {first : Decoder α} {next : α → Decoder β} {post : β → Prop}
    (continues : ∀ result after, Yields (next result) after post) : Yields (first >>= next) state post :=
  Triple.bind (fun _ _ => True) Triple.any fun result after _ => continues result after

theorem Yields.gathers {α : Type} {body : Decoder α} {count : Nat} {each : α → Prop}
    (pass : ∀ state, Yields body state each) :
    Yields (gather count body) state fun results => results.length = count ∧ ∀ result ∈ results, each result :=
  (Triple.gather (fun _ => True) (fun before _ => (pass before).weaken fun _ _ holds => ⟨holds, trivial⟩)
    trivial).weaken fun _ _ kept => ⟨kept.1, kept.2.1⟩

theorem Yields.counts {α : Type} {body : Decoder α} {count : Nat} :
    Yields (gather count body) state fun results => results.length = count :=
  Triple.weaken (@Yields.gathers _ _ _ _ (fun _ => True) fun _ => Triple.any) fun _ _ kept => kept.1

variable {b : Bucket}

theorem decodeAlg_allocated (items : b.items.length = b.size.toNat) :
    Yields (decodeAlg region b) state Bucket.Allocated := by
  unfold decodeAlg
  split
  · rename_i uniform
    refine Yields.skips fun _ _ => Yields.skips fun _ _ => Triple.pure ⟨items, ?_, ?_, ?_, ?_⟩ <;>
    · intro claimed
      rw [uniform] at claimed
      exact absurd claimed (by decide)
  split
  · rename_i list
    refine Yields.skips fun _ _ => Yields.skips fun _ _ => Yields.skips fun _ _ => ?_
    refine Triple.bind _ Yields.counts fun weights after count => Triple.pure ?_
    refine ⟨items, fun _ => (List.length_map _).trans count, fun _ => (List.length_map _).trans count, ?_, ?_⟩ <;>
    · intro claimed
      rw [list] at claimed
      exact absurd claimed (by decide)
  split
  · rename_i tree
    refine Yields.skips fun _ _ => Yields.skips fun numNodes _ => Yields.skips fun _ _ => Yields.skips fun _ _ => ?_
    refine Triple.bind _ Yields.counts fun weights after count => Triple.pure ?_
    refine ⟨items, ?_, ?_, fun _ => count, ?_⟩ <;>
    · intro claimed
      rw [tree] at claimed
      exact absurd claimed (by decide)
  · rename_i tree
    refine Yields.skips fun _ _ => Yields.skips fun _ _ => Yields.skips fun _ _ => ?_
    refine Triple.bind _ Yields.counts fun straws after count => Triple.pure ?_
    refine ⟨items, ?_, ?_, fun claimed => absurd claimed tree, fun _ => (List.length_map _).trans count⟩
    · intro claimed
      contradiction
    · intro claimed
      contradiction

theorem decodeBucket_allocated :
    Yields (decodeBucket region) state fun slot => ∀ bucket, slot = some bucket → bucket.Allocated := by
  refine Yields.skips fun _ _ => Yields.skips fun alg _ => ?_
  split
  · exact Triple.pure nofun
  split
  · exact Triple.fail trivial
  refine Yields.skips fun _ _ => Yields.skips fun _ _ => Yields.skips fun b _ => Yields.skips fun _ _ =>
    Yields.skips fun _ _ => Yields.skips fun _ _ => ?_
  refine Triple.bind _ Yields.counts fun items after count => ?_
  dsimp only
  split
  · refine Triple.bind _ (decodeAlg_allocated count) fun bucket after allocated => Yields.skips fun _ _ => ?_
    refine Triple.pure fun stored same => ?_
    cases same
    exact allocated
  · rename_i other
    refine Triple.pure fun stored same => ?_
    cases same
    refine ⟨count, ?_, ?_, ?_, ?_⟩ <;>
    · intro claimed
      exact absurd claimed (by tauto)

theorem decodeTunables_buckets {c : CrushMap} :
    Yields (decodeTunables region c) state fun map => map.buckets = c.buckets := by
  refine Triple.read ?_
  split
  · refine Yields.skips fun _ _ => Yields.skips fun _ _ => Yields.skips fun _ _ => Triple.read ?_
    split
    · refine Yields.skips fun _ _ => Triple.read ?_
      split
      · exact Yields.skips fun _ _ => Triple.pure rfl
      · exact Triple.pure rfl
    · exact Triple.pure rfl
  · exact Triple.pure rfl

theorem decodeTrailer_buckets {c : CrushMap} :
    Yields (decodeTrailer region c) state fun map => map.buckets = c.buckets := by
  refine Yields.skips fun result after => ?_
  cases result with
  | ok _ => exact decodeTunables_buckets
  | error _ => exact Triple.pure rfl

theorem allocated_of_slots {map : CrushMap}
    (slots : ∀ slot ∈ map.buckets, ∀ bucket, slot = some bucket → bucket.Allocated) : map.Allocated := by
  intro slot bucket found
  unfold CrushMap.bucketAt at found
  split at found
  · cases found
  · split at found
    · cases found
    · cases found
    · rename_i stored
      cases found
      exact slots _ (List.mem_of_getElem? stored) bucket rfl

theorem decodeMap_allocated : Yields (decodeMap region) state CrushMap.Allocated := by
  refine Yields.skips fun _ _ => Yields.skips fun _ _ => Yields.skips fun magic _ => ?_
  split
  · exact Triple.read (Triple.fail trivial)
  refine Yields.skips fun _ _ => Yields.skips fun _ _ => Yields.skips fun _ _ => Yields.skips fun _ _ =>
    Yields.skips fun _ _ => ?_
  refine Triple.bind _ (Yields.gathers fun state => decodeBucket_allocated) fun buckets _ slots =>
    Yields.skips fun rules _ => ?_
  refine Triple.weaken decodeTrailer_buckets fun map after same => allocated_of_slots ?_
  rw [same]
  exact slots.2

/-- In every map that is decoded the arrays are as long as the counts say, which
is what a draw from a bucket relies on. -/
theorem crushDecode_allocated {map : CrushMap} {after : Reading DecodeNote Int}
    (decoded : crushDecode region state = .ok (some map) after) : map.Allocated := by
  have yields : Yields (crushDecode region) state fun result => ∀ map, result = some map → map.Allocated := by
    refine Triple.bind (fun result _ => ∀ map, result = .ok map → map.Allocated) (Triple.attempt ?_)
      fun result after allocated => ?_
    · refine decodeMap_allocated.mono (fun map _ allocated other same => ?_) fun reason _ _ => ?_
      · cases same
        exact allocated
      · cases reason with
        | error code => exact nofun
        | damage damage => trivial
    · cases result with
      | ok c =>
        refine Triple.pure fun map same => ?_
        cases same
        exact allocated c rfl
      | error code =>
        dsimp only
        split
        · exact Triple.pure nofun
        · exact Triple.fail trivial
  exact yields.ok decoded map rfl

end

section

variable {input : RuleInput} {scratch : List Int}

def StaysInside (input : RuleInput) (evaluation : Except Fault (List Int × Perms)) : Prop :=
  Avoids (Hazard.Faults .scratch) evaluation fun result => result.1.length ≤ input.resultMax

/-- The vectors are long enough where every choose step has room for what it may
fill; a step that fills a fixed number of positions needs that room. -/
theorem crushDoRule_inside (positive : 0 < input.resultMax) (space : 3 * input.resultMax ≤ scratch.length)
    (bound : Nat) (ruleno : Int) (perms : Perms) :
    ((∀ entry ∈ evaluated input bound ruleno scratch perms, entry.1.Chooses → Roomy input entry.1 entry.2) →
      StaysInside input (crushDoRule input bound ruleno scratch perms)) ∧
    ∀ result, crushDoRule input bound ruleno scratch perms = .ok result →
      result.1.length ≤ input.resultMax ∧
        ∀ entry ∈ evaluated input bound ruleno scratch perms, entry.1.Fills → Roomy input entry.1 entry.2 := by
  have nonempty : 0 < scratch.length := by omega
  refine ⟨fun roomy => ?_, fun result ran => ?_⟩
  · exact (@crushDoRule_avoids .scratch input bound ruleno scratch perms space nonempty fun _ => roomy).mono
      fun result kept => kept.1
  · exact (@crushDoRule_avoids .nothing input bound ruleno scratch perms space nonempty nofun).ok ran

end

def threeRules : List UInt8 :=
  leBytes 4 0x10000 ++ leBytes 4 1 ++ leBytes 4 3 ++ leBytes 4 1 ++
    (leBytes 4 1 ++ leBytes 4 0xffffffff ++ [1, 0, 1, 0] ++ leBytes 4 0x10000 ++ leBytes 4 1 ++ leBytes 4 0 ++
      leBytes 4 0x10000) ++
    (leBytes 4 1 ++ leBytes 4 2 ++ [0, 1, 1, 10] ++ leBytes 4 1 ++ leBytes 4 0xffffffff ++ leBytes 4 0 ++
      leBytes 4 3 ++ leBytes 4 2 ++ leBytes 4 0) ++
    (leBytes 4 1 ++ leBytes 4 2 ++ [1, 1, 1, 10] ++ leBytes 4 1 ++ leBytes 4 5 ++ leBytes 4 0 ++
      leBytes 4 2 ++ leBytes 4 1 ++ leBytes 4 0) ++
    (leBytes 4 1 ++ leBytes 4 3 ++ [2, 1, 1, 10] ++ leBytes 4 1 ++ leBytes 4 0xffffffff ++ leBytes 4 0 ++
      leBytes 4 2 ++ leBytes 4 1 ++ leBytes 4 0 ++ leBytes 4 4 ++ leBytes 4 0 ++ leBytes 4 0)

def oneDevice : Bucket :=
  { id := -1, type := 1, alg := crushBucketUniform, hash := 0, size := 1, items := [0], itemWeights := []
    sumWeights := [], numNodes := 0, nodeWeights := [], straws := [] }

def threeRulesMap : CrushMap :=
  { buckets := [some oneDevice]
    rules := [some ⟨0, 1, 1, 10, [⟨1, -1, 0⟩, ⟨3, 2, 0⟩]⟩, some ⟨1, 1, 1, 10, [⟨1, 5, 0⟩, ⟨2, 1, 0⟩]⟩,
      some ⟨2, 1, 1, 10, [⟨1, -1, 0⟩, ⟨2, 1, 0⟩, ⟨4, 0, 0⟩]⟩]
    maxDevices := 1, chooseLocalTries := 2, chooseLocalFallbackTries := 5, chooseTotalTries := 19
    chooseleafDescendOnce := 0, chooseleafVaryR := 0 }

def resultOf {α : Type} (run : EStateM.Result Stop (Reading DecodeNote Int) α) : Option α :=
  match run with
  | .ok result _ => some result
  | .error _ _ => none

theorem threeRules_decode : ∃ after, crushDecode ⟨threeRules, threeRules.length⟩ (decodeStart []) =
    .ok (some threeRulesMap) after := by
  have decodes : resultOf (crushDecode ⟨threeRules, threeRules.length⟩ (decodeStart [])) = some (some threeRulesMap) := by
    decide +kernel
  generalize crushDecode ⟨threeRules, threeRules.length⟩ (decodeStart []) = run at decodes ⊢
  cases run with
  | ok result after =>
    cases decodes
    exact ⟨after, rfl⟩
  | error reason after => cases decodes

def threeRulesInput : RuleInput := ⟨threeRulesMap, 7, 1, [0x10000], 1⟩

instance (input : RuleInput) (step : RuleStep) (state : RuleState) : Decidable (Roomy input step state) :=
  inferInstanceAs (Decidable (_ ≤ _))

set_option maxRecDepth 4096 in
theorem crushDoRule_inside_plain :
    StaysInside threeRulesInput (crushDoRule threeRulesInput 4 2 [0, 0, 0] (freshPerms threeRulesMap)) := by
  have roomy : ∀ entry ∈ evaluated threeRulesInput 4 2 [0, 0, 0] (freshPerms threeRulesMap), entry.1.Chooses →
      Roomy threeRulesInput entry.1 entry.2 := by decide +kernel
  have inside := @crushDoRule_inside threeRulesInput [0, 0, 0] (by decide) (by decide) 4 2 (freshPerms threeRulesMap)
  exact inside.1 roomy

/-- The second position of a vector for one result is written. -/
theorem crushDoRule_outside :
    ¬ ∀ memory allocs map after, crushDecode ⟨memory, memory.length⟩ (decodeStart allocs) = .ok (some map) after →
      ∀ (x : UInt32) (weight : List UInt32) (resultMax : Nat), 0 < resultMax → resultMax ≤ 16 →
        ∀ scratch : List Int, 3 * resultMax ≤ scratch.length → ∀ (bound : Nat) (ruleno : Int) (perms : Perms),
          perms.Fit map → StaysInside ⟨map, x, resultMax, weight, weight.length⟩
            (crushDoRule ⟨map, x, resultMax, weight, weight.length⟩ bound ruleno scratch perms) := by
  intro claimed
  obtain ⟨after, decoded⟩ := threeRules_decode
  have inside := claimed threeRules [] threeRulesMap after decoded 7 [0x10000] 1 (by decide) (by decide) [0, 0, 0]
    (by decide) 1 0 (freshPerms threeRulesMap) (freshPerms_fit threeRulesMap)
  have ran : crushDoRule ⟨threeRulesMap, 7, 1, [0x10000], [(0x10000 : UInt32)].length⟩ 1 0 [0, 0, 0]
      (freshPerms threeRulesMap) = .error .scratch := rfl
  exact Avoids.error inside ran rfl

end KmodCeph.Crush
