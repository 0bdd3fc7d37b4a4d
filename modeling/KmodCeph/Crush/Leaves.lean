import KmodCeph.Crush.Positions

namespace KmodCeph.Crush

open Lib List

/-- The positions and their leaves, as `crush_choose_indep` has found them. -/
structure Leaves (args : IndepArgs) (outpos endpos : Nat) (out out2 : List Int) : Prop where
  agree : ∀ i, outpos ≤ i → i < endpos → ∃ item leaf, out[i]? = some item ∧ out2[i]? = some leaf ∧
    (leaf = crushItemNone ↔ item = crushItemNone) ∧ (item ≠ crushItemNone → Serves args item leaf)
  distinct : ∀ i j leaf, outpos ≤ i → i < endpos → outpos ≤ j → j < endpos → out2[i]? = some leaf →
    out2[j]? = some leaf → leaf ≠ crushItemNone → i = j

/-- No try of a position draws a device that is out. A device with the number of
the marker `CRUSH_ITEM_UNDEF` counts as taken from the start. -/
def Unrejected (args : IndepArgs) (bound : Nat) (root : Int) (outpos endpos : Nat) : Prop :=
  ∀ rep f device, outpos ≤ rep → rep < endpos → f < args.tries.toNat →
    Draws args bound rep (UInt32.ofNat f) root (some device) → device ≠ crushItemUndef →
    isOut args.weight args.weightMax device args.x = .ok false

section

variable {args : IndepArgs} {rank : Int → Nat} {bound : Nat} {root : Int}

theorem Chosen.serves {item device : Int} (wellFormed : args.map.WellFormed) {nested : IndepArgs}
    (map : nested.map = args.map) (weight : nested.weight = args.weight)
    (weightMax : nested.weightMax = args.weightMax) (x : nested.x = args.x) (type : nested.type = 0)
    (negative : item < 0) (chosen : Chosen nested (bucketSlot item) device) : Serves args item device := by
  have reached := chosen.reached
  have typed := chosen.typed
  have isIn := chosen.isIn type
  rw [map] at reached typed
  rw [type] at typed
  rw [weight, weightMax, x] at isIn
  exact ⟨device_of_itemType_zero wellFormed typed, chosen.defined, chosen.present, isIn, .inr ⟨negative, reached.toBelow⟩⟩

end

theorem undef_ne_none : crushItemUndef ≠ crushItemNone := by decide

/-- What the loops maintain of the two vectors together. -/
def Paired (args : IndepArgs) (outpos endpos : Nat) (state : Indep) : Prop :=
  ∀ out2, state.out2 = some out2 → ∀ i item leaf, outpos ≤ i → i < endpos → state.out[i]? = some item →
    out2[i]? = some leaf → (item = crushItemUndef → leaf = crushItemUndef ∨ leaf = crushItemNone) ∧
      (item = crushItemNone → leaf = crushItemNone) ∧
      (item ≠ crushItemUndef → item ≠ crushItemNone → Serves args item leaf)

section

variable {args : IndepArgs} {rank : Int → Nat} {bound outpos endpos rep : Nat} {root : Int} {ftotal : UInt32}
variable {before after : Indep}

theorem Paired.put (paired : Paired args outpos endpos before) {out2 : List Int} (second : before.out2 = some out2)
    {item leaf : Int} (inside : rep < before.out.length) (inside2 : rep < out2.length)
    (out : after.out = before.out.set rep item) (changed : after.out2 = some (out2.set rep leaf))
    (holds : (item = crushItemUndef → leaf = crushItemUndef ∨ leaf = crushItemNone) ∧
      (item = crushItemNone → leaf = crushItemNone) ∧
      (item ≠ crushItemUndef → item ≠ crushItemNone → Serves args item leaf)) :
    Paired args outpos endpos after := by
  intro values held i item' leaf' lower upper found found2
  rw [changed] at held
  cases held
  rw [out] at found
  by_cases same : i = rep
  · subst same
    rw [getElem?_set_self inside] at found
    rw [getElem?_set_self inside2] at found2
    cases found
    cases found2
    exact holds
  · rw [getElem?_set_ne (Ne.symm same)] at found found2
    exact paired out2 second i item' leaf' lower upper found found2

theorem set_undefined {out : List Int} (undefined : out[rep]? = some crushItemUndef) :
    out = out.set rep crushItemUndef := by
  obtain ⟨inside, same⟩ := List.getElem?_eq_some_iff.mp undefined
  rw [← same, set_getElem_self]

/-- A search keeps the vectors paired unless it rejects a device. -/
theorem Paired.outcome (sound : args.Sound) (paired : Paired args outpos endpos before)
    (ready : before.Ready args true rep) (lower : outpos ≤ rep) (upper : rep < endpos)
    (undefined : before.out[rep]? = some crushItemUndef)
    (isIn : ∀ item, args.type = 0 → Drawn args bound root outpos endpos rep ftotal before.out item →
      isOut args.weight args.weightMax item args.x = .ok false)
    (outcome : Outcome args true bound root outpos endpos rep ftotal before after) :
    Paired args outpos endpos after := by
  obtain ⟨out2, second⟩ := Option.ne_none_iff_exists'.mp (ready.second rfl)
  have inside2 := ready.out2 out2 second
  have changed : ∀ leaf : Int, before.out2.map (·.set rep leaf) = some (out2.set rep leaf) := by
    intro leaf
    rw [second]
    rfl
  cases outcome with
  | empty follow drew => exact paired
  | collided follow drew taken => exact paired
  | @barren perms item held follow drawn looks bucket has =>
    rw [second] at has
    cases has
    exact paired.put second ready.out inside2 (set_undefined undefined) rfl
      ⟨fun _ => .inr rfl, fun _ => rfl, fun defined => absurd rfl defined⟩
  | @rejected perms item follow drawn device isOut =>
    rw [isIn item device drawn] at isOut
    cases isOut
  | dead follow other =>
    exact paired.put second ready.out inside2 rfl (changed crushItemNone)
      ⟨fun same => absurd same.symm undef_ne_none, fun _ => rfl, fun _ present => absurd rfl present⟩
  | @placed perms item device follow drawn isIn serves itself =>
    have chosen := drawn.chosen sound lower upper undefined isIn
    exact paired.put second ready.out inside2 rfl (changed device)
      ⟨fun same => absurd same chosen.defined, fun same => absurd same chosen.present, fun _ _ => serves rfl⟩

theorem Serves.item_eq (sound : args.Sound) {item other device : Int} (serves : Serves args item device)
    (serves' : Serves args other device) (chosen : Chosen args root item) (chosen' : Chosen args root other) :
    item = other := by
  have wellFormed := sound.map.wellFormed
  have nonneg := serves.nonneg
  by_cases devices : args.type = 0
  · have typed := chosen.typed
    have typed' := chosen'.typed
    rw [devices] at typed typed'
    have device₁ := device_of_itemType_zero wellFormed typed
    have device₂ := device_of_itemType_zero wellFormed typed'
    have itself := serves.inside
    have itself' := serves'.inside
    lia
  · obtain ⟨negative, -⟩ := bucket_of_itemType_ne_zero chosen.typed devices
    obtain ⟨negative', -⟩ := bucket_of_itemType_ne_zero chosen'.typed devices
    have below : Below args.map (bucketSlot item) device := by
      rcases serves.inside with same | ⟨-, below⟩
      · omega
      · exact below
    have below' : Below args.map (bucketSlot other) device := by
      rcases serves'.inside with same | ⟨-, below⟩
      · omega
      · exact below
    rcases below.chain wellFormed below' with same | above | above
    · unfold bucketSlot at same
      omega
    · rw [bucketSlot_bucketSlot] at above
      exact absurd above
        (chosen'.reached.not_between wellFormed negative chosen.reached.toBelow chosen.typed)
    · rw [bucketSlot_bucketSlot] at above
      exact absurd above
        (chosen.reached.not_between wellFormed negative' chosen'.reached.toBelow chosen'.typed)

/-- What is returned where the vectors are paired. -/
theorem Paired.leaves (sound : args.Sound) {state : Indep} {out : List Int}
    {result : List Int × Option (List Int) × Perms} {leaves : List Int}
    (paired : Paired args outpos endpos state)
    (filled : Filled args root outpos endpos out result.1) (room : state.Room true endpos)
    (settles : Resolved outpos endpos state result) (returned : result.2.1 = some leaves) : Leaves args outpos endpos result.1 leaves := by
  obtain ⟨second, after, held, returned', settled2⟩ : ∃ second after, state.out2 = some second ∧
      result.2.1 = some after ∧ Rewritten outpos endpos
        (fun i value => ∃ item, second[i]? = some item ∧ value = settled item) second after := by
    rcases settles.out2 with ⟨-, missing⟩ | given
    · rw [missing] at returned
      cases returned
    · exact given
  rw [returned'] at returned
  cases returned
  have agree : ∀ i item leaf, outpos ≤ i → i < endpos → result.1[i]? = some item → leaves[i]? = some leaf →
      (leaf = crushItemNone ↔ item = crushItemNone) ∧ (item ≠ crushItemNone → Serves args item leaf) := by
    intro i item leaf lower upper found found2
    obtain ⟨was, wasFound, rfl⟩ := settles.out.inside i item lower upper found
    obtain ⟨was2, wasFound2, rfl⟩ := settled2.inside i leaf lower upper found2
    obtain ⟨undefined, nothing, served⟩ := paired second held i was was2 lower upper wasFound wasFound2
    by_cases isUndefined : was = crushItemUndef
    · have none : settled was = crushItemNone := if_pos isUndefined
      have none2 : settled was2 = crushItemNone := by
        rcases undefined isUndefined with rfl | rfl
        · exact if_pos rfl
        · exact if_neg undef_ne_none.symm
      exact ⟨iff_of_true none2 none, fun present => absurd none present⟩
    · have same : settled was = was := if_neg isUndefined
      rw [same]
      by_cases isNone : was = crushItemNone
      · have none2 : settled was2 = crushItemNone := by
          rw [nothing isNone]
          exact if_neg undef_ne_none.symm
        exact ⟨iff_of_true none2 isNone, fun present => absurd isNone present⟩
      · have serves := served isUndefined isNone
        have same2 : settled was2 = was2 := if_neg serves.defined
        rw [same2]
        exact ⟨iff_of_false serves.present isNone, fun _ => serves⟩
  have bounds : endpos ≤ result.1.length ∧ endpos ≤ leaves.length := by
    rw [settles.out.length, settled2.length]
    exact ⟨room.out, room.out2 second held⟩
  refine ⟨fun i lower upper => ?_, fun i j leaf lower₁ upper₁ lower₂ upper₂ found₁ found₂ present => ?_⟩
  · have inside : i < result.1.length := by omega
    have inside2 : i < leaves.length := by omega
    exact ⟨_, _, getElem?_eq_getElem inside, getElem?_eq_getElem inside2,
      agree i _ _ lower upper (getElem?_eq_getElem inside) (getElem?_eq_getElem inside2)⟩
  have holds : ∀ k, outpos ≤ k → k < endpos → leaves[k]? = some leaf →
      ∃ item, result.1[k]? = some item ∧ item ≠ crushItemNone ∧ Serves args item leaf ∧ Chosen args root item := by
    intro k lower upper found
    have inside : k < result.1.length := by omega
    obtain ⟨marks, served⟩ := agree k _ leaf lower upper (getElem?_eq_getElem inside) found
    have isItem : result.1[k] ≠ crushItemNone := fun none => present (marks.mpr none)
    refine ⟨_, getElem?_eq_getElem inside, isItem, served isItem, ?_⟩
    exact (filled.entries k _ lower upper (getElem?_eq_getElem inside)).resolve_left isItem
  obtain ⟨item₁, stored₁, isItem₁, serves₁, chosen₁⟩ := holds i lower₁ upper₁ found₁
  obtain ⟨item₂, stored₂, -, serves₂, chosen₂⟩ := holds j lower₂ upper₂ found₂
  obtain rfl := serves₁.item_eq sound serves₂ chosen₁ chosen₂
  exact filled.distinct i j item₁ lower₁ upper₁ lower₂ upper₂ stored₁ stored₂ isItem₁

end

structure Sheltering (args : IndepArgs) (root : Int) (outpos endpos : Nat) (first state : Indep) : Prop where
  filling : Filling args root outpos endpos first state
  paired : Paired args outpos endpos state

section

variable {args : IndepArgs} {rank : Int → Nat} {bound outpos left : Nat} {root : Int} {bucket : Bucket}
variable {first : Indep} {out out2 : List Int} {perms : Perms}

/-- `f` tries are made before a round, and `count` are left. -/
theorem Sheltering.carries {endpos : Nat} (sound : args.Sound)
    (unrejected : args.type = 0 → Unrejected args bound root outpos endpos) (room : first.Room true endpos) :
    Carries args true bound root outpos endpos
      (fun count ftotal state => (∃ f, f + count = args.tries.toNat ∧ ftotal = UInt32.ofNat f) ∧
        Sheltering args root outpos endpos first state)
      (fun count ftotal _ state => (∃ f, f + (count + 1) = args.tries.toNat ∧ ftotal = UInt32.ofNat f) ∧
        Sheltering args root outpos endpos first state) where
  enter holds _ := holds
  again := by
    rintro count ftotal state ⟨⟨f, tries, same⟩, sheltering⟩
    refine ⟨⟨f + 1, by lia, ?_⟩, sheltering⟩
    rw [same, UInt32.ofNat_add]
    rfl
  skip holds _ _ _ _ := holds
  search := by
    rintro count ftotal rep before after ⟨⟨f, tries, rfl⟩, sheltering⟩ lower upper undefined outcome
    refine ⟨⟨f, tries, rfl⟩, sheltering.filling.outcome sound lower upper undefined outcome, ?_⟩
    refine sheltering.paired.outcome sound (sheltering.filling.ready room upper) lower upper undefined
      (fun item devices drawn => ?_) outcome
    refine unrejected devices rep f item lower upper (by omega) drawn.draws ?_
    rintro rfl
    exact drawn.fresh (mem_window.mpr ⟨rep, lower, upper, undefined⟩)
  ready holds _ upper := holds.2.filling.ready room upper

theorem Opened.paired (opened : Opened outpos (outpos + left) out (some out2) perms first) :
    Paired args outpos (outpos + left) first := by
  intro second held i item leaf lower upper found found2
  have undefined := opened.out.inside i item lower upper found
  refine ⟨fun _ => .inl ?_, fun none => absurd (undefined.symm.trans none) undef_ne_none,
    fun defined => absurd undefined defined⟩
  rcases opened.out2 with ⟨absent, -⟩ | ⟨original, filled, -, same, rewritten⟩
  · cases absent
  · rw [held] at same
    cases same
    exact rewritten.inside i leaf lower upper found2

end

/-- Every device that a bucket of the map draws for `x` is in. The number of
the marker `CRUSH_ITEM_UNDEF` is never taken for a device that is drawn. -/
def DrawsIn (map : CrushMap) (weight : List UInt32) (x : UInt32) : Prop :=
  ∀ slot bucket, map.bucketAt slot = .ok bucket → bucket.size ≠ 0 → ∀ r device,
    bucket.pick 256 x r = .ok device → 0 ≤ device → device ≠ crushItemUndef →
    isOut weight weight.length device x = .ok false

section

variable {map : CrushMap} {weight : List UInt32} {x : UInt32} {args : IndepArgs} {bound : Nat}

theorem DrawsIn.unrejected (drawsIn : DrawsIn args.map args.weight args.x) (sound : args.Sound) (enough : 256 ≤ bound)
    (devices : args.type = 0) (root : Int) (outpos endpos : Nat) : Unrejected args bound root outpos endpos := by
  have wellFormed := sound.map.wellFormed
  intro rep f device _ _ _ draws defined
  generalize result : some device = drawn at draws
  induction draws with
  | empty => cases result
  | @wanted slot item bucket located nonempty picked typed =>
    cases result
    rw [devices] at typed
    have nonneg := device_of_itemType_zero wellFormed typed
    have nodes := bucket.numNodes.toNat_lt
    obtain ⟨⟨other, cache⟩, -, few, -⟩ := @crushBucketChoose_follows bucket _ args.x
      (indepR args bucket rep (UInt32.ofNat f)) (wellFormed.allocated _ _ located) (sound.map.trees _ _ located) .fresh
      nonempty 256 (by omega)
    have many := Bucket.pick_mono enough few
    rw [picked] at many
    cases many
    rw [← sound.weights]
    exact drawsIn slot bucket located nonempty _ _ few nonneg defined
  | deeper _ _ _ _ _ _ _ ih => exact ih result

end

end KmodCeph.Crush
