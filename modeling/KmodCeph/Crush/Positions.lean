import KmodCeph.Crush.Draws

namespace KmodCeph.Crush

open Lib List

/-- Where the loops of `crush_choose_indep` test whether to go on: before a
round of tries, before a position of the round, and in a bucket on the way down.
`count` tries and `remaining` positions are left after the current one. -/
inductive Head where
  | round (count : Nat) (ftotal : UInt32) (state : Indep)
  | position (count : Nat) (ftotal : UInt32) (remaining rep : Nat) (state : Indep)
  | bucket (count : Nat) (ftotal : UInt32) (remaining rep : Nat) (slot : Int) (state : Indep)

def Head.state : Head → Indep
  | .round _ _ state => state
  | .position _ _ _ _ state => state
  | .bucket _ _ _ _ _ state => state

inductive Heads (args : IndepArgs) (leaf : Option IndepLeafCall) (bound : Nat) (root : Int) (outpos endpos : Nat)
    (first : Indep) : Head → Prop where
  | start : Heads args leaf bound root outpos endpos first (.round args.tries.toNat 0 first)
  | enter {count : Nat} {ftotal : UInt32} {state : Indep}
      (reached : Heads args leaf bound root outpos endpos first (.round (count + 1) ftotal state))
      (more : ¬ state.left ≤ 0) :
      Heads args leaf bound root outpos endpos first (.position count ftotal (endpos - outpos) outpos state)
  | again {count rep : Nat} {ftotal : UInt32} {state : Indep}
      (reached : Heads args leaf bound root outpos endpos first (.position count ftotal 0 rep state)) :
      Heads args leaf bound root outpos endpos first (.round count (ftotal + 1) state)
  | skip {count remaining rep : Nat} {ftotal : UInt32} {state : Indep} {current : Int}
      (reached : Heads args leaf bound root outpos endpos first (.position count ftotal (remaining + 1) rep state))
      (read : readAt Fault.scratch state.out rep = .ok current) (settled : current ≠ crushItemUndef) :
      Heads args leaf bound root outpos endpos first (.position count ftotal remaining (rep + 1) state)
  | search {count remaining rep : Nat} {ftotal : UInt32} {state : Indep}
      (reached : Heads args leaf bound root outpos endpos first (.position count ftotal (remaining + 1) rep state))
      (read : readAt Fault.scratch state.out rep = .ok crushItemUndef) :
      Heads args leaf bound root outpos endpos first (.bucket count ftotal remaining rep root state)
  | descend {count remaining rep : Nat} {ftotal : UInt32} {slot below : Int} {state after : Indep}
      (reached : Heads args leaf bound root outpos endpos first (.bucket count ftotal remaining rep slot state))
      (ran : indepPass args leaf bound rep outpos endpos ftotal (slot, state) = .ok (.again (below, after))) :
      Heads args leaf bound root outpos endpos first (.bucket count ftotal remaining rep below after)
  | leave {count remaining rep : Nat} {ftotal : UInt32} {slot : Int} {state after : Indep}
      (reached : Heads args leaf bound root outpos endpos first (.bucket count ftotal remaining rep slot state))
      (ran : indepPass args leaf bound rep outpos endpos ftotal (slot, state) = .ok (.done after)) :
      Heads args leaf bound root outpos endpos first (.position count ftotal remaining (rep + 1) after)

structure Carries (args : IndepArgs) (leafing : Bool) (bound : Nat) (root : Int) (outpos endpos : Nat)
    (atRound : Nat → UInt32 → Indep → Prop) (atPosition : Nat → UInt32 → Nat → Indep → Prop) : Prop where
  enter : ∀ {count ftotal state}, atRound (count + 1) ftotal state → ¬ state.left ≤ 0 →
    atPosition count ftotal outpos state
  again : ∀ {count ftotal state}, atPosition count ftotal endpos state → atRound count (ftotal + 1) state
  skip : ∀ {count ftotal rep state current}, atPosition count ftotal rep state → outpos ≤ rep → rep < endpos →
    state.out[rep]? = some current → current ≠ crushItemUndef → atPosition count ftotal (rep + 1) state
  search : ∀ {count ftotal rep before after}, atPosition count ftotal rep before → outpos ≤ rep → rep < endpos →
    before.out[rep]? = some crushItemUndef →
    Outcome args leafing bound root outpos endpos rep ftotal before after → atPosition count ftotal (rep + 1) after
  ready : ∀ {count ftotal rep state}, atPosition count ftotal rep state → outpos ≤ rep → rep < endpos →
    state.Ready args leafing rep

def Head.Holds (args : IndepArgs) (bound : Nat) (root : Int) (outpos endpos : Nat)
    (atRound : Nat → UInt32 → Indep → Prop) (atPosition : Nat → UInt32 → Nat → Indep → Prop) : Head → Prop
  | .round count ftotal state => atRound count ftotal state
  | .position count ftotal remaining rep state =>
    outpos ≤ rep ∧ rep + remaining = endpos ∧ atPosition count ftotal rep state
  | .bucket count ftotal remaining rep slot state =>
    outpos ≤ rep ∧ rep + (remaining + 1) = endpos ∧ ∃ before, atPosition count ftotal rep before ∧
      before.out[rep]? = some crushItemUndef ∧ Descending args bound root rep ftotal before slot state

theorem readAt_eq_ok_iff {ε α : Type} {fault : ε} {values : List α} {index : Nat} {value : α} :
    readAt fault values index = .ok value ↔ values[index]? = some value := by
  unfold readAt
  split
  next stored => simp [stored]
  next missing => simp [missing]

section

variable {args : IndepArgs} {rank : Int → Nat} {leaf : Option IndepLeafCall} {bound outpos endpos : Nat}
variable {root : Int} {first : Indep} {bucket : Bucket}
variable {atRound : Nat → UInt32 → Indep → Prop} {atPosition : Nat → UInt32 → Nat → Indep → Prop}

theorem Descending.start (located : args.map.bucketAt root = .ok bucket) {rep : Nat} {ftotal : UInt32}
    {state : Indep} (follow : state.perms.Follow args.map) :
    Descending args bound root rep ftotal state root state :=
  ⟨⟨bucket, located⟩, .inl rfl, rfl, follow, fun _ draws => draws⟩

section

variable (sound : args.Sound) (ranks : args.map.Ranks rank)
include sound ranks

theorem Heads.holds (enough : 256 ≤ bound) (places : ∀ call, leaf = some call → call.Places args root)
    (located : args.map.bucketAt root = .ok bucket) (ordered : outpos ≤ endpos)
    (carries : Carries args leaf.isSome bound root outpos endpos atRound atPosition)
    (initially : atRound args.tries.toNat 0 first) {head : Head}
    (reached : Heads args leaf bound root outpos endpos first head) :
    head.Holds args bound root outpos endpos atRound atPosition := by
  induction reached with
  | start => exact initially
  | enter reached more ih => exact ⟨le_rfl, by lia, carries.enter ih more⟩
  | @again count rep ftotal state reached ih =>
    obtain ⟨later, filled, holds⟩ := ih
    obtain rfl : rep = endpos := by omega
    exact carries.again holds
  | @skip count remaining rep ftotal state current reached read settled ih =>
    obtain ⟨later, filled, holds⟩ := ih
    exact ⟨by omega, by lia,
      carries.skip holds later (by omega) (readAt_eq_ok_iff.mp read) settled⟩
  | @search count remaining rep ftotal state reached read ih =>
    obtain ⟨later, filled, holds⟩ := ih
    have ready := carries.ready holds later (by omega)
    exact ⟨later, filled, state, holds, readAt_eq_ok_iff.mp read, .start located ready.perms⟩
  | @descend count remaining rep ftotal slot below state after reached ran ih =>
    obtain ⟨later, filled, before, holds, undefined, descending⟩ := ih
    have ready := carries.ready holds later (by omega)
    have upper : rep < endpos := by omega
    have passed :=
      (indepPass_returns sound ranks enough places ready later upper undefined descending).of_ok ran
    exact ⟨later, filled, before, holds, undefined, passed.2⟩
  | @leave count remaining rep ftotal slot state after reached ran ih =>
    obtain ⟨later, filled, before, holds, undefined, descending⟩ := ih
    have ready := carries.ready holds later (by omega)
    have upper : rep < endpos := by omega
    have outcome :=
      (indepPass_returns sound ranks enough places ready later upper undefined descending).of_ok ran
    exact ⟨by omega, by lia, carries.search holds later (by omega) undefined outcome⟩

variable {count remaining rep : Nat} {ftotal : UInt32} {state : Indep}

theorem indepSearch_reaches (enough : rank root + 256 ≤ bound)
    (places : ∀ call, leaf = some call → call.Places args root)
    (located : args.map.bucketAt root = .ok bucket) (ordered : outpos ≤ endpos)
    (carries : Carries args leaf.isSome bound root outpos endpos atRound atPosition)
    (initially : atRound args.tries.toNat 0 first)
    (reached : Heads args leaf bound root outpos endpos first (.bucket count ftotal remaining rep root state)) :
    Returns (loop .exhausted (indepPass args leaf bound rep outpos endpos ftotal) bound (root, state)) fun after =>
      Heads args leaf bound root outpos endpos first (.position count ftotal remaining (rep + 1) after) := by
  refine Returns.loop
    (fun variant (current : Int × Indep) => variant = rank current.1 ∧
      Heads args leaf bound root outpos endpos first
        (.bucket count ftotal remaining rep current.1 current.2))
    (fun variant current holds => ?_) (show rank root < bound by omega) ⟨rfl, reached⟩
  obtain ⟨rfl, reached⟩ := holds
  obtain ⟨later, filled, before, holds, undefined, descending⟩ :=
    reached.holds sound ranks (by omega) places located ordered carries initially
  have ready := carries.ready holds later (by omega)
  have upper : rep < endpos := by omega
  obtain ⟨next, ran, passed⟩ :=
    indepPass_returns sound ranks (by omega) places ready later upper undefined descending
  refine ⟨next, ran, ?_⟩
  cases next with
  | again after => exact ⟨_, passed.1, rfl, .descend reached ran⟩
  | done after => exact .leave reached ran

theorem indepRound_reaches (enough : rank root + 256 ≤ bound)
    (places : ∀ call, leaf = some call → call.Places args root)
    (located : args.map.bucketAt root = .ok bucket) (ordered : outpos ≤ endpos)
    (carries : Carries args leaf.isSome bound root outpos endpos atRound atPosition)
    (initially : atRound args.tries.toNat 0 first)
    (reached : Heads args leaf bound root outpos endpos first (.position count ftotal remaining rep state)) :
    Returns (indepRound args leaf bound root outpos endpos ftotal remaining rep state) fun after =>
      Heads args leaf bound root outpos endpos first (.position count ftotal 0 (rep + remaining) after) := by
  induction remaining generalizing rep state with
  | zero => exact Returns.pure reached
  | succ remaining ih =>
    obtain ⟨later, filled, holds⟩ := reached.holds sound ranks (by omega) places located ordered carries initially
    have ready := carries.ready holds later (by omega)
    have inside := ready.out
    have read : readAt Fault.scratch state.out rep = .ok state.out[rep] := readAt_eq_ok inside
    have next : rep + (remaining + 1) = rep + 1 + remaining := by omega
    rw [indepRound, read, next]
    simp only [bind, Except.bind]
    split
    next settled => exact ih (.skip reached read settled)
    next undefined =>
      rw [not_not.mp undefined] at read
      exact Returns.bind (indepSearch_reaches sound ranks enough places located ordered carries initially
        (.search reached read)) fun after left => ih left

theorem indepRounds_reaches (enough : rank root + 256 ≤ bound)
    (places : ∀ call, leaf = some call → call.Places args root)
    (located : args.map.bucketAt root = .ok bucket) (ordered : outpos ≤ endpos)
    (carries : Carries args leaf.isSome bound root outpos endpos atRound atPosition)
    (initially : atRound args.tries.toNat 0 first)
    (reached : Heads args leaf bound root outpos endpos first (.round count ftotal state)) :
    Returns (indepRounds args leaf bound root outpos endpos count ftotal state) fun after =>
      ∃ unused ftotal, atRound unused ftotal after ∧ (after.left ≤ 0 ∨ unused = 0) := by
  induction count generalizing ftotal state with
  | zero =>
    have holds := reached.holds sound ranks (by omega) places located ordered carries initially
    exact Returns.pure ⟨0, ftotal, holds, .inr rfl⟩
  | succ count ih =>
    rw [indepRounds]
    split
    next settled =>
      have holds := reached.holds sound ranks (by omega) places located ordered carries initially
      exact Returns.pure ⟨count + 1, ftotal, holds, .inl settled⟩
    next more =>
      exact Returns.bind (indepRound_reaches sound ranks enough places located ordered carries initially
        (.enter reached more)) fun after left => ih (.again left)

end

end

def settled (item : Int) : Int := if item = crushItemUndef then crushItemNone else item

structure Rewritten (outpos endpos : Nat) (holds : Nat → Int → Prop) (before after : List Int) : Prop where
  length : after.length = before.length
  frame : ∀ i, i < outpos ∨ endpos ≤ i → after[i]? = before[i]?
  inside : ∀ i item, outpos ≤ i → i < endpos → after[i]? = some item → holds i item

theorem fillPositions_returns {item : Int} {count rep : Nat} {out : List Int} (room : rep + count ≤ out.length) :
    Returns (fillPositions item count rep out) (Rewritten rep (rep + count) (fun _ value => value = item) out) := by
  induction count generalizing rep out with
  | zero => exact Returns.pure ⟨rfl, fun _ _ => rfl, fun i _ lower upper => by omega⟩
  | succ count ih =>
    rw [fillPositions, writeAt_eq_ok (by omega)]
    refine (ih (by rw [length_set]; omega)).mono fun after holds => ?_
    refine ⟨holds.length.trans length_set, fun i outside => ?_, fun i value lower upper stored => ?_⟩
    · rw [holds.frame i (by omega), getElem?_set_ne (by omega)]
    · by_cases same : i = rep
      · subst same
        rw [holds.frame i (by omega), getElem?_set_self (by omega)] at stored
        exact (Option.some.inj stored).symm
      · exact holds.inside i value (by omega) (by omega) stored

theorem settlePositions_returns {count rep : Nat} {out : List Int} (room : rep + count ≤ out.length) :
    Returns (settlePositions count rep out)
      (Rewritten rep (rep + count) (fun i value => ∃ item, out[i]? = some item ∧ value = settled item) out) := by
  induction count generalizing rep out with
  | zero => exact Returns.pure ⟨rfl, fun _ _ => rfl, fun i _ lower upper => by omega⟩
  | succ count ih =>
    have inside : rep < out.length := by omega
    have rest : Returns (settlePositions count (rep + 1) (out.set rep (settled out[rep])))
        (Rewritten rep (rep + (count + 1)) (fun i value => ∃ item, out[i]? = some item ∧ value = settled item)
          out) := by
      refine (ih (by rw [length_set]; omega)).mono fun after holds => ?_
      refine ⟨holds.length.trans length_set, fun i outside => ?_, fun i value lower upper stored => ?_⟩
      · rw [holds.frame i (by omega), getElem?_set_ne (by omega)]
      · by_cases same : i = rep
        · subst same
          rw [holds.frame i (by omega), getElem?_set_self inside] at stored
          exact ⟨out[i], getElem?_eq_getElem inside, (Option.some.inj stored).symm⟩
        · obtain ⟨item, found, kept⟩ := holds.inside i value (by omega) (by omega) stored
          rw [getElem?_set_ne (Ne.symm same)] at found
          exact ⟨item, found, kept⟩
    rw [settlePositions, readAt_eq_ok inside]
    simp only [bind, Except.bind]
    split
    next undefined =>
      have none : settled out[rep] = crushItemNone := if_pos undefined
      rw [none] at rest
      rw [writeAt_eq_ok inside]
      exact rest
    next defined =>
      have same : settled out[rep] = out[rep] := if_neg defined
      rw [same, set_getElem_self] at rest
      exact rest

theorem onOut2_returns {out2 : Option (List Int)} {fill : List Int → Except Fault (List Int)}
    {post : List Int → List Int → Prop} (fills : ∀ second, out2 = some second → Returns (fill second) (post second)) :
    Returns (onOut2 out2 fill) fun after =>
      (out2 = none ∧ after = none) ∨ ∃ second filled, out2 = some second ∧ after = some filled ∧ post second filled := by
  cases out2 with
  | none => exact Returns.pure (.inl ⟨rfl, rfl⟩)
  | some second =>
    obtain ⟨filled, ran, holds⟩ := fills second rfl
    simp only [onOut2, ran]
    exact Returns.pure (.inr ⟨second, filled, rfl, rfl, holds⟩)

section

variable {outpos endpos rep : Nat} {out : List Int}

theorem window_set (lower : outpos ≤ rep) (item : Int) :
    window outpos endpos (out.set rep item) = (window outpos endpos out).set (rep - outpos) item := by
  rw [window, window, take_set, drop_set, if_neg (by omega)]

theorem window_count_set (lower : outpos ≤ rep) (upper : rep < endpos) (undefined : out[rep]? = some crushItemUndef)
    {item : Int} (defined : item ≠ crushItemUndef) :
    (window outpos endpos out).count crushItemUndef =
      (window outpos endpos (out.set rep item)).count crushItemUndef + 1 := by
  have stored : (window outpos endpos out)[rep - outpos]? = some crushItemUndef := by
    rw [window, getElem?_drop, getElem?_take, if_pos (by omega), Nat.add_sub_cancel' lower]
    exact undefined
  obtain ⟨inside, same⟩ := List.getElem?_eq_some_iff.mp stored
  have positive : 0 < (window outpos endpos out).count crushItemUndef := by
    rw [count_pos_iff, ← same]
    exact getElem_mem inside
  rw [window_set lower, count_set inside, same]
  lia

end

structure Chosen (args : IndepArgs) (root item : Int) : Prop where
  reached : Descends args.map args.type root item
  typed : args.map.itemType item = .ok args.type
  isIn : args.type = 0 → isOut args.weight args.weightMax item args.x = .ok false
  defined : item ≠ crushItemUndef
  present : item ≠ crushItemNone

structure Indep.Room (first : Indep) (leafing : Bool) (endpos : Nat) : Prop where
  out : endpos ≤ first.out.length
  out2 : ∀ out2, first.out2 = some out2 → endpos ≤ out2.length
  second : leafing = true → first.out2 ≠ none

structure Filling (args : IndepArgs) (root : Int) (outpos endpos : Nat) (first state : Indep) : Prop where
  perms : state.perms.Follow args.map
  length : state.out.length = first.out.length
  frame : ∀ i, i < outpos ∨ endpos ≤ i → state.out[i]? = first.out[i]?
  second : state.out2.map List.length = first.out2.map List.length
  entries : ∀ i item, outpos ≤ i → i < endpos → state.out[i]? = some item →
    item = crushItemUndef ∨ item = crushItemNone ∨ Chosen args root item
  distinct : ∀ i j item, outpos ≤ i → i < endpos → outpos ≤ j → j < endpos → state.out[i]? = some item →
    state.out[j]? = some item → item ≠ crushItemUndef → item ≠ crushItemNone → i = j
  counted : state.left = (window outpos endpos state.out).count crushItemUndef

section

variable {args : IndepArgs} {leafing : Bool} {root : Int} {bound outpos endpos rep : Nat} {ftotal : UInt32}
variable {first before after : Indep}

theorem map_length_set (out2 : Option (List Int)) (item : Int) :
    (out2.map (·.set rep item)).map List.length = out2.map List.length := by
  cases out2 with
  | none => rfl
  | some values => exact congrArg some length_set

theorem Filling.ready (filling : Filling args root outpos endpos first before) (room : first.Room leafing endpos)
    (upper : rep < endpos) : before.Ready args leafing rep := by
  have length := filling.length
  have second := filling.second
  refine ⟨filling.perms, by have := room.out; omega, fun out2 held => ?_, fun looks missing => ?_⟩
  · rw [held] at second
    cases original : first.out2 with
    | none => rw [original] at second; cases second
    | some values =>
      rw [original] at second
      have same : out2.length = values.length := Option.some.inj second
      have enough := room.out2 values original
      omega
  · rw [missing] at second
    exact room.second looks (Option.map_eq_none_iff.mp second.symm)

theorem Filling.keep (filling : Filling args root outpos endpos first before) (out : after.out = before.out)
    (left : after.left = before.left) (perms : after.perms.Follow args.map)
    (second : after.out2.map List.length = before.out2.map List.length) :
    Filling args root outpos endpos first after := by
  refine ⟨perms, ?_, ?_, second.trans filling.second, ?_, ?_, ?_⟩
  · rw [out]
    exact filling.length
  · rw [out]
    exact filling.frame
  · rw [out]
    exact filling.entries
  · rw [out]
    exact filling.distinct
  · rw [out, left]
    exact filling.counted

theorem Filling.put (filling : Filling args root outpos endpos first before) (lower : outpos ≤ rep)
    (upper : rep < endpos) (undefined : before.out[rep]? = some crushItemUndef) {item : Int}
    (fits : item = crushItemNone ∨ Chosen args root item ∧ item ∉ window outpos endpos before.out)
    (out : after.out = before.out.set rep item) (left : after.left = before.left - 1)
    (perms : after.perms.Follow args.map)
    (second : after.out2.map List.length = before.out2.map List.length) :
    Filling args root outpos endpos first after := by
  obtain ⟨inside, -⟩ := List.getElem?_eq_some_iff.mp undefined
  have defined : item ≠ crushItemUndef := by
    rcases fits with rfl | ⟨chosen, -⟩
    · decide
    · exact chosen.defined
  have stored : ∀ i value, after.out[i]? = some value → i = rep ∧ value = item ∨ i ≠ rep ∧ before.out[i]? = some value := by
    intro i value found
    rw [out] at found
    by_cases same : i = rep
    · rw [same, getElem?_set_self inside] at found
      exact .inl ⟨same, (Option.some.inj found).symm⟩
    · rw [getElem?_set_ne (Ne.symm same)] at found
      exact .inr ⟨same, found⟩
  have apart : ∀ i, outpos ≤ i → i < endpos → before.out[i]? = some item → item ≠ crushItemNone → False := by
    intro i lower' upper' found present
    rcases fits with none | ⟨-, fresh⟩
    · exact present none
    · exact fresh (mem_window.mpr ⟨i, lower', upper', found⟩)
  refine ⟨perms, ?_, fun i outside => ?_, second.trans filling.second, fun i value lower' upper' found => ?_,
    fun i j value lower₁ upper₁ lower₂ upper₂ found₁ found₂ isDefined isPresent => ?_, ?_⟩
  · rw [out, length_set]
    exact filling.length
  · rw [out, getElem?_set_ne (by lia)]
    exact filling.frame i outside
  · rcases stored i value found with ⟨-, rfl⟩ | ⟨-, older⟩
    · rcases fits with none | ⟨chosen, -⟩
      · exact .inr (.inl none)
      · exact .inr (.inr chosen)
    · exact filling.entries i value lower' upper' older
  · rcases stored i value found₁ with ⟨rfl, rfl⟩ | ⟨differs₁, older₁⟩
    · rcases stored j value found₂ with ⟨rfl, -⟩ | ⟨-, older₂⟩
      · rfl
      · exact (apart j lower₂ upper₂ older₂ isPresent).elim
    · rcases stored j value found₂ with ⟨rfl, rfl⟩ | ⟨-, older₂⟩
      · exact (apart i lower₁ upper₁ older₁ isPresent).elim
      · exact filling.distinct i j value lower₁ upper₁ lower₂ upper₂ older₁ older₂ isDefined isPresent
  · have counted := filling.counted
    have fewer := window_count_set lower upper undefined defined
    lia

theorem Drawn.chosen (sound : args.Sound) (lower : outpos ≤ rep) (upper : rep < endpos)
    (undefined : before.out[rep]? = some crushItemUndef) {item : Int}
    (drawn : Drawn args bound root outpos endpos rep ftotal before.out item)
    (isIn : args.type = 0 → isOut args.weight args.weightMax item args.x = .ok false) : Chosen args root item := by
  refine ⟨drawn.reached, drawn.typed, isIn, fun same => ?_, fun same => ?_⟩
  · exact drawn.fresh (mem_window.mpr ⟨rep, lower, upper, same ▸ undefined⟩)
  · have range := sound.range
    have small := Descends.device_lt sound.map.wellFormed drawn.reached (by rw [same]; decide)
    rw [same] at small
    unfold crushItemNone at small
    omega

theorem Filling.outcome (sound : args.Sound) (filling : Filling args root outpos endpos first before)
    (lower : outpos ≤ rep) (upper : rep < endpos) (undefined : before.out[rep]? = some crushItemUndef)
    (outcome : Outcome args leafing bound root outpos endpos rep ftotal before after) :
    Filling args root outpos endpos first after := by
  cases outcome with
  | empty follow drew => exact filling.keep rfl rfl follow rfl
  | collided follow drew taken => exact filling.keep rfl rfl follow rfl
  | barren follow drawn looks bucket second =>
    refine filling.keep rfl rfl follow ?_
    rw [second]
    exact congrArg some length_set
  | rejected follow drawn device isOut =>
    refine filling.keep rfl rfl follow ?_
    split
    · exact map_length_set _ _
    · rfl
  | dead follow other =>
    exact filling.put lower upper undefined (.inl rfl) rfl rfl follow (map_length_set _ _)
  | placed follow drawn isIn serves itself =>
    refine filling.put lower upper undefined (.inr ⟨drawn.chosen sound lower upper undefined isIn, drawn.fresh⟩)
      rfl rfl follow ?_
    split
    · exact map_length_set _ _
    · rfl

theorem Filling.carries (sound : args.Sound) (room : first.Room leafing endpos) :
    Carries args leafing bound root outpos endpos (fun _ _ => Filling args root outpos endpos first)
      (fun _ _ _ => Filling args root outpos endpos first) where
  enter filling _ := filling
  again filling := filling
  skip filling _ _ _ _ := filling
  search filling lower upper undefined outcome := filling.outcome sound lower upper undefined outcome
  ready filling _ upper := filling.ready room upper

end

structure Opened (outpos endpos : Nat) (out : List Int) (out2 : Option (List Int)) (perms : Perms) (first : Indep) :
    Prop where
  left : first.left = (endpos - outpos : Nat)
  perms : first.perms = perms
  out : Rewritten outpos endpos (fun _ item => item = crushItemUndef) out first.out
  out2 : (out2 = none ∧ first.out2 = none) ∨ ∃ second filled, out2 = some second ∧ first.out2 = some filled ∧
    Rewritten outpos endpos (fun _ item => item = crushItemUndef) second filled

def IndepHeads (args : IndepArgs) (leaf : Option IndepLeafCall) (bound : Nat) (root : Int) (left outpos : Nat)
    (out : List Int) (out2 : Option (List Int)) (perms : Perms) (head : Head) : Prop :=
  ∃ out' out2', fillPositions crushItemUndef left outpos out = .ok out' ∧
    onOut2 out2 (fillPositions crushItemUndef left outpos) = .ok out2' ∧
    Heads args leaf bound root outpos (outpos + left) { left, out := out', out2 := out2', perms } head

structure Resolved (outpos endpos : Nat) (state : Indep) (result : List Int × Option (List Int) × Perms) : Prop where
  out : Rewritten outpos endpos (fun i value => ∃ item, state.out[i]? = some item ∧ value = settled item)
    state.out result.1
  out2 : (state.out2 = none ∧ result.2.1 = none) ∨ ∃ second after, state.out2 = some second ∧
    result.2.1 = some after ∧
    Rewritten outpos endpos (fun i value => ∃ item, second[i]? = some item ∧ value = settled item) second after
  perms : result.2.2 = state.perms

section

variable {args : IndepArgs} {rank : Int → Nat} {leaf : Option IndepLeafCall} {bound left outpos : Nat}
variable {root : Int} {bucket : Bucket} {out : List Int} {out2 : Option (List Int)} {perms : Perms}

variable {first : Indep} {leafing : Bool}

theorem Opened.room (opened : Opened outpos (outpos + left) out out2 perms first)
    (room : outpos + left ≤ out.length) (room2 : ∀ second, out2 = some second → outpos + left ≤ second.length)
    (second : leafing = true → out2 ≠ none) : first.Room leafing (outpos + left) := by
  refine ⟨by rw [opened.out.length]; exact room, fun values held => ?_, fun looks missing => ?_⟩
  · rcases opened.out2 with ⟨-, nothing⟩ | ⟨original, filled, given, same, rewritten⟩
    · rw [nothing] at held
      cases held
    · rw [same] at held
      cases held
      rw [rewritten.length]
      exact room2 original given
  · rcases opened.out2 with ⟨absent, -⟩ | ⟨original, filled, given, same, rewritten⟩
    · exact second looks absent
    · rw [same] at missing
      cases missing

/-- A call opens its positions, tries to fill them and settles them. -/
theorem chooseIndepWith_opens (room : outpos + left ≤ out.length)
    (room2 : ∀ second, out2 = some second → outpos + left ≤ second.length) :
    ∃ first, Opened outpos (outpos + left) out out2 perms first ∧
      (∀ head, IndepHeads args leaf bound root left outpos out out2 perms head ↔
        Heads args leaf bound root outpos (outpos + left) first head) ∧
      chooseIndepWith args leaf bound root left outpos out out2 perms = (do
        let state ← indepRounds args leaf bound root outpos (outpos + left) args.tries.toNat 0 first
        let out ← settlePositions left outpos state.out
        let out2 ← onOut2 state.out2 (settlePositions left outpos)
        .ok (out, out2, state.perms)) := by
  obtain ⟨out', opened, rewritten⟩ := @fillPositions_returns crushItemUndef left outpos out room
  obtain ⟨out2', opened2, rewritten2⟩ := onOut2_returns fun second given =>
    @fillPositions_returns crushItemUndef left outpos second (room2 second given)
  refine ⟨⟨left, out', out2', perms⟩, ⟨by simp, rfl, rewritten, rewritten2⟩, fun head => ⟨?_, fun reached => ?_⟩, ?_⟩
  · rintro ⟨other, other2, same, same2, reached⟩
    rw [opened] at same
    rw [opened2] at same2
    cases same
    cases same2
    exact reached
  · exact ⟨out', out2', opened, opened2, reached⟩
  · simp only [chooseIndepWith, opened, opened2, bind, Except.bind]

theorem settle_returns {state : Indep} {leafing : Bool} (room : state.Room leafing (outpos + left)) :
    Returns (do
      let out ← settlePositions left outpos state.out
      let out2 ← onOut2 state.out2 (settlePositions left outpos)
      .ok (out, out2, state.perms) : Except Fault (List Int × Option (List Int) × Perms))
      (Resolved outpos (outpos + left) state) := by
  refine Returns.bind (settlePositions_returns room.out) fun out rewritten => ?_
  refine Returns.bind (onOut2_returns fun second held => settlePositions_returns (room.out2 second held))
    fun out2 rewritten2 => ?_
  exact Returns.pure ⟨rewritten, rewritten2, rfl⟩

theorem Opened.filling (opened : Opened outpos (outpos + left) out out2 perms first)
    (room : outpos + left ≤ out.length) (follow : perms.Follow args.map) :
    Filling args root outpos (outpos + left) first first := by
  refine ⟨?_, rfl, fun _ _ => rfl, rfl, fun i item lower upper found => ?_,
    fun i j item lower upper _ _ found _ defined => ?_, ?_⟩
  · rw [opened.perms]
    exact follow
  · exact .inl (opened.out.inside i item lower upper found)
  · exact absurd (opened.out.inside i item lower upper found) defined
  · have length : (window outpos (outpos + left) first.out).length = left := by
      have same := opened.out.length
      rw [window, length_drop, List.length_take]
      lia
    have all : (window outpos (outpos + left) first.out).count crushItemUndef = left := by
      refine (List.count_eq_length.mpr fun item member => ?_).trans length
      obtain ⟨i, lower, upper, found⟩ := mem_window.mp member
      exact (opened.out.inside i item lower upper found).symm
    rw [opened.left, all]
    lia

theorem Filling.room {state : Indep} {endpos : Nat}
    (filling : Filling args root outpos endpos first state) (room : first.Room leafing endpos) :
    state.Room leafing endpos := by
  cases endpos with
  | zero =>
    refine ⟨Nat.zero_le _, fun _ _ => Nat.zero_le _, fun looks missing => room.second looks ?_⟩
    have second := filling.second
    rw [missing] at second
    exact Option.map_eq_none_iff.mp second.symm
  | succ last =>
    have ready := filling.ready room (Nat.lt_succ_self last)
    exact ⟨ready.out, ready.out2, ready.second⟩

end

/-- The positions as `crush_choose_indep` leaves them. -/
structure Filled (args : IndepArgs) (root : Int) (outpos endpos : Nat) (before after : List Int) : Prop where
  length : after.length = before.length
  frame : ∀ i, i < outpos ∨ endpos ≤ i → after[i]? = before[i]?
  entries : ∀ i item, outpos ≤ i → i < endpos → after[i]? = some item →
    item = crushItemNone ∨ Chosen args root item
  distinct : ∀ i j item, outpos ≤ i → i < endpos → outpos ≤ j → j < endpos → after[i]? = some item →
    after[j]? = some item → item ≠ crushItemNone → i = j

section

variable {args : IndepArgs} {root : Int} {outpos endpos : Nat} {out : List Int} {out2 : Option (List Int)}
variable {perms : Perms} {first state : Indep} {result : List Int × Option (List Int) × Perms}

theorem settled_eq_of_ne_none {item value : Int} (same : value = settled item) (present : value ≠ crushItemNone) :
    value = item ∧ item ≠ crushItemUndef := by
  unfold settled at same
  split at same
  · exact absurd same present
  · exact ⟨same, ‹_›⟩

theorem Resolved.filled (settles : Resolved outpos endpos state result)
    (filling : Filling args root outpos endpos first state) (opened : Opened outpos endpos out out2 perms first) :
    Filled args root outpos endpos out result.1 := by
  refine ⟨?_, fun i outside => ?_, fun i value lower upper found => ?_,
    fun i j value lower₁ upper₁ lower₂ upper₂ found₁ found₂ present => ?_⟩
  · rw [settles.out.length, filling.length, opened.out.length]
  · rw [settles.out.frame i outside, filling.frame i outside, opened.out.frame i outside]
  · obtain ⟨item, held, same⟩ := settles.out.inside i value lower upper found
    by_cases none : value = crushItemNone
    · exact .inl none
    · obtain ⟨rfl, defined⟩ := settled_eq_of_ne_none same none
      rcases filling.entries i value lower upper held with undefined | nothing | chosen
      · exact absurd undefined defined
      · exact absurd nothing none
      · exact .inr chosen
  · obtain ⟨item₁, held₁, same₁⟩ := settles.out.inside i value lower₁ upper₁ found₁
    obtain ⟨item₂, held₂, same₂⟩ := settles.out.inside j value lower₂ upper₂ found₂
    obtain ⟨rfl, defined⟩ := settled_eq_of_ne_none same₁ present
    obtain ⟨rfl, -⟩ := settled_eq_of_ne_none same₂ present
    exact filling.distinct i j value lower₁ upper₁ lower₂ upper₂ held₁ held₂ defined present

end

theorem leafless_places {args : IndepArgs} {root : Int} :
    ∀ call, (none : Option IndepLeafCall) = some call → call.Places args root :=
  fun call absurd => by cases absurd

theorem chooseIndepWith_fills {args : IndepArgs} {rank : Int → Nat} {bound left outpos : Nat} {root : Int}
    {bucket : Bucket} {out : List Int} {out2 : Option (List Int)} {perms : Perms} (sound : args.Sound)
    (ranks : args.map.Ranks rank) (enough : rank root + 256 ≤ bound)
    (located : args.map.bucketAt root = .ok bucket) (room : outpos + left ≤ out.length)
    (room2 : ∀ second, out2 = some second → outpos + left ≤ second.length) (follow : perms.Follow args.map) :
    Returns (chooseIndepWith args none bound root left outpos out out2 perms) fun result =>
      Filled args root outpos (outpos + left) out result.1 ∧ result.2.2.Follow args.map := by
  obtain ⟨first, opened, heads, split⟩ := @chooseIndepWith_opens args none bound left outpos root out out2 perms
    room room2
  have firstRoom : first.Room false (outpos + left) := opened.room room room2 (by simp)
  have initially : Filling args root outpos (outpos + left) first first := opened.filling room follow
  have carries := @Filling.carries args false root bound outpos (outpos + left) first sound firstRoom
  rw [split]
  refine Returns.bind
    (indepRounds_reaches sound ranks enough leafless_places located (by omega) carries initially .start)
    fun state ended => ?_
  obtain ⟨unused, ftotal, filling, -⟩ := ended
  refine (settle_returns (filling.room firstRoom)).mono fun result settles => ⟨settles.filled filling opened, ?_⟩
  rw [settles.perms]
  exact filling.perms

/-- Without a search for leaves every position is filled with an item of the
wanted type of its own, or with the mark that there is none; before every pass
of the loops `left` counts the undefined positions. -/
theorem chooseIndep_fills (args : IndepArgs) (wellFormed : args.map.WellFormed) (trees : args.map.TreesSound)
    (range : args.map.maxDevices ≤ 0x7fffffff) (weights : (args.weight.length : Int) = args.weightMax)
    (root : Int) (bucket : Bucket) (located : args.map.bucketAt root = .ok bucket) :
    ∃ enough, ∀ bound ≥ enough, ∀ (left outpos : Nat) (out : List Int) (out2 : Option (List Int)) (perms : Perms)
      (recurseTries : UInt32), outpos + left ≤ out.length →
      (∀ second, out2 = some second → outpos + left ≤ second.length) → perms.Follow args.map →
      Returns (crushChooseIndep args bound root left outpos out out2 perms recurseTries false)
        (fun result => Filled args root outpos (outpos + left) out result.1) ∧
      ∀ head, IndepHeads args none bound root left outpos out out2 perms head →
        head.state.left = (window outpos (outpos + left) head.state.out).count crushItemUndef := by
  obtain ⟨rank, ranks⟩ := wellFormed.finite
  have sound : args.Sound := ⟨⟨wellFormed, trees⟩, range, weights⟩
  refine ⟨rank root + 256, fun bound enough left outpos out out2 perms recurseTries room room2 follow => ⟨?_, ?_⟩⟩
  · exact (chooseIndepWith_fills sound ranks enough located room room2 follow).mono fun result filled => filled.1
  · intro head reached
    obtain ⟨first, opened, heads, -⟩ := @chooseIndepWith_opens args none bound left outpos root out out2 perms
      room room2
    have firstRoom : first.Room false (outpos + left) := opened.room room room2 (by simp)
    have initially : Filling args root outpos (outpos + left) first first := opened.filling room follow
    have holds := ((heads head).mp reached).holds sound ranks (by omega) leafless_places located (by omega)
      (Filling.carries sound firstRoom) initially
    cases head with
    | round count ftotal state => exact holds.counted
    | position count ftotal remaining rep state => exact holds.2.2.counted
    | bucket count ftotal remaining rep slot state =>
      obtain ⟨-, -, before, filling, -, descending⟩ := holds
      have same := descending.same
      simp only [Head.state]
      rw [same]
      exact filling.counted

def twoHostsIndep : IndepArgs :=
  { map := twoHosts, weight := [0x10000, 0, 0x10000], weightMax := 3, x := 7, numrep := 3, positive := by decide
    type := 0, tries := 50, parentR := 0 }

theorem chooseIndep_fills_twoHosts :
    ∃ enough, ∀ bound ≥ enough, ∀ (left outpos : Nat) (out : List Int) (out2 : Option (List Int)) (perms : Perms)
      (recurseTries : UInt32), outpos + left ≤ out.length →
      (∀ second, out2 = some second → outpos + left ≤ second.length) → perms.Follow twoHosts →
      Returns (crushChooseIndep twoHostsIndep bound 0 left outpos out out2 perms recurseTries false)
        (fun result => Filled twoHostsIndep 0 outpos (outpos + left) out result.1) ∧
      ∀ head, IndepHeads twoHostsIndep none bound 0 left outpos out out2 perms head →
        head.state.left = (window outpos (outpos + left) head.state.out).count crushItemUndef :=
  chooseIndep_fills twoHostsIndep twoHosts_wellFormed twoHosts_trees (by decide) rfl 0
    (strawBucket (-1) 2 [-2, -3]) rfl

def weightlessIndep : IndepArgs :=
  { map := weightlessMap, weight := [0x10000, 0x10000, 0x10000], weightMax := 3, x := 7, numrep := 1
    positive := by decide, type := 0, tries := 50, parentR := 0 }

theorem indepPass_weightless (bound : Nat) (state : Indep) :
    indepPass weightlessIndep none (bound + 3) 0 0 1 0 (1, state) = .error .outOfBounds := by
  have located : weightlessMap.bucketAt 1 = .ok weightlessHost := rfl
  have nonempty : weightlessHost.size ≠ 0 := by decide
  have chosen : crushBucketChoose (bound + 3) weightlessHost 7
      (indepR weightlessIndep weightlessHost 0 0) (state.perms 1) = .error .outOfBounds := by
    have tree : weightlessHost.alg = crushBucketTree := rfl
    rw [crushBucketChoose, if_neg nonempty, if_neg (by decide), if_neg (by decide), if_pos tree,
      bucketTreeChoose_weightless]
    rfl
  simp only [indepPass, weightlessIndep, located, nonempty, if_false, bind, Except.bind]
  rw [← weightlessIndep, chosen]

/-- With a tree bucket whose devices weigh nothing the call reads behind the
items. -/
theorem chooseIndep_not_always_fills :
    ¬ ∀ args : IndepArgs, args.map.WellFormed → args.map.maxDevices ≤ 0x7fffffff →
      (args.weight.length : Int) = args.weightMax → ∀ root bucket, args.map.bucketAt root = .ok bucket →
      ∃ enough, ∀ bound ≥ enough,
        Returns (crushChooseIndep args bound root 1 0 [0] none (freshPerms args.map) 1 false) fun _ => True := by
  intro claim
  obtain ⟨enough, runs⟩ := claim weightlessIndep weightlessMap_wellFormed (by decide) rfl 0 _ rfl
  obtain ⟨result, ran, -⟩ := runs (enough + 4) (by omega)
  have first : ∃ state, indepPass weightlessIndep none (enough + 4) 0 0 1 0
      (0, { left := 1, out := [crushItemUndef], out2 := none, perms := freshPerms weightlessMap }) =
      .ok (.again (1, state)) := ⟨_, rfl⟩
  obtain ⟨state, first⟩ := first
  have searched : loop Fault.exhausted (indepPass weightlessIndep none (enough + 4) 0 0 1 0) (enough + 4)
      (0, { left := 1, out := [crushItemUndef], out2 := none, perms := freshPerms weightlessMap }) =
      .error .outOfBounds := by
    rw [loop_again first, loop_error (indepPass_weightless (enough + 1) state)]
  have round : indepRound weightlessIndep none (enough + 4) 0 0 1 0 1 0
      { left := 1, out := [crushItemUndef], out2 := none, perms := freshPerms weightlessMap } =
      .error .outOfBounds := by
    have read : readAt Fault.scratch [crushItemUndef] 0 = .ok crushItemUndef := rfl
    rw [indepRound, read]
    simp only [bind, Except.bind, ne_eq, not_true_eq_false, if_false]
    rw [searched]
  have rounds : indepRounds weightlessIndep none (enough + 4) 0 0 1 50 0
      { left := 1, out := [crushItemUndef], out2 := none, perms := freshPerms weightlessMap } =
      .error .outOfBounds := by
    rw [indepRounds, if_neg (by decide), round]
    rfl
  have halts : crushChooseIndep weightlessIndep (enough + 4) 0 1 0 [0] none (freshPerms weightlessMap) 1 false =
      .error .outOfBounds := by
    have opened : fillPositions crushItemUndef 1 0 [0] = .ok [crushItemUndef] := rfl
    have tries : weightlessIndep.tries.toNat = 50 := rfl
    simp only [crushChooseIndep, Bool.false_eq_true, if_false, chooseIndepWith, opened, onOut2, tries, bind,
      Except.bind, Nat.zero_add, Nat.cast_one, rounds]
  have absurd := ran.symm.trans halts
  cases absurd

end KmodCeph.Crush
