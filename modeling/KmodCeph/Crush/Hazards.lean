import KmodCeph.Crush.Search
import KmodCeph.Lib.Avoids

namespace KmodCeph.Crush

open Lib

/-- What an evaluation is to avoid: nothing, or a position that its vectors do not have. -/
inductive Hazard where
  | nothing
  | scratch

def Hazard.Faults : Hazard → Fault → Prop
  | .nothing, _ => False
  | .scratch, fault => fault = .scratch

instance (hazard : Hazard) (fault : Fault) : Decidable (hazard.Faults fault) := by
  cases hazard <;> unfold Hazard.Faults <;> infer_instance

section

variable {bucket : Bucket} {cache : PermCache} {x r : UInt32}

variable {perm : List Nat} {p i count bound : Nat} {hazard : Hazard}

theorem permSwap_scratch : Avoids (Hazard.Faults .scratch) (permSwap perm p i) fun _ => True := by
  unfold permSwap
  split
  · exact Avoids.pure trivial
  · refine Avoids.bind _ (Avoids.readAt nofun) fun t _ => ?_
    refine Avoids.bind _ (Avoids.readAt nofun) fun u _ => ?_
    refine Avoids.bind _ (Avoids.writeAt nofun) fun perm _ => ?_
    exact (Avoids.writeAt nofun).mono fun _ _ => trivial

theorem permExtend_scratch : Avoids (Hazard.Faults .scratch) (permExtend bucket x count p perm) fun _ => True := by
  induction count generalizing p perm with
  | zero => exact Avoids.pure trivial
  | succ count ih =>
    rw [permExtend]
    split
    · exact Avoids.bind _ permSwap_scratch fun _ _ => ih
    · exact ih

theorem permFinish_scratch {pr : Nat} :
    Avoids (Hazard.Faults .scratch) (permFinish bucket x pr cache) fun _ => True := by
  refine Avoids.bind _ permExtend_scratch fun perm _ => ?_
  refine Avoids.bind _ (Avoids.readAt nofun) fun s _ => ?_
  exact Avoids.bind _ (Avoids.readAt nofun) fun item _ => Avoids.pure trivial

theorem bucketPermChoose_scratch :
    Avoids (Hazard.Faults .scratch) (bucketPermChoose bucket x r cache) fun _ => True := by
  unfold bucketPermChoose
  split
  · exact Avoids.stop nofun
  · dsimp only
    split
    · split
      · refine Avoids.bind _ (Avoids.writeAt nofun) fun perm _ => ?_
        exact Avoids.bind _ (Avoids.readAt nofun) fun item _ => Avoids.pure trivial
      · exact permFinish_scratch
    · split
      · refine Avoids.bind _ (Avoids.readAt nofun) fun first _ => ?_
        exact Avoids.bind _ (Avoids.writeAt nofun) fun perm _ => permFinish_scratch
      · exact permFinish_scratch

theorem listChooseFrom_scratch : Avoids (Hazard.Faults .scratch) (listChooseFrom bucket x r i) fun _ => True := by
  induction i with
  | zero => exact (Avoids.readAt nofun).mono fun _ _ => trivial
  | succ i ih =>
    refine Avoids.bind _ (Avoids.readAt nofun) fun item _ => ?_
    refine Avoids.bind _ (Avoids.readAt nofun) fun sum _ => ?_
    refine Avoids.bind _ (Avoids.readAt nofun) fun weight _ => ?_
    dsimp only
    split
    · exact Avoids.pure trivial
    · exact ih

theorem strawChooseFrom_scratch {high highDraw : Nat} :
    Avoids (Hazard.Faults .scratch) (strawChooseFrom bucket x r count i high highDraw) fun _ => True := by
  induction count generalizing i high highDraw with
  | zero => exact Avoids.pure trivial
  | succ count ih =>
    refine Avoids.bind _ (Avoids.readAt nofun) fun item _ => ?_
    refine Avoids.bind _ (Avoids.readAt nofun) fun straw _ => ?_
    dsimp only
    split
    · exact ih
    · exact ih

theorem bucketTreeChoose_scratch :
    Avoids (Hazard.Faults .scratch) (bucketTreeChoose bound bucket x r) fun _ => True := by
  refine Avoids.bind (fun _ => True) (Avoids.loop (fun _ => True) nofun (fun n _ => ?_) trivial) fun n _ => ?_
  · unfold treeDescend
    split
    · exact Avoids.pure trivial
    · refine Avoids.bind _ (Avoids.readAt nofun) fun w _ => ?_
      refine Avoids.bind (fun _ => True) (Avoids.loop (fun _ => True) nofun (fun state _ => ?_) trivial) fun h _ => ?_
      · refine Avoids.pure ?_
        split <;> exact trivial
      · exact Avoids.bind _ (Avoids.readAt nofun) fun wl _ => Avoids.pure trivial
  · exact (Avoids.readAt nofun).mono fun _ _ => trivial

theorem crushBucketChoose_scratch :
    Avoids (Hazard.Faults .scratch) (crushBucketChoose bound bucket x r cache) fun _ => True := by
  unfold crushBucketChoose
  split
  · exact Avoids.stop nofun
  split
  · exact bucketPermChoose_scratch
  split
  · exact Avoids.map listChooseFrom_scratch
  split
  · exact Avoids.map bucketTreeChoose_scratch
  split
  · refine Avoids.map (Avoids.bind _ strawChooseFrom_scratch fun high _ => ?_)
    exact (Avoids.readAt nofun).mono fun _ _ => trivial
  · exact Avoids.map ((Avoids.readAt nofun).mono fun _ _ => trivial)

theorem crushBucketChoose_avoids : Avoids hazard.Faults (crushBucketChoose bound bucket x r cache) fun _ => True := by
  cases hazard with
  | nothing => exact Avoids.nothing
  | scratch => exact crushBucketChoose_scratch

theorem bucketPermChoose_avoids : Avoids hazard.Faults (bucketPermChoose bucket x r cache) fun _ => True := by
  cases hazard with
  | nothing => exact Avoids.nothing
  | scratch => exact bucketPermChoose_scratch

end

section

variable {hazard : Hazard} {map : CrushMap} {root item : Int} {bucket : Bucket} {r recurseTries : UInt32}
variable {bound rep : Nat} {out2 out : List Int} {perms : Perms}

theorem bucketAt_avoids {slot : Int} : Avoids hazard.Faults (map.bucketAt slot) fun _ => True := by
  cases hazard with
  | nothing => exact Avoids.nothing
  | scratch =>
    unfold CrushMap.bucketAt
    split
    · exact Avoids.stop nofun
    · split
      · exact Avoids.stop nofun
      · exact Avoids.stop nofun
      · exact Avoids.pure trivial

theorem itemType_avoids : Avoids hazard.Faults (map.itemType item) fun _ => True := by
  unfold CrushMap.itemType
  split
  · exact Avoids.map bucketAt_avoids
  · exact Avoids.pure trivial

theorem isOut_avoids {weight : List UInt32} {weightMax : Int} {x : UInt32} :
    Avoids hazard.Faults (isOut weight weightMax item x) fun _ => True := by
  have harmless : ¬ hazard.Faults .weights := by cases hazard <;> decide
  unfold isOut
  split
  · exact Avoids.pure trivial
  split
  · exact Avoids.stop harmless
  · refine Avoids.bind _ (Avoids.readAt fun bad => absurd bad harmless) fun w _ => ?_
    split
    · exact Avoids.pure trivial
    split
    · exact Avoids.pure trivial
    · exact Avoids.pure trivial

theorem Hazard.scratch_of_faults (bad : hazard.Faults .scratch) : hazard = .scratch := by
  cases hazard with
  | nothing => exact bad.elim
  | scratch => rfl

theorem Avoids.place {values : List Int} {index : Nat} (inside : hazard = .scratch → index < values.length) :
    Avoids hazard.Faults (writeAt .scratch values index item) fun after =>
      after.length = values.length ∧ index < values.length :=
  (Avoids.writeAt fun bad => inside (Hazard.scratch_of_faults bad)).mono fun after kept => by
    rw [kept.1, List.length_set]
    exact ⟨rfl, kept.2⟩

def LeafKeeps (hazard : Hazard) (call : LeafCall) : Prop :=
  ∀ slot outpos subR out2 perms, (hazard = .scratch → outpos < out2.length) →
    Avoids hazard.Faults (call slot outpos subR out2 perms) fun result => result.2.1.length = out2.length

/-- A pass leaves the second vector as long as it is. -/
abbrev PassSafe (length : Nat) : Next Search (Next Search Found) → Prop :=
  Next.Holds (fun after => after.out2.length = length)
    (Next.Holds (fun after => after.out2.length = length) fun found => found.out2.length = length)

variable {args : FirstnArgs} {leaf : Option LeafCall} {search : Search} {length outpos : Nat} {out : List Int}

theorem firstnRetry_safe {collide : Bool} (safe : search.out2.length = length) :
    PassSafe length (firstnRetry args bucket collide search) := by
  unfold firstnRetry
  dsimp only
  split
  · exact safe
  split
  · exact safe
  split
  · exact safe
  · exact safe

theorem firstnLeaf_avoids (safe : search.out2.length = length) (room : leaf ≠ none → hazard = .scratch → outpos < length)
    (keeps : ∀ call, leaf = some call → LeafKeeps hazard call) :
    Avoids hazard.Faults (firstnLeaf args leaf outpos item r search) fun result => result.2.out2.length = length := by
  cases leaf with
  | none => exact Avoids.pure safe
  | some call =>
    have room := room nofun
    rw [← safe] at room
    unfold firstnLeaf
    dsimp only
    split
    · refine Avoids.bind _ (keeps call rfl _ _ _ _ _ room) fun result kept => ?_
      exact Avoids.pure (Eq.trans kept safe)
    · refine Avoids.bind _ (Avoids.place room) fun after kept => ?_
      exact Avoids.pure (kept.1.trans safe)

theorem firstnAccept_avoids {itemtype : Int} (safe : search.out2.length = length)
    (room : leaf ≠ none → hazard = .scratch → outpos < length) (keeps : ∀ call, leaf = some call → LeafKeeps hazard call) :
    Avoids hazard.Faults (firstnAccept args leaf bucket outpos out item itemtype r search) (PassSafe length) := by
  unfold firstnAccept
  split
  · dsimp only
    split
    · exact Avoids.bind _ isOut_avoids fun _ _ => Avoids.pure (firstnRetry_safe safe)
    · exact Avoids.bind (fun _ => True) (Avoids.pure trivial) fun _ _ => Avoids.pure (firstnRetry_safe safe)
  · refine Avoids.bind _ (firstnLeaf_avoids safe room keeps) fun result safe => ?_
    obtain ⟨reject, search⟩ := result
    have settles : ∀ reject : Bool, Avoids hazard.Faults
        (if reject then .ok (firstnRetry args bucket false search)
          else .ok (.done (.done { item := some item, out2 := search.out2, perms := search.perms })))
        (PassSafe length) := by
      intro reject
      split
      · exact Avoids.pure (firstnRetry_safe safe)
      · exact Avoids.pure safe
    dsimp only
    split
    · exact settles true
    split
    · exact Avoids.bind _ isOut_avoids fun reject _ => settles reject
    · exact settles false

theorem firstnDraw_avoids {flocal : UInt32} {cache : PermCache} :
    Avoids hazard.Faults (firstnDraw args bound bucket r flocal cache) fun _ => True := by
  unfold firstnDraw
  split
  · exact bucketPermChoose_avoids
  · exact crushBucketChoose_avoids

theorem firstnPass_avoids (keeps : ∀ call, leaf = some call → LeafKeeps hazard call)
    (room : leaf ≠ none → hazard = .scratch → outpos < length) (safe : search.out2.length = length) :
    Avoids hazard.Faults (firstnPass args leaf bound rep outpos out search) (PassSafe length) := by
  refine Avoids.bind _ bucketAt_avoids fun bucket _ => ?_
  split
  · exact Avoids.pure (firstnRetry_safe safe)
  refine Avoids.bind _ firstnDraw_avoids fun result _ => ?_
  obtain ⟨item, cache⟩ := result
  dsimp only
  split
  · exact Avoids.pure safe
  refine Avoids.bind _ itemType_avoids fun itemtype _ => ?_
  split
  · split
    · exact Avoids.pure safe
    · exact Avoids.pure safe
  · exact firstnAccept_avoids safe room keeps

theorem firstnSearch_avoids (keeps : ∀ call, leaf = some call → LeafKeeps hazard call)
    (room : leaf ≠ none → hazard = .scratch → outpos < out2.length) :
    Avoids hazard.Faults (firstnSearch args leaf bound root rep outpos out out2 perms) fun found =>
      found.out2.length = out2.length := by
  have harmless : ¬ hazard.Faults .exhausted := by cases hazard <;> decide
  refine Avoids.loop (fun search => search.out2.length = out2.length) harmless (fun search kept => ?_) rfl
  exact Avoids.loop (fun search => search.out2.length = out2.length) harmless
    (fun search safe => firstnPass_avoids keeps room safe) kept

structure RepsSafe (outpos count : Nat) (out out2 : List Int) (result : Nat × List Int × List Int × Perms) : Prop where
  reached : result.1 ≤ outpos + count
  inside : outpos ≤ out.length → result.1 ≤ out.length
  out : result.2.1.length = out.length
  out2 : result.2.2.1.length = out2.length

theorem firstnReps_avoids {count : Nat} (keeps : ∀ call, leaf = some call → LeafKeeps hazard call)
    (room : hazard = .scratch → outpos + count ≤ out.length)
    (room2 : leaf ≠ none → hazard = .scratch → outpos + count ≤ out2.length) :
    Avoids hazard.Faults (firstnReps args leaf bound root count rep outpos out out2 perms)
      (RepsSafe outpos count out out2) := by
  induction count generalizing rep outpos out out2 perms with
  | zero => exact Avoids.pure ⟨le_rfl, id, rfl, rfl⟩
  | succ count ih =>
    refine Avoids.bind _ (firstnSearch_avoids keeps (fun deep same => by have := room2 deep same; omega)) fun found safe => ?_
    split
    · refine (ih (fun same => by have := room same; omega) (fun deep same => by have := room2 deep same; omega)).mono
        fun result kept => ?_
      exact ⟨kept.reached.trans (by omega), kept.inside, kept.out, kept.out2.trans safe⟩
    · refine Avoids.bind _ (Avoids.place fun same => by have := room same; omega) fun after placed => ?_
      refine (ih (fun same => by have := room same; omega) (fun deep same => by have := room2 deep same; lia)).mono
        fun result kept => ?_
      refine ⟨kept.reached.trans (by omega), fun _ => ?_, kept.out.trans placed.1, kept.out2.trans safe⟩
      have inside := kept.inside
      rw [placed.1] at inside
      exact inside placed.2

theorem chooseLeafFirstn_keeps : LeafKeeps hazard (chooseLeafFirstn args recurseTries bound) := by
  intro slot outpos subR out2 perms room
  refine Avoids.bind _ (firstnReps_avoids nofun (fun same => room same) (fun deep => absurd rfl deep)) fun result kept => ?_
  exact Avoids.pure kept.out

theorem crushChooseFirstn_avoids {numrep : Nat} {recurseToLeaf : Bool} (room : hazard = .scratch → numrep ≤ out.length)
    (room2 : hazard = .scratch → numrep ≤ out2.length) :
    Avoids hazard.Faults (crushChooseFirstn args bound root numrep 0 out out2 perms recurseTries recurseToLeaf)
      (RepsSafe 0 numrep out out2) := by
  unfold crushChooseFirstn
  refine firstnReps_avoids (fun call same => ?_) (fun same => by have := room same; omega)
    (fun _ same => by have := room2 same; omega)
  split at same
  · cases same
    exact chooseLeafFirstn_keeps
  · cases same

end

section

variable {hazard : Hazard} {root : Int}

variable {item : Int} {count rep bound outpos endpos left : Nat} {out : List Int}
variable {ftotal recurseTries : UInt32} {perms : Perms}

theorem fillPositions_avoids (room : hazard = .scratch → rep + count ≤ out.length) :
    Avoids hazard.Faults (fillPositions item count rep out) fun after =>
      after.length = out.length ∧ (0 < count → rep + count ≤ out.length) := by
  induction count generalizing rep out with
  | zero => exact Avoids.pure ⟨rfl, nofun⟩
  | succ count ih =>
    refine Avoids.bind _ (Avoids.place fun same => by have := room same; omega) fun after placed => ?_
    refine (ih fun same => by have := room same; omega).mono fun _ kept => ⟨kept.1.trans placed.1, fun _ => ?_⟩
    cases count with
    | zero => exact placed.2
    | succ count =>
      lia

theorem Avoids.look {values : List Int} {index : Nat} (inside : hazard = .scratch → index < values.length) :
    Avoids hazard.Faults (readAt .scratch values index) fun _ => True :=
  (Avoids.readAt fun bad => inside (Hazard.scratch_of_faults bad)).mono fun _ _ => trivial

theorem settlePositions_avoids (room : hazard = .scratch → rep + count ≤ out.length) :
    Avoids hazard.Faults (settlePositions count rep out) fun after => after.length = out.length := by
  induction count generalizing rep out with
  | zero => exact Avoids.pure rfl
  | succ count ih =>
    refine Avoids.bind _ (Avoids.look fun same => by have := room same; omega) fun current _ => ?_
    split
    · refine Avoids.bind _ (Avoids.place fun same => by have := room same; omega) fun after placed => ?_
      exact (ih fun same => by have := room same; omega).mono fun _ kept => kept.trans placed.1
    · exact ih fun same => by have := room same; omega

theorem onOut2_avoids {out2 : Option (List Int)} {fill : List Int → Except Fault (List Int)}
    (fills : ∀ values, out2 = some values → Avoids hazard.Faults (fill values) fun after => after.length = values.length) :
    Avoids hazard.Faults (onOut2 out2 fill) fun after => after.map List.length = out2.map List.length := by
  cases out2 with
  | none => exact Avoids.pure rfl
  | some values => exact Avoids.map ((fills values rfl).mono fun after kept => congrArg some kept)

structure Indep.Safe (state : Indep) (length : Nat) (length2 : Option Nat) : Prop where
  out : state.out.length = length
  out2 : state.out2.map List.length = length2

variable {args : IndepArgs} {leaf : Option IndepLeafCall} {state : Indep} {length rep : Nat} {length2 : Option Nat}

def Inside (hazard : Hazard) (position length : Nat) (length2 : Option Nat) : Prop :=
  hazard = .scratch → position < length ∧ ∀ width, length2 = some width → position < width

theorem writeOut2_avoids (safe : state.Safe length length2) (inside : Inside hazard rep length length2) :
    Avoids hazard.Faults (writeOut2 state.out2 rep item) fun after => after.map List.length = length2 := by
  have out2 := safe.out2
  cases vector : state.out2 with
  | none =>
    rw [vector] at out2
    exact Avoids.pure out2
  | some values =>
    rw [vector] at out2
    refine Avoids.map ((Avoids.place fun same => (inside same).2 _ out2.symm).mono fun after kept => ?_)
    rw [← out2]
    exact congrArg some kept.1

theorem indepNone_avoids (safe : state.Safe length length2) (inside : Inside hazard rep length length2) :
    Avoids hazard.Faults (indepNone rep state) fun after => after.Safe length length2 := by
  refine Avoids.bind _ (Avoids.place fun same => by rw [safe.out]; exact (inside same).1) fun out placed => ?_
  refine Avoids.bind _ (writeOut2_avoids safe inside) fun out2 kept => ?_
  exact Avoids.pure ⟨placed.1.trans safe.out, kept⟩

def IndepLeafKeeps (hazard : Hazard) (call : IndepLeafCall) : Prop :=
  ∀ slot rep r out2 perms, (hazard = .scratch → rep < out2.length) →
    Avoids hazard.Faults (call slot rep r out2 perms) fun result => result.1.length = out2.length

theorem indepLeaf_avoids {r : UInt32} (safe : state.Safe length length2)
    (inside : Inside hazard rep length length2) (second : leaf ≠ none → length2 ≠ none)
    (keeps : ∀ call, leaf = some call → IndepLeafKeeps hazard call) :
    Avoids hazard.Faults (indepLeaf leaf rep item r state) fun result => result.2.Safe length length2 := by
  have out2 := safe.out2
  cases leaf with
  | none => exact Avoids.pure safe
  | some call =>
    cases vector : state.out2 with
    | none =>
      rw [vector] at out2
      exact absurd out2.symm (second nofun)
    | some values =>
      rw [vector] at out2
      have room : hazard = .scratch → rep < values.length := fun same => (inside same).2 _ out2.symm
      unfold indepLeaf
      rw [vector]
      dsimp only
      split
      · refine Avoids.bind _ (keeps call rfl _ _ _ _ _ room) fun result kept => ?_
        obtain ⟨after, perms⟩ := result
        refine Avoids.bind _ (Avoids.look fun same => by rw [kept]; exact room same) fun placed _ => ?_
        refine Avoids.pure ⟨safe.out, ?_⟩
        rw [← out2]
        exact congrArg some kept
      · refine Avoids.bind _ (Avoids.place room) fun after kept => ?_
        refine Avoids.pure ⟨safe.out, ?_⟩
        rw [← out2]
        exact congrArg some kept.1

theorem indepPass_avoids {slot : Int} (keeps : ∀ call, leaf = some call → IndepLeafKeeps hazard call)
    (second : leaf ≠ none → length2 ≠ none) (inside : Inside hazard rep length length2) (safe : state.Safe length length2) :
    Avoids hazard.Faults (indepPass args leaf bound rep outpos endpos ftotal (slot, state))
      (Next.Holds (fun after => after.2.Safe length length2) fun after => after.Safe length length2) := by
  unfold indepPass
  refine Avoids.bind _ bucketAt_avoids fun bucket _ => ?_
  split
  · exact Avoids.pure safe
  refine Avoids.bind _ crushBucketChoose_avoids fun result _ => ?_
  obtain ⟨item, cache⟩ := result
  have drawn : Indep.Safe { state with perms := Function.update state.perms slot cache } length length2 :=
    ⟨safe.out, safe.out2⟩
  dsimp only
  split
  · exact Avoids.bind _ (indepNone_avoids drawn inside) fun after kept => Avoids.pure kept
  refine Avoids.bind _ itemType_avoids fun itemtype _ => ?_
  split
  · split
    · exact Avoids.bind _ (indepNone_avoids drawn inside) fun after kept => Avoids.pure kept
    · exact Avoids.pure drawn
  split
  · exact Avoids.pure drawn
  refine Avoids.bind _ (indepLeaf_avoids drawn inside second keeps) fun result kept => ?_
  obtain ⟨placed, after⟩ := result
  have settles : ∀ reject : Bool, Avoids hazard.Faults
      (if reject then .ok (.done after)
        else do
          let out ← writeAt .scratch after.out rep item
          .ok (.done { after with out, left := after.left - 1 }))
      (Next.Holds (fun after : Int × Indep => after.2.Safe length length2) fun after => after.Safe length length2) := by
    intro reject
    split
    · exact Avoids.pure kept
    · refine Avoids.bind _ (Avoids.place fun same => by rw [kept.out]; exact (inside same).1) fun out placed => ?_
      exact Avoids.pure ⟨placed.1.trans kept.out, kept.out2⟩
  split
  · exact Avoids.pure kept
  split
  · exact Avoids.bind _ isOut_avoids fun reject _ => settles reject
  · exact settles false

theorem indepRound_avoids (keeps : ∀ call, leaf = some call → IndepLeafKeeps hazard call) (second : leaf ≠ none → length2 ≠ none)
    (inside : ∀ position, rep ≤ position → position < rep + count → Inside hazard position length length2)
    (safe : state.Safe length length2) :
    Avoids hazard.Faults (indepRound args leaf bound root outpos endpos ftotal count rep state)
      fun after => after.Safe length length2 := by
  have harmless : ¬ hazard.Faults .exhausted := by cases hazard <;> decide
  induction count generalizing rep state with
  | zero => exact Avoids.pure safe
  | succ count ih =>
    have here := inside rep le_rfl (by omega)
    have later : ∀ position, rep + 1 ≤ position → position < rep + 1 + count → Inside hazard position length length2 :=
      fun position lower upper => inside position (by omega) (by omega)
    refine Avoids.bind _ (Avoids.look fun same => by rw [safe.out]; exact (here same).1) fun current _ => ?_
    split
    · exact ih later safe
    · exact Avoids.bind _ (Avoids.loop (fun current => current.2.Safe length length2) harmless
        (fun current kept => indepPass_avoids keeps second here kept) safe) fun after kept => ih later kept

theorem indepRounds_avoids (keeps : ∀ call, leaf = some call → IndepLeafKeeps hazard call) (second : leaf ≠ none → length2 ≠ none)
    (inside : ∀ position, outpos ≤ position → position < endpos → Inside hazard position length length2)
    (safe : state.Safe length length2) :
    Avoids hazard.Faults (indepRounds args leaf bound root outpos endpos count ftotal state)
      fun after => after.Safe length length2 := by
  induction count generalizing ftotal state with
  | zero => exact Avoids.pure safe
  | succ count ih =>
    rw [indepRounds]
    split
    · exact Avoids.pure safe
    · exact Avoids.bind _ (indepRound_avoids keeps second
        (fun position lower upper => inside position lower (by lia)) safe) fun after kept => ih kept

theorem chooseIndepWith_avoids {out2 : Option (List Int)} (keeps : ∀ call, leaf = some call → IndepLeafKeeps hazard call)
    (second : leaf ≠ none → out2 ≠ none) (room : hazard = .scratch → outpos + left ≤ out.length)
    (room2 : hazard = .scratch → ∀ values, out2 = some values → outpos + left ≤ values.length) :
    Avoids hazard.Faults (chooseIndepWith args leaf bound root left outpos out out2 perms) fun result =>
      result.1.length = out.length ∧ result.2.1.map List.length = out2.map List.length ∧
        (0 < left → outpos + left ≤ out.length) := by
  have inside : ∀ position, outpos ≤ position → position < outpos + left →
      Inside hazard position out.length (out2.map List.length) := by
    intro position _ upper same
    refine ⟨by have := room same; omega, fun width present => ?_⟩
    obtain ⟨values, found, rfl⟩ := Option.map_eq_some_iff.mp present
    have := room2 same values found
    omega
  have second2 : leaf ≠ none → out2.map List.length ≠ none := fun deep => by simpa using second deep
  refine Avoids.bind _ (fillPositions_avoids room) fun out' filled => ?_
  refine Avoids.bind _ (onOut2_avoids fun values found => (fillPositions_avoids fun same => room2 same values found).mono
    fun _ kept => kept.1) fun out2' filled2 => ?_
  refine Avoids.bind _ (indepRounds_avoids keeps second2 inside ⟨filled.1, filled2⟩) fun state safe => ?_
  refine Avoids.bind _ (settlePositions_avoids fun same => by rw [safe.out]; exact room same) fun out'' settled => ?_
  refine Avoids.bind _ (onOut2_avoids fun values found => settlePositions_avoids fun same => ?_) fun out2'' settled2 => ?_
  · have lengths := safe.out2
    rw [found] at lengths
    obtain ⟨values', found', same'⟩ := Option.map_eq_some_iff.mp lengths.symm
    rw [← same']
    exact room2 same values' found'
  · exact Avoids.pure ⟨settled.trans safe.out, settled2.trans safe.out2, filled.2⟩

theorem chooseLeafIndep_keeps : IndepLeafKeeps hazard (chooseLeafIndep args recurseTries bound) := by
  intro slot rep r out2 perms room
  refine Avoids.bind _ (chooseIndepWith_avoids nofun (fun deep => absurd rfl deep) (fun same => room same) (fun _ => nofun))
    fun result kept => ?_
  exact Avoids.pure kept.1

theorem crushChooseIndep_avoids {out2 : List Int} {recurseToLeaf : Bool} (room : hazard = .scratch → left ≤ out.length)
    (room2 : hazard = .scratch → left ≤ out2.length) : Avoids hazard.Faults
      (crushChooseIndep args bound root left 0 out (some out2) perms recurseTries recurseToLeaf) fun result =>
      result.1.length = out.length ∧ (∃ after, result.2.1 = some after ∧ after.length = out2.length) ∧
        left ≤ out.length := by
  refine Avoids.mono (chooseIndepWith_avoids (fun call same => ?_) (fun _ => nofun)
    (fun same => by have := room same; omega)
    (fun same values found => by cases found; have := room2 same; omega)) fun result kept => ?_
  · split at same
    · cases same
      exact chooseLeafIndep_keeps
    · cases same
  · refine ⟨kept.1, Option.map_eq_some_iff.mp kept.2.1, ?_⟩
    rcases Nat.eq_zero_or_pos left with none | some
    · omega
    · have := kept.2.2 some
      omega

end

end KmodCeph.Crush
