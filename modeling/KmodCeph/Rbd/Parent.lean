import KmodCeph.Lib.Reached

namespace KmodCeph.Rbd

open Lib

def intMax : Nat := 2 ^ 31 - 1

def atomicIncReturnSafe (counter : Nat) : Int × Nat :=
  if counter = 0 then (0, 0)
  else if counter ≤ intMax then (counter, counter + 1)
  else (-22, counter)

def atomicDecReturnSafe (counter : Nat) : Int × Nat :=
  if 0 < counter ∧ counter - 1 ≤ intMax then ((counter - 1 : Nat), counter - 1) else (-22, counter)

/-- The parent fields of `struct rbd_device`. `layered` counts the image requests that are marked
layered, `getting` the calls of `rbd_dev_parent_get` that have not looked at the overlap yet,
`dropping` is a refresh before its `rbd_dev_parent_put`; `holds` is whether the device has its own
reference, and `torn` counts the calls of `rbd_dev_unparent`. -/
structure ParentDevice where
  parentSpec : Bool
  parent : Bool
  parentOverlap : Nat
  parentRef : Nat
  layered : Nat
  getting : Nat
  dropping : Bool
  holds : Bool
  torn : Nat
  removed : Bool

namespace ParentDevice

def probed (overlap : Nat) : ParentDevice where
  parentSpec := true
  parent := true
  parentOverlap := overlap
  parentRef := 1
  layered := 0
  getting := 0
  dropping := false
  holds := true
  torn := 0
  removed := false

def rbdDevUnparent (dev : ParentDevice) : ParentDevice :=
  { dev with
    parent := false
    parentSpec := false
    parentOverlap := 0
    torn := dev.torn + 1 }

def rbdDevParentPut (dev : ParentDevice) : ParentDevice :=
  if dev.parentSpec = false then dev
  else
    match atomicDecReturnSafe dev.parentRef with
    | (counter, ref) =>
      let dev := { dev with parentRef := ref }
      if counter > 0 then dev
      else if counter = 0 then dev.rbdDevUnparent
      else dev

def incrementRef (dev : ParentDevice) : Bool × ParentDevice :=
  if dev.parentSpec = false then (false, dev)
  else
    match atomicIncReturnSafe dev.parentRef with
    | (counter, ref) => (counter > 0, { dev with parentRef := ref })

def rbdDevParentGet (dev : ParentDevice) : Bool × ParentDevice :=
  match dev.incrementRef with
  | (positive, dev) => (positive && dev.parentOverlap ≠ 0, dev)

/-- `rbd_dev_v2_parent_info` up to its `rbd_dev_parent_put`; none is a report of no parent. -/
def refreshOverlap (report : Option Nat) (dev : ParentDevice) : ParentDevice :=
  if dev.parent = false then dev
  else
    match report with
    | none =>
      if dev.parentOverlap = 0 then dev
      else
        { dev with
          parentOverlap := 0
          dropping := true }
    | some overlap =>
      { dev with
        parentOverlap := overlap
        dropping := overlap = 0 }

end ParentDevice

/-- References to the parent of a layered image. -/
inductive ParentCall where
  | increment
  | checkOverlap
  | destroy
  | refresh (report : Option Nat)
  | drop
  | remove

def ParentCall.run : ParentCall → ParentDevice → Except Empty ParentDevice
  | .increment, dev =>
    match dev.incrementRef with
    | (positive, dev) => return { dev with getting := dev.getting + positive.toNat }
  | .checkOverlap, dev => return { dev with
      getting := dev.getting - 1
      layered := if dev.parentOverlap ≠ 0 then dev.layered + 1 else dev.layered }
  | .destroy, dev => return { dev with layered := dev.layered - 1 }.rbdDevParentPut
  | .refresh report, dev => return dev.refreshOverlap report
  | .drop, dev => return { dev with dropping := false, holds := false }.rbdDevParentPut
  | .remove, dev =>
    if dev.parentOverlap ≠ 0 then return { dev with removed := true, holds := false }.rbdDevParentPut
    else return { dev with removed := true }

/-- One refresh at a time; the device is removed after its last request and refresh. -/
def ParentCall.Proper : ParentCall → ParentDevice → Prop
  | .increment, dev => dev.removed = false
  | .checkOverlap, dev => 0 < dev.getting
  | .destroy, dev => 0 < dev.layered
  | .refresh _, dev => dev.removed = false ∧ dev.dropping = false
  | .drop, dev => dev.dropping
  | .remove, dev => dev.removed = false ∧ dev.layered = 0 ∧ dev.getting = 0 ∧ dev.dropping = false

/-- While the parent is there, no request is created without an overlap, and no refresh ends the overlap
after the device has dropped its reference. -/
def ParentCall.Clean : ParentCall → ParentDevice → Prop
  | .checkOverlap, dev => dev.parentOverlap ≠ 0
  | .refresh none, dev => dev.parentOverlap ≠ 0 → dev.holds
  | .refresh (some overlap), dev => dev.parent → overlap = 0 → dev.holds
  | _, _ => True

/-- The references are those of the layered requests and of the device, and the parent is there for as
long as there are any. -/
structure Counted (dev : ParentDevice) : Prop where
  count : dev.parentRef = dev.layered + dev.getting + dev.holds.toNat
  below : dev.parentRef ≤ intMax + 1
  there : dev.parentSpec = true → 0 < dev.parentRef ∧ dev.torn = 0
  gone : dev.parentSpec = false → dev.parentRef = 0 ∧ dev.torn = 1 ∧ dev.parentOverlap = 0
  parent : dev.parent = dev.parentSpec
  own : dev.parentOverlap ≠ 0 → dev.dropping = false
  drops : dev.dropping = true → dev.holds = true
  keeps : dev.holds = true → dev.removed = false ∧ (dev.parentOverlap ≠ 0 ∨ dev.dropping = true)

section

variable {dev next : ParentDevice} {call : ParentCall}

theorem rbdDevParentPut_eq (there : dev.parentSpec = true) (positive : 0 < dev.parentRef) (below : dev.parentRef ≤ intMax + 1) :
    dev.rbdDevParentPut = if dev.parentRef = 1 then { dev with parentRef := 0 }.rbdDevUnparent
      else { dev with parentRef := dev.parentRef - 1 } := by
  have dec : atomicDecReturnSafe dev.parentRef = (((dev.parentRef - 1 : Nat) : Int), dev.parentRef - 1) := by
    unfold atomicDecReturnSafe
    rw [if_pos ⟨positive, by omega⟩]
  simp only [ParentDevice.rbdDevParentPut, there, Bool.true_eq_false, if_false, dec]
  by_cases last : dev.parentRef = 1
  · simp [last]
  · have more : 0 < ((dev.parentRef - 1 : Nat) : Int) := by omega
    rw [if_pos more, if_neg last]

theorem incrementRef_eq (there : dev.parentSpec = true) (positive : 0 < dev.parentRef) :
    dev.incrementRef = if dev.parentRef ≤ intMax then (true, { dev with parentRef := dev.parentRef + 1 })
      else (false, dev) := by
  have differs : dev.parentRef ≠ 0 := by omega
  have spec : dev.parentSpec ≠ false := by simp [there]
  unfold ParentDevice.incrementRef atomicIncReturnSafe
  rw [if_neg spec, if_neg differs]
  by_cases below : dev.parentRef ≤ intMax
  · simp [below, positive]
  · simp [below]

theorem Counted.probed {overlap : Nat} (overlaps : overlap ≠ 0) : Counted (.probed overlap) := by
  refine ⟨rfl, ?_, fun _ => ⟨Nat.one_pos, rfl⟩, ?_, rfl, fun _ => rfl, ?_, fun _ => ⟨rfl, .inl overlaps⟩⟩
  · simp [ParentDevice.probed]
  · intro gone
    cases gone
  · intro drops
    cases drops

theorem Counted.put (there : dev.parentSpec = true) (positive : 0 < dev.parentRef)
    (below : dev.parentRef ≤ intMax + 1) (count : dev.parentRef = dev.layered + dev.getting + dev.holds.toNat + 1)
    (torn : dev.torn = 0) (parent : dev.parent = dev.parentSpec)
    (own : dev.parentOverlap ≠ 0 → dev.dropping = false) (drops : dev.dropping = true → dev.holds = true)
    (keeps : dev.holds = true → dev.removed = false ∧ (dev.parentOverlap ≠ 0 ∨ dev.dropping = true)) :
    Counted dev.rbdDevParentPut := by
  rw [rbdDevParentPut_eq there positive below]
  split
  next last =>
    have released : dev.holds = false := by
      cases held : dev.holds with
      | false => rfl
      | true =>
        rw [held] at count
        simp at count
        omega
    refine ⟨?_, ?_, ?_, ?_, ?_, ?_, ?_, ?_⟩
    · simp only [ParentDevice.rbdDevUnparent]
      omega
    · simp [ParentDevice.rbdDevUnparent]
    · simp [ParentDevice.rbdDevUnparent]
    · simp [ParentDevice.rbdDevUnparent, torn]
    · simp [ParentDevice.rbdDevUnparent]
    · simp [ParentDevice.rbdDevUnparent]
    · exact drops
    · intro held
      simp [ParentDevice.rbdDevUnparent, released] at held
  next more =>
    refine ⟨?_, ?_, fun _ => ⟨?_, torn⟩, ?_, parent, own, drops, keeps⟩
    · dsimp only
      lia
    · dsimp only
      lia
    · dsimp only
      lia
    · intro gone
      rw [show dev.parentSpec = false from gone] at there
      cases there

theorem Counted.released (counted : Counted dev) (gone : dev.parentSpec = false) :
    dev.layered = 0 ∧ dev.getting = 0 ∧ dev.holds = false := by
  have count := counted.count
  have none := (counted.gone gone).1
  cases held : dev.holds with
  | false =>
    rw [held] at count
    exact ⟨by omega, by omega, rfl⟩
  | true =>
    rw [held] at count
    simp only [Bool.toNat_true] at count
    omega

theorem Counted.here (counted : Counted dev) (some : 0 < dev.layered ∨ 0 < dev.getting ∨ dev.holds = true) :
    dev.parentSpec = true := by
  cases gone : dev.parentSpec with
  | true => rfl
  | false =>
    obtain ⟨layered, getting, released⟩ := counted.released gone
    rw [layered, getting, released] at some
    simp at some

theorem Counted.increment (counted : Counted dev) :
    Counted { dev.incrementRef.2 with getting := dev.incrementRef.2.getting + dev.incrementRef.1.toNat } := by
  cases here : dev.parentSpec with
  | false =>
    have same : dev.incrementRef = (false, dev) := by simp [ParentDevice.incrementRef, here]
    rw [same]
    exact counted
  | true =>
    rw [incrementRef_eq here (counted.there here).1]
    split
    next below =>
      refine ⟨?_, ?_, fun _ => ⟨Nat.succ_pos _, (counted.there here).2⟩, ?_, counted.parent, counted.own,
        counted.drops, counted.keeps⟩
      · have count := counted.count
        simp only [Bool.toNat_true]
        lia
      · exact Nat.add_le_add_right below 1
      · intro gone
        rw [show dev.parentSpec = false from gone] at here
        cases here
    next => exact counted

theorem Counted.refresh {report : Option Nat} (counted : Counted dev) (clean : (ParentCall.refresh report).Clean dev) :
    Counted (dev.refreshOverlap report) := by
  unfold ParentDevice.refreshOverlap
  split
  · exact counted
  next parent =>
    have exists' : dev.parent = true := by simpa using parent
    have here : dev.parentSpec = true := counted.parent ▸ exists'
    have never : dev.parentSpec ≠ false := by simp [here]
    cases report with
    | none =>
      dsimp only
      split
      · exact counted
      next overlaps =>
        have holds := clean overlaps
        exact ⟨counted.count, counted.below, counted.there, fun gone => absurd gone never, counted.parent,
          fun none => absurd rfl none, fun _ => holds, fun held => ⟨(counted.keeps held).1, .inr rfl⟩⟩
    | some overlap =>
      refine ⟨counted.count, counted.below, counted.there, fun gone => absurd gone never, counted.parent, ?_,
        fun drops => clean exists' (by simpa using drops), fun held => ⟨(counted.keeps held).1, ?_⟩⟩
      · intro overlaps
        simpa using overlaps
      · dsimp only
        by_cases zero : overlap = 0
        · exact .inr (by simpa using zero)
        · exact .inl zero

/-- When the device is removed, the reference that is left is its own. -/
theorem Counted.last (counted : Counted dev) (idle : dev.layered = 0 ∧ dev.getting = 0) (overlaps : dev.parentOverlap ≠ 0) :
    dev.parentSpec = true ∧ dev.parentRef = 1 := by
  obtain ⟨layered, getting⟩ := idle
  have here : dev.parentSpec = true := by
    by_contra gone
    exact overlaps (counted.gone (by simpa using gone)).2.2
  have count := counted.count
  have some := (counted.there here).1
  rw [layered, getting] at count
  cases held : dev.holds with
  | false =>
    rw [held, Bool.toNat_false] at count
    omega
  | true =>
    rw [held] at count
    exact ⟨here, count⟩

theorem ParentCall.counted (counted : Counted dev) (proper : call.Proper dev) (clean : call.Clean dev)
    (ran : call.run dev = .ok next) : Counted next := by
  cases call with
  | increment =>
    cases ran
    exact counted.increment
  | checkOverlap =>
    cases ran
    have more : 0 < dev.getting := proper
    have overlaps : dev.parentOverlap ≠ 0 := clean
    refine ⟨?_, counted.below, counted.there, counted.gone, counted.parent, counted.own, counted.drops, counted.keeps⟩
    have count := counted.count
    rw [if_pos overlaps]
    lia
  | destroy =>
    cases ran
    have some : 0 < dev.layered := proper
    have here := counted.here (.inl some)
    refine Counted.put here (counted.there here).1 counted.below ?_ (counted.there here).2 counted.parent counted.own
      counted.drops counted.keeps
    have count := counted.count
    lia
  | refresh report =>
    cases ran
    exact counted.refresh clean
  | drop =>
    cases ran
    have held := counted.drops proper
    have here := counted.here (.inr (.inr held))
    refine Counted.put here (counted.there here).1 counted.below ?_ (counted.there here).2 counted.parent
      (fun _ => rfl) ?_ ?_
    · have count := counted.count
      rw [held] at count
      simpa using count
    · intro drops
      cases drops
    · intro held
      cases held
  | remove =>
    obtain ⟨-, layered, getting, dropping⟩ := proper
    simp only [ParentCall.run] at ran
    split at ran
    next overlaps =>
      cases ran
      obtain ⟨here, one⟩ := counted.last ⟨layered, getting⟩ overlaps
      have put := @rbdDevParentPut_eq { dev with removed := true, holds := false } here (counted.there here).1 counted.below
      rw [if_pos one] at put
      rw [put]
      refine ⟨?_, ?_, ?_, ?_, rfl, ?_, ?_, ?_⟩
      · simp [ParentDevice.rbdDevUnparent, layered, getting]
      · simp [ParentDevice.rbdDevUnparent]
      · simp [ParentDevice.rbdDevUnparent]
      · simp [ParentDevice.rbdDevUnparent, (counted.there here).2]
      · simp [ParentDevice.rbdDevUnparent]
      · simp [ParentDevice.rbdDevUnparent, dropping]
      · simp [ParentDevice.rbdDevUnparent]
    next flat =>
      cases ran
      have released : dev.holds = false := by
        cases held : dev.holds with
        | false => rfl
        | true =>
          rcases (counted.keeps held).2 with overlaps | drops
          · exact absurd overlaps flat
          · rw [dropping] at drops
            cases drops
      refine ⟨counted.count, counted.below, counted.there, counted.gone, counted.parent, counted.own, counted.drops, ?_⟩
      intro held
      rw [show dev.holds = true from held] at released
      cases released

theorem Counted.get (counted : Counted dev) (overlaps : dev.parentSpec = true → dev.parentOverlap ≠ 0)
    (failed : dev.rbdDevParentGet.1 = false) : dev.rbdDevParentGet.2.parentRef = dev.parentRef := by
  unfold ParentDevice.rbdDevParentGet at failed ⊢
  cases here : dev.parentSpec with
  | false =>
    have same : dev.incrementRef = (false, dev) := by simp [ParentDevice.incrementRef, here]
    rw [same]
  | true =>
    rw [incrementRef_eq here (counted.there here).1] at failed ⊢
    by_cases below : dev.parentRef ≤ intMax
    · rw [if_pos below] at failed
      simp [overlaps here] at failed
    · rw [if_neg below]

/-- What parent references are for: they count the layered requests and the device, and the parent is torn
down once, with the last of them. -/
structure ParentSafe (dev : ParentDevice) : Prop where
  count : dev.parentRef = dev.layered + dev.getting + dev.holds.toNat
  get : (dev.parentSpec = true → dev.parentOverlap ≠ 0) → dev.rbdDevParentGet.1 = false →
    dev.rbdDevParentGet.2.parentRef = dev.parentRef
  once : dev.torn ≤ 1
  torn : dev.torn = 1 ↔ dev.layered = 0 ∧ dev.getting = 0 ∧ dev.holds = false
  removed : dev.removed = true → dev.holds = false

theorem Counted.safe (counted : Counted dev) : ParentSafe dev := by
  have count := counted.count
  refine ⟨count, counted.get, ?_, ?_, ?_⟩
  · cases here : dev.parentSpec with
    | true =>
      have there := counted.there here
      omega
    | false =>
      have gone := counted.gone here
      omega
  · cases here : dev.parentSpec with
    | true =>
      have there := counted.there here
      constructor
      · omega
      · rintro ⟨layered, getting, released⟩
        rw [layered, getting, released] at count
        simp only [Bool.toNat_false] at count
        omega
    | false =>
      have gone := counted.gone here
      refine ⟨fun _ => ?_, fun _ => gone.2.1⟩
      cases held : dev.holds with
      | false =>
        rw [held] at count
        exact ⟨by omega, by omega, rfl⟩
      | true =>
        rw [held] at count
        simp only [Bool.toNat_true] at count
        omega
  · intro removed
    cases held : dev.holds with
    | false => rfl
    | true =>
      have not := (counted.keeps held).1
      rw [removed] at not
      cases not

/-- Parent references are exact as long as no request is created without an overlap and the overlap ends
only while the device has its reference. -/
theorem parentRef_counts {overlap : Nat} (overlaps : overlap ≠ 0) (reached : Reached ParentCall.run
    (fun call dev => call.Proper dev ∧ call.Clean dev) (.probed overlap) dev) : ParentSafe dev := by
  have counted : Counted dev := by
    refine @Reached.preserved _ _ _ _ _ (fun dev => Counted dev) _ _ ?_ (Counted.probed overlaps) reached
    exact fun call before after meets holds ran => ParentCall.counted holds meets.1 meets.2 ran
  exact counted.safe

end

/-- The image is flattened while a request is in flight. -/
theorem parentRef_counts_flattened : ∃ dev : ParentDevice, dev.torn = 1 ∧ ParentSafe dev := by
  have incremented : Reached ParentCall.run (fun call dev => call.Proper dev ∧ call.Clean dev) (.probed 10) _ :=
    Reached.start.next .increment ⟨rfl, trivial⟩ rfl
  have created := incremented.next .checkOverlap ⟨Nat.one_pos, by unfold ParentCall.Clean; decide⟩ rfl
  have flattened := created.next (.refresh none) ⟨⟨rfl, rfl⟩, fun _ => rfl⟩ rfl
  have dropped := flattened.next .drop ⟨rfl, trivial⟩ rfl
  have destroyed := dropped.next .destroy ⟨by unfold ParentCall.Proper; decide, trivial⟩ rfl
  exact ⟨_, by decide, parentRef_counts (by decide) destroyed⟩

/-- A second request is created after that, and leaves a reference behind. -/
theorem parentRef_miscounts : ∃ dev : ParentDevice,
    Reached ParentCall.run ParentCall.Proper (.probed 10) dev ∧ dev.layered = 0 ∧ dev.getting = 0 ∧ dev.holds = false ∧
    dev.parentRef = 1 ∧ dev.torn = 0 ∧ ¬ ParentSafe dev := by
  have incremented : Reached ParentCall.run ParentCall.Proper (.probed 10) _ :=
    Reached.start.next .increment rfl rfl
  have created := incremented.next .checkOverlap Nat.one_pos rfl
  have flattened := created.next (.refresh none) ⟨rfl, rfl⟩ rfl
  have dropped := flattened.next .drop rfl rfl
  have incremented' := dropped.next .increment rfl rfl
  have failed := incremented'.next .checkOverlap Nat.one_pos rfl
  have destroyed := failed.next .destroy (by unfold ParentCall.Proper; decide) rfl
  refine ⟨_, destroyed, by decide, by decide, by decide, by decide, by decide, fun safe => ?_⟩
  have count := safe.count
  revert count
  decide

end KmodCeph.Rbd
