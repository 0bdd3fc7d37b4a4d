import KmodCeph.Lib.Bytes
import KmodCeph.Lib.Triple

namespace KmodCeph.Lib

open Nat

inductive Damage where
  | read
  | write
  | bug
  | nested
deriving DecidableEq

/-- A decoder stops with an error of its own, or where it reads outside the memory. -/
inductive Stop where
  | error (code : Int)
  | damage (damage : Damage)
deriving DecidableEq

/-- The memory that may be read and the end of the section in it. -/
structure Region where
  memory : List UInt8
  finish : Int

/-- The position, the outcomes of the allocations to come, notes of what was met
so far, and what is decoded into. -/
structure Reading (ν σ : Type) where
  pos : Int
  allocs : List Bool
  trail : List ν
  data : σ

abbrev Decode (ν σ α : Type) := EStateM Stop (Reading ν σ) α

variable {ν σ τ α β : Type}

def Region.hasRoom (region : Region) (pos : Int) (count : Nat) : Bool :=
  pos ≤ region.finish ∧ (count : Int) ≤ region.finish - pos

def fail (code : Int) : Decode ν σ α := throw (.error code)

def need (region : Region) (code : Int) (count : Nat) : Decode ν σ PUnit := fun state =>
  if region.hasRoom state.pos count then .ok ⟨⟩ state else .error (.error code) state

def fetch (region : Region) (count : Nat) : Decode ν σ (List UInt8) := fun state =>
  if 0 ≤ state.pos ∧ state.pos + count ≤ region.memory.length then
    .ok ((region.memory.drop state.pos.toNat).take count) { state with pos := state.pos + count }
  else .error (.damage .read) state

def skip (distance : Int) : Decode ν σ PUnit := modify fun state => { state with pos := state.pos + distance }

def note (entry : ν) : Decode ν σ PUnit := modify fun state => { state with trail := entry :: state.trail }

/-- An allocation. None of half the address space or more succeeds. -/
def allocate (code : Int) (size : Nat) : Decode ν σ PUnit := fun state =>
  let after := { state with allocs := state.allocs.tail }
  if size < 2 ^ 63 ∧ state.allocs.headD true then .ok ⟨⟩ after else .error (.error code) after

def fetch8 (region : Region) : Decode ν σ UInt8 := do
  let bytes ← fetch region 1
  pure (UInt8.ofNat (leValue bytes))

def fetch16 (region : Region) : Decode ν σ UInt16 := do
  let bytes ← fetch region 2
  pure (UInt16.ofNat (leValue bytes))

def fetch32 (region : Region) : Decode ν σ UInt32 := do
  let bytes ← fetch region 4
  pure (UInt32.ofNat (leValue bytes))

def fetch64 (region : Region) : Decode ν σ UInt64 := do
  let bytes ← fetch region 8
  pure (UInt64.ofNat (leValue bytes))

def attempt (program : Decode ν σ α) : Decode ν σ (Except Int α) := fun state =>
  match program state with
  | .ok result after => .ok (.ok result) after
  | .error (.error code) after => .ok (.error code) after
  | .error (.damage damage) after => .error (.damage damage) after

def bug : Decode ν σ α := throw (.damage .bug)

def jump (pos : Int) : Decode ν σ PUnit := modify fun state => { state with pos }

/-- Decode something else from here on, with data of its own, and stay here. Of
its notes and its damage there is left what is said. -/
def nested {μ : Type} (program : Decode μ τ α) (start : τ) (noted : List μ → List ν) (damaged : Damage → Damage) :
    Decode ν σ (α × τ) := fun state =>
  match program { pos := state.pos, allocs := state.allocs, trail := [], data := start } with
  | .ok result after =>
    .ok (result, after.data) { state with allocs := after.allocs, trail := noted after.trail ++ state.trail }
  | .error (.error code) after =>
    .error (.error code) { state with allocs := after.allocs, trail := noted after.trail ++ state.trail }
  | .error (.damage damage) after =>
    .error (.damage (damaged damage)) { state with allocs := after.allocs, trail := noted after.trail ++ state.trail }

section

variable {region : Region} {state : Reading ν σ} {post : α → Reading ν σ → Prop}
variable {stop : Stop → Reading ν σ → Prop}

theorem Triple.fail {code : Int} (holds : stop (.error code) state) :
    Triple (fail code : Decode ν σ α) state post stop :=
  holds

variable {code : Int} {count : Nat}

theorem Triple.need {post : PUnit → Reading ν σ → Prop} (room : region.hasRoom state.pos count → post ⟨⟩ state)
    (short : ¬ region.hasRoom state.pos count → stop (.error code) state) :
    Triple (need region code count) state post stop := by
  unfold Triple Lib.need
  by_cases enough : region.hasRoom state.pos count
  · rw [if_pos enough]
    exact room enough
  · rw [if_neg enough]
    exact short enough

theorem Triple.fetch {post : List UInt8 → Reading ν σ → Prop}
    (inside : 0 ≤ state.pos → state.pos + count ≤ region.memory.length →
      post ((region.memory.drop state.pos.toNat).take count) { state with pos := state.pos + count })
    (outside : ¬ (0 ≤ state.pos ∧ state.pos + count ≤ region.memory.length) → stop (.damage .read) state) :
    Triple (fetch region count) state post stop := by
  unfold Triple Lib.fetch
  by_cases within : 0 ≤ state.pos ∧ state.pos + count ≤ region.memory.length
  · rw [if_pos within]
    exact inside within.1 within.2
  · rw [if_neg within]
    exact outside within

theorem Triple.skip {distance : Int} {post : PUnit → Reading ν σ → Prop}
    (holds : post ⟨⟩ { state with pos := state.pos + distance }) : Triple (skip distance) state post stop :=
  holds

theorem Triple.note {entry : ν} {post : PUnit → Reading ν σ → Prop}
    (holds : post ⟨⟩ { state with trail := entry :: state.trail }) : Triple (note entry) state post stop :=
  holds

theorem Triple.allocate {size : Nat} {post : PUnit → Reading ν σ → Prop}
    (succeeds : size < 2 ^ 63 → post ⟨⟩ { state with allocs := state.allocs.tail })
    (fails : stop (.error code) { state with allocs := state.allocs.tail }) :
    Triple (allocate code size) state post stop := by
  unfold Triple Lib.allocate
  by_cases done : size < 2 ^ 63 ∧ state.allocs.headD true
  · simp only [done, and_self, if_true]
    exact succeeds done.1
  · simp only [done, if_false]
    exact fails

theorem Triple.attempt {program : Decode ν σ α} {post : Except Int α → Reading ν σ → Prop}
    (triple : Triple program state (fun result after => post (.ok result) after) fun reason after =>
      match reason with
      | .error code => post (.error code) after
      | .damage damage => stop (.damage damage) after) :
    Triple (attempt program) state post stop := by
  unfold Triple at triple ⊢
  unfold Lib.attempt
  cases ran : program state with
  | ok result after =>
    rw [ran] at triple
    exact triple
  | error reason after =>
    rw [ran] at triple
    cases reason with
    | error code => exact triple
    | damage damage => exact triple

end

structure Consumes (region : Region) (count : Nat) (program : Decode ν σ α) : Prop where
  enough : ∀ state : Reading ν σ, 0 ≤ state.pos → state.pos + count ≤ region.memory.length →
    ∃ result, program state = .ok result { state with pos := state.pos + count }
  short : ∀ state : Reading ν σ, 0 ≤ state.pos → state.pos ≤ region.memory.length →
    region.memory.length < state.pos + count →
    ∃ pos, program state = .error (.damage .read) { state with pos }

section

variable {region : Region}

theorem Consumes.fetch (count : Nat) : Consumes region count (fetch region count : Decode ν σ (List UInt8)) where
  enough state nonneg inside := ⟨_, if_pos ⟨nonneg, inside⟩⟩
  short state nonneg _ outside := ⟨state.pos, if_neg (by omega)⟩

theorem Consumes.pure (result : α) : Consumes region 0 (Pure.pure result : Decode ν σ α) where
  enough state _ _ := by
    refine ⟨result, ?_⟩
    simp only [cast_zero, Int.add_zero]
    rfl
  short state _ _ outside := by omega

theorem Consumes.bind {first : Decode ν σ α} {next : α → Decode ν σ β} {here later : Nat}
    (reads : Consumes region here first) (continues : ∀ result, Consumes region later (next result)) :
    Consumes region (here + later) (first >>= next) where
  enough state nonneg inside := by
    rw [cast_add] at inside
    obtain ⟨result, ran⟩ := reads.enough state nonneg (by omega)
    obtain ⟨final, ranNext⟩ := (continues result).enough { state with pos := state.pos + here } (by simp only; omega)
      (by simp only; omega)
    refine ⟨final, (bind_of_ok ran).trans (ranNext.trans ?_)⟩
    simp only [cast_add, Int.add_assoc]
  short state nonneg within outside := by
    rw [cast_add] at outside
    by_cases inside : state.pos + here ≤ region.memory.length
    · obtain ⟨result, ran⟩ := reads.enough state nonneg inside
      obtain ⟨pos, failed⟩ := (continues result).short { state with pos := state.pos + here } (by simp only; omega)
        (by simp only; omega) (by simp only; omega)
      exact ⟨pos, (bind_of_ok ran).trans failed⟩
    · obtain ⟨pos, failed⟩ := reads.short state nonneg within (by omega)
      exact ⟨pos, bind_of_error failed⟩

variable {program : Decode ν σ α} {count : Nat} {state : Reading ν σ} {stop : Stop → Reading ν σ → Prop}

theorem Consumes.map (reads : Consumes region count program) (change : α → β) :
    Consumes region count (program >>= fun result => Pure.pure (change result)) :=
  Consumes.bind reads fun result => Consumes.pure (change result)

theorem Consumes.fetch8 : Consumes region 1 (fetch8 region : Decode ν σ UInt8) := (Consumes.fetch 1).map _

theorem Consumes.fetch16 : Consumes region 2 (fetch16 region : Decode ν σ UInt16) := (Consumes.fetch 2).map _

theorem Consumes.fetch32 : Consumes region 4 (fetch32 region : Decode ν σ UInt32) := (Consumes.fetch 4).map _

theorem Consumes.fetch64 : Consumes region 8 (fetch64 region : Decode ν σ UInt64) := (Consumes.fetch 8).map _

theorem Consumes.gather {program : Decode ν σ α} {count : Nat} (reads : Consumes region count program) (passes : Nat) :
    Consumes region (passes * count) (gather passes program) := by
  induction passes with
  | zero =>
    rw [Nat.zero_mul]
    exact Consumes.pure []
  | succ passes ih =>
    rw [succ_mul, Nat.add_comm]
    exact Consumes.bind reads fun first => Consumes.map ih _

theorem Consumes.triple {post : α → Reading ν σ → Prop}
    (reads : Consumes region count program) (nonneg : 0 ≤ state.pos)
    (inside : state.pos + count ≤ region.memory.length)
    (holds : ∀ result, post result { state with pos := state.pos + count }) : Triple program state post stop := by
  obtain ⟨result, ran⟩ := reads.enough state nonneg inside
  unfold Triple
  rw [ran]
  exact holds result

theorem Consumes.damaged {first : Decode ν σ α} {next : α → Decode ν σ β}
    {post : β → Reading ν σ → Prop} (reads : Consumes region count first)
    (nonneg : 0 ≤ state.pos) (within : state.pos ≤ region.memory.length)
    (outside : region.memory.length < state.pos + count) (holds : ∀ pos, stop (.damage .read) { state with pos }) :
    Triple (first >>= next) state post stop := by
  obtain ⟨pos, failed⟩ := reads.short state nonneg within outside
  unfold Triple
  rw [bind_of_error failed]
  exact holds pos

end

def Grows (program : Decode ν σ α) : Prop :=
  ∀ state, Triple program state (fun _ after => state.trail ⊆ after.trail) fun _ after => state.trail ⊆ after.trail

section

variable {region : Region}

theorem Grows.pure (result : α) : Grows (Pure.pure result : Decode ν σ α) :=
  fun _ => Triple.pure (List.Subset.refl _)

theorem Grows.need (code : Int) (count : Nat) : Grows (need region code count : Decode ν σ PUnit) :=
  fun _ => Triple.need (fun _ => List.Subset.refl _) fun _ => List.Subset.refl _

theorem Grows.fetch (count : Nat) : Grows (fetch region count : Decode ν σ (List UInt8)) :=
  fun _ => Triple.fetch (fun _ _ => List.Subset.refl _) fun _ => List.Subset.refl _

theorem Grows.skip (distance : Int) : Grows (skip distance : Decode ν σ PUnit) :=
  fun _ => Triple.skip (List.Subset.refl _)

theorem Grows.note (entry : ν) : Grows (note entry : Decode ν σ PUnit) :=
  fun _ => Triple.note (List.subset_cons_self _ _)

theorem Grows.bind {first : Decode ν σ α} {next : α → Decode ν σ β} (grows : Grows first)
    (continues : ∀ result, Grows (next result)) : Grows (first >>= next) := by
  intro state
  refine Triple.bind _ (grows state) fun result middle kept => ?_
  exact (continues result middle).mono (fun _ _ kept' => List.Subset.trans kept kept')
    fun _ _ kept' => List.Subset.trans kept kept'

theorem Grows.read {next : Reading ν σ → Decode ν σ α} (continues : ∀ state, Grows (next state)) :
    Grows (get >>= next) :=
  fun state => Triple.read (continues state state)

theorem Grows.fetch8 : Grows (fetch8 region : Decode ν σ UInt8) :=
  Grows.bind (Grows.fetch 1) fun _ => Grows.pure _

theorem Grows.fetch32 : Grows (fetch32 region : Decode ν σ UInt32) :=
  Grows.bind (Grows.fetch 4) fun _ => Grows.pure _

theorem Grows.times {program : Decode ν σ PUnit} (grows : Grows program) (count : Nat) : Grows (times count program) := by
  induction count with
  | zero => exact Grows.pure _
  | succ count ih => exact Grows.bind grows fun _ => ih

end

end KmodCeph.Lib
