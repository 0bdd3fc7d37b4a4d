import KmodCeph.Mdsmap.Decode

namespace KmodCeph.Mdsmap

open Nat Option

def MdsInfo.isUp (info : MdsInfo) : Bool := info.state > 0

/-- The inner loop: the first MDS from `i` on that is up, none where it runs past the array. -/
def passDown (infos : List MdsInfo) (i : Nat) : Option Nat := ((infos.drop i).findIdx? MdsInfo.isUp).map (i + ·)

/-- The outer loop, with `n` still to be counted down. -/
def pick (infos : List MdsInfo) : Nat → Nat → Option Nat
  | i, 0 => some i
  | i, n + 1 => do
    let i ← passDown infos i
    pick infos (i + 1) n

/-- `random` is what `prandom_u32` returns; none where the array is left. -/
def cephMdsmapGetRandomMds {maxMds : UInt32} (infos : Vector MdsInfo maxMds.toNat) (random : UInt32) : Option Int :=
  if maxMds = 1 ∧ infos.toList.head?.any MdsInfo.isUp then some 0
  else
    let n := infos.toList.countP MdsInfo.isUp
    if n = 0 then some (-1) else (pick infos.toList 0 (random.toNat % n)).map Int.ofNat

def Chosen (infos : List MdsInfo) (chosen : Option Int) : Prop :=
  if infos.countP MdsInfo.isUp = 0 then chosen = some (-1)
  else ∃ (i : Nat) (info : MdsInfo), chosen = some (i : Int) ∧ infos[i]? = some info ∧ info.isUp

/-- No MDS that is up comes behind one that is not. -/
def Leading (infos : List MdsInfo) : Prop := infos.Pairwise fun before behind => behind.isUp → before.isUp

section

variable {infos : List MdsInfo}

theorem passDown_of_up {i : Nat} {info : MdsInfo} (found : infos[i]? = some info) (up : info.isUp) :
    passDown infos i = some i := by
  have rest : infos.drop i = info :: infos.drop (i + 1) := by
    obtain ⟨inside, rfl⟩ := List.getElem?_eq_some_iff.mp found
    exact List.drop_eq_getElem_cons inside
  simp only [passDown, rest, List.findIdx?_cons, up, if_true, map_some, Nat.add_zero]

/-- As long as every MDS met is up, the index is the count. -/
theorem pick_of_up {i n : Nat} (up : ∀ j < n, ∃ info, infos[i + j]? = some info ∧ info.isUp) :
    pick infos i n = some (i + n) := by
  induction n generalizing i with
  | zero => rfl
  | succ n ih =>
    obtain ⟨info, found, isUp⟩ := up 0 n.succ_pos
    have rest := @ih (i + 1) fun j below => by
      have := up (j + 1) (succ_lt_succ below)
      rwa [← Nat.add_assoc, Nat.add_right_comm] at this
    have here : passDown infos i = some i := passDown_of_up found isUp
    calc pick infos i (n + 1) = pick infos (i + 1) n := by simp only [pick, here, bind_eq_bind, bind_some]
      _ = some (i + (n + 1)) := by rw [rest, Nat.add_assoc, Nat.add_comm 1 n]

/-- Where all that are up lead, the first that many are up. -/
theorem Leading.up_of_lt (leading : Leading infos) {i : Nat} (below : i < infos.countP MdsInfo.isUp) :
    ∃ info, infos[i]? = some info ∧ info.isUp := by
  induction infos generalizing i with
  | nil => exact absurd below (not_lt_zero i)
  | cons first rest ih =>
    obtain ⟨behind, leadingRest⟩ := List.pairwise_cons.mp leading
    have firstUp : first.isUp := by
      by_contra down
      have none : (first :: rest).countP MdsInfo.isUp = 0 := by
        refine List.countP_eq_zero.mpr fun info mem up => down ?_
        rcases List.mem_cons.mp mem with rfl | later
        · exact up
        · exact behind info later up
      omega
    cases i with
    | zero => exact ⟨first, rfl, firstUp⟩
    | succ i =>
      rw [List.countP_cons_of_pos firstUp] at below
      exact ih leadingRest (lt_of_succ_lt_succ below)

/-- Otherwise so many lead that the next is not up, and there are more. -/
theorem exists_gap (gap : ¬ Leading infos) : ∃ (k : Nat) (info : MdsInfo), k < infos.countP MdsInfo.isUp ∧
    (∀ j < k, ∃ info, infos[j]? = some info ∧ info.isUp) ∧ infos[k]? = some info ∧ ¬ info.isUp := by
  induction infos with
  | nil => exact absurd List.Pairwise.nil gap
  | cons first rest ih =>
    by_cases up : first.isUp
    · have gapRest : ¬ Leading rest := fun leading =>
        gap (List.pairwise_cons.mpr ⟨fun _ _ _ => up, leading⟩)
      obtain ⟨k, info, more, before, here, down⟩ := ih gapRest
      refine ⟨k + 1, info, ?_, fun j below => ?_, here, down⟩
      · rw [List.countP_cons_of_pos up]
        exact succ_lt_succ more
      · cases j with
        | zero => exact ⟨first, rfl, up⟩
        | succ j => exact before j (lt_of_succ_lt_succ below)
    · refine ⟨0, first, ?_, fun j below => absurd below (not_lt_zero j), rfl, up⟩
      refine Nat.pos_of_ne_zero fun none => gap ?_
      have allDown := List.countP_eq_zero.mp none
      exact List.pairwise_of_forall_mem_list fun _ _ behind mem isUp => absurd isUp (allDown behind mem)

end

section

variable {maxMds : UInt32} (infos : Vector MdsInfo maxMds.toNat)

theorem getRandomMds_of_up {k : Nat} (more : k < infos.toList.countP MdsInfo.isUp)
    (up : ∀ j < k, ∃ info, infos.toList[j]? = some info ∧ info.isUp) {random : UInt32}
    (residue : random.toNat % infos.toList.countP MdsInfo.isUp = k) :
    cephMdsmapGetRandomMds infos random = some (k : Int) := by
  have picked : pick infos.toList 0 k = some k := by
    simpa only [Nat.zero_add] using pick_of_up (i := 0) fun j below => by simpa only [Nat.zero_add] using up j below
  unfold cephMdsmapGetRandomMds
  split
  next single =>
    have one : maxMds.toNat = 1 := congrArg UInt32.toNat single.1
    have count := (@List.countP_le_length _ MdsInfo.isUp infos.toList).trans_eq (Vector.length_toList.trans one)
    simp only [Option.some.injEq]
    lia
  next =>
    have some : infos.toList.countP MdsInfo.isUp ≠ 0 := by omega
    simp only [residue, picked, if_neg some, map_some, Int.ofNat_eq_natCast]

/-- For every random number an MDS that is up, and another for each residue, exactly
if those that are up are the first of all. -/
theorem random_mds_chosen_iff_leading :
    ((∀ random, Chosen infos.toList (cephMdsmapGetRandomMds infos random)) ∧
      ∀ random random' : UInt32, infos.toList.countP MdsInfo.isUp ≠ 0 →
        cephMdsmapGetRandomMds infos random = cephMdsmapGetRandomMds infos random' →
        random.toNat % infos.toList.countP MdsInfo.isUp = random'.toNat % infos.toList.countP MdsInfo.isUp) ↔
    Leading infos.toList := by
  constructor
  · rintro ⟨chosen, -⟩
    by_contra gap
    obtain ⟨k, info, more, before, here, down⟩ := exists_gap gap
    have fits : k < 2 ^ 32 := by
      have inside := (List.getElem?_eq_some_iff.mp here).1
      rw [Vector.length_toList] at inside
      exact inside.trans maxMds.toNat_lt
    have residue : (UInt32.ofNat k).toNat % infos.toList.countP MdsInfo.isUp = k := by
      rw [UInt32.toNat_ofNat_of_lt' fits, mod_eq_of_lt more]
    have wrong := chosen (UInt32.ofNat k)
    rw [getRandomMds_of_up infos more before residue, Chosen, if_neg (by omega)] at wrong
    obtain ⟨i, other, same, found, up⟩ := wrong
    obtain rfl : k = i := Int.ofNat_inj.mp (Option.some.inj same)
    rw [here] at found
    cases found
    exact down up
  · intro leading
    have picked : ∀ random : UInt32, infos.toList.countP MdsInfo.isUp ≠ 0 → cephMdsmapGetRandomMds infos random =
        some ((random.toNat % infos.toList.countP MdsInfo.isUp : Nat) : Int) := fun random some => by
      have below := mod_lt random.toNat (Nat.pos_of_ne_zero some)
      exact getRandomMds_of_up infos below (fun j before => leading.up_of_lt (before.trans below)) rfl
    refine ⟨fun random => ?_, fun random random' some same => ?_⟩
    · unfold Chosen
      split
      next none =>
        have single : ¬ (maxMds = 1 ∧ infos.toList.head?.any MdsInfo.isUp) := by
          rintro ⟨-, up⟩
          cases head : infos.toList.head? with
          | none => simp [head] at up
          | some info =>
            rw [head] at up
            exact List.countP_eq_zero.mp none info (List.mem_of_head? head) up
        simp only [cephMdsmapGetRandomMds, if_neg single, none, if_true]
      next some =>
        obtain ⟨info, found, up⟩ := leading.up_of_lt (mod_lt random.toNat (Nat.pos_of_ne_zero some))
        exact ⟨_, info, picked random some, found, up⟩
    · rw [picked random some, picked random' some] at same
      exact Int.ofNat_inj.mp (Option.some.inj same)

end

def upInfo : MdsInfo := { MdsInfo.blank with state := 13 }

/-- Of two, the second alone is up: the first is chosen. -/
theorem random_mds_not_up : ¬ ∀ (maxMds : UInt32) (infos : Vector MdsInfo maxMds.toNat) (random : UInt32),
    Chosen infos.toList (cephMdsmapGetRandomMds infos random) := by
  intro chosen
  have wrong := chosen 2 ⟨#[MdsInfo.blank, upInfo], rfl⟩ 0
  have result : @cephMdsmapGetRandomMds 2 ⟨#[MdsInfo.blank, upInfo], rfl⟩ 0 = some 0 := by decide
  rw [result, Chosen, if_neg (by decide)] at wrong
  obtain ⟨i, info, same, found, up⟩ := wrong
  obtain rfl : 0 = i := Int.ofNat_inj.mp (Option.some.inj same)
  cases found
  exact absurd up (by decide)

end KmodCeph.Mdsmap
