import KmodCeph.Crush.Rule

namespace KmodCeph.Crush

open Lib

/-- None of the 32-bit failure counters can wrap: `most` bounds the local
retries in any bucket, and every descent but the first is begun with fewer
than `tries` failures. -/
structure FirstnArgs.Budget (args : FirstnArgs) (most : Nat) : Prop where
  retries : args.localRetries.toNat ≤ most
  fallback : args.localFallbackRetries > 0 → ∀ slot bucket, args.map.bucketAt slot = .ok bucket →
    bucket.size.toNat + args.localFallbackRetries.toNat ≤ most
  room : max args.tries.toNat 1 + most < 2 ^ 32

variable {args : FirstnArgs} {most begun : Nat} {search : Search} {bucket : Bucket}

structure Search.Failed (after search : Search) : Prop where
  slot : after.slot = search.slot
  out2 : after.out2 = search.out2
  perms : after.perms = search.perms
  flocal : after.flocal.toNat = search.flocal.toNat + 1
  ftotal : after.ftotal.toNat = search.ftotal.toNat + 1

def Found.Nothing (found : Found) (out2 : List Int) : Prop :=
  found.item = none ∧ found.out2 = out2

theorem toNat_succ_of_lt (counter : UInt32) (small : counter.toNat + 1 < 2 ^ 32) :
    (counter + 1).toNat = counter.toNat + 1 := by
  exact Nat.mod_eq_of_lt small

theorem firstnRetry_holds (budget : args.Budget most)
    (located : args.map.bucketAt search.slot = .ok bucket)
    (few : search.flocal.toNat ≤ most) (total : search.ftotal.toNat = begun + search.flocal.toNat)
    (started : begun < max args.tries.toNat 1) (collide : Bool) :
    Next.Holds (fun after => after.Failed search ∧ after.flocal.toNat ≤ most)
      (Next.Holds (fun after => after.Failed search ∧ after.ftotal.toNat < args.tries.toNat)
        fun found => found.Nothing search.out2 ∧ found.perms = search.perms)
      (firstnRetry args bucket collide search) := by
  have room := budget.room
  have flocal := toNat_succ_of_lt search.flocal (by lia)
  have ftotal := toNat_succ_of_lt search.ftotal (by lia)
  have failed : Search.Failed
      { search with ftotal := search.ftotal + 1, flocal := search.flocal + 1 } search :=
    ⟨rfl, rfl, rfl, flocal, ftotal⟩
  simp only [firstnRetry]
  split
  · rename_i locally
    refine ⟨failed, ?_⟩
    exact (UInt32.le_iff_toNat_le.mp locally.2).trans budget.retries
  split
  · rename_i exhaustive
    have fits := budget.fallback exhaustive.1 _ _ located
    have sum : (bucket.size + args.localFallbackRetries).toNat =
        bucket.size.toNat + args.localFallbackRetries.toNat := by
      rw [UInt32.toNat_add]
      exact Nat.mod_eq_of_lt (by lia)
    refine ⟨failed, ?_⟩
    exact (UInt32.le_iff_toNat_le.mp exhaustive.2).trans (sum.le.trans fits)
  split
  · rename_i again
    exact ⟨failed, UInt32.lt_iff_toNat_lt.mp again⟩
  · exact ⟨⟨rfl, rfl⟩, rfl⟩

/-- The bucket being searched is the first one, or was passed on the way down
from it. -/
def Passed (map : CrushMap) (type root slot : Int) : Prop :=
  slot = root ∨ ∃ bucket, Descends map type root (bucketSlot slot) ∧
    map.bucketAt slot = .ok bucket ∧ (bucket.type.toNat : Int) ≠ type

theorem Passed.descends {map : CrushMap} {type root slot item : Int}
    (passed : Passed map type root slot) (located : map.bucketAt slot = .ok bucket)
    (member : item ∈ bucket.items) : Descends map type root item := by
  rcases passed with rfl | ⟨same, reached, found, differs⟩
  · exact .direct located member
  · rw [located] at found
    cases found
    refine .deeper reached ?_ (by rwa [bucketSlot_bucketSlot]) differs member
    have := bucketAt_nonneg located
    unfold bucketSlot
    omega

/-- What the inner loop maintains while it works on one descent that began
with `begun` failures. -/
structure Search.Keeps (search : Search) (args : FirstnArgs) (rank : Int → Nat) (root : Int)
    (out2 : List Int) (most begun variant : Nat) : Prop where
  bucket : ∃ bucket, args.map.bucketAt search.slot = .ok bucket
  passed : Passed args.map args.type root search.slot
  out2 : search.out2 = out2
  perms : search.perms.Fit args.map
  few : search.flocal.toNat ≤ most
  total : search.ftotal.toNat = begun + search.flocal.toNat
  rank : variant = rank search.slot + (most - search.flocal.toNat)

def Search.Redescends (search : Search) (args : FirstnArgs) (out2 : List Int) (begun : Nat) : Prop :=
  search.out2 = out2 ∧ search.perms.Fit args.map ∧
    begun < search.ftotal.toNat ∧ search.ftotal.toNat < args.tries.toNat

/-- What is known of the end of a search below `root`: nothing was found, or
an item of the wanted type that is not among the earlier ones. -/
def Found.Settles (found : Found) (args : FirstnArgs) (root : Int) (earlier : List Int)
    (out2 : List Int) (accepts : Int → List Int → Prop) : Prop :=
  found.perms.Fit args.map ∧
    (found.Nothing out2 ∨ ∃ item, found.item = some item ∧ Descends args.map args.type root item ∧
      args.map.itemType item = .ok args.type ∧ item ∉ earlier ∧ accepts item found.out2)

def PassHolds (args : FirstnArgs) (rank : Int → Nat) (root : Int) (earlier out2 : List Int)
    (accepts : Int → List Int → Prop) (most begun variant : Nat) :
    Next Search (Next Search Found) → Prop :=
  Next.Holds (fun after => ∃ lower < variant, after.Keeps args rank root out2 most begun lower)
    (Next.Holds (fun after => after.Redescends args out2 begun)
      fun found => found.Settles args root earlier out2 accepts)

section

variable {rank : Int → Nat} {root : Int} {earlier out2 : List Int}
  {accepts : Int → List Int → Prop} {variant : Nat}

theorem Search.Keeps.retry (keeps : search.Keeps args rank root out2 most begun variant)
    (budget : args.Budget most) (located : args.map.bucketAt search.slot = .ok bucket)
    (started : begun < max args.tries.toNat 1) (collide : Bool) :
    PassHolds args rank root earlier out2 accepts most begun variant
      (firstnRetry args bucket collide search) := by
  have retried := firstnRetry_holds budget located keeps.few keeps.total started collide
  have total := keeps.total
  have variantEq := keeps.rank
  cases decided : firstnRetry args bucket collide search with
  | again after =>
    rw [decided] at retried
    obtain ⟨failed, few⟩ := retried
    have flocal := failed.flocal
    have ftotal := failed.ftotal
    refine ⟨rank after.slot + (most - after.flocal.toNat), ?_, ?_, ?_, ?_, ?_, few, ?_, rfl⟩
    · rw [failed.slot]
      lia
    · rw [failed.slot]
      exact keeps.bucket
    · rw [failed.slot]
      exact keeps.passed
    · rw [failed.out2, keeps.out2]
    · rw [failed.perms]
      exact keeps.perms
    · lia
  | done next =>
    rw [decided] at retried
    cases next with
    | again after =>
      obtain ⟨failed, again⟩ := retried
      have ftotal := failed.ftotal
      exact ⟨failed.out2.trans keeps.out2, failed.perms ▸ keeps.perms, by lia, again⟩
    | done found =>
      obtain ⟨⟨nothing, same⟩, perms⟩ := retried
      exact ⟨perms ▸ keeps.perms, .inl ⟨nothing, same.trans keeps.out2⟩⟩

structure CrushMap.Sound (map : CrushMap) : Prop where
  wellFormed : map.WellFormed
  trees : map.TreesSound

theorem firstnDraw_returns (sound : args.map.Sound) {slot : Int}
    (located : args.map.bucketAt slot = .ok bucket) {cache : PermCache} (fits : cache.Fits bucket)
    (nonempty : bucket.size ≠ 0) {bound : Nat} (enough : 256 ≤ bound) (r flocal : UInt32) :
    Returns (firstnDraw args bound bucket r flocal cache) fun result =>
      result.1 ∈ bucket.items ∧ result.2.Fits bucket := by
  have allocated := sound.wellFormed.allocated _ _ located
  have nodes := bucket.numNodes.toNat_lt
  unfold firstnDraw
  split
  · exact bucketPermChoose_returns allocated fits nonempty
  · exact crushBucketChoose_returns allocated (sound.trees _ _ located) fits nonempty (by omega)

theorem itemType_returns {map : CrushMap} (sound : map.Sound) {slot item : Int}
    (located : map.bucketAt slot = .ok bucket) (member : item ∈ bucket.items) :
    Returns (map.itemType item) fun itemtype =>
      (0 ≤ item ∧ itemtype = 0) ∨
        (item < 0 ∧ ∃ child, map.bucketAt (bucketSlot item) = .ok child ∧
          itemtype = child.type.toNat) := by
  unfold CrushMap.itemType
  rcases sound.wellFormed.itemsExist _ _ located item member with ⟨device, _⟩ | ⟨negative, child, found⟩
  · rw [if_neg (by omega)]
    exact Returns.pure (.inl ⟨device, rfl⟩)
  · refine ⟨child.type.toNat, ?_, .inr ⟨negative, child, found, rfl⟩⟩
    rw [if_pos negative, found]
    rfl

/-- How an item of the wanted type is dealt with, as far as the loops around
it need to know. -/
def AcceptHolds (args : FirstnArgs) (leaf : Option LeafCall) (outpos : Nat) (out : List Int)
    (rank : Int → Nat) (root : Int) (out2 : List Int) (accepts : Int → List Int → Prop)
    (most : Nat) : Prop :=
  ∀ search variant begun bucket item r, search.Keeps args rank root out2 most begun variant →
    args.map.bucketAt search.slot = .ok bucket → begun < max args.tries.toNat 1 →
    Descends args.map args.type root item → args.map.itemType item = .ok args.type →
    Returns (firstnAccept args leaf bucket outpos out item args.type r search)
      (PassHolds args rank root (out.take outpos) out2 accepts most begun variant)

variable {leaf : Option LeafCall} {outpos rep bound : Nat} {out : List Int}

theorem firstnPass_returns (sound : args.map.Sound) (ranks : args.map.Ranks rank)
    (budget : args.Budget most) (enough : 256 ≤ bound)
    (accepting : AcceptHolds args leaf outpos out rank root out2 accepts most)
    (keeps : search.Keeps args rank root out2 most begun variant)
    (started : begun < max args.tries.toNat 1) :
    Returns (firstnPass args leaf bound rep outpos out search)
      (PassHolds args rank root (out.take outpos) out2 accepts most begun variant) := by
  obtain ⟨bucket, located⟩ := keeps.bucket
  simp only [firstnPass, located, bind, Except.bind]
  by_cases empty : bucket.size = 0
  · rw [if_pos empty]
    exact Returns.pure (keeps.retry budget located started false)
  rw [if_neg empty]
  obtain ⟨⟨item, cache⟩, drawn, member, fits⟩ := firstnDraw_returns sound located
    (keeps.perms _ _ located) empty enough
    (UInt32.ofNat rep + args.parentR + search.ftotal) search.flocal
  have perms := keeps.perms.update located fits
  have reached := keeps.passed.descends located member
  have settled : Found.Settles
      { item := none, out2 := search.out2, perms := Function.update search.perms search.slot cache }
      args root (out.take outpos) out2 accepts := ⟨perms, .inl ⟨rfl, keeps.out2⟩⟩
  have drawnKeeps : Search.Keeps
      { search with perms := Function.update search.perms search.slot cache }
      args rank root out2 most begun variant :=
    ⟨keeps.bucket, keeps.passed, keeps.out2, perms, keeps.few, keeps.total, keeps.rank⟩
  simp only [drawn]
  by_cases large : item ≥ args.map.maxDevices
  · rw [if_pos large]
    exact Returns.pure settled
  rw [if_neg large]
  obtain ⟨itemtype, typed, kind⟩ := itemType_returns sound located member
  simp only [typed]
  by_cases wanted : itemtype = args.type
  · rw [if_neg (by simpa using wanted)]
    subst wanted
    exact accepting _ _ _ _ _ _ drawnKeeps located started reached typed
  rw [if_pos wanted]
  by_cases bad : item ≥ 0 ∨ bucketSlot item ≥ args.map.buckets.length
  · rw [if_pos bad]
    exact Returns.pure settled
  rw [if_neg bad]
  have negative : item < 0 := by
    by_contra device
    exact bad (.inl (by omega))
  obtain ⟨child, found, differs⟩ : ∃ child, args.map.bucketAt (bucketSlot item) = .ok child ∧
      (child.type.toNat : Int) ≠ args.type := by
    rcases kind with ⟨device, _⟩ | ⟨_, child, found, rfl⟩
    · omega
    · exact ⟨child, found, wanted⟩
  have lower := ranks _ _ located item member negative
  have variantEq := keeps.rank
  refine Returns.pure ⟨rank (bucketSlot item) + (most - search.flocal.toNat), by lia,
    ⟨child, found⟩, .inr ⟨child, ?_, found, differs⟩, keeps.out2, perms, keeps.few, keeps.total, rfl⟩
  rw [bucketSlot_bucketSlot]
  exact reached

/-- The two retry loops end for every large enough bound. -/
theorem firstnSearch_returns (sound : args.map.Sound) (ranks : args.map.Ranks rank)
    (budget : args.Budget most) (enough : rank root + most + args.tries.toNat + 256 ≤ bound)
    (accepting : AcceptHolds args leaf outpos out rank root out2 accepts most)
    (located : args.map.bucketAt root = .ok bucket) {perms : Perms} (fit : perms.Fit args.map) :
    Returns (firstnSearch args leaf bound root rep outpos out out2 perms) fun found =>
      found.Settles args root (out.take outpos) out2 accepts := by
  refine Returns.loop
    (fun variant (search : Search) => search.out2 = out2 ∧ search.perms.Fit args.map ∧
      search.ftotal.toNat < max args.tries.toNat 1 ∧
      variant = args.tries.toNat - search.ftotal.toNat)
    (fun variant search holds => ?_) (show args.tries.toNat < bound by omega)
    ⟨rfl, fit, by simp, by simp⟩
  obtain ⟨same, fits, started, variantEq⟩ := holds
  have descent : Returns (loop .exhausted (firstnPass args leaf bound rep outpos out) bound
      { search with slot := root, flocal := 0 })
      (Next.Holds (fun after => after.Redescends args out2 search.ftotal.toNat)
        fun found => found.Settles args root (out.take outpos) out2 accepts) :=
    Returns.loop
      (fun variant (search' : Search) =>
        search'.Keeps args rank root out2 most search.ftotal.toNat variant)
      (fun _ _ keeps => firstnPass_returns sound ranks budget (by omega) accepting keeps started)
      (show rank root + most < bound by omega)
      ⟨⟨bucket, located⟩, .inl rfl, same, fits, by simp, by simp, by simp⟩
  refine descent.mono ?_
  rintro (after | found) decided
  · obtain ⟨same, fits, more, fewer⟩ := decided
    exact ⟨args.tries.toNat - after.ftotal.toNat, by lia, same, fits, by lia, rfl⟩
  · exact decided

end

end KmodCeph.Crush
