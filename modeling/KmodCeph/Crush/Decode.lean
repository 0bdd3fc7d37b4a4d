import KmodCeph.Basic
import KmodCeph.Crush.Map
import KmodCeph.Lib.Decoder

namespace KmodCeph.Crush

open Lib

/-- What the decoder met: a bucket with `room` bytes left where its weights begin, a
rule with `room` bytes left where its steps begin, and a name, with the position
before and after it was skipped. -/
inductive DecodeNote where
  | bucket (alg : UInt8) (size : UInt32) (room : Int)
  | rule (len : UInt32) (room : Int)
  | name (strlen : UInt32) (before after : Int)

abbrev Decoder (α : Type) := Decode DecodeNote Int α

def crushMagic : UInt32 := 0x00010000

def sizeOfInt (value : UInt32) : Nat := value.toInt32.toInt64.toUInt64.toNat

def sizeofCrushMap : Nat := 48
def sizeofCrushRule : Nat := 8
def sizeofRuleStep : Nat := 12

def sizeofBucket (alg : UInt32) : Nat :=
  if alg = 1 then 48 else if alg = 2 ∨ alg = 3 ∨ alg = 4 then 56 else 0

def bad {α : Type} : Decoder α := do
  let state ← get
  fail state.data

def needOrBad (region : Region) (count : Nat) : Decoder PUnit := do
  let state ← get
  need region state.data count

def fetchInt (region : Region) : Decoder Int := do
  let value ← fetch32 region
  pure value.toInt32.toInt

def fetchPair (region : Region) : Decoder (UInt32 × UInt32) := do
  let first ← fetch32 region
  let second ← fetch32 region
  pure (first, second)

def needWeights (region : Region) (b : Bucket) (count : Nat) : Decoder PUnit := do
  let state ← get
  note (.bucket b.alg b.size (region.finish - state.pos))
  need region (-einval) count

def crushDecodeUniformBucket (region : Region) (b : Bucket) : Decoder Bucket := do
  needWeights region b ((1 + b.size).toNat * 4)
  let _ ← fetch32 region
  pure b

def crushDecodeListBucket (region : Region) (b : Bucket) : Decoder Bucket := do
  allocate (-enomem) (b.size.toNat * 4)
  allocate (-enomem) (b.size.toNat * 4)
  needWeights region b ((2 * b.size).toNat * 4)
  let weights ← gather b.size.toNat (fetchPair region)
  pure { b with itemWeights := weights.map (·.1), sumWeights := weights.map (·.2) }

def crushDecodeTreeBucket (region : Region) (b : Bucket) : Decoder Bucket := do
  need region (-einval) 4
  let numNodes ← fetch32 region
  let numNodes := numNodes.toUInt8
  allocate (-enomem) (numNodes.toNat * 4)
  need region (-einval) (numNodes.toNat * 4)
  let nodeWeights ← gather numNodes.toNat (fetch32 region)
  pure { b with numNodes, nodeWeights }

def crushDecodeStrawBucket (region : Region) (b : Bucket) : Decoder Bucket := do
  allocate (-enomem) (b.size.toNat * 4)
  allocate (-enomem) (b.size.toNat * 4)
  needWeights region b ((2 * b.size).toNat * 4)
  let straws ← gather b.size.toNat (fetchPair region)
  pure { b with itemWeights := straws.map (·.1), straws := straws.map (·.2) }

def fetchBucket (region : Region) : Decoder Bucket := do
  let id ← fetchInt region
  let type ← fetch16 region
  let alg ← fetch8 region
  let hash ← fetch8 region
  let _ ← fetch32 region
  let size ← fetch32 region
  pure { id, type, alg, hash, size, items := [], itemWeights := [], sumWeights := [], numNodes := 0
         nodeWeights := [], straws := [] }

def decodeAlg (region : Region) (b : Bucket) : Decoder Bucket :=
  if b.alg = crushBucketUniform then crushDecodeUniformBucket region b
  else if b.alg = crushBucketList then crushDecodeListBucket region b
  else if b.alg = crushBucketTree then crushDecodeTreeBucket region b
  else crushDecodeStrawBucket region b

def setErr (code : Int) : Decoder PUnit := modify fun state => { state with data := code }

def decodeBucket (region : Region) : Decoder (Option Bucket) := do
  needOrBad region 4
  let alg ← fetch32 region
  if alg = 0 then pure none
  else if sizeofBucket alg = 0 then fail (-einval)
  else do
    allocate (-enomem) (sizeofBucket alg)
    needOrBad region 16
    let b ← fetchBucket region
    allocate (-enomem) (b.size.toNat * 4)
    allocate (-enomem) (b.size.toNat * 4)
    needOrBad region (b.size.toNat * 4)
    let items ← gather b.size.toNat (fetchInt region)
    let b := { b with items }
    if b.alg = crushBucketUniform ∨ b.alg = crushBucketList ∨ b.alg = crushBucketTree ∨
        b.alg = crushBucketStraw then do
      let b ← decodeAlg region b
      setErr 0
      pure (some b)
    else pure (some b)

def fetchStep (region : Region) : Decoder RuleStep := do
  let op ← fetch32 region
  let arg1 ← fetchInt region
  let arg2 ← fetchInt region
  pure { op, arg1, arg2 }

def fetchMask (region : Region) : Decoder Rule := do
  let ruleset ← fetch8 region
  let type ← fetch8 region
  let minSize ← fetch8 region
  let maxSize ← fetch8 region
  pure { ruleset, type, minSize, maxSize, steps := [] }

def needSteps (region : Region) (len : UInt32) : Decoder PUnit := do
  let state ← get
  note (.rule len (region.finish - state.pos))
  needOrBad region ((len * 3).toNat * 4)

def decodeRule (region : Region) : Decoder (Option Rule) := do
  needOrBad region 4
  let yes ← fetch32 region
  if yes = 0 then pure none
  else do
    needOrBad region 4
    let len ← fetch32 region
    allocate (-enomem) (sizeofCrushRule + len.toNat * sizeofRuleStep)
    needOrBad region 4
    let rule ← fetchMask region
    needSteps region len
    let steps ← gather len.toNat (fetchStep region)
    pure (some { rule with steps })

def skipName (region : Region) : Decoder PUnit := do
  skip 4
  need region (-einval) 4
  let strlen ← fetch32 region
  let state ← get
  note (.name strlen state.pos (state.pos + strlen.toInt32.toInt))
  skip strlen.toInt32.toInt

def skipNameMap (region : Region) : Decoder PUnit := do
  need region (-einval) 4
  let len ← fetch32 region
  times len.toNat (skipName region)

def decodeTunables (region : Region) (c : CrushMap) : Decoder CrushMap := do
  let state ← get
  if region.hasRoom state.pos 12 then do
    let chooseLocalTries ← fetch32 region
    let chooseLocalFallbackTries ← fetch32 region
    let chooseTotalTries ← fetch32 region
    let c := { c with chooseLocalTries, chooseLocalFallbackTries, chooseTotalTries }
    let state ← get
    if region.hasRoom state.pos 4 then do
      let chooseleafDescendOnce ← fetch32 region
      let c := { c with chooseleafDescendOnce }
      let state ← get
      if region.hasRoom state.pos 1 then do
        let chooseleafVaryR ← fetch8 region
        pure { c with chooseleafVaryR }
      else pure c
    else pure c
  else pure c

/-- The three name maps and the tunables; what is missing is left out. -/
def decodeTrailer (region : Region) (c : CrushMap) : Decoder CrushMap := do
  match ← attempt (times 3 (skipNameMap region)) with
  | .ok _ => decodeTunables region c
  | .error _ => pure c

/-- `crush_decode` up to its labels. -/
def decodeMap (region : Region) : Decoder CrushMap := do
  allocate (-enomem) sizeofCrushMap
  needOrBad region 16
  let magic ← fetch32 region
  if magic ≠ crushMagic then bad
  else do
    let maxBuckets ← fetch32 region
    let maxRules ← fetch32 region
    let maxDevices ← fetchInt region
    allocate (-enomem) (sizeOfInt maxBuckets * 8)
    allocate (-enomem) (maxRules.toNat * 8)
    let buckets ← gather maxBuckets.toInt32.toInt.toNat (decodeBucket region)
    let rules ← gather maxRules.toNat (decodeRule region)
    decodeTrailer region
      { buckets, rules, maxDevices, chooseLocalTries := 2, chooseLocalFallbackTries := 5, chooseTotalTries := 19
        chooseleafDescendOnce := 0, chooseleafVaryR := 0 }

/-- `crush_decode`. The result is `NULL` where `err` is 0 at the label `bad`: it
is the code of the last bucket by then. -/
def crushDecode (region : Region) : Decoder (Option CrushMap) := do
  match ← attempt (decodeMap region) with
  | .ok c => pure (some c)
  | .error code => if code = 0 then pure none else fail code

def decodeStart (allocs : List Bool) : Reading DecodeNote Int :=
  { pos := 0, allocs, trail := [], data := -einval }

end KmodCeph.Crush
