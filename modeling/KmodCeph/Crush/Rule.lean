import KmodCeph.Crush.Choose

namespace KmodCeph.Crush

open Lib

def crushRuleTake : UInt32 := 1
def crushRuleChooseFirstn : UInt32 := 2
def crushRuleChooseIndep : UInt32 := 3
def crushRuleEmit : UInt32 := 4
def crushRuleChooseleafFirstn : UInt32 := 6
def crushRuleChooseleafIndep : UInt32 := 7
def crushRuleSetChooseTries : UInt32 := 8
def crushRuleSetChooseleafTries : UInt32 := 9
def crushRuleSetChooseLocalTries : UInt32 := 10
def crushRuleSetChooseLocalFallbackTries : UInt32 := 11
def crushRuleSetChooseleafVaryR : UInt32 := 12

def crushFindRule (map : CrushMap) (ruleset type : UInt8) (size : Int) : Int :=
  match map.rules.findIdx? fun slot =>
    match slot with
    | none => false
    | some rule => rule.ruleset = ruleset ∧ rule.type = type ∧
        (rule.minSize.toNat : Int) ≤ size ∧ (rule.maxSize.toNat : Int) ≥ size with
  | some index => index
  | none => -1

/-- The arguments of `crush_do_rule`. -/
structure RuleInput where
  map : CrushMap
  x : UInt32
  resultMax : Nat
  weight : List UInt32
  weightMax : Int

/-- The variables of `crush_do_rule`. The vectors `w`, `o` and `c` are the
three parts of the scratch space, `result_max` long each. With a `result_max` of
0 they begin at the same place: `w[0]` is there, and `o` and `c` are empty. -/
structure RuleState where
  w : List Int
  wsize : Nat
  o : List Int
  c : List Int
  result : List Int
  chooseTries : UInt32
  chooseLeafTries : UInt32
  chooseLocalRetries : UInt32
  chooseLocalFallbackRetries : UInt32
  varyR : UInt32
  perms : Perms

/-- `numrep` of a choose step: not positive means relative to `result_max`. -/
def resolveNumrep (resultMax : Nat) (arg1 : Int) : Int :=
  if arg1 ≤ 0 then arg1 + resultMax else arg1

def recurseTries (map : CrushMap) (state : RuleState) : UInt32 :=
  if state.chooseLeafTries ≠ 0 then state.chooseLeafTries
  else if map.chooseleafDescendOnce ≠ 0 then 1
  else state.chooseTries

def RuleState.firstnArgs (input : RuleInput) (state : RuleState) (type : Int) : FirstnArgs :=
  { map := input.map, weight := input.weight, weightMax := input.weightMax, x := input.x, type
    tries := state.chooseTries, localRetries := state.chooseLocalRetries
    localFallbackRetries := state.chooseLocalFallbackRetries, varyR := state.varyR, parentR := 0 }

def RuleState.indepArgs (input : RuleInput) (state : RuleState) (numrep : Nat) (positive : 0 < numrep) (type : Int) :
    IndepArgs :=
  { map := input.map, weight := input.weight, weightMax := input.weightMax, x := input.x, numrep, positive
    type, tries := state.chooseTries, parentR := 0 }

/-- The `for (i = 0; i < wsize; i++)` loop of a choose step from index `i` with
`count` left; `osize` entries of `o` and `c` are filled. -/
def chooseEach (input : RuleInput) (bound : Nat) (step : RuleStep) (firstn recurseToLeaf : Bool) :
    Nat → Nat → Nat → RuleState → Except Fault (Nat × RuleState)
  | 0, _, osize, state => .ok (osize, state)
  | count + 1, i, osize, state => do
    let numrep := resolveNumrep input.resultMax step.arg1
    if none : numrep ≤ 0 then chooseEach input bound step firstn recurseToLeaf count (i + 1) osize state
    else do
      let start ← readAt .scratch state.w i
      input.map.checkSlot (bucketSlot start)
      if firstn then do
        let (taken, out, out2, perms) ← crushChooseFirstn (state.firstnArgs input step.arg2) bound
          (bucketSlot start) numrep.toNat 0 (state.o.drop osize) (state.c.drop osize) state.perms
          (recurseTries input.map state) recurseToLeaf
        chooseEach input bound step firstn recurseToLeaf count (i + 1) (osize + taken)
          { state with o := state.o.take osize ++ out, c := state.c.take osize ++ out2, perms }
      else do
        let (out, out2, perms) ← crushChooseIndep
          (state.indepArgs input numrep.toNat (by omega) step.arg2) bound
          (bucketSlot start) numrep.toNat 0 (state.o.drop osize) (some (state.c.drop osize))
          state.perms (if state.chooseLeafTries ≠ 0 then state.chooseLeafTries else 1) recurseToLeaf
        chooseEach input bound step firstn recurseToLeaf count (i + 1) (osize + numrep.toNat)
          { state with o := state.o.take osize ++ out,
                       c := state.c.take osize ++ out2.getD [], perms }

/-- A choose step: the leaves replace the chosen items, and the vectors are
swapped, which does nothing where both are the same. -/
def chooseStep (input : RuleInput) (bound : Nat) (step : RuleStep) (firstn recurseToLeaf : Bool)
    (state : RuleState) : Except Fault RuleState :=
  if state.wsize = 0 then .ok state
  else do
    let (osize, state) ← chooseEach input bound step firstn recurseToLeaf state.wsize 0 0 state
    let o := if recurseToLeaf then state.c.take osize ++ state.o.drop osize else state.o
    .ok { state with w := o ++ state.w.drop o.length, o := state.w.take input.resultMax, wsize := osize }

def ruleStep (input : RuleInput) (bound : Nat) (step : RuleStep) (state : RuleState) :
    Except Fault RuleState :=
  if step.op = crushRuleTake then do
    let w ← writeAt .scratch state.w 0 step.arg1
    .ok { state with w, wsize := 1 }
  else if step.op = crushRuleSetChooseTries then
    .ok (if step.arg1 > 0 then { state with chooseTries := UInt32.ofInt step.arg1 } else state)
  else if step.op = crushRuleSetChooseleafTries then
    .ok (if step.arg1 > 0 then { state with chooseLeafTries := UInt32.ofInt step.arg1 } else state)
  else if step.op = crushRuleSetChooseLocalTries then
    .ok (if step.arg1 ≥ 0 then { state with chooseLocalRetries := UInt32.ofInt step.arg1 }
      else state)
  else if step.op = crushRuleSetChooseLocalFallbackTries then
    .ok (if step.arg1 ≥ 0 then
      { state with chooseLocalFallbackRetries := UInt32.ofInt step.arg1 } else state)
  else if step.op = crushRuleSetChooseleafVaryR then
    .ok (if step.arg1 ≥ 0 then { state with varyR := UInt32.ofInt step.arg1 } else state)
  else if step.op = crushRuleChooseleafFirstn then chooseStep input bound step true true state
  else if step.op = crushRuleChooseFirstn then chooseStep input bound step true false state
  else if step.op = crushRuleChooseleafIndep then chooseStep input bound step false true state
  else if step.op = crushRuleChooseIndep then chooseStep input bound step false false state
  else if step.op = crushRuleEmit then
    .ok { state with
      result := state.result ++
        (state.w.take state.wsize).take (input.resultMax - state.result.length)
      wsize := 0 }
  else .ok state

def ruleSteps (input : RuleInput) (bound : Nat) :
    List RuleStep → RuleState → Except Fault RuleState
  | [], state => .ok state
  | step :: rest, state => do
    let state ← ruleStep input bound step state
    ruleSteps input bound rest state

def RuleInput.start (input : RuleInput) (scratch : List Int) (perms : Perms) : RuleState :=
  { w := scratch.take (max input.resultMax 1), wsize := 0
    o := (scratch.drop input.resultMax).take input.resultMax
    c := (scratch.drop (2 * input.resultMax)).take input.resultMax
    result := []
    chooseTries := input.map.chooseTotalTries + 1, chooseLeafTries := 0
    chooseLocalRetries := input.map.chooseLocalTries
    chooseLocalFallbackRetries := input.map.chooseLocalFallbackTries
    varyR := input.map.chooseleafVaryR.toUInt32, perms }

/-- `crush_do_rule`. The scratch space comes with whatever it holds; the
results and the permutations left behind are returned. -/
def crushDoRule (input : RuleInput) (bound : Nat) (ruleno : Int) (scratch : List Int)
    (perms : Perms) : Except Fault (List Int × Perms) :=
  if (UInt32.ofInt ruleno).toNat ≥ input.map.rules.length then .ok ([], perms)
  else
    match input.map.rules[(UInt32.ofInt ruleno).toNat]? with
    | none | some none => .error .nullRule
    | some (some rule) => do
      let state ← ruleSteps input bound rule.steps (input.start scratch perms)
      .ok (state.result, state.perms)

end KmodCeph.Crush
