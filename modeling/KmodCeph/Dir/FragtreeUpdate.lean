import KmodCeph.Dir.Fragtree
import KmodCeph.Lib.Places

namespace KmodCeph.Dir

open Lib List

structure FragSplit where
  frag : Frag
  by' : BitVec 32

def undelegated : Delegation where
  mds := -1
  dist := []

structure MergeState where
  root : BinaryTree FragNode
  rbNode : Option Frag

def rbFirst (root : BinaryTree FragNode) : Option Frag :=
  (inorder root).head?.map FragNode.frag

def rbNext (root : BinaryTree FragNode) (f : Frag) : Option Frag :=
  ((inorder root).dropWhile fun node => node.frag ≠ f).tail.head?.map FragNode.frag

section

variable (balancing : Balancing FragNode)

def rbErase (root : BinaryTree FragNode) (f : Frag) : BinaryTree FragNode :=
  match (inorder root).find? fun node => node.frag = f with
  | none => root
  | some node => balancing.erase root node

/-- `__get_or_create_frag`; there is no tree if there is no memory for the node. -/
def getOrCreateFrag (memory : Bool) (root : BinaryTree FragNode) (f : Frag) : Option (BinaryTree FragNode) :=
  match cephFindFrag root f with
  | some _ => some root
  | none =>
    if memory then
      (linkBy (fragOrdering f) { frag := f, splitBy := 0, delegation := undelegated } root).map balancing.balance
    else none

def setSplitBy (root : BinaryTree FragNode) (f : Frag) (splitBy : BitVec 32) : BinaryTree FragNode :=
  root.map fun node => if node.frag = f then { node with splitBy := splitBy } else node

/-- One pass of the inner loop of `ceph_fill_fragtree`; it stops with whether the walk is at the fragment. -/
def passNode (id : Frag) (state : MergeState) : Except FragBug (Next MergeState (Bool × MergeState)) :=
  match state.rbNode with
  | none => .ok (.done (false, state))
  | some f =>
    if fragCompare f id ≥ 0 then
      if f ≠ id then .ok (.done (false, state))
      else .ok (.done (true, { state with rbNode := rbNext state.root f }))
    else .ok (.again { root := rbErase balancing state.root f, rbNode := rbNext state.root f })

def fillSplit (bound : Nat) (memory : Bool) (split : FragSplit) (state : MergeState) : Except FragBug MergeState := do
  let (found, state) ← loop .endless (passNode balancing split.frag) bound state
  if found then return { state with root := setSplitBy state.root split.frag split.by' }
  match getOrCreateFrag balancing memory state.root split.frag with
  | none => return state
  | some root => return { state with root := setSplitBy root split.frag split.by' }

def fillSplits (bound : Nat) (memory : Nat → Bool) : Nat → List FragSplit → MergeState → Except FragBug MergeState
  | _, [], state => .ok state
  | i, split :: rest, state => do
    let state ← fillSplit balancing bound (memory i) split state
    fillSplits bound memory (i + 1) rest state

/-- One pass of the last loop of `ceph_fill_fragtree`. -/
def eraseNode (state : MergeState) : Except FragBug (Next MergeState (BinaryTree FragNode)) :=
  match state.rbNode with
  | none => .ok (.done state.root)
  | some f => .ok (.again { root := rbErase balancing state.root f, rbNode := rbNext state.root f })

end

/-- Whether `ceph_fill_fragtree` updates the tree; `random` is what `prandom_u32` gives. -/
def decidesUpdate (bound : Nat) (random : BitVec 32) (root : BinaryTree FragNode) (splits : List FragSplit)
    (dirinfo : Option Frag) : Except FragBug Bool := do
  let update :=
    if splits.length ≠ 0 then
      match splits[random.toNat % splits.length]? with
      | none => false
      | some split => (cephFindFrag root split.frag).isNone
    else
      match rbFirst root with
      | none => false
      | some f => f ≠ fragMake 0 0 ∨ (rbNext root f).isSome
  if update then return true
  match dirinfo with
  | none => return false
  | some id => do
    let (t, _) ← cephChooseFrag bound root id
    return id ≠ t

/-- `ceph_fill_fragtree`, with loops of `bound` passes at most. -/
def cephFillFragtree (balancing : Balancing FragNode) (bound : Nat) (memory : Nat → Bool) (random : BitVec 32)
    (root : BinaryTree FragNode) (splits : List FragSplit) (dirinfo : Option Frag) : Except FragBug (BinaryTree FragNode) := do
  let update ← decidesUpdate bound random root splits dirinfo
  if !update then return root
  let state ← fillSplits balancing bound memory 0 splits { root := root, rbNode := rbFirst root }
  loop .endless (eraseNode balancing) bound state

/-- The reply is in the tree and nothing else, and what was known of its fragments is kept. -/
structure Installed (root : BinaryTree FragNode) (splits : List FragSplit) (result : BinaryTree FragNode) : Prop where
  sorted : Sorted nodeKey result
  listed : ∀ f splitBy, (∃ node ∈ inorder result, node.frag = f ∧ node.splitBy = splitBy) ↔ ⟨f, splitBy⟩ ∈ splits
  kept : ∀ old ∈ inorder root, ∀ node ∈ inorder result, node.frag = old.frag → node.delegation = old.delegation

/-- No fragment with delegation info comes behind a larger one. -/
def DelegatedInOrder (root : BinaryTree FragNode) (splits : List FragSplit) : Prop :=
  splits.Pairwise fun earlier later => fragCompare later.frag earlier.frag < 0 →
    ∀ old ∈ inorder root, old.frag = later.frag → old.delegation = undelegated

section

variable {balancing : Balancing FragNode} {state : MergeState} {done rest : List FragNode} {node : FragNode} {id f : Frag}
variable {root : BinaryTree FragNode}

/-- The nodes that the walk of the update has passed, and those ahead of it. -/
structure Walk (state : MergeState) (done rest : List FragNode) : Prop where
  sorted : Sorted nodeKey state.root
  nodes : inorder state.root = done ++ rest
  next : state.rbNode = rest.head?.map FragNode.frag

theorem fragCompare_lt_iff : fragCompare f id < 0 ↔ fragKey f < fragKey id := by
  have bits : ∀ h : Frag, (fragBits h).toNat < 2 ^ 8 := fun h => by
    rw [fragBits_toNat]
    omega
  have first := bits f
  have second := bits id
  unfold fragCompare fragKey
  simp only [BitVec.lt_def]
  split_ifs <;> lia

theorem Walk.apart (walk : Walk state done (node :: rest)) : ∀ other ∈ done, other.frag ≠ node.frag :=
  fun other member same => walk.sorted.around walk.nodes other (mem_append_left _ member) (congrArg fragKey same)

theorem Walk.rbNext_eq (walk : Walk state done (node :: rest)) :
    rbNext state.root node.frag = rest.head?.map FragNode.frag := by
  have passed : ∀ other ∈ done, decide (other.frag ≠ node.frag) = true :=
    fun other member => decide_eq_true (walk.apart other member)
  rw [rbNext, walk.nodes, dropWhile_append_of_pos passed, dropWhile_cons_of_neg (by simp), tail_cons]

theorem Walk.rbErase (walk : Walk state done (node :: rest)) :
    Walk { root := rbErase balancing state.root node.frag, rbNode := rbNext state.root node.frag } done rest := by
  have absent : (done.find? fun other => decide (other.frag = node.frag)) = none := by
    rw [find?_eq_none]
    intro other member
    simpa using walk.apart other member
  have found : ((inorder state.root).find? fun other => decide (other.frag = node.frag)) = some node := by
    rw [walk.nodes, find?_append, absent, Option.none_or, find?_cons_of_pos (by simp)]
  have erased : Dir.rbErase balancing state.root node.frag = balancing.erase state.root node := by
    rw [Dir.rbErase, found]
  rw [erased]
  refine ⟨balancing.sorted_erase walk.sorted node, ?_, walk.rbNext_eq⟩
  have outside : node ∉ done := fun member => walk.apart node member rfl
  rw [balancing.inorder_erase, walk.nodes, erase_append_right _ outside, erase_cons_head]

/-- The walk takes the smaller nodes out of the tree and stops at the fragment or where it belongs. -/
theorem passNodes_walk {bound : Nat} (walk : Walk state done rest) (enough : rest.length < bound) :
    ∃ found after, loop .endless (passNode balancing id) bound state = .ok (found, after) ∧
      ((found = true ∧ ∃ node, node ∈ rest ∧ node.frag = id ∧
        Walk after (done ++ [node]) (rest.filter fun other => fragKey id < nodeKey other)) ∨
      (found = false ∧ (∀ node ∈ rest, node.frag ≠ id) ∧
        Walk after done (rest.filter fun other => fragKey id < nodeKey other))) := by
  induction bound generalizing state rest with
  | zero => omega
  | succ bound ih =>
    cases rest with
    | nil =>
      refine ⟨false, state, loop_done ?_, .inr ⟨rfl, nofun, walk⟩⟩
      rw [passNode, walk.next]
      rfl
    | cons node rest =>
      have here : state.rbNode = some node.frag := walk.next
      have ordered := walk.sorted
      rw [Sorted, walk.nodes, pairwise_append, pairwise_cons] at ordered
      have above : ∀ other ∈ rest, nodeKey node < nodeKey other := ordered.2.1.1
      by_cases less : fragKey node.frag < fragKey id
      · have smaller : ¬ fragKey id < nodeKey node := less.not_gt
        have step : passNode balancing id state =
            .ok (.again { root := rbErase balancing state.root node.frag, rbNode := rbNext state.root node.frag }) := by
          rw [passNode, here]
          exact if_neg (not_le.mpr (fragCompare_lt_iff.mpr less))
        obtain ⟨found, after, run, result⟩ := ih (walk.rbErase) (by simpa using enough)
        refine ⟨found, after, (loop_again step).trans run, ?_⟩
        rw [filter_cons_of_neg (by simpa using smaller)]
        rcases result with ⟨yes, other, member, same, walk⟩ | ⟨no, absent, walk⟩
        · exact .inl ⟨yes, other, mem_cons_of_mem _ member, same, walk⟩
        · refine .inr ⟨no, fun other member => ?_, walk⟩
          rcases List.mem_cons.mp member with rfl | member
          · exact fun same => less.ne (congrArg fragKey same)
          · exact absent other member
      · have notLess : fragCompare node.frag id ≥ 0 := not_lt.mp fun negative => less (fragCompare_lt_iff.mp negative)
        have later : ∀ other ∈ rest, fragKey id < nodeKey other :=
          fun other member => (not_lt.mp less).trans_lt (above other member)
        have keptRest : (rest.filter fun other => fragKey id < nodeKey other) = rest :=
          List.filter_eq_self.mpr fun other member => decide_eq_true (later other member)
        by_cases same : node.frag = id
        · refine ⟨true, { state with rbNode := rbNext state.root node.frag }, loop_done ?_, .inl ⟨rfl, node, mem_cons_self, same, ?_⟩⟩
          · rw [passNode, here]
            dsimp only
            rw [if_pos notLess, if_neg (not_not.mpr same)]
          · rw [filter_cons_of_neg (by simp [nodeKey, same]), keptRest]
            exact ⟨walk.sorted, by rw [walk.nodes, append_assoc, singleton_append], walk.rbNext_eq⟩
        · have greater : fragKey id < nodeKey node :=
            lt_of_le_of_ne (not_lt.mp less) fun equal => same (fragKey_injective equal).symm
          refine ⟨false, state, loop_done ?_, .inr ⟨rfl, fun other member => ?_, ?_⟩⟩
          · rw [passNode, here]
            dsimp only
            rw [if_pos notLess, if_pos same]
          · rcases List.mem_cons.mp member with rfl | member
            · exact same
            · exact fun equal => (later other member).ne (congrArg fragKey equal.symm)
          · rw [filter_cons_of_pos (by simpa using greater), keptRest]
            exact walk

theorem eraseNodes_walk {bound : Nat} (walk : Walk state done rest) (enough : rest.length < bound) :
    ∃ result, loop .endless (eraseNode balancing) bound state = .ok result ∧ Sorted nodeKey result ∧ inorder result = done := by
  induction bound generalizing state rest with
  | zero => omega
  | succ bound ih =>
    cases rest with
    | nil =>
      refine ⟨state.root, loop_done ?_, walk.sorted, by rw [walk.nodes, List.append_nil]⟩
      rw [eraseNode, walk.next]
      rfl
    | cons node rest =>
      have here : state.rbNode = some node.frag := walk.next
      obtain ⟨result, run, whole⟩ := ih (walk.rbErase) (by simpa using enough)
      refine ⟨result, (loop_again ?_).trans run, whole⟩
      rw [eraseNode, here]

theorem Walk.getOrCreate (walk : Walk state done rest) (above : ∀ node ∈ rest, fragKey id < nodeKey node)
    (fresh : ∀ node ∈ done, node.frag ≠ id) :
    ∃ root done', getOrCreateFrag balancing true state.root id = some root ∧ Walk { state with root := root } done' rest ∧
      ∀ node, node ∈ done' ↔ node ∈ done ∨ node = { frag := id, splitBy := 0, delegation := undelegated } := by
  have absent : ∀ node ∈ inorder state.root, nodeKey node ≠ fragKey id := by
    intro node member same
    rw [walk.nodes] at member
    rcases List.mem_append.mp member with behind | ahead
    · exact fresh node behind (fragKey_injective same)
    · exact (above node ahead).ne same.symm
  have missed : cephFindFrag state.root id = none := by
    rw [Option.eq_none_iff_forall_not_mem]
    intro node found
    obtain ⟨member, same⟩ := @Fragtree.find_some _ _ ⟨state.root, walk.sorted⟩ found
    exact absent node member (congrArg fragKey same)
  generalize newEq : (FragNode.mk id 0 undelegated) = new
  have key : nodeKey new = fragKey id := by
    rw [← newEq]
    rfl
  obtain ⟨linked, link⟩ := Option.isSome_iff_exists.mp (@linkValue_isSome _ _ _ nodeKey new _ (by rwa [key]))
  obtain ⟨before, behind, old, now, between⟩ := inorder_linkValue link
  obtain ⟨below, -⟩ := between walk.sorted
  have created : getOrCreateFrag balancing true state.root id = some (balancing.balance linked) := by
    have linkedBy : linkBy (fragOrdering id) new state.root = some linked := by
      rw [@linkBy_eq _ _ _ nodeKey _ _ _ fun _ _ => by rw [key]; exact fragOrdering_eq, link]
    rw [getOrCreateFrag, missed]
    rw [newEq, linkedBy]
    rfl
  have sorted := balancing.sorted_balance (sorted_linkValue walk.sorted link)
  rw [walk.nodes, append_eq_append_iff] at old
  obtain ⟨middle, doneEq, behindEq⟩ : ∃ middle, done = before ++ middle ∧ behind = middle ++ rest := by
    rcases old with ⟨passed, beforeEq, restEq⟩ | split
    · -- a node on both sides of the new one
      cases passed with
      | nil => exact ⟨[], by simpa using beforeEq.symm, by simpa using restEq.symm⟩
      | cons node nodes =>
        have lower := below node (by rw [beforeEq]; exact mem_append_right _ mem_cons_self)
        have upper := above node (by rw [restEq]; exact mem_append_left _ mem_cons_self)
        rw [key] at lower
        exact absurd lower upper.not_gt
    · exact split
  refine ⟨balancing.balance linked, before ++ new :: middle, created, ⟨sorted, ?_, walk.next⟩, fun node => ?_⟩
  · rw [balancing.inorder_balance, now, behindEq, append_assoc, cons_append]
  · rw [doneEq]
    simp only [mem_append, mem_cons]
    tauto

theorem Walk.setSplitBy (walk : Walk state done rest) (splitBy : BitVec 32) (above : ∀ node ∈ rest, node.frag ≠ id) :
    Walk { state with root := setSplitBy state.root id splitBy }
      (done.map fun node => if node.frag = id then { node with splitBy := splitBy } else node) rest := by
  have unchanged : (rest.map fun node => if node.frag = id then { node with splitBy := splitBy } else node) = rest := by
    conv_rhs => rw [← map_id rest]
    exact map_congr_left fun node member => if_neg (above node member)
  have keeps : ∀ node : FragNode, nodeKey (if node.frag = id then { node with splitBy := splitBy } else node) = nodeKey node := by
    intro node
    split_ifs <;> rfl
  refine ⟨?_, ?_, walk.next⟩
  · rw [Sorted, Dir.setSplitBy, inorder_map, pairwise_map]
    simp only [keeps]
    exact walk.sorted
  · rw [Dir.setSplitBy, inorder_map, walk.nodes, map_append, unchanged]

def delegationAhead (rest : List FragNode) (f : Frag) : Delegation :=
  match rest.find? fun node => node.frag = f with
  | none => undelegated
  | some node => node.delegation

theorem delegationAhead_eq (sorted : rest.Pairwise fun first second => nodeKey first < nodeKey second) (member : node ∈ rest) :
    delegationAhead rest node.frag = node.delegation := by
  have distinct : (rest.map nodeKey).Nodup := List.pairwise_map.mpr (sorted.imp ne_of_lt)
  cases search : rest.find? fun other => decide (other.frag = node.frag) with
  | none =>
    have missed := List.find?_eq_none.mp search node member
    simp at missed
  | some other =>
    have same : other.frag = node.frag := by simpa using find?_some search
    have equal := inj_on_of_nodup_map distinct (mem_of_find?_eq_some search) member (congrArg fragKey same)
    rw [delegationAhead, search, equal]

theorem fillSplit_walk {bound : Nat} {split : FragSplit} (walk : Walk state done rest) (enough : rest.length < bound)
    (fresh : ∀ node ∈ done, node.frag ≠ split.frag) :
    ∃ after done', fillSplit balancing bound true split state = .ok after ∧
      Walk after done' (rest.filter fun node => fragKey split.frag < nodeKey node) ∧
      ∀ node, node ∈ done' ↔ node ∈ done ∨
        node = { frag := split.frag, splitBy := split.by', delegation := delegationAhead rest split.frag } := by
  have above : ∀ node ∈ rest.filter fun node => fragKey split.frag < nodeKey node, fragKey split.frag < nodeKey node :=
    fun node member => of_decide_eq_true (List.mem_filter.mp member).2
  have apart : ∀ node ∈ rest.filter fun node => fragKey split.frag < nodeKey node, node.frag ≠ split.frag :=
    fun node member same => (above node member).ne (congrArg fragKey same.symm)
  have unchanged : ∀ node ∈ done, (if node.frag = split.frag then { node with splitBy := split.by' } else node) = node :=
    fun node member => if_neg (fresh node member)
  obtain ⟨found, after, run, result⟩ := passNodes_walk walk enough
  unfold fillSplit
  rw [run]
  rcases result with ⟨rfl, node, member, same, walk'⟩ | ⟨rfl, absent, walk'⟩
  · have ahead : delegationAhead rest split.frag = node.delegation := by
      have sorted := walk.sorted
      rw [Sorted, walk.nodes] at sorted
      rw [← same]
      exact delegationAhead_eq (List.pairwise_append.mp sorted).2.1 member
    refine ⟨_, _, rfl, walk'.setSplitBy split.by' apart, fun other => ?_⟩
    rw [map_append, mem_append, map_cons, map_nil, mem_singleton, if_pos same, ahead, ← same,
      map_congr_left (same ▸ unchanged), map_id']
  · have ahead : delegationAhead rest split.frag = undelegated := by
      rw [delegationAhead, List.find?_eq_none.mpr fun node member => by simpa using absent node member]
    obtain ⟨root, done', created, walk'', members⟩ := @Walk.getOrCreate balancing _ _ _ _ walk' above fresh
    refine ⟨{ after with root := setSplitBy root split.frag split.by' }, _, ?_, walk''.setSplitBy split.by' apart, fun other => ?_⟩
    · simp only [bind, Except.bind, Bool.false_eq_true, if_false, created]
      rfl
    · rw [ahead, mem_map]
      constructor
      · rintro ⟨node, member, rfl⟩
        rcases (members node).mp member with old | rfl
        · rw [unchanged node old]
          exact .inl old
        · exact .inr (if_pos rfl)
      · rintro (old | rfl)
        · exact ⟨other, (members other).mpr (.inl old), unchanged other old⟩
        · exact ⟨_, (members _).mpr (.inr rfl), if_pos rfl⟩

def filledNode (rest : List FragNode) (before : List FragSplit) (split : FragSplit) : FragNode where
  frag := split.frag
  splitBy := split.by'
  delegation := delegationAhead (rest.filter fun node => ∀ earlier ∈ before, fragKey earlier.frag < nodeKey node) split.frag

/-- What a fragment gets depends on those that come before it in the reply. -/
theorem fillSplits_walk {bound i : Nat} {memory : Nat → Bool} {splits : List FragSplit} (walk : Walk state done rest)
    (enough : rest.length < bound) (allocates : ∀ i, memory i = true) (distinct : (splits.map FragSplit.frag).Nodup)
    (fresh : ∀ node ∈ done, ∀ split ∈ splits, node.frag ≠ split.frag) :
    ∃ after done' rest', fillSplits balancing bound memory i splits state = .ok after ∧ Walk after done' rest' ∧
      rest'.length ≤ rest.length ∧
      ∀ node, node ∈ done' ↔ node ∈ done ∨ ∃ before split behind, splits = before ++ split :: behind ∧
        node = filledNode rest before split := by
  induction splits generalizing state done rest i with
  | nil => exact ⟨state, done, rest, rfl, walk, le_rfl, by simp⟩
  | cons split splits ih =>
    rw [map_cons, nodup_cons] at distinct
    obtain ⟨after, done', run, walk', members⟩ := fillSplit_walk walk enough
      fun node member => fresh node member split mem_cons_self
    have shorter := length_filter_le (fun node => decide (fragKey split.frag < nodeKey node)) rest
    have fresh' : ∀ node ∈ done', ∀ later ∈ splits, node.frag ≠ later.frag := by
      intro node member later listed
      rcases (members node).mp member with old | rfl
      · exact fresh node old later (mem_cons_of_mem _ listed)
      · exact fun same => distinct.1 (List.mem_map.mpr ⟨later, listed, same.symm⟩)
    obtain ⟨last, done'', rest', runs, walk'', shorter', members'⟩ := ih (i := i + 1) walk' (by omega) distinct.2 fresh'
    refine ⟨last, done'', rest', ?_, walk'', by omega, fun node => ?_⟩
    · rw [fillSplits, allocates, run]
      exact runs
    · have next : ∀ before other, filledNode (rest.filter fun node => fragKey split.frag < nodeKey node) before other =
          filledNode rest (split :: before) other := by
        intro before other
        simp only [filledNode, filter_filter, forall_mem_cons, Bool.decide_and, Bool.and_comm]
      have first : filledNode rest [] split = ⟨split.frag, split.by', delegationAhead rest split.frag⟩ := by
        simp [filledNode]
      rw [members', members, ← first]
      simp only [next]
      rw [exists_place_cons, or_assoc]

end

section

variable {balancing : Balancing FragNode} {tree : Fragtree} {splits : List FragSplit} {result : BinaryTree FragNode}

theorem fillFragtree_nodes {bound : Nat} {memory : Nat → Bool} {random : BitVec 32} {dirinfo : Option Frag}
    (distinct : (splits.map FragSplit.frag).Nodup) (enough : (inorder tree.root).length < bound)
    (allocates : ∀ i, memory i = true) (decides : decidesUpdate bound random tree.root splits dirinfo = .ok true) :
    ∃ result, cephFillFragtree balancing bound memory random tree.root splits dirinfo = .ok result ∧ Sorted nodeKey result ∧
      ∀ node, node ∈ inorder result ↔ ∃ before split behind, splits = before ++ split :: behind ∧
        node = filledNode (inorder tree.root) before split := by
  have walk : Walk { root := tree.root, rbNode := rbFirst tree.root } [] (inorder tree.root) := ⟨tree.sorted, rfl, rfl⟩
  obtain ⟨after, done, rest, runs, walk, shorter, members⟩ := @fillSplits_walk balancing _ _ _ _ 0 _ _ walk enough
    allocates distinct nofun
  obtain ⟨result, erases, sorted, nodes⟩ := @eraseNodes_walk balancing _ _ _ _ walk (shorter.trans_lt enough)
  refine ⟨result, ?_, sorted, fun node => ?_⟩
  · rw [cephFillFragtree, decides]
    simp only [bind, Except.bind, Bool.not_true, Bool.false_eq_true, if_false, runs]
    exact erases
  · rw [nodes, members]
    exact or_iff_right not_mem_nil

theorem filledNode_delegation {before : List FragSplit} {split : FragSplit} {old : FragNode}
    (there : old ∈ inorder tree.root) (same : old.frag = split.frag) :
    (filledNode (inorder tree.root) before split).delegation =
      if ∀ earlier ∈ before, fragKey earlier.frag < fragKey split.frag then old.delegation else undelegated := by
  have key : nodeKey old = fragKey split.frag := congrArg fragKey same
  rw [filledNode, ← same]
  split_ifs with ahead
  · rw [delegationAhead_eq (tree.sorted.sublist filter_sublist)]
    rw [mem_filter, decide_eq_true_iff, key, ← same]
    exact ⟨there, ahead⟩
  · rw [delegationAhead, List.find?_eq_none.mpr]
    intro node member
    rw [mem_filter, decide_eq_true_iff] at member
    rw [decide_eq_true_iff]
    intro equal
    exact ahead (by simpa only [nodeKey, equal] using member.2)

/-- The tree of the reply is installed if and only if the reply has the fragments with delegation info in order. -/
theorem fillFragtree_installs_iff {bound : Nat} {memory : Nat → Bool} {random : BitVec 32} {dirinfo : Option Frag}
    (distinct : (splits.map FragSplit.frag).Nodup) (enough : (inorder tree.root).length < bound)
    (allocates : ∀ i, memory i = true) (decides : decidesUpdate bound random tree.root splits dirinfo = .ok true) :
    ∃ result, cephFillFragtree balancing bound memory random tree.root splits dirinfo = .ok result ∧
      (Installed tree.root splits result ↔ DelegatedInOrder tree.root splits) := by
  obtain ⟨result, run, sorted, nodes⟩ := fillFragtree_nodes distinct enough allocates decides
  refine ⟨result, run, ?_⟩
  have listed : ∀ f splitBy, (∃ node ∈ inorder result, node.frag = f ∧ node.splitBy = splitBy) ↔ ⟨f, splitBy⟩ ∈ splits := by
    intro f splitBy
    constructor
    · rintro ⟨node, member, rfl, rfl⟩
      obtain ⟨before, split, behind, rfl, rfl⟩ := (nodes node).mp member
      exact mem_append_right _ mem_cons_self
    · intro member
      obtain ⟨before, behind, split⟩ := append_of_mem member
      exact ⟨_, (nodes _).mpr ⟨before, _, behind, split, rfl⟩, rfl, rfl⟩
  have kept : (∀ old ∈ inorder tree.root, ∀ node ∈ inorder result, node.frag = old.frag → node.delegation = old.delegation) ↔
      DelegatedInOrder tree.root splits := by
    rw [DelegatedInOrder, pairwise_iff_places]
    constructor
    · intro kept before split behind places earlier within less old there same
      have delegation := kept old there _ ((nodes _).mpr ⟨before, split, behind, places, rfl⟩) same.symm
      rw [filledNode_delegation there same, if_neg] at delegation
      · exact delegation.symm
      · exact fun ahead => (ahead earlier within).not_gt (fragCompare_lt_iff.mp less)
    · intro inOrder old there node member same
      obtain ⟨before, split, behind, places, rfl⟩ := (nodes node).mp member
      rw [filledNode_delegation there same.symm]
      split_ifs with ahead
      · rfl
      · push Not at ahead
        obtain ⟨earlier, within, notLess⟩ := ahead
        have apart : earlier.frag ≠ split.frag := by
          rw [places, map_append, nodup_append] at distinct
          exact distinct.2.2 _ (mem_map_of_mem within) _ (by simp)
        have less := lt_of_le_of_ne notLess fun equal => apart (fragKey_injective equal).symm
        exact (inOrder before split behind places earlier within (fragCompare_lt_iff.mpr less) old there same.symm).symm
  exact ⟨fun installed => kept.mp installed.kept, fun inOrder => ⟨sorted, listed, kept.mpr inOrder⟩⟩

end

def quarteredFragtree : Fragtree where
  root := .node ⟨fragMake 1 0, 1, undelegated⟩ (.node ⟨fragMake 0 0, 1, undelegated⟩ .nil .nil)
    (.node ⟨fragMake 2 0, 0, ⟨3, []⟩⟩ .nil .nil)
  sorted := by
    rw [Sorted]
    decide

def numberedReply : List FragSplit :=
  [⟨fragMake 0 0, 1⟩, ⟨fragMake 1 0, 1⟩, ⟨fragMake 1 0x800000, 1⟩, ⟨fragMake 2 0, 2⟩]

theorem fillFragtree_installs_iff_numbered : ∃ result,
    cephFillFragtree (Balancing.small FragNode) 4 (fun _ => true) 2 quarteredFragtree.root numberedReply none = .ok result ∧
      (Installed quarteredFragtree.root numberedReply result ↔ DelegatedInOrder quarteredFragtree.root numberedReply) :=
  fillFragtree_installs_iff (by decide) (by decide) (fun _ => rfl) rfl

/-- The fragment is erased on the way to a larger one and comes back without its MDS. -/
theorem fillFragtree_forgets : ∃ result,
    cephFillFragtree (Balancing.small FragNode) 4 (fun _ => true) 2 quarteredFragtree.root numberedReply none = .ok result ∧
      ¬ Installed quarteredFragtree.root numberedReply result := by
  refine ⟨_, rfl, fun installed => ?_⟩
  have kept := installed.kept ⟨fragMake 2 0, 0, ⟨3, []⟩⟩ (by decide) ⟨fragMake 2 0, 2, undelegated⟩ (by decide) rfl
  exact absurd kept (by decide)

end KmodCeph.Dir
