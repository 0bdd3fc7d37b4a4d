import Mathlib.Data.Tree.Basic
import Mathlib.Order.Basic
import Mathlib.Data.List.Basic
import Mathlib.Tactic

namespace KmodCeph.Lib

open List

variable {α κ : Type}

def inorder : BinaryTree α → List α
  | .nil => []
  | .node value left right => inorder left ++ value :: inorder right

def Subtree (part : BinaryTree α) : BinaryTree α → Prop
  | .nil => part = .nil
  | .node value left right => part = .node value left right ∨ Subtree part left ∨ Subtree part right

variable [LinearOrder κ]

def findKey (key : α → κ) (wanted : κ) : BinaryTree α → Option α
  | .nil => none
  | .node value left right =>
    if wanted < key value then findKey key wanted left
    else if wanted > key value then findKey key wanted right
    else some value

/-- Link a value where the search for its key ends, unless the key is there. -/
def linkValue (key : α → κ) (new : α) : BinaryTree α → Option (BinaryTree α)
  | .nil => some (.node new .nil .nil)
  | .node value left right =>
    if key new < key value then (linkValue key new left).map fun after => .node value after right
    else if key new > key value then (linkValue key new right).map fun after => .node value left after
    else none

def Sorted (key : α → κ) (tree : BinaryTree α) : Prop :=
  (inorder tree).Pairwise fun first second => key first < key second

/-- Balancing of a tree after a value was linked, and removal of a value. -/
structure Balancing (α : Type) [DecidableEq α] where
  balance : BinaryTree α → BinaryTree α
  erase : BinaryTree α → α → BinaryTree α
  inorder_balance : ∀ tree, inorder (balance tree) = inorder tree
  inorder_erase : ∀ tree value, inorder (erase tree value) = (inorder tree).erase value

section

variable {key : α → κ} {value new : α} {left right tree after : BinaryTree α} {wanted : κ}

theorem sorted_nil : Sorted key (.nil : BinaryTree α) := List.Pairwise.nil

theorem mem_inorder_node {other : α} :
    other ∈ inorder (.node value left right) ↔ other ∈ inorder left ∨ other = value ∨ other ∈ inorder right := by
  rw [inorder, mem_append, mem_cons]

theorem sorted_node : Sorted key (.node value left right) ↔
    Sorted key left ∧ Sorted key right ∧ (∀ lower ∈ inorder left, key lower < key value) ∧
      ∀ upper ∈ inorder right, key value < key upper := by
  simp only [Sorted, inorder, pairwise_append, pairwise_cons, mem_cons, forall_eq_or_imp]
  constructor
  · rintro ⟨sortedLeft, ⟨above, sortedRight⟩, across⟩
    exact ⟨sortedLeft, sortedRight, fun lower member => (across lower member).1, above⟩
  · rintro ⟨sortedLeft, sortedRight, below, above⟩
    refine ⟨sortedLeft, ⟨above, sortedRight⟩, fun lower member => ⟨below lower member, fun upper within => ?_⟩⟩
    exact (below lower member).trans (above upper within)

theorem mem_of_subtree (part : Subtree (.node value left right) tree) : value ∈ inorder tree := by
  induction tree with
  | nil => cases part
  | node root lower upper lowerIH upperIH =>
    rw [mem_inorder_node]
    rcases part with same | within | within
    · cases same
      exact .inr (.inl rfl)
    · exact .inl (lowerIH within)
    · exact .inr (.inr (upperIH within))

theorem findKey_mem (found : findKey key wanted tree = some value) : value ∈ inorder tree ∧ key value = wanted := by
  induction tree with
  | nil => cases found
  | node root left right leftIH rightIH =>
    rw [mem_inorder_node]
    unfold findKey at found
    split at found
    · exact ⟨.inl (leftIH found).1, (leftIH found).2⟩
    · split at found
      · exact ⟨.inr (.inr (rightIH found).1), (rightIH found).2⟩
      · cases found
        exact ⟨.inr (.inl rfl), le_antisymm (not_lt.mp ‹_›) (not_lt.mp ‹_›)⟩

theorem findKey_of_mem (sorted : Sorted key tree) (member : value ∈ inorder tree) :
    findKey key (key value) tree = some value := by
  induction tree with
  | nil => cases member
  | node root left right leftIH rightIH =>
    obtain ⟨sortedLeft, sortedRight, below, above⟩ := sorted_node.mp sorted
    rw [mem_inorder_node] at member
    unfold findKey
    rcases member with within | rfl | within
    · rw [if_pos (below value within)]
      exact leftIH sortedLeft within
    · rw [if_neg (lt_irrefl _), if_neg (lt_irrefl _)]
    · rw [if_neg (above value within).not_gt, if_pos (above value within)]
      exact rightIH sortedRight within

theorem inorder_linkValue (linked : linkValue key new tree = some after) :
    ∃ before behind, inorder tree = before ++ behind ∧ inorder after = before ++ new :: behind ∧
      (Sorted key tree → (∀ lower ∈ before, key lower < key new) ∧ ∀ upper ∈ behind, key new < key upper) := by
  induction tree generalizing after with
  | nil =>
    cases linked
    exact ⟨[], [], rfl, rfl, fun _ => ⟨by simp, by simp⟩⟩
  | node value left right leftIH rightIH =>
    unfold linkValue at linked
    split at linked
    · rename_i less
      obtain ⟨child, linkedChild, rfl⟩ := Option.map_eq_some_iff.mp linked
      obtain ⟨before, behind, split, splitAfter, ordered⟩ := leftIH linkedChild
      refine ⟨before, behind ++ value :: inorder right, ?_, ?_, ?_⟩
      · rw [inorder, split, append_assoc]
      · rw [inorder, splitAfter, append_assoc, cons_append]
      · intro sorted
        obtain ⟨sortedLeft, _, _, above⟩ := sorted_node.mp sorted
        refine ⟨(ordered sortedLeft).1, ?_⟩
        intro upper member
        rcases List.mem_append.mp member with within | within
        · exact (ordered sortedLeft).2 upper within
        · rcases List.mem_cons.mp within with rfl | within
          · exact less
          · exact less.trans (above upper within)
    · split at linked
      · rename_i greater
        obtain ⟨child, linkedChild, rfl⟩ := Option.map_eq_some_iff.mp linked
        obtain ⟨before, behind, split, splitAfter, ordered⟩ := rightIH linkedChild
        refine ⟨inorder left ++ value :: before, behind, ?_, ?_, ?_⟩
        · rw [inorder, split, append_assoc, cons_append]
        · rw [inorder, splitAfter, append_assoc, cons_append]
        · intro sorted
          obtain ⟨_, sortedRight, below, _⟩ := sorted_node.mp sorted
          refine ⟨?_, (ordered sortedRight).2⟩
          intro lower member
          rcases List.mem_append.mp member with within | within
          · exact (below lower within).trans greater
          · rcases List.mem_cons.mp within with rfl | within
            · exact greater
            · exact (ordered sortedRight).1 lower within
      · cases linked

theorem sorted_linkValue (sorted : Sorted key tree) (linked : linkValue key new tree = some after) :
    Sorted key after := by
  obtain ⟨before, behind, split, splitAfter, ordered⟩ := inorder_linkValue linked
  obtain ⟨below, above⟩ := ordered sorted
  rw [Sorted, split, pairwise_append] at sorted
  rw [Sorted, splitAfter, pairwise_append, pairwise_cons]
  refine ⟨sorted.1, ⟨above, sorted.2.1⟩, ?_⟩
  intro lower member upper within
  rcases List.mem_cons.mp within with rfl | within
  · exact below lower member
  · exact sorted.2.2 lower member upper within

theorem mem_linkValue (linked : linkValue key new tree = some after) {value : α} :
    value ∈ inorder after ↔ value = new ∨ value ∈ inorder tree := by
  obtain ⟨before, behind, split, splitAfter, _⟩ := inorder_linkValue linked
  rw [split, splitAfter]
  simp only [mem_append, mem_cons]
  tauto

theorem Sorted.around {before behind : List α} (sorted : Sorted key tree) (split : inorder tree = before ++ value :: behind) :
    ∀ other ∈ before ++ behind, key other ≠ key value := by
  rw [Sorted, split, pairwise_append, pairwise_cons] at sorted
  intro other member
  rcases List.mem_append.mp member with within | within
  · exact (sorted.2.2 other within value mem_cons_self).ne
  · exact (sorted.2.1.1 other within).ne'

theorem linkValue_isSome (absent : ∀ value ∈ inorder tree, key value ≠ key new) :
    (linkValue key new tree).isSome := by
  induction tree with
  | nil => rfl
  | node value left right leftIH rightIH =>
    simp only [mem_inorder_node] at absent
    unfold linkValue
    split
    · simpa using leftIH fun other within => absent other (.inl within)
    · split
      · simpa using rightIH fun other within => absent other (.inr (.inr within))
      · exact absurd (le_antisymm (not_lt.mp ‹_›) (not_lt.mp ‹_›)) (absent value (.inr (.inl rfl)))

end

section

variable [DecidableEq α] {key : α → κ} {tree : BinaryTree α} (balancing : Balancing α)

theorem Balancing.sorted_balance (sorted : Sorted key tree) : Sorted key (balancing.balance tree) := by
  rwa [Sorted, balancing.inorder_balance]

theorem Balancing.sorted_erase (sorted : Sorted key tree) (value : α) : Sorted key (balancing.erase tree value) := by
  rw [Sorted, balancing.inorder_erase]
  exact sorted.sublist erase_sublist

end

section

variable {tree left right : BinaryTree α} {value : α}

def popFirst : BinaryTree α → Option (α × BinaryTree α)
  | .nil => none
  | .node value left right =>
    match popFirst left with
    | none => some (value, right)
    | some (first, rest) => some (first, .node value rest right)

def joinTrees [DecidableEq α] (left right : BinaryTree α) : BinaryTree α :=
  match popFirst right with
  | none => left
  | some (first, rest) => if left = .nil then right else .node first left rest

def eraseValue [DecidableEq α] : BinaryTree α → α → BinaryTree α
  | .nil, _ => .nil
  | .node value left right, erased =>
    if erased ∈ inorder left then .node value (eraseValue left erased) right
    else if value = erased then joinTrees left right
    else .node value left (eraseValue right erased)

/-- The rotation that a chain of three nodes needs. -/
def rotateChain : BinaryTree α → BinaryTree α
  | .node first .nil (.node second .nil (.node third .nil .nil)) =>
    .node second (.node first .nil .nil) (.node third .nil .nil)
  | tree => tree

theorem popFirst_spec : (popFirst tree = none ∧ inorder tree = []) ∨
    ∃ first rest, popFirst tree = some (first, rest) ∧ inorder tree = first :: inorder rest := by
  induction tree with
  | nil => exact .inl ⟨rfl, rfl⟩
  | node value left right leftIH _ =>
    rcases leftIH with ⟨none, empty⟩ | ⟨first, rest, found, split⟩
    · exact .inr ⟨value, right, by rw [popFirst, none], by rw [inorder, empty, nil_append]⟩
    · exact .inr ⟨first, .node value rest right, by rw [popFirst, found], by rw [inorder, split, cons_append, inorder]⟩

theorem inorder_joinTrees [DecidableEq α] : inorder (joinTrees left right) = inorder left ++ inorder right := by
  unfold joinTrees
  rcases @popFirst_spec _ right with ⟨none, empty⟩ | ⟨first, rest, found, split⟩
  · rw [none, empty, List.append_nil]
  · rw [found]
    simp only
    split
    · rename_i leaf
      rw [leaf, inorder, nil_append]
    · rw [inorder, split]

theorem inorder_eraseValue [DecidableEq α] (erased : α) : inorder (eraseValue tree erased) = (inorder tree).erase erased := by
  induction tree with
  | nil => rfl
  | node value left right leftIH rightIH =>
    unfold eraseValue
    rw [inorder, erase_append]
    split
    · rw [inorder, leftIH]
    · rw [erase_cons]
      split
      · rename_i same
        rw [if_pos (by simpa using same), inorder_joinTrees]
      · rename_i different
        rw [if_neg (by simpa using different), inorder, rightIH]

theorem inorder_rotateChain : inorder (rotateChain tree) = inorder tree := by
  unfold rotateChain
  split
  · rfl
  · rfl

/-- Erasure by the successor, and a rotation of a chain of three nodes. -/
def Balancing.small (α : Type) [DecidableEq α] : Balancing α where
  balance := rotateChain
  erase := eraseValue
  inorder_balance _ := inorder_rotateChain
  inorder_erase _ value := inorder_eraseValue value

end

section

variable {key : α → κ} {wanted : κ} {compare : α → Ordering} {change : α → α} {new : α} {tree : BinaryTree α}

def keyOrdering (wanted key : κ) : Ordering :=
  if wanted < key then .lt
  else if wanted > key then .gt
  else .eq

def searchBy (compare : α → Ordering) : BinaryTree α → Option α
  | .nil => none
  | .node value left right =>
    match compare value with
    | .lt => searchBy compare left
    | .gt => searchBy compare right
    | .eq => some value

/-- Change the value that the search finds, or link a new one where it ends. -/
def upsertBy (compare : α → Ordering) (change : α → α) (new : α) : BinaryTree α → BinaryTree α
  | .nil => .node new .nil .nil
  | .node value left right =>
    match compare value with
    | .lt => .node value (upsertBy compare change new left) right
    | .gt => .node value left (upsertBy compare change new right)
    | .eq => .node (change value) left right

/-- Link a value where the search for it ends, unless one like it is there. -/
def linkBy (compare : α → Ordering) (new : α) : BinaryTree α → Option (BinaryTree α)
  | .nil => some (.node new .nil .nil)
  | .node value left right =>
    match compare value with
    | .lt => (linkBy compare new left).map fun after => .node value after right
    | .gt => (linkBy compare new right).map fun after => .node value left after
    | .eq => none

theorem searchBy_eq (ranks : ∀ value ∈ inorder tree, compare value = keyOrdering wanted (key value)) :
    searchBy compare tree = findKey key wanted tree := by
  induction tree with
  | nil => rfl
  | node value left right leftIH rightIH =>
    have here := ranks value (mem_inorder_node.mpr (.inr (.inl rfl)))
    have lower := leftIH fun other within => ranks other (mem_inorder_node.mpr (.inl within))
    have upper := rightIH fun other within => ranks other (mem_inorder_node.mpr (.inr (.inr within)))
    unfold searchBy findKey
    rw [here, keyOrdering]
    split_ifs
    · exact lower
    · exact upper
    · rfl

theorem linkBy_eq (ranks : ∀ value ∈ inorder tree, compare value = keyOrdering (key new) (key value)) :
    linkBy compare new tree = linkValue key new tree := by
  induction tree with
  | nil => rfl
  | node value left right leftIH rightIH =>
    have here := ranks value (mem_inorder_node.mpr (.inr (.inl rfl)))
    have lower := leftIH fun other within => ranks other (mem_inorder_node.mpr (.inl within))
    have upper := rightIH fun other within => ranks other (mem_inorder_node.mpr (.inr (.inr within)))
    unfold linkBy linkValue
    rw [here, keyOrdering]
    split_ifs
    · rw [lower]
    · rw [upper]
    · rfl

theorem inorder_map (change : α → α) : inorder (tree.map change) = (inorder tree).map change := by
  induction tree with
  | nil => rfl
  | node value left right leftIH rightIH =>
    rw [BinaryTree.map, inorder, inorder, leftIH, rightIH, map_append, map_cons]

/-- Where the search ends, in search order. -/
theorem inorder_upsertBy (ranks : ∀ value ∈ inorder tree, compare value = keyOrdering wanted (key value)) (sorted : Sorted key tree) :
    ∃ before behind, (∀ lower ∈ before, key lower < wanted) ∧ (∀ upper ∈ behind, wanted < key upper) ∧
      ((searchBy compare tree = none ∧ inorder tree = before ++ behind ∧
        inorder (upsertBy compare change new tree) = before ++ new :: behind) ∨
      ∃ old, searchBy compare tree = some old ∧ key old = wanted ∧ inorder tree = before ++ old :: behind ∧
        inorder (upsertBy compare change new tree) = before ++ change old :: behind) := by
  induction tree with
  | nil => exact ⟨[], [], nofun, nofun, .inl ⟨rfl, rfl, rfl⟩⟩
  | node value left right leftIH rightIH =>
    obtain ⟨sortedLeft, sortedRight, below, above⟩ := sorted_node.mp sorted
    have here := ranks value (mem_inorder_node.mpr (.inr (.inl rfl)))
    unfold searchBy upsertBy
    simp only [here, keyOrdering]
    by_cases less : wanted < key value
    · obtain ⟨before, behind, smaller, larger, parts⟩ := leftIH
        (fun other within => ranks other (mem_inorder_node.mpr (.inl within))) sortedLeft
      simp only [less, if_true]
      refine ⟨before, behind ++ value :: inorder right, smaller, ?_, ?_⟩
      · intro upper member
        rcases List.mem_append.mp member with within | within
        · exact larger upper within
        · rcases List.mem_cons.mp within with rfl | within
          · exact less
          · exact less.trans (above upper within)
      · rcases parts with ⟨absent, whole, linked⟩ | ⟨old, found, same, whole, changed⟩
        · exact .inl ⟨absent, by rw [inorder, whole, append_assoc], by rw [inorder, linked, append_assoc, cons_append]⟩
        · exact .inr ⟨old, found, same, by rw [inorder, whole, append_assoc, cons_append],
            by rw [inorder, changed, append_assoc, cons_append]⟩
    · by_cases greater : wanted > key value
      · obtain ⟨before, behind, smaller, larger, parts⟩ := rightIH
          (fun other within => ranks other (mem_inorder_node.mpr (.inr (.inr within)))) sortedRight
        simp only [less, if_false, greater, if_true]
        refine ⟨inorder left ++ value :: before, behind, ?_, larger, ?_⟩
        · intro lower member
          rcases List.mem_append.mp member with within | within
          · exact (below lower within).trans greater
          · rcases List.mem_cons.mp within with rfl | within
            · exact greater
            · exact smaller lower within
        · rcases parts with ⟨absent, whole, linked⟩ | ⟨old, found, same, whole, changed⟩
          · exact .inl ⟨absent, by rw [inorder, whole, append_assoc, cons_append],
              by rw [inorder, linked, append_assoc, cons_append]⟩
          · exact .inr ⟨old, found, same, by rw [inorder, whole, append_assoc, cons_append],
              by rw [inorder, changed, append_assoc, cons_append]⟩
      · have same : key value = wanted := le_antisymm (not_lt.mp less) (not_lt.mp greater)
        simp only [less, if_false, greater]
        refine ⟨inorder left, inorder right, fun lower within => same ▸ below lower within,
          fun upper within => same ▸ above upper within, .inr ⟨value, rfl, same, rfl, rfl⟩⟩

theorem sorted_upsertBy (ranks : ∀ value ∈ inorder tree, compare value = keyOrdering wanted (key value)) (sorted : Sorted key tree)
    (keeps : ∀ old, key (change old) = key old) (fresh : key new = wanted) : Sorted key (upsertBy compare change new tree) := by
  obtain ⟨before, behind, smaller, larger, parts⟩ := @inorder_upsertBy _ _ _ _ _ _ change new _ ranks sorted
  have placed : ∀ value, key value = wanted → (before ++ behind).Pairwise (fun first second => key first < key second) →
      (before ++ value :: behind).Pairwise fun first second => key first < key second := by
    intro value same pairs
    rw [pairwise_append] at pairs
    rw [pairwise_append, pairwise_cons]
    refine ⟨pairs.1, ⟨fun upper within => same ▸ larger upper within, pairs.2.1⟩, ?_⟩
    intro lower member upper within
    rcases List.mem_cons.mp within with rfl | within
    · exact same ▸ smaller lower member
    · exact pairs.2.2 lower member upper within
  rcases parts with ⟨_, split, after⟩ | ⟨old, _, same, split, after⟩
  · rw [Sorted, after]
    rw [Sorted, split] at sorted
    exact placed new fresh sorted
  · rw [Sorted, after]
    rw [Sorted, split] at sorted
    exact placed _ ((keeps old).trans same) (sorted.sublist (sublist_cons_self _ _ |>.append_left _))

end

end KmodCeph.Lib
