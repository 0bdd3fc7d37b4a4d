import KmodCeph.Lib.SearchTree

namespace KmodCeph.OsdClient

open Lib

abbrev ReqId := Nat

structure Registered where
  tid : Nat
  req : ReqId
deriving DecidableEq

abbrev RequestTree := BinaryTree Registered

/-- `__insert_request`; none is its `BUG`. -/
def insertRequest (balancing : Balancing Registered) (new : Registered) (requests : RequestTree) : Option RequestTree :=
  (linkValue Registered.tid new requests).map balancing.balance

def lookupRequestGe (tid : Nat) : RequestTree → Option Registered
  | .nil => none
  | .node req left right =>
    if tid < req.tid then
      if left = .nil then some req else lookupRequestGe tid left
    else if tid > req.tid then lookupRequestGe tid right
    else some req

structure FirstFrom (tid : Nat) (requests : List Registered) (first : Registered) : Prop where
  registered : first ∈ requests
  from_tid : tid ≤ first.tid
  least : ∀ other ∈ requests, tid ≤ other.tid → first.tid ≤ other.tid

def Finds (tid : Nat) (requests : List Registered) : Option Registered → Prop
  | some first => FirstFrom tid requests first
  | none => ∀ other ∈ requests, other.tid < tid

/-- The first request from `tid` on has that very tid or no smaller requests below it. -/
def Unshadowed (tid : Nat) (requests : RequestTree) : Prop :=
  ∀ req left right, Subtree (.node req left right) requests → FirstFrom tid (inorder requests) req →
    req.tid = tid ∨ left = .nil

section

variable {tid : Nat} {req : Registered} {left right requests : RequestTree}

theorem lookupRequestGe_none (smaller : ∀ other ∈ inorder requests, other.tid < tid) :
    lookupRequestGe tid requests = none := by
  induction requests with
  | nil => rfl
  | node req left right leftIH rightIH =>
    simp only [mem_inorder_node] at smaller
    have root := smaller req (.inr (.inl rfl))
    rw [lookupRequestGe, if_neg root.not_gt, if_pos root]
    exact rightIH fun other within => smaller other (.inr (.inr within))

section

variable {some all : List Registered}
variable (within : ∀ other ∈ some, other ∈ all) (rest : ∀ other ∈ all, other ∈ some ∨ other.tid < tid)
include within rest

theorem firstFrom_congr : FirstFrom tid some req ↔ FirstFrom tid all req := by
  constructor
  · rintro ⟨registered, from_tid, least⟩
    refine ⟨within req registered, from_tid, fun other member reaches => ?_⟩
    rcases rest other member with found | below
    · exact least other found reaches
    · exact absurd reaches below.not_ge
  · rintro ⟨registered, from_tid, least⟩
    refine ⟨?_, from_tid, fun other member reaches => least other (within other member) reaches⟩
    rcases rest req registered with found | below
    · exact found
    · exact absurd from_tid below.not_ge

theorem finds_congr (result : Option Registered) : Finds tid some result ↔ Finds tid all result := by
  cases result with
  | some req => exact firstFrom_congr within rest
  | none =>
    constructor
    · intro smaller other member
      rcases rest other member with found | below
      · exact smaller other found
      · exact below
    · exact fun smaller other member => smaller other (within other member)

end

theorem finds_of_least {some all : List Registered} (least : ∀ req, FirstFrom tid some req ↔ FirstFrom tid all req)
    (present : ∃ other ∈ some, tid ≤ other.tid) (presentAll : ∃ other ∈ all, tid ≤ other.tid)
    (result : Option Registered) : Finds tid some result ↔ Finds tid all result := by
  cases result with
  | some req => exact least req
  | none =>
    obtain ⟨other, member, reaches⟩ := present
    obtain ⟨another, memberAll, reachesAll⟩ := presentAll
    exact iff_of_false (fun smaller => (smaller other member).not_ge reaches)
      fun smaller => (smaller another memberAll).not_ge reachesAll

theorem FirstFrom.unique {requests : List Registered} {first second : Registered} (ours : FirstFrom tid requests first)
    (theirs : FirstFrom tid requests second) : first.tid = second.tid :=
  le_antisymm (ours.least second theirs.registered theirs.from_tid) (theirs.least first ours.registered ours.from_tid)

theorem unshadowed_part {part : RequestTree}
    (least : ∀ req, FirstFrom tid (inorder part) req ↔ FirstFrom tid (inorder requests) req)
    (outside : ∀ req left right, Subtree (.node req left right) requests → FirstFrom tid (inorder requests) req →
      Subtree (.node req left right) part)
    (inside : ∀ sub, Subtree sub part → Subtree sub requests) :
    Unshadowed tid part ↔ Unshadowed tid requests := by
  constructor
  · intro unshadowed req left right sub first
    exact unshadowed req left right (outside req left right sub first) ((least req).mpr first)
  · intro unshadowed req left right sub first
    exact unshadowed req left right (inside _ sub) ((least req).mp first)

section

variable {root : Registered} {lower upper : RequestTree} (sorted : Sorted Registered.tid (.node root lower upper))

include sorted

theorem firstFrom_root (reaches : tid ≤ root.tid) (smaller : ∀ other ∈ inorder lower, other.tid < tid) :
    FirstFrom tid (inorder (.node root lower upper)) root := by
  obtain ⟨_, _, _, above⟩ := sorted_node.mp sorted
  refine ⟨mem_inorder_node.mpr (.inr (.inl rfl)), reaches, fun other member from_tid => ?_⟩
  rcases mem_inorder_node.mp member with within | rfl | within
  · exact absurd from_tid (smaller other within).not_ge
  · exact le_rfl
  · exact (above other within).le

theorem firstFrom_left_iff {other : Registered} (member : other ∈ inorder lower) (reaches : tid ≤ other.tid) :
    FirstFrom tid (inorder lower) req ↔ FirstFrom tid (inorder (.node root lower upper)) req := by
  obtain ⟨_, _, below, above⟩ := sorted_node.mp sorted
  constructor
  · rintro ⟨registered, from_tid, least⟩
    refine ⟨mem_inorder_node.mpr (.inl registered), from_tid, fun another within reaches => ?_⟩
    rcases mem_inorder_node.mp within with smaller | rfl | larger
    · exact least another smaller reaches
    · exact (below req registered).le
    · exact ((below req registered).trans (above another larger)).le
  · rintro ⟨registered, from_tid, least⟩
    have smaller : req.tid < root.tid :=
      (least other (mem_inorder_node.mpr (.inl member)) reaches).trans_lt (below other member)
    refine ⟨?_, from_tid, fun another within => least another (mem_inorder_node.mpr (.inl within))⟩
    rcases mem_inorder_node.mp registered with within | rfl | within
    · exact within
    · exact absurd smaller (lt_irrefl _)
    · exact absurd smaller (above req within).not_gt

theorem not_unshadowed_root (less : tid < root.tid) (smaller : ∀ other ∈ inorder lower, other.tid < tid)
    (nonempty : lower ≠ .nil) : ¬ Unshadowed tid (.node root lower upper) := by
  intro unshadowed
  rcases unshadowed root lower upper (.inl rfl) (firstFrom_root sorted less.le smaller) with same | leaf
  · exact less.ne' same
  · exact nonempty leaf

theorem unshadowed_root (first : FirstFrom tid (inorder (.node root lower upper)) root)
    (fits : root.tid = tid ∨ lower = .nil) : Unshadowed tid (.node root lower upper) := by
  obtain ⟨_, _, below, above⟩ := sorted_node.mp sorted
  intro req left right part least
  have same := first.unique least
  rcases part with root | within | within
  · cases root
    exact fits
  · exact absurd same (below req (mem_of_subtree within)).ne'
  · exact absurd same (above req (mem_of_subtree within)).ne

end

/-- The search finds the first request from `tid` on unless it is shadowed. -/
theorem finds_lookupRequestGe_iff (sorted : Sorted Registered.tid requests) :
    Finds tid (inorder requests) (lookupRequestGe tid requests) ↔ Unshadowed tid requests := by
  induction requests with
  | nil =>
    constructor
    · intro _ req left right part
      cases part
    · intro _ other member
      cases member
  | node root lower upper lowerIH upperIH =>
    obtain ⟨sortedLower, sortedUpper, below, above⟩ := sorted_node.mp sorted
    have here : root ∈ inorder (.node root lower upper) := mem_inorder_node.mpr (.inr (.inl rfl))
    rcases lt_trichotomy tid root.tid with less | same | greater
    · rw [lookupRequestGe, if_pos less]
      by_cases empty : lower = .nil
      · rw [if_pos empty]
        have first := firstFrom_root sorted less.le (by simp [empty, inorder])
        exact iff_of_true first (unshadowed_root sorted first (.inr empty))
      · rw [if_neg empty]
        by_cases found : ∃ other ∈ inorder lower, tid ≤ other.tid
        · -- the first request is on the left, where the search goes
          obtain ⟨other, member, reaches⟩ := found
          have least := fun req => @firstFrom_left_iff tid req root lower upper sorted other member reaches
          rw [← finds_of_least least ⟨other, member, reaches⟩ ⟨root, here, less.le⟩, lowerIH sortedLower]
          refine unshadowed_part least ?_ fun sub part => .inr (.inl part)
          intro req left right part first
          have smaller := below req ((least req).mpr first).registered
          rcases part with root | within | within
          · cases root
            exact absurd smaller (lt_irrefl _)
          · exact within
          · exact absurd smaller (above req (mem_of_subtree within)).not_gt
        · -- the first request is the root, but the search goes on below it
          push Not at found
          refine iff_of_false ?_ (not_unshadowed_root sorted less found empty)
          rw [lookupRequestGe_none found]
          exact fun none => (none root here).not_gt less
    · rw [lookupRequestGe, if_neg same.not_lt, if_neg same.not_gt]
      have first := firstFrom_root sorted same.le (same ▸ below)
      exact iff_of_true first (unshadowed_root sorted first (.inl same.symm))
    · rw [lookupRequestGe, if_neg greater.not_gt, if_pos greater]
      have within : ∀ other ∈ inorder upper, other ∈ inorder (.node root lower upper) :=
        fun other member => mem_inorder_node.mpr (.inr (.inr member))
      have rest : ∀ other ∈ inorder (.node root lower upper), other ∈ inorder upper ∨ other.tid < tid := by
        intro other member
        rcases mem_inorder_node.mp member with smaller | rfl | larger
        · exact .inr ((below other smaller).trans greater)
        · exact .inr greater
        · exact .inl larger
      rw [← finds_congr within rest, upperIH sortedUpper]
      refine unshadowed_part (fun _ => firstFrom_congr within rest) ?_ fun sub part => .inr (.inr part)
      intro req left right part first
      rcases part with root | lowerPart | upperPart
      · cases root
        exact absurd first.from_tid greater.not_ge
      · exact absurd first.from_tid ((below req (mem_of_subtree lowerPart)).trans greater).not_ge
      · exact upperPart

end

end KmodCeph.OsdClient
