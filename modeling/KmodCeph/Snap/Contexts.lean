import KmodCeph.Lib.Inherited
import KmodCeph.Snap.Realms

namespace KmodCeph.Snap

open Lib

def SnapRealms.at (realms : SnapRealms) (ino : Ino) : SnapRealm :=
  (realms ino).getD .fresh

def parentOf (realms : SnapRealms) (ino : Ino) : Option Ino :=
  (realms.at ino).parent

def TrueContext (realms : SnapRealms) : Ino → SnapContext → Prop :=
  Inherited (parentOf realms) fun ino => (realms.at ino).newContext

def RightAt (right : Ino → SnapContext → Prop) (realms : SnapRealms) (ino : Ino) : Prop :=
  ∃ context, (realms.at ino).cachedContext = some context ∧ right ino context

/-- Realms are the children of their parents, and following the parents ends. -/
structure SnapRealms.Forest (realms : SnapRealms) : Prop where
  linked : ∀ parent child, child ∈ (realms.at parent).children ↔ parentOf realms child = some parent
  ranked : Ranked (parentOf realms)
  zero : parentOf realms 0 = none

def SnapRealms.Sound (realms : SnapRealms) : Prop :=
  ∀ ino, (realms ino).isSome → RightAt (TrueContext realms) realms ino

section

variable {realms before after : SnapRealms} {ino other parentIno : Ino} {realm : SnapRealm}

theorem at_of_found (found : realms ino = some realm) : realms.at ino = realm := by
  simp [SnapRealms.at, found]

theorem get_of_isSome (present : (realms ino).isSome) : realms.get ino = .ok (realms.at ino) := by
  obtain ⟨realm, found⟩ := Option.isSome_iff_exists.mp present
  simp [SnapRealms.get, SnapRealms.at, found]

theorem isSome_of_parent (hangs : parentOf realms ino = some parentIno) : (realms ino).isSome := by
  cases found : realms ino with
  | some realm => rfl
  | none => simp [parentOf, SnapRealms.at, found, SnapRealm.fresh] at hangs

theorem isSome_of_child {child : Ino} (listed : child ∈ (realms.at ino).children) : (realms ino).isSome := by
  cases found : realms ino with
  | some realm => rfl
  | none => simp [SnapRealms.at, found, SnapRealm.fresh] at listed

theorem SnapRealms.Forest.isSome_parent (forest : realms.Forest) (hangs : parentOf realms ino = some parentIno) :
    (realms parentIno).isSome :=
  isSome_of_child ((forest.linked parentIno ino).mpr hangs)

variable {change : SnapRealm → SnapRealm}

@[simp] theorem isSome_modify : ((realms.modify ino change) other).isSome = (realms other).isSome := by
  by_cases same : other = ino
  · subst same
    simp [SnapRealms.modify]
  · simp [SnapRealms.modify, Function.update_of_ne same]

theorem at_modify (present : (realms ino).isSome) :
    (realms.modify ino change).at other = if other = ino then change (realms.at ino) else realms.at other := by
  obtain ⟨realm, found⟩ := Option.isSome_iff_exists.mp present
  split
  next same =>
    subst same
    simp [SnapRealms.at, SnapRealms.modify, found]
  next differ => simp [SnapRealms.at, SnapRealms.modify, Function.update_of_ne differ]

theorem at_modify_fresh (nothing : change .fresh = .fresh) :
    (realms.modify ino change).at other = if other = ino then change (realms.at ino) else realms.at other := by
  cases found : realms ino with
  | some realm => exact at_modify (by simp [found])
  | none =>
    split
    next same =>
      subst same
      simp [SnapRealms.at, SnapRealms.modify, found, nothing]
    next differ => simp [SnapRealms.at, SnapRealms.modify, Function.update_of_ne differ]

end

def SameShape (before after : SnapRealms) : Prop :=
  ∀ ino, (after ino).isSome = (before ino).isSome ∧
    { after.at ino with cachedContext := none } = { before.at ino with cachedContext := none }

structure Improves (right : Ino → SnapContext → Prop) (before after : SnapRealms) : Prop where
  shape : SameShape before after
  cached : ∀ ino, (after.at ino).cachedContext = (before.at ino).cachedContext ∨ RightAt right after ino

section

variable {right : Ino → SnapContext → Prop} {realms before middle after : SnapRealms} {ino : Ino}

theorem SameShape.refl : SameShape before before :=
  fun _ => ⟨rfl, rfl⟩

theorem SameShape.trans (first : SameShape before middle) (second : SameShape middle after) : SameShape before after :=
  fun ino => ⟨(second ino).1.trans (first ino).1, (second ino).2.trans (first ino).2⟩

theorem SameShape.field {α : Type} (same : SameShape before after) (field : SnapRealm → α)
    (uncached : ∀ realm, field { realm with cachedContext := none } = field realm) :
    field (after.at ino) = field (before.at ino) := by
  rw [← uncached, (same ino).2, uncached]

theorem SameShape.parentOf (same : SameShape before after) : parentOf after ino = parentOf before ino :=
  same.field SnapRealm.parent fun _ => rfl

theorem SameShape.children (same : SameShape before after) : (after.at ino).children = (before.at ino).children :=
  same.field SnapRealm.children fun _ => rfl

theorem SameShape.seq (same : SameShape before after) : (after.at ino).seq = (before.at ino).seq :=
  same.field SnapRealm.seq fun _ => rfl

variable {given : Option SnapContext}

theorem SameShape.newContext (same : SameShape before after) :
    (after.at ino).newContext given = (before.at ino).newContext given :=
  same.field (SnapRealm.newContext · given) fun _ => by cases given <;> rfl

theorem Improves.refl : Improves right before before :=
  ⟨.refl, fun _ => .inl rfl⟩

theorem Improves.rightAt (improves : Improves right before after) (was : RightAt right before ino) :
    RightAt right after ino := by
  rcases improves.cached ino with kept | now
  · obtain ⟨context, cached, holds⟩ := was
    exact ⟨context, kept.trans cached, holds⟩
  · exact now

theorem Improves.trans (first : Improves right before middle) (second : Improves right middle after) :
    Improves right before after where
  shape := first.shape.trans second.shape
  cached := by
    intro ino
    rcases second.cached ino with kept | now
    · rcases first.cached ino with kept' | was
      · exact .inl (kept.trans kept')
      · exact .inr (second.rightAt was)
    · exact .inr now

/-- The context of a realm is kept only if it is right. -/
theorem buildBelow_right (present : (realms ino).isSome) (rule : right ino ((realms.at ino).newContext given))
    (kept : ∀ context, (realms.at ino).cachedContext = some context → (realms.at ino).unchanged given = true →
      right ino context) :
    Returns (buildBelow ino given realms) fun after => Improves right realms after ∧ RightAt right after ino := by
  unfold buildBelow
  rw [get_of_isSome present]
  simp only [bind, Except.bind, pure, Except.pure]
  split
  next unchanged =>
    refine ⟨realms, rfl, .refl, ?_⟩
    cases cached : (realms.at ino).cachedContext with
    | none => simp [SnapRealm.unchanged, cached] at unchanged
    | some context => exact ⟨context, cached, kept context cached unchanged⟩
  next =>
    refine ⟨_, rfl, ?_, ?_⟩
    · refine ⟨fun other => ⟨by simp, ?_⟩, fun other => ?_⟩
      · rw [at_modify present]
        split
        next same => rw [same]
        next => rfl
      · by_cases same : other = ino
        · subst same
          right
          exact ⟨_, by rw [at_modify present, if_pos rfl], rule⟩
        · left
          rw [at_modify present, if_neg same]
    · exact ⟨_, by rw [at_modify present, if_pos rfl], rule⟩

end

section

variable {world realms : SnapRealms} {ino last : Ino}

/-- The shortcut of `build_snap_context` is taken only where the context is still right:
where a realm below the last one has a cached context with its own seq that is not behind the
context its parent has to have, it is the context the realm has to have. -/
def FreshBelow (world : SnapRealms) (last : Ino) : Prop :=
  ∀ ino, Below (parentOf world) ino last → ∀ context, (world.at ino).cachedContext = some context →
    context.seq = (world.at ino).seq →
    (∀ parentIno above, parentOf world ino = some parentIno → TrueContext world parentIno above →
      above.seq ≤ context.seq) →
    TrueContext world ino context

def ParentReady (world realms : SnapRealms) (ino : Ino) : Prop :=
  ∀ parentIno, parentOf world ino = some parentIno → (world parentIno).isSome ∧
    (RightAt (TrueContext world) realms parentIno ∨
      (realms.at parentIno).cachedContext = none ∧ parentOf world parentIno = none)

variable {given : Option SnapContext}

theorem SnapRealm.unchanged_iff {realm : SnapRealm} {context : SnapContext}
    (cached : realm.cachedContext = some context) :
    realm.unchanged given = true ↔ context.seq = realm.seq ∧ ∀ above, given = some above → above.seq ≤ context.seq := by
  cases given with
  | none => simp [SnapRealm.unchanged, cached]
  | some above => simp [SnapRealm.unchanged, cached]

theorem buildBelow_true (fresh : FreshBelow world last)
    (under : Below (parentOf world) ino last) (improves : Improves (TrueContext world) world realms)
    (present : (realms ino).isSome) (rule : TrueContext world ino ((world.at ino).newContext given))
    (parents : ∀ parentIno above, parentOf world ino = some parentIno → TrueContext world parentIno above →
      given = some above) : Returns (buildBelow ino given realms) fun after =>
      Improves (TrueContext world) realms after ∧ RightAt (TrueContext world) after ino := by
  apply buildBelow_right present
  · rw [improves.shape.newContext]
    exact rule
  · intro context cached unchanged
    rw [SnapRealm.unchanged_iff cached, improves.shape.seq] at unchanged
    rcases improves.cached ino with kept | ⟨now, cached', holds⟩
    · exact fresh ino under context (kept.symm.trans cached) unchanged.1 fun parentIno above hangs holds =>
        unchanged.2 above (parents parentIno above hangs holds)
    · rw [cached] at cached'
      cases cached'
      exact holds

theorem buildSnapContext_true {bound : Nat} (enough : 2 ≤ bound) (fresh : FreshBelow world last)
    (under : Below (parentOf world) ino last) (improves : Improves (TrueContext world) world realms)
    (present : (world ino).isSome) (ready : ParentReady world realms ino) :
    Returns (buildSnapContext bound ino realms) fun after =>
      Improves (TrueContext world) realms after ∧ RightAt (TrueContext world) after ino ∧
      ∀ parentIno, parentOf world ino = some parentIno → RightAt (TrueContext world) after parentIno := by
  obtain ⟨bound, rfl⟩ := Nat.exists_eq_add_of_le' enough
  have here : (realms ino).isSome := by rw [(improves.shape ino).1]; exact present
  rw [show bound + 2 = bound + 1 + 1 from rfl, buildSnapContext, get_of_isSome here]
  simp only [bind, Except.bind]
  have parent : (realms.at ino).parent = parentOf world ino := improves.shape.parentOf
  rw [parent]
  cases hangs : parentOf world ino with
  | none =>
    refine (buildBelow_true fresh under improves here (.root hangs) ?_).mono ?_
    · intro parentIno above hangs'
      rw [hangs] at hangs'
      cases hangs'
    · rintro after ⟨better, right⟩
      exact ⟨better, right, by simp⟩
  | some parentIno =>
    obtain ⟨present', right | ⟨unbuilt, top⟩⟩ := ready parentIno hangs
    · obtain ⟨above, cached, holds⟩ := right
      have there : (realms parentIno).isSome := by rw [(improves.shape parentIno).1]; exact present'
      simp only [get_of_isSome there, cached]
      refine (buildBelow_true fresh under improves here (.child hangs holds) ?_).mono ?_
      · intro other above' hangs' holds'
        rw [hangs] at hangs'
        cases hangs'
        rw [holds'.unique holds]
      · rintro after ⟨better, right⟩
        refine ⟨better, right, ?_⟩
        rintro _ ⟨⟩
        exact better.rightAt ⟨above, cached, holds⟩
    · have there : (realms parentIno).isSome := by rw [(improves.shape parentIno).1]; exact present'
      have alone : (realms.at parentIno).parent = none := improves.shape.parentOf.trans top
      -- the parent is a root that was just created
      have built : Returns (buildSnapContext (bound + 1) parentIno realms) fun after =>
          Improves (TrueContext world) realms after ∧ RightAt (TrueContext world) after parentIno := by
        rw [buildSnapContext, get_of_isSome there]
        simp only [bind, Except.bind, alone]
        apply buildBelow_right there
        · rw [improves.shape.newContext]
          exact .root top
        · intro context cached
          rw [unbuilt] at cached
          cases cached
      obtain ⟨middle, ran, better, above, cached, holds⟩ := built
      have here' : (middle ino).isSome := by rw [(better.shape ino).1]; exact here
      have there' : (middle parentIno).isSome := by rw [(better.shape parentIno).1]; exact there
      simp only [get_of_isSome there, unbuilt, ran, get_of_isSome there', cached]
      refine (buildBelow_true fresh under (improves.trans better) here' (.child hangs holds) ?_).mono ?_
      · intro other above' hangs' holds'
        rw [hangs] at hangs'
        cases hangs'
        rw [holds'.unique holds]
      · rintro after ⟨best, right⟩
        refine ⟨better.trans best, right, ?_⟩
        rintro _ ⟨⟩
        exact best.rightAt ⟨above, cached, holds⟩

theorem rebuildSnapRealms_true {height : Nat} (enough : 2 ≤ height) (forest : world.Forest)
    (fresh : FreshBelow world last) {rank : Ino → Nat} {top : Nat}
    (lower : ∀ child above, parentOf world child = some above → rank above < rank child)
    (bounded : ∀ child, rank child ≤ top) {depth : Nat} {ino : Ino} {realms : SnapRealms}
    (deep : top - rank ino < depth) (under : Below (parentOf world) ino last)
    (improves : Improves (TrueContext world) world realms) (present : (world ino).isSome)
    (ready : ParentReady world realms ino) :
    Returns (rebuildSnapRealms height depth ino realms) fun after =>
      Improves (TrueContext world) realms after ∧
      (∀ child, Below (parentOf world) child ino → RightAt (TrueContext world) after child) ∧
      ∀ parentIno, parentOf world ino = some parentIno → RightAt (TrueContext world) after parentIno := by
  induction depth generalizing ino realms with
  | zero => omega
  | succ depth ih =>
    obtain ⟨built, ran, better, right, parents⟩ := buildSnapContext_true enough fresh under improves present ready
    have here : (built ino).isSome := by rw [(better.shape ino).1, (improves.shape ino).1]; exact present
    rw [rebuildSnapRealms, ran]
    simp only [bind, Except.bind, get_of_isSome here]
    have children : (built.at ino).children = (world.at ino).children :=
      better.shape.children.trans improves.shape.children
    rw [children]
    have visit : ∀ (left : List Ino) (now : SnapRealms), (∀ child ∈ left, parentOf world child = some ino) →
        Improves (TrueContext world) built now →
        Returns (left.foldlM (fun realms child => rebuildSnapRealms height depth child realms) now) fun after =>
          Improves (TrueContext world) now after ∧
          ∀ child ∈ left, ∀ below, Below (parentOf world) below child → RightAt (TrueContext world) after below := by
      intro left
      induction left with
      | nil => exact fun now _ _ => ⟨now, rfl, .refl, by simp⟩
      | cons child left visited =>
        intro now hang since
        have hangs := hang child List.mem_cons_self
        have shallower : top - rank child < depth := by
          have := lower child ino hangs
          have := bounded child
          lia
        obtain ⟨next, ran', better', below, -⟩ := ih shallower (.head hangs under)
          (improves.trans (better.trans since)) (isSome_of_parent hangs)
          (by
            intro parentIno hangs'
            rw [hangs] at hangs'
            cases hangs'
            exact ⟨present, .inl (since.rightAt right)⟩)
        rw [List.foldlM_cons, ran']
        refine (visited next (fun child listed => hang child (List.mem_cons_of_mem _ listed))
          (since.trans better')).mono ?_
        rintro after ⟨best, others⟩
        refine ⟨better'.trans best, ?_⟩
        intro some' listed
        rcases List.mem_cons.mp listed with rfl | listed
        · exact fun descendant under' => best.rightAt (below descendant under')
        · exact others some' listed
    refine (visit _ built (fun child => (forest.linked ino child).mp) .refl).mono ?_
    rintro after ⟨best, below⟩
    refine ⟨better.trans best, ?_, fun parentIno hangs => best.rightAt (parents parentIno hangs)⟩
    intro child under'
    rcases Relation.ReflTransGen.cases_tail under' with rfl | ⟨top, under', hangs⟩
    · exact best.rightAt right
    · exact below top ((forest.linked ino top).mpr hangs) child under'

end

end KmodCeph.Snap
