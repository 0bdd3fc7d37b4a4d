import KmodCeph.Snap.Contexts

namespace KmodCeph.Snap

open Lib List SnapRealm

def Linked (realms : SnapRealms) : Prop :=
  ∀ parent child, child ∈ (realms.at parent).children ↔ parentOf realms child = some parent

section

variable {realms : SnapRealms} {ino other parentIno : Ino}

theorem lookupOrCreate_fst : (lookupOrCreate realms ino).1 = realms.at ino := by
  cases found : realms ino <;> simp [lookupOrCreate, SnapRealms.at, found]

theorem lookupOrCreate_at : (lookupOrCreate realms ino).2.at other = realms.at other := by
  cases found : realms ino with
  | some realm => simp [lookupOrCreate, found]
  | none =>
    by_cases same : other = ino
    · subst same
      simp [lookupOrCreate, SnapRealms.at, found]
    · simp [lookupOrCreate, SnapRealms.at, found, Function.update_of_ne same]

theorem lookupOrCreate_isSome :
    ((lookupOrCreate realms ino).2 other).isSome ↔ (realms other).isSome ∨ other = ino := by
  cases found : realms ino with
  | some realm =>
    simp only [lookupOrCreate, found]
    constructor
    · exact .inl
    · rintro (present | rfl)
      · exact present
      · simp [found]
  | none =>
    by_cases same : other = ino
    · subst same
      simp [lookupOrCreate, found]
    · simp [lookupOrCreate, found, same]

variable {realm : SnapRealm}

theorem leaveParent_at : (leaveParent ino realm realms).at other =
    (if realm.parent = some other then delChild ino else id) (realms.at other) := by
  unfold leaveParent
  cases realm.parent with
  | none => simp
  | some old =>
    have nothing : delChild ino .fresh = .fresh := rfl
    simp only [at_modify_fresh nothing, Option.some.injEq]
    by_cases same : other = old
    · subst same
      simp
    · simp [same, Ne.symm same]

@[simp] theorem leaveParent_isSome : (leaveParent ino realm realms other).isSome = (realms other).isSome := by
  unfold leaveParent
  cases realm.parent with
  | none => rfl
  | some old => exact isSome_modify

theorem adjust_same (same : (realms.at ino).parentIno = parentIno) :
    adjustSnapRealmParent ino (realms.at ino) parentIno realms = (false, realms) := by
  rw [adjustSnapRealmParent, if_pos same]

theorem adjust_at (differs : (realms.at ino).parentIno ≠ parentIno) (present : (realms ino).isSome) :
    (adjustSnapRealmParent ino (realms.at ino) parentIno realms).1 = true ∧
    ∀ other, (adjustSnapRealmParent ino (realms.at ino) parentIno realms).2.at other =
      (if other = parentIno then addChild ino else id)
        ((if other = ino then fun realm => { realm with parent := some parentIno } else id)
          ((if (realms.at ino).parent = some other then delChild ino else id) (realms.at other))) := by
  rw [adjustSnapRealmParent, if_neg differs]
  refine ⟨rfl, fun other => ?_⟩
  have created : ((lookupOrCreate realms parentIno).2 parentIno).isSome := lookupOrCreate_isSome.mpr (.inr rfl)
  have kept : ((lookupOrCreate realms parentIno).2 ino).isSome := lookupOrCreate_isSome.mpr (.inl present)
  rw [at_modify (by simpa using created), at_modify (by simpa using kept), at_modify (by simpa using kept)]
  simp only [leaveParent_at, lookupOrCreate_at]
  by_cases atParent : other = parentIno
  · subst atParent
    by_cases self : other = ino
    · subst self
      simp
    · simp [self]
  · by_cases atIno : other = ino
    · subst atIno
      simp [atParent]
    · simp [atParent, atIno]

theorem adjust_isSome (differs : (realms.at ino).parentIno ≠ parentIno) :
    ((adjustSnapRealmParent ino (realms.at ino) parentIno realms).2 other).isSome ↔
      (realms other).isSome ∨ other = parentIno := by
  rw [adjustSnapRealmParent, if_neg differs]
  simp only [isSome_modify, leaveParent_isSome]
  exact lookupOrCreate_isSome

end

/-- What one realm of a trace does to the realms. -/
structure Updates (ri : RealmInfo) (before after : SnapRealms) : Prop where
  others : ∀ ino, ino ≠ ri.ino → parentOf after ino = parentOf before ino
  parentIno : (after.at ri.ino).parentIno = ri.parent
  rule : ∀ ino, ino ≠ ri.ino → ∀ given, (after.at ino).newContext given = (before.at ino).newContext given
  cached : ∀ ino, (after.at ino).cachedContext = (before.at ino).cachedContext
  here : (after ri.ino).isSome
  still : ∀ ino, (before ino).isSome → (after ino).isSome
  created : ∀ ino, (after ino).isSome → (before ino).isSome ∨ ino = ri.ino ∨ parentOf after ri.ino = some ino
  linked : Linked before → Linked after

section

variable {realms before middle after : SnapRealms} {ino parentIno : Ino} {ri : RealmInfo} {walk : TraceWalk}

theorem adjust_updates (present : (realms ri.ino).isSome) :
    Updates ri realms (adjustSnapRealmParent ri.ino (realms.at ri.ino) ri.parent realms).2 := by
  by_cases same : (realms.at ri.ino).parentIno = ri.parent
  · rw [adjust_same same]
    exact ⟨fun _ _ => rfl, same, fun _ _ _ => rfl, fun _ => rfl, present, fun _ => id, fun _ => .inl, id⟩
  · obtain ⟨-, spec⟩ := adjust_at same present
    have parent : ∀ ino, parentOf (adjustSnapRealmParent ri.ino (realms.at ri.ino) ri.parent realms).2 ino =
        if ino = ri.ino then some ri.parent else parentOf realms ino := by
      intro ino
      simp only [parentOf, spec]
      split <;> split <;> split <;> rfl
    refine ⟨?_, ?_, ?_, ?_, ?_, ?_, ?_, ?_⟩
    · intro ino differs
      rw [parent, if_neg differs]
    · have hangs := parent ri.ino
      rw [if_pos rfl, parentOf] at hangs
      rw [SnapRealm.parentIno, hangs]
      rfl
    · intro ino differs given
      rw [spec, if_neg differs]
      split <;> split <;> cases given <;> rfl
    · intro ino
      rw [spec]
      split <;> split <;> split <;> rfl
    · exact (adjust_isSome same).mpr (.inl present)
    · exact fun ino was => (adjust_isSome same).mpr (.inl was)
    · intro ino now
      rcases (adjust_isSome same).mp now with was | rfl
      · exact .inl was
      · rw [parent, if_pos rfl]
        exact .inr (.inr rfl)
    · intro linked above child
      have listed := linked above child
      have old := linked above ri.ino
      rw [parent, spec]
      simp only [parentOf] at listed old ⊢
      by_cases moved : child = ri.ino
      · subst moved
        by_cases goal : above = ri.parent
        · simp [goal, addChild]
        · rw [if_neg goal]
          have differs : some ri.parent ≠ some above := fun equal => goal (Option.some.inj equal).symm
          by_cases hung : (realms.at ri.ino).parent = some above
          · rw [if_pos hung]
            split <;> simp [delChild, differs]
          · rw [if_neg hung]
            split <;> simp [differs, old, hung]
      · rw [if_neg moved, ← listed]
        split <;> split <;> split <;> simp [addChild, delChild, moved]

theorem Updates.of_at (updates : Updates ri middle after)
    (same : ∀ ino, middle.at ino = before.at ino)
    (present : ∀ ino, (middle ino).isSome ↔ (before ino).isSome ∨ ino = ri.ino) : Updates ri before after where
  others := by
    intro ino differs
    rw [updates.others ino differs, parentOf, parentOf, same]
  parentIno := updates.parentIno
  rule := fun ino differs given => by rw [updates.rule ino differs, same]
  cached := fun ino => by rw [updates.cached, same]
  here := updates.here
  still := fun ino was => updates.still ino ((present ino).mpr (.inl was))
  created := by
    intro ino now
    rcases updates.created ino now with was | rest
    · rcases (present ino).mp was with was | here
      · exact .inl was
      · exact .inr (.inl here)
    · exact .inr rest
  linked := fun linked => updates.linked fun parent child => by rw [same, linked, parentOf, parentOf, same]

theorem Updates.update (updates : Updates ri before after) : Updates ri before (after.modify ri.ino ri.update) := by
  have spec : ∀ ino, (after.modify ri.ino ri.update).at ino = if ino = ri.ino then ri.update (after.at ri.ino) else after.at ino :=
    fun ino => at_modify updates.here
  have parent : ∀ ino, parentOf (after.modify ri.ino ri.update) ino = parentOf after ino := by
    intro ino
    rw [parentOf, spec]
    split
    next same => rw [same]; rfl
    next => rfl
  refine ⟨?_, ?_, ?_, ?_, ?_, ?_, ?_, ?_⟩
  · intro ino differs
    rw [parent, updates.others ino differs]
  · rw [spec, if_pos rfl]
    exact updates.parentIno
  · intro ino differs given
    rw [spec, if_neg differs, updates.rule ino differs]
  · intro ino
    rw [spec, ← updates.cached]
    split
    next same => rw [same]; rfl
    next => rfl
  · rw [isSome_modify]
    exact updates.here
  · intro ino was
    rw [isSome_modify]
    exact updates.still ino was
  · intro ino now
    rw [isSome_modify] at now
    rw [parent]
    exact updates.created ino now
  · intro linked above child
    rw [parent, ← updates.linked linked, spec]
    split
    next same => rw [same]; rfl
    next => rfl

theorem updateSnapRealm_updates : Updates ri walk.realms (updateSnapRealm walk ri).realms := by
  have present : ((lookupOrCreate walk.realms ri.ino).2 ri.ino).isSome := lookupOrCreate_isSome.mpr (.inr rfl)
  have adjusted := (adjust_updates present).of_at (fun _ => lookupOrCreate_at) fun _ => lookupOrCreate_isSome
  rw [lookupOrCreate_at, ← lookupOrCreate_fst] at adjusted
  simp only [updateSnapRealm]
  split
  · exact adjusted.update
  · split
    · exact adjusted
    · exact adjusted

theorem updateSnapRealm_valid (valid : (updateSnapRealm walk ri).invalidate = false) :
    walk.invalidate = false ∧ (updateSnapRealm walk ri).realms = walk.realms := by
  cases found : walk.realms ri.ino with
  | none =>
    simp only [updateSnapRealm, lookupOrCreate, found, SnapRealm.fresh, Option.isNone_none, if_true] at valid
    split at valid <;> cases valid
  | some realm =>
    have at' : walk.realms.at ri.ino = realm := at_of_found found
    by_cases same : realm.parentIno = ri.parent
    · simp only [updateSnapRealm, lookupOrCreate, found] at valid ⊢
      rw [← at', adjust_same (by rw [at']; exact same), at'] at valid ⊢
      split at valid
      · cases valid
      · split at valid
        · cases valid
        · next older cached =>
            rw [Bool.or_false] at valid
            rw [if_neg older, if_neg cached]
            exact ⟨valid, rfl⟩
    · have present : (walk.realms ri.ino).isSome := by rw [found]; rfl
      have changed := (adjust_at (by rw [at']; exact same) present).1
      simp only [updateSnapRealm, lookupOrCreate, found] at valid
      rw [at'] at changed
      rw [changed] at valid
      split at valid
      · cases valid
      · split at valid
        · cases valid
        · simp at valid

end

/-- A realm and its successive parents up to the root. -/
def ParentChain : List RealmInfo → Prop
  | [] => False
  | [root] => root.parent = 0
  | child :: parent :: rest => child.parent = parent.ino ∧ ParentChain (parent :: rest)

structure ProperTrace (trace : List RealmInfo) : Prop where
  chain : ParentChain trace
  distinct : (trace.map RealmInfo.ino).Nodup
  nonzero : 0 ∉ trace.map RealmInfo.ino

structure Walked (trace : List RealmInfo) (before after : SnapRealms) : Prop where
  others : ∀ ino, ino ∉ trace.map RealmInfo.ino → parentOf after ino = parentOf before ino
  parentIno : ∀ ri ∈ trace, (after.at ri.ino).parentIno = ri.parent
  rule : ∀ ino, ino ∉ trace.map RealmInfo.ino → ∀ given,
    (after.at ino).newContext given = (before.at ino).newContext given
  cached : ∀ ino, (after.at ino).cachedContext = (before.at ino).cachedContext
  here : ∀ ri ∈ trace, (after ri.ino).isSome
  still : ∀ ino, (before ino).isSome → (after ino).isSome
  created : ∀ ino, (after ino).isSome →
    (before ino).isSome ∨ ino ∈ trace.map RealmInfo.ino ∨ ∃ ri ∈ trace, parentOf after ri.ino = some ino
  linked : Linked before → Linked after

section

variable {before after : SnapRealms} {trace : List RealmInfo} {walk : TraceWalk} {last : RealmInfo} {ino : Ino}

theorem walked_of_distinct (distinct : (trace.map RealmInfo.ino).Nodup) :
    Walked trace walk.realms (trace.foldl updateSnapRealm walk).realms := by
  induction trace generalizing walk with
  | nil =>
    refine ⟨fun _ _ => rfl, ?_, fun _ _ _ => rfl, fun _ => rfl, ?_, fun _ => id, fun _ => .inl, id⟩ <;>
      exact fun ri listed => absurd listed not_mem_nil
  | cons ri rest ih =>
    rw [map_cons, nodup_cons] at distinct
    have first : Updates ri walk.realms _ := updateSnapRealm_updates
    have then' := @ih (updateSnapRealm walk ri) distinct.2
    rw [foldl_cons]
    have kept := then'.others ri.ino distinct.1
    refine ⟨?_, ?_, ?_, ?_, ?_, ?_, ?_, ?_⟩
    · intro ino unlisted
      rw [map_cons, mem_cons, not_or] at unlisted
      rw [then'.others ino unlisted.2, first.others ino unlisted.1]
    · intro info listed
      rcases List.mem_cons.mp listed with rfl | listed
      · rw [← first.parentIno, SnapRealm.parentIno, SnapRealm.parentIno]
        exact congrArg (Option.getD · 0) kept
      · exact then'.parentIno info listed
    · intro ino unlisted given
      rw [map_cons, mem_cons, not_or] at unlisted
      rw [then'.rule ino unlisted.2, first.rule ino unlisted.1]
    · intro ino
      rw [then'.cached, first.cached]
    · intro info listed
      rcases List.mem_cons.mp listed with rfl | listed
      · exact then'.still _ first.here
      · exact then'.here info listed
    · exact fun ino was => then'.still ino (first.still ino was)
    · intro ino now
      rw [map_cons, mem_cons]
      rcases then'.created ino now with middle | listed | ⟨info, listed, hangs⟩
      · rcases first.created ino middle with was | here | hangs
        · exact .inl was
        · exact .inr (.inl (.inl here))
        · exact .inr (.inr ⟨ri, mem_cons_self, kept.trans hangs⟩)
      · exact .inr (.inl (.inr listed))
      · exact .inr (.inr ⟨info, mem_cons_of_mem _ listed, hangs⟩)
    · exact fun linked => then'.linked (first.linked linked)

theorem walk_valid (valid : (trace.foldl updateSnapRealm walk).invalidate = false) :
    (trace.foldl updateSnapRealm walk).realms = walk.realms := by
  have kept : walk.invalidate = false ∧ (trace.foldl updateSnapRealm walk).realms = walk.realms := by
    induction trace generalizing walk with
    | nil => exact ⟨valid, rfl⟩
    | cons ri rest ih =>
      obtain ⟨valid', same⟩ := ih valid
      obtain ⟨valid'', same'⟩ := updateSnapRealm_valid valid'
      exact ⟨valid'', same.trans same'⟩
  exact kept.2

variable {parentIno : Ino}

theorem parentOf_of_parentIno (stored : (after.at ino).parentIno = parentIno)
    (nonzero : parentIno ≠ 0) : parentOf after ino = some parentIno := by
  unfold SnapRealm.parentIno at stored
  unfold parentOf
  cases hangs : (after.at ino).parent with
  | none => rw [hangs] at stored; exact absurd stored.symm nonzero
  | some above => rw [hangs] at stored; exact congrArg some stored

theorem parentIno_of_parentOf (hangs : parentOf after ino = some parentIno) : (after.at ino).parentIno = parentIno :=
  congrArg (Option.getD · 0) hangs

/-- Every realm of a chain is the root or comes right before its parent. -/
theorem ParentChain.step (chain : ParentChain trace) (distinct : (trace.map RealmInfo.ino).Nodup) :
    ∀ ri ∈ trace, (ri.parent = 0 ∧ trace.getLast? = some ri) ∨
      ri.parent ∈ trace.map RealmInfo.ino ∧
      (trace.map RealmInfo.ino).idxOf ri.parent = (trace.map RealmInfo.ino).idxOf ri.ino + 1 := by
  induction trace with
  | nil => exact chain.elim
  | cons child rest ih =>
    cases rest with
    | nil =>
      intro ri listed
      cases List.mem_singleton.mp listed
      exact .inl ⟨chain, rfl⟩
    | cons parent rest =>
      rw [map_cons, nodup_cons] at distinct
      intro ri listed
      rcases List.mem_cons.mp listed with rfl | listed
      · right
        have differs : parent.ino ≠ ri.ino := fun same => distinct.1 (by simp [← same])
        rw [chain.1]
        refine ⟨by simp, ?_⟩
        simp [idxOf_cons_ne _ differs.symm]
      · have inRest : ri.ino ∈ (parent :: rest).map RealmInfo.ino := mem_map_of_mem listed
        have differs : child.ino ≠ ri.ino := fun same => distinct.1 (same ▸ inRest)
        rcases ih chain.2 distinct.2 ri listed with ⟨root, final⟩ | ⟨above, next⟩
        · exact .inl ⟨root, by rw [getLast?_cons_cons]; exact final⟩
        · right
          have differs' : child.ino ≠ ri.parent := fun same => distinct.1 (same ▸ above)
          refine ⟨mem_cons_of_mem _ above, ?_⟩
          rw [map_cons, idxOf_cons_ne _ differs, idxOf_cons_ne _ differs', next]

theorem ParentChain.last_parent (chain : ParentChain trace) (final : trace.getLast? = some last) : last.parent = 0 := by
  induction trace with
  | nil => exact chain.elim
  | cons child rest ih =>
    cases rest with
    | nil =>
      cases final
      exact chain
    | cons parent rest =>
      exact ih chain.2 final

theorem Walked.below_last (walked : Walked trace before after) (proper : ProperTrace trace)
    (final : trace.getLast? = some last) : ∀ ri ∈ trace, Below (parentOf after) ri.ino last.ino := by
  have parents := walked.parentIno
  have nonzero := proper.nonzero
  have chain := proper.chain
  clear walked proper
  induction trace with
  | nil => exact chain.elim
  | cons child rest ih =>
    cases rest with
    | nil =>
      intro ri listed
      cases List.mem_singleton.mp listed
      cases final
      exact .refl
    | cons parent rest =>
      have up := ih final (fun ri listed => parents ri (mem_cons_of_mem _ listed))
        (fun listed => nonzero (mem_cons_of_mem _ listed)) chain.2
      intro ri listed
      rcases List.mem_cons.mp listed with rfl | listed
      · have stored := (parents ri mem_cons_self).trans chain.1
        refine .head (parentOf_of_parentIno stored ?_) (up parent mem_cons_self)
        exact fun zero => nonzero (by simp [← zero])
      · exact up ri listed

theorem Walked.forest (walked : Walked trace before after) (proper : ProperTrace trace) (forest : before.Forest) :
    after.Forest where
  linked := walked.linked forest.linked
  zero := (walked.others 0 proper.nonzero).trans forest.zero
  ranked := by
    obtain ⟨rank, top, lower, bounded⟩ := forest.ranked
    -- the realms of the trace come first, in its reverse order
    refine ⟨fun ino => if ino = 0 then 0 else if ino ∈ trace.map RealmInfo.ino then
      trace.length - (trace.map RealmInfo.ino).idxOf ino else rank ino + trace.length + 1, top + trace.length + 1, ?_, ?_⟩
    · intro child above hangs
      by_cases listed : child ∈ trace.map RealmInfo.ino
      · obtain ⟨ri, member, rfl⟩ := List.mem_map.mp listed
        have place := List.idxOf_lt_length_iff.mpr listed
        rw [length_map] at place
        have nonzero : ri.ino ≠ 0 := fun zero => proper.nonzero (zero ▸ listed)
        have stored : above = ri.parent := (parentIno_of_parentOf hangs).symm.trans (walked.parentIno ri member)
        subst stored
        rcases proper.chain.step proper.distinct ri member with ⟨root, -⟩ | ⟨above, next⟩
        · simp only [root, if_true, if_neg nonzero, if_pos listed]
          omega
        · have nonzero' : ri.parent ≠ 0 := fun zero => proper.nonzero (zero ▸ above)
          lia
      · rw [walked.others child listed] at hangs
        have below := lower child above hangs
        have nonzero : child ≠ 0 := by
          rintro rfl
          rw [forest.zero] at hangs
          cases hangs
        simp only [if_neg nonzero, if_neg listed]
        split
        · omega
        · split <;> lia
    · intro child
      have := bounded child
      dsimp only
      split
      · omega
      · split <;> lia

end

variable {short long : Nat} {ino : Ino} {realms after : SnapRealms} {trace : List RealmInfo}

theorem buildSnapContext_mono (longer : short ≤ long)
    (ran : buildSnapContext short ino realms = .ok after) : buildSnapContext long ino realms = .ok after := by
  induction short generalizing long ino realms after with
  | zero => cases ran
  | succ short ih =>
    obtain ⟨long, rfl⟩ : ∃ bound, long = bound + 1 := ⟨long - 1, by lia⟩
    unfold buildSnapContext at ran ⊢
    obtain ⟨realm, here, ran⟩ := ok_of_bind ran
    rw [here]
    simp only [bind, Except.bind]
    cases hangs : realm.parent with
    | none =>
      rw [hangs] at ran
      exact ran
    | some parentIno =>
      rw [hangs] at ran
      obtain ⟨parent, there, ran⟩ := ok_of_bind ran
      simp only [there]
      cases cached : parent.cachedContext with
      | some context =>
        rw [cached] at ran
        exact ran
      | none =>
        rw [cached] at ran
        obtain ⟨built, up, ran⟩ := ok_of_bind ran
        have up' : buildSnapContext long parentIno realms = .ok built := ih (by omega) up
        simp only [up']
        exact ran

theorem rebuildSnapRealms_mono {low high : Nat} (higher : low ≤ high) (longer : short ≤ long)
    (ran : rebuildSnapRealms low short ino realms = .ok after) :
    rebuildSnapRealms high long ino realms = .ok after := by
  induction short generalizing long ino realms after with
  | zero => cases ran
  | succ short ih =>
    obtain ⟨long, rfl⟩ : ∃ bound, long = bound + 1 := ⟨long - 1, by lia⟩
    unfold rebuildSnapRealms at ran ⊢
    obtain ⟨built, up, ran⟩ := ok_of_bind ran
    obtain ⟨realm, here, ran⟩ := ok_of_bind ran
    rw [buildSnapContext_mono higher up]
    simp only [bind, Except.bind, here]
    exact foldlM_mono (fun _ _ _ => ih (by omega)) ran

theorem cephUpdateSnapTrace_mono (longer : short ≤ long)
    {result : List Ino × SnapRealms} (ran : cephUpdateSnapTrace short trace realms = .ok result) :
    cephUpdateSnapTrace long trace realms = .ok result := by
  unfold cephUpdateSnapTrace at ran ⊢
  cases final : trace.getLast? with
  | none =>
    rw [final] at ran
    cases ran
  | some last =>
    rw [final] at ran
    dsimp only at ran ⊢
    split
    next invalid =>
      rw [if_pos invalid] at ran
      obtain ⟨rebuilt, up, ran⟩ := ok_of_bind ran
      rw [rebuildSnapRealms_mono longer longer up]
      exact ran
    next valid =>
      rw [if_neg valid] at ran
      exact ran

def walkedBy (trace : List RealmInfo) (realms : SnapRealms) : SnapRealms :=
  (trace.foldl updateSnapRealm { realms := realms, invalidate := false, dirtyRealms := [] }).realms

/-- The context is the snaps of the realm with what it inherits, and no older than either. -/
structure SnapContext.Exact (context : SnapContext) (realm : SnapRealm) (inherited : List SnapId) (seq : SnapId) :
    Prop where
  sorted : context.snaps.Pairwise (· ≥ ·)
  snaps : context.snaps.Perm (realm.snaps ++ realm.priorParentSnaps ++ inherited)
  seq : context.seq = max realm.seq seq

/-- The cached context of a realm follows from the realm and the cached context of its parent. -/
def SnapRealms.Exact (realms : SnapRealms) (realm : SnapRealm) : Prop :=
  ∃ context, realm.cachedContext = some context ∧
    match realm.parent with
    | none => context.Exact realm [] 0
    | some parentIno => ∃ parent above, realms parentIno = some parent ∧ parent.cachedContext = some above ∧
        context.Exact realm (above.snaps.filter (· ≥ realm.parentSince)) above.seq

section

variable {realms before after : SnapRealms} {trace : List RealmInfo} {last : RealmInfo} {ino : Ino}

theorem newContext_root_exact (realm : SnapRealm) : (realm.newContext none).Exact realm [] 0 where
  sorted := pairwise_insertionSort _ _
  snaps := by
    rw [List.append_nil]
    exact perm_insertionSort _ _
  seq := (Nat.max_zero _).symm

theorem newContext_child_exact (realm : SnapRealm) (above : SnapContext) :
    (realm.newContext (some above)).Exact realm (above.snaps.filter (· ≥ realm.parentSince)) above.seq where
  sorted := pairwise_insertionSort _ _
  snaps := by
    refine (perm_insertionSort _ _).trans ?_
    rw [append_assoc]
    exact perm_append_comm
  seq := by
    simp only [SnapRealm.newContext]
    split
    next newer => exact (Nat.max_eq_right (Nat.le_of_lt newer)).symm
    next older => exact (Nat.max_eq_left (Nat.le_of_not_lt older)).symm

theorem SnapRealms.Sound.exact (sound : realms.Sound) (forest : realms.Forest) {realm : SnapRealm}
    (found : realms ino = some realm) : realms.Exact realm := by
  have same := at_of_found found
  obtain ⟨context, cached, holds⟩ := sound ino (by rw [found]; rfl)
  rw [same] at cached
  refine ⟨context, cached, ?_⟩
  cases hangs : realm.parent with
  | none =>
    have alone : parentOf realms ino = none := by rw [parentOf, same, hangs]
    have rule := holds.of_root alone
    rw [same] at rule
    rw [rule]
    exact newContext_root_exact realm
  | some parentIno =>
    have hangs' : parentOf realms ino = some parentIno := by rw [parentOf, same, hangs]
    obtain ⟨given, above, rule⟩ := holds.of_child hangs'
    rw [same] at rule
    have present := forest.isSome_parent hangs'
    obtain ⟨parent, found'⟩ := Option.isSome_iff_exists.mp present
    obtain ⟨given', cached', holds'⟩ := sound parentIno present
    rw [at_of_found found'] at cached'
    rw [holds'.unique above] at cached'
    refine ⟨parent, given, found', cached', ?_⟩
    rw [rule]
    exact newContext_child_exact realm given

theorem SameShape.trueContext (same : SameShape before after) {context : SnapContext}
    (holds : TrueContext before ino context) : TrueContext after ino context :=
  holds.congr (fun _ => True) (fun _ _ _ _ => trivial) (fun _ _ => same.parentOf)
    (fun _ _ => funext fun _ => same.newContext) trivial

theorem SameShape.forest (same : SameShape before after) (forest : before.Forest) : after.Forest where
  linked := by
    intro parent child
    rw [same.children, same.parentOf]
    exact forest.linked parent child
  zero := same.parentOf.trans forest.zero
  ranked := by
    have equal : Snap.parentOf after = Snap.parentOf before := funext fun _ => same.parentOf
    rw [equal]
    exact forest.ranked

theorem Walked.rightAt_elsewhere (walked : Walked trace before after) (proper : ProperTrace trace)
    (final : trace.getLast? = some last) (sound : before.Sound) (present : (before ino).isSome)
    (elsewhere : ¬ Below (parentOf after) ino last.ino) : RightAt (TrueContext after) after ino := by
  obtain ⟨context, cached, holds⟩ := sound ino present
  have unlisted : ∀ child, ¬ Below (parentOf after) child last.ino → child ∉ trace.map RealmInfo.ino := by
    intro child outside listed
    obtain ⟨ri, member, rfl⟩ := List.mem_map.mp listed
    exact outside (walked.below_last proper final ri member)
  refine ⟨context, (walked.cached ino).trans cached, ?_⟩
  refine holds.congr (fun child => ¬ Below (parentOf after) child last.ino) ?_ ?_ ?_ elsewhere
  · intro child above outside hangs under
    exact outside (.head ((walked.others child (unlisted child outside)).trans hangs) under)
  · exact fun child outside => walked.others child (unlisted child outside)
  · exact fun child outside => funext fun given => walked.rule child (unlisted child outside) given

theorem Walked.created_elsewhere (walked : Walked trace before after) (proper : ProperTrace trace)
    (final : trace.getLast? = some last) (present : (after ino).isSome) (absent : ¬ (before ino).isSome)
    (elsewhere : ¬ Below (parentOf after) ino last.ino) : ino = 0 ∧ parentOf after last.ino = some 0 := by
  rcases walked.created ino present with was | listed | ⟨ri, member, hangs⟩
  · exact absurd was absent
  · obtain ⟨ri, member, rfl⟩ := List.mem_map.mp listed
    exact absurd (walked.below_last proper final ri member) elsewhere
  · have stored := (parentIno_of_parentOf hangs).symm.trans (walked.parentIno ri member)
    rcases proper.chain.step proper.distinct ri member with ⟨root, isLast⟩ | ⟨above, -⟩
    · rw [final] at isLast
      cases isLast
      rw [stored] at hangs ⊢
      rw [root] at hangs ⊢
      exact ⟨rfl, hangs⟩
    · obtain ⟨info, member', same⟩ := List.mem_map.mp above
      rw [stored, ← same] at elsewhere
      exact absurd (walked.below_last proper final info member') elsewhere

theorem cephUpdateSnapTrace_sound (forest : before.Forest) (sound : before.Sound) (proper : ProperTrace trace)
    (final : trace.getLast? = some last) (fresh : FreshBelow (walkedBy trace before) last.ino) :
    ∃ enough, ∀ bound, enough ≤ bound → Returns (cephUpdateSnapTrace bound trace before) fun result =>
      result.2.Forest ∧ result.2.Sound := by
  have walked : Walked trace before (walkedBy trace before) :=
    @walked_of_distinct trace { realms := before, invalidate := false, dirtyRealms := [] } proper.distinct
  have forest' := walked.forest proper forest
  obtain ⟨rank, top, lower, bounded⟩ := forest'.ranked
  refine ⟨top + 2, fun bound enough => ?_⟩
  unfold cephUpdateSnapTrace
  simp only [final]
  split
  next invalid =>
    have member : last ∈ trace := mem_of_getLast? final
    have nonzero : last.ino ≠ 0 := fun zero => proper.nonzero (zero ▸ mem_map_of_mem member)
    have outside : ¬ Below (parentOf (walkedBy trace before)) 0 last.ino := by
      intro under
      rcases Relation.ReflTransGen.cases_head under with same | ⟨above, hangs, -⟩
      · exact nonzero same.symm
      · rw [forest'.zero] at hangs
        cases hangs
    have ready : ParentReady (walkedBy trace before) (walkedBy trace before) last.ino := by
      intro parentIno hangs
      have zero : parentIno = 0 := by
        rw [← parentIno_of_parentOf hangs, walked.parentIno last member, proper.chain.last_parent final]
      subst zero
      refine ⟨forest'.isSome_parent hangs, ?_⟩
      cases was : before 0 with
      | some realm => exact .inl (walked.rightAt_elsewhere proper final sound (by rw [was]; rfl) outside)
      | none =>
        right
        rw [walked.cached]
        exact ⟨by rw [SnapRealms.at, was]; rfl, forest'.zero⟩
    have high : 2 ≤ bound := by omega
    have deep : top - rank last.ino < bound := by lia
    obtain ⟨rebuilt, ran, improves, below, parents⟩ :=
      rebuildSnapRealms_true high forest' fresh lower bounded deep .refl .refl (walked.here last member) ready
    have ran' : rebuildSnapRealms bound bound last.ino
        (trace.foldl updateSnapRealm { realms := before, invalidate := false, dirtyRealms := [] }).realms =
        .ok rebuilt := ran
    rw [ran']
    refine ⟨_, rfl, improves.shape.forest forest', ?_⟩
    intro ino present
    have present' : (walkedBy trace before ino).isSome := by rw [← (improves.shape ino).1]; exact present
    have right : RightAt (TrueContext (walkedBy trace before)) rebuilt ino := by
      by_cases under : Below (parentOf (walkedBy trace before)) ino last.ino
      · exact below ino under
      · by_cases was : (before ino).isSome
        · exact improves.rightAt (walked.rightAt_elsewhere proper final sound was under)
        · obtain ⟨rfl, hangs⟩ := walked.created_elsewhere proper final present' was under
          exact parents 0 hangs
    obtain ⟨context, cached, holds⟩ := right
    exact ⟨context, cached, improves.shape.trueContext holds⟩
  next valid =>
    have same : walkedBy trace before = before := walk_valid (Bool.eq_false_iff.mpr valid)
    refine ⟨_, rfl, ?_⟩
    have same' : (trace.foldl updateSnapRealm { realms := before, invalidate := false, dirtyRealms := [] }).realms =
        before := same
    rw [same']
    exact ⟨forest, sound⟩

theorem destroySnapRealm_sound (forest : before.Forest) (sound : before.Sound)
    (ran : destroySnapRealm ino before = .ok after) : after.Forest ∧ after.Sound := by
  obtain ⟨realm, got, ran⟩ := ok_of_bind ran
  obtain ⟨_, passed, ran⟩ := ok_of_bind ran
  cases ran
  have childless := not_of_haltIf passed
  rw [not_not] at childless
  have found : before.at ino = realm := by
    unfold SnapRealms.get at got
    split at got
    next realm' found =>
      cases got
      exact at_of_found found
    next => cases got
  rw [← found] at childless
  have erased : ∀ other, SnapRealms.at (Function.update before ino none) other =
      if other = ino then .fresh else before.at other := by
    intro other
    split
    next same => simp [SnapRealms.at, same]
    next differs => simp [SnapRealms.at, Function.update_of_ne differs]
  have spec : ∀ other, (leaveParent ino realm (Function.update before ino none)).at other =
      (if realm.parent = some other then delChild ino else id)
        (if other = ino then .fresh else before.at other) := by
    intro other
    rw [leaveParent_at, erased]
  have parent : ∀ other, parentOf (leaveParent ino realm (Function.update before ino none)) other =
      if other = ino then none else parentOf before other := by
    intro other
    rw [parentOf, spec]
    split <;> split <;> rfl
  have noChild : ∀ child, parentOf before child ≠ some ino := by
    intro child hangs
    have listed := (forest.linked ino child).mpr hangs
    rw [childless] at listed
    cases listed
  refine ⟨⟨?_, ?_, ?_⟩, ?_⟩
  · intro above child
    have listed := forest.linked above child
    have old := forest.linked above ino
    rw [parent, spec]
    by_cases self : child = ino
    · subst self
      split
      · simp [delChild]
      · next free =>
          split
          · simp [SnapRealm.fresh]
          · rw [parentOf, found] at old
            simp [old, free]
    · rw [if_neg self]
      by_cases gone : above = ino
      · subst gone
        split <;> simp [SnapRealm.fresh, delChild, noChild child]
      · rw [if_neg gone, ← listed]
        split <;> simp [delChild, self]
  · obtain ⟨rank, top, lower, bounded⟩ := forest.ranked
    refine ⟨rank, top, ?_, bounded⟩
    intro child above hangs
    rw [parent] at hangs
    split at hangs
    · cases hangs
    · exact lower child above hangs
  · rw [parent]
    split
    · rfl
    · exact forest.zero
  · intro other present
    rw [leaveParent_isSome] at present
    have differs : other ≠ ino := by
      rintro rfl
      simp at present
    rw [Function.update_of_ne differs] at present
    obtain ⟨context, cached, holds⟩ := sound other present
    refine ⟨context, ?_, ?_⟩
    · rw [spec, if_neg differs]
      split <;> exact cached
    · refine holds.congr (· ≠ ino) ?_ ?_ ?_ differs
      · intro child above _ hangs same
        subst same
        exact noChild child hangs
      · intro child kept
        rw [parent, if_neg kept]
      · intro child kept
        funext given
        rw [spec, if_neg kept]
        split <;> cases given <;> rfl

end

inductive SnapCall where
  | update (bound : Nat) (trace : List RealmInfo)
  | destroy (ino : Ino)

def SnapCall.run : SnapCall → SnapRealms → Except SnapFault SnapRealms
  | .update bound trace, realms => (cephUpdateSnapTrace bound trace realms).map Prod.snd
  | .destroy ino, realms => destroySnapRealm ino realms

def SnapCall.Proper : SnapCall → SnapRealms → Prop
  | .update _ trace, _ => ProperTrace trace
  | .destroy _, _ => True

/-- A trace that changes what a realm inherits shows it in the seqs. -/
def SnapCall.Fresh : SnapCall → SnapRealms → Prop
  | .update _ trace, realms => ∀ last, trace.getLast? = some last → FreshBelow (walkedBy trace realms) last.ino
  | .destroy _, _ => True

section

variable {start realms : SnapRealms}

theorem ParentChain.exists_last {trace : List RealmInfo} (chain : ParentChain trace) :
    ∃ last, trace.getLast? = some last := by
  cases trace with
  | nil => exact chain.elim
  | cons ri rest => exact ⟨_, getLast?_eq_some_getLast (by simp)⟩

theorem SnapCall.preserves : Preserves SnapCall.run (fun call realms => call.Proper realms ∧ call.Fresh realms)
    (fun realms => realms.Forest ∧ realms.Sound) := by
  rintro call before after ⟨proper, fresh⟩ ⟨forest, sound⟩ ran
  cases call with
  | update bound trace =>
    obtain ⟨last, final⟩ := ParentChain.exists_last proper.chain
    obtain ⟨enough, returns⟩ := cephUpdateSnapTrace_sound forest sound proper final (fresh last final)
    obtain ⟨result, ran', kept⟩ := returns (max enough bound) (Nat.le_max_left _ _)
    obtain ⟨result', done, rfl⟩ := ok_of_map ran
    rw [cephUpdateSnapTrace_mono (Nat.le_max_right enough bound) done] at ran'
    cases ran'
    exact kept
  | destroy ino => exact destroySnapRealm_sound forest sound ran

/-- If seqs show what changes, every trace is applied, and the realms have exactly their snaps
whenever it is. -/
theorem snapContexts_exact (forest : start.Forest) (sound : start.Sound)
    (reached : Reached SnapCall.run (fun call realms => call.Proper realms ∧ call.Fresh realms) start realms) :
    (∀ ino realm, realms ino = some realm → realms.Exact realm) ∧
    ∀ trace, (SnapCall.update 0 trace).Proper realms → (SnapCall.update 0 trace).Fresh realms →
      ∃ enough, ∀ bound, enough ≤ bound → Returns (cephUpdateSnapTrace bound trace realms) fun result =>
        ∀ ino realm, result.2 ino = some realm → result.2.Exact realm := by
  obtain ⟨forest', sound'⟩ := reached.preserved SnapCall.preserves ⟨forest, sound⟩
  refine ⟨fun ino realm found => sound'.exact forest' found, fun trace proper fresh => ?_⟩
  obtain ⟨last, final⟩ := ParentChain.exists_last proper.chain
  obtain ⟨enough, returns⟩ := cephUpdateSnapTrace_sound forest' sound' proper final (fresh last final)
  refine ⟨enough, fun bound large => (returns bound large).mono ?_⟩
  exact fun result kept ino realm found => kept.2.exact kept.1 found

end

def SnapRealms.empty : SnapRealms :=
  fun _ => none

theorem empty_forest : SnapRealms.empty.Forest where
  linked := by simp [SnapRealms.at, SnapRealms.empty, SnapRealm.fresh, parentOf]
  ranked := ⟨fun _ => 0, 0, by simp [SnapRealms.at, SnapRealms.empty, SnapRealm.fresh, parentOf], by simp⟩
  zero := rfl

theorem empty_sound : SnapRealms.empty.Sound := by
  intro ino present
  cases present

theorem empty_fresh {bound : Nat} (proper : ProperTrace trace) : (SnapCall.update bound trace).Fresh .empty := by
  have walked : Walked trace .empty (walkedBy trace .empty) :=
    @walked_of_distinct trace { realms := .empty, invalidate := false, dirtyRealms := [] } proper.distinct
  intro last _ ino _ context cached
  rw [walked.cached] at cached
  cases cached

def childInfo : RealmInfo where
  ino := 2
  created := 1
  parent := 1
  parentSince := 4
  seq := 5
  snaps := [5]
  priorParentSnaps := [2]

def rootInfo : RealmInfo where
  ino := 1
  created := 1
  parent := 0
  parentSince := 0
  seq := 4
  snaps := [4, 3]
  priorParentSnaps := []

theorem infos_proper : ProperTrace [childInfo, rootInfo] where
  chain := ⟨rfl, rfl⟩
  distinct := by decide
  nonzero := by decide

/-- A trace of two realms fills an empty client. -/
theorem snapContexts_exact_traced : ∃ realms : SnapRealms, ∃ realm, realms 2 = some realm ∧
    realm.cachedContext = some { seq := 5, snaps := [5, 4, 2] } ∧ realms.Exact realm := by
  have traced : Reached SnapCall.run (fun call realms => call.Proper realms ∧ call.Fresh realms) .empty _ :=
    Reached.start.next (.update 4 [childInfo, rootInfo]) ⟨infos_proper, empty_fresh infos_proper⟩ rfl
  exact ⟨_, _, rfl, by decide, (snapContexts_exact empty_forest empty_sound traced).1 2 _ rfl⟩

/-- A late trace of the parent has a snap below the seq of the child. -/
theorem snapContexts_inexact : ∃ realms : SnapRealms, Reached SnapCall.run SnapCall.Proper .empty realms ∧
    ∃ realm, realms 2 = some realm ∧ ¬ realms.Exact realm := by
  have first : Reached SnapCall.run SnapCall.Proper .empty _ :=
    Reached.start.next (.update 4 [childInfo, { rootInfo with seq := 3, snaps := [3] }])
      ⟨⟨rfl, rfl⟩, by decide, by decide⟩ rfl
  have late := first.next (.update 4 [rootInfo]) ⟨rfl, by decide, by decide⟩ rfl
  refine ⟨_, late, _, rfl, ?_⟩
  rintro ⟨context, cached, exact'⟩
  cases cached
  obtain ⟨parent, above, found, cached', exact'⟩ := exact'
  cases found
  cases cached'
  exact absurd exact'.snaps.length_eq (by decide)

end KmodCeph.Snap
