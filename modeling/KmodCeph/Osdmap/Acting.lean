import KmodCeph.Osdmap.Placement

namespace KmodCeph.Osdmap

open Lib List

namespace InPlace

/-- The loop of `raw_to_up_osds` that closes the gaps, at index `i` with
`count` osds left and `removed` found down. -/
def shiftOsds (map : OsdMap) : Nat → Nat → Nat → List Int → Except Fault (List Int × Nat)
  | 0, _, removed, osds => .ok (osds, removed)
  | count + 1, i, removed, osds => do
    let osd ← readAt .outOfBounds osds i
    if ← cephOsdIsDown map osd then shiftOsds map count (i + 1) (removed + 1) osds
    else if removed = 0 then shiftOsds map count (i + 1) removed osds
    else do
      let osds ← writeAt .outOfBounds osds (i - removed) osd
      shiftOsds map count (i + 1) removed osds

def blankOsds (map : OsdMap) : Nat → List Int → Int → Except Fault (List Int × Int)
  | 0, osds, primary => .ok (osds, primary)
  | i + 1, osds, primary => do
    let osd ← readAt .outOfBounds osds i
    if ← cephOsdIsDown map osd then do
      let osds ← writeAt .outOfBounds osds i Crush.crushItemNone
      blankOsds map i osds primary
    else blankOsds map i osds osd

def rawToUpOsds (map : OsdMap) (pool : PgPoolInfo) (osds : List Int) (len : Nat) :
    Except Fault (List Int × Nat × Int) := do
  if ← cephCanShiftOsds pool then do
    let (osds, removed) ← shiftOsds map len 0 0 osds
    if len - removed > 0 then do
      let primary ← readAt .outOfBounds osds 0
      .ok (osds, len - removed, primary)
    else .ok (osds, len - removed, -1)
  else do
    let (osds, primary) ← blankOsds map len osds (-1)
    .ok (osds, len, primary)

/-- Everything before index `i` moves up by one and `primary` comes first. -/
def moveToFront (primary : Int) : Nat → List Int → Except Fault (List Int)
  | 0, osds => writeAt .outOfBounds osds 0 primary
  | i + 1, osds => do
    let osd ← readAt .outOfBounds osds i
    let osds ← writeAt .outOfBounds osds (i + 1) osd
    moveToFront primary i osds

def applyPrimaryAffinity (map : OsdMap) (pps : UInt32) (pool : PgPoolInfo) (osds : List Int) (len : Nat)
    (primary : Int) : Except Fault (List Int × Int) :=
  match map.osdPrimaryAffinity with
  | none => .ok (osds, primary)
  | some affinity => do
    let any ← anyAffinity affinity (osds.take len)
    if ¬ any then .ok (osds, primary)
    else do
      match ← pickPrimary affinity pps 0 none (osds.take len) with
      | none => .ok (osds, primary)
      | some pos => do
        let primary ← readAt .outOfBounds osds pos
        let shift ← cephCanShiftOsds pool
        if shift ∧ pos > 0 then do
          let osds ← moveToFront primary pos osds
          .ok (osds, primary)
        else .ok (osds, primary)

/-- The loop of `apply_temps` over a `pg_temp` list. -/
def copyTemp (map : OsdMap) (pool : PgPoolInfo) : List Int → List Int → Nat → Except Fault (List Int × Nat)
  | [], osds, tempLen => .ok (osds, tempLen)
  | osd :: rest, osds, tempLen => do
    if ← cephOsdIsDown map osd then do
      if ← cephCanShiftOsds pool then copyTemp map pool rest osds tempLen
      else do
        let osds ← writeAt .outOfBounds osds tempLen Crush.crushItemNone
        copyTemp map pool rest osds (tempLen + 1)
    else do
      let osds ← writeAt .outOfBounds osds tempLen osd
      copyTemp map pool rest osds (tempLen + 1)

def applyTemps (map : OsdMap) (pool : PgPoolInfo) (pgid : Pg) (osds : List Int) (len : Nat) (primary : Int) :
    Except Fault (List Int × Nat × Int) := do
  let pgid : Pg := { pgid with seed := cephStableMod pgid.seed pool.pgNum pool.pgNumMask }
  let (osds, tempLen, tempPrimary) ←
    match lookupPgMapping map.pgTemp pgid with
    | none => .ok (osds, len, primary)
    | some temp => do
      let (osds, tempLen) ← copyTemp map pool temp osds 0
      .ok (osds, tempLen, ((osds.take tempLen).find? (· ≠ Crush.crushItemNone)).getD (-1))
  .ok (osds, tempLen, (lookupPgMapping map.primaryTemp pgid).getD tempPrimary)

def calcPgActing (map : OsdMap) (pps : UInt32) (pool : PgPoolInfo) (pgid : Pg) (osds : List Int) (len : Nat) :
    Except Fault (List Int × Nat × Int) := do
  let (osds, len, primary) ← rawToUpOsds map pool osds len
  let (osds, primary) ← applyPrimaryAffinity map pps pool osds len primary
  applyTemps map pool pgid osds len primary

end InPlace

/-- `osdmap_set_max_osd` allocates the arrays of a map, and its argument is
signed. -/
structure OsdMap.Sized (map : OsdMap) : Prop where
  small : map.maxOsd.toNat < 2 ^ 31
  states : map.osdState.length = map.maxOsd.toNat
  affinities : ∀ affinity, map.osdPrimaryAffinity = some affinity → affinity.length = map.maxOsd.toNat

def OsdMap.isUp (map : OsdMap) (osd : Int) : Bool :=
  0 ≤ osd ∧ osd < map.maxOsd.toNat ∧
    map.osdState.getD osd.toNat 0 &&& cephOsdExistsFlag ≠ 0 ∧ map.osdState.getD osd.toNat 0 &&& cephOsdUpFlag ≠ 0

def OsdMap.orNone (map : OsdMap) (osd : Int) : Int :=
  if map.isUp osd then osd else Crush.crushItemNone

/-- What is stored of the osds that are listed for a placement group. -/
def upSet (map : OsdMap) (pool : PgPoolInfo) (listed : List Int) : List Int :=
  if pool.type = cephPoolTypeRep then listed.filter map.isUp else listed.map map.orNone

def OsdMap.affinity (map : OsdMap) (osd : Int) : UInt32 :=
  match map.osdPrimaryAffinity with
  | none => cephOsdDefaultPrimaryAffinity
  | some affinity => affinity.getD osd.toNat 0

def OsdMap.accepts (map : OsdMap) (pps : UInt32) (osd : Int) : Bool :=
  ¬ (map.affinity osd < cephOsdMaxPrimaryAffinity ∧
    Crush.crushHash32Two Crush.crushHashRjenkins1 pps (UInt32.ofInt osd) >>> 16 ≥ map.affinity osd)

/-- The primary that affinity chooses among the up osds: the first whose draw
succeeds, else the first. -/
def OsdMap.choice (map : OsdMap) (pps : UInt32) (ups : List Int) : Option Int :=
  (ups.find? (map.accepts pps)).or ups.head?

/-- The acting set and primary that come from a list of osds when `choice`
tells the primary of the osds that are up. -/
structure ActingSet (map : OsdMap) (pool : PgPoolInfo) (choice : List Int → Option Int) (listed acting : List Int)
    (primary : Int) : Prop where
  /-- All up osds with multiplicity, in order but for the primary. -/
  replicated : pool.type = cephPoolTypeRep →
    acting.Perm (listed.filter map.isUp) ∧
      acting = match choice (listed.filter map.isUp) with
        | none => []
        | some first => first :: (listed.filter map.isUp).erase first
  front : pool.type = cephPoolTypeRep → listed.filter map.isUp ≠ [] → acting.head? = some primary
  erasure : pool.type = cephPoolTypeEc → acting.length = listed.length ∧
    ∀ (i : Nat) osd, listed[i]? = some osd → acting[i]? = some (map.orNone osd)
  present : pool.type = cephPoolTypeEc → listed.filter map.isUp ≠ [] →
    primary ∈ acting ∧ primary ≠ Crush.crushItemNone
  chosen : primary = (choice (listed.filter map.isUp)).getD (-1)
  usual : (∀ osd ∈ listed.filter map.isUp, map.affinity osd = cephOsdDefaultPrimaryAffinity) →
    listed.filter map.isUp ≠ [] → (listed.filter map.isUp).head? = some primary
  absent : primary = -1 ↔ listed.filter map.isUp = []

section

variable {map : OsdMap} {pool : PgPoolInfo}

theorem OsdMap.isUp_range {osd : Int} (up : map.isUp osd) : 0 ≤ osd ∧ osd < map.maxOsd.toNat := by
  simp only [OsdMap.isUp, decide_eq_true_eq] at up
  exact ⟨up.1, up.2.1⟩

theorem OsdMap.Sized.isUp_ne_none (sized : map.Sized) {osd : Int} (up : map.isUp osd) :
    osd ≠ Crush.crushItemNone := by
  have range := OsdMap.isUp_range up
  have small := sized.small
  rintro rfl
  simp only [Crush.crushItemNone] at range
  omega

theorem OsdMap.Sized.not_isUp_none (sized : map.Sized) : map.isUp Crush.crushItemNone = false := by
  cases up : map.isUp Crush.crushItemNone with
  | false => rfl
  | true => exact absurd rfl (sized.isUp_ne_none up)

theorem OsdMap.Sized.cephOsdIsDown_eq (sized : map.Sized) (osd : Int) :
    cephOsdIsDown map osd = .ok (! map.isUp osd) := by
  unfold cephOsdIsDown cephOsdIsUp OsdMap.isUp
  split
  next inside =>
    have stored : osd.toNat < map.osdState.length := by
      rw [sized.states]
      omega
    rw [readAt_eq_ok stored, getD_eq_getElem _ _ stored]
    simp [Except.map, bind, Except.bind, inside.1, inside.2]
  next outside =>
    have never : ¬ (0 ≤ osd ∧ osd < map.maxOsd.toNat ∧
        map.osdState.getD osd.toNat 0 &&& cephOsdExistsFlag ≠ 0 ∧
        map.osdState.getD osd.toNat 0 &&& cephOsdUpFlag ≠ 0) :=
      fun holds => outside ⟨holds.1, holds.2.1⟩
    rw [decide_eq_false never]
    rfl

namespace InPlace

theorem shiftOsds_eq (sized : map.Sized) (todo front gap back : List Int) :
    ∃ spare : List Int, spare.length = gap.length + (todo.length - (todo.filter map.isUp).length) ∧
      shiftOsds map todo.length (front.length + gap.length) gap.length (front ++ gap ++ todo ++ back) =
        .ok (front ++ todo.filter map.isUp ++ spare ++ back, spare.length) := by
  induction todo generalizing front gap with
  | nil => exact ⟨gap, by simp, by simp [shiftOsds]⟩
  | cons osd todo ih =>
    have bounded := length_filter_le map.isUp todo
    have read : readAt Fault.outOfBounds (front ++ gap ++ osd :: todo ++ back) (front.length + gap.length) =
        .ok osd := by
      simp [readAt]
    rw [length_cons, shiftOsds, read]
    simp only [bind, Except.bind, sized.cephOsdIsDown_eq]
    cases up : map.isUp osd with
    | false =>
      obtain ⟨spare, length, ran⟩ := ih front (gap ++ [osd])
      refine ⟨spare, ?_, ?_⟩
      · simp [up] at length ⊢
        lia
      · simpa [up, Nat.add_assoc] using ran
    | true =>
      cases gap with
      | nil =>
        obtain ⟨spare, length, ran⟩ := ih (front ++ [osd]) []
        refine ⟨spare, ?_, ?_⟩
        · simpa [up] using length
        · simpa [up] using ran
      | cons hole gap =>
        obtain ⟨spare, length, ran⟩ := ih (front ++ [osd]) (gap ++ [osd])
        refine ⟨spare, ?_, ?_⟩
        · simp [up] at length ⊢
          omega
        · have write : writeAt Fault.outOfBounds (front ++ hole :: gap ++ osd :: todo ++ back)
              (front.length + (hole :: gap).length - (hole :: gap).length) osd =
              .ok (front ++ osd :: gap ++ osd :: todo ++ back) := by
            simp [writeAt]
          rw [write]
          simpa [up, Nat.add_assoc, Nat.add_comm 1] using ran

theorem blankOsds_eq (sized : map.Sized) (front back : List Int) (primary : Int) :
    blankOsds map front.length (front ++ back) primary =
      .ok (front.map map.orNone ++ back, (front.find? map.isUp).getD primary) := by
  induction front using reverseRecOn generalizing back primary with
  | nil => rfl
  | append_singleton front osd ih =>
    have read : readAt Fault.outOfBounds (front ++ [osd] ++ back) front.length = .ok osd := by
      simp [readAt]
    rw [length_append, length_singleton, blankOsds, read]
    simp only [bind, Except.bind, sized.cephOsdIsDown_eq]
    cases up : map.isUp osd with
    | false =>
      have write : writeAt Fault.outOfBounds (front ++ [osd] ++ back) front.length Crush.crushItemNone =
          .ok (front ++ map.orNone osd :: back) := by
        simp [writeAt, OsdMap.orNone, up]
      rw [if_pos (by rfl), write]
      simpa [up] using ih (map.orNone osd :: back) primary
    | true =>
      rw [if_neg (by decide)]
      have kept : map.orNone osd = osd := if_pos up
      simpa [up, kept] using ih (osd :: back) osd

theorem moveToFront_eq (primary : Int) (front : List Int) (osd : Int) (back : List Int) :
    moveToFront primary front.length (front ++ osd :: back) = .ok (primary :: front ++ back) := by
  induction front using reverseRecOn generalizing osd back with
  | nil => simp [moveToFront, writeAt]
  | append_singleton front last ih =>
    have read : readAt Fault.outOfBounds (front ++ [last] ++ osd :: back) front.length = .ok last := by
      simp [readAt]
    have write : writeAt Fault.outOfBounds (front ++ [last] ++ osd :: back) (front.length + 1) last =
        .ok (front ++ last :: last :: back) := by
      simp [writeAt]
    rw [length_append, length_singleton, moveToFront, read]
    simp only [bind, Except.bind]
    rw [write]
    simpa using ih last (last :: back)

theorem upSet_cons (osd : Int) (temp : List Int) :
    upSet map pool (osd :: temp) = upSet map pool [osd] ++ upSet map pool temp := by
  unfold upSet
  split
  · exact filter_append [osd] temp
  · rfl

theorem copyTemp_cons (sized : map.Sized) (known : pool.type = cephPoolTypeRep ∨ pool.type = cephPoolTypeEc)
    (osd : Int) (temp osds : List Int) (tempLen : Nat) :
    copyTemp map pool (osd :: temp) osds tempLen =
      match upSet map pool [osd] with
      | [] => copyTemp map pool temp osds tempLen
      | value :: _ => writeAt .outOfBounds osds tempLen value >>= fun osds =>
        copyTemp map pool temp osds (tempLen + 1) := by
  have different : cephPoolTypeEc ≠ cephPoolTypeRep := by decide
  rw [copyTemp]
  simp only [bind, Except.bind, sized.cephOsdIsDown_eq]
  rcases known with replicated | erasure
  · cases up : map.isUp osd <;> simp [upSet, cephCanShiftOsds, replicated, up]
  · cases up : map.isUp osd <;> simp [upSet, cephCanShiftOsds, erasure, up, different, OsdMap.orNone]

theorem upSet_single (map : OsdMap) (pool : PgPoolInfo) (osd : Int) : upSet map pool [osd] = [] ∨ ∃ value, upSet map pool [osd] = [value] := by
  unfold upSet
  split
  · cases up : map.isUp osd with
    | false => exact .inl (by simp [up])
    | true => exact .inr ⟨osd, by simp [up]⟩
  · exact .inr ⟨_, rfl⟩

theorem copyTemp_fits (sized : map.Sized) (known : pool.type = cephPoolTypeRep ∨ pool.type = cephPoolTypeEc)
    (temp front back : List Int) (fits : (upSet map pool temp).length ≤ back.length) :
    ∃ spare, copyTemp map pool temp (front ++ back) front.length =
      .ok (front ++ upSet map pool temp ++ spare, front.length + (upSet map pool temp).length) := by
  induction temp generalizing front back with
  | nil =>
    have nothing : upSet map pool [] = [] := by simp [upSet]
    exact ⟨back, by simp [copyTemp, nothing]⟩
  | cons osd temp ih =>
    rw [upSet_cons osd temp, length_append] at fits
    rw [copyTemp_cons sized known, upSet_cons osd temp]
    rcases upSet_single map pool osd with skipped | ⟨value, written⟩
    · obtain ⟨spare, ran⟩ := ih front back (by simpa [skipped] using fits)
      exact ⟨spare, by simpa [skipped] using ran⟩
    · cases back with
      | nil => simp [written] at fits
      | cons old back =>
        obtain ⟨spare, ran⟩ := ih (front ++ [value]) back (by simpa [written, Nat.add_comm 1] using fits)
        have write : writeAt Fault.outOfBounds (front ++ old :: back) front.length value =
            .ok (front ++ [value] ++ back) := by
          simp [writeAt]
        refine ⟨spare, ?_⟩
        rw [written]
        simp only [bind, Except.bind, write]
        simpa [Nat.add_assoc, Nat.add_comm 1] using ran

theorem copyTemp_overflows (sized : map.Sized) (known : pool.type = cephPoolTypeRep ∨ pool.type = cephPoolTypeEc)
    (temp front back : List Int) (more : back.length < (upSet map pool temp).length) :
    copyTemp map pool temp (front ++ back) front.length = .error .outOfBounds := by
  induction temp generalizing front back with
  | nil => simp [upSet] at more
  | cons osd temp ih =>
    rw [upSet_cons osd temp, length_append] at more
    rw [copyTemp_cons sized known]
    rcases upSet_single map pool osd with skipped | ⟨value, written⟩
    · rw [skipped]
      exact ih front back (by simpa [skipped] using more)
    · rw [written]
      cases back with
      | nil => simp [writeAt, bind, Except.bind]
      | cons old back =>
        have write : writeAt Fault.outOfBounds (front ++ old :: back) front.length value =
            .ok (front ++ [value] ++ back) := by
          simp [writeAt]
        have rest := ih (front ++ [value]) back (by simpa [written, Nat.add_comm 1] using more)
        simp only [bind, Except.bind, write]
        simpa using rest

end InPlace

def Cleared (map : OsdMap) (osds : List Int) : Prop :=
  ∀ osd ∈ osds, osd = Crush.crushItemNone ∨ map.isUp osd

section

variable {affinity : List UInt32} {pps : UInt32} {osds : List Int}

theorem affinityOf_eq (sized : map.Sized) (table : map.osdPrimaryAffinity = some affinity) {osd : Int}
    (up : map.isUp osd) : affinityOf affinity osd = .ok (map.affinity osd) := by
  have range := OsdMap.isUp_range up
  have inside : osd.toNat < affinity.length := by
    rw [sized.affinities affinity table]
    omega
  rw [affinityOf, if_neg (by omega), readAt_eq_ok inside]
  simp only [OsdMap.affinity, table]
  rw [getD_eq_getElem _ _ inside]

theorem anyAffinity_returns (sized : map.Sized) (table : map.osdPrimaryAffinity = some affinity)
    (cleared : Cleared map osds) :
    Returns (anyAffinity affinity osds) fun any =>
      any = false → ∀ osd ∈ osds, map.isUp osd → map.affinity osd = cephOsdDefaultPrimaryAffinity := by
  induction osds with
  | nil => exact Returns.pure fun _ osd member => absurd member not_mem_nil
  | cons osd rest ih =>
    have later := ih fun osd member => cleared osd (mem_cons_of_mem _ member)
    rw [anyAffinity]
    split
    next hole =>
      refine later.mono fun any holds usual other member up => ?_
      rcases List.mem_cons.mp member with rfl | member
      · exact absurd hole (sized.isUp_ne_none up)
      · exact holds usual other member up
    next item =>
      have up : map.isUp osd := (cleared osd mem_cons_self).resolve_left item
      rw [affinityOf_eq sized table up]
      simp only [bind, Except.bind]
      split
      next => exact Returns.pure fun usual => absurd usual (by decide)
      next same =>
        refine later.mono fun any holds usual other member up => ?_
        rcases List.mem_cons.mp member with rfl | member
        · exact not_not.mp same
        · exact holds usual other member up

theorem pickPrimary_eq (sized : map.Sized) (table : map.osdPrimaryAffinity = some affinity)
    (cleared : Cleared map osds) (i : Nat) (pos : Option Nat) :
    pickPrimary affinity pps i pos osds =
      .ok (((osds.findIdx? fun osd => map.isUp osd && map.accepts pps osd).map (i + ·)).or
        (pos.or ((osds.findIdx? map.isUp).map (i + ·)))) := by
  induction osds generalizing i pos with
  | nil => simp [pickPrimary]
  | cons osd rest ih =>
    have later := ih fun osd member => cleared osd (mem_cons_of_mem _ member)
    rw [pickPrimary]
    split
    next hole =>
      rw [later, hole]
      simp [findIdx?_cons, sized.not_isUp_none, Function.comp_def, Nat.add_comm 1, Nat.add_assoc]
    next item =>
      have up : map.isUp osd := (cleared osd mem_cons_self).resolve_left item
      rw [affinityOf_eq sized table up]
      simp only [bind, Except.bind]
      split
      next refused =>
        have refuses : map.accepts pps osd = false := by
          simp only [OsdMap.accepts, decide_eq_false_iff_not, not_not]
          exact refused
        rw [later]
        cases pos <;> simp [findIdx?_cons, up, refuses, Function.comp_def, Nat.add_comm 1, Nat.add_assoc]
      next taken =>
        have accepts : map.accepts pps osd = true := decide_eq_true taken
        simp [findIdx?_cons, up, accepts]

theorem findIdx?_split {p : Int → Bool} {k : Nat} (found : osds.findIdx? p = some k) :
    ∃ front osd back, osds = front ++ osd :: back ∧ front.length = k ∧ osds.find? p = some osd ∧ osd ∉ front := by
  obtain ⟨inside, holds, before⟩ := findIdx?_eq_some_iff_getElem.mp found
  refine ⟨osds.take k, osds[k], osds.drop (k + 1), ?_, ?_, ?_, ?_⟩
  · rw [getElem_cons_drop, take_append_drop]
  · rw [List.length_take]
    omega
  · refine List.find?_eq_some_iff_getElem.mpr ⟨holds, k, inside, rfl, fun j earlier => ?_⟩
    simpa using before j earlier
  · intro member
    obtain ⟨j, bounded, same⟩ := List.mem_take_iff_getElem.mp member
    have never := before j (by omega)
    rw [same] at never
    exact never holds

/-- The pick is where the choice stands first, unless nothing is up. -/
theorem pickPrimary_choice (sized : map.Sized) (table : map.osdPrimaryAffinity = some affinity)
    (cleared : Cleared map osds) :
    (osds.filter map.isUp = [] ∧ pickPrimary affinity pps 0 none osds = .ok none) ∨
      ∃ front osd back, osds = front ++ osd :: back ∧
        pickPrimary affinity pps 0 none osds = .ok (some front.length) ∧
        map.choice pps (osds.filter map.isUp) = some osd ∧ osd ∉ front := by
  have picked := @pickPrimary_eq map affinity pps osds sized table cleared 0 none
  have choice : map.choice pps (osds.filter map.isUp) =
      (osds.find? fun osd => map.isUp osd && map.accepts pps osd).or (osds.find? map.isUp) := by
    simp only [OsdMap.choice, find?_filter, head?_filter, Bool.decide_and, Bool.decide_eq_true]
  cases willing : osds.findIdx? fun osd => map.isUp osd && map.accepts pps osd with
  | some k =>
    obtain ⟨front, osd, back, split, length, found, absent⟩ := findIdx?_split willing
    refine .inr ⟨front, osd, back, split, ?_, ?_, absent⟩
    · simp [picked, willing, length]
    · rw [choice, found, Option.some_or]
  | none =>
    have unwilling : (osds.find? fun osd => map.isUp osd && map.accepts pps osd) = none := by
      rw [find?_eq_none]
      intro osd member
      simpa using findIdx?_eq_none_iff.mp willing osd member
    cases standing : osds.findIdx? map.isUp with
    | some k =>
      obtain ⟨front, osd, back, split, length, found, absent⟩ := findIdx?_split standing
      refine .inr ⟨front, osd, back, split, ?_, ?_, absent⟩
      · simp [picked, willing, standing, length]
      · rw [choice, unwilling, Option.none_or, found]
    | none =>
      refine .inl ⟨List.filter_eq_nil_iff.mpr fun osd member => ?_, ?_⟩
      · simp [findIdx?_eq_none_iff.mp standing osd member]
      · simp [picked, willing, standing]

theorem choice_usual {ups : List Int}
    (usual : ∀ osd ∈ ups, map.affinity osd = cephOsdDefaultPrimaryAffinity) : map.choice pps ups = ups.head? := by
  cases ups with
  | nil => rfl
  | cons osd rest =>
    have accepts : map.accepts pps osd = true := by
      rw [OsdMap.accepts, usual osd mem_cons_self]
      exact decide_eq_true fun holds => absurd holds.1 (by decide)
    rw [OsdMap.choice, find?_cons_of_pos accepts]
    rfl

/-- The set with its primary moved to the front, if its pool has no holes. -/
def reordered (pool : PgPoolInfo) (choice : Option Int) (osds : List Int) : List Int :=
  if pool.type = cephPoolTypeRep then
    match choice with
    | none => osds
    | some first => first :: osds.erase first
  else osds

theorem reordered_head (osds : List Int) : reordered pool osds.head? osds = osds := by
  unfold reordered
  split
  · cases osds with
    | nil => rfl
    | cons osd rest => simp
  · rfl

theorem InPlace.applyPrimaryAffinity_eq (sized : map.Sized)
    (known : pool.type = cephPoolTypeRep ∨ pool.type = cephPoolTypeEc) (cleared : Cleared map osds)
    (whole : pool.type = cephPoolTypeRep → osds.filter map.isUp = osds) (spare : List Int) {primary : Int}
    (first : primary = (osds.filter map.isUp).head?.getD (-1)) :
    InPlace.applyPrimaryAffinity map pps pool (osds ++ spare) osds.length primary =
      .ok (reordered pool (map.choice pps (osds.filter map.isUp)) osds ++ spare,
        (map.choice pps (osds.filter map.isUp)).getD (-1)) := by
  have unmoved : map.choice pps (osds.filter map.isUp) = (osds.filter map.isUp).head? →
      (Except.ok (osds ++ spare, primary) : Except Fault (List Int × Int)) =
      .ok (reordered pool (map.choice pps (osds.filter map.isUp)) osds ++ spare,
        (map.choice pps (osds.filter map.isUp)).getD (-1)) := by
    intro usual
    have same : reordered pool (osds.filter map.isUp).head? osds = osds := by
      by_cases replicated : pool.type = cephPoolTypeRep
      · rw [whole replicated]
        exact reordered_head osds
      · unfold reordered
        rw [if_neg replicated]
    rw [usual, same, first]
  unfold InPlace.applyPrimaryAffinity
  cases table : map.osdPrimaryAffinity with
  | none =>
    refine unmoved (choice_usual fun osd _ => ?_)
    simp only [OsdMap.affinity, table]
  | some affinity =>
    obtain ⟨any, scanned, usual⟩ := anyAffinity_returns sized table cleared
    simp only [take_left, scanned, bind, Except.bind]
    cases any with
    | false =>
      refine unmoved (choice_usual fun osd member => ?_)
      obtain ⟨listed, up⟩ := List.mem_filter.mp member
      exact usual rfl osd listed up
    | true =>
      rw [if_neg (by decide)]
      rcases @pickPrimary_choice map affinity pps osds sized table cleared with
        ⟨nothing, picked⟩ | ⟨front, osd, back, split, picked, choice, absent⟩
      · rw [picked]
        refine unmoved ?_
        rw [nothing]
        rfl
      · have read : readAt Fault.outOfBounds (osds ++ spare) front.length = .ok osd := by
          simp [split, readAt]
        have erased : osds.erase osd = front ++ back := by
          rw [split, erase_append_right _ absent, erase_cons_head]
        simp only [picked, read, choice, Option.getD_some]
        rcases known with replicated | erasure
        · have moved : reordered pool (some osd) osds = osd :: front ++ back := by
            unfold reordered
            rw [if_pos replicated]
            exact congrArg (osd :: ·) erased
          have shift : cephCanShiftOsds pool = .ok true := if_pos replicated
          simp only [shift, moved]
          cases front with
          | nil => simp [split]
          | cons other front =>
            have ran := InPlace.moveToFront_eq osd (other :: front) osd (back ++ spare)
            have shape : osds ++ spare = (other :: front) ++ osd :: (back ++ spare) := by simp [split]
            rw [if_pos ⟨trivial, by simp⟩, shape, ran]
            simp
        · have different : pool.type ≠ cephPoolTypeRep := by
            rw [erasure]
            decide
          have shift : cephCanShiftOsds pool = .ok false := by
            unfold cephCanShiftOsds
            rw [if_neg different, if_pos erasure]
          have kept : reordered pool (some osd) osds = osds := by
            unfold reordered
            rw [if_neg different]
          simp [shift, kept]

theorem filter_map_orNone (sized : map.Sized) (raw : List Int) :
    (raw.map map.orNone).filter map.isUp = raw.filter map.isUp := by
  induction raw with
  | nil => rfl
  | cons osd rest ih =>
    cases up : map.isUp osd with
    | false => simp [OsdMap.orNone, up, sized.not_isUp_none, ih]
    | true => simp [OsdMap.orNone, up, ih]

theorem upSet_filter (sized : map.Sized) (raw : List Int) :
    (upSet map pool raw).filter map.isUp = raw.filter map.isUp := by
  unfold upSet
  split
  · simp only [filter_filter, Bool.and_self]
  · exact filter_map_orNone sized raw

theorem upSet_whole (listed : List Int) (replicated : pool.type = cephPoolTypeRep) :
    (upSet map pool listed).filter map.isUp = upSet map pool listed := by
  have kept : upSet map pool listed = listed.filter map.isUp := if_pos replicated
  simp only [kept, filter_filter, Bool.and_self]

theorem upSet_cleared (raw : List Int) : Cleared map (upSet map pool raw) := by
  intro osd member
  unfold upSet at member
  split at member
  · exact .inr (List.mem_filter.mp member).2
  · obtain ⟨item, listed, rfl⟩ := List.mem_map.mp member
    unfold OsdMap.orNone
    split
    next up => exact .inr up
    next => exact .inl rfl

theorem InPlace.rawToUpOsds_eq (sized : map.Sized) (known : pool.type = cephPoolTypeRep ∨ pool.type = cephPoolTypeEc)
    (raw back : List Int) :
    ∃ spare, (upSet map pool raw ++ spare).length = (raw ++ back).length ∧
      InPlace.rawToUpOsds map pool (raw ++ back) raw.length =
        .ok (upSet map pool raw ++ spare, (upSet map pool raw).length, (raw.filter map.isUp).head?.getD (-1)) := by
  unfold InPlace.rawToUpOsds
  rcases known with replicated | erasure
  · have shift : cephCanShiftOsds pool = .ok true := if_pos replicated
    have kept : upSet map pool raw = raw.filter map.isUp := if_pos replicated
    have bounded := length_filter_le map.isUp raw
    obtain ⟨spare, length, ran⟩ := shiftOsds_eq sized raw [] [] back
    simp only [length_nil, nil_append, Nat.zero_add] at length ran
    have left : raw.length - spare.length = (raw.filter map.isUp).length := by lia
    refine ⟨spare ++ back, ?_, ?_⟩
    · simp only [kept, length_append]
      lia
    · simp only [shift, ran, bind, Except.bind, if_true, left, kept, append_assoc]
      cases raw.filter map.isUp with
      | nil => rfl
      | cons osd rest => simp [readAt]
  · have different : pool.type ≠ cephPoolTypeRep := by
      rw [erasure]
      decide
    have shift : cephCanShiftOsds pool = .ok false := by
      unfold cephCanShiftOsds
      rw [if_neg different, if_pos erasure]
    have kept : upSet map pool raw = raw.map map.orNone := if_neg different
    refine ⟨back, ?_, ?_⟩
    · simp [kept]
    · simp [shift, bind, Except.bind, blankOsds_eq sized, kept]

theorem reordered_replicated (replicated : pool.type = cephPoolTypeRep) (listed : List Int) (choice : Option Int) :
    reordered pool choice (upSet map pool listed) =
      match choice with
      | none => listed.filter map.isUp
      | some first => first :: (listed.filter map.isUp).erase first := by
  unfold reordered upSet
  rw [if_pos replicated, if_pos replicated]

theorem reordered_erasure (erasure : pool.type = cephPoolTypeEc) (listed : List Int) (choice : Option Int) :
    reordered pool choice (upSet map pool listed) = listed.map map.orNone := by
  have different : pool.type ≠ cephPoolTypeRep := by
    rw [erasure]
    decide
  unfold reordered upSet
  rw [if_neg different, if_neg different]

/-- The pass over the osds that are up that names a primary. -/
structure Chooses (map : OsdMap) (choice : List Int → Option Int) : Prop where
  listed : ∀ ups osd, choice ups = some osd → osd ∈ ups
  always : ∀ ups, choice ups = none → ups = []
  usual : ∀ ups, (∀ osd ∈ ups, map.affinity osd = cephOsdDefaultPrimaryAffinity) → choice ups = ups.head?

theorem choice_chooses : Chooses map (map.choice pps) where
  listed := by
    intro ups osd chosen
    rcases Option.or_eq_some_iff.mp chosen with found | ⟨-, first⟩
    · exact mem_of_find?_eq_some found
    · exact mem_of_head? first
  always := by
    intro ups nothing
    exact List.head?_eq_none_iff.mp (Option.or_eq_none_iff.mp nothing).2
  usual := fun _ => choice_usual

theorem head_chooses : Chooses map head? where
  listed := fun _ _ => mem_of_head?
  always := fun _ => List.head?_eq_none_iff.mp
  usual := fun _ _ => rfl

theorem reordered_usual (listed : List Int) :
    reordered pool (listed.filter map.isUp).head? (upSet map pool listed) = upSet map pool listed := by
  by_cases replicated : pool.type = cephPoolTypeRep
  · have kept : upSet map pool listed = listed.filter map.isUp := if_pos replicated
    rw [kept]
    exact reordered_head _
  · exact if_neg replicated

theorem reordered_length (listed : List Int) {choice : List Int → Option Int} (chooses : Chooses map choice) :
    (reordered pool (choice (listed.filter map.isUp)) (upSet map pool listed)).length =
      (upSet map pool listed).length := by
  by_cases replicated : pool.type = cephPoolTypeRep
  · have kept : upSet map pool listed = listed.filter map.isUp := if_pos replicated
    rw [reordered_replicated replicated, kept]
    cases chosen : choice (listed.filter map.isUp) with
    | none => rfl
    | some first => exact (perm_cons_erase (chooses.listed _ _ chosen)).length_eq.symm
  · have kept : reordered pool (choice (listed.filter map.isUp)) (upSet map pool listed) = upSet map pool listed :=
      if_neg replicated
    rw [kept]

theorem ActingSet.placed (sized : map.Sized) {choice : List Int → Option Int} (chooses : Chooses map choice)
    (listed : List Int) :
    ActingSet map pool choice listed (reordered pool (choice (listed.filter map.isUp)) (upSet map pool listed))
      ((choice (listed.filter map.isUp)).getD (-1)) := by
  cases chosen : choice (listed.filter map.isUp) with
  | none =>
    have nothing := chooses.always _ chosen
    exact {
      replicated := fun replicated => by
        rw [reordered_replicated replicated, chosen, nothing]
        exact ⟨List.Perm.refl _, rfl⟩
      front := fun _ some => absurd nothing some
      erasure := fun erasure => by
        rw [reordered_erasure erasure]
        exact ⟨length_map _, fun i osd found => by rw [getElem?_map, found, Option.map_some]⟩
      present := fun _ some => absurd nothing some
      chosen := by rw [chosen]
      usual := fun _ some => absurd nothing some
      absent := ⟨fun _ => nothing, fun _ => rfl⟩ }
  | some first =>
    have member := chooses.listed _ _ chosen
    have nonempty : listed.filter map.isUp ≠ [] := ne_nil_of_mem member
    obtain ⟨inList, up⟩ := List.mem_filter.mp member
    have range := OsdMap.isUp_range up
    exact {
      replicated := fun replicated => by
        rw [reordered_replicated replicated, chosen]
        exact ⟨(perm_cons_erase member).symm, rfl⟩
      front := fun replicated _ => by
        rw [reordered_replicated replicated]
        rfl
      erasure := fun erasure => by
        rw [reordered_erasure erasure]
        exact ⟨length_map _, fun i osd found => by rw [getElem?_map, found, Option.map_some]⟩
      present := fun erasure _ => by
        rw [reordered_erasure erasure]
        refine ⟨List.mem_map.mpr ⟨first, inList, if_pos up⟩, sized.isUp_ne_none up⟩
      chosen := by rw [chosen]
      usual := fun all _ => by
        rw [← chooses.usual _ all, chosen]
        rfl
      absent := ⟨fun negative => by
        simp only [Option.getD_some] at negative
        omega, fun empty => absurd empty nonempty⟩ }

def Acts (map : OsdMap) (pps : UInt32) (pool : PgPoolInfo) (pgid : Pg) (raw acting : List Int) (primary : Int) : Prop :=
  match lookupPgMapping map.pgTemp { pgid with seed := cephStableMod pgid.seed pool.pgNum pool.pgNumMask } with
  | none => ActingSet map pool (map.choice pps) raw acting primary
  | some temp => ActingSet map pool head? temp acting primary

def TempFits (map : OsdMap) (pool : PgPoolInfo) (pgid : Pg) : Prop :=
  ∀ temp, lookupPgMapping map.pgTemp
      { pgid with seed := cephStableMod pgid.seed pool.pgNum pool.pgNumMask } = some temp →
    (upSet map pool temp).length ≤ cephPgMaxSize

theorem find?_present (sized : map.Sized) {osds : List Int} (cleared : Cleared map osds) :
    osds.find? (· ≠ Crush.crushItemNone) = (osds.filter map.isUp).head? := by
  rw [head?_filter]
  induction osds with
  | nil => rfl
  | cons osd rest ih =>
    have later := ih fun osd member => cleared osd (mem_cons_of_mem _ member)
    rcases cleared osd mem_cons_self with rfl | up
    · rw [find?_cons_of_neg (by simp), find?_cons_of_neg (by simp [sized.not_isUp_none]), later]
    · rw [find?_cons_of_pos (by simpa using sized.isUp_ne_none up), find?_cons_of_pos up]

end

end

/-- After CRUSH the acting set is the one that the maps call for, exactly if
a `pg_temp` entry does not list more osds than the array takes. -/
theorem acting_set (map : OsdMap) (sized : map.Sized) (pool : PgPoolInfo)
    (known : pool.type = cephPoolTypeRep ∨ pool.type = cephPoolTypeEc) (pgid : Pg) (pps : UInt32)
    (raw back : List Int) (room : (raw ++ back).length = cephPgMaxSize)
    (untemped : lookupPgMapping map.primaryTemp
      { pgid with seed := cephStableMod pgid.seed pool.pgNum pool.pgNumMask } = none) :
    Returns (InPlace.calcPgActing map pps pool pgid (raw ++ back) raw.length) (fun result =>
      result.2.1 ≤ cephPgMaxSize ∧ Acts map pps pool pgid raw (result.1.take result.2.1) result.2.2) ↔
      TempFits map pool pgid := by
  obtain ⟨spare, length, first⟩ := InPlace.rawToUpOsds_eq sized known raw back
  have second := @InPlace.applyPrimaryAffinity_eq map pool pps (upSet map pool raw) sized known (upSet_cleared raw)
    (upSet_whole raw) spare _ rfl
  rw [upSet_filter sized] at second
  have kept : (reordered pool (map.choice pps (raw.filter map.isUp)) (upSet map pool raw)).length =
      (upSet map pool raw).length := reordered_length raw choice_chooses
  have total : (reordered pool (map.choice pps (raw.filter map.isUp)) (upSet map pool raw) ++ spare).length =
      cephPgMaxSize := by
    rw [length_append, kept, ← length_append, length, room]
  unfold InPlace.calcPgActing InPlace.applyTemps TempFits Acts
  simp only [first, second, bind, Except.bind, untemped, Option.getD_none]
  cases entry : lookupPgMapping map.pgTemp
      { pgid with seed := cephStableMod pgid.seed pool.pgNum pool.pgNumMask } with
  | none =>
    refine ⟨fun _ temp found => absurd found (by simp), fun _ => Returns.pure ⟨?_, ?_⟩⟩
    · rw [length_append, kept] at total
      simp only
      lia
    · rw [← kept, take_left]
      exact ActingSet.placed sized choice_chooses raw
  | some temp =>
    simp only
    by_cases fits : (upSet map pool temp).length ≤ cephPgMaxSize
    · obtain ⟨rest, ran⟩ := InPlace.copyTemp_fits sized known temp [] _ (fits.trans_eq total.symm)
      simp only [nil_append, length_nil, Nat.zero_add] at ran
      refine ⟨fun _ other found => ?_, fun _ => ?_⟩
      · cases found
        exact fits
      · rw [ran]
        refine Returns.pure ⟨fits, ?_⟩
        rw [take_left, find?_present sized (upSet_cleared temp), upSet_filter sized]
        have placed := @ActingSet.placed map pool sized head? head_chooses temp
        rw [reordered_usual] at placed
        exact placed
    · have ran := InPlace.copyTemp_overflows sized known temp []
        (reordered pool (map.choice pps (raw.filter map.isUp)) (upSet map pool raw) ++ spare) (by lia)
      simp only [nil_append, length_nil] at ran
      rw [ran]
      refine ⟨fun runs => ?_, fun all => absurd (all temp rfl) fits⟩
      obtain ⟨result, returned, -⟩ := runs
      cases returned

def reluctant : OsdMap :=
  { twoOsds with osdPrimaryAffinity := some [0, 0x10000] }

theorem acting_set_reluctant :
    Returns (InPlace.calcPgActing reluctant 7 splitPool ⟨3, 2⟩ ([0, 1] ++ replicate 14 0) 2) (fun result =>
      result.2.1 ≤ cephPgMaxSize ∧ Acts reluctant 7 splitPool ⟨3, 2⟩ [0, 1] (result.1.take result.2.1) result.2.2) ↔
      TempFits reluctant splitPool ⟨3, 2⟩ := by
  have sized : reluctant.Sized := by
    refine ⟨by decide, rfl, fun affinity table => ?_⟩
    cases table
    rfl
  exact acting_set reluctant sized splitPool (.inl rfl) ⟨3, 2⟩ 7 [0, 1] (replicate 14 0) rfl rfl

def crowded : OsdMap :=
  { twoOsds with pgTemp := [(⟨3, 5⟩, replicate 17 1)] }

theorem acting_set_overruns :
    ¬ ∀ (map : OsdMap) (pool : PgPoolInfo) (pgid : Pg) (pps : UInt32) (raw back : List Int), map.Sized →
      pool.type = cephPoolTypeRep ∨ pool.type = cephPoolTypeEc → (raw ++ back).length = cephPgMaxSize →
      lookupPgMapping map.primaryTemp
        { pgid with seed := cephStableMod pgid.seed pool.pgNum pool.pgNumMask } = none →
      Returns (InPlace.calcPgActing map pps pool pgid (raw ++ back) raw.length) (fun result =>
        result.2.1 ≤ cephPgMaxSize ∧ Acts map pps pool pgid raw (result.1.take result.2.1) result.2.2) := by
  intro claim
  have sized : crowded.Sized := by
    refine ⟨by decide, rfl, fun affinity table => ?_⟩
    cases table
  obtain ⟨result, returned, -⟩ :=
    claim crowded splitPool ⟨3, 5⟩ 7 [0, 1] (replicate 14 0) sized (.inl rfl) rfl rfl
  have halts : InPlace.calcPgActing crowded 7 splitPool ⟨3, 5⟩ ([0, 1] ++ replicate 14 0) 2 =
      .error .outOfBounds := rfl
  rw [show ([0, 1] : List Int).length = 2 from rfl, halts] at returned
  cases returned

end KmodCeph.Osdmap
