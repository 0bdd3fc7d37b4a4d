import Mathlib.Tactic

namespace KmodCeph.Lib

variable {w : Nat}

/-- All bits of the one mask are in the other. -/
def Within (part whole : BitVec w) : Prop := part &&& ~~~whole = 0

instance (part whole : BitVec w) : Decidable (Within part whole) :=
  inferInstanceAs (Decidable (_ = _))

variable {part whole other : BitVec w}

theorem within_iff : Within part whole ↔ ∀ bit, part.getLsbD bit = true → whole.getLsbD bit = true := by
  constructor
  · intro none bit inPart
    have cleared := congrArg (BitVec.getLsbD · bit) none
    have small := BitVec.lt_of_getLsbD inPart
    simpa [BitVec.getLsbD_and, BitVec.getLsbD_not, inPart, small] using cleared
  · intro all
    apply BitVec.eq_of_getLsbD_eq
    intro bit small
    cases inPart : part.getLsbD bit with
    | false => simp [inPart]
    | true => simp [all bit inPart]

theorem Within.refl (part : BitVec w) : Within part part :=
  within_iff.mpr fun _ inPart => inPart

theorem Within.trans (first : Within part whole) (second : Within whole other) : Within part other :=
  within_iff.mpr fun bit inPart => within_iff.mp second bit (within_iff.mp first bit inPart)

theorem Within.or (first : Within part other) (second : Within whole other) : Within (part ||| whole) other := by
  rw [within_iff] at *
  intro bit inEither
  rw [BitVec.getLsbD_or, Bool.or_eq_true] at inEither
  rcases inEither with inFirst | inSecond
  · exact first bit inFirst
  · exact second bit inSecond

theorem within_or_left (part whole : BitVec w) : Within part (part ||| whole) :=
  within_iff.mpr fun bit inPart => by rw [BitVec.getLsbD_or, inPart, Bool.true_or]

theorem within_or_right (part whole : BitVec w) : Within whole (part ||| whole) :=
  within_iff.mpr fun bit inWhole => by rw [BitVec.getLsbD_or, inWhole, Bool.or_true]

theorem Within.or_eq (within : Within part whole) : part ||| whole = whole := by
  apply BitVec.eq_of_getLsbD_eq
  intro bit _
  rw [BitVec.getLsbD_or]
  cases inPart : part.getLsbD bit with
  | false => rw [Bool.false_or]
  | true => rw [within_iff.mp within bit inPart, Bool.true_or]

theorem within_of_meets {place : Nat} (meets : whole &&& BitVec.twoPow w place ≠ 0) :
    Within (BitVec.twoPow w place) whole := by
  rw [within_iff]
  intro bit single
  rw [BitVec.getLsbD_twoPow, Bool.and_eq_true, decide_eq_true_eq, decide_eq_true_eq] at single
  obtain ⟨_, rfl⟩ := single
  by_contra absent
  apply meets
  apply BitVec.eq_of_getLsbD_eq
  intro bit small
  rw [BitVec.getLsbD_and, BitVec.getLsbD_twoPow]
  by_cases same : place = bit
  · subst same
    simp [absent]
  · simp [same]

theorem meets_iff {value : BitVec w} {place : Nat} (small : place < w) :
    value &&& BitVec.twoPow w place ≠ 0 ↔ value.getLsbD place = true := by
  rw [BitVec.and_twoPow]
  cases set : value.getLsbD place with
  | false => simp
  | true =>
    refine ⟨fun _ => rfl, fun _ zero => ?_⟩
    have bit := congrArg (fun bits => bits.getLsbD place) zero
    simp [small] at bit

theorem within_and_left (part whole : BitVec w) : Within (part &&& whole) part :=
  within_iff.mpr fun bit inBoth => by
    rw [BitVec.getLsbD_and, Bool.and_eq_true] at inBoth
    exact inBoth.1

theorem Within.and (first : Within part whole) (second : Within part other) : Within part (whole &&& other) :=
  within_iff.mpr fun bit inPart => by
    rw [BitVec.getLsbD_and, within_iff.mp first bit inPart, within_iff.mp second bit inPart, Bool.true_and]

theorem mem_foldr_or {α : Type} (mask : α → BitVec w) (items : List α) (bit : Nat) :
    (items.foldr (fun item union => mask item ||| union) part).getLsbD bit = true ↔
      part.getLsbD bit = true ∨ ∃ item ∈ items, (mask item).getLsbD bit = true := by
  induction items with
  | nil => simp
  | cons first rest ih =>
    rw [List.foldr_cons, BitVec.getLsbD_or, Bool.or_eq_true, ih]
    simp only [List.mem_cons, exists_eq_or_imp]
    tauto

end KmodCeph.Lib
