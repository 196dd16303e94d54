import Mathlib.Algebra.Group.Int.Defs
import Mathlib.Algebra.Group.Nat.Defs
import VolumeCache.Sizing

namespace VolumeCache

/-!
# Budgets and the exact figures behind them

What a rule asks for is a whole number, which may be less than nothing or more than a word holds.
The budget is computed in words, and each rule keeps clear of the limits of a word in its own way:
a part of the memory is taken of a product that is wider than a word, a fixed number of bytes that
is too large is refused, and a reservation that is too large is cut down to the largest word.  All
three come to the same: a budget is given exactly if the whole number is a budget, and it is this
number.  Nothing is assumed about the rule or the memory.
-/

namespace SizingRule

/-- The budget as a whole number.  Nothing is cut off or cut down here, so it may be negative or too
large for a word; a percentage leaves its remainder out. -/
def exactBudget (rule : SizingRule) (memory : Memory) : Int :=
  match rule with
  | .ratio percent => memory.total.toNat * percent.toNat / 100
  | .fixed mebibytes => mebibytes.toNat * 2 ^ 20
  | .reserved mebibytes => memory.total.toNat - mebibytes.toNat * 2 ^ 20

/-- A percentage is at least one and at most a hundred. -/
def IsProper : SizingRule → Prop
  | .ratio percent => 1 ≤ percent.toNat ∧ percent.toNat ≤ 100
  | .fixed _ | .reserved _ => True

/-- The exact budget is positive and no larger than a word.  A percentage has to be proper as well,
even where the budget it gives would do. -/
structure Affords (rule : SizingRule) (memory : Memory) : Prop where
  proper : rule.IsProper
  positive : 1 ≤ rule.exactBudget memory
  fits : rule.exactBudget memory < 2 ^ 64

end SizingRule

/-- The fault is true of the rule and the memory.  An improper percentage is told first, whatever
budget it would give. -/
def SizingFault.Explains (fault : SizingFault) (rule : SizingRule) (memory : Memory) : Prop :=
  match fault with
  | .ratioOutOfRange percent => rule = .ratio percent ∧ ¬ rule.IsProper
  | .fixedOverflows mebibytes => rule = .fixed mebibytes ∧ 2 ^ 64 ≤ rule.exactBudget memory
  | .reservedExceeds mebibytes available =>
      rule = .reserved mebibytes ∧ rule.exactBudget memory < 0 ∧
        available.toNat = memory.total.toNat / 2 ^ 20
  | .emptyBudget refused => refused = rule ∧ rule.IsProper ∧ rule.exactBudget memory ≤ 0

theorem SizingFault.Explains.not_affords {fault : SizingFault} {rule : SizingRule}
    {memory : Memory} (explains : fault.Explains rule memory) : ¬ rule.Affords memory := by
  rintro ⟨proper, positive, fits⟩
  cases fault with
  | ratioOutOfRange percent => exact explains.2 proper
  | fixedOverflows mebibytes => exact absurd explains.2 (Int.not_le.mpr fits)
  | reservedExceeds mebibytes available => have negative := explains.2.1; omega
  | emptyBudget refused => have nothing := explains.2.2; omega

/-! ## Mebibytes -/

theorem fits_iff (count : UInt64) :
    count.toNat * mebibyte.toNat ≤ largestWord.toNat ↔ count.toNat * 2 ^ 20 < 2 ^ 64 := by
  have word : largestWord.toNat = 2 ^ 64 - 1 := rfl
  have unit : mebibyte.toNat = 2 ^ 20 := rfl
  rw [word, unit]
  omega

theorem toNat_mul_mebibyte {count : UInt64} (fits : count.toNat * 2 ^ 20 < 2 ^ 64) :
    (count * mebibyte).toNat = count.toNat * 2 ^ 20 := by
  rw [UInt64.toNat_mul]
  exact Nat.mod_eq_of_lt fits

theorem toNat_saturatingMebibytes (count : UInt64) :
    (saturatingMebibytes count).toNat = min (count.toNat * 2 ^ 20) (2 ^ 64 - 1) := by
  have word : largestWord.toNat = 2 ^ 64 - 1 := rfl
  simp only [saturatingMebibytes, fits_iff]
  split
  · rename_i fits
    rw [toNat_mul_mebibyte fits]
    omega
  · omega

/-! ## The computation -/

namespace SizingRule

/-- The figure is the exact budget, or nothing where that is negative. -/
def Figures (rule : SizingRule) (memory : Memory) (figure : UInt64) : Prop :=
  rule.IsProper ∧ figure.toNat = (rule.exactBudget memory).toNat

/-- A part of the memory is no larger than the memory, so nothing is cut off.  The product it is
taken of may be larger than a word. -/
theorem figure_ratio (percent : UInt32) (memory : Memory) :
    (∃ figure, (ratio percent).figure memory = .ok figure ∧
        (ratio percent).Figures memory figure) ∨
      (ratio percent).figure memory = .error (.ratioOutOfRange percent) ∧
        ¬ (ratio percent).IsProper := by
  have range : 1 ≤ percent ∧ percent ≤ 100 ↔ (ratio percent).IsProper := by
    rw [UInt32.le_iff_toNat_le, UInt32.le_iff_toNat_le]
    rfl
  simp only [figure]
  by_cases proper : (ratio percent).IsProper
  · rw [if_pos (range.mpr proper)]
    refine .inl ⟨_, rfl, proper, ?_⟩
    have most := memory.total.toNat_lt
    have product : memory.total.toNat * percent.toNat ≤ memory.total.toNat * 100 :=
      Nat.mul_le_mul_left _ proper.2
    have exact : exactBudget (.ratio percent) memory =
        ((memory.total.toNat * percent.toNat / 100 : Nat) : Int) := by
      rw [exactBudget]
      push_cast
      rfl
    rw [exact, Int.toNat_natCast, Nat.toUInt64, UInt64.toNat_ofNat', Nat.mod_eq_of_lt (by omega)]
  · rw [if_neg fun inRange => proper (range.mp inRange)]
    exact .inr ⟨rfl, proper⟩

theorem figure_fixed (mebibytes : UInt64) (memory : Memory) :
    (∃ figure, (fixed mebibytes).figure memory = .ok figure ∧
        (fixed mebibytes).Figures memory figure) ∨
      (fixed mebibytes).figure memory = .error (.fixedOverflows mebibytes) ∧
        2 ^ 64 ≤ (fixed mebibytes).exactBudget memory := by
  simp only [figure, fits_iff, exactBudget]
  split
  · rename_i fits
    refine .inl ⟨_, rfl, trivial, ?_⟩
    rw [toNat_mul_mebibyte fits, exactBudget]
    omega
  · exact .inr ⟨rfl, by omega⟩

/-- A reservation that has been cut down leaves nothing, and only of the most memory there can be;
what would have been left in truth is less than nothing. -/
theorem figure_reserved (mebibytes : UInt64) (memory : Memory) :
    (∃ figure, (reserved mebibytes).figure memory = .ok figure ∧
        (reserved mebibytes).Figures memory figure) ∨
      (reserved mebibytes).figure memory =
          .error (.reservedExceeds mebibytes (memory.total / mebibyte)) ∧
        (reserved mebibytes).exactBudget memory < 0 := by
  have kept := toNat_saturatingMebibytes mebibytes
  have most := memory.total.toNat_lt
  simp only [figure, exactBudget]
  split
  · rename_i enough
    refine .inl ⟨_, rfl, trivial, ?_⟩
    rw [UInt64.toNat_sub_of_le _ _ enough, exactBudget]
    have left := UInt64.le_iff_toNat_le.mp enough
    omega
  · rename_i short
    rw [UInt64.le_iff_toNat_le] at short
    exact .inr ⟨rfl, by omega⟩

/-- The figure before the last check, or a fault that is true.  The figure may still be zero. -/
theorem figure_spec (rule : SizingRule) (memory : Memory) :
    (∃ figure, rule.figure memory = .ok figure ∧ rule.Figures memory figure) ∨
      ∃ fault, rule.figure memory = .error fault ∧ fault.Explains rule memory := by
  cases rule with
  | ratio percent =>
      exact (figure_ratio percent memory).imp_right fun ⟨refused, improper⟩ =>
        ⟨_, refused, rfl, improper⟩
  | fixed mebibytes =>
      exact (figure_fixed mebibytes memory).imp_right fun ⟨refused, large⟩ =>
        ⟨_, refused, rfl, large⟩
  | reserved mebibytes =>
      exact (figure_reserved mebibytes memory).imp_right fun ⟨refused, negative⟩ =>
        ⟨_, refused, rfl, negative, UInt64.toNat_div _ _⟩

/-- The exact budget is given if it is one, and otherwise a fault that is true. -/
theorem resolve_spec (rule : SizingRule) (memory : Memory) :
    (∃ budget, rule.resolve memory = .ok budget ∧ rule.Affords memory ∧
        (budget.toNat : Int) = rule.exactBudget memory) ∨
      ∃ fault, rule.resolve memory = .error fault ∧ fault.Explains rule memory := by
  unfold resolve
  rcases figure_spec rule memory with ⟨figure, found, proper, same⟩ | ⟨fault, refused, explains⟩
  · simp only [found]
    by_cases nothing : figure = 0
    · have zero : figure.toNat = 0 := congrArg UInt64.toNat nothing
      rw [if_pos nothing]
      exact .inr ⟨_, rfl, rfl, proper, by omega⟩
    · have positive : figure.toNat ≠ 0 := fun zero => nothing (UInt64.toNat_inj.mp zero)
      have most := figure.toNat_lt
      rw [if_neg nothing]
      exact .inl ⟨figure, rfl, ⟨proper, by omega, by omega⟩, by omega⟩
  · simp only [refused]
    exact .inr ⟨fault, rfl, explains⟩

theorem resolve_eq_ok_iff {rule : SizingRule} {memory : Memory} {budget : UInt64} :
    rule.resolve memory = .ok budget ↔
      rule.Affords memory ∧ (budget.toNat : Int) = rule.exactBudget memory := by
  rcases resolve_spec rule memory with
    ⟨given, resolved, affords, exact⟩ | ⟨fault, refused, explains⟩
  · rw [resolved, Except.ok.injEq, and_iff_right affords, ← exact, Int.natCast_inj,
      UInt64.toNat_inj, eq_comm]
  · rw [refused]
    exact iff_of_false (fun resolved => by cases resolved)
      fun described => explains.not_affords described.1

theorem product_lt (memory : Memory) (percent : UInt32) :
    memory.total.toNat * percent.toNat < 2 ^ 128 :=
  calc memory.total.toNat * percent.toNat
      ≤ 2 ^ 64 * 2 ^ 32 :=
        Nat.mul_le_mul (Nat.le_of_lt memory.total.toNat_lt) (Nat.le_of_lt percent.toNat_lt)
    _ < 2 ^ 128 := by decide

/-- A budget is given exactly if the percentage, where there is one, is proper and the exact budget
is positive and no larger than a word, and then it is the exact budget.  In every other case, and in
no other, the rule is refused, for a reason that is true.  The product of which a part of the memory
is taken is never cut. -/
theorem resolve_exact (rule : SizingRule) (memory : Memory) :
    (∀ budget, rule.resolve memory = .ok budget ↔
        rule.Affords memory ∧ (budget.toNat : Int) = rule.exactBudget memory) ∧
      ((∃ budget, rule.resolve memory = .ok budget) ↔ rule.Affords memory) ∧
      ((∃ fault, rule.resolve memory = .error fault ∧ fault.Explains rule memory) ↔
        ¬ rule.Affords memory) ∧
      ∀ percent : UInt32, memory.total.toNat * percent.toNat < 2 ^ 128 := by
  refine ⟨fun budget => resolve_eq_ok_iff, ?_, ?_, product_lt memory⟩
  · constructor
    · rintro ⟨budget, resolved⟩
      exact (resolve_eq_ok_iff.mp resolved).1
    · intro affords
      rcases resolve_spec rule memory with ⟨budget, resolved, -⟩ | ⟨fault, -, explains⟩
      · exact ⟨budget, resolved⟩
      · exact absurd affords explains.not_affords
  · constructor
    · rintro ⟨fault, -, explains⟩
      exact explains.not_affords
    · intro none
      rcases resolve_spec rule memory with ⟨budget, -, affords, -⟩ | refused
      · exact absurd affords none
      · exact refused

/-- All the memory there can be does not cover a reservation that no word holds, although the two
come to the same in words. -/
example : (reserved largestWord).resolve ⟨largestWord⟩ =
    .error (.emptyBudget (reserved largestWord)) := rfl

end SizingRule
end VolumeCache
