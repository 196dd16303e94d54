import VolumeCache.Memory

namespace VolumeCache

/-!
# Sizing rules

How the byte budget of a cache follows from the memory available.  Exactly one of three rules is
in force.  The budget is computed exactly; a rule whose budget is not a positive 64-bit number is
refused, and the refusal says why.
-/

/-- How a budget is derived from the memory available: a percentage of it, a fixed number of
mebibytes, or all of it but a number of mebibytes reserved for the rest of the process. -/
inductive SizingRule where
  | ratio (percent : UInt32)
  | fixed (mebibytes : UInt64)
  | reserved (mebibytes : UInt64)
deriving DecidableEq, Repr

/-- Why a rule gives no budget. -/
inductive SizingFault where
  | ratioOutOfRange (percent : UInt32)
  | fixedOverflows (mebibytes : UInt64)
  | reservedExceeds (mebibytes : UInt64) (available : UInt64)
  | emptyBudget (rule : SizingRule)
deriving DecidableEq, Repr

namespace SizingRule

def description : SizingRule → String
  | .ratio percent =>
      "RatioOfAvailableMemory \x7b percent: " ++ toString percent.toNat ++ " \x7d"
  | .fixed mebibytes => "FixedCacheBudget \x7b mib: " ++ toString mebibytes.toNat ++ " \x7d"
  | .reserved mebibytes => "FixedReservedForRest \x7b mib: " ++ toString mebibytes.toNat ++ " \x7d"

/-- The budget before the check that it is positive.  A fixed size that no word holds is refused; a
reservation that no word holds is cut down to the largest word. -/
def figure (rule : SizingRule) (memory : Memory) : Except SizingFault UInt64 :=
  match rule with
  | .ratio percent =>
      if 1 ≤ percent ∧ percent ≤ 100 then
        .ok (memory.total.toNat * percent.toNat / 100).toUInt64
      else .error (.ratioOutOfRange percent)
  | .fixed mebibytes =>
      if mebibytes.toNat * mebibyte.toNat ≤ largestWord.toNat then .ok (mebibytes * mebibyte)
      else .error (.fixedOverflows mebibytes)
  | .reserved mebibytes =>
      let kept := saturatingMebibytes mebibytes
      if kept ≤ memory.total then .ok (memory.total - kept)
      else .error (.reservedExceeds mebibytes (memory.total / mebibyte))

/-- The byte budget the rule gives for the memory available. -/
def resolve (rule : SizingRule) (memory : Memory) : Except SizingFault UInt64 :=
  match rule.figure memory with
  | .error fault => .error fault
  | .ok budget => if budget = 0 then .error (.emptyBudget rule) else .ok budget

end SizingRule

namespace SizingFault

def message : SizingFault → String
  | .ratioOutOfRange percent =>
      "memory ratio must be within 1..=100 percent, got " ++ toString percent.toNat
  | .fixedOverflows mebibytes =>
      "fixed budget of " ++ toString mebibytes.toNat ++ " MiB overflows"
  | .reservedExceeds mebibytes available =>
      "reserving " ++ toString mebibytes.toNat ++ " MiB exceeds the " ++ toString available.toNat
        ++ " MiB available"
  | .emptyBudget rule => rule.description ++ " resolves to an empty cache budget"

end SizingFault

end VolumeCache
