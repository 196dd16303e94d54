namespace VolumeCache

/-!
# Memory figures

How much memory the process may use, as the basis on which a budget is computed.
-/

def mebibyte : UInt64 := 1024 * 1024

/-- The largest figure a 64-bit word can hold. -/
def largestWord : UInt64 := 0xffffffffffffffff

/-- That many mebibytes in bytes, or the largest figure when a word cannot hold them. -/
def saturatingMebibytes (count : UInt64) : UInt64 :=
  if count.toNat * mebibyte.toNat ≤ largestWord.toNat then count * mebibyte else largestWord

structure Memory where
  total : UInt64
deriving DecidableEq, Repr

namespace Memory

/-- That many mebibytes of memory, or as much as can be stated. -/
def ofMebibytes (count : UInt64) : Memory :=
  ⟨saturatingMebibytes count⟩

def description (memory : Memory) : String :=
  "MemoryInfo \x7b total_available: " ++ toString memory.total.toNat ++ " \x7d"

end Memory

end VolumeCache
