import VolumeCache.Files.Path
import VolumeCache.Memory

namespace VolumeCache

/-!
# Settings of a process

Three settings come from the environment: where the preferences are kept, how much memory to count
on, and how many workers to run.  A variable that is not set, is no text or does not parse leaves
the setting at its standard value.
-/

structure Settings where
  preferencesPath : String
  memoryOverride : Option UInt64
  workers : UInt64
deriving DecidableEq, Repr

namespace Settings

def standard : Settings where
  preferencesPath := "block-cache-prefs.json"
  memoryOverride := none
  workers := 4

/-- A 64-bit word in decimal digits, with at most one plus sign in front. -/
def parseWord? (text : String) : Option UInt64 :=
  let digits := match text.toList with
    | '+' :: digits => digits
    | digits => digits
  if digits ≠ [] ∧ digits.all Char.isDigit then
    let value := digits.foldl (fun value digit => value * 10 + (digit.toNat - '0'.toNat)) 0
    if value ≤ largestWord.toNat then some value.toUInt64 else none
  else none

/-- The settings for the values of the three variables, each a row of bytes if it is set. -/
def ofVariables (preferencesPath memoryMebibytes workers : Option ByteArray) : Settings where
  preferencesPath := (preferencesPath.bind String.fromUTF8?).getD standard.preferencesPath
  memoryOverride :=
    ((memoryMebibytes.bind String.fromUTF8?).bind parseWord?).filter fun count => 0 < count
  workers := ((workers.bind String.fromUTF8?).bind parseWord?).getD standard.workers

/-- The memory to count on, if a setting says so; otherwise it is found out elsewhere. -/
def memory? (settings : Settings) : Option Memory :=
  settings.memoryOverride.map Memory.ofMebibytes

/-- The preferences are kept where they are kept by default. -/
def hasStandardPath (settings : Settings) : Bool :=
  (Path.ofText settings.preferencesPath).essence == (Path.ofText standard.preferencesPath).essence

end Settings
end VolumeCache
