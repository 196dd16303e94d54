namespace VolumeCache

/-!
# Kinds of store

The two ways a cache can keep its blocks, and the names under which they are chosen.
-/

/-- The weighted store keeps a lazy index of uses, the simple store the exact order. -/
inductive StoreKind where
  | weighted
  | simple
deriving DecidableEq, Repr

namespace StoreKind

def standard : StoreKind := .weighted

def name : StoreKind → String
  | .weighted => "WeightedConcurrent"
  | .simple => "SimpleBounded"

/-- The kind of a name.  Names are matched exactly. -/
def ofName? (text : String) : Option StoreKind :=
  if text = StoreKind.weighted.name then some .weighted
  else if text = StoreKind.simple.name then some .simple
  else none

/-- Exactly the name of a kind is read as that kind. -/
theorem ofName?_eq_some_iff {text : String} {kind : StoreKind} :
    ofName? text = some kind ↔ text = kind.name := by
  unfold ofName?
  constructor
  · intro read
    split at read
    · cases read
      assumption
    · split at read
      · cases read
        assumption
      · cases read
  · rintro rfl
    cases kind <;> decide

end StoreKind

end VolumeCache
