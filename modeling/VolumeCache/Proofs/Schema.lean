import Mathlib.Data.List.Nodup
import VolumeCache.Proofs.Documents

namespace VolumeCache

/-!
# Which documents are configurations

A document may hold any numbers and any text.  The schema says which documents are configurations:
those of the one version that name a kind and in which one of the three sizes is in use, while the
other two carry the mark.  The validator takes the fields in order and stops at the first that is
wrong; it accepts exactly what the schema says.  Nothing is lost on the way from a document to its
configuration and back, and on the way from a configuration to its document and back only a size
that no document holds.
-/

theorem length_filter_eq_one_iff {α : Type} {list : List α} (nodup : list.Nodup)
    (keep : α → Bool) :
    (list.filter keep).length = 1 ↔ ∃! element, element ∈ list ∧ keep element = true := by
  have kept : ∀ element, element ∈ list.filter keep ↔ element ∈ list ∧ keep element = true :=
    fun element => List.mem_filter
  simp only [← kept, List.length_eq_one_iff]
  constructor
  · rintro ⟨element, alone⟩
    exact ⟨element, by simp [alone], fun other member => by simpa [alone] using member⟩
  · rintro ⟨element, member, unique⟩
    refine ⟨element, ?_⟩
    by_contra different
    rcases ((nodup.filter keep).ne_singleton_iff element).mp different with
      empty | ⟨other, among, apart⟩
    · simp [empty] at member
    · exact apart (unique other among)

theorem StoreKind.exists_name_iff {text : String} :
    (∃ kind : StoreKind, text = kind.name) ↔
      text = "WeightedConcurrent" ∨ text = "SimpleBounded" := by
  constructor
  · rintro ⟨kind, rfl⟩
    cases kind with
    | weighted => exact .inl rfl
    | simple => exact .inr rfl
  · rintro (rfl | rfl)
    · exact ⟨.weighted, rfl⟩
    · exact ⟨.simple, rfl⟩

/-- The rule's number of mebibytes, where it has one, is one that a document holds.  Larger numbers
are cut down when they are stored. -/
def SizingRule.IsStorable : SizingRule → Prop
  | .ratio _ => True
  | .fixed mebibytes | .reserved mebibytes => mebibytes.toNat < 2 ^ 63

theorem SizingRule.IsStorable.clamped {rule : SizingRule} (storable : rule.IsStorable) :
    rule.clamped = rule := by
  have kept : ∀ mebibytes : UInt64, mebibytes.toNat < 2 ^ 63 →
      Configuration.keptSize mebibytes = mebibytes := by
    intro mebibytes small
    have largest : Configuration.largestSize.toNat = 2 ^ 63 - 1 := rfl
    exact if_pos (UInt64.le_iff_toNat_le.mpr (by omega))
  cases rule with
  | ratio percent => rfl
  | fixed mebibytes => exact congrArg SizingRule.fixed (kept mebibytes storable)
  | reserved mebibytes => exact congrArg SizingRule.reserved (kept mebibytes storable)

namespace Configuration

namespace Document

/-- What the schema asks of a document.  Minus one marks a size that is not in use; exactly one of
the sizes is in use, and a ratio has no more than thirty-two bits.  Whether the size makes sense for
a machine is not asked here, see `SizingRule.Affords`. -/
structure FollowsSchema (document : Document) : Prop where
  version : document.version = 1
  kind : document.kindName = "WeightedConcurrent" ∨ document.kindName = "SimpleBounded"
  sizes : ∀ size ∈ document.sizes, -1 ≤ size.2.toInt
  one : ∃! size, size ∈ document.sizes ∧ size.2.toInt ≠ -1
  ratio : document.ratio.toInt < 2 ^ 32

theorem nodup_sizes (document : Document) : document.sizes.Nodup :=
  .of_map Prod.fst (by decide : [Field.ratio, .fixed, .reserved].Nodup)

theorem ne_unset_iff (size : Int64) : (size != unset) = true ↔ size.toInt ≠ -1 := by
  rw [bne_iff_ne, ne_eq, ← Int64.toInt_inj]
  rfl

theorem unset_le_iff (size : Int64) : unset ≤ size ↔ -1 ≤ size.toInt :=
  Int64.le_iff_toInt_le

theorem one_iff (document : Document) :
    (document.sizes.filter fun size => size.2 != unset).length = 1 ↔
      ∃! size, size ∈ document.sizes ∧ size.2.toInt ≠ -1 := by
  rw [length_filter_eq_one_iff document.nodup_sizes]
  simp only [ne_unset_iff]

/-- Only a ratio can be too large for its rule, and one that is not in use is not too large.  Fixed
and reserved sizes have as many bits as their rules. -/
theorem exists_sizing_iff (document : Document) :
    (∃ rule, document.sizing = .ok rule) ↔ document.ratio.toInt < 2 ^ 32 := by
  unfold sizing
  split
  · split
    · rename_i small
      exact iff_of_true ⟨_, rfl⟩ small
    · rename_i large
      exact iff_of_false (fun ⟨rule, given⟩ => by cases given) large
  · rename_i unused
    have mark : document.ratio.toInt < 2 ^ 32 := by
      rw [Decidable.not_not.mp unused]
      decide
    refine iff_of_true ?_ mark
    split
    · exact ⟨_, rfl⟩
    · exact ⟨_, rfl⟩

/-- Exactly the documents that follow the schema describe something. -/
theorem exists_describes_iff (document : Document) :
    (∃ configuration, document.Describes configuration) ↔ document.FollowsSchema := by
  constructor
  · rintro ⟨configuration, version, kind, notBelow, one, size, -⟩
    exact ⟨version, StoreKind.exists_name_iff.mp ⟨_, kind⟩,
      fun size member => (unset_le_iff _).mp (notBelow size member),
      document.one_iff.mp one, document.exists_sizing_iff.mp ⟨_, size⟩⟩
  · rintro ⟨version, kind, notBelow, one, ratio⟩
    rcases StoreKind.exists_name_iff.mpr kind with ⟨named, kind⟩
    rcases document.exists_sizing_iff.mpr ratio with ⟨rule, size⟩
    exact ⟨⟨named, rule, document.interval⟩, version, kind,
      fun size member => (unset_le_iff _).mpr (notBelow size member),
      document.one_iff.mpr one, size, rfl⟩

end Document

/-- A document is valid exactly if it follows the schema, and then it is the document of the
configuration it stands for.  Conversely every configuration whose number of mebibytes a document
holds is what its document stands for. -/
theorem schema_accepted_exactly :
    (∀ document : Document,
      (∃ configuration, document.validate = .ok configuration) ↔ document.FollowsSchema) ∧
    (∀ (document : Document) (configuration : Configuration),
      document.validate = .ok configuration → configuration.document = document) ∧
    ∀ configuration : Configuration, configuration.sizing.IsStorable →
      configuration.document.validate = .ok configuration := by
  refine ⟨fun document => ?_, fun document configuration valid => ?_,
    fun configuration storable => ?_⟩
  · simp only [Document.validate_eq_ok_iff, document.exists_describes_iff]
  · exact (Document.validate_eq_ok_iff.mp valid).document_eq
  · have same : configuration.clamped = configuration := by
      rw [clamped, storable.clamped]
    rw [validate_document, same]

/-- As many mebibytes as a document holds, and an interval that is no interval. -/
def largestFixed : Configuration where
  kind := .simple
  sizing := .fixed largestSize
  interval := 0

theorem schema_accepted_exactly_largest :
    largestFixed.sizing.IsStorable ∧ largestFixed.document.validate = .ok largestFixed ∧
      Document.FollowsSchema ⟨1, "SimpleBounded", 0, -1, 0x7fffffffffffffff, -1⟩ ∧
      Document.validate ⟨1, "SimpleBounded", 0, -1, 0x7fffffffffffffff, -1⟩ = .ok largestFixed ∧
      largestFixed.document = ⟨1, "SimpleBounded", 0, -1, 0x7fffffffffffffff, -1⟩ := by
  rcases schema_accepted_exactly with ⟨accepted, kept, stored⟩
  have storable : largestFixed.sizing.IsStorable :=
    (by decide : largestSize.toNat < 2 ^ 63)
  have valid : Document.validate ⟨1, "SimpleBounded", 0, -1, 0x7fffffffffffffff, -1⟩ =
      .ok largestFixed := rfl
  exact ⟨storable, stored _ storable, (accepted _).mp ⟨_, valid⟩, valid, kept _ _ valid⟩

end Configuration
end VolumeCache
