import VolumeCache.Configuration.Validation
import VolumeCache.Proofs.Members
import VolumeCache.Proofs.Sizing

namespace VolumeCache
namespace Configuration

/-!
# Stored configurations and what is read back

The text under which a configuration is stored is read back as that configuration, with one
exception: a number of mebibytes that no signed word holds becomes the largest one that a signed
word holds.  No memory is large enough for the difference to give another budget.  A configuration
that has been read once is read back as it is ever after.
-/

/-! ## Fields -/

namespace Document

def fieldToken (document : Document) : Field → Json.Token
  | .version => .integer document.version.toNat
  | .kindName => .text document.kindName
  | .interval => .integer document.interval.toInt
  | .ratio => .integer document.ratio.toInt
  | .fixed => .integer document.fixed.toInt
  | .reserved => .integer document.reserved.toInt

def row (document : Document) (field : Field) : Json.Row where
  name := field.name
  text := ':' :: document.fieldValue field

theorem isSpaced_row (document : Document) (field : Field) : (document.row field).IsSpaced :=
  ⟨Json.allBlank_nil, Json.allBlank_nil⟩

end Document

theorem isWord_toInt (value : Int64) : Json.IsWord value.toInt := by
  have low := value.le_toInt
  have high := value.toInt_lt
  exact ⟨by omega, by omega⟩

theorem isWord_toNat (value : UInt32) : Json.IsWord value.toNat := by
  have high := value.toNat_lt
  exact ⟨by omega, by omega⟩

theorem Document.readToken_fieldValue (document : Document) (field : Field) {rest : List Char}
    (ends : Json.EndsNumeral rest) :
    Json.readToken (document.fieldValue field ++ rest) = .ok (document.fieldToken field, rest) := by
  cases field with
  | kindName => exact Json.readToken_encode _ rest
  | version => exact Json.readToken_integer (isWord_toNat document.version) ends
  | interval => exact Json.readToken_integer (isWord_toInt document.interval) ends
  | ratio => exact Json.readToken_integer (isWord_toInt document.ratio) ends
  | fixed => exact Json.readToken_integer (isWord_toInt document.fixed) ends
  | reserved => exact Json.readToken_integer (isWord_toInt document.reserved) ends

theorem asInt64_toInt (value : Int64) : (Json.Token.integer value.toInt).asInt64 = .ok value := by
  have low := value.le_toInt
  have high := value.toInt_lt
  simp only [Json.Token.asInt64]
  rw [if_pos ⟨by omega, by omega⟩, Int.toInt64, Int64.ofInt_toInt]

theorem asWord32_toNat (value : UInt32) :
    (Json.Token.integer value.toNat).asWord32 = .ok value := by
  have high := value.toNat_lt
  simp only [Json.Token.asWord32]
  rw [if_pos ⟨by omega, by omega⟩, Int.toNat_natCast]
  exact congrArg Except.ok (UInt32.ofNat_toNat)

theorem Field.ofName?_name (field : Field) : Field.ofName? field.name = some field := by
  cases field <;> decide

/-! ## Drafts -/

namespace Draft

/-- The draft with one more field taken from a document. -/
def fill (document : Document) (draft : Draft) : Field → Draft
  | .version => { draft with version := some document.version }
  | .kindName => { draft with kindName := some document.kindName }
  | .interval => { draft with interval := some document.interval }
  | .ratio => { draft with ratio := some document.ratio }
  | .fixed => { draft with fixed := some document.fixed }
  | .reserved => { draft with reserved := some document.reserved }

theorem put_fieldToken (document : Document) (draft : Draft) (field : Field) :
    draft.put field (document.fieldToken field) = .ok (draft.fill document field) := by
  cases field with
  | kindName => rfl
  | version => rw [put, Document.fieldToken, asWord32_toNat]; rfl
  | interval | ratio | fixed | reserved => rw [put, Document.fieldToken, asInt64_toInt]; rfl

theorem holds_fill (document : Document) (draft : Draft) (field other : Field) :
    (draft.fill document field).holds other = (other == field || draft.holds other) := by
  cases field <;> cases other <;> rfl

theorem readMember_row {document : Document} {draft : Draft} {field : Field}
    (missing : draft.holds field = false) {rest : List Char} (ends : Json.EndsNumeral rest) :
    draft.readMember (document.row field).name ((document.row field).text ++ rest) =
      .ok (draft.fill document field, rest) := by
  have colon := Json.readColon_append Json.allBlank_nil (document.fieldValue field ++ rest)
  rw [List.nil_append] at colon
  simp only [Document.row, List.cons_append, readMember, Field.ofName?_name, missing,
    Bool.false_eq_true, if_false, colon, readValue, Json.readAs,
    document.readToken_fieldValue field ends, put_fieldToken]

/-- Fields of a document, none of them twice, are read one after the other.  They may come in any
order, and the draft may hold other fields already. -/
theorem filled_fields (document : Document) (fields : List Field) (draft : Draft)
    (distinct : fields.Nodup) (missing : ∀ field ∈ fields, draft.holds field = false) :
    Json.Filled readMember draft (fields.map document.row)
      (fields.foldl (fill document) draft) := by
  induction fields generalizing draft with
  | nil => exact .done
  | cons field later ih =>
      rw [List.nodup_cons] at distinct
      refine .more (document.isSpaced_row field)
        (fun rest ends => readMember_row (missing field List.mem_cons_self) ends)
        (ih _ distinct.2 ?_)
      intro other member
      have different : other ≠ field := fun same => distinct.1 (same ▸ member)
      rw [holds_fill, missing other (List.mem_cons_of_mem _ member)]
      simpa using different

end Draft

/-! ## Documents -/

namespace Document

/-- The text of a document as the reader of objects meets it. -/
theorem toList_text (document : Document) :
    document.text.toList = '\x7b' :: ((document.row .version).chars ++
      Json.laterMembers [] (Field.all.tail.map document.row)) := by
  have joined := Json.intercalate_rows [] (document.row .version) (Field.all.tail.map document.row)
  rw [List.nil_append] at joined
  rw [← joined, text, String.toList_ofList, Json.object]
  simp [Field.all, Json.member, Json.Row.chars, row]

theorem ofText_text (document : Document) : ofText document.text = .ok document := by
  have filled := Draft.filled_fields document Field.all {} (by decide) (by decide)
  have whole := filled.readMembers_all Json.allBlank_nil []
  rw [List.append_nil] at whole
  have brace : ∀ rest, Json.readToken ('\x7b' :: rest) = .ok (.map, rest) := fun rest => rfl
  have draft : readDraft document.text.toList =
      .ok (Field.all.foldl (Draft.fill document) {}, []) := by
    rw [toList_text, readDraft, brace]
    exact whole
  rw [ofText, draft]
  rfl

end Document

/-! ## Sizes -/

/-- The largest number of mebibytes that a document holds.  Documents have signed numbers where
configurations have words. -/
def largestSize : UInt64 := 0x7fffffffffffffff

/-- What a document keeps of a number of mebibytes. -/
def keptSize (mebibytes : UInt64) : UInt64 :=
  if mebibytes ≤ largestSize then mebibytes else largestSize

theorem used_of_nonneg {size : Int64} (nonneg : 0 ≤ size.toInt) : unset ≤ size ∧ size ≠ unset := by
  have mark : unset.toInt = -1 := rfl
  constructor
  · rw [Int64.le_iff_toInt_le]
    omega
  · rintro rfl
    omega

theorem nonneg_of_used {size : Int64} (notBelow : unset ≤ size) (used : size ≠ unset) :
    0 ≤ size.toInt := by
  have mark : unset.toInt = -1 := rfl
  have different : size.toInt ≠ unset.toInt := fun same => used (Int64.toInt_inj.mp same)
  rw [Int64.le_iff_toInt_le] at notBelow
  omega

theorem toUInt64_storedSize (mebibytes : UInt64) :
    (storedSize mebibytes).toUInt64 = keptSize mebibytes := by
  have largest : Int64.maxValue.toInt.toNat = largestSize.toNat := rfl
  simp only [storedSize, keptSize, largest, UInt64.le_iff_toNat_le]
  split
  · exact UInt64.toUInt64_toInt64 mebibytes
  · rfl

theorem storedSize_nonneg (mebibytes : UInt64) : 0 ≤ (storedSize mebibytes).toInt := by
  have largest : Int64.maxValue.toInt.toNat = 2 ^ 63 - 1 := rfl
  rw [storedSize, largest]
  split
  · rename_i small
    have same : mebibytes.toInt64 = Int64.ofNat mebibytes.toNat := by
      rw [← UInt64.toInt64_ofNat', UInt64.ofNat_toNat]
    rw [same, Int64.toInt_ofNat_of_lt (by omega)]
    omega
  · decide

theorem storedSize_toUInt64 {size : Int64} (nonneg : 0 ≤ size.toInt) :
    storedSize size.toUInt64 = size := by
  have high := size.toInt_lt
  have value : size.toUInt64.toNat = size.toInt.toNat :=
    Int64.toNat_toUInt64_of_le (Int64.le_iff_toInt_le.mpr nonneg)
  have largest : Int64.maxValue.toInt.toNat = 2 ^ 63 - 1 := rfl
  rw [storedSize, if_pos (by omega)]
  exact Int64.toInt64_toUInt64 size

theorem ofNat_ratio {size : Int64} (nonneg : 0 ≤ size.toInt) (small : size.toInt < 0x100000000) :
    Int64.ofNat size.toInt.toNat.toUInt32.toNat = size := by
  have value : size.toInt.toNat.toUInt32.toNat = size.toInt.toNat :=
    Nat.mod_eq_of_lt (b := 2 ^ 32) (by omega)
  apply Int64.toInt_inj.mp
  rw [value, Int64.toInt_ofNat_of_lt (by omega)]
  omega

theorem toInt_ratio (percent : UInt32) :
    (Int64.ofNat percent.toNat).toInt = percent.toNat := by
  have high := percent.toNat_lt
  exact Int64.toInt_ofNat_of_lt (by omega)

end Configuration

/-! ## Configurations -/

/-- The rule with its number of mebibytes cut down to what a document holds. -/
def SizingRule.clamped : SizingRule → SizingRule
  | .ratio percent => .ratio percent
  | .fixed mebibytes => .fixed (Configuration.keptSize mebibytes)
  | .reserved mebibytes => .reserved (Configuration.keptSize mebibytes)

theorem StoreKind.named_eq_ok_iff {text : String} {kind : StoreKind} :
    StoreKind.named text = .ok kind ↔ text = kind.name := by
  rw [← StoreKind.ofName?_eq_some_iff, StoreKind.named]
  cases StoreKind.ofName? text <;> simp

namespace Configuration

/-- The configuration with its number of mebibytes cut down to what a document holds. -/
def clamped (configuration : Configuration) : Configuration :=
  { configuration with sizing := configuration.sizing.clamped }

/-- The document has a known version and names the kind, and of its sizes, none of which is below
the mark of an unset one, exactly one is in use and gives the rule.  Any interval will do. -/
structure Document.Describes (document : Document) (configuration : Configuration) : Prop where
  version : document.version = schemaVersion
  kind : document.kindName = configuration.kind.name
  notBelow : ∀ size ∈ document.sizes, unset ≤ size.2
  one : (document.sizes.filter fun size => size.2 != unset).length = 1
  sizing : document.sizing = .ok configuration.sizing
  interval : document.interval = configuration.interval

/-- Exactly the documents that describe a configuration are valid.  The order in which a validation
asks its questions matters only to what it complains of. -/
theorem Document.validate_eq_ok_iff {document : Document} {configuration : Configuration} :
    document.validate = .ok configuration ↔ document.Describes configuration := by
  constructor
  · intro valid
    unfold validate at valid
    split at valid
    · cases valid
    rename_i version
    split at valid
    · cases valid
    rename_i kind named
    split at valid
    · cases valid
    rename_i noneBelow
    dsimp only at valid
    split at valid
    · cases valid
    rename_i one
    split at valid
    · cases valid
    rename_i sizing size
    cases valid
    exact ⟨Decidable.not_not.mp version, StoreKind.named_eq_ok_iff.mp named,
      fun size member => by simpa using List.find?_eq_none.mp noneBelow size member,
      Decidable.not_not.mp one, size, rfl⟩
  · rintro ⟨version, kind, notBelow, one, size, interval⟩
    have noneBelow : (document.sizes.find? fun size => decide (size.2 < unset)) = none :=
      List.find?_eq_none.mpr fun size member => by simpa using notBelow size member
    simp [validate, version, StoreKind.named_eq_ok_iff.mpr kind, noneBelow, one, size, interval]

/-- The document of a configuration stands for it, but for the size that is cut down.  Nothing is
assumed of the configuration; that it gives a budget is not asked either. -/
theorem validate_document (configuration : Configuration) :
    configuration.document.validate = .ok configuration.clamped := by
  rcases configuration with ⟨kind, sizing, interval⟩
  cases sizing with
  | ratio percent =>
      have value := toInt_ratio percent
      have high := percent.toNat_lt
      have used := used_of_nonneg (value ▸ Int.natCast_nonneg percent.toNat)
      refine Document.validate_eq_ok_iff.mpr ⟨rfl, rfl, ?_, ?_, ?_, rfl⟩
      · simp [document, Document.sizes, used.1]
      · simp [document, Document.sizes, used.2]
      · have small : (percent.toNat : Int) < 0x100000000 := by omega
        simp [document, Document.sizing, used.2, value, small, clamped, SizingRule.clamped]
  | fixed mebibytes =>
      have used := used_of_nonneg (storedSize_nonneg mebibytes)
      refine Document.validate_eq_ok_iff.mpr ⟨rfl, rfl, ?_, ?_, ?_, rfl⟩
      · simp [document, Document.sizes, used.1]
      · simp [document, Document.sizes, used.2]
      · simp [document, Document.sizing, used.2, clamped, SizingRule.clamped, toUInt64_storedSize]
  | reserved mebibytes =>
      have used := used_of_nonneg (storedSize_nonneg mebibytes)
      refine Document.validate_eq_ok_iff.mpr ⟨rfl, rfl, ?_, ?_, ?_, rfl⟩
      · simp [document, Document.sizes, used.1]
      · simp [document, Document.sizes, used.2]
      · simp [document, Document.sizing, clamped, SizingRule.clamped, toUInt64_storedSize]

/-- A configuration is read back from its text, but for the size that is cut down. -/
theorem ofText_text (configuration : Configuration) :
    ofText configuration.text = .ok configuration.clamped := by
  rw [ofText, text, Document.ofText_text]
  exact validate_document configuration

/-! ## Once read, kept as it is -/

theorem Document.one_in_use {document : Document}
    (one : (document.sizes.filter fun size => size.2 != unset).length = 1) :
    (document.ratio ≠ unset ∧ document.fixed = unset ∧ document.reserved = unset) ∨
      (document.ratio = unset ∧ document.fixed ≠ unset ∧ document.reserved = unset) ∨
      (document.ratio = unset ∧ document.fixed = unset ∧ document.reserved ≠ unset) := by
  by_cases ratio : document.ratio = unset <;> by_cases fixed : document.fixed = unset <;>
    by_cases reserved : document.reserved = unset <;>
    simp [sizes, ratio, fixed, reserved] at one ⊢

/-- A document is the one document of what it describes.  So a configuration that is written again
gives the very text from which it was read, whatever layout that was in. -/
theorem Document.Describes.document_eq {document : Document} {configuration : Configuration}
    (describes : document.Describes configuration) : configuration.document = document := by
  rcases configuration with ⟨kind, rule, interval⟩
  rcases document with ⟨version, kindName, held, ratio, fixed, reserved⟩
  rcases describes with ⟨known, named, notBelow, one, size, same⟩
  dsimp only at known named same
  subst known named same
  have nonneg : ∀ field value, (field, value) ∈ [(Field.ratio, ratio), (.fixed, fixed),
      (.reserved, reserved)] → value ≠ unset → 0 ≤ value.toInt :=
    fun field value member used => nonneg_of_used (notBelow (field, value) member) used
  unfold Document.sizing at size
  dsimp only at size
  rcases one_in_use one with ⟨used, rfl, rfl⟩ | ⟨rfl, used, rfl⟩ | ⟨rfl, rfl, used⟩
  · rw [if_pos used] at size
    split at size <;> cases size
    rename_i small
    simp only [Configuration.document]
    rw [ofNat_ratio (nonneg .ratio ratio (by simp) used) small]
  · simp only [ne_eq, not_true_eq_false, if_false, if_pos used] at size
    cases size
    simp only [Configuration.document]
    rw [storedSize_toUInt64 (nonneg .fixed fixed (by simp) used)]
  · simp only [ne_eq, not_true_eq_false, if_false] at size
    cases size
    simp only [Configuration.document]
    rw [storedSize_toUInt64 (nonneg .reserved reserved (by simp) used)]

/-- A document describes only what a document holds. -/
theorem Document.Describes.clamped {document : Document} {configuration : Configuration}
    (describes : document.Describes configuration) :
    configuration.clamped = configuration := by
  have read := validate_document configuration
  rw [describes.document_eq, validate_eq_ok_iff.mpr describes] at read
  exact (Except.ok.inj read).symm

/-- What has been read is read back as it is once it is written again.  So a configuration loses
nothing more once it has been stored and read. -/
theorem clamped_of_ofText {text : String} {configuration : Configuration}
    (read : ofText text = .ok configuration) : configuration.clamped = configuration := by
  unfold ofText at read
  split at read
  · cases read
  · exact (Document.validate_eq_ok_iff.mp read).clamped

/-! ## Budgets -/

theorem exceeds_of_large {mebibytes : UInt64} (large : largestSize ≤ mebibytes) :
    2 ^ 64 ≤ mebibytes.toNat * 2 ^ 20 := by
  have beyond := UInt64.le_iff_toNat_le.mp large
  have size : largestSize.toNat = 2 ^ 63 - 1 := rfl
  omega

theorem not_affords_fixed {mebibytes : UInt64} (large : largestSize ≤ mebibytes)
    (memory : Memory) : ¬ (SizingRule.fixed mebibytes).Affords memory := by
  intro affords
  have exceeds := exceeds_of_large large
  have fits := affords.fits
  rw [SizingRule.exactBudget] at fits
  omega

theorem not_affords_reserved {mebibytes : UInt64} (large : largestSize ≤ mebibytes)
    (memory : Memory) : ¬ (SizingRule.reserved mebibytes).Affords memory := by
  intro affords
  have exceeds := exceeds_of_large large
  have most := memory.total.toNat_lt
  have positive := affords.positive
  rw [SizingRule.exactBudget] at positive
  omega

/-- The size that is cut down gives no budget, and neither does what is left of it.  This is so for
any amount of memory, for no machine can have as much as the largest size asks for. -/
theorem resolve_clamped (sizing : SizingRule) (memory : Memory) (budget : UInt64) :
    sizing.clamped.resolve memory = .ok budget ↔ sizing.resolve memory = .ok budget := by
  have kept : ∀ mebibytes, keptSize mebibytes = mebibytes ∨
      largestSize ≤ mebibytes ∧ keptSize mebibytes = largestSize := by
    intro mebibytes
    by_cases small : mebibytes ≤ largestSize
    · exact .inl (if_pos small)
    · exact .inr ⟨UInt64.le_of_lt (UInt64.not_le.mp small), if_neg small⟩
  cases sizing with
  | ratio percent => exact Iff.rfl
  | fixed mebibytes =>
      rw [SizingRule.clamped]
      rcases kept mebibytes with same | ⟨large, cut⟩
      · rw [same]
      · rw [cut, SizingRule.resolve_eq_ok_iff, SizingRule.resolve_eq_ok_iff]
        exact iff_of_false (fun resolved => not_affords_fixed (UInt64.le_refl _) memory resolved.1)
          fun resolved => not_affords_fixed large memory resolved.1
  | reserved mebibytes =>
      rw [SizingRule.clamped]
      rcases kept mebibytes with same | ⟨large, cut⟩
      · rw [same]
      · rw [cut, SizingRule.resolve_eq_ok_iff, SizingRule.resolve_eq_ok_iff]
        exact iff_of_false
          (fun resolved => not_affords_reserved (UInt64.le_refl _) memory resolved.1)
          fun resolved => not_affords_reserved large memory resolved.1

/-! ## The round trip -/

/-- Every configuration is read back from its text, but for a number of mebibytes that is cut down
to the largest that a document holds; and whatever the memory, what is read back gives a budget
exactly if the configuration does, and then the same. -/
theorem read_back_same_budget (configuration : Configuration) :
    ofText configuration.text = .ok configuration.clamped ∧
      ∀ (memory : Memory) (budget : UInt64),
        configuration.clamped.resolve memory = .ok budget ↔
          configuration.resolve memory = .ok budget :=
  ⟨ofText_text configuration, resolve_clamped configuration.sizing⟩

end Configuration
end VolumeCache
