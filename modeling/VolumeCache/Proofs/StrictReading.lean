import Mathlib.Data.List.Nodup
import VolumeCache.Proofs.Documents
import VolumeCache.Proofs.Layouts

namespace VolumeCache
namespace Configuration

/-!
# Documents in any layout

How a document is laid out is of no account: its fields may come in any order, those that are not
in use may be left out, names and texts may be spelled in any way, and blanks may stand anywhere
between the lexemes.  What is read is the document, and so the verdict on it is the same.  A reader
that is so lenient about the form is strict about the members: a name that no field has, a name
that comes twice, and the lack of a version or a kind are each refused, whatever values the members
have.
-/

/-! ## Fields as they are written -/

theorem Field.name_injective : Function.Injective Field.name := by
  intro field other
  cases field <;> cases other <;> decide

theorem Field.name_eq_of_ofName? {text : String} {field : Field}
    (known : Field.ofName? text = some field) : text = field.name := by
  have found : field.name = text := by simpa using List.find?_some known
  exact found.symm

namespace Document

/-- The spellings of the value of a field: a number has one, a text has many.  Only the kind is
given by a text. -/
def Spelling (document : Document) : Field → List Char → Prop
  | .kindName, value => Json.Spells value document.kindName
  | field, value => value = document.fieldValue field

/-- The field may be left out: it is one of those that need not be there, and it is not in use.  A
field that is not in use may be written all the same. -/
def MayOmit (document : Document) : Field → Prop
  | .version | .kindName => False
  | .interval => document.interval = unset
  | .ratio => document.ratio = unset
  | .fixed => document.fixed = unset
  | .reserved => document.reserved = unset

/-- The document is written as these fields in this order, each of them once.  Any order will do,
and fields that may be left out may be missing. -/
structure IsWrittenAs (document : Document) (fields : List Field)
    (written : Field → Json.Entry) : Prop where
  distinct : fields.Nodup
  absent : ∀ field, field ∉ fields → document.MayOmit field
  named : ∀ field ∈ fields, (written field).name = field.name
  valued : ∀ field ∈ fields, document.Spelling field (written field).value

theorem Spelling.readToken {document : Document} {field : Field} {value : List Char}
    (spelled : document.Spelling field value) {rest : List Char} (ends : Json.EndsNumeral rest) :
    Json.readToken (value ++ rest) = .ok (document.fieldToken field, rest) := by
  cases field with
  | kindName => exact Json.Spells.readToken spelled rest
  | version | interval | ratio | fixed | reserved =>
      cases spelled
      exact document.readToken_fieldValue _ ends

end Document

/-! ## Reading what is written -/

namespace Draft

/-- Once some fields have been read the draft holds their values and what it held of the others. -/
theorem foldl_fill (document : Document) (fields : List Field) (draft : Draft) :
    fields.foldl (fill document) draft =
      { version := if .version ∈ fields then some document.version else draft.version
        kindName := if .kindName ∈ fields then some document.kindName else draft.kindName
        interval := if .interval ∈ fields then some document.interval else draft.interval
        ratio := if .ratio ∈ fields then some document.ratio else draft.ratio
        fixed := if .fixed ∈ fields then some document.fixed else draft.fixed
        reserved := if .reserved ∈ fields then some document.reserved else draft.reserved } := by
  induction fields generalizing draft with
  | nil => simp
  | cons field later ih =>
      rw [List.foldl_cons, ih]
      cases field <;> simp [fill]

/-- A field that has not been read yet is read, and what follows it is left. -/
theorem readMember_written {document : Document} {draft : Draft} {field : Field}
    {entry : Json.Entry} (missing : draft.holds field = false) (named : entry.name = field.name)
    (valued : document.Spelling field entry.value) {later : List Json.Entry} {chars : List Char}
    (laid : Json.LaidOut ([':'] :: entry.value :: Json.memberLexemes false later) chars) :
    ∃ left, draft.readMember entry.name chars = .ok (draft.fill document field, left) ∧
      Json.LaidOut (Json.memberLexemes false later) left := by
  obtain ⟨behind, colon, laid⟩ := Json.readColon_of_laidOut laid
  obtain ⟨left, value, others⟩ := Json.readToken_of_laidOut laid
  have token := valued.readToken (Json.endsNumeral_memberLexemes others)
  refine ⟨left, ?_, others⟩
  simp only [readMember, named, Field.ofName?_name, missing, Bool.false_eq_true, if_false, colon,
    readValue, Json.readAs, value, token, put_fieldToken]

/-- Fields of a document are read one after the other, in whatever order they come. -/
theorem readMembers_written {document : Document} {fields : List Field}
    {written : Field → Json.Entry} {draft : Draft} (distinct : fields.Nodup)
    (missing : ∀ field ∈ fields, draft.holds field = false)
    (named : ∀ field ∈ fields, (written field).name = field.name)
    (valued : ∀ field ∈ fields, document.Spelling field (written field).value)
    {isFirst : Bool} {chars : List Char}
    (laid : Json.LaidOut (Json.memberLexemes isFirst (fields.map written)) chars)
    {rounds : Nat} (enough : fields.length < rounds) :
    ∃ left, Json.readMembers readMember rounds isFirst draft chars =
        .ok (fields.foldl (fill document) draft, left) ∧ Json.AllBlank left := by
  induction fields generalizing draft isFirst chars rounds with
  | nil =>
      obtain ⟨fewer, rfl⟩ : ∃ fewer, rounds = fewer + 1 := ⟨rounds - 1, by simp at enough; omega⟩
      obtain ⟨left, brace, blank⟩ := Json.readMemberName_end laid
      exact ⟨left, by simp only [Json.readMembers, brace]; rfl, blank⟩
  | cons field later ih =>
      obtain ⟨fewer, rfl⟩ : ∃ fewer, rounds = fewer + 1 := ⟨rounds - 1, by simp at enough; omega⟩
      rw [List.nodup_cons] at distinct
      simp only [List.mem_cons, forall_eq_or_imp] at missing named valued
      obtain ⟨behind, name, laid⟩ := Json.readMemberName_entry laid
      obtain ⟨rest, member, laid⟩ := readMember_written missing.1 named.1 valued.1 laid
      -- The fields still to come are missing from the next draft, too, since none comes twice.
      have others : ∀ other ∈ later, (draft.fill document field).holds other = false := by
        intro other among
        have different : other ≠ field := fun same => distinct.1 (same ▸ among)
        rw [holds_fill, missing.2 other among]
        simpa using different
      obtain ⟨left, members, blank⟩ := ih distinct.2 others named.2 valued.2 laid
        (by simp at enough; omega : later.length < fewer)
      exact ⟨left, by simp only [Json.readMembers, name, member, members, List.foldl_cons], blank⟩

end Draft

namespace Document

variable {document : Document} {fields : List Field} {written : Field → Json.Entry}

theorem IsWrittenAs.complete (writes : document.IsWrittenAs fields written) :
    (fields.foldl (Draft.fill document) {}).complete = .ok document := by
  have required : ∀ field, ¬ document.MayOmit field → field ∈ fields := fun field needed =>
    Decidable.byContradiction fun missing => needed (writes.absent field missing)
  have optional : ∀ (field : Field) (value : Int64), (document.MayOmit field → value = unset) →
      (if field ∈ fields then some value else none).getD unset = value := by
    intro field value same
    split
    · rfl
    · rename_i missing
      exact (same (writes.absent field missing)).symm
  rw [Draft.foldl_fill, if_pos (required .version id), if_pos (required .kindName id)]
  simp only [Draft.complete, optional .interval _ id, optional .ratio _ id, optional .fixed _ id,
    optional .reserved _ id]

/-- A document is read from every layout of what it is written as.  That the document makes sense is
not asked here; it is judged afterwards. -/
theorem IsWrittenAs.ofText (writes : document.IsWrittenAs fields written) {text : String}
    (laid : Json.LaidOut (Json.objectLexemes (fields.map written)) text.toList) :
    ofText text = .ok document := by
  obtain ⟨behind, brace, laid⟩ := Json.readToken_brace laid
  have enough := laid.length_lt
  rw [List.length_map] at enough
  obtain ⟨left, members, blank⟩ := Draft.readMembers_written writes.distinct
    (fun field _ => by cases field <;> rfl : ∀ field ∈ fields, Draft.holds {} field = false)
    writes.named writes.valued laid enough
  rw [Document.ofText, readDraft, brace]
  simp only [members, writes.complete, Json.readEnd_of_allBlank blank]

end Document

/-! ## What is refused -/

namespace Draft

/-- No value of a field is given by a token that tells only a part of it.  So a list, an object or a
number with a point in the place of a field's value is refused at its first token. -/
theorem isExact_of_put {draft next : Draft} {field : Field} {token : Json.Token}
    (put : draft.put field token = .ok next) : token.IsExact := by
  cases token with
  | null | boolean | integer | text => trivial
  | float | sequence | map => cases field <;> cases put

theorem holds_of_put {draft next : Draft} {field : Field} {token : Json.Token}
    (put : draft.put field token = .ok next) (other : Field) :
    next.holds other = (other == field || draft.holds other) := by
  cases field with
  | version =>
      cases value : token.asWord32 <;> simp only [Draft.put, value, Except.map] at put <;> cases put
      cases other <;> rfl
  | kindName =>
      cases value : token.asText <;> simp only [Draft.put, value, Except.map] at put <;> cases put
      cases other <;> rfl
  | interval | ratio | fixed | reserved =>
      cases value : token.asInt64 <;> simp only [Draft.put, value, Except.map] at put <;> cases put
      cases other <;> rfl

/-- A member that is taken has the name of a field that was missing, and is taken as a whole. -/
theorem name_of_readMember {draft next : Draft} {entry : Json.Entry} {later : List Json.Entry}
    {chars left : List Char} (isValue : Json.IsValue entry.value)
    (laid : Json.LaidOut ([':'] :: entry.value :: Json.memberLexemes false later) chars)
    (read : draft.readMember entry.name chars = .ok (next, left)) :
    ∃ field : Field, entry.name = field.name ∧ draft.holds field = false ∧
      (∀ other, next.holds other = (other == field || draft.holds other)) ∧
      Json.LaidOut (Json.memberLexemes false later) left := by
  obtain ⟨behind, colon, laid⟩ := Json.readColon_of_laidOut laid
  obtain ⟨rest, value, others⟩ := Json.readToken_of_laidOut laid
  unfold readMember at read
  split at read
  · cases read
  rename_i field known
  split at read
  · cases read
  rename_i missing
  simp only [colon, readValue, Json.readAs, value] at read
  split at read
  · cases read
  rename_i token behind token_read
  split at read
  · cases read
  rename_i final put
  cases read
  -- A value of another type stops the reader; any other one is taken to its end.
  have whole := isValue.left_eq (Json.endsNumeral_memberLexemes others) token_read
    (isExact_of_put put)
  exact ⟨field, Field.name_eq_of_ofName? known, eq_false_of_ne_true missing,
    holds_of_put put, whole ▸ others⟩

/-- Members that are taken have the names of different fields, none of which was there before, and
only these are added. -/
theorem names_of_readMembers {entries : List Json.Entry}
    (values : ∀ entry ∈ entries, Json.IsValue entry.value) {draft final : Draft} {isFirst : Bool}
    {chars left : List Char} (laid : Json.LaidOut (Json.memberLexemes isFirst entries) chars)
    {rounds : Nat} (read : Json.readMembers readMember rounds isFirst draft chars =
      .ok (final, left)) :
    ∃ fields : List Field, entries.map Json.Entry.name = fields.map Field.name ∧ fields.Nodup ∧
      (∀ field ∈ fields, draft.holds field = false) ∧
      ∀ field, final.holds field = true → field ∈ fields ∨ draft.holds field = true := by
  induction entries generalizing draft isFirst chars rounds with
  | nil =>
      obtain ⟨rest, brace, _⟩ := Json.readMemberName_end laid
      cases rounds with
      | zero => cases read
      | succ rounds =>
          simp only [Json.readMembers, brace] at read
          cases read
          exact ⟨[], rfl, .nil, by simp, fun field held => .inr held⟩
  | cons entry later ih =>
      obtain ⟨behind, name, laid⟩ := Json.readMemberName_entry laid
      cases rounds with
      | zero => cases read
      | succ rounds =>
          simp only [Json.readMembers, name] at read
          split at read
          · cases read
          rename_i next rest member
          obtain ⟨field, named, missing, holds, laid⟩ :=
            name_of_readMember (values entry List.mem_cons_self) laid member
          obtain ⟨fields, names, distinct, fresh, added⟩ :=
            ih (fun other among => values other (List.mem_cons_of_mem _ among)) laid read
          -- What the next draft lacks the draft lacked, and it is not the field just read.
          have apart : ∀ other ∈ fields, other ≠ field ∧ draft.holds other = false := by
            intro other among
            simpa [holds] using fresh other among
          refine ⟨field :: fields, by simp [named, names], ?_, ?_, ?_⟩
          · exact List.nodup_cons.mpr ⟨fun among => (apart field among).1 rfl, distinct⟩
          · rintro other (_ | ⟨_, among⟩)
            · exact missing
            · exact (apart other among).2
          · intro other held
            rcases added other held with among | before
            · exact .inl (List.mem_cons_of_mem _ among)
            · rw [holds, Bool.or_eq_true, beq_iff_eq] at before
              rcases before with rfl | before
              · exact .inl List.mem_cons_self
              · exact .inr before

/-- A draft without a version or a kind is no document. -/
theorem holds_of_complete {draft : Draft} {document : Document}
    (complete : draft.complete = .ok document) :
    draft.holds .version = true ∧ draft.holds .kindName = true := by
  unfold Draft.complete at complete
  split at complete
  · cases complete
  · cases complete
  · rename_i version kindName
    simp [holds, version, kindName]

end Draft

/-- No document has members of these names: one of them is strange, or one comes twice, or one that
must be there is missing.  Nothing is asked of the values. -/
def Field.Unfit (names : List String) : Prop :=
  (∃ name ∈ names, name ∉ Field.all.map Field.name) ∨ ¬ names.Nodup ∨
    Field.version.name ∉ names ∨ Field.kindName.name ∉ names

/-- An object that is read as a document has the names of different fields, among them the two that
must be there. -/
theorem Document.fit_of_ofText {entries : List Json.Entry}
    (values : ∀ entry ∈ entries, Json.IsValue entry.value) {text : String}
    (laid : Json.LaidOut (Json.objectLexemes entries) text.toList) {document : Document}
    (read : Document.ofText text = .ok document) :
    ¬ Field.Unfit (entries.map Json.Entry.name) := by
  obtain ⟨behind, brace, laid⟩ := Json.readToken_brace laid
  rw [Document.ofText, readDraft, brace] at read
  simp only at read
  split at read
  · cases read
  rename_i final rest members
  split at read
  · cases read
  rename_i whole complete
  obtain ⟨fields, names, distinct, fresh, added⟩ := Draft.names_of_readMembers values laid members
  have required := Draft.holds_of_complete complete
  have among : ∀ field, final.holds field = true → field.name ∈ fields.map Field.name := by
    intro field held
    refine List.mem_map_of_mem ((added field held).resolve_right ?_)
    cases field <;> exact Bool.false_ne_true
  rw [names]
  rintro (⟨name, member, strange⟩ | twice | version | kindName)
  · obtain ⟨field, _, rfl⟩ := List.mem_map.mp member
    exact strange (List.mem_map_of_mem (by cases field <;> decide))
  · exact twice (distinct.map Field.name_injective)
  · exact version (among _ required.1)
  · exact kindName (among _ required.2)

/-! ## The verdict -/

/-- Whatever the layout of an object, it is judged as the document that it is written as, and it is
refused if its names are unfit, whatever its values are.  The layout comprises the order of the
fields, blanks, the spellings of names and texts, and which of the fields not in use are left out.
-/
theorem same_verdict_in_any_layout (text : String) :
    (∀ (document : Document) (fields : List Field) (written : Field → Json.Entry),
      document.IsWrittenAs fields written →
      Json.LaidOut (Json.objectLexemes (fields.map written)) text.toList →
        ofText text = document.validate) ∧
    ∀ entries : List Json.Entry, (∀ entry ∈ entries, Json.IsValue entry.value) →
      Field.Unfit (entries.map Json.Entry.name) →
      Json.LaidOut (Json.objectLexemes entries) text.toList →
        ∃ fault, ofText text = .error (.malformed fault) := by
  constructor
  · intro document fields written writes laid
    rw [ofText, writes.ofText laid]
  · intro entries values unfit laid
    cases read : Document.ofText text with
    | error fault => exact ⟨fault, by rw [ofText, read]⟩
    | ok document => exact absurd unfit (Document.fit_of_ofText values laid read)

def forty : Document where
  version := schemaVersion
  kindName := StoreKind.simple.name
  interval := unset
  ratio := 40
  fixed := unset
  reserved := unset

/-- The fields of that document, one of them with an escape in its name. -/
def scattered : Field → Json.Entry
  | .version =>
      { name := Field.version.name
        label := "\"vers\\u0069on\"".toList
        spelled := Json.spells_of_readText rfl
        value := forty.fieldValue .version }
  | field =>
      { name := field.name
        label := Json.encode field.name
        spelled := Json.spells_encode field.name
        value := forty.fieldValue field }

def scatteredText : String :=
  "\x7b \"cache_type\"\t:\n\"SimpleBounded\" ,\"mem_ratio_pc\":\r40, \"vers\\u0069on\" : 1 \x7d\n"

/-- One more value for a field that is there already, and one of another type. -/
def repeated : Json.Entry :=
  { scattered .ratio with value := "[null]".toList }

def repeatedText : String :=
  "\x7b\"cache_type\":\"SimpleBounded\",\"mem_ratio_pc\":40,\"vers\\u0069on\":1,"
    ++ "\"mem_ratio_pc\": [null]\x7d"

theorem same_verdict_in_any_layout_scattered :
    ofText scatteredText = .ok { kind := .simple, sizing := .ratio 40 } ∧
      ∃ fault, ofText repeatedText = .error (.malformed fault) := by
  let fields : List Field := [.kindName, .ratio, .version]
  have plain : Json.Spells (forty.fieldValue .kindName) forty.kindName := Json.spells_encode _
  constructor
  · have writes : forty.IsWrittenAs fields scattered :=
      { distinct := by decide
        absent := by
          intro field missing
          cases field <;> first | rfl | exact absurd missing (by decide)
        named := by decide
        valued := by simpa [fields] using ⟨plain, rfl, rfl⟩ }
    exact (same_verdict_in_any_layout scatteredText).1 forty fields scattered writes
      (by decide +kernel)
  · have values : ∀ entry ∈ fields.map scattered ++ [repeated], Json.IsValue entry.value := by
      simp only [fields, List.map_cons, List.map_nil, List.cons_append, List.nil_append,
        List.forall_mem_cons]
      exact ⟨.text plain, .integer false 40, .integer false 1, .bracket (by decide) _, by simp⟩
    have unfit : Field.Unfit ((fields.map scattered ++ [repeated]).map Json.Entry.name) :=
      .inr (.inl (by decide))
    exact (same_verdict_in_any_layout repeatedText).2 _ values unfit (by decide +kernel)

end Configuration
end VolumeCache
