import Larder.Proofs.Snapshot.Reading
import Larder.Snapshot.Image

/-!
# Sequences of fields

Fields that follow one another are read back one after another, and what follows the last one is
left.  Where the bytes end inside a field, that field is missing its end, wherever the cut is: in
the length of a byte string or behind it, in the mark of a header or between mark and version.  So
the fields in front of the cut are read, the cut one is not, and none of its beginnings is taken for
another field.
-/

namespace Larder.Snapshot

section Cut

variable {first second part : Bytes}

/-- What begins two byte strings that follow one another ends in the first or in the second. -/
theorem prefix_append_cases (begins : part <+: first ++ second) :
    (part <+: first ∧ part.length < first.length) ∨
      ∃ later, part = first ++ later ∧ later <+: second := by
  rcases Nat.lt_or_ge part.length first.length with short | long
  · have inside := List.prefix_of_prefix_length_le begins (List.prefix_append first second)
      (Nat.le_of_lt short)
    exact .inl ⟨inside, short⟩
  · rcases List.prefix_of_prefix_length_le (List.prefix_append first second) begins long with
      ⟨later, rfl⟩
    exact .inr ⟨later, rfl, (List.prefix_append_right_inj first).mp begins⟩

theorem readExact_of_short {count : Nat} (short : part.length < count) :
    readExact count part = .error .unexpectedEnd := by
  rw [readExact]
  apply if_pos
  exact Nat.lt_of_le_of_lt (List.length_take_le' _ _) short

theorem readNumber_of_short {width : Nat} (short : part.length < width) :
    readNumber width part = .error .unexpectedEnd := by
  rw [readNumber, readExact_of_short short]
  rfl

theorem readBytes_of_short {content : Bytes} (fits : content.length ≤ maxFieldLength)
    (begins : part <+: (Field.bytes content).encode)
    (short : part.length < (Field.bytes content).encode.length) :
    readBytes part = .error .unexpectedEnd := by
  rw [Field.encode] at begins short
  rcases prefix_append_cases begins with ⟨_, inLength⟩ | ⟨later, rfl, _⟩
  · rw [length_littleEndian] at inLength
    rw [readBytes, readNumber_of_short inLength]
    rfl
  · have within : content.length < 256 ^ 4 := Nat.lt_of_le_of_lt fits (by decide)
    rw [List.length_append, List.length_append] at short
    rw [readBytes, readNumber_append within]
    simp only [bind, Except.bind, if_neg (Nat.not_lt.mpr fits)]
    exact readExact_of_short (by omega)

theorem readHeader_of_short (begins : part <+: Field.header.encode)
    (short : part.length < Field.header.encode.length) :
    readHeader part = .error .unexpectedEnd := by
  rw [Field.encode] at begins short
  rcases prefix_append_cases begins with ⟨_, inMark⟩ | ⟨later, rfl, _⟩
  · rw [readHeader, readExact_of_short inMark]
    rfl
  · rw [List.length_append, List.length_append, List.length_singleton] at short
    have none : readNumber 1 later = .error .unexpectedEnd := readNumber_of_short (by omega)
    simp only [readHeader, readExact_append rfl, bind, Except.bind, none,
      if_neg (Decidable.not_not.mpr rfl)]

end Cut

namespace Field

/-- A field that can be read back: byte strings may not be longer than what is read. -/
def Fits : Field → Prop
  | .bytes content => content.length ≤ maxFieldLength
  | .byte _ | .word32 _ | .word64 _ | .header => True

section One

variable {field : Field} {part : Bytes}

theorem read_append (fits : field.Fits) (rest : Bytes) :
    read field.kind (field.encode ++ rest) = .ok (field, rest) := by
  cases field with
  | byte number =>
      rw [kind, read, readNumber_byte]
      simp [Except.map]
  | word32 number =>
      rw [kind, read, encode, readNumber_append number.toNat_lt]
      simp [Except.map]
  | word64 number =>
      rw [kind, read, encode, readNumber_append number.toNat_lt]
      simp [Except.map]
  | bytes content =>
      rw [kind, read, readBytes_append fits]
      rfl
  | header =>
      rw [kind, read, readHeader_append]
      rfl

/-- A field that is cut is missing its end. -/
theorem read_of_cut (fits : field.Fits) (begins : part <+: field.encode)
    (short : part.length < field.encode.length) :
    read field.kind part = .error .unexpectedEnd := by
  cases field with
  | byte number =>
      have none : readNumber 1 part = .error .unexpectedEnd := readNumber_of_short short
      rw [kind, read, none]
      rfl
  | word32 number =>
      rw [encode, length_littleEndian] at short
      rw [kind, read, readNumber_of_short short]
      rfl
  | word64 number =>
      rw [encode, length_littleEndian] at short
      rw [kind, read, readNumber_of_short short]
      rfl
  | bytes content =>
      rw [kind, read, readBytes_of_short fits begins short]
      rfl
  | header =>
      rw [kind, read, readHeader_of_short begins short]
      rfl

end One

section Sequence

variable {fields : List Field} {part : Bytes}

/-- Reads fields of given kinds from the front, up to the first that cannot be read, and keeps what
follows the last one. -/
def readOn : List Kind → Bytes → List Field × Except Error Bytes
  | [], source => ([], .ok source)
  | kind :: kinds, source =>
    match read kind source with
    | .error error => ([], .error error)
    | .ok (field, rest) => (field :: (readOn kinds rest).1, (readOn kinds rest).2)

theorem readAll_eq (kinds : List Kind) (source : Bytes) :
    readAll kinds source = ((readOn kinds source).1,
      match (readOn kinds source).2 with
      | .ok _ => none
      | .error error => some error) := by
  induction kinds generalizing source with
  | nil => rfl
  | cons kind kinds ih =>
      rw [readAll, readOn]
      cases read kind source with
      | error error => rfl
      | ok found =>
          simp only [ih]

/-- Behind fields that fit, reading goes on with what follows them. -/
theorem readOn_append (fits : ∀ field ∈ fields, field.Fits) (kinds : List Kind) (rest : Bytes) :
    readOn (fields.map kind ++ kinds) (Image.encodeFields fields ++ rest) =
      (fields ++ (readOn kinds rest).1, (readOn kinds rest).2) := by
  induction fields with
  | nil => rfl
  | cons field fields ih =>
      rw [List.forall_mem_cons] at fits
      rw [Image.encodeFields, List.flatMap_cons, ← Image.encodeFields, List.append_assoc,
        List.map_cons, List.cons_append, readOn, read_append fits.1]
      simp only [ih fits.2, List.cons_append]

theorem readOn_encodeFields (fits : ∀ field ∈ fields, field.Fits) (rest : Bytes) :
    readOn (fields.map kind) (Image.encodeFields fields ++ rest) = (fields, .ok rest) := by
  have read := readOn_append fits [] rest
  rwa [List.append_nil, readOn, List.append_nil] at read

/-- Bytes that are cut off are some fields and the beginning of the next one. -/
theorem exists_cut (begins : part <+: Image.encodeFields fields)
    (proper : part ≠ Image.encodeFields fields) :
    ∃ whole field later cut, fields = whole ++ field :: later ∧
      part = Image.encodeFields whole ++ cut ∧ cut <+: field.encode ∧
      cut.length < field.encode.length := by
  induction fields generalizing part with
  | nil => exact absurd (List.prefix_nil.mp begins) proper
  | cons field fields ih =>
      rw [Image.encodeFields, List.flatMap_cons, ← Image.encodeFields] at begins proper
      rcases prefix_append_cases begins with ⟨inside, short⟩ | ⟨later, rfl, further⟩
      · exact ⟨[], field, fields, part, rfl, rfl, inside, short⟩
      · rcases ih further fun same => proper (same ▸ rfl) with
          ⟨whole, next, behind, cut, rfl, rfl, inside, short⟩
        refine ⟨field :: whole, next, behind, cut, rfl, ?_, inside, short⟩
        rw [Image.encodeFields, Image.encodeFields, List.flatMap_cons, List.append_assoc]

/-- Reading stops at the field that is cut. -/
theorem readOn_of_cut {whole : List Field} {field : Field} {cut : Bytes}
    (wholeFit : ∀ field ∈ whole, field.Fits) (fits : field.Fits) (inside : cut <+: field.encode)
    (short : cut.length < field.encode.length) (later : List Field) :
    readOn ((whole ++ field :: later).map kind) (Image.encodeFields whole ++ cut) =
      (whole, .error .unexpectedEnd) := by
  rw [List.map_append, List.map_cons, readOn_append wholeFit, readOn, read_of_cut fits inside short]
  simp only [List.append_nil]

/-- Fields of the same kinds are the same if the bytes of some begin with those of the others. -/
theorem eq_of_encodeFields_prefix {others : List Field} (fits : ∀ field ∈ fields, field.Fits)
    (othersFit : ∀ field ∈ others, field.Fits) (sameKinds : others.map kind = fields.map kind)
    (begins : Image.encodeFields fields <+: Image.encodeFields others) : fields = others := by
  rcases begins with ⟨rest, same⟩
  have first := readOn_encodeFields fits rest
  have second := readOn_encodeFields othersFit []
  rw [List.append_nil, sameKinds, ← same, first] at second
  exact (Prod.mk.inj second).1

end Sequence

/--
Fields that fit are read back from the bytes that they are written as, whatever follows, and exactly
this is left.  Where these bytes are cut off anywhere before their end, the fields that are complete
are read, and the next one is missing its end.  So of two sequences of fields of the same kinds,
neither begins with the other unless they are the same.
-/
theorem fields_read_back {fields : List Field} (fits : ∀ field ∈ fields, field.Fits) :
    (∀ rest, readOn (fields.map kind) (Image.encodeFields fields ++ rest) = (fields, .ok rest) ∧
      readAll (fields.map kind) (Image.encodeFields fields ++ rest) = (fields, none)) ∧
      (∀ part, part <+: Image.encodeFields fields → part ≠ Image.encodeFields fields →
        ∃ whole field later cut, fields = whole ++ field :: later ∧
          part = Image.encodeFields whole ++ cut ∧ cut <+: field.encode ∧
          cut.length < field.encode.length ∧
          readOn (fields.map kind) part = (whole, .error .unexpectedEnd) ∧
          readAll (fields.map kind) part = (whole, some .unexpectedEnd)) ∧
      ∀ others : List Field, (∀ field ∈ others, field.Fits) → others.map kind = fields.map kind →
        Image.encodeFields fields <+: Image.encodeFields others → fields = others := by
  refine ⟨fun rest => ?_, ?_, ?_⟩
  · have read := readOn_encodeFields fits rest
    exact ⟨read, by rw [readAll_eq, read]⟩
  · intro part begins proper
    rcases exists_cut begins proper with ⟨whole, field, later, cut, rfl, rfl, inside, short⟩
    rw [List.forall_mem_append, List.forall_mem_cons] at fits
    have read := readOn_of_cut fits.1 fits.2.1 inside short later
    exact ⟨whole, field, later, cut, rfl, rfl, inside, short, read, by rw [readAll_eq, read]⟩
  · intro others othersFit sameKinds begins
    exact eq_of_encodeFields_prefix fits othersFit sameKinds begins

/-- A byte string whose length is cut off is not taken for a shorter one. -/
theorem fields_read_back_to_cut_length :
    let fields : List Field := [.header, .byte 7, .bytes [0, 1], .word64 258]
    let part := (Image.encodeFields fields).take 8
    (∀ field ∈ fields, field.Fits) ∧
      readOn (fields.map kind) (Image.encodeFields fields ++ [9]) = (fields, .ok [9]) ∧
      part <+: Image.encodeFields fields ∧ part ≠ Image.encodeFields fields ∧
      part = Image.encodeFields [.header, .byte 7] ++ [2, 0] ∧
      readAll (fields.map kind) part = ([.header, .byte 7], some .unexpectedEnd) := by
  intro fields part
  have fits : ∀ field ∈ fields, field.Fits := by
    simp [fields, Fits, maxFieldLength]
  have begins : part <+: Image.encodeFields fields := List.take_prefix _ _
  have proper : part ≠ Image.encodeFields fields := by decide +kernel
  have cut : part = Image.encodeFields [.header, .byte 7] ++ [2, 0] := by decide +kernel
  rcases fields_read_back fits with ⟨all, stopped, _⟩
  rcases stopped part begins proper with ⟨whole, _, _, _, _, _, _, _, _, read⟩
  have two : (readAll (fields.map kind) part).1 = [.header, .byte 7] := by decide +kernel
  rw [read] at two
  obtain rfl : whole = [.header, .byte 7] := two
  exact ⟨fits, (all [9]).1, begins, proper, cut, read⟩

end Field

end Larder.Snapshot
