import Conformance.Json.Printer
import Conformance.Json.Reader
import Conformance.Proofs.Hash.Digits
import Conformance.Proofs.Json.Numerals

/-!
# Stored documents are read back

The stored form of a document is read as that document: texts, whatever characters they have,
integers that have not too many digits, numbers that are read back themselves, and lists and
objects of them. The reader's bound on nesting and parts is met by the length of the text.
-/

namespace Conformance.Json

/-- White space at the start of a text is skipped. -/
theorem skipSpace_lineBreak (depth : Nat) (text : List Char) :
    skipSpace (lineBreak depth ++ text) = skipSpace text := by
  have blanks (count : Nat) :
      skipSpace (List.replicate count ' ' ++ text) = skipSpace text := by
    induction count with
    | zero => rfl
    | succ count inductionHypothesis =>
      rw [List.replicate_succ, List.cons_append]
      exact inductionHypothesis
  exact blanks (2 * depth)

/-- A text that begins with anything else is left as it is. -/
theorem skipSpace_cons (c : Char) (text : List Char) (solid : isSpace c = false) :
    skipSpace (c :: text) = c :: text := by
  simp [skipSpace, solid]

/-- A hexadecimal digit is read back. -/
theorem hexValue_lowerHexDigit (value : Nat) (small : value < 16) :
    hexValue? (Text.lowerHexDigit value) = some value := by
  have all : ∀ digit, digit < 16 → hexValue? (Text.lowerHexDigit digit) = some digit := by decide
  exact all value small

/-- The digits of a unit are read back. -/
theorem unit_hexDigits (unit : Nat) (rest : List Char) (small : unit < 0x10000) :
    unit? (Text.hexDigits 4 unit ++ rest) = some (unit, rest) := by
  have digits : Text.hexDigits 4 unit ++ rest =
      Text.lowerHexDigit (unit / 16 / 16 / 16 % 16) :: Text.lowerHexDigit (unit / 16 / 16 % 16) ::
        Text.lowerHexDigit (unit / 16 % 16) :: Text.lowerHexDigit (unit % 16) :: rest := rfl
  have whole : ((unit / 16 / 16 / 16 % 16 * 16 + unit / 16 / 16 % 16) * 16 + unit / 16 % 16) * 16 +
      unit % 16 = unit := by omega
  rw [digits, unit?, hexValue_lowerHexDigit _ (by omega), hexValue_lowerHexDigit _ (by omega),
    hexValue_lowerHexDigit _ (by omega), hexValue_lowerHexDigit _ (by omega)]
  simp [whole]

/-- A character that is one unit is read back. -/
theorem escapedUnits_single (c : Char) (rest : List Char) (small : c.toNat < 0x10000) :
    escapedUnits? (Text.hexDigits 4 c.toNat ++ rest) = some (c, rest) := by
  have scalar : c.toNat < 0xD800 ∨ 0xDFFF < c.toNat ∧ c.toNat < 0x110000 := c.valid
  rw [escapedUnits?, unit_hexDigits _ _ small]
  simp only
  rw [if_neg (by omega), if_neg (by omega), Char.ofNat_toNat]

/-- A leading and a trailing surrogate are read as one character. -/
theorem escapedUnits_surrogates (lead trail : Nat) (rest : List Char) (first : 0xD800 ≤ lead)
    (middle : lead < 0xDC00) (second : 0xDC00 ≤ trail) (last : trail < 0xE000) :
    escapedUnits? (Text.hexDigits 4 lead ++ unitEscape trail ++ rest) =
      some (Char.ofNat (0x10000 + (lead - 0xD800) * 0x400 + (trail - 0xDC00)), rest) := by
  rw [escapedUnits?, List.append_assoc, unit_hexDigits lead _ (by omega)]
  simp only [unitEscape, List.cons_append]
  rw [if_pos ⟨first, middle⟩, unit_hexDigits trail _ (by omega)]
  simp only
  rw [if_pos ⟨second, last⟩]

/-- A character that takes two units is read back. -/
theorem escapedUnits_pair (c : Char) (rest : List Char) (wide : 0x10000 ≤ c.toNat) :
    escapedUnits? (Text.hexDigits 4 (0xD800 + (c.toNat - 0x10000) / 0x400) ++
        unitEscape (0xDC00 + (c.toNat - 0x10000) % 0x400) ++ rest) = some (c, rest) := by
  have scalar : c.toNat < 0xD800 ∨ 0xDFFF < c.toNat ∧ c.toNat < 0x110000 := c.valid
  have whole : 0x10000 + (0xD800 + (c.toNat - 0x10000) / 0x400 - 0xD800) * 0x400 +
      (0xDC00 + (c.toNat - 0x10000) % 0x400 - 0xDC00) = c.toNat := by
    rw [Nat.add_sub_cancel_left, Nat.add_sub_cancel_left]
    omega
  rw [escapedUnits_surrogates _ _ _ (Nat.le_add_right _ _) (by omega) (Nat.le_add_right _ _)
    (by omega), whole, Char.ofNat_toNat]

/-- An escape by units is read as its character. -/
theorem quotedRest_units (fuel : Nat) (c : Char) (units more : List Char)
    (read : escapedUnits? (units ++ more) = some (c, more)) :
    quotedRest? (fuel + 1) ('\\' :: 'u' :: units ++ more) =
      (quotedRest? fuel more).map fun found => (c :: found.1, found.2) := by
  simp only [List.cons_append, quotedRest?, read]
  cases behind : quotedRest? fuel more <;> simp [behind]

/-- A written character is read back inside quotes. The cases are the ways to write it. -/
theorem quotedRest_escapeChar (fuel : Nat) (c : Char) (more : List Char) :
    quotedRest? (fuel + 1) (escapeChar c ++ more) =
      (quotedRest? fuel more).map fun found => (c :: found.1, found.2) := by
  have simple (letter : Char) (other : letter ≠ 'u') (known : simpleEscape? letter = some c) :
      quotedRest? (fuel + 1) ('\\' :: letter :: more) =
        (quotedRest? fuel more).map fun found => (c :: found.1, found.2) := by
    rw [quotedRest?]
    · rw [known]
      cases quotedRest? fuel more <;> simp
    · exact other
  unfold escapeChar
  split
  · next quote => exact simple '"' (by decide) (by simp [simpleEscape?, quote])
  split
  · next stroke => exact simple '\\' (by decide) (by simp [simpleEscape?, stroke])
  split
  · next feed => exact simple 'n' (by decide) (by simp [simpleEscape?, feed])
  split
  · next ret => exact simple 'r' (by decide) (by simp [simpleEscape?, ret])
  split
  · next tab => exact simple 't' (by decide) (by simp [simpleEscape?, tab])
  split
  · next back => exact simple 'b' (by decide) (by simp [simpleEscape?, back])
  split
  · next form => exact simple 'f' (by decide) (by simp [simpleEscape?, form])
  next quote stroke _ _ _ _ _ =>
  split
  · next shown =>
    have plain : ¬ (c.toNat < 32 ∨ c = '\\') := by
      rintro (control | same)
      · omega
      · exact stroke same
    rw [List.singleton_append, quotedRest?, if_neg plain]
    · exact quote
    · exact fun _ same _ => stroke same
    · exact fun _ _ same _ => stroke same
  split
  · next small =>
    exact quotedRest_units fuel c _ more (escapedUnits_single c more small)
  · next wide =>
    exact quotedRest_units fuel c _ more (escapedUnits_pair c more (by omega))

/-- A written text is read back up to its closing quote. -/
theorem quotedRest_escaped (text more : List Char) (fuel : Nat) (enough : text.length < fuel) :
    quotedRest? fuel (text.flatMap escapeChar ++ '"' :: more) = some (text, more) := by
  induction text generalizing fuel with
  | nil =>
    cases fuel with
    | zero => simp at enough
    | succ fuel => rfl
  | cons c text inductionHypothesis =>
    cases fuel with
    | zero => simp at enough
    | succ fuel =>
      rw [List.flatMap_cons, List.append_assoc, quotedRest_escapeChar,
        inductionHypothesis fuel (by simpa using enough)]
      rfl

/-- Writing a text inside quotes does not make it shorter. -/
theorem length_le_escaped (text : List Char) :
    text.length ≤ (text.flatMap escapeChar).length := by
  induction text with
  | nil => exact Nat.le_refl 0
  | cons c text inductionHypothesis =>
    have some : 0 < (escapeChar c).length := by
      unfold escapeChar
      repeat' split
      all_goals simp [unitEscape]
    rw [List.flatMap_cons, List.length_append, List.length_cons]
    omega

mutual

/-- A document whose numbers can be read back, in which no object has two fields of one name, and
whose lists and objects are not nested deeper than there is room. -/
def Storable : Json → Nat → Prop
  | .null, _ => True
  | .bool _, _ => True
  | .integer value, _ => (Number.digits value.natAbs).length ≤ Number.integerTextLimit
  | .number value, _ => ReadBack value
  | .string _, _ => True
  | .array _, 0 => False
  | .array items, room + 1 => StorableItems items room
  | .object _, 0 => False
  | .object fields, room + 1 => (fields.map Prod.fst).Nodup ∧ StorableFields fields room

/-- Items that can be read back. -/
def StorableItems : List Json → Nat → Prop
  | [], _ => True
  | item :: items, room => item.Storable room ∧ StorableItems items room

/-- Fields that can be read back. -/
def StorableFields : List (String × Json) → Nat → Prop
  | [], _ => True
  | (_, value) :: fields, room => value.Storable room ∧ StorableFields fields room

end

variable {room : Nat}

/-- It is enough to look at the items one by one. -/
theorem storableItems_of_forall (items : List Json) (storable : ∀ item ∈ items, item.Storable room) :
    StorableItems items room := by
  induction items with
  | nil => trivial
  | cons item items inductionHypothesis =>
    obtain ⟨first, others⟩ := List.forall_mem_cons.mp storable
    exact ⟨first, inductionHypothesis others⟩

/-- It is enough to look at the fields one by one. -/
theorem storableFields_of_forall (fields : List (String × Json))
    (storable : ∀ field ∈ fields, field.2.Storable room) : StorableFields fields room := by
  induction fields with
  | nil => trivial
  | cons field fields inductionHypothesis =>
    obtain ⟨first, others⟩ := List.forall_mem_cons.mp storable
    exact ⟨first, inductionHypothesis others⟩

mutual

/-- No integer of what can be read back is too long to be written. -/
theorem unwritable_of_storable : ∀ (document : Json) (room : Nat), document.Storable room →
    ∀ value ∈ document.integers, Number.unwritable? value = none
  | .null, _, _ => by simp [integers]
  | .bool _, _, _ => by simp [integers]
  | .integer value, _, fits => by
    have short : (Number.digits value.natAbs).length ≤ Number.integerTextLimit := fits
    simpa [integers, Number.unwritable?] using short
  | .number _, _, _ => by simp [integers]
  | .string _, _, _ => by simp [integers]
  | .array items, room + 1, storable => by
    simpa only [integers] using unwritable_of_storableItems items room storable
  | .object fields, room + 1, storable => by
    simpa only [integers] using unwritable_of_storableFields fields room storable.2

/-- No integer of items that can be read back is too long. -/
theorem unwritable_of_storableItems : ∀ (items : List Json) (room : Nat), StorableItems items room →
    ∀ value ∈ itemIntegers items, Number.unwritable? value = none
  | [], _, _ => by simp [itemIntegers]
  | item :: items, room, ⟨first, others⟩ => by
    rw [itemIntegers]
    exact List.forall_mem_append.mpr
      ⟨unwritable_of_storable item room first, unwritable_of_storableItems items room others⟩

/-- No integer of fields that can be read back is too long. -/
theorem unwritable_of_storableFields : ∀ (fields : List (String × Json)) (room : Nat),
    StorableFields fields room → ∀ value ∈ fieldIntegers fields, Number.unwritable? value = none
  | [], _, _ => by simp [fieldIntegers]
  | (_, content) :: fields, room, ⟨first, others⟩ => by
    rw [fieldIntegers]
    exact List.forall_mem_append.mpr
      ⟨unwritable_of_storable content room first, unwritable_of_storableFields fields room others⟩

end

/-- What can be read back can be written. -/
theorem Storable.writable {document : Json} (storable : document.Storable room) :
    document.unwritable? = none :=
  List.findSome?_eq_none_iff.mpr (unwritable_of_storable document room storable)

/-- A number begins with a character that is neither white space nor the end of a list. -/
theorem numeral_head {text : List Char} (filled : text ≠ []) (numeral : ∀ c ∈ text, IsNumeral c) :
    ∃ c rest, text = c :: rest ∧ isSpace c = false ∧ c ≠ ']' := by
  obtain ⟨c, rest, rfl⟩ := List.exists_cons_of_ne_nil filled
  have first := numeral c List.mem_cons_self
  refine ⟨c, rest, rfl, first.solid, ?_⟩
  rintro rfl
  exact absurd first (by unfold IsNumeral; decide)

/-- A written value begins with a character that is neither white space nor the end of a
list or an object. -/
theorem pretty_head (value : Json) (storable : value.Storable room) (depth : Nat) :
    ∃ c rest, value.pretty depth = c :: rest ∧ isSpace c = false ∧ c ≠ ']' := by
  cases value with
  | null => exact ⟨'n', "ull".toList, rfl, rfl, by decide⟩
  | bool value =>
    cases value with
    | false => exact ⟨'f', "alse".toList, rfl, rfl, by decide⟩
    | true => exact ⟨'t', "rue".toList, rfl, rfl, by decide⟩
  | integer value =>
    exact numeral_head (integerText_ne_nil value) (isNumeral_of_mem_integerText value)
  | number value => exact numeral_head (ReadBack.filled storable) (ReadBack.numeral storable)
  | string value => exact ⟨'"', _, rfl, rfl, by decide⟩
  | array items => cases items <;> exact ⟨'[', _, rfl, rfl, by decide⟩
  | object fields => cases fields <;> exact ⟨'\x7b', _, rfl, rfl, by decide⟩

/-- White space in front of a written value is skipped, and none is left. -/
theorem skipSpace_pretty (value : Json) (storable : value.Storable room) (depth : Nat)
    (rest : List Char) :
    skipSpace (value.pretty depth ++ rest) = value.pretty depth ++ rest := by
  obtain ⟨c, more, written, solid, _⟩ := pretty_head value storable depth
  rw [written, List.cons_append, skipSpace_cons c _ solid]

/-- A comma says that there is more. -/
theorem separated_comma (close : Char) (depth : Nat) (text : List Char) :
    separated close (',' :: lineBreak depth ++ text) = .ok (true, skipSpace text) := by
  rw [separated, List.cons_append, skipSpace_cons ',' _ rfl]
  simp only [skipSpace_lineBreak]

/-- The closing bracket on a line of its own says that there is no more. -/
theorem separated_close (close : Char) (depth : Nat) (rest : List Char)
    (solid : isSpace close = false) (other : close ≠ ',') :
    separated close (lineBreak depth ++ close :: rest) = .ok (false, rest) := by
  rw [separated, skipSpace_lineBreak, skipSpace_cons close _ solid]
  split
  · next equal => exact absurd (List.cons.inj equal).1 other
  · next equal =>
    obtain ⟨rfl, rfl⟩ := List.cons.inj equal
    simp
  · next equal => cases equal

/-- A written text is read back, and the bound that the reader takes is enough. -/
theorem quotedRest_quoted (text more : List Char) :
    quotedRest? ((text.flatMap escapeChar ++ '"' :: more).length + 1)
        (text.flatMap escapeChar ++ '"' :: more) = some (text, more) := by
  apply quotedRest_escaped
  have shorter := length_le_escaped text
  rw [List.length_append]
  omega

/-- A written field name is read back with its colon. -/
theorem fieldName_quoted (name : String) (text : List Char) :
    fieldName (quoted name.toList ++ ':' :: ' ' :: text) = .ok (name, skipSpace text) := by
  have written : quoted name.toList ++ ':' :: ' ' :: text =
      '"' :: (name.toList.flatMap escapeChar ++ '"' :: ':' :: ' ' :: text) := by
    simp [quoted]
  rw [written]
  simp only [fieldName]
  rw [quotedRest_quoted]
  simp only [skipSpace_cons ':' (' ' :: text) rfl, String.ofList_toList]
  rfl

/-- A field with a new name goes to the end. -/
theorem setField_new (name : String) (value : Json) (fields : List (String × Json))
    (new : name ∉ fields.map Prod.fst) :
    setField name value fields = fields ++ [(name, value)] := by
  induction fields with
  | nil => rfl
  | cons field fields inductionHypothesis =>
    simp only [List.map_cons, List.mem_cons, not_or] at new
    rw [setField, if_neg (Ne.symm new.1), inductionHypothesis new.2, List.cons_append]

/-- A list that has an item is read from its first item on. -/
theorem value_array (fuel room : Nat) (c : Char) (text more : List Char)
    (skipped : skipSpace text = c :: more) (other : c ≠ ']') :
    Json.value (fuel + 1) (room + 1) ('[' :: text) =
      (items fuel room (c :: more)).map fun found => (.array found.1, found.2) := by
  simp only [Json.value, skipped]
  split
  · next equal => exact absurd (List.cons.inj equal).1 other
  · rfl

/-- An object that has a field is read from the name of its first field on. -/
theorem value_object (fuel room : Nat) (text more : List Char)
    (skipped : skipSpace text = '"' :: more) :
    Json.value (fuel + 1) (room + 1) ('\x7b' :: text) =
      (fields fuel room ('"' :: more) []).map fun found => (.object found.1, found.2) := by
  simp only [Json.value, skipped]
  rfl

/-- With a bound, written values are read back if they are not longer, whatever follows that does
not belong to a number. -/
def ReadsValues (fuel : Nat) : Prop :=
  ∀ (room : Nat) (document : Json) (depth : Nat) (rest : List Char), document.Storable room →
    Stops rest → (document.pretty depth).length ≤ fuel →
      Json.value fuel room (document.pretty depth ++ rest) = .ok (document, rest)

/-- With a bound, the written items of a list are read back if they are shorter. -/
def ReadsItems (fuel : Nat) : Prop :=
  ∀ (room : Nat) (item : Json) (items : List Json) (depth outer : Nat) (rest : List Char),
    item.Storable room → StorableItems items room →
    (item.pretty depth).length + (prettyItems depth items).length < fuel →
      Json.items fuel room (item.pretty depth ++ (prettyItems depth items ++
        (lineBreak outer ++ ']' :: rest))) = .ok (item :: items, rest)

/-- With a bound, the written fields of an object are read back behind those before, if
their contents are shorter. -/
def ReadsFields (fuel : Nat) : Prop :=
  ∀ (room : Nat) (name : String) (content : Json) (fields before : List (String × Json))
    (depth outer : Nat) (rest : List Char),
    (before.map Prod.fst ++ name :: fields.map Prod.fst).Nodup →
    content.Storable room → StorableFields fields room →
    (content.pretty depth).length + (prettyFields depth fields).length < fuel →
      Json.fields fuel room (quoted name.toList ++ ':' :: ' ' :: (content.pretty depth ++
        (prettyFields depth fields ++ (lineBreak outer ++ '\x7d' :: rest)))) before =
          .ok (before ++ (name, content) :: fields, rest)

/-- A value is read back if its items and fields are. -/
theorem readsValues_succ (fuel : Nat) (readsItems : ReadsItems fuel)
    (readsFields : ReadsFields fuel) : ReadsValues (fuel + 1) := by
  intro room document depth rest storable stops enough
  cases document with
  | null => rfl
  | bool value => cases value <;> rfl
  | integer value =>
    have fits : ¬ (Number.digits value.natAbs).length > Number.integerTextLimit :=
      Nat.not_lt.mpr storable
    rw [pretty, value_integerText stops, if_neg fits]
  | number value => exact value_numberText stops storable fuel room
  | string text =>
    have written : pretty depth (.string text) ++ rest =
        '"' :: (text.toList.flatMap escapeChar ++ '"' :: rest) := by
      simp [pretty, quoted]
    rw [written]
    simp only [Json.value]
    rw [quotedRest_quoted]
    simp [Json.text]
  | array items =>
    cases room with
    | zero => exact storable.elim
    | succ room =>
      cases items with
      | nil => rfl
      | cons item items =>
        have written : pretty depth (.array (item :: items)) ++ rest =
            '[' :: (lineBreak (depth + 1) ++ (item.pretty (depth + 1) ++
              (prettyItems (depth + 1) items ++ (lineBreak depth ++ ']' :: rest)))) := by
          simp [pretty]
        simp only [pretty, List.length_append, List.length_cons] at enough
        have read := readsItems room item items (depth + 1) depth rest storable.1 storable.2 (by omega)
        obtain ⟨first, behind, started, solid, other⟩ := pretty_head item storable.1 (depth + 1)
        rw [started, List.cons_append] at read
        rw [written, value_array fuel room first _ _ _ other, read]
        · rfl
        · rw [skipSpace_lineBreak, started, List.cons_append, skipSpace_cons first _ solid]
  | object fields =>
    cases room with
    | zero => exact storable.elim
    | succ room =>
      cases fields with
      | nil => rfl
      | cons field fields =>
        obtain ⟨name, content⟩ := field
        have written : pretty depth (.object ((name, content) :: fields)) ++ rest =
            '\x7b' :: (lineBreak (depth + 1) ++ (quoted name.toList ++ ':' :: ' ' ::
              (content.pretty (depth + 1) ++
                (prettyFields (depth + 1) fields ++ (lineBreak depth ++ '\x7d' :: rest))))) := by
          simp [pretty]
        simp only [pretty, List.length_append, List.length_cons] at enough
        have read := readsFields room name content fields [] (depth + 1) depth rest storable.1
          storable.2.1 storable.2.2 (by omega)
        rw [quoted, List.cons_append, List.cons_append] at read
        rw [written, quoted, List.cons_append, List.cons_append, value_object fuel room _ _ _, read]
        · rfl
        · rw [skipSpace_lineBreak]
          exact skipSpace_cons '"' _ rfl

/-- What stands behind an item stops a number. -/
theorem stops_prettyItems (depth : Nat) (items : List Json) (outer : Nat) (rest : List Char) :
    Stops (prettyItems depth items ++ (lineBreak outer ++ rest)) := by
  cases items with
  | nil => exact stops_lineBreak outer rest
  | cons item items => exact stops_comma _

/-- What stands behind a field stops a number. -/
theorem stops_prettyFields (depth : Nat) (fields : List (String × Json)) (outer : Nat)
    (rest : List Char) : Stops (prettyFields depth fields ++ (lineBreak outer ++ rest)) := by
  cases fields with
  | nil => exact stops_lineBreak outer rest
  | cons field fields => exact stops_comma _

/-- Items are read back if the first one and those behind it are. -/
theorem readsItems_succ (fuel : Nat) (readsValues : ReadsValues fuel)
    (readsItems : ReadsItems fuel) : ReadsItems (fuel + 1) := by
  intro room item items depth outer rest storable others enough
  rw [Json.items, readsValues room item depth _ storable (stops_prettyItems depth items outer _) (by omega)]
  simp only [bind, Except.bind]
  cases items with
  | nil =>
    rw [prettyItems, List.nil_append, separated_close ']' outer rest rfl (by decide)]
    rfl
  | cons next following =>
    have split : prettyItems depth (next :: following) ++ (lineBreak outer ++ ']' :: rest) =
        ',' :: lineBreak depth ++ (next.pretty depth ++ (prettyItems depth following ++
          (lineBreak outer ++ ']' :: rest))) := by
      simp [prettyItems]
    simp only [prettyItems, List.length_append, List.length_cons] at enough
    have read := readsItems room next following depth outer rest others.1 others.2 (by omega)
    rw [split, separated_comma, skipSpace_pretty next others.1]
    simp only [if_true, read]
    rfl

/-- Fields are read back if the content of the first one and those behind it are. -/
theorem readsFields_succ (fuel : Nat) (readsValues : ReadsValues fuel)
    (readsFields : ReadsFields fuel) : ReadsFields (fuel + 1) := by
  intro room name content fields before depth outer rest distinct storable others enough
  have new : name ∉ before.map Prod.fst := by
    intro member
    exact (List.nodup_append.mp distinct).2.2 name member name List.mem_cons_self rfl
  rw [Json.fields, fieldName_quoted]
  simp only [bind, Except.bind]
  rw [skipSpace_pretty content storable, readsValues room content depth _ storable
    (stops_prettyFields depth fields outer _) (by omega)]
  simp only
  rw [setField_new name content before new]
  cases fields with
  | nil =>
    rw [prettyFields, List.nil_append, separated_close '\x7d' outer rest rfl (by decide)]
    rfl
  | cons next following =>
    obtain ⟨second, inner⟩ := next
    have split : prettyFields depth ((second, inner) :: following) ++
        (lineBreak outer ++ '\x7d' :: rest) =
        ',' :: lineBreak depth ++ (quoted second.toList ++ ':' :: ' ' ::
          (inner.pretty depth ++ (prettyFields depth following ++
            (lineBreak outer ++ '\x7d' :: rest)))) := by
      simp [prettyFields]
    simp only [prettyFields, List.length_append, List.length_cons] at enough
    have read := readsFields room second inner following (before ++ [(name, content)]) depth outer
      rest (by simpa using distinct) others.1 others.2 (by omega)
    have skipped (text : List Char) : skipSpace (quoted second.toList ++ text) =
        quoted second.toList ++ text := skipSpace_cons '"' _ rfl
    rw [split, separated_comma, skipped]
    simp only [if_true, read, List.append_assoc, List.singleton_append]

/-- Written values are read back, with their items and fields. The induction is on the
reader's bound. -/
theorem reads (fuel : Nat) : ReadsValues fuel ∧ ReadsItems fuel ∧ ReadsFields fuel := by
  induction fuel with
  | zero =>
    refine ⟨?_, ?_, ?_⟩
    · intro room document depth rest storable _ enough
      obtain ⟨c, more, head, _⟩ := pretty_head document storable depth
      simp [head] at enough
    · intro room item items depth outer rest _ _ enough
      exact absurd enough (Nat.not_lt_zero _)
    · intro room name content fields before depth outer rest _ _ _ enough
      exact absurd enough (Nat.not_lt_zero _)
  | succ fuel inductionHypothesis =>
    obtain ⟨readsValues, readsItems, readsFields⟩ := inductionHypothesis
    exact ⟨readsValues_succ fuel readsItems readsFields,
      readsItems_succ fuel readsValues readsItems, readsFields_succ fuel readsValues readsFields⟩

/-- The stored form of a document is read back, whatever white space stands behind it. -/
theorem read_document_append (document : Json) (storable : document.Storable nestingLimit) (rest : List Char)
    (stops : Stops rest) (blank : skipSpace rest = []) :
    Json.read (document.document ++ rest) = .ok document := by
  have read := (reads ((document.document ++ rest).length + 1)).1 nestingLimit document 0 rest storable stops
    (by rw [List.length_append, Json.document]; omega)
  rw [read_eq_ok]
  refine ⟨rest, ?_, blank⟩
  rw [Json.document, skipSpace_pretty document storable 0 rest]
  exact read

/-- The stored form of a document is read back. -/
theorem read_document (document : Json) (storable : document.Storable nestingLimit) :
    Json.read document.document = .ok document := by
  have read := read_document_append document storable [] stops_nil rfl
  rwa [List.append_nil] at read

/-- An object is refused if the content of its first field is. -/
theorem value_object_refused (name : String) (content : Json) (fields : List (String × Json))
    (depth fuel room : Nat) (rest : List Char) (fault : Fault)
    (solid : ∀ rest, skipSpace (content.pretty (depth + 1) ++ rest) = content.pretty (depth + 1) ++ rest)
    (refused : ∀ rest, Stops rest →
      Json.value fuel room (content.pretty (depth + 1) ++ rest) = .error fault) :
    Json.value (fuel + 2) (room + 1) (pretty depth (.object ((name, content) :: fields)) ++ rest) =
      .error fault := by
  have written : pretty depth (.object ((name, content) :: fields)) ++ rest =
      '\x7b' :: (lineBreak (depth + 1) ++ (quoted name.toList ++ ':' :: ' ' ::
        (content.pretty (depth + 1) ++
          (prettyFields (depth + 1) fields ++ (lineBreak depth ++ '\x7d' :: rest))))) := by
    simp [pretty]
  have behind := refused _ (stops_prettyFields (depth + 1) fields depth ('\x7d' :: rest))
  have field : Json.fields (fuel + 1) room (quoted name.toList ++ ':' :: ' ' ::
      (content.pretty (depth + 1) ++
        (prettyFields (depth + 1) fields ++ (lineBreak depth ++ '\x7d' :: rest)))) [] =
          .error fault := by
    rw [Json.fields, fieldName_quoted, solid]
    simp only [bind, Except.bind, behind]
  rw [quoted, List.cons_append, List.cons_append] at field
  rw [written, quoted, List.cons_append, List.cons_append, value_object (fuel + 1) room _ _ _, field]
  · rfl
  · rw [skipSpace_lineBreak]
    exact skipSpace_cons '"' _ rfl

/-- A carriage return is never written as itself. -/
theorem return_not_mem_escapeChar (c : Char) : '\r' ∉ escapeChar c := by
  have digits (unit : Nat) : '\r' ∉ unitEscape unit := by
    intro member
    simp only [unitEscape, List.mem_cons] at member
    rcases member with equal | equal | member
    · exact absurd equal (by decide)
    · exact absurd equal (by decide)
    · exact absurd (Text.hexDigits_mem 4 unit _ member) (by decide)
  unfold escapeChar
  repeat' split
  all_goals simp_all [eq_comm]

/-- A text inside quotes has no carriage return. -/
theorem return_not_mem_quoted (text : List Char) : '\r' ∉ quoted text := by
  simp [quoted, return_not_mem_escapeChar]

/-- A number has no carriage return. -/
theorem return_not_mem_numeral {text : List Char} (numeral : ∀ c ∈ text, IsNumeral c) :
    '\r' ∉ text :=
  fun member => absurd (numeral '\r' member) (by unfold IsNumeral; decide)

/-- A break has no carriage return. -/
theorem return_not_mem_lineBreak (depth : Nat) : '\r' ∉ lineBreak depth := by
  simp [lineBreak]

/-- A binary number has no carriage return. -/
theorem return_not_mem_numberText (value : Number.Binary64) : '\r' ∉ numberText value := by
  cases value with
  | finite negative significand exponent =>
    exact return_not_mem_numeral (isNumeral_of_mem_numberText negative significand exponent)
  | infinite negative => cases negative <;> decide
  | undefined => decide

mutual

/-- The stored form of a document has no carriage return. -/
theorem return_not_mem_pretty : ∀ (document : Json) (depth : Nat), '\r' ∉ document.pretty depth
  | .null, _ => by simp [pretty]
  | .bool value, _ => by cases value <;> simp [pretty]
  | .integer value, _ => return_not_mem_numeral (isNumeral_of_mem_integerText value)
  | .number value, _ => return_not_mem_numberText value
  | .string text, _ => return_not_mem_quoted text.toList
  | .array [], _ => by simp [pretty]
  | .array (item :: items), depth => by
    have first := return_not_mem_pretty item (depth + 1)
    have others := return_not_mem_prettyItems items (depth + 1)
    simp [pretty, first, others, return_not_mem_lineBreak]
  | .object [], _ => by simp [pretty]
  | .object ((name, content) :: fields), depth => by
    have first := return_not_mem_pretty content (depth + 1)
    have others := return_not_mem_prettyFields fields (depth + 1)
    simp [pretty, first, others, return_not_mem_lineBreak, return_not_mem_quoted]

/-- Written items have no carriage return. -/
theorem return_not_mem_prettyItems : ∀ (items : List Json) (depth : Nat),
    '\r' ∉ prettyItems depth items
  | [], _ => by simp [prettyItems]
  | item :: items, depth => by
    have first := return_not_mem_pretty item depth
    have others := return_not_mem_prettyItems items depth
    simp [prettyItems, first, others, return_not_mem_lineBreak]

/-- Written fields have no carriage return. -/
theorem return_not_mem_prettyFields : ∀ (fields : List (String × Json)) (depth : Nat),
    '\r' ∉ prettyFields depth fields
  | [], _ => by simp [prettyFields]
  | (name, content) :: fields, depth => by
    have first := return_not_mem_pretty content depth
    have others := return_not_mem_prettyFields fields depth
    simp [prettyFields, first, others, return_not_mem_lineBreak, return_not_mem_quoted]

end

end Conformance.Json
