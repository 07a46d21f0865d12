import Conformance.Text.Lines
import Conformance.Text.Utf8

/-!
# Encoded texts

A text is read back from its bytes. The reading is followed character by character: the
first byte of an encoded character opens it with the bounds that the further bytes keep,
and the last one closes it with the value that was encoded.
-/

namespace Conformance.Text

/-- A small number is the value of its byte. -/
theorem toNat_byte (n : Nat) (small : n < 256) : (UInt8.ofNat n).toNat = n := by
  simp [Nat.mod_eq_of_lt small]

/-- A byte below 128 is a character of its own. -/
theorem decodeFrom_single (position n : Nat) (rest : List UInt8) (small : n < 0x80) :
    decodeFrom ⟨none, position⟩ (UInt8.ofNat n :: rest) =
      (decodeFrom ⟨none, position + 1⟩ rest).map (Char.ofNat n :: ·) := by
  have value := toNat_byte n (by omega)
  have bounds : continuationBounds? (UInt8.ofNat n) = some [] := by
    simp [continuationBounds?, value, small]
  have leading : leadingBits (UInt8.ofNat n) = n := by
    simp [leadingBits, value, small]
  simp [decodeFrom, bounds, leading]

/-- A byte with bounds for further ones opens a character. -/
theorem decodeFrom_open (position : Nat) (byte : UInt8) (rest : List UInt8)
    (bound : Nat × Nat) (due : List (Nat × Nat))
    (bounds : continuationBounds? byte = some (bound :: due)) :
    decodeFrom ⟨none, position⟩ (byte :: rest) =
      decodeFrom ⟨some (byte, position, leadingBits byte, 1, bound :: due), position + 1⟩ rest := by
  simp [decodeFrom, bounds]

/-- A byte within its bounds continues a character that has further bytes due. -/
theorem decodeFrom_continue (position start value width n low high : Nat) (first : UInt8)
    (rest : List UInt8) (bound : Nat × Nat) (due : List (Nat × Nat)) (small : n < 256)
    (above : low ≤ n) (below : n ≤ high) :
    decodeFrom ⟨some (first, start, value, width, (low, high) :: bound :: due), position⟩
        (UInt8.ofNat n :: rest) =
      decodeFrom ⟨some (first, start, value * 0x40 + n % 0x40, width + 1, bound :: due),
        position + 1⟩ rest := by
  simp [decodeFrom, continues, toNat_byte n small, above, below, -UInt8.toNat_ofNat']

/-- The last byte that is due closes a character. -/
theorem decodeFrom_close (position start value width n low high : Nat) (first : UInt8)
    (rest : List UInt8) (small : n < 256) (above : low ≤ n) (below : n ≤ high) :
    decodeFrom ⟨some (first, start, value, width, [(low, high)]), position⟩
        (UInt8.ofNat n :: rest) =
      (decodeFrom ⟨none, position + 1⟩ rest).map (Char.ofNat (value * 0x40 + n % 0x40) :: ·) := by
  simp [decodeFrom, continues, toNat_byte n small, above, below, -UInt8.toNat_ofNat']

/-- The first of two bytes. -/
theorem bounds_two (code : Nat) (wide : 0x80 ≤ code) (small : code < 0x800) :
    continuationBounds? (UInt8.ofNat (0xC0 + code / 0x40)) = some [(0x80, 0xBF)] ∧
      leadingBits (UInt8.ofNat (0xC0 + code / 0x40)) = code / 0x40 := by
  have value := toNat_byte (0xC0 + code / 0x40) (by omega)
  unfold continuationBounds? leadingBits
  simp only [value]
  constructor
  · rw [if_neg (by omega), if_neg (by omega), if_pos (by omega)]
  · rw [if_neg (by omega), if_pos (by omega)]
    omega

/-- The first of three bytes. The bounds of the second leave out what two bytes can hold
and the surrogates. -/
theorem bounds_three (code : Nat) (wide : 0x800 ≤ code) (small : code < 0x10000)
    (scalar : code < 0xD800 ∨ 0xDFFF < code) :
    (∃ low high, continuationBounds? (UInt8.ofNat (0xE0 + code / 0x1000)) =
        some [(low, high), (0x80, 0xBF)] ∧
      low ≤ 0x80 + code / 0x40 % 0x40 ∧ 0x80 + code / 0x40 % 0x40 ≤ high) ∧
      leadingBits (UInt8.ofNat (0xE0 + code / 0x1000)) = code / 0x1000 := by
  have value := toNat_byte (0xE0 + code / 0x1000) (by omega)
  unfold continuationBounds? leadingBits
  simp only [value]
  constructor
  · rw [if_neg (by omega), if_neg (by omega), if_neg (by omega)]
    by_cases lowest : 0xE0 + code / 0x1000 = 0xE0
    · exact ⟨0xA0, 0xBF, if_pos lowest, by omega, by omega⟩
    · rw [if_neg lowest]
      by_cases surrogates : 0xE0 + code / 0x1000 = 0xED
      · exact ⟨0x80, 0x9F, if_pos surrogates, by omega, by omega⟩
      · rw [if_neg surrogates, if_pos (by omega)]
        exact ⟨0x80, 0xBF, rfl, by omega, by omega⟩
  · rw [if_neg (by omega), if_neg (by omega), if_pos (by omega)]
    omega

/-- The first of four bytes. The bounds of the second leave out what three bytes can hold
and what is beyond the last plane. -/
theorem bounds_four (code : Nat) (wide : 0x10000 ≤ code) (small : code < 0x110000) :
    (∃ low high, continuationBounds? (UInt8.ofNat (0xF0 + code / 0x40000)) =
        some [(low, high), (0x80, 0xBF), (0x80, 0xBF)] ∧
      low ≤ 0x80 + code / 0x1000 % 0x40 ∧ 0x80 + code / 0x1000 % 0x40 ≤ high) ∧
      leadingBits (UInt8.ofNat (0xF0 + code / 0x40000)) = code / 0x40000 := by
  have value := toNat_byte (0xF0 + code / 0x40000) (by omega)
  unfold continuationBounds? leadingBits
  simp only [value]
  constructor
  · rw [if_neg (by omega), if_neg (by omega), if_neg (by omega), if_neg (by omega),
      if_neg (by omega), if_neg (by omega)]
    by_cases lowest : 0xF0 + code / 0x40000 = 0xF0
    · exact ⟨0x90, 0xBF, if_pos lowest, by omega, by omega⟩
    · rw [if_neg lowest]
      by_cases middle : 0xF0 + code / 0x40000 < 0xF4
      · exact ⟨0x80, 0xBF, if_pos middle, by omega, by omega⟩
      · rw [if_neg middle, if_pos (by omega)]
        exact ⟨0x80, 0x8F, rfl, by omega, by omega⟩
  · rw [if_neg (by omega), if_neg (by omega), if_neg (by omega)]
    omega

/-- A character is read back from its bytes, whatever follows. The cases are the four
lengths. -/
theorem decodeFrom_encodeChar (c : Char) (position : Nat) (rest : List UInt8) :
    ∃ next, decodeFrom ⟨none, position⟩ (encodeChar c ++ rest) =
      (decodeFrom ⟨none, next⟩ rest).map (c :: ·) := by
  have scalar : c.toNat < 0xD800 ∨ 0xDFFF < c.toNat ∧ c.toNat < 0x110000 := c.valid
  have back : Char.ofNat c.toNat = c := Char.ofNat_toNat c
  unfold encodeChar
  generalize c.toNat = code at scalar back
  by_cases one : code < 0x80
  · refine ⟨position + 1, ?_⟩
    rw [if_pos one, List.singleton_append, decodeFrom_single position code rest one, back]
  by_cases two : code < 0x800
  · obtain ⟨bounds, leading⟩ := bounds_two code (by omega) two
    refine ⟨position + 1 + 1, ?_⟩
    have whole : code / 0x40 * 0x40 + (0x80 + code % 0x40) % 0x40 = code := by omega
    rw [if_neg one, if_pos two]
    simp only [List.cons_append, List.nil_append]
    rw [decodeFrom_open position _ _ _ _ bounds, leading,
      decodeFrom_close _ _ _ _ _ _ _ _ _ (by omega) (by omega) (by omega), whole, back]
  by_cases three : code < 0x10000
  · obtain ⟨⟨low, high, bounds, above, below⟩, leading⟩ :=
      bounds_three code (by omega) three (by omega)
    refine ⟨position + 1 + 1 + 1, ?_⟩
    have whole : (code / 0x1000 * 0x40 + (0x80 + code / 0x40 % 0x40) % 0x40) * 0x40 +
        (0x80 + code % 0x40) % 0x40 = code := by omega
    rw [if_neg one, if_neg two, if_pos three]
    simp only [List.cons_append, List.nil_append]
    rw [decodeFrom_open position _ _ _ _ bounds, leading,
      decodeFrom_continue _ _ _ _ _ _ _ _ _ _ _ (by omega) above below,
      decodeFrom_close _ _ _ _ _ _ _ _ _ (by omega) (by omega) (by omega), whole, back]
  · obtain ⟨⟨low, high, bounds, above, below⟩, leading⟩ :=
      bounds_four code (by omega) (by omega)
    refine ⟨position + 1 + 1 + 1 + 1, ?_⟩
    have whole : ((code / 0x40000 * 0x40 + (0x80 + code / 0x1000 % 0x40) % 0x40) * 0x40 +
        (0x80 + code / 0x40 % 0x40) % 0x40) * 0x40 + (0x80 + code % 0x40) % 0x40 = code := by
      omega
    rw [if_neg one, if_neg two, if_neg three]
    simp only [List.cons_append, List.nil_append]
    rw [decodeFrom_open position _ _ _ _ bounds, leading,
      decodeFrom_continue _ _ _ _ _ _ _ _ _ _ _ (by omega) above below,
      decodeFrom_continue _ _ _ _ _ _ _ _ _ _ _ (by omega) (by omega) (by omega),
      decodeFrom_close _ _ _ _ _ _ _ _ _ (by omega) (by omega) (by omega), whole, back]

/-- A text is read back from its bytes, from any position on. -/
theorem decodeFrom_encode (text : List Char) (position : Nat) :
    decodeFrom ⟨none, position⟩ (encode text) = .ok text := by
  induction text generalizing position with
  | nil => rfl
  | cons c text inductionHypothesis =>
    obtain ⟨next, read⟩ := decodeFrom_encodeChar c position (encode text)
    change decodeFrom ⟨none, position⟩ (encodeChar c ++ encode text) = .ok (c :: text)
    rw [read, inductionHypothesis]
    rfl

/-- A text is read back from its bytes. -/
@[simp] theorem decode_encode (text : List Char) : decode (encode text) = .ok text :=
  decodeFrom_encode text 0

/-- Bytes tell texts apart. -/
theorem encode_injective (left right : List Char) (same : encode left = encode right) :
    left = right := by
  have read := decode_encode left
  rw [same, decode_encode] at read
  exact (Except.ok.inj read).symm

/-- A text without carriage returns has its line ends normalised already. -/
theorem normaliseLineEnds_plain (text : List Char) (plain : '\r' ∉ text) :
    normaliseLineEnds text = text := by
  induction text with
  | nil => rfl
  | cons c rest inductionHypothesis =>
    simp only [List.mem_cons, not_or] at plain
    have step : normaliseLineEnds (c :: rest) =
        (if c = '\r' then '\n' else c) :: normaliseLineEnds rest := by
      rw [normaliseLineEnds]
      rintro more rfl
      exact absurd rfl plain.1
    rw [step, if_neg (Ne.symm plain.1), inductionHypothesis plain.2]

end Conformance.Text
