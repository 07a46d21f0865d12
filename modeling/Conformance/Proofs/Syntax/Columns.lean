import Conformance.Proofs.Syntax.Positions
import Conformance.Proofs.Text.Replacing

/-!
# Columns count characters

The column of a byte is told by a lenient reading of the bytes between the last line feed before it and the
byte. No byte of a character but the line feed is a line feed, so these bytes begin with a character; and
where the byte begins a character they end with one. Then they are the bytes of the characters between, and
nothing is replaced.
-/

namespace Conformance.Syntax

open Text

/-- The bytes of a line before a byte. -/
def lineBefore (source : List Char) (offset : Nat) : List UInt8 :=
  afterLastBreak ((encode source).take offset)

/-- A character of a text begins at a byte. -/
def BeginsAt (source : List Char) (offset : Nat) : Prop :=
  ∃ passed c ahead, source = passed ++ c :: ahead ∧ offset = (encode passed).length

/-- A text is cut behind its last line feed. -/
theorem exists_lastLine (text : List Char) :
    ∃ front line, text = front ++ line ∧ (front = [] ∨ front.getLast? = some '\n') ∧ '\n' ∉ line ∧
      afterLastBreak (encode text) = encode line := by
  refine ⟨(text.reverse.dropWhile (· != '\n')).reverse, (text.reverse.takeWhile (· != '\n')).reverse, ?_, ?_,
    ?_, afterLastBreak_encode text⟩
  · rw [← List.reverse_append, List.takeWhile_append_dropWhile, List.reverse_reverse]
  · rw [List.getLast?_reverse, List.reverse_eq_nil_iff]
    cases rest : text.reverse.dropWhile (· != '\n') with
    | nil => exact .inl rfl
    | cons c front =>
      have stops := List.head?_dropWhile_not (· != '\n') text.reverse
      rw [rest] at stops
      exact .inr (congrArg some (by simpa using stops))
  · intro member
    have kept := List.mem_takeWhile_imp (List.mem_reverse.mp member)
    simp at kept

/-- The first bytes of a text are those of its first characters and a part of the next one, which holds no
line feed. -/
theorem exists_take_encode (source : List Char) (offset : Nat) :
    ∃ passed ahead part, source = passed ++ ahead ∧ (encode source).take offset = encode passed ++ part ∧
      part <+: encode ahead ∧ ∀ byte ∈ part, (byte != 10) = true := by
  induction source generalizing offset with
  | nil => exact ⟨[], [], [], rfl, List.take_nil, List.nil_prefix, by simp⟩
  | cons c source inductionHypothesis =>
    have whole : encode (c :: source) = encodeChar c ++ encode source := rfl
    rcases Nat.lt_or_ge offset (encodeChar c).length with within | beyond
    · refine ⟨[], c :: source, (encodeChar c).take offset, rfl, ?_, ?_, ?_⟩
      · rw [whole, List.take_append_of_le_length within.le]
        rfl
      · exact (List.take_prefix _ _).trans (List.prefix_append _ _)
      · intro byte member
        by_cases feed : c = '\n'
        · subst feed
          obtain rfl : offset = 0 := Nat.lt_one_iff.mp within
          cases member
        · exact ne_feed_of_mem_encodeChar feed byte (List.mem_of_mem_take member)
    · obtain ⟨passed, ahead, part, rfl, taken, begun, free⟩ := inductionHypothesis (offset - (encodeChar c).length)
      refine ⟨c :: passed, ahead, part, rfl, ?_, begun, free⟩
      rw [whole, List.take_append, List.take_of_length_le beyond, taken]
      exact (List.append_assoc ..).symm

/-- The bytes of a line before a byte are the first bytes of a text. -/
theorem exists_decode_lineBefore (source : List Char) (offset : Nat) :
    ∃ behind text, decode (lineBefore source offset ++ behind) = .ok text := by
  obtain ⟨passed, ahead, part, rfl, taken, ⟨behind, begun⟩, free⟩ := exists_take_encode source offset
  refine ⟨behind, (passed.reverse.takeWhile (· != '\n')).reverse ++ ahead, ?_⟩
  have none_ : ∀ byte ∈ part.reverse, (byte != 10) = true := fun byte member =>
    free byte (List.mem_reverse.mp member)
  have line := afterLastBreak_encode passed
  unfold afterLastBreak at line
  rw [lineBefore, afterLastBreak, taken, List.reverse_append, List.takeWhile_append_of_pos none_,
    List.reverse_append, List.reverse_reverse, line, List.append_assoc, begun, ← encode_append, decode_encode]

/-- At every byte of a source the column is one more than what the lenient reading of the line before the byte
gives. -/
theorem columnAt_eq_replacing (source : List Char) (offset : Nat) :
    columnAt (encode source) offset = (decodeReplacing (lineBefore source offset)).length + 1 := by
  obtain ⟨behind, text, reads⟩ := exists_decode_lineBefore source offset
  have before : afterLastBreak ((encode source).take offset) = lineBefore source offset := rfl
  rw [columnAt, before]
  cases strict : decode (lineBefore source offset) with
  | ok line => rw [decodeReplacing, decodeReplacingFrom_of_ok (sound_none 0) strict]
  | error fault =>
    rw [decodeReplacing, length_decodeReplacingFrom (sound_none 0) reads]
    rfl

/-- **The column of a node that begins where a character does is one more than the characters between the last
line feed before it, or the start of the text, and the node; the bytes that are read for it are those of these
characters, so the lenient reading replaces nothing.** -/
theorem column_counts_characters {source : List Char} {node : Node}
    (begins : BeginsAt source node.span.startByte) :
    ∃ front line c ahead, source = front ++ line ++ c :: ahead ∧
      node.span.startByte = (encode (front ++ line)).length ∧
      (front = [] ∨ front.getLast? = some '\n') ∧ '\n' ∉ line ∧
      (encode source).take node.span.startByte = encode front ++ lineBefore source node.span.startByte ∧
      decode (lineBefore source node.span.startByte) = .ok line ∧
      decodeReplacing (lineBefore source node.span.startByte) = line ∧
      node.column source = (decodeReplacing (lineBefore source node.span.startByte)).length + 1 ∧
      node.column source = line.length + 1 := by
  obtain ⟨passed, c, ahead, rfl, start⟩ := begins
  obtain ⟨front, line, rfl, cut, free, last⟩ := exists_lastLine passed
  have taken : (encode (front ++ line ++ c :: ahead)).take node.span.startByte = encode (front ++ line) := by
    rw [start, encode_append (front ++ line), List.take_left]
  have read : lineBefore (front ++ line ++ c :: ahead) node.span.startByte = encode line := by
    rw [lineBefore, taken, last]
  have column : node.column (front ++ line ++ c :: ahead) =
      (decodeReplacing (lineBefore (front ++ line ++ c :: ahead) node.span.startByte)).length + 1 :=
    columnAt_eq_replacing _ _
  rw [read, decodeReplacing_encode] at column
  refine ⟨front, line, c, ahead, rfl, start, cut, free, ?_, ?_, ?_, ?_, column⟩
  · rw [taken, read, encode_append]
  · rw [read, decode_encode]
  · rw [read, decodeReplacing_encode]
  · rw [read, decodeReplacing_encode, column]

/-- A text with characters of one to four bytes, before and behind a line feed. -/
def mixedText : List Char := "é = 🎉;\nlet 🎉ñ€ = 1".toList

/-- The equals sign is the ninth character of its line, behind fourteen bytes of it. -/
theorem column_counts_characters_mixed :
    let node := Node.mk (.token "=") none ⟨25, 26, 1⟩ []
    BeginsAt mixedText node.span.startByte ∧ (lineBefore mixedText 25).length = 14 ∧
      decodeReplacing (lineBefore mixedText 25) = "let 🎉ñ€ ".toList ∧ node.column mixedText = 9 := by
  intro node
  have begins : BeginsAt mixedText node.span.startByte :=
    ⟨"é = 🎉;\nlet 🎉ñ€ ".toList, '=', " 1".toList, by decide +kernel, by decide +kernel⟩
  obtain ⟨_, line, _, _, _, _, _, _, _, _, lenient, _, column⟩ := column_counts_characters begins
  have read : decodeReplacing (lineBefore mixedText node.span.startByte) = "let 🎉ñ€ ".toList := by
    decide +kernel
  obtain rfl := lenient.symm.trans read
  exact ⟨begins, by decide +kernel, read, column⟩

end Conformance.Syntax
