import Conformance.Proofs.Text.Encoding
import Mathlib.Tactic.Common

/-!
# Reading with replacement

A lenient reading of bytes puts a mark in the place of what is no character: of a byte that begins none, and
of the bytes of a character that is broken off. A text is read from its bytes without any mark, and of the
first bytes of a text at most the last character is replaced.
-/

namespace Conformance.Text

/-- The mark that stands for bytes that are no character. -/
def replacement : Char := '\uFFFD'

/-- What a byte gives that begins a character, and the state behind it. -/
def Decoding.begin (position : Nat) (byte : UInt8) : List Char × Decoding :=
  match continuationBounds? byte with
  | none => ([replacement], ⟨none, position + 1⟩)
  | some [] => ([Char.ofNat (leadingBits byte)], ⟨none, position + 1⟩)
  | some due => ([], ⟨some (byte, position, leadingBits byte, 1, due), position + 1⟩)

/-- What a byte gives, and the state behind it. A byte that does not continue the open character begins the
next one behind a mark. -/
def Decoding.step (state : Decoding) (byte : UInt8) : List Char × Decoding :=
  match state.opened with
  | some (first, start, value, width, (low, high) :: due) =>
    if continues low high byte then
      let value := value * 0x40 + byte.toNat % 0x40
      match due with
      | [] => ([Char.ofNat value], ⟨none, state.position + 1⟩)
      | due => ([], ⟨some (first, start, value, width + 1, due), state.position + 1⟩)
    else
      let begun := Decoding.begin state.position byte
      (replacement :: begun.1, begun.2)
  | _ => Decoding.begin state.position byte

/-- Lenient reading. A character that is open at the end is replaced. -/
def decodeReplacingFrom : Decoding → List UInt8 → List Char
  | state, [] => if state.opened.isSome then [replacement] else []
  | state, byte :: rest => (state.step byte).1 ++ decodeReplacingFrom (state.step byte).2 rest

/-- The text that the bytes stand for, with a mark for each part of them that is no text. -/
def decodeReplacing (bytes : List UInt8) : List Char := decodeReplacingFrom ⟨none, 0⟩ bytes

/-- The open character of a state, if there is one, has bytes due that continue characters. -/
def Decoding.Sound (state : Decoding) : Prop :=
  ∀ character ∈ state.opened, character.2.2.2.2 ≠ [] ∧
    ∀ bounds ∈ character.2.2.2.2, 0x80 ≤ bounds.1 ∧ bounds.2 ≤ 0xBF

@[simp] theorem sound_none (position : Nat) : Decoding.Sound ⟨none, position⟩ := by
  simp [Decoding.Sound]

@[simp] theorem sound_some {first : UInt8} {start value width position : Nat} {due : List (Nat × Nat)} :
    Decoding.Sound ⟨some (first, start, value, width, due), position⟩ ↔
      due ≠ [] ∧ ∀ bounds ∈ due, 0x80 ≤ bounds.1 ∧ bounds.2 ≤ 0xBF :=
  ⟨fun sound => sound _ rfl, fun sound _ same => Option.some.inj same ▸ sound⟩

/-- The bytes that are due behind a first byte continue characters. -/
theorem due_of_continuationBounds? {byte : UInt8} {due : List (Nat × Nat)}
    (bounds : continuationBounds? byte = some due) :
    byte.toNat / 64 ≠ 2 ∧ ∀ bounds ∈ due, 0x80 ≤ bounds.1 ∧ bounds.2 ≤ 0xBF := by
  unfold continuationBounds? at bounds
  dsimp only at bounds
  split_ifs at bounds <;> cases bounds <;> exact ⟨by omega, by simp⟩

/-- How many characters are open in a state. -/
def Decoding.openCount (state : Decoding) : Nat := if state.opened.isSome then 1 else 0

/-- What a step gives that goes well. -/
structure Decoding.Steps (state : Decoding) (byte : UInt8) (rest : List UInt8) (text : List Char) : Prop where
  onward : ∃ later, decodeFrom (state.step byte).2 rest = .ok later ∧ text = (state.step byte).1 ++ later
  sound : (state.step byte).2.Sound
  count : (state.step byte).1.length + (state.step byte).2.openCount =
    (if byte.toNat / 64 ≠ 2 then 1 else 0) + state.openCount

/-- What reading gives with a character before it, it gives without. -/
theorem exists_of_map_eq_ok {c : Char} {read : Except Utf8Error (List Char)} {text : List Char}
    (reads : read.map (c :: ·) = .ok text) : ∃ later, read = .ok later ∧ text = c :: later := by
  cases read with
  | error fault => cases reads
  | ok later => exact ⟨later, rfl, (Except.ok.inj reads).symm⟩

/-- A byte with which a text begins begins a character. -/
theorem steps_begin {position : Nat} {byte : UInt8} {rest : List UInt8} {text : List Char}
    (reads : decodeFrom ⟨none, position⟩ (byte :: rest) = .ok text) :
    Decoding.Steps ⟨none, position⟩ byte rest text := by
  rw [decodeFrom] at reads
  dsimp only at reads
  cases bounds : continuationBounds? byte with
  | none =>
    rw [bounds] at reads
    cases reads
  | some due =>
    obtain ⟨first, within⟩ := due_of_continuationBounds? bounds
    have step : Decoding.step ⟨none, position⟩ byte = Decoding.begin position byte := rfl
    cases due with
    | nil =>
      rw [bounds] at reads
      obtain ⟨later, onward, rfl⟩ := exists_of_map_eq_ok reads
      have gives : Decoding.begin position byte =
          ([Char.ofNat (leadingBits byte)], ⟨none, position + 1⟩) := by rw [Decoding.begin, bounds]
      constructor <;> rw [step, gives]
      · exact ⟨later, onward, rfl⟩
      · exact sound_none _
      · simp [Decoding.openCount, first]
    | cons bound due =>
      rw [bounds] at reads
      have gives : Decoding.begin position byte =
          ([], ⟨some (byte, position, leadingBits byte, 1, bound :: due), position + 1⟩) := by
        rw [Decoding.begin, bounds]
      constructor <;> rw [step, gives]
      · exact ⟨text, reads, rfl⟩
      · exact sound_some.mpr ⟨List.cons_ne_nil _ _, within⟩
      · simp [Decoding.openCount, first]

/-- A byte with which a text goes on within a character continues it. -/
theorem steps_continue {first byte : UInt8} {start value width position low high : Nat}
    {due : List (Nat × Nat)} {rest : List UInt8} {text : List Char}
    (sound : Decoding.Sound ⟨some (first, start, value, width, (low, high) :: due), position⟩)
    (reads : decodeFrom ⟨some (first, start, value, width, (low, high) :: due), position⟩ (byte :: rest) =
      .ok text) :
    Decoding.Steps ⟨some (first, start, value, width, (low, high) :: due), position⟩ byte rest text := by
  obtain ⟨_, within⟩ := sound_some.mp sound
  obtain ⟨⟨above, below⟩, others⟩ := List.forall_mem_cons.mp within
  rw [decodeFrom] at reads
  dsimp only at reads
  by_cases continue_ : continues low high byte = true
  · have tail : byte.toNat / 64 = 2 := by
      simp only [continues, Bool.and_eq_true, decide_eq_true_eq] at continue_
      dsimp only at above below
      omega
    rw [if_pos continue_] at reads
    cases due with
    | nil =>
      obtain ⟨later, onward, rfl⟩ := exists_of_map_eq_ok reads
      have gives : Decoding.step ⟨some (first, start, value, width, [(low, high)]), position⟩ byte =
          ([Char.ofNat (value * 0x40 + byte.toNat % 0x40)], ⟨none, position + 1⟩) := by
        simp only [Decoding.step, if_pos continue_]
      constructor <;> rw [gives]
      · exact ⟨later, onward, rfl⟩
      · exact sound_none _
      · simp [Decoding.openCount, tail]
    | cons bound due =>
      have gives : Decoding.step ⟨some (first, start, value, width, (low, high) :: bound :: due), position⟩
          byte = ([], ⟨some (first, start, value * 0x40 + byte.toNat % 0x40, width + 1, bound :: due),
            position + 1⟩) := by
        simp only [Decoding.step, if_pos continue_]
      constructor <;> rw [gives]
      · exact ⟨text, reads, rfl⟩
      · exact sound_some.mpr ⟨List.cons_ne_nil _ _, others⟩
      · simp [Decoding.openCount, tail]
  · rw [if_neg continue_] at reads
    cases reads

/-- Each step of a reading that goes well goes well. -/
theorem Decoding.Sound.steps {state : Decoding} {byte : UInt8} {rest : List UInt8} {text : List Char}
    (sound : state.Sound) (reads : decodeFrom state (byte :: rest) = .ok text) :
    state.Steps byte rest text := by
  obtain ⟨character, position⟩ := state
  cases character with
  | none => exact steps_begin reads
  | some character =>
    obtain ⟨first, start, value, width, due⟩ := character
    cases due with
    | nil => exact absurd rfl (sound_some.mp sound).1
    | cons bounds due => exact steps_continue sound reads

/-- What is read strictly is read leniently, without a mark. -/
theorem decodeReplacingFrom_of_ok {state : Decoding} {bytes : List UInt8} {text : List Char}
    (sound : state.Sound) (reads : decodeFrom state bytes = .ok text) :
    decodeReplacingFrom state bytes = text := by
  induction bytes generalizing state text with
  | nil =>
    obtain ⟨character, position⟩ := state
    cases character with
    | none => exact Except.ok.inj reads
    | some character => cases reads
  | cons byte rest inductionHypothesis =>
    have steps := sound.steps reads
    obtain ⟨later, onward, rfl⟩ := steps.onward
    rw [decodeReplacingFrom, inductionHypothesis steps.sound onward]

/-- The first bytes of a text give as many characters and marks as there are bytes among them that begin a
character. The induction is on these bytes; the character that is open before them is given as well. -/
theorem length_decodeReplacingFrom {state : Decoding} {bytes behind : List UInt8} {text : List Char}
    (sound : state.Sound) (reads : decodeFrom state (bytes ++ behind) = .ok text) :
    (decodeReplacingFrom state bytes).length =
      (bytes.filter fun byte => byte.toNat / 64 != 2).length + state.openCount := by
  induction bytes generalizing state text with
  | nil =>
    rw [decodeReplacingFrom, Decoding.openCount]
    split <;> rfl
  | cons byte rest inductionHypothesis =>
    have steps := sound.steps reads
    obtain ⟨later, onward, _⟩ := steps.onward
    have count := steps.count
    rw [decodeReplacingFrom, List.length_append, inductionHypothesis steps.sound onward]
    by_cases begins : byte.toNat / 64 = 2
    · simp [begins] at count ⊢
      omega
    · simp [begins] at count ⊢
      omega

/-- A text is read leniently from its bytes, without a mark. -/
@[simp] theorem decodeReplacing_encode (text : List Char) : decodeReplacing (encode text) = text :=
  decodeReplacingFrom_of_ok (sound_none 0) (decode_encode text)

end Conformance.Text
