import Conformance.Audit.Result
import Conformance.Audit.Score
import Conformance.Proofs.Number.Nearest
import Mathlib.Algebra.Order.BigOperators.Group.List
import Mathlib.Data.Finset.Max
import Mathlib.Order.Interval.Set.OrdConnected
import Mathlib.Tactic.NormNum

/-!
# What scores hold to

A score is a chain of operations each of which rounds. Rounding that keeps the order, and that
changes neither integers nor the halves between them, keeps the bounds of the scores and the order
between them. The exact numbers are rounded in this way, by nothing at all, and so are the binary
ones.
-/

namespace Conformance.Audit

open Number

/-- The exact numbers. -/
def rational : Arithmetic ℚ :=
  ⟨fun numerator denominator => numerator / denominator, (· + ·), (· - ·),
    fun left right => decide (left < right), fun value => some ⌊value⌋⟩

namespace Arithmetic

variable {ν : Type}

/-- The score of a file with some violations in a number of lines. -/
def scoreOf (numbers : Arithmetic ν) (violations : List Violation) (lines : ℕ) : ℤ :=
  numbers.fileScore (violations.map (·.severity)) lines

/-- The score of a project from the results of its files. -/
def meanOf (numbers : Arithmetic ν) (files : List FileResult) : ℤ :=
  numbers.overallScore (files.map (·.score))

/-- Numbers in which every operation rounds its exact result, if it is in reach. -/
structure Rounds (numbers : Arithmetic ν) (value? : ν → Option ℚ) (round : ℚ → ℚ)
    (reach : Set ℚ) : Prop where
  reaches : Set.Icc 0 101 ⊆ reach
  connected : reach.OrdConnected
  mono : MonotoneOn round reach
  halves : ∀ k : ℤ, (k / 2 : ℚ) ∈ reach → round (k / 2) = k / 2
  ofRatio : ∀ (numerator : ℤ) (denominator : ℕ), 0 < denominator →
    (numerator / denominator : ℚ) ∈ reach →
    value? (numbers.ofRatio numerator denominator) = some (round (numerator / denominator))
  add : ∀ x y p q, value? x = some p → value? y = some q → p + q ∈ reach →
    value? (numbers.add x y) = some (round (p + q))
  sub : ∀ x y p q, value? x = some p → value? y = some q → p - q ∈ reach →
    value? (numbers.sub x y) = some (round (p - q))
  less : ∀ x y p q, value? x = some p → value? y = some q → numbers.less x y = decide (p < q)
  floor : ∀ x p, value? x = some p → numbers.floor? x = some ⌊p⌋
  /-- A share of all hundredths or more leaves nothing. -/
  drained : ∀ x (numerator : ℤ) (denominator : ℕ), value? x = some 100 → 0 < denominator →
    100 ≤ (numerator / denominator : ℚ) →
    numbers.less (numbers.sub x (numbers.ofRatio numerator denominator)) (numbers.ofInt 0) = true ∨
      value? (numbers.sub x (numbers.ofRatio numerator denominator)) = some 0

/-- Exact numbers are not rounded. -/
theorem rounds_rational : rational.Rounds some id Set.univ where
  reaches := Set.subset_univ _
  connected := Set.ordConnected_univ
  mono := monotoneOn_id
  halves _ _ := rfl
  ofRatio _ _ _ _ := rfl
  add _ _ p q left right _ := by
    cases left
    cases right
    rfl
  sub _ _ p q left right _ := by
    cases left
    cases right
    rfl
  less _ _ p q left right := by
    cases left
    cases right
    rfl
  floor _ p value := by
    cases value
    rfl
  drained x numerator denominator value _ most := by
    cases value
    simp only [rational, ofInt, Int.cast_zero, zero_div, decide_eq_true_eq, Option.some.injEq]
    rcases most.lt_or_eq with more | same
    · exact .inl (by simpa using more)
    · exact .inr (by rw [← same, sub_self])

/-- Binary numbers are rounded to the nearest ones of the format. -/
theorem rounds_binary : binary.Rounds Binary64.value? nearest (Set.Icc 0 101) where
  reaches := le_rfl
  connected := Set.ordConnected_Icc
  mono := nearest_mono.mono Set.Icc_subset_Ici_self
  halves k inside := nearest_half k inside.1 (inside.2.trans_lt (by norm_num))
  ofRatio numerator denominator positive inside := by
    have nonneg : 0 ≤ numerator := by
      have scaled := (le_div_iff₀ (show (0 : ℚ) < denominator by exact_mod_cast positive)).mp inside.1
      rw [zero_mul] at scaled
      exact_mod_cast scaled
    exact Binary64.value?_ofRatio numerator denominator positive nonneg
      (inside.2.trans_lt (by norm_num))
  add x y p q left right inside :=
    Binary64.value?_add left right inside.1 (inside.2.trans_lt (by norm_num))
  sub x y p q left right inside :=
    Binary64.value?_sub left right inside.1 (inside.2.trans_lt (by norm_num))
  less x y p q left right := Binary64.less_eq left right
  floor x p value := Binary64.floor?_eq value
  drained x numerator denominator value positive most := by
    have fixed : nearest 100 = 100 := by
      have half := nearest_half 200 (by norm_num) (by norm_num)
      norm_num at half
      exact half
    exact Binary64.sub_ofRatio_of_le value numerator denominator positive fixed (by norm_num) most

/-- What a share leaves of one hundred, and zero where that is negative. -/
def clamped (numbers : Arithmetic ν) (share : ν) : ν :=
  let left := numbers.sub (numbers.ofInt 100) share
  if numbers.less left (numbers.ofInt 0) then numbers.ofInt 0 else left

variable {numbers : Arithmetic ν} {value? : ν → Option ℚ} {round : ℚ → ℚ} {reach : Set ℚ}

namespace Rounds

/-- An integer in reach is not rounded. -/
theorem round_intCast (rounds : numbers.Rounds value? round reach) (k : ℤ)
    (inside : (k : ℚ) ∈ reach) : round k = k := by
  have half := rounds.halves (2 * k)
  push_cast at half
  rw [mul_div_cancel_left₀ _ two_ne_zero] at half
  exact half inside

/-- An integer and a half in reach is not rounded. -/
theorem round_add_half (rounds : numbers.Rounds value? round reach) (k : ℤ)
    (inside : (k + 1 / 2 : ℚ) ∈ reach) : round (k + 1 / 2) = k + 1 / 2 := by
  have half := rounds.halves (2 * k + 1)
  push_cast at half
  rw [add_div, mul_div_cancel_left₀ _ two_ne_zero] at half
  exact half inside

/-- What is between two integers is rounded to something between them. -/
theorem round_mem_Icc (rounds : numbers.Rounds value? round reach) (low high : ℤ) {q : ℚ}
    (least : (low : ℚ) ∈ reach) (most : (high : ℚ) ∈ reach)
    (between : q ∈ Set.Icc (low : ℚ) high) :
    round q ∈ Set.Icc (low : ℚ) high := by
  have inside := rounds.connected.out least most between
  have below := rounds.mono least inside between.1
  have above := rounds.mono inside most between.2
  rw [rounds.round_intCast _ least] at below
  rw [rounds.round_intCast _ most] at above
  exact ⟨below, above⟩

/-- Half an integer more is rounded to something below the next one. -/
theorem floor_round_add_half_mem (rounds : numbers.Rounds value? round reach) (low high : ℤ) {q : ℚ}
    (least : (low : ℚ) ∈ reach) (most : (high + 1 : ℚ) ∈ reach)
    (between : q ∈ Set.Icc (low : ℚ) high) :
    ⌊round (q + 1 / 2)⌋ ∈ Set.Icc low high := by
  have reached (k : ℤ) (first : low ≤ k) (last : k ≤ high) : (k + 1 / 2 : ℚ) ∈ reach := by
    have lower : (low : ℚ) ≤ k := by exact_mod_cast first
    have upper : (k : ℚ) ≤ high := by exact_mod_cast last
    exact rounds.connected.out least most ⟨by linarith, by linarith⟩
  have ordered : low ≤ high := by exact_mod_cast between.1.trans between.2
  have inside : q + 1 / 2 ∈ reach :=
    rounds.connected.out least most ⟨by linarith [between.1], by linarith [between.2]⟩
  have below := rounds.mono (reached low le_rfl ordered) inside (by linarith [between.1])
  have above := rounds.mono inside (reached high ordered le_rfl) (by linarith [between.2])
  rw [rounds.round_add_half low (reached low le_rfl ordered)] at below
  rw [rounds.round_add_half high (reached high ordered le_rfl)] at above
  constructor
  · exact Int.le_floor.mpr (by linarith)
  · exact Int.lt_add_one_iff.mp (Int.floor_lt.mpr (by push_cast; linarith))

/-- A small integer is made itself. -/
theorem value_ofInt (rounds : numbers.Rounds value? round reach) (k : ℤ)
    (inside : (k : ℚ) ∈ reach) : value? (numbers.ofInt k) = some (k : ℚ) := by
  have made := rounds.ofRatio k 1 one_pos (by simpa using inside)
  rw [Nat.cast_one, div_one, rounds.round_intCast k inside] at made
  exact made

/-- The integer next to a number is the one below its rounded sum with one half. -/
theorem roundHalfUp?_eq (rounds : numbers.Rounds value? round reach) {x : ν} {p : ℚ}
    (value : value? x = some p) (inside : p + 1 / 2 ∈ reach) :
    numbers.roundHalfUp? x = some ⌊round (p + 1 / 2)⌋ := by
  have half : value? (numbers.ofRatio 1 2) = some (1 / 2) := by
    have among : ((1 : ℤ) / 2 : ℚ) ∈ reach := rounds.reaches ⟨by norm_num, by norm_num⟩
    have made := rounds.ofRatio 1 2 two_pos (by exact_mod_cast among)
    rw [Nat.cast_ofNat, rounds.halves 1 among, Int.cast_one] at made
    exact made
  exact rounds.floor _ _ (rounds.add _ _ _ _ value half inside)

/-- The score that is left of a share in hundredths. -/
def remaining (round : ℚ → ℚ) (share : ℚ) : ℤ := ⌊round (round (100 - round share) + 1 / 2)⌋

/-- Hundredths are rounded to hundredths. -/
theorem round_mem (rounds : numbers.Rounds value? round reach) {share : ℚ}
    (between : share ∈ Set.Icc 0 100) : round share ∈ Set.Icc 0 100 := by
  have rounded := rounds.round_mem_Icc 0 100 (rounds.reaches (by norm_num))
    (rounds.reaches (by norm_num)) (by simpa using between)
  simpa using rounded

/-- What is left of one hundred is in hundredths as well. -/
theorem left_mem (rounds : numbers.Rounds value? round reach) {share : ℚ}
    (between : share ∈ Set.Icc 0 100) : 100 - round share ∈ Set.Icc 0 100 := by
  have taken := rounds.round_mem between
  exact ⟨by linarith [taken.2], by linarith [taken.1]⟩

/-- Scores are from zero to one hundred. -/
theorem remaining_mem (rounds : numbers.Rounds value? round reach) {share : ℚ}
    (between : share ∈ Set.Icc 0 100) : remaining round share ∈ Set.Icc 0 100 :=
  rounds.floor_round_add_half_mem 0 100 (rounds.reaches (by norm_num))
    (rounds.reaches (by norm_num)) (by simpa using rounds.round_mem (rounds.left_mem between))

/-- A greater share leaves no more. -/
theorem remaining_anti (rounds : numbers.Rounds value? round reach) {less more : ℚ}
    (first : less ∈ Set.Icc 0 100) (second : more ∈ Set.Icc 0 100) (below : less ≤ more) :
    remaining round more ≤ remaining round less := by
  have inside {q : ℚ} (between : q ∈ Set.Icc 0 100) : q ∈ reach :=
    rounds.reaches ⟨between.1, between.2.trans (by norm_num)⟩
  have inside_half {q : ℚ} (between : q ∈ Set.Icc 0 100) : q + 1 / 2 ∈ reach :=
    rounds.reaches ⟨by linarith [between.1], by linarith [between.2]⟩
  have taken := rounds.mono (inside first) (inside second) below
  have left := rounds.mono (inside (rounds.left_mem second)) (inside (rounds.left_mem first))
    (sub_le_sub_left taken 100)
  apply Int.floor_mono
  exact rounds.mono (inside_half (rounds.round_mem (rounds.left_mem second)))
    (inside_half (rounds.round_mem (rounds.left_mem first))) (by linarith)

/-- Nothing taken leaves one hundred. -/
theorem remaining_zero (rounds : numbers.Rounds value? round reach) : remaining round 0 = 100 := by
  have nothing := rounds.round_intCast 0 (rounds.reaches (by norm_num))
  have everything := rounds.round_intCast 100 (rounds.reaches (by norm_num))
  have half := rounds.round_add_half 100 (rounds.reaches (by norm_num))
  push_cast at nothing everything half
  rw [remaining, nothing, sub_zero, everything, half, Int.floor_eq_iff]
  norm_num

/-- A share in hundredths leaves its rest. -/
theorem value_clamped (rounds : numbers.Rounds value? round reach) (numerator : ℤ)
    (denominator : ℕ) (positive : 0 < denominator)
    (between : (numerator / denominator : ℚ) ∈ Set.Icc 0 100) :
    value? (numbers.clamped (numbers.ofRatio numerator denominator)) =
      some (round (100 - round (numerator / denominator))) := by
  have share := rounds.ofRatio numerator denominator positive
    (rounds.reaches ⟨between.1, between.2.trans (by norm_num)⟩)
  have full := rounds.value_ofInt 100 (rounds.reaches (by norm_num))
  have none := rounds.value_ofInt 0 (rounds.reaches (by norm_num))
  have left := rounds.left_mem between
  have rest := rounds.sub _ _ _ _ full share
    (rounds.reaches ⟨by simpa using left.1, by push_cast; linarith [left.2]⟩)
  have kept := rounds.less _ _ _ _ rest none
  push_cast at rest kept
  rw [decide_eq_false (not_lt.mpr (rounds.round_mem left).1)] at kept
  rw [clamped, kept, if_neg Bool.false_ne_true, rest]

/-- A share of all hundredths or more leaves nothing. -/
theorem value_clamped_of_le (rounds : numbers.Rounds value? round reach) (numerator : ℤ)
    (denominator : ℕ) (positive : 0 < denominator) (most : 100 ≤ (numerator / denominator : ℚ)) :
    value? (numbers.clamped (numbers.ofRatio numerator denominator)) = some 0 := by
  have full := rounds.value_ofInt 100 (rounds.reaches (by norm_num))
  have none := rounds.value_ofInt 0 (rounds.reaches (by norm_num))
  rw [Int.cast_zero] at none
  dsimp only [clamped]
  rcases rounds.drained _ numerator denominator full positive most with negative | empty
  · rw [if_pos negative, none]
  · split
    · exact none
    · exact empty

/-- A weight below the lines is a share in hundredths. -/
theorem share_mem {weight lines : ℕ} (light : weight < lines) :
    (100 * weight / lines : ℚ) ∈ Set.Icc 0 100 := by
  have below : (weight : ℚ) ≤ lines := by exact_mod_cast light.le
  have size : (0 : ℚ) < lines := by exact_mod_cast light.pos
  refine ⟨by positivity, ?_⟩
  rw [div_le_iff₀ size]
  gcongr

/-- A file whose violations weigh less than its lines scores what their share leaves, and any other
file scores nothing. -/
theorem fileScore_eq (rounds : numbers.Rounds value? round reach) (severities : List Severity)
    (lines : ℕ) (positive : 0 < lines) :
    numbers.fileScore severities lines =
      if weight severities < lines then remaining round (100 * weight severities / lines) else 0 := by
  have filled : (lines : ℤ) ≠ 0 := by exact_mod_cast positive.ne'
  have share : numbers.weightShare severities lines =
      numbers.ofRatio (100 * weight severities : ℤ) lines := by
    rw [weightShare, Int.sign_natCast_of_ne_zero positive.ne', Int.natAbs_natCast, mul_one]
    rfl
  have score : numbers.fileScore severities lines =
      (numbers.roundHalfUp? (numbers.clamped (numbers.ofRatio (100 * weight severities) lines))).getD
        0 := by
    rw [fileScore, if_neg filled, share]
    rfl
  have size : (0 : ℚ) < lines := by exact_mod_cast positive
  rw [score]
  split_ifs with light
  · have between := share_mem light
    have rest := rounds.value_clamped (100 * weight severities) lines positive
      (by push_cast; exact between)
    have rounded := rounds.round_mem (rounds.left_mem between)
    push_cast at rest
    rw [rounds.roundHalfUp?_eq rest
      (rounds.reaches ⟨by linarith [rounded.1], by linarith [rounded.2]⟩)]
    rfl
  · have above : (lines : ℚ) ≤ weight severities := by exact_mod_cast not_lt.mp light
    have empty := rounds.value_clamped_of_le (100 * weight severities) lines positive
      (by rw [le_div_iff₀ size]; push_cast; gcongr)
    have half := rounds.round_add_half 0 (rounds.reaches (by norm_num))
    push_cast at half
    rw [rounds.roundHalfUp?_eq empty (rounds.reaches (by norm_num)), half]
    norm_num

/-- The mean of scores lies between what bounds all of them. -/
theorem mean_mem {scores : List ℤ} (filled : scores ≠ []) {lowest highest : ℤ}
    (least : ∀ score ∈ scores, lowest ≤ score) (most : ∀ score ∈ scores, score ≤ highest) :
    (scores.sum / scores.length : ℚ) ∈ Set.Icc (lowest : ℚ) highest := by
  have size : (0 : ℚ) < scores.length := by exact_mod_cast List.length_pos_iff.mpr filled
  have below := scores.card_nsmul_le_sum lowest least
  have above := scores.sum_le_card_nsmul highest most
  rw [nsmul_eq_mul, mul_comm] at below above
  constructor
  · rw [le_div_iff₀ size]
    exact_mod_cast below
  · rw [div_le_iff₀ size]
    exact_mod_cast above

/-- The score of a project lies between the lowest and the highest of its files. -/
theorem overallScore_between (rounds : numbers.Rounds value? round reach) (scores : List ℤ)
    (filled : scores ≠ [])
    (among : ∀ score ∈ scores, (score : ℚ) ∈ reach ∧ (score + 1 : ℚ) ∈ reach) :
    ∃ lowest ∈ scores, ∃ highest ∈ scores,
      (∀ score ∈ scores, lowest ≤ score ∧ score ≤ highest) ∧
      lowest ≤ numbers.overallScore scores ∧ numbers.overallScore scores ≤ highest := by
  have some : scores.toFinset.Nonempty := List.toFinset_nonempty_iff _ |>.mpr filled
  obtain ⟨lowest, low, least⟩ := scores.toFinset.exists_min_image id some
  obtain ⟨highest, high, most⟩ := scores.toFinset.exists_max_image id some
  simp only [List.mem_toFinset, id] at low least high most
  have total : scores.foldr (· + ·) 0 = scores.sum := rfl
  have mean := mean_mem filled least most
  have made := rounds.ofRatio scores.sum scores.length (List.length_pos_iff.mpr filled)
    (rounds.connected.out (among lowest low).1 (among highest high).1 mean)
  have rounded := rounds.round_mem_Icc lowest highest (among lowest low).1 (among highest high).1 mean
  have next := rounds.floor_round_add_half_mem lowest highest (among lowest low).1
    (among highest high).2 rounded
  refine ⟨lowest, low, highest, high, fun score member => ⟨least score member, most score member⟩, ?_⟩
  rw [overallScore, if_neg (by simpa using filled), total, rounds.roundHalfUp?_eq made ?_]
  · exact next
  · exact rounds.connected.out (among lowest low).1 (among highest high).2
      ⟨by linarith [rounded.1], by linarith [rounded.2]⟩

end Rounds

/-- What scores hold to: a file scores from zero to one hundred, one hundred without lines or
violations, and nothing where its violations weigh as much as its lines; one more violation or a
graver one does not raise the score, more lines do not lower it, and the order of the violations
does not matter. A project scores between the lowest and the highest of its files, if their scores
are among given ones, one hundred without files, and the order of the files does not matter. -/
structure Lawful (numbers : Arithmetic ν) (among : Set ℤ) : Prop where
  bounds : ∀ violations lines,
    0 ≤ numbers.scoreOf violations lines ∧ numbers.scoreOf violations lines ≤ 100
  full : ∀ violations lines, lines = 0 ∨ violations = [] → numbers.scoreOf violations lines = 100
  nothing : ∀ violations lines, 0 < lines → lines ≤ weight (violations.map (·.severity)) →
    numbers.scoreOf violations lines = 0
  another : ∀ earlier violation later lines,
    numbers.scoreOf (earlier ++ violation :: later) lines ≤ numbers.scoreOf (earlier ++ later) lines
  graver : ∀ earlier violation other later lines, violation.severity.rank ≤ other.severity.rank →
    numbers.scoreOf (earlier ++ other :: later) lines ≤
      numbers.scoreOf (earlier ++ violation :: later) lines
  longer : ∀ violations lines more, 1 ≤ lines → lines ≤ more →
    numbers.scoreOf violations lines ≤ numbers.scoreOf violations more
  anyOrder : ∀ violations others lines, violations.Perm others →
    numbers.scoreOf violations lines = numbers.scoreOf others lines
  between : ∀ files : List FileResult, files ≠ [] → (∀ file ∈ files, file.score ∈ among) →
    ∃ lowest ∈ files, ∃ highest ∈ files,
      (∀ file ∈ files, lowest.score ≤ file.score ∧ file.score ≤ highest.score) ∧
      lowest.score ≤ numbers.meanOf files ∧ numbers.meanOf files ≤ highest.score
  anyFileOrder : ∀ files others : List FileResult, files.Perm others →
    numbers.meanOf files = numbers.meanOf others
  fullWithoutFiles : numbers.meanOf [] = 100

/-- A file without lines has the best score. -/
@[simp] theorem scoreOf_zero (numbers : Arithmetic ν) (violations : List Violation) :
    numbers.scoreOf violations 0 = 100 := rfl

/-- A file with lines scores by the weight of its violations. -/
theorem Rounds.scoreOf_eq (rounds : numbers.Rounds value? round reach) (violations : List Violation)
    {lines : ℕ} (positive : 0 < lines) :
    numbers.scoreOf violations lines =
      if weight (violations.map (·.severity)) < lines then
        remaining round (100 * weight (violations.map (·.severity)) / lines) else 0 :=
  rounds.fileScore_eq _ lines positive

/-- Scores are from zero to one hundred. -/
theorem Rounds.scoreOf_mem (rounds : numbers.Rounds value? round reach) (violations : List Violation)
    (lines : ℕ) : numbers.scoreOf violations lines ∈ Set.Icc 0 100 := by
  rcases lines.eq_zero_or_pos with rfl | positive
  · rw [scoreOf_zero]
    decide
  · rw [rounds.scoreOf_eq violations positive]
    split_ifs with light
    · exact rounds.remaining_mem (share_mem light)
    · decide

/-- Violations that weigh more do not raise the score of a file. -/
theorem Rounds.scoreOf_anti (rounds : numbers.Rounds value? round reach)
    {violations others : List Violation} (lines : ℕ)
    (lighter : weight (violations.map (·.severity)) ≤ weight (others.map (·.severity))) :
    numbers.scoreOf others lines ≤ numbers.scoreOf violations lines := by
  rcases lines.eq_zero_or_pos with rfl | positive
  · rfl
  by_cases light : weight (others.map (·.severity)) < lines
  · have also := lighter.trans_lt light
    rw [rounds.scoreOf_eq others positive, if_pos light, rounds.scoreOf_eq violations positive,
      if_pos also]
    apply rounds.remaining_anti (share_mem also) (share_mem light)
    gcongr
  · rw [rounds.scoreOf_eq others positive, if_neg light]
    exact (rounds.scoreOf_mem violations lines).1

/-- More lines do not lower the score of a file. -/
theorem Rounds.scoreOf_mono (rounds : numbers.Rounds value? round reach)
    (violations : List Violation) {lines more : ℕ} (positive : 1 ≤ lines) (longer : lines ≤ more) :
    numbers.scoreOf violations lines ≤ numbers.scoreOf violations more := by
  by_cases light : weight (violations.map (·.severity)) < lines
  · have also := light.trans_le longer
    rw [rounds.scoreOf_eq violations positive, if_pos light,
      rounds.scoreOf_eq violations (positive.trans longer), if_pos also]
    apply rounds.remaining_anti (share_mem also) (share_mem light)
    gcongr
  · rw [rounds.scoreOf_eq violations positive, if_neg light]
    exact (rounds.scoreOf_mem violations more).1

/-- The weight of violations in two parts is the weight of both. -/
theorem weight_append (earlier later : List Violation) :
    weight ((earlier ++ later).map (·.severity)) =
      weight (earlier.map (·.severity)) + weight (later.map (·.severity)) := by
  simp only [weight, List.map_append, total_append]

/-- The weight of violations with one in front. -/
theorem weight_cons (violation : Violation) (later : List Violation) :
    weight ((violation :: later).map (·.severity)) =
      violation.severity.rank + weight (later.map (·.severity)) := rfl

/-- The weight of violations does not depend on their order. -/
theorem weight_perm {violations others : List Violation} (shuffle : violations.Perm others) :
    weight (violations.map (·.severity)) = weight (others.map (·.severity)) :=
  ((shuffle.map Finding.severity).map Severity.rank).sum_nat

/-- The mean of scores does not depend on their order. -/
theorem overallScore_perm (numbers : Arithmetic ν) {scores others : List ℤ}
    (shuffle : scores.Perm others) : numbers.overallScore scores = numbers.overallScore others := by
  have total : scores.foldr (· + ·) 0 = others.foldr (· + ·) 0 := shuffle.foldr_eq 0
  unfold overallScore
  rw [total, shuffle.length_eq, shuffle.isEmpty_eq]

/-- Numbers that are rounded give lawful scores. -/
theorem Rounds.lawful (rounds : numbers.Rounds value? round reach) (among : Set ℤ)
    (reached : ∀ score ∈ among, (score : ℚ) ∈ reach ∧ (score + 1 : ℚ) ∈ reach) :
    numbers.Lawful among where
  bounds := rounds.scoreOf_mem
  full violations lines spared := by
    rcases lines.eq_zero_or_pos with rfl | positive
    · rfl
    · obtain rfl := spared.resolve_left positive.ne'
      have none : weight (([] : List Violation).map (·.severity)) = 0 := rfl
      rw [rounds.scoreOf_eq [] positive, none, if_pos positive, Nat.cast_zero, mul_zero, zero_div]
      exact rounds.remaining_zero
  nothing violations lines positive heavy := by
    rw [rounds.scoreOf_eq violations positive, if_neg (not_lt.mpr heavy)]
  another earlier violation later lines := by
    apply rounds.scoreOf_anti
    rw [weight_append, weight_append, weight_cons]
    omega
  graver earlier violation other later lines higher := by
    apply rounds.scoreOf_anti
    rw [weight_append, weight_append, weight_cons, weight_cons]
    omega
  longer violations lines more positive longer := rounds.scoreOf_mono violations positive longer
  anyOrder violations others lines shuffle := by
    have same := weight_perm shuffle
    exact le_antisymm (rounds.scoreOf_anti lines same.ge) (rounds.scoreOf_anti lines same.le)
  between files filled inside := by
    obtain ⟨low, lower, high, higher, extremes, mean⟩ :=
      rounds.overallScore_between (files.map (·.score)) (by simpa using filled)
        (by simpa using fun file member => reached file.score (inside file member))
    obtain ⟨lowest, first, rfl⟩ := List.mem_map.mp lower
    obtain ⟨highest, last, rfl⟩ := List.mem_map.mp higher
    exact ⟨lowest, first, highest, last,
      fun file member => extremes file.score (List.mem_map_of_mem member), mean⟩
  anyFileOrder files others shuffle := numbers.overallScore_perm (shuffle.map _)
  fullWithoutFiles := rfl

end Arithmetic

open Arithmetic

/-- Scores are lawful in exact arithmetic, whatever the scores of the files are, and they are in
binary arithmetic, for files that score from zero to one hundred as every file does. -/
theorem scores_lawful : rational.Lawful Set.univ ∧ binary.Lawful (Set.Icc 0 100) := by
  constructor
  · exact rounds_rational.lawful Set.univ fun _ _ => ⟨trivial, trivial⟩
  · refine rounds_binary.lawful (Set.Icc 0 100) ?_
    intro score inside
    have low : (0 : ℚ) ≤ score := by exact_mod_cast inside.1
    have high : (score : ℚ) ≤ 100 := by exact_mod_cast inside.2
    exact ⟨⟨low, by linarith⟩, ⟨by linarith, by linarith⟩⟩

end Conformance.Audit
