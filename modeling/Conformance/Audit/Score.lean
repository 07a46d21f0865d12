import Conformance.Number.Binary64
import Conformance.Number.Sum
import Conformance.Rule

/-!
# Scores

A file without violations scores one hundred. Every violation costs its severity's
weight as a share of the lines, down to nothing. A project scores the mean of its files.
A half is rounded up. The scores are told for any kind of numbers; an audit computes
them with binary ones.
-/

namespace Conformance.Audit

open Number

/-- The numbers that shares and means are computed with. -/
structure Arithmetic (ν : Type) where
  /-- The quotient of an integer by a positive one. -/
  ofRatio : Int → Nat → ν
  add : ν → ν → ν
  sub : ν → ν → ν
  less : ν → ν → Bool
  /-- The greatest integer not above a number, if there is one. -/
  floor? : ν → Option Int

/-- The best score. -/
def fullScore : Nat := 100

/-- The summed weight of severities. -/
def weight (severities : List Severity) : Nat := Number.total (severities.map Severity.rank)

namespace Arithmetic

variable {ν : Type} (numbers : Arithmetic ν)

/-- An integer as a number. -/
def ofInt (value : Int) : ν := numbers.ofRatio value 1

/-- The whole number next to a number; of two that are equally near, the greater one. A
value that is no finite number has none. -/
def roundHalfUp? (value : ν) : Option Int :=
  numbers.floor? (numbers.add value (numbers.ofRatio 1 2))

/-- The weight of violations as a share of the lines, in hundredths. -/
def weightShare (severities : List Severity) (lineCount : Int) : ν :=
  numbers.ofRatio (fullScore * weight severities * lineCount.sign) lineCount.natAbs

/-- The score of a file with violations of some severities in a number of lines. -/
def fileScore (severities : List Severity) (lineCount : Int) : Int :=
  if lineCount = 0 then fullScore
  else
    let left := numbers.sub (numbers.ofInt fullScore) (numbers.weightShare severities lineCount)
    let clamped := if numbers.less left (numbers.ofInt 0) then numbers.ofInt 0 else left
    (numbers.roundHalfUp? clamped).getD 0

/-- The score of a project from the scores of its files. -/
def overallScore (scores : List Int) : Int :=
  if scores.isEmpty then fullScore
  else (numbers.roundHalfUp? (numbers.ofRatio (scores.foldr (· + ·) 0) scores.length)).getD 0

end Arithmetic

/-- Binary numbers, which every operation rounds. -/
def binary : Arithmetic Binary64 :=
  ⟨Binary64.ofRatio, Binary64.add, Binary64.sub, Binary64.less, Binary64.floor?⟩

/-- The whole number next to a binary number. -/
def roundHalfUp? : Binary64 → Option Int := binary.roundHalfUp?

/-- The score of a file, computed with binary numbers. -/
def fileScore : List Severity → Int → Int := binary.fileScore

/-- The score of a project, computed with binary numbers. -/
def overallScore : List Int → Int := binary.overallScore

end Conformance.Audit
