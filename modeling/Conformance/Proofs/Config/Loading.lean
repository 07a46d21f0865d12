import Conformance.Proofs.Config.Settings

/-!
# Settings that cannot be used

What is wrong with a setting is refused, unless the setting is unusable: an infinite number where an
integer is wanted, or a value that should be shown and cannot be. So the settings of a project are
loaded or refused as long as their file holds a text, no value of it fails to be made, and no unusable
setting comes to be read.
-/

namespace Conformance

open Yaml

namespace Config

/-- Every value of a settings document can be made, and every unusable setting stands behind one that is
refused. -/
structure UsableText (text : List Char) : Prop where
  made : FailsOnly (· = .malformed) (Yaml.load text)
  regular : ∀ fields, Yaml.load text = .ok (.mapping fields) → Regular fields

/-- The settings file of a project, if there is one that can be opened, holds a usable text. -/
def UsableFile (disk : Disk) (root : Path) : Prop :=
  disk.isFile (filePath root) = true → ∀ bytes, disk.read (filePath root) = .ok bytes →
    ∃ text, Text.decode bytes = .ok text ∧ UsableText (Text.normaliseLineEnds text)

/-- The settings in a text are taken or refused exactly if the text is usable. -/
theorem ofDocument_refuses_iff (text : List Char) :
    FailsOnly ConfigFailure.IsRefusal (ofDocument text) ↔ UsableText text := by
  unfold ofDocument
  cases loaded : Yaml.load text with
  | error error =>
    cases error with
    | malformed => exact iff_of_true (failsOnly_ok _ _) ⟨by simp [loaded], by simp [loaded]⟩
    | _ =>
      refine iff_of_false (by simp [ConfigFailure.IsRefusal]) fun usable => ?_
      cases usable.made _ loaded
  | ok value =>
    cases value with
    | mapping fields =>
      refine (ofFields_refuses_iff fields).trans ⟨fun regular => ?_, fun usable => ?_⟩
      · refine ⟨by simp [loaded], fun others same => ?_⟩
        obtain ⟨⟩ := loaded.symm.trans same
        exact regular
      · exact usable.regular fields loaded
    | _ => exact iff_of_true (failsOnly_ok _ _) ⟨by simp [loaded], by simp [loaded]⟩

/-- The settings of a project are loaded or refused exactly if their file is usable. -/
theorem load_refuses_iff (disk : Disk) (root : Path) :
    FailsOnly ConfigFailure.IsRefusal (load disk root) ↔ UsableFile disk root := by
  unfold load UsableFile
  by_cases present : disk.isFile (filePath root) = true
  · cases opened : disk.read (filePath root) with
    | error error => simp [present, Disk.readText, opened]
    | ok bytes =>
      cases decoded : Text.decode bytes with
      | error error => simp [present, Disk.readText, opened, decoded, ConfigFailure.IsRefusal]
      | ok text =>
        simp [present, Disk.readText, opened, decoded, ofDocument_refuses_iff]
  · simp [present]

end Config

end Conformance
