import Conformance.Backup.Manifest
import Conformance.Proofs.Failing
import Mathlib.Data.List.Forall2
import Mathlib.Data.List.Nodup
import Mathlib.Data.List.Perm.Subperm

/-!
# Manifests that are loaded or refused

A manifest may hold any bytes. Its records are those of a list of objects with exactly the four fields
of a record, in any order; all else is refused, with two exceptions. Bytes that are no text, and documents
with an integer that is too long or that are nested too deep, end the work in other ways, and fields that
hold no texts are taken as they are.
-/

namespace Conformance

variable {fields : List (String × Json)} {name : String} {value : Json}

/-- An error that tells of a manifest. The other ones come from decoding and from reading documents. -/
def ManifestError.IsRefusal : ManifestError → Prop
  | .unreadable _ _ | .notList _ | .malformedEntry _ => True
  | .undecodable _ | .oversized _ | .tooDeep => False

/-- The values of a record by the names of its fields. -/
def BackupRecordOf.named (record : BackupRecordOf Json) : List (String × Json) :=
  [("timestamp", record.timestamp), ("original_path", record.filePath),
    ("backup_path", record.backupPath), ("hash", record.hash)]

/-- The values of a record are texts. -/
def BackupRecordOf.OfTexts (record : BackupRecordOf Json) : Prop :=
  ∃ texts : BackupRecord, record = texts.map .string

/-- The names of the fields of a record are different. -/
theorem BackupRecordOf.nodup_named (record : BackupRecordOf Json) : (record.named.map Prod.fst).Nodup := by
  have distinct : ["timestamp", "original_path", "backup_path", "hash"].Nodup := by decide
  exact distinct

/-- The field that is found is one of the fields. -/
theorem Json.mem_of_lookup (found : lookup name fields = some value) : (name, value) ∈ fields := by
  induction fields with
  | nil => cases found
  | cons field fields inductionHypothesis =>
    obtain ⟨other, content⟩ := field
    rw [lookup] at found
    split at found
    · next same =>
      cases found
      rw [same]
      exact List.mem_cons_self
    · exact List.mem_cons_of_mem _ (inductionHypothesis found)

/-- Among fields with different names each one is found by its name. -/
theorem Json.lookup_of_mem (distinct : (fields.map Prod.fst).Nodup) (member : (name, value) ∈ fields) :
    lookup name fields = some value := by
  induction fields with
  | nil => cases member
  | cons field fields inductionHypothesis =>
    obtain ⟨other, content⟩ := field
    obtain ⟨absent, distinct⟩ := List.nodup_cons.mp distinct
    rw [lookup]
    rcases List.mem_cons.mp member with same | member
    · cases same
      exact if_pos rfl
    · have apart : other ≠ name := by
        rintro rfl
        exact absent (List.mem_map.mpr ⟨_, member, rfl⟩)
      rw [if_neg apart]
      exact inductionHypothesis distinct member

namespace Manifest

variable {disk : Disk} {path : Path}

/-- An entry is a record: an object with the fields of the record, in any order. -/
def IsRecord (entry : Json) (record : BackupRecordOf Json) : Prop :=
  ∃ fields, entry = .object fields ∧ fields.Perm record.named

/-- The record in an object is told by its four fields and their number. -/
theorem record?_object_iff (record : BackupRecordOf Json) :
    record? (.object fields) = some record ↔
      (∀ field ∈ record.named, Json.lookup field.1 fields = some field.2) ∧ fields.length = 4 := by
  obtain ⟨timestamp, filePath, backupPath, hash⟩ := record
  simp only [record?, Option.bind_eq_bind, Option.bind_eq_some_iff, BackupRecordOf.named,
    List.forall_mem_cons, List.not_mem_nil]
  constructor
  · rintro ⟨_, first, _, second, _, third, _, fourth, made⟩
    split at made
    · next four =>
      cases made
      exact ⟨⟨first, second, third, fourth, fun _ none => none.elim⟩, four⟩
    · cases made
  · rintro ⟨⟨first, second, third, fourth, _⟩, four⟩
    exact ⟨_, first, _, second, _, third, _, fourth, if_pos four⟩

/-- A record is made of an entry exactly if the entry is that record. -/
theorem record?_eq_some_iff (entry : Json) (record : BackupRecordOf Json) :
    record? entry = some record ↔ IsRecord entry record := by
  constructor
  · intro made
    cases entry with
    | object fields =>
      obtain ⟨found, four⟩ := (record?_object_iff record).mp made
      have inside : record.named ⊆ fields := fun field member => Json.mem_of_lookup (found field member)
      have distinct : record.named.Nodup := List.Nodup.of_map Prod.fst record.nodup_named
      exact ⟨fields, rfl,
        ((List.subperm_of_subset distinct inside).perm_of_length_le (Nat.le_of_eq four)).symm⟩
    | _ => cases made
  · rintro ⟨fields, rfl, same⟩
    refine (record?_object_iff record).mpr ⟨fun field member => ?_, same.length_eq⟩
    have distinct : (fields.map Prod.fst).Nodup := (same.map Prod.fst).nodup_iff.mpr record.nodup_named
    exact Json.lookup_of_mem distinct (same.mem_iff.mpr member)

/-- Records are made of entries exactly if each entry is its record. -/
theorem records_eq_some_iff (entries : List Json) (records : List (BackupRecordOf Json)) :
    entries.mapM record? = some records ↔ List.Forall₂ IsRecord entries records := by
  induction entries generalizing records with
  | nil => simp [eq_comm]
  | cons entry entries inductionHypothesis =>
    rw [List.mapM_cons, List.forall₂_cons_left_iff]
    simp only [← inductionHypothesis, ← record?_eq_some_iff]
    cases record? entry with
    | none => simp
    | some record => cases entries.mapM record? <;> simp [eq_comm]

/-- Records are taken from a document exactly if it is a list of them. -/
theorem ofDocument_eq_ok_iff (document : Json) (records : List (BackupRecordOf Json)) :
    ofDocument path document = .ok records ↔
      ∃ entries, document = .array entries ∧ List.Forall₂ IsRecord entries records := by
  cases document with
  | array entries =>
    simp only [ofDocument, ← records_eq_some_iff]
    cases made : entries.mapM record? <;> simp [made]
  | _ => simp [ofDocument]

/-- A document is taken or refused. -/
theorem refuses_ofDocument (path : Path) (document : Json) :
    FailsOnly ManifestError.IsRefusal (ofDocument path document) := by
  unfold ofDocument
  split
  · split
    · exact failsOnly_ok _ _
    · exact (failsOnly_error_iff _ _).mpr trivial
  · exact (failsOnly_error_iff _ _).mpr trivial

/-- Records are taken from a text exactly if it is a list of them. -/
theorem ofText_eq_ok_iff (text : List Char) (records : List (BackupRecordOf Json)) :
    ofText path text = .ok records ↔
      ∃ entries, Json.read text = .ok (.array entries) ∧ List.Forall₂ IsRecord entries records := by
  unfold ofText
  cases Json.read text with
  | error fault => cases fault <;> simp
  | ok document => simp [ofDocument_eq_ok_iff]

/-- A text is taken or refused exactly if it is a document or breaks the grammar of documents. -/
theorem refuses_ofText_iff (path : Path) (text : List Char) :
    FailsOnly ManifestError.IsRefusal (ofText path text) ↔ FailsOnly (· = .malformed) (Json.read text) := by
  unfold ofText
  cases Json.read text with
  | error fault => cases fault <;> simp [ManifestError.IsRefusal]
  | ok document => simp [refuses_ofDocument]

/-- Records are loaded exactly if the bytes of the manifest are a text that is a list of them. -/
theorem load_eq_ok_iff (records : List (BackupRecordOf Json)) :
    load disk path = .ok records ↔ ∃ bytes text entries, disk.read path = .ok bytes ∧
      Text.decode bytes = .ok text ∧ Json.read (Text.normaliseLineEnds text) = .ok (.array entries) ∧
        List.Forall₂ IsRecord entries records := by
  unfold load Disk.readText
  cases disk.read path with
  | error error => simp
  | ok bytes =>
    cases decoded : Text.decode bytes with
    | error error => simp [decoded]
    | ok text => simp [decoded, ofText_eq_ok_iff]

/-- Loading a manifest gives records of texts or a refusal. -/
structure Contract (outcome : Except ManifestError (List (BackupRecordOf Json))) : Prop where
  texts : ∀ records, outcome = .ok records → ∀ record ∈ records, record.OfTexts
  refuses : FailsOnly ManifestError.IsRefusal outcome

/-- A text is a document or breaks the grammar of documents, and if it is a list of records, they are
records of texts. -/
structure Sound (text : List Char) : Prop where
  readable : FailsOnly (· = .malformed) (Json.read text)
  texts : ∀ entries records, Json.read text = .ok (.array entries) →
    List.Forall₂ IsRecord entries records → ∀ record ∈ records, record.OfTexts

/-- The contract is kept for a text exactly if it is sound. -/
theorem contract_ofText_iff (path : Path) (text : List Char) :
    Contract (ofText path text) ↔ Sound text := by
  constructor
  · rintro ⟨texts, refuses⟩
    refine ⟨(refuses_ofText_iff path text).mp refuses, fun entries records read each => ?_⟩
    exact texts records ((ofText_eq_ok_iff text records).mpr ⟨entries, read, each⟩)
  · rintro ⟨readable, texts⟩
    refine ⟨fun records taken => ?_, (refuses_ofText_iff path text).mpr readable⟩
    obtain ⟨entries, read, each⟩ := (ofText_eq_ok_iff text records).mp taken
    exact texts entries records read each

/-- The contract is kept for a manifest exactly if its bytes, where it can be read, are a sound text. -/
theorem contract_load_iff (disk : Disk) (path : Path) :
    Contract (load disk path) ↔ ∀ bytes, disk.read path = .ok bytes →
      ∃ text, Text.decode bytes = .ok text ∧ Sound (Text.normaliseLineEnds text) := by
  unfold load Disk.readText
  cases disk.read path with
  | error error => exact iff_of_true ⟨by simp, by simp [ManifestError.IsRefusal]⟩ (by simp)
  | ok bytes =>
    cases decoded : Text.decode bytes with
    | error error =>
      refine iff_of_false (fun contract => ?_) (by simp [decoded])
      simpa [decoded, ManifestError.IsRefusal] using contract.refuses
    | ok text => simp [decoded, contract_ofText_iff]

/-- **Records are loaded exactly from a list of objects with their fields. Loading gives records of texts or
a refusal, and nothing else, exactly if the manifest cannot be read at all or is a sound text.** -/
theorem loads_texts_or_refuses_iff (disk : Disk) (path : Path) :
    (∀ records, load disk path = .ok records ↔ ∃ bytes text entries, disk.read path = .ok bytes ∧
      Text.decode bytes = .ok text ∧ Json.read (Text.normaliseLineEnds text) = .ok (.array entries) ∧
        List.Forall₂ IsRecord entries records) ∧
      (Contract (load disk path) ↔ ∀ bytes, disk.read path = .ok bytes →
        ∃ text, Text.decode bytes = .ok text ∧ Sound (Text.normaliseLineEnds text)) :=
  ⟨fun records => load_eq_ok_iff records, contract_load_iff disk path⟩

/-- A disk with a manifest of one byte that is no text. -/
def undecodableManifest : Disk := ⟨[], [(["m.json"], .file [255])]⟩

/-- A manifest that is no text is not refused. -/
theorem undecodable_manifest_escapes :
    load undecodableManifest (.ofString "/m.json") = .error (.undecodable ⟨.invalidStart, 255, 0, 1⟩) ∧
      ¬ Contract (load undecodableManifest (.ofString "/m.json")) := by
  have escapes : load undecodableManifest (.ofString "/m.json") =
      .error (.undecodable ⟨.invalidStart, 255, 0, 1⟩) := by rfl
  exact ⟨escapes, fun contract => contract.refuses _ escapes⟩

end Manifest

end Conformance
