import Conformance.Proofs.Disk.Entries

/-!
# Following paths

Where a path leads on a grown disk, how a path leads on below a directory, and what is
known of the place that it leads to. A walk is taken up to the next link; the statements
about whole paths then go by the number of links that may still be met.
-/

namespace Conformance.Disk

variable {disk before after : Disk}

/-- Names along which there is no link lead to where the walk arrives. -/
theorem followFrom_arrived (followLast : Bool) (links : Nat) (here : Location)
    (names : List String) (location : Location)
    (walked : disk.walk followLast here names = .arrived location) :
    disk.followFrom followLast links here names = .ok location := by
  cases links <;> simp [followFrom, walked]

/-- From a link on, its target is followed, and then the names behind the link. -/
theorem followFrom_atLink (followLast : Bool) (links : Nat) (here : Location)
    (names : List String) (directory : Location) (name : String) (target : Path)
    (rest : List String)
    (walked : disk.walk followLast here names = .atLink directory name target rest) :
    disk.followFrom followLast (links + 1) here names =
      disk.followFrom followLast links (targetOrigin directory target) (target.parts ++ rest) := by
  rw [followFrom, walked]

/-- Induction over the links on the way to a location: the walk arrives, or it stops at a
link from which the location is reached with fewer links. -/
theorem followFrom_induction {followLast : Bool} {location : Location}
    (motive : Nat → Location → List String → Prop)
    (arrives : ∀ links here names, disk.walk followLast here names = .arrived location →
      motive links here names)
    (passes : ∀ links here names directory name target rest,
      disk.walk followLast here names = .atLink directory name target rest →
        motive links (targetOrigin directory target) (target.parts ++ rest) →
          motive (links + 1) here names)
    (links : Nat) (here : Location) (names : List String)
    (followed : disk.followFrom followLast links here names = .ok location) :
    motive links here names := by
  induction links generalizing here names with
  | zero =>
    rw [followFrom] at followed
    cases walked : disk.walk followLast here names with
    | arrived place =>
      obtain rfl : place = location := by simpa [walked] using followed
      exact arrives 0 here names walked
    | failed fault => simp [walked] at followed
    | atLink directory name target rest => simp [walked] at followed
  | succ links inductionHypothesis =>
    rw [followFrom] at followed
    cases walked : disk.walk followLast here names with
    | arrived place =>
      obtain rfl : place = location := by simpa [walked] using followed
      exact arrives _ here names walked
    | failed fault => simp [walked] at followed
    | atLink directory name target rest =>
      simp only [walked] at followed
      exact passes links here names directory name target rest walked
        (inductionHypothesis _ _ followed)

/-- A place that held no link does not hold one on a steady disk. -/
theorem Steady.not_link (steady : Steady before after) (location : Location) (target : Path)
    (absent : before.entry? location ≠ some (.link target)) :
    after.entry? location ≠ some (.link target) :=
  fun standing => absent ((steady.links location target).mp standing)

/-- A walk arrives at a last name, whatever stands there, unless it is a link to be followed. -/
theorem walk_single (followLast : Bool) (here : Location) (name : String) (down : name ≠ "..")
    (plain : followLast = true → ∀ target, disk.entry? (here ++ [name]) ≠ some (.link target)) :
    disk.walk followLast here [name] = .arrived (here ++ [name]) := by
  simp only [walk, down, if_false]
  cases standing : disk.entry? (here ++ [name]) with
  | none => rfl
  | some entry =>
    cases entry with
    | directory => rfl
    | file bytes => rfl
    | link target =>
      cases followLast with
      | false => rfl
      | true => exact absurd standing (plain rfl target)

/-- A walk that does not fail for want of a name goes the same way on a steady disk. Where it
fails at a file, that file must not have been taken away. -/
theorem Steady.walks (steady : Steady before after) (followLast : Bool) (names : List String)
    (here : Location) (result : Walk) (walked : before.walk followLast here names = result)
    (passed : result ≠ .failed .missing)
    (intact : (∃ fault, result = .failed fault) → ∀ location bytes,
      before.entry? location = some (.file bytes) →
        ∃ current, after.entry? location = some (.file current)) :
    after.walk followLast here names = result := by
  induction names generalizing here with
  | nil => exact walked
  | cons name rest inductionHypothesis =>
    by_cases up : name = ".."
    · simp only [walk, up, if_true] at walked ⊢
      exact inductionHypothesis _ walked
    · have alone (plain : ∀ target, before.entry? (here ++ [name]) ≠ some (.link target))
          (last : rest = []) : after.walk followLast here (name :: rest) = result := by
        subst last
        rw [walk_single followLast here name up fun _ => plain] at walked
        rw [walk_single followLast here name up fun _ target =>
          steady.not_link _ target (plain target), walked]
      cases standing : before.entry? (here ++ [name]) with
      | none =>
        cases rest with
        | nil => exact alone (by simp [standing]) rfl
        | cons _ _ =>
          simp only [walk, up, if_false, standing, List.isEmpty_cons] at walked
          exact absurd walked.symm passed
      | some entry =>
        cases entry with
        | directory =>
          simp only [walk, up, if_false, standing] at walked
          simp only [walk, up, if_false, steady.directories _ standing]
          exact inductionHypothesis _ walked
        | file bytes =>
          cases rest with
          | nil => exact alone (by simp [standing]) rfl
          | cons _ _ =>
            simp only [walk, up, if_false, standing, List.isEmpty_cons] at walked
            obtain ⟨current, now⟩ := intact ⟨_, walked.symm⟩ _ bytes standing
            simpa only [walk, up, if_false, now, List.isEmpty_cons] using walked
        | link target =>
          have still := (steady.links _ target).mpr standing
          simp only [walk, up, if_false, standing] at walked
          simpa only [walk, up, if_false, still] using walked

/-- A walk that does not fail for want of a name goes the same way on a grown disk. -/
theorem Grows.walks (grown : Grows before after) (followLast : Bool) (names : List String)
    (here : Location) (result : Walk) (walked : before.walk followLast here names = result)
    (passed : result ≠ .failed .missing) :
    after.walk followLast here names = result :=
  grown.steady.walks followLast names here result walked passed fun _ => grown.files

/-- What names lead to is not moved on a steady disk. -/
theorem Steady.followsFrom (steady : Steady before after) (followLast : Bool) (links : Nat)
    (here : Location) (names : List String) (location : Location)
    (followed : before.followFrom followLast links here names = .ok location) :
    after.followFrom followLast links here names = .ok location := by
  apply followFrom_induction
    (fun links here names => after.followFrom followLast links here names = .ok location)
    ?_ ?_ links here names followed
  · intro links here names walked
    exact followFrom_arrived _ _ _ _ _
      (steady.walks followLast names here _ walked (by simp) (by simp))
  · intro links here names directory name target rest walked led
    rw [followFrom_atLink followLast links here names directory name target rest
      (steady.walks followLast names here _ walked (by simp) (by simp))]
    exact led

/-- Names that are refused for another reason than a missing name are refused on a grown
disk too. -/
theorem Grows.refusesFrom (grown : Grows before after) (followLast : Bool) (links : Nat)
    (here : Location) (names : List String) (fault : DiskFault) (other : fault ≠ .missing)
    (refused : before.followFrom followLast links here names = .error fault) :
    after.followFrom followLast links here names = .error fault := by
  induction links using Nat.strongRecOn generalizing here names with
  | ind links inductionHypothesis =>
    rw [followFrom] at refused ⊢
    cases walked : before.walk followLast here names with
    | arrived place => simp [walked] at refused
    | failed found =>
      obtain rfl : found = fault := by simpa [walked] using refused
      rw [grown.walks followLast names here _ walked (by simpa using other)]
    | atLink directory name target rest =>
      rw [grown.walks followLast names here _ walked (by simp)]
      simp only [walked] at refused
      cases links with
      | zero => exact refused
      | succ links => exact inductionHypothesis links (Nat.lt_succ_self links) _ _ refused

/-- Paths begin in the same place on a steady disk. -/
theorem Steady.origin (steady : Steady before after) (path : Path) :
    after.origin path = before.origin path := by
  simp only [Disk.origin, steady.workingDirectory]

/-- A name that is refused for another reason than a missing one is refused on a grown disk
too. -/
theorem Grows.refuses (grown : Grows before after) (path : Path) (fault : DiskFault)
    (other : fault ≠ .missing) (refused : before.locate path = .error fault) :
    after.locate path = .error fault := by
  rw [locate, grown.steady.origin]
  exact grown.refusesFrom false linkLimit _ _ fault other refused

/-- What a path leads to is not moved on a steady disk. -/
theorem Steady.follows (steady : Steady before after) (path : Path) (location : Location)
    (followed : before.follow path = .ok location) : after.follow path = .ok location := by
  rw [follow, steady.origin]
  exact steady.followsFrom true linkLimit _ _ location followed

/-- What a path leads to is not moved by growth. -/
theorem Grows.follows (grown : Grows before after) (path : Path) (location : Location)
    (followed : before.follow path = .ok location) : after.follow path = .ok location :=
  grown.steady.follows path location followed

/-- The target of a link begins in a real directory if the link stands in one. -/
theorem real_targetOrigin {directory : Location} (real : disk.Real directory) (target : Path) :
    disk.Real (targetOrigin directory target) := by
  unfold targetOrigin
  split
  · exact real_top disk
  · exact real

/-- A walk from a real directory arrives in one, or stops at a link that stands in one. -/
theorem walk_real (followLast : Bool) (names : List String) (here : Location)
    (real : disk.Real here) :
    (∀ location, disk.walk followLast here names = .arrived location →
      disk.Real location.dropLast) ∧
    ∀ directory name target rest,
      disk.walk followLast here names = .atLink directory name target rest →
        disk.Real directory := by
  induction names generalizing here with
  | nil =>
    refine ⟨?_, by simp [walk]⟩
    intro location arrived
    obtain rfl : here = location := by simpa [walk] using arrived
    exact real.above (List.dropLast_prefix here)
  | cons name rest inductionHypothesis =>
    by_cases up : name = ".."
    · simp only [walk, up, if_true]
      exact inductionHypothesis _ (real.above (List.dropLast_prefix here))
    · simp only [walk, up, if_false]
      have arrivedHere (location : Location) (arrived : here ++ [name] = location) :
          disk.Real location.dropLast := by
        rw [← arrived, List.dropLast_concat]
        exact real
      cases standing : disk.entry? (here ++ [name]) with
      | none => cases rest <;> simp_all
      | some entry =>
        cases entry with
        | directory => exact inductionHypothesis _ (real.child name standing)
        | file bytes => cases rest <;> simp_all
        | link target =>
          simp only
          split
          · simp_all
          · refine ⟨by simp, ?_⟩
            intro directory _ _ _ stopped
            simp only [Walk.atLink.injEq] at stopped
            exact stopped.1 ▸ real

/-- Names that are followed from a real directory lead into one. -/
theorem followFrom_real (followLast : Bool) (links : Nat) (here : Location)
    (names : List String) (location : Location) (real : disk.Real here)
    (followed : disk.followFrom followLast links here names = .ok location) :
    disk.Real location.dropLast := by
  refine followFrom_induction (fun _ here _ => disk.Real here → disk.Real location.dropLast)
    ?_ ?_ links here names followed real
  · intro links here names walked real
    exact (walk_real followLast names here real).1 _ walked
  · intro links here names directory name target rest walked led real
    have stopped : disk.Real directory :=
      (walk_real followLast names here real).2 _ _ _ _ walked
    exact led (real_targetOrigin stopped target)

/-- A path begins in a real directory, if the working directory is one. -/
theorem real_origin (real : disk.Real disk.workingDirectory) (path : Path) :
    disk.Real (disk.origin path) := by
  unfold origin
  split
  · exact real_top disk
  · exact real

/-- A path that can be followed leads into a real directory. -/
theorem follow_real (real : disk.Real disk.workingDirectory) (path : Path)
    (location : Location) (followed : disk.follow path = .ok location) :
    disk.Real location.dropLast :=
  followFrom_real true linkLimit _ _ location (real_origin real path) followed

/-- Whether the last name is followed makes a difference only where that is a link. The induction is on the names:
with none behind it, a link is where the one walk arrives and the other one stops. -/
theorem walk_followLast (names : List String) (here : Location) :
    disk.walk true here names = disk.walk false here names ∨
      ∃ directory name target, disk.walk true here names = .atLink directory name target [] ∧
        disk.walk false here names = .arrived (directory ++ [name]) ∧
          disk.entry? (directory ++ [name]) = some (.link target) := by
  induction names generalizing here with
  | nil => exact .inl rfl
  | cons name rest inductionHypothesis =>
    by_cases up : name = ".."
    · simp only [walk, up, if_true]
      exact inductionHypothesis _
    · simp only [walk, up, if_false]
      cases standing : disk.entry? (here ++ [name]) with
      | none => exact .inl rfl
      | some entry =>
        cases entry with
        | directory => exact inductionHypothesis _
        | file bytes => exact .inl rfl
        | link target =>
          cases rest with
          | nil => exact .inr ⟨here, name, target, rfl, rfl, standing⟩
          | cons next more => exact .inl rfl

/-- A place that is no link is where the path leads. -/
theorem follow_of_locate (path : Path) (location : Location)
    (located : disk.locate path = .ok location)
    (plain : ∀ target, disk.entry? location ≠ some (.link target)) :
    disk.follow path = .ok location := by
  apply followFrom_induction
    (fun links here names => disk.followFrom true links here names = .ok location)
    ?_ ?_ linkLimit _ _ located
  · intro links here names walked
    rcases walk_followLast names here with same | ⟨directory, name, target, _, arrived, standing⟩
    · exact followFrom_arrived _ _ _ _ _ (same.trans walked)
    · obtain rfl : directory ++ [name] = location := by simpa [arrived] using walked
      exact absurd standing (plain target)
  · intro links here names directory name target rest walked led
    rcases walk_followLast names here with same | ⟨_, _, _, _, arrived, _⟩
    · rw [followFrom_atLink true links here names directory name target rest (same.trans walked)]
      exact led
    · rw [arrived] at walked
      cases walked

/-- A walk that arrives at a directory goes on from there along further names. -/
theorem walk_append (followLast : Bool) (more : List String) (names : List String)
    (here : Location) (further : more ≠ []) :
    (∀ location, disk.walk true here names = .arrived location →
      disk.entry? location = some .directory →
        disk.walk followLast here (names ++ more) = disk.walk followLast location more) ∧
    ∀ directory name target rest,
      disk.walk true here names = .atLink directory name target rest →
        disk.walk followLast here (names ++ more) =
          .atLink directory name target (rest ++ more) := by
  induction names generalizing here with
  | nil => simp [walk]
  | cons name rest inductionHypothesis =>
    by_cases up : name = ".."
    · simp only [walk, up, if_true, List.cons_append]
      exact inductionHypothesis _
    · simp only [walk, up, if_false, List.cons_append]
      cases standing : disk.entry? (here ++ [name]) with
      | none => cases rest <;> simp_all
      | some entry =>
        cases entry with
        | directory => exact inductionHypothesis _
        | file bytes => cases rest <;> simp_all
        | link target => simp_all

/-- Below a directory that names lead to, one more name leads to its own place. -/
theorem followFrom_child (followLast : Bool) (links : Nat) (here : Location)
    (names : List String) (location : Location) (name : String)
    (followed : disk.followFrom true links here names = .ok location)
    (standing : disk.entry? location = some .directory) (down : name ≠ "..")
    (plain : followLast = true → ∀ target, disk.entry? (location ++ [name]) ≠ some (.link target)) :
    disk.followFrom followLast links here (names ++ [name]) = .ok (location ++ [name]) := by
  have last := walk_single followLast location name down plain
  apply followFrom_induction
    (fun links here names =>
      disk.followFrom followLast links here (names ++ [name]) = .ok (location ++ [name]))
    ?_ ?_ links here names followed
  · intro links here names walked
    apply followFrom_arrived
    rw [(walk_append followLast [name] names here (by simp)).1 location walked standing, last]
  · intro links here names directory middle target rest walked led
    rw [followFrom_atLink followLast links here _ directory middle target (rest ++ [name])
      ((walk_append followLast [name] names here (by simp)).2 _ _ _ _ walked),
      ← List.append_assoc]
    exact led

/-- A name in a directory has its place there. -/
theorem locate_child (path : Path) (location : Location) (name : String)
    (followed : disk.follow path = .ok location)
    (standing : disk.entry? location = some .directory) (down : name ≠ "..") :
    disk.locate (path.child name) = .ok (location ++ [name]) :=
  followFrom_child false linkLimit _ _ location name followed standing down (by simp)

/-- A name in a directory that is no link leads to its place there. -/
theorem follow_child (path : Path) (location : Location) (name : String)
    (followed : disk.follow path = .ok location)
    (standing : disk.entry? location = some .directory) (down : name ≠ "..")
    (plain : ∀ target, disk.entry? (location ++ [name]) ≠ some (.link target)) :
    disk.follow (path.child name) = .ok (location ++ [name]) :=
  followFrom_child true linkLimit _ _ location name followed standing down fun _ => plain

/-- A walk that comes past a last name has come to a directory before it, or stops at an
earlier link. -/
theorem walk_before (followLast : Bool) (name : String) (names : List String)
    (here : Location) (real : disk.Real here) :
    disk.walk followLast here (names ++ [name]) = .failed .missing ∨
    disk.walk followLast here (names ++ [name]) = .failed .notDirectory ∨
    (∃ location, disk.walk true here names = .arrived location ∧
      disk.entry? location = some .directory) ∨
    ∃ directory middle target rest,
      disk.walk true here names = .atLink directory middle target rest ∧
        disk.walk followLast here (names ++ [name]) =
          .atLink directory middle target (rest ++ [name]) := by
  induction names generalizing here with
  | nil => exact .inr (.inr (.inl ⟨here, rfl, real here (List.prefix_refl here)⟩))
  | cons first rest inductionHypothesis =>
    by_cases up : first = ".."
    · simp only [walk, up, if_true, List.cons_append]
      exact inductionHypothesis _ (real.above (List.dropLast_prefix here))
    · simp only [walk, up, if_false, List.cons_append]
      cases standing : disk.entry? (here ++ [first]) with
      | none => exact .inl (by simp)
      | some entry =>
        cases entry with
        | directory => exact inductionHypothesis _ (real.child first standing)
        | file bytes => exact .inr (.inl (by simp))
        | link target =>
          exact .inr (.inr (.inr ⟨here, first, target, rest, by simp, by simp⟩))

/-- Names lead to a directory if something can be reached through one name more. -/
theorem followFrom_before (followLast : Bool) (links : Nat) (here : Location)
    (names : List String) (name : String) (location : Location) (real : disk.Real here)
    (followed : disk.followFrom followLast links here (names ++ [name]) = .ok location) :
    ∃ parent, disk.followFrom true links here names = .ok parent ∧
      disk.entry? parent = some .directory := by
  refine followFrom_induction
    (fun links here all => ∀ names, all = names ++ [name] → disk.Real here →
      ∃ parent, disk.followFrom true links here names = .ok parent ∧
        disk.entry? parent = some .directory)
    ?_ ?_ links here (names ++ [name]) followed names rfl real
  · rintro links here _ walked names rfl real
    rcases walk_before followLast name names here real with
      missing | blocked | ⟨parent, arrived, standing⟩ | ⟨_, _, _, _, _, stopped⟩
    · simp [missing] at walked
    · simp [blocked] at walked
    · exact ⟨parent, followFrom_arrived _ _ _ _ _ arrived, standing⟩
    · simp [stopped] at walked
  · rintro links here _ directory middle target rest walked led names rfl real
    rcases walk_before followLast name names here real with
      missing | blocked | ⟨parent, arrived, standing⟩ | ⟨base, inner, aim, earlier, first, stopped⟩
    · simp [missing] at walked
    · simp [blocked] at walked
    · exact ⟨parent, followFrom_arrived _ _ _ _ _ arrived, standing⟩
    · rw [stopped] at walked
      obtain ⟨rfl, rfl, rfl, rfl⟩ : base = directory ∧ inner = middle ∧ aim = target ∧
          earlier ++ [name] = rest := by simpa using walked
      have within : disk.Real (targetOrigin base aim) :=
        real_targetOrigin ((walk_real true names here real).2 _ _ _ _ first) aim
      obtain ⟨parent, reached, standing⟩ := led (aim.parts ++ earlier) (by simp) within
      exact ⟨parent, by rw [followFrom_atLink _ _ _ _ _ _ _ _ first, reached], standing⟩

/-- A path leads to a directory if a name below it can be located. -/
theorem follow_of_locate_child (real : disk.Real disk.workingDirectory) (path : Path)
    (name : String) (location : Location)
    (located : disk.locate (path.child name) = .ok location) :
    ∃ parent, disk.follow path = .ok parent ∧ disk.entry? parent = some .directory :=
  followFrom_before false linkLimit _ _ name location (real_origin real path) located

/-- A path leads to a directory if a name below it can be followed. -/
theorem follow_of_follow_child (real : disk.Real disk.workingDirectory) (path : Path)
    (name : String) (location : Location)
    (followed : disk.follow (path.child name) = .ok location) :
    ∃ parent, disk.follow path = .ok parent ∧ disk.entry? parent = some .directory :=
  followFrom_before true linkLimit _ _ name location (real_origin real path) followed

end Conformance.Disk
