import Conformance.Proofs.Disk.Following
import Mathlib.Data.List.Perm.Subperm

/-!
# Resolving paths

The reading of names that the resolution of a path computes, as a relation: each link is
replaced by the place that its target denotes, whatever is missing. The resolution settles
exactly where this reading comes to an end, so it depends on the links of a disk only and
is the same on a grown disk. A path that can be followed resolves to the place that it
leads to, and there is no link on the way to a resolved place.
-/

namespace Conformance.Disk

variable {disk before after : Disk}

/-- Names read from a place denote a location; the number counts the links that are met,
those inside the targets of others included. -/
inductive Leads (disk : Disk) : Location → List String → Nat → Location → Prop where
  | here (location : Location) : Leads disk location [] 0 location
  | up (here : Location) (rest : List String) (links : Nat) (location : Location)
      (onward : Leads disk here.dropLast rest links location) :
      Leads disk here (".." :: rest) links location
  | down (here : Location) (name : String) (rest : List String) (links : Nat)
      (location : Location) (down : name ≠ "..")
      (plain : ∀ target, disk.entry? (here ++ [name]) ≠ some (.link target))
      (onward : Leads disk (here ++ [name]) rest links location) :
      Leads disk here (name :: rest) links location
  | through (here : Location) (name : String) (target : Path) (rest : List String)
      (inner links : Nat) (place location : Location) (down : name ≠ "..")
      (standing : disk.entry? (here ++ [name]) = some (.link target))
      (inward : Leads disk (targetOrigin here target) target.parts inner place)
      (onward : Leads disk place rest links location) :
      Leads disk here (name :: rest) (inner + links + 1) location

/-- Names have one reading. -/
theorem Leads.unique {here first second : Location} {names : List String} {links others : Nat}
    (led : disk.Leads here names links first) (again : disk.Leads here names others second) :
    links = others ∧ first = second := by
  induction led generalizing others second with
  | here location =>
    cases again
    exact ⟨rfl, rfl⟩
  | up here rest links location onward inductionHypothesis =>
    cases again with
    | up _ _ _ _ other => exact inductionHypothesis other
    | down _ _ _ _ _ down => exact absurd rfl down
    | through _ _ _ _ _ _ _ _ down => exact absurd rfl down
  | down here name rest links location down plain onward inductionHypothesis =>
    cases again with
    | up => exact absurd rfl down
    | down _ _ _ _ _ _ _ other => exact inductionHypothesis other
    | through _ _ target _ _ _ _ _ _ standing => exact absurd standing (plain target)
  | through here name target rest inner links place location down standing inward onward
      insideHypothesis behindHypothesis =>
    cases again with
    | up => exact absurd rfl down
    | down _ _ _ _ _ _ plain => exact absurd standing (plain target)
    | through _ _ target' _ _ _ place' _ _ standing' inward' onward' =>
      obtain rfl : target = target' := by simpa [standing] using standing'
      obtain ⟨rfl, rfl⟩ := insideHypothesis inward'
      obtain ⟨rfl, rfl⟩ := behindHypothesis onward'
      exact ⟨rfl, rfl⟩

/-- The reading of names in a row stops between them. -/
theorem Leads.split {here location : Location} {links : Nat} (names more : List String)
    (led : disk.Leads here (names ++ more) links location) :
    ∃ between place rest, disk.Leads here names between place ∧
      disk.Leads place more rest location := by
  induction names generalizing here links with
  | nil => exact ⟨0, here, links, .here here, led⟩
  | cons name names inductionHypothesis =>
    cases led with
    | up _ _ _ _ onward =>
      obtain ⟨between, place, behind, first, second⟩ := inductionHypothesis onward
      exact ⟨between, place, behind, .up here names between place first, second⟩
    | down _ _ _ _ _ down plain onward =>
      obtain ⟨between, place, behind, first, second⟩ := inductionHypothesis onward
      exact ⟨between, place, behind, .down here name names between place down plain first, second⟩
    | through _ _ target _ inner _ place _ down standing inward onward =>
      obtain ⟨between, middle, behind, first, second⟩ := inductionHypothesis onward
      exact ⟨inner + between + 1, middle, behind,
        .through here name target names inner between place middle down standing inward first,
        second⟩

/-- Names have the same reading on disks with the same links. -/
theorem Leads.transfer {here location : Location} {names : List String} {links : Nat}
    (same : ∀ location target, after.entry? location = some (.link target) ↔
      before.entry? location = some (.link target))
    (led : before.Leads here names links location) : after.Leads here names links location := by
  induction led with
  | here location => exact .here location
  | up here rest links location _ inductionHypothesis =>
    exact .up here rest links location inductionHypothesis
  | down here name rest links location down plain _ inductionHypothesis =>
    exact .down here name rest links location down
      (fun target standing => plain target ((same _ target).mp standing)) inductionHypothesis
  | through here name target rest inner links place location down standing _ _
      insideHypothesis behindHypothesis =>
    exact .through here name target rest inner links place location down
      ((same _ target).mpr standing) insideHypothesis behindHypothesis

/-- A walk that arrives reads its names; one that stops at a link reads them if the target
of the link and the names behind it can be read. -/
theorem leads_of_walk (names : List String) (here : Location) :
    (∀ location, disk.walk true here names = .arrived location →
      disk.Leads here names 0 location) ∧
    ∀ directory name target rest links location,
      disk.walk true here names = .atLink directory name target rest →
        disk.Leads (targetOrigin directory target) (target.parts ++ rest) links location →
          ∃ more, disk.Leads here names more location := by
  induction names generalizing here with
  | nil =>
    refine ⟨?_, by simp [walk]⟩
    intro location arrived
    obtain rfl : here = location := by simpa [walk] using arrived
    exact .here here
  | cons name rest inductionHypothesis =>
    by_cases up : name = ".."
    · subst up
      simp only [walk, if_true]
      refine ⟨?_, ?_⟩
      · intro location arrived
        exact .up here rest 0 location ((inductionHypothesis _).1 location arrived)
      · intro directory name target behind links location stopped led
        obtain ⟨more, onward⟩ :=
          (inductionHypothesis _).2 directory name target behind links location stopped led
        exact ⟨more, .up here rest more location onward⟩
    · simp only [walk, up, if_false]
      cases standing : disk.entry? (here ++ [name]) with
      | none =>
        cases rest with
        | cons _ _ => simp
        | nil =>
          refine ⟨?_, by simp⟩
          intro location arrived
          obtain rfl : here ++ [name] = location := by simpa using arrived
          exact .down here name [] 0 _ up (by simp [standing]) (.here _)
      | some entry =>
        cases entry with
        | directory =>
          have plain : ∀ target, disk.entry? (here ++ [name]) ≠ some (.link target) := by
            simp [standing]
          refine ⟨?_, ?_⟩
          · intro location arrived
            exact .down here name rest 0 location up plain
              ((inductionHypothesis _).1 location arrived)
          · intro directory middle target behind links location stopped led
            obtain ⟨more, onward⟩ :=
              (inductionHypothesis _).2 directory middle target behind links location stopped led
            exact ⟨more, .down here name rest more location up plain onward⟩
        | file bytes =>
          cases rest with
          | cons _ _ => simp
          | nil =>
            refine ⟨?_, by simp⟩
            intro location arrived
            obtain rfl : here ++ [name] = location := by simpa using arrived
            exact .down here name [] 0 _ up (by simp [standing]) (.here _)
        | link target =>
          refine ⟨by simp, ?_⟩
          intro directory middle aim behind links location stopped led
          obtain ⟨rfl, rfl, rfl, rfl⟩ : here = directory ∧ name = middle ∧ target = aim ∧
              rest = behind := by simpa using stopped
          obtain ⟨inner, place, outer, inward, onward⟩ := led.split target.parts rest
          exact ⟨inner + outer + 1,
            .through here name target rest inner outer place location up standing inward onward⟩

/-- Names that can be followed can be read. -/
theorem leads_of_followFrom (links : Nat) (here : Location) (names : List String)
    (location : Location) (followed : disk.followFrom true links here names = .ok location) :
    ∃ met, disk.Leads here names met location := by
  apply followFrom_induction (fun _ here names => ∃ met, disk.Leads here names met location)
    ?_ ?_ links here names followed
  · intro _ here names walked
    exact ⟨0, (leads_of_walk names here).1 location walked⟩
  · intro _ here names directory name target rest walked led
    obtain ⟨met, onward⟩ := led
    exact (leads_of_walk names here).2 directory name target rest met location walked onward

/-- A link is open at least as many links deep as the given number: so many are met on the
way along its target. -/
def Costs (disk : Disk) (links : Nat) (location : Location) : Prop :=
  ∃ here name target inner place, location = here ++ [name] ∧
    disk.entry? location = some (.link target) ∧
      disk.Leads (targetOrigin here target) target.parts inner place ∧ links ≤ inner

/-- A reading settles the resolution, whatever links are open, as long as all of them have
more links on their way than are still to be met, and the depth suffices for the others.

A link that is met costs less than the open ones, so it is none of them. With it the open
links are still different entries of the disk, so the depth was not yet used up. -/
theorem Leads.settles {here location : Location} {names : List String} {links : Nat}
    (led : disk.Leads here names links location) (depth : Nat) (opened : List Location)
    (dear : ∀ link ∈ opened, disk.Costs links link) (distinct : opened.Nodup)
    (deep : disk.entries.length ≤ depth + opened.length) :
    disk.resolveFrom depth opened here names = .settled location := by
  induction led generalizing depth opened with
  | here location => cases depth <;> rfl
  | up here rest links location onward inductionHypothesis =>
    have onwards := inductionHypothesis depth opened dear distinct deep
    cases depth <;> simpa [resolveFrom, settle] using onwards
  | down here name rest links location down plain onward inductionHypothesis =>
    have onwards := inductionHypothesis depth opened dear distinct deep
    have step (enter : List Location → Location → List String → Resolution) :
        disk.settle enter opened here (name :: rest) =
          disk.settle enter opened (here ++ [name]) rest := by
      rw [settle, if_neg down]
      split
      · next target standing => exact absurd standing (plain target)
      · rfl
    cases depth <;> simpa [resolveFrom, step] using onwards
  | through here name target rest inner links place location down standing inward onward
      insideHypothesis behindHypothesis =>
    have listed (link : Location) (member : link ∈ (here ++ [name]) :: opened) :
        link ∈ disk.entries.map Prod.fst := by
      rcases List.mem_cons.mp member with rfl | member
      · exact List.mem_map_of_mem (mem_of_entry _ _ (by simp) standing)
      · obtain ⟨_, _, target, _, _, rfl, stands, _⟩ := dear link member
        exact List.mem_map_of_mem (mem_of_entry _ _ (by simp) stands)
    have closed : here ++ [name] ∉ opened := by
      intro member
      obtain ⟨directory, last, aim, cost, stop, same, stands, led, enough⟩ := dear _ member
      obtain ⟨rfl, equal⟩ := List.append_inj' same rfl
      obtain rfl : target = aim := by simpa [standing] using stands
      have met : inner = cost := (inward.unique led).1
      omega
    have wider : ((here ++ [name]) :: opened).Nodup := List.nodup_cons.mpr ⟨closed, distinct⟩
    have room : ((here ++ [name]) :: opened).length ≤ (disk.entries.map Prod.fst).length :=
      (List.subperm_of_subset wider listed).length_le
    obtain ⟨lower, rfl⟩ : ∃ lower, depth = lower + 1 := by
      refine ⟨depth - 1, ?_⟩
      simp only [List.length_cons, List.length_map] at room
      omega
    have inside : disk.resolveFrom lower ((here ++ [name]) :: opened)
        (targetOrigin here target) target.parts = .settled place := by
      apply insideHypothesis lower
      · intro link member
        rcases List.mem_cons.mp member with rfl | member
        · exact ⟨here, name, target, inner, place, rfl, standing, inward, Nat.le_refl _⟩
        · obtain ⟨directory, last, aim, cost, stop, same, stands, led, enough⟩ := dear link member
          exact ⟨directory, last, aim, cost, stop, same, stands, led, by omega⟩
      · exact wider
      · simp only [List.length_cons]
        omega
    have behind : disk.resolveFrom (lower + 1) opened place rest = .settled location := by
      apply behindHypothesis (lower + 1) opened _ distinct deep
      intro link member
      obtain ⟨directory, last, aim, cost, stop, same, stands, led, enough⟩ := dear link member
      exact ⟨directory, last, aim, cost, stop, same, stands, led, by omega⟩
    rw [resolveFrom, settle, if_neg down, standing]
    simp only [closed, if_false, inside]
    exact behind

/-- A settled resolution is a reading of the names. -/
theorem leads_of_settle (enter : List Location → Location → List String → Resolution)
    (enters : ∀ opened here names location, enter opened here names = .settled location →
      ∃ links, disk.Leads here names links location)
    (opened : List Location) (here : Location) (names : List String) (location : Location)
    (settled : disk.settle enter opened here names = .settled location) :
    ∃ links, disk.Leads here names links location := by
  induction names generalizing here with
  | nil =>
    obtain rfl : here = location := by simpa [settle] using settled
    exact ⟨0, .here here⟩
  | cons name rest inductionHypothesis =>
    by_cases up : name = ".."
    · subst up
      rw [settle, if_pos rfl] at settled
      obtain ⟨links, onward⟩ := inductionHypothesis _ settled
      exact ⟨links, .up here rest links location onward⟩
    · rw [settle, if_neg up] at settled
      split at settled
      · next target standing =>
        split at settled
        · simp at settled
        · split at settled
          · next place entered =>
            obtain ⟨inner, inward⟩ := enters _ _ _ _ entered
            obtain ⟨links, onward⟩ := inductionHypothesis _ settled
            exact ⟨inner + links + 1,
              .through here name target rest inner links place location up standing inward onward⟩
          · simp at settled
      · next plain =>
        obtain ⟨links, onward⟩ := inductionHypothesis _ settled
        exact ⟨links, .down here name rest links location up plain onward⟩

/-- A settled resolution is a reading of the names, at any depth. -/
theorem leads_of_resolveFrom (depth : Nat) (opened : List Location) (here : Location)
    (names : List String) (location : Location)
    (settled : disk.resolveFrom depth opened here names = .settled location) :
    ∃ links, disk.Leads here names links location := by
  induction depth generalizing opened here names location with
  | zero => exact leads_of_settle _ (by simp) opened here names location settled
  | succ depth inductionHypothesis =>
    exact leads_of_settle _ inductionHypothesis opened here names location settled

/-- A path resolves to a location: its resolution comes to an end there. -/
def Resolves (disk : Disk) (path : Path) (location : Location) : Prop :=
  disk.resolution path = .settled location

instance (disk : Disk) (path : Path) (location : Location) :
    Decidable (disk.Resolves path location) :=
  inferInstanceAs (Decidable (disk.resolution path = .settled location))

/-- The location that a path resolves to is the one that it stands for. -/
theorem Resolves.resolve {path : Path} {location : Location}
    (resolves : disk.Resolves path location) : disk.resolve path = location := by
  rw [Disk.resolve, resolves]

/-- A path resolves to the location that its names denote. -/
theorem resolves_iff (path : Path) (location : Location) :
    disk.Resolves path location ↔
      ∃ links, disk.Leads (disk.origin path) path.parts links location := by
  constructor
  · exact leads_of_resolveFrom _ _ _ _ _
  · rintro ⟨links, led⟩
    exact led.settles _ [] (by simp) List.nodup_nil (by simp)

/-- Paths resolve to the same on a steady disk. -/
theorem Steady.resolves_iff (steady : Steady before after) (path : Path) (location : Location) :
    after.Resolves path location ↔ before.Resolves path location := by
  rw [Disk.resolves_iff, Disk.resolves_iff, steady.origin]
  constructor
  · rintro ⟨links, led⟩
    exact ⟨links, led.transfer fun location target => (steady.links location target).symm⟩
  · rintro ⟨links, led⟩
    exact ⟨links, led.transfer steady.links⟩

/-- Growth does not change what paths resolve to. -/
theorem Grows.resolves_iff (grown : Grows before after) (path : Path) (location : Location) :
    after.Resolves path location ↔ before.Resolves path location :=
  grown.steady.resolves_iff path location

/-- A path that can be followed resolves to the place that it leads to. -/
theorem resolves_of_follow (path : Path) (location : Location)
    (followed : disk.follow path = .ok location) : disk.Resolves path location :=
  (resolves_iff path location).mpr (leads_of_followFrom linkLimit _ _ location followed)

end Conformance.Disk
