import LazyTensor.Proofs.Engine.Disk
import LazyTensor.Proofs.Text.Separated
import Mathlib.Data.List.Nodup
import Mathlib.Data.List.Perm.Subperm
import Mathlib.Data.Option.Basic

/-! Disks with room. Where directories can be made and no directory stands in the way of a file,
nothing fails: a directory that was made is found, a new name can be had, and a file can be moved
to its place.
-/

namespace LazyTensor

namespace Disk

variable {α : Type} {disk disk' : Disk α} {path : String}

/-- The place that a path leads to, whatever stands there. -/
def target (path : String) : Place := (Text.pathNames path).foldl walk []

/-- A path leads to its place if it leads anywhere, by induction on its names. -/
theorem eq_target_of_locate {place : Place} (located : disk.locate path = .ok place)
    : place = target path := by
  have fold (names : List String) (start : Place) (reached : names.foldlM disk.enter start = .ok place)
      : place = names.foldl walk start := by
    induction names generalizing start with
    | nil => exact (Except.ok.inj reached).symm
    | cons name rest ih =>
        rw [List.foldlM_cons] at reached
        cases entered : disk.enter start name with
        | error cause =>
            rw [entered] at reached
            cases reached
        | ok inner =>
            rw [entered] at reached
            rw [List.foldl_cons, ← eq_walk_of_enter entered]
            exact ih inner reached
  rw [locate] at located
  split at located
  · cases located
  · exact fold _ _ located

/-- A dot at the end of a path leads nowhere else. -/
theorem foldlM_pathSteps (disk : Disk α) (path : String)
    : (Text.pathSteps path).foldlM disk.enter [] = (Text.pathNames path).foldlM disk.enter [] := by
  rw [Text.pathSteps]
  split
  · rw [List.foldlM_append]
    cases (Text.pathNames path).foldlM disk.enter [] with
    | error cause => rfl
    | ok place => rfl
  · rfl

/-- Nothing is made where everything is there, by induction on the names. -/
theorem outcome_makeBelow {names : List String} {place inner : Place}
    (reached : names.foldlM disk.enter place = .ok inner) (made : Bool)
    : outcome (makeBelow place made names) disk = (.ok (), disk) := by
  refine outcome_eq_ok ?_
  induction names generalizing place with
  | nil => exact ⟨rfl, rfl⟩
  | cons name rest ih =>
      rw [List.foldlM_cons] at reached
      cases entered : disk.enter place name with
      | error cause =>
          rw [entered] at reached
          cases reached
      | ok next =>
          rw [entered] at reached
          simp only [makeBelow, ends_bind, ends_get, entered]
          exact (ih reached).mono (fun _ _ same => ⟨trivial, same.2⟩) fun _ _ => id

/-- Nothing is made where the directory of a path is there. -/
theorem outcome_makeDirectories {place : Place} (located : disk.locate path = .ok place)
    : outcome (makeDirectories path) disk = (.ok (), disk) := by
  rw [locate] at located
  rw [makeDirectories]
  split at located
  · cases located
  · exact outcome_makeBelow ((foldlM_pathSteps disk path).trans located) false

/-- A directory that was made can be entered. -/
theorem enter_insert {place : Place} {name : String}
    (entered : disk.enter place name = .error .notFound)
    : (disk.insert (name :: place) .directory).enter place name = .ok (name :: place) := by
  obtain ⟨named, nothing⟩ := eq_none_of_enter entered
  rw [enter] at entered ⊢
  split
  · next dot => simp [dot] at entered
  · split
    · next dot up => simp [up] at entered
    · split
      · rw [standing?_insert (by simp), if_pos rfl]
      · next dot up long =>
          rw [if_neg dot, if_neg up, if_neg long] at entered
          exact absurd (Except.error.inj entered) (by decide)

/-- Directories that could be made are there, by induction on their names. -/
theorem makeBelow_reaches (place : Place) (made : Bool) (names : List String) (disk : Disk α)
    : Ends (makeBelow place made names) disk
        (fun _ final => ∃ inner, names.foldlM final.enter place = .ok inner) (fun _ _ => True) := by
  induction names generalizing place made disk with
  | nil => exact ⟨place, rfl⟩
  | cons name rest ih =>
      -- What is made later does not close a directory that can be entered now.
      have onward {disk : Disk α} {inner : Place} (made : Bool)
          (entered : disk.enter place name = .ok inner)
          : Ends (makeBelow inner made rest) disk
              (fun _ final => ∃ last, (name :: rest).foldlM final.enter place = .ok last)
              (fun _ _ => True) := by
        refine ((ih inner made disk).and (makeBelow_grows inner made rest disk)).mono ?_
          (fun _ _ _ => trivial)
        rintro _ final ⟨⟨last, reached⟩, grows⟩
        refine ⟨last, ?_⟩
        rw [List.foldlM_cons, enter_of_directory entered (grows.keepsDirectories inner)]
        exact reached
      simp only [makeBelow, ends_bind, ends_get]
      split
      · next inner entered => exact onward made entered
      · next cause entered =>
          simp only [ends_ite, ends_bind, ends_set, ends_throw]
          split
          · next missing => exact onward true (enter_insert (missing.2 ▸ entered))
          · split <;> trivial

/-- The directory of a path that could be made is found at the place of the path. -/
theorem locate_of_makeDirectories (made : (outcome (makeDirectories path) disk).1 = .ok ())
    : (outcome (makeDirectories path) disk).2.locate path = .ok (target path) := by
  have reaches
      : Ends (makeDirectories path) disk
          (fun _ final => ∃ place, final.locate path = .ok place) (fun _ _ => True) := by
    rw [makeDirectories]
    simp only [locate]
    split
    · trivial
    · refine (makeBelow_reaches [] false _ disk).mono ?_ (fun _ _ _ => trivial)
      rintro _ final ⟨inner, reached⟩
      exact ⟨inner, (foldlM_pathSteps final path).symm.trans reached⟩
  obtain ⟨place, located⟩ := reaches.of_ok made
  rw [located, eq_target_of_locate located]

/-- There is always a new name: no entry takes more than one. -/
theorem exists_freshName (disk : Disk α) (directory : Place) (stem : String)
    : ∃ number : Nat, disk.freshName? directory stem = some (stem ++ "-" ++ number.repr) := by
  let names := (List.range (disk.entries.length + 1)).map fun number => stem ++ "-" ++ number.repr
  -- The name in the directory that leads to an entry.
  let taken (entry : Place × Entry α) : Option String :=
    (entry.1.drop (entry.1.length - (directory.length + 1))).head?
  cases found : disk.freshName? directory stem with
  | some name =>
      obtain ⟨number, _, rfl⟩ := List.mem_map.mp (List.mem_of_find?_eq_some found)
      exact ⟨number, rfl⟩
  | none =>
      exfalso
      have all : names.map some ⊆ disk.entries.map taken := by
        intro name member
        obtain ⟨name, listed, rfl⟩ := List.mem_map.mp member
        have blocked := List.find?_eq_none.mp found name listed
        rw [Bool.not_eq_true, List.all_eq_false] at blocked
        obtain ⟨entry, within, below⟩ := blocked
        rw [Bool.not_eq_true', Bool.not_eq_false, List.isSuffixOf_iff_suffix] at below
        refine List.mem_map.mpr ⟨entry, within, ?_⟩
        have behind := List.suffix_iff_eq_drop.mp below
        change (entry.1.drop (entry.1.length - (directory.length + 1))).head? = some name
        rw [← List.length_cons, ← behind]
        rfl
      have distinct : (names.map some).Nodup := by
        refine (List.nodup_range.map ?_).map (Option.some_injective _)
        intro left right same
        exact Text.repr_injective ((String.append_right_inj _).mp same)
      have fewer := (List.subperm_of_subset distinct all).length_le
      simp [names] at fewer

/-- A directory of a new name can be made in one that is there. -/
theorem exists_makeFresh {directory : Place} (located : disk.locate path = .ok directory)
    (stem : String)
    : ∃ number : Nat,
        disk.makeFresh path stem
          = .ok ((stem ++ "-" ++ number.repr) :: directory,
              disk.insert ((stem ++ "-" ++ number.repr) :: directory) .directory) := by
  obtain ⟨number, fresh⟩ := disk.exists_freshName directory stem
  refine ⟨number, ?_⟩
  rw [makeFresh, located]
  dsimp only [bind, Except.bind]
  rw [fresh]
  rfl

/-- A file that is there can be moved to a name under which no directory stands. -/
theorem move_eq_ok {source place : Place} {name : String} {number : Nat} {content : α}
    (located : disk.locateIn path name = .ok place)
    (stands : disk.standing? source = some (.file number content))
    (free : disk.standing? place ≠ some .directory)
    : disk.move source path name
      = .ok ((disk.remove source).insert place (.file number content)) := by
  rw [move, located]
  dsimp only [bind, Except.bind]
  rw [stands]
  cases blocked : disk.standing? place with
  | none => rfl
  | some entry =>
      cases entry with
      | directory => exact absurd blocked free
      | file number content => rfl

end Disk

end LazyTensor
