import LazyTensor.Engine.Disk
import LazyTensor.Proofs.Outcome
import Mathlib.Data.String.Basic

/-! What stands where on a disk after each change. Every change says which places it touches and
leaves all others as they are, and a disk on which every entry lies in a directory stays one.
-/

namespace LazyTensor

namespace Disk

variable {α : Type} {disk disk' : Disk α}

/-- Entries that are dropped by their places do not change what stands at the others. -/
theorem lookup_filter {entries : List (Place × Entry α)} (keep : Place → Bool) (place : Place)
    : (entries.filter fun entry => keep entry.1).lookup place
      = if keep place then entries.lookup place else none := by
  induction entries with
  | nil => simp
  | cons entry rest ih =>
      obtain ⟨other, stands⟩ := entry
      by_cases same : place = other
      · subst same
        cases kept : keep place with
        | true => simp [kept]
        | false => simp [kept, ih]
      · cases kept : keep other with
        | true => simp [kept, ih, List.lookup_cons, beq_eq_false_iff_ne.mpr same]
        | false => simp [kept, ih, List.lookup_cons, beq_eq_false_iff_ne.mpr same]

theorem standing?_of_ne_nil {place : Place} (inner : place ≠ [])
    : disk.standing? place = disk.entries.lookup place := by
  rw [standing?, if_neg (by simpa using inner)]

/-- An entry that is put at a place is the only one that changes. -/
theorem standing?_insert {place : Place} (inner : place ≠ []) (entry : Entry α) (other : Place)
    : (disk.insert place entry).standing? other
      = if other = place then some entry else disk.standing? other := by
  by_cases top : other = []
  · subst top
    rw [if_neg (Ne.symm inner)]
    rfl
  · rw [standing?_of_ne_nil top, standing?_of_ne_nil top]
    by_cases same : other = place
    · simp [insert, same]
    · have other_ne : (other == place) = false := beq_eq_false_iff_ne.mpr same
      rw [insert, List.lookup_cons, other_ne, lookup_filter (· != place), if_neg same]
      simp [same]

/-- A file that is added changes what stands at its place only. -/
theorem standing?_add {place : Place} (inner : place ≠ []) (content : α) (other : Place)
    : (disk.add place content).standing? other
      = if other = place then some (.file disk.written content) else disk.standing? other :=
  standing?_insert inner _ other

/-- What is removed is the place and all below it. -/
theorem standing?_remove {place : Place} (inner : place ≠ []) (other : Place)
    : (disk.remove place).standing? other = if place <:+ other then none else disk.standing? other := by
  by_cases top : other = []
  · subst top
    rw [if_neg (by simpa using inner)]
    rfl
  · rw [standing?_of_ne_nil top, standing?_of_ne_nil top, remove,
      lookup_filter fun other => !place.isSuffixOf other]
    by_cases below : place <:+ other
    · rw [List.isSuffixOf_iff_suffix.mpr below, if_pos below]
      rfl
    · simp [below]

-----------------------------------------------------------------------------------------
-- Paths
-----------------------------------------------------------------------------------------

/-- The place that a name leads to from another one, whatever stands there. -/
def walk (place : Place) (name : String) : Place :=
  if name = "." then place else if name = ".." then place.tail else name :: place

/-- The places that a path comes by, from the top to the one that it leads to. -/
def waypoints (path : String) : List Place := (Text.pathSteps path).scanl walk []

/-- A name that can be entered leads where it says. -/
theorem eq_walk_of_enter {place inner : Place} {name : String}
    (entered : disk.enter place name = .ok inner)
    : inner = walk place name := by
  rw [enter] at entered
  rw [walk]
  split at entered
  · next dot => rw [if_pos dot, Except.ok.inj entered]
  · next dot =>
      rw [if_neg dot]
      split at entered
      · next up => rw [if_pos up, Except.ok.inj entered]
      · next up =>
          rw [if_neg up]
          split at entered
          · split at entered
            · exact (Except.ok.inj entered).symm
            · cases entered
            · cases entered
          · cases entered

/-- A name that is not found is a name of its own, and nothing stands under it. -/
theorem eq_none_of_enter {place : Place} {name : String}
    (entered : disk.enter place name = .error .notFound)
    : walk place name = name :: place ∧ disk.standing? (name :: place) = none := by
  rw [enter] at entered
  rw [walk]
  split at entered
  · cases entered
  · next dot =>
      rw [if_neg dot]
      split at entered
      · cases entered
      · next up =>
          rw [if_neg up]
          split at entered
          · split at entered
            · cases entered
            · exact absurd (Except.error.inj entered) (by decide)
            · next nothing => exact ⟨rfl, nothing⟩
          · exact absurd (Except.error.inj entered) (by decide)

/-- A name that can be entered on one disk can be entered on another if it leads to a directory
there too.
-/
theorem enter_of_directory {place inner : Place} {name : String}
    (entered : disk.enter place name = .ok inner)
    (stays : disk.standing? inner = some .directory → disk'.standing? inner = some .directory)
    : disk'.enter place name = .ok inner := by
  rw [enter] at entered ⊢
  split
  · simpa [*] using entered
  · split
    · simpa [*] using entered
    · simp only [*, if_false] at entered
      split at entered
      · next fit =>
          rw [if_pos fit]
          split at entered
          · next stands =>
              obtain rfl := Except.ok.inj entered
              rw [stays stands]
          · cases entered
          · cases entered
      · cases entered

/-- Every directory of a disk is one of another disk. -/
def KeepsDirectories (old new : Disk α) : Prop :=
  ∀ place, old.standing? place = some .directory → new.standing? place = some .directory

/-- A path leads to a place for as long as the directories stand, by induction on its names. -/
theorem KeepsDirectories.locate (keeps : disk.KeepsDirectories disk') {path : String} {place : Place}
    (located : disk.locate path = .ok place)
    : disk'.locate path = .ok place := by
  have fold (names : List String) (start : Place)
      (reached : names.foldlM disk.enter start = .ok place)
      : names.foldlM disk'.enter start = .ok place := by
    induction names generalizing start with
    | nil => exact reached
    | cons name rest ih =>
        rw [List.foldlM_cons] at reached ⊢
        cases entered : disk.enter start name with
        | error cause =>
            rw [entered] at reached
            cases reached
        | ok inner =>
            rw [entered] at reached
            rw [enter_of_directory entered (keeps inner)]
            exact ih inner reached
  rw [Disk.locate] at located ⊢
  split at located
  · cases located
  · exact fold _ _ located

/-- A name in a directory has a place if the path keeps to the limits and the directory has one. -/
theorem locateIn_eq_ok {directory name : String} {place : Place}
    : disk.locateIn directory name = .ok place
      ↔ pathFault? (Text.joinPath directory name) = none
        ∧ fits name
        ∧ ∃ inside, disk.locate directory = .ok inside ∧ place = name :: inside := by
  rw [locateIn]
  cases pathFault? (Text.joinPath directory name) with
  | some cause => simp
  | none =>
      cases disk.locate directory with
      | error cause => simp [bind, Except.bind]
      | ok inside =>
          by_cases fit : fits name = true
          · simp [bind, Except.bind, fit, pure, Except.pure, eq_comm]
          · simp [bind, Except.bind, fit, throw, throwThe, MonadExceptOf.throw]

/-- A name has a place in a directory for as long as the directories stand. -/
theorem KeepsDirectories.locateIn (keeps : disk.KeepsDirectories disk') {directory name : String}
    {place : Place} (located : disk.locateIn directory name = .ok place)
    : disk'.locateIn directory name = .ok place := by
  obtain ⟨sound, fit, inside, reached, rfl⟩ := locateIn_eq_ok.mp located
  exact locateIn_eq_ok.mpr ⟨sound, fit, inside, keeps.locate reached, rfl⟩

/-- A file is found where its name has its place. -/
theorem find?_eq_some {directory name : String} {number : Nat} {content : α}
    : disk.find? directory name = some (number, content)
      ↔ ∃ place,
          disk.locateIn directory name = .ok place
          ∧ disk.standing? place = some (.file number content) := by
  rw [find?]
  cases disk.locateIn directory name with
  | error cause => simp [Except.toOption]
  | ok place =>
      cases stands : disk.standing? place with
      | none => simp [Except.toOption, stands]
      | some entry => cases entry <;> simp [Except.toOption, stands]

-----------------------------------------------------------------------------------------
-- Directories
-----------------------------------------------------------------------------------------

/-- A disk with the same entries as another one and perhaps new directories at some places. -/
def Grows (places : List Place) (old new : Disk α) : Prop :=
  ∀ place,
    new.standing? place = old.standing? place
    ∨ old.standing? place = none ∧ new.standing? place = some .directory ∧ place ∈ places

theorem Grows.refl (places : List Place) (disk : Disk α) : Grows places disk disk :=
  fun _ => Or.inl rfl

theorem Grows.trans {places : List Place} {first second third : Disk α}
    (left : Grows places first second) (right : Grows places second third)
    : Grows places first third := by
  intro place
  rcases right place with same | ⟨nothing, made, member⟩
  · exact same ▸ left place
  · rcases left place with same | ⟨_, stands, _⟩
    · exact Or.inr ⟨same ▸ nothing, made, member⟩
    · rw [nothing] at stands
      cases stands

theorem Grows.mono {places more : List Place} {old new : Disk α} (grows : Grows places old new)
    (subset : places ⊆ more)
    : Grows more old new :=
  fun place => (grows place).imp id fun made => ⟨made.1, made.2.1, subset made.2.2⟩

theorem grows_insert {place : Place} (inner : place ≠ []) (nothing : disk.standing? place = none)
    : Grows [place] disk (disk.insert place .directory) := by
  intro other
  rw [standing?_insert inner]
  split
  · next same => exact Or.inr ⟨same ▸ nothing, rfl, by simp [same]⟩
  · exact Or.inl rfl

theorem Grows.keepsDirectories {places : List Place} {old new : Disk α}
    (grows : Grows places old new)
    : old.KeepsDirectories new := by
  intro place stands
  rcases grows place with same | ⟨nothing, _, _⟩
  · exact same.trans stands
  · rw [stands] at nothing
    cases nothing

/-- Directories are made at the places that their names lead by, by induction on the names. -/
theorem makeBelow_grows (place : Place) (made : Bool) (names : List String) (disk : Disk α)
    : Ends (makeBelow place made names) disk
        (fun _ final => Grows (names.scanl walk place) disk final)
        (fun _ final => Grows (names.scanl walk place) disk final) := by
  induction names generalizing place made disk with
  | nil => exact Grows.refl _ disk
  | cons name rest ih =>
      have later {start : Place} (same : walk place name = start)
          : rest.scanl walk start ⊆ (name :: rest).scanl walk place := by
        rw [List.scanl_cons, same]
        exact List.subset_cons_self _ _
      simp only [makeBelow, ends_bind, ends_get]
      split
      · next inner entered =>
          have subset := later (eq_walk_of_enter entered).symm
          exact (ih _ _ disk).mono (fun _ _ grows => grows.mono subset) fun _ _ grows =>
            grows.mono subset
      · next cause entered =>
          simp only [ends_ite, ends_bind, ends_set, ends_throw]
          split
          · next missing =>
              obtain ⟨named, nothing⟩ := eq_none_of_enter (missing.2 ▸ entered)
              have first : Grows (rest.scanl walk (name :: place)) disk
                  (disk.insert (name :: place) .directory) := by
                refine (grows_insert (by simp) nothing).mono ?_
                cases rest <;> simp
              have subset := later named
              refine (ih _ _ _).mono ?_ ?_
              · exact fun _ _ grows => (first.trans grows).mono subset
              · exact fun _ _ grows => (first.trans grows).mono subset
          · split
            · exact Grows.refl _ disk
            · exact Grows.refl _ disk

/-- Making the directories on a path leaves new directories on the path and nothing else, however far
it comes.
-/
theorem makeDirectories_grows (path : String) (disk : Disk α)
    : Ends (makeDirectories path) disk (fun _ final => Grows (waypoints path) disk final)
        (fun _ final => Grows (waypoints path) disk final) := by
  rw [makeDirectories]
  split
  · exact Grows.refl _ disk
  · exact makeBelow_grows _ _ _ disk

/-- A directory of a new name is made in one that is there, and nothing stood at its place or
below it.
-/
theorem exists_of_makeFresh {path stem : String} {place : Place}
    (made : disk.makeFresh path stem = .ok (place, disk'))
    : ∃ directory name,
        disk.locate path = .ok directory
        ∧ place = name :: directory
        ∧ disk' = disk.insert place .directory
        ∧ ∀ other, place <:+ other → disk.standing? other = none := by
  rw [makeFresh] at made
  cases located : disk.locate path with
  | error cause =>
      rw [located] at made
      cases made
  | ok directory =>
      rw [located] at made
      dsimp only [bind, Except.bind] at made
      split at made
      · next name fresh =>
          obtain ⟨rfl, rfl⟩ := Prod.mk.inj (Except.ok.inj made)
          refine ⟨directory, name, rfl, rfl, rfl, ?_⟩
          intro other below
          have nothing := List.find?_some fresh
          rw [List.all_eq_true] at nothing
          rw [standing?_of_ne_nil (by rintro rfl; simp at below), List.lookup_eq_none_iff]
          intro entry member
          have apart := nothing entry member
          rw [Bool.not_eq_true', ← Bool.not_eq_true, List.isSuffixOf_iff_suffix] at apart
          simp only [bne_iff_ne, ne_eq]
          rintro rfl
          exact apart below
      · cases made

/-- A file is moved to a place in a directory where no directory stands. -/
theorem exists_of_move {source : Place} {directory name : String}
    (moved : disk.move source directory name = .ok disk')
    : ∃ inside number content,
        disk.locateIn directory name = .ok (name :: inside)
        ∧ disk.standing? source = some (.file number content)
        ∧ disk.standing? (name :: inside) ≠ some .directory
        ∧ disk' = (disk.remove source).insert (name :: inside) (.file number content) := by
  rw [move] at moved
  cases located : disk.locateIn directory name with
  | error cause =>
      rw [located] at moved
      cases moved
  | ok target =>
      obtain ⟨_, _, inside, _, rfl⟩ := locateIn_eq_ok.mp located
      rw [located] at moved
      dsimp only [bind, Except.bind] at moved
      split at moved
      · cases moved
      · next number content stood free =>
          exact ⟨inside, number, content, rfl, stood, free, (Except.ok.inj moved).symm⟩
      · cases moved

-----------------------------------------------------------------------------------------
-- Trees
-----------------------------------------------------------------------------------------

/-- Every entry lies in a directory. -/
def Rooted (disk : Disk α) : Prop :=
  ∀ name place, disk.standing? (name :: place) ≠ none → disk.standing? place = some .directory

theorem rooted_empty : (empty : Disk α).Rooted := by
  intro name place stands
  exact absurd rfl stands

/-- Every place on the way to an entry is a directory. -/
theorem Rooted.directory (rooted : disk.Rooted) {inner outer : Place} (above : outer <:+ inner)
    (apart : outer ≠ inner) (stands : disk.standing? inner ≠ none)
    : disk.standing? outer = some .directory := by
  obtain ⟨names, rfl⟩ := above
  induction names with
  | nil => exact absurd rfl apart
  | cons name rest ih =>
      have lies := rooted name (rest ++ outer) stands
      by_cases last : rest = []
      · subst last
        exact lies
      · refine ih ?_ (by rw [lies]; simp)
        intro same
        exact last (List.self_eq_append_left.mp same)

/-- An entry may be put into a directory unless it is a file and stands in place of a directory. -/
theorem Rooted.insert (rooted : disk.Rooted) {name : String} {place : Place} {entry : Entry α}
    (lies : disk.standing? place = some .directory)
    (free : entry = .directory ∨ disk.standing? (name :: place) ≠ some .directory)
    : (disk.insert (name :: place) entry).Rooted := by
  intro other within stands
  rw [standing?_insert (by simp)] at stands ⊢
  split at stands
  · next same =>
      obtain ⟨rfl, rfl⟩ := List.cons.inj same
      rw [if_neg (by simp)]
      exact lies
  · have old := rooted other within stands
    split
    · next same =>
        rcases free with rfl | free
        · rfl
        · exact absurd (same ▸ old) free
    · exact old

/-- Removing a place with all below it leaves no entry without its directory. -/
theorem Rooted.remove (rooted : disk.Rooted) {place : Place} (inner : place ≠ [])
    : (disk.remove place).Rooted := by
  intro other within stands
  rw [standing?_remove inner] at stands ⊢
  split at stands
  · exact absurd rfl stands
  · next apart =>
      rw [if_neg fun below => apart (below.trans (List.suffix_cons _ _))]
      exact rooted other within stands

/-- A name that can be entered from a directory leads to a directory. -/
theorem Rooted.enter (rooted : disk.Rooted) {place inner : Place} {name : String}
    (stands : disk.standing? place = some .directory) (entered : disk.enter place name = .ok inner)
    : disk.standing? inner = some .directory := by
  rw [Disk.enter] at entered
  split at entered
  · exact Except.ok.inj entered ▸ stands
  · split at entered
    · rw [← Except.ok.inj entered]
      cases place with
      | nil => exact stands
      | cons last outer => exact rooted last outer (by rw [stands]; simp)
    · split at entered
      · split at entered
        · next found => exact Except.ok.inj entered ▸ found
        · cases entered
        · cases entered
      · cases entered

/-- A path that leads somewhere leads to a directory, by induction on its names. -/
theorem Rooted.locate (rooted : disk.Rooted) {path : String} {place : Place}
    (located : disk.locate path = .ok place)
    : disk.standing? place = some .directory := by
  have fold (names : List String) (start : Place) (stands : disk.standing? start = some .directory)
      (reached : names.foldlM disk.enter start = .ok place)
      : disk.standing? place = some .directory := by
    induction names generalizing start with
    | nil => exact Except.ok.inj reached ▸ stands
    | cons name rest ih =>
        rw [List.foldlM_cons] at reached
        cases entered : disk.enter start name with
        | error cause =>
            rw [entered] at reached
            cases reached
        | ok inner =>
            rw [entered] at reached
            exact ih inner (rooted.enter stands entered) reached
  rw [Disk.locate] at located
  split at located
  · cases located
  · exact fold _ [] rfl located

/-- Directories are made in directories, by induction on their names. -/
theorem makeBelow_rooted (place : Place) (made : Bool) (names : List String) {disk : Disk α}
    (rooted : disk.Rooted) (stands : disk.standing? place = some .directory)
    : Ends (makeBelow place made names) disk (fun _ final => final.Rooted)
        (fun _ final => final.Rooted) := by
  induction names generalizing place made disk with
  | nil => exact rooted
  | cons name rest ih =>
      simp only [makeBelow, ends_bind, ends_get]
      split
      · next inner entered => exact ih _ _ rooted (rooted.enter stands entered)
      · simp only [ends_ite, ends_bind, ends_set, ends_throw]
        split
        · refine ih _ _ (rooted.insert stands (Or.inl rfl)) ?_
          rw [standing?_insert (by simp), if_pos rfl]
        · split
          · exact rooted
          · exact rooted

/-- Making the directories on a path leaves every entry in a directory if every entry was in one. -/
theorem makeDirectories_rooted (path : String) (disk : Disk α)
    : Ends (makeDirectories path) disk (fun _ final => disk.Rooted → final.Rooted)
        (fun _ final => disk.Rooted → final.Rooted) := by
  rw [makeDirectories]
  split
  · exact id
  · by_cases rooted : disk.Rooted
    · refine (makeBelow_rooted _ _ _ rooted rfl).mono ?_ ?_
      · exact fun _ _ kept _ => kept
      · exact fun _ _ kept _ => kept
    · refine (makeBelow_grows _ _ _ disk).mono ?_ ?_
      · exact fun _ _ _ sound => absurd sound rooted
      · exact fun _ _ _ sound => absurd sound rooted

/-- A file may be moved from one directory to another. -/
theorem Rooted.move (rooted : disk.Rooted) {source : Place} {directory name : String}
    (moved : disk.move source directory name = .ok disk')
    : disk'.Rooted := by
  obtain ⟨inside, number, content, located, stood, free, rfl⟩ := exists_of_move moved
  obtain ⟨_, _, inside, reached, same⟩ := locateIn_eq_ok.mp located
  obtain ⟨-, rfl⟩ := List.cons.inj same
  have stands := rooted.locate reached
  have inner : source ≠ [] := by
    rintro rfl
    cases stood
  have entries := disk.standing?_remove inner
  refine (rooted.remove inner).insert ?_ (Or.inr ?_)
  · rw [entries, if_neg, stands]
    intro below
    -- A file has nothing below it.
    have directory : disk.standing? source = some .directory := by
      by_cases same : source = inside
      · exact same ▸ stands
      · exact rooted.directory below same (by rw [stands]; simp)
    rw [stood] at directory
    cases directory
  · rw [entries]
    split
    · simp
    · exact free

end Disk

end LazyTensor
