import LazyTensor.Proofs.Engine.Host

/-! Regions of a disk. What stands at or below a place is a disk of its own for those who only work
there. Several processes share it, each with its own open libraries, so what one of them does there
has to suit the libraries of all.
-/

namespace LazyTensor

namespace Disk

variable {α : Type} {disk disk' : Disk α} {home place : Place}

/-- What stands at a place or below it. -/
def within (home : Place) (disk : Disk α) : Disk α :=
  { disk with entries := disk.entries.filter fun entry => home.isSuffixOf entry.1 }

theorem holds_within {number : Nat} {content : α}
    : (disk.within home).Holds place number content
      ↔ disk.Holds place number content ∧ home <:+ place := by
  rw [Holds, within, List.mem_filter, List.isSuffixOf_iff_suffix, Holds]

theorem within_nil (disk : Disk α) : disk.within [] = disk := by
  have all : disk.entries.filter (fun entry => ([] : Place).isSuffixOf entry.1) = disk.entries :=
    List.filter_eq_self.mpr fun entry _ => List.isSuffixOf_iff_suffix.mpr (List.nil_suffix)
  rw [within, all]

theorem Keeps.within (keeps : disk.Keeps disk') : (disk.within home).Keeps (disk'.within home) := by
  refine ⟨keeps.1, ?_⟩
  intro place number content held
  obtain ⟨stands, below⟩ := holds_within.mp held
  exact holds_within.mpr ⟨keeps.2 _ _ _ stands, below⟩

/-- A file that is added in a region is added to what stands there. -/
theorem within_add (below : home <:+ place) (content : α)
    : (disk.add place content).within home = (disk.within home).add place content := by
  have kept : home.isSuffixOf place = true := List.isSuffixOf_iff_suffix.mpr below
  simp only [within, add, insert, List.filter_cons, kept, if_true, List.filter_filter, Bool.and_comm]

/-- A file that is moved within a region comes from there. -/
theorem holds_within_of_move {scratch : Place} {directory name : String}
    (below : home <:+ scratch) (moved : disk.move (name :: scratch) directory name = .ok disk')
    : (disk'.within home).written = (disk.within home).written
      ∧ ∃ inside, ∀ place number content,
          (disk'.within home).Holds place number content →
            (disk.within home).Holds place number content
            ∨ place = name :: inside ∧ (disk.within home).Holds (name :: scratch) number content := by
  obtain ⟨count, inside, held⟩ := holds_of_move moved
  refine ⟨count, inside, ?_⟩
  intro place number content stands
  obtain ⟨stands, within⟩ := holds_within.mp stands
  rcases held _ _ _ stands with old | ⟨same, came⟩
  · exact Or.inl (holds_within.mpr ⟨old, within⟩)
  · exact Or.inr ⟨same, holds_within.mpr ⟨came, below.trans (List.suffix_cons _ _)⟩⟩

end Disk

namespace Host

/-- What stands at a place or below it, with the libraries that are open here or in other
processes.
-/
def region (host : Host) (home : Place) (others : List Library) : Host :=
  ⟨host.disk.within home, others ++ host.libraries⟩

theorem region_nil (host : Host) : host.region [] [] = host := by
  rw [region, Disk.within_nil]
  rfl

variable {serves : Artifact → SourceUnit → Prop} {host : Host} {home : Place}
  {others : List Library} {disk : Disk KernelFile}

theorem region_keeps (sound : (host.region home others).Sound serves) (keeps : host.disk.Keeps disk)
    : (region { host with disk } home others).Sound serves :=
  Sound.keeps sound keeps.within

/-- A region stays sound when a file is added there that serves the units of its name. -/
theorem region_add (sound : (host.region home others).Sound serves) {name : String}
    {inside : Place} (below : home <:+ inside) {content : KernelFile}
    (good
      : ∀ unit : SourceUnit, unit.Proper → artifactFile unit.name = name →
          serves content.opened unit)
    : (region { host with disk := host.disk.add (name :: inside) content } home others).Sound
        serves := by
  rw [region, Disk.within_add (below.trans (List.suffix_cons _ _))]
  exact Sound.add sound good

/-- A region stays sound when a file is moved there under its own name. -/
theorem region_move (sound : (host.region home others).Sound serves) {scratch : Place}
    (below : home <:+ scratch) {directory name : String}
    (moved : host.disk.move (name :: scratch) directory name = .ok disk)
    : (region { host with disk } home others).Sound serves := by
  obtain ⟨count, inside, held⟩ := Disk.holds_within_of_move below moved
  exact ⟨sound.disk.moved count held,
    fun library member => (sound.libraries library member).moved count held⟩

theorem region_withOpen (sound : (host.region home others).Sound serves) {library : Library}
    (opened : library.Sound serves (host.disk.within home))
    : ((host.withOpen library).region home others).Sound serves where
  disk := sound.disk
  libraries := by
    intro other member
    rcases List.mem_append.mp member with elsewhere | here
    · exact sound.libraries other (List.mem_append_left _ elsewhere)
    · rcases List.mem_cons.mp here with rfl | old
      · exact opened
      · exact sound.libraries other (List.mem_append_right _ (List.mem_filter.mp old).1)

/-- A path into a region finds what stands there. -/
theorem region_library? (sound : (host.region home others).Sound serves) {unit : SourceUnit}
    (proper : unit.Proper) {directory : String} (below : home <:+ Disk.target directory)
    {library : Library}
    (found : host.library? directory (artifactFile unit.name) = some library)
    : library.Sound serves (host.disk.within home) ∧ serves library.artifact unit := by
  refine sound.library?_of (List.subset_append_right _ _) proper ?_ found
  intro number artifact stands
  obtain ⟨file, held, opens⟩ := exists_holds_of_artifact? stands
  exact ⟨_, file, Disk.holds_within.mpr ⟨held, below.trans (List.suffix_cons _ _)⟩, opens⟩

end Host

end LazyTensor
