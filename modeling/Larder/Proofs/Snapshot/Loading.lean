import Larder.Proofs.Snapshot.RoundTrip
import Mathlib.Data.Multiset.AddSub

/-!
# What is loaded

Every file that counts as a snapshot and can be read gives an image.  So what is loaded is what one
file gives and what the others give, and a file that stays as it is gives what it gave.
-/

namespace Larder

/-- Some files may have changed, and all the others are as they were. -/
structure Disk.Spares (changed : List String) (disk next : Disk) : Prop where
  obstructed : next.directory = .obstructed ↔ disk.directory = .obstructed
  content : ∀ file, file ∉ changed → next.content? file = disk.content? file

namespace Disk

variable {disk next : Disk} {changed : List String} {operation : FileOperation}

theorem Spares.refl (changed : List String) (disk : Disk) : disk.Spares changed disk :=
  ⟨Iff.rfl, fun _ _ => rfl⟩

theorem obstructed_apply (obstructed : disk.directory = .obstructed) (operation : FileOperation) :
    (disk.apply operation).2.directory = .obstructed := by
  rcases applied : disk.apply operation with ⟨_ | _, next⟩
  · exact (directory_of_error applied).trans obstructed
  · have made := apply_of_ok applied
    rw [obstructed] at made
    cases operation with
    | write | sync => exact (Except.ok.inj made).symm
    | prepare | create | rename | remove => cases made

theorem Spares.apply (spares : disk.Spares changed next) (within : operation.changes ⊆ changed) :
    disk.Spares changed (next.apply operation).2 where
  obstructed := by
    rw [← spares.obstructed]
    exact ⟨obstructed_of_apply, fun obstructed => obstructed_apply obstructed operation⟩
  content file other := by
    rw [← spares.content file other]
    exact content?_apply fun named => other (within named)

/-- An operation that fails changes nothing. -/
theorem Spares.of_error {error : FileError} {last : Disk} (spares : disk.Spares changed next)
    (failed : next.apply operation = (.error error, last)) : disk.Spares changed last where
  obstructed := by
    rw [directory_of_error failed]
    exact spares.obstructed
  content file other := by
    rw [← spares.content file other, content?, directory_of_error failed]
    rfl

theorem spares_perform {operations : List FileOperation} (disk : Disk)
    (within : ∀ operation ∈ operations, operation.changes ⊆ changed) :
    disk.Spares changed (FileStore.perform disk operations).2 := by
  refine @FileStore.kept_by_perform (disk.Spares changed) operations ?_ disk (.refl changed disk)
  intro operation present middle spares
  exact spares.apply (within operation present)

end Disk

namespace Archive

open Snapshot

section Images

variable {disk next : Disk} {directory : Directory} {later : Nat} {file : String} {image : Image}

/-- The images of all stashes.  The order in which a directory lists its files means nothing. -/
def loaded (directory : Directory) (later : Nat) : Except Error (Multiset Image) :=
  (loadAll directory later).map Multiset.ofList

/-- The image that a file gives when all stashes are loaded. -/
def imageIn? (directory : Directory) (later : Nat) (file : String) : Option Image :=
  if isSnapshot file then (load directory later file).toOption else none

/-- The images that all files give but one. -/
def imagesElsewhere (directory : Directory) (later : Nat) (file : String) : Multiset Image :=
  ((directory.listing.filter (· != file)).filterMap (imageIn? directory later) : List Image)

theorem imageIn?_of_content? (same : next.content? file = disk.content? file) :
    imageIn? next.directory later file = imageIn? disk.directory later file := by
  have read : (next.directory.read file).toOption = (disk.directory.read file).toOption := by
    apply Option.ext
    intro content
    have reads (disk : Disk) : (disk.directory.read file).toOption = some content ↔
        disk.content? file = some content ∧ Directory.checkName file = .ok () := by
      rw [← Disk.read_eq_ok_iff]
      cases disk.directory.read file <;> simp [Except.toOption]
    rw [reads, reads, same]
  have loads (disk : Disk) : (load disk.directory later file).toOption =
      (disk.directory.read file).toOption.bind fun content =>
        (Image.read later content).toOption := by
    rw [load]
    cases disk.directory.read file <;> rfl
  rw [imageIn?, imageIn?, loads, loads, read]

theorem imageIn?_of_absent (absent : disk.content? file = none) :
    imageIn? disk.directory later file = none := by
  cases read : disk.directory.read file with
  | error error => simp [imageIn?, load, read, Except.mapError, bind, Except.bind, Except.toOption]
  | ok content =>
      rw [(Disk.read_eq_ok_iff.mp read).1] at absent
      cases absent

theorem imageIn?_of_read {name : String} {content : Bytes} (later : Nat)
    (held : directory.read (fileName name) = .ok content) :
    imageIn? directory later (fileName name) =
      if name = "" then none else (Image.read later content).toOption := by
  by_cases named : name = ""
  · subst named
    rfl
  · rw [imageIn?, if_pos (isSnapshot_fileName named), if_neg named, load, held]
    rfl

/-- Files that do not count as snapshots give nothing. -/
theorem filterMap_imageIn? (directory : Directory) (later : Nat) (files : List String) :
    files.filterMap (imageIn? directory later) =
      (files.filter isSnapshot).filterMap (imageIn? directory later) := by
  rw [List.filterMap_filter]
  apply List.filterMap_congr
  intro file _
  by_cases counts : isSnapshot file = true <;> simp [imageIn?, counts]

/-- What files give that stay as they are, whatever becomes of those that give nothing. -/
theorem imagesElsewhere_of_spares {changed : List String} (spares : disk.Spares changed next)
    (silent : ∀ other ∈ changed, other ≠ file → isSnapshot other = false) (later : Nat) :
    imagesElsewhere next.directory later file = imagesElsewhere disk.directory later file := by
  have same : ∀ other, other ≠ file → isSnapshot other = true →
      next.content? other = disk.content? other := by
    intro other different counts
    apply spares.content
    intro inChanged
    rw [silent other inChanged different] at counts
    cases counts
  have files : ((next.directory.listing.filter (· != file)).filter isSnapshot).Perm
      ((disk.directory.listing.filter (· != file)).filter isSnapshot) := by
    apply (List.perm_ext_iff_of_nodup ?_ ?_).mpr
    · intro other
      simp only [List.mem_filter, Disk.mem_listing, bne_iff_ne]
      refine and_congr_left fun counts => and_congr_left fun different => ?_
      rw [same other different counts]
    · exact ((Directory.nodup_listing _).filter _).filter _
    · exact ((Directory.nodup_listing _).filter _).filter _
  rw [imagesElsewhere, imagesElsewhere, filterMap_imageIn?, filterMap_imageIn? disk.directory]
  apply Quotient.sound
  refine (files.filterMap _).trans (.of_eq (List.filterMap_congr ?_))
  intro other present
  simp only [List.mem_filter, bne_iff_ne] at present
  exact imageIn?_of_content? (same other present.1.2 present.2)

/-- What is loaded is what one file gives and what the others give. -/
theorem loaded_eq (accessible : disk.directory ≠ .obstructed) (later : Nat) (file : String) :
    loaded disk.directory later =
      .ok ((imageIn? disk.directory later file).toList +
        imagesElsewhere disk.directory later file) := by
  have all : images disk.directory later =
      disk.directory.listing.filterMap (imageIn? disk.directory later) := by
    rw [filterMap_imageIn?]
    refine List.filterMap_congr fun other present => ?_
    rw [imageIn?, if_pos (List.mem_filter.mp present).2]
  rw [loaded, loadAll_of_accessible accessible, all]
  refine congrArg Except.ok (Quotient.sound ?_)
  by_cases present : file ∈ disk.directory.listing
  · have front := List.perm_cons_erase present
    rw [(Directory.nodup_listing _).erase_eq_filter] at front
    refine (front.filterMap _).trans (.of_eq ?_)
    rw [List.filterMap_cons]
    cases imageIn? disk.directory later file <;> rfl
  · have absent : disk.content? file = none := by
      rwa [Disk.mem_listing, Decidable.not_not] at present
    have none_left : disk.directory.listing.filter (· != file) = disk.directory.listing := by
      rw [List.filter_eq_self]
      intro other inListing
      rw [bne_iff_ne]
      rintro rfl
      exact present inListing
    rw [imageIn?_of_absent absent, none_left]
    exact .refl _

/-- What a file gives is among the images that are loaded. -/
theorem exists_loadAll (accessible : disk.directory ≠ .obstructed) (later : Nat) :
    ∃ images, loadAll disk.directory later = .ok images ∧
      ∀ file image, imageIn? disk.directory later file = some image → image ∈ images := by
  have all := loaded_eq accessible later
  simp only [loaded] at all
  cases listed : loadAll disk.directory later with
  | error error =>
      rw [listed] at all
      cases all ""
  | ok images =>
      refine ⟨images, rfl, fun file image given => ?_⟩
      have parts := all file
      rw [listed, given] at parts
      rw [← Multiset.mem_coe, Except.ok.inj parts]
      exact Multiset.mem_add.mpr (.inl (Multiset.mem_coe.mpr List.mem_cons_self))

/-- A change of files that do not count as snapshots changes nothing of what is loaded. -/
theorem loaded_of_spares {changed : List String} (spares : disk.Spares changed next)
    (silent : ∀ other ∈ changed, isSnapshot other = false) (later : Nat) :
    loaded next.directory later = loaded disk.directory later := by
  by_cases obstructed : disk.directory = .obstructed
  · rw [obstructed, spares.obstructed.mpr obstructed]
  · have accessible : next.directory ≠ .obstructed := fun same =>
      obstructed (spares.obstructed.mp same)
    -- The file without a name counts as no snapshot, so all is given by the others.
    have nothing (directory : Directory) : imageIn? directory later "" = none := rfl
    rw [loaded_eq obstructed later "", loaded_eq accessible later "", nothing, nothing,
      imagesElsewhere_of_spares spares fun other present _ => silent other present]

end Images

end Archive

end Larder
