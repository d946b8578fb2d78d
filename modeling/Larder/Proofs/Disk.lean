import Larder.Disk
import Larder.Proofs.FiniteMap

/-!
# What file operations change

An operation changes the files that it names and no others, and one that fails changes none.
-/

namespace Larder

/-- The files that an operation may change. -/
def FileOperation.changes : FileOperation → List String
  | .prepare _ => []
  | .create file => [file]
  | .write file _ _ => [file]
  | .sync _ => []
  | .rename source target => [source, target]
  | .remove file => [file]

/-- An operation that works on what is in a file and leaves the file in its place. -/
inductive FileOperation.Fills (file : String) : FileOperation → Prop where
  | write (place : Nat) (bytes : Bytes) : Fills file (.write file place bytes)
  | sync : Fills file (.sync file)

theorem FileOperation.Fills.changes {file : String} {operation : FileOperation}
    (fills : operation.Fills file) : operation.changes ⊆ [file] := by
  cases fills with
  | write => exact List.Subset.refl _
  | sync => exact List.nil_subset _

namespace Bytes

theorem overwrite_append (content bytes : Bytes) :
    content.overwrite content.length bytes = content ++ bytes := by
  simp [overwrite]

theorem overwrite_middle {old new : Bytes} (same : old.length = new.length) (front back : Bytes) :
    (front ++ old ++ back).overwrite front.length new = front ++ new ++ back := by
  have inside : front.length - (front ++ old ++ back).length = 0 := by
    rw [List.append_assoc, List.length_append]
    omega
  have behind : (front ++ old ++ back).drop (front.length + new.length) = back := by
    rw [← same, ← List.length_append, List.drop_left]
  rw [overwrite, inside, behind, List.append_assoc front old, List.take_left]
  simp

end Bytes

namespace Directory

variable {directory next : Directory}

theorem nodup_listing (directory : Directory) : directory.listing.Nodup :=
  List.nodup_reverse.mpr directory.files.nodup_keys

theorem exists_of_access {file : String}
    {change : FiniteMap String Bytes → Except FileError Directory}
    (changed : (do
      let files ← directory.access
      checkName file
      change files) = .ok next) :
    ∃ files, directory = .present files ∧ checkName file = .ok () ∧ change files = .ok next := by
  cases directory with
  | missing => cases changed
  | obstructed => cases changed
  | present files =>
      refine ⟨files, rfl, ?_⟩
      simp only [access, bind, Except.bind] at changed
      split at changed
      · cases changed
      · next checked => exact ⟨checked, changed⟩

theorem exists_of_create {file : String} (made : directory.apply (.create file) = .ok next) :
    ∃ files, directory = .present files ∧ next = .present (files.put file []) := by
  rcases exists_of_access made with ⟨files, present, _, changed⟩
  cases changed
  exact ⟨files, present, rfl⟩

theorem exists_of_rename {source target : String}
    (renamed : directory.apply (.rename source target) = .ok next) :
    ∃ files content, directory = .present files ∧ checkName target = .ok () ∧
      files.get? source = some content ∧
      next = .present ((files.erase source).insert target content) := by
  rcases exists_of_access renamed with ⟨files, present, checked, changed⟩
  split at changed
  · next content held =>
    cases changed
    exact ⟨files, content, present, checked, held, rfl⟩
  · cases changed

theorem exists_of_remove {file : String} (removed : directory.apply (.remove file) = .ok next) :
    ∃ files, directory = .present files ∧ next = .present (files.erase file) := by
  rcases exists_of_access removed with ⟨files, present, _, changed⟩
  split at changed
  · cases changed
    exact ⟨files, present, rfl⟩
  · cases changed

theorem get?_apply {operation : FileOperation} (applied : directory.apply operation = .ok next)
    {file : String} (other : file ∉ operation.changes) :
    next.files.get? file = directory.files.get? file := by
  cases operation with
  | prepare _ => cases directory <;> cases applied <;> rfl
  | sync _ =>
      cases applied
      rfl
  | create made =>
      rcases exists_of_create applied with ⟨files, rfl, rfl⟩
      exact (FiniteMap.get?_put files made file []).trans (if_neg (List.ne_of_not_mem_cons other))
  | write written place bytes =>
      simp only [apply] at applied
      split at applied
      · cases applied
        exact (FiniteMap.get?_put _ written file _).trans (if_neg (List.ne_of_not_mem_cons other))
      · cases applied
        rfl
  | rename source target =>
      rw [FileOperation.changes, List.mem_cons, List.mem_singleton, not_or] at other
      rcases exists_of_rename applied with ⟨files, content, rfl, _, _, rfl⟩
      simp [Directory.files, other]
  | remove gone =>
      rcases exists_of_remove applied with ⟨files, rfl, rfl⟩
      simp [Directory.files, List.ne_of_not_mem_cons other]

theorem obstructed_of_apply {operation : FileOperation}
    (applied : directory.apply operation = .ok .obstructed) : directory = .obstructed := by
  cases operation with
  | prepare _ => cases directory <;> cases applied
  | sync _ => exact Except.ok.inj applied
  | create made =>
      rcases exists_of_create applied with ⟨_, _, changed⟩
      cases changed
  | write written place bytes =>
      simp only [apply] at applied
      split at applied
      · cases applied
      · exact Except.ok.inj applied
  | rename source target =>
      rcases exists_of_rename applied with ⟨_, _, _, _, _, changed⟩
      cases changed
  | remove gone =>
      rcases exists_of_remove applied with ⟨_, _, changed⟩
      cases changed

end Directory

namespace Disk

variable {disk next : Disk} {file : String}

/-- What is in a file, if it is there. -/
def content? (disk : Disk) (file : String) : Option Bytes :=
  disk.directory.files.get? file

theorem apply_of_ok {operation : FileOperation} (applied : disk.apply operation = (.ok (), next)) :
    disk.directory.apply operation = .ok next.directory := by
  simp only [apply] at applied
  split at applied
  · cases applied
  · split at applied
    · next directory changed =>
      cases applied
      exact changed
    · cases applied

theorem directory_of_error {operation : FileOperation} {error : FileError}
    (applied : disk.apply operation = (.error error, next)) : next.directory = disk.directory := by
  simp only [apply] at applied
  split at applied
  · cases applied
    rfl
  · split at applied
    · cases applied
    · cases applied
      rfl

theorem content?_apply {operation : FileOperation} (other : file ∉ operation.changes) :
    (disk.apply operation).2.content? file = disk.content? file := by
  rcases applied : disk.apply operation with ⟨_ | _, next⟩
  · exact congrArg (fun directory => directory.files.get? file) (directory_of_error applied)
  · exact Directory.get?_apply (apply_of_ok applied) other

theorem obstructed_of_apply {operation : FileOperation}
    (obstructed : (disk.apply operation).2.directory = .obstructed) :
    disk.directory = .obstructed := by
  rcases applied : disk.apply operation with ⟨_ | _, next⟩ <;> rw [applied] at obstructed
  · exact (directory_of_error applied).symm.trans obstructed
  · exact Directory.obstructed_of_apply ((apply_of_ok applied).trans (congrArg _ obstructed))

theorem content?_create (made : disk.apply (.create file) = (.ok (), next)) :
    next.content? file = some [] := by
  rcases Directory.exists_of_create (apply_of_ok made) with ⟨files, _, made⟩
  rw [content?, made]
  exact (FiniteMap.get?_put files file file []).trans (if_pos rfl)

theorem content?_write {place : Nat} {bytes content : Bytes}
    (written : disk.apply (.write file place bytes) = (.ok (), next))
    (held : disk.content? file = some content) :
    next.content? file = some (content.overwrite place bytes) := by
  have changed := apply_of_ok written
  rw [content?] at held
  simp only [Directory.apply, held] at changed
  rw [content?, ← Except.ok.inj changed]
  exact (FiniteMap.get?_put _ file file _).trans (if_pos rfl)

theorem read_eq_ok_iff {content : Bytes} : disk.directory.read file = .ok content ↔
    disk.content? file = some content ∧ Directory.checkName file = .ok () := by
  rw [content?, Directory.read]
  cases disk.directory with
  | missing => exact ⟨nofun, nofun⟩
  | obstructed => exact ⟨nofun, nofun⟩
  | present files =>
      simp only [Directory.access, Directory.files, bind, Except.bind]
      cases Directory.checkName file with
      | error error => simp
      | ok _ => cases files.get? file <;> simp

/-- Where a file can be read there is a directory. -/
theorem accessible_of_read {content : Bytes} (held : disk.directory.read file = .ok content) :
    disk.directory ≠ .obstructed := by
  intro obstructed
  rw [obstructed] at held
  cases held

theorem mem_listing : file ∈ disk.directory.listing ↔ disk.content? file ≠ none := by
  rw [Directory.listing, List.mem_reverse, FiniteMap.mem_keys_iff, FiniteMap.contains,
    Option.isSome_iff_ne_none]
  rfl

theorem read_of_rename {source target : String} {content : Bytes}
    (renamed : disk.apply (.rename source target) = (.ok (), next))
    (held : disk.content? source = some content) : next.directory.read target = .ok content := by
  rcases Directory.exists_of_rename (apply_of_ok renamed) with
    ⟨files, moved, present, checked, same, named⟩
  rw [content?, present] at held
  cases held.symm.trans same
  rw [read_eq_ok_iff, content?, named]
  exact ⟨(FiniteMap.get?_insert _ target target content).trans (if_pos rfl), checked⟩

theorem faults_apply (clean : disk.faults = []) (operation : FileOperation) :
    (disk.apply operation).2.faults = [] := by
  simp only [apply, clean, List.tail_nil]
  split
  · rfl
  · split <;> rfl

theorem content?_remove (removed : disk.apply (.remove file) = (.ok (), next)) :
    next.content? file = none := by
  rcases Directory.exists_of_remove (apply_of_ok removed) with ⟨files, _, erased⟩
  rw [content?, erased]
  exact (FiniteMap.get?_erase files file file).trans (if_pos rfl)

theorem content?_rename {source target : String} (apart : source ≠ target)
    (renamed : disk.apply (.rename source target) = (.ok (), next)) :
    next.content? source = none := by
  rcases Directory.exists_of_rename (apply_of_ok renamed) with ⟨files, content, _, _, _, moved⟩
  rw [content?, moved]
  simp [Directory.files, apart]

/-- If no operation fails by itself, a file that is not found is not there. -/
theorem content?_of_notFound (clean : disk.faults = [])
    (missing : disk.apply (.remove file) = (.error .notFound, next)) :
    next.content? file = none := by
  rw [content?, directory_of_error missing]
  simp only [apply, clean, List.head?_nil, Option.join_none] at missing
  split at missing
  · cases missing
  · next error refused =>
    cases missing
    cases at_place : disk.directory with
    | missing => rfl
    | obstructed => rfl
    | present files =>
        rw [at_place] at refused
        simp only [Directory.apply, Directory.access, bind, Except.bind] at refused
        split at refused
        · next checked =>
          rw [Directory.checkName] at checked
          split at checked <;> cases checked
          cases refused
        · split at refused
          · cases refused
          · next absent =>
            rw [← Option.not_isSome_iff_eq_none]
            exact absent

end Disk

namespace FileStore

theorem perform_append {Store : Type} [FileStore Store] (store : Store)
    (operations more : List FileOperation) :
    perform store (operations ++ more) =
      match perform store operations with
      | (.ok (), next) => perform next more
      | (.error error, next) => (.error error, next) := by
  induction operations generalizing store with
  | nil => rfl
  | cons operation operations ih =>
      rw [List.cons_append, perform, perform]
      rcases FileStore.apply store operation with ⟨_ | _, next⟩
      · rfl
      · exact ih next

theorem exists_of_perform_append {Store : Type} [FileStore Store] {store last : Store}
    {operations more : List FileOperation}
    (performed : perform store (operations ++ more) = (.ok (), last)) :
    ∃ next, perform store operations = (.ok (), next) ∧ perform next more = (.ok (), last) := by
  rw [perform_append] at performed
  split at performed
  · next next first => exact ⟨next, first, performed⟩
  · cases performed

/-- What every single operation keeps is kept by all of them, whether or not they succeed. -/
theorem kept_by_perform {kept : Disk → Prop} {operations : List FileOperation}
    (step : ∀ operation ∈ operations, ∀ disk, kept disk → kept (Disk.apply disk operation).2)
    {disk : Disk} (first : kept disk) : kept (perform disk operations).2 := by
  induction operations generalizing disk with
  | nil => exact first
  | cons operation operations ih =>
      have next := step operation List.mem_cons_self disk first
      rw [perform]
      split
      · next last applied =>
        have same : last = (disk.apply operation).2 := (congrArg Prod.snd applied).symm
        exact ih (fun other present => step other (.tail _ present)) (same ▸ next)
      · next error last applied =>
        have same : last = (disk.apply operation).2 := (congrArg Prod.snd applied).symm
        exact same ▸ next

end FileStore

end Larder
