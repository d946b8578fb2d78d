import Larder.Proofs.Server.Shutdown

/-!
# Restarts

A server that starts finds the stashes that an earlier one with its settings saved before it
stopped.  These are the stashes in which values were stored; one in which there never was any has no
file, and is not there any more.
-/

namespace Larder

open Archive

section Load

/-- What is found is a part of what is looked through, if each finding tells where it was. -/
theorem sublist_of_filterMap {α β : Type} {find : α → Option β} {place : β → α} {list : List α}
    (told : ∀ first ∈ list, ∀ found, find first = some found → place found = first) :
    ((list.filterMap find).map place).Sublist list := by
  induction list with
  | nil => exact .slnil
  | cons first rest ih =>
      have others := ih fun other present => told other (.tail _ present)
      cases found : find first with
      | none =>
          rw [List.filterMap_cons_none found]
          exact others.cons first
      | some image =>
          rw [List.filterMap_cons_some found, List.map_cons, told first List.mem_cons_self _ found]
          exact others.cons_cons first

/-- Every file that counts as a snapshot can be read back and belongs to one of some names. -/
def Archive.Imaged (known : String → Prop) (disk : Disk) : Prop :=
  ∀ file content, isSnapshot file = true → disk.content? file = some content →
    ∃ image : Image, file = fileName image.name ∧ content = image.encode ∧ image.Fits ∧
      known image.name

variable {known : String → Prop} {disk : Disk} {now : Nat} {image : Image}

theorem exists_of_load (imaged : Imaged known disk) {file : String}
    (snapshot : isSnapshot file = true)
    (loaded : (load disk.directory now file).toOption = some image) :
    ∃ saved : Image, saved.Fits ∧ known saved.name ∧ file = fileName saved.name ∧
      image = saved.liveAt now := by
  rw [load] at loaded
  cases read : disk.directory.read file with
  | error error =>
      rw [read] at loaded
      cases loaded
  | ok content =>
      rcases imaged file content snapshot (Disk.read_eq_ok_iff.mp read).1 with
        ⟨saved, named, rfl, fits, isKnown⟩
      rw [read, show ((Except.ok saved.encode).mapError Snapshot.Error.file >>= Image.read now) =
        Image.read now saved.encode from rfl, Image.read_encode fits] at loaded
      exact ⟨saved, fits, isKnown, named, (Option.some.inj loaded).symm⟩

theorem known_of_mem_images (imaged : Imaged known disk)
    (present : image ∈ images disk.directory now) : known image.name := by
  rcases List.mem_filterMap.mp present with ⟨file, isFile, loaded⟩
  rcases exists_of_load imaged (List.mem_filter.mp isFile).2 loaded with ⟨saved, _, isKnown, _, rfl⟩
  exact isKnown

/-- There is one image of a name. -/
theorem nodup_names_images (imaged : Imaged known disk) (now : Nat) :
    ((images disk.directory now).map Image.name).Nodup := by
  have files : (disk.directory.listing.filter isSnapshot).Nodup :=
    disk.directory.nodup_listing.filter _
  have places : ((images disk.directory now).map (fileName ∘ Image.name)).Sublist
      (disk.directory.listing.filter isSnapshot) := by
    apply sublist_of_filterMap
    intro file isFile image loaded
    rcases exists_of_load imaged (List.mem_filter.mp isFile).2 loaded with ⟨saved, _, _, named, rfl⟩
    exact named.symm
  have distinct := files.sublist places
  rw [← List.map_map] at distinct
  exact distinct.of_map

theorem mem_images (named : image.name ≠ "") (fits : image.Fits)
    (held : disk.directory.read (fileName image.name) = .ok image.encode) :
    image.liveAt now ∈ images disk.directory now := by
  have content := (Disk.read_eq_ok_iff.mp held).1
  refine List.mem_filterMap.mpr ⟨fileName image.name, List.mem_filter.mpr ⟨?_, ?_⟩, ?_⟩
  · rw [Disk.mem_listing, content]
    exact Option.some_ne_none _
  · exact isSnapshot_fileName named
  · rw [load_of_read fits held]
    rfl

end Load

section Start

variable {known : String → Prop} {disk : Disk} {settings : Configuration} {clock : Clock}

/-- Making the directory changes no file. -/
theorem content?_prepare {result : Except FileError Unit} {next : Disk}
    (prepared : prepare disk = (result, next)) (file : String) :
    next.content? file = disk.content? file := by
  have same := @Disk.content?_apply disk file (.prepare (fileName "")) List.not_mem_nil
  rwa [show disk.apply (.prepare (fileName "")) = _ from prepared] at same

theorem exists_prepare (quiet : disk.faults.head?.join = none)
    (accessible : disk.directory ≠ .obstructed) :
    ∃ next, prepare disk = (.ok (), next) ∧ next.directory ≠ .obstructed := by
  rcases disk with ⟨directory, faults⟩
  cases directory with
  | obstructed => exact absurd rfl accessible
  | missing =>
      refine ⟨⟨.present ∅, faults.tail⟩, ?_, fun same => by cases same⟩
      simp only [prepare, Disk.apply, quiet]
      rfl
  | present files =>
      refine ⟨⟨.present files, faults.tail⟩, ?_, fun same => by cases same⟩
      simp only [prepare, Disk.apply, quiet]
      rfl

theorem Stash.options_restoreAll (stash : Stash) (entries : List Stash.Entry) :
    (stash.restoreAll entries).options = stash.options := by
  induction entries generalizing stash with
  | nil => rfl
  | cons entry entries ih =>
      rw [restoreAll, List.foldl_cons, ← restoreAll, ih]
      cases opened : stash.contents with
      | none =>
          rw [restore, open?, opened]
          rfl
      | some contents =>
          rw [restore_of_open opened]
          rfl

/-- There is room for the images of some stashes, of which there is one of each name, if there was
for the stashes. -/
theorem room_of_images (imaged : Imaged known disk) (started now maxStashes : Nat)
    (defaults : StashDefaults) (persistent : Bool)
    (few : ∀ names : List String, names.Nodup →
      (∀ name ∈ names, name ≠ Registry.defaultName ∧ known name) →
        names.length < max 1 maxStashes) :
    let first := Registry.start started maxStashes defaults persistent
    first.names.size + ((images disk.directory now).filter fun image =>
      !first.names.contains image.name).length ≤ first.limit := by
  intro first
  have others := few (((images disk.directory now).filter fun image =>
    !first.names.contains image.name).map Image.name)
    ((nodup_names_images imaged now).sublist (List.filter_sublist.map _)) (by
      intro name present
      rcases List.mem_map.mp present with ⟨image, isImage, rfl⟩
      rcases List.mem_filter.mp isImage with ⟨inside, new⟩
      rw [Registry.contains_start, Bool.not_eq_true', decide_eq_false_iff_not] at new
      exact ⟨new, known_of_mem_images imaged inside⟩)
  rw [List.length_map] at others
  change 1 + _ ≤ max 1 maxStashes
  omega

/-- A server starts with the stashes whose images are found, and no others but the default one. -/
theorem exists_startPersistent (imaged : Imaged known disk)
    (accessible : disk.directory ≠ .obstructed) (quiet : disk.faults.head?.join = none)
    (few : ∀ names : List String, names.Nodup →
      (∀ name ∈ names, name ≠ Registry.defaultName ∧ known name) →
        names.length < max 1 settings.maxStashes) :
    ∃ server, Server.startPersistent settings disk clock = .ok server ∧
      (∀ image : Image, image.name ≠ "" → image.name ≠ Registry.defaultName → image.Fits →
        disk.directory.read (fileName image.name) = .ok image.encode →
        ∃ stash, server.engine.registry.find? image.name = some stash ∧
          stash.options =
            { maxKeys := max 1 image.maxKeys, snapshots := true, offHeap := image.offHeap }) ∧
      ∀ name stash, server.engine.registry.find? name = some stash →
        name = Registry.defaultName ∨ known name := by
  rcases exists_prepare quiet accessible with ⟨ready, prepared, still⟩
  have content? := content?_prepare prepared
  have imagedStill : Imaged known ready := by
    intro file content snapshot there
    exact imaged file content snapshot ((content? file).symm.trans there)
  let first := Registry.start clock.now settings.maxStashes settings.defaults true
  have separate : first.Separate := Registry.separate_start ..
  rcases separate.exists_restoreFrom clock.now (nodup_names_images imagedStill clock.now)
    (room_of_images imagedStill clock.now clock.now settings.maxStashes settings.defaults true few)
    0 with ⟨last, restored, found, others⟩
  refine ⟨{ Server.start settings clock with
    engine := { Server.freshEngine settings true clock with registry := last }
    disk := ready
    scheduler := Scheduler.start? clock.elapsed settings.snapshotInterval }, ?_, ?_, ?_⟩
  · rw [Server.startPersistent, prepared]
    simp only [loadAll_of_accessible still]
    have all : (Server.freshEngine settings true clock).registry.restore clock.now
        (images ready.directory clock.now) = _ := restored
    simp only [bind, Except.bind, pure, Except.pure, all]
  · intro image named another fits held
    have inside : image.liveAt clock.now ∈ images ready.directory clock.now := by
      apply mem_images named fits
      rcases Disk.read_eq_ok_iff.mp held with ⟨there, checked⟩
      exact Disk.read_eq_ok_iff.mpr ⟨(content? _).trans there, checked⟩
    refine ⟨_, found (image.liveAt clock.now) inside, ?_⟩
    have absent : first.find? (image.liveAt clock.now).name = none :=
      (Registry.find?_start ..).trans (if_neg another)
    rw [Registry.restoredStash, Stash.options_restoreAll, absent]
    rfl
  · intro name stash there
    by_cases inside : name ∈ (images ready.directory clock.now).map Image.name
    · rcases List.mem_map.mp inside with ⟨image, present, rfl⟩
      exact .inr (known_of_mem_images imagedStill present)
    · left
      have absent := others name inside
      rw [show first.find? name = _ from Registry.find?_start ..] at absent
      by_contra another
      rw [if_neg another] at absent
      cases there.symm.trans absent

end Start

section Restart

variable {settings : Configuration} {disk : Disk} {clock : Clock} {server : Server}

/-- A server that finds no snapshots starts with the default stash only. -/
theorem registry_of_nothing (nothing : ∀ file, disk.content? file = none)
    (started : Server.startPersistent settings disk clock = .ok server) :
    server.engine.registry = .start clock.now settings.maxStashes settings.defaults true ∧
      server.disk.directory ≠ .obstructed ∧ ∀ file, server.disk.content? file = none := by
  rw [Server.startPersistent] at started
  split at started
  · cases started
  next ready prepared =>
  have still (file : String) : ready.content? file = none :=
    (content?_prepare prepared file).trans (nothing file)
  have accessible : ready.directory ≠ .obstructed := by
    intro obstructed
    rw [obstructed] at started
    cases started
  have imaged : Imaged (fun _ => False) ready := by
    intro file content _ there
    cases (still file).symm.trans there
  have none_found : images ready.directory clock.now = [] :=
    List.eq_nil_iff_forall_not_mem.mpr fun _ => known_of_mem_images imaged
  rw [loadAll_of_accessible accessible, none_found] at started
  cases started
  exact ⟨rfl, accessible, still⟩

/-- There is room for the default stash and all others. -/
theorem Registry.Orderly.length_lt {limit : Nat} {registry : Registry}
    (orderly : registry.Orderly limit) {names : List String} (distinct : names.Nodup)
    (others : ∀ name ∈ names, name ≠ Registry.defaultName ∧ registry.names.contains name = true) :
    names.length < limit := by
  have whole : (Registry.defaultName :: names).Nodup :=
    List.nodup_cons.mpr ⟨fun present => (others _ present).1 rfl, distinct⟩
  have inside : Registry.defaultName :: names ⊆ registry.names.keys := by
    intro name present
    rw [FiniteMap.mem_keys_iff]
    rcases List.mem_cons.mp present with rfl | other
    · exact orderly.default
    · exact (others name other).2
  have fewer := (List.subperm_of_subset whole inside).length_le
  rw [List.length_cons, FiniteMap.length_keys] at fewer
  have enough := orderly.size_le
  rw [orderly.limit_eq] at enough
  omega

/-- A server stops with a last pass that saves all that is marked, and the deletions that were
still to come are carried out. -/
structure Server.StopsWell (server : Server) (clock : Clock) : Prop where
  scheduled : server.scheduler.isSome = true
  saved : ∀ stash ∈ (server.savePass clock).engine.registry.registered, stash.dirty = false
  deleted : ∀ name ∈ server.engine.registry.deletions,
    (server.stop clock).content? (fileName name) = none

namespace Upkeep

variable {limits : Limits} {limit : Nat} {state last : Upkeep}

/-- The stash of a name is registered and saved to disk. -/
def Saves (state : Upkeep) (name : String) : Prop :=
  ∃ stash, state.registry.find? name = some stash ∧ stash.options.snapshots = true

/-- After a server stopped well there are files of registered stashes only. -/
theorem Stopped.imaged (stopped : Stopped limits state server clock last)
    (order : state.InOrder limit) (tidy : last.Tidy) (few : state.stored.length < UInt32.size)
    (deletable : state.stuck = [])
    (deleted : ∀ name ∈ state.registry.deletions,
      (server.stop clock).content? (fileName name) = none) :
    Imaged state.Saves last.disk := by
  intro file content snapshot there
  rcases tidy.files file content snapshot there with ⟨image, onFile, accounted⟩
  refine ⟨image, onFile.file_eq, onFile.content_eq, onFile.fits ?_, ?_⟩
  · refine Nat.lt_of_le_of_lt onFile.length_le ?_
    rwa [stopped.stored]
  cases accounted with
  | @registered handle stash led found saves =>
      rw [Registry.handle?, stopped.names] at led
      rcases order.orderly.exists_find? (FiniteMap.contains_of_get? led) with ⟨before, known, _⟩
      refine ⟨before, known, ?_⟩
      rcases stopped.stays ((Registry.find?_of_get? led).symm.trans known) with
        ⟨again, there', _, options⟩
      cases there'.symm.trans found
      rwa [← options]
  | due outstanding =>
      rw [stopped.settled] at outstanding
      cases outstanding
  | stuck left =>
      rcases stopped.stuck _ left with old | due
      · rw [deletable] at old
        cases old
      · have gone := deleted _ due
        rw [← stopped.disk, ← onFile.file_eq, there] at gone
        cases gone
  | late written =>
      rw [stopped.free] at written
      cases written

/-- After a server stopped well, the file of a stash in which values were stored is there to be
read. -/
theorem Stopped.exists_image (stopped : Stopped limits state server clock last)
    (order : last.InOrder limit) (tidy : last.Tidy) (faithful : last.AllFaithful)
    (few : state.stored.length < UInt32.size)
    (saved : ∀ stash ∈ (server.savePass clock).engine.registry.registered, stash.dirty = false)
    {name : String} {handle : Handle} {stash : Stash}
    (led : state.registry.handle? name = some handle)
    (found : state.registry.stash? handle = some stash) (named : stash.name = name)
    (given : name ≠ "") (saves : stash.options.snapshots = true) (stored : handle ∈ state.stored)
    (settled : name ∉ state.registry.deletions) (safe : state.Safe handle) :
    ∃ image : Image, image.name = name ∧ image.name ≠ "" ∧ image.Fits ∧
      last.disk.directory.read (fileName image.name) = .ok image.encode ∧
      image.maxKeys = stash.options.maxKeys ∧ image.offHeap = stash.options.offHeap := by
  rcases stopped.stays found with ⟨again, there, sameName, options⟩
  have ledAgain : last.registry.handle? name = some handle := by
    rwa [Registry.handle?, stopped.names]
  rcases order.exists_contents ledAgain there with ⟨namedAgain, contents, opened⟩
  have registered : again ∈ last.registry.registered :=
    List.mem_filterMap.mpr ⟨handle, List.mem_map_of_mem (FiniteMap.mem_entries_iff.mpr ledAgain),
      there⟩
  have unmarked := saved again (stopped.registered ▸ registered)
  have fresh : handle ∉ last.overtaken := by
    refine (stopped.safe found (named ▸ settled) safe).resolve_right ?_
    rintro ⟨other, known, marked⟩
    cases there.symm.trans known
    cases unmarked.symm.trans marked
  have idle : last.stage.holder? ≠ some handle := by
    rw [stopped.free]
    exact (Option.some_ne_none handle).symm
  have standing := (faithful there opened (options ▸ saves) unmarked).standing
    (stopped.stored ▸ stored) idle
  rcases standing.current fresh with ⟨_, entries, _, held, _⟩
  have content := (Disk.read_eq_ok_iff.mp held).1
  rcases tidy.files _ _ (isSnapshot_fileName (namedAgain ▸ given)) content with
    ⟨image, onFile, _⟩
  have imageName : again.name = image.name := fileName_injective onFile.file_eq
  have fits : image.Fits := by
    refine onFile.fits (Nat.lt_of_le_of_lt onFile.length_le ?_)
    rwa [stopped.stored]
  rcases Image.settings_eq_of_encode onFile.content_eq imageName (tidy.saveable there).maxKeys
    fits.maxKeys with ⟨maxKeys, offHeap⟩
  refine ⟨image, imageName.symm.trans namedAgain, onFile.named, fits, ?_, ?_, ?_⟩
  · rw [← imageName, ← onFile.content_eq]
    exact held
  · rw [← options]
    exact maxKeys.symm
  · rw [← options]
    exact offHeap.symm

end Upkeep

open Upkeep in
/--
A server starts on a disk without snapshots, runs for any time, stops well and starts again with the
same settings.  No deletion failed until then, and everything that keeps the limits of the server
fits into a snapshot.  Take a stash that was registered and saved to disk at the end, and in which a
value was stored.  If its file was not still to be deleted when it was last saved, it is there again
with its settings.  And no stash is there again, apart from the default one, that was not
registered at the end.
-/
theorem stored_stashes_survive (settings : Configuration) (fields : settings.limits.FitFields)
    (bounded : settings.defaults.maxKeys ≤ Word64.largest) (disk : Disk)
    (nothing : ∀ file, disk.content? file = none) (start : Clock) (first : Server)
    (started : Server.startPersistent settings disk start = .ok first) (last : Upkeep)
    (worked : Relation.ReflTransGen (Work settings.limits)
      { now := start.now, registry := first.engine.registry, disk := first.disk } last)
    (free : last.stage = .free) (deletable : last.stuck = [])
    (few : last.stored.length < UInt32.size) (server : Server)
    (registry : server.engine.registry = last.registry) (onDisk : server.disk = last.disk)
    (stop : Clock) (ordered : last.now ≤ stop.now) (well : server.StopsWell stop)
    (quiet : (server.stop stop).faults.head?.join = none) (again : Clock) :
    ∃ restarted, Server.startPersistent settings (server.stop stop) again = .ok restarted ∧
      (∀ name handle stash, name ≠ Registry.defaultName →
        last.registry.handle? name = some handle → last.registry.stash? handle = some stash →
        stash.options.snapshots = true → handle ∈ last.stored →
        name ∉ last.registry.deletions → stash.dirty = true ∨ handle ∉ last.overtaken →
        ∃ restored, restarted.engine.registry.find? name = some restored ∧
          restored.options = stash.options) ∧
      ∀ name stash, restarted.engine.registry.find? name = some stash →
        name = Registry.defaultName ∨ ∃ before, last.registry.find? name = some before ∧
          before.options.snapshots = true := by
  rcases registry_of_nothing nothing started with ⟨fresh, accessible, clean⟩
  rw [fresh] at worked
  have order := InOrder.start start.now settings.maxStashes first.disk bounded
  have tidy := Tidy.start start.now settings.maxStashes bounded accessible
    fun file content there => absurd ((clean file).symm.trans there) nofun
  have reached := reaches_of_works worked order
  have orderLast := reached.inOrder order
  rcases @exists_stopped settings.limits _ last orderLast free server registry onDisk well.scheduled
    stop ordered with ⟨final, stopped⟩
  have whole : Reaches settings.limits _ final := reached.trans stopped.reaches
  have orderFinal := whole.inOrder order
  have tidyFinal := whole.tidy fields order tidy
  have faithful : final.AllFaithful :=
    whole.allFaithful order (allFaithful_of_nothing_stored rfl rfl)
  have imaged := stopped.imaged orderLast tidyFinal few deletable (registry ▸ well.deleted)
  have room {names : List String} (distinct : names.Nodup)
      (others : ∀ name ∈ names, name ≠ Registry.defaultName ∧ last.Saves name) :
      names.length < max 1 settings.maxStashes := by
    refine orderLast.orderly.length_lt distinct fun name present => ?_
    rcases others name present with ⟨another, stash, found, _⟩
    refine ⟨another, ?_⟩
    rw [← orderLast.orderly.separate.isSome_find? name, found]
    rfl
  rw [stopped.disk] at imaged
  rcases exists_startPersistent imaged (stopped.disk ▸ tidyFinal.accessible) quiet
    (fun _ => room) with ⟨restarted, starts, restored, known⟩
  refine ⟨restarted, starts, ?_, known⟩
  intro name handle stash another led found saves stored settled safe
  have named := (orderLast.exists_contents led found).1
  have safe' : last.Safe handle := safe.symm.imp_right fun dirty => ⟨stash, found, dirty⟩
  have given : name ≠ "" := by
    rintro rfl
    have allNamed := allNamed_of_works worked (show (Registry.start _ _ _ _).AllNamed from rfl)
    cases led.symm.trans allNamed
  rcases stopped.exists_image orderFinal tidyFinal faithful few well.saved led found named given
    saves stored settled safe' with ⟨image, imageName, hasName, fits, held, maxKeys, offHeap⟩
  rw [stopped.disk] at held
  rcases restored image hasName (imageName ▸ another) fits held with ⟨last', found', options⟩
  refine ⟨last', imageName ▸ found', options.trans ?_⟩
  rcases (orderLast.exists_contents led found).2 with ⟨contents, opened⟩
  have healthy := ((orderLast.sits found).opened opened).1
  rw [maxKeys, offHeap, Nat.max_eq_right healthy.room, ← saves]

/-- A client creates a stash that is saved to disk, and stores a value in it. -/
theorem stored_stash_survives :
    let clock : Clock := ⟨0, 0⟩
    let first := (Server.startPersistent {} {} clock).toOption.getD (.start {} clock)
    let create := ["CREATE", "a", "2", "SNAPSHOTS=true", "MAX_KEYS=7"].map Bytes.ofText
    let set := ["SET", "k", "v", "1", "NAME=a"].map Bytes.ofText
    let created := (first.engine.turn? clock false create).getD ⟨none, first.engine, []⟩
    let done := (created.engine.turn? clock false set).getD ⟨none, created.engine, []⟩
    let last : Upkeep :=
      { now := 0, registry := done.engine.registry, disk := first.disk, stored := [1] }
    let server : Server := { first with engine := done.engine }
    Server.startPersistent {} {} clock = .ok first ∧
      Relation.ReflTransGen (Upkeep.Work {})
        { now := 0, registry := first.engine.registry, disk := first.disk } last ∧
      server.StopsWell clock ∧
      ∃ restarted, Server.startPersistent {} (server.stop clock) clock = .ok restarted ∧
        ∃ restored, restarted.engine.registry.find? "a" = some restored ∧
          restored.options = { maxKeys := 7, snapshots := true } := by
  intro clock first create set created done last server
  have started : Server.startPersistent {} {} clock = .ok first := by decide +kernel
  have framed : [] ∉ create := by decide +kernel
  have framed' : [] ∉ set := by decide +kernel
  have limits : first.engine.limits = {} := by decide +kernel
  have limits' : created.engine.limits = {} := by decide +kernel
  have taken : first.engine.turn? clock false create = some created := by decide +kernel
  have taken' : created.engine.turn? clock false set = some done := by decide +kernel
  have nothing : first.engine.storedBy? false create created = none := by decide +kernel
  have one : created.engine.storedBy? false set done = some 1 := by decide +kernel
  have led : done.engine.registry.handle? "a" = some 1 := by decide +kernel
  have found : ∃ stash, done.engine.registry.stash? 1 = some stash ∧
      stash.options = { maxKeys := 7, snapshots := true } :=
    ⟨(done.engine.registry.stash? 1).getD (.create 0 "a" {}), by decide +kernel⟩
  have settled : done.engine.registry.deletions = [] := by decide +kernel
  have quiet : (server.stop clock).faults.head?.join = none := by decide +kernel
  have scheduled : server.scheduler.isSome = true := by decide +kernel
  have saved : ∀ stash ∈ (server.savePass clock).engine.registry.registered,
      stash.dirty = false := by decide +kernel
  have well : server.StopsWell clock := by
    refine ⟨scheduled, saved, fun name due => ?_⟩
    rw [show server.engine.registry.deletions = [] from settled] at due
    cases due
  -- From here on their values are not needed, and to unfold them would take long.
  clear_value first create set created done
  have createTurn : Upkeep.Work {}
      { now := 0, registry := first.engine.registry, disk := first.disk }
      { now := 0, registry := created.engine.registry, disk := first.disk } := by
    have turn := @Upkeep.Work.of_turn? {}
      { now := 0, registry := first.engine.registry, disk := first.disk } _ limits rfl clock
      (Nat.le_refl _) false create framed created taken
    rwa [nothing] at turn
  have setTurn : Upkeep.Work {}
      { now := 0, registry := created.engine.registry, disk := first.disk } last := by
    have turn := @Upkeep.Work.of_turn? {}
      { now := 0, registry := created.engine.registry, disk := first.disk } _ limits' rfl clock
      (Nat.le_refl _) false set framed' done taken'
    rwa [one] at turn
  have worked : Relation.ReflTransGen (Upkeep.Work {})
      { now := 0, registry := first.engine.registry, disk := first.disk } last :=
    .tail (.single createTurn) setTurn
  rcases found with ⟨stash, there, options⟩
  have saves : stash.options.snapshots = true := by rw [options]
  have undue : "a" ∉ last.registry.deletions := by
    rw [show last.registry.deletions = [] from settled]
    exact List.not_mem_nil
  rcases stored_stashes_survive {} ⟨by decide, by decide, by decide⟩ (by decide) {} (fun _ => rfl)
    clock first started last worked rfl rfl (by decide : 1 < UInt32.size) server rfl rfl clock
    (Nat.le_refl _) well quiet clock with ⟨restarted, starts, survives, _⟩
  rcases survives "a" 1 stash (by decide) led there saves (.head _) undue (.inr List.not_mem_nil)
    with ⟨restored, known, same⟩
  exact ⟨started, worked, well, restarted, starts, restored, known, same.trans options⟩

/-- A stash that is created and never written to is not there any more after the server stopped
well, although it was to be saved to disk.  And a stash whose file could not be deleted when it was
dropped is there again. -/
theorem unwritten_stash_is_lost :
    let clock : Clock := ⟨0, 0⟩
    let turn (tokens : List String) (server : Server) : Option Response × Server :=
      let done := (server.engine.turn? clock false (tokens.map Bytes.ofText)).getD
        ⟨none, server.engine, []⟩
      (done.response, { server with engine := done.engine }.settle)
    let start (disk : Disk) : Server :=
      (Server.startPersistent {} disk clock).toOption.getD (.start {} clock)
    let create := turn ["CREATE", "a", "1", "SNAPSHOTS=true"]
    let created := create (start {})
    let restarted := start (created.2.stop clock)
    let flawed : Disk := { faults := List.replicate 7 none ++ [some .busy] }
    let written := turn ["SET", "k", "v", "1", "NAME=a"] (create (start flawed)).2
    let dropped := turn ["DROP", "a"] (written.2.savePass clock)
    let revived := start (dropped.2.stop clock)
    (Server.startPersistent {} {} clock = .ok (start {}) ∧
      created.1 = some .ok ∧
      (created.2.engine.registry.find? "a").map (·.options.snapshots) = some true ∧
      created.2.StopsWell clock ∧
      Server.startPersistent {} (created.2.stop clock) clock = .ok restarted ∧
      restarted.engine.registry.find? "a" = none) ∧
    Server.startPersistent {} flawed clock = .ok (start flawed) ∧
      dropped.1 = some .ok ∧
      dropped.2.engine.registry.find? "a" = none ∧
      dropped.2.StopsWell clock ∧
      Server.startPersistent {} (dropped.2.stop clock) clock = .ok revived ∧
      revived.engine.registry.find? "a" ≠ none := by
  intro clock turn start create created restarted flawed written dropped revived
  have createdWell : created.2.StopsWell clock :=
    ⟨by decide +kernel, by decide +kernel, by decide +kernel⟩
  have droppedWell : dropped.2.StopsWell clock :=
    ⟨by decide +kernel, by decide +kernel, by decide +kernel⟩
  exact ⟨⟨by decide +kernel, by decide +kernel, by decide +kernel, createdWell, by decide +kernel,
    by decide +kernel⟩, by decide +kernel, by decide +kernel, by decide +kernel, droppedWell,
    by decide +kernel, by decide +kernel⟩

end Restart

end Larder
