import Larder.Proofs.Snapshot.Upkeep

/-!
# A dropped stash and its successor

A stash that takes the name of a dropped one takes its file too, and the deletion of that file may
come at any later time.  If it comes after the new stash was saved, it takes away what was saved,
and nothing is marked.  Otherwise the file of a stash in which values were stored, that is not
marked and with which no pass is under way, holds what the stash lists.
-/

namespace Larder.Upkeep

open Archive

/-- No other stash of a name is about to be put in its file, or to be taken away from there. -/
def Alone (state : Upkeep) (handle : Handle) (name : String) : Prop :=
  ∀ {other rival}, state.stage.scribe? = some other → other ≠ handle →
    state.registry.stash? other = some rival → rival.name ≠ name

/-- The file of a stash is there to stay, and holds what the stash lists. -/
def Current (state : Upkeep) (stash : Stash) (contents : Stash.Contents) : Prop :=
  stash.name ∉ state.registry.deletions ∧ ∃ entries, Stash.TimesFit entries ∧
    state.disk.directory.read (fileName stash.name) = .ok (imageOf stash entries).encode ∧
    contents.Mirrored state.now entries

/-- The file of a stash is to be deleted, or is gone unless that failed. -/
def Doomed (state : Upkeep) (stash : Stash) : Prop :=
  stash.name ∈ state.registry.deletions ∨ state.disk.content? (fileName stash.name) = none ∨
    stash.name ∈ state.stuck

/-- What is known of the file of a stash that was saved since it was marked last. -/
structure Standing (state : Upkeep) (handle : Handle) (stash : Stash) (contents : Stash.Contents) :
    Prop where
  alone : state.Alone handle stash.name
  current : handle ∉ state.overtaken → state.Current stash contents
  doomed : handle ∈ state.overtaken → state.Doomed stash

/-- What is known of an open stash that is not marked. -/
structure Faithful (state : Upkeep) (handle : Handle) (stash : Stash) (contents : Stash.Contents) :
    Prop where
  listed : ∀ {entries}, state.stage = .listed handle entries →
    contents.Mirrored state.now entries
  standing : handle ∈ state.stored → state.stage.holder? ≠ some handle →
    state.Standing handle stash contents

/-- Every open stash that is saved to disk and not marked is as it should be. -/
def AllFaithful (state : Upkeep) : Prop :=
  ∀ {handle stash contents}, state.registry.stash? handle = some stash →
    stash.contents = some contents → stash.options.snapshots = true → stash.dirty = false →
      state.Faithful handle stash contents

variable {limits : Limits} {limit : Nat} {state next : Upkeep} {handle other : Handle}
  {stash last : Stash} {contents rest : Stash.Contents}

section Step

/-- Stashes keep their names and their settings. -/
theorem Step.stash?_cases (step : Step limits state next) (order : state.InOrder limit)
    (found : next.registry.stash? handle = some last) :
    (∃ stash, state.registry.stash? handle = some stash ∧ stash.name = last.name ∧
      stash.options = last.options) ∨ state.registry.stashes.length ≤ handle := by
  have put {place : Handle} {before after : Stash}
      (known : state.registry.stash? place = some before) (name : before.name = after.name)
      (options : before.options = after.options)
      (there : (state.registry.put place after).stash? handle = some last) :
      ∃ stash, state.registry.stash? handle = some stash ∧ stash.name = last.name ∧
        stash.options = last.options := by
    rw [Registry.stash?_put known] at there
    split at there
    · next same =>
      cases there
      exact ⟨before, same ▸ known, name, options⟩
    · exact ⟨last, there, rfl, rfl⟩
  cases step with
  | @call _ _ stash later call _ led known ordinary =>
      rcases (order.exists_contents led known).2 with ⟨contents, opened⟩
      have healthy := ((order.sits known).opened opened).1
      rcases Stash.exists_change healthy.opened healthy.coherent healthy.size_le later
        ordinary.notClose with ⟨_, _, _, became⟩
      exact .inl (put known became.name.symm became.options.symm found)
  | create _ _ _ created =>
      rcases Registry.eq_of_create created with rfl | ⟨_, rfl⟩
      · exact .inl ⟨last, found, rfl, rfl⟩
      · rcases Registry.stash?_register_cases found with old | ⟨rfl, _⟩
        · exact .inl ⟨last, old, rfl, rfl⟩
        · exact .inr (Nat.le_refl _)
  | drop dropped =>
      rcases Registry.eq_of_drop dropped with ⟨_, gone, _, rfl⟩
      rcases Registry.stash?_leftBehind_cases found with ⟨_, old, ⟨_, rfl⟩ | ⟨_, rfl⟩⟩ <;>
        exact .inl ⟨_, old, rfl, rfl⟩
  | @take _ stash _ known => exact .inl (@put _ stash stash.takeDirty.2 known rfl rfl found)
  | @mark _ stash _ known => exact .inl (@put _ stash stash.markDirty known rfl rfl found)
  | list | refuse | commit | fail | confirm | regret | delete | trouble =>
      exact .inl ⟨last, found, rfl, rfl⟩

/-- An open stash stays alone, as only open stashes are listed. -/
theorem Step.alone (step : Step limits state next) (order : state.InOrder limit)
    (found : state.registry.stash? handle = some stash) (opened : stash.contents = some contents)
    (alone : state.Alone handle stash.name) : next.Alone handle stash.name := by
  intro other rival about different there
  have stays (about : state.stage.scribe? = some other) : rival.name ≠ stash.name := by
    have busy : state.stage.handle? = some other := by
      cases stage : state.stage <;> rw [stage] at about <;> cases about <;> rfl
    rcases order.busy busy with ⟨before, known, _⟩
    rcases step.stash?_cases order there with ⟨again, known', name, _⟩ | fresh
    · rw [← name]
      exact alone about different known'
    · have inside := (List.getElem?_eq_some_iff.mp known).1
      exact absurd inside (Nat.not_lt.mpr fresh)
  cases step with
  | call | create | drop | delete | trouble => exact stays about
  | take | refuse | fail | confirm | mark => cases about
  | regret =>
      dsimp only at about
      split at about <;> cases about
  | commit listed =>
      apply stays
      rw [listed]
      exact about
  | @list place entered later all entries _ taken known answered =>
      cases about
      intro name
      cases held : entered.contents with
      | none =>
          rw [Stash.entries, Stash.open?, held] at answered
          cases answered
      | some others =>
          cases there.symm.trans known
          have led := ((order.sits known).opened held).2
          have led' := ((order.sits found).opened opened).2
          rw [name, led'] at led
          exact different (Option.some.inj led).symm

end Step

/-- What leaves the file of a stash, and does not save or doom it, leaves what is known of it. -/
theorem Standing.keep (standing : state.Standing handle stash contents)
    (name : last.name = stash.name) (options : last.options = stash.options)
    (same : contents.ListsLike rest) (ordered : state.now ≤ next.now)
    (alone : next.Alone handle stash.name)
    (file : next.disk.content? (fileName stash.name) = state.disk.content? (fileName stash.name))
    (deletions : stash.name ∈ next.registry.deletions ↔ stash.name ∈ state.registry.deletions)
    (overtaken : handle ∈ next.overtaken ↔ handle ∈ state.overtaken)
    (stuck : state.stuck ⊆ next.stuck) : next.Standing handle last rest := by
  constructor
  · rw [name]
    exact alone
  · intro fresh
    rcases standing.current (fun old => fresh (overtaken.mpr old)) with
      ⟨undeleted, entries, times, held, mirrored⟩
    have image : imageOf last entries = imageOf stash entries := by
      rw [imageOf, imageOf, name, options]
    rcases Disk.read_eq_ok_iff.mp held with ⟨content, checked⟩
    rw [Current, name]
    refine ⟨fun due => undeleted (deletions.mp due), entries, times, ?_,
      (mirrored.mono ordered).listsLike same⟩
    rw [image]
    exact Disk.read_eq_ok_iff.mpr ⟨file.trans content, checked⟩
  · intro old
    rw [Doomed, name, deletions, file]
    exact (standing.doomed (overtaken.mp old)).imp_right (·.imp_right fun left => stuck left)

/-- What happens elsewhere. -/
theorem Faithful.keep (faithful : state.Faithful handle stash contents)
    (ordered : state.now ≤ next.now)
    (listed : ∀ {entries}, next.stage = .listed handle entries →
      state.stage = .listed handle entries)
    (stored : handle ∈ next.stored → handle ∈ state.stored)
    (holder : state.stage.holder? = some handle → next.stage.holder? = some handle)
    (alone : state.Alone handle stash.name → next.Alone handle stash.name)
    (file : state.Alone handle stash.name → next.disk.content? (fileName stash.name) =
      state.disk.content? (fileName stash.name))
    (deletions : stash.name ∈ next.registry.deletions ↔ stash.name ∈ state.registry.deletions)
    (overtaken : handle ∈ next.overtaken ↔ handle ∈ state.overtaken)
    (stuck : state.stuck ⊆ next.stuck) : next.Faithful handle stash contents where
  listed isListed := (faithful.listed (listed isListed)).mono ordered
  standing inStored free :=
    have standing := faithful.standing (stored inStored) fun held => free (holder held)
    standing.keep rfl rfl contents.listsLike_refl ordered (alone standing.alone)
      (file standing.alone) deletions overtaken stuck

/-- What a pass does with other stashes, as long as it spares the file of this one. -/
theorem Faithful.elsewhere (faithful : state.Faithful handle stash contents) {now : Nat}
    {registry : Registry} {disk : Disk} {stage : Stage} {overtaken : List Handle}
    {stuck : List String} (ordered : state.now ≤ now)
    (deletions : registry.deletions = state.registry.deletions)
    (before : state.stage.handle? ≠ some handle) (after : stage.handle? ≠ some handle)
    (alone : state.Alone handle stash.name →
      Alone { state with now, registry, disk, stage, overtaken, stuck } handle stash.name)
    (file : state.Alone handle stash.name →
      disk.content? (fileName stash.name) = state.disk.content? (fileName stash.name))
    (fresh : handle ∈ overtaken ↔ handle ∈ state.overtaken) (left : state.stuck ⊆ stuck) :
    Faithful { state with now, registry, disk, stage, overtaken, stuck } handle stash contents :=
  faithful.keep ordered (fun listed => absurd (congrArg Stage.handle? listed) after) id
    (fun held => absurd (Stage.handle?_of_holder? held) before) alone file (by rw [deletions]) fresh
    left

/-- A call that stores a value marks the stash. -/
theorem dirty_of_stored (opened : stash.contents = some contents)
    (saves : stash.options.snapshots = true) {call : Stash.Call} (ordinary : call.Ordinary)
    (stored : call.stored?.isSome = true) (now : Nat) : (stash.after now call).dirty = true := by
  cases call with
  | set key value =>
      rw [Stash.after, Stash.respond, Stash.set_of_open opened]
      exact Stash.dirty_markDirty saves
  | setWithTtl key value ttl =>
      rw [Stash.after, Stash.respond, Stash.setWithTtl_of_open opened]
      exact Stash.dirty_markDirty saves
  | restore entry => exact absurd rfl (ordinary.notRestore entry)
  | _ => cases stored

theorem content?_write_other {disk last : Disk} {image : Image} {name : String}
    {result : Except Snapshot.Error Unit} (written : write disk image = (result, last))
    (other : image.name ≠ name) :
    last.content? (fileName name) = disk.content? (fileName name) := by
  have kept := @content?_write disk image (fileName name) (draftFile_ne_fileName _ _)
    fun same => other (fileName_injective same)
  rwa [written] at kept

section Faithful

/-- A call to an open stash marks it, or leaves what it lists. -/
theorem AllFaithful.call (faithful : state.AllFaithful) (order : state.InOrder limit)
    (known : state.registry.stash? handle = some stash) (held : stash.contents = some contents)
    {later : Nat} (ordered : state.now ≤ later) {call : Stash.Call} (ordinary : call.Ordinary)
    {stored : List Handle}
    (logged : handle ∈ stored → call.stored?.isSome = true ∨ handle ∈ state.stored)
    (alone : state.Alone handle stash.name → Alone { state with
      now := later, registry := state.registry.put handle (stash.after later call), stored }
        handle stash.name)
    (opened : (stash.after later call).contents = some rest)
    (saves : (stash.after later call).options.snapshots = true)
    (unmarked : (stash.after later call).dirty = false) :
    Faithful { state with
      now := later, registry := state.registry.put handle (stash.after later call), stored }
        handle (stash.after later call) rest := by
  have healthy := ((order.sits known).opened held).1
  rcases Stash.exists_change healthy.opened healthy.coherent healthy.size_le later
    ordinary.notClose with ⟨next, marks, change, became⟩
  cases became.contents.symm.trans opened
  rw [became.options] at saves
  rcases became.marked_or_listsLike change healthy.coherent saves ordinary with
    marked | ⟨dirty, same⟩
  · rw [marked] at unmarked
    cases unmarked
  have before := faithful known held saves (dirty ▸ unmarked)
  constructor
  · intro entries listed
    exact ((before.listed listed).mono ordered).listsLike same
  · intro inStored free
    rcases logged inStored with stores | old
    · rw [dirty_of_stored held saves ordinary stores later] at unmarked
      cases unmarked
    · have standing := before.standing old free
      exact standing.keep became.name became.options same ordered (alone standing.alone) rfl .rfl
        .rfl (List.Subset.refl _)

theorem AllFaithful.commit (faithful : state.AllFaithful) (order : state.InOrder limit)
    {entries : List Stash.Entry} {disk : Disk} (listed : state.stage = .listed handle entries)
    (found : state.registry.stash? handle = some stash)
    (written : write state.disk (imageOf stash entries) = (.ok (), disk))
    (opened : stash.contents = some contents) (saves : stash.options.snapshots = true)
    (unmarked : stash.dirty = false) :
    Faithful { state with
      disk, stage := .written handle
      overtaken := if stash.name ∈ state.registry.deletions then handle :: state.overtaken
        else state.overtaken.filter (· ≠ handle) } handle stash contents where
  listed := nofun
  standing _ _ := by
    have mirrored := (faithful found opened saves unmarked).listed listed
    have held := read_of_write written
    have named : (imageOf stash entries).name = stash.name := rfl
    rw [named] at held
    refine ⟨?_, ?_, ?_⟩
    · intro other rival about different
      cases about
      exact absurd rfl different
    · intro fresh
      dsimp only at fresh
      split at fresh
      · exact absurd List.mem_cons_self fresh
      · next undeleted =>
        exact ⟨undeleted, entries, order.times listed, held, mirrored⟩
    · intro overtaken
      dsimp only at overtaken
      split at overtaken
      · next due => exact .inl due
      · exact absurd rfl (of_decide_eq_true (List.mem_filter.mp overtaken).2)

/-- A deletion dooms no file but the one that it is about, and that is gone or stuck. -/
theorem Standing.delete (standing : state.Standing handle stash contents) {name : String}
    (due : name ∈ state.registry.deletions)
    (alone : Alone { state with
      registry := { state.registry with deletions := state.registry.deletions.erase name }
      disk := (Archive.delete state.disk name).2
      stuck := state.stuckAfter name (Archive.delete state.disk name).2 } handle stash.name) :
    Standing { state with
      registry := { state.registry with deletions := state.registry.deletions.erase name }
      disk := (Archive.delete state.disk name).2
      stuck := state.stuckAfter name (Archive.delete state.disk name).2 } handle stash contents := by
  by_cases own : name = stash.name
  · subst own
    refine ⟨alone, fun fresh => absurd due (standing.current fresh).1, fun _ => .inr ?_⟩
    by_cases gone : (Archive.delete state.disk stash.name).2.content? (fileName stash.name) = none
    · exact .inl gone
    · right
      rw [stuckAfter, if_neg gone]
      exact List.mem_cons_self
  · refine standing.keep rfl rfl contents.listsLike_refl (Nat.le_refl _) alone ?_ ?_ .rfl ?_
    · exact content?_delete fun same => own (fileName_injective same)
    · exact List.mem_erase_of_ne (Ne.symm own)
    · exact subset_stuckAfter ..

/-- A new stash is not known to anyone yet, and to create it is nothing to the others. -/
theorem AllFaithful.create (faithful : state.AllFaithful) (order : state.InOrder limit)
    {name : String} {options : Stash.Options} {later : Nat} {registry : Registry}
    (ordered : state.now ≤ later)
    (created : state.registry.create later name options = (.ok (), registry))
    (alone : ∀ {stash contents}, state.registry.stash? handle = some stash →
      stash.contents = some contents → state.Alone handle stash.name →
        Alone { state with now := later, registry } handle stash.name)
    (found : registry.stash? handle = some last) (opened : last.contents = some rest)
    (saves : last.options.snapshots = true) (unmarked : last.dirty = false) :
    Faithful { state with now := later, registry } handle last rest := by
  have kept (old : state.registry.stash? handle = some last)
      (same : registry.deletions = state.registry.deletions) :
      Faithful { state with now := later, registry } handle last rest :=
    (faithful old opened saves unmarked).keep ordered id id id (alone old opened) (fun _ => rfl)
      (by rw [same]) .rfl (List.Subset.refl _)
  rcases Registry.eq_of_create created with rfl | ⟨_, rfl⟩
  · exact kept found rfl
  rcases Registry.stash?_register_cases found with old | ⟨rfl, rfl⟩
  · exact kept old rfl
  constructor
  · intro entries listed
    have busy : state.stage.handle? = some state.registry.stashes.length := by
      rw [show state.stage = _ from listed, Stage.handle?]
    rcases order.busy busy with ⟨_, known, _⟩
    exact absurd (List.getElem?_eq_some_iff.mp known).1 (Nat.lt_irrefl _)
  · intro inStored
    exact absurd (order.known _ (List.mem_append_left _ inStored)) (Nat.lt_irrefl _)

/-- Another stash that is dropped has another name, so its deletion is not one of this file. -/
theorem AllFaithful.drop (faithful : state.AllFaithful) (order : state.InOrder limit)
    {name : String} {registry : Registry}
    (dropped : state.registry.drop name = (.ok (), registry))
    (alone : ∀ {stash contents}, state.registry.stash? handle = some stash →
      stash.contents = some contents → state.Alone handle stash.name →
        Alone { state with registry } handle stash.name)
    (found : registry.stash? handle = some last) (opened : last.contents = some rest)
    (saves : last.options.snapshots = true) (unmarked : last.dirty = false) :
    Faithful { state with registry } handle last rest := by
  rcases Registry.eq_of_drop dropped with ⟨_, gone, led, rfl⟩
  rcases Registry.stash?_leftBehind_cases found with ⟨before, old, ⟨_, rfl⟩ | ⟨different, rfl⟩⟩
  · cases opened
  have ledOwn := ((order.sits old).opened opened).2
  refine (faithful old opened saves unmarked).keep (Nat.le_refl _) id id id (alone old opened)
    (fun _ => rfl) ?_ .rfl (List.Subset.refl _)
  simp only [Registry.leftBehind, order.persistent, if_true, List.mem_append,
    List.mem_singleton, or_iff_left_iff_imp]
  intro same
  rw [same, led] at ledOwn
  exact absurd (Option.some.inj ledOwn) different

/-- The pass lists the entries of a stash, in any order. -/
theorem faithful_of_listed (order : state.InOrder limit) {later : Nat}
    {all entries : List Stash.Entry} (found : state.registry.stash? handle = some stash)
    (answered : stash.entries later = .ok all) (listing : entries.Perm all)
    (opened : stash.contents = some contents) :
    Faithful { state with now := later, stage := .listed handle entries } handle stash
      contents where
  listed isListed := by
    cases isListed
    cases (Stash.entries_of_open opened later).symm.trans answered
    exact ((order.sits found).opened opened).1.coherent.mirrored_of_perm listing
  standing _ held := absurd rfl held

/-- A stash whose mark the pass holds is known for nothing as long as its entries are not listed. -/
theorem faithful_of_holder? (held : state.stage.holder? = some handle)
    (unlisted : ∀ {entries}, state.stage ≠ .listed handle entries) :
    state.Faithful handle stash contents :=
  ⟨fun listed => absurd listed unlisted, fun _ free => absurd held free⟩

theorem Step.allFaithful (step : Step limits state next) (order : state.InOrder limit)
    (faithful : state.AllFaithful) : next.AllFaithful := by
  intro handle last rest found opened saves unmarked
  have alone {stash : Stash} {contents : Stash.Contents} :=
    @Step.alone limits limit state next handle stash contents step order
  -- What becomes of a stash that the step leaves as it is.
  have before (old : state.registry.stash? handle = some last) :
      state.Faithful handle last rest := faithful old opened saves unmarked
  cases step with
  | @call name place stash later call ordered led known ordinary =>
      by_cases same : handle = place
      · subst same
        cases (Registry.stash?_put_self known _).symm.trans found
        rcases (order.exists_contents led known).2 with ⟨contents, held⟩
        refine faithful.call order known held ordered ordinary ?_ (alone known held) opened saves
          unmarked
        intro inStored
        split at inStored
        · next stores => exact .inl stores
        · exact .inr inStored
      · have old := (Registry.stash?_put_ne (Ne.symm same) _).symm.trans found
        refine (before old).keep ordered id ?_ id (alone old opened) (fun _ => rfl) .rfl .rfl
          (List.Subset.refl _)
        intro inStored
        dsimp only at inStored
        split at inStored
        · exact (List.mem_cons.mp inStored).resolve_left same
        · exact inStored
  | create ordered _ _ created =>
      exact faithful.create order ordered created alone found opened saves unmarked
  | drop dropped => exact faithful.drop order dropped alone found opened saves unmarked
  | @take place stash free known marked =>
      by_cases same : place = handle
      · exact faithful_of_holder? (congrArg some same) nofun
      · have old := (Registry.stash?_put_ne same _).symm.trans found
        exact (before old).elsewhere (Nat.le_refl _) rfl (by simp [free, Stage.handle?])
          (by simp [Stage.handle?, same]) (alone old opened) (fun _ => rfl) .rfl
          (List.Subset.refl _)
  | @list place stash later all entries ordered taken known answered listing =>
      by_cases same : place = handle
      · subst same
        cases known.symm.trans found
        exact faithful_of_listed order known answered listing opened
      · exact (before found).elsewhere ordered rfl (by simp [taken, Stage.handle?, same])
          (by simp [Stage.handle?, same]) (alone found opened) (fun _ => rfl) .rfl
          (List.Subset.refl _)
  | @refuse place stash later taken known refused =>
      have different : place ≠ handle := by
        rintro rfl
        cases known.symm.trans found
        rw [Stash.entries_of_open opened] at refused
        cases refused
      exact (before found).elsewhere (Nat.le_refl _) rfl
        (by simp [taken, Stage.handle?, different]) nofun (alone found opened) (fun _ => rfl) .rfl
        (List.Subset.refl _)
  | @commit place stash entries disk listed known written =>
      by_cases same : place = handle
      · subst same
        cases known.symm.trans found
        exact faithful.commit order listed known written opened saves unmarked
      · refine (before found).elsewhere (Nat.le_refl _) rfl
          (by simp [listed, Stage.handle?, same]) (by simp [Stage.handle?, same])
          (alone found opened) ?_ ?_ (List.Subset.refl _)
        · intro isAlone
          exact content?_write_other written (isAlone (by rw [listed]; rfl) same known)
        · split <;> simp [Ne.symm same]
  | @fail place stash entries error disk listed known failed =>
      by_cases same : place = handle
      · exact faithful_of_holder? (congrArg some same) nofun
      · refine (before found).elsewhere (Nat.le_refl _) rfl
          (by simp [listed, Stage.handle?, same]) (by simp [Stage.handle?, same])
          (alone found opened) ?_ .rfl (List.Subset.refl _)
        intro isAlone
        exact content?_write_other failed (isAlone (by rw [listed]; rfl) same known)
  | @confirm place stash written known kept =>
      refine (before found).keep (Nat.le_refl _) nofun id ?_ (alone found opened) (fun _ => rfl) .rfl
        .rfl (List.Subset.refl _)
      rw [written]
      nofun
  | @regret place stash result disk written known dropped deleted =>
      have different : place ≠ handle := by
        rintro rfl
        cases known.symm.trans found
        rw [Stash.isClosed, opened] at dropped
        cases dropped
      refine (before found).elsewhere (Nat.le_refl _) rfl
        (by simp [written, Stage.handle?, different]) ?_ (alone found opened) ?_ .rfl
        (subset_stuckAfter ..)
      · split <;> simp [Stage.handle?, different]
      · intro isAlone
        have apart := isAlone (by rw [written]; rfl) different known
        have kept := @content?_delete state.disk stash.name _ fun same =>
          apart (fileName_injective same)
        rwa [deleted] at kept
  | @mark place stash failed known =>
      by_cases same : place = handle
      · subst same
        cases (Registry.stash?_put_self known _).symm.trans found
        have marked : stash.markDirty.dirty = true := Stash.dirty_markDirty saves
        rw [marked] at unmarked
        cases unmarked
      · have old := (Registry.stash?_put_ne same _).symm.trans found
        exact (before old).elsewhere (Nat.le_refl _) rfl
          (by simp [failed, Stage.handle?, same]) nofun (alone old opened) (fun _ => rfl) .rfl
          (List.Subset.refl _)
  | @delete name due =>
      refine ⟨(before found).listed, fun inStored free => ?_⟩
      have standing := (before found).standing inStored free
      exact standing.delete due (alone found opened standing.alone)
  | trouble =>
      exact (before found).keep (Nat.le_refl _) id id id (alone found opened) (fun _ => rfl) .rfl
        .rfl (List.Subset.refl _)

end Faithful

theorem Reaches.allFaithful (reaches : Reaches limits state next) (order : state.InOrder limit)
    (faithful : state.AllFaithful) : next.AllFaithful := by
  induction reaches with
  | refl => exact faithful
  | tail earlier step ih => exact step.allFaithful (Reaches.inOrder earlier order) ih

theorem allFaithful_of_nothing_stored (free : state.stage = .free) (stored : state.stored = []) :
    state.AllFaithful := by
  intro handle stash contents _ _ _ _
  constructor
  · intro entries listed
    rw [free] at listed
    cases listed
  · intro inStored
    rw [stored] at inStored
    cases inStored

/-- What a pass does with a marked stash before it writes. -/
theorem reaches_listed (free : state.stage = .free)
    (found : state.registry.stash? handle = some stash) (marked : stash.dirty = true)
    (opened : stash.contents = some contents) :
    Reaches limits state { state with
      registry := state.registry.put handle stash.takeDirty.2
      stage := .listed handle (contents.entries state.now) } := by
  have take : Step limits state _ := .take free found marked
  have list : Step limits { state with
      registry := state.registry.put handle stash.takeDirty.2, stage := .taken handle } _ :=
    .list (Nat.le_refl _) rfl (Registry.stash?_put_self found stash.takeDirty.2)
      (@Stash.entries_of_open stash.takeDirty.2 contents opened state.now) (.refl _)
  exact (Relation.ReflTransGen.single take).tail list

/-- What a pass does with a marked stash if it can write. -/
theorem reaches_saved (free : state.stage = .free)
    (found : state.registry.stash? handle = some stash) (marked : stash.dirty = true)
    (opened : stash.contents = some contents) {disk : Disk}
    (written : write state.disk (imageOf stash.takeDirty.2 (contents.entries state.now)) =
      (.ok (), disk)) :
    Reaches limits state { state with
      registry := state.registry.put handle stash.takeDirty.2, disk, stage := .free
      overtaken := if stash.name ∈ state.registry.deletions then handle :: state.overtaken
        else state.overtaken.filter (· ≠ handle) } := by
  have there := Registry.stash?_put_self found stash.takeDirty.2
  have listed := @reaches_listed limits state handle stash contents free found marked opened
  have commit : Step limits { state with
      registry := state.registry.put handle stash.takeDirty.2
      stage := .listed handle (contents.entries state.now) } _ := .commit rfl there written
  have kept : stash.takeDirty.2.isClosed = false := by
    rw [Stash.isClosed, Stash.takeDirty, opened]
    rfl
  exact (listed.tail commit).tail (.confirm rfl there kept)

/-- What a pass does with a marked stash if it cannot write. -/
theorem reaches_unsaved (free : state.stage = .free)
    (found : state.registry.stash? handle = some stash) (marked : stash.dirty = true)
    (opened : stash.contents = some contents) {error : Snapshot.Error} {disk : Disk}
    (failed : write state.disk (imageOf stash.takeDirty.2 (contents.entries state.now)) =
      (.error error, disk)) :
    Reaches limits state { state with
      registry := state.registry.put handle stash.takeDirty.2.markDirty, disk, stage := .free } := by
  have there := Registry.stash?_put_self found stash.takeDirty.2
  have listed := @reaches_listed limits state handle stash contents free found marked opened
  have fail : Step limits { state with
      registry := state.registry.put handle stash.takeDirty.2
      stage := .listed handle (contents.entries state.now) } _ := .fail rfl there failed
  have mark : Step limits { state with
      registry := state.registry.put handle stash.takeDirty.2, disk, stage := .failed handle } _ :=
    .mark rfl there
  simp only [Registry.put, List.set_set] at mark
  exact (listed.tail fail).tail mark

/--
A registry starts with the default stash, on any disk.  Then stashes are created and dropped and
called, and there are passes and deletions at any time, and troubles with the disk.  Take a stash of
a name that is saved to disk and in which values were stored.  If it is not marked, no pass holds
its mark and no deletion for its name is left to come, then what is in its file depends on what was
outstanding when it was last saved.  If that was no deletion for its name, the file has the entries
that the stash lists, and no others whose lifetime is not over, and if they can be read back they
are what is loaded.  If it was, the file is gone, unless the deletion failed.
-/
theorem file_current_unless_overtaken (limits : Limits) (now maxStashes : Nat)
    (defaults : StashDefaults) (disk : Disk) (bounded : defaults.maxKeys ≤ Word64.largest)
    (last : Upkeep)
    (reached : Reaches limits
      { now, registry := .start now maxStashes defaults true, disk } last)
    (name : String) (handle : Handle) (stash : Stash)
    (led : last.registry.handle? name = some handle)
    (found : last.registry.stash? handle = some stash) (saves : stash.options.snapshots = true)
    (stored : handle ∈ last.stored) (unmarked : stash.dirty = false)
    (idle : last.stage.holder? ≠ some handle) (settled : name ∉ last.registry.deletions)
    (time : Nat) (ordered : last.now ≤ time) :
    (handle ∉ last.overtaken → ∃ (listed : List Stash.Entry) (image : Image),
      stash.entries time = .ok listed ∧
        last.disk.directory.read (fileName name) = .ok image.encode ∧
        (image.liveAt time).entries.Perm listed ∧
        (image.SizesFit →
          load last.disk.directory time (fileName name) = .ok (image.liveAt time))) ∧
    (handle ∈ last.overtaken → name ∉ last.stuck →
      last.disk.content? (fileName name) = none) := by
  have start := InOrder.start now maxStashes disk bounded
  have order := reached.inOrder start
  rcases order.exists_contents led found with ⟨rfl, contents, opened⟩
  have faithful : last.AllFaithful :=
    reached.allFaithful start (allFaithful_of_nothing_stored rfl rfl)
  have standing := (faithful found opened saves unmarked).standing stored idle
  have healthy := ((order.sits found).opened opened).1
  constructor
  · intro fresh
    rcases standing.current fresh with ⟨_, entries, times, held, mirrored⟩
    refine ⟨_, imageOf stash entries, Stash.entries_of_open opened time, held,
      mirrored time ordered, ?_⟩
    exact fun sizes => load_of_read (sizes.fits healthy.bounded times) held time
  · intro overtaken unstuck
    exact ((standing.doomed overtaken).resolve_left settled).resolve_right unstuck

/-- A value is stored in a stash, and a pass saves it. -/
theorem reaches_stored_saved (free : state.stage = .free) {name : String}
    (led : state.registry.handle? name = some handle)
    (found : state.registry.stash? handle = some stash) {key value : Bytes}
    (short : key.length ≤ limits.maxKeyLength ∧ value.length ≤ limits.maxValueLength)
    (became : stash.after state.now (.set key value) = last) (marked : last.dirty = true)
    (opened : last.contents = some contents) {disk : Disk}
    (written : write state.disk (imageOf last (contents.entries state.now)) = (.ok (), disk))
    {overtaken : List Handle}
    (late : overtaken = if last.name ∈ state.registry.deletions then handle :: state.overtaken
      else state.overtaken.filter (· ≠ handle)) :
    Reaches limits state { state with
      registry := (state.registry.put handle last).put handle last.takeDirty.2, disk
      stage := .free, stored := handle :: state.stored, overtaken } := by
  subst became late
  have call : Step limits state { state with
      registry := state.registry.put handle (stash.after state.now (.set key value))
      stored := handle :: state.stored } := by
    refine .call (Nat.le_refl _) led found (.set key value) ?_
    intro _ _ same
    cases same
    exact short
  have there := Registry.stash?_put_self found (stash.after state.now (.set key value))
  exact .head call (@reaches_saved limits { state with
      registry := state.registry.put handle (stash.after state.now (.set key value))
      stored := handle :: state.stored }
    handle _ contents free there marked opened disk written)

/-- A deletion that takes a file away. -/
theorem step_deleted {name : String} (due : name ∈ state.registry.deletions) {disk : Disk}
    (deleted : (Archive.delete state.disk name).2 = disk)
    (gone : disk.content? (fileName name) = none) :
    Step limits state { state with
      registry := { state.registry with deletions := state.registry.deletions.erase name }
      disk } := by
  subst deleted
  have step := @Step.delete limits state name due
  rwa [stuckAfter, if_pos gone] at step

/-- A stash is created, dropped and created again. -/
theorem reaches_recreated {registry dropped : Registry} {name : String} {options : Stash.Options}
    {now : Nat} {disk : Disk} (short : (Bytes.ofText name).length ≤ limits.maxNameLength)
    (bounded : options.maxKeys ≤ Word64.largest) {first second : Registry}
    (created : registry.create now name options = (.ok (), first))
    (drops : first.drop name = (.ok (), dropped))
    (again : dropped.create now name options = (.ok (), second)) :
    Reaches limits { now, registry, disk } { now, registry := second, disk } := by
  have create : Step limits { now, registry, disk } { now, registry := first, disk } :=
    .create (Nat.le_refl _) short bounded created
  have drop : Step limits { now, registry := first, disk } { now, registry := dropped, disk } :=
    .drop drops
  have successor : Step limits { now, registry := dropped, disk }
      { now, registry := second, disk } := .create (Nat.le_refl _) short bounded again
  exact ((Relation.ReflTransGen.single create).tail drop).tail successor

/-- The file of a dropped stash is deleted before its successor is saved. -/
theorem file_current_of_early_deletion :
    let options : Stash.Options := { snapshots := true }
    let first := (Registry.start 0 2 {} true).register 0 "a" options
    let second := (first.drop "a").2.register 0 "a" options
    let settled := { second with deletions := second.deletions.erase "a" }
    let stash := (Stash.create 0 "a" options).after 0 (.set [1] [2])
    let disk := (write {} (imageOf stash [⟨[1], [2], none⟩])).2
    let last : Upkeep :=
      { now := 0
        registry := (settled.put 2 stash).put 2 stash.takeDirty.2
        disk
        stored := [2] }
    Reaches {} { now := 0, registry := .start 0 2 {} true, disk := {} } last ∧
      last.registry.handle? "a" = some 2 ∧ last.registry.stash? 2 = some stash.takeDirty.2 ∧
      stash.options.snapshots = true ∧ "a" ∉ last.registry.deletions ∧
      ∃ image : Image, last.disk.directory.read (fileName "a") = .ok image.encode ∧
        (image.liveAt 0).entries.Perm [⟨[1], [2], none⟩] := by
  intro options first second settled stash disk last
  have create : (Registry.start 0 2 {} true).create 0 "a" options = (.ok (), first) := by
    decide +kernel
  have drop : first.drop "a" = (.ok (), (first.drop "a").2) := by decide +kernel
  have again : (first.drop "a").2.create 0 "a" options = (.ok (), second) := by
    decide +kernel
  have recreated : Reaches {} { now := 0, registry := .start 0 2 {} true, disk := {} }
      { now := 0, registry := second, disk := {} } :=
    reaches_recreated (by decide +kernel) (by decide) create drop again
  have due : "a" ∈ second.deletions := by decide +kernel
  have undue : "a" ∉ settled.deletions := by decide +kernel
  have removed : (Archive.delete {} "a").2 = {} := by decide +kernel
  have led : settled.handle? "a" = some 2 := by decide +kernel
  have found : settled.stash? 2 = some (Stash.create 0 "a" options) := by decide +kernel
  have named : stash.name = "a" := by decide +kernel
  have saves : stash.options.snapshots = true := by decide +kernel
  have marked : stash.dirty = true := by decide +kernel
  have opened : stash.contents = some (stash.contents.getD (.empty 0)) := by decide +kernel
  have entries : (stash.contents.getD (.empty 0)).entries 0 = [⟨[1], [2], none⟩] := by
    decide +kernel
  have all : stash.takeDirty.2.entries 0 = .ok [⟨[1], [2], none⟩] := by decide +kernel
  have written : write {} (imageOf stash [⟨[1], [2], none⟩]) = (.ok (), disk) := by
    decide +kernel
  have became : (Stash.create 0 "a" options).after 0 (.set [1] [2]) = stash := rfl
  rw [← entries] at written
  -- From here on their values are not needed, and to unfold them would take long.
  clear_value first second stash disk
  have delete : Step {} { now := 0, registry := second, disk := {} }
      { now := 0, registry := settled, disk := {} } := step_deleted due removed rfl
  clear_value settled
  have apart : stash.name ∉ settled.deletions := by rwa [named]
  have saved : Reaches {} { now := 0, registry := settled, disk := {} } last :=
    @reaches_stored_saved {} { now := 0, registry := settled, disk := {} } 2 _ stash _ rfl "a" led
      found [1] [2] (by decide) became marked opened disk written [] (if_neg apart).symm
  have run : Reaches {} { now := 0, registry := .start 0 2 {} true, disk := {} } last :=
    (recreated.tail delete).trans saved
  have there : last.registry.stash? 2 = some stash.takeDirty.2 :=
    Registry.stash?_put_self (Registry.stash?_put_self found stash) stash.takeDirty.2
  refine ⟨run, led, there, saves, undue, ?_⟩
  rcases (file_current_unless_overtaken {} 0 2 {} {} (by decide) last run "a" 2 stash.takeDirty.2
    led there saves (.head _) rfl nofun undue 0 (Nat.le_refl _)).1 nofun with
    ⟨listed, image, answered, held, same, _⟩
  cases all.symm.trans answered
  exact ⟨image, held, same⟩

/-- The file of a dropped stash is deleted after its successor was saved, and with it all that was
saved of the successor, which is not marked. -/
theorem file_lost_by_late_deletion :
    let options : Stash.Options := { snapshots := true }
    let first := (Registry.start 0 2 {} true).register 0 "a" options
    let second := (first.drop "a").2.register 0 "a" options
    let stash := (Stash.create 0 "a" options).after 0 (.set [1] [2])
    let disk := (write {} (imageOf stash [⟨[1], [2], none⟩])).2
    let saved := (second.put 2 stash).put 2 stash.takeDirty.2
    let last : Upkeep :=
      { now := 0
        registry := { saved with deletions := saved.deletions.erase "a" }
        disk := (Archive.delete disk "a").2
        stored := [2]
        overtaken := [2] }
    Reaches {} { now := 0, registry := .start 0 2 {} true, disk := {} } last ∧
      last.registry.handle? "a" = some 2 ∧ last.registry.stash? 2 = some stash.takeDirty.2 ∧
      stash.takeDirty.2.options.snapshots = true ∧ stash.takeDirty.2.dirty = false ∧
      last.registry.deletions = [] ∧ stash.takeDirty.2.entries 0 = .ok [⟨[1], [2], none⟩] ∧
      disk.content? (fileName "a") ≠ none ∧ last.disk.content? (fileName "a") = none := by
  intro options first second stash disk saved last
  have create : (Registry.start 0 2 {} true).create 0 "a" options = (.ok (), first) := by
    decide +kernel
  have drop : first.drop "a" = (.ok (), (first.drop "a").2) := by decide +kernel
  have again : (first.drop "a").2.create 0 "a" options = (.ok (), second) := by
    decide +kernel
  have recreated : Reaches {} { now := 0, registry := .start 0 2 {} true, disk := {} }
      { now := 0, registry := second, disk := {} } :=
    reaches_recreated (by decide +kernel) (by decide) create drop again
  have due : "a" ∈ saved.deletions := by decide +kernel
  have late : stash.name ∈ second.deletions := by decide +kernel
  have settled : last.registry.deletions = [] := by decide +kernel
  have led : second.handle? "a" = some 2 := by decide +kernel
  have found : second.stash? 2 = some (Stash.create 0 "a" options) := by decide +kernel
  have saves : stash.options.snapshots = true := by decide +kernel
  have marked : stash.dirty = true := by decide +kernel
  have opened : stash.contents = some (stash.contents.getD (.empty 0)) := by decide +kernel
  have entries : (stash.contents.getD (.empty 0)).entries 0 = [⟨[1], [2], none⟩] := by
    decide +kernel
  have all : stash.takeDirty.2.entries 0 = .ok [⟨[1], [2], none⟩] := by decide +kernel
  have written : write {} (imageOf stash [⟨[1], [2], none⟩]) = (.ok (), disk) := by
    decide +kernel
  have became : (Stash.create 0 "a" options).after 0 (.set [1] [2]) = stash := rfl
  have present : disk.content? (fileName "a") ≠ none := by decide +kernel
  have gone : last.disk.content? (fileName "a") = none := by decide +kernel
  rw [← entries] at written
  -- From here on their values are not needed, and to unfold them would take long.
  clear_value first second stash disk
  have save : Reaches {} { now := 0, registry := second, disk := {} }
      { now := 0, registry := saved, disk, stored := [2], overtaken := [2] } :=
    @reaches_stored_saved {} { now := 0, registry := second, disk := {} } 2 _ stash _ rfl "a" led
      found [1] [2] (by decide) became marked opened disk written [2] (if_pos late).symm
  have delete : Step {} { now := 0, registry := saved, disk, stored := [2], overtaken := [2] }
      last := step_deleted due rfl gone
  have there : last.registry.stash? 2 = some stash.takeDirty.2 :=
    Registry.stash?_put_self (Registry.stash?_put_self found stash) stash.takeDirty.2
  exact ⟨(recreated.trans save).tail delete, led, there, saves, rfl, settled, all, present, gone⟩

end Larder.Upkeep
