import Larder.Proofs.Stash.Records

/-!
# Restoring entries

As long as there is room, putting entries of different keys into a stash adds them to its records
and takes none out.
-/

namespace Larder.Stash

/-- The stash after entries were put back into it, as far as that is possible. -/
def restoreAll (stash : Stash) (entries : List Entry) : Stash :=
  entries.foldl (fun stash entry => (stash.restore entry).toOption.getD stash) stash

variable {stash : Stash} {contents : Contents}

theorem exists_restore (opened : stash.contents = some contents) (coherent : contents.Coherent)
    {entry : Entry} (fresh : entry.key ∉ contents.records.map Entry.key)
    (room : contents.records.length < stash.options.maxKeys) :
    ∃ next, stash.restore entry = .ok (stash.withContents next) ∧ next.Coherent ∧
      next.records = entry :: contents.records := by
  have relabels := coherent.relabels_expiryRestored entry.key entry.expiresAt
  refine ⟨_, restore_of_open opened entry, ?_, ?_⟩
  · exact (coherent.store relabels (Nat.one_le_of_lt room) entry.value).1
  · have others : (contents.records.filter fun record => record.key ∉ [entry.key]) =
        contents.records := by
      apply List.filter_eq_self.mpr
      intro record present
      rw [decide_eq_true_eq, List.mem_singleton]
      intro same
      exact fresh (same ▸ List.mem_map_of_mem present)
    rw [coherent.records_store relabels, Contents.time?_expiryRestored, if_pos rfl, others]
    exact List.take_of_length_le room

theorem exists_restoreAll {entries : List Entry} (opened : stash.contents = some contents)
    (coherent : contents.Coherent) (distinct : (entries.map Entry.key).Nodup)
    (fresh : ∀ entry ∈ entries, entry.key ∉ contents.records.map Entry.key)
    (room : contents.records.length + entries.length ≤ stash.options.maxKeys) :
    ∃ next, stash.restoreAll entries = stash.withContents next ∧ next.Coherent ∧
      next.records = entries.reverse ++ contents.records := by
  induction entries generalizing stash contents with
  | nil => exact ⟨contents, (withContents_of_open opened).symm, coherent, rfl⟩
  | cons entry entries ih =>
      rw [List.map_cons, List.nodup_cons] at distinct
      rw [List.length_cons] at room
      rcases exists_restore opened coherent (fresh entry List.mem_cons_self) (by omega) with
        ⟨first, restored, firstCoherent, firstRecords⟩
      have later : ∀ other ∈ entries, other.key ∉ first.records.map Entry.key := by
        intro other present
        rw [firstRecords, List.map_cons, List.mem_cons, not_or]
        refine ⟨?_, fresh other (.tail _ present)⟩
        intro same
        exact distinct.1 (same ▸ List.mem_map_of_mem present)
      have stillRoom : first.records.length + entries.length ≤
          (stash.withContents first).options.maxKeys := by
        rw [firstRecords, List.length_cons]
        change _ ≤ stash.options.maxKeys
        omega
      rcases @ih (stash.withContents first) first rfl firstCoherent distinct.2 later stillRoom with
        ⟨last, all, lastCoherent, lastRecords⟩
      refine ⟨last, ?_, lastCoherent, ?_⟩
      · rw [restoreAll, List.foldl_cons, restored]
        exact all
      · rw [lastRecords, firstRecords, List.reverse_cons, List.append_assoc]
        rfl

/-- What is restored into a new stash that has room for it is all that it holds. -/
theorem exists_restoreAll_create (now : Nat) (name : String) (options : Options)
    {entries : List Entry} (distinct : (entries.map Entry.key).Nodup)
    (room : entries.length ≤ max 1 options.maxKeys) :
    ∃ contents, ((create now name options).restoreAll entries).contents = some contents ∧
      contents.Coherent ∧ contents.records.Perm entries := by
  have nothing : (Contents.empty now).records = [] := rfl
  rcases @exists_restoreAll (create now name options) (.empty now) entries rfl
    (Contents.coherent_empty now) distinct (fun _ _ => nofun) (by rwa [nothing, List.length_nil,
      Nat.zero_add]) with ⟨contents, all, coherent, records⟩
  refine ⟨contents, ?_, coherent, ?_⟩
  · rw [all]
    rfl
  · rw [records, nothing, List.append_nil]
    exact entries.reverse_perm

end Larder.Stash
