import Larder.Proofs.Disk
import Larder.Snapshot.Writer

/-!
# Drafts

Bytes that are appended to a draft are in its file or in its buffer.  A draft changes no other file.
-/

namespace Larder

/-- A file with a number of entries and a body. -/
def Image.framed (count : Nat) (body : Bytes) : Bytes :=
  Snapshot.Field.header.encode ++ countBytes count ++ body ++ checksumBytes count body

namespace Snapshot.Draft

variable {disk next : Disk} {file : String} {draft : Draft} {whole bytes : Bytes}

/-- All bytes of a draft, those that are in its file in front of those in its buffer. -/
def Holds (disk : Disk) (file : String) (draft : Draft) (whole : Bytes) : Prop :=
  ∃ content, disk.content? file = some content ∧ content.length = draft.written ∧
    content ++ draft.buffer = whole

theorem holds_of_create (made : disk.apply (.create file) = (.ok (), next)) :
    Holds next file {} [] :=
  ⟨[], Disk.content?_create made, rfl, rfl⟩

/-- Bytes that go straight into the file of a draft without a buffer. -/
theorem Holds.write (holds : Holds disk file draft whole) (empty : draft.buffer = [])
    (written : disk.apply (.write file draft.written bytes) = (.ok (), next)) :
    Holds next file { draft with written := draft.written + bytes.length } (whole ++ bytes) := by
  rcases holds with ⟨content, held, length, rfl⟩
  refine ⟨content ++ bytes, ?_, ?_, ?_⟩
  · rw [Disk.content?_write written held, ← length, Bytes.overwrite_append]
  · rw [List.length_append, length]
  · rw [empty, List.append_nil, List.append_nil]

theorem apply_of_perform {operation : FileOperation}
    (performed : FileStore.perform disk [operation] = (.ok (), next)) :
    disk.apply operation = (.ok (), next) := by
  simp only [FileStore.perform] at performed
  split at performed
  · next applied =>
    rw [← performed]
    exact applied
  · cases performed

section Flush

@[simp]
theorem buffer_flush : (draft.flush file).2.buffer = [] := by
  by_cases empty : draft.buffer = [] <;> simp [flush, empty]

@[simp]
theorem pieces_flush : (draft.flush file).2.pieces = draft.pieces := by
  by_cases empty : draft.buffer = [] <;> simp [flush, empty]

@[simp]
theorem count_flush : (draft.flush file).2.count = draft.count := by
  by_cases empty : draft.buffer = [] <;> simp [flush, empty]

theorem fills_flush {operation : FileOperation}
    (asked : operation ∈ (draft.flush file).1) : operation.Fills file := by
  rw [flush] at asked
  split at asked
  · cases asked
  · rw [List.mem_singleton.mp asked]
    exact .write _ _

theorem changes_flush {operation : FileOperation}
    (asked : operation ∈ (draft.flush file).1) : operation.changes ⊆ [file] :=
  (fills_flush asked).changes

theorem Holds.flush (holds : Holds disk file draft whole)
    (performed : FileStore.perform disk (draft.flush file).1 = (.ok (), next)) :
    Holds next file (draft.flush file).2 whole := by
  rw [Draft.flush] at performed ⊢
  by_cases empty : draft.buffer = []
  · rw [if_pos empty] at performed ⊢
    cases performed
    exact holds
  · rw [if_neg empty] at performed ⊢
    rcases holds with ⟨content, held, length, rfl⟩
    have written := apply_of_perform performed
    refine ⟨content ++ draft.buffer, ?_, ?_, List.append_nil _⟩
    · rw [Disk.content?_write written held, ← length, Bytes.overwrite_append]
    · rw [List.length_append, length]

end Flush

section Append

/-- The draft with room for some bytes in its buffer, unless they would fill all of it. -/
def roomFor (file : String) (draft : Draft) (bytes : Bytes) : List FileOperation × Draft :=
  if capacity < draft.buffer.length + bytes.length then draft.flush file else ([], draft)

theorem append_eq : draft.append file bytes =
    if capacity ≤ bytes.length then
      ((draft.roomFor file bytes).1 ++
          [.write file (draft.roomFor file bytes).2.written bytes],
        { (draft.roomFor file bytes).2 with
          written := (draft.roomFor file bytes).2.written + bytes.length })
    else
      ((draft.roomFor file bytes).1,
        { (draft.roomFor file bytes).2 with
          buffer := (draft.roomFor file bytes).2.buffer ++ bytes }) :=
  rfl

theorem Holds.roomFor (holds : Holds disk file draft whole)
    (performed : FileStore.perform disk (draft.roomFor file bytes).1 = (.ok (), next)) :
    Holds next file (draft.roomFor file bytes).2 whole := by
  rw [Draft.roomFor] at performed ⊢
  split at performed
  · next full =>
    rw [if_pos full]
    exact holds.flush performed
  · next fits =>
    rw [if_neg fits]
    cases performed
    exact holds

theorem buffer_roomFor (large : capacity ≤ bytes.length) :
    (draft.roomFor file bytes).2.buffer = [] := by
  rw [roomFor]
  split
  · exact buffer_flush
  · next fits =>
    change draft.buffer = []
    apply List.length_eq_zero_iff.mp
    omega

@[simp]
theorem pieces_append : (draft.append file bytes).2.pieces = draft.pieces := by
  rw [append_eq, roomFor]
  split <;> split <;> simp

@[simp]
theorem count_append : (draft.append file bytes).2.count = draft.count := by
  rw [append_eq, roomFor]
  split <;> split <;> simp

theorem fills_append {operation : FileOperation}
    (asked : operation ∈ (draft.append file bytes).1) : operation.Fills file := by
  have inRoom (present : operation ∈ (draft.roomFor file bytes).1) : operation.Fills file := by
    rw [roomFor] at present
    split at present
    · exact fills_flush present
    · cases present
  rw [append_eq] at asked
  split at asked
  · rcases List.mem_append.mp asked with present | last
    · exact inRoom present
    · rw [List.mem_singleton.mp last]
      exact .write _ _
  · exact inRoom asked

theorem changes_append {operation : FileOperation}
    (asked : operation ∈ (draft.append file bytes).1) : operation.changes ⊆ [file] :=
  (fills_append asked).changes

theorem Holds.append (holds : Holds disk file draft whole)
    (performed : FileStore.perform disk (draft.append file bytes).1 = (.ok (), next)) :
    Holds next file (draft.append file bytes).2 (whole ++ bytes) := by
  rw [append_eq] at performed ⊢
  by_cases large : capacity ≤ bytes.length
  · rw [if_pos large] at performed ⊢
    rcases FileStore.exists_of_perform_append performed with ⟨middle, flushed, written⟩
    exact (holds.roomFor flushed).write (buffer_roomFor large) (apply_of_perform written)
  · rw [if_neg large] at performed ⊢
    rcases holds.roomFor performed with ⟨content, held, length, rfl⟩
    exact ⟨content, held, length, (List.append_assoc _ _ _).symm⟩

end Append

section Completion

/-- The operations that complete a draft, which is then ready to be given its name. -/
def completion (file : String) (draft : Draft) : List FileOperation :=
  let footed := draft.append file (Image.checksumBytes draft.count draft.body)
  footed.1 ++ (footed.2.flush file).1 ++
    [.write file Image.countPlace (Image.countBytes draft.count), .sync file]

theorem fills_completion {operation : FileOperation}
    (asked : operation ∈ draft.completion file) : operation.Fills file := by
  rcases List.mem_append.mp asked with earlier | last
  · rcases List.mem_append.mp earlier with footer | rest
    · exact fills_append footer
    · exact fills_flush rest
  · rcases List.mem_cons.mp last with rfl | sync
    · exact .write _ _
    · rw [List.mem_singleton.mp sync]
      exact .sync

theorem changes_completion {operation : FileOperation}
    (asked : operation ∈ draft.completion file) : operation.changes ⊆ [file] :=
  (fills_completion asked).changes

/-- The number of entries is put in last, over the one that was written at first. -/
theorem Holds.completion
    (holds : Holds disk file draft (Field.header.encode ++ Image.countBytes 0 ++ draft.body))
    (performed : FileStore.perform disk (draft.completion file) = (.ok (), next)) :
    next.content? file = some (Image.framed draft.count draft.body) := by
  rcases FileStore.exists_of_perform_append performed with ⟨flushed, earlier, rest⟩
  rcases FileStore.exists_of_perform_append earlier with ⟨footed, footer, flush⟩
  rcases @FileStore.exists_of_perform_append Disk _ _ _ [_] _ rest with ⟨patched, patch, sync⟩
  rcases (holds.append footer).flush flush with ⟨content, held, _, whole⟩
  rw [buffer_flush, List.append_nil] at whole
  subst whole
  have counted := Disk.content?_write (apply_of_perform patch) held
  have synced := @Disk.content?_apply patched file (.sync file) nofun
  rw [apply_of_perform sync] at synced
  have place : Image.countPlace = Field.header.encode.length := rfl
  have same : (Image.countBytes 0).length = (Image.countBytes draft.count).length := rfl
  rw [synced, counted, place, List.append_assoc, List.append_assoc, ← List.append_assoc,
    Bytes.overwrite_middle same]
  simp only [Image.framed, List.append_assoc]

end Completion

end Snapshot.Draft

end Larder
