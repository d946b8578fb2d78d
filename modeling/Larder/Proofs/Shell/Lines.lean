import Larder.Shell.Words

/-!
# Writing words on a line

Every list of words can be written on a line.  A word stands between quotes, where a backslash in
front of a quote or of a backslash keeps it, or as it is, if it has characters and none of them is a
blank or a quote.  Blanks separate the words, and reading the line gives the words back: quotes with
nothing between them are an empty word, and blanks alone are none.
-/

namespace Larder.Shell

/-- A character as it is written between quotes. -/
def escape (character : Char) : List Char :=
  if character = '"' ∨ character = '\\' then ['\\', character] else [character]

inductive Style where
  | quoted
  | bare
  deriving Repr, DecidableEq

/-- A word on a line. -/
structure Spelling where
  /-- The blanks in front of the word. -/
  gap : List Char
  style : Style
  word : String
  deriving Repr, DecidableEq

namespace Spelling

/-- The word as it is written. -/
def text (spelling : Spelling) : List Char :=
  match spelling.style with
  | .quoted => '"' :: (spelling.word.toList.flatMap escape ++ ['"'])
  | .bare => spelling.word.toList

/-- Only blanks stand in front of the word, and a word without quotes needs none. -/
structure Sound (spelling : Spelling) : Prop where
  blank : ∀ character ∈ spelling.gap, isBlank character = true
  nonempty : spelling.style = .bare → spelling.word ≠ ""
  visible : spelling.style = .bare →
    ∀ character ∈ spelling.word.toList, isBlank character = false ∧ character ≠ '"'

/-- A word between quotes, behind one blank. -/
def quote (word : String) : Spelling where
  gap := [' ']
  style := .quoted
  word := word

theorem sound_quote (word : String) : (quote word).Sound where
  blank := by simp [quote, isBlank]
  nonempty := nofun
  visible := nofun

end Spelling

/-- Words one after another, with blanks at the end. -/
def line (spellings : List Spelling) (trail : List Char) : List Char :=
  spellings.flatMap (fun spelling => spelling.gap ++ spelling.text) ++ trail

namespace Reading

variable (reading : Reading)

/-- The word goes on with some characters, though there may be none. -/
def write (characters : List Char) : Reading :=
  { reading with word := some (characters.reverse ++ reading.word.getD []) }

theorem start_eq : reading.start = reading.write [] :=
  rfl

theorem push_eq (character : Char) : reading.push character = reading.write [character] :=
  rfl

@[simp]
theorem write_write (first second : List Char) :
    (reading.write first).write second = reading.write (first ++ second) := by
  simp [write]

@[simp]
theorem word_finish : reading.finish.word = none := by
  cases begun : reading.word <;> simp [finish, begun]

variable {reading}

theorem finish_of_none (none : reading.word = none) : reading.finish = reading := by
  simp [finish, none]

@[simp]
theorem finish_finish : reading.finish.finish = reading.finish :=
  finish_of_none reading.word_finish

theorem words_finish_write (none : reading.word = none) (characters : List Char) :
    (reading.write characters).finish.words = String.ofList characters :: reading.words := by
  simp [finish, write, none]

end Reading

section Step

variable (reading : Reading) {character : Char} (rest : List Char)

theorem readWords_blank (blank : isBlank character = true) :
    readWords false reading (character :: rest) = readWords false reading.finish rest := by
  rw [readWords.eq_def]
  simp [blank]

theorem readWords_visible (visible : isBlank character = false ∧ character ≠ '"') :
    readWords false reading (character :: rest) =
      readWords false (reading.write [character]) rest := by
  rw [readWords.eq_def]
  simp [visible, Reading.push_eq]

theorem readWords_open :
    readWords false reading ('"' :: rest) = readWords true (reading.write []) rest := by
  rw [readWords.eq_def]
  simp [isBlank, Reading.start_eq]

theorem readWords_close :
    readWords true reading ('"' :: rest) = readWords false reading rest := by
  rw [readWords.eq_def]
  simp

/-- Between quotes a character is taken as it is written. -/
theorem readWords_escape :
    readWords true reading (escape character ++ rest) =
      readWords true (reading.write [character]) rest := by
  rw [escape]
  split
  · rw [List.cons_append, readWords.eq_def]
    simp [Reading.push_eq]
  · next plain =>
    rw [not_or] at plain
    rw [List.cons_append, readWords.eq_def]
    simp [plain, Reading.push_eq]

end Step

section Read

variable {reading : Reading} {characters : List Char}

/-- Blanks end a word that is begun. -/
theorem readWords_blanks (blank : ∀ character ∈ characters, isBlank character = true)
    (apart : characters = [] → reading.word = none) (rest : List Char) :
    readWords false reading (characters ++ rest) = readWords false reading.finish rest := by
  induction characters generalizing reading with
  | nil => rw [List.nil_append, Reading.finish_of_none (apart rfl)]
  | cons character characters ih =>
      rw [List.forall_mem_cons] at blank
      rw [List.cons_append, readWords_blank _ _ blank.1,
        ih blank.2 fun _ => reading.word_finish, Reading.finish_finish]

theorem readWords_bare
    (visible : ∀ character ∈ characters, isBlank character = false ∧ character ≠ '"')
    (front rest : List Char) :
    readWords false (reading.write front) (characters ++ rest) =
      readWords false (reading.write (front ++ characters)) rest := by
  induction characters generalizing front with
  | nil => simp
  | cons character characters ih =>
      rw [List.forall_mem_cons] at visible
      rw [List.cons_append, readWords_visible _ _ visible.1, Reading.write_write, ih visible.2,
        List.append_assoc, List.singleton_append]

theorem readWords_quoted (front characters rest : List Char) :
    readWords true (reading.write front) (characters.flatMap escape ++ '"' :: rest) =
      readWords false (reading.write (front ++ characters)) rest := by
  induction characters generalizing front with
  | nil => rw [List.flatMap_nil, List.nil_append, readWords_close, List.append_nil]
  | cons character characters ih =>
      rw [List.flatMap_cons, List.append_assoc, readWords_escape, Reading.write_write, ih,
        List.append_assoc, List.singleton_append]

theorem readWords_text {spelling : Spelling} (sound : spelling.Sound) (rest : List Char) :
    readWords false reading (spelling.text ++ rest) =
      readWords false (reading.write spelling.word.toList) rest := by
  cases style : spelling.style with
  | quoted =>
      have text : spelling.text ++ rest =
          '"' :: (spelling.word.toList.flatMap escape ++ '"' :: rest) := by
        simp [Spelling.text, style]
      rw [text, readWords_open, readWords_quoted, List.nil_append]
  | bare =>
      have text : spelling.text = spelling.word.toList := by
        simp [Spelling.text, style]
      have visible := sound.visible style
      rw [text]
      cases split : spelling.word.toList with
      | nil => exact absurd (String.toList_eq_nil_iff.mp split) (sound.nonempty style)
      | cons character characters =>
          rw [split, List.forall_mem_cons] at visible
          rw [List.cons_append, readWords_visible _ _ visible.1, readWords_bare visible.2,
            List.singleton_append]

theorem readWords_nil : readWords false reading [] = .ok reading.finish.words.reverse := by
  rw [readWords.eq_def]
  simp

/-- Words behind a word that is begun stand apart from it, and from one another. -/
theorem readWords_line {spellings : List Spelling} {trail : List Char}
    (sound : ∀ spelling ∈ spellings, spelling.Sound)
    (first : ∀ spelling ∈ spellings.head?, spelling.gap = [] → reading.word = none)
    (apart : ∀ spelling ∈ spellings.tail, spelling.gap ≠ [])
    (blank : ∀ character ∈ trail, isBlank character = true) :
    readWords false reading (line spellings trail) =
      .ok (reading.finish.words.reverse ++ spellings.map Spelling.word) := by
  induction spellings generalizing reading with
  | nil =>
      rw [List.map_nil, List.append_nil, line, List.flatMap_nil, List.nil_append]
      cases trail with
      | nil => exact readWords_nil
      | cons character trail =>
          have ended := @readWords_blanks reading _ blank nofun []
          rw [List.append_nil] at ended
          rw [ended, readWords_nil, Reading.finish_finish]
  | cons spelling spellings ih =>
      rw [List.forall_mem_cons] at sound
      have split : line (spelling :: spellings) trail =
          spelling.gap ++ (spelling.text ++ line spellings trail) := by
        simp [line]
      rw [split, readWords_blanks sound.1.blank (first spelling rfl), readWords_text sound.1,
        ih sound.2 ?_ ?_, Reading.words_finish_write reading.word_finish, String.ofList_toList]
      · simp
      · intro next isNext none
        exact absurd none (apart next (List.mem_of_mem_head? isNext))
      · intro next later
        exact apart next (List.mem_of_mem_tail later)

theorem words_line {spellings : List Spelling} {trail : List Char}
    (sound : ∀ spelling ∈ spellings, spelling.Sound)
    (apart : ∀ spelling ∈ spellings.tail, spelling.gap ≠ [])
    (blank : ∀ character ∈ trail, isBlank character = true) :
    words (String.ofList (line spellings trail)) = .ok (spellings.map Spelling.word) := by
  rw [words, String.toList_ofList, readWords_line sound (fun _ _ _ => rfl) apart blank]
  rfl

/-- Any words can be written between quotes. -/
theorem quoted_words (texts : List String) :
    words (String.ofList (line (texts.map Spelling.quote) [])) = .ok texts := by
  rw [words_line ?_ ?_ ?_, List.map_map]
  · exact congrArg Except.ok (List.map_id texts)
  · rw [List.forall_mem_map]
    exact fun text _ => Spelling.sound_quote text
  · rw [← List.map_tail, List.forall_mem_map]
    exact fun text _ => List.cons_ne_nil _ _
  · exact nofun

end Read

/--
Words that are written on a line, each between quotes or as it is, with blanks between them, are
read back, with any blanks at both ends.  A word between quotes has a backslash in front of each of
its quotes and backslashes, and one without quotes has characters, none of which is a blank or a
quote.  So there is a line for every list of words.
-/
theorem words_of_line :
    (∀ (spellings : List Spelling) (trail : List Char),
      (∀ spelling ∈ spellings, spelling.Sound) →
      (∀ spelling ∈ spellings.tail, spelling.gap ≠ []) →
      (∀ character ∈ trail, isBlank character = true) →
        words (String.ofList (line spellings trail)) = .ok (spellings.map Spelling.word)) ∧
      ∀ texts : List String, ∃ typed, words typed = .ok texts := by
  constructor
  · intro spellings trail
    exact words_line
  · intro texts
    exact ⟨_, quoted_words texts⟩

/-- A backslash stands for itself outside quotes, and quotes may hold an empty word. -/
theorem words_of_line_of_three :
    let spellings : List Spelling :=
      [⟨[' ', '\t'], .bare, "c\\d"⟩, ⟨[' '], .quoted, ""⟩, ⟨['\t'], .quoted, "a \"b\\"⟩]
    let trail := [' ', ' ']
    (∀ spelling ∈ spellings, spelling.Sound) ∧
      (∀ spelling ∈ spellings.tail, spelling.gap ≠ []) ∧
      (∀ character ∈ trail, isBlank character = true) ∧
      words " \tc\\d \"\"\t\"a \\\"b\\\\\"  " = .ok ["c\\d", "", "a \"b\\"] := by
  intro spellings trail
  have sound : ∀ spelling ∈ spellings, spelling.Sound := by
    simp only [spellings, List.forall_mem_cons]
    refine ⟨⟨?_, ?_, ?_⟩, ⟨?_, nofun, nofun⟩, ⟨?_, nofun, nofun⟩, nofun⟩ <;>
      simp [isBlank]
  have apart : ∀ spelling ∈ spellings.tail, spelling.gap ≠ [] := by decide
  have blank : ∀ character ∈ trail, isBlank character = true := by simp [trail, isBlank]
  have typed : " \tc\\d \"\"\t\"a \\\"b\\\\\"  " = String.ofList (line spellings trail) := by
    decide
  refine ⟨sound, apart, blank, ?_⟩
  rw [typed]
  exact words_of_line.1 spellings trail sound apart blank

end Larder.Shell
