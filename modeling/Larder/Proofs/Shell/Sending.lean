import Larder.Proofs.Framing.Delivery
import Larder.Proofs.Shell.Commands
import Larder.Proofs.Text.Sizes

/-!
# Sending typed commands

What is sent for a line is not much longer than the line: a word costs a blank where it is typed,
and a length and a line break where it is sent.  So all of it fits in a new framer, and how it is
cut does not matter.  What matters is whether a word is empty.  Quotes with nothing between them are
such a word, and the shell takes it as an argument, but no framer takes a frame for it.
-/

namespace Larder

namespace Shell

section Room

/-- How many bytes words take on a line, each with a blank behind it. -/
def room (words : List String) : Nat :=
  (words.map fun word => (Bytes.ofText word).length + 1).sum

variable {words others : List String}

@[simp]
theorem room_nil : room [] = 0 := rfl

@[simp]
theorem room_cons (word : String) (words : List String) :
    room (word :: words) = (Bytes.ofText word).length + 1 + room words := by
  simp [room]

@[simp]
theorem room_append (words others : List String) :
    room (words ++ others) = room words + room others := by
  simp [room]

@[simp]
theorem room_reverse (words : List String) : room words.reverse = room words := by
  simp [room, List.sum_reverse]

theorem length_le_room (words : List String) : words.length ≤ room words := by
  induction words with
  | nil => simp
  | cons word words ih =>
      simp only [List.length_cons, room_cons]
      omega

/-- The room of the words that are read, and of a word that is begun or is yet to begin. -/
def Reading.room (reading : Reading) : Nat :=
  Shell.room reading.words + ((reading.word.getD []).map Char.utf8Size).sum + 1

namespace Reading

variable (reading : Reading) (character : Char)

theorem room_push : (reading.push character).room = reading.room + character.utf8Size := by
  simp only [room, push, Option.getD_some, List.map_cons, List.sum_cons]
  omega

theorem room_start : reading.start.room = reading.room := rfl

theorem room_words_finish :
    Shell.room reading.finish.words ≤ reading.room ∧ reading.finish.room ≤ reading.room + 1 := by
  cases begun : reading.word with
  | none =>
      have same : reading.finish = reading := by simp [finish, begun]
      rw [same, room]
      omega
  | some characters =>
      simp only [room, finish, begun, room_cons, Bytes.length_ofText_ofList, List.map_reverse,
        List.sum_reverse, Option.getD_some, Option.getD_none, List.map_nil, List.sum_nil]
      omega

end Reading

/-- Each character that is read makes room for itself, and a blank for the blank of a word. -/
theorem room_readWords_le {quoted : Bool} {reading : Reading} {characters : List Char}
    (read : readWords quoted reading characters = .ok words) :
    room words ≤ reading.room + (characters.map Char.utf8Size).sum := by
  fun_induction readWords quoted reading characters with
  | case1 reading => cases read
  | case2 quoted reading done =>
      cases read
      rw [room_reverse]
      exact Nat.le_trans reading.room_words_finish.1 (Nat.le_add_right _ _)
  | case3 reading rest ih =>
      have later := ih read
      simp only [List.map_cons, List.sum_cons]
      omega
  | case4 reading => cases read
  | case5 _ _ _ _ ih
  | case6 _ _ _ _ _ ih
  | case9 _ _ _ _ _ _ _ ih =>
      have later := ih read
      rw [Reading.room_push] at later
      simp only [List.map_cons, List.sum_cons]
      omega
  | case7 quoted reading character rest unquoted blank ih =>
      have later := ih read
      have finished := reading.room_words_finish.2
      have one := character.utf8Size_pos
      simp only [List.map_cons, List.sum_cons]
      omega
  | case8 quoted reading rest unquoted visible ih =>
      have later := ih read
      rw [Reading.room_start] at later
      simp only [List.map_cons, List.sum_cons]
      omega

/-- The words of a line fit on the line, but for the blank behind the last one. -/
theorem room_words_le {line : String} (read : Shell.words line = .ok words) :
    room words ≤ (Bytes.ofText line).length + 1 := by
  have within := room_readWords_le read
  rw [← Bytes.length_ofText_ofList, String.ofList_toList] at within
  rw [Nat.add_comm]
  exact within

end Room

section Sent

variable {form : Form} {words sent : List String}

theorem utf8Size_toUpper (character : Char) : character.toUpper.utf8Size = character.utf8Size := by
  by_cases small : 'a'.val ≤ character.val ∧ character.val ≤ 'z'.val
  · have range : 97 ≤ character.val.toNat ∧ character.val.toNat ≤ 122 := small
    have shift : ('A'.val - 'a'.val).toNat = 2 ^ 32 - 32 := by decide
    have moved : (character.val + ('A'.val - 'a'.val)).toNat = character.val.toNat - 32 := by
      rw [UInt32.toNat_add, shift]
      omega
    have capital : character.toUpper.val = character.val + ('A'.val - 'a'.val) := by
      delta Char.toUpper
      rw [dif_pos small]
    -- a small letter takes one byte, and so does its capital
    have own : character.utf8Size = 1 :=
      Char.utf8Size_eq_one_iff.mpr (UInt32.le_trans small.2 (by decide))
    rw [own, Char.utf8Size_eq_one_iff, UInt32.le_iff_toNat_le, capital, moved]
    change character.val.toNat - 32 ≤ 127
    omega
  · have same : character.toUpper = character := dif_neg small
    rw [same]

theorem length_ofText_upperAscii (text : String) :
    (Bytes.ofText (upperAscii text)).length = (Bytes.ofText text).length := by
  have same : Char.utf8Size ∘ Char.toUpper = Char.utf8Size := funext utf8Size_toUpper
  rw [upperAscii, String.map_eq_internal, Bytes.length_ofText_ofList, List.map_map, same,
    ← Bytes.length_ofText_ofList, String.ofList_toList]

theorem room_written {options written : List String}
    (formed : List.Forall₂ (fun option token => optionToken option = .ok token) options written) :
    room written = room options := by
  induction formed with
  | nil => rfl
  | cons first _ ih =>
      rcases exists_of_optionToken first with ⟨key, value, rfl, rfl⟩
      simp only [room_cons, ih, Bytes.ofText_append, List.length_append, length_ofText_upperAscii]

theorem length_encodeAll_le (words : List String) :
    (Frame.encodeAll (words.map Bytes.ofText)).length ≤ 3 * room words := by
  induction words with
  | nil => simp [Frame.encodeAll]
  | cons word words ih =>
      have first := Frame.length_encode_le (Bytes.ofText word)
      rw [List.map_cons, Frame.encodeAll, List.flatMap_cons, ← Frame.encodeAll, List.length_append,
        room_cons]
      omega

theorem length_ofText_name_le (listed : form ∈ forms) : (Bytes.ofText form.name).length ≤ 6 := by
  revert form
  decide +kernel

/-- What is sent takes at most three times the room of the words, and a few bytes for the name and
the count of the options. -/
theorem Typed.length_encodeAll_le (typed : Typed form words sent) (few : room words < 10 ^ 5) :
    (Frame.encodeAll (sent.map Bytes.ofText)).length ≤ 3 * room words + 17 := by
  rcases typed.exists_head with ⟨word, _, named⟩
  have name := length_ofText_name_le (List.mem_of_find?_eq_some named)
  have named := Frame.length_encode_of_small (Nat.lt_of_le_of_lt name (by decide))
  cases typed with
  | @plain word arguments =>
      have others := Shell.length_encodeAll_le arguments
      simp only [List.map_cons, Frame.encodeAll, List.flatMap_cons, List.length_append, room_cons]
        at others ⊢
      omega
  | @counted word arguments options written _ _ _ formed =>
      have some := length_le_room options
      have others := Shell.length_encodeAll_le arguments
      have more := Shell.length_encodeAll_le written
      rw [room_written formed] at more
      simp only [room_cons, room_append] at few
      have digits : (Bytes.ofText (toString options.length)).length ≤ 5 := by
        rw [Decimal.ofText_toString]
        apply Decimal.length_ofNat_le
        omega
      have count := Frame.length_encode_of_small (Nat.lt_of_le_of_lt digits (by decide))
      simp only [List.map_cons, List.map_append, Frame.encodeAll, List.flatMap_cons,
        List.flatMap_append, List.length_append, room_cons, room_append] at others more ⊢
      omega

theorem name_ne_empty (listed : form ∈ forms) : form.name ≠ "" := by
  revert form
  decide

theorem empty_notMem_written {options written : List String}
    (formed : List.Forall₂ (fun option token => optionToken option = .ok token) options written) :
    "" ∉ written := by
  induction formed with
  | nil => simp
  | cons first _ ih =>
      have sign := equals_mem_ofText first
      rw [List.mem_cons, not_or]
      refine ⟨?_, ih⟩
      rintro rfl
      cases sign

/-- Only an argument can be empty: the name, the count and the options have characters. -/
theorem Typed.empty_mem_iff (typed : Typed form words sent) :
    "" ∈ sent ↔ "" ∈ (words.drop 1).take form.arity := by
  rcases typed.exists_head with ⟨word, _, named⟩
  have name := name_ne_empty (List.mem_of_find?_eq_some named)
  cases typed with
  | plain _ _ arity => simp [name.symm, ← arity]
  | @counted word arguments options written _ _ arity formed =>
      have others := empty_notMem_written formed
      simp [name.symm, others, ← arity]

theorem frames_of_ne_empty {limits : Limits} {tokens : List String} (some : "" ∉ tokens)
    (roomy : (Frame.encodeAll (tokens.map Bytes.ofText)).length ≤ limits.maxBuffered) :
    ∀ token ∈ tokens.map Bytes.ofText, Framer.Frames limits.maxToken token := by
  rw [List.forall_mem_map]
  intro text present
  have within := Frame.length_encode_le_of_mem
    (@List.mem_map_of_mem _ _ _ _ Bytes.ofText present)
  have nonempty : text ≠ "" := fun empty => some (empty ▸ present)
  exact Framer.frames_of_roomy Nat.one_ne_zero (Bytes.ofText_ne_nil nonempty)
    (Nat.succ_le_succ (Nat.le_trans within roomy))

theorem takeWhile_ne_empty {front : List String} (some : "" ∉ front) (back : List String) :
    (front ++ "" :: back).takeWhile (· ≠ "") = front := by
  have kept : ∀ text ∈ front, decide (text ≠ "") = true := by
    intro text present
    exact decide_eq_true fun empty => some (empty ▸ present)
  rw [List.takeWhile_append_of_pos kept]
  simp

end Sent

/--
What is sent for a line of less than 64 KiB, in any pieces, is never too much for a new framer.  If
no argument is empty, the framer yields exactly the tokens, with nothing wrong and nothing left.  An
argument that is empty is sent as an empty frame, which no framer takes: the framer yields the
tokens in front of it and goes wrong there.
-/
theorem typed_line_arrives {line : String} {words sent : List String} {pieces : List Bytes}
    (short : (Bytes.ofText line).length < 65536) (read : Shell.words line = .ok words)
    (accepted : tokens words = .ok sent)
    (stream : pieces.flatten = Frame.encodeAll (sent.map Bytes.ofText)) :
    let progress := (Framer.ofLimits {}).run [] pieces
    ∃ word form, words.head? = some word ∧ form? word = some form ∧
      ("" ∉ (words.drop 1).take form.arity →
        progress = ⟨sent.map Bytes.ofText, none, Framer.ofLimits {}⟩) ∧
      ("" ∈ (words.drop 1).take form.arity →
        progress.tokens = (sent.takeWhile (· ≠ "")).map Bytes.ofText ∧
          progress.fault = some .empty) := by
  intro progress
  rcases tokens_eq_ok_iff.mp accepted with ⟨form, typed⟩
  rcases typed.exists_head with ⟨word, first, named⟩
  have room := room_words_le read
  have roomy : (Frame.encodeAll (sent.map Bytes.ofText)).length ≤ Limits.maxBuffered {} := by
    have length := typed.length_encodeAll_le (by omega)
    have most : Limits.maxBuffered {} = 197376 := rfl
    omega
  refine ⟨word, form, first, named, ?_⟩
  rw [← typed.empty_mem_iff]
  refine ⟨fun some => ?_, fun empty => ?_⟩
  · exact Framer.run_of_encodeAll_of_roomy (frames_of_ne_empty some roomy) stream roomy
  · rcases List.eq_append_cons_of_mem empty with ⟨front, back, rfl, some⟩
    rw [takeWhile_ne_empty some]
    rw [List.map_append, List.map_cons] at stream roomy
    have fitting : (Frame.encodeAll (front.map Bytes.ofText)).length ≤ Limits.maxBuffered {} := by
      rw [Frame.encodeAll_append, List.length_append] at roomy
      omega
    exact Framer.run_of_empty_frame (frames_of_ne_empty some fitting) stream roomy

/-- A value in quotes and an option arrive byte by byte. -/
theorem quoted_value_arrives :
    let line := "set k \"zwei Wörter\" ttl=5"
    let tokens := ["SET", "k", "zwei Wörter", "1", "TTL=5"].map Bytes.ofText
    let pieces := (Frame.encodeAll tokens).chunks 1
    (∃ words sent, Shell.words line = .ok words ∧ Shell.tokens words = .ok sent ∧
      sent.map Bytes.ofText = tokens) ∧
      (Framer.ofLimits {}).run [] pieces = ⟨tokens, none, Framer.ofLimits {}⟩ := by
  intro line tokens pieces
  have short : (Bytes.ofText line).length < 65536 := by decide +kernel
  have read : Shell.words line = .ok ["set", "k", "zwei Wörter", "ttl=5"] := by decide +kernel
  have accepted : Shell.tokens ["set", "k", "zwei Wörter", "ttl=5"] =
      .ok ["SET", "k", "zwei Wörter", "1", "TTL=5"] := by
    decide +kernel
  have stream : pieces.flatten = Frame.encodeAll tokens := by decide +kernel
  refine ⟨⟨_, _, read, accepted, rfl⟩, ?_⟩
  rcases typed_line_arrives short read accepted stream with ⟨word, form, first, named, whole, _⟩
  have known : form? "set" = forms[2]? := by decide +kernel
  obtain rfl : "set" = word := Option.some_inj.mp first
  obtain rfl : forms[2] = form := Option.some_inj.mp (known.symm.trans named)
  exact whole (by decide)

/-- The quotes of an empty value are a word, and the word is an argument, but it does not arrive. -/
theorem empty_value_lost :
    let line := "set k \"\""
    let sent := ["SET", "k", "", "0"]
    let pieces := [Frame.encodeAll (sent.map Bytes.ofText)]
    let progress := (Framer.ofLimits {}).run [] pieces
    (Bytes.ofText line).length < 65536 ∧ (Shell.words line >>= Shell.tokens) = .ok sent ∧
      (∀ piece ∈ pieces, piece.length ≤ 4096) ∧
      progress.tokens = ["SET", "k"].map Bytes.ofText ∧ progress.fault = some .empty := by
  decide +kernel

end Shell

end Larder
