import Larder.Proofs.Decimal
import Larder.Proofs.Framing.Pieces
import Mathlib.Data.List.Infix

/-!
# The grammar of frames

A frame is a length of one to twenty digits, a line break, and as many bytes as the length says.  A
framer takes all frames from the front of its bytes and loses none of the others.  How those begin
decides what it says of them: they may still become a frame, or it is known what is wrong.  A framer
whose limit is almost the largest number of 64 bits does not always get to say it.
-/

namespace Larder.Frame

/-- A length as it may stand in front of a token. -/
structure Length (written : Bytes) (size : Nat) : Prop where
  numeral : Decimal.Numeral written size
  few : written.length ≤ maxLengthDigits

/-- Bytes that begin with a length and its line break. -/
def Declares (bytes : Bytes) (size : Nat) (behind : Bytes) : Prop :=
  ∃ written, Length written size ∧ bytes = written ++ Bytes.crlf ++ behind

/-- Frames end to end, with tokens up to a limit.  The bytes of a frame can be counted with 64
bits. -/
inductive Sequence (limit : Nat) : Bytes → List Bytes → Prop where
  | nil : Sequence limit [] []
  | cons {written token bytes : Bytes} {tokens : List Bytes}
      (length : Length written token.length) (some : token ≠ []) (within : token.length ≤ limit)
      (counted : (written ++ Bytes.crlf ++ token).length ≤ Word64.largest)
      (others : Sequence limit bytes tokens) :
      Sequence limit (written ++ Bytes.crlf ++ token ++ bytes) (token :: tokens)

/-- Bytes that may still become a frame. -/
inductive Waits (limit : Nat) (bytes : Bytes) : Prop where
  | length (unbroken : ¬Bytes.crlf <:+: bytes) (few : bytes.length ≤ maxLengthDigits + 1)
  | token {size : Nat} {part : Bytes} (declares : Declares bytes size part) (positive : size ≠ 0)
      (within : size ≤ limit) (short : part.length < size)

/-- Bytes that begin with a length that is admitted, but with which the bytes of the frame cannot be
counted with 64 bits. -/
def Crashes (limit : Nat) (bytes : Bytes) : Prop :=
  ∃ written size behind, Length written size ∧ size ≤ limit ∧
    Word64.largest < (written ++ Bytes.crlf).length + size ∧
    bytes = written ++ Bytes.crlf ++ behind

section LineBreak

variable {passed place : Nat} {bytes : Bytes}

theorem exists_of_lineBreakFrom (found : lineBreakFrom passed bytes = some place) :
    ∃ front behind, bytes = front ++ Bytes.crlf ++ behind ∧ place = passed + front.length := by
  induction bytes generalizing passed with
  | nil => cases found
  | cons byte rest ih =>
      simp only [lineBreakFrom] at found
      split at found
      · next broken =>
        rcases broken with ⟨rfl, feed⟩
        rcases List.head?_eq_some_iff.mp feed with ⟨behind, rfl⟩
        cases found
        exact ⟨[], behind, rfl, rfl⟩
      · rcases ih found with ⟨front, behind, rfl, rfl⟩
        refine ⟨byte :: front, behind, rfl, ?_⟩
        simp only [List.length_cons]
        omega

theorem lineBreakFrom_ne_none (broken : Bytes.crlf <:+: bytes) :
    lineBreakFrom passed bytes ≠ none := by
  induction bytes generalizing passed with
  | nil => simp [Bytes.crlf] at broken
  | cons byte rest ih =>
      simp only [lineBreakFrom]
      split
      · simp
      · next whole =>
        apply ih
        rcases List.infix_cons_iff.mp broken with ⟨behind, front⟩ | later
        · cases front
          exact absurd ⟨rfl, rfl⟩ whole
        · exact later

theorem lineBreak?_eq_none_iff : lineBreak? bytes = none ↔ ¬Bytes.crlf <:+: bytes := by
  constructor
  · intro missing broken
    exact lineBreakFrom_ne_none broken missing
  · intro unbroken
    cases found : lineBreak? bytes with
    | none => rfl
    | some place =>
        rcases exists_of_lineBreakFrom found with ⟨front, behind, rfl, _⟩
        exact absurd ⟨front, behind, rfl⟩ unbroken

end LineBreak

section Length

variable {written bytes behind : Bytes} {size : Nat}

theorem Length.return_notMem (length : Length written size) : 13 ∉ written := by
  intro present
  have digit := List.all_eq_true.mp length.numeral.all_isDigit 13 present
  simp [Decimal.isDigit] at digit

theorem declared_eq_ok_iff :
    declared written = .ok size ↔ Length written size ∧ size ≤ Word64.largest := by
  constructor
  · intro stated
    simp only [declared] at stated
    split at stated
    · next numeral =>
      split at stated
      · next fits =>
        cases stated
        exact ⟨⟨Decimal.digits?_eq_some_iff.mp numeral, fits.1⟩, fits.2⟩
      · cases stated
    · cases stated
  · rintro ⟨length, fits⟩
    simp [declared, Decimal.digits?_eq_some_iff.mpr length.numeral, length.few, fits]

theorem Length.lineBreak? (length : Length written size) (behind : Bytes) :
    lineBreak? (written ++ Bytes.crlf ++ behind) = some written.length := by
  simpa [Bytes.crlf] using lineBreak?_of_not_mem length.return_notMem behind

theorem Declares.broken (declares : Declares bytes size behind) : Bytes.crlf <:+: bytes := by
  rcases declares with ⟨written, _, rfl⟩
  exact ⟨written, behind, rfl⟩

end Length

section Scan

variable {limit size : Nat} {bytes behind token : Bytes}

theorem scan_of_length {written : Bytes} (length : Length written size)
    (fits : size ≤ Word64.largest) (behind : Bytes) :
    scan limit (written ++ Bytes.crlf ++ behind) =
      if size = 0 then .fault .empty
      else if limit < size then .fault (.tooLarge size limit)
      else if Word64.largest < (written ++ Bytes.crlf).length + size then .fault .crash
      else if behind.length < size then .incomplete
      else .token (behind.take size) (behind.drop size) := by
  have inFront : (written ++ Bytes.crlf ++ behind).take written.length = written := by
    rw [List.append_assoc, List.take_left]
  have after : (written ++ Bytes.crlf ++ behind).drop (written.length + Bytes.crlf.length) =
      behind := by
    rw [← List.length_append, List.drop_left]
  have declares : declared written = .ok size := declared_eq_ok_iff.mpr ⟨length, fits⟩
  simp only [scan, length.lineBreak? behind, inFront, declares, after, List.length_append]

theorem scan_of_unbroken (unbroken : ¬Bytes.crlf <:+: bytes) :
    scan limit bytes =
      if maxLengthDigits + 1 < bytes.length then
        .fault (.invalidLength (Text.ofBytesLossy (bytes.take maxLengthDigits)))
      else .incomplete := by
  simp only [scan, lineBreak?_eq_none_iff.mpr unbroken]

theorem scan_of_undeclared (broken : Bytes.crlf <:+: bytes)
    (undeclared : ∀ size behind, Declares bytes size behind → Word64.largest < size) :
    ∃ quoted, scan limit bytes = .fault (.invalidLength quoted) := by
  cases found : lineBreak? bytes with
  | none => exact absurd found (lineBreakFrom_ne_none broken)
  | some place =>
      cases stated : declared (bytes.take place) with
      | ok size =>
          rcases exists_of_lineBreakFrom found with ⟨front, behind, rfl, rfl⟩
          rcases declared_eq_ok_iff.mp stated with ⟨length, fits⟩
          refine absurd fits (Nat.not_le_of_lt (undeclared size behind ⟨front, ?_, rfl⟩))
          simpa using length
      | error error =>
          refine ⟨Text.ofBytesLossy (bytes.take place), ?_⟩
          simp only [scan, found, stated, eq_invalidLength_of_declared stated]

/-- A whole frame is found as such, whatever follows it. -/
theorem scan_of_frame {written : Bytes} (length : Length written token.length) (some : token ≠ [])
    (within : token.length ≤ limit)
    (counted : (written ++ Bytes.crlf ++ token).length ≤ Word64.largest) (rest : Bytes) :
    scan limit (written ++ Bytes.crlf ++ token ++ rest) = .token token rest := by
  have positive : token.length ≠ 0 := by simpa using some
  rw [List.length_append] at counted
  rw [List.append_assoc _ token, scan_of_length length (Nat.le_of_add_left_le counted),
    if_neg positive, if_neg (Nat.not_lt.mpr within), if_neg (Nat.not_lt.mpr counted)]
  simp

/-- A length with which the bytes of a frame cannot be counted is not got over. -/
theorem scan_of_crashes (bounded : limit ≤ Word64.largest) (crashes : Crashes limit bytes) :
    scan limit bytes = .fault .crash := by
  rcases crashes with ⟨written, size, behind, length, within, uncounted, rfl⟩
  have positive : size ≠ 0 := by
    rintro rfl
    have few := length.few
    have header : maxLengthDigits + 2 < Word64.largest := by decide
    simp only [Bytes.crlf, List.length_append, List.length_cons, List.length_nil] at uncounted
    omega
  rw [scan_of_length length (Nat.le_trans within bounded), if_neg positive,
    if_neg (Nat.not_lt.mpr within), if_pos uncounted]

/-- A length that is still arriving is waited for, whatever it says. -/
theorem scan_in_length {written part : Bytes} (length : Length written size)
    (begins : part <+: written ++ Bytes.crlf ++ behind)
    (short : part.length ≤ written.length + 1) : scan limit part = .incomplete := by
  have few := length.few
  have unbroken : ¬Bytes.crlf <:+: part := by
    apply lineBreak?_eq_none_iff.mp
    apply lineBreakFrom_eq_none
    intro present
    apply length.return_notMem
    have inside : part.dropLast <+: written := by
      apply List.prefix_of_prefix_length_le ((List.dropLast_prefix part).trans begins)
      · simp
      · rw [List.length_dropLast]
        omega
    exact inside.subset present
  rw [scan_of_unbroken unbroken, if_neg (by omega)]

/-- The beginning of a frame is waited for. -/
theorem scan_of_part {written part : Bytes} (length : Length written token.length)
    (within : token.length ≤ limit)
    (counted : (written ++ Bytes.crlf ++ token).length ≤ Word64.largest)
    (begins : part <+: written ++ Bytes.crlf ++ token)
    (short : part.length < (written ++ Bytes.crlf ++ token).length) :
    scan limit part = .incomplete := by
  by_cases inLength : part.length ≤ written.length + 1
  · exact scan_in_length length begins inLength
  · -- Then all of the length has arrived, with its line break.
    have header : written ++ Bytes.crlf <+: part := by
      apply List.prefix_of_prefix_length_le (List.prefix_append _ _) begins
      simp only [Bytes.crlf, List.length_append, List.length_cons, List.length_nil]
      omega
    rcases header with ⟨body, rfl⟩
    have missing : body.length < token.length := by
      simpa only [List.length_append, Nat.add_lt_add_iff_left] using short
    rw [List.length_append] at counted
    rw [scan_of_length length (Nat.le_of_add_left_le counted), if_neg (by omega),
      if_neg (Nat.not_lt.mpr within), if_neg (Nat.not_lt.mpr counted), if_pos missing]

/-- What can stand at the front of bytes, with what it is found to be. -/
inductive Front (limit : Nat) (bytes : Bytes) : Scan → Prop where
  | token {written token rest : Bytes} (length : Length written token.length) (some : token ≠ [])
      (within : token.length ≤ limit)
      (counted : (written ++ Bytes.crlf ++ token).length ≤ Word64.largest)
      (whole : bytes = written ++ Bytes.crlf ++ token ++ rest) :
      Front limit bytes (.token token rest)
  | waits (waits : Waits limit bytes) (calm : ¬Crashes limit bytes) : Front limit bytes .incomplete
  | crash (crashes : Crashes limit bytes) : Front limit bytes (.fault .crash)
  | empty {behind : Bytes} (declares : Declares bytes 0 behind) : Front limit bytes (.fault .empty)
  | tooLarge {size : Nat} {behind : Bytes} (declares : Declares bytes size behind)
      (above : limit < size) (fits : size ≤ Word64.largest) :
      Front limit bytes (.fault (.tooLarge size limit))
  | invalidLength {quoted : String} (hopeless : ¬Waits limit bytes)
      (undeclared : ∀ size behind, Declares bytes size behind → Word64.largest < size) :
      Front limit bytes (.fault (.invalidLength quoted))

/-- Bytes that begin with a length of 64 bits, with which nothing overflows. -/
theorem front_of_length {written : Bytes} (length : Length written size)
    (fits : size ≤ Word64.largest) (calm : ¬Crashes limit (written ++ Bytes.crlf ++ behind)) :
    Front limit (written ++ Bytes.crlf ++ behind)
      (scan limit (written ++ Bytes.crlf ++ behind)) := by
  have declares : Declares (written ++ Bytes.crlf ++ behind) size behind := ⟨written, length, rfl⟩
  rw [scan_of_length length fits]
  split
  · next zero =>
    subst zero
    exact .empty declares
  next positive =>
  split
  · next above => exact .tooLarge declares above fits
  next within =>
  have withinLimit := Nat.le_of_not_lt within
  split
  · next uncounted =>
    exact absurd ⟨written, size, behind, length, withinLimit, uncounted, rfl⟩ calm
  next counted =>
  split
  · next short => exact .waits (.token declares positive withinLimit short) calm
  next enough =>
  have taken : (behind.take size).length = size :=
    List.length_take_of_le (Nat.le_of_not_lt enough)
  apply @Front.token limit _ written
  · rwa [taken]
  · intro nothing
    apply positive
    simpa [nothing] using taken.symm
  · rwa [taken]
  · rw [List.length_append, taken]
    exact Nat.le_of_not_lt counted
  · rw [List.append_assoc _ (behind.take size), List.take_append_drop]

variable (bounded : limit ≤ Word64.largest)

include bounded

theorem front (bytes : Bytes) : Front limit bytes (scan limit bytes) := by
  by_cases crashes : Crashes limit bytes
  · rw [scan_of_crashes bounded crashes]
    exact .crash crashes
  by_cases broken : Bytes.crlf <:+: bytes
  · by_cases stated : ∃ size behind, Declares bytes size behind ∧ size ≤ Word64.largest
    · rcases stated with ⟨size, behind, ⟨written, length, rfl⟩, fits⟩
      exact front_of_length length fits crashes
    · have undeclared : ∀ size behind, Declares bytes size behind → Word64.largest < size := by
        intro size behind declares
        exact Nat.lt_of_not_le fun fits => stated ⟨size, behind, declares, fits⟩
      rcases scan_of_undeclared broken undeclared with ⟨quoted, found⟩
      rw [found]
      refine .invalidLength ?_ undeclared
      intro waits
      cases waits with
      | length unbroken => exact unbroken broken
      | token declares _ within =>
          have above := undeclared _ _ declares
          omega
  · rw [scan_of_unbroken broken]
    split
    · next long =>
      refine .invalidLength ?_ fun size behind declares => absurd declares.broken broken
      intro waits
      cases waits with
      | length _ few => omega
      | token declares => exact broken declares.broken
    · next few => exact .waits (.length broken (Nat.le_of_not_lt few)) crashes

theorem front_of_scan {found : Scan} (scanned : scan limit bytes = found) :
    Front limit bytes found := by
  rw [← scanned]
  exact front bounded bytes

theorem scan_eq_crash_iff : scan limit bytes = .fault .crash ↔ Crashes limit bytes := by
  constructor
  · intro found
    cases front_of_scan bounded found with
    | crash crashes => exact crashes
  · exact scan_of_crashes bounded

theorem scan_eq_incomplete_iff :
    scan limit bytes = .incomplete ↔ Waits limit bytes ∧ ¬Crashes limit bytes := by
  constructor
  · intro found
    cases front_of_scan bounded found with
    | waits waits calm => exact ⟨waits, calm⟩
  · rintro ⟨waits, calm⟩
    cases waits with
    | length unbroken few => rw [scan_of_unbroken unbroken, if_neg (Nat.not_lt.mpr few)]
    | @token size part declares positive within short =>
        rcases declares with ⟨written, length, rfl⟩
        have counted : ¬Word64.largest < (written ++ Bytes.crlf).length + size := fun uncounted =>
          calm ⟨written, size, part, length, within, uncounted, rfl⟩
        rw [scan_of_length length (Nat.le_trans within bounded), if_neg positive,
          if_neg (Nat.not_lt.mpr within), if_neg counted, if_pos short]

omit bounded in
theorem scan_eq_incomplete_iff_waits (headroom : Headroom limit) :
    scan limit bytes = .incomplete ↔ Waits limit bytes := by
  rw [scan_eq_incomplete_iff headroom.le_largest, ← scan_eq_crash_iff headroom.le_largest]
  exact and_iff_left (scan_ne_crash headroom bytes)

theorem scan_eq_empty_iff :
    scan limit bytes = .fault .empty ↔ ∃ behind, Declares bytes 0 behind := by
  constructor
  · intro found
    cases front_of_scan bounded found with
    | empty declares => exact ⟨_, declares⟩
  · rintro ⟨behind, written, length, rfl⟩
    rw [scan_of_length length (Nat.zero_le _), if_pos rfl]

theorem scan_eq_tooLarge_iff {most : Nat} :
    scan limit bytes = .fault (.tooLarge size most) ↔
      most = limit ∧ limit < size ∧ size ≤ Word64.largest ∧
        ∃ behind, Declares bytes size behind := by
  constructor
  · intro found
    cases front_of_scan bounded found with
    | tooLarge declares above fits => exact ⟨rfl, above, fits, _, declares⟩
  · rintro ⟨rfl, above, fits, behind, written, length, rfl⟩
    rw [scan_of_length length fits, if_neg (by omega), if_pos above]

theorem scan_eq_invalidLength_iff :
    (∃ quoted, scan limit bytes = .fault (.invalidLength quoted)) ↔
      ¬Waits limit bytes ∧
        ∀ size behind, Declares bytes size behind → Word64.largest < size := by
  constructor
  · rintro ⟨quoted, found⟩
    cases front_of_scan bounded found with
    | invalidLength hopeless undeclared => exact ⟨hopeless, undeclared⟩
  · rintro ⟨hopeless, undeclared⟩
    have front := front bounded bytes
    generalize scan limit bytes = found at front ⊢
    cases front with
    | token length _ within _ whole =>
        have above := undeclared _ _ ⟨_, length, whole.trans (List.append_assoc _ _ _)⟩
        omega
    | waits waits => exact absurd waits hopeless
    | crash crashes =>
        rcases crashes with ⟨written, size, behind, length, within, _, whole⟩
        have above := undeclared _ _ ⟨written, length, whole⟩
        omega
    | empty declares => exact absurd (undeclared _ _ declares) (Nat.not_lt_zero _)
    | tooLarge declares _ fits => exact absurd fits (Nat.not_le_of_lt (undeclared _ _ declares))
    | @invalidLength quoted => exact ⟨quoted, rfl⟩

theorem scan_ne_overflow (size most : Nat) : scan limit bytes ≠ .fault (.overflow size most) := by
  intro found
  cases front_of_scan bounded found

end Scan

end Larder.Frame

namespace Larder.Framer

section Drain

variable {limit : Nat} {earlier : List Bytes} {bytes : Bytes}

/-- Frames at the front are taken out, however their lengths are written. -/
theorem drainFrom_of_sequence {front : Bytes} {tokens : List Bytes}
    (sequence : Frame.Sequence limit front tokens) (earlier : List Bytes) (rest : Bytes) :
    drainFrom limit earlier (front ++ rest) = drainFrom limit (tokens.reverse ++ earlier) rest := by
  induction sequence generalizing earlier with
  | nil => rfl
  | cons length some within counted others ih =>
      rw [List.append_assoc, drainFrom_of_token (Frame.scan_of_frame length some within counted _),
        ih]
      simp

theorem prefix_tokens_of_sequence {front : Bytes} {tokens : List Bytes}
    (sequence : Frame.Sequence limit front tokens) (rest : Bytes) :
    tokens <+: (drainFrom limit [] (front ++ rest)).tokens := by
  rw [drainFrom_of_sequence sequence, List.append_nil, ← List.nil_append tokens.reverse,
    drainFrom_append_earlier, List.reverse_reverse]
  exact List.prefix_append _ _

theorem exists_sequence_drainFrom (bounded : limit ≤ Word64.largest) (earlier : List Bytes)
    (bytes : Bytes) :
    ∃ front tokens, Frame.Sequence limit front tokens ∧
      bytes = front ++ (drainFrom limit earlier bytes).pending ∧
      (drainFrom limit earlier bytes).tokens = earlier.reverse ++ tokens := by
  induction earlier, bytes using drainFrom.induct limit with
  | case1 earlier bytes token rest found ih =>
      rw [drainFrom_of_token found]
      rcases ih with ⟨front, tokens, sequence, whole, taken⟩
      cases Frame.front_of_scan bounded found with
      | @token written _ _ length some within counted split =>
          refine ⟨_, token :: tokens, .cons length some within counted sequence, ?_, ?_⟩
          · rw [split, List.append_assoc _ front, ← whole]
          · simpa using taken
  | case2 earlier bytes waits =>
      exact ⟨[], [], .nil, by simp [drainFrom_of_incomplete waits]⟩
  | case3 earlier bytes error wrong =>
      exact ⟨[], [], .nil, by simp [drainFrom_of_fault wrong]⟩

end Drain

/-- What a loop ends with that takes tokens out: a result, if nothing is wrong with what is left. -/
def Drained.result {α : Type} (drained : Drained) (value : α) : Except Frame.Error α :=
  match drained.fault with
  | some error => .error error
  | none => .ok value

section Result

variable {α : Type} {value : α} {limit : Nat} {earlier : List Bytes} {bytes : Bytes}

theorem map_result {β : Type} (drained : Drained) (value : α) (other : α → β) :
    (drained.result value).map other = drained.result (other value) := by
  simp only [Drained.result]
  split <;> rfl

theorem result_eq_ok_iff {other : α} :
    (drainFrom limit earlier bytes).result value = .ok other ↔
      other = value ∧ Frame.scan limit (drainFrom limit earlier bytes).pending = .incomplete := by
  cases fault : (drainFrom limit earlier bytes).fault with
  | none =>
      have waits := scan_pending_drainFrom fault
      simp [Drained.result, fault, waits, eq_comm]
  | some error =>
      have wrong := scan_pending_of_fault fault
      simp [Drained.result, fault, wrong]

theorem result_eq_error_iff {error : Frame.Error} :
    (drainFrom limit earlier bytes).result value = .error error ↔
      Frame.scan limit (drainFrom limit earlier bytes).pending = .fault error := by
  cases fault : (drainFrom limit earlier bytes).fault with
  | none =>
      have waits := scan_pending_drainFrom fault
      simp [Drained.result, fault, waits]
  | some cause =>
      have wrong := scan_pending_of_fault fault
      simp [Drained.result, fault, wrong]

end Result

section Loops

variable {framer : Framer}

theorem drained_of_token {token rest : Bytes}
    (found : Frame.scan framer.maxToken framer.pending = .token token rest) :
    framer.drained =
      ⟨token :: (drainFrom framer.maxToken [] rest).tokens,
        (drainFrom framer.maxToken [] rest).fault,
        (drainFrom framer.maxToken [] rest).pending⟩ := by
  rw [drained, drainFrom_of_token found]
  exact @drainFrom_append_earlier framer.maxToken [token] rest []

theorem drainIntoFrom_eq (count : Nat) (queue : List Bytes) :
    framer.drainIntoFrom count queue =
      (framer.drained.result (count + framer.drained.tokens.length),
        queue ++ framer.drained.tokens, framer.drain) := by
  fun_induction drainIntoFrom framer count queue with
  | case1 framer count queue token rest found ih =>
      rw [ih, drain, drain, drained_of_token found]
      simp only [Drained.result, drained, List.length_cons, List.append_assoc,
        List.singleton_append, Nat.add_assoc, Nat.add_comm 1]
  | case2 framer count queue waits =>
      simp [drain, drained, drainFrom_of_incomplete waits, Drained.result]
  | case3 framer count queue error wrong =>
      simp [drain, drained, drainFrom_of_fault wrong, Drained.result]

theorem drainTokensFrom_eq (tokens : List Bytes) :
    framer.drainTokensFrom tokens =
      (framer.drained.result (tokens ++ framer.drained.tokens), framer.drain) := by
  fun_induction drainTokensFrom framer tokens with
  | case1 framer tokens token rest found ih =>
      rw [ih, drain, drain, drained_of_token found]
      simp only [Drained.result, drained, List.append_assoc, List.singleton_append]
  | case2 framer tokens waits =>
      simp [drain, drained, drainFrom_of_incomplete waits, Drained.result]
  | case3 framer tokens error wrong =>
      simp [drain, drained, drainFrom_of_fault wrong, Drained.result]

end Loops

/--
A framer takes the tokens of all frames out that stand at the front of its bytes, whatever they are,
puts them behind the queue in order, and keeps all other bytes.  How these begin decides what it
says of them.  It counts the tokens exactly when the rest may still become a frame; otherwise the
rest begins with a length that is zero, or too large, or with no length of 64 bits.  Without a queue
it yields the same tokens, or says the same, and keeps the same bytes.

All this is so if a length and its line break fit above the limit.  If they do not, there is one
more way to begin: with a length that is admitted, though the bytes of the frame cannot be counted.
That is where a framer says nothing and crashes.
-/
theorem drainInto_takes_all_frames (limits : Limits) (bytes : Bytes) (queue : List Bytes) :
    let framer : Framer := { ofLimits limits with pending := bytes }
    let limit := limits.maxToken
    ∃ result front tokens pending,
      framer.drainInto queue = (result, queue ++ tokens, { framer with pending }) ∧
      framer.drainTokens = (result.map fun _ => tokens, { framer with pending }) ∧
      bytes = front ++ pending ∧ Frame.Sequence limit front tokens ∧
      (∀ others rest taken, bytes = others ++ rest → Frame.Sequence limit others taken →
        taken <+: tokens) ∧
      (∀ count, result = .ok count ↔
        count = tokens.length ∧ Frame.Waits limit pending ∧ ¬Frame.Crashes limit pending) ∧
      (result = .error .crash ↔ Frame.Crashes limit pending) ∧
      (Frame.Headroom limit → result ≠ .error .crash) ∧
      (result = .error .empty ↔ ∃ behind, Frame.Declares pending 0 behind) ∧
      (∀ size most, result = .error (.tooLarge size most) ↔
        most = limit ∧ limit < size ∧ size ≤ Word64.largest ∧
          ∃ behind, Frame.Declares pending size behind) ∧
      ((∃ quoted, result = .error (.invalidLength quoted)) ↔
        ¬Frame.Waits limit pending ∧
          ∀ size behind, Frame.Declares pending size behind → Word64.largest < size) ∧
      ∀ size most, result ≠ .error (.overflow size most) := by
  intro framer limit
  have bounded : limit ≤ Word64.largest := limits.maxToken_le_largest
  rcases exists_sequence_drainFrom bounded [] bytes with ⟨front, tokens, sequence, whole, taken⟩
  have taken : framer.drained.tokens = tokens := taken
  refine ⟨framer.drained.result tokens.length, front, tokens, framer.drained.pending, ?_, ?_, whole,
    sequence, ?_, ?_⟩
  · rw [drainInto, drainIntoFrom_eq, taken, Nat.zero_add]
    rfl
  · rw [drainTokens, drainTokensFrom_eq, taken, List.nil_append, map_result]
    rfl
  · intro others rest found split alsoSequence
    rw [← taken, drained]
    change found <+: (drainFrom limit [] bytes).tokens
    rw [split]
    exact prefix_tokens_of_sequence alsoSequence rest
  · refine ⟨?_, ?_, ?_, ?_, ?_, ?_, ?_⟩
    · intro count
      exact result_eq_ok_iff.trans (and_congr_right fun _ => Frame.scan_eq_incomplete_iff bounded)
    · exact result_eq_error_iff.trans (Frame.scan_eq_crash_iff bounded)
    · intro headroom crash
      exact Frame.scan_ne_crash headroom _ (result_eq_error_iff.mp crash)
    · exact result_eq_error_iff.trans (Frame.scan_eq_empty_iff bounded)
    · intro size most
      exact result_eq_error_iff.trans (Frame.scan_eq_tooLarge_iff bounded)
    · exact (exists_congr fun quoted => result_eq_error_iff).trans
        (Frame.scan_eq_invalidLength_iff bounded)
    · intro size most wrong
      exact Frame.scan_ne_overflow bounded size most (result_eq_error_iff.mp wrong)

/-- With the largest limit there is, the largest length may still become a frame, but the framer
does not wait for it. -/
theorem drainInto_crashes_at_largest_length :
    let limits : Limits := { maxKeyLength := 6148914691236517205, maxValueLength := 0 }
    let bytes := Bytes.ofText "18446744073709551615\r\n"
    let framer : Framer := { ofLimits limits with pending := bytes }
    limits.maxToken = Word64.largest ∧ Frame.Waits limits.maxToken bytes ∧
      (framer.drainInto []).1 = .error .crash ∧ framer.drainTokens.1 = .error .crash := by
  intro limits bytes framer
  have length : Frame.Length (Bytes.ofText "18446744073709551615") Word64.largest :=
    ⟨Decimal.digits?_eq_some_iff.mp (by decide +kernel), by decide⟩
  have declares : Frame.Declares bytes Word64.largest [] := ⟨_, length, by decide +kernel⟩
  refine ⟨by decide, ?_, by decide +kernel, by decide +kernel⟩
  exact .token declares (by decide) (by decide) (by decide)

end Larder.Framer
