import Larder.Frame

/-!
# Frames and the bytes behind them

What stands at the front of a stream is found out from the front: once a frame is complete, or can
never become one, more bytes behind it do not change that.  Only the bytes that a fault quotes may
be others, since a length without an end is given up before its line break arrives.
-/

namespace Larder.Frame

/-- The error without the bytes that it quotes. -/
def Error.unquoted : Error → Error
  | .invalidLength _ => .invalidLength ""
  | .empty => .empty
  | .tooLarge size limit => .tooLarge size limit
  | .overflow size limit => .overflow size limit
  | .crash => .crash

theorem Error.unquoted_eq_crash_iff {error : Error} : error.unquoted = .crash ↔ error = .crash := by
  cases error <;> simp [unquoted]

theorem Error.eq_empty_of_unquoted {error : Error}
    (same : error.unquoted = Error.empty.unquoted) : error = .empty := by
  cases error with
  | empty => rfl
  | invalidLength | tooLarge | overflow | crash => cases same

/-- A length and its line break fit between a limit and the largest number of 64 bits, so that no
frame within the limit is beyond counting. -/
def Headroom (limit : Nat) : Prop :=
  maxLengthDigits + 2 + limit ≤ Word64.largest

instance (limit : Nat) : Decidable (Headroom limit) :=
  inferInstanceAs (Decidable (_ ≤ _))

theorem Headroom.le_largest {limit : Nat} (headroom : Headroom limit) : limit ≤ Word64.largest :=
  Nat.le_of_add_left_le headroom

section LineBreak

variable {passed place : Nat} {bytes : Bytes}

/-- More bytes behind a line break leave it the first one. -/
theorem lineBreakFrom_append (found : lineBreakFrom passed bytes = some place) (more : Bytes) :
    lineBreakFrom passed (bytes ++ more) = some place := by
  induction bytes generalizing passed with
  | nil => cases found
  | cons byte rest ih =>
      cases rest with
      | nil => simp [lineBreakFrom] at found
      | cons second rest =>
          rw [List.cons_append, lineBreakFrom]
          rw [lineBreakFrom] at found
          by_cases broken : byte = 13 ∧ (second :: rest).head? = some 10
          · rw [if_pos broken] at found
            exact (if_pos broken).trans found
          · rw [if_neg broken] at found
            exact (if_neg broken).trans (ih found)

/-- A line break that arrives later ends behind all bytes that had arrived. -/
theorem le_of_lineBreakFrom_append (missing : lineBreakFrom passed bytes = none) {more : Bytes}
    (found : lineBreakFrom passed (bytes ++ more) = some place) :
    passed + bytes.length ≤ place + 1 := by
  induction bytes generalizing passed with
  | nil =>
      have lower := (lineBreakFrom_lt found).1
      simp only [List.length_nil]
      omega
  | cons byte rest ih =>
      cases rest with
      | nil =>
          -- Here the break may be split between the bytes that had arrived and those that come.
          have lower := (lineBreakFrom_lt found).1
          simp only [List.length_singleton]
          omega
      | cons second rest =>
          rw [List.cons_append, lineBreakFrom] at found
          rw [lineBreakFrom] at missing
          by_cases broken : byte = 13 ∧ (second :: rest).head? = some 10
          · rw [if_pos broken] at missing
            cases missing
          · rw [if_neg broken] at missing
            have later := ih missing ((if_neg broken).symm.trans found)
            rw [List.length_cons]
            omega

theorem lineBreakFrom_of_not_mem {front : Bytes} (clean : 13 ∉ front) (passed : Nat)
    (rest : Bytes) :
    lineBreakFrom passed (front ++ 13 :: 10 :: rest) = some (passed + front.length) := by
  induction front generalizing passed with
  | nil => simp [lineBreakFrom]
  | cons byte front ih =>
      rw [List.mem_cons, not_or] at clean
      simp only [List.cons_append, lineBreakFrom, Ne.symm clean.1, false_and, if_false,
        ih clean.2, List.length_cons]
      congr 1
      omega

theorem lineBreak?_of_not_mem {front : Bytes} (clean : 13 ∉ front) (rest : Bytes) :
    lineBreak? (front ++ 13 :: 10 :: rest) = some front.length := by
  simpa [lineBreak?] using lineBreakFrom_of_not_mem clean 0 rest

/-- A line break needs two bytes. -/
theorem lineBreakFrom_eq_none {bytes : Bytes} (clean : 13 ∉ bytes.dropLast) (passed : Nat) :
    lineBreakFrom passed bytes = none := by
  induction bytes generalizing passed with
  | nil => rfl
  | cons byte rest ih =>
      cases rest with
      | nil => simp [lineBreakFrom]
      | cons second rest =>
          rw [List.dropLast_cons_cons, List.mem_cons, not_or] at clean
          simp only [lineBreakFrom, Ne.symm clean.1, false_and, if_false]
          exact ih clean.2 (passed + 1)

end LineBreak

section Declared

variable {written : Bytes}

theorem declared_of_long (long : maxLengthDigits < written.length) :
    declared written = .error (.invalidLength (Text.ofBytesLossy written)) := by
  rw [declared]
  cases Decimal.digits? written with
  | none => rfl
  | some size => exact if_neg fun fits => Nat.not_le_of_lt long fits.1

theorem eq_invalidLength_of_declared {error : Error} (wrong : declared written = .error error) :
    error = .invalidLength (Text.ofBytesLossy written) := by
  rw [declared] at wrong
  split at wrong
  · split at wrong <;> cases wrong
    rfl
  · cases wrong
    rfl

theorem fits_of_declared {size : Nat} (stated : declared written = .ok size) :
    written.length ≤ maxLengthDigits ∧ size ≤ Word64.largest := by
  rw [declared] at stated
  split at stated
  · split at stated
    · next fits =>
      cases stated
      exact fits
    · cases stated
  · cases stated

end Declared

section Scan

variable {limit : Nat} {bytes : Bytes}

/-- A complete frame: a length, a line break, and as many bytes. -/
theorem scan_eq_token_iff {token rest : Bytes} :
    scan limit bytes = .token token rest ↔
      ∃ digits, lineBreak? bytes = some digits ∧
        declared (bytes.take digits) = .ok token.length ∧ token ≠ [] ∧ token.length ≤ limit ∧
        digits + 2 + token.length ≤ Word64.largest ∧ bytes.drop (digits + 2) = token ++ rest := by
  constructor
  · intro found
    rw [scan] at found
    cases broken : lineBreak? bytes with
    | none =>
        simp only [broken] at found
        split at found <;> cases found
    | some digits =>
        simp only [broken] at found
        cases written : declared (bytes.take digits) with
        | error error =>
            simp only [written] at found
            cases found
        | ok size =>
            simp only [written] at found
            split at found
            · cases found
            next positive =>
            split at found
            · cases found
            next within =>
            split at found
            · cases found
            next counted =>
            split at found
            · cases found
            next enough =>
            cases found
            have length : ((bytes.drop (digits + Bytes.crlf.length)).take size).length = size :=
              List.length_take_of_le (Nat.le_of_not_lt enough)
            refine ⟨digits, rfl, ?_, ?_, ?_, ?_, ?_⟩
            · exact written.trans (congrArg _ length.symm)
            · intro nothing
              rw [nothing] at length
              exact positive length.symm
            · exact length.symm ▸ Nat.le_of_not_lt within
            · exact length.symm ▸ Nat.le_of_not_lt counted
            · exact (List.take_append_drop _ _).symm
  · rintro ⟨digits, broken, written, some, within, counted, body⟩
    have positive : token.length ≠ 0 := by simpa using some
    have width : Bytes.crlf.length = 2 := rfl
    rw [scan]
    simp only [broken, written, width, body]
    rw [if_neg positive, if_neg (Nat.not_lt.mpr within), if_neg (Nat.not_lt.mpr counted)]
    simp

theorem scan_ne_crash (headroom : Headroom limit) (bytes : Bytes) :
    scan limit bytes ≠ .fault .crash := by
  intro found
  rw [Headroom] at headroom
  rw [scan] at found
  cases broken : lineBreak? bytes with
  | none =>
      simp only [broken] at found
      split at found <;> cases found
  | some digits =>
      have inside := (lineBreakFrom_lt broken).2
      simp only [broken] at found
      cases written : declared (bytes.take digits) with
      | error error =>
          rw [written, eq_invalidLength_of_declared written] at found
          cases found
      | ok size =>
          have few := (fits_of_declared written).1
          rw [List.length_take_of_le (by omega)] at few
          simp only [written] at found
          split at found
          · cases found
          split at found
          · cases found
          split at found
          · next within uncounted =>
            have width : Bytes.crlf.length = 2 := rfl
            omega
          split at found <;> cases found

/-- More bytes behind a complete frame leave it as it is. -/
theorem scan_append_of_token {token rest : Bytes} (found : scan limit bytes = .token token rest)
    (more : Bytes) : scan limit (bytes ++ more) = .token token (rest ++ more) := by
  rcases scan_eq_token_iff.mp found with ⟨digits, broken, written, some, within, counted, body⟩
  have inside : digits + 2 ≤ bytes.length := by
    have left := congrArg List.length body
    have positive := List.length_pos_iff.mpr some
    rw [List.length_drop, List.length_append] at left
    omega
  apply scan_eq_token_iff.mpr
  refine ⟨digits, lineBreakFrom_append broken more, ?_, some, within, counted, ?_⟩
  · rw [List.take_append_of_le_length (Nat.le_trans (Nat.le_add_right _ _) inside), written]
  · rw [List.drop_append_of_le_length inside, body, List.append_assoc]

/-- More bytes behind what no frame can begin with leave it wrong in the same way. -/
theorem scan_append_of_fault {error : Error} (found : scan limit bytes = .fault error)
    (more : Bytes) :
    ∃ again, scan limit (bytes ++ more) = .fault again ∧ again.unquoted = error.unquoted := by
  rw [scan] at found
  cases broken : lineBreak? bytes with
  | none =>
      simp only [broken] at found
      split at found
      next long =>
        cases found
        rw [scan]
        cases later : lineBreak? (bytes ++ more) with
        | none =>
            have longer : maxLengthDigits + 1 < (bytes ++ more).length := by
              rw [List.length_append]
              omega
            simp only [if_pos longer]
            exact ⟨_, rfl, rfl⟩
        | some digits =>
            -- Whatever the length is then, it has too many digits.
            have behind := le_of_lineBreakFrom_append broken later
            have inside := (lineBreakFrom_lt later).2
            have tooMany : maxLengthDigits < ((bytes ++ more).take digits).length := by
              rw [List.length_take]
              omega
            simp only [declared_of_long tooMany]
            exact ⟨_, rfl, rfl⟩
      · cases found
  | some digits =>
      have inside := (lineBreakFrom_lt broken).2
      have sameWritten : (bytes ++ more).take digits = bytes.take digits :=
        List.take_append_of_le_length (by omega)
      have sameBreak : lineBreak? (bytes ++ more) = some digits := lineBreakFrom_append broken more
      refine ⟨error, ?_, rfl⟩
      rw [scan]
      simp only [broken] at found
      simp only [sameBreak, sameWritten]
      cases written : declared (bytes.take digits) with
      | error cause =>
          simp only [written] at found
          exact found
      | ok size =>
          simp only [written] at found
          by_cases zero : size = 0
          · simpa only [if_pos zero] using found
          by_cases above : limit < size
          · simpa only [if_neg zero, if_pos above] using found
          by_cases uncounted : Word64.largest < digits + Bytes.crlf.length + size
          · simpa only [if_neg zero, if_neg above, if_pos uncounted] using found
          simp only [if_neg zero, if_neg above, if_neg uncounted] at found
          split at found <;> cases found

end Scan

end Larder.Frame
