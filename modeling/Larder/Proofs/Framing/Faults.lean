import Larder.Proofs.Framing.Encoded
import Larder.Proofs.Text.Sizes

/-!
# What faults tell

A client whose bytes cannot be framed is told what stands in the place of a length.  That is not
much: what waits from earlier pieces either has a length already, or is hardly longer than one, so
a fault quotes little more than the piece that it is found in.
-/

namespace Larder.Frame

/-- Whether an error quotes at most so many characters, and its numbers have 64 bits. -/
def Error.Tells (most : Nat) : Error → Prop
  | .invalidLength written => written.length ≤ most
  | .empty => True
  | .tooLarge size limit => size ≤ Word64.largest ∧ limit ≤ Word64.largest
  | .overflow size limit => size ≤ Word64.largest ∧ limit ≤ Word64.largest
  | .crash => True

section Message

theorem Error.Tells.mono {error : Error} {most more : Nat} (tells : error.Tells most)
    (above : most ≤ more) : error.Tells more := by
  cases error with
  | invalidLength => exact Nat.le_trans tells above
  | _ => exact tells

theorem length_toString_le {number : Nat} (fits : number ≤ Word64.largest) :
    (toString number).length ≤ 20 := by
  have below : Word64.largest < 10 ^ 20 := by decide
  exact Nat.repr_length number 20 (by decide) (Nat.lt_of_le_of_lt fits below)

theorem Error.Tells.length_message_le {error : Error} {most : Nat} (tells : error.Tells most) :
    error.message.length ≤ 10 * most + 80 := by
  cases error with
  | invalidLength written =>
      have shown : written.length ≤ most := tells
      have quoted := Text.length_quoted_le written
      have front : "invalid length prefix: ".length = 23 := rfl
      change ("invalid length prefix: " ++ Text.quoted written).length ≤ _
      rw [String.length_append, front]
      omega
  | empty =>
      have all : Error.empty.message.length = 29 := rfl
      rw [all]
      omega
  | tooLarge size limit =>
      have sizeDigits := length_toString_le tells.1
      have limitDigits := length_toString_le tells.2
      have front : "frame too large: ".length = 17 := rfl
      have middle : " bytes (max: ".length = 13 := rfl
      have back : ")".length = 1 := rfl
      change ("frame too large: " ++ toString size ++ " bytes (max: " ++ toString limit ++
        ")").length ≤ _
      simp only [String.length_append, front, middle, back]
      omega
  | overflow size limit =>
      have sizeDigits := length_toString_le tells.1
      have limitDigits := length_toString_le tells.2
      have front : "buffer overflow: ".length = 17 := rfl
      have middle : " bytes buffered (max: ".length = 22 := rfl
      have back : ")".length = 1 := rfl
      change ("buffer overflow: " ++ toString size ++ " bytes buffered (max: " ++ toString limit ++
        ")").length ≤ _
      simp only [String.length_append, front, middle, back]
      omega
  | crash =>
      have all : Error.crash.message.length = 28 := rfl
      rw [all]
      omega

end Message

section Scan

variable {limit : Nat} {bytes piece : Bytes} {error : Error}

theorem tells_of_declared {written : Bytes} (wrong : declared written = .error error) :
    error.Tells written.length := by
  rw [eq_invalidLength_of_declared wrong]
  exact Text.length_ofBytesLossy_le written

theorem tells_of_scan (bounded : limit ≤ Word64.largest) (wrong : scan limit bytes = .fault error) :
    error.Tells bytes.length := by
  rw [scan] at wrong
  split at wrong
  · split at wrong
    · cases wrong
      apply Nat.le_trans (Text.length_ofBytesLossy_le _)
      exact List.length_take_le' _ _
    · cases wrong
  · next digits broken =>
    split at wrong
    · next written =>
      cases wrong
      exact (tells_of_declared written).mono (List.length_take_le' _ _)
    · next size written =>
      split at wrong
      · cases wrong
        trivial
      split at wrong
      · cases wrong
        exact ⟨(fits_of_declared written).2, bounded⟩
      dsimp only at wrong
      split at wrong
      · cases wrong
        trivial
      split at wrong <;> cases wrong

/-- What waits to become a frame: a few bytes without a line break, or a length with fewer bytes
behind it. -/
theorem cases_of_incomplete (waits : scan limit bytes = .incomplete) :
    (lineBreak? bytes = none ∧ bytes.length ≤ maxLengthDigits + 1) ∨
      ∃ digits size, lineBreak? bytes = some digits ∧ declared (bytes.take digits) = .ok size ∧
        size ≠ 0 ∧ size ≤ limit ∧ digits + 2 + size ≤ Word64.largest ∧
        bytes.length < digits + 2 + size := by
  rw [scan] at waits
  split at waits
  · next missing =>
    split at waits
    · cases waits
    · next few => exact .inl ⟨missing, Nat.le_of_not_lt few⟩
  · next digits broken =>
    split at waits
    · cases waits
    · next size written =>
      split at waits
      · cases waits
      next positive =>
      split at waits
      · cases waits
      next within =>
      dsimp only at waits
      split at waits
      · cases waits
      next counted =>
      split at waits
      · next short =>
        refine .inr ⟨digits, size, broken, written, positive, Nat.le_of_not_lt within,
          Nat.le_of_not_lt counted, ?_⟩
        rw [List.length_drop] at short
        have : Bytes.crlf.length = 2 := rfl
        omega
      · cases waits

/-- What follows a frame that a piece completes has come with the piece. -/
theorem length_rest_le_of_incomplete (waits : scan limit bytes = .incomplete)
    {token rest : Bytes} (found : scan limit (bytes ++ piece) = .token token rest) :
    rest.length ≤ piece.length := by
  rcases scan_eq_token_iff.mp found with ⟨place, broken, written, _, _, _, body⟩
  have left := congrArg List.length body
  simp only [List.length_drop, List.length_append] at left
  rcases cases_of_incomplete waits with
    ⟨missing, _⟩ | ⟨digits, size, earlier, stated, _, _, _, short⟩
  · have behind := le_of_lineBreakFrom_append missing broken
    omega
  · have inside := (lineBreakFrom_lt earlier).2
    obtain rfl : digits = place :=
      Option.some.inj ((lineBreakFrom_append earlier piece).symm.trans broken)
    rw [List.take_append_of_le_length (by omega), stated] at written
    cases written
    omega

/-- A fault that a piece brings quotes little more than the piece. -/
theorem tells_of_incomplete (bounded : limit ≤ Word64.largest)
    (waits : scan limit bytes = .incomplete) (wrong : scan limit (bytes ++ piece) = .fault error) :
    error.Tells (maxLengthDigits + 1 + piece.length) := by
  rcases cases_of_incomplete waits with
    ⟨_, few⟩ | ⟨digits, size, earlier, stated, some, within, counted, _⟩
  · apply (tells_of_scan bounded wrong).mono
    rw [List.length_append]
    omega
  · -- A length that has arrived is in order.
    have inside := (lineBreakFrom_lt earlier).2
    have broken : lineBreak? (bytes ++ piece) = Option.some digits :=
      lineBreakFrom_append earlier piece
    have written : declared ((bytes ++ piece).take digits) = .ok size := by
      rwa [List.take_append_of_le_length (by omega)]
    have width : Bytes.crlf.length = 2 := rfl
    rw [scan] at wrong
    simp only [broken, written, width, if_neg some, if_neg (Nat.not_lt.mpr within),
      if_neg (Nat.not_lt.mpr counted)] at wrong
    split at wrong <;> cases wrong

end Scan

end Larder.Frame

namespace Larder.Framer

section Drain

variable {limit : Nat} {earlier : List Bytes} {bytes piece : Bytes} {error : Frame.Error}

theorem tells_of_drainFrom (bounded : limit ≤ Word64.largest)
    (wrong : (drainFrom limit earlier bytes).fault = some error) : error.Tells bytes.length := by
  induction earlier, bytes using drainFrom.induct limit with
  | case1 earlier bytes token rest found ih =>
      rw [drainFrom_of_token found] at wrong
      exact (ih wrong).mono (Nat.le_of_lt (Frame.length_rest_lt found))
  | case2 earlier bytes waits =>
      rw [drainFrom_of_incomplete waits] at wrong
      cases wrong
  | case3 earlier bytes cause faulty =>
      rw [drainFrom_of_fault faulty] at wrong
      cases wrong
      exact Frame.tells_of_scan bounded faulty

theorem tells_of_drainFrom_append (bounded : limit ≤ Word64.largest)
    (waits : Frame.scan limit bytes = .incomplete)
    (wrong : (drainFrom limit earlier (bytes ++ piece)).fault = some error) :
    error.Tells (Frame.maxLengthDigits + 1 + piece.length) := by
  cases scanned : Frame.scan limit (bytes ++ piece) with
  | token token rest =>
      rw [drainFrom_of_token scanned] at wrong
      apply (tells_of_drainFrom bounded wrong).mono
      have := Frame.length_rest_le_of_incomplete waits scanned
      omega
  | incomplete =>
      rw [drainFrom_of_incomplete scanned] at wrong
      cases wrong
  | fault cause =>
      rw [drainFrom_of_fault scanned] at wrong
      cases wrong
      exact Frame.tells_of_incomplete bounded waits scanned

/-- No frame is empty. -/
theorem ne_nil_of_mem_drainFrom (some : ∀ token ∈ earlier, token ≠ []) {token : Bytes}
    (taken : token ∈ (drainFrom limit earlier bytes).tokens) : token ≠ [] := by
  induction earlier, bytes using drainFrom.induct limit with
  | case1 earlier bytes first rest found ih =>
      rw [drainFrom_of_token found] at taken
      rcases Frame.scan_eq_token_iff.mp found with ⟨_, _, _, first_ne_nil, _⟩
      exact ih (List.forall_mem_cons.mpr ⟨first_ne_nil, some⟩) taken
  | case2 earlier bytes waits =>
      rw [drainFrom_of_incomplete waits] at taken
      exact some token (List.mem_reverse.mp taken)
  | case3 earlier bytes cause faulty =>
      rw [drainFrom_of_fault faulty] at taken
      exact some token (List.mem_reverse.mp taken)

theorem length_pending_drainFrom_le :
    (drainFrom limit earlier bytes).pending.length ≤ bytes.length := by
  induction earlier, bytes using drainFrom.induct limit with
  | case1 earlier bytes token rest found ih =>
      rw [drainFrom_of_token found]
      exact Nat.le_trans ih (Nat.le_of_lt (Frame.length_rest_lt found))
  | case2 earlier bytes waits => rw [drainFrom_of_incomplete waits]
  | case3 earlier bytes cause faulty => rw [drainFrom_of_fault faulty]

end Drain

/-- A framer between two pieces: what waits is no complete frame, and not too much. -/
structure Ready (framer : Framer) : Prop where
  waits : Frame.scan framer.maxToken framer.pending = .incomplete
  fits : framer.pending.length ≤ framer.maxBuffered

section Receive

variable {framer : Framer} {piece : Bytes} {error : Frame.Error}

theorem receive_of_overflow (full : framer.maxBuffered < (framer.pending ++ piece).length) :
    framer.receive piece =
      ⟨[], some (.overflow (framer.pending ++ piece).length framer.maxBuffered),
        framer.feed piece⟩ := by
  have refused : (framer.feed piece).overflow? =
      some (.overflow (framer.pending ++ piece).length framer.maxBuffered) := if_pos full
  rw [receive]
  simp only [refused]

theorem ne_nil_of_mem_receive {token : Bytes} (taken : token ∈ (framer.receive piece).tokens) :
    token ≠ [] := by
  by_cases fits : (framer.pending ++ piece).length ≤ framer.maxBuffered
  · rw [receive_of_length_le fits] at taken
    exact ne_nil_of_mem_drainFrom (fun _ present => absurd present List.not_mem_nil) taken
  · rw [receive_of_overflow (Nat.lt_of_not_le fits)] at taken
    cases taken

theorem ready_of_receive (fine : (framer.receive piece).fault = none) :
    (framer.receive piece).framer.Ready ∧
      (framer.receive piece).framer.maxToken = framer.maxToken ∧
      (framer.receive piece).framer.maxBuffered = framer.maxBuffered := by
  by_cases fits : (framer.pending ++ piece).length ≤ framer.maxBuffered
  · rw [receive_of_length_le fits] at fine ⊢
    refine ⟨⟨scan_pending_drainFrom fine, ?_⟩, rfl, rfl⟩
    exact Nat.le_trans length_pending_drainFrom_le fits
  · rw [receive_of_overflow (Nat.lt_of_not_le fits)] at fine
    cases fine

/-- What a client is told whose next piece is refused. -/
theorem Ready.tells (ready : framer.Ready) (bounded : framer.maxToken ≤ Word64.largest)
    (room : framer.maxBuffered + piece.length ≤ Word64.largest)
    (wrong : (framer.receive piece).fault = some error) :
    error.Tells (Frame.maxLengthDigits + 1 + piece.length) := by
  by_cases fits : (framer.pending ++ piece).length ≤ framer.maxBuffered
  · rw [receive_of_length_le fits] at wrong
    exact tells_of_drainFrom_append bounded ready.waits wrong
  · rw [receive_of_overflow (Nat.lt_of_not_le fits)] at wrong
    cases wrong
    have := ready.fits
    rw [List.length_append]
    constructor <;> omega

end Receive

end Larder.Framer
