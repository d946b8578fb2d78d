import Larder.Proofs.Framing.Encoded
import Larder.Proofs.Framing.Faults

/-!
# Delivery

An encoded stream is delivered if every frame leaves room for one more piece.  Where it goes wrong,
the frames that were there before have been taken out.

How much room there is for a frame decides also what happens when it arrives byte by byte.  The
limit on the length that is declared and the limit on the bytes that wait are the same number, and
the length itself waits with the token; so there are tokens whose length is admitted, and whose
frame then is too much.
-/

namespace Larder.Framer

/--
However a stream of encoded tokens is cut, if the pieces have at most so many bytes and every frame
leaves room for one more piece, a new framer takes the pieces in without a fault, yields exactly the
tokens, and keeps nothing.
-/
theorem encoded_tokens_arrive (limits : Limits) {tokens pieces : List Bytes} {most : Nat}
    (nonempty : ∀ token ∈ tokens, token ≠ [])
    (small : ∀ piece ∈ pieces, piece.length ≤ most)
    (roomy : ∀ token ∈ tokens, (Frame.encode token).length + most ≤ limits.maxBuffered + 1)
    (whole : pieces.flatten = Frame.encodeAll tokens) :
    (ofLimits limits).run [] pieces = ⟨tokens, none, ofLimits limits⟩ := by
  apply run_of_encodeAll
  · rfl
  · intro token present
    have some : most ≠ 0 := by
      rintro rfl
      have silent : pieces.flatten = [] := List.flatten_eq_nil_iff.mpr fun piece arrives =>
        List.eq_nil_of_length_eq_zero (Nat.le_zero.mp (small piece arrives))
      have within := Frame.length_encode_le_of_mem present
      rw [← whole, silent, Frame.length_encode, List.length_nil] at within
      omega
    exact frames_of_roomy some (nonempty token present) (roomy token present)
  · intro piece arrives token present
    have := small piece arrives
    have := roomy token present
    change _ ≤ limits.maxBuffered + 1
    omega
  · exact whole

/-- A buffer of 21 bytes holds a frame of 16 bytes and a piece of 6, less one byte.  The token of
that frame looks like frames itself. -/
theorem encoded_tokens_arrive_in_tight_buffer :
    let limits : Limits := { maxKeyLength := 3, maxValueLength := 4 }
    let tokens := ["1\r\na0\r\n2\r\nbc", "\r\n", "7"].map Bytes.ofText
    let pieces := ["12\r\n1\r", "\na0\r\n2", "\r\nbc2\r", "\n\r\n1\r\n", "7"].map Bytes.ofText
    (∀ token ∈ tokens, token ≠ []) ∧ (∀ piece ∈ pieces, piece.length ≤ 6) ∧
      (∀ token ∈ tokens, (Frame.encode token).length + 6 ≤ limits.maxBuffered + 1) ∧
      (∃ token ∈ tokens, (Frame.encode token).length + 6 = limits.maxBuffered + 1) ∧
      pieces.flatten = Frame.encodeAll tokens ∧
      (ofLimits limits).run [] pieces = ⟨tokens, none, ofLimits limits⟩ := by
  intro limits tokens pieces
  have nonempty : ∀ token ∈ tokens, token ≠ [] := by decide +kernel
  have small : ∀ piece ∈ pieces, piece.length ≤ 6 := by decide +kernel
  have roomy : ∀ token ∈ tokens,
      (Frame.encode token).length + 6 ≤ limits.maxBuffered + 1 := by
    decide +kernel
  have whole : pieces.flatten = Frame.encodeAll tokens := by decide +kernel
  refine ⟨nonempty, small, roomy, by decide +kernel, whole, ?_⟩
  exact encoded_tokens_arrive limits nonempty small roomy whole

section Whole

variable {framer : Framer} {tokens : List Bytes} {garbage : Bytes} {error : Frame.Error}

theorem whole_of_encodeAll (empty : framer.pending = [])
    (framed : ∀ token ∈ tokens, Frames framer.maxToken token) :
    framer.whole [] (Frame.encodeAll tokens) = ⟨tokens, none, framer⟩ := by
  have drained := drainFrom_encodeAll framed [] []
  have nothing : drainFrom framer.maxToken tokens.reverse [] = ⟨tokens, none, []⟩ := by
    rw [drainFrom_of_incomplete rfl, List.reverse_reverse]
  rw [List.append_nil, List.append_nil, nothing] at drained
  rw [whole, empty, List.nil_append, List.reverse_nil, drained, ← empty]

theorem whole_of_fault_behind (empty : framer.pending = [])
    (framed : ∀ token ∈ tokens, Frames framer.maxToken token)
    (wrong : Frame.scan framer.maxToken garbage = .fault error) :
    framer.whole [] (Frame.encodeAll tokens ++ garbage) =
      ⟨tokens, some error, { framer with pending := garbage }⟩ := by
  simp only [whole, empty, List.nil_append, List.reverse_nil, drainFrom_encodeAll framed,
    drainFrom_of_fault wrong, List.append_nil, List.reverse_reverse]

end Whole

section Room

/-- Pieces that fit in the buffer all together are never too much. -/
theorem run_fits {framer : Framer} {tokens pieces : List Bytes}
    (bounded : framer.maxToken ≤ Word64.largest)
    (room : framer.pending.length + pieces.flatten.length ≤ framer.maxBuffered) :
    (framer.run tokens pieces).Fits := by
  induction pieces generalizing framer tokens with
  | nil => exact nofun
  | cons piece pieces ih =>
      simp only [List.flatten_cons, List.length_append] at room
      have fits : (framer.pending ++ piece).length ≤ framer.maxBuffered := by
        rw [List.length_append]
        omega
      rw [run, receive_of_length_le fits]
      cases fault : (drainFrom framer.maxToken [] (framer.pending ++ piece)).fault with
      | some error =>
          intro size most overflow
          cases overflow
          exact Frame.scan_ne_overflow bounded size most (scan_pending_of_fault fault)
      | none =>
          have left := @length_pending_drainFrom_le framer.maxToken [] (framer.pending ++ piece)
          rw [List.length_append] at left
          refine ih ?_ ?_
          · exact bounded
          · dsimp only
            omega

variable {limits : Limits} {tokens pieces : List Bytes}

theorem run_agrees_of_roomy {stream : Bytes} (cut : pieces.flatten = stream)
    (roomy : stream.length ≤ limits.maxBuffered) :
    ((ofLimits limits).run [] pieces).Agrees ((ofLimits limits).whole [] stream) := by
  have waits : Frame.scan (ofLimits limits).maxToken (ofLimits limits).pending = .incomplete := rfl
  have fits : ((ofLimits limits).run [] pieces).Fits := by
    apply run_fits limits.maxToken_le_largest
    rw [cut]
    exact (Nat.zero_add _).trans_le roomy
  rw [← cut]
  exact run_agrees_whole waits [] fits

/-- Tokens that fit in the buffer all together arrive, however they are cut. -/
theorem run_of_encodeAll_of_roomy (framed : ∀ token ∈ tokens, Frames limits.maxToken token)
    (cut : pieces.flatten = Frame.encodeAll tokens)
    (roomy : (Frame.encodeAll tokens).length ≤ limits.maxBuffered) :
    (ofLimits limits).run [] pieces = ⟨tokens, none, ofLimits limits⟩ := by
  have agrees := run_agrees_of_roomy cut roomy
  rw [whole_of_encodeAll rfl framed] at agrees
  exact (agrees.symm.eq_of_fine rfl).symm

/-- Where a token is empty, the tokens in front of it arrive, and then the stream goes wrong. -/
theorem run_of_empty_frame {later : List Bytes}
    (framed : ∀ token ∈ tokens, Frames limits.maxToken token)
    (cut : pieces.flatten = Frame.encodeAll (tokens ++ [] :: later))
    (roomy : (Frame.encodeAll (tokens ++ [] :: later)).length ≤ limits.maxBuffered) :
    ((ofLimits limits).run [] pieces).tokens = tokens ∧
      ((ofLimits limits).run [] pieces).fault = some .empty := by
  have agrees := run_agrees_of_roomy cut roomy
  have wrong := @Frame.scan_encode_nil_append limits.maxToken (Frame.encodeAll later)
  have split : Frame.encodeAll (tokens ++ [] :: later) =
      Frame.encodeAll tokens ++ (Frame.encode [] ++ Frame.encodeAll later) :=
    Frame.encodeAll_append tokens ([] :: later)
  rw [split, whole_of_fault_behind rfl framed wrong] at agrees
  refine ⟨agrees.tokens, ?_⟩
  rcases Option.map_eq_some_iff.mp agrees.fault with ⟨error, found, same⟩
  rwa [Frame.Error.eq_empty_of_unquoted same] at found

end Room

section Refused

variable {limits : Limits} {tokens pieces : List Bytes} {garbage : Bytes} {error : Frame.Error}

/-- Frames that the pieces begin with are taken out. -/
theorem prefix_tokens_of_arrived {front : Bytes}
    (sequence : Frame.Sequence limits.maxToken front tokens) (arrived : front <+: pieces.flatten)
    (fine : ((ofLimits limits).run [] pieces).fault = none) :
    tokens <+: ((ofLimits limits).run [] pieces).tokens := by
  have waits : Frame.scan (ofLimits limits).maxToken (ofLimits limits).pending = .incomplete := rfl
  have fits := Progress.fits_of_fine fine
  rcases arrived with ⟨rest, split⟩
  rw [(run_agrees_whole waits [] fits).tokens, ← split]
  exact prefix_tokens_of_sequence sequence rest

/--
A stream of encoded tokens goes wrong behind them, and no piece is too much.  The pieces in front
of the one that is refused yield a beginning of the tokens, with every token whose frame they hold.
-/
theorem exists_refused_behind (framed : ∀ token ∈ tokens, Frames limits.maxToken token)
    (wrong : Frame.scan limits.maxToken garbage = .fault error)
    (stream : pieces.flatten = Frame.encodeAll tokens ++ garbage)
    (fits : ((ofLimits limits).run [] pieces).Fits) :
    ∃ before refused after again, pieces = before ++ refused :: after ∧
      ((ofLimits limits).run [] before).fault = none ∧
      (((ofLimits limits).run [] before).framer.receive refused).fault = some again ∧
      again.unquoted = error.unquoted ∧
      ((ofLimits limits).run [] before).tokens <+: tokens ∧
      ∀ earlier, earlier <+: tokens →
        (Frame.encodeAll earlier).length ≤ before.flatten.length →
          earlier <+: ((ofLimits limits).run [] before).tokens := by
  have waits : Frame.scan (ofLimits limits).maxToken (ofLimits limits).pending = .incomplete := rfl
  rcases run_agrees_whole waits [] fits with ⟨all, fault, _⟩
  rw [stream, whole_of_fault_behind rfl framed wrong] at all fault
  rcases Option.map_eq_some_iff.mp fault with ⟨again, found, same⟩
  rcases exists_refused found with ⟨before, refused, after, rfl, fine, cause⟩
  have taken : ((ofLimits limits).run [] before).tokens <+: tokens := by
    have further := prefix_tokens_run ((ofLimits limits).run [] before).framer
      ((ofLimits limits).run [] before).tokens (refused :: after)
    rwa [← run_append fine, all] at further
  refine ⟨before, refused, after, again, rfl, fine, cause, same, taken, ?_⟩
  intro earlier front arrived
  have frames : Frame.encodeAll earlier <+: before.flatten ++ (refused :: after).flatten := by
    rw [← List.flatten_append, stream]
    rcases front with ⟨later, rfl⟩
    rw [Frame.encodeAll_append, List.append_assoc]
    exact List.prefix_append _ _
  have begins : Frame.encodeAll earlier <+: before.flatten :=
    List.prefix_of_prefix_length_le frames (List.prefix_append _ _) arrived
  apply prefix_tokens_of_arrived (sequence_encodeAll ?_) begins fine
  intro token present
  exact framed token (front.subset present)

end Refused

section Bytewise

/-- Bytes that arrive one at a time. -/
def bytewise (bytes : Bytes) : List Bytes :=
  bytes.map fun byte => [byte]

theorem bytewise_append (first second : Bytes) :
    bytewise (first ++ second) = bytewise first ++ bytewise second :=
  List.map_append

theorem bytewise_concat (bytes : Bytes) (byte : UInt8) :
    bytewise (bytes ++ [byte]) = bytewise bytes ++ [[byte]] :=
  bytewise_append bytes [byte]

variable {framer : Framer} {bytes : Bytes}

/-- Bytes of which every beginning may still become a frame are kept. -/
theorem run_bytewise (empty : framer.pending = [])
    (waits : ∀ part, part <+: bytes → Frame.scan framer.maxToken part = .incomplete)
    (fits : bytes.length ≤ framer.maxBuffered) :
    framer.run [] (bytewise bytes) = ⟨[], none, { framer with pending := bytes }⟩ := by
  induction bytes using List.reverseRecOn with
  | nil =>
      have same : { framer with pending := [] } = framer := by rw [← empty]
      rw [same]
      rfl
  | append_singleton bytes byte ih =>
      rw [List.length_append] at fits
      have before := ih (fun part begins => waits part (begins.trans (List.prefix_append _ _)))
        (Nat.le_trans (Nat.le_add_right _ _) fits)
      have room : (bytes ++ [byte]).length ≤ framer.maxBuffered := by
        rwa [List.length_append]
      rw [bytewise_concat, run_concat (by rw [before]), before]
      rw [receive_of_length_le room, drainFrom_of_incomplete (waits _ (List.prefix_refl _))]
      rfl

theorem run_bytewise_concat (empty : framer.pending = [])
    (waits : ∀ part, part <+: bytes → Frame.scan framer.maxToken part = .incomplete)
    (fits : bytes.length ≤ framer.maxBuffered) (byte : UInt8) :
    framer.run [] (bytewise (bytes ++ [byte])) =
      { framer with pending := bytes }.receive [byte] := by
  have before := run_bytewise empty waits fits
  rw [bytewise_concat, run_concat (by rw [before]), before]
  rfl

/-- Before the last byte nothing happens if every beginning of the bytes may become a frame. -/
theorem run_bytewise_of_last {drained : Drained} {byte : UInt8} (empty : framer.pending = [])
    (waits : ∀ part, part <+: bytes → Frame.scan framer.maxToken part = .incomplete)
    (room : (bytes ++ [byte]).length ≤ framer.maxBuffered)
    (drains : drainFrom framer.maxToken [] (bytes ++ [byte]) = drained) :
    framer.run [] (bytewise (bytes ++ [byte])) =
      ⟨drained.tokens, drained.fault, { framer with pending := drained.pending }⟩ := by
  have fits : bytes.length ≤ framer.maxBuffered := by
    rw [List.length_append] at room
    exact Nat.le_of_add_right_le room
  rw [run_bytewise_concat empty waits fits, receive_of_length_le room, drains]

theorem run_bytewise_of_fault {error : Frame.Error} {part : Bytes} (begins : part <+: bytes)
    (wrong : (framer.run [] (bytewise part)).fault = some error) :
    framer.run [] (bytewise bytes) = framer.run [] (bytewise part) := by
  rcases begins with ⟨later, rfl⟩
  rw [bytewise_append, run_append_of_fault wrong]

/-- The byte that does not fit any more ends the stream. -/
theorem run_bytewise_of_overflow (empty : framer.pending = [])
    (waits : ∀ part, part <+: bytes → part.length ≤ framer.maxBuffered →
      Frame.scan framer.maxToken part = .incomplete)
    (long : framer.maxBuffered < bytes.length) :
    framer.run [] (bytewise bytes) =
      ⟨[], some (.overflow (framer.maxBuffered + 1) framer.maxBuffered),
        { framer with pending := bytes.take (framer.maxBuffered + 1) }⟩ := by
  have full : (bytes.take framer.maxBuffered).length = framer.maxBuffered :=
    List.length_take_of_le (Nat.le_of_lt long)
  have waitsInside : ∀ part, part <+: bytes.take framer.maxBuffered →
      Frame.scan framer.maxToken part = .incomplete := by
    intro part begins
    apply waits part (begins.trans (List.take_prefix _ _))
    exact Nat.le_trans begins.length_le (Nat.le_of_eq full)
  have split : bytes.take (framer.maxBuffered + 1) =
      bytes.take framer.maxBuffered ++ [bytes[framer.maxBuffered]] :=
    (List.take_concat_get' bytes framer.maxBuffered long).symm
  have last : framer.run [] (bytewise (bytes.take (framer.maxBuffered + 1))) =
      ⟨[], some (.overflow (framer.maxBuffered + 1) framer.maxBuffered),
        { framer with pending := bytes.take (framer.maxBuffered + 1) }⟩ := by
    rw [split, run_bytewise_concat empty waitsInside (Nat.le_of_eq full), receive_of_overflow]
    · rw [List.length_append, full]
      rfl
    · rw [List.length_append, full]
      exact Nat.lt_succ_self _
  rw [run_bytewise_of_fault (List.take_prefix _ _) (congrArg Progress.fault last), last]

end Bytewise

section Lengths

variable {framer : Framer} {written token : Bytes} {size : Nat}

theorem run_bytewise_of_frame (empty : framer.pending = [])
    (length : Frame.Length written token.length) (some : token ≠ [])
    (within : token.length ≤ framer.maxToken)
    (counted : (written ++ Bytes.crlf ++ token).length ≤ Word64.largest)
    (room : (written ++ Bytes.crlf ++ token).length ≤ framer.maxBuffered) :
    framer.run [] (bytewise (written ++ Bytes.crlf ++ token)) = ⟨[token], none, framer⟩ := by
  rcases List.eq_nil_or_concat' token with rfl | ⟨front, last, rfl⟩
  · exact absurd rfl some
  have split : written ++ Bytes.crlf ++ (front ++ [last]) =
      written ++ Bytes.crlf ++ front ++ [last] := by
    simp
  have waits : ∀ part, part <+: written ++ Bytes.crlf ++ front →
      Frame.scan framer.maxToken part = .incomplete := by
    intro part begins
    apply Frame.scan_of_part length within counted
    · rw [split]
      exact begins.trans (List.prefix_append _ _)
    · rw [split, List.length_append]
      exact Nat.lt_succ_of_le begins.length_le
  have drains : drainFrom framer.maxToken [] (written ++ Bytes.crlf ++ front ++ [last]) =
      ⟨[front ++ [last]], none, []⟩ := by
    have found := Frame.scan_of_frame length some within counted []
    rw [List.append_nil, split] at found
    rw [drainFrom_of_token found, drainFrom_of_incomplete rfl]
    rfl
  rw [split] at room ⊢
  rw [run_bytewise_of_last empty waits room drains, ← empty]

/-- A length with which something is wrong is refused with its line break, if there is room for
that. -/
theorem run_bytewise_of_refused {error : Frame.Error} (empty : framer.pending = [])
    (length : Frame.Length written size)
    (refused : Frame.scan framer.maxToken (written ++ Bytes.crlf) = .fault error)
    (room : (written ++ Bytes.crlf).length ≤ framer.maxBuffered) (rest : Bytes) :
    framer.run [] (bytewise (written ++ Bytes.crlf ++ rest)) =
      ⟨[], some error, { framer with pending := written ++ Bytes.crlf }⟩ := by
  have split : written ++ Bytes.crlf = written ++ [13] ++ [10] := by
    simp [Bytes.crlf]
  have waits : ∀ part, part <+: written ++ [13] →
      Frame.scan framer.maxToken part = .incomplete := by
    intro part begins
    apply @Frame.scan_in_length _ _ [] _ _ length
    · rw [List.append_nil, split]
      exact begins.trans (List.prefix_append _ _)
    · simpa using begins.length_le
  have header : framer.run [] (bytewise (written ++ Bytes.crlf)) =
      ⟨[], some error, { framer with pending := written ++ Bytes.crlf }⟩ := by
    rw [split] at room refused ⊢
    exact run_bytewise_of_last empty waits room (drainFrom_of_fault refused)
  rw [run_bytewise_of_fault (List.prefix_append _ rest) (congrArg Progress.fault header), header]

theorem run_bytewise_of_tooLarge (empty : framer.pending = [])
    (length : Frame.Length written size) (above : framer.maxToken < size)
    (fits : size ≤ Word64.largest)
    (room : (written ++ Bytes.crlf).length ≤ framer.maxBuffered) (rest : Bytes) :
    framer.run [] (bytewise (written ++ Bytes.crlf ++ rest)) =
      ⟨[], some (.tooLarge size framer.maxToken),
        { framer with pending := written ++ Bytes.crlf }⟩ := by
  apply run_bytewise_of_refused empty length ?_ room
  have found := @Frame.scan_of_length framer.maxToken _ _ length fits []
  rwa [List.append_nil, if_neg (by omega), if_pos above] at found

/-- A length with which the bytes of the frame cannot be counted is the end, with its line break. -/
theorem run_bytewise_of_uncounted (empty : framer.pending = [])
    (bounded : framer.maxToken ≤ Word64.largest) (length : Frame.Length written size)
    (within : size ≤ framer.maxToken)
    (uncounted : Word64.largest < (written ++ Bytes.crlf).length + size)
    (room : (written ++ Bytes.crlf).length ≤ framer.maxBuffered) (rest : Bytes) :
    framer.run [] (bytewise (written ++ Bytes.crlf ++ rest)) =
      ⟨[], some .crash, { framer with pending := written ++ Bytes.crlf }⟩ := by
  apply run_bytewise_of_refused empty length ?_ room
  exact Frame.scan_of_crashes bounded
    ⟨written, size, [], length, within, uncounted, (List.append_nil _).symm⟩

/-- There is room for a length with which the bytes of the frame cannot be counted: its token would
take up almost all of the buffer, which is almost all that 64 bits count. -/
theorem length_header_le_of_uncounted {limits : Limits} (length : Frame.Length written size)
    (within : size ≤ limits.maxToken)
    (uncounted : Word64.largest < (written ++ Bytes.crlf).length + size) :
    (written ++ Bytes.crlf).length ≤ limits.maxBuffered := by
  have few := length.few
  have much : Frame.maxLengthDigits + 2 + (Frame.maxLengthDigits + 2) ≤ Word64.largest := by decide
  simp only [Bytes.crlf, List.length_append, List.length_cons, List.length_nil] at uncounted ⊢
  change _ ≤ limits.maxToken
  omega

/--
Frames arrive byte by byte at a new framer.  A token up to the limit is taken out with its last
byte if the whole frame fits in the buffer.  If only the token does, its length is admitted all the
same, and the first byte that does not fit ends the stream; if not even 64 bits count the bytes of
the frame, the framer crashes at the line break of the length.  A length above the limit is refused
as soon as its line break is there, unless the buffer has no room for that.
-/
theorem frames_arrive_bytewise (limits : Limits) :
    let framer := ofLimits limits
    let most := limits.maxBuffered
    (∀ written token, Frame.Length written token.length → token ≠ [] →
      token.length ≤ limits.maxToken →
        let frame := written ++ Bytes.crlf ++ token
        framer.run [] (bytewise frame) =
          if frame.length ≤ most then ⟨[token], none, framer⟩
          else if frame.length ≤ Word64.largest then
            ⟨[], some (.overflow (most + 1) most),
              { framer with pending := frame.take (most + 1) }⟩
          else ⟨[], some .crash, { framer with pending := written ++ Bytes.crlf }⟩) ∧
      ∀ written size rest, Frame.Length written size → limits.maxToken < size →
        size ≤ Word64.largest →
          let header := written ++ Bytes.crlf
          framer.run [] (bytewise (header ++ rest)) =
            if header.length ≤ most then
              ⟨[], some (.tooLarge size limits.maxToken), { framer with pending := header }⟩
            else
              ⟨[], some (.overflow (most + 1) most),
                { framer with pending := header.take (most + 1) }⟩ := by
  intro framer most
  have bounded := limits.maxToken_le_largest
  refine ⟨?_, ?_⟩
  · intro written token length some within frame
    split
    · next room =>
      exact run_bytewise_of_frame rfl length some within (Nat.le_trans room bounded) room
    · next full =>
      have long : most < frame.length := Nat.lt_of_not_le full
      split
      · next counted =>
        apply run_bytewise_of_overflow rfl ?_ long
        intro part begins fits
        apply Frame.scan_of_part length within counted begins
        exact Nat.lt_of_le_of_lt fits long
      · next beyond =>
        have uncounted : Word64.largest < (written ++ Bytes.crlf).length + token.length := by
          rw [← List.length_append]
          exact Nat.lt_of_not_le beyond
        exact run_bytewise_of_uncounted rfl bounded length within uncounted
          (length_header_le_of_uncounted length within uncounted) token
  · intro written size rest length above fits header
    split
    · next room => exact run_bytewise_of_tooLarge rfl length above fits room rest
    · next full =>
      have long : most < header.length := Nat.lt_of_not_le full
      have whole : most < (header ++ rest).length := by
        rw [List.length_append]
        omega
      have kept : (header ++ rest).take (most + 1) = header.take (most + 1) :=
        List.take_append_of_le_length long
      rw [← kept]
      apply run_bytewise_of_overflow rfl ?_ whole
      intro part begins room
      apply Frame.scan_in_length length begins
      have inside : part.length ≤ most := room
      simp only [header, Bytes.crlf, List.length_append, List.length_cons, List.length_nil] at long
      omega

/-- In a buffer of 12 bytes the frame of 9 bytes fits.  That of 10 bytes does not, though the limit
on lengths is 12; and 13 is refused at once. -/
theorem frames_arrive_bytewise_in_small_buffer :
    let limits : Limits := { maxKeyLength := 2, maxValueLength := 2 }
    let framer := ofLimits limits
    let fitting := Bytes.ofText "abcdefghi"
    let long := Bytes.ofText "abcdefghij"
    let header := Decimal.ofNat 13 ++ Bytes.crlf
    limits.maxToken = 12 ∧ limits.maxBuffered = 12 ∧
      framer.run [] (bytewise (Frame.encode fitting)) = ⟨[fitting], none, framer⟩ ∧
      framer.run [] (bytewise (Frame.encode long)) =
        ⟨[], some (.overflow 13 12), { framer with pending := (Frame.encode long).take 13 }⟩ ∧
      framer.run [] (bytewise (header ++ Bytes.ofText "abc")) =
        ⟨[], some (.tooLarge 13 12), { framer with pending := header }⟩ := by
  intro limits framer fitting long header
  have arrives := frames_arrive_bytewise limits
  have within {number : Nat} (small : number ≤ 13) :
      Frame.Length (Decimal.ofNat number) number :=
    Frame.length_ofNat (Nat.le_trans small (by decide))
  have first := arrives.1 (Decimal.ofNat 9) fitting (within (by decide)) (by decide) (by decide)
  have second := arrives.1 (Decimal.ofNat 10) long (within (by decide)) (by decide) (by decide)
  have third := arrives.2 (Decimal.ofNat 13) 13 (Bytes.ofText "abc") (within (by decide))
    (by decide) (by decide)
  have full : ¬(Frame.encode long).length ≤ limits.maxBuffered := by decide +kernel
  have counted : (Frame.encode long).length ≤ Word64.largest := by decide +kernel
  refine ⟨by decide, by decide, ?_, ?_, ?_⟩
  · exact first.trans (if_pos (by decide +kernel))
  · exact second.trans ((if_neg full).trans (if_pos counted))
  · exact third.trans (if_pos (by decide +kernel))

/-- A token as long as the limit on lengths never arrives. -/
theorem overflow_of_admitted_length :
    let limits : Limits := { maxKeyLength := 2, maxValueLength := 2 }
    let token := Bytes.ofText "abcdefghijkl"
    1 ≤ limits.maxKeyLength + limits.maxValueLength ∧
      3 * (limits.maxKeyLength + limits.maxValueLength) < 2 ^ 64 ∧
      1 ≤ token.length ∧ token.length ≤ limits.maxToken ∧
      ((ofLimits limits).run [] (bytewise (Frame.encode token))).tokens = [] ∧
      ((ofLimits limits).run [] (bytewise (Frame.encode token))).fault =
        some (.overflow 13 12) := by
  decide +kernel

end Lengths

end Larder.Framer
