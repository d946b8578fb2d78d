import Larder.Proofs.Framing.Grammar

/-!
# Encoded streams

A framer finds in an encoded stream the tokens that were encoded.  As long as the stream is still
arriving, the frames that are complete are taken out, and what waits is the beginning of the next
frame, which is less than all of it.
-/

namespace Larder.Frame

section Scan

variable {limit : Nat} {token part : Bytes}

theorem length_ofNat_le_maxLengthDigits {number : Nat} (fits : number ≤ Word64.largest) :
    (Decimal.ofNat number).length ≤ maxLengthDigits := by
  apply Decimal.length_ofNat_le
  have : Word64.largest < 10 ^ (19 + 1) := by decide
  omega

theorem length_ofNat {number : Nat} (fits : number ≤ Word64.largest) :
    Length (Decimal.ofNat number) number :=
  ⟨Decimal.numeral_ofNat number, length_ofNat_le_maxLengthDigits fits⟩

theorem length_encode (token : Bytes) :
    (encode token).length = (Decimal.ofNat token.length).length + 2 + token.length := by
  simp only [encode, List.length_append]
  rfl

theorem length_encode_le (token : Bytes) : (encode token).length ≤ 3 * (token.length + 1) := by
  have digits := Decimal.length_ofNat_le_succ token.length
  rw [length_encode]
  omega

theorem length_encode_of_small (small : token.length < 10) :
    (encode token).length = token.length + 3 := by
  rw [length_encode, Decimal.ofNat_of_lt small, List.length_singleton]
  omega

theorem encodeAll_append (first second : List Bytes) :
    encodeAll (first ++ second) = encodeAll first ++ encodeAll second :=
  List.flatMap_append

theorem length_encode_le_of_mem {tokens : List Bytes} (present : token ∈ tokens) :
    (encode token).length ≤ (encodeAll tokens).length := by
  rcases List.append_of_mem present with ⟨front, back, rfl⟩
  simp only [encodeAll, List.flatMap_append, List.flatMap_cons, List.length_append]
  omega

/-- The length in front of a token whose frame can be counted. -/
theorem length_of_counted (counted : (encode token).length ≤ Word64.largest) :
    Length (Decimal.ofNat token.length) token.length := by
  rw [length_encode] at counted
  exact length_ofNat (Nat.le_of_add_left_le counted)

theorem scan_encode_append (some : token ≠ []) (within : token.length ≤ limit)
    (counted : (encode token).length ≤ Word64.largest) (rest : Bytes) :
    scan limit (encode token ++ rest) = .token token rest :=
  scan_of_frame (length_of_counted counted) some within counted rest

/-- Without a token, there is no frame. -/
theorem scan_encode_nil_append (rest : Bytes) : scan limit (encode [] ++ rest) = .fault .empty := by
  have frame : encode [] ++ rest = Decimal.ofNat 0 ++ Bytes.crlf ++ rest := by simp [encode]
  rw [frame, scan_of_length (length_ofNat (Nat.zero_le _)) (Nat.zero_le _), if_pos rfl]

theorem scan_eq_incomplete (within : token.length ≤ limit)
    (counted : (encode token).length ≤ Word64.largest) (begins : part <+: encode token)
    (short : part.length < (encode token).length) : scan limit part = .incomplete :=
  scan_of_part (length_of_counted counted) within counted begins short

end Scan

section Complete

/-- The tokens whose frames are complete when a number of bytes has arrived. -/
def completeWithin : Nat → List Bytes → List Bytes
  | _, [] => []
  | size, token :: tokens =>
    if (encode token).length ≤ size then
      token :: completeWithin (size - (encode token).length) tokens
    else []

theorem completeWithin_zero (tokens : List Bytes) : completeWithin 0 tokens = [] := by
  cases tokens with
  | nil => rfl
  | cons token tokens =>
      apply if_neg
      simp [length_encode]

theorem completeWithin_encodeAll (tokens : List Bytes) :
    completeWithin (encodeAll tokens).length tokens = tokens := by
  induction tokens with
  | nil => rfl
  | cons token tokens ih =>
      have whole : encodeAll (token :: tokens) = encode token ++ encodeAll tokens := rfl
      have left : (encode token ++ encodeAll tokens).length - (encode token).length =
          (encodeAll tokens).length := by
        simp
      rw [whole, completeWithin, if_pos (by simp), left, ih]

/-- A stream that is still arriving: frames that are complete, and less than the next frame. -/
inductive Arriving : List Bytes → List Bytes → Bytes → Prop where
  | done (complete : List Bytes) : Arriving complete complete []
  | going {complete : List Bytes} {next : Bytes} {later : List Bytes} {part : Bytes}
      (begins : part <+: encode next) (short : part.length < (encode next).length) :
      Arriving (complete ++ next :: later) complete part

theorem Arriving.cons {tokens complete : List Bytes} {part : Bytes}
    (arriving : Arriving tokens complete part) (token : Bytes) :
    Arriving (token :: tokens) (token :: complete) part := by
  cases arriving with
  | done => exact .done _
  | going begins short => exact @Arriving.going (token :: complete) _ _ _ begins short

theorem exists_arriving {tokens : List Bytes} {bytes : Bytes}
    (arrived : bytes <+: encodeAll tokens) :
    ∃ part, bytes = encodeAll (completeWithin bytes.length tokens) ++ part ∧
      Arriving tokens (completeWithin bytes.length tokens) part := by
  induction tokens generalizing bytes with
  | nil =>
      have none : bytes = [] := List.prefix_nil.mp arrived
      subst none
      exact ⟨[], rfl, .done []⟩
  | cons token tokens ih =>
      rw [encodeAll, List.flatMap_cons, ← encodeAll] at arrived
      simp only [completeWithin]
      split
      · next enough =>
        have begins : encode token <+: bytes :=
          List.prefix_of_prefix_length_le (List.prefix_append _ _) arrived enough
        rcases begins with ⟨rest, rfl⟩
        have left : (encode token ++ rest).length - (encode token).length = rest.length := by
          simp
        rw [left]
        rcases ih ((List.prefix_append_right_inj _).mp arrived) with ⟨part, whole, arriving⟩
        refine ⟨part, ?_, arriving.cons token⟩
        conv => lhs; rw [whole]
        simp [encodeAll]
      · next few =>
        have short := Nat.lt_of_not_le few
        refine ⟨bytes, rfl, @Arriving.going [] token tokens bytes ?_ short⟩
        exact List.prefix_of_prefix_length_le arrived (List.prefix_append _ _) (Nat.le_of_lt short)

/-- The bytes of a stream behind its complete frames. -/
def leftWithin (bytes : Bytes) (tokens : List Bytes) : Bytes :=
  bytes.drop (encodeAll (completeWithin bytes.length tokens)).length

theorem encodeAll_append_leftWithin {tokens : List Bytes} {bytes : Bytes}
    (arrived : bytes <+: encodeAll tokens) :
    encodeAll (completeWithin bytes.length tokens) ++ leftWithin bytes tokens = bytes := by
  rcases exists_arriving arrived with ⟨part, whole, _⟩
  have left : leftWithin bytes tokens = part := by
    rw [leftWithin]
    conv => lhs; arg 2; rw [whole]
    exact List.drop_left
  rw [left, ← whole]

theorem arriving_leftWithin {tokens : List Bytes} {bytes : Bytes}
    (arrived : bytes <+: encodeAll tokens) :
    Arriving tokens (completeWithin bytes.length tokens) (leftWithin bytes tokens) := by
  rcases exists_arriving arrived with ⟨part, whole, arriving⟩
  have same := encodeAll_append_leftWithin arrived
  rw [List.append_cancel_left (same.trans whole)]
  exact arriving

end Complete

end Larder.Frame

namespace Larder.Framer

/-- A token that is framed within a limit. -/
structure Frames (limit : Nat) (token : Bytes) : Prop where
  some : token ≠ []
  within : token.length ≤ limit
  counted : (Frame.encode token).length ≤ Word64.largest

theorem frames_of_roomy {limits : Limits} {token : Bytes} {more : Nat} (some : more ≠ 0)
    (nonempty : token ≠ [])
    (roomy : (Frame.encode token).length + more ≤ limits.maxBuffered + 1) :
    Frames limits.maxToken token := by
  have bounded := limits.maxToken_le_largest
  rw [Limits.maxToken] at bounded
  rw [Frame.length_encode] at roomy
  refine ⟨nonempty, ?_, ?_⟩
  · rw [Limits.maxToken]
    omega
  · rw [Frame.length_encode]
    omega

variable {limit : Nat} {tokens complete : List Bytes} {part : Bytes}

theorem drainFrom_encodeAll (framed : ∀ token ∈ complete, Frames limit token)
    (earlier : List Bytes) (rest : Bytes) :
    drainFrom limit earlier (Frame.encodeAll complete ++ rest) =
      drainFrom limit (complete.reverse ++ earlier) rest := by
  induction complete generalizing earlier with
  | nil => rfl
  | cons token complete ih =>
      have first := framed token List.mem_cons_self
      have found := Frame.scan_encode_append first.some first.within first.counted
        (Frame.encodeAll complete ++ rest)
      rw [Frame.encodeAll, List.flatMap_cons, ← Frame.encodeAll, List.append_assoc,
        drainFrom_of_token found, ih fun other present => framed other (.tail _ present)]
      simp

theorem sequence_encodeAll (framed : ∀ token ∈ tokens, Frames limit token) :
    Frame.Sequence limit (Frame.encodeAll tokens) tokens := by
  induction tokens with
  | nil => exact .nil
  | cons token tokens ih =>
      have first := framed token List.mem_cons_self
      exact .cons (Frame.length_of_counted first.counted) first.some first.within first.counted
        (ih fun other present => framed other (.tail _ present))

/-- Of a stream that is still arriving, the complete frames are taken out. -/
theorem drainFrom_of_arriving (framed : ∀ token ∈ tokens, Frames limit token)
    (arriving : Frame.Arriving tokens complete part) :
    drainFrom limit [] (Frame.encodeAll complete ++ part) = ⟨complete, none, part⟩ := by
  cases arriving with
  | done =>
      rw [drainFrom_encodeAll framed, drainFrom_of_incomplete rfl]
      simp
  | going begins short =>
      have first := framed _ (List.mem_append_right _ List.mem_cons_self)
      rw [drainFrom_encodeAll fun token present => framed token (List.mem_append_left _ present),
        drainFrom_of_incomplete
          (Frame.scan_eq_incomplete first.within first.counted begins short)]
      simp

/-- What waits of a stream that is still arriving leaves room for more. -/
theorem length_append_le_of_arriving {room : Nat} {piece : Bytes}
    (arriving : Frame.Arriving tokens complete part)
    (arrived : Frame.encodeAll complete ++ part ++ piece <+: Frame.encodeAll tokens)
    (roomy : ∀ token ∈ tokens, (Frame.encode token).length + piece.length ≤ room + 1) :
    (part ++ piece).length ≤ room := by
  cases arriving with
  | done =>
      have none : piece.length = 0 := by
        have within := arrived.length_le
        simp only [List.append_nil, List.length_append] at within
        omega
      simp [none]
  | going begins short =>
      have := roomy _ (List.mem_append_right _ List.mem_cons_self)
      rw [List.length_append]
      omega

theorem receive_of_length_le {framer : Framer} {piece : Bytes}
    (fits : (framer.pending ++ piece).length ≤ framer.maxBuffered) :
    framer.receive piece =
      ⟨(drainFrom framer.maxToken [] (framer.pending ++ piece)).tokens,
        (drainFrom framer.maxToken [] (framer.pending ++ piece)).fault,
        { framer with
          pending := (drainFrom framer.maxToken [] (framer.pending ++ piece)).pending }⟩ := by
  have quiet : (framer.feed piece).overflow? = none := by
    simp only [overflow?, feed]
    exact if_neg (Nat.not_lt.mpr fits)
  rw [receive]
  simp only [quiet]
  rfl

/--
A framer that has taken in the beginning of an encoded stream takes in the next piece of it.  It
yields the tokens whose frames the piece completes, and keeps what is behind them.
-/
theorem receive_of_arriving {framer : Framer} {bytes piece : Bytes}
    (framed : ∀ token ∈ tokens, Frames framer.maxToken token)
    (roomy : ∀ token ∈ tokens,
      (Frame.encode token).length + piece.length ≤ framer.maxBuffered + 1)
    (arrived : bytes ++ piece <+: Frame.encodeAll tokens)
    (waits : framer.pending = Frame.leftWithin bytes tokens) :
    ∃ fresh, Frame.completeWithin (bytes ++ piece).length tokens =
        Frame.completeWithin bytes.length tokens ++ fresh ∧
      framer.receive piece =
        ⟨fresh, none, { framer with pending := Frame.leftWithin (bytes ++ piece) tokens }⟩ := by
  have before : bytes <+: Frame.encodeAll tokens := (List.prefix_append _ _).trans arrived
  have drained := drainFrom_of_arriving framed (Frame.arriving_leftWithin before)
  have whole := drainFrom_of_arriving framed (Frame.arriving_leftWithin arrived)
  rw [Frame.encodeAll_append_leftWithin before] at drained
  rw [Frame.encodeAll_append_leftWithin arrived, drainFrom_append (by rw [drained]) piece,
    drained, ← List.nil_append (List.reverse _), drainFrom_append_earlier,
    List.reverse_reverse] at whole
  simp only [Drained.mk.injEq] at whole
  rcases whole with ⟨fresh, fault, pending⟩
  have fits : (Frame.leftWithin bytes tokens ++ piece).length ≤ framer.maxBuffered := by
    apply length_append_le_of_arriving (Frame.arriving_leftWithin before) ?_ roomy
    rwa [Frame.encodeAll_append_leftWithin before]
  rw [← waits] at fresh fault pending fits
  refine ⟨_, fresh.symm, ?_⟩
  rw [receive_of_length_le fits, fault, pending]

theorem run_of_arriving {framer : Framer} {bytes : Bytes} {pieces : List Bytes}
    (framed : ∀ token ∈ tokens, Frames framer.maxToken token)
    (roomy : ∀ piece ∈ pieces, ∀ token ∈ tokens,
      (Frame.encode token).length + piece.length ≤ framer.maxBuffered + 1)
    (arrived : bytes ++ pieces.flatten <+: Frame.encodeAll tokens)
    (waits : framer.pending = Frame.leftWithin bytes tokens) :
    framer.run (Frame.completeWithin bytes.length tokens) pieces =
      ⟨Frame.completeWithin (bytes ++ pieces.flatten).length tokens, none,
        { framer with pending := Frame.leftWithin (bytes ++ pieces.flatten) tokens }⟩ := by
  induction pieces generalizing framer bytes with
  | nil =>
      rw [List.flatten_nil, List.append_nil, run, ← waits]
  | cons piece pieces ih =>
      rw [List.flatten_cons, ← List.append_assoc] at arrived ⊢
      rw [List.forall_mem_cons] at roomy
      rcases receive_of_arriving framed roomy.1 ((List.prefix_append _ _).trans arrived) waits with
        ⟨fresh, complete, received⟩
      simp only [run, received]
      rw [← complete]
      exact @ih { framer with pending := Frame.leftWithin (bytes ++ piece) tokens } (bytes ++ piece)
        framed roomy.2 arrived rfl

/-- In whatever pieces an encoded stream arrives, its tokens are taken out and nothing is left. -/
theorem run_of_encodeAll {framer : Framer} {pieces : List Bytes} (empty : framer.pending = [])
    (framed : ∀ token ∈ tokens, Frames framer.maxToken token)
    (roomy : ∀ piece ∈ pieces, ∀ token ∈ tokens,
      (Frame.encode token).length + piece.length ≤ framer.maxBuffered + 1)
    (whole : pieces.flatten = Frame.encodeAll tokens) :
    framer.run [] pieces = ⟨tokens, none, framer⟩ := by
  have nothing : framer.pending = Frame.leftWithin [] tokens := by
    rw [empty, Frame.leftWithin, List.drop_nil]
  have arrived := @run_of_arriving tokens framer [] pieces framed roomy (by simp [whole]) nothing
  have left : Frame.leftWithin (Frame.encodeAll tokens) tokens = framer.pending := by
    rw [Frame.leftWithin, Frame.completeWithin_encodeAll, List.drop_length, empty]
  rwa [List.length_nil, Frame.completeWithin_zero, List.nil_append, whole,
    Frame.completeWithin_encodeAll, left] at arrived

end Larder.Framer
