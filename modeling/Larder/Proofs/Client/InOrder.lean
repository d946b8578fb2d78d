import Larder.Proofs.Client.InStep
import Larder.Proofs.Framing.Delivery

/-!
# Responses in order

A client that asks again and again gets the responses in the order of the stream, whatever frames
the reads begin and complete.  At the end of the stream it is told that the server is gone.  If the
stream goes wrong, it is told so in its turn only as far as reads go: responses whose frames are
complete before the read that is refused come first, and those that this read completes are kept
and come after what is wrong.
-/

namespace Larder.Client

/-- What a client gets that asks for a number of responses, one after another. -/
def answers : Nat → Client → List Bytes → List (Except Error Response)
  | 0, _, _ => []
  | count + 1, client, stream =>
    let (answer, client, stream) := client.readResponse stream
    answer :: answers count client stream

/-- The answers for payloads that have arrived. -/
def told (payloads : List Bytes) : List (Except Error Response) :=
  payloads.map fun payload => .ok (.ofPayload payload)

/-- Pieces of a stream as they are read, at most so many bytes at once. -/
def Read (pieces : List Bytes) : Prop :=
  ∀ piece ∈ pieces, piece ≠ [] ∧ piece.length ≤ Connection.readSize

section Step

variable {framer : Framer} {piece : Bytes} {stream later : List Bytes}

theorem told_append (first second : List Bytes) :
    told (first ++ second) = told first ++ told second :=
  List.map_append

/-- Payloads that are there are handed out first. -/
theorem answers_of_frames (frames : List Bytes) (count : Nat) :
    answers (frames.length + count) { framer, frames } stream =
      told frames ++ answers count { framer } stream := by
  induction frames with
  | nil => rw [List.length_nil, Nat.zero_add]; rfl
  | cons payload frames ih =>
      have taken : ({ framer, frames := payload :: frames } : Client).readResponse stream =
          (.ok (.ofPayload payload), { framer, frames }, stream) := by
        rw [readResponse.eq_def]
      rw [List.length_cons, Nat.add_right_comm, answers, taken]
      exact congrArg (_ :: ·) ih

/-- At the end of a stream nothing more comes. -/
theorem answers_of_end (count : Nat) :
    answers count { framer } [] = List.replicate count (.error .disconnected) := by
  induction count with
  | zero => rfl
  | succ count ih =>
      have ended : ({ framer } : Client).readResponse [] =
          (.error .disconnected, { framer }, []) := by
        rw [readResponse]
      rw [answers, ended]
      exact congrArg (_ :: ·) ih

theorem readResponse_of_piece (read : piece ≠ [] ∧ piece.length ≤ Connection.readSize) :
    ({ framer } : Client).readResponse (piece :: later) =
      match ({ framer } : Client).take piece with
      | (some error, client) => (.error (.protocol error), client, later)
      | (none, client) => client.readResponse later := by
  have whole : piece.drop Connection.readSize = [] := List.drop_eq_nil_iff.mpr read.2
  have chunk := @readResponse_of_chunk framer piece read.1 later
  rw [List.take_of_length_le read.2, remaining, if_pos whole] at chunk
  exact chunk

/-- A piece that can be framed makes no difference to the client but for what it brings. -/
theorem answers_of_fine (read : piece ≠ [] ∧ piece.length ≤ Connection.readSize)
    (fine : (framer.receive piece).fault = none) (count : Nat) :
    answers count { framer } (piece :: later) =
      answers count
        { framer := (framer.receive piece).framer, frames := (framer.receive piece).tokens }
        later := by
  cases count with
  | zero => rfl
  | succ count =>
      rw [answers, answers, readResponse_of_piece read, take_of_fine rfl fine]
      rfl

/-- A piece that cannot be framed is answered at once, in front of the responses that it brings. -/
theorem answers_of_refused {error : Frame.Error}
    (read : piece ≠ [] ∧ piece.length ≤ Connection.readSize)
    (wrong : (framer.receive piece).fault = some error) (fits : (framer.receive piece).Fits)
    (count : Nat) :
    answers (count + 1) { framer } (piece :: later) =
      .error (.protocol error) ::
        answers count
          { framer := (framer.receive piece).framer, frames := (framer.receive piece).tokens }
          later := by
  rw [answers, readResponse_of_piece read, take_of_fits rfl fits, wrong]
  rfl

end Step

section Run

variable {framer : Framer} {pieces later : List Bytes}

/-- Pieces that can be framed bring their responses in order. -/
theorem answers_of_pieces (read : Read pieces) (fine : (framer.run [] pieces).fault = none)
    (count : Nat) :
    answers ((framer.run [] pieces).tokens.length + count) { framer } (pieces ++ later) =
      told (framer.run [] pieces).tokens ++
        answers count { framer := (framer.run [] pieces).framer } later := by
  induction pieces generalizing framer with
  | nil =>
      rw [Framer.run, List.length_nil, Nat.zero_add]
      rfl
  | cons piece pieces ih =>
      rw [Read, List.forall_mem_cons] at read
      rw [Framer.run] at fine ⊢
      cases fault : (framer.receive piece).fault with
      | some error =>
          simp only [fault] at fine
          cases fine
      | none =>
          simp only [fault, List.nil_append] at fine ⊢
          rw [Framer.run_behind] at fine ⊢
          dsimp only at fine ⊢
          rw [List.cons_append, answers_of_fine read.1 fault, List.length_append, Nat.add_assoc,
            answers_of_frames, ih read.2 fine, told_append, List.append_assoc]

/-- The read that is refused brings what is wrong in front of the responses that it completes. -/
theorem exists_answers_of_fault {error : Frame.Error} (read : Read pieces)
    (wrong : (framer.run [] pieces).fault = some error) (fits : (framer.run [] pieces).Fits) :
    ∃ before refused after late, pieces = before ++ refused :: after ∧
      (framer.run [] before).fault = none ∧
      (framer.run [] pieces).tokens = (framer.run [] before).tokens ++ late ∧
      answers ((framer.run [] pieces).tokens.length + 1) { framer } pieces =
        told (framer.run [] before).tokens ++ .error (.protocol error) :: told late := by
  rcases Framer.exists_refused wrong with ⟨before, refused, after, rfl, fine, cause⟩
  have last : framer.run [] (before ++ refused :: after) =
      { (framer.run [] before).framer.receive refused with
        tokens := (framer.run [] before).tokens ++
          ((framer.run [] before).framer.receive refused).tokens } := by
    rw [Framer.run_append fine, Framer.run]
    simp only [cause]
  have refusedFits : ((framer.run [] before).framer.receive refused).Fits := by
    rwa [last] at fits
  rw [Read, List.forall_mem_append, List.forall_mem_cons] at read
  refine ⟨before, refused, after, _, rfl, fine, by rw [last], ?_⟩
  rw [last, List.length_append, Nat.add_assoc, answers_of_pieces read.1 fine,
    answers_of_refused read.2.1 cause refusedFits]
  congr 2
  exact (answers_of_frames _ 0).trans (List.append_nil _)

end Run

section Stream

/-- Bytes that are frames with some payloads, and behind them what may still become a frame. -/
def Holds (bytes : Bytes) (payloads : List Bytes) : Prop :=
  ∃ front waiting, bytes = front ++ waiting ∧
    Frame.Sequence (Limits.maxToken {}) front payloads ∧ Frame.Waits (Limits.maxToken {}) waiting

variable {front rest : Bytes} {payloads pieces : List Bytes}

theorem whole_of_sequence (sequence : Frame.Sequence (Limits.maxToken {}) front payloads) :
    (Framer.ofLimits {}).whole [] (front ++ rest) =
      let drained := Framer.drainFrom (Limits.maxToken {}) payloads.reverse rest
      ⟨drained.tokens, drained.fault, { Framer.ofLimits {} with pending := drained.pending }⟩ := by
  have drained := Framer.drainFrom_of_sequence sequence [] rest
  rw [List.append_nil] at drained
  rw [← drained]
  rfl

theorem run_agrees_front (sequence : Frame.Sequence (Limits.maxToken {}) front payloads)
    (cut : pieces.flatten = front ++ rest) (fits : ((Framer.ofLimits {}).run [] pieces).Fits) :
    let drained := Framer.drainFrom (Limits.maxToken {}) payloads.reverse rest
    ((Framer.ofLimits {}).run [] pieces).Agrees
      ⟨drained.tokens, drained.fault, { Framer.ofLimits {} with pending := drained.pending }⟩ := by
  have agrees := @Framer.run_agrees_whole (Framer.ofLimits {}) rfl [] pieces fits
  rwa [cut, whole_of_sequence sequence] at agrees

/-- Pieces that can be framed hold the frames that were taken out, and not another one. -/
theorem holds_of_fine (fine : ((Framer.ofLimits {}).run [] pieces).fault = none) :
    Holds pieces.flatten ((Framer.ofLimits {}).run [] pieces).tokens := by
  have bounded := Limits.maxToken_le_largest {}
  have agrees := @Framer.run_agrees_whole (Framer.ofLimits {}) rfl [] pieces
    (Framer.Progress.fits_of_fine fine)
  have faultless : (Framer.drainFrom (Limits.maxToken {}) [] pieces.flatten).fault = none :=
    agrees.fault_eq_none fine
  rcases Framer.exists_sequence_drainFrom bounded [] pieces.flatten with
    ⟨front, tokens, sequence, split, taken⟩
  have same : ((Framer.ofLimits {}).run [] pieces).tokens = tokens := agrees.tokens.trans taken
  rw [same]
  exact ⟨front, _, split, sequence,
    (Frame.scan_eq_incomplete_iff_waits (by decide)).mp
      (Framer.scan_pending_drainFrom faultless)⟩

/--
A server sends frames and behind them nothing, or the beginning of a frame, or bytes that no frame
can begin with, and the client reads them in any pieces that do not overflow its buffer.  In the
first two cases it gets the responses of all frames in order, and is then told that the server is
gone, as often as it asks.  In the last case there is a first read that is refused.  The client
gets in order the responses whose frames were complete before this read, then what is wrong, and
only then the responses whose frames this read completes.  So if the frames had arrived before, it
gets all responses first.
-/
theorem answers_in_order (sequence : Frame.Sequence (Limits.maxToken {}) front payloads)
    (cut : pieces.flatten = front ++ rest) (read : Read pieces)
    (fits : ((Framer.ofLimits {}).run [] pieces).Fits) :
    (Frame.Waits (Limits.maxToken {}) rest → ∀ count,
      answers (payloads.length + count) {} pieces =
        told payloads ++ List.replicate count (.error .disconnected)) ∧
    (∀ error, Frame.scan (Limits.maxToken {}) rest = .fault error →
      ∃ before refused after early late again,
        pieces = before ++ refused :: after ∧ payloads = early ++ late ∧
        Holds before.flatten early ∧ again.unquoted = error.unquoted ∧
        answers (payloads.length + 1) {} pieces =
          told early ++ .error (.protocol again) :: told late ∧
        (front.length ≤ before.flatten.length → late = [])) := by
  have agrees := run_agrees_front sequence cut fits
  refine ⟨fun waits count => ?_, fun error wrong => ?_⟩
  · have waiting := (Frame.scan_eq_incomplete_iff_waits (by decide)).mpr waits
    rw [Framer.drainFrom_of_incomplete waiting, List.reverse_reverse] at agrees
    have fine := agrees.symm.fault_eq_none rfl
    have answered := @answers_of_pieces (Framer.ofLimits {}) pieces [] read fine count
    rwa [List.append_nil, answers_of_end, agrees.tokens] at answered
  · rw [Framer.drainFrom_of_fault wrong, List.reverse_reverse] at agrees
    have whole : ((Framer.ofLimits {}).run [] pieces).tokens = payloads := agrees.tokens
    rcases Option.map_eq_some_iff.mp agrees.fault with ⟨again, found, same⟩
    rcases exists_answers_of_fault read found fits with
      ⟨before, refused, after, late, rfl, fine, all, answered⟩
    rw [whole] at all answered
    refine ⟨before, refused, after, _, late, again, rfl, all, holds_of_fine fine, same, answered,
      fun arrived => ?_⟩
    rw [List.flatten_append] at cut
    have begins := List.prefix_of_prefix_length_le ⟨rest, rfl⟩ ⟨_, cut⟩ arrived
    have taken := Framer.prefix_tokens_of_arrived sequence begins fine
    have lengths := taken.length_le
    rw [all, List.length_append] at lengths
    exact List.length_eq_zero_iff.mp (by omega)

/-- Two responses come in order, in front of the end of the stream and of what is wrong behind
them. -/
theorem answers_in_order_of_two_frames :
    let payloads := ["OK", "PONG"].map Bytes.ofText
    let cutShort := ["2\r\nOK4\r", "\nPO", "NG3\r\nab"].map Bytes.ofText
    let garbled := ["2\r\nOK4\r\nPO", "NG", "x\r\n"].map Bytes.ofText
    answers 4 {} cutShort =
        [.ok .ok, .ok .pong, .error .disconnected, .error .disconnected] ∧
      ∃ early late again, payloads = early ++ late ∧
        again.unquoted = Frame.Error.unquoted (.invalidLength "x") ∧
        answers 3 {} garbled = told early ++ .error (.protocol again) :: told late := by
  intro payloads cutShort garbled
  have framed : ∀ token ∈ payloads, Framer.Frames (Limits.maxToken {}) token := by
    have some : ∀ token ∈ payloads, token ≠ [] := by decide +kernel
    have small : ∀ token ∈ payloads, (Frame.encode token).length + 1 ≤ 8 := by decide +kernel
    intro token present
    have room : 8 ≤ Limits.maxBuffered {} + 1 := by decide
    exact Framer.frames_of_roomy Nat.one_ne_zero (some token present)
      ((small token present).trans room)
  have sequence := Framer.sequence_encodeAll framed
  have bounded := Limits.maxToken_le_largest {}
  constructor
  · have waits : Frame.Waits (Limits.maxToken {}) (Bytes.ofText "3\r\nab") :=
      (Frame.scan_eq_incomplete_iff_waits (by decide)).mp (by decide +kernel)
    have cut : cutShort.flatten = Frame.encodeAll payloads ++ Bytes.ofText "3\r\nab" := by
      decide +kernel
    have read : Read cutShort := by unfold Read; decide +kernel
    have fits := @Framer.run_fits (Framer.ofLimits {}) [] cutShort bounded (by decide +kernel)
    have answered := (answers_in_order sequence cut read fits).1 waits 2
    have shown : told payloads = [.ok .ok, .ok .pong] := by decide +kernel
    rw [shown] at answered
    exact answered
  · have wrong : Frame.scan (Limits.maxToken {}) (Bytes.ofText "x\r\n") =
        .fault (.invalidLength "x") := by
      decide +kernel
    have cut : garbled.flatten = Frame.encodeAll payloads ++ Bytes.ofText "x\r\n" := by
      decide +kernel
    have read : Read garbled := by unfold Read; decide +kernel
    have fits := @Framer.run_fits (Framer.ofLimits {}) [] garbled bounded (by decide +kernel)
    rcases (answers_in_order sequence cut read fits).2 _ wrong with
      ⟨_, _, _, early, late, again, _, all, _, same, answered, _⟩
    exact ⟨early, late, again, all, same, answered⟩

/-- What is wrong comes in front of a response that was complete when it was found. -/
theorem fault_before_response :
    let payloads := [Bytes.ofText "OK"]
    let rest := Bytes.ofText "x\r\n"
    let pieces := [Frame.encodeAll payloads ++ rest]
    Read pieces ∧ ((Framer.ofLimits {}).run [] pieces).Fits ∧
      Frame.scan (Limits.maxToken {}) rest = .fault (.invalidLength "x") ∧
      answers 2 {} pieces = [.error (.protocol (.invalidLength "x")), .ok .ok] ∧
      told payloads = [.ok .ok] := by
  intro payloads rest pieces
  have read : Read pieces := by unfold Read; decide +kernel
  have bounded := Limits.maxToken_le_largest {}
  have fits := @Framer.run_fits (Framer.ofLimits {}) [] pieces bounded (by decide +kernel)
  have shown : told payloads = [.ok .ok] := by decide +kernel
  refine ⟨read, fits, by decide +kernel, ?_, shown⟩
  have wrong : ((Framer.ofLimits {}).receive (Frame.encodeAll payloads ++ rest)).fault =
      some (.invalidLength "x") := by
    decide +kernel
  have tokens : ((Framer.ofLimits {}).receive (Frame.encodeAll payloads ++ rest)).tokens =
      payloads := by
    decide +kernel
  have receiveFits : ((Framer.ofLimits {}).receive (Frame.encodeAll payloads ++ rest)).Fits := by
    intro size limit
    simp [wrong]
  apply (answers_of_refused (read _ List.mem_cons_self) wrong receiveFits 1).trans
  rw [tokens]
  apply congrArg (_ :: ·)
  apply (answers_of_frames payloads 0).trans
  rw [shown]
  rfl

end Stream

end Larder.Client
