import Larder.Connection
import Larder.Proofs.Engine.ByteCounts
import Larder.Proofs.Framing.Encoded

/-!
# Segments of an encoded stream

A connection that is sent an encoded stream answers the commands in it as if they had been queued
at once, however the stream is cut into reads.  Only statistics tell the difference: they show how
many bytes were read and written so far.
-/

namespace Larder.Connection

variable {connection : Connection} {engine : Engine} {clock : Clock} {working : Bool}

section Dispatch

/-- What a connection does whose queue is answered: the rest of the queue stays, and the frames of
the responses are sent. -/
structure Answers (connection : Connection) (handled : Engine.Handled) (outcome : Outcome) :
    Prop where
  connection : outcome.connection = { connection with queue := handled.left }
  engine : outcome.engine.withoutBytes = handled.engine.withoutBytes
  output : outcome.output = handled.responses.flatMap Response.encode
  going : outcome.ending = none

theorem handle_nil (engine : Engine) (clock : Clock) (readOnly : Bool) :
    engine.handle clock readOnly [] = ⟨[], engine, []⟩ :=
  Engine.handleFrom_of_none rfl

theorem answers_dispatch (connection : Connection) (engine : Engine) (clock : Clock)
    (served : connection.readOnly = true ∨ working = true) :
    Answers connection (engine.handle clock connection.readOnly connection.queue)
      (connection.dispatch engine clock working) := by
  have available : (connection.readOnly || working) = true := by
    rcases served with readOnly | isWorking
    · simp [readOnly]
    · simp [isWorking]
  simp only [dispatch]
  by_cases idle : connection.queue = []
  · rw [if_pos idle, idle, handle_nil]
    exact ⟨by simp [← idle], rfl, rfl, rfl⟩
  · rw [if_neg idle, if_pos available]
    have frames := Engine.getD_output
      (engine.handle clock connection.readOnly connection.queue)
    split
    · next output =>
      rw [output] at frames
      exact ⟨rfl, rfl, frames, rfl⟩
    · next output =>
      rw [output] at frames
      exact ⟨rfl, rfl, frames, rfl⟩

end Dispatch

section Follow

/-- Takes in the piece that is read next, unless the connection has ended. -/
def Outcome.receive (clock : Clock) (working : Bool) (outcome : Outcome) (piece : Bytes) :
    Outcome :=
  match outcome.ending with
  | some _ => outcome
  | none =>
    let next := outcome.connection.receive outcome.engine clock working piece
    { next with output := outcome.output ++ next.output }

theorem receiveAll_append (connection : Connection) (engine : Engine) (clock : Clock)
    (working : Bool) (pieces later : List Bytes) :
    connection.receiveAll engine clock working (pieces ++ later) =
      later.foldl (Outcome.receive clock working)
        (connection.receiveAll engine clock working pieces) :=
  List.foldl_append

variable {readOnly : Bool} {tokens : List Bytes} {framer : Framer} {piece : Bytes}
  {outcome : Outcome}

/-- A connection that has framed some tokens, compared with an engine that has answered them at
once. -/
structure Follows (engine : Engine) (clock : Clock) (readOnly : Bool) (tokens : List Bytes)
    (framer : Framer) (outcome : Outcome) : Prop where
  going : outcome.ending = none
  kept : outcome.connection =
    { readOnly, framer, queue := (engine.handle clock readOnly tokens).left }
  state : outcome.engine.withoutBytes =
    (engine.handle clock readOnly tokens).engine.withoutBytes
  output : ∃ responses, outcome.output = responses.flatMap Response.encode ∧
    List.Forall₂ (Response.AlikeBesidesBytes (Command.statistics ∈ tokens) clock) responses
      (engine.handle clock readOnly tokens).responses

theorem follows_start (limits : Limits) (readOnly : Bool) (engine : Engine) (clock : Clock) :
    Follows engine clock readOnly [] (.ofLimits limits)
      { connection := start limits readOnly, engine } := by
  refine ⟨rfl, ?_, ?_, [], rfl, ?_⟩ <;> rw [handle_nil]
  · rfl
  · exact .nil

/-- The tokens that the next piece completes are answered as by the engine, which goes on with
them. -/
theorem Follows.receive (follows : Follows engine clock readOnly tokens framer outcome)
    (served : readOnly = true ∨ working = true) (fine : (framer.receive piece).fault = none) :
    Follows engine clock readOnly (tokens ++ (framer.receive piece).tokens)
      (framer.receive piece).framer (outcome.receive clock working piece) := by
  rcases follows with ⟨going, kept, state, responses, output, alike⟩
  have onward := Engine.handle_append engine clock readOnly tokens (framer.receive piece).tokens
  have answers := answers_dispatch
    { readOnly
      framer := (framer.receive piece).framer
      queue := (engine.handle clock readOnly tokens).left ++ (framer.receive piece).tokens }
    { outcome.engine with counters := outcome.engine.counters.read piece.length } clock served
  -- The engine that answers the new tokens differs from the one of the whole in the bytes counted.
  have asks : Command.statistics ∈
      (engine.handle clock readOnly tokens).left ++ (framer.receive piece).tokens →
      Command.statistics ∈ tokens ++ (framer.receive piece).tokens := by
    rw [List.mem_append, List.mem_append]
    rintro (waiting | arrived)
    · exact .inl (Engine.left_suffix.subset waiting)
    · exact .inr arrived
  have counted : Engine.withoutBytes
      { outcome.engine with counters := outcome.engine.counters.read piece.length } =
      (engine.handle clock readOnly tokens).engine.withoutBytes := state
  rcases @Engine.handleFrom_alike _ _ clock readOnly _ counted _ asks [] [] .nil with
    ⟨responsesAfter, stateAfter, leftAfter⟩
  simp only [Outcome.receive, going, kept, Connection.receive, fine]
  refine ⟨answers.going, ?_, ?_, ?_⟩
  · rw [onward]
    refine answers.connection.trans ?_
    simp only [mk.injEq, true_and]
    exact leftAfter
  · rw [onward]
    exact answers.engine.trans stateAfter
  · rw [onward]
    refine ⟨_ ++ _, ?_, List.rel_append (alike.imp fun _ _ alike => alike.mono ?_)
      responsesAfter⟩
    · rw [List.flatMap_append, output]
      exact congrArg _ answers.output
    · exact List.mem_append_left _

theorem Follows.receiveAll {pieces : List Bytes}
    (follows : Follows engine clock readOnly tokens framer outcome)
    (served : readOnly = true ∨ working = true) (fine : (framer.run tokens pieces).fault = none) :
    Follows engine clock readOnly (framer.run tokens pieces).tokens
      (framer.run tokens pieces).framer
      (pieces.foldl (Outcome.receive clock working) outcome) := by
  induction pieces generalizing framer tokens outcome with
  | nil => exact follows
  | cons piece pieces ih =>
      rw [Framer.run] at fine ⊢
      cases fault : (framer.receive piece).fault with
      | some error =>
          simp only [fault] at fine
          cases fine
      | none =>
          simp only [fault] at fine ⊢
          exact ih (follows.receive served fault) fine

end Follow

section Serve

variable {limits : Limits} {readOnly : Bool} {tokens : List Bytes} {bytes : Bytes}
  {outcome : Outcome}

/-- A connection that has taken in the beginning of an encoded stream, compared with an engine that
has answered the tokens in it at once. -/
structure Serves (limits : Limits) (readOnly : Bool) (engine : Engine) (clock : Clock)
    (tokens : List Bytes) (bytes : Bytes) (outcome : Outcome) : Prop where
  going : outcome.ending = none
  kept : outcome.connection =
    { readOnly
      framer := { Framer.ofLimits limits with pending := Frame.leftWithin bytes tokens }
      queue := (engine.handle clock readOnly (Frame.completeWithin bytes.length tokens)).left }
  state : outcome.engine.withoutBytes =
    (engine.handle clock readOnly (Frame.completeWithin bytes.length tokens)).engine.withoutBytes
  output : ∃ responses, outcome.output = responses.flatMap Response.encode ∧
    List.Forall₂ (Response.AlikeBesidesBytes
        (Command.statistics ∈ Frame.completeWithin bytes.length tokens) clock) responses
      (engine.handle clock readOnly (Frame.completeWithin bytes.length tokens)).responses

theorem serves_start (limits : Limits) (readOnly : Bool) (engine : Engine) (clock : Clock)
    (tokens : List Bytes) :
    Serves limits readOnly engine clock tokens []
      { connection := start limits readOnly, engine } := by
  refine ⟨rfl, ?_, ?_, [], rfl, ?_⟩ <;> simp only [List.length_nil, Frame.completeWithin_zero, handle_nil]
  · simp [start, Frame.leftWithin, Framer.ofLimits]
  · exact .nil

/-- The next pieces of the stream are answered as by the engine, which goes on with them. -/
theorem Serves.receiveAll {pieces : List Bytes}
    (serves : Serves limits readOnly engine clock tokens bytes outcome)
    (served : readOnly = true ∨ working = true)
    (framed : ∀ token ∈ tokens, Framer.Frames limits.maxToken token)
    (roomy : ∀ piece ∈ pieces, ∀ token ∈ tokens,
      (Frame.encode token).length + piece.length ≤ limits.maxBuffered + 1)
    (arrived : bytes ++ pieces.flatten <+: Frame.encodeAll tokens) :
    Serves limits readOnly engine clock tokens (bytes ++ pieces.flatten)
      (pieces.foldl (Outcome.receive clock working) outcome) := by
  have follows : Follows engine clock readOnly (Frame.completeWithin bytes.length tokens)
      { Framer.ofLimits limits with pending := Frame.leftWithin bytes tokens } outcome :=
    ⟨serves.going, serves.kept, serves.state, serves.output⟩
  have run := @Framer.run_of_arriving tokens
    { Framer.ofLimits limits with pending := Frame.leftWithin bytes tokens } bytes pieces framed
    roomy arrived rfl
  have after := follows.receiveAll served (congrArg Framer.Progress.fault run)
  rw [run] at after
  exact ⟨after.going, after.kept, after.state, after.output⟩

theorem atEnd_of_kept {framer : Framer} {left : List Bytes}
    (arrived : bytes <+: Frame.encodeAll tokens) :
    atEnd
      { readOnly
        framer := { framer with pending := Frame.leftWithin bytes tokens }
        queue := left } =
      if left = [] ∧ bytes = Frame.encodeAll (Frame.completeWithin bytes.length tokens) then
        .clientDisconnected
      else .unexpectedEnd := by
  have whole := Frame.encodeAll_append_leftWithin arrived
  have nothing : Frame.leftWithin bytes tokens = [] ↔
      bytes = Frame.encodeAll (Frame.completeWithin bytes.length tokens) := by
    constructor
    · intro empty
      rw [empty, List.append_nil] at whole
      exact whole.symm
    · intro same
      rw [← same] at whole
      exact List.append_right_eq_self.mp whole
  simp only [atEnd, nothing, and_comm]

/--
A connection that reads a stream of encoded tokens, or the beginning of one, in any segments answers
as an engine does that handles the complete tokens at once.  It goes on until the client leaves, and
then says whether anything was left over.  Only an answer to a question for statistics tells how
many bytes have come and gone so far, and so depends on the segments.
-/
theorem receiveAll_of_segments (limits : Limits) (engine : Engine) (clock : Clock)
    (readOnly working : Bool) (tokens pieces : List Bytes)
    (served : readOnly = true ∨ working = true)
    (nonempty : ∀ token ∈ tokens, token ≠ [])
    (roomy : ∀ token ∈ tokens,
      (Frame.encode token).length + readSize ≤ limits.maxBuffered + 1)
    (reads : ∀ piece ∈ pieces, piece.length ≤ readSize)
    (arrived : pieces.flatten <+: Frame.encodeAll tokens) :
    let complete := Frame.completeWithin pieces.flatten.length tokens
    let whole := engine.handle clock readOnly complete
    let outcome := (start limits readOnly).receiveAll engine clock working pieces
    outcome.ending = none ∧
      (∃ responses, outcome.output = responses.flatMap Response.encode ∧
        (∀ response ∈ responses, response.isFatal = false) ∧
        List.Forall₂ (Response.AlikeBesidesBytes (Command.statistics ∈ complete) clock) responses
          whole.responses) ∧
      (Command.statistics ∉ complete → outcome.output = whole.output.getD []) ∧
      outcome.engine.withoutBytes = whole.engine.withoutBytes ∧
      outcome.connection.queue = whole.left ∧
      outcome.connection.atEnd =
        if whole.left = [] ∧ pieces.flatten = Frame.encodeAll complete then .clientDisconnected
        else .unexpectedEnd := by
  intro complete whole outcome
  have framed : ∀ token ∈ tokens, Framer.Frames limits.maxToken token := by
    intro token present
    exact Framer.frames_of_roomy (by decide) (nonempty token present) (roomy token present)
  have fits : ∀ piece ∈ pieces, ∀ token ∈ tokens,
      (Frame.encode token).length + piece.length ≤ limits.maxBuffered + 1 := by
    intro piece isRead token present
    have := reads piece isRead
    have := roomy token present
    omega
  have serves := (serves_start limits readOnly engine clock tokens).receiveAll served framed fits
    (by rwa [List.nil_append])
  rw [List.nil_append] at serves
  rcases serves with ⟨going, kept, state, responses, output, alike⟩
  refine ⟨going, ⟨responses, output, ?_, alike⟩, ?_, state, ?_, ?_⟩
  · have ends : responses.map Response.isFatal = whole.responses.map Response.isFatal := by
      rw [← List.forall₂_eq_eq_eq]
      exact List.rel_map (fun _ _ same => same.isFatal_eq) alike
    intro response present
    have known : response.isFatal ∈ responses.map Response.isFatal :=
      List.mem_map_of_mem present
    rw [ends] at known
    rcases List.mem_map.mp known with ⟨again, answered, same⟩
    rw [← same]
    exact Engine.isFatal_of_mem_handle answered
  · intro unasked
    have same : responses = whole.responses := by
      rw [← List.forall₂_eq_eq_eq]
      exact alike.imp fun _ _ same => same.eq_of_not_asked unasked
    rw [Engine.getD_output, ← same]
    exact output
  · exact congrArg Connection.queue kept
  · refine (congrArg atEnd kept).trans ?_
    exact atEnd_of_kept arrived

/-- A command that is cut in the middle of its second frame. -/
theorem receiveAll_of_cut_frame :
    let engine : Engine := { registry := .start 0 1 {} false, limits := {} }
    let tokens := ["PING", "GET", "0", "k"].map Bytes.ofText
    let pieces := ["4\r\nPING3\r", "\nG", "ET1\r\n01\r\nk"].map Bytes.ofText
    (false = true ∨ true = true) ∧ (∀ token ∈ tokens, token ≠ []) ∧
      (∀ token ∈ tokens,
        (Frame.encode token).length + readSize ≤ ({} : Limits).maxBuffered + 1) ∧
      (∀ piece ∈ pieces, piece.length ≤ readSize) ∧
      pieces.flatten <+: Frame.encodeAll tokens ∧
      ((start {} false).receiveAll engine ⟨0, 0⟩ true pieces).output =
        (engine.handle ⟨0, 0⟩ false tokens).output.getD [] := by
  intro engine tokens pieces
  have nonempty : ∀ token ∈ tokens, token ≠ [] := by decide
  have roomy : ∀ token ∈ tokens,
      (Frame.encode token).length + readSize ≤ ({} : Limits).maxBuffered + 1 := by
    decide +kernel
  have reads : ∀ piece ∈ pieces, piece.length ≤ readSize := by decide +kernel
  have arrived : pieces.flatten <+: Frame.encodeAll tokens := by decide +kernel
  have all : Frame.completeWithin pieces.flatten.length tokens = tokens := by decide +kernel
  rcases receiveAll_of_segments {} engine ⟨0, 0⟩ false true tokens pieces (.inr rfl) nonempty roomy
    reads arrived with ⟨_, _, same, _⟩
  rw [all] at same
  exact ⟨.inr rfl, nonempty, roomy, reads, arrived, same (by decide +kernel)⟩

/-- Statistics that are asked for twice, in two reads, count the bytes of the first answer. -/
theorem output_ne_of_statistics :
    let engine : Engine := { registry := .start 0 1 {} false, limits := {} }
    let tokens := [Command.statistics, Command.statistics]
    let pieces := tokens.map Frame.encode
    (∀ token ∈ tokens, token ≠ []) ∧
      (∀ token ∈ tokens,
        (Frame.encode token).length + readSize ≤ ({} : Limits).maxBuffered + 1) ∧
      (∀ piece ∈ pieces, piece ≠ [] ∧ piece.length ≤ readSize) ∧
      pieces.flatten = Frame.encodeAll tokens ∧
      ((start {} true).receiveAll engine ⟨0, 0⟩ true pieces).output ≠
        (engine.handle ⟨0, 0⟩ true tokens).output.getD [] := by
  decide +kernel

end Serve

end Larder.Connection
