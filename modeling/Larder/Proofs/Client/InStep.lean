import Larder.Client
import Larder.Proofs.Connection.Frames
import Larder.Proofs.Engine.OneCommand
import Larder.Server

/-!
# Clients and servers in step

A client that sends one command after another over one connection gets the response to each of them,
in whatever pieces the bytes travel.  Nothing is left over on either side, so the next response is
the one to the next command.
-/

namespace Larder

namespace Client

/-- A client that has taken in the beginning of a frame and nothing else. -/
def awaiting (bytes payload : Bytes) : Client :=
  { framer := { Framer.ofLimits {} with pending := Frame.leftWithin bytes [payload] } }

variable {client : Client} {payload bytes piece : Bytes} {stream : List Bytes}

theorem awaiting_nil (payload : Bytes) : awaiting [] payload = {} := by
  simp [awaiting, Frame.leftWithin, Framer.ofLimits]

theorem length_lt_of_begins {part whole : Bytes} (begins : part <+: whole)
    (proper : part ≠ whole) : part.length < whole.length :=
  Nat.lt_of_le_of_ne begins.length_le fun same => proper (begins.eq_of_length same)

/-- Taking in bytes that are not too many is up to the framer. -/
theorem take_of_fits (empty : client.buffer = []) (fits : (client.framer.receive piece).Fits) :
    client.take piece =
      ((client.framer.receive piece).fault, { client with
        framer := (client.framer.receive piece).framer
        frames := client.frames ++ (client.framer.receive piece).tokens
        buffer := [] }) := by
  rw [Framer.receive] at fits ⊢
  simp only [take, empty, List.nil_append]
  cases full : (client.framer.feed piece).overflow? with
  | some error =>
      rcases Framer.overflow?_eq_some full with ⟨size, limit, rfl⟩
      simp only [full] at fits
      exact absurd rfl (fits size limit)
  | none => simp only

theorem take_of_fine (empty : client.buffer = [])
    (fine : (client.framer.receive piece).fault = none) :
    client.take piece =
      (none, { client with
        framer := (client.framer.receive piece).framer
        frames := client.frames ++ (client.framer.receive piece).tokens
        buffer := [] }) := by
  rw [take_of_fits empty (Framer.Progress.fits_of_fine fine), fine]

/-- The chunks that are left once a read took as much of the first one as is read at once. -/
def remaining (chunk : Bytes) (later : List Bytes) : List Bytes :=
  if chunk.drop Connection.readSize = [] then later
  else chunk.drop Connection.readSize :: later

theorem flatten_remaining (chunk : Bytes) (later : List Bytes) :
    chunk.take Connection.readSize ++ (remaining chunk later).flatten =
      (chunk :: later).flatten := by
  rw [remaining]
  split
  · next used =>
    rw [List.take_of_length_le (List.drop_eq_nil_iff.mp used), List.flatten_cons]
  · rw [List.flatten_cons, ← List.append_assoc, List.take_append_drop, List.flatten_cons]

theorem ne_nil_of_mem_remaining {chunk : Bytes} {later : List Bytes}
    (nonempty : ∀ chunk ∈ later, chunk ≠ []) :
    ∀ left ∈ remaining chunk later, left ≠ [] := by
  rw [remaining]
  split
  · exact nonempty
  · next some => exact List.forall_mem_cons.mpr ⟨some, nonempty⟩

theorem readResponse_of_chunk {framer : Framer} {chunk : Bytes} (nonempty : chunk ≠ [])
    (later : List Bytes) :
    ({ framer } : Client).readResponse (chunk :: later) =
      match ({ framer } : Client).take (chunk.take Connection.readSize) with
      | (some error, client) => (.error (.protocol error), client, remaining chunk later)
      | (none, client) => client.readResponse (remaining chunk later) := by
  cases chunk with
  | nil => exact absurd rfl nonempty
  | cons first others =>
      rw [readResponse]
      rfl

variable {response : Response} (framed : response.Framed)

include framed

/-- A piece of the frame that a client waits for yields the payload if the frame is complete. -/
theorem take_awaiting (arrived : bytes ++ piece <+: response.encode)
    (short : bytes ≠ response.encode) (small : piece.length ≤ Connection.readSize) :
    (awaiting bytes response.payload).take piece =
      (none, if bytes ++ piece = response.encode then { frames := [response.payload] }
        else awaiting (bytes ++ piece) response.payload) := by
  have frames := Framer.frames_of_roomy (by decide) framed.some framed.roomy
  have single : Frame.encodeAll [response.payload] = response.encode := by
    simp [Frame.encodeAll, Response.encode]
  have fresh_iff {size : Nat} : Frame.completeWithin size [response.payload] =
      if response.encode.length ≤ size then [response.payload] else [] :=
    rfl
  have before : bytes.length < response.encode.length :=
    length_lt_of_begins ((List.prefix_append _ _).trans arrived) short
  rcases @Framer.receive_of_arriving [response.payload]
    (awaiting bytes response.payload).framer bytes piece
    (by simpa [awaiting, Framer.ofLimits] using frames)
    (by
      have roomy := framed.roomy
      simp [awaiting, Framer.ofLimits]
      omega)
    (by rwa [single]) rfl with ⟨fresh, complete, received⟩
  rw [fresh_iff, fresh_iff, if_neg (Nat.not_le.mpr before), List.nil_append] at complete
  rw [take_of_fine rfl (by rw [received]), received, ← complete]
  by_cases whole : bytes ++ piece = response.encode
  · rw [if_pos whole, if_pos (by rw [whole])]
    have nothing : Frame.leftWithin (bytes ++ piece) [response.payload] = [] := by
      rw [whole, ← single, Frame.leftWithin, Frame.completeWithin_encodeAll, List.drop_length]
    simp [awaiting, nothing, Framer.ofLimits]
  · rw [if_neg whole, if_neg (Nat.not_le.mpr (length_lt_of_begins arrived whole))]
    simp [awaiting]

/-- A client that waits for one frame reads it, in whatever chunks the rest of it comes. -/
theorem readResponse_of_frame (rest : bytes ++ stream.flatten = response.encode)
    (short : bytes ≠ response.encode) (nonempty : ∀ chunk ∈ stream, chunk ≠ []) :
    (awaiting bytes response.payload).readResponse stream =
      (.ok (.ofPayload response.payload), {}, []) := by
  induction size_eq : stream.flatten.length using Nat.strong_induction_on
    generalizing bytes stream with
  | _ size ih =>
  cases stream with
  | nil =>
      rw [List.flatten_nil, List.append_nil] at rest
      exact absurd rest short
  | cons chunk later =>
      rw [List.forall_mem_cons] at nonempty
      have others : ∀ left ∈ remaining chunk later, left ≠ [] :=
        ne_nil_of_mem_remaining nonempty.2
      have whole := flatten_remaining chunk later
      have positive : 0 < (chunk.take Connection.readSize).length := by
        have := List.length_pos_iff.mpr nonempty.1
        rw [List.length_take, Connection.readSize]
        omega
      have fewer : (remaining chunk later).flatten.length < size := by
        rw [← size_eq, ← whole, List.length_append]
        omega
      rw [← whole, ← List.append_assoc] at rest
      rw [awaiting, readResponse_of_chunk nonempty.1, ← awaiting,
        take_awaiting framed ⟨_, rest⟩ short (List.length_take_le _ _)]
      by_cases complete : bytes ++ chunk.take Connection.readSize = response.encode
      · have used : remaining chunk later = [] := by
          rw [complete, List.append_right_eq_self, List.flatten_eq_nil_iff] at rest
          cases left : remaining chunk later with
          | nil => rfl
          | cons chunk later =>
              rw [left] at rest others
              exact absurd (rest chunk List.mem_cons_self) (others chunk List.mem_cons_self)
        rw [if_pos complete, used]
        dsimp only
        rw [readResponse]
      · rw [if_neg complete]
        exact ih _ fewer rest complete others rfl

end Client

namespace Connection

/-- What happens to a server with one connection. -/
inductive Happening where
  | read (piece : Read)
  | sweep (clock : Clock)

def Happening.bytes : Happening → Bytes
  | .read piece => piece.bytes
  | .sweep _ => []

def Outcome.undergo (outcome : Outcome) : Happening → Outcome
  | .read piece => outcome.follow true piece
  | .sweep clock => { outcome with engine := (outcome.engine.sweep clock).2 }

/-- The engine once it is known how many bytes were read. -/
def Read.counted (piece : Read) (engine : Engine) : Engine :=
  { engine with counters := engine.counters.read piece.bytes.length }

/-- A connection that has taken in the beginning of an encoded command. -/
def partway (tokens : List Bytes) (bytes : Bytes) : Connection :=
  { readOnly := false
    framer := { Framer.ofLimits {} with pending := Frame.leftWithin bytes tokens }
    queue := Frame.completeWithin bytes.length tokens }

/-- A server that has taken in the beginning of an encoded command and not answered it. -/
structure Receiving (tokens : List Bytes) (bytes : Bytes) (outcome : Outcome) : Prop where
  going : outcome.ending = none
  connection : outcome.connection = partway tokens bytes
  output : outcome.output = []
  regular : outcome.engine.Regular

/-- A server that has answered a command, with nothing left over. -/
structure Answered (response : Response) (outcome : Outcome) : Prop where
  going : outcome.ending = none
  connection : outcome.connection = start {} false
  output : outcome.output = response.encode
  regular : outcome.engine.Regular
  framed : response.Framed

/-- A command that a client may send: its tokens have room in the buffer of the server. -/
structure Sendable (tokens : List Bytes) : Prop where
  command : Grammar.IsCommand {} false tokens
  nonempty : ∀ token ∈ tokens, token ≠ []
  roomy : ∀ token ∈ tokens,
    (Frame.encode token).length + readSize ≤ ({} : Limits).maxBuffered + 1

section Serve

variable {tokens : List Bytes} {bytes : Bytes} {outcome : Outcome} {response : Response}
  {piece : Read} {happenings : List Happening}

theorem regular_sweep {engine : Engine} (regular : engine.Regular) (clock : Clock) :
    (engine.sweep clock).2.Regular :=
  ⟨regular.limits, Engine.reached_sweep regular.reached,
    regular.within.sweep regular.reached.sound clock.now⟩

theorem Receiving.sweep (receiving : Receiving tokens bytes outcome) (clock : Clock) :
    Receiving tokens bytes (outcome.undergo (.sweep clock)) :=
  ⟨receiving.going, receiving.connection, receiving.output,
    regular_sweep receiving.regular clock⟩

theorem Answered.sweep (answered : Answered response outcome) (clock : Clock) :
    Answered response (outcome.undergo (.sweep clock)) :=
  ⟨answered.going, answered.connection, answered.output, regular_sweep answered.regular clock,
    answered.framed⟩

theorem Receiving.counted (receiving : Receiving tokens bytes outcome) (piece : Read) :
    (piece.counted outcome.engine).Regular :=
  ⟨receiving.regular.limits, receiving.regular.reached, receiving.regular.within⟩

/-- The tokens that a piece completes are handled together with those that wait. -/
theorem Receiving.receive (receiving : Receiving tokens bytes outcome) (sendable : Sendable tokens)
    (small : piece.bytes.length ≤ readSize)
    (arrived : bytes ++ piece.bytes <+: Frame.encodeAll tokens) :
    Answers (partway tokens (bytes ++ piece.bytes))
      ((piece.counted outcome.engine).handle piece.clock false
        (Frame.completeWithin (bytes ++ piece.bytes).length tokens))
      (outcome.undergo (.read piece)) := by
  rcases @Framer.receive_of_arriving tokens outcome.connection.framer bytes piece.bytes
    (by
      rw [receiving.connection]
      exact fun token present =>
        Framer.frames_of_roomy (by decide) (sendable.nonempty token present)
          (sendable.roomy token present))
    (by
      rw [receiving.connection]
      exact fun token present =>
        Nat.le_trans (Nat.add_le_add_left small _) (sendable.roomy token present))
    arrived (by rw [receiving.connection, partway]) with ⟨fresh, complete, received⟩
  rw [receiving.connection] at received
  have next : outcome.undergo (.read piece) =
      (partway tokens (bytes ++ piece.bytes)).dispatch (piece.counted outcome.engine) piece.clock
        true := by
    simp only [Outcome.undergo, Outcome.follow, receiving.going, Connection.receive,
      receiving.connection, received, receiving.output, List.nil_append]
    rw [partway, partway, complete]
    rfl
  rw [next]
  exact answers_dispatch (partway tokens (bytes ++ piece.bytes)) _ piece.clock (.inr rfl)

/-- A command of which bytes are missing lacks a token. -/
theorem exists_missing (arrived : bytes <+: Frame.encodeAll tokens)
    (short : bytes ≠ Frame.encodeAll tokens) :
    ∃ more, more ≠ [] ∧ tokens = Frame.completeWithin bytes.length tokens ++ more := by
  have whole := Frame.encodeAll_append_leftWithin arrived
  have arriving := Frame.arriving_leftWithin arrived
  generalize Frame.completeWithin bytes.length tokens = complete at whole arriving ⊢
  generalize Frame.leftWithin bytes tokens = part at whole arriving
  cases arriving with
  | done =>
      rw [List.append_nil] at whole
      exact absurd whole.symm short
  | going => exact ⟨_, List.cons_ne_nil _ _, rfl⟩

/-- A piece that leaves the command incomplete is not answered. -/
theorem Receiving.onward (receiving : Receiving tokens bytes outcome) (sendable : Sendable tokens)
    (small : piece.bytes.length ≤ readSize)
    (arrived : bytes ++ piece.bytes <+: Frame.encodeAll tokens)
    (short : bytes ++ piece.bytes ≠ Frame.encodeAll tokens) :
    Receiving tokens (bytes ++ piece.bytes) (outcome.undergo (.read piece)) := by
  have answers := receiving.receive sendable small arrived
  rcases exists_missing arrived short with ⟨more, missing, split⟩
  have before := receiving.counted piece
  have command : Grammar.IsCommand (piece.counted outcome.engine).limits false
      (Frame.completeWithin (bytes ++ piece.bytes).length tokens ++ more) := by
    rw [before.limits, ← split]
    exact sendable.command
  rw [Engine.handle_of_part command missing] at answers
  exact ⟨answers.going, answers.connection, answers.output,
    regular_of_withoutBytes before answers.engine⟩

/-- The piece that completes the command is answered as the engine answers the command. -/
theorem Receiving.answer (receiving : Receiving tokens bytes outcome) (sendable : Sendable tokens)
    (usual : piece.Usual) (whole : bytes ++ piece.bytes = Frame.encodeAll tokens) :
    ∃ response,
      ((piece.counted outcome.engine).handle piece.clock false tokens).responses = [response] ∧
        Answered response (outcome.undergo (.read piece)) := by
  have answers := receiving.receive sendable usual.small ⟨[], by rw [whole, List.append_nil]⟩
  rw [whole, Frame.completeWithin_encodeAll] at answers
  have before := receiving.counted piece
  have command : Grammar.IsCommand (piece.counted outcome.engine).limits false tokens := by
    rw [before.limits]
    exact sendable.command
  rcases Engine.exists_handle_of_isCommand command piece.clock with ⟨response, next, handled⟩
  have after : ((piece.counted outcome.engine).handle piece.clock false tokens).engine.Regular :=
    (before.handle sendable.nonempty).1
  refine ⟨response, by rw [handled], answers.going, ?_, ?_, ?_, ?_⟩
  · rw [answers.connection, handled, partway, Frame.leftWithin, Frame.completeWithin_encodeAll,
      List.drop_length]
    rfl
  · rw [answers.output, handled]
    simp
  · exact regular_of_withoutBytes after answers.engine
  · apply before.framed_of_mem_handle sendable.nonempty usual.present
    rw [handled]
    exact List.mem_singleton.mpr rfl

theorem Answered.later (answered : Answered response outcome)
    (nonempty : ∀ piece, .read piece ∈ happenings → piece.bytes ≠ [])
    (nothing : happenings.flatMap Happening.bytes = []) :
    Answered response (happenings.foldl Outcome.undergo outcome) := by
  induction happenings generalizing outcome with
  | nil => exact answered
  | cons happening happenings ih =>
      rw [List.flatMap_cons, List.append_eq_nil_iff] at nothing
      cases happening with
      | read piece => exact absurd nothing.1 (nonempty piece List.mem_cons_self)
      | sweep clock =>
          exact ih (answered.sweep clock) (fun piece present => nonempty piece (.tail _ present))
            nothing.2

/-- The rest of a command arrives, and is answered by the engine that the last piece of it finds. -/
theorem Receiving.finish (receiving : Receiving tokens bytes outcome) (sendable : Sendable tokens)
    (short : bytes ≠ Frame.encodeAll tokens)
    (usual : ∀ piece, .read piece ∈ happenings → piece.bytes ≠ [] ∧ piece.Usual)
    (whole : bytes ++ happenings.flatMap Happening.bytes = Frame.encodeAll tokens) :
    ∃ earlier last later response, happenings = earlier ++ .read last :: later ∧
      ((last.counted (earlier.foldl Outcome.undergo outcome).engine).handle
        last.clock false tokens).responses = [response] ∧
      Answered response (happenings.foldl Outcome.undergo outcome) := by
  induction happenings generalizing bytes outcome with
  | nil => exact absurd (by simpa using whole) short
  | cons happening happenings ih =>
      have others : ∀ piece, .read piece ∈ happenings → piece.bytes ≠ [] ∧ piece.Usual :=
        fun piece present => usual piece (.tail _ present)
      rw [List.flatMap_cons, ← List.append_assoc] at whole
      cases happening with
      | sweep clock =>
          rw [Happening.bytes, List.append_nil] at whole
          rcases ih (receiving.sweep clock) short others whole with
            ⟨earlier, last, later, response, split, rest⟩
          exact ⟨.sweep clock :: earlier, last, later, response, by rw [split]; rfl, rest⟩
      | read piece =>
          have usual := (usual piece List.mem_cons_self).2
          rw [Happening.bytes] at whole
          by_cases complete : bytes ++ piece.bytes = Frame.encodeAll tokens
          · rcases receiving.answer sendable usual complete with ⟨response, handled, answered⟩
            rw [complete, List.append_right_eq_self] at whole
            exact ⟨[], piece, happenings, response, rfl, handled,
              answered.later (fun piece present => (others piece present).1) whole⟩
          · rcases ih (receiving.onward sendable usual.small ⟨_, whole⟩ complete) complete others
              whole with ⟨earlier, last, later, response, split, rest⟩
            exact ⟨.read piece :: earlier, last, later, response, by rw [split]; rfl, rest⟩

end Serve

end Connection

/-- A client, and the server that it is connected to. -/
structure Talk where
  client : Client := {}
  connection : Connection
  engine : Engine

/-- A command on its way to a server, and its response on the way back. -/
structure Errand where
  tokens : List Bytes
  /-- What happens to the server until the client has read the response. -/
  happenings : List Connection.Happening
  /-- The bytes that the server sends meanwhile, as they reach the client. -/
  chunks : List Bytes

namespace Talk

variable {settings : Configuration} {talk : Talk} {errand : Errand}

def after (talk : Talk) (happenings : List Connection.Happening) : Connection.Outcome :=
  happenings.foldl Connection.Outcome.undergo
    { connection := talk.connection, engine := talk.engine }

/-- Without sweeps and at one time, the server takes in the pieces one after another. -/
theorem after_reads (talk : Talk) (clock : Clock) (pieces : List Bytes) :
    talk.after (pieces.map fun bytes => .read ⟨clock, bytes⟩) =
      talk.connection.receiveAll talk.engine clock true pieces := by
  rw [after, List.foldl_map]
  rfl

theorem after_nil (talk : Talk) : (talk.after []).engine = talk.engine :=
  rfl

/-- The client sends a command and reads one response.  What it did not read is left. -/
def send (talk : Talk) (errand : Errand) : Except Client.Error Response × Talk × List Bytes :=
  let outcome := talk.after errand.happenings
  let (result, client, unread) := talk.client.readResponse errand.chunks
  (result, { client, connection := outcome.connection, engine := outcome.engine }, unread)

/-- Whether bytes get to the other side in order, in pieces that are no longer than a read. -/
structure Carries (talk : Talk) (errand : Errand) : Prop where
  usual : ∀ piece, .read piece ∈ errand.happenings → piece.bytes ≠ [] ∧ piece.Usual
  there : errand.happenings.flatMap Connection.Happening.bytes = Frame.encodeAll errand.tokens
  chunks : ∀ chunk ∈ errand.chunks, chunk ≠ [] ∧ chunk.length ≤ Connection.readSize
  back : errand.chunks.flatten = (talk.after errand.happenings).output

/-- What comes of a client that connects to a new server and sends one command after another. -/
inductive Reached (settings : Configuration) : Talk → Prop where
  | start {clock : Clock} {connection : Connection} {server : Server}
      (accepted : (Server.start settings clock).connect false = some (connection, server)) :
      Reached settings { connection, engine := server.engine }
  | sweep {talk : Talk} (reached : Reached settings talk) (clock : Clock) :
      Reached settings { talk with engine := (talk.engine.sweep clock).2 }
  | send {talk : Talk} {errand : Errand} (reached : Reached settings talk)
      (sendable : Connection.Sendable errand.tokens) (carries : talk.Carries errand) :
      Reached settings (talk.send errand).2.1

/-- Nothing is on its way, and nothing waits. -/
structure InStep (talk : Talk) : Prop where
  client : talk.client = {}
  connection : talk.connection = .start {} false
  regular : talk.engine.Regular

theorem encode_ne_nil (token : Bytes) : Frame.encode token ≠ [] := by
  apply List.ne_nil_of_length_pos
  rw [Frame.length_encode]
  omega

theorem InStep.receiving (inStep : talk.InStep) (tokens : List Bytes) :
    Connection.Receiving tokens [] { connection := talk.connection, engine := talk.engine } := by
  refine ⟨rfl, ?_, rfl, inStep.regular⟩
  rw [inStep.connection]
  simp [Connection.start, Connection.partway, Frame.leftWithin, Frame.completeWithin_zero,
    Framer.ofLimits]

/-- The client gets the response that the engine gives to the command, and both are in step
again. -/
theorem InStep.send (inStep : talk.InStep) (sendable : Connection.Sendable errand.tokens)
    (carries : talk.Carries errand) :
    ∃ earlier last later response, errand.happenings = earlier ++ .read last :: later ∧
      ((last.counted (talk.after earlier).engine).handle last.clock false
        errand.tokens).responses = [response] ∧
      (talk.send errand).1 = .ok (.ofPayload response.payload) ∧ (talk.send errand).2.2 = [] ∧
      (talk.after errand.happenings).ending = none ∧ (talk.send errand).2.1.InStep := by
  have some : [] ≠ Frame.encodeAll errand.tokens := by
    rcases sendable.command with ⟨name, rest, _, split, _⟩
    rw [split, Frame.encodeAll, List.flatMap_cons]
    exact (List.append_ne_nil_of_left_ne_nil (encode_ne_nil name) _).symm
  rcases (inStep.receiving errand.tokens).finish sendable some carries.usual carries.there with
    ⟨earlier, last, later, response, split, handled, answered⟩
  have read : talk.client.readResponse errand.chunks =
      (.ok (.ofPayload response.payload), {}, []) := by
    have output : [] ++ errand.chunks.flatten = response.encode :=
      carries.back.trans answered.output
    have read := Client.readResponse_of_frame answered.framed output (encode_ne_nil _).symm
      fun chunk present => (carries.chunks chunk present).1
    rw [Client.awaiting_nil] at read
    rw [inStep.client, read]
  refine ⟨earlier, last, later, response, split, handled, ?_, ?_, answered.going, ?_⟩
  · rw [Talk.send, read]
  · rw [Talk.send, read]
  · rw [Talk.send, read]
    exact ⟨rfl, answered.connection, answered.regular⟩

theorem Reached.inStep (reached : talk.Reached settings) (limits : settings.limits = {})
    (stashes : settings.maxStashes ≤ Word64.largest)
    (keys : settings.defaults.maxKeys ≤ Word64.largest) : talk.InStep := by
  induction reached with
  | @start clock _ _ accepted =>
      cases accepted
      refine ⟨rfl, congrArg (Connection.start · false) limits, limits, ?_, ?_⟩
      · exact .start clock.now false stashes keys
      · exact .start clock.now settings.maxStashes settings.defaults false (by decide)
  | sweep _ clock ih =>
      exact ⟨ih.client, ih.connection, Connection.regular_sweep ih.regular clock⟩
  | send _ sendable carries ih =>
      rcases ih.send sendable carries with ⟨_, _, _, _, _, _, _, _, _, next⟩
      exact next

/--
A client sends one command after another to a new server with default limits.  Whatever the
commands are, as long as each is one complete command whose tokens have room, and in whatever pieces
the bytes travel, every command gets the response that the engine gives to it at the time when its
last piece is read.  After every response nothing is left over: no bytes, no tokens and no frames.
-/
theorem send_gets_response (limits : settings.limits = {})
    (stashes : settings.maxStashes ≤ Word64.largest)
    (keys : settings.defaults.maxKeys ≤ Word64.largest) (reached : talk.Reached settings)
    (sendable : Connection.Sendable errand.tokens) (carries : talk.Carries errand) :
    let sent := talk.send errand
    let next := sent.2.1
    (∃ earlier last later response, errand.happenings = earlier ++ .read last :: later ∧
      ((last.counted (talk.after earlier).engine).handle last.clock false
        errand.tokens).responses = [response] ∧
      sent.1 = .ok (.ofPayload response.payload)) ∧
    (talk.after errand.happenings).ending = none ∧ sent.2.2 = [] ∧
      next.client.framer.pending = [] ∧ next.client.buffer = [] ∧ next.client.frames = [] ∧
      next.connection.framer.pending = [] ∧ next.connection.queue = [] := by
  intro sent next
  rcases (reached.inStep limits stashes keys).send sendable carries with
    ⟨earlier, last, later, response, split, handled, result, unread, going, inStep⟩
  have client : next.client = {} := inStep.client
  have connection : next.connection = .start {} false := inStep.connection
  rw [client, connection]
  exact ⟨⟨earlier, last, later, response, split, handled, result⟩, going, unread, rfl, rfl, rfl,
    rfl, rfl⟩

/-- A value is stored by a command that arrives in two pieces, with a sweep between them, and is
then looked up. -/
theorem send_gets_response_of_value :
    let settings : Configuration := {}
    let server := Server.start settings ⟨0, 0⟩
    let first : Talk :=
      { connection := .start settings.limits false
        engine := { server.engine with counters := server.engine.counters.connectionOpened } }
    let store : Errand :=
      { tokens := ["SET", "k", "v", "0"].map Bytes.ofText
        happenings :=
          [.read ⟨⟨5, 5⟩, Bytes.ofText "3\r\nSET1\r\nk1\r\n"⟩, .sweep ⟨6, 6⟩,
            .read ⟨⟨7, 7⟩, Bytes.ofText "v1\r\n0"⟩]
        chunks := [Bytes.ofText "2\r", Bytes.ofText "\nOK"] }
    let piece : Connection.Read := ⟨⟨9, 9⟩, Bytes.ofText "3\r\nGET1\r\nk1\r\n0"⟩
    let look : Errand :=
      { tokens := ["GET", "k", "0"].map Bytes.ofText
        happenings := [.read piece]
        chunks := [Bytes.ofText "1\r\nv"] }
    let second := (first.send store).2.1
    settings.limits = {} ∧ settings.maxStashes ≤ Word64.largest ∧
      settings.defaults.maxKeys ≤ Word64.largest ∧ second.Reached settings ∧
      Connection.Sendable look.tokens ∧ second.Carries look ∧
      (second.send look).1 = .ok (.value (Bytes.ofText "v")) ∧ (second.send look).2.2 = [] ∧
      (second.send look).2.1.client.frames = [] := by
  intro settings server first store piece look second
  have started : first.Reached settings := .start rfl
  have sendable {words : List String}
      (command : Grammar.IsCommand {} false (words.map Bytes.ofText))
      (fine : ∀ token ∈ words.map Bytes.ofText, token ≠ [] ∧
        (Frame.encode token).length + Connection.readSize ≤ ({} : Limits).maxBuffered + 1) :
      Connection.Sendable (words.map Bytes.ofText) :=
    ⟨command, fun token present => (fine token present).1,
      fun token present => (fine token present).2⟩
  have stores : Connection.Sendable store.tokens :=
    sendable ⟨_, _, .set, rfl, by decide +kernel, by decide +kernel⟩ (by decide +kernel)
  have looks : Connection.Sendable look.tokens :=
    sendable ⟨_, _, .get, rfl, by decide +kernel, by decide +kernel⟩ (by decide +kernel)
  have carried : first.Carries store := by
    refine ⟨?_, by decide +kernel, by decide +kernel, by decide +kernel⟩
    intro piece present
    simp only [store, List.mem_cons, Connection.Happening.read.injEq, reduceCtorEq,
      List.not_mem_nil, or_false, false_or] at present
    rcases present with rfl | rfl
    · exact ⟨by decide +kernel, by decide +kernel, by decide⟩
    · exact ⟨by decide +kernel, by decide +kernel, by decide⟩
  have reached : second.Reached settings := .send started stores carried
  have carries : second.Carries look := by
    refine ⟨?_, by decide +kernel, by decide +kernel, by decide +kernel⟩
    intro piece present
    cases List.mem_singleton.mp present
    exact ⟨by decide +kernel, by decide +kernel, by decide⟩
  rcases send_gets_response rfl (by decide) (by decide) reached looks carries with
    ⟨⟨earlier, last, later, response, split, handled, result⟩, _, unread, _, _, frames, _⟩
  have found : ((piece.counted second.engine).handle piece.clock false look.tokens).responses =
      [.value (Bytes.ofText "v")] := by
    decide +kernel
  have alone : earlier = [] ∧ last = piece := by
    cases earlier with
    | nil =>
        cases split
        exact ⟨rfl, rfl⟩
    | cons happening earlier => simp [look] at split
  rw [alone.1, alone.2, after_nil, found] at handled
  refine ⟨rfl, by decide, by decide, reached, looks, carries, ?_, unread, frames⟩
  rw [result, ← List.singleton_inj.mp handled]
  rfl

end Talk

end Larder
