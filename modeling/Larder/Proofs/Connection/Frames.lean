import Larder.Proofs.Connection.Segments
import Larder.Proofs.Engine.Counting
import Larder.Proofs.Engine.Payloads

/-!
# Whole frames

Whatever a client sends, what it is sent back is a stream of whole frames: one for each command, and
a last one if the connection ends because its bytes cannot be framed.  A client with default limits
takes all of them out.
-/

namespace Larder.Connection

/-- Bytes that are read at once, with the readings of the clock. -/
structure Read where
  clock : Clock
  bytes : Bytes
  deriving Repr, DecidableEq

/-- What a server can read: no more than it reads at once, at a time that has 64 bits. -/
structure Read.Usual (read : Read) : Prop where
  small : read.bytes.length ≤ readSize
  present : read.clock.elapsed ≤ Word64.largest

/-- Takes in what is read next, unless the connection has ended. -/
def Outcome.follow (working : Bool) (outcome : Outcome) (read : Read) : Outcome :=
  match outcome.ending with
  | some _ => outcome
  | none =>
    let next := outcome.connection.receive outcome.engine read.clock working read.bytes
    { next with output := outcome.output ++ next.output }

/-- Takes in reads one after another, until the connection ends. -/
def receiveEach (connection : Connection) (engine : Engine) (working : Bool) (reads : List Read) :
    Outcome :=
  reads.foldl (Outcome.follow working) { connection, engine }

/-- Pieces that are taken in at once are reads between which no time passes. -/
theorem receiveAll_eq_receiveEach (connection : Connection) (engine : Engine) (clock : Clock)
    (working : Bool) (pieces : List Bytes) :
    connection.receiveAll engine clock working pieces =
      connection.receiveEach engine working (pieces.map (Read.mk clock)) := by
  rw [receiveEach, List.foldl_map]
  rfl

/-- The responses to the commands that a read completes, in order. -/
def answersTo (connection : Connection) (engine : Engine) (read : Read) : List Response :=
  let counted := { engine with counters := engine.counters.read read.bytes.length }
  let framed := connection.framer.receive read.bytes
  match framed.fault with
  | some _ => []
  | none =>
    (counted.handle read.clock connection.readOnly (connection.queue ++ framed.tokens)).responses

def Outcome.answersTo (outcome : Outcome) (read : Read) : List Response :=
  match outcome.ending with
  | some _ => []
  | none => outcome.connection.answersTo outcome.engine read

/-- The responses to all commands in reads, in order. -/
def Outcome.answersToEach (working : Bool) (outcome : Outcome) : List Read → List Response
  | [] => []
  | read :: reads =>
    outcome.answersTo read ++ (outcome.follow working read).answersToEach working reads

/-- A connection between two reads. -/
structure Ready (connection : Connection) : Prop where
  framer : connection.framer.Ready
  maxToken : connection.framer.maxToken = ({} : Limits).maxToken
  maxBuffered : connection.framer.maxBuffered = ({} : Limits).maxBuffered
  nonempty : ∀ token ∈ connection.queue, token ≠ []

theorem ready_start (readOnly : Bool) : (start {} readOnly).Ready :=
  ⟨⟨rfl, Nat.zero_le _⟩, rfl, rfl, nofun⟩

/-- How a connection stands after it has told some payloads: it waits for more, or it has told in
another one why it ends. -/
inductive Stands (readOnly : Bool) (payloads : List Bytes) (outcome : Outcome) : Prop where
  | going (ending : outcome.ending = none) (ready : outcome.connection.Ready)
      (mode : outcome.connection.readOnly = readOnly)
      (output : outcome.output = Frame.encodeAll payloads)
  | ended {error : Frame.Error} (ending : outcome.ending = some (.protocol error))
      (framed : (Response.fatal error.message).Framed)
      (output : outcome.output =
        Frame.encodeAll (payloads ++ [(Response.fatal error.message).payload]))

/-- What holds of an outcome after some responses. -/
structure Told (first : Engine) (readOnly : Bool) (responses : List Response) (outcome : Outcome) :
    Prop where
  regular : outcome.engine.Regular
  counts : first.counters.Counts outcome.engine.counters responses
  framed : ∀ response ∈ responses, response.Framed
  stands : Stands readOnly (responses.map Response.payload) outcome

section Bytes

variable {engine other : Engine}

theorem regular_of_withoutBytes (regular : engine.Regular)
    (same : other.withoutBytes = engine.withoutBytes) : other.Regular := by
  rcases Engine.withoutBytes_eq_iff.mp same with ⟨registry, limits, _⟩
  refine ⟨limits.trans regular.limits, ?_, ?_⟩ <;> rw [registry]
  · exact regular.reached
  · exact regular.within

theorem counts_of_withoutBytes {counters : Counters} {responses : List Response}
    (counts : counters.Counts engine.counters responses)
    (same : other.withoutBytes = engine.withoutBytes) :
    counters.Counts other.counters responses := by
  rcases Engine.withoutBytes_eq_iff.mp same with ⟨_, _, counted⟩
  have commands := congrArg Counters.commandsProcessed counted
  have errors := congrArg Counters.commandErrors counted
  exact ⟨commands.trans counts.commands, errors.trans counts.errors⟩

end Bytes

section Receive

variable {connection : Connection} {engine : Engine} {working : Bool} {read : Read}
  (ready : connection.Ready) (regular : engine.Regular) (usual : read.Usual)

include ready regular usual

/-- Bytes that cannot be framed end the connection, which tells why. -/
theorem told_of_fault {error : Frame.Error}
    (wrong : (connection.framer.receive read.bytes).fault = some error) :
    Told engine connection.readOnly (connection.answersTo engine read)
      (connection.receive engine read.clock working read.bytes) := by
  have bounded : connection.framer.maxToken ≤ Word64.largest := by
    rw [ready.maxToken]
    decide
  have room : connection.framer.maxBuffered + read.bytes.length ≤ Word64.largest := by
    rw [ready.maxBuffered]
    apply Nat.le_trans (Nat.add_le_add_left usual.small _)
    decide
  have tells := (ready.framer.tells bounded room wrong).mono (Nat.add_le_add_left usual.small _)
  have calm : error ≠ .crash := by
    have headroom : Frame.Headroom connection.framer.maxToken := by
      rw [ready.maxToken]
      decide
    rintro rfl
    exact Framer.receive_ne_crash headroom read.bytes wrong
  simp only [receive, answersTo, wrong]
  refine ⟨⟨regular.limits, regular.reached, regular.within⟩,
    counts_of_withoutBytes (.nil engine.counters) rfl,
    fun _ present => absurd present List.not_mem_nil, ?_⟩
  refine .ended rfl (Response.framed_fatal tells) ?_
  simp [refuse, Outcome.send, Frame.encodeAll, farewell_of_ne_crash calm, Response.encode]

/-- Bytes that can be framed are answered as by the engine, and the connection goes on. -/
theorem told_of_fine (fine : (connection.framer.receive read.bytes).fault = none)
    (served : connection.readOnly = true ∨ working = true) :
    Told engine connection.readOnly (connection.answersTo engine read)
      (connection.receive engine read.clock working read.bytes) := by
  let counted : Engine := { engine with counters := engine.counters.read read.bytes.length }
  let next : Connection := { connection with
    framer := (connection.framer.receive read.bytes).framer
    queue := connection.queue ++ (connection.framer.receive read.bytes).tokens }
  let handled := counted.handle read.clock connection.readOnly next.queue
  have nonempty : ∀ token ∈ next.queue, token ≠ [] := by
    intro token present
    rcases List.mem_append.mp present with old | new
    · exact ready.nonempty token old
    · exact Framer.ne_nil_of_mem_receive new
  have before : counted.Regular := ⟨regular.limits, regular.reached, regular.within⟩
  have received : connection.receive engine read.clock working read.bytes =
      next.dispatch counted read.clock working := by
    simp only [receive, fine]
    rfl
  have responses : connection.answersTo engine read = handled.responses := by
    simp only [answersTo, fine]
    rfl
  have answers := answers_dispatch next counted read.clock served
  have framer := Framer.ready_of_receive fine
  rw [received, responses]
  refine ⟨regular_of_withoutBytes (before.handle nonempty).1 answers.engine, ?_, ?_, ?_⟩
  · have grown := Engine.counts_handle counted read.clock connection.readOnly next.queue
    exact counts_of_withoutBytes ⟨grown.commands, grown.errors⟩ answers.engine
  · intro response present
    exact before.framed_of_mem_handle nonempty usual.present present
  · refine .going answers.going ?_ ?_ ?_
    · rw [answers.connection]
      refine ⟨framer.1, framer.2.1.trans ready.maxToken, framer.2.2.trans ready.maxBuffered, ?_⟩
      intro token present
      exact nonempty token (Engine.left_suffix.subset present)
    · rw [answers.connection]
    · rw [answers.output, Frame.encodeAll, List.flatMap_map]
      rfl

end Receive

section Run

variable {first : Engine} {readOnly working : Bool} {responses others : List Response}
  {outcome later : Outcome}

/-- What is told later comes behind what was told before. -/
theorem Told.append (told : Told first readOnly responses outcome)
    (output : outcome.output = Frame.encodeAll (responses.map Response.payload))
    (next : Told outcome.engine readOnly others later) :
    Told first readOnly (responses ++ others)
      { later with output := outcome.output ++ later.output } where
  regular := next.regular
  counts := told.counts.append next.counts
  framed := List.forall_mem_append.mpr ⟨told.framed, next.framed⟩
  stands := by
    rw [List.map_append]
    cases next.stands with
    | going ending ready mode more =>
        refine .going ending ready mode ?_
        rw [Frame.encodeAll_append, output, more]
    | ended ending framed more =>
        refine .ended ending framed ?_
        rw [List.append_assoc, Frame.encodeAll_append, output, more]

theorem Told.follow (told : Told first readOnly responses outcome) {read : Read}
    (usual : read.Usual) (served : readOnly = true ∨ working = true) :
    Told first readOnly (responses ++ outcome.answersTo read) (outcome.follow working read) := by
  rcases told.stands with ⟨ending, ready, mode, output⟩ | ⟨ending, _, _⟩
  · subst mode
    simp only [Outcome.follow, Outcome.answersTo, ending]
    apply told.append output
    cases fault : (outcome.connection.framer.receive read.bytes).fault with
    | some error => exact told_of_fault ready told.regular usual fault
    | none => exact told_of_fine ready told.regular usual fault served
  · simp only [Outcome.follow, Outcome.answersTo, ending, List.append_nil]
    exact told

theorem Told.followEach {reads : List Read} (told : Told first readOnly responses outcome)
    (usual : ∀ read ∈ reads, read.Usual) (served : readOnly = true ∨ working = true) :
    Told first readOnly (responses ++ outcome.answersToEach working reads)
      (reads.foldl (Outcome.follow working) outcome) := by
  induction reads generalizing responses outcome with
  | nil =>
      rw [Outcome.answersToEach, List.append_nil]
      exact told
  | cons read reads ih =>
      rw [List.forall_mem_cons] at usual
      rw [Outcome.answersToEach, ← List.append_assoc, List.foldl_cons]
      exact ih (told.follow usual.1 served) usual.2

end Run

section Decode

theorem run_of_framed {responses : List Response} {pieces : List Bytes}
    (framed : ∀ response ∈ responses, response.Framed)
    (small : ∀ piece ∈ pieces, piece.length ≤ readSize)
    (whole : pieces.flatten = Frame.encodeAll (responses.map Response.payload)) :
    (Framer.ofLimits {}).run [] pieces =
      ⟨responses.map Response.payload, none, Framer.ofLimits {}⟩ := by
  apply Framer.run_of_encodeAll rfl _ _ whole
  · intro token present
    rcases List.mem_map.mp present with ⟨response, answered, rfl⟩
    exact Framer.frames_of_roomy (by decide) (framed response answered).some
      (framed response answered).roomy
  · intro piece isPiece token present
    rcases List.mem_map.mp present with ⟨response, answered, rfl⟩
    exact Nat.le_trans (Nat.add_le_add_left (small piece isPiece) _)
      (framed response answered).roomy

/--
With default limits, whatever is read, a client that takes in what it is sent in pieces that are
not longer than a read gets the responses to its commands, in order, and nothing is left over; one
more payload tells why the connection ends if the bytes that were read cannot be framed.  The
commands and the errors among their responses are counted.  All of this needs values that are not
empty, and values and names that are not too long; they stay so.
-/
theorem output_in_whole_frames (readOnly working : Bool)
    (served : readOnly = true ∨ working = true) (engine : Engine) (limits : engine.limits = {})
    (reached : engine.registry.Reached) (within : engine.registry.Within {}) (reads : List Read)
    (usual : ∀ read ∈ reads, read.Usual) :
    let outcome := (start {} readOnly).receiveEach engine working reads
    let responses :=
      Outcome.answersToEach working { connection := start {} readOnly, engine } reads
    ∃ last : List Bytes,
      (outcome.ending = none ∧ last = [] ∨
        ∃ error, outcome.ending = some (.protocol error) ∧
          last = [Response.fatalMark ++ Bytes.ofText error.message]) ∧
      (∀ pieces : List Bytes, pieces.flatten = outcome.output →
        (∀ piece ∈ pieces, piece.length ≤ readSize) →
        (Framer.ofLimits {}).run [] pieces =
          ⟨responses.map Response.payload ++ last, none, Framer.ofLimits {}⟩) ∧
      outcome.engine.counters.commandsProcessed =
        engine.counters.commandsProcessed + UInt64.ofNat responses.length ∧
      outcome.engine.counters.commandErrors =
        engine.counters.commandErrors + UInt64.ofNat (responses.countP Response.isError) ∧
      outcome.engine.limits = {} ∧ outcome.engine.registry.Reached ∧
      outcome.engine.registry.Within {} := by
  intro outcome responses
  have nothing : Told engine readOnly [] { connection := start {} readOnly, engine } :=
    ⟨⟨limits, reached, within⟩, .nil engine.counters, nofun,
      .going rfl (ready_start readOnly) rfl rfl⟩
  have told : Told engine readOnly responses outcome := nothing.followEach usual served
  have counted := told.counts
  have regular := told.regular
  rcases told.stands with ⟨ending, _, _, output⟩ | @⟨error, ending, fatal, output⟩
  · refine ⟨[], .inl ⟨ending, rfl⟩, ?_, counted.commands, counted.errors, regular.limits,
      regular.reached, regular.within⟩
    intro pieces whole small
    rw [List.append_nil]
    exact run_of_framed told.framed small (whole.trans output)
  · refine ⟨[(Response.fatal error.message).payload], .inr ⟨error, ending, rfl⟩, ?_,
      counted.commands, counted.errors, regular.limits, regular.reached, regular.within⟩
    intro pieces whole small
    have framed : ∀ response ∈ responses ++ [Response.fatal error.message], response.Framed :=
      List.forall_mem_append.mpr ⟨told.framed, List.forall_mem_singleton.mpr fatal⟩
    have decoded := run_of_framed framed small (by simpa using whole.trans output)
    simpa using decoded

/-- A value is stored and looked up; then comes a command with garbage behind it, and no answer. -/
theorem output_in_whole_frames_before_garbage :
    let engine : Engine := { registry := .start 0 1 {} false, limits := {} }
    let reads : List Read :=
      [⟨⟨0, 0⟩, Bytes.ofText "3\r\nSET1\r\nk1\r\nv1\r\n03\r\nG"⟩,
        ⟨⟨7, 5⟩, Bytes.ofText "ET1\r\nk1\r\n0"⟩, ⟨⟨9, 9⟩, Bytes.ofText "4\r\nPINGx\r\n"⟩]
    let outcome := (start {} false).receiveEach engine true reads
    (false = true ∨ true = true) ∧ engine.limits = {} ∧ engine.registry.Reached ∧
      engine.registry.Within {} ∧ (∀ read ∈ reads, read.Usual) ∧
      outcome.ending = some (.protocol (.invalidLength "x")) ∧
      (Framer.ofLimits {}).run [] [outcome.output] =
        ⟨["OK", "v", "FATAL invalid length prefix: \"x\""].map Bytes.ofText, none,
          Framer.ofLimits {}⟩ ∧
      outcome.engine.counters.commandsProcessed = 2 ∧ outcome.engine.registry.Within {} := by
  intro engine reads outcome
  have reached : engine.registry.Reached := .start 0 false (by decide) (by decide)
  have within : engine.registry.Within {} := .start 0 1 {} false (by decide)
  have usual : ∀ read ∈ reads, read.Usual := by
    intro read present
    have small : ∀ read ∈ reads, read.bytes.length ≤ readSize := by decide +kernel
    have timely : ∀ read ∈ reads, read.clock.elapsed ≤ Word64.largest := by decide +kernel
    exact ⟨small read present, timely read present⟩
  have ends : outcome.ending = some (.protocol (.invalidLength "x")) := by decide +kernel
  have short : ∀ piece ∈ [outcome.output], piece.length ≤ readSize := by decide +kernel
  have answers : Outcome.answersToEach true { connection := start {} false, engine } reads =
      [.ok, .value (Bytes.ofText "v")] := by
    decide +kernel
  rcases output_in_whole_frames false true (.inr rfl) engine rfl reached within reads usual with
    ⟨last, ending, decoded, commands, _, _, _, stillWithin⟩
  have told : last = [Bytes.ofText "FATAL invalid length prefix: \"x\""] := by
    rcases ending with ⟨going, _⟩ | ⟨error, ended, rfl⟩
    · cases ends.symm.trans going
    · cases ends.symm.trans ended
      decide +kernel
  refine ⟨.inr rfl, rfl, reached, within, usual, ends, ?_, ?_, stillWithin⟩
  · rw [decoded [outcome.output] (by simp [outcome]) short, answers, told]
    rfl
  · rw [answers] at commands
    exact commands

end Decode

end Larder.Connection
