import Larder.Proofs.Connection.Segments
import Larder.Proofs.Engine.OneCommand
import Larder.Proofs.Engine.Orderly
import Larder.Proofs.Framing.Delivery

/-!
# What is answered before a connection is refused

A client sends whole commands and then bytes that cannot be framed.  Where the commands are read
before those bytes, they are executed and answered before the client is told that the connection
ends.  However the stream is cut, what is executed is a beginning of what was sent.
-/

namespace Larder

/-- The beginning of a queue of commands is whole commands and less than another one. -/
theorem Grammar.exists_whole_commands {commands : List (List Bytes)} {tokens : List Bytes}
    (taken : tokens <+: commands.flatten) :
    ∃ whole part, tokens = whole.flatten ++ part ∧ whole <+: commands ∧
      (∀ earlier, earlier <+: commands → earlier.flatten <+: tokens → earlier <+: whole) ∧
      (part = [] ∨ ∃ more, more ≠ [] ∧ part ++ more ∈ commands) := by
  induction commands generalizing tokens with
  | nil =>
      refine ⟨[], [], List.prefix_nil.mp taken, List.nil_prefix, ?_, .inl rfl⟩
      exact fun earlier begins _ => begins
  | cons command commands ih =>
      rw [List.flatten_cons] at taken
      by_cases begins : command <+: tokens
      · rcases begins with ⟨rest, rfl⟩
        rcases ih ((List.prefix_append_right_inj _).mp taken) with
          ⟨whole, part, rfl, beginning, longest, ends⟩
        refine ⟨command :: whole, part, by simp, List.cons_prefix_cons.mpr ⟨rfl, beginning⟩, ?_,
          ends.imp_right ?_⟩
        · intro earlier front arrived
          cases earlier with
          | nil => exact List.nil_prefix
          | cons first earlier =>
              rcases List.cons_prefix_cons.mp front with ⟨rfl, onward⟩
              rw [List.flatten_cons, List.prefix_append_right_inj] at arrived
              exact List.cons_prefix_cons.mpr ⟨rfl, longest earlier onward arrived⟩
        · rintro ⟨more, missing, present⟩
          exact ⟨more, missing, .tail _ present⟩
      · -- Then tokens of the first command are missing.
        rcases (List.prefix_or_prefix_of_prefix taken (List.prefix_append command _)).resolve_right
          begins with ⟨more, rfl⟩
        refine ⟨[], tokens, rfl, List.nil_prefix, ?_, .inr ⟨more, ?_, List.mem_cons_self⟩⟩
        · intro earlier front arrived
          cases earlier with
          | nil => exact List.nil_prefix
          | cons first earlier =>
              rcases List.cons_prefix_cons.mp front with ⟨rfl, _⟩
              rw [List.flatten_cons] at arrived
              exact absurd ((List.prefix_append _ _).trans arrived) begins
        · rintro rfl
          exact begins (by simp)

namespace Engine

variable {engine : Engine} {readOnly : Bool} {tokens : List Bytes} {commands : List (List Bytes)}

/-- Whole commands are answered one by one, and nothing is left of them. -/
theorem handle_of_commands
    (complete : ∀ command ∈ commands, Grammar.IsCommand engine.limits readOnly command)
    (clock : Clock) :
    (engine.handle clock readOnly commands.flatten).responses.length = commands.length ∧
      (engine.handle clock readOnly commands.flatten).left = [] := by
  induction commands generalizing engine with
  | nil =>
      rw [List.flatten_nil, Connection.handle_nil]
      exact ⟨rfl, rfl⟩
  | cons command commands ih =>
      rcases exists_handle_of_isCommand (complete command List.mem_cons_self) clock with
        ⟨response, next, handled⟩
      have same := (limits_handle engine clock readOnly command).1
      rw [handled] at same
      have others : ∀ other ∈ commands, Grammar.IsCommand next.limits readOnly other := by
        rw [same]
        exact fun other present => complete other (.tail _ present)
      rcases ih others with ⟨each, nothing⟩
      rw [List.flatten_cons, handle_append, handled]
      simp [each, nothing]

/-- Of the beginning of a queue of commands, those are executed of which all tokens are there. -/
theorem exists_executed
    (complete : ∀ command ∈ commands, Grammar.IsCommand engine.limits readOnly command)
    (clock : Clock) (taken : tokens <+: commands.flatten) :
    ∃ executed left, executed <+: commands ∧
      (∀ earlier, earlier <+: commands → earlier.flatten <+: tokens → earlier <+: executed) ∧
      (engine.handle clock readOnly executed.flatten).responses.length = executed.length ∧
      engine.handle clock readOnly tokens =
        { engine.handle clock readOnly executed.flatten with left } := by
  rcases Grammar.exists_whole_commands taken with ⟨whole, part, rfl, beginning, longest, ends⟩
  rcases handle_of_commands
    (fun command present => complete command (beginning.subset present)) clock with ⟨each, nothing⟩
  refine ⟨whole, part, beginning, longest, each, ?_⟩
  have waits : (engine.handle clock readOnly whole.flatten).engine.handle clock readOnly part =
      ⟨[], (engine.handle clock readOnly whole.flatten).engine, part⟩ := by
    rcases ends with rfl | ⟨more, missing, present⟩
    · exact Connection.handle_nil _ _ _
    · apply handle_of_part ?_ missing
      rw [(limits_handle engine clock readOnly whole.flatten).1]
      exact complete _ present
  rw [handle_append, nothing, List.nil_append, waits, List.append_nil]

end Engine

namespace Connection

variable {engine : Engine} {clock : Clock} {readOnly working : Bool} {outcome : Outcome}

/-- Bytes that cannot be framed add one word and change nothing but what is counted. -/
theorem Follows.refuse {tokens : List Bytes} {framer : Framer} {piece : Bytes}
    {error : Frame.Error} (follows : Follows engine clock readOnly tokens framer outcome)
    (working : Bool) (wrong : (framer.receive piece).fault = some error) :
    (outcome.receive clock working piece).ending = some (.protocol error) ∧
      (outcome.receive clock working piece).output =
        outcome.output ++ farewell error ∧
      (outcome.receive clock working piece).engine.withoutBytes = outcome.engine.withoutBytes := by
  simp only [Outcome.receive, follows.going, follows.kept, Connection.receive, wrong]
  exact ⟨rfl, rfl, rfl⟩

theorem foldl_receive_of_ended (ended : outcome.ending ≠ none) (pieces : List Bytes) :
    pieces.foldl (Outcome.receive clock working) outcome = outcome := by
  induction pieces with
  | nil => rfl
  | cons piece pieces ih =>
      have same : outcome.receive clock working piece = outcome := by
        rw [Outcome.receive]
        split
        · rfl
        · next going => exact absurd going ended
      rw [List.foldl_cons, same]
      exact ih

/--
A client sends whole commands and then bytes that cannot be framed, in any segments that are never
too much for the buffer.  The connection executes a beginning of the commands, in order, and among
them every command whose frames were read before the segment in which the fault is found.  It sends
the responses to those commands, as an engine that handles them at once, then why it ends, unless
that is a crash, and ends.
So if that segment holds no byte of the commands, all of them are executed and answered.  Only
statistics tell how many bytes have come and gone so far, and so depend on the segments.
-/
theorem commands_answered_before_fault (limits : Limits) (engine : Engine) (clock : Clock)
    (readOnly working : Bool) (commands : List (List Bytes)) (pieces : List Bytes)
    {garbage : Bytes} {error : Frame.Error}
    (served : readOnly = true ∨ working = true)
    (complete : ∀ command ∈ commands, Grammar.IsCommand engine.limits readOnly command)
    (framed : ∀ token ∈ commands.flatten, token ≠ [] ∧ token.length ≤ limits.maxToken ∧
      (Frame.encode token).length ≤ Word64.largest)
    (wrong : Frame.scan limits.maxToken garbage = .fault error)
    (stream : pieces.flatten = Frame.encodeAll commands.flatten ++ garbage)
    (fits : ((Framer.ofLimits limits).run [] pieces).Fits) :
    let outcome := (start limits readOnly).receiveAll engine clock working pieces
    ∃ before refused after executed again,
      let whole := engine.handle clock readOnly executed.flatten
      pieces = before ++ refused :: after ∧
        ((Framer.ofLimits limits).run [] before).fault = none ∧
        ((Framer.ofLimits limits).run [] (before ++ [refused])).fault = some again ∧
        again.unquoted = error.unquoted ∧
        executed <+: commands ∧
        (∀ earlier, earlier <+: commands →
          (Frame.encodeAll earlier.flatten).length ≤ before.flatten.length →
            earlier <+: executed) ∧
        ((Frame.encodeAll commands.flatten).length ≤ before.flatten.length →
          executed = commands) ∧
        whole.responses.length = executed.length ∧
        (∃ responses,
          outcome.output = responses.flatMap Response.encode ++ farewell again ∧
          List.Forall₂
            (Response.AlikeBesidesBytes (Command.statistics ∈ commands.flatten) clock) responses
            whole.responses) ∧
        (Command.statistics ∉ commands.flatten →
          outcome.output = whole.output.getD [] ++ farewell again) ∧
        (error ≠ .crash → farewell again = (Response.fatal again.message).encode) ∧
        outcome.engine.withoutBytes = whole.engine.withoutBytes ∧
        outcome.ending = some (.protocol again) := by
  intro outcome
  have frames : ∀ token ∈ commands.flatten, Framer.Frames limits.maxToken token := by
    intro token present
    rcases framed token present with ⟨some, within, counted⟩
    exact ⟨some, within, counted⟩
  rcases Framer.exists_refused_behind frames wrong stream fits with
    ⟨before, refused, after, again, rfl, fine, cause, same, taken, arrived⟩
  rcases Engine.exists_executed complete clock taken with
    ⟨executed, left, beginning, longest, each, handled⟩
  have follows : Follows engine clock readOnly ((Framer.ofLimits limits).run [] before).tokens
      ((Framer.ofLimits limits).run [] before).framer
      ((start limits readOnly).receiveAll engine clock working before) :=
    (follows_start limits readOnly engine clock).receiveAll served fine
  rcases follows.refuse working cause with ⟨ending, told, state⟩
  have ended : outcome =
      ((start limits readOnly).receiveAll engine clock working before).receive clock working
        refused := by
    change (start limits readOnly).receiveAll engine clock working (before ++ refused :: after) = _
    rw [receiveAll_append, List.foldl_cons, foldl_receive_of_ended]
    rw [ending]
    exact Option.some_ne_none _
  rcases follows.output with ⟨responses, sent, alike⟩
  have alikeWhole : List.Forall₂
      (Response.AlikeBesidesBytes (Command.statistics ∈ commands.flatten) clock) responses
      (engine.handle clock readOnly executed.flatten).responses := by
    rw [handled] at alike
    exact alike.imp fun _ _ same => same.mono fun asked => taken.subset asked
  refine ⟨before, refused, after, executed, again, rfl, fine, ?_, same, beginning, ?_, ?_, each,
    ⟨responses, ?_, alikeWhole⟩, ?_, ?_, ?_, ?_⟩
  · rw [Framer.run_concat fine]
    exact cause
  · intro earlier front held
    apply longest earlier front
    apply arrived _ ?_ held
    rcases front with ⟨later, rfl⟩
    rw [List.flatten_append]
    exact List.prefix_append _ _
  · intro held
    apply beginning.eq_of_length_le
    exact (longest commands (List.prefix_refl _) (arrived _ (List.prefix_refl _) held)).length_le
  · rw [ended, told, sent]
  · intro unasked
    have unchanged : responses = (engine.handle clock readOnly executed.flatten).responses := by
      rw [← List.forall₂_eq_eq_eq]
      exact alikeWhole.imp fun _ _ same => same.eq_of_not_asked unasked
    rw [ended, told, sent, unchanged, Engine.getD_output]
  · intro calm
    apply farewell_of_ne_crash
    rintro rfl
    exact calm (Frame.Error.unquoted_eq_crash_iff.mp same.symm)
  · rw [ended, state, follows.state, handled]
  · rw [ended, ending]

/-- The end of the last command and the beginning of what is wrong are read at once.  Only the
segment after them shows that it is wrong. -/
theorem commands_answered_before_empty_frame :
    let engine : Engine := { registry := .start 0 1 {} false, limits := {} }
    let commands := [["PING"], ["SET", "k", "v", "0"], ["GET", "k", "0"]].map
      (List.map Bytes.ofText)
    let pieces := ["4\r\nPING3\r\nS", "ET1\r\nk1\r\nv1\r\n03\r\nGET1\r\nk1\r\n00",
      "\r\n"].map Bytes.ofText
    (false = true ∨ true = true) ∧
      (∀ command ∈ commands, Grammar.IsCommand engine.limits false command) ∧
      (∀ token ∈ commands.flatten, token ≠ [] ∧ token.length ≤ ({} : Limits).maxToken ∧
        (Frame.encode token).length ≤ Word64.largest) ∧
      Frame.scan ({} : Limits).maxToken (Bytes.ofText "0\r\n") = .fault .empty ∧
      pieces.flatten = Frame.encodeAll commands.flatten ++ Bytes.ofText "0\r\n" ∧
      ((Framer.ofLimits {}).run [] pieces).Fits ∧
      ((start {} false).receiveAll engine ⟨0, 0⟩ true pieces).output =
        (engine.handle ⟨0, 0⟩ false commands.flatten).output.getD [] ++
          (Response.fatal Frame.Error.empty.message).encode := by
  intro engine commands pieces
  have complete : ∀ command ∈ commands, Grammar.IsCommand engine.limits false command := by
    intro command present
    simp only [commands, List.map_cons, List.map_nil, List.mem_cons, List.not_mem_nil,
      or_false] at present
    rcases present with rfl | rfl | rfl
    · exact ⟨_, _, .ping, rfl, by decide +kernel, by decide +kernel⟩
    · exact ⟨_, _, .set, rfl, by decide +kernel, by decide +kernel⟩
    · exact ⟨_, _, .get, rfl, by decide +kernel, by decide +kernel⟩
  have framed : ∀ token ∈ commands.flatten,
      token ≠ [] ∧ token.length ≤ ({} : Limits).maxToken ∧
        (Frame.encode token).length ≤ Word64.largest := by
    decide +kernel
  have wrong : Frame.scan ({} : Limits).maxToken (Bytes.ofText "0\r\n") = .fault .empty := by
    decide +kernel
  have stream : pieces.flatten =
      Frame.encodeAll commands.flatten ++ Bytes.ofText "0\r\n" := by
    decide +kernel
  have fault : ((Framer.ofLimits {}).run [] pieces).fault = some .empty := by decide +kernel
  have fits : ((Framer.ofLimits {}).run [] pieces).Fits := by
    intro size limit
    simp [fault]
  refine ⟨.inr rfl, complete, framed, wrong, stream, fits, ?_⟩
  rcases commands_answered_before_fault {} engine ⟨0, 0⟩ false true commands pieces (.inr rfl)
    complete framed wrong stream fits with
    ⟨before, refused, after, executed, again, split, _, cause, same, _, _, all, _, _, output, _⟩
  have untold : Command.statistics ∉ commands.flatten := by decide +kernel
  have empty : again = .empty := by
    cases again <;> cases same
    rfl
  simp only [pieces, List.map_cons, List.map_nil] at split
  -- The first two segments are taken in without a fault.
  have held : (Frame.encodeAll commands.flatten).length ≤ before.flatten.length := by
    rcases before with _ | ⟨first, _ | ⟨second, others⟩⟩
    · cases split
      exact absurd (cause.symm.trans (by decide +kernel)) (Option.some_ne_none again)
    · cases split
      exact absurd (cause.symm.trans (by decide +kernel)) (Option.some_ne_none again)
    · rw [List.cons_append, List.cons_append, List.cons.injEq, List.cons.injEq] at split
      rcases split with ⟨rfl, rfl, _⟩
      simp only [List.flatten_cons, ← List.append_assoc]
      rw [List.length_append]
      exact Nat.le_trans (by decide +kernel) (Nat.le_add_right _ _)
  have whole := output untold
  rwa [all held, empty] at whole

/-- Statistics asked for in two segments count other bytes than in one.  And a command is not
answered whose last byte shares a segment with the fault. -/
theorem answers_depend_on_segments :
    let engine : Engine := { registry := .start 0 1 {} false, limits := {} }
    let ping := Bytes.ofText "PING"
    let garbage := Bytes.ofText "x\r\n"
    let question := Frame.encode Command.statistics
    let apart := [question, question, garbage]
    let together := [question ++ question, garbage]
    let fault := some (Frame.Error.invalidLength "x")
    let fatal := (Response.fatal (Frame.Error.invalidLength "x").message).encode
    Grammar.IsCommand engine.limits true [Command.statistics] ∧
      Grammar.IsCommand engine.limits true [ping] ∧
      Frame.scan ({} : Limits).maxToken garbage = .fault (.invalidLength "x") ∧
      apart.flatten = together.flatten ∧
      ((Framer.ofLimits {}).run [] apart).fault = fault ∧
      ((Framer.ofLimits {}).run [] together).fault = fault ∧
      ((start {} true).receiveAll engine ⟨0, 0⟩ true apart).output ≠
        ((start {} true).receiveAll engine ⟨0, 0⟩ true together).output ∧
      ((Framer.ofLimits {}).run [] [Frame.encode ping ++ garbage]).fault = fault ∧
      ((start {} true).receiveAll engine ⟨0, 0⟩ true [Frame.encode ping ++ garbage]).output =
        fatal ∧
      ((start {} true).receiveAll engine ⟨0, 0⟩ true [Frame.encode ping, garbage]).output =
        Response.pong.encode ++ fatal := by
  intro engine ping garbage question apart together fault fatal
  refine ⟨⟨_, _, .stats, rfl, by decide +kernel, by decide +kernel⟩,
    ⟨_, _, .ping, rfl, by decide +kernel, by decide +kernel⟩, ?_⟩
  decide +kernel

end Connection

end Larder
