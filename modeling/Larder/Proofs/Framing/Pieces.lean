import Larder.Framer
import Larder.Proofs.Framing.Scan

/-!
# Streams in pieces

What a framer makes of a stream does not depend on the pieces in which the stream arrives.  Taking
frames out of a piece and going on with what was left comes to the same as taking them out of the
whole stream, so any two ways of cutting it agree.
-/

namespace Larder.Framer

section Drain

variable {limit : Nat} {earlier : List Bytes} {bytes : Bytes}

theorem drainFrom_of_token {token rest : Bytes}
    (found : Frame.scan limit bytes = .token token rest) :
    drainFrom limit earlier bytes = drainFrom limit (token :: earlier) rest := by
  rw [drainFrom]
  split
  next again => rw [found] at again; cases again; rfl
  next again => rw [found] at again; cases again
  next again => rw [found] at again; cases again

theorem drainFrom_of_incomplete (waits : Frame.scan limit bytes = .incomplete) :
    drainFrom limit earlier bytes = ⟨earlier.reverse, none, bytes⟩ := by
  rw [drainFrom]
  split
  next again => rw [waits] at again; cases again
  next => rfl
  next again => rw [waits] at again; cases again

theorem drainFrom_of_fault {error : Frame.Error} (wrong : Frame.scan limit bytes = .fault error) :
    drainFrom limit earlier bytes = ⟨earlier.reverse, some error, bytes⟩ := by
  rw [drainFrom]
  split
  next again => rw [wrong] at again; cases again
  next again => rw [wrong] at again; cases again
  next again => rw [wrong] at again; cases again; rfl

/-- Tokens that were taken out before stand in front of all others and change nothing else. -/
theorem drainFrom_append_earlier (recent : List Bytes) :
    drainFrom limit (recent ++ earlier) bytes =
      ⟨earlier.reverse ++ (drainFrom limit recent bytes).tokens,
        (drainFrom limit recent bytes).fault, (drainFrom limit recent bytes).pending⟩ := by
  induction recent, bytes using drainFrom.induct limit with
  | case1 recent bytes token rest found ih =>
      rw [drainFrom_of_token found, drainFrom_of_token found]
      exact ih
  | case2 recent bytes waits => simp [drainFrom_of_incomplete waits]
  | case3 recent bytes error wrong => simp [drainFrom_of_fault wrong]

/-- What waits after the frames are taken out is no complete frame. -/
theorem scan_pending_drainFrom (fine : (drainFrom limit earlier bytes).fault = none) :
    Frame.scan limit (drainFrom limit earlier bytes).pending = .incomplete := by
  induction earlier, bytes using drainFrom.induct limit with
  | case1 earlier bytes token rest found ih =>
      rw [drainFrom_of_token found] at fine ⊢
      exact ih fine
  | case2 earlier bytes waits => rwa [drainFrom_of_incomplete waits]
  | case3 earlier bytes error wrong =>
      rw [drainFrom_of_fault wrong] at fine
      cases fine

/-- What waits behind frames that are taken out, where something is wrong with it. -/
theorem scan_pending_of_fault {error : Frame.Error}
    (wrong : (drainFrom limit earlier bytes).fault = some error) :
    Frame.scan limit (drainFrom limit earlier bytes).pending = .fault error := by
  induction earlier, bytes using drainFrom.induct limit with
  | case1 earlier bytes token rest found ih =>
      rw [drainFrom_of_token found] at wrong ⊢
      exact ih wrong
  | case2 earlier bytes waits => simp [drainFrom_of_incomplete waits] at wrong
  | case3 earlier bytes cause faulty =>
      simp only [drainFrom_of_fault faulty, Option.some.injEq] at wrong ⊢
      exact wrong ▸ faulty

/-- Where nothing was wrong, taking frames out goes on with what was left. -/
theorem drainFrom_append (fine : (drainFrom limit earlier bytes).fault = none) (more : Bytes) :
    drainFrom limit earlier (bytes ++ more) =
      drainFrom limit (drainFrom limit earlier bytes).tokens.reverse
        ((drainFrom limit earlier bytes).pending ++ more) := by
  induction earlier, bytes using drainFrom.induct limit with
  | case1 earlier bytes token rest found ih =>
      rw [drainFrom_of_token found] at fine ⊢
      rw [drainFrom_of_token (Frame.scan_append_of_token found more)]
      exact ih fine
  | case2 earlier bytes waits => simp [drainFrom_of_incomplete waits]
  | case3 earlier bytes error wrong =>
      rw [drainFrom_of_fault wrong] at fine
      cases fine

/-- Where something was wrong, more bytes leave the tokens and what is wrong as they are. -/
theorem drainFrom_append_of_fault {error : Frame.Error}
    (wrong : (drainFrom limit earlier bytes).fault = some error) (more : Bytes) :
    (drainFrom limit earlier (bytes ++ more)).tokens = (drainFrom limit earlier bytes).tokens ∧
      (drainFrom limit earlier (bytes ++ more)).fault.map Frame.Error.unquoted =
        some error.unquoted := by
  induction earlier, bytes using drainFrom.induct limit with
  | case1 earlier bytes token rest found ih =>
      rw [drainFrom_of_token found] at wrong ⊢
      rw [drainFrom_of_token (Frame.scan_append_of_token found more)]
      exact ih wrong
  | case2 earlier bytes waits =>
      rw [drainFrom_of_incomplete waits] at wrong
      cases wrong
  | case3 earlier bytes cause faulty =>
      rw [drainFrom_of_fault faulty] at wrong ⊢
      cases wrong
      rcases Frame.scan_append_of_fault faulty more with ⟨again, found, same⟩
      rw [drainFrom_of_fault found]
      exact ⟨rfl, congrArg some same⟩

end Drain

/-- Whether no piece made too many bytes wait. -/
def Progress.Fits (progress : Progress) : Prop :=
  ∀ size limit, progress.fault ≠ some (.overflow size limit)

theorem Progress.fits_of_fine {progress : Progress} (fine : progress.fault = none) :
    progress.Fits := by
  intro size limit
  rw [fine]
  exact nofun

/-- Two ways through a stream that end alike: with the same tokens and the same thing wrong, or
with nothing wrong and the same framer.  A fault may quote other bytes. -/
structure Progress.Agrees (first second : Progress) : Prop where
  tokens : first.tokens = second.tokens
  fault : first.fault.map Frame.Error.unquoted = second.fault.map Frame.Error.unquoted
  framer : first.fault = none → first.framer = second.framer

namespace Progress.Agrees

variable {first second third : Progress}

theorem fault_eq_none (agrees : first.Agrees second) (fine : first.fault = none) :
    second.fault = none := by
  have none := agrees.fault
  rw [fine] at none
  exact Option.map_eq_none_iff.mp none.symm

theorem eq_of_fine (agrees : first.Agrees second) (fine : first.fault = none) : first = second := by
  have again := agrees.fault_eq_none fine
  rcases agrees with ⟨tokens, _, framer⟩
  rcases first with ⟨_, _, _⟩
  rcases second with ⟨_, _, _⟩
  simp_all

theorem fault_eq_crash_iff (agrees : first.Agrees second) :
    first.fault = some .crash ↔ second.fault = some .crash := by
  have told (progress : Progress) : progress.fault = some .crash ↔
      progress.fault.map Frame.Error.unquoted = some .crash := by
    cases progress.fault <;> simp [Frame.Error.unquoted_eq_crash_iff]
  rw [told first, told second, agrees.fault]

theorem symm (agrees : first.Agrees second) : second.Agrees first := by
  refine ⟨agrees.tokens.symm, agrees.fault.symm, ?_⟩
  intro fine
  have firstFine : first.fault = none := by
    have none := agrees.fault
    rw [fine] at none
    exact Option.map_eq_none_iff.mp none
  exact (agrees.framer firstFine).symm

theorem trans (agrees : first.Agrees second) (again : second.Agrees third) :
    first.Agrees third := by
  refine ⟨agrees.tokens.trans again.tokens, agrees.fault.trans again.fault, ?_⟩
  intro fine
  exact (agrees.framer fine).trans (again.framer (agrees.fault_eq_none fine))

end Progress.Agrees

/-- How far a framer would get with a whole stream, if any number of bytes could wait. -/
def whole (framer : Framer) (tokens : List Bytes) (bytes : Bytes) : Progress :=
  let drained := drainFrom framer.maxToken tokens.reverse (framer.pending ++ bytes)
  ⟨drained.tokens, drained.fault, { framer with pending := drained.pending }⟩

section Run

variable {framer : Framer} {piece : Bytes}

theorem overflow?_eq_some {error : Frame.Error} (refused : framer.overflow? = some error) :
    ∃ size limit, error = .overflow size limit := by
  rw [overflow?] at refused
  split at refused
  · cases refused
    exact ⟨_, _, rfl⟩
  · cases refused

theorem drainFrom_feed (tokens : List Bytes) :
    drainFrom framer.maxToken tokens.reverse (framer.pending ++ piece) =
      ⟨tokens ++ (framer.feed piece).drained.tokens, (framer.feed piece).drained.fault,
        (framer.feed piece).drained.pending⟩ := by
  have behind := @drainFrom_append_earlier framer.maxToken tokens.reverse
    (framer.pending ++ piece) []
  rwa [List.nil_append, List.reverse_reverse] at behind

/-- A stream whose first piece is refused gets no further as a whole. -/
theorem agrees_whole_of_fault {error : Frame.Error}
    (wrong : (framer.feed piece).drained.fault = some error) (tokens : List Bytes) (more : Bytes) :
    Progress.Agrees ⟨tokens ++ (framer.feed piece).drained.tokens, some error,
      (framer.feed piece).drain⟩ (framer.whole tokens (piece ++ more)) := by
  have faulty : (drainFrom framer.maxToken tokens.reverse (framer.pending ++ piece)).fault =
      some error := by
    rw [drainFrom_feed, wrong]
  rcases drainFrom_append_of_fault faulty more with ⟨sameTokens, sameFault⟩
  rw [drainFrom_feed, List.append_assoc] at sameTokens
  rw [List.append_assoc] at sameFault
  refine ⟨sameTokens.symm, sameFault.symm, ?_⟩
  intro fine
  cases fine

/-- A stream whose first piece is taken in goes on as a whole with what is left of it. -/
theorem whole_append (fine : (framer.feed piece).drained.fault = none) (tokens : List Bytes)
    (more : Bytes) :
    framer.whole tokens (piece ++ more) =
      (framer.feed piece).drain.whole (tokens ++ (framer.feed piece).drained.tokens) more := by
  have faultless : (drainFrom framer.maxToken tokens.reverse (framer.pending ++ piece)).fault =
      none := by
    rw [drainFrom_feed, fine]
  simp only [whole]
  rw [← List.append_assoc, drainFrom_append faultless, drainFrom_feed]
  rfl

section Append

variable {tokens : List Bytes} {pieces : List Bytes}

/-- Earlier tokens stand in front of those that the pieces yield. -/
theorem run_behind (framer : Framer) (tokens pieces : List Bytes) :
    framer.run tokens pieces =
      { framer.run [] pieces with tokens := tokens ++ (framer.run [] pieces).tokens } := by
  induction pieces generalizing framer tokens with
  | nil => simp [run]
  | cons piece pieces ih =>
      rw [run, run]
      split
      · rfl
      · rw [ih _ (tokens ++ _), ih _ ([] ++ _)]
        simp

theorem run_append (fine : (framer.run tokens pieces).fault = none) (later : List Bytes) :
    framer.run tokens (pieces ++ later) =
      (framer.run tokens pieces).framer.run (framer.run tokens pieces).tokens later := by
  induction pieces generalizing framer tokens with
  | nil => rfl
  | cons first pieces ih =>
      rw [run] at fine
      rw [List.cons_append, run, run]
      split at fine
      · next wrong => rw [wrong] at fine; cases fine
      · exact ih fine

/-- What follows a piece that is refused is not taken in. -/
theorem run_append_of_fault {error : Frame.Error}
    (wrong : (framer.run tokens pieces).fault = some error) (later : List Bytes) :
    framer.run tokens (pieces ++ later) = framer.run tokens pieces := by
  induction pieces generalizing framer tokens with
  | nil => cases wrong
  | cons first pieces ih =>
      rw [run] at wrong
      rw [List.cons_append, run, run]
      split at wrong
      · rfl
      · exact ih wrong

theorem run_concat (fine : (framer.run tokens pieces).fault = none) (piece : Bytes) :
    framer.run tokens (pieces ++ [piece]) =
      let next := (framer.run tokens pieces).framer.receive piece
      { next with tokens := (framer.run tokens pieces).tokens ++ next.tokens } := by
  rw [run_append fine]
  simp only [run]
  split <;> simp_all

/-- A stream that goes wrong does so with the first piece that is refused. -/
theorem exists_refused {error : Frame.Error}
    (wrong : (framer.run tokens pieces).fault = some error) :
    ∃ before refused after, pieces = before ++ refused :: after ∧
      (framer.run tokens before).fault = none ∧
      ((framer.run tokens before).framer.receive refused).fault = some error := by
  induction pieces generalizing framer tokens with
  | nil => cases wrong
  | cons piece pieces ih =>
      rw [run] at wrong
      cases fault : (framer.receive piece).fault with
      | some cause =>
          simp only [fault] at wrong
          exact ⟨[], piece, pieces, rfl, rfl, fault.trans wrong⟩
      | none =>
          simp only [fault] at wrong
          rcases ih wrong with ⟨before, refused, after, rfl, fine, cause⟩
          refine ⟨piece :: before, refused, after, rfl, ?_, ?_⟩
          · simpa only [run, fault] using fine
          · simpa only [run, fault] using cause

theorem prefix_tokens_run (framer : Framer) (tokens pieces : List Bytes) :
    tokens <+: (framer.run tokens pieces).tokens := by
  induction pieces generalizing framer tokens with
  | nil => exact List.prefix_refl tokens
  | cons piece pieces ih =>
      rw [run]
      split
      · exact List.prefix_append _ _
      · exact (List.prefix_append _ _).trans (ih _ _)

end Append

section Crash

theorem maxToken_receive (framer : Framer) (piece : Bytes) :
    (framer.receive piece).framer.maxToken = framer.maxToken := by
  rw [receive]
  split <;> rfl

theorem receive_ne_crash (headroom : Frame.Headroom framer.maxToken) (piece : Bytes) :
    (framer.receive piece).fault ≠ some .crash := by
  rw [receive]
  cases refused : (framer.feed piece).overflow? with
  | some error =>
      rcases overflow?_eq_some refused with ⟨size, limit, rfl⟩
      exact nofun
  | none => exact fun crash => Frame.scan_ne_crash headroom _ (scan_pending_of_fault crash)

theorem run_ne_crash (headroom : Frame.Headroom framer.maxToken) (tokens pieces : List Bytes) :
    (framer.run tokens pieces).fault ≠ some .crash := by
  induction pieces generalizing framer tokens with
  | nil => exact nofun
  | cons piece pieces ih =>
      simp only [run]
      split
      · exact receive_ne_crash headroom piece
      · exact ih (by rwa [maxToken_receive]) _

end Crash

/-- A framer gets as far with the pieces of a stream as with the whole of it. -/
theorem run_agrees_whole (waits : Frame.scan framer.maxToken framer.pending = .incomplete)
    (tokens : List Bytes) {pieces : List Bytes} (fits : (framer.run tokens pieces).Fits) :
    (framer.run tokens pieces).Agrees (framer.whole tokens pieces.flatten) := by
  induction pieces generalizing framer tokens with
  | nil =>
      have alone : framer.whole tokens [] = ⟨tokens, none, framer⟩ := by
        rw [whole, List.append_nil, drainFrom_of_incomplete waits, List.reverse_reverse]
      rw [List.flatten_nil, alone]
      exact ⟨rfl, rfl, fun _ => rfl⟩
  | cons piece pieces ih =>
      rw [List.flatten_cons]
      simp only [run, receive] at fits ⊢
      cases refused : (framer.feed piece).overflow? with
      | some error =>
          simp only [refused] at fits
          rcases overflow?_eq_some refused with ⟨size, limit, rfl⟩
          exact absurd rfl (fits size limit)
      | none =>
          simp only [refused] at fits ⊢
          cases fault : (framer.feed piece).drained.fault with
          | some error => exact agrees_whole_of_fault fault tokens pieces.flatten
          | none =>
              simp only [fault] at fits ⊢
              rw [whole_append fault]
              exact ih (scan_pending_drainFrom fault) _ fits

/--
However a stream is cut into pieces, a new framer for any limits, behind any tokens, ends with the
same tokens; and either the same thing is wrong, up to the bytes that are quoted, or nothing is
wrong and the same bytes wait.  Only the pieces must not make too many bytes wait.  What is wrong is
told, unless the limit is so close to the largest number of 64 bits that a length and its line break
do not fit between them; then the framer may crash instead, and it does so in all ways of cutting or
in none.
-/
theorem run_agrees_of_flatten_eq (limits : Limits) (tokens : List Bytes)
    {pieces others : List Bytes} (same : pieces.flatten = others.flatten)
    (fits : ((ofLimits limits).run tokens pieces).Fits)
    (othersFit : ((ofLimits limits).run tokens others).Fits) :
    ((ofLimits limits).run tokens pieces).Agrees ((ofLimits limits).run tokens others) ∧
      (((ofLimits limits).run tokens pieces).fault = some .crash ↔
        ((ofLimits limits).run tokens others).fault = some .crash) ∧
      (Frame.Headroom limits.maxToken →
        ((ofLimits limits).run tokens pieces).fault ≠ some .crash) := by
  have waits : Frame.scan (ofLimits limits).maxToken (ofLimits limits).pending = .incomplete := rfl
  have first := run_agrees_whole waits tokens fits
  rw [same] at first
  have agrees := first.trans (run_agrees_whole waits tokens othersFit).symm
  exact ⟨agrees, agrees.fault_eq_crash_iff, fun headroom => run_ne_crash headroom tokens pieces⟩

/-- Whether the break behind a length of too many digits arrives with it or after it does not
matter. -/
theorem run_agrees_of_length_too_long :
    let frame : Bytes := [49, 13, 10, 65]
    let length : Bytes := List.replicate 22 55
    let halves := (ofLimits {}).run [] [frame ++ length, [13, 10]]
    let whole := (ofLimits {}).run [] [frame ++ length ++ [13, 10]]
    [frame ++ length, [13, 10]].flatten = [frame ++ length ++ [13, 10]].flatten ∧
      halves.Fits ∧ whole.Fits ∧ halves.Agrees whole ∧ halves.tokens = [[65]] ∧
      halves.fault ≠ whole.fault := by
  intro frame length halves whole
  have halvesFault : halves.fault = some (.invalidLength "77777777777777777777") := by
    decide +kernel
  have wholeFault : whole.fault = some (.invalidLength "7777777777777777777777") := by
    decide +kernel
  have halvesFit : halves.Fits := by
    intro size limit
    simp [halvesFault]
  have wholeFits : whole.Fits := by
    intro size limit
    simp [wholeFault]
  have same : [frame ++ length, [13, 10]].flatten = [frame ++ length ++ [13, 10]].flatten := rfl
  have agrees := run_agrees_of_flatten_eq {} [] same halvesFit wholeFits
  exact ⟨same, halvesFit, wholeFits, agrees.1, by decide +kernel, by decide +kernel⟩

/-- With the largest limit there is, the largest length ends all ways of cutting the stream, and
nothing is told. -/
theorem run_crashes_at_largest_length :
    let limits : Limits := { maxKeyLength := 6148914691236517205, maxValueLength := 0 }
    let length := Bytes.ofText "18446744073709551615"
    let halves := (ofLimits limits).run [] [length ++ [13], [10]]
    let whole := (ofLimits limits).run [] [length ++ Bytes.crlf]
    [length ++ [13], [10]].flatten = [length ++ Bytes.crlf].flatten ∧
      halves.Fits ∧ whole.Fits ∧ halves.fault = some .crash ∧ whole.fault = some .crash := by
  intro limits length halves whole
  have halvesFault : halves.fault = some .crash := by decide +kernel
  have wholeFault : whole.fault = some .crash := by decide +kernel
  refine ⟨by decide +kernel, ?_, ?_, halvesFault, wholeFault⟩ <;> intro size limit
  · simp [halvesFault]
  · simp [wholeFault]

end Run

end Larder.Framer
