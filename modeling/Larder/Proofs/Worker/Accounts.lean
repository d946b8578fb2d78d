import Larder.Proofs.Engine.ByteCounts
import Larder.Proofs.Framing.Pieces
import Larder.Proofs.Worker.Pool

/-!
# Nothing is lost on the way to the worker

In every pool that comes of new connections, the tokens that a connection framed are those that the
worker took off its queues, followed by those that wait in exactly one place.  What was sent to the
client is what its own requests led to.  The engine is as if the requests had been served one after
another, in the order in which they were posted.
-/

namespace Larder

/-- The engine after some requests are served one after another. -/
def Engine.applied {Peer : Type} (engine : Engine) (services : List (Service Peer)) : Engine :=
  services.foldl
    (fun engine service => (engine.serve service.clock service.letter.request).2) engine

section Serve

variable {Peer : Type} {engine other : Engine}

theorem Engine.applied_concat (engine : Engine) (services : List (Service Peer))
    (service : Service Peer) :
    engine.applied (services ++ [service]) =
      ((engine.applied services).serve service.clock service.letter.request).2 := by
  simp [applied]

/-- How many bytes were read and written is of no consequence to what is served. -/
theorem Engine.serve_alike (alike : engine.withoutBytes = other.withoutBytes) (clock : Clock)
    (request : Request) :
    (engine.serve clock request).2.withoutBytes = (other.serve clock request).2.withoutBytes := by
  cases request with
  | execute tokens =>
      have asks : Command.statistics ∈ tokens → True := fun _ => trivial
      exact (handleFrom_alike alike asks .nil).2.1
  | sweep =>
      rw [withoutBytes_eq_iff] at alike ⊢
      rcases alike with ⟨registry, limits, counters⟩
      simp only [Counters.withoutBytes, Counters.mk.injEq] at counters
      simp [serve, sweep, registry, limits, Counters.swept, Counters.withoutBytes, counters]

/-- What is taken off a queue and what is left make up the queue. -/
theorem Service.tokens_eq (service : Service Peer) :
    service.letter.tokens = service.consumed ++ service.handled.left := by
  rcases @Engine.left_suffix service.engine service.clock false service.letter.tokens with
    ⟨taken, whole⟩
  have whole : taken ++ service.handled.left = service.letter.tokens := whole
  rw [consumed, ← whole, List.length_append, Nat.add_sub_cancel, List.take_left]

end Serve

/-- Where the tokens of a connection wait depends on what it waits for. -/
def Caller.Placed {Peer : Type} (caller : Caller) (flying : List (Letter Peer)) : Prop :=
  match caller.stage with
  | .reading | .handing | .refused _ => flying = []
  | .waiting => caller.connection.queue = [] ∧ flying.length = 1
  | .answered _ _ => caller.connection.queue = [] ∧ flying = []

/-- What a connection framed and sent, against its requests that are in the channel and those that
were served. -/
structure Caller.Accounts {Peer : Type} (first : Framer) (caller : Caller)
    (flying : List (Letter Peer)) (own : List (Service Peer)) : Prop where
  tokens : (first.run [] caller.pieces).tokens = own.flatMap Service.consumed ++
    (caller.connection.queue ++ flying.flatMap Letter.tokens ++ caller.replied)
  sent : caller.output ++ caller.undelivered = own.flatMap Service.frames ++ caller.farewell
  placed : caller.Placed flying
  framer : (∀ error, caller.stage ≠ .refused error) →
    (first.run [] caller.pieces).fault = none ∧
      (first.run [] caller.pieces).framer = caller.connection.framer

namespace Caller.Accounts

variable {Peer : Type} {first : Framer} {caller : Caller} {flying : List (Letter Peer)}
  {own : List (Service Peer)}

theorem start (first : Framer) (readOnly : Bool) :
    Accounts first { connection := { readOnly, framer := first } } ([] : List (Letter Peer)) [] :=
  ⟨rfl, rfl, rfl, fun _ => ⟨rfl, rfl⟩⟩

theorem run_concat (accounts : Accounts first caller flying own) (reading : caller.stage = .reading)
    (piece : Bytes) :
    first.run [] (caller.pieces ++ [piece]) =
      let next := caller.connection.framer.receive piece
      { next with tokens := (first.run [] caller.pieces).tokens ++ next.tokens } := by
  rcases accounts.framer (by simp [reading]) with ⟨fine, framer⟩
  rw [Framer.run_concat fine, framer]

theorem nothing_flying (accounts : Accounts first caller flying own)
    (stage : caller.stage = .reading ∨ caller.stage = .handing) : flying = [] := by
  rcases stage with stage | stage <;> simpa [Placed, stage] using accounts.placed

section Read

variable {piece : Bytes}

theorem tokens_concat (accounts : Accounts first caller flying own)
    (reading : caller.stage = .reading) (piece : Bytes) :
    (first.run [] (caller.pieces ++ [piece])).tokens = own.flatMap Service.consumed ++
      (caller.framed piece).queue := by
  rw [accounts.run_concat reading, accounts.tokens]
  simp [replied, reading, accounts.nothing_flying (.inl reading), Caller.framed]

theorem output_of_reading (accounts : Accounts first caller flying own)
    (reading : caller.stage = .reading) : caller.output = own.flatMap Service.frames := by
  simpa [undelivered, farewell, reading] using accounts.sent

theorem read_of_fault (accounts : Accounts first caller flying own)
    (reading : caller.stage = .reading) (engine : Engine) (error : Frame.Error) :
    Accounts first
      { connection := caller.framed piece
        pieces := caller.pieces ++ [piece]
        stage := .refused error
        output := caller.output ++ ((caller.framed piece).refuse engine error).output }
      flying own := by
  have none := accounts.nothing_flying (.inl reading)
  refine ⟨?_, ?_, none, ?_⟩
  · simpa [none, replied] using accounts.tokens_concat reading piece
  · rw [accounts.output_of_reading reading]
    simp [undelivered, farewell, Connection.refuse, Connection.Outcome.send]
  · intro fine
    exact absurd rfl (fine error)

theorem read_of_fine (accounts : Accounts first caller flying own)
    (reading : caller.stage = .reading)
    (fine : (caller.connection.framer.receive piece).fault = none) :
    Accounts first
      { caller with
        connection := caller.framed piece
        pieces := caller.pieces ++ [piece]
        stage := if (caller.framed piece).queue = [] then .reading else .handing } flying own := by
  have none := accounts.nothing_flying (.inl reading)
  have framer : (first.run [] (caller.pieces ++ [piece])).fault = Option.none ∧
      (first.run [] (caller.pieces ++ [piece])).framer = (caller.framed piece).framer := by
    rw [accounts.run_concat reading]
    exact ⟨fine, rfl⟩
  refine ⟨?_, ?_, ?_, fun _ => framer⟩
  · rw [accounts.tokens_concat reading]
    split <;> simp [none, replied]
  · rw [accounts.output_of_reading reading]
    split <;> simp [undelivered, farewell]
  · split <;> exact none

end Read

theorem hand {peer : Peer} (accounts : Accounts first caller flying own)
    (handing : caller.stage = .handing) :
    Accounts first
      { caller with connection := { caller.connection with queue := [] }, stage := .waiting }
      (flying ++ [.queue peer caller.connection.queue]) own := by
  have none := accounts.nothing_flying (.inr handing)
  refine ⟨?_, ?_, ?_, fun _ => accounts.framer (by simp [handing])⟩
  · simpa [none, replied, handing, Letter.tokens] using accounts.tokens
  · simpa [undelivered, farewell, handing] using accounts.sent
  · simp [Placed, none]

theorem waiting_of_flying {letter : Letter Peer} {others : List (Letter Peer)}
    (accounts : Accounts first caller flying own) (next : flying = letter :: others) :
    caller.stage = .waiting ∧ caller.connection.queue = [] ∧ others = [] := by
  have placed := accounts.placed
  cases stage : caller.stage <;> simp_all [Placed]

/-- The worker serves what a connection handed over. -/
theorem serve {service : Service Peer} {others : List (Letter Peer)}
    (accounts : Accounts first caller flying own) (next : flying = service.letter :: others) :
    Accounts first
      { caller with stage := .answered service.handled.left service.handled.output }
      others (own ++ [service]) := by
  rcases accounts.waiting_of_flying next with ⟨waiting, queue, rfl⟩
  refine ⟨?_, ?_, ⟨queue, rfl⟩, fun _ => accounts.framer (by simp [waiting])⟩
  · have tokens := accounts.tokens
    rw [next, replied, waiting, queue] at tokens
    simpa [replied, queue, service.tokens_eq] using tokens
  · have sent := accounts.sent
    simp only [undelivered, farewell, waiting] at sent
    simpa [undelivered, farewell, Service.frames] using sent

theorem deliver {left : List Bytes} {output : Option Bytes}
    (accounts : Accounts first caller flying own)
    (answered : caller.stage = .answered left output) :
    Accounts first
      { caller with
        connection := { caller.connection with queue := left }
        stage := .reading
        output := caller.output ++ output.getD [] } flying own := by
  have placed := accounts.placed
  simp only [Placed, answered] at placed
  refine ⟨?_, ?_, placed.2, fun _ => accounts.framer (by simp [answered])⟩
  · simpa [replied, answered, placed] using accounts.tokens
  · simpa [undelivered, farewell, answered] using accounts.sent

end Caller.Accounts

namespace Pool

variable {Peer : Type} [DecidableEq Peer] {capacity : Nat} {engine : Engine} {pool next : Pool Peer}

/-- The requests are served in the order in which they were posted, on an engine on which nothing
else works. -/
structure Serial (first : Engine) (pool : Pool Peer) : Prop where
  posted : pool.posted = pool.services.map Service.letter ++ pool.channel
  engine : pool.engine.withoutBytes = (first.applied pool.services).withoutBytes
  services : ∀ earlier service, earlier ++ [service] <+: pool.services →
    service.engine.withoutBytes = (first.applied earlier).withoutBytes

namespace Serial

/-- A connection counts bytes and changes nothing else about the engine. -/
theorem change {counting : Engine} (serial : Serial engine pool)
    (alike : counting.withoutBytes = pool.engine.withoutBytes) (peer : Peer) (caller : Caller) :
    Serial engine ({ pool with engine := counting }.change peer caller) :=
  ⟨serial.posted, alike.trans serial.engine, serial.services⟩

theorem read (serial : Serial engine pool) (peer : Peer) (piece : Bytes) :
    Serial engine (pool.read peer piece) := by
  cases fault : ((pool.callers peer).connection.framer.receive piece).fault with
  | some error =>
      rw [read_of_fault fault]
      refine serial.change ?_ peer _
      rfl
  | none =>
      rw [read_of_fine fault]
      refine serial.change ?_ peer _
      rfl

omit [DecidableEq Peer] in
theorem post (serial : Serial engine pool) (letter : Letter Peer) :
    Serial engine (pool.post letter) := by
  refine ⟨?_, serial.engine, serial.services⟩
  simp [Pool.post, serial.posted]

theorem serve (serial : Serial engine pool) {letter : Letter Peer} {others : List (Letter Peer)}
    (clock : Clock) (first : pool.channel = letter :: others) :
    Serial engine (pool.serve clock letter others) := by
  have served : Serial engine
      { pool with
        engine := (pool.engine.serve clock letter.request).2
        channel := others
        services := pool.services ++ [⟨letter, pool.engine, clock⟩] } := by
    refine ⟨?_, ?_, ?_⟩
    · simp [serial.posted, first]
    · rw [Engine.applied_concat]
      exact Engine.serve_alike serial.engine clock letter.request
    · intro earlier service front
      rcases List.prefix_concat_iff.mp front with whole | before
      · rcases List.append_inj' whole rfl with ⟨rfl, same⟩
        cases same
        exact serial.engine
      · exact serial.services earlier service before
  cases letter with
  | queue peer tokens => exact served.change rfl peer _
  | sweep => exact served

theorem deliver (serial : Serial engine pool) (peer : Peer) (left : List Bytes)
    (output : Option Bytes) : Serial engine (pool.deliver peer left output) := by
  cases output with
  | some frames =>
      refine serial.change ?_ peer _
      rfl
  | none => exact serial.change rfl peer _

theorem step (serial : Serial engine pool) (step : Step capacity pool next) :
    Serial engine next := by
  cases step with
  | read => exact serial.read _ _
  | hand => exact (serial.post _).change rfl _ _
  | sweep => exact serial.post _
  | serve clock first => exact serial.serve clock first
  | deliver => exact serial.deliver _ _ _

end Serial

/-- The accounts of all connections. -/
def Balanced (first : Framer) (pool : Pool Peer) : Prop :=
  ∀ peer, (pool.callers peer).Accounts first (pool.flying peer) (pool.servicesOf peer)

section Letters

variable {peer : Peer} {letter : Letter Peer}

theorem flying_post_self (sent : letter.sender? = some peer) :
    (pool.post letter).flying peer = pool.flying peer ++ [letter] := by
  simp [flying, post, List.filter_append, sent]

theorem flying_post_other (sent : letter.sender? ≠ some peer) :
    (pool.post letter).flying peer = pool.flying peer := by
  simp [flying, post, List.filter_append, sent]

end Letters

namespace Balanced

variable {first : Framer} {peer : Peer}

/-- What one connection does leaves the accounts of the others as they are. -/
theorem change {caller : Caller}
    (others : ∀ other, other ≠ peer →
      (pool.callers other).Accounts first (pool.flying other) (pool.servicesOf other))
    (accounts : caller.Accounts first (pool.flying peer) (pool.servicesOf peer)) :
    Balanced first (pool.change peer caller) := by
  intro other
  by_cases same : other = peer
  · subst same
    rw [callers_change_self]
    exact accounts
  · rw [callers_change_of_ne same]
    exact others other same

theorem read (balanced : Balanced first pool) (reading : (pool.callers peer).stage = .reading)
    (piece : Bytes) : Balanced first (pool.read peer piece) := by
  cases fault : ((pool.callers peer).connection.framer.receive piece).fault with
  | some error =>
      rw [read_of_fault fault]
      exact change (fun other _ => balanced other) ((balanced peer).read_of_fault reading _ error)
  | none =>
      rw [read_of_fine fault]
      exact change (fun other _ => balanced other) ((balanced peer).read_of_fine reading fault)

theorem hand (balanced : Balanced first pool) (handing : (pool.callers peer).stage = .handing) :
    Balanced first (pool.hand peer) := by
  apply change
  · intro other another
    rw [flying_post_other (by simpa [Letter.sender?] using another.symm)]
    exact balanced other
  · rw [flying_post_self rfl]
    exact (balanced peer).hand handing

theorem sweep (balanced : Balanced first pool) : Balanced first (pool.post .sweep) := by
  intro other
  rw [flying_post_other (by simp [Letter.sender?])]
  exact balanced other

theorem serve (balanced : Balanced first pool) {letter : Letter Peer}
    {others : List (Letter Peer)} (clock : Clock) (channel : pool.channel = letter :: others) :
    Balanced first (pool.serve clock letter others) := by
  cases letter with
  | sweep =>
      intro other
      have accounts := balanced other
      rw [serve_sweep]
      simpa [flying, servicesOf, channel, Letter.sender?, List.filter_append] using accounts
  | queue peer tokens =>
      rw [serve_queue]
      apply change
      · intro other another
        have accounts := balanced other
        simpa [flying, servicesOf, channel, Letter.sender?, another.symm] using accounts
      · have accounts := balanced peer
        have flying : pool.flying peer =
            .queue peer tokens :: others.filter fun letter => letter.sender? = some peer := by
          simp [Pool.flying, channel, Letter.sender?]
        have served := @Caller.Accounts.serve _ _ _ _ _
          ⟨.queue peer tokens, pool.engine, clock⟩ _ (balanced peer) flying
        simpa [Pool.flying, servicesOf, Letter.sender?, List.filter_append] using served

theorem deliver (balanced : Balanced first pool) {left : List Bytes} {output : Option Bytes}
    (answered : (pool.callers peer).stage = .answered left output) :
    Balanced first (pool.deliver peer left output) := by
  have accounts := (balanced peer).deliver answered
  cases output with
  | some frames => exact change (fun other _ => balanced other) accounts
  | none => exact change (fun other _ => balanced other) accounts

theorem step (balanced : Balanced first pool) (step : Step capacity pool next) :
    Balanced first next := by
  cases step with
  | read reading => exact balanced.read reading _
  | hand handing => exact balanced.hand handing
  | sweep => exact balanced.sweep
  | serve clock channel => exact balanced.serve clock channel
  | deliver answered => exact balanced.deliver answered

end Balanced

theorem balanced_start (engine : Engine) :
    Balanced (.ofLimits engine.limits) (start engine : Pool Peer) :=
  fun _ => .start _ false

omit [DecidableEq Peer] in
theorem serial_start (engine : Engine) : Serial engine (start engine : Pool Peer) := by
  refine ⟨rfl, rfl, ?_⟩
  intro earlier service front
  simp [start] at front

theorem kept_by_run (reached : Reaches capacity (start engine) pool) :
    Balanced (.ofLimits engine.limits) pool ∧ Serial engine pool := by
  induction reached with
  | refl => exact ⟨balanced_start engine, serial_start engine⟩
  | tail _ step ih => exact ⟨ih.1.step step, ih.2.step step⟩

/--
New connections share a worker.  Whatever they read, hand over and are told, in whatever order this
happens and sweeps are asked for, the tokens that a connection framed so far are those that were
taken off the queues served for it, followed by those that wait; these are in its queue, in its one
request in the channel, or in the reply that it has not taken.  What was sent to the client, with
the frames in that reply, are the frames that its own requests led to, and at last a word to a
client whose bytes could not be framed.  Requests are served in the order in which they were posted,
and but for numbers of bytes the engine is the one on which they are served one after another.
-/
theorem worker_loses_nothing (reached : Reaches capacity (start engine) pool) :
    (∀ peer,
      let caller := pool.callers peer
      let own := pool.servicesOf peer
      ((Framer.ofLimits engine.limits).run [] caller.pieces).tokens =
          own.flatMap Service.consumed ++ pool.waiting peer ∧
        caller.output ++ caller.undelivered = own.flatMap Service.frames ++ caller.farewell ∧
        caller.Placed (pool.flying peer)) ∧
      (∀ service ∈ pool.services,
        service.letter.tokens = service.consumed ++ service.handled.left) ∧
      pool.posted = pool.services.map Service.letter ++ pool.channel ∧
      (∀ earlier service, earlier ++ [service] <+: pool.services →
        service.engine.withoutBytes = (engine.applied earlier).withoutBytes) ∧
      pool.engine.withoutBytes = (engine.applied pool.services).withoutBytes := by
  rcases kept_by_run reached with ⟨balanced, serial⟩
  refine ⟨?_, fun service _ => service.tokens_eq, serial.posted, serial.services, serial.engine⟩
  intro peer caller own
  exact ⟨(balanced peer).tokens, (balanced peer).sent, (balanced peer).placed⟩

/-- Two connections and a sweep share a channel with room for two.  One of the connections has its
reply, and the reply to the other one, with what is left of its queue, is on the way. -/
theorem worker_loses_nothing_between_two :
    let engine : Engine := { registry := .start 0 1 {} false, limits := {} }
    let ping := Bytes.ofText "4\r\nPING"
    let framed := ((start engine).read false ping).read true (ping ++ Bytes.ofText "3\r\nGET")
    let handed := (framed.hand true).post .sweep
    let others : List (Letter Bool) := [.queue false [Bytes.ofText "PING"]]
    let swept := ((handed.serve ⟨0, 0⟩
      (.queue true [Bytes.ofText "PING", Bytes.ofText "GET"]) [.sweep]).hand false).serve ⟨1, 1⟩
        .sweep others
    let last := (swept.serve ⟨2, 2⟩ (.queue false [Bytes.ofText "PING"]) []).deliver false []
      (some (Bytes.ofText "4\r\nPONG"))
    Reaches 2 (start engine) last ∧ (last.callers false).output = Bytes.ofText "4\r\nPONG" ∧
      (last.callers true).output = [] ∧ last.waiting true = [Bytes.ofText "GET"] ∧
      last.posted = last.services.map Service.letter ++ last.channel ∧
      ∀ peer, ((Framer.ofLimits engine.limits).run [] (last.callers peer).pieces).tokens =
        (last.servicesOf peer).flatMap Service.consumed ++ last.waiting peer := by
  intro engine ping framed handed others swept last
  have reads : Reaches 2 (start engine) framed :=
    (Relation.ReflTransGen.single
      (.read (by decide +kernel) (by decide +kernel) (by decide +kernel))).tail
      (.read (by decide +kernel) (by decide +kernel) (by decide +kernel))
  have hands : Reaches 2 (start engine) handed :=
    (reads.tail (.hand (by decide +kernel) (by decide +kernel))).tail (.sweep (by decide +kernel))
  have sweeps : Reaches 2 (start engine) swept :=
    ((hands.tail (.serve _ (by decide +kernel))).tail
      (.hand (by decide +kernel) (by decide +kernel))).tail (.serve _ (by decide +kernel))
  have reached : Reaches 2 (start engine) last :=
    (sweeps.tail (.serve _ (by decide +kernel))).tail (.deliver (by decide +kernel))
  have kept := worker_loses_nothing reached
  exact ⟨reached, by decide +kernel, by decide +kernel, by decide +kernel, kept.2.2.1,
    fun peer => (kept.1 peer).1⟩

end Pool

end Larder
