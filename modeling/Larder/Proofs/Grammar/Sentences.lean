import Larder.Engine
import Larder.Proofs.Engine.Parsing
import Larder.Proofs.Grammar.Options

/-!
# The sentences of the grammar

Which tokens make up a command, and what command it is.  `Parts` are the tokens that belong to a
command, in order or not; `Carries` says what the parts of a command that is in order stand for.
The grammar accepts those and no others.
-/

namespace Larder.Grammar

variable {verb : Command.Verb} {limits : Limits} {readOnly : Bool}

/-- The tokens that belong to a command.  If its count of options is in order, as many options
follow. -/
structure Parts (verb : Command.Verb) where
  arguments : List Bytes
  /-- The count of options; of no use to a command that takes none. -/
  count : Bytes
  options : List Bytes
  arity : arguments.length = verb.arity
  bare : verb.hasOptions = false → options = []
  announced : ∀ number, Announces count number → verb.hasOptions = true → options.length = number

namespace Parts

variable (parts : Parts verb)

/-- The parts as they are sent. -/
def tokens : List Bytes :=
  Bytes.ofText verb.text ::
    (parts.arguments ++ if verb.hasOptions then parts.count :: parts.options else [])

/-- The count of options, where there is one, is in order. -/
def Counted : Prop :=
  verb.hasOptions = true → Announces parts.count parts.options.length

theorem length_tokens : parts.tokens.length = verb.minTokens + parts.options.length := by
  rw [tokens, Command.Verb.minTokens, ← parts.arity]
  cases optional : verb.hasOptions with
  | false =>
      rw [parts.bare optional]
      simp [Nat.add_comm]
  | true =>
      simp only [if_true, List.length_cons, List.length_append, Bool.toNat_true]
      omega

theorem not_counted_iff :
    ¬parts.Counted ↔ verb.hasOptions = true ∧ ¬∃ number, Announces parts.count number := by
  rw [Counted, Classical.not_imp]
  apply and_congr_right
  intro optional
  apply not_congr
  constructor
  · exact fun announces => ⟨_, announces⟩
  · rintro ⟨number, announces⟩
    exact parts.announced number announces optional ▸ announces

end Parts

/-- The command that arguments and options of a name make up.  Each argument keeps the rules for
it, and so does what each option is last set to. -/
inductive Carries (limits : Limits) (options : List Bytes) :
    Command.Verb → List Bytes → Command → Prop where
  | ping : Carries limits options .ping [] .ping
  | stats : Carries limits options .stats [] .stats
  | info {stash : Option String} (named : Given options .name (Names limits) stash) :
      Carries limits options .info [] (.info stash)
  | get {key : Bytes} {stash : Option String} (short : key.length ≤ limits.maxKeyLength)
      (named : Given options .name (Names limits) stash) :
      Carries limits options .get [key] (.get key stash)
  | delete {key : Bytes} {stash : Option String} (short : key.length ≤ limits.maxKeyLength)
      (named : Given options .name (Names limits) stash) :
      Carries limits options .delete [key] (.delete key stash)
  | set {key value : Bytes} {ttl : Option Nat} {stash : Option String}
      (short : key.length ≤ limits.maxKeyLength) (fits : value.length ≤ limits.maxValueLength)
      (lasts : Given options .ttl (Lasts limits) ttl)
      (named : Given options .name (Names limits) stash) :
      Carries limits options .set [key, value] (.set key value ttl stash)
  | expire {key token : Bytes} {ttl : Nat} {stash : Option String}
      (short : key.length ≤ limits.maxKeyLength) (lasts : Lasts limits token ttl)
      (named : Given options .name (Names limits) stash) :
      Carries limits options .expire [key, token] (.expire key ttl stash)
  | create {token : Bytes} {name : String} {offHeap snapshots : Option Bool} {maxKeys : Option Nat}
      (named : Names limits token name) (placed : Given options .offHeap Says offHeap)
      (bounded : Given options .maxKeys Bounds maxKeys)
      (saved : Given options .snapshots Says snapshots) :
      Carries limits options .create [token] (.create name { offHeap, maxKeys, snapshots })
  | drop {token : Bytes} {name : String} (named : Names limits token name) :
      Carries limits options .drop [token] (.drop name)

/-- The parts are those of a command, and of which. -/
structure Accepted (limits : Limits) (readOnly : Bool) (parts : Parts verb) (command : Command) :
    Prop where
  counted : parts.Counted
  allowed : ¬(readOnly = true ∧ verb.writes = true)
  formed : ∀ token ∈ parts.options, ∃ option, Sets verb.options token option
  carries : Carries limits parts.options verb parts.arguments command

section Building

variable {known : List OptionKey} {tokens : List Bytes} {options : Settings}
  {arguments : List Bytes} {command : Command}

theorem carries_of_build (set : List.Forall₂ (Sets known) tokens options)
    (given : arguments.length = verb.arity)
    (built : build limits verb arguments options = .ok command) :
    Carries limits tokens verb arguments command := by
  have naming {stash : Option String}
      (named : readSetting options .name (readName limits) = .ok stash) :
      Given tokens .name (Names limits) stash :=
    (readSetting_eq_ok_iff readName_eq_ok_iff set).mp named
  cases verb with
  | ping =>
      cases List.length_eq_zero_iff.mp given
      cases built
      exact .ping
  | stats =>
      cases List.length_eq_zero_iff.mp given
      cases built
      exact .stats
  | info =>
      cases List.length_eq_zero_iff.mp given
      rcases exists_of_bind built with ⟨stash, named, built⟩
      cases built
      exact .info (naming named)
  | get =>
      rcases List.length_eq_one_iff.mp given with ⟨key, rfl⟩
      rcases exists_of_bind built with ⟨read, accepted, built⟩
      rcases exists_of_bind built with ⟨stash, named, built⟩
      cases built
      rcases readKey_eq_ok_iff.mp accepted with ⟨rfl, short⟩
      exact .get short (naming named)
  | delete =>
      rcases List.length_eq_one_iff.mp given with ⟨key, rfl⟩
      rcases exists_of_bind built with ⟨read, accepted, built⟩
      rcases exists_of_bind built with ⟨stash, named, built⟩
      cases built
      rcases readKey_eq_ok_iff.mp accepted with ⟨rfl, short⟩
      exact .delete short (naming named)
  | set =>
      rcases List.length_eq_two.mp given with ⟨key, value, rfl⟩
      rcases exists_of_bind built with ⟨readKey, acceptedKey, built⟩
      rcases exists_of_bind built with ⟨readValue, acceptedValue, built⟩
      rcases exists_of_bind built with ⟨ttl, lasts, built⟩
      rcases exists_of_bind built with ⟨stash, named, built⟩
      cases built
      rcases readKey_eq_ok_iff.mp acceptedKey with ⟨rfl, short⟩
      rcases readValue_eq_ok_iff.mp acceptedValue with ⟨rfl, fits⟩
      exact .set short fits ((readSetting_eq_ok_iff readTtl_eq_ok_iff set).mp lasts)
        (naming named)
  | expire =>
      rcases List.length_eq_two.mp given with ⟨key, token, rfl⟩
      rcases exists_of_bind built with ⟨readKey, acceptedKey, built⟩
      rcases exists_of_bind built with ⟨ttl, lasts, built⟩
      rcases exists_of_bind built with ⟨stash, named, built⟩
      cases built
      rcases readKey_eq_ok_iff.mp acceptedKey with ⟨rfl, short⟩
      exact .expire short (readTtl_eq_ok_iff.mp lasts) (naming named)
  | create =>
      rcases List.length_eq_one_iff.mp given with ⟨token, rfl⟩
      rcases exists_of_bind built with ⟨name, named, built⟩
      rcases exists_of_bind built with ⟨offHeap, placed, built⟩
      rcases exists_of_bind built with ⟨maxKeys, bounded, built⟩
      rcases exists_of_bind built with ⟨snapshots, saved, built⟩
      cases built
      exact .create (readName_eq_ok_iff.mp named)
        ((readSetting_eq_ok_iff readBoolean_eq_ok_iff set).mp placed)
        ((readSetting_eq_ok_iff readMaxKeys_eq_ok_iff set).mp bounded)
        ((readSetting_eq_ok_iff readBoolean_eq_ok_iff set).mp saved)
  | drop =>
      rcases List.length_eq_one_iff.mp given with ⟨token, rfl⟩
      rcases exists_of_bind built with ⟨name, named, built⟩
      cases built
      exact .drop (readName_eq_ok_iff.mp named)

theorem build_of_carries (set : List.Forall₂ (Sets known) tokens options)
    (carries : Carries limits tokens verb arguments command) :
    build limits verb arguments options = .ok command := by
  have naming {stash : Option String} (named : Given tokens .name (Names limits) stash) :
      readSetting options .name (readName limits) = .ok stash :=
    (readSetting_eq_ok_iff readName_eq_ok_iff set).mpr named
  have accepts {key : Bytes} (short : key.length ≤ limits.maxKeyLength) :
      readKey limits key = .ok key :=
    readKey_eq_ok_iff.mpr ⟨rfl, short⟩
  cases carries with
  | ping => rfl
  | stats => rfl
  | info named => simp only [build, naming named]; rfl
  | get short named => simp only [build, List.getD_cons_zero, accepts short, naming named]; rfl
  | delete short named => simp only [build, List.getD_cons_zero, accepts short, naming named]; rfl
  | set short fits lasts named =>
      have read := readValue_eq_ok_iff.mpr ⟨rfl, fits⟩
      have lasting := (readSetting_eq_ok_iff readTtl_eq_ok_iff set).mpr lasts
      simp only [build, List.getD_cons_zero, List.getD_cons_succ, accepts short, read, lasting,
        naming named]
      rfl
  | expire short lasts named =>
      have lasting := readTtl_eq_ok_iff.mpr lasts
      simp only [build, List.getD_cons_zero, List.getD_cons_succ, accepts short, lasting,
        naming named]
      rfl
  | create named placed bounded saved =>
      have read := readName_eq_ok_iff.mpr named
      have placing := (readSetting_eq_ok_iff readBoolean_eq_ok_iff set).mpr placed
      have bounding := (readSetting_eq_ok_iff readMaxKeys_eq_ok_iff set).mpr bounded
      have saving := (readSetting_eq_ok_iff readBoolean_eq_ok_iff set).mpr saved
      simp only [build, List.getD_cons_zero, read, placing, bounding, saving]
      rfl
  | drop named =>
      have read := readName_eq_ok_iff.mpr named
      simp only [build, List.getD_cons_zero, read]
      rfl

end Building

section Queues

variable (parts : Parts verb) (more : List Bytes)

theorem extent?_parts :
    extent? verb (parts.tokens ++ more) =
      if verb.hasOptions then (optionCount? parts.count).map (verb.minTokens + ·)
      else some verb.minTokens := by
  rw [extent?]
  cases optional : verb.hasOptions with
  | false => rfl
  | true =>
      have place : (parts.tokens ++ more).getD (1 + verb.arity) [] = parts.count := by
        simp [Parts.tokens, optional, Nat.add_comm 1, ← parts.arity]
      rw [if_pos rfl, if_pos rfl, place]

theorem extent?_of_counted (counted : parts.Counted) :
    extent? verb (parts.tokens ++ more) = some parts.tokens.length := by
  rw [extent?_parts, parts.length_tokens]
  cases optional : verb.hasOptions with
  | false => rw [parts.bare optional]; rfl
  | true => rw [if_pos rfl, optionCount?_eq_some_iff.mpr (counted optional)]; rfl

theorem parse_of_not_counted (uncounted : ¬parts.Counted) :
    parse limits readOnly verb (parts.tokens ++ more) =
      .invalid verb.minTokens .invalidArgCount := by
  rcases parts.not_counted_iff.mp uncounted with ⟨optional, unannounced⟩
  have unread : optionCount? parts.count = none := by
    rw [Option.eq_none_iff_forall_ne_some]
    intro number announced
    exact unannounced ⟨number, optionCount?_eq_some_iff.mp announced⟩
  have enough : ¬(parts.tokens ++ more).length < verb.minTokens := by
    rw [List.length_append, parts.length_tokens]
    omega
  rw [parse, if_neg enough, extent?_parts, if_pos optional, unread]
  rfl

theorem read_tokens :
    read limits verb parts.tokens =
      settings verb.options parts.options >>= build limits verb parts.arguments := by
  have arguments : (parts.tokens.drop 1).take verb.arity = parts.arguments := by
    rw [Parts.tokens, List.drop_one, List.tail_cons, ← parts.arity, List.take_left]
  have options : parts.tokens.drop verb.minTokens = parts.options := by
    rw [Command.Verb.minTokens, ← parts.arity, Parts.tokens]
    cases optional : verb.hasOptions with
    | false => simp [parts.bare optional, Nat.add_comm 1]
    | true => simp [Nat.add_comm 1, ← List.drop_drop]
  rw [read, arguments, options]

theorem parse_of_counted (counted : parts.Counted) :
    parse limits readOnly verb (parts.tokens ++ more) =
      if readOnly && verb.writes then .invalid parts.tokens.length .readOnlyMode
      else
        match settings verb.options parts.options >>= build limits verb parts.arguments with
        | .ok command => .parsed parts.tokens.length command
        | .error error => .invalid parts.tokens.length error := by
  have enough : ¬(parts.tokens ++ more).length < verb.minTokens := by
    rw [List.length_append, parts.length_tokens]
    omega
  have whole : ¬(parts.tokens ++ more).length < parts.tokens.length := by
    rw [List.length_append]
    omega
  rw [parse, if_neg enough, extent?_of_counted parts more counted]
  cases outcome : settings verb.options parts.options >>= build limits verb parts.arguments <;>
    simp only [if_neg whole, List.take_left, read_tokens, outcome]

/-- A command is taken as a whole if all options that are announced are there, and also if their
count is refused and none is there. -/
theorem Parts.consumed_parse (whole : parts.Counted ∨ parts.options = []) :
    (parse limits readOnly verb parts.tokens).consumed = parts.tokens.length := by
  have alone := List.append_nil parts.tokens
  by_cases counted : parts.Counted
  · have verdict := @parse_of_counted verb limits readOnly parts [] counted
    rw [alone] at verdict
    rw [verdict]
    split
    · rfl
    · split <;> rfl
  · have verdict := @parse_of_not_counted verb limits readOnly parts [] counted
    rw [alone] at verdict
    rw [verdict, parts.length_tokens, whole.resolve_left counted]
    rfl

/-- Too few tokens have arrived to say whether they begin with a command: fewer than the name has
at least, or fewer options than are announced. -/
inductive Short (verb : Command.Verb) : List Bytes → Prop where
  | few {queue : List Bytes} (few : queue.length < verb.minTokens) : Short verb queue
  | waiting {arguments following : List Bytes} {count : Bytes} {number : Nat}
      (optional : verb.hasOptions = true) (given : arguments.length = verb.arity)
      (announced : Announces count number) (fewer : following.length < number) :
      Short verb (Bytes.ofText verb.text :: (arguments ++ count :: following))

theorem parse_of_short {queue : List Bytes} (short : Short verb queue) :
    parse limits readOnly verb queue = .incomplete := by
  cases short with
  | few few => rw [parse, if_pos few]
  | @waiting arguments following count number optional given announced fewer =>
      rw [parse]
      split
      · rfl
      have place : (Bytes.ofText verb.text :: (arguments ++ count :: following)).getD
          (1 + verb.arity) [] = count := by
        simp [Nat.add_comm 1, ← given]
      have missing : (Bytes.ofText verb.text :: (arguments ++ count :: following)).length <
          verb.minTokens + number := by
        simp only [List.length_cons, List.length_append, Command.Verb.minTokens, optional,
          Bool.toNat_true, given]
        omega
      rw [extent?, if_pos optional, place, optionCount?_eq_some_iff.mpr announced]
      simp only [Option.map_some, if_pos missing]

/-- Unless too few tokens have arrived, a queue begins with the parts of a command. -/
theorem short_or_parts (verb : Command.Verb) (rest : List Bytes) :
    Short verb (Bytes.ofText verb.text :: rest) ∨
      ∃ (parts : Parts verb) (more : List Bytes),
        Bytes.ofText verb.text :: rest = parts.tokens ++ more := by
  by_cases few : (Bytes.ofText verb.text :: rest).length < verb.minTokens
  · exact .inl (.few few)
  rw [Command.Verb.minTokens, List.length_cons] at few
  have given : (rest.take verb.arity).length = verb.arity := by
    rw [List.length_take]
    omega
  cases optional : verb.hasOptions with
  | false =>
      refine .inr ⟨⟨rest.take verb.arity, [], [], given, fun _ => rfl, ?_⟩, rest.drop verb.arity, ?_⟩
      · intro _ _ other
        rw [optional] at other
        cases other
      · simp [Parts.tokens, optional]
  | true =>
      rw [optional, Bool.toNat_true] at few
      rcases List.exists_cons_of_length_pos (l := rest.drop verb.arity) (by
        rw [List.length_drop]; omega) with ⟨count, following, counted⟩
      have split : rest = rest.take verb.arity ++ count :: following := by
        rw [← counted, List.take_append_drop]
      cases read : optionCount? count with
      | none =>
          refine .inr ⟨⟨rest.take verb.arity, count, [], given, fun _ => rfl, ?_⟩, following, ?_⟩
          · intro number announces
            rw [optionCount?_eq_some_iff.mpr announces] at read
            cases read
          · simpa [Parts.tokens, optional] using split
      | some number =>
          have announced := optionCount?_eq_some_iff.mp read
          by_cases fewer : following.length < number
          · rw [split]
            exact .inl (.waiting optional given announced fewer)
          refine .inr ⟨⟨rest.take verb.arity, count, following.take number, given, ?_, ?_⟩,
            following.drop number, ?_⟩
          · intro bare
            rw [optional] at bare
            cases bare
          · intro other announces _
            rw [optionCount?_eq_some_iff.mpr announces] at read
            rw [List.length_take, Option.some.inj read]
            omega
          · simpa [Parts.tokens, optional] using split

theorem accepted_iff_read (counted : parts.Counted) {command : Command} :
    Accepted limits readOnly parts command ↔
      ¬(readOnly = true ∧ verb.writes = true) ∧
        settings verb.options parts.options >>= build limits verb parts.arguments =
          .ok command := by
  constructor
  · rintro ⟨_, allowed, formed, carries⟩
    rcases forall_sets_iff.mp formed with ⟨options, set⟩
    rw [settings_eq_ok_iff.mpr set]
    exact ⟨allowed, build_of_carries set carries⟩
  · rintro ⟨allowed, readable⟩
    rcases exists_of_bind readable with ⟨options, read, built⟩
    have set := settings_eq_ok_iff.mp read
    exact ⟨counted, allowed, forall_sets_iff.mpr ⟨options, set⟩,
      carries_of_build set parts.arity built⟩

theorem accepted_of_parsed {consumed : Nat} {command : Command}
    (verdict : parse limits readOnly verb (parts.tokens ++ more) = .parsed consumed command) :
    consumed = parts.tokens.length ∧ Accepted limits readOnly parts command := by
  by_cases counted : parts.Counted
  · rw [parse_of_counted parts more counted] at verdict
    split at verdict
    · cases verdict
    next allowed =>
    rw [Bool.and_eq_true] at allowed
    split at verdict
    · next readable =>
      cases verdict
      exact ⟨rfl, (accepted_iff_read parts counted).mpr ⟨allowed, readable⟩⟩
    · cases verdict
  · rw [parse_of_not_counted parts more counted] at verdict
    cases verdict

theorem parsed_of_accepted {command : Command} (accepted : Accepted limits readOnly parts command) :
    parse limits readOnly verb (parts.tokens ++ more) = .parsed parts.tokens.length command := by
  rcases (accepted_iff_read parts accepted.counted).mp accepted with ⟨allowed, readable⟩
  rw [← Bool.and_eq_true] at allowed
  rw [parse_of_counted parts more accepted.counted, if_neg allowed, readable]

theorem exists_refused (counted : parts.Counted)
    (unaccepted : ¬∃ command, Accepted limits readOnly parts command) :
    ∃ error, parse limits readOnly verb (parts.tokens ++ more) =
      .invalid parts.tokens.length error := by
  have verdict : parse limits readOnly verb (parts.tokens ++ more) = _ :=
    parse_of_counted parts more counted
  split at verdict
  · exact ⟨_, verdict⟩
  split at verdict
  · exact absurd ⟨_, (accepted_of_parsed parts more verdict).2⟩ unaccepted
  · exact ⟨_, verdict⟩

/-- What a verdict on a queue says about the queue. -/
inductive Judged (limits : Limits) (readOnly : Bool) (verb : Command.Verb) (queue : List Bytes) :
    Verdict → Prop where
  | waits (short : Short verb queue) : Judged limits readOnly verb queue .incomplete
  | miscounted {parts : Parts verb} {error : Error} (begins : parts.tokens <+: queue)
      (uncounted : ¬parts.Counted) :
      Judged limits readOnly verb queue (.invalid verb.minTokens error)
  | refused {parts : Parts verb} {error : Error} (begins : parts.tokens <+: queue)
      (counted : parts.Counted) (unaccepted : ¬∃ command, Accepted limits readOnly parts command) :
      Judged limits readOnly verb queue (.invalid parts.tokens.length error)
  | taken {parts : Parts verb} {command : Command} (begins : parts.tokens <+: queue)
      (accepted : Accepted limits readOnly parts command) :
      Judged limits readOnly verb queue (.parsed parts.tokens.length command)

theorem judged (limits : Limits) (readOnly : Bool) (verb : Command.Verb) (rest : List Bytes) :
    Judged limits readOnly verb (Bytes.ofText verb.text :: rest)
      (parse limits readOnly verb (Bytes.ofText verb.text :: rest)) := by
  rcases short_or_parts verb rest with short | ⟨parts, more, split⟩
  · rw [parse_of_short short]
    exact .waits short
  rw [split]
  have begins : parts.tokens <+: parts.tokens ++ more := ⟨more, rfl⟩
  by_cases counted : parts.Counted
  · by_cases acceptable : ∃ command, Accepted limits readOnly parts command
    · rcases acceptable with ⟨command, accepted⟩
      rw [parsed_of_accepted parts more accepted]
      exact .taken begins accepted
    · rcases exists_refused parts more counted acceptable with ⟨error, refused⟩
      rw [refused]
      exact .refused begins counted acceptable
  · rw [parse_of_not_counted parts more counted]
    exact .miscounted begins counted

end Queues

/-- The verdict on a queue that begins with the name of a command.  A command is taken exactly if
the queue begins with its parts and they are in order; it stays the same whatever arrives after
it.  The parser waits exactly if too few tokens have arrived.  Otherwise it refuses, and takes the
tokens up to the count if that is out of order and the whole command if it is not. -/
theorem parse_iff_accepted (limits : Limits) (readOnly : Bool) (verb : Command.Verb)
    (rest more : List Bytes) :
    let queue := Bytes.ofText verb.text :: rest
    let verdict := parse limits readOnly verb queue
    (∀ consumed command, verdict = .parsed consumed command ↔
      ∃ parts : Parts verb, parts.tokens <+: queue ∧
        consumed = verb.minTokens + parts.options.length ∧
        Accepted limits readOnly parts command) ∧
    (∀ consumed command, verdict = .parsed consumed command →
      parse limits readOnly verb (queue ++ more) = .parsed consumed command) ∧
    (verdict = .incomplete ↔ Short verb queue) ∧
    ∀ consumed, (∃ error, verdict = .invalid consumed error) ↔
      ∃ parts : Parts verb, parts.tokens <+: queue ∧
        (¬parts.Counted ∧ consumed = verb.minTokens ∨
          parts.Counted ∧ (¬∃ command, Accepted limits readOnly parts command) ∧
            consumed = verb.minTokens + parts.options.length) := by
  intro queue verdict
  have judgement : Judged limits readOnly verb queue verdict := judged limits readOnly verb rest
  refine ⟨?_, ?_, ?_, ?_⟩
  · intro consumed command
    constructor
    · intro parsed
      rw [parsed] at judgement
      cases judgement with
      | @taken parts _ begins accepted => exact ⟨parts, begins, parts.length_tokens, accepted⟩
    · rintro ⟨parts, ⟨following, split⟩, rfl, accepted⟩
      have parsed := parsed_of_accepted parts following accepted
      rwa [split, parts.length_tokens] at parsed
  · intro consumed command parsed
    have complete : verdict ≠ .incomplete := by
      rw [parsed]
      nofun
    exact (parse_append complete more).trans parsed
  · constructor
    · intro incomplete
      rw [incomplete] at judgement
      cases judgement with
      | waits short => exact short
    · exact parse_of_short
  · intro consumed
    constructor
    · rintro ⟨error, invalid⟩
      rw [invalid] at judgement
      cases judgement with
      | @miscounted parts _ begins uncounted => exact ⟨parts, begins, .inl ⟨uncounted, rfl⟩⟩
      | @refused parts _ begins counted unaccepted =>
          exact ⟨parts, begins, .inr ⟨counted, unaccepted, parts.length_tokens⟩⟩
    · rintro ⟨parts, ⟨following, split⟩, ⟨uncounted, rfl⟩ | ⟨counted, unaccepted, rfl⟩⟩
      · have refused : parse limits readOnly verb (parts.tokens ++ following) = _ :=
          parse_of_not_counted parts following uncounted
        rw [split] at refused
        exact ⟨_, refused⟩
      · have refused := exists_refused parts following counted unaccepted
        rwa [split, parts.length_tokens] at refused

end Larder.Grammar
