import Larder.Engine
import Larder.Proofs.Registry
import Larder.Proofs.Stash.Answers

/-!
# Commands and the stashes that they are about

Most commands are about one stash.  What such a command asks of it is one call, and whatever the
stash becomes by that call takes its place in the registry, also when the client is told of an
error.  So a command that is told an error has found a stash that the call leaves as it is.
-/

namespace Larder

namespace Command

/-- The name of the stash that a command looks at or changes. -/
def target? : Command → Option String
  | .get _ name | .set _ _ _ name | .delete _ name | .expire _ _ name | .info name =>
    some (name.getD Registry.defaultName)
  | .ping | .create .. | .drop .. | .stats => none

/-- What a command asks of a stash. -/
def call? (readOnly : Bool) : Command → Option Stash.Call
  | .get key _ => some (if readOnly then .peek key else .get key)
  | .set key value none _ => some (.set key value)
  | .set key value (some ttl) _ => some (.setWithTtl key value ttl)
  | .delete key _ => some (.delete key)
  | .expire key ttl _ => some (.updateTtl key ttl)
  | _ => none

/-- What a client is told when a stash gives an answer. -/
def reply : Command → Stash.Answer → Response
  | .expire .., .flag false => .error Engine.Failure.keyNotFound.code
  | _, .value found => Engine.lookedUp found
  | _, _ => .ok

end Command

namespace Stash

/-- What a client is told whose command is about the stash. -/
def told (stash : Stash) (now : Nat) (readOnly : Bool) (command : Command) : Response :=
  match command.call? readOnly with
  | some call =>
    match stash.respond now call with
    | .ok (answer, _) => command.reply answer
    | .error error => .error error.message
  | none =>
    match stash.info with
    | .ok text => .text text
    | .error error => .error error.message

/-- What becomes of a stash by a command that is about it. -/
def leftBy (stash : Stash) (now : Nat) (readOnly : Bool) (command : Command) : Stash :=
  match command.call? readOnly with
  | some call => stash.after now call
  | none => stash

end Stash

/-- A lifetime that is not given leaves the stash. -/
theorem Stash.eq_of_updateTtl {stash next : Stash} {now ttl : Nat} {key : Bytes}
    (refused : stash.updateTtl now key ttl = .ok (false, next)) : next = stash := by
  cases opened : stash.contents with
  | none =>
      simp only [updateTtl, open?, opened] at refused
      cases refused
  | some contents =>
      rw [updateTtl_of_open opened] at refused
      split at refused <;> cases refused
      rfl

/-- A stash that answers with an error stays as it is. -/
theorem Stash.leftBy_of_error {stash : Stash} {now : Nat} {readOnly : Bool} {command : Command}
    {code : String} (refused : stash.told now readOnly command = .error code) :
    stash.leftBy now readOnly command = stash := by
  rw [told] at refused
  rw [leftBy]
  cases asked : command.call? readOnly with
  | none => rfl
  | some call =>
      simp only [asked] at refused ⊢
      rw [after]
      cases answered : stash.respond now call with
      | error error => rfl
      | ok outcome =>
          rcases outcome with ⟨answer, next⟩
          simp only [answered, Command.reply] at refused ⊢
          split at refused
          · next key ttl named =>
            -- Only a lifetime that was not given is told as an error.
            cases asked
            simp only [respond, bind, Except.bind] at answered
            cases updated : stash.updateTtl now key ttl with
            | error error =>
                rw [updated] at answered
                cases answered
            | ok outcome =>
                rcases outcome with ⟨renewed, rest⟩
                rw [updated] at answered
                cases answered
                exact eq_of_updateTtl updated
          · next found =>
            cases found <;> cases refused
          · cases refused

namespace Stash

variable {stash : Stash} {contents : Contents} (opened : stash.contents = some contents)
  (now : Nat) (readOnly : Bool) (key : Bytes) (name : Option String)

include opened

/-- A client is told the value that a key has, whether or not the connection may write. -/
theorem told_get : stash.told now readOnly (.get key name) =
    Engine.lookedUp ((contents.live? now key).map Entry.value) := by
  have peeked := peek_eq_live? opened now key
  cases readOnly with
  | true => simp [told, Command.call?, respond, peeked, bind, Except.bind, pure, Except.pure,
      Command.reply]
  | false =>
      have got := stash.map_fst_get now key
      rw [peeked] at got
      cases found : stash.get now key with
      | error error =>
          rw [found] at got
          cases got
      | ok outcome =>
          rw [found] at got
          have same : outcome.1 = (contents.live? now key).map Entry.value := Except.ok.inj got
          simp [told, Command.call?, respond, found, bind, Except.bind, pure, Except.pure,
            Command.reply, same]

theorem told_set (value : Bytes) (ttl : Option Nat) :
    stash.told now readOnly (.set key value ttl name) = .ok := by
  cases ttl with
  | none =>
      simp only [told, Command.call?, respond, set_of_open opened, bind, Except.bind, pure,
        Except.pure]
      rfl
  | some ttl =>
      simp only [told, Command.call?, respond, setWithTtl_of_open opened, bind, Except.bind, pure,
        Except.pure]
      rfl

/-- A client is not told whether there was anything to delete. -/
theorem told_delete : stash.told now readOnly (.delete key name) = .ok := by
  simp only [told, Command.call?, respond, delete_of_open opened, bind, Except.bind, pure,
    Except.pure]
  rfl

theorem told_expire (ttl : Nat) : stash.told now readOnly (.expire key ttl name) =
    if (contents.live? now key).isSome then .ok else .error Engine.Failure.keyNotFound.code := by
  simp only [told, Command.call?, respond, updateTtl_of_open opened, Contents.isSome_live?]
  cases contents.values.contains key && !contents.isExpired now key <;> rfl

/-- The only error that a client is told about an open stash is that there is no such key. -/
theorem code_of_told {command : Command} {code : String}
    (refused : stash.told now readOnly command = .error code) :
    code = Engine.Failure.keyNotFound.code := by
  cases command with
  | get key named =>
      rw [told_get opened] at refused
      cases found : (contents.live? now key).map Entry.value <;> rw [found] at refused <;>
        cases refused
  | set key value ttl named =>
      rw [told_set opened] at refused
      cases refused
  | delete key named =>
      rw [told_delete opened] at refused
      cases refused
  | expire key ttl named =>
      rw [told_expire opened] at refused
      split at refused <;> cases refused
      rfl
  | ping | create | drop | info | stats =>
      simp only [told, Command.call?, info, open?, opened] at refused
      cases refused

end Stash

namespace Engine

variable {engine : Engine} {clock : Clock} {readOnly : Bool} {command : Command} {name : String}
  {handle : Handle} {stash : Stash}

theorem target_of_absent {named : Option String}
    (absent : engine.registry.find? (named.getD Registry.defaultName) = none) :
    target engine.registry named = .error (.registry .notFound) := by
  rw [Registry.find?] at absent
  simp only [target, bind, Option.bind] at absent ⊢
  cases led : engine.registry.handle? (named.getD Registry.defaultName) with
  | none => rfl
  | some handle =>
      simp only [led] at absent
      simp only [absent]

theorem target_of_found {named : Option String}
    (led : engine.registry.names.get? (named.getD Registry.defaultName) = some handle)
    (found : engine.registry.stashes[handle]? = some stash) :
    target engine.registry named = .ok (handle, stash) := by
  simp only [target, Registry.handle?, Registry.stash?, led, bind, Option.bind, found]
  rfl

theorem ask_of_absent {named : Option String} {question : Stash → Except Failure Response × Stash}
    (absent : engine.registry.find? (named.getD Registry.defaultName) = none) :
    ask engine.registry named question = (.error (.registry .notFound), engine.registry) := by
  rw [ask, target_of_absent absent]

/-- A stash that is registered is asked, and what it is then takes its place. -/
theorem ask_of_found {named : Option String} {question : Stash → Except Failure Response × Stash}
    (led : engine.registry.names.get? (named.getD Registry.defaultName) = some handle)
    (found : engine.registry.stashes[handle]? = some stash) :
    ask engine.registry named question =
      ((question stash).1, engine.registry.put handle (question stash).2) := by
  rw [ask, target_of_found led found]

/-- A command about a stash that is not registered. -/
theorem execute_of_absent (about : command.target? = some name)
    (absent : engine.registry.find? name = none) :
    engine.execute clock readOnly command =
      (.error Registry.Error.notFound.message, engine) := by
  cases command <;> cases about <;>
    simp only [execute, perform, ask_of_absent absent] <;> rfl

/-- A command about a stash that is registered: the stash takes what becomes of it. -/
theorem execute_of_found (about : command.target? = some name)
    (led : engine.registry.names.get? name = some handle)
    (found : engine.registry.stashes[handle]? = some stash) :
    engine.execute clock readOnly command =
      (stash.told clock.now readOnly command,
        { engine with
          registry := engine.registry.put handle (stash.leftBy clock.now readOnly command) }) := by
  cases command with
  | ping | create | drop | stats => cases about
  | get key named =>
      cases about
      simp only [execute, perform, ask_of_found led found, Stash.told, Stash.leftBy,
        Command.call?, Stash.after]
      cases readOnly with
      | true =>
          simp only [if_true, Stash.respond, bind, Except.bind, pure, Except.pure]
          cases stash.peek clock.now key <;> rfl
      | false =>
          simp only [if_neg Bool.false_ne_true, Stash.respond, bind, Except.bind, pure,
            Except.pure]
          cases stash.get clock.now key <;> rfl
  | set key value ttl named =>
      cases about
      simp only [execute, perform, ask_of_found led found, Stash.told, Stash.leftBy]
      cases ttl with
      | none =>
          simp only [Command.call?, Stash.after, Stash.respond, bind, Except.bind, pure,
            Except.pure]
          cases stash.set clock.now key value <;> rfl
      | some ttl =>
          simp only [Command.call?, Stash.after, Stash.respond, bind, Except.bind, pure,
            Except.pure]
          cases stash.setWithTtl clock.now key value ttl <;> rfl
  | delete key named =>
      cases about
      simp only [execute, perform, ask_of_found led found, Stash.told, Stash.leftBy,
        Command.call?, Stash.after, Stash.respond, bind, Except.bind, pure, Except.pure]
      cases stash.delete key <;> rfl
  | expire key ttl named =>
      cases about
      simp only [execute, perform, ask_of_found led found, Stash.told, Stash.leftBy,
        Command.call?, Stash.after, Stash.respond, bind, Except.bind, pure, Except.pure]
      cases stash.updateTtl clock.now key ttl with
      | error error => rfl
      | ok outcome =>
          -- The stash takes its place also if there is no such key.
          rcases outcome with ⟨renewed, next⟩
          cases renewed <;> rfl
  | info named =>
      cases about
      simp only [execute, perform, ask_of_found led found, Stash.told, Stash.leftBy,
        Command.call?]
      cases stash.info <;> rfl

/-- Where no stash is created, what the registry is then is what it was. -/
theorem execute_create (name : String) (options : Command.CreateOptions) :
    engine.execute clock readOnly (.create name options) =
      match engine.registry.create clock.now name (requestedOptions engine.registry options) with
      | (.ok (), registry) => (.ok, { engine with registry })
      | (.error error, _) => (.error error.message, engine) := by
  simp only [execute, perform]
  rcases created : engine.registry.create clock.now name
    (requestedOptions engine.registry options) with ⟨error | _, registry⟩
  · obtain rfl := Registry.eq_of_create_error created
    rfl
  · rfl

/-- Where no stash is dropped, what the registry is then is what it was. -/
theorem execute_drop (name : String) :
    engine.execute clock readOnly (.drop name) =
      match engine.registry.drop name with
      | (.ok (), registry) => (.ok, { engine with registry })
      | (.error error, _) => (.error error.message, engine) := by
  simp only [execute, perform]
  rcases dropped : engine.registry.drop name with ⟨error | _, registry⟩
  · obtain rfl := Registry.eq_of_drop_error dropped
    rfl
  · rfl

end Engine

end Larder
