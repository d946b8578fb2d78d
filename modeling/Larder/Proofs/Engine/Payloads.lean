import Larder.Connection
import Larder.Proofs.Engine.Reached
import Larder.Proofs.Registry.Stored
import Larder.Proofs.Framing.Faults

/-!
# The sizes of payloads

No payload of a response is empty, and none is too long for a client with default limits: values
keep the limits under which they were stored, texts and codes are brief, and what a client is told
whose bytes cannot be framed is bounded by the size of a read.
-/

namespace Larder

/-- Whether a response has a frame that a framer with default limits takes out, even if the rest
of the frame arrives with as many other bytes as are read at once. -/
structure Response.Framed (response : Response) : Prop where
  some : response.payload ≠ []
  roomy : (Frame.encode response.payload).length + Connection.readSize ≤
    ({} : Limits).maxBuffered + 1

namespace Response

section Framed

theorem framed_of_length {response : Response} (some : 1 ≤ response.payload.length)
    (short : response.payload.length ≤ 190000) : response.Framed where
  some := List.length_pos_iff.mp some
  roomy := by
    have room : ({} : Limits).maxBuffered = 197376 := by decide
    have fits : response.payload.length ≤ Word64.largest := Nat.le_trans short (by decide)
    have digits := Frame.length_ofNat_le_maxLengthDigits fits
    rw [Frame.length_encode, room, Connection.readSize]
    rw [Frame.maxLengthDigits] at digits
    omega

theorem framed_value {value : Bytes} (storable : Stash.Storable {} value) :
    (Response.value value).Framed :=
  framed_of_length storable.1 (Nat.le_trans storable.2 (by decide))

theorem framed_error {code : String} (brief : Text.Brief code) : (Response.error code).Framed := by
  have mark : errorMark.length = 6 := rfl
  have short : (Bytes.ofText code).length ≤ 160 := brief
  apply framed_of_length <;> rw [payload, List.length_append, mark] <;> omega

theorem framed_text {part : String} {parts : List String} (some : 1 ≤ (Bytes.ofText part).length)
    (brief : ∀ other ∈ part :: parts, Text.Brief other) (few : parts.length ≤ 1000) :
    (Response.text (String.join (part :: parts))).Framed := by
  have short := Text.length_ofText_join_le brief
  have whole := Bytes.length_ofText_join (part :: parts)
  rw [List.map_cons, List.sum_cons] at whole
  rw [List.length_cons] at short
  apply framed_of_length <;> rw [payload] <;> omega

/-- What is told about bytes that were read at once. -/
theorem framed_fatal {error : Frame.Error}
    (tells : error.Tells (Frame.maxLengthDigits + 1 + Connection.readSize)) :
    (Response.fatal error.message).Framed := by
  have mark : fatalMark.length = 6 := rfl
  have characters := tells.length_message_le
  have bytes := (Bytes.length_ofText_bounds error.message).2
  rw [Frame.maxLengthDigits, Connection.readSize] at characters
  apply framed_of_length <;> rw [payload, List.length_append, mark] <;> omega

theorem framed_ok : Response.ok.Framed :=
  framed_of_length (by decide) (by decide)

theorem framed_pong : Response.pong.Framed :=
  framed_of_length (by decide) (by decide)

theorem framed_null : Response.null.Framed :=
  framed_of_length (by decide) (by decide)

end Framed

end Response

namespace Engine

variable {engine : Engine} {clock : Clock} {readOnly : Bool} {tokens : List Bytes}

section Told

variable {stash : Stash} {contents : Stash.Contents}

theorem framed_info (healthy : stash.Healthy contents) (within : stash.Within {}) {text : String}
    (told : stash.info = .ok text) : (Response.text text).Framed := by
  have word : Word64.largest < 10 ^ 40 := by decide
  have keys := Nat.lt_of_le_of_lt (Nat.le_trans healthy.size_le healthy.bounded) word
  have room := Nat.lt_of_le_of_lt healthy.bounded word
  have timed : contents.expiry.size < 10 ^ 40 := by
    apply Nat.lt_of_le_of_lt _ keys
    apply @FiniteMap.size_le_of_contains _ _ contents.expiry.index
    intro key present
    rcases FiniteMap.contains_eq_true_iff.mp present with ⟨time, known⟩
    exact healthy.coherent.timed key time known
  have name : Text.Brief stash.name := Nat.le_trans within.name (by decide)
  rw [Stash.info, Stash.open?_of_open healthy.opened] at told
  obtain rfl := Except.ok.inj told
  apply Response.framed_text
  · decide
  · simp +decide only [List.forall_mem_cons, Text.brief_flag, Text.brief_nat, name, keys, room,
      timed, true_and]
  · simp

theorem framed_render (sound : engine.registry.Sound) (present : clock.elapsed ≤ Word64.largest) :
    (Response.text (engine.counters.render clock engine.registry)).Framed := by
  have word : Word64.largest < 10 ^ 40 := by decide
  have uptime : (clock.elapsed - engine.counters.started) / 1000 < 10 ^ 40 := by omega
  have limit := Nat.lt_of_le_of_lt sound.limit_le word
  have stashes := Nat.lt_of_le_of_lt sound.size_le limit
  have keys : engine.registry.totalKeys < 10 ^ 40 := by
    apply Nat.lt_of_le_of_lt sound.totalKeys_le
    apply Nat.lt_of_le_of_lt (Nat.mul_le_mul_right Word64.largest sound.limit_le)
    decide
  rw [Counters.render]
  apply Response.framed_text
  · decide
  · simp +decide only [List.forall_mem_cons, Text.brief_word, Text.brief_nat, uptime, limit, stashes,
      keys, true_and]
  · simp

/-- What a client is told about a stash whose name and values keep the limits. -/
theorem framed_told (healthy : stash.Healthy contents) (within : stash.Within {}) {now : Nat}
    {command : Command} {name : String} (about : command.target? = some name) :
    (stash.told now readOnly command).Framed := by
  cases command with
  | ping | create | drop | stats => cases about
  | get key =>
      rw [Stash.told_get healthy.opened, Stash.Contents.map_value_live?]
      split
      · exact Response.framed_null
      · cases held : contents.values.get? key with
        | none => exact Response.framed_null
        | some value =>
            exact Response.framed_value (within.values ⟨contents, healthy.opened, held⟩)
  | set key value ttl =>
      rw [Stash.told_set healthy.opened]
      exact Response.framed_ok
  | delete key =>
      rw [Stash.told_delete healthy.opened]
      exact Response.framed_ok
  | expire key ttl =>
      rw [Stash.told_expire healthy.opened]
      split
      · exact Response.framed_ok
      · exact Response.framed_error (by decide)
  | info =>
      simp only [Stash.told, Command.call?]
      split
      · next told => exact framed_info healthy within told
      · next error _ => exact Response.framed_error (by cases error; decide)

end Told

section Turn

theorem framed_execute (reached : engine.registry.Reached) (within : engine.registry.Within {})
    (present : clock.elapsed ≤ Word64.largest) (command : Command) :
    (engine.execute clock readOnly command).1.Framed := by
  cases about : command.target? with
  | some name =>
      cases found : engine.registry.find? name with
      | none =>
          rw [execute_of_absent about found]
          exact Response.framed_error (by decide)
      | some stash =>
          rcases Option.bind_eq_some_iff.mp found with ⟨handle, led, there⟩
          rcases reached.sound.healthy found with ⟨contents, healthy⟩
          rw [execute_of_found about led there]
          exact framed_told healthy (within.stashes found) about
  | none =>
      cases command with
      | get | set | delete | expire | info => cases about
      | ping => exact Response.framed_pong
      | stats => exact framed_render reached.sound present
      | create name options =>
          rw [execute_create]
          split
          · exact Response.framed_ok
          · next error _ _ => exact Response.framed_error (by cases error <;> decide)
      | drop name =>
          rw [execute_drop]
          split
          · exact Response.framed_ok
          · next error _ _ => exact Response.framed_error (by cases error <;> decide)

theorem framed_turn? {turn : Turn} (reached : engine.registry.Reached)
    (within : engine.registry.Within {}) (present : clock.elapsed ≤ Word64.largest)
    (taken : engine.turn? clock readOnly tokens = some turn) {response : Response}
    (told : turn.response = some response) : response.Framed := by
  cases takes_of_turn? taken with
  | skip => cases told
  | @refuse _ _ _ _ error =>
      cases told
      exact Response.framed_error (by cases error <;> decide)
  | execute =>
      cases told
      exact framed_execute reached within present _

end Turn

section Within

variable {limits : Limits}

/-- What a command asks a stash to store may be stored. -/
theorem storable_of_call? {command : Command} {call : Stash.Call}
    (admitted : command.Admitted limits tokens) (nonempty : ∀ token ∈ tokens, token ≠ [])
    (asked : command.call? readOnly = some call) (value : Bytes)
    (stored : call.value? = some value) : Stash.Storable limits value := by
  cases command with
  | set key written ttl =>
      have some : 1 ≤ written.length := List.length_pos_iff.mpr (nonempty written admitted.1)
      cases ttl <;> cases asked <;> cases stored <;> exact ⟨some, admitted.2⟩
  | get =>
      cases readOnly <;> cases asked <;> cases stored
  | delete | expire =>
      cases asked
      cases stored
  | ping | create | drop | info | stats => cases asked

theorem within_execute (reached : engine.registry.Reached)
    (within : engine.registry.Within limits) (nonempty : ∀ token ∈ tokens, token ≠ [])
    {command : Command} (admitted : command.Admitted limits tokens) :
    (engine.execute clock readOnly command).2.registry.Within limits := by
  have separate := reached.sound.separate
  cases about : command.target? with
  | some name =>
      cases found : engine.registry.find? name with
      | none =>
          rw [execute_of_absent about found]
          exact within
      | some stash =>
          rcases Option.bind_eq_some_iff.mp found with ⟨handle, led, there⟩
          rcases reached.sound.healthy found with ⟨contents, healthy⟩
          have before := within.stashes found
          rw [execute_of_found about led there]
          apply within.put separate led
          rw [Stash.leftBy]
          cases asked : command.call? readOnly with
          | none => exact before
          | some call =>
              exact before.after healthy clock.now (Command.usual_of_call? asked)
                (storable_of_call? admitted nonempty asked)
  | none =>
      cases command with
      | get | set | delete | expire | info => cases about
      | ping | stats => exact within
      | create name options =>
          rw [execute_create]
          split
          · next created => exact within.create separate admitted.1 created
          · exact within
      | drop name =>
          rw [execute_drop]
          split
          · next dropped => exact within.drop separate dropped
          · exact within

theorem within_turn? {turn : Turn} (reached : engine.registry.Reached)
    (within : engine.registry.Within engine.limits) (nonempty : ∀ token ∈ tokens, token ≠ [])
    (taken : engine.turn? clock readOnly tokens = some turn) :
    turn.engine.registry.Within engine.limits := by
  cases takes_of_turn? taken with
  | skip | refuse => exact within
  | execute _ verdict =>
      exact within_execute reached within nonempty (Grammar.admitted_of_parse verdict)

end Within

section Regular

/-- An engine as a server has it that accepts the default sizes. -/
structure Regular (engine : Engine) : Prop where
  limits : engine.limits = {}
  reached : engine.registry.Reached
  within : engine.registry.Within {}

theorem Regular.turn? {turn : Turn} (regular : engine.Regular)
    (taken : engine.turn? clock readOnly tokens = some turn)
    (nonempty : ∀ token ∈ tokens, token ≠ []) : turn.engine.Regular where
  limits := (limits_turn? taken).trans regular.limits
  reached := reached_turn? regular.reached taken
  within := by
    have within := regular.within
    rw [← regular.limits] at within ⊢
    exact within_turn? regular.reached within nonempty taken

variable (regular : engine.Regular) (nonempty : ∀ token ∈ tokens, token ≠ [])

include regular nonempty

theorem Regular.handle :
    (engine.handle clock readOnly tokens).engine.Regular ∧
      ∀ visit ∈ engine.visits clock readOnly tokens, visit.engine.Regular ∧
        visit.engine.turn? clock readOnly visit.waiting = some visit.turn := by
  apply @kept_by_granted_handle engine clock readOnly tokens Regular
    (fun visit => ∀ token ∈ visit.waiting, token ≠ []) Regular.turn? regular
  intro visit met token present
  exact nonempty token ((waiting_suffix met).subset present)

/-- Every response to a queue can be told to a client. -/
theorem Regular.framed_of_mem_handle (present : clock.elapsed ≤ Word64.largest)
    {response : Response} (answered : response ∈ (engine.handle clock readOnly tokens).responses) :
    response.Framed := by
  rw [responses_handle] at answered
  rcases List.mem_filterMap.mp answered with ⟨visit, met, told⟩
  rcases (regular.handle nonempty).2 visit met with ⟨before, taken⟩
  exact framed_turn? before.reached before.within present taken told

end Regular

end Engine

end Larder
