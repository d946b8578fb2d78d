import Larder.Proofs.Engine.OneCommand
import Larder.Proofs.Engine.Settled
import Larder.Shell.Words

/-!
# Typed commands

What is sent for a typed command is a command to the server too.  Both know how many arguments a
name takes and whether options follow, and the count of the options is filled in.  If that is more
than the server takes, the server refuses the command at its count and skips the options, none of
which is the name of a command.
-/

namespace Larder

namespace Shell

section Options

variable {word token : String}

/-- An option that is typed has an equals sign, and only what stands in front of it is changed. -/
theorem exists_of_optionToken (formed : optionToken word = .ok token) :
    ∃ key value, word = key ++ "=" ++ value ∧ token = upperAscii key ++ "=" ++ value := by
  simp only [optionToken] at formed
  split at formed
  · cases formed
  · next present =>
    cases formed
    have split := @List.takeWhile_append_dropWhile _ (fun character : Char => character ≠ '=')
      word.toList
    have stops := List.head?_dropWhile_not (fun character : Char => decide (character ≠ '='))
      word.toList
    cases stopped : word.toList.dropWhile (· ≠ '=') with
    | nil => exact absurd stopped present
    | cons sign value =>
        rw [stopped] at split stops
        obtain rfl : sign = '=' := by simpa using stops
        have behind : String.ofList ('=' :: value) = "=" ++ String.ofList value :=
          @String.ofList_append ['='] value
        refine ⟨String.ofList (word.toList.takeWhile (· ≠ '=')), String.ofList value, ?_, ?_⟩
        · rw [String.append_assoc, ← behind, ← String.ofList_append, split, String.ofList_toList]
        · rw [behind, String.append_assoc]

theorem equals_mem_ofText (formed : optionToken word = .ok token) :
    61 ∈ Bytes.ofText token := by
  rcases exists_of_optionToken formed with ⟨key, value, _, rfl⟩
  have sign : Bytes.ofText "=" = [61] := by decide +kernel
  rw [Bytes.ofText_append, Bytes.ofText_append, sign]
  simp

theorem equals_notMem_text (verb : Command.Verb) : 61 ∉ Bytes.ofText verb.text := by
  cases verb <;> decide +kernel

/-- No option is taken for the name of a command. -/
theorem ofToken?_of_optionToken (formed : optionToken word = .ok token) :
    Command.Verb.ofToken? (Bytes.ofText token) = none := by
  cases known : Command.Verb.ofToken? (Bytes.ofText token) with
  | none => rfl
  | some verb =>
      have sign := equals_mem_ofText formed
      rw [Command.Verb.eq_text_of_ofToken? known] at sign
      exact absurd sign (equals_notMem_text verb)

end Options

/-- Words that have the form of a command, and the tokens that are sent for them. -/
inductive Typed (form : Form) : List String → List String → Prop where
  | plain {word : String} {arguments : List String} (named : form? word = some form)
      (bare : form.hasOptions = false) (arity : arguments.length = form.arity) :
      Typed form (word :: arguments) (form.name :: arguments)
  | counted {word : String} {arguments options written : List String}
      (named : form? word = some form) (optional : form.hasOptions = true)
      (arity : arguments.length = form.arity)
      (formed : List.Forall₂ (fun option token => optionToken option = .ok token)
        options written) :
      Typed form (word :: (arguments ++ options))
        (form.name :: (arguments ++ toString options.length :: written))

section Typed

variable {form : Form} {words sent : List String}

theorem mapM_optionToken_eq_ok_iff {options written : List String} :
    options.mapM optionToken = .ok written ↔
      List.Forall₂ (fun option token => optionToken option = .ok token) options written := by
  induction options generalizing written with
  | nil =>
      rw [List.mapM_nil, List.forall₂_nil_left_iff]
      exact ⟨fun done => by cases done; rfl, fun none => by rw [none]; rfl⟩
  | cons option options ih =>
      rw [List.mapM_cons]
      constructor
      · intro done
        rcases Grammar.exists_of_bind done with ⟨token, first, done⟩
        rcases Grammar.exists_of_bind done with ⟨tokens, others, done⟩
        cases done
        exact .cons first (ih.mp others)
      · intro formed
        cases formed with
        | cons first others =>
            rw [first, ih.mpr others]
            rfl

theorem ofToken?_of_mem_written {options written : List String}
    (formed : List.Forall₂ (fun option token => optionToken option = .ok token) options written) :
    ∀ name ∈ written.map Bytes.ofText, Command.Verb.ofToken? name = none := by
  induction formed with
  | nil => simp
  | cons first _ ih =>
      rw [List.map_cons, List.forall_mem_cons]
      exact ⟨ofToken?_of_optionToken first, ih⟩

/-- Words are accepted exactly if they have the form of a command. -/
theorem tokens_eq_ok_iff : tokens words = .ok sent ↔ ∃ form, Typed form words sent := by
  constructor
  · intro accepted
    cases words with
    | nil => cases accepted
    | cons word arguments =>
        cases named : form? word with
        | none => simp [tokens, named] at accepted
        | some form =>
            simp only [tokens, named] at accepted
            split at accepted
            · cases accepted
            · next fitting =>
              rw [not_or, not_and, not_not, Nat.not_lt] at fitting
              have arity := List.length_take_of_le fitting.1
              have split := List.take_append_drop form.arity arguments
              refine ⟨form, ?_⟩
              cases optional : form.hasOptions with
              | true =>
                  rw [if_pos optional] at accepted
                  rcases Grammar.exists_of_bind accepted with ⟨written, formed, done⟩
                  cases done
                  have typed := Typed.counted named optional arity
                    (mapM_optionToken_eq_ok_iff.mp formed)
                  rwa [split] at typed
              | false =>
                  rw [if_neg (by simp [optional])] at accepted
                  cases accepted
                  have typed := Typed.plain named optional arity
                  rw [fitting.2 optional, List.append_nil] at split
                  rwa [split] at typed ⊢
  · rintro ⟨form, typed⟩
    cases typed with
    | plain named bare arity => simp [tokens, named, bare, ← arity]
    | @counted word arguments options written named optional arity formed =>
        simp only [tokens, named, optional, ← arity, List.length_append, List.drop_left,
          List.take_left, mapM_optionToken_eq_ok_iff.mpr formed]
        apply if_neg
        simp

theorem Typed.exists_head (typed : Typed form words sent) :
    ∃ word, words.head? = some word ∧ form? word = some form := by
  cases typed with
  | plain named | counted named => exact ⟨_, rfl, named⟩

end Typed

section Agreement

variable {form : Form} {verb : Command.Verb} {words sent : List String}

/-- A form that has the name, the arguments and the options of a command of the server. -/
structure Form.Follows (form : Form) (verb : Command.Verb) : Prop where
  name : form.name = verb.text
  arity : form.arity = verb.arity
  hasOptions : form.hasOptions = verb.hasOptions

/-- Every form is that of a command. -/
theorem exists_follows (listed : form ∈ forms) : ∃ verb, form.Follows verb := by
  have agree : ∀ form ∈ forms, ∃ verb ∈ Command.Verb.all, form.name = verb.text ∧
      form.arity = verb.arity ∧ form.hasOptions = verb.hasOptions := by
    decide +kernel
  rcases agree form listed with ⟨verb, _, name, arity, hasOptions⟩
  exact ⟨verb, name, arity, hasOptions⟩

/-- What is sent is a command, and nothing is left over unless there are too many options.  Then
it is the command up to their count, and all options are left over. -/
theorem Typed.exists_parts (typed : Typed form words sent) (follows : form.Follows verb) :
    ∃ (parts : Grammar.Parts verb) (skipped : List Bytes),
      sent.map Bytes.ofText = parts.tokens ++ skipped ∧
      (parts.Counted ∨ parts.options = []) ∧
      (∀ name ∈ skipped, Command.Verb.ofToken? name = none) ∧
      (words.length ≤ 1 + form.arity + Grammar.maxOptions → skipped = []) := by
  cases typed with
  | @plain word arguments named bare arity =>
      rw [follows.hasOptions] at bare
      have without : ¬verb.hasOptions = true := by simp [bare]
      let parts : Grammar.Parts verb :=
        { arguments := arguments.map Bytes.ofText
          count := []
          options := []
          arity := by simp [arity, follows.arity]
          bare := fun _ => rfl
          announced := fun _ _ optional => absurd optional without }
      refine ⟨parts, [], ?_, .inr rfl, by simp, fun _ => rfl⟩
      simp [parts, Grammar.Parts.tokens, follows.name, bare]
  | @counted word arguments options written named optional arity formed =>
      have sizes := formed.length_eq
      rw [follows.hasOptions] at optional
      have without : ¬verb.hasOptions = false := by simp [optional]
      have told : (form.name :: (arguments ++ toString options.length :: written)).map
          Bytes.ofText = Bytes.ofText verb.text ::
            (arguments.map Bytes.ofText ++ Decimal.ofNat options.length ::
              written.map Bytes.ofText) := by
        rw [follows.name, List.map_cons, List.map_append, List.map_cons, Decimal.ofText_toString]
      by_cases few : options.length ≤ Grammar.maxOptions
      · let parts : Grammar.Parts verb :=
          { arguments := arguments.map Bytes.ofText
            count := Decimal.ofNat options.length
            options := written.map Bytes.ofText
            arity := by simp [arity, follows.arity]
            bare := fun bare => absurd bare without
            announced := fun number announced _ => by
              rw [List.length_map, ← sizes, (Grammar.announces_ofNat_iff.mp announced).1] }
        refine ⟨parts, [], ?_, .inl fun _ => ?_, by simp, fun _ => rfl⟩
        · rw [told]
          simp [parts, Grammar.Parts.tokens, optional]
        · rw [Grammar.announces_ofNat_iff, List.length_map]
          exact ⟨sizes.symm, few⟩
      · let parts : Grammar.Parts verb :=
          { arguments := arguments.map Bytes.ofText
            count := Decimal.ofNat options.length
            options := []
            arity := by simp [arity, follows.arity]
            bare := fun _ => rfl
            announced := fun number announced _ =>
              absurd (Grammar.announces_ofNat_iff.mp announced).2 few }
        refine ⟨parts, written.map Bytes.ofText, ?_, .inr rfl, ofToken?_of_mem_written formed,
          fun short => ?_⟩
        · rw [told]
          simp [parts, Grammar.Parts.tokens, optional]
        · simp only [List.length_cons, List.length_append, arity] at short
          omega

/--
Words that the shell accepts as a command are a command to every engine, on a connection of either
kind.  With nothing else in the queue, the tokens that are sent for them are answered with exactly
one response and used up.  If the words have no more options than a command may have, the verdict on
the tokens takes all of them at once.
-/
theorem typed_command_answered_once (accepted : tokens words = .ok sent) (engine : Engine)
    (clock : Clock) (readOnly : Bool) :
    let queue := sent.map Bytes.ofText
    let handled := engine.handle clock readOnly queue
    (∃ response, handled.responses = [response] ∧ handled.output = some response.encode) ∧
      handled.left = [] ∧
      ∃ word form verb, words.head? = some word ∧ form? word = some form ∧
        queue.head? = some (Bytes.ofText verb.text) ∧
        (words.length ≤ 1 + form.arity + Grammar.maxOptions →
          (Grammar.parse engine.limits readOnly verb queue).consumed = queue.length) := by
  intro queue handled
  rcases tokens_eq_ok_iff.mp accepted with ⟨form, typed⟩
  rcases typed.exists_head with ⟨word, first, named⟩
  rcases exists_follows (List.mem_of_find?_eq_some named) with ⟨verb, follows⟩
  rcases typed.exists_parts follows with ⟨parts, skipped, split, whole, unknown, fitting⟩
  have consumed := @Grammar.Parts.consumed_parse verb engine.limits readOnly parts whole
  have command : Grammar.IsCommand engine.limits readOnly parts.tokens :=
    ⟨_, _, verb, rfl, Command.Verb.ofToken?_text verb, consumed⟩
  rcases Engine.exists_handle_of_isCommand command clock with ⟨response, next, answered⟩
  have once : handled = ⟨[response], next, []⟩ := by
    have silent : next.handle clock readOnly skipped = ⟨[], next, []⟩ := by
      have skips := @Engine.handle_of_unknown next clock readOnly skipped unknown []
      rw [List.append_nil] at skips
      exact skips.trans (Engine.handle_of_settled .empty)
    have later := Engine.handle_append engine clock readOnly parts.tokens skipped
    rw [answered] at later
    change engine.handle clock readOnly (sent.map Bytes.ofText) = _
    rw [split]
    simpa [silent] using later
  refine ⟨⟨response, ?_, ?_⟩, ?_, word, form, verb, first, named, ?_, fun few => ?_⟩
  · rw [once]
  · rw [once]
    simp [Engine.Handled.output]
  · rw [once]
  · simp [queue, split, Grammar.Parts.tokens]
  · have all : queue = parts.tokens := by simp [queue, split, fitting few]
    rw [all]
    exact consumed

/-- A command with as many options as there may be is taken at once, and one with an option more
is answered just as well. -/
theorem create_with_options_answered_once :
    let engine : Engine := { registry := Registry.start 0 1 {} true, limits := {} }
    let queue := (["CREATE", "ß", "16"] ++ List.replicate 16 "MAX_KEYS=1").map Bytes.ofText
    let longer := (["CREATE", "ß", "17"] ++ List.replicate 17 "TTL=a=1").map Bytes.ofText
    (∃ verb, (Grammar.parse engine.limits true verb queue).consumed = 19) ∧
      (engine.handle ⟨20, 0⟩ true queue).left = [] ∧
      (engine.handle ⟨20, 0⟩ false longer).left = [] ∧
      ∃ response, (engine.handle ⟨20, 0⟩ false longer).responses = [response] := by
  intro engine queue longer
  have accepted : tokens (["CrEaTe", "ß"] ++ List.replicate 16 "max_keys=1") =
      .ok (["CREATE", "ß", "16"] ++ List.replicate 16 "MAX_KEYS=1") := by
    decide +kernel
  have acceptedToo : tokens (["create", "ß"] ++ List.replicate 17 "Ttl=a=1") =
      .ok (["CREATE", "ß", "17"] ++ List.replicate 17 "TTL=a=1") := by
    decide +kernel
  rcases typed_command_answered_once accepted engine ⟨20, 0⟩ true with
    ⟨_, used, word, form, verb, first, named, _, whole⟩
  rcases typed_command_answered_once acceptedToo engine ⟨20, 0⟩ false with
    ⟨⟨response, told, _⟩, usedToo, _⟩
  have known : form? "CrEaTe" = forms[5]? := by decide +kernel
  obtain rfl : "CrEaTe" = word := Option.some_inj.mp first
  obtain rfl : forms[5] = form := Option.some_inj.mp (known.symm.trans named)
  exact ⟨⟨verb, whole (by decide)⟩, used, usedToo, response, told⟩

end Agreement

end Shell

end Larder
