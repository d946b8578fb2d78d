import Larder.Engine
import Larder.Proofs.Engine.Parsing

/-!
# Whole commands

What a command looks like when all of its tokens have arrived, whatever is wrong with them.  On a
connection that only reads, a whole command that would change something is refused as such, and all
other commands are judged as on every connection.
-/

namespace Larder

namespace Command.Verb

theorem ofToken?_text (verb : Verb) : ofToken? (Bytes.ofText verb.text) = some verb := by
  cases verb <;> decide +kernel

theorem eq_text_of_ofToken? {verb : Verb} {name : Bytes} (known : ofToken? name = some verb) :
    name = Bytes.ofText verb.text := by
  have same := List.find?_some known
  exact (eq_of_beq same).symm

theorem minTokens_le (verb : Verb) : verb.minTokens ≤ 4 := by
  cases verb <;> decide

end Command.Verb

namespace Grammar

variable {verb : Command.Verb} {limits : Limits}

/-- The tokens of a whole command: its name, its arguments and, if it takes options, their count
and as many more. -/
inductive Whole (verb : Command.Verb) : List Bytes → Prop where
  | plain {arguments : List Bytes} (bare : verb.hasOptions = false)
      (arity : arguments.length = verb.arity) :
      Whole verb (Bytes.ofText verb.text :: arguments)
  | counted {arguments options : List Bytes} {count : Bytes} (optional : verb.hasOptions = true)
      (arity : arguments.length = verb.arity)
      (announced : optionCount? count = some options.length) :
      Whole verb (Bytes.ofText verb.text :: (arguments ++ count :: options))

theorem Whole.extent? {command : List Bytes} (whole : Whole verb command) (more : List Bytes) :
    Grammar.extent? verb (command ++ more) = some command.length := by
  cases whole with
  | plain bare arity => simp [Grammar.extent?, bare, Command.Verb.minTokens, arity, Nat.add_comm]
  | @counted arguments options count optional arity announced =>
      have place : (Bytes.ofText verb.text :: (arguments ++ count :: options) ++ more).getD
          (1 + verb.arity) [] = count := by
        simp [Nat.add_comm 1, ← arity]
      simp only [Grammar.extent?, optional, if_true, place, announced, Command.Verb.minTokens,
        Option.map_some, Bool.toNat_true, List.length_cons, List.length_append]
      congr 1
      omega

theorem Whole.head? {command : List Bytes} (whole : Whole verb command) :
    ∃ rest, command = Bytes.ofText verb.text :: rest := by
  cases whole with
  | plain => exact ⟨_, rfl⟩
  | counted => exact ⟨_, rfl⟩

section ReadOnly

theorem parse_readOnly_of_whole {command : List Bytes} (whole : Whole verb command)
    (writes : verb.writes = true) (more : List Bytes) :
    parse limits true verb (command ++ more) = .invalid command.length .readOnlyMode := by
  have extent := whole.extent? more
  have atLeast := minTokens_le_extent extent
  have enough : ¬(command ++ more).length < verb.minTokens := by
    simp only [List.length_append]
    omega
  have inside : ¬(command ++ more).length < command.length := by
    simp
  simp only [parse, if_neg enough, extent, if_neg inside, writes, Bool.and_self, if_true]

theorem parse_readOnly_of_not_writes (reads : verb.writes = false) (tokens : List Bytes) :
    parse limits true verb tokens = parse limits false verb tokens := by
  simp [parse, reads]

theorem not_writes_of_parse_readOnly {tokens : List Bytes} {consumed : Nat} {command : Command}
    (verdict : parse limits true verb tokens = .parsed consumed command) :
    verb.writes = false := by
  cases writes : verb.writes with
  | false => rfl
  | true =>
      simp only [parse, writes, Bool.and_self, if_true] at verdict
      split at verdict
      · cases verdict
      · split at verdict
        · cases verdict
        · split at verdict <;> cases verdict

end ReadOnly

section Verb

theorem verb_of_build {arguments : List Bytes} {options : Settings} {command : Command}
    (built : build limits verb arguments options = .ok command) : command.verb = verb := by
  cases verb <;> simp only [build, bind, Except.bind, pure, Except.pure] at built <;>
    (repeat' split at built) <;> cases built <;> rfl

/-- A command is of the name that it was parsed under. -/
theorem verb_of_parse {readOnly : Bool} {tokens : List Bytes} {consumed : Nat} {command : Command}
    (verdict : parse limits readOnly verb tokens = .parsed consumed command) :
    command.verb = verb := by
  simp only [parse] at verdict
  split at verdict
  · cases verdict
  split at verdict
  · cases verdict
  split at verdict
  · cases verdict
  split at verdict
  · cases verdict
  split at verdict
  · next readable =>
    cases verdict
    simp only [read, bind, Except.bind] at readable
    split at readable
    · cases readable
    · exact verb_of_build readable
  · cases verdict

end Verb

end Grammar

end Larder
