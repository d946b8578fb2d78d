import Larder.Proofs.Grammar.Sentences

/-!
# The order of the rules

The parts of a command may break several rules at once, and are refused with the error of one of
them: the first in the order in which the rules are checked.  That is the count of options, the
right to write, the form of each option in turn, the arguments, and then what lifetimes, truth
values, numbers of keys and the name of the stash are set to.
-/

namespace Larder.Grammar

/-- A rule for a command: what breaks it, and the error that says so. -/
@[ext]
structure Rule where
  error : Error
  broken : Prop

/-- Of rules in order, the first that is broken has this error. -/
def FirstBroken : List Rule → Error → Prop
  | [], _ => False
  | rule :: rules, error =>
      rule.broken ∧ rule.error = error ∨ ¬rule.broken ∧ FirstBroken rules error

/-- What comes of checking rules in order: the first error, or none. -/
def Judges {α : Type} (rules : List Rule) : Except Error α → Prop
  | .ok _ => ∀ rule ∈ rules, ¬rule.broken
  | .error error => FirstBroken rules error

/-- A rule for a token: how a token breaks it, and the error that says so. -/
structure Test where
  error : Error
  fails : Bytes → Prop

namespace Test

def on (test : Test) (token : Bytes) : Rule :=
  { error := test.error, broken := test.fails token }

/-- The rule that the last value of an option keeps, if the option is set. -/
def onLast (test : Test) (tokens : List Bytes) (key : OptionKey) : Rule :=
  { error := test.error, broken := ∃ value, SetLast key tokens value ∧ test.fails value }

end Test

section Rules

variable (limits : Limits)

def keyTests : List Test :=
  [⟨.keyTooLong, fun token => limits.maxKeyLength < token.length⟩]

def valueTests : List Test :=
  [⟨.valueTooLong, fun token => limits.maxValueLength < token.length⟩]

def nameTests : List Test :=
  [⟨.nameTooLong, fun token => limits.maxNameLength < token.length⟩,
    ⟨.invalidName, fun token => ∀ name, token ≠ Bytes.ofText name⟩]

def ttlTests : List Test :=
  [⟨.invalidTtl, fun token => ¬∃ ttl, Lasts limits token ttl⟩]

def booleanTests : List Test :=
  [⟨.invalidBoolean, fun token => ¬∃ truth, Says token truth⟩]

def maxKeysTests : List Test :=
  [⟨.invalidMaxKeys, fun token => ¬∃ count, Bounds token count⟩]

/-- The rules for the form of an option. -/
def optionTests (known : List OptionKey) : List Test :=
  [⟨.malformedArgument, fun token => ¬∃ key value, Splits token key value⟩,
    ⟨.unknownArgument, fun token =>
      ∃ key value, Splits token key value ∧ ∀ option ∈ known, Bytes.ofText option.text ≠ key⟩]

variable {verb : Command.Verb}

/-- The rules for the count of options and for commands that write. -/
def frontRules (readOnly : Bool) (parts : Parts verb) : List Rule :=
  [⟨.invalidArgCount, ¬parts.Counted⟩, ⟨.readOnlyMode, readOnly = true ∧ verb.writes = true⟩]

/-- The rules for the form of all options, in the order of arrival. -/
def formRules (known : List OptionKey) (tokens : List Bytes) : List Rule :=
  tokens.flatMap fun token => (optionTests known).map (·.on token)

/-- The rules for the keys, values and names among the arguments. -/
def argumentRules : Command.Verb → List Bytes → List Rule
  | .get, [key] | .delete, [key] | .expire, [key, _] => (keyTests limits).map (·.on key)
  | .set, [key, value] => (keyTests limits).map (·.on key) ++ (valueTests limits).map (·.on value)
  | .create, [name] | .drop, [name] => (nameTests limits).map (·.on name)
  | _, _ => []

/-- The rules for the lifetimes, truth values and numbers of keys, and then for the name of the
stash. -/
def contentRules (tokens : List Bytes) : Command.Verb → List Bytes → List Rule
  | .info, _ | .get, _ | .delete, _ => (nameTests limits).map (·.onLast tokens .name)
  | .set, _ =>
      (ttlTests limits).map (·.onLast tokens .ttl) ++ (nameTests limits).map (·.onLast tokens .name)
  | .expire, [_, ttl] =>
      (ttlTests limits).map (·.on ttl) ++ (nameTests limits).map (·.onLast tokens .name)
  | .create, _ =>
      booleanTests.map (·.onLast tokens .offHeap) ++ (maxKeysTests.map (·.onLast tokens .maxKeys) ++
        booleanTests.map (·.onLast tokens .snapshots))
  | _, _ => []

/-- All rules for the parts of a command, in the order in which they are checked. -/
def rules (readOnly : Bool) (parts : Parts verb) : List Rule :=
  frontRules readOnly parts ++ (formRules verb.options parts.options ++
    (argumentRules limits verb parts.arguments ++
      contentRules limits parts.options verb parts.arguments))

/-- All rules, with those for the arguments before those for the form of options.  The rules for
what options are set to come last in either order, and among themselves as they are checked: a
lifetime comes before the length of the name of the stash, and a number of keys before the wish to
be saved. -/
def rulesArgumentsFirst (readOnly : Bool) (parts : Parts verb) : List Rule :=
  frontRules readOnly parts ++ (argumentRules limits verb parts.arguments ++
    (formRules verb.options parts.options ++
      contentRules limits parts.options verb parts.arguments))

end Rules

section Order

variable {first second : List Rule} {error : Error}

theorem FirstBroken.exists_broken (broken : FirstBroken first error) :
    ∃ rule ∈ first, rule.broken := by
  induction first with
  | nil => cases broken
  | cons rule rules ih =>
      rcases broken with ⟨own, _⟩ | ⟨_, later⟩
      · exact ⟨rule, List.mem_cons_self .., own⟩
      · rcases ih later with ⟨other, present, broken⟩
        exact ⟨other, List.mem_cons_of_mem _ present, broken⟩

theorem FirstBroken.unique {other : Error} (broken : FirstBroken first error)
    (again : FirstBroken first other) : error = other := by
  induction first with
  | nil => cases broken
  | cons rule rules ih =>
      rcases broken with ⟨own, rfl⟩ | ⟨kept, later⟩
      · rcases again with ⟨_, same⟩ | ⟨kept, _⟩
        · exact same
        · exact absurd own kept
      · rcases again with ⟨own, _⟩ | ⟨_, again⟩
        · exact absurd own kept
        · exact ih later again

theorem firstBroken_append_iff :
    FirstBroken (first ++ second) error ↔
      FirstBroken first error ∨ (∀ rule ∈ first, ¬rule.broken) ∧ FirstBroken second error := by
  induction first with
  | nil => simp [FirstBroken]
  | cons rule rules ih =>
      simp only [List.cons_append, FirstBroken, ih, List.forall_mem_cons]
      tauto

/-- Two groups of rules may change places unless rules of both are broken. -/
theorem firstBroken_comm {third : List Rule}
    (apart : (∀ rule ∈ first, ¬rule.broken) ∨ ∀ rule ∈ second, ¬rule.broken) :
    FirstBroken (first ++ (second ++ third)) error ↔
      FirstBroken (second ++ (first ++ third)) error := by
  have found {rules : List Rule} (kept : ∀ rule ∈ rules, ¬rule.broken) :
      ¬FirstBroken rules error := by
    intro broken
    rcases broken.exists_broken with ⟨rule, present, broken⟩
    exact kept rule present broken
  simp only [firstBroken_append_iff]
  rcases apart with kept | kept
  · have none := found kept
    tauto
  · have none := found kept
    tauto

namespace Judges

variable {α β : Type} {result : Except Error α} {rest : α → Except Error β}

theorem after (judges : Judges second result) (kept : ∀ rule ∈ first, ¬rule.broken) :
    Judges (first ++ second) result := by
  cases result with
  | error error => exact firstBroken_append_iff.mpr (.inr ⟨kept, judges⟩)
  | ok value =>
      intro rule present
      exact (List.mem_append.mp present).elim (kept rule) (judges rule)

theorem bind (judges : Judges first result)
    (next : ∀ value, result = .ok value → Judges second (rest value)) :
    Judges (first ++ second) (result >>= rest) := by
  cases result with
  | error error => exact firstBroken_append_iff.mpr (.inl judges)
  | ok value => exact (next value rfl).after judges

theorem pure (judges : Judges first result) (f : α → β) :
    Judges first (result >>= fun value => .ok (f value)) := by
  have nothing (value : α) (_ : result = .ok value) :
      Judges [] (.ok (f value) : Except Error β) :=
    fun _ present => absurd present List.not_mem_nil
  have whole := judges.bind nothing
  rwa [List.append_nil] at whole

theorem error_iff (judges : Judges first result) :
    result = .error error ↔ FirstBroken first error := by
  constructor
  · rintro rfl
    exact judges
  · intro broken
    cases result with
    | error other => rw [FirstBroken.unique judges broken]
    | ok value =>
        rcases broken.exists_broken with ⟨rule, present, broken⟩
        exact absurd broken (judges rule present)

end Judges

end Order

section Readers

variable {limits : Limits} {token : Bytes}

/-- A reader with a single rule, kept by the tokens that stand for something. -/
theorem judges_of_ok_iff {α : Type} {result : Except Error α} {stands : α → Prop} {error : Error}
    (reads : ∀ {meaning}, result = .ok meaning ↔ stands meaning)
    (refuses : ∀ {other}, result = .error other → other = error) :
    Judges [⟨error, ¬∃ meaning, stands meaning⟩] result := by
  cases result with
  | ok meaning =>
      have stood := reads.mp rfl
      simpa [Judges] using ⟨meaning, stood⟩
  | error other =>
      have meaningless : ¬∃ meaning, stands meaning := by
        rintro ⟨meaning, stood⟩
        cases reads.mpr stood
      exact .inl ⟨meaningless, (refuses rfl).symm⟩

theorem judges_readKey :
    Judges ((keyTests limits).map (·.on token)) (readKey limits token) := by
  by_cases long : limits.maxKeyLength < token.length
  · rw [readKey, if_pos long]
    exact .inl ⟨long, rfl⟩
  · rw [readKey, if_neg long]
    simpa [Judges, keyTests, Test.on] using long

theorem judges_readValue :
    Judges ((valueTests limits).map (·.on token)) (readValue limits token) := by
  by_cases long : limits.maxValueLength < token.length
  · rw [readValue, if_pos long]
    exact .inl ⟨long, rfl⟩
  · rw [readValue, if_neg long]
    simpa [Judges, valueTests, Test.on] using long

theorem judges_readName :
    Judges ((nameTests limits).map (·.on token)) (readName limits token) := by
  by_cases long : limits.maxNameLength < token.length
  · rw [readName, if_pos long]
    exact .inl ⟨long, rfl⟩
  rw [readName, if_neg long]
  cases decoded : token.toText? with
  | none =>
      refine .inr ⟨long, .inl ⟨?_, rfl⟩⟩
      rintro name rfl
      rw [Bytes.toText?_ofText] at decoded
      cases decoded
  | some name =>
      have written := Bytes.ofText_of_toText? decoded
      simpa [Judges, nameTests, Test.on, long] using ⟨name, written.symm⟩

theorem judges_readTtl :
    Judges ((ttlTests limits).map (·.on token)) (readTtl limits token) := by
  refine judges_of_ok_iff readTtl_eq_ok_iff ?_
  intro other refused
  rw [readTtl] at refused
  grind

theorem judges_readBoolean : Judges (booleanTests.map (·.on token)) (readBoolean token) := by
  refine judges_of_ok_iff readBoolean_eq_ok_iff ?_
  intro other refused
  rw [readBoolean] at refused
  grind

theorem judges_readMaxKeys : Judges (maxKeysTests.map (·.on token)) (readMaxKeys token) := by
  refine judges_of_ok_iff readMaxKeys_eq_ok_iff ?_
  intro other refused
  rw [readMaxKeys] at refused
  grind

theorem judges_setting {known : List OptionKey} :
    Judges ((optionTests known).map (·.on token)) (setting known token) := by
  by_cases formed : ∃ key value, Splits token key value
  · rcases formed with ⟨key, value, splits⟩
    rw [setting_of_splits splits]
    cases found : known.find? (fun option => Bytes.ofText option.text == key) with
    | none =>
        have unlisted : ∀ option ∈ known, Bytes.ofText option.text ≠ key := fun option listed same =>
          List.find?_eq_none.mp found option listed (beq_iff_eq.mpr same)
        exact .inr ⟨not_not_intro ⟨key, value, splits⟩, .inl ⟨⟨key, value, splits, unlisted⟩, rfl⟩⟩
    | some option =>
        have listed := find?_text_eq_some_iff.mp found
        intro rule present
        simp only [optionTests, List.map_cons, List.map_nil, List.mem_cons, List.not_mem_nil,
          or_false] at present
        rcases present with rfl | rfl
        · exact not_not_intro ⟨key, value, splits⟩
        · rintro ⟨other, otherValue, again, unlisted⟩
          exact unlisted option listed.1 (listed.2.trans (splits.unique again).1)
  · rw [setting_of_not_splits formed]
    exact .inl ⟨formed, rfl⟩

theorem judges_settings {known : List OptionKey} (tokens : List Bytes) :
    Judges (formRules known tokens) (settings known tokens) := by
  induction tokens with
  | nil => exact fun _ present => absurd present List.not_mem_nil
  | cons token tokens ih =>
      rw [settings]
      exact judges_setting.bind fun first _ => ih.pure (first :: ·)

variable {known : List OptionKey} {tokens : List Bytes} {options : Settings}

/-- The rules for the values of an option are checked on its last value only. -/
theorem judges_readSetting {α : Type} {read : Bytes → Except Error α} {tests : List Test}
    (set : List.Forall₂ (Sets known) tokens options) (key : OptionKey)
    (judges : ∀ {value}, Judges (tests.map (·.on value)) (read value)) :
    Judges (tests.map (·.onLast tokens key)) (readSetting options key read) := by
  rw [readSetting]
  cases last : lastValue? options key with
  | none =>
      have never := (lastValue?_eq_none_iff set).mp last
      intro rule present
      rcases List.mem_map.mp present with ⟨test, _, rfl⟩
      rintro ⟨value, set, _⟩
      rcases set.exists_splits with ⟨token, given, splits⟩
      exact never token given value splits
  | some value =>
      have setLast := (lastValue?_eq_some_iff set).mp last
      have same (test : Test) : test.onLast tokens key = test.on value := by
        refine Rule.ext rfl (propext ⟨?_, fun fails => ⟨value, setLast, fails⟩⟩)
        rintro ⟨other, again, fails⟩
        exact setLast.unique again ▸ fails
      rw [funext same]
      exact judges.pure some

variable {verb : Command.Verb} {arguments : List Bytes}

theorem judges_build (set : List.Forall₂ (Sets known) tokens options)
    (given : arguments.length = verb.arity) :
    Judges (argumentRules limits verb arguments ++ contentRules limits tokens verb arguments)
      (build limits verb arguments options) := by
  have naming : Judges ((nameTests limits).map (·.onLast tokens .name))
      (readSetting options .name (readName limits)) :=
    judges_readSetting set .name judges_readName
  cases verb with
  | ping =>
      cases List.length_eq_zero_iff.mp given
      exact fun _ present => absurd present List.not_mem_nil
  | stats =>
      cases List.length_eq_zero_iff.mp given
      exact fun _ present => absurd present List.not_mem_nil
  | info =>
      cases List.length_eq_zero_iff.mp given
      exact naming.pure Command.info
  | get =>
      rcases List.length_eq_one_iff.mp given with ⟨key, rfl⟩
      exact judges_readKey.bind fun key _ => naming.pure (Command.get key)
  | delete =>
      rcases List.length_eq_one_iff.mp given with ⟨key, rfl⟩
      exact judges_readKey.bind fun key _ => naming.pure (Command.delete key)
  | set =>
      rcases List.length_eq_two.mp given with ⟨key, value, rfl⟩
      have lasting : Judges ((ttlTests limits).map (·.onLast tokens .ttl))
          (readSetting options .ttl (readTtl limits)) :=
        judges_readSetting set .ttl judges_readTtl
      simp only [argumentRules, List.append_assoc]
      exact judges_readKey.bind fun key _ => judges_readValue.bind fun value _ =>
        lasting.bind fun ttl _ => naming.pure (Command.set key value ttl)
  | expire =>
      rcases List.length_eq_two.mp given with ⟨key, token, rfl⟩
      exact judges_readKey.bind fun key _ => judges_readTtl.bind fun ttl _ =>
        naming.pure (Command.expire key ttl)
  | create =>
      rcases List.length_eq_one_iff.mp given with ⟨token, rfl⟩
      have placing := judges_readSetting set .offHeap judges_readBoolean
      have bounding := judges_readSetting set .maxKeys judges_readMaxKeys
      have saving := judges_readSetting set .snapshots judges_readBoolean
      exact judges_readName.bind fun name _ => placing.bind fun offHeap _ =>
        bounding.bind fun maxKeys _ =>
          saving.pure fun snapshots => Command.create name { offHeap, maxKeys, snapshots }
  | drop =>
      rcases List.length_eq_one_iff.mp given with ⟨token, rfl⟩
      exact judges_readName.pure Command.drop

end Readers

section Verdicts

variable {verb : Command.Verb}

theorem judges_read (limits : Limits) (parts : Parts verb) :
    Judges (formRules verb.options parts.options ++
        (argumentRules limits verb parts.arguments ++
          contentRules limits parts.options verb parts.arguments))
      (settings verb.options parts.options >>= build limits verb parts.arguments) :=
  (judges_settings parts.options).bind fun _ read =>
    judges_build (settings_eq_ok_iff.mp read) parts.arity

/-- The verdict on a command that has arrived is what comes of checking all rules in order. -/
theorem exists_outcome (limits : Limits) (readOnly : Bool) (parts : Parts verb)
    (more : List Bytes) :
    ∃ outcome : Except Error Command, Judges (rules limits readOnly parts) outcome ∧
      ∃ consumed, parse limits readOnly verb (parts.tokens ++ more) =
        match outcome with
        | .ok command => .parsed consumed command
        | .error error => .invalid consumed error := by
  by_cases counted : parts.Counted
  · rw [parse_of_counted parts more counted]
    by_cases refused : (readOnly && verb.writes) = true
    · have forbidden := Bool.and_eq_true_iff.mp refused
      exact ⟨.error .readOnlyMode, .inr ⟨not_not_intro counted, .inl ⟨forbidden, rfl⟩⟩,
        parts.tokens.length, if_pos refused⟩
    · have front : ∀ rule ∈ frontRules readOnly parts, ¬rule.broken := by
        simp only [frontRules, List.forall_mem_cons, not_not]
        exact ⟨counted, fun both => refused (Bool.and_eq_true_iff.mpr both), nofun⟩
      refine ⟨_, (judges_read limits parts).after front, parts.tokens.length, ?_⟩
      rw [if_neg refused]
      cases settings verb.options parts.options >>= build limits verb parts.arguments <;> rfl
  · rw [parse_of_not_counted parts more counted]
    exact ⟨.error .invalidArgCount, .inl ⟨counted, rfl⟩, verb.minTokens, rfl⟩

/-- Unless an option is out of form and an argument too long, it makes no difference which of them
is checked first. -/
theorem firstBroken_rules_iff {limits : Limits} {readOnly : Bool} {parts : Parts verb}
    (apart : (∀ rule ∈ formRules verb.options parts.options, ¬rule.broken) ∨
      ∀ rule ∈ argumentRules limits verb parts.arguments, ¬rule.broken) (error : Error) :
    FirstBroken (rules limits readOnly parts) error ↔
      FirstBroken (rulesArgumentsFirst limits readOnly parts) error := by
  calc FirstBroken (rules limits readOnly parts) error
      ↔ _ := firstBroken_append_iff
    _ ↔ _ := or_congr_right (and_congr_right fun _ => firstBroken_comm apart)
    _ ↔ FirstBroken (rulesArgumentsFirst limits readOnly parts) error :=
        firstBroken_append_iff.symm

/-- A request for a key that is one byte too long, with an option. -/
def longKey (option : Bytes) : Parts .get where
  arguments := [List.replicate 257 107]
  count := Bytes.ofText "1"
  options := [option]
  arity := rfl
  bare := nofun
  announced number announces _ := by
    have announced := optionCount?_eq_some_iff.mpr announces
    have one : optionCount? (Bytes.ofText "1") = some 1 := by decide +kernel
    exact Option.some.inj (one.symm.trans announced)

/-- With the rules for arguments first, the key is reported whatever the option is. -/
theorem firstBroken_longKey (option : Bytes) :
    FirstBroken (rulesArgumentsFirst {} false (longKey option)) .keyTooLong := by
  have one : optionCount? (Bytes.ofText "1") = some 1 := by decide +kernel
  have counted : (longKey option).Counted := fun _ => optionCount?_eq_some_iff.mp one
  have long : 256 < (List.replicate 257 (107 : UInt8)).length := by decide +kernel
  exact .inr ⟨not_not_intro counted, .inr ⟨by decide, .inl ⟨long, rfl⟩⟩⟩

/-- A command whose parts have all arrived is refused with the error of the first rule that they
break, in the order of `rules`, and is accepted if they break none.  Unless an option is out of
form and an argument too long, that is the first in the order of `rulesArgumentsFirst` as well.  Of
what options are set to, both have the one order of `contentRules`, in which the length of a name
that is set comes after a lifetime that is none. -/
theorem parse_reports_first_broken (limits : Limits) (readOnly : Bool) (parts : Parts verb)
    (more : List Bytes) :
    (∀ error,
      (∃ consumed, parse limits readOnly verb (parts.tokens ++ more) = .invalid consumed error) ↔
        FirstBroken (rules limits readOnly parts) error) ∧
      ((∃ consumed command,
        parse limits readOnly verb (parts.tokens ++ more) = .parsed consumed command) ↔
          ∀ rule ∈ rules limits readOnly parts, ¬rule.broken) ∧
      ((∀ rule ∈ formRules verb.options parts.options, ¬rule.broken) ∨
        (∀ rule ∈ argumentRules limits verb parts.arguments, ¬rule.broken) →
        ∀ error, FirstBroken (rules limits readOnly parts) error ↔
          FirstBroken (rulesArgumentsFirst limits readOnly parts) error) := by
  rcases exists_outcome limits readOnly parts more with ⟨outcome, judges, consumed, verdict⟩
  rw [verdict]
  refine ⟨fun error => ?_, ?_, firstBroken_rules_iff⟩
  · rw [← judges.error_iff]
    cases outcome <;> simp
  · cases outcome with
    | ok command => simpa [Judges] using judges
    | error error =>
        rcases FirstBroken.exists_broken judges with ⟨rule, present, broken⟩
        simpa using ⟨rule, present, broken⟩

/-- The key that is too long is reported if the option is in form. -/
theorem long_key_reported :
    let parts := longKey (Bytes.ofText "NAME=a")
    (∀ rule ∈ formRules (Command.Verb.options .get) parts.options, ¬rule.broken) ∧
      FirstBroken (rulesArgumentsFirst {} false parts) .keyTooLong ∧
      ∃ consumed, parse {} false .get (parts.tokens ++ []) = .invalid consumed .keyTooLong := by
  intro parts
  have read : settings (Command.Verb.options .get) parts.options =
      .ok [(.name, Bytes.ofText "a")] := by decide +kernel
  have formed : Judges (formRules (Command.Verb.options .get) parts.options) _ :=
    judges_settings parts.options
  rw [read] at formed
  have broken : FirstBroken (rulesArgumentsFirst {} false parts) .keyTooLong :=
    firstBroken_longKey _
  rcases parse_reports_first_broken {} false parts [] with ⟨reports, _, agrees⟩
  exact ⟨formed, broken, (reports _).mpr ((agrees (.inl formed) _).mpr broken)⟩

/-- Of two rules that are broken the one for the option is reported, although the rules for
arguments would come first otherwise. -/
theorem malformed_option_hides_long_key :
    FirstBroken (rulesArgumentsFirst {} false (longKey (Bytes.ofText "x"))) .keyTooLong ∧
      parse {} false .get (longKey (Bytes.ofText "x")).tokens = .invalid 4 .malformedArgument :=
  ⟨firstBroken_longKey _, by decide +kernel⟩

end Verdicts

end Larder.Grammar
