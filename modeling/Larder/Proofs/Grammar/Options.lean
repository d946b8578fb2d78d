import Larder.Proofs.Grammar.Tokens

/-!
# The options of a command

Of the tokens that set an option only the last counts, and only its value has to be in order.
-/

namespace Larder.Grammar

/-- The value in the last of some tokens that sets an option. -/
inductive SetLast (key : OptionKey) : List Bytes → Bytes → Prop where
  | here {token value : Bytes} {tokens : List Bytes}
      (splits : Splits token (Bytes.ofText key.text) value)
      (final : ∀ later ∈ tokens, ∀ other, ¬Splits later (Bytes.ofText key.text) other) :
      SetLast key (token :: tokens) value
  | later {token value : Bytes} {tokens : List Bytes} (set : SetLast key tokens value) :
      SetLast key (token :: tokens) value

/-- What some tokens give an option, with how its value is written. -/
inductive Given {α : Type} (tokens : List Bytes) (key : OptionKey) (stands : Bytes → α → Prop) :
    Option α → Prop where
  | absent (never : ∀ token ∈ tokens, ∀ value, ¬Splits token (Bytes.ofText key.text) value) :
      Given tokens key stands none
  | last {value : Bytes} {meaning : α} (set : SetLast key tokens value)
      (stood : stands value meaning) : Given tokens key stands (some meaning)

variable {known : List OptionKey} {key : OptionKey} {tokens : List Bytes} {options : Settings}
  {token value : Bytes}

namespace SetLast

theorem exists_splits (set : SetLast key tokens value) :
    ∃ token ∈ tokens, Splits token (Bytes.ofText key.text) value := by
  induction set with
  | here splits _ => exact ⟨_, List.mem_cons_self .., splits⟩
  | later _ ih =>
      rcases ih with ⟨token, present, splits⟩
      exact ⟨token, List.mem_cons_of_mem _ present, splits⟩

theorem unique {other : Bytes} (set : SetLast key tokens value) (again : SetLast key tokens other) :
    value = other := by
  induction set with
  | here splits final =>
      cases again with
      | here same _ => exact (splits.unique same).2
      | later set =>
          rcases set.exists_splits with ⟨token, present, sets⟩
          exact absurd sets (final token present other)
  | later set ih =>
      cases again with
      | here _ final =>
          rcases set.exists_splits with ⟨token, present, sets⟩
          exact absurd sets (final token present _)
      | later again => exact ih again

end SetLast

theorem lastValue?_cons (option : OptionKey × Bytes) (options : Settings) (key : OptionKey) :
    lastValue? (option :: options) key =
      (lastValue? options key).or (if option.1 = key then some option.2 else none) := by
  rw [lastValue?, List.reverse_cons, List.find?_append, lastValue?]
  cases options.reverse.find? (fun option => option.1 = key) with
  | some last => rfl
  | none =>
      by_cases same : option.1 = key
      · simp [same]
      · simp [same]

theorem forall_sets_iff :
    (∀ token ∈ tokens, ∃ option, Sets known token option) ↔
      ∃ options, List.Forall₂ (Sets known) tokens options := by
  induction tokens with
  | nil => exact ⟨fun _ => ⟨[], .nil⟩, fun _ _ present => absurd present List.not_mem_nil⟩
  | cons token tokens ih =>
      rw [List.forall_mem_cons, ih]
      constructor
      · rintro ⟨⟨option, sets⟩, options, rest⟩
        exact ⟨option :: options, .cons sets rest⟩
      · rintro ⟨options, set⟩
        cases set with
        | cons sets rest => exact ⟨⟨_, sets⟩, _, rest⟩

/-- A token that sets an option of the list splits at no other key. -/
theorem Sets.splits_iff {option : OptionKey × Bytes} (sets : Sets known token option) :
    Splits token (Bytes.ofText key.text) value ↔ option.1 = key ∧ option.2 = value := by
  constructor
  · intro splits
    have same := sets.splits.unique splits
    exact ⟨OptionKey.text_inj same.1, same.2⟩
  · rintro ⟨rfl, rfl⟩
    exact sets.splits

theorem lastValue?_eq_none_iff (set : List.Forall₂ (Sets known) tokens options) :
    lastValue? options key = none ↔
      ∀ token ∈ tokens, ∀ value, ¬Splits token (Bytes.ofText key.text) value := by
  induction set with
  | nil => simp [lastValue?]
  | @cons token option tokens options formed _ ih =>
      rw [lastValue?_cons, Option.or_eq_none_iff, ih, List.forall_mem_cons, and_comm]
      apply and_congr_left'
      simp only [formed.splits_iff]
      by_cases same : option.1 = key <;> simp [same]

theorem lastValue?_eq_some_iff (set : List.Forall₂ (Sets known) tokens options) :
    lastValue? options key = some value ↔ SetLast key tokens value := by
  induction set with
  | nil =>
      constructor
      · intro found
        cases found
      · intro set
        cases set
  | @cons token option tokens options formed rest ih =>
      have never : lastValue? options key = none ↔ _ := lastValue?_eq_none_iff rest
      rw [lastValue?_cons, Option.or_eq_some_iff, ih]
      constructor
      · rintro (set | ⟨none, own⟩)
        · exact .later set
        · split at own
          · next same =>
            exact .here (formed.splits_iff.mpr ⟨same, Option.some.inj own⟩) (never.mp none)
          · cases own
      · intro set
        cases set with
        | later set => exact .inl set
        | here splits final =>
            rcases formed.splits_iff.mp splits with ⟨same, rfl⟩
            exact .inr ⟨never.mpr final, if_pos same⟩

/-- An option is read as what the tokens give it. -/
theorem readSetting_eq_ok_iff {α : Type} {read : Bytes → Except Error α}
    {stands : Bytes → α → Prop} {meaning : Option α}
    (reads : ∀ {value meaning}, read value = .ok meaning ↔ stands value meaning)
    (set : List.Forall₂ (Sets known) tokens options) :
    readSetting options key read = .ok meaning ↔ Given tokens key stands meaning := by
  rw [readSetting]
  constructor
  · intro accepted
    split at accepted
    · next value last =>
      cases understood : read value with
      | error error =>
          rw [understood] at accepted
          cases accepted
      | ok meaning =>
          rw [understood] at accepted
          cases accepted
          exact .last ((lastValue?_eq_some_iff set).mp last) (reads.mp understood)
    · next absent =>
      cases accepted
      exact .absent ((lastValue?_eq_none_iff set).mp absent)
  · intro given
    cases given with
    | absent never => rw [(lastValue?_eq_none_iff set).mpr never]
    | last last stood =>
        rw [(lastValue?_eq_some_iff set).mpr last]
        simp only [reads.mpr stood]
        rfl

end Larder.Grammar
