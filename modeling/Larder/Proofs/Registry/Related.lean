import Larder.Proofs.Registry.Sweep

/-!
# Two registries side by side

Two registries of the same names, in which the stashes of each name are related in some way.
Registering and dropping go alike in both, and a change of one stash matters to its own name only.
-/

namespace Larder.Registry

structure Related (related : String → Stash → Stash → Prop) (registry other : Registry) : Prop where
  names : registry.names = other.names
  limit : registry.limit = other.limit
  defaults : registry.defaults = other.defaults
  length : registry.stashes.length = other.stashes.length
  stashes : ∀ {name stash again}, registry.find? name = some stash →
    other.find? name = some again → related name stash again

namespace Related

variable {related after : String → Stash → Stash → Prop} {registry other : Registry}
  {name : String} {handle : Handle} {stash again : Stash} {now : Nat}

theorem imp (both : Related related registry other)
    (implies : ∀ {name stash again}, registry.find? name = some stash →
      other.find? name = some again → related name stash again → after name stash again) :
    Related after registry other := by
  refine ⟨both.names, both.limit, both.defaults, both.length, ?_⟩
  intro name stash again found found'
  exact implies found found' (both.stashes found found')

section Separate

variable (both : Related related registry other) (separate : registry.Separate)
  (separate' : other.Separate)

include both separate separate'

theorem find?_eq_none_iff : registry.find? name = none ↔ other.find? name = none := by
  rw [← Option.isNone_iff_eq_none, ← Option.isNone_iff_eq_none, ← Option.not_isSome,
    ← Option.not_isSome, separate.isSome_find?, separate'.isSome_find?, both.names]

/-- A stash of one registry stands in the same place in both. -/
theorem exists_of_find? (found : registry.find? name = some stash) :
    ∃ handle again, registry.names.get? name = some handle ∧
      registry.stashes[handle]? = some stash ∧ other.names.get? name = some handle ∧
      other.stashes[handle]? = some again ∧ other.find? name = some again := by
  rcases Option.bind_eq_some_iff.mp found with ⟨handle, led, there⟩
  have led' : other.names.get? name = some handle := both.names ▸ led
  cases found' : other.find? name with
  | none =>
      rw [(both.find?_eq_none_iff separate separate').mpr found'] at found
      cases found
  | some again => exact ⟨handle, again, led, there, led', find?_of_get? led' ▸ found', rfl⟩

theorem put (led : registry.names.get? name = some handle) (new : related name stash again) :
    Related related (registry.put handle stash) (other.put handle again) := by
  have led' : other.names.get? name = some handle := both.names ▸ led
  refine ⟨both.names, both.limit, both.defaults, ?_, ?_⟩
  · simp only [Registry.put, List.length_set]
    exact both.length
  · intro another first second found found'
    rw [separate.find?_put led] at found
    rw [separate'.find?_put led'] at found'
    by_cases same : another = name
    · rw [if_pos same] at found found'
      cases found
      cases found'
      exact same ▸ new
    · rw [if_neg same] at found found'
      exact both.stashes found found'

theorem register {options : Stash.Options}
    (fresh : related name (Stash.create now name options) (Stash.create now name options)) :
    Related related (registry.register now name options) (other.register now name options) := by
  refine ⟨?_, both.limit, both.defaults, ?_, ?_⟩
  · simp only [Registry.register, both.names, both.length]
  · simp only [Registry.register, List.length_append, both.length]
  · intro another first second found found'
    rw [separate.find?_register] at found
    rw [separate'.find?_register] at found'
    by_cases same : another = name
    · rw [if_pos same] at found found'
      cases found
      cases found'
      exact same ▸ fresh
    · rw [if_neg same] at found found'
      exact both.stashes found found'

theorem create {options : Stash.Options}
    (fresh : related name (Stash.create now name options) (Stash.create now name options)) :
    (∃ error, registry.create now name options = (.error error, registry) ∧
      other.create now name options = (.error error, other)) ∨
    ∃ next last, registry.create now name options = (.ok (), next) ∧
      other.create now name options = (.ok (), last) ∧ Related related next last := by
  simp only [Registry.create, both.names, both.limit]
  split
  · exact .inr ⟨registry, other, rfl, rfl, both⟩
  · split
    · exact .inl ⟨_, rfl, rfl⟩
    · exact .inr ⟨_, _, rfl, rfl, both.register separate separate' fresh⟩

theorem drop :
    (∃ error, registry.drop name = (.error error, registry) ∧
      other.drop name = (.error error, other)) ∨
    ∃ next last, registry.drop name = (.ok (), next) ∧ other.drop name = (.ok (), last) ∧
      Related related next last := by
  by_cases isDefault : name = defaultName
  · exact .inl ⟨.cannotDropDefault, if_pos isDefault, if_pos isDefault⟩
  cases led : registry.names.get? name with
  | none =>
      have led' : other.names.get? name = none := both.names ▸ led
      exact .inl ⟨.notFound, drop_of_absent isDefault led, drop_of_absent isDefault led'⟩
  | some handle =>
      have led' : other.names.get? name = some handle := both.names ▸ led
      have dropped : ∃ next, registry.drop name = (.ok (), next) := by
        simp only [Registry.drop, if_neg isDefault, handle?, led, Prod.mk.injEq, true_and,
          exists_eq']
      have dropped' : ∃ last, other.drop name = (.ok (), last) := by
        simp only [Registry.drop, if_neg isDefault, handle?, led', Prod.mk.injEq, true_and,
          exists_eq']
      rcases dropped with ⟨next, dropped⟩
      rcases dropped' with ⟨last, dropped'⟩
      rcases exists_of_drop dropped with ⟨place, _, names, stashes, limit, defaults⟩
      rcases exists_of_drop dropped' with ⟨place', _, names', stashes', limit', defaults'⟩
      refine .inr ⟨next, last, dropped, dropped', ?_, ?_, ?_, ?_, ?_⟩
      · rw [names, names', both.names]
      · rw [limit, limit', both.limit]
      · rw [defaults, defaults', both.defaults]
      · rw [stashes, stashes', List.length_modify, List.length_modify, both.length]
      · intro another first second found found'
        rw [separate.find?_drop dropped] at found
        rw [separate'.find?_drop dropped'] at found'
        by_cases same : another = name
        · rw [if_pos same] at found
          cases found
        · rw [if_neg same] at found found'
          exact both.stashes found found'

end Separate

theorem symm (both : Related related registry other) :
    Related (fun name stash again => related name again stash) other registry :=
  ⟨both.names.symm, both.limit.symm, both.defaults.symm, both.length.symm,
    fun found found' => both.stashes found' found⟩

/-- A sweep of the first registry only. -/
theorem sweep_left (both : Related related registry other) (separate : registry.Separate)
    (swept : ∀ {name stash again}, registry.find? name = some stash →
      other.find? name = some again → related name stash again →
      after name (stash.swept now) again) :
    Related after (registry.sweep now).2 other := by
  refine ⟨?_, ?_, ?_, ?_, ?_⟩
  · rw [snd_sweep]
    exact both.names
  · rw [snd_sweep]
    exact both.limit
  · rw [snd_sweep]
    exact both.defaults
  · rw [length_sweep]
    exact both.length
  · intro name stash again found found'
    rw [separate.find?_sweep] at found
    rcases Option.map_eq_some_iff.mp found with ⟨before, there, rfl⟩
    exact swept there found' (both.stashes there found')

theorem sweep (both : Related related registry other) (separate : registry.Separate)
    (separate' : other.Separate)
    (swept : ∀ {name stash again}, related name stash again →
      after name (stash.swept now) (again.swept now)) :
    Related after (registry.sweep now).2 (other.sweep now).2 := by
  have first : Related
      (fun name stash again => ∃ before, stash = before.swept now ∧ related name before again)
      (registry.sweep now).2 other := by
    apply both.sweep_left separate
    intro name stash again _ _ before
    exact ⟨stash, rfl, before⟩
  have second : Related (fun name again stash => after name stash again) (other.sweep now).2
      (registry.sweep now).2 := by
    apply first.symm.sweep_left separate'
    rintro name again _ _ _ ⟨stash, rfl, before⟩
    exact swept before
  exact second.symm

end Related

end Larder.Registry
