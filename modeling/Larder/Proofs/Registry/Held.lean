import Larder.Proofs.Registry.Steps

/-!
# Handles to dropped stashes

A name may come to lead to another stash, but a handle leads to the same one for ever.  Once that is
dropped no name leads to it any more, and as it never gets contents again, every call through the
handle is refused.  A stash that is created under its name is a new one with another handle.
-/

namespace Larder.Registry

open Relation

/-- What is done to a registry as long as handles to its stashes may be held. -/
inductive Act : Registry → Registry → Prop where
  | create {registry next : Registry} {now : Nat} {name : String} {options : Stash.Options}
      (created : registry.create now name options = (.ok (), next)) : Act registry next
  | drop {registry next : Registry} {name : String}
      (dropped : registry.drop name = (.ok (), next)) :
      Act registry next
  | sweep (registry : Registry) (now : Nat) : Act registry (registry.sweep now).2
  | restore (registry : Registry) (now : Nat) (images : List Image) :
      Act registry (registry.restore now images).2
  | save (registry : Registry) (disk : Disk) (now : Nat) :
      Act registry (registry.saveDirty disk now).2.1
  | delete (registry : Registry) (disk : Disk) : Act registry (registry.runDeletions disk).1
  /-- A call by whoever has a handle, who may also drop the stash. -/
  | call {registry : Registry} {handle : Handle} {stash : Stash}
      (found : registry.stash? handle = some stash) (now : Nat) (call : Stash.Call) :
      Act registry (registry.put handle (stash.after now call))
  | mark {registry : Registry} {handle : Handle} {stash : Stash}
      (found : registry.stash? handle = some stash) :
      Act registry (registry.put handle stash.markDirty)

def Runs : Registry → Registry → Prop :=
  ReflTransGen Act

variable {registry next : Registry} {name : String} {handle : Handle}

section Steps

theorem Act.steps (act : registry.Act next) : registry.Steps next := by
  cases act with
  | create created => exact steps_of_create created
  | drop dropped => exact .single (.drop dropped)
  | sweep now => exact steps_of_sweep registry now
  | restore now images => exact steps_of_restore registry now images
  | save disk now => exact steps_of_saveDirty registry disk now
  | delete disk => exact .single (.settle registry)
  | call found now call => exact .single (.call found now call)
  | mark found => exact .single (.mark found)

theorem Runs.steps (runs : registry.Runs next) : registry.Steps next := by
  induction runs with
  | refl => exact .refl
  | tail _ act ih => exact ih.trans act.steps

end Steps

section Gone

/-- The stash that a handle leads to is dropped, and no name leads to it. -/
structure Gone (registry : Registry) (handle : Handle) : Prop where
  closed : ∃ stash, registry.stash? handle = some stash ∧ stash.contents = none
  unnamed : ∀ name, registry.handle? name ≠ some handle

theorem Gone.step (gone : registry.Gone handle) (step : registry.Step next) :
    next.Gone handle := by
  rcases gone.closed with ⟨stash, found, nothing⟩
  cases step with
  | @register name absent now options =>
      refine ⟨⟨stash, stash?_register_of_some found now name options, nothing⟩, fun other led => ?_⟩
      rw [handle?, Registry.register, FiniteMap.get?_insert] at led
      split at led
      · -- The handle of a new stash has not led to any before.
        cases led
        exact absurd (List.getElem?_eq_some_iff.mp found).1 (Nat.lt_irrefl _)
      · exact gone.unnamed other led
  | drop dropped =>
      rcases eq_of_drop dropped with ⟨_, other, _, rfl⟩
      refine ⟨⟨if other = handle then stash.close else stash, ?_, ?_⟩, fun name led => ?_⟩
      · rw [stash?_leftBehind, found]
        rfl
      · split
        · rfl
        · exact nothing
      · rw [handle?, leftBehind, FiniteMap.get?_erase] at led
        split at led
        · cases led
        · exact gone.unnamed name led
  | call called now call =>
      refine ⟨exists_stash?_put called ?_ found nothing, gone.unnamed⟩
      exact fun closed => (Stash.step_of_closed closed now call).2
  | mark marked => exact ⟨exists_stash?_put marked id found nothing, gone.unnamed⟩
  | settle => exact ⟨⟨stash, found, nothing⟩, gone.unnamed⟩

theorem Gone.steps (gone : registry.Gone handle) (steps : registry.Steps next) :
    next.Gone handle := by
  induction steps with
  | refl => exact gone
  | tail _ step ih => exact ih.step step

/-- The stash that a name leads to is gone when it is dropped. -/
theorem Separate.gone_of_drop (separate : registry.Separate)
    (led : registry.handle? name = some handle) (dropped : registry.drop name = (.ok (), next)) :
    next.Gone handle := by
  rcases eq_of_drop dropped with ⟨_, other, led', rfl⟩
  cases led.symm.trans led'
  have inside := separate.known led
  refine ⟨⟨registry.stashes[handle].close, ?_, rfl⟩, fun second again => ?_⟩
  · rw [stash?_leftBehind, stash?, List.getElem?_eq_getElem inside, Option.map_some, if_pos rfl]
  · rw [handle?, leftBehind, FiniteMap.get?_erase] at again
    split at again
    · cases again
    · next different => exact different (separate.apart again led)

/-- A handle that a name led to: the name leads there still, or the stash is gone. -/
def Held (registry : Registry) (name : String) (handle : Handle) : Prop :=
  registry.handle? name = some handle ∨ registry.Gone handle

theorem Held.step (held : registry.Held name handle) (separate : registry.Separate)
    (step : registry.Step next) : next.Held name handle := by
  rcases held with led | gone
  · cases step with
    | @register other absent now options =>
        left
        rw [handle?, Registry.register, FiniteMap.get?_insert, if_neg]
        · exact led
        · rintro rfl
          cases led.symm.trans absent
    | @drop _ other dropped =>
        by_cases same : other = name
        · subst same
          exact .inr (separate.gone_of_drop led dropped)
        · rcases eq_of_drop dropped with ⟨_, _, _, rfl⟩
          left
          rw [handle?, leftBehind, FiniteMap.get?_erase, if_neg (Ne.symm same)]
          exact led
    | call _ _ _ => exact .inl led
    | mark _ => exact .inl led
    | settle => exact .inl led
  · exact .inr (gone.step step)

theorem Held.steps (held : registry.Held name handle) (separate : registry.Separate)
    (steps : registry.Steps next) : next.Held name handle := by
  induction steps with
  | refl => exact held
  | tail first step ih => exact ih.step (Steps.separate first separate) step

theorem Held.gone_of_drop (held : registry.Held name handle) (separate : registry.Separate)
    (dropped : registry.drop name = (.ok (), next)) : next.Gone handle := by
  rcases held with led | gone
  · exact separate.gone_of_drop led dropped
  · exact gone.step (.drop dropped)

end Gone

section Dead

/-- A stash that refuses whatever is done with its contents. -/
structure Dead (registry : Registry) (handle : Handle) (stash : Stash) : Prop where
  found : registry.stash? handle = some stash
  info : stash.info = .error .closed
  refuses : ∀ now call, call ≠ .takeDirty → call ≠ .close →
    stash.respond now call = .error .closed ∧ registry.put handle (stash.after now call) = registry
  unnamed : ∀ name, registry.handle? name ≠ some handle

theorem Gone.exists_dead (gone : registry.Gone handle) :
    ∃ stash, registry.Dead handle stash := by
  rcases gone.closed with ⟨stash, found, nothing⟩
  refine ⟨stash, found, ?_, ?_, gone.unnamed⟩
  · rw [Stash.info, Stash.open?, nothing]
    rfl
  · intro now call notTaking notClose
    have refused := Stash.respond_of_closed nothing now notTaking notClose
    rw [Stash.after, refused]
    exact ⟨rfl, put_self found⟩

/-- A new stash of a name, with the settings that were asked for and nothing in it. -/
structure Newborn (name : String) (options : Stash.Options) (stash : Stash) : Prop where
  named : stash.name = name
  options : stash.options = { options with maxKeys := max 1 options.maxKeys }
  clean : stash.dirty = false
  empty : ∃ contents, stash.contents = some contents ∧ contents.values = ∅ ∧
    (∀ key, contents.expiry.time? key = none) ∧ contents.recency = {}

theorem newborn_create (now : Nat) (name : String) (options : Stash.Options) :
    Newborn name options (Stash.create now name options) :=
  ⟨rfl, rfl, rfl, _, rfl, rfl, fun _ => rfl, rfl⟩

theorem eq_of_create_absent {now : Nat} {options : Stash.Options}
    (absent : registry.handle? name = none)
    (created : registry.create now name options = (.ok (), next)) :
    next = registry.register now name options := by
  have free : ¬registry.names.contains name = true := by
    rw [FiniteMap.contains, show registry.names.get? name = none from absent]
    exact Bool.false_ne_true
  rw [create, if_neg free] at created
  split at created
  · cases created
  · cases created
    rfl

/--
A handle is got by a name, and some time later the stash of that name is dropped.  Whatever is done
from then on, the handle leads to a stash that refuses every call and changes nothing, and that no
name leads to.  When a stash is created under the name again, it is a new one with another handle,
whose changes leave the dropped one as it is.
-/
theorem dropped_stash_stays_dead {first before dropped last : Registry} (arises : first.Arises)
    (led : first.handle? name = some handle) (held : first.Runs before)
    (drops : before.drop name = (.ok (), dropped)) (later : dropped.Runs last) :
    ∃ stash, last.Dead handle stash ∧
      ∀ {now : Nat} {options : Stash.Options} {next : Registry}, last.handle? name = none →
        last.create now name options = (.ok (), next) →
        ∃ other born, next.handle? name = some other ∧ other ≠ handle ∧
          next.stash? other = some born ∧ Newborn name options born ∧
          ∀ changed, (next.put other changed).stash? handle = some stash := by
  have separate := arises.steady.separate
  have kept : before.Held name handle := Held.steps (.inl led) separate held.steps
  have gone := (kept.gone_of_drop (Steps.separate held.steps separate) drops).steps later.steps
  rcases gone.exists_dead with ⟨stash, dead⟩
  refine ⟨stash, dead, fun {now options next} absent created => ?_⟩
  cases eq_of_create_absent absent created
  have apart : last.stashes.length ≠ handle :=
    (Nat.ne_of_lt (List.getElem?_eq_some_iff.mp dead.found).1).symm
  refine ⟨last.stashes.length, Stash.create now name options, ?_, apart, ?_,
    newborn_create now name options, fun changed => ?_⟩
  · rw [handle?, register, FiniteMap.get?_insert, if_pos rfl]
  · exact List.getElem?_concat_length
  · rw [stash?_put_ne apart]
    exact stash?_register_of_some dead.found now name options

/-- A name that is taken again right after its stash was dropped. -/
theorem dropped_stash_stays_dead_of_two :
    let first := (start 0 4 {} true).register 0 "a" {}
    let dropped := first.leftBehind "a" 1
    let last := dropped.register 5 "a" { maxKeys := 3 }
    first.Arises ∧ first.handle? "a" = some 1 ∧ first.drop "a" = (.ok (), dropped) ∧
      dropped.create 5 "a" { maxKeys := 3 } = (.ok (), last) ∧ last.handle? "a" = some 2 ∧
      (∃ stash, last.Dead 1 stash) ∧
      ∃ born, last.stash? 2 = some born ∧ Newborn "a" { maxKeys := 3 } born := by
  intro first dropped last
  have ready : (start 0 4 {} true).create 0 "a" {} = (.ok (), first) := by decide +kernel
  have arises : first.Arises := .create (.start 0 4 {} true) ready
  have led : first.handle? "a" = some 1 := by decide +kernel
  have drops : first.drop "a" = (.ok (), dropped) := by decide +kernel
  have created : dropped.create 5 "a" { maxKeys := 3 } = (.ok (), last) := by decide +kernel
  have again : last.handle? "a" = some 2 := by decide +kernel
  rcases dropped_stash_stays_dead arises led .refl drops .refl with ⟨_, _, births⟩
  rcases dropped_stash_stays_dead arises led .refl drops (.single (.create created)) with
    ⟨stash, dead, _⟩
  rcases births (by decide +kernel) created with ⟨other, born, named, _, found, newborn, _⟩
  cases again.symm.trans named
  exact ⟨arises, led, drops, created, again, ⟨stash, dead⟩, born, found, newborn⟩

/-- A stash that is to hold no keys gets room for one. -/
theorem reborn_stash_has_room :
    let first := (start 0 4 {} true).register 0 "a" {}
    let dropped := first.leftBehind "a" 1
    let last := dropped.register 5 "a" { maxKeys := 0 }
    first.drop "a" = (.ok (), dropped) ∧ dropped.create 5 "a" { maxKeys := 0 } = (.ok (), last) ∧
      (last.find? "a").map (fun stash => stash.options.maxKeys) = some 1 := by
  decide +kernel

end Dead

end Larder.Registry
