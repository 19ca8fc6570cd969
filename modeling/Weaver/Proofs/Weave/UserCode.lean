import Weaver.Proofs.Engine.Follow
import Weaver.Proofs.Weave.SynthesizedCode

/-!
# What a weave leaves of the user's code

The methods that a module had before its weave still run as they did. They find the same members by
the same names and identifiers, behind visibilities that have at most become wider, and they make
objects with the same slots. So a host with the woven module follows one with the module itself.

Three things live here:

* `Module.weaving`, the pairing of a module with its weave, and `sound_weaving`;
* `follows_weaving`, by which every run of an engine is followed;
* `invoke_of_weave`, the same for invocations from outside.
-/

namespace Weaver

open Host

/-! ## Accesses with a wider visibility -/

lemma Visibility.eq_ownType {v : Visibility} (narrow : v ≤ .ownType) : v = .ownType := by
  have rank : v.rank ≤ 0 := narrow
  cases v with
  | ownType => rfl
  | ownModule => exact absurd rank (by decide)
  | everywhere => exact absurd rank (by decide)

/-- In types of one module that have kept their names, a wider visibility permits what the narrower
one has. -/
lemma LoadedType.CanUseMember.widen {user target user' target' : LoadedType} {v v' : Visibility}
    (usable : user.CanUseMember target v) (wider : v ≤ v')
    (near : target'.module = user'.module)
    (userName : user'.definition.name = user.definition.name)
    (targetName : target'.definition.name = target.definition.name) :
    user'.CanUseMember target' v' := by
  cases v' with
  | everywhere => trivial
  | ownModule => exact near
  | ownType =>
    obtain rfl := Visibility.eq_ownType wider
    show target'.definition.name = user'.definition.name
    rw [targetName, userName]
    exact usable

/-- No entries have been added to the registry. -/
def Registry.SameEntries (r r' : Registry) : Prop :=
  r'.factories = r.factories ∧ r'.injectors = r.injectors

/-- Behind a new entry there are more of them. -/
lemma Registry.not_sameEntries_withWoven (r : Registry) (kind : EntryKind) (ty : String)
    (handle : MethodHandle) : ¬r.SameEntries (r.withWoven kind [(ty, handle)]) := by
  intro ⟨factories, injectors⟩
  cases kind with
  | factory =>
    have longer := congrArg List.length factories
    simp [withWoven] at longer
  | injector =>
    have longer := congrArg List.length injectors
    simp [withWoven] at longer

/-- If nothing is lost from the registry and nothing is added as a whole, nothing is added in either
part. -/
lemma Registry.SameEntries.split {h h' h'' : Host} (first : Keeps h h') (second : Keeps h' h'')
    (same : h.registry.SameEntries h''.registry) :
    h.registry.SameEntries h'.registry ∧ h'.registry.SameEntries h''.registry := by
  have factories : h'.registry.factories = h.registry.factories := by
    apply List.IsPrefix.eq_of_length_le _ _ |>.symm
    · exact first.factories
    · rw [← same.1]
      exact second.factories.length_le
  have injectors : h'.registry.injectors = h.registry.injectors := by
    apply List.IsPrefix.eq_of_length_le _ _ |>.symm
    · exact first.injectors
    · rw [← same.2]
      exact second.injectors.length_le
  exact ⟨⟨factories, injectors⟩, same.1.trans factories.symm, same.2.trans injectors.symm⟩

namespace Module

/-! ## The pairing -/

/-- The module on one host and its weave on another. Containers do not exist, and the registry of
the woven module has entries that the other has not. -/
def weaving (m : Module) (options : WeaveOptions) (ids : WeaveIds) : Pairing where
  leading := m.loadedTypes
  following := (m.rewoven options ids).loadedTypes
  Twin t c t' c' := ∃ d v, t = ⟨m.name, d⟩ ∧ t' = ⟨m.name, rewovenType ids d⟩ ∧
    c' = c.withVisibility v
  Wired w _ := w.containers = #[]
  Quiet w w' := w.registry.SameEntries w'.registry

variable {m : Module} {options : WeaveOptions} {ids : WeaveIds}

/-- Every access of the module's code is permitted in the woven module. -/
lemma covers_weaving {d : TypeDef} (i : Instr) :
    (m.weaving options ids).Covers ⟨m.name, d⟩ ⟨m.name, rewovenType ids d⟩ i := by
  -- the types are found under their names, and all of them are in one module
  have type {owner : String} {t : LoadedType} (found : m.loadedTypes.find? owner = some t) :
      ∃ b, t = ⟨m.name, b⟩ ∧
        (m.rewoven options ids).loadedTypes.find? owner = some ⟨m.name, rewovenType ids b⟩ := by
    rw [find?_loadedTypes, Option.map_eq_some_iff] at found
    obtain ⟨b, known, rfl⟩ := found
    exact ⟨b, rfl, find?_rewoven_of_some known⟩
  have access {b : TypeDef} {v v' : Visibility} (wider : v ≤ v')
      (usable : LoadedType.CanUseMember ⟨m.name, d⟩ ⟨m.name, b⟩ v) :
      LoadedType.CanUseMember ⟨m.name, rewovenType ids d⟩ ⟨m.name, rewovenType ids b⟩ v' :=
    usable.widen wider rfl (d.rewoven_name _ _) (b.rewoven_name _ _)
  have field {owner name : String} : (m.weaving options ids).CoversMember ⟨m.name, d⟩
      ⟨m.name, rewovenType ids d⟩ owner (·.field? name) (·.visibility) fun _ _ _ _ => True := by
    intro t f found _ declared usable
    obtain ⟨b, rfl, found'⟩ := type found
    obtain ⟨v, wider, declared'⟩ := b.field?_rewoven _ _ declared
    exact ⟨_, _, found', .inr rfl, declared', access wider usable, trivial⟩
  cases i with
  | loadField owner name => exact field
  | storeField owner name => exact field
  | newObject owner ctor =>
    intro t c found _ declared usable
    obtain ⟨b, rfl, found'⟩ := type found
    obtain ⟨v, wider, declared'⟩ := b.constructor?_rewoven _ _ declared
    exact ⟨_, _, found', .inr rfl, declared', access wider usable, rfl⟩
  | call owner method =>
    intro t c found _ declared usable
    obtain ⟨b, rfl, found'⟩ := type found
    obtain ⟨v, wider, declared'⟩ := b.member?_rewoven _ _ declared
    exact ⟨_, _, found', .inr rfl, declared', access wider usable, b, v, rfl, rfl, rfl⟩
  | loadMethod owner method =>
    intro t c found _ declared usable
    obtain ⟨b, rfl, found'⟩ := type found
    exact ⟨_, _, found', .inr rfl, b.method?_rewoven _ _ declared,
      access (TypeDef.le_refl_visibility _) usable, rfl⟩
  | register kind ty =>
    intro h h' handle registered
    obtain ⟨rfl, -⟩ := Engine.of_registerWoven registered
    exact Registry.not_sameEntries_withWoven h.registry kind ty handle
  | _ => trivial

/-- The woven module permits what the module does, if no type is derived from the registrar. -/
lemma sound_weaving (absent : m.typeNamed? (registrarName m.name options.registrarName) = none)
    (underived : ∀ t ∈ m.types, t.supertype ≠ some (registrarName m.name options.registrarName)) :
    (m.weaving options ids).Sound where
  arity := by
    rintro _ c _ _ ⟨d, v, rfl, rfl, rfl⟩
    rfl
  returnType := by
    rintro _ c _ _ ⟨d, v, rfl, rfl, rfl⟩
    rfl
  body := by
    rintro _ c _ _ ⟨d, v, rfl, rfl, rfl⟩
    rfl
  covers := by
    rintro _ c _ _ ⟨d, v, rfl, rfl, rfl⟩ i -
    exact covers_weaving i
  construct := by
    intro ty t ctor c slots found concrete declared layout
    have known : m.loadedTypes.find? ty = some t := found
    rw [find?_loadedTypes, Option.map_eq_some_iff] at known
    obtain ⟨b, known, rfl⟩ := known
    obtain ⟨v, -, declared'⟩ := b.constructor?_rewoven (ids.entry .factory b.name)
      (ids.entry .injector b.name) declared
    refine ⟨_, _, find?_rewoven_of_some known, ?_, declared', layout_rewoven absent underived layout,
      b, v, rfl, rfl, rfl⟩
    rw [rewovenType, TypeDef.rewoven_isAbstract, TypeDef.rewoven_isInterface]
    exact concrete
  conforms := conforms_rewoven
  quiet first second same := same.split first.keeps second.keeps

/-! ## Runs -/

/-- No resolution ends well on a host without containers. -/
lemma not_resolve_of_empty {e : Engine} {h h' : Host} {c : ContainerRef} {ty : String} {value : Value}
    (empty : h.containers = #[]) : (e.next.resolve c ty).run h ≠ some (.ok value, h') := by
  have invalid : ¬c.index < h.containers.size := by
    rw [empty]
    exact Nat.not_lt_zero _
  have none : ∀ f, (h.updateContainer c f).bindingFor? c ty = none := by
    intro f
    rw [updateContainer_eq_self invalid]
    exact bindingFor?_eq_none invalid ty
  intro ok
  change (e.resolveNext c ty).run h = _ at ok
  rw [Engine.resolveNext, Run.run_get_bind] at ok
  split at ok
  · cases ok
  · change (Run.between (·.enterResolution c) _ _).run h = _ at ok
    rw [Run.run_between, Run.run_get_bind, enterResolution, none] at ok
    cases ok

/-- Every run of the module's code is followed by the woven module. -/
lemma follows_weaving (sound : (m.weaving options ids).Sound) (n : ℕ) :
    (m.weaving options ids).Follows (Engine.ofLevel n) Engine.unlimited := by
  induction n with
  | zero => exact Pairing.follows_ofLevel_zero _
  | succ n ih =>
    refine ⟨Engine.traced_ofLevel (n + 1), fun same twin args => ?_, ?_⟩
    · rw [← Engine.next_unlimited]
      exact ih.callNext sound same twin args
    · intro h g same c ty value h' ok
      exact absurd ok (not_resolve_of_empty same.wired)

end Module

/-! ## Invocations -/

/-- A weave preserves the meaning of the user's code. If an invocation ends well on a host that has
loaded the module and nothing else, it ends well on a host that has loaded the woven module and
nothing else: with the same value, the same objects and the same output. It must not have registered
anything, which shows in the entries of the registry, since every registration that ends well adds
one. It cannot have resolved anything, since there is no container. -/
theorem invoke_of_weave {m m' : Module} {options : WeaveOptions} {supply supply' : IdSupply}
    {report : WeaveReport} {config config' : HostConfig} {h h' g : Host}
    {loadReport loadReport' : LoadReport} {owner method : String} {args : List Value}
    {value : Option Value} (names : m.Unambiguous) (hooks : m.NoLoadHooks)
    (underived : ∀ t ∈ m.types, t.supertype ≠ some (registrarName m.name options.registrarName))
    (woven : m.weave options supply = .ok (.woven report, m', supply'))
    (loaded : (load m).run (Host.new config) = some (.ok loadReport, h))
    (loaded' : (load m').run (Host.new config') = some (.ok loadReport', g))
    (ok : (Host.invoke owner method args).run h = some (.ok value, h'))
    (unregistered : h.registry.SameEntries h'.registry) :
    ∃ g', (Host.invoke owner method args).run g = some (.ok value, g') ∧
      g'.objects = h'.objects ∧ g'.output = h'.output := by
  obtain ⟨ids, drawn⟩ := exists_weaveIds names.types supply
  have absent := typeNamed?_registrar_of_weave woven
  obtain ⟨rfl, -, -⟩ := eq_rewoven_of_weave names drawn woven
  have sound : (m.weaving options ids).Sound := Module.sound_weaving absent underived
  -- both hosts have only what the modules declare
  have same : (m.weaving options ids).Match h g := by
    rw [load_of_noLoadHooks hooks loaded, load_rewoven_of_noLoadHooks hooks loaded']
    split <;> exact ⟨rfl, rfl, rfl, rfl, le_rfl, rfl⟩
  -- the invoked method is found on the leading host, or the invocation would have failed
  rw [Host.invoke, Engine.run_withEngine, Engine.invoke, Run.run_get_bind, same.leading] at ok
  cases found : (m.weaving options ids).leading.find? owner with
  | none =>
    rw [found] at ok
    cases ok
  | some t =>
  rw [found] at ok
  dsimp only at ok
  cases declared : t.definition.methodNamed? method with
  | none =>
    rw [declared] at ok
    cases ok
  | some callee =>
  rw [declared] at ok
  have known : m.loadedTypes.find? owner = some t := found
  rw [Module.find?_loadedTypes, Option.map_eq_some_iff] at known
  obtain ⟨b, known, rfl⟩ := known
  -- weaves append methods, so the first one of the name is the same
  have found' : g.types.find? owner = some ⟨m.name, Module.rewovenType ids b⟩ := by
    rw [same.following]
    exact Module.find?_rewoven_of_some known
  have twin : (m.weaving options ids).Twin ⟨m.name, b⟩ callee ⟨m.name, Module.rewovenType ids b⟩
      callee := ⟨b, callee.visibility, rfl, rfl, rfl⟩
  obtain ⟨g', run, same'⟩ := (Module.follows_weaving sound h.levels).call same twin args value h' ok
    unregistered
  refine ⟨g', ?_, same'.objects, same'.output⟩
  rw [Engine.invoke_unlimited, Engine.invoke, Run.run_get_bind, found']
  dsimp only
  rw [Module.rewovenType, b.methodNamed?_rewoven _ _ declared]
  exact run

/-- On a player, both invocations of a method that prints a new object end well. -/
theorem invoke_lamp_show :
    lamp.Unambiguous ∧ lamp.NoLoadHooks ∧
    (∀ t ∈ lamp.types,
      t.supertype ≠ some (registrarName lamp.name ({} : WeaveOptions).registrarName)) ∧
    ∃ report supply' loadReport loadReport' h h' g,
      lamp.weave {} lampIds = .ok (.woven report, wovenLamp, supply') ∧
      (load lamp).run (Host.new {}) = some (.ok loadReport, h) ∧
      (load wovenLamp).run (Host.new {}) = some (.ok loadReport', g) ∧
      (Host.invoke "Lamp.Desk" "Show" []).run h = some (.ok none, h') ∧
      h.registry.SameEntries h'.registry ∧
      ∃ g', (Host.invoke "Lamp.Desk" "Show" []).run g = some (.ok none, g') ∧
        g'.objects = h'.objects ∧ g'.output = h'.output := by
  have hooks : lamp.NoLoadHooks := by decide
  have underived : ∀ t ∈ lamp.types,
      t.supertype ≠ some (registrarName lamp.name ({} : WeaveOptions).registrarName) := by decide
  obtain ⟨report, supply', woven⟩ := exists_weave_lamp
  obtain ⟨loadReport', g, loaded', -⟩ := exists_load_wovenLamp
  refine ⟨lamp_unambiguous, hooks, underived, report, supply', _, loadReport', _, _, g, woven, rfl,
    loaded', rfl, ⟨rfl, rfl⟩, ?_⟩
  exact invoke_of_weave lamp_unambiguous hooks underived woven rfl loaded' rfl ⟨rfl, rfl⟩

end Weaver
