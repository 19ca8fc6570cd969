import Weaver.Proofs.Injection.Declarations
import Weaver.Proofs.Injection.Resolving

/-!
# Exactness of the checks on resolutions

Three checks stop resolutions that would not come to an end: a binding that is making an instance is
not to make another one, only so many resolutions of a container may be active, and only so many
calls. For a woven module of classes that depend on nothing but each other, they stop no more than
that. A class from which every path of the injection graph is short is always resolved, whatever was
resolved before and however that has ended, and a class from which a cycle can be reached never is.

Three things live here:

* `Module.AtRest`, what holds between resolutions;
* `resolve_exact`, for every such module, all bindings of its classes to themselves, and every
  sequence of earlier resolutions;
* two examples of what it is that has to be asked of the weave and of hooks.
-/

namespace Weaver

open Host

/-- One resolution from outside of any code, however it ends. -/
def Host.Resolves (c : ContainerRef) (h h' : Host) : Prop :=
  ∃ ty r, (resolve c ty).run h = some (r, h')

namespace Module

variable {m : Module} {options : WeaveOptions} {ids : WeaveIds} {supply : IdSupply}
  {c : ContainerRef} {h h' : Host} {t : TypeDef} {bindings : List (String × List BindingStep)}

/-- Bindings for the classes of a module, one for each, to the class itself. -/
structure Binds (m : Module) (bindings : List (String × List BindingStep)) : Prop where
  once : (bindings.map (·.1)).Perm (m.types.map (·.name))
  own : ∀ b ∈ bindings, BindingStep.Own b.1 b.2

/-! ## Hosts at rest -/

/-- What holds between resolutions: none is active, and only classes of the module are bound. -/
structure AtRest (m : Module) (ids : WeaveIds) (c : ContainerRef) (h : Host) : Prop extends
    m.Standing ids c h where
  rest : (h.container c).depth = 0
  idle {t : TypeDef} {ref : BindingRef} : t ∈ m.types → h.bindingFor? c t.name = some ref →
    (h.binding ref).producing = false
  unbound {ty : String} : (∀ t ∈ m.types, t.name ≠ ty) → h.bindingFor? c ty = none

/-- A resolution leaves the host at rest, however it ends. -/
lemma AtRest.resolves (contained : m.SelfContained) (fresh : supply.FreshFor m)
    (drawn : ids.inOrder m = supply.next m.idsNeeded) (rest : m.AtRest ids c h)
    (resolves : Resolves c h h') : m.AtRest ids c h' := by
  obtain ⟨ty, r, run⟩ := resolves
  by_cases known : ∃ t ∈ m.types, t.name = ty
  · obtain ⟨t, member, rfl⟩ := known
    have after : m.Standing ids c h' ∧ Extends c h h' := by
      have ends := ends_resolve contained fresh drawn rest.toStanding member
      rw [run] at ends
      cases ends with
      | value standing grown _ => exact ⟨standing, grown⟩
      | fault standing grown _ => exact ⟨standing, grown⟩
    obtain ⟨standing, grown⟩ := after
    refine
      { standing with
        rest := ?_
        idle := fun {s ref} hs found => ?_
        unbound := fun none => ?_ }
    · rw [grown.depth]
      exact rest.rest
    · rw [grown.found] at found
      rw [grown.producing]
      exact rest.idle hs found
    · rw [grown.found]
      exact rest.unbound none
  · have missing := rest.unbound fun t member named => known ⟨t, member, named⟩
    have room : (h.container c).depth < maxResolveDepth := by
      rw [rest.rest]
      decide
    rw [resolve_eq, Engine.run_resolve_of_notFound room missing] at run
    cases run
    exact rest

/-- At rest, short paths are all that a resolution needs. -/
lemma AtRest.sure (contained : m.SelfContained) (rest : m.AtRest ids c h) (member : t ∈ m.types)
    (short : ∀ path, List.IsChain m.Depends (t.name :: path) →
      (t.name :: path).length ≤ maxResolveDepth) : m.Sure c h t.name where
  short := ⟨maxResolveDepth, within_of_paths short, by rw [rest.rest, Nat.add_zero]⟩
  idle {b ref} path found := by
    rcases path.cases_tail with rfl | ⟨_, -, last⟩
    · exact rest.idle member found
    · obtain ⟨s, hs, rfl⟩ := contained.exists_of_depends last
      exact rest.idle hs found

/-- Without supertypes, a host that has the entries of the weave and declares the bindings is at
rest. -/
lemma atRest_of_declares (declares : Declares c (bindings.map (·.1)) h) (binds : m.Binds bindings)
    (types : ∀ t ∈ m.types, h.types.find? t.name = some ⟨m.name, rewovenType ids t⟩)
    (base : ∀ ty, h.types.supertype? ty = none) (registered : m.Registered ids h)
    (bare : ∀ t ∈ m.types, t.markedFields = [] → h.registry.injectors.find? t.name = none)
    (alone : h.registry.fallback = none) (calls : h.callDepth = 0) : m.AtRest ids c h := by
  have bound (t : TypeDef) (member : t ∈ m.types) := bindingFor?_of_declares declares (base t.name)
    (binds.once.mem_iff.2 (List.mem_map_of_mem member))
  have binding {t : TypeDef} {ref : BindingRef} (member : t ∈ m.types)
      (found : h.bindingFor? c t.name = some ref) : ∃ scope,
      h.binding ref = { requested := t.name, concrete := t.name, scope } := by
    obtain ⟨ref', found', -, scope, -, there⟩ := bound t member
    cases found.symm.trans found'
    exact ⟨scope, there⟩
  refine
    { container := declares.container
      types := fun {t} member => types t member
      registered := registered
      bare := fun {t} member none => bare t member none
      alone := alone
      bound := fun {t} member => ?_
      calls := calls ▸ Nat.zero_le _
      depth := declares.depth ▸ Nat.zero_le _
      state := fun {t ref} member found => ?_
      rest := declares.depth
      idle := fun {t ref} member found => ?_
      unbound := fun {ty} other => ?_ }
  · obtain ⟨ref, found, valid, scope, set, there⟩ := bound t member
    exact ⟨ref, scope, found, valid, set, by rw [there]; rfl⟩
  · obtain ⟨scope, there⟩ := binding member found
    rw [there]
    exact .inl ⟨rfl, rfl⟩
  · obtain ⟨scope, there⟩ := binding member found
    rw [there]
  · refine bindingFor?_eq_none_of_declares declares (base ty) fun declared => ?_
    obtain ⟨t, member, named⟩ := List.mem_map.1 (binds.once.mem_iff.1 declared)
    exact other t member named

/-- A host that has loaded the woven module and declares the bindings is at rest. -/
lemma atRest_of_load {loadReport : LoadReport} (contained : m.SelfContained)
    (regular : options.editorOnly = false)
    (loaded : (load (m.rewoven options ids)).run (Host.new {}) = some (.ok loadReport, h))
    (bare : ∀ t ∈ m.types, t.markedFields = [] → h.registry.injectors.find? t.name = none)
    (binds : m.Binds bindings) :
    m.AtRest ids h.addContainer.1 (h.addContainer.2.declare h.addContainer.1 bindings) := by
  obtain ⟨hooks, -, -, history⟩ := exists_hooks_of_load loaded
  have declares := (declares_addContainer h).declare binds.own
  rw [List.nil_append] at declares
  obtain ⟨containers, bindings', same⟩ :=
    exists_declare binds.own h.addContainer.2 h.addContainer.1
  rw [same] at declares ⊢
  have types : h.types = (m.rewoven options ids).loadedTypes := history.keeps.types
  have runs : (Host.new {}).config.mode.runs (loadHook options.editorOnly) = true := by
    rw [regular]
    rfl
  have registered := registered_rewoven loaded runs (.refl h)
  refine atRest_of_declares declares binds (fun t member => ?_) (fun ty => ?_)
    ⟨registered.factory, registered.injector⟩ bare history.fallback history.keeps.callDepth
  · change h.types.find? t.name = _
    rw [types, find?_rewoven_of_some (find?_key_of_mem TypeDef.name contained.types member)]
  · change h.types.supertype? ty = none
    rw [types, supertype?_rewoven, Universe.supertype?, find?_loadedTypes]
    cases found : m.typeNamed? ty with
    | none => rfl
    | some t => exact (contained.concrete t (List.mem_of_find?_eq_some found)).2.2

/-! ## Exactness -/

/-- A player without a fallback has loaded the module after its weave, and there are bindings for
its classes. -/
structure Installed (m : Module) (options : WeaveOptions) (supply : IdSupply)
    (bindings : List (String × List BindingStep)) (h : Host) : Prop where
  contained : m.SelfContained
  fresh : supply.FreshFor m
  binds : m.Binds bindings
  loaded : ∃ report m' supply' loadReport,
    m.weave options supply = .ok (.woven report, m', supply') ∧
    (load m').run (Host.new {}) = some (.ok loadReport, h)

/-- Without load hooks of its own, a module leaves no injectors but those of the weave. -/
lemma Installed.bare (installed : m.Installed options supply bindings h) (hooks : m.NoLoadHooks) :
    ∀ t ∈ m.types, t.markedFields = [] → h.registry.injectors.find? t.name = none := by
  obtain ⟨contained, -, -, report, m', supply', loadReport, woven, loaded⟩ := installed
  obtain ⟨ids, drawn⟩ := exists_weaveIds contained.types supply
  obtain ⟨rfl, -, -⟩ := eq_rewoven_of_weave contained.unambiguous drawn woven
  intro t member none
  have untargeted : t.name ∉ m.targetNames .injector := by
    intro target
    obtain ⟨s, hs, gets, named⟩ := mem_targetNames.1 target
    obtain rfl := List.inj_on_of_nodup_map contained.types hs member named
    exact (TypeDef.gets_injector_iff.1 gets).2 none
  rw [load_rewoven_of_noLoadHooks hooks loaded]
  split
  · exact (m.find?_injectors_bakedRegistry ids t.name).trans (if_neg untargeted)
  · rfl

/-- A class is resolved exactly as the injection graph says. If no path from it visits more than 48
classes, so that no path leads into a cycle, the answer is an object that has an instance of its
class in every field that is filled. If a cycle can be reached, the resolution fails. -/
structure ExactAt (m : Module) (c : ContainerRef) (h : Host) (t : TypeDef) : Prop where
  short : (∀ path, List.IsChain m.Depends (t.name :: path) → (t.name :: path).length ≤ 48) →
    ∃ o h', (resolve c t.name).run h = some (.ok (.object o), h') ∧ Provides c t.name h' o ∧
      Filled c t.name t.dependencies h' o
  cyclic : m.Cyclic t.name →
    ∃ cause h', (resolve c t.name).run h = some (.error (.execution cause), h')

lemma AtRest.exactAt (contained : m.SelfContained) (fresh : supply.FreshFor m)
    (drawn : ids.inOrder m = supply.next m.idsNeeded) (rest : m.AtRest ids c h)
    (member : t ∈ m.types) : m.ExactAt c h t := by
  have ends := ends_resolve contained fresh drawn rest.toStanding member
  cases outcome : (resolve c t.name).run h with
  | none =>
    rw [outcome] at ends
    cases ends
  | some r =>
  rw [outcome] at ends
  cases ends with
  | value standing grown made =>
    obtain ⟨o, rfl, completed⟩ := made
    refine ⟨fun _ => ⟨o, _, outcome, completed.provides, completed.filled⟩, fun cyclic => ?_⟩
    exact absurd cyclic completed.founded.not_cyclic
  | fault standing grown unsure =>
    exact ⟨fun short => absurd (rest.sure contained member short) unsure, fun _ => ⟨_, _, outcome⟩⟩

end Module

/-- Resolutions of the classes of a woven module are exact. The weave is one for all hosts, and load
hooks of the module, if it has any, have left no injectors for classes without marked fields. It
does not matter what was resolved before, in which order, and how often that has failed. -/
theorem resolve_exact {m : Module} {options : WeaveOptions} {supply : IdSupply} {h₀ h : Host}
    {t : TypeDef} {bindings : List (String × List BindingStep)}
    (installed : m.Installed options supply bindings h₀) (regular : options.editorOnly = false)
    (bare : ∀ s ∈ m.types, s.markedFields = [] → h₀.registry.injectors.find? s.name = none)
    (earlier : Relation.ReflTransGen (Resolves h₀.addContainer.1)
      (h₀.addContainer.2.declare h₀.addContainer.1 bindings) h)
    (member : t ∈ m.types) : m.ExactAt h₀.addContainer.1 h t := by
  obtain ⟨contained, fresh, binds, report, m', supply', loadReport, woven, loaded⟩ := installed
  obtain ⟨ids, drawn⟩ := exists_weaveIds contained.types supply
  obtain ⟨rfl, -, -⟩ := eq_rewoven_of_weave contained.unambiguous drawn woven
  have rest : m.AtRest ids h₀.addContainer.1 h := by
    induction earlier with
    | refl => exact Module.atRest_of_load contained regular loaded bare binds
    | tail _ resolves ih => exact ih.resolves contained fresh drawn resolves
  exact rest.exactAt contained fresh drawn member

/-! ### An example -/

/-- A module with four classes: a cow depends on a meadow in two ways, a hen and an egg depend on
each other. -/
def farm : Module :=
  { name := "Farm"
    references := [supportModule]
    types :=
      [{ TypeDef.newClass (Uuid.numbered 1) "Farm.Meadow" with
          constructors := [(Method.assigning (Uuid.numbered 2) "Farm.Meadow" []).mark .inject] },
        { TypeDef.newClass (Uuid.numbered 3) "Farm.Cow" with
          fields :=
            [{ id := Uuid.numbered 4, name := "home", ty := "Farm.Meadow" },
              Field.injected (Uuid.numbered 5) "food" "Farm.Meadow"]
          constructors :=
            [(Method.assigning (Uuid.numbered 6) "Farm.Cow"
              [⟨"home", "Farm.Meadow"⟩]).mark .inject] },
        { TypeDef.newClass (Uuid.numbered 7) "Farm.Hen" with
          fields := [{ id := Uuid.numbered 8, name := "shell", ty := "Farm.Egg" }]
          constructors :=
            [(Method.assigning (Uuid.numbered 9) "Farm.Hen"
              [⟨"shell", "Farm.Egg"⟩]).mark .inject] },
        { TypeDef.newClass (Uuid.numbered 10) "Farm.Egg" with
          fields := [Field.injected (Uuid.numbered 11) "parent" "Farm.Hen"]
          constructors := [(Method.assigning (Uuid.numbered 12) "Farm.Egg" []).mark .inject] }] }

/-- One meadow for all cows. -/
def farmBindings : List (String × List BindingStep) :=
  [("Farm.Cow", [.asTransient]), ("Farm.Meadow", [.madeAs "Farm.Meadow", .asSingleton]),
    ("Farm.Egg", [.asSingleton]), ("Farm.Hen", [.asTransient])]

/-- A module after a weave. -/
def wovenBy (options : WeaveOptions) (m : Module) : Module :=
  match m.weave options lampIds with
  | .ok (_, m', _) => m'
  | .error _ => m

/-- A player that has loaded a module. -/
def playerOf (m : Module) : Host :=
  match (load m).run (Host.new {}) with
  | some (_, h) => h
  | none => Host.new {}

lemma exists_loaded_of_isOk {m : Module} {options : WeaveOptions}
    (woven : ∃ report supply',
      m.weave options lampIds = .ok (.woven report, wovenBy options m, supply'))
    (ends : ((load (wovenBy options m)).run (Host.new {})).any (fun r => r.1.isOk) = true) :
    ∃ report m' supply' loadReport, m.weave options lampIds = .ok (.woven report, m', supply') ∧
      (load m').run (Host.new {}) = some (.ok loadReport, playerOf (wovenBy options m)) := by
  obtain ⟨report, supply', woven⟩ := woven
  obtain ⟨⟨r, h⟩, run, ok⟩ := (Option.any_eq_true _ _).1 ends
  have same : playerOf (wovenBy options m) = h := by rw [playerOf, run]
  cases r with
  | ok loadReport => exact ⟨report, _, supply', loadReport, woven, same ▸ run⟩
  | error e => cases ok

lemma farm_selfContained : farm.SelfContained where
  types := by decide
  fields := by decide
  concrete := by decide
  closed := by decide
  constructor := by
    simp only [farm, List.forall_mem_cons]
    refine ⟨⟨_, rfl, ?_⟩, ⟨_, rfl, ?_⟩, ⟨_, rfl, ?_⟩, ⟨_, rfl, ?_⟩, by simp⟩
    all_goals exact ⟨rfl, rfl, by decide, by decide, by decide⟩

lemma farm_binds : farm.Binds farmBindings where
  once := by decide
  own := by
    simp only [farmBindings, List.forall_mem_cons]
    refine ⟨?_, ?_, ?_, ?_, by simp⟩
    all_goals exact ⟨by simp, by simp⟩

/-- The player that has loaded the woven farm. -/
def farmPlayer : Host := playerOf (wovenBy {} farm)

lemma farm_installed : farm.Installed {} lampIds farmBindings farmPlayer where
  contained := farm_selfContained
  fresh := ⟨by decide, by decide⟩
  binds := farm_binds
  loaded := exists_loaded_of_isOk ⟨_, _, rfl⟩ (by decide +kernel)

/-- The cow depends on the meadow, which depends on nothing. -/
lemma farm_within : farm.Within 2 "Farm.Cow" := by
  have ends : ∀ s ∈ farm.types, farm.Depends "Farm.Cow" s.name →
      ∀ s' ∈ farm.types, ¬farm.Depends s.name s'.name := by decide
  intro b edge b' edge'
  obtain ⟨s, hs, rfl⟩ := farm_selfContained.exists_of_depends edge
  obtain ⟨s', hs', rfl⟩ := farm_selfContained.exists_of_depends edge'
  exact ends s hs edge s' hs' edge'

lemma farm_cyclic : farm.Cyclic "Farm.Hen" := by
  have first : farm.Depends "Farm.Hen" "Farm.Egg" := by decide
  have second : farm.Depends "Farm.Egg" "Farm.Hen" := by decide
  exact ⟨"Farm.Hen", .refl, .tail (.single first) second⟩

/-- A hen is not resolved, and a cow is resolved afterwards. -/
theorem resolve_exact_farm :
    farm.Installed {} lampIds farmBindings farmPlayer ∧
    (∀ s ∈ farm.types, s.markedFields = [] → farmPlayer.registry.injectors.find? s.name = none) ∧
    ∃ cause h, (resolve farmPlayer.addContainer.1 "Farm.Hen").run
        (farmPlayer.addContainer.2.declare farmPlayer.addContainer.1 farmBindings)
          = some (.error (.execution cause), h) ∧
      ∃ o h', (resolve farmPlayer.addContainer.1 "Farm.Cow").run h = some (.ok (.object o), h') ∧
        Provides farmPlayer.addContainer.1 "Farm.Cow" h' o ∧
        Filled farmPlayer.addContainer.1 "Farm.Cow"
          [("home", "Farm.Meadow"), ("food", "Farm.Meadow")] h' o := by
  have installed := farm_installed
  have bare := installed.bare (by decide)
  obtain ⟨hen, memberHen, namedHen⟩ : ∃ t ∈ farm.types, t.name = "Farm.Hen" := by decide
  have first := resolve_exact installed rfl bare .refl memberHen
  obtain ⟨cause, h, failed⟩ := first.cyclic (namedHen ▸ farm_cyclic)
  rw [namedHen] at failed
  refine ⟨installed, bare, cause, h, failed, ?_⟩
  obtain ⟨cow, memberCow, namedCow, fields⟩ : ∃ t ∈ farm.types, t.name = "Farm.Cow" ∧
      t.dependencies = [("home", "Farm.Meadow"), ("food", "Farm.Meadow")] := by decide
  have second := resolve_exact installed rfl bare (.single ⟨_, _, failed⟩) memberCow
  obtain ⟨o, h', run, provides, filled⟩ := second.short fun path chain => by
    rw [namedCow] at chain
    exact (farm_within.length_le chain).trans (by decide)
  rw [namedCow] at run provides filled
  exact ⟨o, h', run, provides, fields ▸ filled⟩

/-! ### What has to be asked -/

/-- The player that has loaded the farm after a weave for editors. -/
def editorFarm : Host := playerOf (wovenBy { editorOnly := true } farm)

lemma editorFarm_installed :
    farm.Installed { editorOnly := true } lampIds farmBindings editorFarm where
  contained := farm_selfContained
  fresh := ⟨by decide, by decide⟩
  binds := farm_binds
  loaded := exists_loaded_of_isOk ⟨_, _, rfl⟩ (by decide +kernel)

/-- A module with one class and a load hook, which registers an injector for the class although it
has no marked fields. The injector does not work. -/
def barn : Module :=
  { name := "Barn"
    references := [supportModule]
    types :=
      [{ TypeDef.newClass (Uuid.numbered 1) "Barn.Door" with
          visibility := .everywhere
          constructors := [(Method.assigning (Uuid.numbered 2) "Barn.Door" []).mark .inject]
          methods :=
            [{ Method.newStatic (Uuid.numbered 3) "Fill" with
                visibility := .everywhere
                params := [⟨"door", "Barn.Door"⟩, ⟨"container", containerType⟩]
                body := [.pop, .ret] },
              { Method.newStatic (Uuid.numbered 4) "Open" with
                visibility := .everywhere
                markers := [.runtimeLoadHook]
                body :=
                  [.loadMethod "Barn.Door" (Uuid.numbered 3), .register .injector "Barn.Door",
                    .ret] }] }] }

def barnBindings : List (String × List BindingStep) := [("Barn.Door", [.asTransient])]

/-- The player that has loaded the woven barn. -/
def barnPlayer : Host := playerOf (wovenBy {} barn)

lemma barn_installed : barn.Installed {} lampIds barnBindings barnPlayer where
  contained :=
    { types := by decide
      fields := by decide
      concrete := by decide
      closed := by decide
      constructor := by
        simp only [barn, List.forall_mem_cons]
        exact ⟨⟨_, rfl, ⟨rfl, rfl, by decide, by decide, by decide⟩⟩, by simp⟩ }
  fresh := ⟨by decide, by decide⟩
  binds :=
    { once := by decide
      own := by
        simp only [barnBindings, List.forall_mem_cons]
        exact ⟨⟨by simp, by simp⟩, by simp⟩ }
  loaded := exists_loaded_of_isOk ⟨_, _, rfl⟩ (by decide +kernel)

/-- Without the check of what was made, an instance is made for a type and filled. -/
def Engine.makeUnchecked (e : Engine) (c : ContainerRef) (ty : String) (b : Binding) :
    Run Value := do
  let produced ← e.produce c b
  if let some injector ← Run.injectorOf? ty then e.runInjector injector produced c
  return produced

/-- If an instance is made, it is also made without the check. -/
lemma Engine.run_makeUnchecked {e : Engine} {c : ContainerRef} {ty : String} {b : Binding}
    {value : Value} {h h' : Host} (ok : (e.make c ty b).run h = some (.ok value, h')) :
    (e.makeUnchecked c ty b).run h = some (.ok value, h') := by
  rw [make, Run.run_bind_eq_ok_iff] at ok
  obtain ⟨produced, h₁, made, ok⟩ := ok
  rw [Run.run_bind_eq_ok_iff] at ok
  obtain ⟨u, h₂, checked, ok⟩ := ok
  have same : h₂ = h₁ := by
    rw [checkInstance, Run.run_get_bind] at checked
    split at checked
    · cases checked
    · cases checked
      rfl
  rw [same] at ok
  exact (Run.run_bind_of_ok made).trans ok

/-- If the instance cannot be made even without the check, the type is not resolved. -/
lemma resolve_ne_ok {c : ContainerRef} {ty : String} {ref : BindingRef} {h h' : Host}
    {value : Value} (room : (h.container c).depth < maxResolveDepth)
    (found : h.bindingFor? c ty = some ref)
    (open_ : (h.binding ref).resolved = false ∧ (h.binding ref).producing = false)
    (fails : ((Engine.unlimited.makeUnchecked c ty (h.binding ref)).run
      (h.enterProduction c ref)).any (fun r => r.1.isOk) = false) :
    (resolve c ty).run h ≠ some (.ok value, h') := by
  intro ok
  rw [resolve_eq, Engine.run_resolve_of_idle room found open_.1 open_.2,
    Option.map_eq_some_iff] at ok
  obtain ⟨⟨r, h₁⟩, ok, same⟩ := ok
  cases same
  rw [Run.run_bind_eq_ok_iff] at ok
  obtain ⟨produced, h₂, made, -⟩ := ok
  rw [Engine.run_makeUnchecked made] at fails
  cases fails

/-- A class that depends on nothing is not resolved exactly if it is not resolved. -/
lemma not_exactAt {m : Module} {c : ContainerRef} {h : Host} {t : TypeDef}
    (contained : m.SelfContained) (alone : ∀ s ∈ m.types, ¬m.Depends t.name s.name)
    (fails : ∀ value h', (resolve c t.name).run h ≠ some (.ok value, h')) : ¬m.ExactAt c h t := by
  intro exactly
  have within : m.Within 1 t.name := by
    intro b edge
    obtain ⟨s, hs, rfl⟩ := contained.exists_of_depends edge
    exact alone s hs edge
  obtain ⟨o, h', run, -⟩ := exactly.short fun path chain =>
    (within.length_le chain).trans (by decide)
  exact fails _ _ run

/-- Without one of the two conditions, a class that depends on nothing may not be resolved. Players
do not run the hook of a weave for editors, and load hooks may register what the weave leaves
out. -/
theorem exists_not_exactAt :
    (farm.Installed { editorOnly := true } lampIds farmBindings editorFarm ∧
      ∃ t ∈ farm.types, ¬farm.ExactAt editorFarm.addContainer.1
        (editorFarm.addContainer.2.declare editorFarm.addContainer.1 farmBindings) t) ∧
    barn.Installed {} lampIds barnBindings barnPlayer ∧
      ∃ t ∈ barn.types, ¬barn.ExactAt barnPlayer.addContainer.1
        (barnPlayer.addContainer.2.declare barnPlayer.addContainer.1 barnBindings) t := by
  refine ⟨⟨editorFarm_installed, ?_⟩, barn_installed, ?_⟩
  · obtain ⟨meadow, member, named, alone⟩ : ∃ t ∈ farm.types, t.name = "Farm.Meadow" ∧
        ∀ s ∈ farm.types, ¬farm.Depends t.name s.name := by decide
    refine ⟨meadow, member, not_exactAt farm_selfContained alone fun value h' => ?_⟩
    rw [named]
    have found : (editorFarm.addContainer.2.declare editorFarm.addContainer.1
        farmBindings).bindingFor? editorFarm.addContainer.1 "Farm.Meadow" = some ⟨1⟩ := by
      decide +kernel
    exact resolve_ne_ok (by decide +kernel) found (by decide +kernel) (by decide +kernel)
  · obtain ⟨door, member, named, alone⟩ : ∃ t ∈ barn.types, t.name = "Barn.Door" ∧
        ∀ s ∈ barn.types, ¬barn.Depends t.name s.name := by decide
    refine ⟨door, member, not_exactAt barn_installed.contained alone fun value h' => ?_⟩
    rw [named]
    have found : (barnPlayer.addContainer.2.declare barnPlayer.addContainer.1
        barnBindings).bindingFor? barnPlayer.addContainer.1 "Barn.Door" = some ⟨0⟩ := by
      decide +kernel
    exact resolve_ne_ok (by decide +kernel) found (by decide +kernel) (by decide +kernel)

end Weaver
