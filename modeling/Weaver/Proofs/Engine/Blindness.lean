import Weaver.Proofs.Engine.Outside

/-!
# Code that is blind to private fields

Two hosts may differ in what private fields of a type hold. Code of other types cannot tell: what it
reads from objects has passed the checks, and those let nothing pass that is private. Neither can it
change what such a field holds. So a run that stays outside of the type takes the same course on
both hosts, whatever it calls, makes, registers and resolves on the way.

Two things live here:

* `Run.BlindAt`, two runs that take the same course on two such hosts, with one lemma for each
  function of the engine;
* `Engine.Blind`, engines whose calls and resolutions do, and `Engine.blind_outsideLevel`, by which
  those do that stay outside of the type.
-/

namespace Weaver

open Host

/-! ## Runs on two hosts -/

/-- Where the first run ends on the first host, the second ends on the second in the same way, and
the two hosts that they leave differ no more than the hosts before. What they give is good. -/
def Run.BlindAt {α : Type} (t : TypeDef) (h g : Host) (x y : Run α) (good : α → Prop) : Prop :=
  h.Guards t → h.Twins t g → ∀ ⦃r : Except HostError α⦄ ⦃h' : Host⦄, x.run h = some (r, h') →
    ∃ g', y.run g = some (r, g') ∧ Paired t h g h' g' ∧ ∀ a, r = .ok a → good a

namespace Run.BlindAt

variable {α β : Type} {t : TypeDef} {h g h' g' : Host} {x y : Run α} {f f' : α → Run β}
  {P : α → Prop} {Q : β → Prop}

/-- Nothing is said about what a run gives. -/
def anything {α : Type} (_ : α) : Prop := True

lemma of_run {r : Except HostError α} (first : x.run h = some (r, h'))
    (second : h.Twins t g → y.run g = some (r, g'))
    (paired : h.Guards t → h.Twins t g → Paired t h g h' g') (good : ∀ a, r = .ok a → P a) :
    BlindAt t h g x y P := by
  intro guards twins r₁ h₁ run
  rw [first] at run
  cases run
  exact ⟨g', second twins, paired guards twins, good⟩

lemma pure {a : α} (good : P a) : BlindAt t h g (Pure.pure a) (Pure.pure a) P :=
  of_run rfl (fun _ => rfl) .refl fun _ same => by
    cases same
    exact good

lemma throw (e : HostError) : BlindAt t h g (throw e : Run α) (throw e) P :=
  of_run rfl (fun _ => rfl) .refl fun _ same => by cases same

lemma fault (cause : ExecutionFault) :
    BlindAt t h g (Run.fault cause : Run α) (Run.fault cause) P :=
  throw _

lemma exhausted : BlindAt t h g (Run.exhausted : Run α) y P := by
  intro _ _ r h' run
  cases run

lemma bind (first : BlindAt t h g x y P)
    (second : ∀ a h' g', P a → BlindAt t h' g' (f a) (f' a) Q) :
    BlindAt t h g (x >>= f) (y >>= f') Q := by
  intro guards twins r h₂ run
  rcases outcome : x.run h with _ | ⟨e | a, h₁⟩
  · rw [run_bind, outcome] at run
    cases run
  · rw [run_bind_of_error outcome] at run
    cases run
    obtain ⟨g₁, other, paired, -⟩ := first guards twins outcome
    exact ⟨g₁, run_bind_of_error other, paired, fun _ same => by cases same⟩
  · rw [run_bind_of_ok outcome] at run
    obtain ⟨g₁, other, paired, good⟩ := first guards twins outcome
    obtain ⟨g₂, other', paired', good'⟩ :=
      second a h₁ g₁ (good a rfl) paired.guards paired.twins run
    exact ⟨g₂, (run_bind_of_ok other).trans other', paired.trans paired', good'⟩

lemma map (blind : BlindAt t h g x y P) (k : α → β) :
    BlindAt t h g (k <$> x) (k <$> y) anything := by
  rw [map_eq_pure_bind, map_eq_pure_bind]
  exact bind blind fun _ _ _ _ => pure trivial

/-- What is read from the hosts may be put to use. -/
lemma get_bind {f f' : Host → Run β}
    (next : h.Guards t → h.Twins t g → BlindAt t h g (f h) (f' g) Q) :
    BlindAt t h g (get >>= f) (get >>= f') Q :=
  fun guards twins _ _ run => next guards twins guards twins run

lemma set_bind {f f' : PUnit → Run β} (paired : h.Guards t → h.Twins t g → Paired t h g h' g')
    (next : BlindAt t h' g' (f ⟨⟩) (f' ⟨⟩) Q) :
    BlindAt t h g (set h' >>= f) (set g' >>= f') Q := by
  intro guards twins r h₂ run
  have first := paired guards twins
  obtain ⟨g₂, other, second, good⟩ := next first.guards first.twins run
  exact ⟨g₂, other, first.trans second, good⟩

/-- A change that does not look at objects. -/
lemma modify {u : Host → Host} (blind : ∀ h objects, u { h with objects } = { u h with objects })
    (guards : h.Guards t → (u h).Guards t) :
    BlindAt t h g (modify u : Run PUnit) (modify u) anything :=
  of_run rfl (fun _ => rfl) (fun guarded twins => .update twins blind (guards guarded))
    fun _ _ => trivial

/-- A check that code makes before it goes on. -/
lemma check {γ : Type} {p : Prop} [Decidable p] {cause : ExecutionFault} {f f' : γ → Run α}
    (next : ¬p → BlindAt t h g x y P) :
    BlindAt t h g (if p then Run.fault cause >>= f else x)
      (if p then Run.fault cause >>= f' else y) P := by
  split
  · exact of_run rfl (fun _ => rfl) .refl fun _ same => by cases same
  next passed => exact next passed

lemma attempt (blind : BlindAt t h g x y P) : BlindAt t h g x.attempt y.attempt anything := by
  intro guards twins r h' run
  rw [run_attempt, Option.map_eq_some_iff] at run
  obtain ⟨⟨r, h'⟩, run, same⟩ := run
  cases same
  obtain ⟨g', other, paired, -⟩ := blind guards twins run
  exact ⟨g', by rw [run_attempt, other]; rfl, paired, fun _ _ => trivial⟩

lemma orNone (blind : BlindAt t h g x y P) : BlindAt t h g x.orNone y.orNone anything := by
  refine bind blind.attempt fun r h' g' _ => ?_
  cases r with
  | ok a => exact pure trivial
  | error e =>
    dsimp only
    split
    · exact pure trivial
    · exact throw e

/-- A bracket of changes that do not look at objects. -/
lemma between {enter leave : Host → Host}
    (opens : ∀ h objects, enter { h with objects } = { enter h with objects })
    (closes : ∀ h objects, leave { h with objects } = { leave h with objects })
    (entered : h.Guards t → (enter h).Guards t)
    (left : ∀ h', h'.Guards t → (leave h').Guards t)
    (blind : BlindAt t (enter h) (enter g) x y P) :
    BlindAt t h g (Run.between enter leave x) (Run.between enter leave y) P := by
  intro guards twins r h' run
  rw [run_between, Option.map_eq_some_iff] at run
  obtain ⟨⟨r, h'⟩, run, same⟩ := run
  cases same
  have first : Paired t h g (enter h) (enter g) := .update twins opens (entered guards)
  obtain ⟨g', other, second, good⟩ := blind first.guards first.twins run
  have third : Paired t h' g' (leave h') (leave g') :=
    .update second.twins closes (left h' second.guards)
  exact ⟨leave g', by rw [run_between, other]; rfl, (first.trans second).trans third, good⟩

/-! ## Code without recursion -/

lemma allocate (o : HeapObject) : BlindAt t h g (Run.allocate o) (Run.allocate o) anything := by
  refine get_bind fun _ twins => ?_
  have ref : (g.allocate o).1 = (h.allocate o).1 := congrArg ObjectRef.mk twins.size
  dsimp only
  rw [ref]
  exact set_bind (fun guards twins => .allocate guards twins o) (pure trivial)

lemma instantiate (ty : String) :
    BlindAt t h g (Run.instantiate ty) (Run.instantiate ty) anything := by
  refine get_bind fun _ twins => ?_
  rw [twins.types]
  cases h.types.layout ty with
  | error e => exact throw e
  | ok slots => exact allocate { ty, slots }

lemma obtain (source : Source) :
    BlindAt t h g (Run.obtain source) (Run.obtain source) anything := by
  refine get_bind fun _ twins => ?_
  have same := twins.obtain_fst source
  dsimp only
  rw [same]
  exact set_bind (fun guards twins => .obtain guards twins source) (pure trivial)

lemma note (line : String) : BlindAt t h g (Run.note line) (Run.note line) anything :=
  modify (fun _ _ => rfl) fun guards => guards.of_parts rfl rfl

lemma countCall (counter : CounterRef) :
    BlindAt t h g (Run.countCall counter) (Run.countCall counter) anything := by
  refine bind (modify (fun _ _ => rfl) fun guards => guards.of_parts rfl rfl) fun _ h' g' _ =>
    get_bind fun _ twins => ?_
  rw [twins.parts]
  exact pure trivial

lemma registerFactory (ty : String) (handle : MethodHandle) :
    BlindAt t h g (Run.registerFactory ty (.woven handle)) (Run.registerFactory ty (.woven handle))
      anything := by
  refine get_bind fun _ twins => ?_
  rw [twins.registry]
  cases added : h.registry.addFactory ty (.woven handle) with
  | error e => exact throw e
  | ok registry => exact modify (fun _ _ => rfl) fun guards => guards.registerFactory added

lemma registerInjector (ty : String) (handle : MethodHandle) :
    BlindAt t h g (Run.registerInjector ty (.woven handle))
      (Run.registerInjector ty (.woven handle)) anything := by
  refine get_bind fun _ twins => ?_
  rw [twins.registry]
  cases added : h.registry.addInjector ty (.woven handle) with
  | error e => exact throw e
  | ok registry => exact modify (fun _ _ => rfl) fun guards => guards.registerInjector added

lemma registerWoven (kind : EntryKind) (ty : String) (handle : MethodHandle) :
    BlindAt t h g (Run.registerWoven kind ty handle) (Run.registerWoven kind ty handle)
      anything := by
  refine get_bind fun _ twins => ?_
  dsimp only
  rw [twins.types]
  cases h.types.find? handle.owner with
  | none => exact fault _
  | some owner =>
  dsimp only
  cases owner.definition.method? handle.method with
  | none => exact fault _
  | some method =>
  dsimp only
  cases h.types.find? ty with
  | none => exact fault _
  | some target =>
  refine check fun _ => check fun _ => check fun _ => ?_
  cases kind with
  | factory => exact registerFactory ty handle
  | injector => exact registerInjector ty handle

/-- The loaded types are not where a factory comes from. -/
lemma factoryOf (ty : String) : BlindAt t h g (Run.factoryOf ty) (Run.factoryOf ty)
    fun factory => ∀ ty, factory ≠ .introspected ty := by
  refine get_bind fun guards twins => ?_
  rw [twins.registry]
  dsimp only
  cases found : h.registry.factories.find? ty with
  | some factory =>
    obtain ⟨entry, first, rfl⟩ := Option.map_eq_some_iff.1 found
    refine pure ?_
    exact guards.factories entry (List.mem_append_left _ (List.mem_of_find?_eq_some first))
  | none =>
  cases used : h.registry.fallback with
  | none => exact throw _
  | some fallback =>
  dsimp only
  cases cached : h.registry.cachedFactories.find? ty with
  | some factory =>
    obtain ⟨entry, first, rfl⟩ := Option.map_eq_some_iff.1 cached
    refine pure ?_
    exact guards.factories entry (List.mem_append_right _ (List.mem_of_find?_eq_some first))
  | none =>
  cases fallback with
  | introspection => exact absurd used guards.fallback
  | listed factories injectors =>
  have supplied : BlindAt t h g (Run.fallbackFactory? ty (.listed factories injectors))
      (Run.fallbackFactory? ty (.listed factories injectors))
      (· = (factories.find? ty).map Factory.supplied) :=
    bind (note _) fun _ _ _ _ => pure rfl
  refine bind supplied fun given h₁ g₁ same => ?_
  rw [same]
  cases factories.find? ty with
  | none => exact throw _
  | some factory =>
    refine bind (modify (fun _ _ => rfl) fun guards => guards.cacheFactory ty factory)
      fun _ _ _ _ => pure ?_
    exact fun _ => nofun

lemma injectorOf? (ty : String) : BlindAt t h g (Run.injectorOf? ty) (Run.injectorOf? ty)
    fun found => ∀ owner fields, found ≠ some (.introspected owner fields) := by
  refine get_bind fun guards twins => ?_
  rw [twins.registry]
  dsimp only
  have listed {entry : String × Injector}
      (member : entry ∈ h.registry.injectors ++ h.registry.cachedInjectors) (owner : String)
      (fields : List (String × String)) : some entry.2 ≠ some (.introspected owner fields) :=
    fun same => guards.injectors entry member owner fields (Option.some.inj same)
  cases found : h.registry.injectors.find? ty with
  | some injector =>
    obtain ⟨entry, first, rfl⟩ := Option.map_eq_some_iff.1 found
    refine pure ?_
    exact listed (List.mem_append_left _ (List.mem_of_find?_eq_some first))
  | none =>
  cases used : h.registry.fallback with
  | none => exact pure fun _ _ => nofun
  | some fallback =>
  dsimp only
  cases cached : h.registry.cachedInjectors.find? ty with
  | some injector =>
    obtain ⟨entry, first, rfl⟩ := Option.map_eq_some_iff.1 cached
    refine pure ?_
    exact listed (List.mem_append_right _ (List.mem_of_find?_eq_some first))
  | none =>
  cases fallback with
  | introspection => exact absurd used guards.fallback
  | listed factories injectors =>
  have supplied : BlindAt t h g (Run.fallbackInjector? ty (.listed factories injectors))
      (Run.fallbackInjector? ty (.listed factories injectors))
      (· = (injectors.find? ty).map Injector.supplied) :=
    bind (note _) fun _ _ _ _ => pure rfl
  refine bind supplied fun given h₁ g₁ same => ?_
  rw [same]
  cases injectors.find? ty with
  | none => exact pure fun _ _ => nofun
  | some injector =>
    refine bind (modify (fun _ _ => rfl) fun guards => guards.cacheInjector ty injector)
      fun _ _ _ _ => pure ?_
    exact fun _ _ => nofun

/-! ### Frames -/

section Frame

variable (f : Engine.Frame)

/-- A type of that name is the type itself. -/
lemma lookup (ty : String) : BlindAt t h g (f.lookup ty) (f.lookup ty) fun target =>
    target.definition.name = ty ∧ (ty = t.name → target.definition = t) := by
  refine get_bind fun guards twins => ?_
  dsimp only
  rw [twins.types]
  cases found : h.types.find? ty with
  | none => exact fault _
  | some target =>
    refine check fun _ => pure ⟨by simpa using List.find?_some found, ?_⟩
    rintro rfl
    have loaded := guards.loaded
    rw [typeDef?, found] at loaded
    exact Option.some.inj loaded

lemma checkMember (target : LoadedType) (visibility : Visibility) (member : String) :
    BlindAt t h g (f.checkMember target visibility member) (f.checkMember target visibility member)
      fun _ => f.mayUse target visibility = true := by
  unfold Engine.Frame.checkMember
  split
  next may => exact pure may
  · exact fault _

/-- What the check lets pass is not private, since the running method is none of the type. -/
lemma checkField (outside : f.owner.definition.name ≠ t.name) {owner : String}
    {target : LoadedType} (known : target.definition.name = owner ∧
      (owner = t.name → target.definition = t)) (field : String) :
    BlindAt t h g (f.checkField target field) (f.checkField target field)
      fun _ => t.Shows owner field := by
  unfold Engine.Frame.checkField
  cases found : target.definition.field? field with
  | none => exact fault _
  | some declared =>
    intro guards twins r h' run
    obtain ⟨g', other, paired, may⟩ := checkMember f target declared.visibility field guards twins run
    refine ⟨g', other, paired, fun u same own f' member private_ => ?_⟩
    have may := may u same
    rw [known.2 own] at found
    obtain rfl : declared = f' := Option.some.inj (found.symm.trans member)
    rw [private_, Engine.Frame.mayUse, beq_iff_eq, known.1, own] at may
    exact outside may.symm

lemma pop (stack : List Value) : BlindAt t h g (f.pop stack) (f.pop stack) anything := by
  cases stack with
  | nil => exact fault _
  | cons value stack => exact pure trivial

lemma popObject (stack : List Value) :
    BlindAt t h g (f.popObject stack) (f.popObject stack) anything := by
  refine bind (pop f stack) fun ⟨value, stack⟩ h' g' _ => ?_
  cases value with
  | object ref => exact pure trivial
  | _ =>
    refine get_bind fun _ twins => ?_
    rw [twins.typeName]
    exact fault _

lemma popMany (count : ℕ) (stack : List Value) :
    BlindAt t h g (f.popMany count stack) (f.popMany count stack) anything := by
  unfold Engine.Frame.popMany
  split
  · exact fault _
  · exact pure trivial

end Frame

end Run.BlindAt

/-! ## Code over engines -/

open Run (BlindAt)
open Run.BlindAt (anything)

/-- An engine whose calls and resolutions take the same course on both hosts. -/
structure Engine.Blind (t : TypeDef) (e : Engine) : Prop where
  call (h g : Host) (owner : LoadedType) (method : Method) (args : List Value) :
    BlindAt t h g (e.call owner method args) (e.call owner method args) anything
  resolve (h g : Host) (c : ContainerRef) (ty : String) :
    BlindAt t h g (e.resolve c ty) (e.resolve c ty) anything

namespace Engine.Blind

variable {t : TypeDef} {e : Engine} {h g : Host}

section Calls

variable (blind : e.Blind t)
include blind

lemma invoke (owner method : String) (args : List Value) :
    BlindAt t h g (e.invoke owner method args) (e.invoke owner method args) anything := by
  refine .get_bind fun _ twins => ?_
  rw [twins.types]
  cases h.types.find? owner with
  | none => exact .fault _
  | some target =>
  dsimp only
  cases target.definition.methodNamed? method with
  | none => exact .fault _
  | some callee => exact blind.call h g target callee args

lemma invokeHandle (handle : MethodHandle) (args : List Value) :
    BlindAt t h g (e.invokeHandle handle args) (e.invokeHandle handle args) anything := by
  refine .get_bind fun _ twins => ?_
  rw [twins.types]
  cases h.types.find? handle.owner with
  | none => exact .fault _
  | some target =>
  dsimp only
  cases target.definition.member? handle.method with
  | none => exact .fault _
  | some callee => exact blind.call h g target callee args

lemma construct (ty : String) (ctor : Uuid) (args : List Value) :
    BlindAt t h g (e.construct ty ctor args) (e.construct ty ctor args) anything := by
  refine .get_bind fun _ twins => ?_
  dsimp only
  rw [twins.types]
  cases h.types.find? ty with
  | none => exact .fault _
  | some target =>
  refine .check fun _ => ?_
  cases target.definition.constructor? ctor with
  | none => exact .fault _
  | some callee =>
    exact .bind (.instantiate ty) fun object h' g' _ =>
      .bind (blind.call h' g' _ _ _) fun _ _ _ _ => .pure trivial

lemma tryResolve (c : ContainerRef) (ty : String) :
    BlindAt t h g (e.tryResolve c ty) (e.tryResolve c ty) anything :=
  .orNone (blind.resolve h g c ty)

end Calls

/-! ### Recipes -/

mutual

lemma runRecipe (blind : e.Blind t) (call : ℕ) (c : ContainerRef) :
    ∀ (recipe : Recipe) (h g : Host),
      BlindAt t h g (e.runRecipe call c recipe) (e.runRecipe call c recipe) anything
  | .give source, _, _ => by
    rw [Engine.runRecipe]
    exact .obtain source
  | .instantiate ty, _, _ => by
    rw [Engine.runRecipe]
    exact .instantiate ty
  | .resolve ty, h, g => by
    rw [Engine.runRecipe]
    exact blind.resolve h g c ty
  | .tryResolve ty, _, _ => by
    rw [Engine.runRecipe]
    exact .bind (blind.tryResolve c ty) fun _ _ _ _ => .pure trivial
  | .container, _, _ => by
    rw [Engine.runRecipe]
    exact .pure trivial
  | .count, _, _ => by
    rw [Engine.runRecipe]
    exact .pure trivial
  | .log line, _, _ => by
    rw [Engine.runRecipe]
    exact .bind (.note line) fun _ _ _ _ => .pure trivial
  | .invoke owner method, _, _ => by
    rw [Engine.runRecipe]
    exact .bind (blind.invoke owner method _) fun _ _ _ _ => .pure trivial
  | .bind ty settings, _, _ => by
    rw [Engine.runRecipe]
    exact .get_bind fun _ _ => .set_bind
      (fun guards twins => .bind_configure guards twins c ty settings) (.pure trivial)
  | .fail error, _, _ => by
    rw [Engine.runRecipe]
    exact .throw error
  | .sequence recipes, h, g => by
    rw [Engine.runRecipe]
    exact blind.runRecipes call c recipes .null h g
  | .after calls error recipe, h, g => by
    rw [Engine.runRecipe]
    split
    · exact .throw error
    · exact blind.runRecipe call c recipe h g

lemma runRecipes (blind : e.Blind t) (call : ℕ) (c : ContainerRef) :
    ∀ (recipes : List Recipe) (last : Value) (h g : Host),
      BlindAt t h g (e.runRecipes call c last recipes) (e.runRecipes call c last recipes) anything
  | [], _, _, _ => by
    rw [Engine.runRecipes]
    exact .pure trivial
  | recipe :: rest, _, h, g => by
    rw [Engine.runRecipes]
    exact .bind (blind.runRecipe call c recipe h g) fun value h' g' _ =>
      blind.runRecipes call c rest value h' g'

end

section Entries

variable (blind : e.Blind t)
include blind

lemma runSuppliedFactory (factory : SuppliedFactory) (c : ContainerRef) :
    BlindAt t h g (e.runSuppliedFactory factory c) (e.runSuppliedFactory factory c) anything :=
  .bind (.countCall _) fun call h' g' _ => blind.runRecipe call c _ h' g'

/-- Steps that store into private fields are left out. -/
lemma runInjectorSteps (call : ℕ) (c : ContainerRef) (instance_ : Value)
    (steps : List InjectorStep) (spares : ∀ step ∈ steps, step.Spares t) :
    BlindAt t h g (e.runInjectorSteps call c instance_ steps)
      (e.runInjectorSteps call c instance_ steps) anything := by
  induction steps generalizing h g with
  | nil => exact .pure trivial
  | cons step rest ih =>
    obtain ⟨own, others⟩ := List.forall_mem_cons.1 spares
    have ih {h g : Host} := ih (h := h) (g := g) others
    cases step with
    | run recipe => exact .bind (blind.runRecipe call c recipe h g) fun _ _ _ _ => ih
    | assign owner field recipe =>
      unfold Engine.runInjectorSteps
      cases instance_ with
      | object ref =>
        refine .bind (blind.runRecipe call c recipe h g) fun value h' g' _ =>
          .get_bind fun _ twins => ?_
        dsimp only
        rw [setDeclared?, setDeclared?, twins.getDeclared? own]
        cases (h'.getDeclared? ref owner field).isSome with
        | true =>
          exact .set_bind (fun guards twins => .putDeclared guards twins own ref value)
            (.bind (.note _) fun _ _ _ _ => ih)
        | false => exact .bind (.note _) fun _ _ _ _ => ih
      | _ => exact ih

lemma runFactory {factory : Factory} (loaded : ∀ ty, factory ≠ .introspected ty)
    (c : ContainerRef) :
    BlindAt t h g (e.runFactory factory c) (e.runFactory factory c) anything := by
  cases factory with
  | woven handle =>
    refine .bind (blind.invokeHandle handle _) fun value _ _ _ => ?_
    cases value with
    | none => exact .fault _
    | some value => exact .pure trivial
  | supplied factory => exact blind.runSuppliedFactory factory c
  | introspected ty => exact absurd rfl (loaded ty)

lemma runInjectorWith {injector : Injector}
    (loaded : ∀ owner fields, some injector ≠ some (.introspected owner fields))
    (instance_ : Value) (c : ContainerRef) :
    BlindAt t h g (e.runInjectorWith (e.sparing t) injector instance_ c)
      (e.runInjectorWith (e.sparing t) injector instance_ c) anything := by
  cases injector with
  | woven handle => exact .bind (blind.invokeHandle handle _) fun _ _ _ _ => .pure trivial
  | supplied injector =>
    dsimp only [Engine.runInjectorWith, Engine.sparing]
    split
    next spares =>
      exact .bind (.countCall _) fun call _ _ _ =>
        blind.runInjectorSteps call c instance_ _ spares
    · exact .exhausted
  | introspected owner fields => exact absurd rfl (loaded owner fields)

lemma injectWith (c : ContainerRef) (instance_ : Value) :
    BlindAt t h g (e.injectWith (e.sparing t) c instance_)
      (e.injectWith (e.sparing t) c instance_) anything := by
  cases instance_ with
  | object ref =>
    refine .get_bind fun _ twins => ?_
    rw [twins.ty]
    refine .bind (.injectorOf? _) fun injector _ _ loaded => ?_
    cases injector with
    | none => exact .pure trivial
    | some injector => exact blind.runInjectorWith loaded (.object ref) c
  | _ => exact .pure trivial

/-! ### Bodies -/

variable {f : Frame} (outside : f.owner.definition.name ≠ t.name) (stack : List Value)

omit blind in
include outside in
lemma loadField (owner field : String) :
    BlindAt t h g (e.step f stack (.loadField owner field)) (e.step f stack (.loadField owner field))
      anything := by
  refine .bind (.lookup f owner) fun target _ _ known =>
    .bind (.checkField f outside known field) fun _ _ _ shows =>
    .bind (.popObject f stack) fun ⟨ref, stack⟩ h' g' _ => .get_bind fun _ twins => ?_
  rw [twins.getDeclared? shows, twins.ty]
  cases h'.getDeclared? ref owner field with
  | none => exact .fault _
  | some value => exact .pure trivial

omit blind in
include outside in
lemma storeField (owner field : String) :
    BlindAt t h g (e.step f stack (.storeField owner field))
      (e.step f stack (.storeField owner field)) anything := by
  refine .bind (.lookup f owner) fun target _ _ known =>
    .bind (.checkField f outside known field) fun _ _ _ shows =>
    .bind (.pop f stack) fun ⟨value, stack⟩ _ _ _ =>
    .bind (.popObject f stack) fun ⟨ref, stack⟩ h' g' _ => .get_bind fun _ twins => ?_
  rw [setDeclared?, setDeclared?, twins.getDeclared? shows, twins.ty]
  cases (h'.getDeclared? ref owner field).isSome with
  | true =>
    exact .set_bind (fun guards twins => .putDeclared guards twins shows ref value) (.pure trivial)
  | false => exact .fault _

include outside

lemma step (i : Instr) : BlindAt t h g (e.step f stack i) (e.step f stack i) anything := by
  cases i with
  | loadArg index =>
    simp only [Engine.step]
    split
    · exact .pure trivial
    · exact .fault _
  | loadConst value => exact .pure trivial
  | loadField owner field => exact loadField outside stack owner field
  | storeField owner field => exact storeField outside stack owner field
  | newObject owner ctor =>
    refine .bind (.lookup f owner) fun target _ _ _ => ?_
    cases target.definition.constructor? ctor with
    | none => exact .fault _
    | some callee =>
      exact .bind (.checkMember f target _ _) fun _ _ _ _ => .bind (.popMany f _ stack)
        fun _ _ _ _ => .bind (blind.construct owner ctor _) fun _ _ _ _ => .pure trivial
  | call owner method =>
    refine .bind (.lookup f owner) fun target _ _ _ => ?_
    cases target.definition.member? method with
    | none => exact .fault _
    | some callee =>
      exact .bind (.checkMember f target _ _) fun _ _ _ _ => .bind (.popMany f _ stack)
        fun _ h' g' _ => .bind (blind.call h' g' target callee _) fun _ _ _ _ => .pure trivial
  | loadMethod owner method =>
    refine .bind (.lookup f owner) fun target _ _ _ => ?_
    cases target.definition.method? method with
    | none => exact .fault _
    | some callee =>
      exact .check fun _ => .bind (.checkMember f target _ _) fun _ _ _ _ => .pure trivial
  | resolve ty =>
    refine .bind (.pop f stack) fun popped h' g' _ => ?_
    obtain ⟨value, stack⟩ := popped
    cases value with
    | container c => exact .bind (blind.resolve h' g' c ty) fun _ _ _ _ => .pure trivial
    | _ => exact .fault _
  | register kind ty =>
    refine .bind (.pop f stack) fun popped h' g' _ => ?_
    obtain ⟨value, stack⟩ := popped
    cases value with
    | method handle => exact .bind (.registerWoven kind ty handle) fun _ _ _ _ => .pure trivial
    | _ => exact .fault _
  | upcast ty =>
    refine .bind (.pop f stack) fun popped h' g' _ => .get_bind fun _ twins => ?_
    obtain ⟨value, _⟩ := popped
    dsimp only
    rw [twins.isInstance, twins.typeName]
    exact .check fun _ => .pure trivial
  | print =>
    refine .bind (.pop f stack) fun popped h' g' _ => .get_bind fun _ twins => ?_
    obtain ⟨value, _⟩ := popped
    rw [twins.display]
    exact .bind (.modify (fun _ _ => rfl) fun guards => guards.of_parts rfl rfl)
      fun _ _ _ _ => .pure trivial
  | dup => exact .bind (.pop f stack) fun _ _ _ _ => .pure trivial
  | pop => exact .bind (.pop f stack) fun _ _ _ _ => .pure trivial
  | ret => exact .pure trivial

lemma runBody (body : List Instr) :
    BlindAt t h g (e.runBody f stack body) (e.runBody f stack body) anything := by
  induction body generalizing h g stack with
  | nil =>
    rw [Engine.runBody]
    exact .pure trivial
  | cons i rest ih =>
    by_cases ret : i = .ret
    · subst ret
      rw [Engine.runBody]
      exact .pure trivial
    · rw [Engine.runBody] <;> try exact ret
      exact .bind (blind.step outside stack i) fun stack _ _ _ => ih stack

lemma execute : BlindAt t h g (e.execute f) (e.execute f) anything := by
  refine .bind (blind.runBody outside [] _) fun stack _ _ _ => ?_
  dsimp only
  split
  · exact .bind (.pop f stack) fun _ _ _ _ => .pure trivial
  · exact .pure trivial

end Entries

/-! ### One level more -/

section Next

variable (blind : e.Blind t)
include blind

lemma callOutside (owner : LoadedType) (method : Method) (args : List Value) :
    BlindAt t h g (e.callOutside t owner method args) (e.callOutside t owner method args)
      anything := by
  refine .check fun _ => .get_bind fun _ twins => ?_
  rw [twins.callDepth]
  refine .check fun _ => .between (fun _ _ => rfl) (fun _ _ => rfl)
    (fun guards => guards.of_parts rfl rfl) (fun _ guards => guards.of_parts rfl rfl) ?_
  rw [executeOutside]
  split
  · exact .exhausted
  next outside => exact blind.execute outside

lemma produce (c : ContainerRef) (b : Binding) :
    BlindAt t h g (e.produce c b) (e.produce c b) anything := by
  unfold Engine.produce
  split
  · exact .pure trivial
  · exact blind.runSuppliedFactory _ c
  · exact .bind (.factoryOf _) fun factory _ _ loaded => blind.runFactory loaded c

omit blind in
lemma checkInstance (value : Value) (ty : String) :
    BlindAt t h g (Engine.checkInstance value ty) (Engine.checkInstance value ty) anything := by
  refine .get_bind fun _ twins => ?_
  rw [twins.isInstance, twins.typeName]
  split
  · exact .throw _
  · exact .pure trivial

omit blind in
lemma settle (ref : BindingRef) (produced : Value) :
    BlindAt t h g (Engine.settle ref produced) (Engine.settle ref produced) anything := by
  refine .get_bind fun _ twins => ?_
  rw [twins.binding]
  dsimp only
  split
  · exact .throw _
  · exact .modify (fun _ _ => rfl) fun guards => guards.of_parts rfl rfl
  · exact .pure trivial

lemma resolveBindingWith (c : ContainerRef) (ty : String) (ref : BindingRef) :
    BlindAt t h g (e.resolveBindingWith (e.sparing t) c ty ref)
      (e.resolveBindingWith (e.sparing t) c ty ref) anything := by
  refine .get_bind fun _ twins => ?_
  rw [twins.binding]
  by_cases resolved : (h.binding ref).resolved
  · rw [if_pos resolved]
    exact .bind (checkInstance _ ty) fun _ _ _ _ => .pure trivial
  rw [if_neg resolved]
  refine .check fun _ => .between (fun _ _ => rfl) (fun _ _ => rfl)
    (fun guards => guards.of_parts rfl rfl) (fun _ guards => guards.of_parts rfl rfl) ?_
  rw [produceWith_sparing]
  refine .bind (blind.produce c _) fun produced _ _ _ =>
    .bind (checkInstance produced ty) fun _ _ _ _ =>
    .bind (.injectorOf? ty) fun injector _ _ loaded => ?_
  cases injector with
  | none => exact .bind (settle ref produced) fun _ _ _ _ => .pure trivial
  | some injector =>
    exact .bind (blind.runInjectorWith loaded produced c) fun _ _ _ _ =>
      .bind (settle ref produced) fun _ _ _ _ => .pure trivial

lemma resolveNextWith (c : ContainerRef) (ty : String) :
    BlindAt t h g (e.resolveNextWith (e.sparing t) c ty) (e.resolveNextWith (e.sparing t) c ty)
      anything := by
  refine .get_bind fun _ twins => ?_
  rw [twins.container]
  refine .check fun _ => .between (fun _ _ => rfl) (fun _ _ => rfl)
    (fun guards => guards.of_parts rfl rfl) (fun _ guards => guards.of_parts rfl rfl)
    (.get_bind fun _ twins => ?_)
  rw [twins.bindingFor?]
  cases (h.enterResolution c).bindingFor? c ty with
  | none => exact .throw _
  | some ref => exact blind.resolveBindingWith c ty ref

end Next

end Engine.Blind

/-- What stays outside of a type is blind to its private fields. -/
lemma Engine.blind_outsideLevel (t : TypeDef) (n : ℕ) : (Engine.outsideLevel t n).Blind t := by
  induction n with
  | zero => exact ⟨fun _ _ _ _ _ => .exhausted, fun _ _ _ _ => .exhausted⟩
  | succ n ih => exact ⟨fun _ _ => ih.callOutside, fun _ _ => ih.resolveNextWith⟩

end Weaver
