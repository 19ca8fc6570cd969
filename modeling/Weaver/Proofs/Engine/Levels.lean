import Weaver.Host.Load
import Weaver.Proofs.Host.History
import Weaver.Proofs.Host.Outcome

/-!
# Engines of enough levels

An engine of a level can nest only so many calls and resolutions, but the limits on both are reached
first: from a host with less room than the engine has levels, no run uses up its levels, and engines
with more levels end in the same way. So operations of a host can be reasoned about without levels.

Three things live here:

* `Run.AgreeAt`, by which a run ends in the same way as another from a host, along a history;
* one lemma for each function of the engine, by which it agrees over engines that agree;
* `Engine.unlimited`, the engine of a host's own operations, and `next_unlimited`, by which one more
  level makes no difference to it.
-/

namespace Weaver

open Host

/-! ## Runs that agree -/

/-- Where the first run ends, the second ends in the same way, and what happens on the way is a
history. From a host with less room than `k`, the first run does end. -/
structure Run.AgreeAt {α : Type} (k : ℕ) (h : Host) (x y : Run α) : Prop where
  same {r : Except HostError α} {h' : Host} :
    x.run h = some (r, h') → y.run h = some (r, h') ∧ History h h'
  ends : h.slack < k → ∃ r h', x.run h = some (r, h')

namespace Run.AgreeAt

variable {α β : Type} {k : ℕ} {h h' : Host} {x y : Run α} {f g : α → Run β}

/-- Runs that end in the same way. -/
lemma of_run {r : Except HostError α} (hx : x.run h = some (r, h')) (hy : y.run h = some (r, h'))
    (history : History h h') : AgreeAt k h x y where
  same run := by
    rw [hx] at run
    cases run
    exact ⟨hy, history⟩
  ends _ := ⟨r, h', hx⟩

lemma pure (a : α) : AgreeAt k h (Pure.pure a) (Pure.pure a) :=
  of_run rfl rfl (.refl h)

lemma throw (e : HostError) : AgreeAt k h (throw e : Run α) (throw e) :=
  of_run rfl rfl (.refl h)

lemma fault (cause : ExecutionFault) : AgreeAt k h (Run.fault cause : Run α) (Run.fault cause) :=
  throw _

/-- With enough room, both runs end in the same way. -/
lemma exists_run (agree : AgreeAt k h x y) (room : h.slack < k) :
    ∃ r h', x.run h = some (r, h') ∧ y.run h = some (r, h') ∧ History h h' := by
  obtain ⟨r, h', run⟩ := agree.ends room
  exact ⟨r, h', run, agree.same run⟩

/-- Runs that a third agrees with are the same in the room of the third. -/
lemma run_eq {z : Run α} (left : AgreeAt k h z x) (right : AgreeAt k h z y) (room : h.slack < k) :
    x.run h = y.run h := by
  obtain ⟨r, h', run⟩ := left.ends room
  rw [(left.same run).1, (right.same run).1]

lemma bind (first : AgreeAt k h x y) (second : ∀ a h', AgreeAt k h' (f a) (g a)) :
    AgreeAt k h (x >>= f) (y >>= g) where
  same {r h₂} run := by
    -- the first run uses up its levels, fails, or ends well
    rcases outcome : x.run h with _ | ⟨_ | a, h₁⟩
    · rw [run_bind, outcome] at run
      cases run
    · rw [run_bind_of_error outcome] at run
      cases run
      obtain ⟨hy, history⟩ := first.same outcome
      exact ⟨run_bind_of_error hy, history⟩
    · rw [run_bind_of_ok outcome] at run
      obtain ⟨hy, history⟩ := first.same outcome
      obtain ⟨hg, history'⟩ := (second a h₁).same run
      exact ⟨(run_bind_of_ok hy).trans hg, history.trans history'⟩
  ends room := by
    obtain ⟨r, h₁, hx, -, history⟩ := first.exists_run room
    cases r with
    | error e => exact ⟨.error e, h₁, run_bind_of_error hx⟩
    | ok a =>
      obtain ⟨r, h₂, hf⟩ := (second a h₁).ends (history.keeps.slack.trans_lt room)
      exact ⟨r, h₂, (run_bind_of_ok hx).trans hf⟩

/-- A check that code makes before it goes on. -/
lemma check {γ : Type} {p : Prop} [Decidable p] {cause : ExecutionFault} {f g : γ → Run α}
    (next : ¬p → AgreeAt k h x y) :
    AgreeAt k h (if p then Run.fault cause >>= f else x)
      (if p then Run.fault cause >>= g else y) := by
  split
  · exact of_run rfl rfl (.refl h)
  next passed => exact next passed

lemma get_bind {f g : Host → Run β} (next : AgreeAt k h (f h) (g h)) :
    AgreeAt k h (get >>= f) (get >>= g) :=
  ⟨fun run => next.same run, fun room => next.ends room⟩

lemma modify {u : Host → Host} (change : Change h (u h)) :
    AgreeAt k h (modify u : Run PUnit) (modify u) :=
  of_run rfl rfl (.change change)

/-- A change of the host, computed beforehand. -/
lemma set_bind {f g : PUnit → Run β} (change : Change h h') (next : AgreeAt k h' (f ⟨⟩) (g ⟨⟩)) :
    AgreeAt k h (set h' >>= f) (set h' >>= g) where
  same run := by
    obtain ⟨hg, history⟩ := next.same run
    exact ⟨hg, (History.change change).trans history⟩
  ends room := next.ends (change.keeps.slack.trans_lt room)

lemma ofExcept (e : Except HostError α) : AgreeAt k h (Run.ofExcept e) (Run.ofExcept e) := by
  cases e with
  | error e => exact throw e
  | ok a => exact pure a

lemma attempt (agree : AgreeAt k h x y) : AgreeAt k h x.attempt y.attempt where
  same {r h'} run := by
    rw [run_attempt, Option.map_eq_some_iff] at run
    obtain ⟨⟨r, h'⟩, hx, run⟩ := run
    cases run
    obtain ⟨hy, history⟩ := agree.same hx
    exact ⟨by rw [run_attempt, hy]; rfl, history⟩
  ends room := by
    obtain ⟨r, h', hx⟩ := agree.ends room
    exact ⟨.ok r, h', by rw [run_attempt, hx]; rfl⟩

lemma orNone (agree : AgreeAt k h x y) : AgreeAt k h x.orNone y.orNone := by
  refine bind agree.attempt fun r h' => ?_
  cases r with
  | ok a => exact pure _
  | error e =>
    dsimp only
    split
    · exact pure _
    · exact throw e

lemma mapM {γ : Type} {f g : γ → Run α} (each : ∀ c h, AgreeAt k h (f c) (g c)) (l : List γ) :
    AgreeAt k h (l.mapM f) (l.mapM g) := by
  induction l generalizing h with
  | nil => exact pure _
  | cons c rest ih =>
    rw [List.mapM_cons, List.mapM_cons]
    exact bind (each c h) fun _ _ => bind ih fun _ _ => pure _

/-- A bracket around runs that agree in the room that it leaves. -/
lemma between {k' : ℕ} {enter leave : Host → Host} (left : h.slack < k' → (enter h).slack < k)
    (closes : ∀ {h'}, History (enter h) h' → History h (leave h'))
    (agree : AgreeAt k (enter h) x y) :
    AgreeAt k' h (Run.between enter leave x) (Run.between enter leave y) where
  same {r h'} run := by
    rw [run_between, Option.map_eq_some_iff] at run
    obtain ⟨⟨r, h'⟩, hx, run⟩ := run
    cases run
    obtain ⟨hy, history⟩ := agree.same hx
    exact ⟨by rw [run_between, hy]; rfl, closes history⟩
  ends room := by
    obtain ⟨r, h', hx⟩ := agree.ends (left room)
    exact ⟨r, leave h', by rw [run_between, hx]; rfl⟩

end Run.AgreeAt

/-! ## Code without recursion -/

namespace Run.AgreeAt

variable {k : ℕ} {h : Host}

lemma allocate (object : HeapObject) : AgreeAt k h (Run.allocate object) (Run.allocate object) :=
  get_bind (set_bind (.allocate object) (pure _))

lemma instantiate (ty : String) : AgreeAt k h (Run.instantiate ty) (Run.instantiate ty) :=
  get_bind (bind (ofExcept _) fun _ _ => allocate _)

lemma obtain (source : Source) : AgreeAt k h (Run.obtain source) (Run.obtain source) := by
  cases source with
  | fixed value => exact of_run rfl rfl (.refl h)
  | fresh ty => exact of_run rfl rfl (.change (.allocate { ty }))
  | kept name => exact of_run rfl rfl (.refl h)

lemma note (line : String) : AgreeAt k h (Run.note line) (Run.note line) :=
  modify (.note line)

lemma print (line : String) : AgreeAt k h (Run.print line) (Run.print line) :=
  modify (.print line)

lemma countCall (counter : CounterRef) :
    AgreeAt k h (Run.countCall counter) (Run.countCall counter) :=
  bind (modify (.count counter)) fun _ _ => get_bind (pure _)

lemma registerFactory (ty : String) (factory : Factory) :
    AgreeAt k h (Run.registerFactory ty factory) (Run.registerFactory ty factory) := by
  cases added : h.registry.addFactory ty factory with
  | error e =>
    have run : (Run.registerFactory ty factory).run h = some (.error e, h) := by
      show (Run.ofExcept (h.registry.addFactory ty factory) >>= _).run h = _
      rw [added]; rfl
    exact of_run run run (.refl h)
  | ok registry =>
    have run : (Run.registerFactory ty factory).run h = some (.ok ⟨⟩, { h with registry }) := by
      show (Run.ofExcept (h.registry.addFactory ty factory) >>= _).run h = _
      rw [added]; rfl
    exact of_run run run (.change (.registerFactory added))

lemma registerInjector (ty : String) (injector : Injector) :
    AgreeAt k h (Run.registerInjector ty injector) (Run.registerInjector ty injector) := by
  cases added : h.registry.addInjector ty injector with
  | error e =>
    have run : (Run.registerInjector ty injector).run h = some (.error e, h) := by
      show (Run.ofExcept (h.registry.addInjector ty injector) >>= _).run h = _
      rw [added]; rfl
    exact of_run run run (.refl h)
  | ok registry =>
    have run : (Run.registerInjector ty injector).run h = some (.ok ⟨⟩, { h with registry }) := by
      show (Run.ofExcept (h.registry.addInjector ty injector) >>= _).run h = _
      rw [added]; rfl
    exact of_run run run (.change (.registerInjector added))

lemma registerWoven (kind : EntryKind) (ty : String) (handle : MethodHandle) :
    AgreeAt k h (Run.registerWoven kind ty handle) (Run.registerWoven kind ty handle) := by
  refine get_bind ?_
  dsimp only
  cases h.types.find? handle.owner with
  | none => exact fault _
  | some owner =>
  dsimp only
  cases owner.definition.method? handle.method with
  | none => exact fault _
  | some method =>
  dsimp only
  cases h.types.find? ty with
  | none => exact fault _
  | some target =>
  refine check fun _ => check fun _ => check fun _ => ?_
  cases kind with
  | factory => exact registerFactory ty _
  | injector => exact registerInjector ty _

lemma fallbackFactory? (ty : String) (fallback : Fallback) :
    AgreeAt k h (Run.fallbackFactory? ty fallback) (Run.fallbackFactory? ty fallback) := by
  cases fallback with
  | introspection => exact get_bind (pure _)
  | listed => exact bind (note _) fun _ _ => pure _

lemma fallbackInjector? (ty : String) (fallback : Fallback) :
    AgreeAt k h (Run.fallbackInjector? ty fallback) (Run.fallbackInjector? ty fallback) := by
  cases fallback with
  | introspection => exact get_bind (pure _)
  | listed => exact bind (note _) fun _ _ => pure _

lemma factoryOf (ty : String) : AgreeAt k h (Run.factoryOf ty) (Run.factoryOf ty) := by
  refine get_bind ?_
  dsimp only
  split
  · exact pure _
  · exact throw _
  · split
    · exact pure _
    · refine bind (fallbackFactory? _ _) fun found h' => ?_
      cases found with
      | none => exact throw _
      | some factory => exact bind (modify (.cacheFactory ty factory)) fun _ _ => pure _

lemma injectorOf? (ty : String) : AgreeAt k h (Run.injectorOf? ty) (Run.injectorOf? ty) := by
  refine get_bind ?_
  dsimp only
  split
  · exact pure _
  · exact pure _
  · split
    · exact pure _
    · refine bind (fallbackInjector? _ _) fun found h' => ?_
      cases found with
      | none => exact pure _
      | some injector => exact bind (modify (.cacheInjector ty injector)) fun _ _ => pure _

/-! ### Frames -/

section Frame

variable (f : Engine.Frame)

lemma lookup (ty : String) : AgreeAt k h (f.lookup ty) (f.lookup ty) := by
  refine get_bind ?_
  dsimp only
  cases h.types.find? ty with
  | none => exact fault _
  | some target => exact check fun _ => pure _

lemma checkMember (target : LoadedType) (visibility : Visibility) (member : String) :
    AgreeAt k h (f.checkMember target visibility member)
      (f.checkMember target visibility member) := by
  unfold Engine.Frame.checkMember
  split
  · exact pure _
  · exact fault _

lemma checkField (target : LoadedType) (field : String) :
    AgreeAt k h (f.checkField target field) (f.checkField target field) := by
  unfold Engine.Frame.checkField
  split
  · exact checkMember f _ _ _
  · exact fault _

lemma pop (stack : List Value) : AgreeAt k h (f.pop stack) (f.pop stack) := by
  cases stack with
  | nil => exact fault _
  | cons value stack => exact pure _

lemma popObject (stack : List Value) : AgreeAt k h (f.popObject stack) (f.popObject stack) := by
  refine bind (pop f stack) fun ⟨value, stack⟩ h' => ?_
  cases value with
  | object ref => exact pure _
  | _ => exact get_bind (fault _)

lemma popMany (count : ℕ) (stack : List Value) :
    AgreeAt k h (f.popMany count stack) (f.popMany count stack) := by
  unfold Engine.Frame.popMany
  split
  · exact fault _
  · exact pure _

end Frame

end Run.AgreeAt

/-! ## Code over engines -/

/-- Two engines that agree from every host with less room than `k`. -/
structure Engine.Agree (k : ℕ) (e e' : Engine) : Prop where
  call (h : Host) (owner : LoadedType) (method : Method) (args : List Value) :
    Run.AgreeAt k h (e.call owner method args) (e'.call owner method args)
  resolve (h : Host) (c : ContainerRef) (ty : String) :
    Run.AgreeAt k h (e.resolve c ty) (e'.resolve c ty)

namespace Engine.Agree

open Run (AgreeAt)

variable {k : ℕ} {e e' : Engine} {h : Host}

section Calls

variable (agree : Agree k e e')
include agree

lemma invoke (owner method : String) (args : List Value) :
    AgreeAt k h (e.invoke owner method args) (e'.invoke owner method args) := by
  refine .get_bind ?_
  cases h.types.find? owner with
  | none => exact .fault _
  | some target =>
  dsimp only
  cases target.definition.methodNamed? method with
  | none => exact .fault _
  | some callee => exact agree.call h target callee args

lemma invokeHandle (handle : MethodHandle) (args : List Value) :
    AgreeAt k h (e.invokeHandle handle args) (e'.invokeHandle handle args) := by
  refine .get_bind ?_
  cases h.types.find? handle.owner with
  | none => exact .fault _
  | some target =>
  dsimp only
  cases target.definition.member? handle.method with
  | none => exact .fault _
  | some callee => exact agree.call h target callee args

lemma construct (ty : String) (ctor : Uuid) (args : List Value) :
    AgreeAt k h (e.construct ty ctor args) (e'.construct ty ctor args) := by
  refine .get_bind ?_
  dsimp only
  cases h.types.find? ty with
  | none => exact .fault _
  | some target =>
  refine .check fun _ => ?_
  cases target.definition.constructor? ctor with
  | none => exact .fault _
  | some callee =>
    exact .bind (.instantiate ty) fun object h' => .bind (agree.call h' _ _ _) fun _ _ => .pure _

lemma tryResolve (c : ContainerRef) (ty : String) :
    AgreeAt k h (e.tryResolve c ty) (e'.tryResolve c ty) :=
  .orNone (agree.resolve h c ty)

end Calls

/-! ### Recipes -/

mutual

lemma runRecipe (agree : Agree k e e') (call : ℕ) (c : ContainerRef) :
    ∀ (recipe : Recipe) (h : Host),
      AgreeAt k h (e.runRecipe call c recipe) (e'.runRecipe call c recipe)
  | .give source, _ => by
    rw [Engine.runRecipe, Engine.runRecipe]
    exact .obtain source
  | .instantiate ty, _ => by
    rw [Engine.runRecipe, Engine.runRecipe]
    exact .instantiate ty
  | .resolve ty, h => by
    rw [Engine.runRecipe, Engine.runRecipe]
    exact agree.resolve h c ty
  | .tryResolve ty, _ => by
    rw [Engine.runRecipe, Engine.runRecipe]
    exact .bind (agree.tryResolve c ty) fun _ _ => .pure _
  | .container, _ => by
    rw [Engine.runRecipe, Engine.runRecipe]
    exact .pure _
  | .count, _ => by
    rw [Engine.runRecipe, Engine.runRecipe]
    exact .pure _
  | .log line, _ => by
    rw [Engine.runRecipe, Engine.runRecipe]
    exact .bind (.note line) fun _ _ => .pure _
  | .invoke owner method, _ => by
    rw [Engine.runRecipe, Engine.runRecipe]
    exact .bind (agree.invoke owner method _) fun _ _ => .pure _
  | .bind ty settings, h => by
    rw [Engine.runRecipe, Engine.runRecipe]
    exact .of_run rfl rfl (.trans (.change (.bind c ty)) (.configure _ settings))
  | .fail error, _ => by
    rw [Engine.runRecipe, Engine.runRecipe]
    exact .throw error
  | .sequence recipes, h => by
    rw [Engine.runRecipe, Engine.runRecipe]
    exact agree.runRecipes call c recipes .null h
  | .after calls error recipe, h => by
    rw [Engine.runRecipe, Engine.runRecipe]
    split
    · exact .throw error
    · exact agree.runRecipe call c recipe h

lemma runRecipes (agree : Agree k e e') (call : ℕ) (c : ContainerRef) :
    ∀ (recipes : List Recipe) (last : Value) (h : Host),
      AgreeAt k h (e.runRecipes call c last recipes) (e'.runRecipes call c last recipes)
  | [], _, _ => by
    rw [Engine.runRecipes, Engine.runRecipes]
    exact .pure _
  | recipe :: rest, _, h => by
    rw [Engine.runRecipes, Engine.runRecipes]
    exact .bind (agree.runRecipe call c recipe h) fun value h' =>
      agree.runRecipes call c rest value h'

end

section Supplied

variable (agree : Agree k e e')
include agree

lemma runSuppliedFactory (factory : SuppliedFactory) (c : ContainerRef) :
    AgreeAt k h (e.runSuppliedFactory factory c) (e'.runSuppliedFactory factory c) :=
  .bind (.countCall _) fun call h' => agree.runRecipe call c _ h'

lemma runInjectorSteps (call : ℕ) (c : ContainerRef) (instance_ : Value)
    (steps : List InjectorStep) :
    AgreeAt k h (e.runInjectorSteps call c instance_ steps)
      (e'.runInjectorSteps call c instance_ steps) := by
  induction steps generalizing h with
  | nil => exact .pure _
  | cons step rest ih =>
    cases step with
    | run recipe => exact .bind (agree.runRecipe call c recipe h) fun _ _ => ih
    | assign owner field recipe =>
      unfold Engine.runInjectorSteps
      cases instance_ with
      | object ref =>
        refine .bind (agree.runRecipe call c recipe h) fun value h' => .get_bind ?_
        dsimp only
        cases stored : h'.setDeclared? ref owner field value with
        | none => exact .bind (.note _) fun _ _ => ih
        | some h'' => exact .set_bind (.store stored) (.bind (.note _) fun _ _ => ih)
      | _ => exact ih

end Supplied

/-! ### Factories and injectors -/

section Entries

variable (agree : Agree k e e')
include agree

lemma probe (c : ContainerRef) (params : List Parameter) :
    AgreeAt k h (e.probe c params) (e'.probe c params) := by
  induction params generalizing h with
  | nil => exact .pure _
  | cons p rest ih =>
    refine .bind (agree.tryResolve c p.ty) fun value h' => ?_
    cases value with
    | none => exact .pure _
    | some value => exact .bind ih fun _ _ => .pure _

lemma constructFirst (ty : String) (c : ContainerRef) (ctors : List Method) :
    AgreeAt k h (e.constructFirst ty c ctors) (e'.constructFirst ty c ctors) := by
  induction ctors generalizing h with
  | nil => exact .throw _
  | cons ctor rest ih =>
    refine .bind (agree.probe c ctor.params) fun args h' => ?_
    cases args with
    | none => exact ih
    | some args => exact agree.construct ty ctor.id args

lemma runFactory (factory : Factory) (c : ContainerRef) :
    AgreeAt k h (e.runFactory factory c) (e'.runFactory factory c) := by
  cases factory with
  | woven handle =>
    refine .bind (agree.invokeHandle handle _) fun value h' => ?_
    cases value with
    | none => exact .fault _
    | some value => exact .pure _
  | supplied factory => exact agree.runSuppliedFactory factory c
  | introspected ty =>
    refine .get_bind ?_
    cases h.typeDef? ty with
    | none => exact .throw _
    | some t =>
      dsimp only
      split
      · exact .instantiate ty
      · exact agree.constructFirst ty c _

lemma fillFields (owner : String) (ref : ObjectRef) (c : ContainerRef)
    (fields : List (String × String)) :
    AgreeAt k h (e.fillFields owner ref c fields) (e'.fillFields owner ref c fields) := by
  induction fields generalizing h with
  | nil => exact .pure _
  | cons field rest ih =>
    refine .bind (agree.resolve h c field.2) fun value h' => .get_bind ?_
    dsimp only
    cases stored : h'.setDeclared? ref owner field.1 value with
    | none => exact .bind (.fault _) fun _ _ => ih
    | some h'' => exact .set_bind (.store stored) ih

lemma runInjector (injector : Injector) (instance_ : Value) (c : ContainerRef) :
    AgreeAt k h (e.runInjector injector instance_ c) (e'.runInjector injector instance_ c) := by
  cases injector with
  | woven handle => exact .bind (agree.invokeHandle handle _) fun _ _ => .pure _
  | supplied injector =>
    exact .bind (.countCall _) fun call _ => agree.runInjectorSteps call c instance_ _
  | introspected owner fields =>
    cases instance_ with
    | object ref => exact agree.fillFields owner ref c fields
    | _ => exact .get_bind (.throw _)

lemma inject (c : ContainerRef) (instance_ : Value) :
    AgreeAt k h (e.inject c instance_) (e'.inject c instance_) := by
  cases instance_ with
  | object ref =>
    refine .get_bind (.bind (.injectorOf? _) fun injector h' => ?_)
    cases injector with
    | none => exact .pure _
    | some injector => exact agree.runInjector injector _ c
  | _ => exact .pure _

lemma runHooks (hooks : List MethodHandle) :
    AgreeAt k h (Host.runHooks e hooks) (Host.runHooks e' hooks) := by
  induction hooks generalizing h with
  | nil => exact .pure _
  | cons hook rest ih => exact .bind (agree.invokeHandle hook []) fun _ _ => ih

end Entries

/-! ### Bodies -/

section Bodies

variable (agree : Agree k e e')
include agree

lemma step (f : Frame) (stack : List Value) (i : Instr) :
    AgreeAt k h (e.step f stack i) (e'.step f stack i) := by
  cases i with
  | loadArg index =>
    simp only [Engine.step]
    split
    · exact .pure _
    · exact .fault _
  | loadConst value => exact .pure _
  | loadField owner field =>
    refine .bind (.lookup f owner) fun target _ => .bind (.checkField f target field) fun _ _ =>
      .bind (.popObject f stack) fun ⟨ref, stack⟩ h' => .get_bind ?_
    split
    · exact .pure _
    · exact .fault _
  | storeField owner field =>
    refine .bind (.lookup f owner) fun target _ => .bind (.checkField f target field) fun _ _ =>
      .bind (.pop f stack) fun ⟨value, stack⟩ _ => .bind (.popObject f stack) fun ⟨ref, stack⟩ h' =>
      .get_bind ?_
    cases stored : h'.setDeclared? ref owner field value with
    | none => exact .fault _
    | some h'' => exact .set_bind (.store stored) (.pure _)
  | newObject owner ctor =>
    refine .bind (.lookup f owner) fun target _ => ?_
    cases target.definition.constructor? ctor with
    | none => exact .fault _
    | some callee =>
      exact .bind (.checkMember f target _ _) fun _ _ => .bind (.popMany f _ stack) fun _ _ =>
        .bind (agree.construct owner ctor _) fun _ _ => .pure _
  | call owner method =>
    refine .bind (.lookup f owner) fun target _ => ?_
    cases target.definition.member? method with
    | none => exact .fault _
    | some callee =>
      exact .bind (.checkMember f target _ _) fun _ _ => .bind (.popMany f _ stack) fun _ _ =>
        .bind (agree.call _ target callee _) fun _ _ => .pure _
  | loadMethod owner method =>
    refine .bind (.lookup f owner) fun target _ => ?_
    cases target.definition.method? method with
    | none => exact .fault _
    | some callee =>
      refine .check fun _ => ?_
      exact .bind (.checkMember f target _ _) fun _ _ => .pure _
  | resolve ty =>
    refine .bind (.pop f stack) fun ⟨value, stack⟩ h' => ?_
    cases value with
    | container c => exact .bind (agree.resolve h' c ty) fun _ _ => .pure _
    | _ => exact .fault _
  | register kind ty =>
    refine .bind (.pop f stack) fun ⟨value, stack⟩ h' => ?_
    cases value with
    | method handle => exact .bind (.registerWoven kind ty handle) fun _ _ => .pure _
    | _ => exact .fault _
  | upcast ty =>
    refine .bind (.pop f stack) fun ⟨value, _⟩ h' => .get_bind ?_
    exact .check fun _ => .pure _
  | print =>
    exact .bind (.pop f stack) fun _ _ => .get_bind (.bind (.print _) fun _ _ => .pure _)
  | dup => exact .bind (.pop f stack) fun _ _ => .pure _
  | pop => exact .bind (.pop f stack) fun _ _ => .pure _
  | ret => exact .pure _

lemma runBody (f : Frame) (stack : List Value) (body : List Instr) :
    AgreeAt k h (e.runBody f stack body) (e'.runBody f stack body) := by
  induction body generalizing h stack with
  | nil =>
    rw [Engine.runBody, Engine.runBody]
    exact .pure _
  | cons i rest ih =>
    by_cases ret : i = .ret
    · subst ret
      rw [Engine.runBody, Engine.runBody]
      exact .pure _
    · rw [Engine.runBody, Engine.runBody] <;> try exact ret
      exact .bind (agree.step f stack i) fun stack _ => ih stack

lemma execute (f : Frame) : AgreeAt k h (e.execute f) (e'.execute f) := by
  refine .bind (agree.runBody f [] _) fun stack h' => ?_
  dsimp only
  split
  · exact .bind (.pop f stack) fun _ _ => .pure _
  · exact .pure _

end Bodies

/-! ### The operations of one level more -/

section Next

variable (agree : Agree k e e')
include agree

lemma callNext (owner : LoadedType) (method : Method) (args : List Value) :
    AgreeAt (k + 1) h (e.callNext owner method args) (e'.callNext owner method args) := by
  refine .check fun _ => .get_bind ?_
  by_cases room : maxCallDepth ≤ h.callDepth
  · exact .check fun free => absurd room free
  · have room : h.callDepth < maxCallDepth := Nat.lt_of_not_le room
    have less := slack_enterCall room
    refine .check fun _ => ?_
    show AgreeAt (k + 1) h (Run.between enterCall leaveCall _) (Run.between enterCall leaveCall _)
    exact .between (fun left => by omega) (.call room) (agree.execute _)

lemma produce (c : ContainerRef) (b : Binding) :
    AgreeAt k h (e.produce c b) (e'.produce c b) := by
  unfold Engine.produce
  split
  · exact .pure _
  · exact agree.runSuppliedFactory _ c
  · exact .bind (.factoryOf _) fun factory _ => agree.runFactory factory c

omit agree in
lemma checkInstance (value : Value) (ty : String) :
    AgreeAt k h (Engine.checkInstance value ty) (Engine.checkInstance value ty) := by
  refine .get_bind ?_
  split
  · exact .throw _
  · exact .pure _

omit agree in
lemma settle (ref : BindingRef) (produced : Value) :
    AgreeAt k h (Engine.settle ref produced) (Engine.settle ref produced) := by
  refine .get_bind ?_
  dsimp only
  split
  · exact .throw _
  · exact .modify (.hold ref produced)
  · exact .pure _

lemma resolveBinding (c : ContainerRef) (ty : String) (ref : BindingRef) :
    AgreeAt k h (e.resolveBinding c ty ref) (e'.resolveBinding c ty ref) := by
  refine .get_bind ?_
  by_cases resolved : (h.binding ref).resolved
  · rw [if_pos resolved, if_pos resolved]
    exact .bind (checkInstance _ ty) fun _ _ => .pure _
  rw [if_neg resolved, if_neg resolved]
  by_cases producing : (h.binding ref).producing
  · exact .check fun idle => absurd producing idle
  have idle : (h.binding ref).producing = false := by simpa using producing
  refine .check fun _ => .between id (.production ref idle) ?_
  refine .bind (agree.produce c _) fun produced _ => .bind (checkInstance produced ty) fun _ _ =>
    .bind (.injectorOf? ty) fun injector _ => ?_
  cases injector with
  | none => exact .bind (settle ref produced) fun _ _ => .pure _
  | some injector =>
    exact .bind (agree.runInjector injector produced c) fun _ _ =>
      .bind (settle ref produced) fun _ _ => .pure _

lemma resolveNext (c : ContainerRef) (ty : String) :
    AgreeAt (k + 1) h (e.resolveNext c ty) (e'.resolveNext c ty) := by
  refine .get_bind ?_
  by_cases room : maxResolveDepth ≤ (h.container c).depth
  · exact .check fun free => absurd room free
  have room : (h.container c).depth < maxResolveDepth := Nat.lt_of_not_le room
  refine .check fun _ => ?_
  show AgreeAt (k + 1) h (Run.between (·.enterResolution c) (·.leaveResolution c) _)
    (Run.between (·.enterResolution c) (·.leaveResolution c) _)
  -- only a container that exists counts its resolutions
  by_cases valid : c.index < h.containers.size
  · have less := slack_enterResolution valid room
    refine .between (k := k) (fun left => by omega) (.resolution c room) (.get_bind ?_)
    cases (h.enterResolution c).bindingFor? c ty with
    | none => exact .throw _
    | some ref => exact agree.resolveBinding c ty ref
  · -- nothing is bound in a container that does not exist, so no engine is needed
    have same : h.enterResolution c = h := updateContainer_eq_self valid _
    refine .between (k := k + 1) (by rw [same]; exact id) (.resolution c room) (.get_bind ?_)
    rw [same, bindingFor?_eq_none valid]
    exact .throw _

lemma next : Agree (k + 1) e.next e'.next :=
  ⟨fun _ => agree.callNext, fun _ => agree.resolveNext⟩

end Next

end Engine.Agree

/-! ## The engine without levels -/

/-- Runs are the same if from every host a third agrees with both that has enough room. -/
lemma Run.eq_of_agreeAt {α : Type} {x y : Run α}
    (agree : ∀ h, ∃ z, AgreeAt (h.slack + 1) h z x ∧ AgreeAt (h.slack + 1) h z y) : x = y := by
  funext h
  obtain ⟨z, left, right⟩ := agree h
  exact left.run_eq right (Nat.lt_succ_self _)

namespace Engine

open Run (AgreeAt)

/-- The engine of a host's own operations. It has as many levels as any host can use up. -/
def unlimited : Engine where
  call owner method args := Host.withEngine fun e => e.call owner method args
  resolve c ty := Host.withEngine fun e => e.resolve c ty

lemma run_withEngine {α : Type} (code : Engine → Run α) (h : Host) :
    (Host.withEngine code).run h = (code (ofLevel h.levels)).run h := by
  unfold Host.withEngine
  exact Run.run_get_bind _ h

/-- An engine agrees with those of at least as many levels. -/
lemma agree_ofLevel {n m : ℕ} (more : n ≤ m) : Agree n (ofLevel n) (ofLevel m) := by
  induction n generalizing m with
  | zero =>
    exact ⟨fun _ _ _ _ => ⟨(nomatch ·), fun room => absurd room (Nat.not_lt_zero _)⟩,
      fun _ _ _ => ⟨(nomatch ·), fun room => absurd room (Nat.not_lt_zero _)⟩⟩
  | succ n ih =>
    obtain ⟨m, rfl⟩ := Nat.exists_eq_add_of_le' more
    exact (ih (Nat.le_of_succ_le_succ more)).next

lemma slack_lt_levels (h : Host) : h.slack < h.levels :=
  Nat.lt_succ_of_le h.slack_le

/-- Code whose runs agree over engines of more levels agrees with what the host does by itself. -/
lemma agreeAt_withEngine {α : Type} (code : Engine → Run α) {h : Host}
    (agree : ∀ {n m : ℕ}, n ≤ m → AgreeAt n h (code (ofLevel n)) (code (ofLevel m))) (n : ℕ) :
    AgreeAt n h (code (ofLevel n)) (Host.withEngine code) := by
  have own := run_withEngine code h
  rcases Nat.le_total n h.levels with fewer | more
  · refine ⟨fun run => ?_, (agree fewer).ends⟩
    rw [own]
    exact (agree fewer).same run
  · -- the levels of the host are enough, so more of them change nothing
    obtain ⟨r, h', run, run', history⟩ := (agree more).exists_run (slack_lt_levels h)
    exact .of_run run' (own.trans run) history

lemma agree_unlimited (n : ℕ) : Agree n (ofLevel n) unlimited where
  call h owner method args := agreeAt_withEngine (·.call owner method args)
    (fun more => (agree_ofLevel more).call h owner method args) n
  resolve h c ty := agreeAt_withEngine (·.resolve c ty)
    (fun more => (agree_ofLevel more).resolve h c ty) n

/-- Code ends in the same way with the levels of a host and without levels. -/
lemma withEngine_eq {α : Type} (code : Engine → Run α)
    (agree : ∀ {k e e' h}, Agree k e e' → AgreeAt k h (code e) (code e')) :
    Host.withEngine code = code unlimited :=
  Run.eq_of_agreeAt fun h => ⟨code (ofLevel (h.slack + 1)),
    agreeAt_withEngine code (fun more => agree (agree_ofLevel more)) _, agree (agree_unlimited _)⟩

/-- One more level makes no difference to the engine without levels. -/
theorem next_unlimited : unlimited.next = unlimited := by
  have agree (k : ℕ) : Agree (k + 1) (ofLevel (k + 1)) unlimited.next := (agree_unlimited k).next
  have call : unlimited.next.call = unlimited.call := by
    funext owner method args
    exact Run.eq_of_agreeAt fun h => ⟨_, (agree h.slack).call h owner method args,
      (agree_unlimited (h.slack + 1)).call h owner method args⟩
  have resolve : unlimited.next.resolve = unlimited.resolve := by
    funext c ty
    exact Run.eq_of_agreeAt fun h => ⟨_, (agree h.slack).resolve h c ty,
      (agree_unlimited (h.slack + 1)).resolve h c ty⟩
  exact congr (congrArg Engine.mk call) resolve

/-- Code over the engine without levels ends, and what happens on the way is a history. -/
lemma history_of_unlimited {α : Type} (code : Engine → Run α)
    (agree : ∀ {k e e' h}, Agree k e e' → AgreeAt k h (code e) (code e')) (h : Host) :
    ∃ r h', (code unlimited).run h = some (r, h') ∧ History h h' := by
  obtain ⟨r, h', -, run⟩ := (agree (agree_unlimited (h.slack + 1))).exists_run (Nat.lt_succ_self _)
  exact ⟨r, h', run⟩

/-- Engines that leave only histories behind. -/
def Traced (e : Engine) : Prop := ∃ k e', Agree k e e'

/-- What code has done over such an engine is a history. -/
lemma Traced.history {e : Engine} {α : Type} {r : Except HostError α} {h h' : Host}
    (traced : e.Traced) (code : Engine → Run α)
    (agree : ∀ {k e e' h}, Agree k e e' → AgreeAt k h (code e) (code e'))
    (run : (code e).run h = some (r, h')) : History h h' := by
  obtain ⟨k, e', own⟩ := traced
  exact ((agree own).same run).2

lemma traced_ofLevel (n : ℕ) : (ofLevel n).Traced := ⟨n, _, agree_unlimited n⟩

/-- A run of the engine without levels needs no more than some number of them. -/
lemma traced_unlimited : unlimited.Traced := by
  have own {α : Type} {x : Engine → Run α} {h : Host}
      (agree : ∀ {k e e' h}, Agree k e e' → AgreeAt k h (x e) (x e')) :
      AgreeAt 0 h (x unlimited) (x unlimited) := by
    refine ⟨fun run => ⟨run, ?_⟩, fun room => absurd room (Nat.not_lt_zero _)⟩
    obtain ⟨r, h', run', history⟩ := history_of_unlimited x agree h
    rw [run'] at run
    cases run
    exact history
  exact ⟨0, unlimited, fun _ owner method args => own (x := (·.call owner method args))
    fun agree => agree.call _ owner method args,
    fun _ c ty => own (x := (·.resolve c ty)) fun agree => agree.resolve _ c ty⟩

/-! ### The operations of a host -/

section Host

lemma invoke_unlimited (owner method : String) (args : List Value) :
    Host.invoke owner method args = unlimited.invoke owner method args :=
  withEngine_eq _ fun agree => agree.invoke owner method args

lemma construct_unlimited (ty : String) (ctor : Uuid) (args : List Value) :
    Host.construct ty ctor args = unlimited.construct ty ctor args :=
  withEngine_eq _ fun agree => agree.construct ty ctor args

lemma inject_unlimited (c : ContainerRef) (value : Value) :
    Host.inject c value = unlimited.inject c value :=
  withEngine_eq _ fun agree => agree.inject c value

end Host

end Engine

end Weaver
