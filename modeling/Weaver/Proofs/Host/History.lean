import Mathlib.Algebra.BigOperators.Group.Finset.Basic
import Mathlib.Algebra.Order.BigOperators.Group.Finset
import Mathlib.Data.List.Infix
import Mathlib.Tactic.Common
import Weaver.Host.Engine

/-!
# Histories of a host

Running code changes a host in a handful of ways, and brackets what it does by three counters: a call
counts as active while its body runs, so does a resolution of a container, and a binding is marked
while an instance is made for it. A *history* is a sequence of such changes in which every bracket
that is opened is closed again.

Whatever a run does is a history, which is shown elsewhere once for all code. What histories keep is
shown here, by induction on them, and so holds of all code: the loaded types, the counters, the
registered entries, the shapes of the objects.
-/

namespace Weaver
namespace Host

/-! ## Changes -/

/-- A change that running code makes in one step, apart from the brackets. -/
inductive Change (h : Host) : Host → Prop where
  | allocate (object : HeapObject) : Change h (h.allocate object).2
  | store {ref : ObjectRef} {owner name : String} {value : Value} {h' : Host}
      (stored : h.setDeclared? ref owner name value = some h') : Change h h'
  | print (line : String) : Change h { h with output := h.output ++ [line] }
  | note (line : String) : Change h { h with log := h.log ++ [line] }
  | count (counter : CounterRef) :
      Change h { h with counters := h.counters.modify counter.index (· + 1) }
  | registerFactory {ty : String} {factory : Factory} {registry : Registry}
      (added : h.registry.addFactory ty factory = .ok registry) : Change h { h with registry }
  | registerInjector {ty : String} {injector : Injector} {registry : Registry}
      (added : h.registry.addInjector ty injector = .ok registry) : Change h { h with registry }
  | cacheFactory (ty : String) (factory : Factory) :
      Change h { h with registry := h.registry.cacheFactory ty factory }
  | cacheInjector (ty : String) (injector : Injector) :
      Change h { h with registry := h.registry.cacheInjector ty injector }
  | bind (c : ContainerRef) (ty : String) : Change h (h.bind c ty).2
  | configure (ref : BindingRef) (step : BindingStep) : Change h (h.configureStep ref step)
  | hold (ref : BindingRef) (value : Value) :
      Change h (h.updateBinding ref fun b => { b with held := some value, resolved := true })

/-! ## Brackets -/

/-- The host with one more active call. -/
def enterCall (h : Host) : Host := { h with callDepth := h.callDepth + 1 }

/-- The host with one active call less. -/
def leaveCall (h : Host) : Host := { h with callDepth := h.callDepth - 1 }

/-- The host with one more active resolution of a container. -/
def enterResolution (h : Host) (c : ContainerRef) : Host :=
  h.updateContainer c fun c => { c with depth := c.depth + 1 }

/-- The host with one active resolution of a container less. -/
def leaveResolution (h : Host) (c : ContainerRef) : Host :=
  h.updateContainer c fun c => { c with depth := c.depth - 1 }

/-- The host with a binding marked as producing, or not. -/
def markProducing (h : Host) (ref : BindingRef) (producing : Bool) : Host :=
  h.updateBinding ref fun b => { b with producing }

/-- Changes one after the other, in which every bracket that is opened is closed again. -/
inductive History : Host → Host → Prop where
  | refl (h : Host) : History h h
  | change {h h' : Host} (change : Change h h') : History h h'
  | trans {h₁ h₂ h₃ : Host} (first : History h₁ h₂) (second : History h₂ h₃) : History h₁ h₃
  | call {h h' : Host} (room : h.callDepth < maxCallDepth) (body : History h.enterCall h') :
      History h h'.leaveCall
  | resolution {h h' : Host} (c : ContainerRef) (room : (h.container c).depth < maxResolveDepth)
      (body : History (h.enterResolution c) h') : History h (h'.leaveResolution c)
  | production {h h' : Host} (ref : BindingRef) (idle : (h.binding ref).producing = false)
      (body : History (h.markProducing ref true) h') : History h (h'.markProducing ref false)

lemma History.configure {h : Host} (ref : BindingRef) (steps : List BindingStep) :
    History h (h.configure ref steps) := by
  induction steps generalizing h with
  | nil => exact .refl h
  | cons step rest ih => exact .trans (.change (.configure ref step)) ih

/-! ## What a history keeps -/

/-- The type and the fields of an object, without the values of the fields. -/
def shape (h : Host) (ref : ObjectRef) : String × List (String × String) :=
  ((h.object ref).ty, (h.object ref).slots.map fun s => (s.owner, s.name))

/-- What the second host has in common with the first if code ran in between: types, counters, and
what was registered and allocated so far. -/
structure Keeps (h h' : Host) : Prop where
  types : h'.types = h.types
  callDepth : h'.callDepth = h.callDepth
  containers : h'.containers.size = h.containers.size
  depth (c : ContainerRef) : (h'.container c).depth = (h.container c).depth
  factories : h.registry.factories <+: h'.registry.factories
  injectors : h.registry.injectors <+: h'.registry.injectors
  objects : h.objects.size ≤ h'.objects.size
  shape (ref : ObjectRef) : ref.index < h.objects.size → h'.shape ref = h.shape ref

lemma Keeps.refl (h : Host) : Keeps h h :=
  ⟨rfl, rfl, rfl, fun _ => rfl, List.prefix_rfl, List.prefix_rfl, le_rfl, fun _ _ => rfl⟩

lemma Keeps.trans {h₁ h₂ h₃ : Host} (first : Keeps h₁ h₂) (second : Keeps h₂ h₃) : Keeps h₁ h₃ where
  types := second.types.trans first.types
  callDepth := second.callDepth.trans first.callDepth
  containers := second.containers.trans first.containers
  depth c := (second.depth c).trans (first.depth c)
  factories := first.factories.trans second.factories
  injectors := first.injectors.trans second.injectors
  objects := first.objects.trans second.objects
  shape ref hr := (second.shape ref (hr.trans_le first.objects)).trans (first.shape ref hr)

/-! ### Containers -/

lemma container_updateContainer (h : Host) (c c' : ContainerRef) (f : Container → Container) :
    (h.updateContainer c f).container c'
      = if c = c' ∧ c.index < h.containers.size then f (h.container c') else h.container c' := by
  simp only [container, updateContainer, Array.getD_eq_getD_getElem?, Array.getElem?_modify]
  rcases c with ⟨i⟩
  rcases c' with ⟨j⟩
  by_cases hij : i = j
  · subst hij
    by_cases hi : i < h.containers.size
    · simp [hi]
    · simp [hi]
  · simp [hij]

/-- Behind a reference that is not valid, there is no container that anything was done to. -/
lemma container_of_size_le {h : Host} {c : ContainerRef} (invalid : h.containers.size ≤ c.index) :
    h.container c = default := by
  simp [container, Array.getD_eq_getD_getElem?, Array.getElem?_eq_none invalid]

/-- Nor was anything done to a new container. -/
lemma container_addContainer (h : Host) (c : ContainerRef) :
    h.addContainer.2.container c = h.container c := by
  simp only [container, addContainer, Array.getD_eq_getD_getElem?, Array.getElem?_push]
  split
  next last =>
    rw [last, Array.getElem?_eq_none (Nat.le_refl _)]
    rfl
  next => rfl

/-- A change of a container that keeps its depth keeps the depths of all containers. -/
lemma depth_updateContainer {f : Container → Container} (keeps : ∀ c, (f c).depth = c.depth)
    (h : Host) (c c' : ContainerRef) :
    ((h.updateContainer c f).container c').depth = (h.container c').depth := by
  rw [container_updateContainer]
  split
  · exact keeps _
  · rfl

lemma updateContainer_eq_self {h : Host} {c : ContainerRef}
    (invalid : ¬c.index < h.containers.size) (f : Container → Container) :
    h.updateContainer c f = h := by
  have same : h.containers.modify c.index f = h.containers := by
    ext i hi hi'
    · simp
    · rw [Array.getElem_modify, if_neg (by omega)]
  rw [updateContainer, same]

/-- A container that does not exist has no bindings. -/
lemma bindingFor?_eq_none {h : Host} {c : ContainerRef} (invalid : ¬c.index < h.containers.size)
    (ty : String) : h.bindingFor? c ty = none := by
  have empty : h.container c = default := by
    simp [container, Array.getD_eq_getD_getElem?, Array.getElem?_eq_none (Nat.le_of_not_lt invalid)]
  have none (ty : String) : h.bindingsFor c ty = [] := by
    rw [bindingsFor, empty]
    rfl
  simp [bindingFor?, none]

/-! ### Objects -/

lemma shape_allocate (h : Host) (object : HeapObject) {ref : ObjectRef}
    (old : ref.index < h.objects.size) : (h.allocate object).2.shape ref = h.shape ref := by
  simp [shape, Host.object, allocate, Array.getD_eq_getD_getElem?, Array.getElem?_push,
    Nat.ne_of_lt old]

lemma map_storeSlot (owner name : String) (value : Value) (slots : List Slot) :
    (storeSlot owner name value slots).map (fun s => (s.owner, s.name))
      = slots.map fun s => (s.owner, s.name) := by
  induction slots with
  | nil => rfl
  | cons s rest ih =>
    rw [storeSlot]
    split
    · rfl
    · rw [List.map_cons, ih, List.map_cons]

/-- The host after a value is put into the first of the slots that a type declares under a name,
whether the object has one or not. -/
def putDeclared (h : Host) (ref : ObjectRef) (owner name : String) (value : Value) : Host :=
  { h with
    objects := h.objects.modify ref.index fun o =>
      { o with slots := storeSlot owner name value o.slots } }

lemma setDeclared?_eq_some_iff {h h' : Host} {ref : ObjectRef} {owner name : String}
    {value : Value} :
    h.setDeclared? ref owner name value = some h' ↔
      (h.getDeclared? ref owner name).isSome ∧ h' = h.putDeclared ref owner name value := by
  rw [setDeclared?]
  split
  next found => simp [found, putDeclared, eq_comm]
  next missing => simp [missing]

lemma shape_putDeclared (h : Host) (ref : ObjectRef) (owner name : String) (value : Value)
    (ref' : ObjectRef) : (h.putDeclared ref owner name value).shape ref' = h.shape ref' := by
  simp only [shape, Host.object, putDeclared, Array.getD_eq_getD_getElem?, Array.getElem?_modify]
  by_cases hr : ref.index = ref'.index
  · rw [if_pos hr]
    cases h.objects[ref'.index]? with
    | none => rfl
    | some o => simp [map_storeSlot]
  · rw [if_neg hr]

/-! ### Changes -/

/-- A host that differs in none of the parts that histories keep. -/
lemma Keeps.of_parts {h h' : Host} (types : h'.types = h.types)
    (callDepth : h'.callDepth = h.callDepth) (containers : h'.containers = h.containers)
    (registry : h'.registry = h.registry) (objects : h'.objects = h.objects) : Keeps h h' where
  types := types
  callDepth := callDepth
  containers := by rw [containers]
  depth c := by rw [container, container, containers]
  factories := by rw [registry]
  injectors := by rw [registry]
  objects := by rw [objects]
  shape ref _ := by rw [Host.shape, Host.shape, object, object, objects]

lemma Keeps.allocate (h : Host) (object : HeapObject) : Keeps h (h.allocate object).2 where
  types := rfl
  callDepth := rfl
  containers := rfl
  depth _ := rfl
  factories := List.prefix_rfl
  injectors := List.prefix_rfl
  objects := by simp [Host.allocate]
  shape _ := shape_allocate h object

lemma Keeps.obtain (h : Host) (source : Source) : Keeps h (h.obtain source).2 := by
  cases source with
  | fixed value => exact .refl h
  | fresh ty => exact .allocate h { ty }
  | kept name => exact .refl h

lemma Keeps.configureStep (h : Host) (ref : BindingRef) (step : BindingStep) :
    Keeps h (h.configureStep ref step) := by
  cases step with
  | fromInstance source => exact (Keeps.obtain h source).trans (.of_parts rfl rfl rfl rfl rfl)
  | _ => exact .of_parts rfl rfl rfl rfl rfl

lemma Keeps.updateContainer {h : Host} {f : Container → Container}
    (keeps : ∀ c, (f c).depth = c.depth) (c : ContainerRef) : Keeps h (h.updateContainer c f) where
  types := rfl
  callDepth := rfl
  containers := by simp [Host.updateContainer]
  depth := depth_updateContainer keeps h c
  factories := List.prefix_rfl
  injectors := List.prefix_rfl
  objects := le_rfl
  shape _ _ := rfl

lemma Keeps.register {h : Host} {registry : Registry}
    (factories : h.registry.factories <+: registry.factories)
    (injectors : h.registry.injectors <+: registry.injectors) : Keeps h { h with registry } :=
  ⟨rfl, rfl, rfl, fun _ => rfl, factories, injectors, le_rfl, fun _ _ => rfl⟩

/-- Every change of running code keeps what histories keep. -/
lemma Change.keeps {h h' : Host} (change : Change h h') : Keeps h h' := by
  cases change with
  | allocate object => exact .allocate h object
  | store stored =>
    obtain ⟨-, rfl⟩ := setDeclared?_eq_some_iff.1 stored
    exact ⟨rfl, rfl, rfl, fun _ => rfl, List.prefix_rfl, List.prefix_rfl, by simp [putDeclared],
      fun ref _ => shape_putDeclared ..⟩
  | print | note | count | hold => exact .of_parts rfl rfl rfl rfl rfl
  | registerFactory added =>
    unfold Registry.addFactory at added
    split at added
    · cases added
    · injection added with added
      exact .register (by simp [← added]) (by simp [← added])
  | registerInjector added =>
    unfold Registry.addInjector at added
    split at added
    · cases added
    · injection added with added
      exact .register (by simp [← added]) (by simp [← added])
  | cacheFactory | cacheInjector => exact .register List.prefix_rfl List.prefix_rfl
  | bind c ty =>
    have pushed : Keeps h
        { h with bindings := h.bindings.push { requested := ty, concrete := ty } } :=
      .of_parts rfl rfl rfl rfl rfl
    let declare (c : Container) : Container :=
      { c with bindings := c.bindings ++ [(ty, ⟨h.bindings.size⟩)] }
    exact pushed.trans (Keeps.updateContainer (f := declare) (fun _ => rfl) c)
  | configure ref step => exact .configureStep h ref step

/-! ### Brackets -/

lemma size_updateContainer (h : Host) (c : ContainerRef) (f : Container → Container) :
    (h.updateContainer c f).containers.size = h.containers.size := by
  simp [updateContainer]

/-- A resolution that ends takes back what its beginning did to the depths. -/
lemma depth_leaveResolution {h h' : Host} {c : ContainerRef}
    (containers : h'.containers.size = h.containers.size)
    (depth : ∀ c', (h'.container c').depth = ((h.enterResolution c).container c').depth)
    (c' : ContainerRef) :
    ((h'.leaveResolution c).container c').depth = (h.container c').depth := by
  have entered := depth c'
  rw [enterResolution, container_updateContainer] at entered
  rw [leaveResolution, container_updateContainer, containers]
  split
  next here => rw [if_pos here] at entered; simp [entered]
  next elsewhere => rw [if_neg elsewhere] at entered; exact entered

/-- Every history keeps types, counters, entries and shapes. -/
theorem History.keeps {h h' : Host} (history : History h h') : Keeps h h' := by
  induction history with
  | refl h => exact .refl h
  | change change => exact change.keeps
  | trans _ _ first second => exact first.trans second
  | call _ _ body =>
    exact ⟨body.types, by simp [leaveCall, body.callDepth, enterCall], body.containers, body.depth,
      body.factories, body.injectors, body.objects, body.shape⟩
  | resolution c _ _ body =>
    have containers := body.containers.trans (size_updateContainer _ c _)
    exact ⟨body.types, body.callDepth, (size_updateContainer _ c _).trans containers,
      depth_leaveResolution containers body.depth, body.factories, body.injectors, body.objects,
      body.shape⟩
  | production ref _ _ body =>
    exact ⟨body.types, body.callDepth, body.containers, body.depth, body.factories, body.injectors,
      body.objects, body.shape⟩

/-! ### Fallbacks -/

lemma Change.fallback {h h' : Host} (change : Change h h') :
    h'.registry.fallback = h.registry.fallback := by
  cases change with
  | store stored =>
    obtain ⟨-, rfl⟩ := setDeclared?_eq_some_iff.1 stored
    rfl
  | registerFactory added =>
    unfold Registry.addFactory at added
    split at added
    · cases added
    · injection added with added
      simp [← added]
  | registerInjector added =>
    unfold Registry.addInjector at added
    split at added
    · cases added
    · injection added with added
      simp [← added]
  | configure ref step =>
    cases step with
    | fromInstance source => cases source <;> rfl
    | _ => rfl
  | _ => rfl

/-- Code does not change what supplies missing entries. -/
theorem History.fallback {h h' : Host} (history : History h h') :
    h'.registry.fallback = h.registry.fallback := by
  induction history with
  | refl h => rfl
  | change change => exact change.fallback
  | trans _ _ first second => exact second.trans first
  | call _ _ body => exact body
  | resolution c _ _ body => exact body
  | production ref _ _ body => exact body

/-! ### Slots -/

/-- Whether an object has a slot can be told from its shape. -/
lemma isSome_getDeclared? (h : Host) (ref : ObjectRef) (owner name : String) :
    (h.getDeclared? ref owner name).isSome = (h.shape ref).2.contains (owner, name) := by
  rw [Bool.eq_iff_iff]
  simp [getDeclared?, slotValue?, shape, List.find?_isSome]

/-- An object that has a slot goes on to have it. -/
lemma Keeps.slot {h h' : Host} (keeps : Keeps h h') {ref : ObjectRef} {owner name : String}
    (slot : (h.getDeclared? ref owner name).isSome) :
    (h'.getDeclared? ref owner name).isSome := by
  have old : ref.index < h.objects.size := by
    by_contra new
    have none : h.object ref = default := by
      simp [object, Array.getD_eq_getD_getElem?, Array.getElem?_eq_none (Nat.le_of_not_lt new)]
    rw [getDeclared?, slotValue?, none] at slot
    cases slot
  rw [isSome_getDeclared?, keeps.shape ref old, ← isSome_getDeclared?]
  exact slot

/-! ## The room that the limits leave -/

/-- How many more calls and resolutions may be opened before every counter is at its limit. -/
def slack (h : Host) : ℕ :=
  (maxCallDepth - h.callDepth)
    + ∑ i ∈ Finset.range h.containers.size, (maxResolveDepth - (h.container ⟨i⟩).depth)

lemma slack_le (h : Host) : h.slack ≤ maxCallDepth + maxResolveDepth * h.containers.size := by
  have calls : maxCallDepth - h.callDepth ≤ maxCallDepth := Nat.sub_le _ _
  have resolutions : ∑ i ∈ Finset.range h.containers.size,
      (maxResolveDepth - (h.container ⟨i⟩).depth) ≤ h.containers.size * maxResolveDepth := by
    simpa using Finset.sum_le_card_nsmul (Finset.range h.containers.size)
      (fun i => maxResolveDepth - (h.container ⟨i⟩).depth) maxResolveDepth
      fun i _ => Nat.sub_le _ _
  rw [Nat.mul_comm]
  exact Nat.add_le_add calls resolutions

lemma Keeps.slack {h h' : Host} (keeps : Keeps h h') : h'.slack = h.slack := by
  rw [Host.slack, Host.slack, keeps.callDepth, keeps.containers]
  congr 1
  exact Finset.sum_congr rfl fun i _ => by rw [keeps.depth]

/-- A call that the limit permits takes some of the room. -/
lemma slack_enterCall {h : Host} (room : h.callDepth < maxCallDepth) :
    h.enterCall.slack < h.slack := by
  have less : maxCallDepth - (h.callDepth + 1) < maxCallDepth - h.callDepth := by omega
  exact Nat.add_lt_add_right less _

/-- A resolution that the limit permits takes some of the room, if there is such a container. -/
lemma slack_enterResolution {h : Host} {c : ContainerRef} (valid : c.index < h.containers.size)
    (room : (h.container c).depth < maxResolveDepth) : (h.enterResolution c).slack < h.slack := by
  have depth (c' : ContainerRef) : ((h.enterResolution c).container c').depth
      = (h.container c').depth + if c = c' then 1 else 0 := by
    rw [enterResolution, container_updateContainer]
    by_cases hc : c = c' <;> simp [hc, valid]
    simp [← hc, valid]
  refine Nat.add_lt_add_left ?_ _
  rw [show (h.enterResolution c).containers.size = h.containers.size from
    size_updateContainer h c _]
  refine Finset.sum_lt_sum (fun i _ => ?_) ⟨c.index, Finset.mem_range.2 valid, ?_⟩
  · rw [depth]
    omega
  · have here : ((h.enterResolution c).container ⟨c.index⟩).depth = (h.container c).depth + 1 := by
      rw [depth, if_pos rfl]
    rw [here]
    show maxResolveDepth - ((h.container c).depth + 1) < maxResolveDepth - (h.container c).depth
    omega

end Host
end Weaver
