import Weaver.Proofs.Host.LifeCycle
import Weaver.Proofs.Injection.Objects

/-!
# What resolutions leave behind

A resolution makes objects, fills them, and lets bindings hold them. Whatever else it changes on the
way, it takes back at its end, and of what was there before it changes nothing but bindings that did
not hold an answer yet.

Three things live here:

* `Host.Carries`, what no step of a resolution takes back;
* `Host.Extends`, what a whole resolution leaves of a host;
* `Host.Provides` and `Host.Filled`, instances that resolutions have answered with, and objects with
  such instances in their fields.
-/

namespace Weaver

/-- What is decided about a binding by its configuration. -/
def Binding.settings (b : Binding) : String × String × Option SuppliedFactory × Scope :=
  (b.requested, b.concrete, b.factory, b.scope)

namespace Host

variable {c : ContainerRef} {ref : BindingRef} {o : ObjectRef} {base h h' h₁ h₂ : Host}
  {ty name : String} {value : Value}

/-! ## Steps -/

/-- What the second host has of the first if steps of a resolution lie in between, with whatever
brackets they have opened or closed. -/
structure Carries (c : ContainerRef) (h h' : Host) : Prop where
  types : h'.types = h.types
  registry : h'.registry = h.registry
  containers : h'.containers.size = h.containers.size
  found (ty : String) : h'.bindingFor? c ty = h.bindingFor? c ty
  bindings : h'.bindings.size = h.bindings.size
  settings (ref : BindingRef) : (h'.binding ref).settings = (h.binding ref).settings
  answer (ref : BindingRef) : (h.binding ref).resolved = true →
    (h'.binding ref).resolved = true ∧ (h'.binding ref).held = (h.binding ref).held
  objects : h.objects.size ≤ h'.objects.size
  type (o : ObjectRef) : o.index < h.objects.size → (h'.object o).ty = (h.object o).ty

namespace Carries

lemma refl (h : Host) : Carries c h h :=
  ⟨rfl, rfl, rfl, fun _ => rfl, rfl, fun _ => rfl, fun _ resolved => ⟨resolved, rfl⟩, le_rfl,
    fun _ _ => rfl⟩

lemma trans (first : Carries c h h₁) (second : Carries c h₁ h₂) : Carries c h h₂ where
  types := second.types.trans first.types
  registry := second.registry.trans first.registry
  containers := second.containers.trans first.containers
  found ty := (second.found ty).trans (first.found ty)
  bindings := second.bindings.trans first.bindings
  settings ref := (second.settings ref).trans (first.settings ref)
  answer ref resolved := by
    obtain ⟨resolved, held⟩ := first.answer ref resolved
    obtain ⟨resolved, held'⟩ := second.answer ref resolved
    exact ⟨resolved, held'.trans held⟩
  objects := first.objects.trans second.objects
  type o old := (second.type o (old.trans_le first.objects)).trans (first.type o old)

lemma enterCall (h : Host) : Carries c h h.enterCall := { refl h with }

lemma leaveCall (h : Host) : Carries c h h.leaveCall := { refl h with }

/-- A container may change in anything but its bindings. -/
lemma updateContainer {f : Container → Container} (keeps : ∀ c, (f c).bindings = c.bindings)
    (c' : ContainerRef) (h : Host) : Carries c h (h.updateContainer c' f) :=
  { refl (c := c) h with
    containers := size_updateContainer h c' f
    found := bindingFor?_updateContainer keeps h c' c }

/-- A binding keeps its settings and its answer if it has one. -/
lemma updateBinding {f : Binding → Binding} (settings : ∀ b, (f b).settings = b.settings)
    (answer : (h.binding ref).resolved = true →
      (f (h.binding ref)).resolved = true ∧ (f (h.binding ref)).held = (h.binding ref).held) :
    Carries c h (h.updateBinding ref f) :=
  { refl (c := c) h with
    found := fun _ => rfl
    bindings := size_updateBinding h ref f
    settings := fun ref' => by
      rw [binding_updateBinding]
      split
      · exact settings _
      · rfl
    answer := fun ref' resolved => by
      rw [binding_updateBinding]
      split
      next here =>
        obtain ⟨rfl, -⟩ := here
        exact answer resolved
      · exact ⟨resolved, rfl⟩ }

lemma enterProduction (h : Host) : Carries c h (h.enterProduction c ref) :=
  (updateContainer (by exact fun _ => rfl) c h).trans
    (updateBinding (by exact fun _ => rfl) fun resolved => ⟨resolved, rfl⟩)

lemma leaveProduction (h : Host) : Carries c h (h.leaveProduction c ref) :=
  (updateBinding (by exact fun _ => rfl) fun resolved => ⟨resolved, rfl⟩).trans
    (updateContainer (by exact fun _ => rfl) c _)

lemma hold (unresolved : (h.binding ref).resolved = false) (value : Value) :
    Carries c h (h.hold ref value) := by
  refine updateBinding (by exact fun _ => rfl) fun resolved => ?_
  rw [unresolved] at resolved
  cases resolved

lemma putDeclared (h : Host) (o : ObjectRef) (ty name : String) (value : Value) :
    Carries c h (h.putDeclared o ty name value) :=
  { refl (c := c) h with
    found := fun _ => rfl
    objects := by simp [Host.putDeclared]
    type := fun o' _ => congrArg Prod.fst (shape_putDeclared h o ty name value o') }

end Carries

/-! ## Whole resolutions -/

lemma depth_enterProduction (valid : c.index < h.containers.size) :
    ((h.enterProduction c ref).container c).depth = (h.container c).depth + 1 := by
  change ((h.updateContainer c _).container c).depth = _
  rw [container_updateContainer, if_pos ⟨rfl, valid⟩]

lemma depth_leaveProduction (valid : c.index < h.containers.size) :
    ((h.leaveProduction c ref).container c).depth = (h.container c).depth - 1 := by
  change ((h.updateContainer c _).container c).depth = _
  rw [container_updateContainer, if_pos ⟨rfl, valid⟩]

/-- What the second host has of the first if whole resolutions lie in between: counters and objects
are as they were, and bindings that have come to hold an answer hold a new object. -/
structure Extends (c : ContainerRef) (h h' : Host) : Prop extends Carries c h h' where
  depth : (h'.container c).depth = (h.container c).depth
  calls : h'.callDepth = h.callDepth
  old (o : ObjectRef) : o.index < h.objects.size → h'.object o = h.object o
  producing (ref : BindingRef) : (h'.binding ref).producing = (h.binding ref).producing
  fresh (ref : BindingRef) : (h'.binding ref).resolved = true → (h.binding ref).resolved = true ∨
    (h.binding ref).producing = false ∧
      ∃ o, (h'.binding ref).held = some (.object o) ∧ h.objects.size ≤ o.index

namespace Extends

lemma refl (h : Host) : Extends c h h :=
  { Carries.refl h with
    depth := rfl
    calls := rfl
    old := fun _ _ => rfl
    producing := fun _ => rfl
    fresh := fun _ => .inl }

lemma trans (first : Extends c h h₁) (second : Extends c h₁ h₂) : Extends c h h₂ :=
  { first.toCarries.trans second.toCarries with
    depth := second.depth.trans first.depth
    calls := second.calls.trans first.calls
    old := fun o valid =>
      (second.old o (valid.trans_le first.objects)).trans (first.old o valid)
    producing := fun ref => (second.producing ref).trans (first.producing ref)
    fresh := fun ref resolved => by
      rcases second.fresh ref resolved with resolved | ⟨idle, o, held, new⟩
      · rcases first.fresh ref resolved with known | ⟨idle, o, held, new⟩
        · exact .inl known
        · refine .inr ⟨idle, o, ?_, new⟩
          rw [(second.answer ref resolved).2, held]
      · exact .inr ⟨first.producing ref ▸ idle, o, held, first.objects.trans new⟩ }

/-- While an instance is made for a binding, the binding does not come to hold an answer. -/
lemma unresolved (inner : Extends c (h.enterProduction c ref) h₁)
    (valid : ref.index < h.bindings.size) (unresolved : (h.binding ref).resolved = false) :
    ref.index < h₁.bindings.size ∧ (h₁.binding ref).resolved = false := by
  have entered := binding_enterProduction_self valid c
  refine ⟨?_, ?_⟩
  · rw [inner.bindings, (Carries.enterProduction h).bindings]
    exact valid
  · by_contra resolved
    rcases inner.fresh ref (by simpa using resolved) with known | ⟨idle, -⟩
    · rw [entered, unresolved] at known
      cases known
    · rw [entered] at idle
      cases idle

/-- A new object is made. -/
lemma addObject (h : Host) (object : HeapObject) (ty : String) (values : List (String × Value)) :
    Extends c h (h.addObject object ty values) := by
  have old (o : ObjectRef) : o.index < h.objects.size →
      (h.addObject object ty values).object o = h.object o :=
    object_addObject_of_lt h object ty values
  obtain ⟨objects, same, size⟩ := exists_addObject h object ty values
  rw [same] at old ⊢
  exact
    { refl (c := c) h with
      found := fun _ => rfl
      objects := size ▸ Nat.le_succ _
      type := fun o valid => by rw [old o valid]
      old := old }

/-- A field of a new object is assigned. -/
lemma putDeclared (extends_ : Extends c base h) (new : base.objects.size ≤ o.index)
    (ty name : String) (value : Value) : Extends c base (h.putDeclared o ty name value) :=
  { extends_.toCarries.trans (.putDeclared h o ty name value) with
    depth := extends_.depth
    calls := extends_.calls
    old := fun o' valid => by
      have other : o ≠ o' := by
        rintro rfl
        exact Nat.lt_irrefl _ (valid.trans_le new)
      rw [object_putDeclared_of_ne other, extends_.old o' valid]
    producing := extends_.producing
    fresh := extends_.fresh }

/-- Calls begin on both hosts. -/
lemma enterCall (extends_ : Extends c h h') : Extends c h.enterCall h'.enterCall :=
  { (extends_.toCarries) with
    depth := extends_.depth
    calls := congrArg (· + 1) extends_.calls
    old := extends_.old
    producing := extends_.producing
    fresh := extends_.fresh }

/-- A call ends. -/
lemma leaveCall (inner : Extends c h.enterCall h₁) : Extends c h h₁.leaveCall :=
  { (Carries.enterCall h).trans (inner.toCarries.trans (.leaveCall h₁)) with
    depth := inner.depth
    calls := by rw [Host.leaveCall, inner.calls, Host.enterCall, Nat.add_sub_cancel]
    old := inner.old
    producing := inner.producing
    fresh := inner.fresh }

/-- A production ends, after its binding may have been given the new object to hold. -/
lemma leaveProduction (inner : Extends c (h.enterProduction c ref) h₁)
    (valid : ref.index < h.bindings.size) (container : c.index < h.containers.size)
    (unresolved : (h.binding ref).resolved = false) (idle : (h.binding ref).producing = false)
    (settled : h₂ = h₁ ∨ ∃ o, h₂ = h₁.hold ref (.object o) ∧ h.objects.size ≤ o.index) :
    Extends c h (h₂.leaveProduction c ref) := by
  obtain ⟨size, still⟩ := inner.unresolved valid unresolved
  have held : Carries c h₁ h₂ := by
    rcases settled with rfl | ⟨o, rfl, -⟩
    · exact .refl _
    · exact .hold still _
  have parts : h₂.callDepth = h₁.callDepth ∧ h₂.containers = h₁.containers ∧
      h₂.objects = h₁.objects ∧ ∀ ref', ref ≠ ref' → h₂.binding ref' = h₁.binding ref' := by
    rcases settled with rfl | ⟨o, rfl, -⟩
    · exact ⟨rfl, rfl, rfl, fun _ _ => rfl⟩
    · exact ⟨rfl, rfl, rfl, fun ref' other => binding_updateBinding_of_ne other _ _⟩
  obtain ⟨calls, containers, objects, others⟩ := parts
  have size' : ref.index < h₂.bindings.size := by rwa [held.bindings]
  refine
    { (Carries.enterProduction h).trans (inner.toCarries.trans (held.trans (.leaveProduction h₂)))
        with
      depth := ?_
      calls := calls.trans inner.calls
      old := fun o old => ?_
      producing := fun ref' => ?_
      fresh := fun ref' resolved => ?_ }
  · have there : c.index < h₂.containers.size := by
      rw [containers, inner.containers, (Carries.enterProduction h).containers]
      exact container
    have same : h₂.container c = h₁.container c := by
      rw [Host.container, containers, Host.container]
    rw [depth_leaveProduction there, same, inner.depth, depth_enterProduction container,
      Nat.add_sub_cancel]
  · have same : (h₂.leaveProduction c ref).object o = h₁.object o := by
      change h₂.object o = _
      rw [object, objects, object]
    rw [same]
    exact inner.old o old
  · by_cases other : ref = ref'
    · subst other
      rw [binding_leaveProduction_self size', idle]
    · rw [binding_leaveProduction_of_ne other, others ref' other, inner.producing ref',
        binding_enterProduction_of_ne other]
  · by_cases other : ref = ref'
    · subst other
      rw [binding_leaveProduction_self size'] at resolved ⊢
      rcases settled with rfl | ⟨o, rfl, new⟩
      · rw [still] at resolved
        cases resolved
      · refine .inr ⟨idle, o, ?_, new⟩
        rw [hold, binding_updateBinding_self size]
    · rw [binding_leaveProduction_of_ne other, others ref' other] at resolved ⊢
      have before := inner.fresh ref' resolved
      rw [binding_enterProduction_of_ne other] at before
      exact before

end Extends

/-! ## Instances -/

/-- An object that a resolution of a type has answered with: an instance of exactly this type, and
the one that the binding goes on to hold if its scope is that of singletons. -/
structure Provides (c : ContainerRef) (ty : String) (h : Host) (o : ObjectRef) : Prop where
  valid : o.index < h.objects.size
  type : (h.object o).ty = ty
  kept {ref : BindingRef} : h.bindingFor? c ty = some ref → (h.binding ref).scope = .singleton →
    (h.binding ref).resolved = true ∧ (h.binding ref).held = some (.object o)

lemma Provides.carry (provides : Provides c ty h o) (carries : Carries c h h') :
    Provides c ty h' o where
  valid := provides.valid.trans_le carries.objects
  type := (carries.type o provides.valid).trans provides.type
  kept {ref} found scope := by
    rw [carries.found] at found
    have same : (h'.binding ref).scope = (h.binding ref).scope :=
      congrArg (·.2.2.2) (carries.settings ref)
    obtain ⟨resolved, held⟩ := provides.kept found (same ▸ scope)
    obtain ⟨resolved, held'⟩ := carries.answer ref resolved
    exact ⟨resolved, held'.trans held⟩

/-- An object has instances of classes in fields that a type declares. -/
def Filled (c : ContainerRef) (ty : String) (fields : List (String × String)) (h : Host)
    (o : ObjectRef) : Prop :=
  ∀ f ∈ fields, ∃ o', h.getDeclared? o ty f.1 = some (.object o') ∧ Provides c f.2 h o'

lemma Filled.carry {fields : List (String × String)} (filled : Filled c ty fields h o)
    (carries : Carries c h h') (same : h'.object o = h.object o) : Filled c ty fields h' o := by
  intro f member
  obtain ⟨o', there, provides⟩ := filled f member
  refine ⟨o', ?_, provides.carry carries⟩
  rw [getDeclared?, slotValue?, same]
  exact there

/-- One more field is filled. -/
lemma Filled.putDeclared {fields : List (String × String)} {f : String × String} {o' : ObjectRef}
    (filled : Filled c ty fields h o) (unused : f.1 ∉ fields.map (·.1))
    (slot : (h.getDeclared? o ty f.1).isSome) (provides : Provides c f.2 h o') :
    Filled c ty (fields ++ [f]) (h.putDeclared o ty f.1 (.object o')) o := by
  intro g member
  rcases List.mem_append.1 member with member | last
  · obtain ⟨o'', there, provides⟩ := filled g member
    refine ⟨o'', ?_, provides.carry (.putDeclared ..)⟩
    have other : ¬(o = o ∧ ty = ty ∧ f.1 = g.1) := by
      rintro ⟨-, -, same⟩
      exact unused (List.mem_map.2 ⟨g, member, same.symm⟩)
    rw [getDeclared?_putDeclared, if_neg other, there]
  · rw [List.mem_singleton.1 last]
    refine ⟨o', ?_, provides.carry (.putDeclared ..)⟩
    obtain ⟨before, found⟩ := Option.isSome_iff_exists.1 slot
    rw [getDeclared?_putDeclared, if_pos ⟨rfl, rfl, rfl⟩, found]
    rfl

end Host
end Weaver
