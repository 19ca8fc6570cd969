import Weaver.Proofs.Injection.Standing

/-!
# Resolutions along the injection graph

A resolution of a class resolves what the class depends on, one level deeper, and assigns the
instances to the fields of a new object. By induction on the levels that are left, every resolution
ends, and unless something stands in the way, it ends with an object that is filled.

Two things live here:

* the parts of a resolution: arguments, construction, assignments, settlement;
* `Module.ends_resolve`, for all hosts that stand.
-/

namespace Weaver
namespace Module

open Host Engine

variable {m : Module} {ids : WeaveIds} {supply : IdSupply} {c : ContainerRef} {base h h₁ : Host}
  {t : TypeDef} {ref : BindingRef} {o : ObjectRef} {size d : ℕ} {ctor : Method}

/-- While so many resolutions are active, one more ends as it should. -/
def ResolvesAt (m : Module) (ids : WeaveIds) (c : ContainerRef) (d : ℕ) : Prop :=
  ∀ h : Host, m.Standing ids c h → (h.container c).depth = d → ∀ t ∈ m.types,
    m.Ends ids c h (m.Sure c h t.name)
      (fun h' value => ∃ o, value = .object o ∧ m.Completed c t h' o)
      ((Host.resolve c t.name).run h)

/-! ## Arguments -/

/-- What a class that another one depends on is resolved to. -/
def Given (m : Module) (c : ContainerRef) (ty : String) (h : Host) (value : Value) : Prop :=
  ∃ o, value = .object o ∧ Provides c ty h o ∧ m.Founded ty

section Dependencies

variable (inner : m.ResolvesAt ids c d) (standing : m.Standing ids c h)
  (deep : (h.container c).depth = d)
include inner standing deep

lemma ends_dependency {ty : String} (class_ : ∃ s ∈ m.types, s.name = ty) :
    m.Ends ids c h (m.Sure c h ty) (m.Given c ty) ((Host.resolve c ty).run h) := by
  obtain ⟨s, member, rfl⟩ := class_
  refine (inner h standing deep s member).mono id fun h' value _ _ done => ?_
  obtain ⟨o, rfl, completed⟩ := done
  exact ⟨o, rfl, completed.provides, completed.founded⟩

/-- The classes of parameters are resolved in order. -/
lemma ends_arguments {params : List Parameter}
    (classes : ∀ p ∈ params, ∃ s ∈ m.types, s.name = p.ty) :
    m.Ends ids c h (∀ p ∈ params, m.Sure c h p.ty)
      (fun h' values => List.Forall₂ (fun p value => m.Given c p.ty h' value) params values)
      ((params.mapM fun p => Host.resolve c p.ty).run h) := by
  induction params generalizing h with
  | nil => exact .value standing (.refl h) .nil
  | cons p rest ih =>
    rw [List.mapM_cons]
    have first := ends_dependency inner standing deep (classes p List.mem_cons_self)
    refine (first.mono (fun sure => sure p List.mem_cons_self) fun _ _ _ _ => id).bind
      (.refl h) fun h₁ value standing₁ grown given => .rebase ?_ grown
    have later := ih standing₁ (grown.depth.trans deep)
      fun p' member => classes p' (List.mem_cons_of_mem _ member)
    refine (later.mono
      (fun sure p' member => (sure p' (List.mem_cons_of_mem _ member)).extend grown)
      fun _ _ _ _ => id).bind (.refl h₁) fun h₂ values standing₂ grown₂ more => ?_
    obtain ⟨o, rfl, provides, founded⟩ := given
    exact .value standing₂ grown₂
      (.cons ⟨o, rfl, provides.carry grown₂.toCarries, founded⟩ more)

end Dependencies

/-- Each parameter has its argument. -/
lemma exists_argument {R : Parameter → Value → Prop} {params : List Parameter} {values : List Value}
    (all : List.Forall₂ R params values) {p : Parameter} (member : p ∈ params) :
    ∃ value, (p.name, value) ∈ (params.map (·.name)).zip values ∧ R p value := by
  induction all with
  | nil => cases member
  | cons first _ ih =>
    rcases List.mem_cons.1 member with rfl | member
    · exact ⟨_, List.mem_cons_self, first⟩
    · obtain ⟨value, there, r⟩ := ih member
      exact ⟨value, List.mem_cons_of_mem _ there, r⟩

/-! ## Constructions -/

/-- The constructor of a class assigns its arguments to the fields of a new object. -/
lemma run_construct {values : List Value} (contained : m.SelfContained)
    (standing : m.Standing ids c h) (member : t ∈ m.types)
    (only : t.constructors = [ctor]) (assigning : t.Assigning ctor)
    (length : values.length = ctor.params.length) :
    (Host.construct t.name ctor.id values).run h = some (.ok (.object ⟨h.objects.size⟩),
      h.addObject { ty := t.name, slots := Universe.ownSlots t } t.name
        ((ctor.params.map (·.name)).zip values)) := by
  obtain ⟨interface, abstract, base⟩ := contained.concrete t member
  have marked : t.markedConstructor? = some ctor := by
    rw [TypeDef.markedConstructor?, only]
    simp [assigning.marked]
  have declared := TypeDef.constructor?_rewoven_of_marked (ids.entry .factory t.name)
    (ids.entry .injector t.name) (contained.unambiguous.constructors t member)
    (contained.gets_factory member) marked
  have stored : ∀ p ∈ ctor.params, ∃ f, (rewovenType ids t).field? p.name = some f := by
    intro p hp
    obtain ⟨f, hf, named, -⟩ := assigning.stored p hp
    have found : t.field? f.name = some f :=
      find?_key_of_mem Field.name (contained.fields t member) hf
    obtain ⟨v, -, found⟩ := TypeDef.field?_rewoven (ids.entry .factory t.name)
      (ids.entry .injector t.name) found
    exact ⟨_, named ▸ found⟩
  have slots : Universe.ownSlots (rewovenType ids t) = Universe.ownSlots t := ownSlots_rewoven t
  rw [construct_unlimited, ← slots]
  have top : (rewovenType ids t).supertype = none := by simpa [rewovenType] using base
  refine run_construct_assigning (standing.types member) (layout_eq_ok (standing.types member) top)
    ?_ declared ?_ ?_ assigning.count stored length ?_
  · simp [rewovenType, interface, abstract]
  · rw [assigning.assigns]
    rfl
  · simp [rewovenType]
  · have depth := standing.calls.trans standing.depth
    exact depth.trans_lt (by decide)

/-- The new object has the arguments in its fields. -/
lemma making_addObject {values : List Value} (standing : m.Standing ids c h)
    (assigning : t.Assigning ctor)
    (all : List.Forall₂ (fun p value => m.Given c p.ty h value) ctor.params values) :
    m.Making c t h.objects.size (ctor.params.map fun p => (p.name, p.ty))
      (h.addObject { ty := t.name, slots := Universe.ownSlots t } t.name
        ((ctor.params.map (·.name)).zip values)) ⟨h.objects.size⟩ := by
  let object : HeapObject := { ty := t.name, slots := Universe.ownSlots t }
  let values' := (ctor.params.map (·.name)).zip values
  have made := shape_addObject_self h object t.name values'
  obtain ⟨objects, same, size⟩ := exists_addObject h object t.name values'
  refine ⟨le_rfl, ?_, congrArg Prod.fst made, ?_, ?_, ?_, ?_⟩
  · rw [same]
    exact size ▸ Nat.lt_succ_self _
  · intro f hf
    rw [isSome_getDeclared?, addObject, shape_putAll, ← isSome_getDeclared?]
    exact isSome_getDeclared?_allocate (List.Subset.refl _) hf h t.name
  · rw [same]
    exact standing.unheld_of_le (o := ⟨h.objects.size⟩) le_rfl
  · intro f hf
    obtain ⟨p, hp, rfl⟩ := List.mem_map.1 hf
    obtain ⟨value, there, o', rfl, provides, -⟩ := exists_argument all hp
    obtain ⟨f, hf, named, -⟩ := assigning.stored p hp
    have names : (values'.map (·.1)).Nodup := by
      rw [List.map_fst_zip (by rw [List.length_map, all.length_eq])]
      exact assigning.names
    refine ⟨o', getDeclared?_putAll_of_mem names there ?_,
      provides.carry (Extends.addObject h object t.name values').toCarries⟩
    rw [← named]
    exact isSome_getDeclared?_allocate (List.Subset.refl _) hf h t.name
  · intro f hf
    obtain ⟨p, hp, rfl⟩ := List.mem_map.1 hf
    obtain ⟨value, there, o', rfl, -, founded⟩ := exists_argument all hp
    exact founded

/-! ## Synthesized code -/

section Synthesized

variable (contained : m.SelfContained) (inner : m.ResolvesAt ids c d)
include inner

include contained in
/-- A factory makes an object with instances in the fields that parameters are stored into. -/
lemma ends_assemble (standing : m.Standing ids c h) (deep : (h.container c).depth = d)
    (member : t ∈ m.types) (only : t.constructors = [ctor]) (assigning : t.Assigning ctor) :
    m.Ends ids c h (∀ p ∈ ctor.params, m.Sure c h p.ty)
      (fun h' value => ∃ o, value = .object o ∧
        m.Making c t h.objects.size (ctor.params.map fun p => (p.name, p.ty)) h' o)
      ((Host.assemble c t.name ctor).run h) := by
  have classes : ∀ p ∈ ctor.params, ∃ s ∈ m.types, s.name = p.ty := by
    intro p hp
    refine contained.closed t member (p.name, p.ty) ?_
    simp only [TypeDef.dependencies, only, List.flatMap_cons, List.flatMap_nil, List.append_nil]
    exact List.mem_append_left _ (List.mem_map.2 ⟨p, hp, rfl⟩)
  rw [Host.assemble]
  refine (ends_arguments inner standing deep classes).bind (.refl h)
    fun h₁ values standing₁ grown all => ?_
  rw [run_construct contained standing₁ member only assigning all.length_eq.symm]
  have making := making_addObject standing₁ assigning all
  exact .value (standing₁.addObject ..) (grown.trans (.addObject ..))
    ⟨_, rfl, { making with new := grown.objects.trans making.new }⟩

/-- An injector fills the marked fields of a new object. -/
lemma ends_fill {fields : List Field} {done : List (String × String)}
    (standing : m.Standing ids c h) (deep : (h.container c).depth = d)
    (grown : Extends c base h) (making : m.Making c t base.objects.size done h o)
    (declared : ∀ f ∈ fields, f ∈ t.fields) (classes : ∀ f ∈ fields, ∃ s ∈ m.types, s.name = f.ty)
    (names : ((done ++ fields.map fun f => (f.name, f.ty)).map (·.1)).Nodup) :
    m.Ends ids c base (∀ f ∈ fields, m.Sure c h f.ty)
      (fun h' _ => m.Making c t base.objects.size (done ++ fields.map fun f => (f.name, f.ty)) h' o)
      ((Host.fill c t.name o fields).run h) := by
  induction fields generalizing h done with
  | nil =>
    refine .value standing grown ?_
    simpa using making
  | cons f rest ih =>
    rw [Host.fill_cons]
    have first := ends_dependency inner standing deep (classes f List.mem_cons_self)
    refine (first.mono (fun sure => sure f List.mem_cons_self) fun _ _ _ _ => id).bind grown
      fun h₁ value standing₁ grown₁ given => ?_
    obtain ⟨o', rfl, provides, founded⟩ := given
    have making₁ := making.extend standing₁ grown₁
    have unused : f.name ∉ done.map (·.1) := by
      rw [List.map_append, List.nodup_append] at names
      exact fun used => names.2.2 _ used _ List.mem_cons_self rfl
    rw [Run.run_modify_bind]
    have later := ih (standing₁.putDeclared making₁.unheld t.name f.name (.object o'))
      (grown₁.depth.trans deep) ((grown.trans grown₁).putDeclared making.new t.name f.name _)
      (making₁.putDeclared (declared f List.mem_cons_self) unused provides founded)
      (fun g hg => declared g (List.mem_cons_of_mem _ hg))
      (fun g hg => classes g (List.mem_cons_of_mem _ hg)) (by simpa using names)
    refine later.mono (fun sure g hg => ?_) fun _ _ _ _ making => ?_
    · exact ((sure g (List.mem_cons_of_mem _ hg)).extend grown₁).of_same rfl (fun _ => rfl)
        fun _ => rfl
    · simpa using making

end Synthesized

/-! ## Productions -/

lemma isInstance_of_type {ty : String} (type : (h.object o).ty = ty) :
    h.isInstance (.object o) ty = true := by
  have self : h.types.conforms ty ty = true := by
    rw [Universe.conforms, Universe.search_cons, if_pos rfl]
  simp [isInstance, type, self]

lemma run_checkInstance {ty : String} (type : (h.object o).ty = ty) :
    (checkInstance (.object o) ty).run h = some (.ok ⟨⟩, h) := by
  rw [checkInstance, Run.run_get_bind, isInstance_of_type type]
  rfl

/-- A class with marked fields has the injector that the weave has made, others have none. -/
lemma run_injectorOf?_of_standing (contained : m.SelfContained) (standing : m.Standing ids c h)
    (member : t ∈ m.types) : (Run.injectorOf? t.name).run h
      = some (.ok (if t.markedFields = [] then none
          else some (.woven ⟨t.name, ids.entry .injector t.name⟩)), h) := by
  rw [Run.injectorOf?, Run.run_get_bind]
  by_cases none : t.markedFields = []
  · simp only [standing.bare member none, standing.alone, if_pos none]
    rfl
  · have gets := (contained.gets_injector member).2 none
    simp only [standing.registered.injector member gets, standing.alone, if_neg none]
    rfl

section Productions

variable (contained : m.SelfContained) (inner : m.ResolvesAt ids c d)
  (fresh : supply.FreshFor m) (drawn : ids.inOrder m = supply.next m.idsNeeded)
include contained fresh drawn

/-- The code of the weave means what it should. -/
lemma codeMeans (standing : m.Standing ids c h) (room : h.callDepth < (h.container c).depth) :
    m.CodeMeans ids h c :=
  codeMeans_of_found contained.unambiguous fresh drawn (fun _ => standing.types)
    ((room.trans_le standing.depth).trans (by decide)) c

/-- The binding of a class has the factory of the class assemble an instance. -/
lemma run_produce (standing : m.Standing ids c h) (room : h.callDepth < (h.container c).depth)
    (member : t ∈ m.types) (only : t.constructors = [ctor]) (marked : ctor.isMarked = true)
    {b : Binding} (held : b.held = none) (concrete : b.concrete = t.name)
    (factory : b.factory = none) :
    (unlimited.produce c b).run h = (Host.oneDeeper (Host.assemble c t.name ctor)).run h := by
  have gets := contained.gets_factory member
  have marked : t.markedConstructor? = some ctor := by
    rw [TypeDef.markedConstructor?, only]
    simp [marked]
  have found : (Run.factoryOf t.name).run h
      = some (.ok (.woven ⟨t.name, ids.entry .factory t.name⟩), h) := by
    rw [Run.factoryOf, Run.run_get_bind]
    simp only [standing.registered.factory member gets]
    rfl
  rw [← (codeMeans contained fresh drawn standing room).factory member gets marked, Host.runFactory,
    withEngine_eq _ fun agree => agree.runFactory _ c, Engine.produce]
  simp only [held, factory, concrete]
  exact Run.run_bind_of_ok found

/-- An instance is made for a class, with all fields filled. -/
lemma ends_make (inner : m.ResolvesAt ids c d) (standing : m.Standing ids c h)
    (deep : (h.container c).depth = d) (room : h.callDepth < (h.container c).depth)
    (member : t ∈ m.types) {b : Binding} (held : b.held = none) (concrete : b.concrete = t.name)
    (factory : b.factory = none) :
    m.Ends ids c h (∀ f ∈ t.dependencies, m.Sure c h f.2)
      (fun h' value => ∃ o, value = .object o ∧
        m.Making c t h.objects.size t.dependencies h' o)
      ((unlimited.make c t.name b).run h) := by
  obtain ⟨ctor, only, assigning⟩ := contained.constructor t member
  have parts : t.dependencies = ctor.params.map (fun p => (p.name, p.ty))
      ++ t.markedFields.map fun f => (f.name, f.ty) := by
    simp [TypeDef.dependencies, only]
  have produced : m.Ends ids c h (∀ p ∈ ctor.params, m.Sure c h p.ty)
      (fun h' value => ∃ o, value = .object o ∧
        m.Making c t h.objects.size (ctor.params.map fun p => (p.name, p.ty)) h' o)
      ((unlimited.produce c b).run h) := by
    rw [run_produce contained fresh drawn standing room member only assigning.marked held concrete
      factory]
    refine Ends.oneDeeper ((ends_assemble contained inner (standing.enterCall room) deep member only
      assigning).mono (fun sure p hp => ?_) fun _ _ _ _ => id) fun h' value made => ?_
    · exact (sure p hp).of_same rfl (fun _ => rfl) fun _ => rfl
    · obtain ⟨o, rfl, making⟩ := made
      exact ⟨o, rfl, making.leaveCall⟩
  rw [Engine.make]
  refine (produced.mono (fun sure p hp => ?_) fun _ _ _ _ => id).bind (.refl h)
    fun h₁ value standing₁ grown made => ?_
  · refine sure (p.name, p.ty) ?_
    rw [parts]
    exact List.mem_append_left _ (List.mem_map.2 ⟨p, hp, rfl⟩)
  obtain ⟨o, rfl, making⟩ := made
  have room₁ : h₁.callDepth < (h₁.container c).depth := by
    rw [grown.calls, grown.depth]
    exact room
  rw [Run.run_bind_of_ok (run_checkInstance making.type),
    Run.run_bind_of_ok (run_injectorOf?_of_standing contained standing₁ member)]
  by_cases none : t.markedFields = []
  · rw [if_pos none]
    refine .value standing₁ grown ⟨o, rfl, ?_⟩
    rw [parts, none, List.map_nil, List.append_nil]
    exact making
  · rw [if_neg none]
    have gets := (contained.gets_injector member).2 none
    have marked : ∀ f ∈ t.markedFields, f ∈ t.fields := fun f hf => (List.mem_filter.1 hf).1
    have injected := (codeMeans contained fresh drawn standing₁ room₁).injector member gets
      fun f hf => making.slots f (marked f hf)
    rw [Host.runInjector, withEngine_eq _ fun agree => agree.runInjector _ _ c] at injected
    have filled : m.Ends ids c h (∀ f ∈ t.markedFields, m.Sure c h₁ f.ty)
        (fun h' _ => m.Making c t h.objects.size t.dependencies h' o)
        ((unlimited.runInjector (.woven ⟨t.name, ids.entry .injector t.name⟩) (.object o) c).run
          h₁) := by
      rw [injected]
      refine Ends.oneDeeper ((ends_fill inner (standing₁.enterCall room₁) (grown.depth.trans deep)
        grown.enterCall making.enterCall marked (fun f hf => ?_) ?_).mono (fun sure f hf => ?_)
        fun _ _ _ _ => id) fun h' _ making => ?_
      · refine contained.closed t member (f.name, f.ty) ?_
        rw [parts]
        exact List.mem_append_right _ (List.mem_map.2 ⟨f, hf, rfl⟩)
      · rw [← parts]
        exact contained.nodup_dependencies member
      · exact (sure f hf).of_same rfl (fun _ => rfl) fun _ => rfl
      · rw [parts]
        exact making.leaveCall
    refine (filled.mono (fun sure f hf => ?_) fun _ _ _ _ => id).bind (.refl h)
      fun h₂ _ standing₂ grown₂ making => .value standing₂ grown₂ ⟨o, rfl, making⟩
    refine (sure (f.name, f.ty) ?_).extend grown
    rw [parts]
    exact List.mem_append_right _ (List.mem_map.2 ⟨f, hf, rfl⟩)

end Productions

/-! ## Settlements -/

/-- The new object is one to answer with once it is kept, if the scope is that of singletons. -/
lemma completed_of_making {h' : Host} (found : h.bindingFor? c t.name = some ref)
    (making : m.Making c t size t.dependencies h₁ o)
    (founded : m.Founded t.name) (carries : Carries c h₁ h') (grown : Extends c h h')
    (object : h'.object o = h₁.object o)
    (kept : (h'.binding ref).scope = .singleton →
      (h'.binding ref).resolved = true ∧ (h'.binding ref).held = some (.object o)) :
    m.Completed c t h' o where
  provides :=
    { valid := making.valid.trans_le carries.objects
      type := (carries.type o making.valid).trans making.type
      kept := fun found' scope => by
        rw [grown.found, found] at found'
        cases found'
        exact kept scope }
  filled := making.filled.carry carries object
  founded := founded

section Settlements

variable (contained : m.SelfContained) (standing : m.Standing ids c h)
  (standing₁ : m.Standing ids c h₁) (member : t ∈ m.types)
  (found : h.bindingFor? c t.name = some ref)
include contained standing standing₁ member found

/-- A host stands after only one binding was settled, if that binding may hold what it holds. -/
lemma standing_of_settled {h' : Host} (carries : Carries c h₁ h') (grown : Extends c h h')
    (objects : ∀ o, h'.object o = h₁.object o)
    (others : ∀ ref', ref ≠ ref' → h'.binding ref' = h₁.binding ref')
    (own : (h'.binding ref).resolved = false ∧ (h'.binding ref).held = none ∨
      (h'.binding ref).resolved = true ∧
        ∃ o, (h'.binding ref).held = some (.object o) ∧ m.Completed c t h' o) :
    m.Standing ids c h' :=
  { standing₁.toEquipped.carry carries with
    calls := by
      rw [grown.calls, grown.depth]
      exact standing.calls
    depth := by
      rw [grown.depth]
      exact standing.depth
    state := fun {s ref'} hs found' => by
      by_cases here : ref = ref'
      · subst here
        rw [grown.found] at found'
        have named := standing.name_eq member hs found found'
        obtain rfl := List.inj_on_of_nodup_map contained.types hs member named
        exact own
      · rw [carries.found] at found'
        rw [others ref' here]
        rcases standing₁.state hs found' with open_ | ⟨answered, o, held, completed⟩
        · exact .inl open_
        · exact .inr ⟨answered, o, held, completed.carry carries (objects o)⟩ }

variable (unresolved : (h.binding ref).resolved = false)
  (idle : (h.binding ref).producing = false) (grown : Extends c (h.enterProduction c ref) h₁)
include unresolved idle grown

/-- A binding that keeps nothing is as before. -/
lemma standing_leaveProduction :
    m.Standing ids c (h₁.leaveProduction c ref) ∧ Extends c h (h₁.leaveProduction c ref) := by
  obtain ⟨ref', scope, found', valid, -, -⟩ := standing.bound member
  cases found.symm.trans found'
  have left : Extends c h (h₁.leaveProduction c ref) :=
    grown.leaveProduction valid standing.container unresolved idle (.inl rfl)
  obtain ⟨size, still⟩ := grown.unresolved valid unresolved
  refine ⟨standing_of_settled contained standing standing₁ member found (.leaveProduction h₁) left
    (fun _ => rfl) (fun ref' other => binding_leaveProduction_of_ne other c) (.inl ?_), left⟩
  rw [binding_leaveProduction_self size]
  have found₁ : h₁.bindingFor? c t.name = some ref :=
    (((Carries.enterProduction h).trans grown.toCarries).found _).trans found
  rcases standing₁.state member found₁ with own | ⟨resolved, -⟩
  · exact own
  · cases still.symm.trans resolved

/-- The new object is answered with, and it is kept if the scope is that of singletons. -/
lemma ends_settle {sure : Prop} (making : m.Making c t h.objects.size t.dependencies h₁ o)
    (founded : m.Founded t.name) :
    m.Ends ids c h sure (fun h' value => ∃ o, value = .object o ∧ m.Completed c t h' o)
      (((settle ref (.object o) >>= fun _ => pure (Value.object o)).run h₁).map
        fun (r, h') => (r, h'.leaveProduction c ref)) := by
  obtain ⟨ref', scope, found', valid, set, settings⟩ := standing.bound member
  cases found.symm.trans found'
  have scope₁ : (h₁.binding ref).scope = scope := congrArg (·.2.2.2)
    ((((Carries.enterProduction h).trans grown.toCarries).settings ref).trans settings)
  obtain ⟨size, still⟩ := grown.unresolved valid unresolved
  cases scope with
  | unset => exact absurd rfl set
  | transient =>
    rw [Run.run_bind_of_ok (run_settle_transient scope₁)]
    obtain ⟨stands, left⟩ := standing_leaveProduction contained standing standing₁ member found
      unresolved idle grown
    refine .value stands left ⟨o, rfl, completed_of_making found making founded
      (.leaveProduction h₁) left rfl fun single => ?_⟩
    rw [binding_leaveProduction_self size] at single
    cases scope₁.symm.trans single
  | singleton =>
    rw [Run.run_bind_of_ok (run_settle_singleton scope₁)]
    let h₂ := h₁.hold ref (.object o)
    have grown' : Extends c h (h₂.leaveProduction c ref) :=
      grown.leaveProduction valid standing.container unresolved idle (.inr ⟨o, rfl, making.new⟩)
    have carries : Carries c h₁ (h₂.leaveProduction c ref) :=
      (Carries.hold still _).trans (.leaveProduction h₂)
    have size₂ : ref.index < h₂.bindings.size := by
      rw [(Carries.hold (c := c) still _).bindings]
      exact size
    have left : (h₂.leaveProduction c ref).binding ref
        = { h₁.binding ref with held := some (.object o), resolved := true, producing := false } :=
      (binding_leaveProduction_self size₂ c).trans
        (congrArg (fun b => { b with producing := false }) (binding_updateBinding_self size _))
    have completed : m.Completed c t (h₂.leaveProduction c ref) o :=
      completed_of_making found making founded carries grown' rfl
        fun _ => by rw [left]; exact ⟨rfl, rfl⟩
    refine .value (standing_of_settled contained standing standing₁ member found carries
      grown' (fun _ => rfl) (fun ref' other => ?_) (.inr ?_)) grown' ⟨o, rfl, completed⟩
    · exact (binding_leaveProduction_of_ne other c).trans (binding_updateBinding_of_ne other h₁ _)
    · rw [left]
      exact ⟨rfl, o, rfl, completed⟩

end Settlements

/-! ## Resolutions -/

/-- From a class that only depends on classes from which every path ends, every path ends. -/
lemma founded_of_dependencies (contained : m.SelfContained) (member : t ∈ m.types)
    (founded : ∀ f ∈ t.dependencies, m.Founded f.2) : m.Founded t.name := by
  refine Acc.intro _ fun b edge => ?_
  obtain ⟨s, hs, named, f, hf, rfl⟩ := edge
  obtain rfl := List.inj_on_of_nodup_map contained.types hs member named
  exact founded f hf

section Resolutions

variable (contained : m.SelfContained) (fresh : supply.FreshFor m)
  (drawn : ids.inOrder m = supply.next m.idsNeeded)
include contained fresh drawn

/-- Resolutions end as they should if those that are one level deeper do. -/
lemma resolvesAt_of_succ (inner : m.ResolvesAt ids c (d + 1)) : m.ResolvesAt ids c d := by
  intro h standing deep t member
  obtain ⟨ref, scope, found, valid, -, settings⟩ := standing.bound member
  rw [resolve_eq]
  rcases Nat.lt_or_ge (h.container c).depth maxResolveDepth with room | tooDeep
  swap
  · rw [run_resolve_of_tooDeep tooDeep]
    exact .fault standing (.refl h) fun sure => Nat.not_lt_of_le tooDeep sure.room
  cases resolved : (h.binding ref).resolved with
  | true =>
    rcases standing.state member found with ⟨unresolved, -⟩ | ⟨-, o, held, completed⟩
    · rw [resolved] at unresolved
      cases unresolved
    have answer : (h.binding ref).held.getD .null = .object o := by rw [held, Option.getD_some]
    rw [run_resolve_of_resolved room found resolved answer,
      if_pos (isInstance_of_type completed.provides.type)]
    exact .value standing (.refl h) ⟨o, rfl, completed⟩
  | false =>
  cases producing : (h.binding ref).producing with
  | true =>
    rw [run_resolve_of_producing room found resolved producing]
    refine .fault standing (.refl h) fun sure => ?_
    cases producing.symm.trans (sure.idle .refl found)
  | false =>
    -- an instance is made one level deeper, and then the binding is settled
    have concrete : (h.binding ref).concrete = t.name := congrArg (·.2.1) settings
    have factory : (h.binding ref).factory = none := congrArg (·.2.2.1) settings
    have held : (h.binding ref).held = none := by
      rcases standing.state member found with ⟨-, held⟩ | ⟨known, -⟩
      · exact held
      · cases resolved.symm.trans known
    have entered : m.Standing ids c (h.enterProduction c ref) := (standing.enterProduction room).1
    have depth : ((h.enterProduction c ref).container c).depth = (h.container c).depth + 1 :=
      (standing.enterProduction room).2
    have calls : (h.enterProduction c ref).callDepth
        < ((h.enterProduction c ref).container c).depth := by
      rw [depth]
      exact Nat.lt_succ_of_le standing.calls
    have made := ends_make contained fresh drawn inner entered (depth.trans (congrArg (· + 1) deep))
      calls member held concrete factory
    rw [run_resolve_of_idle room found resolved producing]
    cases outcome : (unlimited.make c t.name (h.binding ref)).run (h.enterProduction c ref) with
    | none =>
      rw [outcome] at made
      cases made
    | some r =>
    rw [outcome] at made
    cases made with
    | @fault cause h₁ standing₁ grown unsure =>
      rw [Run.run_bind_of_error outcome]
      obtain ⟨stands, left⟩ := standing_leaveProduction contained standing standing₁ member found
        resolved producing grown
      refine .fault stands left fun sure => unsure fun f hf => ?_
      exact sure.enterProduction contained standing member found ⟨t, member, rfl, f, hf, rfl⟩
    | @value a h₁ standing₁ grown holds =>
      obtain ⟨o, rfl, making⟩ := holds
      have founded := founded_of_dependencies contained member making.founded
      rw [Run.run_bind_of_ok outcome]
      exact ends_settle contained standing standing₁ member found resolved producing grown making
        founded

/-- Every resolution of a class ends, in every host that stands: with an object that is filled, or
with a fault if it does not have to end well. -/
theorem ends_resolve (standing : m.Standing ids c h) (member : t ∈ m.types) :
    m.Ends ids c h (m.Sure c h t.name)
      (fun h' value => ∃ o, value = .object o ∧ m.Completed c t h' o)
      ((Host.resolve c t.name).run h) := by
  -- no more resolutions can be active than the limit permits, so the levels come to an end
  have every : ∀ k d, maxResolveDepth < d + k → m.ResolvesAt ids c d := by
    intro k
    induction k with
    | zero =>
      intro d beyond h standing deep
      exact absurd standing.depth (by omega)
    | succ k ih =>
      intro d beyond
      exact resolvesAt_of_succ contained fresh drawn (ih (d + 1) (by omega))
  exact every (maxResolveDepth + 1) _ (by omega) h standing rfl t member

end Resolutions

end Module
end Weaver
