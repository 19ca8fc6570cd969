import Weaver.Proofs.Engine.Resolutions
import Weaver.Proofs.Host.Filing
import Weaver.Proofs.Weave.SynthesizedCode

/-!
# Injectable types

Two parts of the program tell which types have fields to fill: the scan for the targets of a weave,
and the fallback of a host, which looks at the loaded types. They agree on every class. The scan
passes over interfaces, but the fallback offers an injector for one with marked fields. Objects have
no slots for the fields of an interface that nothing is derived from, and then the injector fails.

Three things live here:

* `Module.Lists` and `TypeDef.IsMarkedInterface`, what the scan says of a type and where the fallback
  says something else;
* `Engine.run_fillFields`, by which an injector of the fallback does what the code of a weave does;
* `Host.introspects_of_load`, what the fallback says and does at any time after a module is loaded,
  next to what the scan says.
-/

namespace Weaver

open Host

/-! ## What the scan says -/

/-- The scan lists a type of the module as one with fields to fill. -/
def Module.Lists (m : Module) (registrar ty : String) : Prop :=
  ∃ target ∈ (m.targets registrar).injectable, target.ty = ty

/-- An interface with marked fields. -/
def TypeDef.IsMarkedInterface (t : TypeDef) : Prop :=
  t.isInterface = true ∧ t.markedFields ≠ []

section Scan

variable {m : Module} {registrar : String} {t : TypeDef}

/-- The targets with fields to fill are the classes with marked fields, but for the registrar. -/
lemma mem_injectable_iff {target : FieldTarget} :
    target ∈ (m.targets registrar).injectable ↔ ∃ t ∈ m.types, t.name ≠ registrar ∧
      t.isInterface = false ∧ t.markedFields ≠ [] ∧
      target = ⟨t.name, t.markedFields.map (·.name)⟩ := by
  have own (t : TypeDef) : t.fieldTarget? = some target ↔ t.isInterface = false ∧
      t.markedFields ≠ [] ∧ target = ⟨t.name, t.markedFields.map (·.name)⟩ := by
    rw [TypeDef.fieldTarget?]
    cases t.isInterface <;> cases t.markedFields <;> simp [eq_comm]
  simp only [Module.targets, List.mem_filterMap, List.mem_filter, bne_iff_ne, own, and_assoc]

variable (distinct : (m.types.map (·.name)).Nodup) (member : t ∈ m.types)
include distinct member

lemma eq_of_mem_injectable {target : FieldTarget}
    (listed : target ∈ (m.targets registrar).injectable) (named : target.ty = t.name) :
    t.isInterface = false ∧ t.markedFields ≠ [] ∧
      target.fields = t.markedFields.map (·.name) := by
  obtain ⟨s, there, -, concrete, marked, rfl⟩ := mem_injectable_iff.1 listed
  obtain rfl : s = t := List.inj_on_of_nodup_map distinct there member named
  exact ⟨concrete, marked, rfl⟩

lemma lists_iff (other : t.name ≠ registrar) :
    m.Lists registrar t.name ↔ t.isInterface = false ∧ t.markedFields ≠ [] := by
  constructor
  · rintro ⟨target, listed, named⟩
    obtain ⟨concrete, marked, -⟩ := eq_of_mem_injectable distinct member listed named
    exact ⟨concrete, marked⟩
  · rintro ⟨concrete, marked⟩
    exact ⟨_, mem_injectable_iff.2 ⟨t, member, other, concrete, marked, rfl⟩, rfl⟩

/-- A type has marked fields if the scan lists it, and if it is one of the interfaces that the scan
passes over. -/
lemma marked_iff (other : t.name ≠ registrar) :
    t.markedFields ≠ [] ↔ m.Lists registrar t.name ∨ t.IsMarkedInterface := by
  rw [lists_iff distinct member other, TypeDef.IsMarkedInterface, ← or_and_right]
  cases t.isInterface <;> simp

end Scan

/-! ## What an injector of the fallback does -/

namespace Engine

variable {c : ContainerRef} {ty : String} {ref : ObjectRef} {h h' : Host}

/-- The fields of an object that has slots for them are filled one after the other. -/
lemma run_fillFields {fields : List Field}
    (slots : ∀ f ∈ fields, (h.getDeclared? ref ty f.name).isSome) :
    (unlimited.fillFields ty ref c (fields.map fun f => (f.name, f.ty))).run h
      = (fill c ty ref fields).run h := by
  induction fields generalizing h with
  | nil => rfl
  | cons f rest ih =>
    rw [List.map_cons, fillFields, fill_cons]
    refine Run.run_bind_congr rfl fun value h' resolved => ?_
    have history := traced_unlimited.history (fun e => e.resolve c f.ty)
      (fun agree => agree.resolve _ c f.ty) resolved
    have slot : (h'.getDeclared? ref ty f.name).isSome :=
      history.keeps.slot (slots f List.mem_cons_self)
    have stored : h'.setDeclared? ref ty f.name value = some (h'.putDeclared ref ty f.name value) :=
      setDeclared?_eq_some_iff.2 ⟨slot, rfl⟩
    have keeps := (Change.store stored).keeps
    rw [Run.run_get_bind]
    simp only [stored]
    exact ih fun g member =>
      keeps.slot (history.keeps.slot (slots g (List.mem_cons_of_mem _ member)))

/-- An object without slots for the fields cannot be filled. -/
lemma exists_error_of_fillFields {fields : List (String × String)}
    {r : Except HostError Unit} (known : ref.index < h.objects.size) (nonempty : fields ≠ [])
    (missing : ∀ f ∈ fields, h.getDeclared? ref ty f.1 = none)
    (run : (unlimited.fillFields ty ref c fields).run h = some (r, h')) : ∃ e, r = .error e := by
  match fields with
  | [] => exact absurd rfl nonempty
  | (name, fieldType) :: rest =>
    rw [fillFields] at run
    rcases outcome : (unlimited.resolve c fieldType).run h with _ | ⟨e | value, h₁⟩
    · rw [Run.run_bind, outcome] at run
      cases run
    · rw [Run.run_bind_of_error outcome] at run
      cases run
      exact ⟨e, rfl⟩
    · have history := traced_unlimited.history (fun e => e.resolve c fieldType)
        (fun agree => agree.resolve _ c fieldType) outcome
      -- the resolution has not given the object a slot
      have still : (h₁.getDeclared? ref ty name).isSome = false := by
        rw [isSome_getDeclared?, history.keeps.shape ref known, ← isSome_getDeclared?,
          missing _ List.mem_cons_self]
        rfl
      have refused : h₁.setDeclared? ref ty name value = none := by
        rw [setDeclared?, still]
        rfl
      rw [Run.run_bind_of_ok outcome, Run.run_get_bind, refused] at run
      cases run
      exact ⟨_, rfl⟩

/-- Without an injector, the instance that is made for a resolution is the answer as it is. -/
lemma run_resolve_of_produce {ref : BindingRef} {value : Value} {h₁ h₂ : Host}
    (room : (h.container c).depth < maxResolveDepth) (found : h.bindingFor? c ty = some ref)
    (unresolved : (h.binding ref).resolved = false) (idle : (h.binding ref).producing = false)
    (produced : (unlimited.produce c (h.binding ref)).run (h.enterProduction c ref)
      = some (.ok value, h₁))
    (fits : h₁.isInstance value ty = true)
    (without : (Run.injectorOf? ty).run h₁ = some (.ok none, h₁))
    (settles : Settles ref h₁ (.ok value) h₂) :
    (Host.resolve c ty).run h = some (.ok value, h₂.leaveProduction c ref) := by
  have passed : (checkInstance value ty).run h₁ = some (.ok ⟨⟩, h₁) := by
    rw [checkInstance, Run.run_get_bind, fits]
    rfl
  have made : (unlimited.make c ty (h.binding ref)).run (h.enterProduction c ref)
      = some (.ok value, h₁) := by
    rw [make, Run.run_bind_of_ok produced, Run.run_bind_of_ok passed, Run.run_bind_of_ok without]
    rfl
  have settled : (settle ref value >>= fun _ => pure value).run h₁ = some (.ok value, h₂) := by
    cases settles with
    | transient scope => exact Run.run_bind_of_ok (run_settle_transient scope)
    | singleton scope => exact Run.run_bind_of_ok (run_settle_singleton scope)
  show (unlimited.resolve c ty).run h = _
  rw [← next_unlimited, run_resolve_of_idle room found unresolved idle, Run.run_bind_of_ok made,
    settled]
  rfl

end Engine

namespace Host

variable {h h₀ h₁ : Host} {m : Module} {registrar : String} {t : TypeDef} {c : ContainerRef}

/-! ## What the fallback says -/

/-- What the fallback of a host says and does about a type of a module, next to what the scan says
about it. -/
structure Introspects (h : Host) (m : Module) (registrar : String) (t : TypeDef) : Prop where
  /-- The fallback offers an injector for what the scan lists, and for interfaces with marked
  fields. -/
  offers_iff : (Run.introspectedInjector? h t.name).isSome ↔
    m.Lists registrar t.name ∨ t.IsMarkedInterface
  /-- The lookup gives the injector that is registered, else the one that the fallback offers. -/
  finds : ∃ h', (Run.injectorOf? t.name).run h = some (.ok
    ((h.registry.injectors.find? t.name).or (Run.introspectedInjector? h t.name)), h')
  /-- The injector has the fields for which a weave of the target makes code, in the same order and
  with the same types. -/
  offers {target : FieldTarget} : target ∈ (m.targets registrar).injectable → target.ty = t.name →
    ∃ fields, (t.exposeFields target.fields).2 = .ok fields ∧
      Run.introspectedInjector? h t.name
        = some (.introspected t.name (fields.map fun f => (f.name, f.ty)))
  /-- It fills them as that code does. -/
  fills {injector : Injector} {o : ObjectRef} (c : ContainerRef) :
    Run.introspectedInjector? h t.name = some injector →
    (∀ f ∈ t.markedFields, (h.getDeclared? o t.name f.name).isSome) →
    (runInjector injector (.object o) c).run h = (fill c t.name o t.markedFields).run h
  /-- It fails on objects without slots for them. -/
  fails {injector : Injector} {o : ObjectRef} {r : Except HostError Unit} {h' : Host}
    (c : ContainerRef) : Run.introspectedInjector? h t.name = some injector →
    o.index < h.objects.size → (∀ f ∈ t.markedFields, h.getDeclared? o t.name f.name = none) →
    (runInjector injector (.object o) c).run h = some (r, h') → ∃ e, r = .error e
  /-- If the scan does not list the type, and it is no interface with marked fields, then the
  instance that is made for a resolution is the answer as it is. -/
  bare {c : ContainerRef} {ref : BindingRef} {value : Value} {h₁ h₂ : Host} :
    ¬m.Lists registrar t.name → ¬t.IsMarkedInterface →
    (h.container c).depth < maxResolveDepth → h.bindingFor? c t.name = some ref →
    (h.binding ref).resolved = false → (h.binding ref).producing = false →
    (Engine.unlimited.produce c (h.binding ref)).run (h.enterProduction c ref)
      = some (.ok value, h₁) →
    h₁.registry.injectors.find? t.name = none → h₁.isInstance value t.name = true →
    Engine.Settles ref h₁ (.ok value) h₂ →
    (resolve c t.name).run h = some (.ok value, h₂.leaveProduction c ref)

/-- The types of a module that is not refused are found from then on, whatever its hooks end in. -/
lemma typeDef?_of_load {r : Except HostError LoadReport} (accepted : ¬h₀.Refuses m)
    (run : (load m).run h₀ = some (r, h₁)) (evolves : h₁.Evolves h) (member : t ∈ m.types) :
    h.typeDef? t.name = some t := by
  obtain ⟨new, hooks, planned⟩ := not_refuses_iff.1 accepted
  obtain ⟨r', h', -, history, report, ended⟩ := run_load_of_planned new planned
  obtain rfl : h' = h₁ := by
    rw [ended] at run
    cases run
    rfl
  have found : h'.types.find? t.name = some ⟨m.name, t⟩ := by
    rw [history.keeps.types]
    exact find?_addModule planned member
  rw [typeDef?, evolves.find?_types found]
  rfl

/-- The injector that the fallback offers for a loaded type has its marked fields. -/
lemma introspectedInjector?_eq (found : h.typeDef? t.name = some t) :
    Run.introspectedInjector? h t.name = if t.markedFields.isEmpty then none
      else some (.introspected t.name (t.markedFields.map fun f => (f.name, f.ty))) := by
  rw [Run.introspectedInjector?, found]

/-- The lookup of an injector on a host that introspects. What is cached is what is offered. -/
lemma exists_run_injectorOf?_of_introspection (fit : h.CachesFit)
    (fallback : h.registry.fallback = some .introspection) (ty : String) :
    ∃ h', (Run.injectorOf? ty).run h = some (.ok
      ((h.registry.injectors.find? ty).or (Run.introspectedInjector? h ty)), h') ∧
      (Run.introspectedInjector? h ty = none → h' = h) := by
  have supplied (ty : String) : h.suppliedInjector? ty = Run.introspectedInjector? h ty := by
    rw [suppliedInjector?, fallback]
  rw [Run.injectorOf?, Run.run_get_bind]
  cases registered : h.registry.injectors.find? ty with
  | some injector =>
    simp only [registered]
    exact ⟨h, rfl, fun _ => rfl⟩
  | none =>
    simp only [registered, fallback]
    cases cached : h.registry.cachedInjectors.find? ty with
    | some injector =>
      obtain ⟨entry, found, rfl⟩ := Option.map_eq_some_iff.1 cached
      have offered := fit.injectors entry (List.mem_of_find?_eq_some found)
      rw [supplied, key_of_find? Prod.fst found] at offered
      rw [offered]
      exact ⟨h, rfl, fun _ => rfl⟩
    | none =>
      have asked : (Run.fallbackInjector? ty .introspection).run h
          = some (.ok (Run.introspectedInjector? h ty), h) := rfl
      simp only
      rw [Run.run_bind_of_ok asked]
      cases Run.introspectedInjector? h ty with
      | none => exact ⟨h, rfl, fun _ => rfl⟩
      | some injector => exact ⟨_, rfl, fun none => by cases none⟩

/-- At any time after a module is loaded on a host that introspects, the fallback says of every type
what the scan says, and fills the same fields, but for interfaces with marked fields. -/
theorem introspects_of_load {config : HostConfig} {r : Except HostError LoadReport}
    (introspecting : config.fallback = true) (begins : (Host.new config).Evolves h₀)
    (accepted : ¬h₀.Refuses m) (loaded : (load m).run h₀ = some (r, h₁)) (evolves : h₁.Evolves h)
    (fields : ∀ t ∈ m.types, (t.fields.map (·.name)).Nodup) (member : t ∈ m.types)
    (other : t.name ≠ registrar) :
    h.Introspects m registrar t ∧
      (((Run.introspectedInjector? h t.name).isSome ↔ m.Lists registrar t.name) ↔
        ¬t.IsMarkedInterface) := by
  have distinct : (m.types.map (·.name)).Nodup := by
    obtain ⟨-, hooks, planned⟩ := not_refuses_iff.1 accepted
    exact (names_of_plan planned).1
  have whole : (Host.new config).Evolves h := begins.trans ((Evolves.of_load loaded).trans evolves)
  have used {g : Host} (later : h.Evolves g) : g.registry.fallback = some .introspection := by
    rw [(whole.trans later).fallback, Host.new, if_pos introspecting]
  have offered {g : Host} (later : h.Evolves g) : Run.introspectedInjector? g t.name
      = if t.markedFields.isEmpty then none
        else some (.introspected t.name (t.markedFields.map fun f => (f.name, f.ty))) :=
    introspectedInjector?_eq (typeDef?_of_load accepted loaded (evolves.trans later) member)
  have offers : (Run.introspectedInjector? h t.name).isSome ↔ t.markedFields ≠ [] := by
    rw [offered (.refl h)]
    cases t.markedFields <;> simp
  have own {injector : Injector} (known : Run.introspectedInjector? h t.name = some injector) :
      t.markedFields ≠ [] ∧
        injector = .introspected t.name (t.markedFields.map fun f => (f.name, f.ty)) := by
    have marked := offers.1 (by rw [known]; rfl)
    rw [offered (.refl h), if_neg (by simpa using marked)] at known
    exact ⟨marked, (Option.some.inj known).symm⟩
  have run (injector : Injector) (value : Value) (c : ContainerRef) :
      runInjector injector value c = Engine.unlimited.runInjector injector value c :=
    Engine.withEngine_eq _ fun agree => agree.runInjector injector value c
  refine ⟨⟨?offers_iff, ?finds, ?offers, ?fills, ?fails, ?bare⟩, ?agrees⟩
  case offers_iff => rw [offers, marked_iff distinct member other]
  case finds =>
    obtain ⟨h', found, -⟩ := exists_run_injectorOf?_of_introspection
      (whole.cachesFit (cachesFit_new config)) (used (.refl h)) t.name
    exact ⟨h', found⟩
  case offers =>
    intro target listed named
    obtain ⟨-, marked, names⟩ := eq_of_mem_injectable distinct member listed named
    refine ⟨t.markedFields, ?_, by rw [offered (.refl h), if_neg (by simpa using marked)]⟩
    rw [names, TypeDef.markedFields, exposeFields_eq [] rfl (firsts_of_nodup (fields t member))]
  case fills =>
    intro injector o c known slots
    obtain ⟨-, rfl⟩ := own known
    rw [run]
    exact Engine.run_fillFields slots
  case fails =>
    intro injector o r h' c known there missing ends
    obtain ⟨marked, rfl⟩ := own known
    rw [run] at ends
    refine Engine.exists_error_of_fillFields there (by simpa using marked) (fun f inside => ?_) ends
    obtain ⟨field, known, rfl⟩ := List.mem_map.1 inside
    exact missing field known
  case bare =>
    intro c ref value g g' unlisted proper room found unresolved idle produced alone fits settles
    have later : h.Evolves g :=
      (Evolves.act (.enterProduction c ref)).trans
        ((Engine.obeys_unlimited law_evolves).produce law_evolves.toRule c _ produced)
    have unmarked : t.markedFields = [] := by
      by_contra marked
      exact ((marked_iff distinct member other).1 marked).elim unlisted proper
    have nothing : Run.introspectedInjector? g t.name = none := by
      rw [offered later, unmarked]
      rfl
    obtain ⟨g₁, looked, same⟩ := exists_run_injectorOf?_of_introspection
      ((whole.trans later).cachesFit (cachesFit_new config)) (used later) t.name
    rw [alone, nothing, same nothing] at looked
    exact Engine.run_resolve_of_produce room found unresolved idle produced fits looked settles
  case agrees =>
    rw [offers, marked_iff distinct member other, lists_iff distinct member other,
      TypeDef.IsMarkedInterface]
    cases t.isInterface <;> simp

/-! ### An interface with a marked field -/

/-- A class, and an interface and a class that implements it, each with a marked field of the first
class. -/
def kennel : Module :=
  { name := "Kennel"
    types :=
      [TypeDef.newClass (Uuid.numbered 1) "Kennel.Bowl",
        (TypeDef.newInterface (Uuid.numbered 2) "Kennel.Pet").addField
          (Field.injected (Uuid.numbered 3) "bowl" "Kennel.Bowl"),
        ((TypeDef.newClass (Uuid.numbered 4) "Kennel.Dog").implementing "Kennel.Pet").addField
          (Field.injected (Uuid.numbered 5) "bowl" "Kennel.Bowl")] }

/-- A host that introspects, with the module, in whose container the interface is bound to the class
that implements it. -/
def pound : Host :=
  match (load kennel).run (Host.new { fallback := true }) with
  | some (_, h) => (h.addContainer.2.declareWith ⟨0⟩ "Kennel.Bowl" [.asSingleton]).declareWith ⟨0⟩
      "Kennel.Pet" [.madeAs "Kennel.Dog", .asTransient]
  | none => Host.new {}

/-- The scan does not list the interface, the fallback offers an injector for it, and every request
for it fails. -/
theorem introspects_kennel :
    (∀ t ∈ kennel.types, pound.Introspects kennel "Kennel.PrewireRegistrar" t) ∧
    (∃ t ∈ kennel.types, t.name = "Kennel.Pet" ∧ t.IsMarkedInterface ∧
      ¬((Run.introspectedInjector? pound t.name).isSome ↔
        kennel.Lists "Kennel.PrewireRegistrar" t.name)) ∧
    ∃ h, (resolve ⟨0⟩ "Kennel.Pet").run pound = some (.error
      (.execution (.missingField "Kennel.Dog" "Kennel.Pet" "bowl")), h) := by
  obtain ⟨report, h, loaded⟩ : ∃ report h,
      (load kennel).run (Host.new { fallback := true }) = some (.ok report, h) := ⟨_, _, rfl⟩
  have accepted : ¬(Host.new { fallback := true }).Refuses kennel :=
    not_refuses_iff.2 ⟨rfl, _, rfl⟩
  have evolves : h.Evolves pound := by
    rw [pound, loaded]
    exact (Evolves.act .addContainer).trans
      ((law_evolves.declare _ _ _ _).trans (law_evolves.declare _ _ _ _))
  have fields : ∀ t ∈ kennel.types, (t.fields.map (·.name)).Nodup := by decide
  have others : ∀ t ∈ kennel.types, t.name ≠ "Kennel.PrewireRegistrar" := by decide
  have all (t : TypeDef) (member : t ∈ kennel.types) :=
    introspects_of_load rfl (.refl _) accepted loaded evolves fields member (others t member)
  obtain ⟨pet, member, named, marked⟩ :
      ∃ t ∈ kennel.types, t.name = "Kennel.Pet" ∧ t.isInterface = true ∧ t.markedFields ≠ [] := by
    decide
  have failed : ((resolve ⟨0⟩ "Kennel.Pet").run pound).map (·.1) = some (.error
      (.execution (.missingField "Kennel.Dog" "Kennel.Pet" "bowl"))) := by
    decide +kernel
  obtain ⟨⟨r, h'⟩, run, rfl⟩ := Option.map_eq_some_iff.1 failed
  exact ⟨fun t member => (all t member).1,
    ⟨pet, member, named, marked, fun agree => (all pet member).2.1 agree marked⟩, h', run⟩

end Host
end Weaver
