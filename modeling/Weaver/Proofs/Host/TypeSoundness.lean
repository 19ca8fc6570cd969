import Weaver.Proofs.Engine.Careful
import Weaver.Proofs.Host.LifeCycle
import Weaver.Proofs.Weave.SynthesizedCode

/-!
# Type soundness

Whatever the loaded modules, the bindings and the embedding code, a resolution gives an instance of
the type that was asked for: of what the type is when the resolution ends. So factories pass
constructors what they declare, and injectors store what fields declare, be they synthesized by a
weave or made up from the loaded types. In the latter case an identifier of a constructor and a name
of a field have to stand for what was looked at: of two constructors with one identifier, the first
one runs with what was resolved for the second.

Three things live here:

* `Operation.leads`, that embedding code keeps hosts valid as long as it uses values that exist;
* `Host.TypeSound` and `Host.typeSound`, for every host at any time;
* `not_careful_sign`, for a type with two constructors of one identifier.
-/

namespace Weaver

open Run (SoundAt anything)

namespace Host

variable {h h' : Host}

/-! ## Operations lead on -/

/-- The values that an operation hands to the host. -/
def Operation.values : Operation → List Value
  | configure _ step => step.values
  | inject _ value => [value]
  | tryInject _ value => [value]
  | invoke _ _ args => args
  | registerFactory _ factory => factory.values
  | registerInjector _ injector => injector.values
  | keep _ value => [value]
  | addContainer => []
  | bind _ _ => []
  | load _ => []
  | resolve _ _ => []
  | tryResolve _ _ => []
  | takeOutput => []

lemma soundAt_load (m : Module) : SoundAt h (load m) anything := by
  rcases run_load m h with ⟨e, refused⟩ | ⟨hooks, -, planned, r, h₁, hooked, -, report, loaded⟩
  · exact .of_run refused (fun _ => .refl h) fun _ _ _ => trivial
  · refine .of_run loaded (fun valid => ?_) fun _ _ _ => trivial
    have added : h.Leads (h.addModule m) :=
      .step (.addModule planned) (valid.of_parts rfl rfl rfl rfl)
    exact added.trans (Engine.sound_unlimited.runHooks hooks (added.valid valid) hooked).1

/-- An operation that is given values that exist leads on. -/
lemma Operation.soundAt (op : Operation) (known : h.KnowsAll op.values) :
    SoundAt h op.perform anything := by
  cases op with
  | addContainer =>
    exact .modify fun valid => .step .addContainer (valid.of_parts rfl rfl rfl rfl)
  | bind c ty => exact .modify fun valid => .change (.bind c ty) (valid.bind c ty)
  | configure ref step =>
    exact .modify fun valid => .change (.configure ref step) (valid.configureStep ref known)
  | load m => exact .bind (soundAt_load m) fun _ _ _ _ => .pure trivial
  | resolve c ty =>
    exact .bind (Engine.soundAt_withEngine fun sound => sound.resolve h c ty)
      fun _ _ _ _ => .pure trivial
  | tryResolve c ty =>
    exact .bind (Engine.soundAt_withEngine fun sound => sound.tryResolve c ty)
      fun _ _ _ _ => .pure trivial
  | inject c value =>
    have there : h.Knows value := known value (List.mem_singleton.2 rfl)
    exact Engine.soundAt_withEngine fun sound => sound.inject c there
  | tryInject c value =>
    have there : h.Knows value := known value (List.mem_singleton.2 rfl)
    refine .bind (P := anything) (Engine.soundAt_withEngine fun sound => ?_)
      fun _ _ _ _ => .pure trivial
    exact .bind (.orNone (sound.inject c there)) fun _ _ _ _ => .pure trivial
  | invoke owner method args =>
    exact .bind (Engine.soundAt_withEngine fun sound => sound.invoke owner method known)
      fun _ _ _ _ => .pure trivial
  | registerFactory ty factory => exact .registerFactory ty known
  | registerInjector ty injector => exact .registerInjector ty known
  | keep name value =>
    have there : h.Knows value := known value (List.mem_singleton.2 rfl)
    exact .modify fun valid => .step (.keep name value) (valid.keep there name)
  | takeOutput => exact .modify fun valid => .step .takeOutput (valid.of_parts rfl rfl rfl rfl)

/-! ## Type soundness -/

/-- Embedding code that does nothing but what a host lets it do: wherever resolutions are sound, it
leads from valid hosts to valid hosts and hands out values that exist. -/
def ActsThroughHost (code : Engine → Embedding) : Prop :=
  ∀ e : Engine, e.Sound → (code e).Sound

/-- Recipes do. -/
lemma actsThroughHost_recipes : ActsThroughHost Engine.recipes :=
  fun _ sound => sound.recipes

/-- What a host's resolutions give, and what factories and injectors do with it. -/
structure TypeSound (h : Host) : Prop where
  /-- Operations on values that exist lead on to hosts of the same kind. -/
  leads {op : Operation} {r : Except HostError Unit} {h' : Host} :
    h.KnowsAll op.values → op.perform.run h = some (r, h') → h.Leads h'
  /-- A resolution ends, and if it ends well, it gives an instance of the type. -/
  resolve (c : ContainerRef) (ty : String) :
    ∃ r h', (Host.resolve c ty).run h = some (r, h') ∧ h.Leads h' ∧
      ∀ value, r = .ok value → value ≠ .null ∧ h'.isInstance value ty = true
  /-- The same is true if other embedding code takes the place of recipes, and resolutions may be
  those that it starts, nested as deep as it likes. -/
  resolveWith {code : Engine → Embedding} (acts : ActsThroughHost code) {level : ℕ}
    {c : ContainerRef} {ty : String} {r : Except HostError Value} {h' : Host} :
    ((Engine.ofLevelWith code level).resolve c ty).run h = some (r, h') →
      h.Leads h' ∧ ∀ value, r = .ok value → value ≠ .null ∧ h'.isInstance value ty = true
  /-- A factory or an injector that a weave has added to a loaded type passes and stores nothing but
  instances of the declared types. -/
  woven {code : Engine → Embedding} (acts : ActsThroughHost code) (level : ℕ)
    {target : LoadedType} {x : Method} {args : List Value} :
    h.types.find? target.definition.name = some target → x.AddedTo target.definition →
      h.KnowsAll args →
      ((Engine.ofLevelWith code level).carefulExecute ⟨target, x, args⟩).run h
        = ((Engine.ofLevelWith code level).execute ⟨target, x, args⟩).run h
  /-- Neither does a factory by introspection pass anything else. -/
  factory {code : Engine → Embedding} (acts : ActsThroughHost code) (level : ℕ) (c : ContainerRef)
    {ty : String} {t : TypeDef} : h.typeDef? ty = some t → t.ConstructorsAgree →
      ((Engine.ofLevelWith code level).carefulFactory ty c).run h
        = ((Engine.ofLevelWith code level).runFactory (.introspected ty) c).run h
  /-- Neither does an injector by introspection store anything else. -/
  injector {code : Engine → Embedding} (acts : ActsThroughHost code) (level : ℕ)
    (instance_ : Value) (c : ContainerRef) {ty : String} {t : TypeDef} :
    h.typeDef? ty = some t → t.FieldsAgree →
      ((Engine.ofLevelWith code level).carefulInjector ty
          (t.markedFields.map fun f => (f.name, f.ty)) instance_ c).run h
        = ((Engine.ofLevelWith code level).runInjector
          (.introspected ty (t.markedFields.map fun f => (f.name, f.ty))) instance_ c).run h

/-- Resolution is type-sound, at any time in the life of a host, in the middle of its runs
included. -/
theorem typeSound {config : HostConfig} (leads : (Host.new config).Leads h) : h.TypeSound := by
  have valid : h.Valid := leads.valid (valid_new config)
  have sound {code : Engine → Embedding} (acts : ActsThroughHost code) (level : ℕ) :
      (Engine.ofLevelWith code level).Sound := Engine.sound_ofLevelWith acts level
  refine ⟨?leads, ?resolve, ?resolveWith, ?woven, ?factory, ?injector⟩
  case leads =>
    intro op r h' known run
    exact (op.soundAt known valid run).1
  case resolve =>
    intro c ty
    obtain ⟨r, h', run, -⟩ :=
      Engine.history_of_unlimited (·.resolve c ty) (fun agree => agree.resolve _ c ty) h
    obtain ⟨leads, good⟩ := Engine.sound_unlimited.resolve h c ty valid run
    exact ⟨r, h', run, leads, fun value same =>
      ⟨(good value same).ne_null, (good value same).isInstance⟩⟩
  case resolveWith =>
    intro code acts level c ty r h' run
    obtain ⟨leads, good⟩ := (sound acts level).resolve h c ty valid run
    exact ⟨leads, fun value same => ⟨(good value same).ne_null, (good value same).isInstance⟩⟩
  case woven =>
    intro code acts level target x args found added known
    exact (sound acts level).run_carefulExecute valid found (synthesizes_of_addedTo added) known
  case factory =>
    intro code acts level c ty t found agree
    exact (sound acts level).run_carefulFactory c valid found agree
  case injector =>
    intro code acts level instance_ c ty t found agree
    exact (sound acts level).run_carefulInjector instance_ c valid found agree

/-! ### Examples -/

/-- A loaded module and two bindings, in a container of their own. -/
lemma leads_declareWith_of_load {config : HostConfig} {m : Module} {report : LoadReport}
    {ty ty' : String} {steps steps' : List BindingStep}
    (loaded : (load m).run (Host.new config) = some (.ok report, h))
    (known : h.KnowsAll (BindingStep.valuesOfAll (steps ++ steps'))) :
    (Host.new config).Leads
      ((h.addContainer.2.declareWith ⟨0⟩ ty steps).declareWith ⟨0⟩ ty' steps') := by
  have all (first second : List BindingStep) : BindingStep.valuesOfAll (first ++ second)
      = BindingStep.valuesOfAll first ++ BindingStep.valuesOfAll second := by
    induction first with
    | nil => rfl
    | cons step rest ih =>
      rw [List.cons_append, BindingStep.valuesOfAll, BindingStep.valuesOfAll, ih,
        List.append_assoc]
  rw [all, knowsAll_append] at known
  have valid := valid_new config
  have there := (soundAt_load m valid loaded).1
  have added : h.Leads h.addContainer.2 :=
    .step .addContainer ((there.valid valid).of_parts rfl rfl rfl rfl)
  have start := there.trans added
  have first := (start.valid valid).leads_declareWith ⟨0⟩ ty (known.1.lead added)
  have second := ((start.trans first).valid valid).leads_declareWith ⟨0⟩ ty'
    (known.2.lead (added.trans first))
  exact (start.trans first).trans second

/-- A host with the woven example module and a container in which its classes are bound. -/
def study : Host :=
  match (load wovenLamp).run (Host.new {}) with
  | some (_, h) => (h.addContainer.2.declareWith ⟨0⟩ "Lamp.Light"
      [.madeAs "Lamp.Bulb", .asSingleton]).declareWith ⟨0⟩ objectType
      [.madeAs "Lamp.Bulb", .asTransient]
  | none => Host.new {}

/-- The factory of a bulb is one that the weave has added. -/
lemma exists_addedTo_study : ∃ (target : LoadedType) (x : Method),
    study.types.find? target.definition.name = some target ∧ x.AddedTo target.definition := by
  obtain ⟨report, supply', woven⟩ := exists_weave_lamp
  obtain ⟨t, old, x, target, new, member, found⟩ : ∃ t, lamp.types[1]? = some t ∧
      ∃ x target, wovenLamp.types[1]? = some (LoadedType.definition target) ∧
        x ∈ target.definition.methods.drop t.methods.length ∧
        study.types.find? target.definition.name = some target :=
    ⟨_, rfl, _, ⟨"Lamp", _⟩, rfl, List.mem_cons_self, rfl⟩
  exact ⟨target, x, found, lamp, wovenLamp, {}, lampIds, supply', report, 1, t, woven, old, new,
    member⟩

/-- A bulb is resolved there, and the hypotheses about factories and injectors can be met. -/
theorem typeSound_study : (Host.new {}).Leads study ∧ study.TypeSound ∧
    (∃ value h, (Host.resolve ⟨0⟩ objectType).run study = some (.ok value, h) ∧
      value ≠ .null ∧ h.isInstance value objectType = true) ∧
    (∃ (target : LoadedType) (x : Method),
      study.types.find? target.definition.name = some target ∧ x.AddedTo target.definition) ∧
    ∃ t, study.typeDef? "Lamp.Desk" = some t ∧ t.ConstructorsAgree ∧ t.FieldsAgree := by
  obtain ⟨report, h, loaded, -⟩ := exists_load_wovenLamp
  have leads : (Host.new {}).Leads study := by
    rw [study, loaded]
    exact leads_declareWith_of_load loaded (knowsAll_nil _)
  have sound := typeSound leads
  obtain ⟨value, h', run⟩ : ∃ value h', (Host.resolve ⟨0⟩ objectType).run study
      = some (.ok value, h') := ⟨_, _, rfl⟩
  obtain ⟨r, h'', run', -, good⟩ := sound.resolve ⟨0⟩ objectType
  rw [run] at run'
  cases run'
  obtain ⟨desk, found, ids, names⟩ : ∃ t, study.typeDef? "Lamp.Desk" = some t ∧
      (t.constructors.map (·.id)).Nodup ∧ (t.fields.map (·.name)).Nodup :=
    ⟨_, rfl, by decide, by decide⟩
  exact ⟨leads, sound, ⟨value, h', run, good value rfl⟩, exists_addedTo_study, desk, found,
    TypeDef.constructorsAgree_of_nodup ids, TypeDef.fieldsAgree_of_nodup names⟩

/-- A module with two constructors of one identifier and two marked fields of one name. -/
def shop : Module :=
  { name := "Shop"
    types :=
      [{ TypeDef.newClass (Uuid.numbered 1) "Shop.Tag" with
          constructors :=
            [((Method.newConstructor (Uuid.numbered 2)).addParam "sold" boolType).withBody
              [.loadConst (.text "sold"), .print, .ret],
            ((Method.newConstructor (Uuid.numbered 2)).addParam "label" stringType).withBody
              [.loadConst (.text "label"), .print, .ret]] },
        { TypeDef.newClass (Uuid.numbered 3) "Shop.Price" with
          fields :=
            [Field.injected (Uuid.numbered 4) "amount" stringType,
              Field.injected (Uuid.numbered 5) "amount" intType] }] }

/-- A host that introspects, with the module and a container in which texts and integers are
bound. -/
def market : Host :=
  match (load shop).run (Host.new { fallback := true }) with
  | some (_, h) => (h.addContainer.2.declareWith ⟨0⟩ stringType
      [.fromInstance (.fixed (.text "ten"))]).declareWith ⟨0⟩ intType
      [.fromInstance (.fixed (.int 10))]
  | none => Host.new {}

/-- There a factory passes a text to a constructor that declares a boolean, and an injector stores
an integer in a field that declares a text. -/
theorem exists_careless : (Host.new { fallback := true }).Leads market ∧
    (∃ value h, ((Engine.ofLevelWith Engine.recipes 9).runFactory
        (.introspected "Shop.Tag") ⟨0⟩).run market = some (.ok value, h) ∧ h.output = ["sold"]) ∧
    ((Engine.ofLevelWith Engine.recipes 9).carefulFactory "Shop.Tag" ⟨0⟩).run market = none ∧
    ∃ ref h t, (Run.instantiate "Shop.Price").run market = some (.ok (.object ref), h) ∧
      h.typeDef? "Shop.Price" = some t ∧
      (∃ h', ((Engine.ofLevelWith Engine.recipes 9).runInjector (.introspected "Shop.Price"
          (t.markedFields.map fun f => (f.name, f.ty))) (.object ref) ⟨0⟩).run h
        = some (.ok ⟨⟩, h') ∧ h'.get? ref "amount" = some (.int 10)) ∧
      ((Engine.ofLevelWith Engine.recipes 9).carefulInjector "Shop.Price"
        (t.markedFields.map fun f => (f.name, f.ty)) (.object ref) ⟨0⟩).run h = none := by
  obtain ⟨report, h, loaded⟩ : ∃ report h,
      (load shop).run (Host.new { fallback := true }) = some (.ok report, h) := ⟨_, _, rfl⟩
  have leads : (Host.new { fallback := true }).Leads market := by
    rw [market, loaded]
    refine leads_declareWith_of_load loaded fun v member => ?_
    rcases List.mem_cons.1 member with rfl | member
    · trivial
    · rw [List.mem_singleton.1 member]
      trivial
  exact ⟨leads, ⟨_, _, rfl, rfl⟩, rfl, _, _, _, rfl, rfl, ⟨_, rfl, rfl⟩, rfl⟩

end Host
end Weaver
