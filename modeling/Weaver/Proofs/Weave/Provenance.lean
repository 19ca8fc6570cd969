import Weaver.Proofs.Weave.Repeated

/-!
# Where synthesized methods come from

A method that a weave adds to a type is a factory for a constructor that the type goes on to have,
or an injector for fields that it goes on to have. Later edits of the weave make members public, but
they change neither the parameters that a constructor declares nor the type of a field. Nothing is
assumed about the module: where names or identifiers are ambiguous, a weave and a lookup both take
the first.

Three things live here:

* `TypeDef.Synthesizes`, the methods that are made for a type;
* `TypeDef.Acquires`, what the edits of a weave do to a type;
* `synthesizes_of_addedTo`, for everything that any weave adds to any type.
-/

namespace Weaver

/-! ## Methods made for a type -/

/-- The method is the factory for a constructor of the type, or the injector for fields of it. -/
inductive TypeDef.Synthesizes (t : TypeDef) : Method → Prop where
  | factory (id : Uuid) {ctor : Method}
      (declared : (t.constructor? ctor.id).map (·.params) = some ctor.params) :
      t.Synthesizes (factoryMethod id t.name ctor)
  | injector (id : Uuid) {fields : List Field}
      (declared : ∀ f ∈ fields, (t.field? f.name).map (·.ty) = some f.ty) :
      t.Synthesizes (injectorMethod id t.name fields)

/-- The method is one that some weave has added to the type. -/
def Method.AddedTo (x : Method) (t' : TypeDef) : Prop :=
  ∃ (m m' : Module) (options : WeaveOptions) (supply supply' : IdSupply) (report : WeaveReport)
    (i : ℕ) (t : TypeDef), m.weave options supply = .ok (.woven report, m', supply') ∧
    m.types[i]? = some t ∧ m'.types[i]? = some t' ∧ x ∈ t'.methods.drop t.methods.length

/-! ## Types that acquire methods -/

namespace TypeDef

/-- What the constructors and fields of a type declare, whoever may use them. -/
def declares (t : TypeDef) : List (Uuid × List Parameter) × List (String × String) :=
  (t.constructors.map fun c => (c.id, c.params), t.fields.map fun f => (f.name, f.ty))

/-- The second type is the first one with synthesized methods behind its own. -/
structure Acquires (t t' : TypeDef) : Prop where
  name : t'.name = t.name
  declares : t'.declares = t.declares
  methods : ∃ added, t'.methods = t.methods ++ added ∧ ∀ x ∈ added, t'.Synthesizes x

variable {t t' : TypeDef}

lemma params_constructor? (declares : t'.declares = t.declares) (id : Uuid) :
    (t'.constructor? id).map (·.params) = (t.constructor? id).map (·.params) := by
  have first (s : TypeDef) : (s.constructor? id).map (·.params)
      = (s.declares.1.find? (·.1 == id)).map (·.2) := by
    rw [TypeDef.declares, List.find?_map, Option.map_map]
    rfl
  rw [first, first, declares]

lemma ty_field? (declares : t'.declares = t.declares) (name : String) :
    (t'.field? name).map (·.ty) = (t.field? name).map (·.ty) := by
  have first (s : TypeDef) : (s.field? name).map (·.ty)
      = (s.declares.2.find? (·.1 == name)).map (·.2) := by
    rw [TypeDef.declares, List.find?_map, Option.map_map]
    rfl
  rw [first, first, declares]

/-- A method that is made for a type is made for every type of the name that declares as much. -/
lemma Synthesizes.congr {x : Method} (made : t.Synthesizes x) (name : t'.name = t.name)
    (declares : t'.declares = t.declares) : t'.Synthesizes x := by
  cases made with
  | factory id declared =>
    rw [← name]
    exact .factory id (by rw [params_constructor? declares, declared])
  | injector id declared =>
    rw [← name]
    exact .injector id fun f member => by rw [ty_field? declares, declared f member]

lemma Acquires.refl (t : TypeDef) : t.Acquires t :=
  ⟨rfl, rfl, [], (List.append_nil _).symm, fun _ member => absurd member List.not_mem_nil⟩

lemma Acquires.trans {t₁ t₂ t₃ : TypeDef} (first : t₁.Acquires t₂) (second : t₂.Acquires t₃) :
    t₁.Acquires t₃ := by
  obtain ⟨added, methods, made⟩ := first.methods
  obtain ⟨added', methods', made'⟩ := second.methods
  refine ⟨second.name.trans first.name, second.declares.trans first.declares, added ++ added',
    by rw [methods', methods, List.append_assoc], fun x member => ?_⟩
  rcases List.mem_append.1 member with old | new
  · exact (made x old).congr second.name second.declares
  · exact made' x new

/-- A synthesized method is added. -/
lemma acquires_addSynthesized {x : Method} (name : t'.name = t.name)
    (declares : t'.declares = t.declares) (methods : t'.methods = t.methods)
    (made : t.Synthesizes x) : t.Acquires (t'.addSynthesized x) := by
  refine ⟨name, declares, [x], ?_, fun y member => ?_⟩
  · show t'.methods ++ [x] = t.methods ++ [x]
    rw [methods]
  · rw [List.mem_singleton.1 member]
    exact made.congr name declares

/-- Making fields public changes nothing that the type declares, and the fields that are found on
the way are fields of the type. -/
lemma declares_exposeFields (t : TypeDef) (names : List String) :
    (t.exposeFields names).1.declares = t.declares ∧
      ∀ fields, (t.exposeFields names).2 = .ok fields →
        ∀ f ∈ fields, (t.field? f.name).map (·.ty) = some f.ty := by
  induction names generalizing t with
  | nil =>
    refine ⟨rfl, fun fields ok f member => ?_⟩
    injection ok with ok
    rw [← ok] at member
    cases member
  | cons name rest ih =>
    rw [exposeFields]
    cases found : t.field? name with
    | none => exact ⟨rfl, fun fields ok => by cases ok⟩
    | some f =>
      have exposed : (t.exposeField name).declares = t.declares := by
        have fields : (t.exposeField name).fields.map (fun f => (f.name, f.ty))
            = t.fields.map fun f => (f.name, f.ty) :=
          map_updateFirst (f := (·.withVisibility .everywhere)) (fun _ => rfl) t.fields
        exact congrArg (Prod.mk _) fields
      obtain ⟨same, others⟩ := ih (t.exposeField name)
      refine ⟨same.trans exposed, fun fields ok g member => ?_⟩
      cases outcome : ((t.exposeField name).exposeFields rest).2 with
      | error unknown =>
        simp only [outcome] at ok
        cases ok
      | ok more =>
        simp only [outcome] at ok
        injection ok with ok
        rw [← ok] at member
        rcases List.mem_cons.1 member with rfl | later
        · rw [key_of_find? Field.name found, found]
          rfl
        · rw [← ty_field? exposed]
          exact others more outcome g later

end TypeDef

/-! ## One edit -/

/-- The second module has the types of the first in the same places, each of which may have acquired
methods. -/
def Module.Acquires (m m' : Module) : Prop :=
  List.Forall₂ TypeDef.Acquires m.types m'.types

namespace Module.Acquires

lemma refl (m : Module) : m.Acquires m :=
  List.forall₂_same.2 fun t _ => .refl t

lemma trans {m₁ m₂ m₃ : Module} (first : m₁.Acquires m₂) (second : m₂.Acquires m₃) :
    m₁.Acquires m₃ :=
  forall₂_trans (fun _ _ _ => TypeDef.Acquires.trans) first second

end Module.Acquires

namespace Module

variable {m m' : Module}

lemma acquires_addFactory {target : ConstructorTarget} {id : Uuid}
    (ok : m.addFactory target id = .ok m') : m.Acquires m' := by
  unfold addFactory at ok
  split at ok
  · cases ok
  next t found =>
  split at ok
  · cases ok
  split at ok
  · cases ok
  next ctor declared =>
    injection ok with ok
    have exposed : (t.exposeConstructor target.ctor).declares = t.declares := by
      have constructors :
          (t.exposeConstructor target.ctor).constructors.map (fun c => (c.id, c.params))
            = t.constructors.map fun c => (c.id, c.params) :=
        map_updateFirst (f := (·.withVisibility .everywhere)) (fun _ => rfl) t.constructors
      exact congrArg (Prod.mk · _) constructors
    have same : ctor.id = target.ctor := key_of_find? Method.id declared
    have made : t.Synthesizes (factoryMethod id t.name ctor) :=
      .factory id (by rw [same, declared]; rfl)
    rw [key_of_find? TypeDef.name found] at made
    rw [← ok]
    exact forall₂_updateFirst found (TypeDef.acquires_addSynthesized rfl exposed rfl made) .refl

lemma acquires_addInjector {target : FieldTarget} {id : Uuid}
    (ok : m.addInjector target id = (m', .ok ())) : m.Acquires m' := by
  unfold addInjector at ok
  split at ok
  · cases ok
  next t found =>
  split at ok
  · cases ok
  split at ok
  · cases ok
  next exposed fields step =>
    injection ok with ok _
    obtain ⟨others, only⟩ := t.exists_exposeFields target.fields
    obtain ⟨same, all⟩ := t.declares_exposeFields target.fields
    rw [step] at only same all
    replace only : exposed = { t with fields := others } := only
    have made : t.Synthesizes (injectorMethod id t.name fields) :=
      .injector id (all fields rfl)
    rw [key_of_find? TypeDef.name found] at made
    have acquires : t.Acquires (exposed.addSynthesized (injectorMethod id target.ty fields)) :=
      TypeDef.acquires_addSynthesized (by rw [only]) same (by rw [only]) made
    rw [← ok]
    exact forall₂_updateFirst found acquires .refl

end Module

/-! ## All edits of a weave -/

namespace Draft

variable {d d' : Draft}

lemma acquires_addFactory {target : ConstructorTarget} (ok : d.addFactory target = .ok d') :
    d.module.Acquires d'.module := by
  obtain ⟨m, added, ok⟩ := exists_of_bind_eq_ok ok
  injection ok with ok
  rw [← ok]
  exact Module.acquires_addFactory added

lemma acquires_addInjector {target : FieldTarget} (ok : d.addInjector target = .ok d') :
    d.module.Acquires d'.module := by
  unfold addInjector at ok
  cases added : d.module.addInjector target d.supply.draw.1 with
  | mk m outcome =>
    simp only [added] at ok
    obtain ⟨⟨⟩, rfl, ok⟩ := exists_of_bind_eq_ok ok
    injection ok with ok
    rw [← ok]
    exact Module.acquires_addInjector added

/-- The types acquire methods, and the registrar comes behind them. -/
lemma exists_acquires_of_addAll {targets : Targets} {registrar : String} {editorOnly : Bool}
    (ok : d.addAll targets registrar editorOnly = .ok d') :
    ∃ types last, d'.module.types = types ++ [last] ∧
      List.Forall₂ TypeDef.Acquires d.module.types types := by
  rw [addAll] at ok
  obtain ⟨d₁, factories, ok⟩ := exists_of_bind_eq_ok ok
  obtain ⟨d₂, injectors, ok⟩ := exists_of_bind_eq_ok ok
  obtain ⟨m, registered, ok⟩ := exists_of_bind_eq_ok ok
  have acquires : d.module.Acquires d₂.module :=
    (rel_foldlM .refl (fun _ _ _ => .trans) (fun _ _ _ => acquires_addFactory) factories).trans
      (rel_foldlM .refl (fun _ _ _ => .trans) (fun _ _ _ => acquires_addInjector) injectors)
  rw [Module.addRegistrar] at registered
  split at registered
  · cases registered
  · injection registered with registered
    injection ok with ok
    rw [← ok, ← registered]
    exact ⟨d₂.module.types, _, rfl, acquires⟩

end Draft

/-- Whatever a weave adds to a type has been made for it. -/
theorem synthesizes_of_addedTo {x : Method} {t : TypeDef} (added : x.AddedTo t) :
    t.Synthesizes x := by
  obtain ⟨m, m', options, supply, supply', report, i, t₀, woven, old, new, member⟩ := added
  rcases weave_cases woven with ⟨other, -⟩ | ⟨other, -⟩ | ⟨_, d, -, -, all, same⟩
  · cases other
  · cases other
  · obtain ⟨types, last, parts, acquires⟩ := Draft.exists_acquires_of_addAll all
    obtain ⟨there, rfl⟩ := List.getElem?_eq_some_iff.1 old
    have there' : i < types.length := acquires.length_eq ▸ there
    rw [same, parts, List.getElem?_append_left there', List.getElem?_eq_getElem there'] at new
    injection new with new
    have own : m.types[i].Acquires types[i] := acquires.get there there'
    rw [new] at own
    obtain ⟨more, methods, made⟩ := own.methods
    rw [methods, List.drop_left] at member
    exact made x member

end Weaver
