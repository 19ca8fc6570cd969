import Weaver.Proofs.Engine.Bodies
import Weaver.Proofs.Engine.Embedding
import Weaver.Proofs.Weave.Provenance

/-!
# Careful code

Careful code looks at every value that it is about to pass to a constructor or to store in a field,
and gets stuck if the value is not an instance, by then, of the type that is declared for it.
Factories and injectors have their values from resolutions, with other resolutions in between, and
they never get stuck: what has been resolved goes on to be an instance.

Three things live here:

* `Host.takes` and `Host.admits`, what careful code looks at;
* careful versions of the code that passes and stores values: of bodies, and of what introspection
  does in place of synthesized methods;
* for each of them, that it runs as the code does that it is a version of.
-/

namespace Weaver

/-- The declared types of the parameters. -/
def Method.paramTypes (m : Method) : List String := m.params.map (·.ty)

/-- Constructors that share an identifier have parameters of the same types. -/
def TypeDef.ConstructorsAgree (t : TypeDef) : Prop :=
  ∀ ctor ∈ t.constructors, (t.constructor? ctor.id).map (·.paramTypes) = some ctor.paramTypes

/-- Marked fields have the type of the first field of their name. -/
def TypeDef.FieldsAgree (t : TypeDef) : Prop :=
  ∀ f ∈ t.markedFields, (t.field? f.name).map (·.ty) = some f.ty

lemma TypeDef.constructorsAgree_of_nodup {t : TypeDef} (ids : (t.constructors.map (·.id)).Nodup) :
    t.ConstructorsAgree := by
  intro ctor member
  have found : t.constructor? ctor.id = some ctor := find?_key_of_mem Method.id ids member
  rw [found]
  rfl

lemma TypeDef.fieldsAgree_of_nodup {t : TypeDef} (names : (t.fields.map (·.name)).Nodup) :
    t.FieldsAgree := by
  intro f member
  have found : t.field? f.name = some f :=
    find?_key_of_mem Field.name names (List.mem_of_mem_filter member)
  rw [found]
  rfl

/-! ## Looking at values -/

namespace Host

/-- The constructor of a type that an identifier stands for takes the arguments: there are as many
as it has parameters, and each is an instance of the type of its parameter. -/
def takes (h : Host) (ty : String) (ctor : Uuid) (args : List Value) : Bool :=
  ((h.typeDef? ty).bind (·.constructor? ctor)).any fun callee =>
    List.all₂ h.isInstance args callee.paramTypes

/-- The field of a type that a name stands for admits the value, an instance of the type of the
field. -/
def admits (h : Host) (ty field : String) (value : Value) : Bool :=
  ((h.typeDef? ty).bind (·.field? field)).any fun f => h.isInstance value f.ty

/-- What an instruction takes off the stack, to pass it to a constructor or to store it, is of the
declared types. -/
def accepts (h : Host) (stack : List Value) : Instr → Bool
  | .newObject ty ctor => ((h.typeDef? ty).bind (·.constructor? ctor)).any fun callee =>
      h.takes ty ctor (stack.take callee.params.length).reverse
  | .storeField ty field => stack.head?.any (h.admits ty field)
  | _ => true

variable {h h' : Host} {ty : String} {t : TypeDef}

/-- A loaded type goes on to be what it is. -/
lemma Leads.typeDef? (leads : h.Leads h') (found : h.typeDef? ty = some t) :
    h'.typeDef? ty = some t := by
  obtain ⟨loaded, there, rfl⟩ := Option.map_eq_some_iff.1 found
  rw [Host.typeDef?, leads.reaches.find?_types there]
  rfl

lemma FitAll.takes {ctor : Uuid} {args : List Value} {types : List String}
    (fits : h.FitAll args types) (found : h.typeDef? ty = some t)
    (declared : (t.constructor? ctor).map (·.paramTypes) = some types) :
    h.takes ty ctor args = true := by
  obtain ⟨callee, there, rfl⟩ := Option.map_eq_some_iff.1 declared
  have all : List.all₂ h.isInstance args callee.paramTypes = true :=
    (List.all₂_eq_true _ _).2 (fits.imp fun _ _ fits => fits.isInstance)
  rw [Host.takes, found, Option.bind_some, there, Option.any_some, all]

lemma Fits.admits {field type : String} {value : Value} (fits : h.Fits value type)
    (found : h.typeDef? ty = some t) (declared : (t.field? field).map (·.ty) = some type) :
    h.admits ty field value = true := by
  obtain ⟨f, there, rfl⟩ := Option.map_eq_some_iff.1 declared
  rw [Host.admits, found, Option.bind_some, there, Option.any_some, fits.isInstance]

end Host

/-- A run that gets stuck unless a condition holds. -/
def Run.provided {α : Type} (p : Host → Bool) (x : Run α) : Run α := do
  if p (← get) then x else exhausted

lemma Run.run_provided {α : Type} {p : Host → Bool} {h : Host} (holds : p h = true) (x : Run α) :
    (provided p x).run h = x.run h := by
  rw [provided, run_get_bind, if_pos holds]

/-! ## Careful versions -/

namespace Engine

open Host

variable (e : Engine)

/-- Carries out the instructions of a body carefully. -/
def carefulBody (f : Frame) : (stack : List Value) → List Instr → Run (List Value)
  | stack, [] => return stack
  | stack, .ret :: _ => return stack
  | stack, i :: rest => do
    let stack ← Run.provided (·.accepts stack i) (e.step f stack i)
    carefulBody f stack rest

/-- Runs a method carefully. -/
def carefulExecute (f : Frame) : Run (Option Value) := do
  let stack ← e.carefulBody f [] f.method.body
  if f.method.returnType.isSome then
    let (value, _) ← f.pop stack
    return some value
  else return none

/-- Runs the first of some constructors whose parameters can all be resolved, carefully. -/
def carefulConstructFirst (ty : String) (c : ContainerRef) : List Method → Run Value
  | [] => throw (.unsupported ty .noConstructor)
  | ctor :: rest => do
    match ← e.probe c ctor.params with
    | some args => Run.provided (·.takes ty ctor.id args) (e.construct ty ctor.id args)
    | none => carefulConstructFirst ty c rest

/-- Builds an instance of a loaded type as introspection does, carefully. -/
def carefulFactory (ty : String) (c : ContainerRef) : Run Value := do
  let some t := (← get).typeDef? ty | throw (.unsupported ty .notLoaded)
  if t.constructors.isEmpty then Run.instantiate ty
  else e.carefulConstructFirst ty c t.constructors

/-- Resolves the types of fields and stores the values carefully, field by field. -/
def carefulFillFields (owner : String) (ref : ObjectRef) (c : ContainerRef) :
    List (String × String) → Run Unit
  | [] => return
  | (name, ty) :: rest => do
    let value ← e.resolve c ty
    Run.provided (·.admits owner name value) do
      let h ← get
      match h.setDeclared? ref owner name value with
      | some h => set h
      | none => Run.fault (.missingField (h.object ref).ty owner name)
    carefulFillFields owner ref c rest

/-- Fills the fields of an instance as introspection does, carefully. -/
def carefulInjector (owner : String) (fields : List (String × String)) (instance_ : Value)
    (c : ContainerRef) : Run Unit := do
  match instance_ with
  | .object ref => e.carefulFillFields owner ref c fields
  | value => throw (.cast owner ((← get).typeName value))

/-! ## Careful code runs as other code does -/

variable {e} {f : Frame} {h h' : Host} {stack stack' : List Value} {ty : String} {t : TypeDef}

lemma of_loadArg {index : UInt16}
    (ok : (e.step f stack (.loadArg index)).run h = some (.ok stack', h')) :
    h' = h ∧ ∃ value, f.args[index.toNat]? = some value ∧ stack' = value :: stack := by
  simp only [step] at ok
  split at ok
  next value found =>
    cases ok
    exact ⟨rfl, value, found, rfl⟩
  · cases ok

lemma of_resolve (ok : (e.step f stack (.resolve ty)).run h = some (.ok stack', h')) :
    ∃ c value below, stack = .container c :: below ∧ stack' = value :: below ∧
      (e.resolve c ty).run h = some (.ok value, h') := by
  rw [step, Run.run_bind_eq_ok_iff] at ok
  obtain ⟨⟨top, below⟩, h₁, pop, ok⟩ := ok
  obtain ⟨rfl, same⟩ := of_pop pop
  cases top with
  | container c =>
    rw [Run.run_bind_eq_ok_iff] at ok
    obtain ⟨value, h₂, resolved, ok⟩ := ok
    cases ok
    exact ⟨c, value, below, same, rfl, resolved⟩
  | _ => cases ok

/-- An instruction that accepts what is on the stack is carried out. -/
lemma run_carefulBody_cons {i : Instr} {rest : List Instr} (more : i ≠ .ret)
    (accepts : h.accepts stack i = true)
    (later : ∀ stack' h', (e.step f stack i).run h = some (.ok stack', h') →
      (e.carefulBody f stack' rest).run h' = (e.runBody f stack' rest).run h') :
    (e.carefulBody f stack (i :: rest)).run h = (e.runBody f stack (i :: rest)).run h := by
  rw [runBody_cons more, carefulBody]
  · exact Run.run_bind_congr (Run.run_provided accepts _) later
  · exact more

namespace Sound

variable (sound : e.Sound)
include sound

/-- A factory's body is careful: the stack holds an instance for each parameter so far. -/
lemma run_carefulBody_factory (done : List Parameter) {params : List Parameter} {ctor : Uuid}
    (valid : h.Valid) (found : h.typeDef? ty = some t)
    (declared : (t.constructor? ctor).map (·.params) = some (done ++ params))
    (fits : h.FitAll stack.reverse (done.map (·.ty))) :
    (e.carefulBody f stack
        (resolveParams params ++ [.newObject ty ctor, .upcast objectType, .ret])).run h
      = (e.runBody f stack
        (resolveParams params ++ [.newObject ty ctor, .upcast objectType, .ret])).run h := by
  induction params generalizing h stack done with
  | nil =>
    rw [List.append_nil] at declared
    obtain ⟨callee, there, rfl⟩ := Option.map_eq_some_iff.1 declared
    have length : stack.length = callee.params.length := by
      have same := fits.length_eq
      rwa [List.length_reverse, List.length_map] at same
    have takes : h.takes ty ctor stack.reverse = true :=
      fits.takes found (by rw [there]; rfl)
    have accepts : h.accepts stack (.newObject ty ctor) = true := by
      rw [Host.accepts, found, Option.bind_some, there, Option.any_some,
        List.take_of_length_le (Nat.le_of_eq length), takes]
    refine run_carefulBody_cons (by simp) accepts fun stack₁ h₁ _ =>
      run_carefulBody_cons (by simp) rfl fun stack₂ h₂ _ => ?_
    rw [carefulBody, Engine.runBody]
  | cons p rest ih =>
    -- the container is pushed and gives way to what it resolves
    refine run_carefulBody_cons (by simp) rfl fun stack₁ h₁ ok => ?_
    obtain ⟨rfl, top, -, rfl⟩ := of_loadArg ok
    refine run_carefulBody_cons (by simp) rfl fun stack₂ h₂ ok => ?_
    obtain ⟨c, value, below, same, rfl, resolved⟩ := of_resolve ok
    cases same
    obtain ⟨leads, good⟩ := sound.resolve h₁ c p.ty valid resolved
    refine ih (done ++ [p]) (leads.valid valid) (leads.typeDef? found)
      (by rw [declared, List.append_assoc]; rfl) ?_
    rw [List.reverse_cons, List.map_append]
    exact List.rel_append (fits.lead leads) (.cons (good value rfl) .nil)

/-- An injector's body is careful: what it stores has just been resolved. -/
lemma run_carefulBody_injector {fields : List Field} (valid : h.Valid)
    (args : h.KnowsAll f.args) (known : h.KnowsAll stack) (found : h.typeDef? ty = some t)
    (declared : ∀ g ∈ fields, (t.field? g.name).map (·.ty) = some g.ty) :
    (e.carefulBody f stack (fields.flatMap (assignField ty) ++ [.ret])).run h
      = (e.runBody f stack (fields.flatMap (assignField ty) ++ [.ret])).run h := by
  induction fields generalizing h stack with
  | nil =>
    show (e.carefulBody f stack [.ret]).run h = (e.runBody f stack [.ret]).run h
    rw [carefulBody, Engine.runBody]
  | cons g rest ih =>
    refine run_carefulBody_cons (by simp) rfl fun stack₁ h₁ ok => ?_
    obtain ⟨rfl, instance_, there, rfl⟩ := of_loadArg ok
    refine run_carefulBody_cons (by simp) rfl fun stack₂ h₂ ok => ?_
    obtain ⟨rfl, top, -, rfl⟩ := of_loadArg ok
    refine run_carefulBody_cons (by simp) rfl fun stack₃ h₃ ok => ?_
    obtain ⟨c, value, below, same, rfl, resolved⟩ := of_resolve ok
    cases same
    obtain ⟨leads, good⟩ := sound.resolve h₂ c g.ty valid resolved
    have fits := good value rfl
    have admits : h₃.admits ty g.name value = true :=
      fits.admits (leads.typeDef? found) (declared g List.mem_cons_self)
    refine run_carefulBody_cons (by simp) admits fun stack₄ h₄ ok => ?_
    -- the value is stored, and the next field finds a host that this has led to
    have pushed : h₃.KnowsAll (value :: instance_ :: stack) := by
      have own : h₂.Knows instance_ := args instance_ (List.mem_of_getElem? there)
      exact Host.knowsAll_cons.2
        ⟨fits.known, Host.knowsAll_cons.2 ⟨own.lead leads, known.lead leads⟩⟩
    obtain ⟨stores, left⟩ :=
      sound.step (args.lead leads) pushed (.storeField ty g.name) (leads.valid valid) ok
    have leads := leads.trans stores
    exact ih (leads.valid valid) (args.lead leads) (left stack₄ rfl) (leads.typeDef? found)
      fun g member => declared g (List.mem_cons_of_mem _ member)

/-- Methods that are made for a loaded type are careful. -/
theorem run_carefulExecute {target : LoadedType} {x : Method} {args : List Value} (valid : h.Valid)
    (found : h.types.find? target.definition.name = some target)
    (made : target.definition.Synthesizes x) (known : h.KnowsAll args) :
    (e.carefulExecute ⟨target, x, args⟩).run h = (e.execute ⟨target, x, args⟩).run h := by
  have there : h.typeDef? target.definition.name = some target.definition := by
    rw [Host.typeDef?, found]
    rfl
  refine Run.run_bind_congr ?_ fun _ _ _ => rfl
  cases made with
  | factory id declared =>
    exact sound.run_carefulBody_factory [] valid there declared .nil
  | injector id declared =>
    exact sound.run_carefulBody_injector valid known h.knowsAll_nil there declared

/-- Constructions by introspection are careful. -/
lemma run_carefulConstructFirst {c : ContainerRef} {ctors : List Method} (valid : h.Valid)
    (found : h.typeDef? ty = some t)
    (agree : ∀ ctor ∈ ctors, (t.constructor? ctor.id).map (·.paramTypes) = some ctor.paramTypes) :
    (e.carefulConstructFirst ty c ctors).run h = (e.constructFirst ty c ctors).run h := by
  induction ctors generalizing h with
  | nil => rfl
  | cons ctor rest ih =>
    refine Run.run_bind_congr rfl fun probed h' ok => ?_
    obtain ⟨leads, good⟩ := sound.probe c ctor.params valid ok
    have found := leads.typeDef? found
    cases probed with
    | none =>
      exact ih (leads.valid valid) found fun ctor member =>
        agree ctor (List.mem_cons_of_mem _ member)
    | some args =>
      have fits : h'.FitAll args ctor.paramTypes := good (some args) rfl args rfl
      exact Run.run_provided (fits.takes found (agree ctor List.mem_cons_self)) _

/-- Factories by introspection are careful. -/
theorem run_carefulFactory (c : ContainerRef) (valid : h.Valid) (found : h.typeDef? ty = some t)
    (agree : t.ConstructorsAgree) :
    (e.carefulFactory ty c).run h = (e.runFactory (.introspected ty) c).run h := by
  rw [carefulFactory, Engine.runFactory, Run.run_get_bind, Run.run_get_bind, found]
  dsimp only
  split
  · rfl
  · exact sound.run_carefulConstructFirst valid found agree

lemma run_carefulFillFields {c : ContainerRef} {ref : ObjectRef} {fields : List (String × String)}
    (valid : h.Valid) (found : h.typeDef? ty = some t)
    (agree : ∀ field ∈ fields, (t.field? field.1).map (·.ty) = some field.2) :
    (e.carefulFillFields ty ref c fields).run h = (e.fillFields ty ref c fields).run h := by
  induction fields generalizing h with
  | nil => rfl
  | cons field rest ih =>
    refine Run.run_bind_congr rfl fun value h' ok => ?_
    obtain ⟨leads, good⟩ := sound.resolve h c field.2 valid ok
    have fits := good value rfl
    have found := leads.typeDef? found
    have admits : h'.admits ty field.1 value = true :=
      fits.admits found (agree field List.mem_cons_self)
    rw [Run.run_bind, Run.run_provided admits, Run.run_get_bind, Run.run_get_bind]
    cases stored : h'.setDeclared? ref ty field.1 value with
    | none => rfl
    | some h'' =>
      have stores : h'.Leads h'' := (leads.valid valid).leads_setDeclared? fits.known stored
      exact ih ((leads.trans stores).valid valid) (stores.typeDef? found) fun field member =>
        agree field (List.mem_cons_of_mem _ member)

/-- Injectors by introspection are careful. -/
theorem run_carefulInjector (instance_ : Value) (c : ContainerRef) (valid : h.Valid)
    (found : h.typeDef? ty = some t) (agree : t.FieldsAgree) :
    (e.carefulInjector ty (t.markedFields.map fun f => (f.name, f.ty)) instance_ c).run h
      = (e.runInjector (.introspected ty (t.markedFields.map fun f => (f.name, f.ty)))
          instance_ c).run h := by
  cases instance_ with
  | object ref =>
    refine sound.run_carefulFillFields valid found fun field member => ?_
    obtain ⟨f, marked, rfl⟩ := List.mem_map.1 member
    exact agree f marked
  | _ => rfl

end Sound

end Engine
end Weaver
