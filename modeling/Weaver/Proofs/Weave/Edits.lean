import Weaver.Proofs.Weave.Provenance

/-!
# The edits of a weave

A weave edits a copy of the module, one target after the other, factories before injectors, and it
meets names that are taken and members that are missing on its way. An edit changes the first type
of a name only, and it neither adds nor hides what edits of the other kind look for. So which edit is
refused can be told from the module without any of them. Nothing is assumed about the module here.

Four things live here:

* `TypeEdit`, what the edits for factories and those for injectors have in common;
* `Draft.addFactory_eq_attempt` and `Draft.addInjector_eq_attempt`, that all edits of a weave are such;
* `Module.refusal?`, the first edit that is refused, told from the module;
* `Draft.foldlM_attempt`, by which a sequence of edits ends like that.
-/

namespace Weaver

/-- The name that methods of a kind are added under. -/
def EntryKind.memberName : EntryKind → String
  | .factory => factoryName
  | .injector => injectorName

lemma EntryKind.memberName_ne {kind other : EntryKind} (different : other ≠ kind) :
    other.memberName ≠ kind.memberName := by
  cases kind <;> cases other <;> first | exact absurd rfl different | decide

/-! ## Edits of a type -/

/-- The second type is the first one with a member of a kind's name. It declares the same, and it
has no other members of such names. -/
structure TypeDef.Extends (kind : EntryKind) (t t' : TypeDef) : Prop where
  name : t'.name = t.name
  declares : t'.declares = t.declares
  added : t'.hasMemberNamed kind.memberName = true
  others (other : EntryKind) : other ≠ kind →
    t'.hasMemberNamed other.memberName = t.hasMemberNamed other.memberName

/-- An edit of the first type of a name. It adds a method of a kind, which needs members that the
type may lack. -/
structure TypeEdit where
  ty : String
  kind : EntryKind
  /-- What the type lacks, if it lacks something. -/
  lacks? : TypeDef → Option Mismatch
  /-- The type with the method under an identifier. -/
  extend : TypeDef → Uuid → TypeDef
  lacks?_congr {t t' : TypeDef} : t'.declares = t.declares → lacks? t' = lacks? t
  extends_extend (t : TypeDef) (id : Uuid) : t.Extends kind (extend t id)

/-- Why the edit of a type is refused, if it is. -/
def TypeEdit.refusal? (x : TypeEdit) (t : TypeDef) : Option WeaveError :=
  if t.hasMemberNamed x.kind.memberName then some (.nameCollision t.name x.kind.memberName)
  else (x.lacks? t).map .mismatch

namespace TypeDef

/-- A method behind the others is a member of its name, and of no other. -/
lemma hasMemberNamed_addSynthesized {t t' : TypeDef} (declares : t'.declares = t.declares)
    (methods : t'.methods = t.methods) (x : Method) (member : String) :
    (t'.addSynthesized x).hasMemberNamed member = (t.hasMemberNamed member || x.name == member) := by
  have names (s : TypeDef) : s.fields.any (·.name == member) = s.declares.2.any (·.1 == member) := by
    rw [TypeDef.declares, List.any_map]
    rfl
  have fields : t'.fields.any (·.name == member) = t.fields.any (·.name == member) := by
    rw [names, names, declares]
  show ((t'.methods ++ [x]).any (·.name == member) || t'.fields.any (·.name == member)) = _
  rw [List.any_append, methods, fields, List.any_cons, List.any_nil, Bool.or_false, hasMemberNamed,
    Bool.or_right_comm]

/-- A method of a kind's name extends a type, behind changes that are not about what it declares. -/
lemma extends_addSynthesized {t t' : TypeDef} {kind : EntryKind} {x : Method}
    (name : t'.name = t.name) (declares : t'.declares = t.declares)
    (methods : t'.methods = t.methods) (named : x.name = kind.memberName) :
    t.Extends kind (t'.addSynthesized x) where
  name := name
  declares := declares
  added := by rw [hasMemberNamed_addSynthesized declares methods, named, beq_self_eq_true,
    Bool.or_true]
  others other different := by
    have apart : (x.name == other.memberName) = false := by
      rw [named]
      exact beq_false_of_ne (EntryKind.memberName_ne different).symm
    rw [hasMemberNamed_addSynthesized declares methods, apart, Bool.or_false]

lemma declares_exposeConstructor (t : TypeDef) (ctor : Uuid) :
    (t.exposeConstructor ctor).declares = t.declares := by
  have constructors : (t.exposeConstructor ctor).constructors.map (fun c => (c.id, c.params))
      = t.constructors.map fun c => (c.id, c.params) :=
    map_updateFirst (f := (·.withVisibility .everywhere)) (fun _ => rfl) t.constructors
  exact congrArg (Prod.mk · _) constructors

lemma declares_exposeField (t : TypeDef) (name : String) :
    (t.exposeField name).declares = t.declares := by
  have fields : (t.exposeField name).fields.map (fun f => (f.name, f.ty))
      = t.fields.map fun f => (f.name, f.ty) :=
    map_updateFirst (f := (·.withVisibility .everywhere)) (fun _ => rfl) t.fields
  exact congrArg (Prod.mk _) fields

lemma isSome_constructor?_congr {t t' : TypeDef} (declares : t'.declares = t.declares)
    (id : Uuid) : (t'.constructor? id).isSome = (t.constructor? id).isSome := by
  rw [← Option.isSome_map (f := Method.params), params_constructor? declares, Option.isSome_map]

lemma isNone_field?_congr {t t' : TypeDef} (declares : t'.declares = t.declares)
    (name : String) : (t'.field? name).isNone = (t.field? name).isNone := by
  rw [← Option.isNone_map (f := Field.ty), ty_field? declares, Option.isNone_map]

end TypeDef

/-- The edit that adds the factory of a target. -/
def ConstructorTarget.edit (c : ConstructorTarget) : TypeEdit where
  ty := c.ty
  kind := .factory
  lacks? t := if (t.constructor? c.ctor).isSome then none else some (.unknownConstructor c.ctor c.ty)
  extend t id := (t.exposeConstructor c.ctor).addSynthesized
    (factoryMethod id c.ty ((t.constructor? c.ctor).getD default))
  lacks?_congr declares := by rw [TypeDef.isSome_constructor?_congr declares]
  extends_extend t _ :=
    TypeDef.extends_addSynthesized rfl (t.declares_exposeConstructor c.ctor) rfl rfl

/-- The edit that adds the injector of a target. -/
def FieldTarget.edit (f : FieldTarget) : TypeEdit where
  ty := f.ty
  kind := .injector
  lacks? t := (f.fields.find? fun name => (t.field? name).isNone).map (.unknownField · f.ty)
  extend t id := (t.exposeFields f.fields).1.addSynthesized
    (injectorMethod id f.ty (f.fields.filterMap t.field?))
  lacks?_congr declares := by simp only [TypeDef.isNone_field?_congr declares]
  extends_extend t _ := by
    obtain ⟨others, only⟩ := t.exists_exposeFields f.fields
    have declares := (t.declares_exposeFields f.fields).1
    rw [only] at declares ⊢
    exact TypeDef.extends_addSynthesized rfl declares rfl rfl

/-- The edits that targets call for, in the order in which a weave makes them. -/
def Targets.edits (targets : Targets) : List TypeEdit :=
  targets.constructable.map ConstructorTarget.edit ++ targets.injectable.map FieldTarget.edit

/-- The edits of a weave are about the types that get a factory, then those that get an injector. -/
lemma Module.map_ty_kind_edits (m : Module) :
    m.allTargets.edits.map (fun x => (x.ty, x.kind)) = (m.targetNames .factory).map (·, .factory)
      ++ (m.targetNames .injector).map (·, .injector) := by
  have factories : (m.allTargets.constructable.map ConstructorTarget.edit).map
      (fun x => (x.ty, x.kind)) = (m.targetNames .factory).map (·, .factory) := by
    rw [targetNames, ← map_ty_constructable, List.map_map, List.map_map]
    rfl
  have injectors : (m.allTargets.injectable.map FieldTarget.edit).map
      (fun x => (x.ty, x.kind)) = (m.targetNames .injector).map (·, .injector) := by
    rw [targetNames, ← map_ty_injectable, List.map_map, List.map_map]
    rfl
  rw [Targets.edits, List.map_append, factories, injectors]

/-! ## Edits of a draft -/

namespace Draft

/-- The draft with an edit made, under the next identifier of the supply. -/
def carryOut (d : Draft) (x : TypeEdit) : Draft :=
  d.withAdded x.kind (updateFirst (·.name == x.ty) (x.extend · d.supply.draw.1) d.module.types)
    [⟨x.ty, d.supply.draw.1⟩]

/-- Makes an edit, unless it is refused. -/
def attempt (d : Draft) (x : TypeEdit) : Except WeaveError Draft :=
  match d.module.typeNamed? x.ty with
  | none => .error (.mismatch (.unknownType x.ty))
  | some t => match x.refusal? t with
    | some e => .error e
    | none => .ok (d.carryOut x)

end Draft

/-- Changes that do the same to the type of a name are the same. -/
lemma Module.updateType_congr {m : Module} {ty : String} {t : TypeDef} {f g : TypeDef → TypeDef}
    (found : m.typeNamed? ty = some t) (same : f t = g t) : m.updateType ty f = m.updateType ty g := by
  obtain ⟨own, before, after, types, others⟩ := List.find?_eq_some_iff_append.1 found
  have others : ∀ s ∈ before, (s.name == ty) = false := fun s hs => by simpa using others s hs
  rw [updateType, updateType, types, updateFirst_append_cons f others own,
    updateFirst_append_cons g others own, same]

lemma ConstructorTarget.refusal?_edit (c : ConstructorTarget) (t : TypeDef) :
    c.edit.refusal? t = if t.hasMemberNamed factoryName then some (.nameCollision t.name factoryName)
      else if (t.constructor? c.ctor).isSome then none
      else some (.mismatch (.unknownConstructor c.ctor c.ty)) := by
  show (if t.hasMemberNamed factoryName then _ else Option.map _ (if _ then _ else _)) = _
  rw [apply_ite (Option.map WeaveError.mismatch)]
  rfl

lemma Draft.addFactory_eq_attempt (d : Draft) (c : ConstructorTarget) :
    d.addFactory c = d.attempt c.edit := by
  rw [addFactory, attempt]
  simp only [Module.addFactory]
  show _ = match d.module.typeNamed? c.ty with
    | none => _
    | some t => _
  cases found : d.module.typeNamed? c.ty with
  | none => rfl
  | some t =>
    simp only [c.refusal?_edit]
    cases t.hasMemberNamed factoryName with
    | true => rfl
    | false =>
      cases declared : t.constructor? c.ctor with
      | none => rfl
      | some ctor =>
        have extended : (t.exposeConstructor c.ctor).addSynthesized
              (factoryMethod d.supply.draw.1 c.ty ctor)
            = c.edit.extend t d.supply.draw.1 := by
          show _ = (t.exposeConstructor c.ctor).addSynthesized _
          rw [declared, Option.getD_some]
        have edited : d.module.updateType c.ty (fun t => (t.exposeConstructor c.ctor).addSynthesized
              (factoryMethod d.supply.draw.1 c.ty ctor))
            = d.module.updateType c.ty (c.edit.extend · d.supply.draw.1) :=
          Module.updateType_congr found extended
        exact congrArg (fun module => Except.ok (Draft.mk module d.supply.draw.2
          (d.factories ++ [⟨c.ty, d.supply.draw.1⟩]) d.injectors)) edited

namespace TypeDef

/-- Fields that are looked up by name, as far as a type declares them. -/
lemma map_filterMap_field? (t : TypeDef) (names : List String) :
    (names.filterMap t.field?).map (fun f => (f.name, f.ty))
      = names.filterMap fun name => ((t.field? name).map (·.ty)).map (name, ·) := by
  rw [List.map_filterMap]
  refine List.filterMap_congr fun name _ => ?_
  rw [Option.map_map]
  refine Option.map_congr fun f found => ?_
  rw [Function.comp_apply, key_of_find? Field.name found]

/-- Making fields public fails at the first name that no field has. Otherwise it finds the fields
that the type had before, but for their visibility. -/
lemma exposeFields_cases (t : TypeDef) (names : List String) :
    (∃ name, (names.find? fun name => (t.field? name).isNone) = some name ∧
        (t.exposeFields names).2 = .error name) ∨
      ((names.find? fun name => (t.field? name).isNone) = none ∧
        ∃ fields, (t.exposeFields names).2 = .ok fields ∧
          fields.map (fun f => (f.name, f.ty))
            = (names.filterMap t.field?).map fun f => (f.name, f.ty)) := by
  induction names generalizing t with
  | nil => exact .inr ⟨rfl, [], rfl, rfl⟩
  | cons name rest ih =>
    rw [List.find?_cons]
    cases found : t.field? name with
    | none => exact .inl ⟨name, rfl, by rw [exposeFields, found]⟩
    | some f =>
      have step : (t.exposeFields (name :: rest)).2
          = ((t.exposeField name).exposeFields rest).2.map (f :: ·) := by
        rw [exposeFields, found]
      have exposed : (t.exposeField name).declares = t.declares := t.declares_exposeField name
      have later := ih (t.exposeField name)
      simp only [isNone_field?_congr exposed] at later
      rcases later with ⟨unknown, missing, failed⟩ | ⟨all, fields, ok, same⟩
      · exact .inl ⟨unknown, missing, by rw [step, failed]; rfl⟩
      · refine .inr ⟨all, f :: fields, by rw [step, ok]; rfl, ?_⟩
        rw [List.map_cons, same, List.filterMap_cons_some found, List.map_cons,
          map_filterMap_field?, map_filterMap_field?]
        simp only [ty_field? exposed]

end TypeDef

/-- An injector depends on the names of its fields and on their types. -/
lemma injectorMethod_congr {fields fields' : List Field}
    (same : fields.map (fun f => (f.name, f.ty)) = fields'.map fun f => (f.name, f.ty)) (id : Uuid)
    (ty : String) : injectorMethod id ty fields = injectorMethod id ty fields' := by
  have body (l : List Field) : l.flatMap (assignField ty) = (l.map fun f => (f.name, f.ty)).flatMap
      fun f => [.loadArg 0, .loadArg 1, .resolve f.2, .storeField ty f.1] := by
    rw [List.flatMap_map]
    rfl
  rw [injectorMethod, injectorMethod, body, body, same]

lemma FieldTarget.refusal?_edit (f : FieldTarget) (t : TypeDef) :
    f.edit.refusal? t = if t.hasMemberNamed injectorName then some (.nameCollision t.name injectorName)
      else (f.fields.find? fun name => (t.field? name).isNone).map
        fun name => .mismatch (.unknownField name f.ty) := by
  show (if t.hasMemberNamed injectorName then _ else Option.map _ (Option.map _ _)) = _
  rw [Option.map_map]
  rfl

lemma Draft.addInjector_eq_attempt (d : Draft) (f : FieldTarget) :
    d.addInjector f = d.attempt f.edit := by
  rw [addInjector, attempt]
  simp only [Module.addInjector]
  show _ = match d.module.typeNamed? f.ty with
    | none => _
    | some t => _
  cases found : d.module.typeNamed? f.ty with
  | none => rfl
  | some t =>
    simp only [f.refusal?_edit]
    cases t.hasMemberNamed injectorName with
    | true => rfl
    | false =>
      rcases t.exposeFields_cases f.fields with
        ⟨name, missing, failed⟩ | ⟨all, fields, ok, same⟩
      · cases exposed : t.exposeFields f.fields with
        | mk t' outcome =>
          rw [exposed] at failed
          obtain rfl : outcome = _ := failed
          rw [missing]
          rfl
      · cases exposed : t.exposeFields f.fields with
        | mk t' outcome =>
          rw [exposed] at ok
          obtain rfl : outcome = _ := ok
          have extended : t'.addSynthesized (injectorMethod d.supply.draw.1 f.ty fields)
              = f.edit.extend t d.supply.draw.1 := by
            show _ = (t.exposeFields f.fields).1.addSynthesized _
            rw [exposed, injectorMethod_congr same]
          rw [all]
          have edited : d.module.updateType f.ty
                (fun _ => t'.addSynthesized (injectorMethod d.supply.draw.1 f.ty fields))
              = d.module.updateType f.ty (f.edit.extend · d.supply.draw.1) :=
            Module.updateType_congr found extended
          exact congrArg (fun module => Except.ok (Draft.mk module d.supply.draw.2
            d.factories (d.injectors ++ [⟨f.ty, d.supply.draw.1⟩]))) edited

/-! ## Edits one after the other -/

/-- The second type is the first one after edits of the given names and kinds. -/
structure TypeDef.EditedBy (made : List (String × EntryKind)) (t t' : TypeDef) : Prop where
  name : t'.name = t.name
  declares : t'.declares = t.declares
  members (kind : EntryKind) : t'.hasMemberNamed kind.memberName
    = (t.hasMemberNamed kind.memberName || decide ((t.name, kind) ∈ made))

/-- Every name refers to a type in the second module that is the one it refers to in the first after
edits of the given names and kinds. -/
def Module.EditedBy (made : List (String × EntryKind)) (m m' : Module) : Prop :=
  ∀ ty, Option.Rel (TypeDef.EditedBy made) (m.typeNamed? ty) (m'.typeNamed? ty)

/-- Why an edit is refused, told from the module before edits of the given names and kinds. -/
def Module.refusalOf? (m : Module) (made : List (String × EntryKind)) (x : TypeEdit) :
    Option WeaveError :=
  match m.typeNamed? x.ty with
  | none => some (.mismatch (.unknownType x.ty))
  | some t =>
    if (x.ty, x.kind) ∈ made then some (.nameCollision t.name x.kind.memberName)
    else x.refusal? t

/-- Why some edits fail: the refusal of the first that is refused, told from the module before edits
of the given names and kinds. -/
def Module.refusal? (m : Module) (made : List (String × EntryKind)) :
    List TypeEdit → Option WeaveError
  | [] => none
  | x :: rest => (m.refusalOf? made x).or (m.refusal? ((x.ty, x.kind) :: made) rest)

namespace Module

/-- A change of the type of a name is seen under that name only. -/
lemma typeNamed?_updateType {m : Module} {ty : String} {f : TypeDef → TypeDef}
    (keeps : ∀ t, (f t).name = t.name) (name : String) :
    (m.updateType ty f).typeNamed? name
      = if name = ty then (m.typeNamed? name).map f else m.typeNamed? name := by
  unfold typeNamed? updateType
  induction m.types with
  | nil => split <;> rfl
  | cons t rest ih =>
    rw [updateFirst]
    by_cases own : t.name = ty
    · rw [if_pos (beq_iff_eq.2 own), List.find?_cons, List.find?_cons, keeps, own]
      by_cases named : name = ty
      · rw [if_pos named, named, beq_self_eq_true]
        rfl
      · rw [if_neg named, beq_false_of_ne (Ne.symm named)]
    · rw [if_neg (by simpa using own), List.find?_cons, List.find?_cons]
      cases named : t.name == name with
      | true =>
        have other : name ≠ ty := fun same => own ((eq_of_beq named).trans same)
        rw [if_neg other]
      | false => exact ih

lemma EditedBy.refl (m : Module) : m.EditedBy [] m := fun ty => by
  cases m.typeNamed? ty with
  | none => exact .none
  | some t => exact .some ⟨rfl, rfl, fun kind => by simp⟩

end Module

lemma TypeDef.EditedBy.step {made : List (String × EntryKind)} {t t' : TypeDef}
    (edited : t.EditedBy made t') (x : TypeEdit) (own : t.name = x.ty) (id : Uuid) :
    t.EditedBy ((x.ty, x.kind) :: made) (x.extend t' id) := by
  have extends' := x.extends_extend t' id
  refine ⟨extends'.name.trans edited.name, extends'.declares.trans edited.declares, fun kind => ?_⟩
  by_cases same : kind = x.kind
  · have listed : (t.name, kind) ∈ (x.ty, x.kind) :: made := by
      rw [own, same]
      exact List.mem_cons_self
    rw [decide_eq_true listed, Bool.or_true, same]
    exact extends'.added
  · have listed : (t.name, kind) ∈ (x.ty, x.kind) :: made ↔ (t.name, kind) ∈ made := by
      simp [same]
    rw [extends'.others kind same, edited.members]
    simp only [listed]

lemma TypeDef.EditedBy.of_other {made : List (String × EntryKind)} {t t' : TypeDef}
    (edited : t.EditedBy made t') {ty : String} (other : t.name ≠ ty) (kind : EntryKind) :
    t.EditedBy ((ty, kind) :: made) t' :=
  ⟨edited.name, edited.declares, fun kind => by
    rw [edited.members]
    simp [other]⟩

namespace Draft

lemma module_carryOut (d : Draft) (x : TypeEdit) :
    (d.carryOut x).module = d.module.updateType x.ty (x.extend · d.supply.draw.1) := by
  unfold carryOut withAdded Module.updateType
  cases x.kind <;> rfl

/-- What an edit that is carried out has done by name. -/
lemma editedBy_carryOut {m : Module} {made : List (String × EntryKind)} {d : Draft}
    (edited : m.EditedBy made d.module) (x : TypeEdit) :
    m.EditedBy ((x.ty, x.kind) :: made) (d.carryOut x).module := by
  intro ty
  rw [module_carryOut, Module.typeNamed?_updateType fun t => (x.extends_extend t _).name]
  have before := edited ty
  cases found : m.typeNamed? ty with
  | none =>
    rw [found] at before
    cases found' : d.module.typeNamed? ty with
    | none => split <;> exact .none
    | some t' =>
      rw [found'] at before
      cases before
  | some t =>
    rw [found] at before
    have named : t.name = ty := key_of_find? TypeDef.name found
    cases found' : d.module.typeNamed? ty with
    | none =>
      rw [found'] at before
      cases before
    | some t' =>
      rw [found'] at before
      cases before with | some edited =>
      split
      next own => exact .some (edited.step x (named.trans own) _)
      next other => exact .some (edited.of_other (named ▸ other) x.kind)

/-- An edit of a draft is refused for what the module was before. -/
lemma attempt_eq {m : Module} {made : List (String × EntryKind)} {d : Draft}
    (edited : m.EditedBy made d.module) (x : TypeEdit) :
    d.attempt x = match m.refusalOf? made x with
      | some e => .error e
      | none => .ok (d.carryOut x) := by
  have before := edited x.ty
  rw [attempt, Module.refusalOf?]
  cases found : m.typeNamed? x.ty with
  | none =>
    rw [found] at before
    cases found' : d.module.typeNamed? x.ty with
    | none => rfl
    | some t' =>
      rw [found'] at before
      cases before
  | some t =>
    rw [found] at before
    have named : t.name = x.ty := key_of_find? TypeDef.name found
    cases found' : d.module.typeNamed? x.ty with
    | none =>
      rw [found'] at before
      cases before
    | some t' =>
      rw [found'] at before
      cases before with | some edited =>
      have refused : x.refusal? t' = if (x.ty, x.kind) ∈ made
          then some (.nameCollision t.name x.kind.memberName) else x.refusal? t := by
        rw [TypeEdit.refusal?, TypeEdit.refusal?, edited.members, edited.name,
          x.lacks?_congr edited.declares, named]
        by_cases listed : (x.ty, x.kind) ∈ made
        · simp [listed]
        · simp [listed]
      simp only [refused]

/-- Edits one after the other end as it was told beforehand. -/
lemma foldlM_attempt {m : Module} {made : List (String × EntryKind)} {edits : List TypeEdit}
    {d : Draft} (edited : m.EditedBy made d.module) :
    edits.foldlM attempt d = match m.refusal? made edits with
      | some e => .error e
      | none => .ok (edits.foldl carryOut d) := by
  induction edits generalizing d made with
  | nil => rfl
  | cons x rest ih =>
    rw [List.foldlM_cons, attempt_eq edited x, Module.refusal?]
    cases m.refusalOf? made x with
    | some e => rfl
    | none => exact ih (editedBy_carryOut edited x)

/-- A weave makes the edits that its targets call for, and then adds the registrar. -/
lemma addAll_eq_foldlM (d : Draft) (targets : Targets) (registrar : String) (editorOnly : Bool) :
    d.addAll targets registrar editorOnly
      = targets.edits.foldlM attempt d >>= (·.addRegistrar registrar editorOnly) := by
  have factories : addFactory = fun d c => d.attempt (ConstructorTarget.edit c) :=
    funext₂ addFactory_eq_attempt
  have injectors : addInjector = fun d f => d.attempt (FieldTarget.edit f) :=
    funext₂ addInjector_eq_attempt
  rw [addAll, Targets.edits, List.foldlM_append, List.foldlM_map, bind_assoc, factories, injectors]
  simp only [List.foldlM_map]

lemma editedBy_foldl {m : Module} {made : List (String × EntryKind)} {d : Draft}
    (edited : m.EditedBy made d.module) (edits : List TypeEdit) :
    ∃ made, m.EditedBy made (edits.foldl carryOut d).module := by
  induction edits generalizing d made with
  | nil => exact ⟨made, edited⟩
  | cons x rest ih => exact ih (editedBy_carryOut edited x)

/-- The registrar is added unless its name is taken. -/
lemma addRegistrar_eq {d : Draft} {name : String} (absent : d.module.typeNamed? name = none)
    (editorOnly : Bool) : ∃ registrar supply, d.addRegistrar name editorOnly
      = .ok { d with module := d.module.addType registrar, supply } := by
  refine ⟨registrarType d.supply.draw.1 name (bakeMethod d.supply.draw.2.draw.1 d.factories
    d.injectors editorOnly), d.supply.draw.2.draw.2, ?_⟩
  rw [addRegistrar]
  simp only [Module.addRegistrar, absent]
  rfl

/-- The types that have methods of a kind that edits have added. -/
def entries (d : Draft) : EntryKind → List Synthesized
  | .factory => d.factories
  | .injector => d.injectors

/-- Edits of a kind add methods for the types they are about, in order. -/
lemma entries_foldl (d : Draft) (edits : List TypeEdit) (kind : EntryKind) :
    ((edits.foldl carryOut d).entries kind).map (·.ty)
      = (d.entries kind).map (·.ty) ++ (edits.filter (·.kind == kind)).map (·.ty) := by
  induction edits generalizing d with
  | nil => rw [List.foldl_nil, List.filter_nil, List.map_nil, List.append_nil]
  | cons x rest ih =>
    have added : ((d.carryOut x).entries kind).map (·.ty) = (d.entries kind).map (·.ty)
        ++ if x.kind == kind then [x.ty] else [] := by
      unfold carryOut withAdded
      cases x.kind <;> cases kind <;> simp [entries]
    rw [List.foldl_cons, ih, added, List.append_assoc, List.filter_cons]
    split <;> rfl

end Draft

end Weaver
