import Weaver.Proofs.Injection.Dependencies
import Weaver.Proofs.Injection.Growth
import Weaver.Proofs.Weave.Hierarchy

/-!
# Hosts in the middle of resolutions

When each class of a woven module has its entries and one binding, what a resolution will do depends
on three things: which bindings have their answers already, for which ones an instance is just being
made, and how many resolutions are active.

Four things live here:

* `Module.Standing`, what holds of the host before and after every step of a resolution;
* `Module.Sure`, when a resolution has to end well;
* `Module.Making`, objects that have been made but not yet been answered with;
* `Module.Ends`, how a part of a resolution ends, and the rules to put parts together.
-/

namespace Weaver
namespace Module

open Host

variable {m : Module} {ids : WeaveIds} {c : ContainerRef} {base h h' h₁ : Host} {t : TypeDef}
  {ref : BindingRef} {o : ObjectRef}

/-! ## Bindings and their answers -/

/-- The classes of the module are loaded in their rewoven form, with the entries that the weave has
made and no others, and a container has a binding for each that leads to the class itself. -/
structure Equipped (m : Module) (ids : WeaveIds) (c : ContainerRef) (h : Host) : Prop where
  container : c.index < h.containers.size
  types {t : TypeDef} : t ∈ m.types → h.types.find? t.name = some ⟨m.name, rewovenType ids t⟩
  registered : m.Registered ids h
  bare {t : TypeDef} : t ∈ m.types → t.markedFields = [] → h.registry.injectors.find? t.name = none
  alone : h.registry.fallback = none
  bound {t : TypeDef} : t ∈ m.types → ∃ ref scope, h.bindingFor? c t.name = some ref ∧
    ref.index < h.bindings.size ∧ scope ≠ .unset ∧
    (h.binding ref).settings = (t.name, t.name, none, scope)

lemma Equipped.carry (equipped : m.Equipped ids c h) (carries : Carries c h h') :
    m.Equipped ids c h' where
  container := by
    rw [carries.containers]
    exact equipped.container
  types member := by
    rw [carries.types]
    exact equipped.types member
  registered := by
    refine ⟨fun member gets => ?_, fun member gets => ?_⟩
    · rw [carries.registry]
      exact equipped.registered.factory member gets
    · rw [carries.registry]
      exact equipped.registered.injector member gets
  bare member none := by
    rw [carries.registry]
    exact equipped.bare member none
  alone := by
    rw [carries.registry]
    exact equipped.alone
  bound member := by
    obtain ⟨ref, scope, found, valid, set, settings⟩ := equipped.bound member
    refine ⟨ref, scope, (carries.found _).trans found, ?_, set,
      (carries.settings ref).trans settings⟩
    rw [carries.bindings]
    exact valid

/-- No two classes have the same binding. -/
lemma Equipped.name_eq {s : TypeDef} (equipped : m.Equipped ids c h) (ht : t ∈ m.types)
    (hs : s ∈ m.types) (first : h.bindingFor? c t.name = some ref)
    (second : h.bindingFor? c s.name = some ref) : s.name = t.name := by
  obtain ⟨ref₁, scope₁, found₁, -, -, settings₁⟩ := equipped.bound ht
  obtain ⟨ref₂, scope₂, found₂, -, -, settings₂⟩ := equipped.bound hs
  cases first.symm.trans found₁
  cases second.symm.trans found₂
  exact congrArg Prod.fst (settings₂.symm.trans settings₁)

/-- An object that a resolution of a class may answer with. It has instances in all fields that are
filled for the class, and from the class every path of the injection graph ends. -/
structure Completed (m : Module) (c : ContainerRef) (t : TypeDef) (h : Host) (o : ObjectRef) :
    Prop where
  provides : Provides c t.name h o
  filled : Filled c t.name t.dependencies h o
  founded : m.Founded t.name

lemma Completed.carry (completed : m.Completed c t h o) (carries : Carries c h h')
    (same : h'.object o = h.object o) : m.Completed c t h' o :=
  ⟨completed.provides.carry carries, completed.filled.carry carries same, completed.founded⟩

/-- What holds of the host before and after every step: no call has been made but for a resolution,
and a binding holds nothing at all or an object that it may answer with. -/
structure Standing (m : Module) (ids : WeaveIds) (c : ContainerRef) (h : Host) : Prop extends
    m.Equipped ids c h where
  calls : h.callDepth ≤ (h.container c).depth
  depth : (h.container c).depth ≤ maxResolveDepth
  state {t : TypeDef} {ref : BindingRef} : t ∈ m.types → h.bindingFor? c t.name = some ref →
    (h.binding ref).resolved = false ∧ (h.binding ref).held = none ∨
      (h.binding ref).resolved = true ∧
        ∃ o, (h.binding ref).held = some (.object o) ∧ m.Completed c t h o

/-- No binding for a class holds an object. -/
def Unheld (m : Module) (c : ContainerRef) (h : Host) (o : ObjectRef) : Prop :=
  ∀ t ∈ m.types, ∀ ref, h.bindingFor? c t.name = some ref → (h.binding ref).held ≠ some (.object o)

namespace Standing

/-- A step that changes neither what bindings hold nor the objects that they hold. -/
lemma carry (standing : m.Standing ids c h) (carries : Carries c h h')
    (calls : h'.callDepth ≤ (h'.container c).depth)
    (depth : (h'.container c).depth ≤ maxResolveDepth)
    (bindings : ∀ ref, (h'.binding ref).resolved = (h.binding ref).resolved ∧
      (h'.binding ref).held = (h.binding ref).held)
    (objects : ∀ o, o.index < h.objects.size → ¬m.Unheld c h o → h'.object o = h.object o) :
    m.Standing ids c h' :=
  { standing.toEquipped.carry carries with
    calls := calls
    depth := depth
    state := fun {t ref} member found => by
      rw [carries.found] at found
      obtain ⟨resolved, held⟩ := bindings ref
      rw [resolved, held]
      rcases standing.state member found with open_ | ⟨answered, o, there, completed⟩
      · exact .inl open_
      · have same := objects o completed.provides.valid fun unheld =>
          unheld t member ref found there
        exact .inr ⟨answered, o, there, completed.carry carries same⟩ }

/-- A resolution begins to make an instance. -/
lemma enterProduction (standing : m.Standing ids c h)
    (room : (h.container c).depth < maxResolveDepth) :
    m.Standing ids c (h.enterProduction c ref) ∧
      ((h.enterProduction c ref).container c).depth = (h.container c).depth + 1 := by
  have depth : ((h.enterProduction c ref).container c).depth = (h.container c).depth + 1 :=
    depth_enterProduction standing.container
  refine ⟨standing.carry (.enterProduction h) ?_ (depth ▸ room) (fun ref' => ?_) fun _ _ _ => rfl,
    depth⟩
  · rw [depth]
    exact Nat.le_succ_of_le standing.calls
  · by_cases other : ref = ref'
    · subst other
      rcases Nat.lt_or_ge ref.index h.bindings.size with valid | invalid
      · rw [binding_enterProduction_self valid]
        exact ⟨rfl, rfl⟩
      · rw [binding_of_size_le invalid, binding_of_size_le]
        · exact ⟨rfl, rfl⟩
        · rwa [(Carries.enterProduction (c := c) h).bindings]
    · rw [binding_enterProduction_of_ne other]
      exact ⟨rfl, rfl⟩

lemma enterCall (standing : m.Standing ids c h) (room : h.callDepth < (h.container c).depth) :
    m.Standing ids c h.enterCall :=
  standing.carry (.enterCall h) room standing.depth (fun _ => ⟨rfl, rfl⟩) fun _ _ _ => rfl

lemma leaveCall (standing : m.Standing ids c h) : m.Standing ids c h.leaveCall :=
  standing.carry (.leaveCall h) ((Nat.sub_le _ _).trans standing.calls) standing.depth
    (fun _ => ⟨rfl, rfl⟩) fun _ _ _ => rfl

lemma addObject (standing : m.Standing ids c h) (object : HeapObject) (ty : String)
    (values : List (String × Value)) : m.Standing ids c (h.addObject object ty values) := by
  obtain ⟨objects, same, -⟩ := exists_addObject h object ty values
  refine standing.carry (Extends.addObject h object ty values).toCarries ?_ ?_ (fun ref => ?_)
    fun o valid _ => object_addObject_of_lt h object ty values valid
  · rw [same]
    exact standing.calls
  · rw [same]
    exact standing.depth
  · rw [same]
    exact ⟨rfl, rfl⟩

lemma putDeclared (standing : m.Standing ids c h) (unheld : m.Unheld c h o) (ty name : String)
    (value : Value) : m.Standing ids c (h.putDeclared o ty name value) := by
  refine standing.carry (.putDeclared h o ty name value) standing.calls standing.depth
    (fun _ => ⟨rfl, rfl⟩) fun o' _ held => object_putDeclared_of_ne ?_ h
  rintro rfl
  exact held unheld

/-- What a binding for a class holds is an object that exists. -/
lemma unheld_of_le (standing : m.Standing ids c h) (new : h.objects.size ≤ o.index) :
    m.Unheld c h o := by
  intro s member ref found held
  rcases standing.state member found with ⟨-, none⟩ | ⟨-, o', held', completed⟩
  · cases none.symm.trans held
  · cases held'.symm.trans held
    exact Nat.lt_irrefl _ (completed.provides.valid.trans_le new)

end Standing

/-! ## Certainty -/

/-- A resolution of a class has to end well: every path of the injection graph is short enough to
stay below the limit, and no binding that can come up is in the middle of making an instance. -/
structure Sure (m : Module) (c : ContainerRef) (h : Host) (a : String) : Prop where
  short : ∃ n, m.Within n a ∧ n + (h.container c).depth ≤ maxResolveDepth
  idle {b : String} {ref : BindingRef} : Relation.ReflTransGen m.Depends a b →
    h.bindingFor? c b = some ref → (h.binding ref).producing = false

namespace Sure

variable {a : String}

lemma of_same (sure : m.Sure c h a) (depth : (h'.container c).depth = (h.container c).depth)
    (found : ∀ ty, h'.bindingFor? c ty = h.bindingFor? c ty)
    (producing : ∀ ref, (h'.binding ref).producing = (h.binding ref).producing) :
    m.Sure c h' a where
  short := depth ▸ sure.short
  idle path bound := by
    rw [producing]
    exact sure.idle path (found _ ▸ bound)

lemma extend (sure : m.Sure c h a) (grown : Extends c h h') : m.Sure c h' a :=
  sure.of_same grown.depth grown.found grown.producing

lemma room (sure : m.Sure c h a) : (h.container c).depth < maxResolveDepth := by
  obtain ⟨n, within, few⟩ := sure.short
  cases n with
  | zero => exact within.elim
  | succ n => omega

/-- What a class depends on can be resolved in the middle of a resolution of the class. -/
lemma enterProduction {b : String} (sure : m.Sure c h t.name) (contained : m.SelfContained)
    (standing : m.Standing ids c h) (member : t ∈ m.types)
    (found : h.bindingFor? c t.name = some ref) (edge : m.Depends t.name b) :
    m.Sure c (h.enterProduction c ref) b := by
  obtain ⟨n, within, few⟩ := sure.short
  have apart := within.founded.not_reaches edge
  refine ⟨?_, fun {b' ref'} path bound => ?_⟩
  · cases n with
    | zero => exact within.elim
    | succ n =>
      refine ⟨n, within b edge, ?_⟩
      rw [(standing.enterProduction sure.room).2]
      omega
  · rw [(Carries.enterProduction h).found] at bound
    have other : ref ≠ ref' := by
      -- else the class could be reached from what it depends on
      rintro rfl
      obtain ⟨x, -, last⟩ := Relation.TransGen.tail'_iff.1 (Relation.TransGen.head' edge path)
      obtain ⟨s, hs, rfl⟩ := contained.exists_of_depends last
      rw [standing.name_eq member hs found bound] at path
      exact apart path
    rw [binding_enterProduction_of_ne other]
    exact sure.idle (.head edge path) bound

end Sure

/-! ## Objects that are being made -/

/-- A new object that has been made for a class, with instances in some of the fields that are
filled. Nothing refers to it yet. -/
structure Making (m : Module) (c : ContainerRef) (t : TypeDef) (size : ℕ)
    (fields : List (String × String)) (h : Host) (o : ObjectRef) : Prop where
  new : size ≤ o.index
  valid : o.index < h.objects.size
  type : (h.object o).ty = t.name
  slots : ∀ f ∈ t.fields, (h.getDeclared? o t.name f.name).isSome
  unheld : m.Unheld c h o
  filled : Filled c t.name fields h o
  founded : ∀ f ∈ fields, m.Founded f.2

namespace Making

variable {size : ℕ} {fields : List (String × String)}

lemma enterCall (making : m.Making c t size fields h o) : m.Making c t size fields h.enterCall o :=
  { making with filled := making.filled.carry (.enterCall h) rfl }

lemma leaveCall (making : m.Making c t size fields h o) : m.Making c t size fields h.leaveCall o :=
  { making with filled := making.filled.carry (.leaveCall h) rfl }

/-- Resolutions in between leave the object alone. -/
lemma extend (making : m.Making c t size fields h o) (standing : m.Standing ids c h')
    (grown : Extends c h h') : m.Making c t size fields h' o where
  new := making.new
  valid := making.valid.trans_le grown.objects
  type := by
    rw [grown.old o making.valid]
    exact making.type
  slots f member := by
    rw [getDeclared?, slotValue?, grown.old o making.valid]
    exact making.slots f member
  unheld s member ref found held := by
    -- a binding that holds something is resolved, and what it holds is older or newer
    rcases standing.state member found with ⟨-, none⟩ | ⟨resolved, -⟩
    · rw [held] at none
      cases none
    · rw [grown.found] at found
      rcases grown.fresh ref resolved with known | ⟨-, o', held', new⟩
      · exact making.unheld s member ref found ((grown.answer ref known).2 ▸ held)
      · cases held.symm.trans held'
        exact Nat.lt_irrefl _ (making.valid.trans_le new)
  filled := making.filled.carry grown.toCarries (grown.old o making.valid)
  founded := making.founded

/-- One more field is filled. -/
lemma putDeclared {f : Field} {o' : ObjectRef} (making : m.Making c t size fields h o)
    (declared : f ∈ t.fields) (unused : f.name ∉ fields.map (·.1))
    (provides : Provides c f.ty h o') (founded : m.Founded f.ty) :
    m.Making c t size (fields ++ [(f.name, f.ty)])
      (h.putDeclared o t.name f.name (.object o')) o where
  new := making.new
  valid := making.valid.trans_le (Carries.putDeclared (c := c) h o t.name f.name _).objects
  type := ((Carries.putDeclared (c := c) h o t.name f.name _).type o making.valid).trans making.type
  slots g member := by
    rw [isSome_getDeclared?, shape_putDeclared, ← isSome_getDeclared?]
    exact making.slots g member
  unheld := making.unheld
  filled :=
    making.filled.putDeclared (f := (f.name, f.ty)) unused (making.slots f declared) provides
  founded g member := by
    rcases List.mem_append.1 member with member | last
    · exact making.founded g member
    · rw [List.mem_singleton.1 last]
      exact founded

end Making

/-! ## Ends -/

/-- The ways in which a part of a resolution ends: with a value of which something holds, or with a
fault, but not if this part has to end well. Either way it leaves a host that stands. -/
inductive Ends (m : Module) (ids : WeaveIds) (c : ContainerRef) (base : Host) (sure : Prop)
    {α : Type} (Q : Host → α → Prop) : Option (Except HostError α × Host) → Prop where
  | value {a : α} {h : Host} (standing : m.Standing ids c h) (grown : Extends c base h)
      (holds : Q h a) : Ends m ids c base sure Q (some (.ok a, h))
  | fault {cause : ExecutionFault} {h : Host} (standing : m.Standing ids c h)
      (grown : Extends c base h) (unsure : ¬sure) :
      Ends m ids c base sure Q (some (.error (.execution cause), h))

namespace Ends

variable {α β : Type} {sure sure' : Prop} {Q : Host → α → Prop} {R : Host → β → Prop}
  {x : Run α}

lemma mono {Q' : Host → α → Prop} {outcome : Option (Except HostError α × Host)}
    (ends : m.Ends ids c base sure Q outcome) (less : sure' → sure)
    (holds : ∀ h a, m.Standing ids c h → Extends c base h → Q h a → Q' h a) :
    m.Ends ids c base sure' Q' outcome := by
  cases ends with
  | value standing grown q => exact .value standing grown (holds _ _ standing grown q)
  | fault standing grown unsure => exact .fault standing grown fun s => unsure (less s)

/-- A part that begins later. -/
lemma rebase {outcome : Option (Except HostError α × Host)} (ends : m.Ends ids c h sure Q outcome)
    (grown : Extends c base h) : m.Ends ids c base sure Q outcome := by
  cases ends with
  | value standing later q => exact .value standing (grown.trans later) q
  | fault standing later unsure => exact .fault standing (grown.trans later) unsure

/-- One part after the other. -/
lemma bind {base' : Host} {f : α → Run β} (first : m.Ends ids c base' sure Q (x.run h))
    (grown : Extends c base base')
    (next : ∀ h₁ a, m.Standing ids c h₁ → Extends c base' h₁ → Q h₁ a →
      m.Ends ids c base sure R ((f a).run h₁)) :
    m.Ends ids c base sure R ((x >>= f).run h) := by
  rw [Run.run_bind]
  cases outcome : x.run h with
  | none =>
    rw [outcome] at first
    cases first
  | some r =>
    rw [outcome] at first
    cases first with
    | value standing later q => exact next _ _ standing later q
    | fault standing later unsure => exact .fault standing (grown.trans later) unsure

/-- A part that is done one call deeper. -/
lemma oneDeeper {Q' : Host → α → Prop}
    (inner : m.Ends ids c base.enterCall sure Q (x.run h.enterCall))
    (holds : ∀ h a, Q h a → Q' h.leaveCall a) :
    m.Ends ids c base sure Q' ((Host.oneDeeper x).run h) := by
  rw [Host.oneDeeper, Run.run_between]
  cases outcome : x.run h.enterCall with
  | none =>
    rw [outcome] at inner
    cases inner
  | some r =>
    rw [outcome] at inner
    cases inner with
    | value standing grown q => exact .value standing.leaveCall grown.leaveCall (holds _ _ q)
    | fault standing grown unsure => exact .fault standing.leaveCall grown.leaveCall unsure

end Ends

end Module
end Weaver
