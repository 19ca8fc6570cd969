import Mathlib.Logic.Relation
import Mathlib.Tactic.Common
import Weaver.Proofs.Weave.Effect

/-!
# The injection graph

The classes of a module depend on one another: to make an instance, one of each parameter's class is
resolved, and then one of each marked field's class. Whether that comes to an end is a matter of the
graph of these dependencies.

Two things live here:

* the graph, its cycles, and classes from which every path is short or at least ends;
* `Module.SelfContained`, modules of concrete classes that depend on nothing but each other.
-/

namespace Weaver

/-- The fields of a class that are filled when an instance is made, each with the class that is
resolved for it: the fields that parameters are stored into, then the marked ones. -/
def TypeDef.dependencies (t : TypeDef) : List (String × String) :=
  (t.constructors.flatMap (·.params)).map (fun p => (p.name, p.ty))
    ++ t.markedFields.map fun f => (f.name, f.ty)

namespace Module

variable (m : Module)

/-! ## The graph -/

/-- An edge of the injection graph: the second class is resolved for a field of the first. -/
def Depends (a b : String) : Prop :=
  ∃ t ∈ m.types, t.name = a ∧ ∃ d ∈ t.dependencies, d.2 = b

instance (a b : String) : Decidable (m.Depends a b) :=
  inferInstanceAs (Decidable (∃ t ∈ m.types, t.name = a ∧ ∃ d ∈ t.dependencies, d.2 = b))

/-- A cycle of the injection graph can be reached from a class. -/
def Cyclic (a : String) : Prop :=
  ∃ b, Relation.ReflTransGen m.Depends a b ∧ Relation.TransGen m.Depends b b

/-- No path from a class visits more than so many classes, the class itself included. -/
def Within : ℕ → String → Prop
  | 0, _ => False
  | n + 1, a => ∀ b, m.Depends a b → Within n b

/-- Every path from a class ends. -/
def Founded (a : String) : Prop := Acc (fun b a => m.Depends a b) a

variable {m} {a b : String} {n : ℕ}

lemma within_of_paths
    (short : ∀ path, List.IsChain m.Depends (a :: path) → (a :: path).length ≤ n) :
    m.Within n a := by
  induction n generalizing a with
  | zero => exact absurd (short [] (List.IsChain.singleton a)) (by simp)
  | succ n ih =>
    intro b edge
    refine ih fun path chain => ?_
    have longer := short (b :: path) (List.IsChain.cons_cons edge chain)
    simpa using longer

/-- Short paths are all that there are. -/
lemma Within.length_le {path : List String} (within : m.Within n a)
    (chain : List.IsChain m.Depends (a :: path)) : (a :: path).length ≤ n := by
  induction n generalizing a path with
  | zero => exact within.elim
  | succ n ih =>
    cases path with
    | nil => simp
    | cons b path =>
      obtain ⟨edge, chain⟩ := List.isChain_cons_cons.1 chain
      exact Nat.succ_le_succ (ih (within b edge) chain)

lemma Within.founded (within : m.Within n a) : m.Founded a := by
  induction n generalizing a with
  | zero => exact within.elim
  | succ n ih => exact Acc.intro a fun b edge => ih (within b edge)

/-- From a class from which every path ends, no cycle can be reached. -/
theorem Founded.not_cyclic (founded : m.Founded a) : ¬m.Cyclic a := by
  induction founded with
  | intro a _ ih =>
    rintro ⟨b, path, cycle⟩
    -- if the class itself is on a cycle, then so is the next class of the cycle
    rcases path.cases_head with rfl | ⟨next, edge, rest⟩
    · obtain ⟨next, edge, rest⟩ := Relation.TransGen.head'_iff.1 cycle
      exact ih next edge ⟨a, rest, cycle⟩
    · exact ih next edge ⟨b, rest, cycle⟩

/-- Such a class cannot be reached from what it depends on. -/
lemma Founded.not_reaches (founded : m.Founded a) (edge : m.Depends a b) :
    ¬Relation.ReflTransGen m.Depends b a := fun back =>
  founded.not_cyclic ⟨a, .refl, Relation.TransGen.head' edge back⟩

end Module

/-! ## Self-contained modules -/

/-- A marked constructor of a class that stores each parameter into the field of the same name, none
of which is marked. Its arguments can be counted in sixteen bits. -/
structure TypeDef.Assigning (t : TypeDef) (ctor : Method) : Prop where
  marked : ctor.isMarked = true
  assigns : ctor = { Method.assigning ctor.id t.name ctor.params with
    visibility := ctor.visibility
    markers := ctor.markers }
  names : (ctor.params.map (·.name)).Nodup
  count : ctor.params.length ≤ 65535
  stored : ∀ p ∈ ctor.params, ∃ f ∈ t.fields, f.name = p.name ∧ f.isMarked = false

/-- A module of concrete classes without supertypes. Each of them has one constructor, which assigns
its parameters, and all types that are resolved to make instances are classes of the module. -/
structure Module.SelfContained (m : Module) : Prop where
  types : (m.types.map (·.name)).Nodup
  fields : ∀ t ∈ m.types, (t.fields.map (·.name)).Nodup
  concrete : ∀ t ∈ m.types, t.isInterface = false ∧ t.isAbstract = false ∧ t.supertype = none
  constructor : ∀ t ∈ m.types, ∃ ctor, t.constructors = [ctor] ∧ t.Assigning ctor
  closed : ∀ t ∈ m.types, ∀ d ∈ t.dependencies, ∃ s ∈ m.types, s.name = d.2

namespace Module.SelfContained

variable {m : Module} {t : TypeDef}

lemma unambiguous (contained : m.SelfContained) : m.Unambiguous where
  types := contained.types
  fields := contained.fields
  constructors t ht := by
    obtain ⟨ctor, only, -⟩ := contained.constructor t ht
    simp [only]

lemma exists_of_depends {a b : String} (contained : m.SelfContained) (edge : m.Depends a b) :
    ∃ s ∈ m.types, s.name = b := by
  obtain ⟨t, member, -, d, hd, rfl⟩ := edge
  exact contained.closed t member d hd

lemma gets_factory (contained : m.SelfContained) (member : t ∈ m.types) :
    t.gets .factory = true := by
  obtain ⟨interface, abstract, -⟩ := contained.concrete t member
  obtain ⟨ctor, only, assigning⟩ := contained.constructor t member
  simp [TypeDef.gets, interface, abstract, only, assigning.marked]

lemma gets_injector (contained : m.SelfContained) (member : t ∈ m.types) :
    t.gets .injector = true ↔ t.markedFields ≠ [] := by
  obtain ⟨interface, -⟩ := contained.concrete t member
  simp [TypeDef.gets, interface, TypeDef.markedFields, List.filter_eq_nil_iff]

/-- Fields to be filled have names of their own. -/
lemma nodup_dependencies (contained : m.SelfContained) (member : t ∈ m.types) :
    (t.dependencies.map (·.1)).Nodup := by
  obtain ⟨ctor, only, assigning⟩ := contained.constructor t member
  have fields := contained.fields t member
  have parts : t.dependencies.map (·.1)
      = ctor.params.map (·.name) ++ t.markedFields.map (·.name) := by
    simp [TypeDef.dependencies, only, Function.comp_def]
  rw [parts, List.nodup_append]
  refine ⟨assigning.names, fields.sublist (List.filter_sublist.map _), ?_⟩
  -- a parameter is stored into a field that is not marked, so into none of the marked ones
  intro name hname name' hname' same
  subst same
  obtain ⟨p, hp, rfl⟩ := List.mem_map.1 hname
  obtain ⟨f, hf, named, unmarked⟩ := assigning.stored p hp
  obtain ⟨g, hg, named'⟩ := List.mem_map.1 hname'
  obtain ⟨hg, marked⟩ := List.mem_filter.1 hg
  obtain rfl := List.inj_on_of_nodup_map fields hf hg (named.trans named'.symm)
  rw [unmarked] at marked
  cases marked

end Module.SelfContained

end Weaver
