import Mathlib.Logic.Relation
import Weaver.Host.Load
import Weaver.Proofs.Host.History
import Weaver.Proofs.Lookups

/-!
# Reachable hosts

The states that a host can come to, those in the middle of a run included: running code takes its
changes one by one, and opens and closes the brackets in any order; embedding code adds containers
and modules, keeps values and takes the output.

Two things live here:

* `Host.Reaches`, which leads along every history;
* what no later state takes back: a loaded type, a registered factory, a registered injector.
-/

namespace Weaver

lemma EntryTable.find?_of_prefix {α : Type} {table table' : EntryTable α} {ty : String} {a : α}
    (longer : table <+: table') (found : table.find? ty = some a) : table'.find? ty = some a := by
  obtain ⟨entry, first, rfl⟩ := Option.map_eq_some_iff.1 found
  rw [find?, Weaver.find?_of_prefix longer first]
  rfl

lemma EntryTable.find?_append_self {α : Type} {table : EntryTable α} {ty : String}
    (free : table.find? ty = none) (a : α) : EntryTable.find? (table ++ [(ty, a)]) ty = some a := by
  rw [find?, Option.map_eq_none_iff] at free
  rw [find?, List.find?_append, free]
  simp

namespace Host

/-! ## Steps -/

/-- One step of a host, of running code or of the code that embeds the host. -/
inductive Step (h : Host) : Host → Prop where
  | change {h' : Host} (change : Change h h') : Step h h'
  | enterCall (room : h.callDepth < maxCallDepth) : Step h h.enterCall
  | leaveCall : Step h h.leaveCall
  | enterResolution (c : ContainerRef) (room : (h.container c).depth < maxResolveDepth) :
      Step h (h.enterResolution c)
  | leaveResolution (c : ContainerRef) : Step h (h.leaveResolution c)
  | markProducing (ref : BindingRef) (producing : Bool) : Step h (h.markProducing ref producing)
  | addContainer : Step h h.addContainer.2
  | addCounter : Step h h.addCounter.2
  | keep (name : String) (value : Value) : Step h (h.keep name value)
  | takeOutput : Step h { h with output := [] }
  | addModule {m : Module} {hooks : List MethodHandle}
      (planned : plan h.config.mode h.types [] m.types = .ok hooks) : Step h (h.addModule m)

/-- The second host is one that the first can come to. -/
def Reaches : Host → Host → Prop :=
  Relation.ReflTransGen Step

namespace Reaches

lemma refl (h : Host) : Reaches h h :=
  Relation.ReflTransGen.refl

lemma trans {h₁ h₂ h₃ : Host} (first : Reaches h₁ h₂) (second : Reaches h₂ h₃) : Reaches h₁ h₃ :=
  Relation.ReflTransGen.trans first second

lemma step {h h' : Host} (step : Step h h') : Reaches h h' :=
  Relation.ReflTransGen.single step

/-- Every state of a history is reached, its end among them. -/
lemma of_history {h h' : Host} (history : History h h') : Reaches h h' := by
  induction history with
  | refl h => exact refl h
  | change change => exact step (.change change)
  | trans _ _ first second => exact first.trans second
  | call room _ body => exact ((step (.enterCall room)).trans body).trans (step .leaveCall)
  | resolution c room _ body =>
    exact ((step (.enterResolution c room)).trans body).trans (step (.leaveResolution c))
  | production ref _ _ body =>
    exact ((step (.markProducing ref true)).trans body).trans (step (.markProducing ref false))

end Reaches

/-! ## What stays -/

/-- A loaded type stays what it is. -/
lemma Step.types {h h' : Host} (step : Step h h') : h.types <+: h'.types := by
  cases step with
  | change change => rw [change.keeps.types]
  | addModule => exact List.prefix_append ..
  | _ => exact List.prefix_rfl

lemma Step.factories {h h' : Host} (step : Step h h') :
    h.registry.factories <+: h'.registry.factories := by
  cases step with
  | change change => exact change.keeps.factories
  | _ => exact List.prefix_rfl

lemma Step.injectors {h h' : Host} (step : Step h h') :
    h.registry.injectors <+: h'.registry.injectors := by
  cases step with
  | change change => exact change.keeps.injectors
  | _ => exact List.prefix_rfl

namespace Reaches

variable {h h' : Host} {ty : String}

lemma types (reached : Reaches h h') : h.types <+: h'.types := by
  induction reached with
  | refl => exact List.prefix_rfl
  | tail _ step ih => exact ih.trans step.types

lemma factories (reached : Reaches h h') : h.registry.factories <+: h'.registry.factories := by
  induction reached with
  | refl => exact List.prefix_rfl
  | tail _ step ih => exact ih.trans step.factories

lemma injectors (reached : Reaches h h') : h.registry.injectors <+: h'.registry.injectors := by
  induction reached with
  | refl => exact List.prefix_rfl
  | tail _ step ih => exact ih.trans step.injectors

/-- A loaded type stays loaded as it is. -/
theorem find?_types (reached : Reaches h h') {t : LoadedType} (found : h.types.find? ty = some t) :
    h'.types.find? ty = some t :=
  find?_of_prefix reached.types found

/-- A registered factory stays registered. -/
theorem find?_factories (reached : Reaches h h') {factory : Factory}
    (found : h.registry.factories.find? ty = some factory) :
    h'.registry.factories.find? ty = some factory :=
  EntryTable.find?_of_prefix reached.factories found

/-- A registered injector stays registered. -/
theorem find?_injectors (reached : Reaches h h') {injector : Injector}
    (found : h.registry.injectors.find? ty = some injector) :
    h'.registry.injectors.find? ty = some injector :=
  EntryTable.find?_of_prefix reached.injectors found

end Reaches

end Host
end Weaver
