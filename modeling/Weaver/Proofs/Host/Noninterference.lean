import Weaver.Proofs.Engine.Blindness

/-!
# Private fields do not interfere

What private fields of a type hold makes no difference to anyone but the type itself. A host answers
the same, prints the same and goes on from the same state, but for these fields; and nobody else
changes what they hold. Embedding code is bound to no checks. It may fill a private field by an
injector of its own, so runs are asked not to come to such an injector.

Two things live here:

* `Host.twins_putDeclared`, how hosts come to differ in a private field;
* `Demand.noninterference`, that they answer the same, and `Host.exists_intruder`, that an injector of
  embedding code may store where the code of modules may not.
-/

namespace Weaver

open Host

variable {t : TypeDef} {h h' g : Host}

/-- What a private field holds has no influence outside of its type. From two hosts that differ in
such fields only, the same demand is answered in the same way, outside of the type as well, and
leaves two hosts that differ in such fields only. In each of the two runs they hold in the end what
they held before. -/
theorem Demand.noninterference {demand : Demand} {r : Except HostError (Option Value)}
    (guards : h.Guards t) (twins : h.Twins t g) (ends : demand.EndsOutside t h r h') :
    demand.answer.run h = some (r, h') ∧
    ∃ g', demand.EndsOutside t g r g' ∧ demand.answer.run g = some (r, g') ∧
      h'.output = g'.output ∧ h'.Guards t ∧ h'.Twins t g' ∧
      h.KeepsHidden t h' ∧ g.KeepsHidden t g' := by
  obtain ⟨n, run⟩ := id ends
  have blind := Engine.blind_outsideLevel t n
  have same : Run.BlindAt t h g (demand.answerOutside t n) (demand.answerOutside t n)
      Run.BlindAt.anything := by
    cases demand with
    | invoke owner method args => exact blind.invoke owner method args
    | resolve c ty => exact (blind.resolve h g c ty).map some
    | inject c instance_ => exact (blind.injectWith c instance_).map fun _ => none
  obtain ⟨g', other, paired, -⟩ := same guards twins run
  have ends' : demand.EndsOutside t g r g' := ⟨n, other⟩
  have output : h'.output = g'.output := by rw [paired.twins.parts]
  exact ⟨ends.answer, g', ends', ends'.answer, output, paired.guards, paired.twins, paired.first,
    paired.second⟩

namespace Host

/-- A host without registered entries and without a fallback. -/
lemma guards_of_registry (loaded : h.typeDef? t.name = some t) (empty : h.registry = {}) :
    h.Guards t := by
  refine ⟨loaded, ?_, ?_, ?_⟩ <;> simp [empty]

/-- Storing into a private field makes a difference that only the type can see. -/
lemma twins_putDeclared {ref : ObjectRef} {owner name : String}
    (hides : t.Hides (h.shape ref).2 ((h.shape ref).2.findIdx (· == (owner, name))))
    (value : Value) : h.Twins t (h.putDeclared ref owner name value) where
  parts := rfl
  size := by simp [putDeclared]
  shape ref' := shape_putDeclared h ref owner name value ref'
  slots ref' k apart := by
    rw [slotAt?_putDeclared, if_neg]
    rintro ⟨rfl, rfl⟩
    exact apart hides

/-! ### A vault -/

/-- A type with a private and a public field, and one with a method that shows a vault around. -/
def bank : Module where
  name := "Bank"
  types := [
    { id := .numbered 1, name := "Bank.Vault", visibility := .everywhere
      fields := [
        { id := .numbered 2, name := "code", ty := intType, visibility := .ownType },
        { id := .numbered 3, name := "label", ty := stringType, visibility := .everywhere }] },
    { id := .numbered 4, name := "Bank.Guard", visibility := .everywhere
      methods := [
        { id := .numbered 5, name := "Show", visibility := .everywhere, isStatic := true
          params := [{ name := "vault", ty := "Bank.Vault" }]
          returnType := some "Bank.Vault"
          body := [.loadArg 0, .loadField "Bank.Vault" "label", .print, .loadArg 0, .print,
            .loadArg 0, .ret] }] }]

/-- The type of vaults. -/
def vault : TypeDef := bank.types[0]

/-- A host with one vault, whose code was never set. -/
def branch : Host :=
  (((Host.new {}).addModule bank).allocate {
    ty := "Bank.Vault"
    slots := [
      { owner := "Bank.Vault", name := "code", value := .int 0 },
      { owner := "Bank.Vault", name := "label", value := .text "north" }] }).2

lemma guards_branch : branch.Guards vault :=
  guards_of_registry rfl rfl

/-- The guard shows a vault around in the same way whatever its code. -/
theorem noninterference_branch :
    branch.Guards vault ∧ branch.Twins vault (branch.putDeclared ⟨0⟩ "Bank.Vault" "code" (.int 7)) ∧
    ∃ h', (Demand.invoke "Bank.Guard" "Show" [.object ⟨0⟩]).EndsOutside vault branch
        (.ok (some (.object ⟨0⟩))) h' ∧
      h'.output = ["north", "<Bank.Vault>"] ∧
      ∃ g', (Demand.invoke "Bank.Guard" "Show" [.object ⟨0⟩]).answer.run
          (branch.putDeclared ⟨0⟩ "Bank.Vault" "code" (.int 7))
          = some (.ok (some (.object ⟨0⟩)), g') ∧
        h'.output = g'.output ∧ h'.Twins vault g' := by
  have twins : branch.Twins vault (branch.putDeclared ⟨0⟩ "Bank.Vault" "code" (.int 7)) :=
    twins_putDeclared ⟨"code", _, rfl, rfl, rfl⟩ _
  have ends : (Demand.invoke "Bank.Guard" "Show" [.object ⟨0⟩]).EndsOutside vault branch
      (.ok (some (.object ⟨0⟩))) { branch with output := ["north", "<Bank.Vault>"] } := ⟨1, rfl⟩
  obtain ⟨-, g', -, answered, output, -, twins', -, -⟩ :=
    Demand.noninterference guards_branch twins ends
  exact ⟨guards_branch, twins, _, ends, rfl, g', answered, output, twins'⟩

/-- The branch with an injector of embedding code, that sets the code of a vault. -/
def robbed : Host :=
  { branch with
    registry.injectors := [("Bank.Vault", .supplied {
      steps := [.assign "Bank.Vault" "code" (.give (.fixed (.int 1)))], counter := ⟨0⟩ })] }

/-- An injector of embedding code stores into a private field. It needs no engine that can call or
resolve, so neither a method nor a factory is run. -/
theorem exists_intruder :
    robbed.typeDef? vault.name = some vault ∧ robbed.registry.fallback = none ∧
    robbed.Twins vault robbed ∧
    ∃ h', ((Engine.ofLevel 0).inject ⟨0⟩ (.object ⟨0⟩)).run robbed = some (.ok ⟨⟩, h') ∧
      (Demand.inject ⟨0⟩ (.object ⟨0⟩)).answer.run robbed = some (.ok none, h') ∧
      ¬robbed.KeepsHidden vault h' := by
  refine ⟨rfl, rfl, ⟨rfl, rfl, fun _ => rfl, fun _ _ _ => rfl⟩, _, rfl, rfl, fun keeps => ?_⟩
  have same := keeps.slots ⟨0⟩ 0 (by decide) ⟨"code", _, rfl, rfl, rfl⟩
  exact absurd same (by decide)

end Host
end Weaver
