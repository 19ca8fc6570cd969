import Weaver.Proofs.Engine.Resolutions
import Weaver.Proofs.Engine.Rules

/-!
# Laws that hosts obey

A law is a rule that also permits resolutions: from what it says about the making of an instance,
the settling of the binding and the bracket around them, it follows for the resolution as a whole.
Whatever code runs on a host obeys every law, since the engine of a level obeys it if the one below
does.
-/

namespace Weaver

open Host

/-- What relations have to permit for code and its resolutions to obey them. A resolution that has
to make an instance does so in the bracket, and comes to the same end as the host's own one. -/
structure Host.Law (R : Host → Host → Prop) : Prop extends Host.Rule R where
  resolution {h h₁ h₂ : Host} {c : ContainerRef} {ty : String} {ref : BindingRef}
    {r : Except HostError Value} :
    h.bindingFor? c ty = some ref → (h.container c).depth < maxResolveDepth →
    (h.binding ref).resolved = false → (h.binding ref).producing = false →
    R (h.enterProduction c ref) h₁ → Engine.Settles ref h₁ r h₂ →
    (Host.resolve c ty).run h = some (r, h₂.leaveProduction c ref) →
    R h (h₂.leaveProduction c ref)

namespace Engine

open Run

variable {R : Host → Host → Prop} {e : Engine} {c : ContainerRef} {ty : String} {h : Host}

lemma Obeys.make (rule : Rule R) (obeys : e.Obeys R) (b : Binding) :
    ObeysAt R h (e.make c ty b) := by
  refine rule.bind (obeys.produce rule c b) fun produced _ =>
    rule.bind (Obeys.checkInstance rule produced ty) fun _ _ =>
    rule.bind (rule.injectorOf? ty) fun injector _ => ?_
  cases injector with
  | none => exact rule.pure _
  | some injector =>
    exact rule.bind (obeys.runInjector rule injector produced c) fun _ _ => rule.pure _

/-- Engines of any level obey a law. -/
lemma obeys_ofLevel (law : Law R) (n : ℕ) : (ofLevel n).Obeys R := by
  induction n with
  | zero => exact ⟨fun _ _ _ _ => .exhausted, fun _ _ _ => .exhausted⟩
  | succ n ih =>
    refine ⟨fun h owner method args => ih.callNext law.toRule owner method args,
      fun h c ty r h' run => ?_⟩
    -- the host by itself would have come to the same end
    have whole : (Host.resolve c ty).run h = some (r, h') :=
      (((agree_unlimited (n + 1)).resolve h c ty).same run).1
    rcases resolve_cases run with ⟨rfl, -⟩ |
      ⟨ref, r₁, h₁, h₂, found, room, unresolved, idle, made, settled, rfl⟩
    · exact law.refl _
    · exact law.resolution found room unresolved idle (ih.make law.toRule _ made) settled whole

/-- Code that starts an engine obeys a law if it does so over every engine that obeys it. -/
lemma obeysAt_withEngine (law : Law R) {α : Type} {code : Engine → Run α}
    (obeys : ∀ {e : Engine}, e.Obeys R → ObeysAt R h (code e)) :
    ObeysAt R h (Host.withEngine code) := by
  intro r h' run
  rw [run_withEngine] at run
  exact obeys (obeys_ofLevel law _) run

lemma obeys_unlimited (law : Law R) : unlimited.Obeys R where
  call h owner method args := obeysAt_withEngine law fun obeys => obeys.call h owner method args
  resolve h c ty := obeysAt_withEngine law fun obeys => obeys.resolve h c ty

end Engine

end Weaver
