import Weaver.Proofs.Host.Evolution

/-!
# Sessions

What embedding code does with a host in the course of time: one operation after the other, any of
which may end in an error, after which the session just goes on. The states of a session are those
of a host that no code runs on.

A session may be confined to operations of a kind. Whatever its kind, the host comes to all of its
states, and those are reached by acts.
-/

namespace Weaver
namespace Host

/-- Operations of a kind, one after the other, whatever they end in. -/
inductive Session (kind : Host → Operation → Prop) : Host → Host → Prop where
  | refl (h : Host) : Session kind h h
  | step {h h₁ h₂ : Host} {r : Except HostError Unit} (first : Session kind h h₁) (op : Operation)
      (fits : kind h₁ op) (run : op.perform.run h₁ = some (r, h₂)) : Session kind h h₂

namespace Session

variable {kind : Host → Operation → Prop} {h h' h₁ h₂ h₃ : Host}

/-- What every operation of a session keeps, the session keeps. -/
lemma keeps (session : Session kind h h') (kept : Host → Prop) (before : kept h)
    (step : ∀ {h h' op r}, kind h op → op.perform.run h = some (r, h') → kept h → kept h') :
    kept h' := by
  induction session with
  | refl => exact before
  | step _ op fits run ih => exact step fits run ih

lemma evolves (session : Session kind h h') : h.Evolves h' :=
  session.keeps h.Evolves (.refl h) fun _ run evolves => evolves.trans (Operation.evolves run)

lemma comesTo (session : Session kind h h') (coherent : h.Coherent) : h.ComesTo h' :=
  session.keeps h.ComesTo (.refl h) fun _ run moves =>
    moves.trans ((lifeCycle_of_coherent (moves.coherent coherent)).leads run).comesTo

end Session

end Host
end Weaver
