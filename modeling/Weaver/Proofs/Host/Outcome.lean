import Mathlib.Tactic.Common
import Weaver.Host.Run

/-!
# Outcomes of runs

A run takes a host to an outcome: nothing if it used up its levels, else a value or an error together
with the host it leaves. These are the outcomes of the pieces that runs are put together from.
-/

namespace Weaver
namespace Run

variable {α β : Type}

/-! ## Pieces -/

@[simp] lemma run_pure (a : α) (h : Host) : (pure a : Run α).run h = some (.ok a, h) := rfl

@[simp] lemma run_throw (e : HostError) (h : Host) :
    (throw e : Run α).run h = some (.error e, h) := rfl

@[simp] lemma run_fault (f : ExecutionFault) (h : Host) :
    (fault f : Run α).run h = some (.error (.execution f), h) := rfl

@[simp] lemma run_exhausted (h : Host) : (exhausted : Run α).run h = none := rfl

@[simp] lemma run_get (h : Host) : (get : Run Host).run h = some (.ok h, h) := rfl

@[simp] lemma run_set (h h' : Host) : (set h' : Run PUnit).run h = some (.ok ⟨⟩, h') := rfl

@[simp] lemma run_modify (f : Host → Host) (h : Host) :
    (modify f : Run PUnit).run h = some (.ok ⟨⟩, f h) := rfl

@[simp] lemma run_get_bind (f : Host → Run β) (h : Host) : (get >>= f).run h = (f h).run h := rfl

@[simp] lemma run_set_bind (h' : Host) (f : PUnit → Run β) (h : Host) :
    (set h' >>= f).run h = (f ⟨⟩).run h' := rfl

@[simp] lemma run_modify_bind (u : Host → Host) (f : PUnit → Run β) (h : Host) :
    (modify u >>= f).run h = (f ⟨⟩).run (u h) := rfl

@[simp] lemma run_pure_bind (a : α) (f : α → Run β) (h : Host) :
    (pure a >>= f).run h = (f a).run h := rfl

@[simp] lemma run_throw_bind (e : HostError) (f : α → Run β) (h : Host) :
    ((throw e : Run α) >>= f).run h = some (.error e, h) := rfl

@[simp] lemma run_fault_bind (c : ExecutionFault) (f : α → Run β) (h : Host) :
    ((fault c : Run α) >>= f).run h = some (.error (.execution c), h) := rfl

/-! ## Sequences -/

/-- What follows on an outcome. -/
lemma run_bind (x : Run α) (f : α → Run β) (h : Host) :
    (x >>= f).run h = (x.run h).bind fun
      | (.ok a, h') => (f a).run h'
      | (.error e, h') => some (.error e, h') := by
  show (x.run h).bind _ = _
  congr 1
  funext ⟨r, h'⟩
  cases r <;> rfl

lemma run_bind_of_ok {x : Run α} {f : α → Run β} {a : α} {h h' : Host}
    (ok : x.run h = some (.ok a, h')) : (x >>= f).run h = (f a).run h' := by
  rw [run_bind, ok]; rfl

lemma run_bind_of_error {x : Run α} {f : α → Run β} {e : HostError} {h h' : Host}
    (error : x.run h = some (.error e, h')) : (x >>= f).run h = some (.error e, h') := by
  rw [run_bind, error]; rfl

/-- Sequences that begin in the same way and go on in the same way. -/
lemma run_bind_congr {x y : Run α} {f g : α → Run β} {h : Host} (first : x.run h = y.run h)
    (second : ∀ a h', y.run h = some (.ok a, h') → (f a).run h' = (g a).run h') :
    (x >>= f).run h = (y >>= g).run h := by
  rw [run_bind, run_bind, first]
  rcases outcome : y.run h with _ | ⟨_ | a, h'⟩
  · rfl
  · rfl
  · exact second a h' outcome

/-- A sequence ends well exactly when both of its parts do. -/
lemma run_bind_eq_ok_iff {x : Run α} {f : α → Run β} {b : β} {h h'' : Host} :
    (x >>= f).run h = some (.ok b, h'') ↔
      ∃ a h', x.run h = some (.ok a, h') ∧ (f a).run h' = some (.ok b, h'') := by
  rw [run_bind]
  rcases x.run h with _ | ⟨_ | a, h'⟩ <;> simp

/-- A run whose value is dropped ends as it does. -/
lemma exists_run_of_drop {x : Run α} {r : Except HostError Unit} {h h' : Host}
    (run : (x >>= fun _ => pure ()).run h = some (r, h')) : ∃ r', x.run h = some (r', h') := by
  rcases outcome : x.run h with _ | ⟨e | a, h₁⟩
  · rw [run_bind, outcome] at run
    cases run
  · rw [run_bind_of_error outcome] at run
    cases run
    exact ⟨_, rfl⟩
  · rw [run_bind_of_ok outcome] at run
    cases run
    exact ⟨_, rfl⟩

/-- As many results as there were runs. -/
lemma length_of_mapM {γ : Type} {f : γ → Run α} {l : List γ} {values : List α} {h h' : Host}
    (ok : (l.mapM f).run h = some (.ok values, h')) : values.length = l.length := by
  induction l generalizing values h with
  | nil =>
    cases ok
    rfl
  | cons c rest ih =>
    rw [List.mapM_cons, run_bind_eq_ok_iff] at ok
    obtain ⟨value, h₁, -, ok⟩ := ok
    rw [run_bind_eq_ok_iff] at ok
    obtain ⟨more, h₂, ok, last⟩ := ok
    cases last
    rw [List.length_cons, List.length_cons, ih ok]

/-! ## Errors as values -/

lemma run_attempt (x : Run α) (h : Host) :
    x.attempt.run h = (x.run h).map fun (r, h') => (.ok r, h') := rfl

lemma run_between (enter leave : Host → Host) (x : Run α) (h : Host) :
    (between enter leave x).run h
      = (x.run (enter h)).map fun (r, h') => (r, leave h') := by
  show (x.attempt >>= _).run (enter h) = _
  rw [run_bind, run_attempt]
  rcases x.run (enter h) with _ | ⟨_ | a, h'⟩ <;> rfl

end Run
end Weaver
