import Weaver.Proofs.Engine.Likeness
import Weaver.Proofs.Host.Ancestry
import Weaver.Proofs.Host.Scripts

/-!
# Dormant bindings

A binding of a type that was declared when its container had one for the type already never comes to
decide anything. Whatever it is given and however it is configured, everything else goes on as if it
had never been declared: all answers are the same, and so is all that the host comes to hold.

Three things live here:

* `Host.SameBut`, two hosts that differ in nothing but one such binding, and `Host.sameButOne`, that
  code takes the same course on them;
* `Line.without`, a script without the lines on a variable;
* `Desk.unobserved`, that what is left of a script is answered as before.
-/

namespace Weaver

/-! ## One binding more -/

/-- The binding in the place of another one, on a host that has one more. -/
def BindingRef.skip (extra ref : BindingRef) : BindingRef :=
  if ref.index < extra.index then ref else ⟨ref.index + 1⟩

namespace BindingRef

variable {extra ref ref' : BindingRef}

lemma skip_of_lt (before : ref.index < extra.index) : extra.skip ref = ref := if_pos before

lemma skip_of_le (behind : extra.index ≤ ref.index) : extra.skip ref = ⟨ref.index + 1⟩ :=
  if_neg (Nat.not_lt_of_le behind)

lemma skip_ne : extra.skip ref ≠ extra := by
  rintro same
  have same := congrArg BindingRef.index same
  rw [skip] at same
  split at same
  · omega
  · simp only at same
    omega

lemma skip_inj : extra.skip ref = extra.skip ref' ↔ ref = ref' := by
  refine ⟨fun same => ?_, congrArg _⟩
  have same := congrArg BindingRef.index same
  obtain ⟨i⟩ := ref
  obtain ⟨j⟩ := ref'
  rw [skip, skip] at same
  split at same <;> split at same <;> simp only at * <;> congr 1 <;> omega

/-- Every binding but the extra one is in the place of another. -/
lemma exists_skip (other : ref ≠ extra) : ∃ ref', extra.skip ref' = ref := by
  obtain ⟨i⟩ := ref
  obtain ⟨j⟩ := extra
  have other : i ≠ j := fun same => other (congrArg _ same)
  rcases Nat.lt_or_gt_of_ne other with before | behind
  · exact ⟨⟨i⟩, skip_of_lt before⟩
  · exact ⟨⟨i - 1⟩, by rw [skip_of_le (Nat.le_sub_one_of_lt behind)]; congr 1; simp only; omega⟩

lemma index_skip_lt {n : ℕ} (valid : extra.index ≤ n) :
    (extra.skip ref).index < n + 1 ↔ ref.index < n := by
  rw [skip]
  split
  · omega
  · simp only
    omega

end BindingRef

namespace Host

open BindingRef

variable {h g h' g' : Host} {extra : BindingRef} {c : ContainerRef} {ty : String}

/-- An entry in the place of another one. -/
def moved (extra : BindingRef) (entry : String × BindingRef) : String × BindingRef :=
  (entry.1, extra.skip entry.2)

/-- The first list has one entry more, somewhere behind one for the same type. -/
def Behind (extra : BindingRef) (ty : String) (entries others : List (String × BindingRef)) :
    Prop :=
  ∃ earlier later, others = earlier ++ later ∧ ty ∈ earlier.map (·.1) ∧
    entries = earlier.map (moved extra) ++ (ty, extra) :: later.map (moved extra)

/-- The first host has one binding more, which its container has declared for a type that it had a
binding for. -/
structure SameBut (extra : BindingRef) (c : ContainerRef) (ty : String) (h g : Host) : Prop where
  parts : g = { h with containers := g.containers, bindings := g.bindings }
  size : h.bindings.size = g.bindings.size + 1
  valid : extra.index ≤ g.bindings.size
  binding (ref : BindingRef) : h.binding (extra.skip ref) = g.binding ref
  containers : g.containers.size = h.containers.size
  depth (c' : ContainerRef) : (g.container c').depth = (h.container c').depth
  own : Behind extra ty (h.container c).bindings (g.container c).bindings
  others {c' : ContainerRef} : c' ≠ c →
    (h.container c').bindings = (g.container c').bindings.map (moved extra)

namespace SameBut

lemma callDepth (same : SameBut extra c ty h g) : g.callDepth = h.callDepth := by
  rw [same.parts]

lemma of_eq (same : SameBut extra c ty h g)
    (parts : g' = { h' with containers := g'.containers, bindings := g'.bindings })
    (containers : h'.containers = h.containers) (containers' : g'.containers = g.containers)
    (bindings : h'.bindings = h.bindings) (bindings' : g'.bindings = g.bindings) :
    SameBut extra c ty h' g' where
  parts := parts
  size := by rw [bindings, bindings', same.size]
  valid := by rw [bindings']; exact same.valid
  binding ref := by
    rw [Host.binding, Host.binding, bindings, bindings']
    exact same.binding ref
  containers := by rw [containers, containers', same.containers]
  depth c' := by
    rw [container, container, containers, containers']
    exact same.depth c'
  own := by
    rw [container, container, containers, containers']
    exact same.own
  others other := by
    rw [container, container, containers, containers']
    exact same.others other

lemma updateBinding (same : SameBut extra c ty h g) (ref : BindingRef) (f : Binding → Binding) :
    SameBut extra c ty (h.updateBinding (extra.skip ref) f) (g.updateBinding ref f) where
  parts := by
    rw [same.parts]
    rfl
  size := by rw [size_updateBinding, size_updateBinding, same.size]
  valid := by rw [size_updateBinding]; exact same.valid
  binding ref' := by
    simp only [binding_updateBinding, skip_inj, same.size, index_skip_lt same.valid, same.binding]
  containers := same.containers
  depth := same.depth
  own := same.own
  others := same.others

/-- What is done to the extra binding makes no difference. -/
lemma updateExtra (same : SameBut extra c ty h g) (f : Binding → Binding) :
    SameBut extra c ty (h.updateBinding extra f) g where
  parts := same.parts
  size := by rw [size_updateBinding, same.size]
  valid := same.valid
  binding ref := by rw [binding_updateBinding_of_ne skip_ne.symm, same.binding]
  containers := same.containers
  depth := same.depth
  own := same.own
  others := same.others

lemma updateContainer (same : SameBut extra c ty h g) (c' : ContainerRef)
    {f : Container → Container} (bindings : ∀ c, (f c).bindings = c.bindings)
    (depth : ∀ c c', c'.depth = c.depth → (f c').depth = (f c).depth) :
    SameBut extra c ty (h.updateContainer c' f) (g.updateContainer c' f) where
  parts := by
    rw [same.parts]
    rfl
  size := same.size
  valid := same.valid
  binding := same.binding
  containers := by rw [size_updateContainer, size_updateContainer, same.containers]
  depth c'' := by
    rw [container_updateContainer, container_updateContainer, same.containers]
    split
    · exact depth _ _ (same.depth c'')
    · exact same.depth c''
  own := by
    rw [bindings_updateContainer bindings, bindings_updateContainer bindings]
    exact same.own
  others other := by
    rw [bindings_updateContainer bindings, bindings_updateContainer bindings]
    exact same.others other

/-- The newest binding is the extra one no more. -/
lemma fst_bind (same : SameBut extra c ty h g) (c' : ContainerRef) (ty' : String) :
    (h.bind c' ty').1 = extra.skip (g.bind c' ty').1 := by
  rw [skip_of_le (by exact same.valid)]
  exact congrArg BindingRef.mk same.size

lemma bind (same : SameBut extra c ty h g) (c' : ContainerRef) (ty' : String) :
    SameBut extra c ty (h.bind c' ty').2 (g.bind c' ty').2 where
  parts := by
    rw [same.parts]
    rfl
  size := by rw [bindings_bind, bindings_bind, Array.size_push, Array.size_push, same.size]
  valid := by
    rw [bindings_bind, Array.size_push]
    exact Nat.le_succ_of_le same.valid
  binding ref := by
    have new := same.fst_bind c' ty'
    rcases Nat.lt_trichotomy ref.index g.bindings.size with old | last | beyond
    · have old' : (extra.skip ref).index < h.bindings.size := by
        rw [same.size, index_skip_lt same.valid]
        exact old
      rw [binding_bind_of_lt old, binding_bind_of_lt old', same.binding]
    · obtain rfl : ref = (g.bind c' ty').1 := congrArg BindingRef.mk last
      rw [← new, binding_bind_self, binding_bind_self]
    · have beyond' : (g.bind c' ty').2.bindings.size ≤ ref.index := by
        rw [bindings_bind, Array.size_push]
        exact beyond
      have beyond : (h.bind c' ty').2.bindings.size ≤ (extra.skip ref).index := by
        rw [bindings_bind, Array.size_push, same.size, skip_of_le (same.valid.trans beyond.le)]
        exact Nat.succ_le_succ beyond
      rw [binding_of_size_le beyond, binding_of_size_le beyond']
  containers := by
    show (g.containers.modify _ _).size = (h.containers.modify _ _).size
    rw [Array.size_modify, Array.size_modify, same.containers]
  depth c'' := by
    rw [container_bind, container_bind, same.containers]
    split
    · exact same.depth c''
    · exact same.depth c''
  own := by
    rw [container_bind, container_bind, same.containers]
    split
    · obtain ⟨earlier, later, split_, known, split⟩ := same.own
      refine ⟨earlier, later ++ [(ty', (g.bind c' ty').1)], ?_, known, ?_⟩
      · rw [split_, List.append_assoc]
      · rw [split, same.fst_bind c' ty']
        simp [moved]
    · exact same.own
  others other := by
    rw [container_bind, container_bind, same.containers]
    split
    · rw [same.others other, same.fst_bind c' ty', List.map_append]
      rfl
    · exact same.others other

/-! ### What is found -/

lemma map_filter_moved (entries : List (String × BindingRef)) (ty' : String) :
    ((entries.map (moved extra)).filter (·.1 == ty')).map (·.2)
      = ((entries.filter (·.1 == ty')).map (·.2)).map extra.skip := by
  rw [List.filter_map, List.map_map, List.map_map]
  rfl

/-- But for its own type in its own container, the extra binding is not listed. -/
lemma bindingsFor (same : SameBut extra c ty h g) {c' : ContainerRef} {ty' : String}
    (other : c' ≠ c ∨ ty' ≠ ty) :
    h.bindingsFor c' ty' = (g.bindingsFor c' ty').map extra.skip := by
  rw [Host.bindingsFor, Host.bindingsFor]
  by_cases own : c' = c
  · subst own
    have other : ty ≠ ty' := fun same => (other.resolve_left fun ne => ne rfl) same.symm
    obtain ⟨earlier, later, split', -, split⟩ := same.own
    rw [split, split', List.filter_append, List.filter_append,
      List.filter_cons_of_neg (by simpa using other), List.map_append, List.map_append,
      List.map_append, map_filter_moved, map_filter_moved]
  · rw [same.others own, map_filter_moved]

/-- The first binding of a type is never the extra one. -/
lemma head?_bindingsFor (same : SameBut extra c ty h g) (c' : ContainerRef) (ty' : String) :
    (h.bindingsFor c' ty').head? = (g.bindingsFor c' ty').head?.map extra.skip := by
  by_cases other : c' ≠ c ∨ ty' ≠ ty
  · rw [same.bindingsFor other, List.head?_map]
  · obtain ⟨rfl, rfl⟩ : c' = c ∧ ty' = ty := by
      rw [not_or, not_not, not_not] at other
      exact other
    obtain ⟨earlier, later, split', known, split⟩ := same.own
    -- there is an entry of the type in front of it
    obtain ⟨entry, first, rfl⟩ := List.mem_map.1 known
    have some_ : (earlier.filter (·.1 == entry.1)).map (·.2) ≠ [] :=
      List.map_eq_nil_iff.not.2 (List.ne_nil_of_mem (List.mem_filter.2 ⟨first, beq_self_eq_true _⟩))
    rw [Host.bindingsFor, Host.bindingsFor, split, split', List.filter_append, List.filter_append,
      List.map_append, List.map_append, map_filter_moved,
      List.head?_append_of_ne_nil _ (List.map_eq_nil_iff.not.2 some_),
      List.head?_append_of_ne_nil _ some_, List.head?_map]

lemma bindingFor? (same : SameBut extra c ty h g) (c' : ContainerRef) (ty' : String) :
    h.bindingFor? c' ty' = (g.bindingFor? c' ty').map extra.skip := by
  have types : g.types = h.types := by rw [same.parts]
  rw [Host.bindingFor?, Host.bindingFor?, types]
  induction h.types.chain maxHierarchyDepth ty' with
  | nil => rfl
  | cons name rest ih =>
    rw [List.findSome?_cons, List.findSome?_cons, same.head?_bindingsFor]
    cases (g.bindingsFor c' name).head? with
    | none => exact ih
    | some ref => rfl

/-- Nor is its type a new one. -/
lemma boundTypes (same : SameBut extra c ty h g) (c' : ContainerRef) :
    h.boundTypes c' = g.boundTypes c' := by
  have names (entries : List (String × BindingRef)) :
      (entries.map (moved extra)).map (·.1) = entries.map (·.1) := by
    rw [List.map_map]
    rfl
  have dups : ((h.container c').bindings.map (·.1)).eraseDups
      = ((g.container c').bindings.map (·.1)).eraseDups := by
    by_cases own : c' = c
    · subst own
      obtain ⟨earlier, later, split', known, split⟩ := same.own
      rw [split, split', List.map_append, List.map_append, List.map_cons, names, names,
        List.eraseDups_append, List.eraseDups_append, List.cons_removeAll,
        if_neg (by simpa using known)]
    · rw [same.others own, names]
  rw [Host.boundTypes, Host.boundTypes, dups]

end SameBut

/-- Code does not notice the extra binding. -/
def sameButOne (extra : BindingRef) (c : ContainerRef) (ty : String) : Likeness where
  Alike := SameBut extra c ty
  Twins ref ref' := ref = extra.skip ref'
  Excuses _ := False
  fatal := nofun
  parts same := by
    rw [same.callDepth]
    exact same.parts
  size same := same.containers
  update {h g u} neutral same := by
    refine same.of_eq ?_ (neutral.containers h) (neutral.containers g) (neutral.bindings h)
      (neutral.bindings g)
    rw [neutral.containers, neutral.bindings]
    calc u g = u { h with containers := g.containers, bindings := g.bindings } :=
          congrArg u same.parts
      _ = { u h with
            containers := g.containers, bindings := g.bindings, callDepth := h.callDepth } :=
          neutral h g.containers g.bindings h.callDepth
      _ = { u h with containers := g.containers, bindings := g.bindings } := by
          rw [← neutral.callDepth h]
  bind c' ty' same := ⟨same.bind c' ty', same.fst_bind c' ty'⟩
  enterCall same room := by
    refine ⟨by rw [same.callDepth]; exact room, same.of_eq ?_ rfl rfl rfl rfl⟩
    rw [same.parts]
    rfl
  leaveCall same := by
    refine same.of_eq ?_ rfl rfl rfl rfl
    rw [same.parts]
    rfl
  callTooDeep ty method same deep room := by
    rw [same.callDepth] at room
    exact absurd room (Nat.not_lt_of_le deep)
  enterResolution {h g c'} same room := by
    refine ⟨by rw [same.depth]; exact room, same.updateContainer c' (fun _ => rfl) ?_⟩
    intro c c' same
    exact congrArg (· + 1) same
  leaveResolution c' same := by
    refine same.updateContainer c' (fun _ => rfl) ?_
    intro c c' same
    exact congrArg (· - 1) same
  resolutionTooDeep ty same deep room := by
    rw [same.depth] at room
    exact absurd room (Nat.not_lt_of_le deep)
  bindingFor c' ty' same := by
    rw [same.bindingFor? c' ty']
    cases Host.bindingFor? _ c' ty' with
    | none => exact .none
    | some ref => exact .some rfl
  binding same twins := by rw [twins, same.binding]
  updateBinding f same twins := by
    rw [twins]
    exact same.updateBinding _ f

/-! ## Declaring a dormant binding -/

lemma map_moved_of_lt {entries : List (String × BindingRef)}
    (before : ∀ entry ∈ entries, entry.2.index < extra.index) :
    entries.map (moved extra) = entries := by
  refine (List.map_congr_left fun entry listed => ?_).trans (List.map_id entries)
  rw [moved, skip_of_lt (before entry listed)]
  rfl

/-- A binding that has just been declared for a type that its container has a binding for. -/
lemma sameBut_bind (coherent : h.Coherent) (bound : h.bindingsFor c ty ≠ []) :
    SameBut (h.bind c ty).1 c ty (h.bind c ty).2 h where
  parts := rfl
  size := by rw [bindings_bind, Array.size_push]
  valid := Nat.le_refl _
  binding ref := by
    rcases Nat.lt_or_ge ref.index h.bindings.size with old | beyond
    · rw [skip_of_lt (by exact old), binding_bind_of_lt old]
    · rw [skip_of_le (by exact beyond), binding_of_size_le beyond, binding_of_size_le]
      rw [bindings_bind, Array.size_push]
      exact Nat.succ_le_succ beyond
  containers := by
    show _ = (h.containers.modify _ _).size
    rw [Array.size_modify]
  depth c' := by
    rw [container_bind]
    split <;> rfl
  own := by
    obtain ⟨ref, listed⟩ := List.exists_mem_of_ne_nil _ bound
    obtain ⟨entry, listed, -⟩ := List.mem_map.1 listed
    obtain ⟨listed, named⟩ := List.mem_filter.1 listed
    have valid : c.index < h.containers.size := by
      by_contra invalid
      rw [container_of_size_le (Nat.le_of_not_lt invalid)] at listed
      cases listed
    refine ⟨(h.container c).bindings, [], (List.append_nil _).symm,
      List.mem_map.2 ⟨entry, listed, by simpa using named⟩, ?_⟩
    have still : (h.container c).bindings.map (moved (h.bind c ty).1) = (h.container c).bindings :=
      map_moved_of_lt fun entry => coherent.valid c
    rw [container_bind, if_pos ⟨rfl, valid⟩, still]
    rfl
  others {c'} other := by
    rw [container_bind, if_neg fun same => other same.1.symm]
    exact (map_moved_of_lt fun entry => coherent.valid c').symm

lemma SameBut.prepareStep (same : SameBut extra c ty h g) (step : BindingStep) :
    SameBut extra c ty (h.prepareStep step) (g.prepareStep step) := by
  cases step with
  | fromInstance source => exact (sameButOne extra c ty).obtain same source
  | fromFactory recipe =>
    exact (sameButOne extra c ty).update (u := fun h => h.addCounter.2) (fun _ _ _ _ => rfl) same
  | _ => exact same

/-- A configuration of the extra binding does no more than to make what it takes. -/
lemma SameBut.configureExtra (same : SameBut extra c ty h g) (step : BindingStep) :
    SameBut extra c ty (h.configureStep extra step) (g.prepareStep step) := by
  have made := same.prepareStep step
  cases step with
  | _ => exact made.updateExtra _

lemma SameBut.addContainer (same : SameBut extra c ty h g) :
    SameBut extra c ty h.addContainer.2 g.addContainer.2 where
  parts := by
    rw [same.parts]
    rfl
  size := same.size
  valid := same.valid
  binding := same.binding
  containers := by
    show (g.containers.push _).size = (h.containers.push _).size
    rw [Array.size_push, Array.size_push, same.containers]
  depth c' := by
    rw [container_addContainer, container_addContainer]
    exact same.depth c'
  own := by
    rw [container_addContainer, container_addContainer]
    exact same.own
  others other := by
    rw [container_addContainer, container_addContainer]
    exact same.others other

/-! ## Scripts -/

/-- An operation that takes no handle does not notice the extra binding. -/
lemma alikeAt_answer (op : Operation) (plain : ∀ ref step, op ≠ .configure ref step) :
    Run.AlikeAt (sameButOne extra c ty) h g op.answer op.answer := by
  cases op with
  | addContainer =>
    refine .get_bind fun same => ?_
    have new : g.addContainer.1 = h.addContainer.1 := congrArg ContainerRef.mk same.containers
    dsimp only
    rw [new]
    exact .set_bind SameBut.addContainer (.pure _)
  | bind c' ty' => exact .bind (.change fun same => same.bind c' ty') fun _ _ _ => .pure _
  | configure ref step => exact absurd rfl (plain ref step)
  | load m => exact .bind (Engine.alikeAt_load _ m h g) fun _ _ _ => .pure _
  | resolve c' ty' =>
    exact .bind (Engine.alikeAt_withEngine fun alike => alike.resolve _ _ c' ty')
      fun _ _ _ => .pure _
  | tryResolve c' ty' =>
    exact .bind (Engine.alikeAt_withEngine fun alike => alike.tryResolve c' ty')
      fun _ _ _ => .pure _
  | inject c' value =>
    exact .bind (Engine.alikeAt_withEngine fun alike => alike.inject c' value) fun _ _ _ => .pure _
  | tryInject c' value =>
    exact .bind (Engine.alikeAt_withEngine fun alike =>
      .bind (.orNone (alike.inject c' value)) fun _ _ _ => .pure _) fun _ _ _ => .pure _
  | invoke owner method args =>
    exact .bind (Engine.alikeAt_withEngine fun alike => alike.invoke owner method args)
      fun _ _ _ => .pure _
  | registerFactory ty' factory => exact .bind (.registerFactory ty' factory) fun _ _ _ => .pure _
  | registerInjector ty' injector =>
    exact .bind (.registerInjector ty' injector) fun _ _ _ => .pure _
  | keep name value => exact .bind (.update fun _ _ _ _ => rfl) fun _ _ _ => .pure _
  | takeOutput =>
    exact .read (fun _ _ _ => rfl) (.bind (.update fun _ _ _ _ => rfl) fun _ _ _ => .pure _)

/-- The line without what it does to the handle in a variable. A configuration call is left out,
what it takes is still made. -/
def Line.without (x : String) : Line → Line
  | .configure handle step => if handle = x then .prepare step else .configure handle step
  | .inspect handle => if handle = x then .idle else .inspect handle
  | line => line

/-- The line puts a handle into the variable. -/
def Line.Binds (x : String) : Line → Prop
  | .bind handle _ _ => handle = x
  | _ => False

/-- The line asks for the state of the binding in the variable, or for the number of bindings that
the container has for the type. -/
def Line.Asks (x : String) (c : ContainerRef) (ty : String) : Line → Prop
  | .inspect handle => handle = x
  | .bindingsFor c' ty' => c' = c ∧ ty' = ty
  | _ => False

namespace Desk

variable {x : String} {s s' s₁ : Desk} {line : Line} {r : Except HostError Answer}

/-- The first desk has one binding more, with its handle in the variable. Other variables refer to
the same bindings. -/
structure SameBut (x : String) (extra : BindingRef) (c : ContainerRef) (ty : String)
    (s s' : Desk) : Prop where
  host : Host.SameBut extra c ty s.host s'.host
  own : s.handle? x = some extra
  others {y : String} : y ≠ x → s.handle? y = (s'.handle? y).map extra.skip

namespace SameBut

/-- A line that does not bind takes the same course. -/
lemma of_alike {line' : Line} (same : SameBut x extra c ty s s')
    (alike : Run.AlikeAt (sameButOne extra c ty) s.host s'.host (s.answer line) (s'.answer line'))
    (handles : s.handlesAfter line = s.handles) (handles' : s'.handlesAfter line' = s'.handles)
    (performed : s.perform line = some (r, s₁)) :
    ∃ s₁', s'.perform line' = some (r, s₁') ∧ SameBut x extra c ty s₁ s₁' := by
  obtain ⟨run, after⟩ := perform_eq_some_iff.1 performed
  rcases alike same.host run with ⟨e, -, excused⟩ | ⟨g, run', host⟩
  · exact False.elim excused
  · rw [handles] at after
    refine ⟨⟨g, s'.handles⟩, perform_eq_some_iff.2 ⟨run', handles'.symm⟩, host, ?_, fun other => ?_⟩
    · rw [handle?, after]
      exact same.own
    · rw [handle?, after]
      exact same.others other

/-- What is known of a variable is known of the other desk. -/
lemma handle?_ne (same : SameBut x extra c ty s s') {y : String} (other : y ≠ x) :
    (s.handle? y = none ∧ s'.handle? y = none) ∨
      ∃ ref, s.handle? y = some (extra.skip ref) ∧ s'.handle? y = some ref := by
  have known := same.others other
  cases found : s'.handle? y with
  | none => exact .inl ⟨by rw [known, found]; rfl, rfl⟩
  | some ref => exact .inr ⟨ref, by rw [known, found]; rfl, rfl⟩

lemma bind (same : SameBut x extra c ty s s') {handle : String} (other : handle ≠ x)
    (c' : ContainerRef) (ty' : String)
    (performed : s.perform (.bind handle c' ty') = some (r, s₁)) :
    ∃ s₁', s'.perform (.bind handle c' ty') = some (r, s₁') ∧ SameBut x extra c ty s₁ s₁' := by
  cases performed
  refine ⟨_, rfl, same.host.bind c' ty', ?_, fun {y} ne => ?_⟩
  · rw [handlesAfter, handle?_cons, if_neg other]
    exact same.own
  · rw [handlesAfter, handlesAfter, handle?_cons, handle?_cons]
    split
    · exact congrArg some (same.host.fst_bind c' ty')
    · exact same.others ne

/-- A line does the same on both desks, and is answered in the same way but for two questions. -/
lemma perform (same : SameBut x extra c ty s s') (keeps : ¬line.Binds x)
    (performed : s.perform line = some (r, s₁)) :
    ∃ r' s₁', s'.perform (line.without x) = some (r', s₁') ∧ SameBut x extra c ty s₁ s₁' ∧
      (¬line.Asks x c ty → r' = r) := by
  -- most lines are answered in the same way
  suffices (∃ s₁', s'.perform (line.without x) = some (r, s₁') ∧ SameBut x extra c ty s₁ s₁') ∨
      line.Asks x c ty ∧ ∃ r' s₁', s'.perform (line.without x) = some (r', s₁') ∧
        SameBut x extra c ty s₁ s₁' by
    rcases this with ⟨s₁', performed, same⟩ | ⟨asks, r', s₁', performed, same⟩
    · exact ⟨r, s₁', performed, same, fun _ => rfl⟩
    · exact ⟨r', s₁', performed, same, fun spared => absurd asks spared⟩
  cases line with
  | bind handle c' ty' => exact .inl (same.bind keeps c' ty' performed)
  | configure handle step =>
    refine .inl (same.of_alike ?_ rfl (by rw [Line.without]; split <;> rfl) performed)
    by_cases own : handle = x
    · subst own
      rw [Line.without, if_pos rfl, answer, same.own]
      exact .bind (.change fun same => same.configureExtra step) fun _ _ _ => .pure _
    · rw [Line.without, if_neg own, answer, answer]
      rcases same.handle?_ne own with ⟨unknown, unknown'⟩ | ⟨ref, known, known'⟩
      · rw [unknown, unknown']
        exact .pure _
      · rw [known, known']
        exact .bind (.change fun same => (sameButOne extra c ty).configureStep same rfl step)
          fun _ _ _ => .pure _
  | prepare step =>
    refine .inl (same.of_alike ?_ rfl rfl performed)
    exact .bind (.change fun same => same.prepareStep step) fun _ _ _ => .pure _
  | inspect handle =>
    by_cases own : handle = x
    · subst own
      obtain ⟨run, after⟩ := perform_eq_some_iff.1 performed
      rw [answer, same.own] at run
      obtain rfl : s = s₁ := Desk.ext (congrArg Prod.snd (Option.some.inj run)) after.symm
      rw [Line.without, if_pos rfl]
      exact .inr ⟨rfl, .ok .done, s', rfl, same⟩
    · refine .inl (same.of_alike ?_ rfl (by rw [Line.without]; split <;> rfl) performed)
      rw [Line.without, if_neg own, answer, answer]
      rcases same.handle?_ne own with ⟨unknown, unknown'⟩ | ⟨ref, known, known'⟩
      · rw [unknown, unknown']
        exact .pure _
      · rw [known, known']
        refine .get_bind fun same => ?_
        rw [same.binding]
        exact .pure _
  | bindingsFor c' ty' =>
    by_cases own : c' = c ∧ ty' = ty
    · obtain ⟨run, after⟩ := perform_eq_some_iff.1 performed
      obtain rfl : s = s₁ := Desk.ext (congrArg Prod.snd (Option.some.inj run)) after.symm
      exact .inr ⟨own, _, s', rfl, same⟩
    · refine .inl (same.of_alike ?_ rfl rfl performed)
      change Run.AlikeAt _ _ _ _ (s'.answer (.bindingsFor c' ty'))
      rw [answer, answer]
      refine .get_bind fun same => ?_
      rw [same.bindingsFor (Decidable.not_and_iff_or_not.1 own), List.length_map]
      exact .pure _
  | describe c' =>
    refine .inl (same.of_alike ?_ rfl rfl performed)
    change Run.AlikeAt _ _ _ _ (s'.answer (.describe c'))
    rw [answer, answer]
    refine .get_bind fun same => ?_
    rw [describeContainer, describeContainer, same.boundTypes]
    exact .pure _
  | idle => exact .inl (same.of_alike (.pure _) rfl rfl performed)
  | operate op plain =>
    exact .inl (same.of_alike (alikeAt_answer op plain) rfl rfl performed)

/-- So a whole script does the same on both desks. -/
lemma run {lines : List Line} {answers : List (Except HostError Answer)}
    (same : SameBut x extra c ty s s') (keeps : ∀ line ∈ lines, ¬line.Binds x)
    (ran : s.run lines = some (answers, s₁)) :
    ∃ answers' s₁', s'.run (lines.map (·.without x)) = some (answers', s₁') ∧
      SameBut x extra c ty s₁ s₁' ∧
      ∀ (i : ℕ) (line : Line), lines[i]? = some line → ¬line.Asks x c ty →
        ∃ r, answers[i]? = some r ∧ answers'[i]? = some r := by
  induction lines generalizing s s' answers with
  | nil =>
    cases ran
    exact ⟨[], s', rfl, same, fun i line none => by rw [List.getElem?_nil] at none; cases none⟩
  | cons line rest ih =>
    obtain ⟨own, others⟩ := List.forall_mem_cons.1 keeps
    obtain ⟨r, s₂, later, performed, goes, rfl⟩ := run_cons.1 ran
    obtain ⟨r', s₂', performed', same, first⟩ := same.perform own performed
    obtain ⟨later', s₁', ran', same, agree⟩ := ih same others goes
    refine ⟨r' :: later', s₁', run_cons.2 ⟨r', s₂', later', performed', ran', rfl⟩, same, ?_⟩
    rintro (_ | i) line' at_ spared
    · cases at_
      exact ⟨r, rfl, by rw [first spared]; rfl⟩
    · exact agree i line' at_ spared

end SameBut

/-- Dormant bindings are unobservable. Take a binding that is declared when the container has one
for the type already out of a script, with all configuration calls on its handle. What is left of
the script is answered as before, but for the number of bindings of the type and the state of the
one that is gone. In the end the host holds the same objects, entries and output, and all other
bindings are in the same state. -/
theorem unobserved {config : HostConfig} {before after : List Line}
    {answers₀ : List (Except HostError Answer)} {s₀ : Desk}
    (started : (new config).run before = some (answers₀, s₀))
    (bound : s₀.host.bindingsFor c ty ≠ []) (own : ∀ line ∈ after, ¬line.Binds x) :
    ∃ answers answers' s s',
      s₀.run (.bind x c ty :: after) = some (.ok .done :: answers, s) ∧
      s₀.run (after.map (·.without x)) = some (answers', s') ∧
      (∀ (i : ℕ) (line : Line), after[i]? = some line → ¬line.Asks x c ty →
        ∃ r, answers[i]? = some r ∧ answers'[i]? = some r) ∧
      s'.host.objects = s.host.objects ∧ s'.host.registry = s.host.registry ∧
      s'.host.output = s.host.output ∧
      (∀ ref, ref ≠ (s₀.host.bind c ty).1 → ∃ ref',
        (s₀.host.bind c ty).1.skip ref' = ref ∧ s'.host.binding ref' = s.host.binding ref) ∧
      (∀ y ref, y ≠ x → s.handle? y = some ref →
        ∃ ref', s'.handle? y = some ref' ∧ s'.host.binding ref' = s.host.binding ref) ∧
      SameBut x (s₀.host.bind c ty).1 c ty s s' := by
  have sound : s₀.Sound := (sound_new config).run started
  obtain ⟨s₁, bind, same⟩ : ∃ s₁, s₀.perform (.bind x c ty) = some (.ok .done, s₁) ∧
      SameBut x (s₀.host.bind c ty).1 c ty s₁ s₀ := by
    refine ⟨_, rfl, sameBut_bind sound.coherent bound, ?_, fun {y} ne => ?_⟩
    · rw [handlesAfter, handle?_cons, if_pos rfl]
    · rw [handlesAfter, handle?_cons, if_neg ne.symm]
      cases known : s₀.handle? y with
      | none => exact known
      | some ref => exact known.trans (congrArg some (skip_of_lt (sound.valid known)).symm)
  obtain ⟨answers, s, ran⟩ := s₁.exists_run after
  obtain ⟨answers', s', ran', same, agree⟩ := same.run own ran
  refine ⟨answers, answers', s, s', run_cons.2 ⟨_, s₁, answers, bind, ran, rfl⟩, ran', agree, ?_⟩
  refine ⟨by rw [same.host.parts], by rw [same.host.parts], by rw [same.host.parts],
    fun ref other => ?_, fun y ref other known => ?_, same⟩
  · obtain ⟨ref', rfl⟩ := exists_skip other
    exact ⟨ref', rfl, (same.host.binding ref').symm⟩
  rcases same.handle?_ne other with ⟨unknown, -⟩ | ⟨ref', known', there⟩
  · rw [unknown] at known
    cases known
  · rw [known'] at known
    cases known
    exact ⟨ref', there, (same.host.binding ref').symm⟩

/-- A script that binds integers to the number of times that one was made. -/
def counting : List Line :=
  [.operate .addContainer nofun, .bind "count" ⟨0⟩ intType,
    .configure "count" (.fromFactory .count), .configure "count" .asTransient]

/-- Fixes another binding of integers, asks for integers and for the bindings. -/
def recounting : List Line :=
  [.configure "seven" (.fromInstance (.fixed (.int 7))), .operate (.resolve ⟨0⟩ intType) nofun,
    .inspect "seven", .operate (.resolve ⟨0⟩ intType) nofun, .inspect "count"]

/-- The second integer is two, whether or not there is another binding. -/
theorem unobserved_counting : ∃ answers₀ s₀,
    (new {}).run counting = some (answers₀, s₀) ∧ s₀.host.bindingsFor ⟨0⟩ intType ≠ [] ∧
    (∀ line ∈ recounting, ¬line.Binds "seven") ∧ ∃ answers answers' s s',
      s₀.run (.bind "seven" ⟨0⟩ intType :: recounting) = some (.ok .done :: answers, s) ∧
      s₀.run (recounting.map (·.without "seven")) = some (answers', s') ∧
      answers[3]? = some (.ok (.value (.int 2))) ∧ answers'[3]? = some (.ok (.value (.int 2))) ∧
      s'.host.objects = s.host.objects := by
  obtain ⟨answers₀, s₀, started, bound, answers₁, s₁, ran₁, second⟩ : ∃ answers₀ s₀,
      (new {}).run counting = some (answers₀, s₀) ∧ s₀.host.bindingsFor ⟨0⟩ intType = [⟨0⟩] ∧
      ∃ answers₁ s₁,
        s₀.run (.bind "seven" ⟨0⟩ intType :: recounting) = some (.ok .done :: answers₁, s₁) ∧
        answers₁[3]? = some (.ok (.value (.int 2))) := by
    refine ⟨_, _, rfl, ?_⟩
    exact ⟨rfl, _, _, rfl, rfl⟩
  have bound : s₀.host.bindingsFor ⟨0⟩ intType ≠ [] := by
    rw [bound]
    exact List.cons_ne_nil _ _
  have own : ∀ line ∈ recounting, ¬line.Binds "seven" := by
    intro line listed
    simp only [recounting, List.mem_cons, List.not_mem_nil, or_false] at listed
    rcases listed with rfl | rfl | rfl | rfl | rfl
    all_goals exact id
  obtain ⟨answers, answers', s, s', ran, ran', agree, objects, -⟩ := unobserved started bound own
  rw [ran₁] at ran
  cases ran
  obtain ⟨r, first, other⟩ := agree 3 _ rfl id
  rw [second] at first
  cases first
  exact ⟨answers₀, s₀, started, bound, own, answers₁, answers', s₁, s', ran₁, ran', second, other,
    objects⟩

end Desk

end Host
end Weaver
