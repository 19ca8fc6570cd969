import Weaver.Proofs.Engine.Bodies

/-!
# The same code among other types

Two hosts can hold the same code in types that differ otherwise: in the visibility of members, in
members that were added, in types besides. What a run does on the first host, the leading one, it
does on the second, as long as the second permits every access that the run makes, and as long as
containers resolve to the same values.

Four things live here:

* `Pairing`, which says what code the hosts share and what else they have in common;
* `Pairing.CoversMember`, `Pairing.Covers` and `Pairing.Sound`, what the following host has to permit;
* one lemma for each function of the engine, by which its run on the leading host is followed if it
  ends well, up to `Pairing.Follows.callNext`;
* rules for runs one after the other, for pairings that ask for no quiet.
-/

namespace Weaver

open Host

/-! ## Pairings -/

/-- What a host holds to obtain instances by. -/
structure Wiring where
  registry : Registry
  containers : Array Container
  bindings : Array Binding

/-- What the host holds to obtain instances by. -/
def Host.wiring (h : Host) : Wiring := ⟨h.registry, h.containers, h.bindings⟩

/-- Two ways to hold the same code. -/
structure Pairing where
  /-- The loaded types of the leading host. -/
  leading : Universe
  /-- The loaded types of the following host. -/
  following : Universe
  /-- A member of a leading type and the member of a following type with the same code. -/
  Twin : LoadedType → Method → LoadedType → Method → Prop
  /-- What the hosts have in common to obtain instances by. -/
  Wired : Wiring → Wiring → Prop
  /-- What has to hold of the leading host before and after a run that is followed. -/
  Quiet : Wiring → Wiring → Prop

namespace Pairing

variable (P : Pairing)

/-- The following host is where the leading one is: it has the same objects and the same output, and
room for at least as many calls. -/
structure Match (h g : Host) : Prop where
  leading : h.types = P.leading
  following : g.types = P.following
  objects : g.objects = h.objects
  output : g.output = h.output
  callDepth : g.callDepth ≤ h.callDepth
  wired : P.Wired h.wiring g.wiring

/-- If the first run ends well on the leading host, the second ends well on the following host, with
the same value, and the hosts match again. -/
def FollowedAt {α : Type} (h g : Host) (x y : Run α) : Prop :=
  ∀ a h', x.run h = some (.ok a, h') → P.Quiet h.wiring h'.wiring →
    ∃ g', y.run g = some (.ok a, g') ∧ P.Match h' g'

/-- What a lookup finds in a type of the leading host, where one type's code may use it, corresponds to
something that is found on the following host and that another type's code may use there. -/
def CoversMember {α : Type} (user user' : LoadedType) (owner : String)
    (find? : TypeDef → Option α) (visibility : α → Visibility)
    (Alike : LoadedType → α → LoadedType → α → Prop) : Prop :=
  ∀ t c, P.leading.find? owner = some t → user.CanUse t → find? t.definition = some c →
    user.CanUseMember t (visibility c) →
    ∃ t' c', P.following.find? owner = some t' ∧ user'.CanUse t' ∧ find? t'.definition = some c' ∧
      user'.CanUseMember t' (visibility c') ∧ Alike t c t' c'

/-- The accesses of an instruction in a member of the first type are permitted in a member of the
second type as well, and lead to twins. -/
def Covers (user user' : LoadedType) : Instr → Prop
  | .loadField owner name | .storeField owner name =>
    P.CoversMember user user' owner (·.field? name) (·.visibility) fun _ _ _ _ => True
  | .newObject owner ctor =>
    P.CoversMember user user' owner (·.constructor? ctor) (·.visibility) fun _ c _ c' =>
      c'.params = c.params
  | .call owner method =>
    P.CoversMember user user' owner (·.member? method) (·.visibility) P.Twin
  | .loadMethod owner method =>
    P.CoversMember user user' owner (·.method? method) (·.visibility) fun _ c _ c' =>
      c'.isStatic = c.isStatic
  | .register kind ty => ∀ (h h' : Host) (handle : MethodHandle),
    (Run.registerWoven kind ty handle).run h = some (.ok ⟨⟩, h') → ¬P.Quiet h.wiring h'.wiring
  | _ => True

/-- The following host permits what the leading host does. -/
structure Sound : Prop where
  arity {t m t' m'} : P.Twin t m t' m' → m'.arity = m.arity
  returnType {t m t' m'} : P.Twin t m t' m' → m'.returnType = m.returnType
  body {t m t' m'} : P.Twin t m t' m' → m'.body = m.body
  covers {t m t' m'} : P.Twin t m t' m' → ∀ i ∈ m.body, P.Covers t t' i
  construct {ty t ctor c slots} : P.leading.find? ty = some t →
    (t.definition.isAbstract || t.definition.isInterface) = false →
    t.definition.constructor? ctor = some c → P.leading.layout ty = .ok slots →
    ∃ t' c', P.following.find? ty = some t' ∧
      (t'.definition.isAbstract || t'.definition.isInterface) = false ∧
      t'.definition.constructor? ctor = some c' ∧ P.following.layout ty = .ok slots ∧
      P.Twin t c t' c'
  conforms (ty target : String) : P.following.conforms ty target = P.leading.conforms ty target
  quiet {h h' h'' : Host} : History h h' → History h' h'' → P.Quiet h.wiring h''.wiring →
    P.Quiet h.wiring h'.wiring ∧ P.Quiet h'.wiring h''.wiring

/-- What an engine does on the leading host, another does on the following host. -/
structure Follows (e e' : Engine) : Prop where
  traced : e.Traced
  call {h g t m t' m'} : P.Match h g → P.Twin t m t' m' → ∀ args,
    P.FollowedAt h g (e.call t m args) (e'.call t' m' args)
  resolve {h g} : P.Match h g → ∀ c ty, P.FollowedAt h g (e.resolve c ty) (e'.resolve c ty)

variable {P} {h g : Host}

/-! ## Hosts that match -/

namespace Match

lemma object (same : P.Match h g) (ref : ObjectRef) : g.object ref = h.object ref := by
  rw [Host.object, same.objects, Host.object]

lemma getDeclared? (same : P.Match h g) (ref : ObjectRef) (owner name : String) :
    g.getDeclared? ref owner name = h.getDeclared? ref owner name := by
  rw [Host.getDeclared?, slotValue?, same.object, Host.getDeclared?, slotValue?]

lemma display (same : P.Match h g) (value : Value) : value.display g = value.display h := by
  cases value with
  | object ref => rw [Value.display, Value.display, same.object]
  | bool b => cases b <;> rfl
  | _ => rfl

lemma isInstance (sound : P.Sound) (same : P.Match h g) (value : Value) (ty : String) :
    g.isInstance value ty = h.isInstance value ty := by
  cases value with
  | object ref =>
    simp only [Host.isInstance, same.object, same.leading, same.following, sound.conforms]
  | _ => rfl

lemma allocate (same : P.Match h g) (object : HeapObject) :
    P.Match (h.allocate object).2 (g.allocate object).2 :=
  { same with objects := by rw [Host.allocate, Host.allocate, same.objects] }

lemma putDeclared (same : P.Match h g) (ref : ObjectRef) (owner name : String) (value : Value) :
    P.Match (h.putDeclared ref owner name value) (g.putDeclared ref owner name value) :=
  { same with objects := by rw [Host.putDeclared, Host.putDeclared, same.objects] }

lemma print (same : P.Match h g) (line : String) :
    P.Match { h with output := h.output ++ [line] } { g with output := g.output ++ [line] } :=
  { same with output := by rw [same.output] }

lemma enterCall (same : P.Match h g) : P.Match h.enterCall g.enterCall :=
  { same with callDepth := Nat.succ_le_succ same.callDepth }

lemma leaveCall (same : P.Match h g) : P.Match h.leaveCall g.leaveCall :=
  { same with callDepth := Nat.sub_le_sub_right same.callDepth 1 }

/-- The leading host may be one call deeper. -/
lemma enterCall_left (same : P.Match h g) : P.Match h.enterCall g :=
  { same with callDepth := Nat.le_succ_of_le same.callDepth }

/-- After a call on the leading host alone, the hosts match as they did before it. -/
lemma leaveCall_left {h' g' : Host} (same : P.Match h g) (left : Keeps h.enterCall h')
    (right : Keeps g g') (same' : P.Match h' g') : P.Match h'.leaveCall g' :=
  { same' with
    callDepth := by
      have deeper : h'.callDepth = h.callDepth + 1 := left.callDepth
      have level : g'.callDepth = g.callDepth := right.callDepth
      have depth : g.callDepth ≤ h.callDepth := same.callDepth
      show g'.callDepth ≤ h'.callDepth - 1
      omega }

end Match

/-! ## Instructions -/

section Code

variable {e e' : Engine} {f f' : Engine.Frame} {stack : List Value}

open Engine

/-- A run that ends in the same way on both hosts and leaves them as they were. -/
lemma FollowedAt.of_pure {α : Type} {x y : Run α} {a : α} (same : P.Match h g)
    (hx : x.run h = some (.ok a, h)) (hy : y.run g = some (.ok a, g)) : P.FollowedAt h g x y := by
  intro a' h' ok _
  rw [hx] at ok
  cases ok
  exact ⟨g, hy, same⟩

/-- A run that fails on the leading host need not be followed. -/
lemma FollowedAt.of_error {α : Type} {x y : Run α} {e : HostError} {h' : Host}
    (failed : x.run h = some (.error e, h')) : P.FollowedAt h g x y := by
  intro a' h' ok _
  rw [failed] at ok
  cases ok

lemma FollowedAt.get_bind {α : Type} {x y : Host → Run α} (next : P.FollowedAt h g (x h) (y g)) :
    P.FollowedAt h g (get >>= x) (get >>= y) := next

/-- What is made of a value does not depend on the host. -/
lemma FollowedAt.map {α β : Type} {x y : Run α} (followed : P.FollowedAt h g x y) (k : α → β) :
    P.FollowedAt h g (x >>= fun a => pure (k a)) (y >>= fun a => pure (k a)) := by
  intro b h' ok quiet
  rw [Run.run_bind_eq_ok_iff] at ok
  obtain ⟨a, h₁, ok, last⟩ := ok
  cases last
  obtain ⟨g', run, same⟩ := followed a h' ok quiet
  exact ⟨g', Run.run_bind_of_ok run, same⟩

/-! ### Operands -/

section Operands

variable {α : Type}

lemma FollowedAt.pop {k k' : Value × List Value → Run α}
    (next : ∀ value rest, P.FollowedAt h g (k (value, rest)) (k' (value, rest))) :
    P.FollowedAt h g (f.pop stack >>= k) (f'.pop stack >>= k') := by
  cases stack with
  | nil => exact .of_error rfl
  | cons value rest => exact next value rest

lemma FollowedAt.popObject {k k' : ObjectRef × List Value → Run α}
    (next : ∀ ref rest, P.FollowedAt h g (k (ref, rest)) (k' (ref, rest))) :
    P.FollowedAt h g (f.popObject stack >>= k) (f'.popObject stack >>= k') := by
  cases stack with
  | nil => exact .of_error rfl
  | cons value rest =>
    cases value with
    | object ref => exact next ref rest
    | _ => exact .of_error rfl

lemma FollowedAt.popMany {count : ℕ} {k k' : List Value × List Value → Run α}
    (next : ∀ args rest, P.FollowedAt h g (k (args, rest)) (k' (args, rest))) :
    P.FollowedAt h g (f.popMany count stack >>= k) (f'.popMany count stack >>= k') := by
  rw [Frame.popMany, Frame.popMany]
  split
  · exact .of_error rfl
  · exact next _ _

/-- An access to a field that the following host permits as well. -/
lemma FollowedAt.fieldAccess {owner name : String} {x y : Run α} (same : P.Match h g)
    (covers : P.Covers f.owner f'.owner (.loadField owner name)) (next : P.FollowedAt h g x y) :
    P.FollowedAt h g (f.lookup owner >>= fun t => f.checkField t name >>= fun _ => x)
      (f'.lookup owner >>= fun t => f'.checkField t name >>= fun _ => y) := by
  intro a h' ok quiet
  rw [Run.run_bind_eq_ok_iff] at ok
  obtain ⟨t, h₁, lookup, ok⟩ := ok
  obtain ⟨rfl, found, usable⟩ := of_lookup lookup
  rw [Run.run_bind_eq_ok_iff] at ok
  obtain ⟨u, h₂, access, ok⟩ := ok
  obtain ⟨rfl, field, declared, accessible⟩ := of_checkField access
  rw [same.leading] at found
  obtain ⟨t', field', found', usable', declared', accessible', -⟩ :=
    covers t field found usable declared accessible
  rw [← same.following] at found'
  obtain ⟨g', run, same'⟩ := next a h' ok quiet
  refine ⟨g', ?_, same'⟩
  refine (Run.run_bind_of_ok (run_lookup found' usable')).trans ?_
  rw [checkField_eq declared' accessible']
  exact run

/-- An access to a constructor or method that the following host permits as well, and that leads to
a member with which the run goes on in the same way. -/
lemma FollowedAt.memberAccess {owner : String} {cause : FrameFault} {name : Method → String}
    {Alike : LoadedType → Method → LoadedType → Method → Prop}
    {k k' : LoadedType → Method → Run α} (same : P.Match h g)
    (find? : TypeDef → Option Method)
    (covers : P.CoversMember f.owner f'.owner owner find? (·.visibility) Alike)
    (next : ∀ t c t' c', Alike t c t' c' → P.FollowedAt h g (k t c) (k' t' c')) :
    P.FollowedAt h g
      (f.lookup owner >>= fun t => match find? t.definition with
        | some c => f.checkMember t c.visibility (name c) >>= fun _ => k t c
        | _ => f.fault cause)
      (f'.lookup owner >>= fun t => match find? t.definition with
        | some c => f'.checkMember t c.visibility (name c) >>= fun _ => k' t c
        | _ => f'.fault cause) := by
  intro a h' ok quiet
  rw [Run.run_bind_eq_ok_iff] at ok
  obtain ⟨t, h₁, lookup, ok⟩ := ok
  obtain ⟨rfl, found, usable⟩ := of_lookup lookup
  cases declared : find? t.definition with
  | none =>
    rw [declared] at ok
    cases ok
  | some c =>
    simp only [declared] at ok
    rw [Run.run_bind_eq_ok_iff] at ok
    obtain ⟨u, h₂, access, ok⟩ := ok
    obtain ⟨rfl, accessible⟩ := of_checkMember access
    rw [same.leading] at found
    obtain ⟨t', c', found', usable', declared', accessible', alike⟩ :=
      covers t c found usable declared accessible
    -- both hosts have found a member by now, and each goes on with its own
    rw [← same.following] at found'
    obtain ⟨g', run, same'⟩ := next t c t' c' alike a h' ok quiet
    refine ⟨g', ?_, same'⟩
    refine (Run.run_bind_of_ok (run_lookup found' usable')).trans ?_
    simp only [declared', checkMember_eq accessible']
    exact run

end Operands

/-! ### Constructions -/

/-- A construction on the leading host is followed by one on the following host. -/
lemma Follows.construct (follows : P.Follows e e') (sound : P.Sound) (same : P.Match h g)
    (ty : String) (ctor : Uuid) (args : List Value) :
    P.FollowedAt h g (e.construct ty ctor args) (e'.construct ty ctor args) := by
  intro value h' ok quiet
  obtain ⟨t, c, slots, result, found, concrete, declared, layout, rfl, call⟩ :=
    exists_call_of_construct ok
  rw [same.leading] at found layout
  obtain ⟨t', c', found', concrete', declared', layout', twin⟩ :=
    sound.construct found concrete declared layout
  obtain ⟨g', run, same'⟩ := follows.call (same.allocate { ty, slots }) twin _ result h' call quiet
  rw [← same.following] at found' layout'
  refine ⟨g', ?_, same'⟩
  rw [run_construct found' concrete' declared' layout', same.objects]
  exact Run.run_bind_of_ok run

/-! ### One instruction -/

/-- An instruction that the following host covers is followed. -/
lemma Follows.step (follows : P.Follows e e') (sound : P.Sound) (same : P.Match h g)
    (args : f'.args = f.args) (stack : List Value) {i : Instr}
    (covers : P.Covers f.owner f'.owner i) :
    P.FollowedAt h g (e.step f stack i) (e'.step f' stack i) := by
  cases i with
  | loadArg index =>
    simp only [Engine.step, args]
    cases f.args[index.toNat]? with
    | none => exact .of_error rfl
    | some value => exact .of_pure same rfl rfl
  | loadConst value => exact .of_pure same rfl rfl
  | loadField owner name =>
    rw [Engine.step, Engine.step]
    refine .fieldAccess same covers (.popObject fun ref rest => .get_bind ?_)
    rw [same.getDeclared?]
    cases h.getDeclared? ref owner name with
    | none => exact .of_error rfl
    | some value => exact .of_pure same rfl rfl
  | storeField owner name =>
    rw [Engine.step, Engine.step]
    refine .fieldAccess same covers (.pop fun value _ => .popObject fun ref rest => .get_bind ?_)
    rw [setDeclared?, setDeclared?, same.getDeclared?]
    cases slot : (h.getDeclared? ref owner name).isSome with
    | false => exact .of_error rfl
    | true =>
      intro a h' ok _
      cases ok
      exact ⟨_, rfl, same.putDeclared ref owner name value⟩
  | newObject owner ctor =>
    rw [Engine.step, Engine.step]
    refine .memberAccess same (·.constructor? ctor) covers fun t c t' c' params => ?_
    rw [params]
    exact .popMany fun args rest =>
      (follows.construct sound same owner ctor args).map (· :: rest)
  | call owner method =>
    rw [Engine.step, Engine.step]
    refine .memberAccess same (·.member? method) covers fun t c t' c' twin => ?_
    rw [sound.arity twin, sound.returnType twin]
    exact .popMany fun args rest => (follows.call same twin args).map _
  | loadMethod owner method =>
    intro a h' ok quiet
    rw [Engine.step, Run.run_bind_eq_ok_iff] at ok
    obtain ⟨t, h₁, lookup, ok⟩ := ok
    obtain ⟨rfl, found, usable⟩ := of_lookup lookup
    cases declared : t.definition.method? method with
    | none =>
      rw [declared] at ok
      cases ok
    | some c =>
    simp only [declared] at ok
    cases static : c.isStatic with
    | false =>
      simp only [static] at ok
      cases ok
    | true =>
    simp only [static, Bool.not_true, Bool.false_eq_true, if_false] at ok
    rw [Run.run_bind_eq_ok_iff] at ok
    obtain ⟨u, h₂, access, ok⟩ := ok
    obtain ⟨rfl, accessible⟩ := of_checkMember access
    cases ok
    rw [same.leading] at found
    obtain ⟨t', c', found', usable', declared', accessible', static'⟩ :=
      covers t c found usable declared accessible
    rw [← same.following] at found'
    refine ⟨g, ?_, same⟩
    rw [Engine.step]
    refine (Run.run_bind_of_ok (run_lookup found' usable')).trans ?_
    simp only [declared', checkMember_eq accessible', static', static]
    rfl
  | resolve ty =>
    rw [Engine.step, Engine.step]
    refine .pop fun value rest => ?_
    cases value with
    | container c => exact (follows.resolve same c ty).map (· :: rest)
    | _ => exact .of_error rfl
  | register kind ty =>
    rw [Engine.step, Engine.step]
    refine .pop fun value rest => ?_
    cases value with
    | method handle =>
      intro a h' ok quiet
      rw [Run.run_bind_eq_ok_iff] at ok
      obtain ⟨u, h₁, ok, last⟩ := ok
      cases last
      exact absurd quiet (covers h h' handle ok)
    | _ => exact .of_error rfl
  | upcast ty =>
    rw [Engine.step, Engine.step]
    refine .pop fun value _ => .get_bind ?_
    rw [same.isInstance sound]
    dsimp only
    split
    · exact .of_error rfl
    · exact .of_pure same rfl rfl
  | print =>
    rw [Engine.step, Engine.step]
    refine .pop fun value rest => .get_bind ?_
    rw [same.display]
    intro a h' ok _
    cases ok
    exact ⟨_, rfl, same.print _⟩
  | dup =>
    rw [Engine.step, Engine.step]
    exact .pop fun value _ => .of_pure same rfl rfl
  | pop =>
    rw [Engine.step, Engine.step]
    exact .pop fun _ rest => .of_pure same rfl rfl
  | ret => exact .of_pure same rfl rfl

/-! ### Bodies and calls -/

/-- A body whose instructions are all covered is followed. -/
lemma Follows.runBody (follows : P.Follows e e') (sound : P.Sound) (same : P.Match h g)
    (args : f'.args = f.args) (stack : List Value) {body : List Instr}
    (covers : ∀ i ∈ body, P.Covers f.owner f'.owner i) :
    P.FollowedAt h g (e.runBody f stack body) (e'.runBody f' stack body) := by
  induction body generalizing h g stack with
  | nil =>
    rw [runBody_nil, runBody_nil]
    exact .of_pure same rfl rfl
  | cons i rest ih =>
    by_cases ret : i = .ret
    · subst ret
      rw [runBody_ret, runBody_ret]
      exact .of_pure same rfl rfl
    intro a h' ok quiet
    rw [runBody_cons ret, Run.run_bind_eq_ok_iff] at ok
    obtain ⟨stack₁, h₁, first, later⟩ := ok
    -- what is quiet as a whole is quiet in both parts
    have history₁ := follows.traced.history (·.step f stack i) (fun agree => agree.step f stack i)
      first
    have history₂ := follows.traced.history (·.runBody f stack₁ rest)
      (fun agree => agree.runBody f stack₁ rest) later
    obtain ⟨quiet₁, quiet₂⟩ := sound.quiet history₁ history₂ quiet
    obtain ⟨g₁, run₁, same₁⟩ := follows.step sound same args stack
      (covers i List.mem_cons_self) stack₁ h₁ first quiet₁
    obtain ⟨g₂, run₂, same₂⟩ := ih same₁ stack₁ (fun j hj => covers j (List.mem_cons_of_mem _ hj))
      a h' later quiet₂
    refine ⟨g₂, ?_, same₂⟩
    rw [runBody_cons ret]
    exact (Run.run_bind_of_ok run₁).trans run₂

/-- The run of a member is followed by the run of its twin. -/
lemma Follows.execute (follows : P.Follows e e') (sound : P.Sound) (same : P.Match h g)
    {t t' : LoadedType} {m m' : Method} (twin : P.Twin t m t' m') (args : List Value) :
    P.FollowedAt h g (e.execute ⟨t, m, args⟩) (e'.execute ⟨t', m', args⟩) := by
  intro result h' ok quiet
  obtain ⟨stack, body, left⟩ := run_execute_eq_ok_iff.1 ok
  -- the bodies of twins are the same, and so is what they leave as a result
  have followed : P.FollowedAt h g (e.runBody ⟨t, m, args⟩ [] m.body)
      (e'.runBody ⟨t', m', args⟩ [] m.body) := by
    refine follows.runBody sound same ?_ [] (sound.covers twin)
    rfl
  obtain ⟨g', run, same'⟩ := followed stack h' body quiet
  refine ⟨g', run_execute_eq_ok_iff.2 ⟨stack, ?_, ?_⟩, same'⟩
  · show (e'.runBody _ [] m'.body).run g = _
    rw [sound.body twin]
    exact run
  · show resultOf m' stack = _
    rw [resultOf, sound.returnType twin]
    exact left

/-- A call is followed by a call of the twin, one level up. -/
lemma Follows.callNext (follows : P.Follows e e') (sound : P.Sound) (same : P.Match h g)
    {t t' : LoadedType} {m m' : Method} (twin : P.Twin t m t' m') (args : List Value) :
    P.FollowedAt h g (e.next.call t m args) (e'.next.call t' m' args) := by
  intro result h' ok quiet
  obtain ⟨arity, room, h₁, body, rfl⟩ := exists_execute_of_call ok
  obtain ⟨g₁, run, same₁⟩ := follows.execute sound same.enterCall twin args result h₁ body quiet
  refine ⟨g₁.leaveCall, ?_, same₁.leaveCall⟩
  -- the following host is at most as deep, so it has room for the call as well
  have arity' : args.length = m'.arity := arity.trans (sound.arity twin).symm
  refine (run_callNext arity' (same.callDepth.trans_lt room)).trans ?_
  rw [Run.run_between, run]
  rfl

end Code

/-! ## Sequences of runs -/

section Sequences

variable {α β : Type} {e e' : Engine}

/-- A check that code makes on both hosts before it goes on. -/
lemma FollowedAt.check {γ : Type} {p : Prop} [Decidable p] {cause cause' : ExecutionFault}
    {f f' : γ → Run α} {x y : Run α} (next : ¬p → P.FollowedAt h g x y) :
    P.FollowedAt h g (if p then Run.fault cause >>= f else x)
      (if p then Run.fault cause' >>= f' else y) := by
  by_cases failed : p
  · rw [if_pos failed, if_pos failed]
    exact .of_error rfl
  · rw [if_neg failed, if_neg failed]
    exact next failed

variable (loud : ∀ w w', P.Quiet w w')
include loud

/-- Where quiet is everything, runs are followed one after the other. -/
lemma FollowedAt.bind {x y : Run α} {k k' : α → Run β} (first : P.FollowedAt h g x y)
    (next : ∀ a h' g', P.Match h' g' → P.FollowedAt h' g' (k a) (k' a)) :
    P.FollowedAt h g (x >>= k) (y >>= k') := by
  intro b h₂ ok _
  rw [Run.run_bind_eq_ok_iff] at ok
  obtain ⟨a, h₁, ok, later⟩ := ok
  obtain ⟨g₁, run₁, same₁⟩ := first a h₁ ok (loud _ _)
  obtain ⟨g₂, run₂, same₂⟩ := next a h₁ g₁ same₁ b h₂ later (loud _ _)
  exact ⟨g₂, (Run.run_bind_of_ok run₁).trans run₂, same₂⟩

lemma FollowedAt.set_bind {h₁ g₁ : Host} {k k' : PUnit → Run β}
    (next : P.FollowedAt h₁ g₁ (k ⟨⟩) (k' ⟨⟩)) :
    P.FollowedAt h g (set h₁ >>= k) (set g₁ >>= k') :=
  fun b h₂ ok _ => next b h₂ ok (loud _ _)

lemma FollowedAt.between {enter enter' leave leave' : Host → Host} {x y : Run α}
    (leaves : ∀ {h' g'}, P.Match h' g' → P.Match (leave h') (leave' g'))
    (inner : P.FollowedAt (enter h) (enter' g) x y) :
    P.FollowedAt h g (Run.between enter leave x) (Run.between enter' leave' y) := by
  intro a h₂ ok _
  rw [Run.run_between, Option.map_eq_some_iff] at ok
  obtain ⟨⟨r, h₁⟩, run, ok⟩ := ok
  cases ok
  obtain ⟨g₁, run₁, same₁⟩ := inner a h₁ run (loud _ _)
  exact ⟨leave' g₁, by rw [Run.run_between, run₁]; rfl, leaves same₁⟩

lemma Match.mapM {γ : Type} {f f' : γ → Run α} (same : P.Match h g)
    (each : ∀ {h g} a, P.Match h g → P.FollowedAt h g (f a) (f' a)) (l : List γ) :
    P.FollowedAt h g (l.mapM f) (l.mapM f') := by
  induction l generalizing h g with
  | nil => exact .of_pure same rfl rfl
  | cons a rest ih =>
    rw [List.mapM_cons, List.mapM_cons]
    refine .bind loud (each a same) fun b h' g' same => ?_
    exact (ih same).map (b :: ·)

/-- Values for parameters are found by a search that gives up where a resolution fails. -/
lemma Follows.probe (follows : P.Follows e e') (same : P.Match h g) (c : ContainerRef)
    (params : List Parameter) :
    P.FollowedAt h g (params.mapM (fun p => e.resolve c p.ty) >>= fun values => pure (some values))
      (e'.probe c params) := by
  induction params generalizing h g with
  | nil => exact .of_pure same rfl rfl
  | cons p rest ih =>
    intro found h₃ ok quiet
    rw [List.mapM_cons, bind_assoc, Run.run_bind_eq_ok_iff] at ok
    obtain ⟨value, h₁, resolved, ok⟩ := ok
    rw [bind_assoc, Run.run_bind_eq_ok_iff] at ok
    obtain ⟨more, h₂, later, ok⟩ := ok
    cases ok
    obtain ⟨g₁, run₁, same₁⟩ := follows.resolve same c p.ty value h₁ resolved (loud _ _)
    obtain ⟨g₂, run₂, same₂⟩ := ih same₁ (some more) h₃ (Run.run_bind_of_ok later) (loud _ _)
    -- what ends well is not caught
    have tried : (e'.tryResolve c p.ty).run g = some (.ok (some value), g₁) := by
      rw [Engine.tryResolve, Run.orNone]
      refine (Run.run_bind_of_ok (a := .ok value) ?_).trans rfl
      rw [Run.run_attempt, run₁]
      rfl
    refine ⟨g₂, ?_, same₂⟩
    rw [Engine.probe]
    exact (Run.run_bind_of_ok tried).trans (Run.run_bind_of_ok run₂)

/-- Fields are filled with the same values. -/
lemma Follows.fillFields (follows : P.Follows e e') (same : P.Match h g) (owner : String)
    (ref : ObjectRef) (c : ContainerRef) (fields : List (String × String)) :
    P.FollowedAt h g (e.fillFields owner ref c fields) (e'.fillFields owner ref c fields) := by
  induction fields generalizing h g with
  | nil => exact .of_pure same rfl rfl
  | cons field rest ih =>
    rw [Engine.fillFields, Engine.fillFields]
    refine .bind loud (follows.resolve same c field.2) fun value h' g' same' => .get_bind ?_
    rw [setDeclared?, setDeclared?, same'.getDeclared?]
    cases slot : (h'.getDeclared? ref owner field.1).isSome with
    | false => exact .of_error rfl
    | true => exact .set_bind loud (ih (same'.putDeclared ref owner field.1 value))

end Sequences

/-- An engine without levels is followed by any. -/
lemma follows_ofLevel_zero (e' : Engine) : P.Follows (Engine.ofLevel 0) e' where
  traced := Engine.traced_ofLevel 0
  call _ _ _ _ _ ok _ := nomatch ok
  resolve _ _ _ _ _ ok _ := nomatch ok

end Pairing
end Weaver
