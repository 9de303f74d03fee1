import CallGuard.Proofs.Enforcement
import CallGuard.Proofs.Sessions

/-!
# Wrappers are new

A callable that is returned under a `Callable[...]` declaration is handed out in a wrapper
(`Callable.handsOut_of_callWith`), and the wrapper is a new callable, however often the same one is
returned. Where it is made, every identity in what is held was given away (`Callable.HandsOut.covers`),
so the next identity, which the wrapper is given, is that of nothing that is held
(`World.Covers.id_lt`).
-/

namespace CallGuard

/-- The callable is still held: it stands in the world or in one of the pieces. -/
inductive World.Retains (w : World) (held : List Piece) (c : Callable) : Prop where
  | inWorld (holds : w.Holds c)
  | among {p : Piece} (mem : p ∈ held) (holds : p.Holds (.callable c))

theorem World.Covers.id_lt {w : World} {held : List Piece} {c : Callable} (h : w.Covers held)
    (hc : w.Retains held c) : c.id < w.fresh := by
  cases hc with
  | inWorld holds => exact h.sound.id_lt holds
  | among mem holds => exact ((h.known _ mem).of_holds holds).id_lt

namespace Callable

/-- What a call comes to once the receivers on the way are put before the arguments: the callable
that takes them, and the arguments it is given. -/
def unbound : Callable → List Value → Callable × List Value
  | .bound _ receiver method, args => method.unbound (receiver :: args)
  | c, args => (c, args)

theorem callWith_unbound (run : Behaviour) : ∀ (c : Callable) (args : List Value),
    c.callWith run args = (c.unbound args).1.callWith run (c.unbound args).2
  | .bound _ receiver method, args => callWith_unbound run method (receiver :: args)
  | .function _ _ _ _ _, _ => rfl
  | .guarded _ _ _ _, _ => rfl

theorem unbound_of_contract? {k : Contract} : ∀ {c : Callable}, c.contract? = some k →
    ∀ args, ∃ i t rule given, c.unbound args = (.guarded i t k rule, given)
  | .bound _ receiver method, h, args => unbound_of_contract? (c := method) h (receiver :: args)
  | .guarded i t _ rule, h, args => ⟨i, t, rule, args, by rw [← Option.some.inj h]; rfl⟩

theorem known_unbound {n : Nat} : ∀ (c : Callable) (args : List Value), (Piece.callable c).Known n →
    (∀ a ∈ args, (Piece.value a).Known n) →
    (Piece.callable (c.unbound args).1).Known n ∧ ∀ a ∈ (c.unbound args).2, (Piece.value a).Known n
  | .bound _ receiver method, args, hc, hargs =>
    have hreceiver := hc.of_part List.mem_cons_self
    have hmethod := hc.of_part (List.mem_cons_of_mem _ List.mem_cons_self)
    known_unbound method (receiver :: args) hmethod (List.forall_mem_cons.2 ⟨hreceiver, hargs⟩)
  | .function _ _ _ _ _, _, hc, hargs => ⟨hc, hargs⟩
  | .guarded _ _ _ _, _, hc, hargs => ⟨hc, hargs⟩

/-- The call of `c` with `args` in `w` comes to a call under the contract `k`, whose target returns
`raw` and leaves `made`; there the wrapper of `raw` is made. -/
inductive HandsOut (run : Behaviour) (k : Contract) (c : Callable) (args : List Value) (w : World)
    (raw : Callable) (made : World) : Callable → Prop where
  | wrapper {i : Nat} {t : Callable} {rule : TypeRefRule} {given : List Value}
      {events : List Event} {n : Contract} (comes : c.unbound args = (.guarded i t k rule, given))
      (returned : (t.callWith run given).exec (w.note events) = (.ok (.callable raw), made))
      (derived : k.returned raw.signature = some n) :
      HandsOut run k c args w raw made (.guarded made.fresh raw n rule)

section Wrapper

variable {run run' : Behaviour} {k : Contract} {c c' : Callable} {args args' : List Value}
  {w w' made made' : World} {raw raw' wrapper wrapper' : Callable}

/-- A call under a contract that guards what is declared as `Callable[...]` is answered by a
wrapper. -/
theorem handsOut_of_callWith {ds : List Descriptor} {r : Descriptor} {v : Value}
    (hk : c.contract? = some k) (hf : k.guardsReturned = true) (hr : k.result = .callable ds r)
    (h : (c.callWith run args).exec w = (.ok v, w')) :
    ∃ raw made wrapper, v = .callable wrapper ∧ c.HandsOut run k args w raw made wrapper := by
  obtain ⟨i, t, rule, given, comes⟩ := unbound_of_contract? hk args
  rw [callWith_unbound, comes, callWith] at h
  obtain ⟨-, -, events, u, made, returned, settled⟩ := Contract.enforce_ok h
  obtain ⟨raw, n, rfl, derived, rfl⟩ := settled.guarded_of_declared hf hr
  exact ⟨raw, made, _, rfl, .wrapper comes returned derived⟩

/-- Where the wrapper is made, every identity in what was held and in what was returned was given
away. -/
theorem HandsOut.covers {held : List Piece} (h : c.HandsOut run k args w raw made wrapper)
    (hrun : run.Uniform) (hw : w.Covers held) (hc : .callable c ∈ held)
    (hargs : ∀ a ∈ args, .value a ∈ held) : made.Covers (.callable raw :: held) := by
  obtain @⟨i, t, rule, given, events, n, comes, returned, -⟩ := h
  obtain ⟨hguarded, hgiven⟩ :=
    known_unbound c args (hw.known _ hc) fun a ha => hw.known _ (hargs a ha)
  rw [comes, ← World.note_fresh w events] at hguarded hgiven
  have ht : (Piece.callable t).Known (w.note events).fresh :=
    hguarded.of_part List.mem_cons_self
  exact (hw.note events).callWith hrun ht hgiven returned

theorem HandsOut.eq_guarded (h : c.HandsOut run k args w raw made wrapper) :
    ∃ n rule, wrapper = .guarded made.fresh raw n rule ∧ k.returned raw.signature = some n := by
  cases h with
  | wrapper comes returned derived => exact ⟨_, _, rfl, derived⟩

theorem HandsOut.signature_eq (h : c.HandsOut run k args w raw made wrapper) :
    wrapper.signature = raw.signature := by
  obtain ⟨n, rule, rfl, -⟩ := h.eq_guarded
  rfl

/-- Under one contract, wrappers of callables with the same parameters have the same contract. -/
theorem HandsOut.contract?_eq (h : c.HandsOut run k args w raw made wrapper)
    (h' : c'.HandsOut run' k args' w' raw' made' wrapper')
    (hshape : raw.signature.SameShape raw'.signature) :
    wrapper.contract? = wrapper'.contract? := by
  obtain ⟨n, rule, rfl, derived⟩ := h.eq_guarded
  obtain ⟨n', rule', rfl, derived'⟩ := h'.eq_guarded
  rw [contract?, contract?, ← derived, ← derived', k.returned_congr hshape]

end Wrapper

end Callable

/-- What is handed out in a wrapper is new, and its contract follows from the outer one. Let a session
have led to the world `w`, and let a callable that is held be called with arguments that are held, where
its contract `k` guards what is declared as `Callable[...]`. If the call is answered, it is by a wrapper
of the callable `raw` that the target returned, which is itself an old wrapper or a bound method where
the target hands one back. The wrapper is equal to no callable that was held when it was made, in the
world, in what the session came to, wrappers returned before among them, or in `raw`, which it is not
equal to either. Any two wrappers under `k` have the same contract if the callables that were returned
agree in the names of the positional parameters, in which have defaults, and in whether left-over
arguments are taken. -/
theorem returned_wrappers_are_new_and_equivalent (w w' : World) (held : List Piece)
    (session : Session w held) (run : Behaviour) (uniform : run.Uniform) (c : Callable)
    (args : List Value) (callable : .callable c ∈ held) (given : ∀ a ∈ args, .value a ∈ held)
    (k : Contract) (ds : List Descriptor) (r : Descriptor) (contract : c.contract? = some k)
    (flag : k.guardsReturned = true) (declared : k.result = .callable ds r) (v : Value)
    (answered : (c.callWith run args).exec w = (.ok v, w')) :
    ∃ raw made wrapper, v = .callable wrapper ∧ c.HandsOut run k args w raw made wrapper ∧
      (∀ old, made.Retains (.callable raw :: held) old → (v == .callable old) = false) ∧
      ∀ run' c' args' w₁ raw' made' wrapper', Callable.HandsOut run' k c' args' w₁ raw' made' wrapper' →
        raw.signature.SameShape raw'.signature → wrapper.contract? = wrapper'.contract? := by
  obtain ⟨raw, made, wrapper, rfl, hands⟩ :=
    Callable.handsOut_of_callWith contract flag declared answered
  have hmade := hands.covers uniform session.covers callable given
  refine ⟨raw, made, wrapper, rfl, hands, fun old hold => ?_, ?_⟩
  · obtain ⟨n, rule, rfl, -⟩ := hands.eq_guarded
    have hlt := hmade.id_lt hold
    show (made.fresh == old.id) = false
    rw [beq_eq_false_iff_ne]
    omega
  · intro run' c' args' w₁ raw' made' wrapper' hands' hshape
    exact hands.contract?_eq hands' hshape

/-- The program that makes a function which hands back the callable it is given. -/
def keeper : Body := .function "keep" ⟨[⟨"f", false, none, none⟩], none⟩ (.arg 0 0)

/-- The function that `keeper` makes first. -/
def keep : Callable := .function 0 "keep" ⟨[⟨"f", false, none, none⟩], none⟩ [] (.arg 0 0)

/-- Functions from integers to integers, to such functions. -/
def keeperContract : Contract where
  params := [⟨"f", .callable [.nominal (.builtin .int)] (.nominal (.builtin .int)), false⟩]
  result := .callable [.nominal (.builtin .int)] (.nominal (.builtin .int))

/-- The function under its contract. -/
def kept : Callable := .guarded 1 keep keeperContract .subtype

/-- A wrapper in which `kept` hands itself back. -/
def handedBack (id : Nat) : Callable :=
  .guarded id kept ⟨[⟨"f", .nominal (.builtin .int), false⟩], .nominal (.builtin .int), false, true⟩
    .subtype

/-- The world in which the first `n` identities have been given away to callables. -/
def spent (n : Nat) : World := { World.start false with fresh := n }

theorem exec_kept (n : Nat) : (kept.callWith (behaviour 1) [.callable kept]).exec (spent n) =
    (.ok (.callable (handedBack n)), spent (n + 1)) := rfl

/-- The function is made, is put under its contract, and is given itself. -/
theorem session_kept :
    Session (spent 3) [.callable (handedBack 2), .callable kept, .callable keep, .body keeper] := by
  have hbody : Session (spent 0) [.body keeper] := .bring (.start false) fun π _ _ => rfl
  have heval : (keeper.eval (behaviour 1) []).exec (spent 0) = (.ok (.callable keep), spent 1) := rfl
  have hmade : Session (spent 1) [.callable keep, .body keeper] :=
    .evaluate hbody (behaviour_uniform 1) (by simp) (by simp) heval
  have hwrap : (({} : Engine).wrapWith (.callable keep) keeperContract).exec (spent 1) =
      (.ok kept, spent 2) := rfl
  have hkept : Session (spent 2) [.callable kept, .callable keep, .body keeper] :=
    .wrapWith hmade (by simp) hwrap
  exact .call hkept (behaviour_uniform 1) (by simp) (by simp) (exec_kept 2)

/-- The function under its contract is given itself once more. What it hands back is a wrapper of
itself that is equal neither to it nor to the wrapper of the first time, and has the contract of
that. -/
theorem kept_is_handed_back_anew :
    Session (spent 3) [.callable (handedBack 2), .callable kept, .callable keep, .body keeper] ∧
      (kept.callWith (behaviour 1) [.callable kept]).exec (spent 3) =
        (.ok (.callable (handedBack 3)), spent 4) ∧
      (Value.callable (handedBack 3) == .callable kept) = false ∧
      (Value.callable (handedBack 3) == .callable (handedBack 2)) = false ∧
      (handedBack 3).contract? = (handedBack 2).contract? := by
  obtain ⟨raw, made, wrapper, hv, hands, hnew, hsame⟩ :=
    returned_wrappers_are_new_and_equivalent _ _ _ session_kept _ (behaviour_uniform 1) kept
      [.callable kept] (by simp) (by simp) keeperContract _ _ rfl rfl rfl _ (exec_kept 3)
  obtain ⟨raw', made', wrapper', hv', hands'⟩ :=
    Callable.handsOut_of_callWith (k := keeperContract) rfl rfl rfl (exec_kept 2)
  obtain rfl := Value.callable.inj hv
  obtain rfl := Value.callable.inj hv'
  have hshape : raw.signature.SameShape raw'.signature := by
    rw [← hands.signature_eq, ← hands'.signature_eq]
    exact ⟨rfl, rfl⟩
  exact ⟨session_kept, exec_kept 3, hnew kept (.among (by simp) .refl),
    hnew (handedBack 2) (.among (by simp) .refl), hsame _ _ _ _ _ _ _ hands' hshape⟩

end CallGuard
