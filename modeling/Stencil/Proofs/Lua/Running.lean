import Stencil.Lua.Snippet

/-!
# Running parts of a program

What a part of a program gives when a machine carries it out, whatever comes after it.

* `Machine.Steps`: a number of steps that lead from one action to another;
* `Machine.Gives`: a part gives a result and a store, and what comes after it goes on from there;
* `Machine.Returns`: the same, whatever the part does to coroutines;
* `Gives.call`: a call gives what the body of the function gives;
* `Gives.again`, `leave`: the rounds of a loop;
* `runIn_eq`: a part that is a whole program gives its outcome.
-/

namespace Stencil.Lua

namespace Machine

variable {α β : Type} {m m' m'' : Machine} {a a' a'' : Action} {n j : Nat} {s s' s'' : Store}

/-- A number of steps lead from one action to another, however much fuel is left. -/
def Steps (n : Nat) (m : Machine) (a : Action) (m' : Machine) (a' : Action) : Prop :=
  ∀ fuel, m.run (n + fuel) a = m'.run fuel a'

namespace Steps

theorem refl (m : Machine) (a : Action) : Steps 0 m a m a := fun fuel => by
  rw [Nat.zero_add]

theorem trans (h : Steps n m a m' a') (h' : Steps j m' a' m'' a'') :
    Steps (n + j) m a m'' a'' := fun fuel => by
  rw [Nat.add_assoc, h, h']

theorem one (h : m.step a = .next m' a') : Steps 1 m a m' a' := fun fuel => by
  rw [Nat.add_comm, run, h]

end Steps

/-- A part of a program, in a machine and a store, gives a result and a store after a number of
steps, and what comes after it goes on from there. -/
def Gives (m : Machine) (s : Store) (r : Run α) (n : Nat) (x : α) (s' : Store) : Prop :=
  ∀ k : α → Store → Action, Steps n m (r s k) m (k x s')

/-- A part of a program comes back with a result, with other coroutines and in another store, after
a number of steps, and what comes after it goes on from there. -/
def Returns (m : Machine) (s : Store) (r : Run α) (n : Nat) (x : α) (coroutines : Array Coroutine)
    (s' : Store) : Prop :=
  ∀ k : α → Store → Action, Steps n m (r s k) { m with coroutines } (k x s')

/-- A part that gives a result comes back with it. -/
theorem Gives.returns {r : Run α} {x : α} (h : Gives m s r n x s') :
    m.Returns s r n x m.coroutines s' := h

namespace Gives

variable {r : Run α} {f : α → Run β} {x : α} {y : β}

theorem pure (m : Machine) (s : Store) (x : α) : Gives m s (Pure.pure x) 0 x s :=
  fun _ => Steps.refl _ _

theorem bind (h : Gives m s r n x s') (h' : Gives m s' (f x) j y s'') :
    Gives m s (r >>= f) (n + j) y s'' :=
  fun k => (h _).trans (h' k)

/-- What comes after a part that gives its result without a step goes on from there. -/
theorem steps {k : β → Store → Action} (h : Gives m s r 0 x s') (h' : Steps n m (f x s' k) m' a') :
    Steps n m ((r >>= f) s k) m' a' := by
  have := (h fun x s => f x s k).trans h'
  rwa [Nat.zero_add] at this

/-- A part that gives its result without a step can be passed over. -/
theorem bind_zero (h : Gives m s r 0 x s') (h' : Gives m s' (f x) n y s'') :
    Gives m s (r >>= f) n y s'' := by
  have := h.bind h'
  rwa [Nat.zero_add] at this

theorem map {g : α → β} (h : Gives m s r n x s') :
    Gives m s (r >>= fun a => Pure.pure (g a)) n (g x) s' := fun k => h fun a s => k (g a) s

theorem store {f : Store → Run β} (h : Gives m s (f s) n y s') : Gives m s (Run.store >>= f) n y s' :=
  h

theorem modify (m : Machine) (s : Store) (g : Store → Store) :
    Gives m s (Run.modify g) 0 () (g s) :=
  fun _ => Steps.refl _ _

theorem modifyGet (m : Machine) (s : Store) (g : Store → α × Store) :
    Gives m s (Run.modifyGet g) 0 (g s).1 (g s).2 :=
  fun _ => Steps.refl _ _

end Gives

/-! ## Calls -/

/-- The machine in which the body of a called function runs. -/
def entered (m : Machine) (f : Value) (site : Site) (s : Store) (k : List Value → Store → Action) :
    Machine :=
  { m with running := activate s m.running f site, stack := .call m.running site.line k :: m.stack }

/-- There is room for a number of calls, one within another. -/
structure Room (d : Nat) (m : Machine) : Prop where
  depth : m.running.depth + d < maxDepth
  nesting : m.running.nesting + d < maxNesting

theorem Room.entered {d : Nat} (h : Room (d + 1) m) (f : Value) (site : Site) (s : Store)
    (k : List Value → Store → Action) : Room d (m.entered f site s k) where
  depth := by
    have := h.depth
    show m.running.depth + 1 + d < maxDepth
    omega
  nesting := by
    have := h.nesting
    show (if nests m.running site then m.running.nesting + 1 else m.running.nesting) + d < maxNesting
    split <;> omega

theorem Room.mono {d d' : Nat} (h : Room d m) (hd : d' ≤ d) : Room d' m :=
  ⟨Nat.lt_of_le_of_lt (Nat.add_le_add_left hd _) h.depth,
    Nat.lt_of_le_of_lt (Nat.add_le_add_left hd _) h.nesting⟩

/-- There is room for calls where a program starts. -/
theorem room_base (thread : Nat) (yields : Bool) (coroutines : Array Coroutine) :
    Room 3 ⟨thread, .base yields 3, [], [], coroutines⟩ where
  depth := show 0 + 3 < maxDepth by decide
  nesting := show 3 + 3 < maxNesting by decide

theorem call_eq {f : Value} {args : List Value} {site : Site} {k : List Value → Store → Action}
    (hf : f.isFunction = true) (hr : Room 1 m) :
    m.call f args site s k = (m.entered f site s k, body s f args) := by
  have hd : ¬ maxDepth ≤ (activate s m.running f site).depth := Nat.not_le.mpr hr.depth
  have hn : ((activate s m.running f site).nesting == maxNesting) = false := by
    have := (hr.entered (d := 0) f site s k).nesting
    exact beq_false_of_ne (Nat.ne_of_lt this)
  have hc : callable s 100 f args = some (f, args) := by rw [callable, if_pos hf]
  rw [call, hc]
  dsimp only
  rw [if_neg hd, hn, Bool.false_and]
  rfl

theorem steps_call {f : Value} {args : List Value} {site : Site} {k : List Value → Store → Action}
    (hf : f.isFunction = true) (hr : Room 1 m) :
    Steps 1 m (Run.call f args site s k) (m.entered f site s k) (body s f args) := by
  refine Steps.one ?_
  show m.step (.call f args site s k) = _
  rw [step, call_eq hf hr]

/-- A call goes on with the results that the function ends with. -/
theorem Steps.called {f : Value} {args vs : List Value} {site : Site}
    {k : List Value → Store → Action} {coroutines : Array Coroutine} (hf : f.isFunction = true)
    (hr : Room 1 m)
    (h : Steps n (m.entered f site s k) (body s f args) { m.entered f site s k with coroutines }
      (.finish (.ret vs) s')) :
    Steps (n + 2) m (Run.call f args site s k) { m with coroutines } (k vs s') := by
  have hreturn : Steps 1 { m.entered f site s k with coroutines } (.finish (.ret vs) s')
      { m with coroutines } (k vs s') := Steps.one rfl
  have := ((steps_call hf hr).trans h).trans hreturn
  rwa [show 1 + n + 1 = n + 2 by omega] at this

/-- A call comes back with what the body of the function comes back with. -/
theorem Returns.called {f : Value} {args vs : List Value} {site : Site} {r : Run (List Value)}
    {k : List Value → Store → Action} {coroutines : Array Coroutine} (hf : f.isFunction = true)
    (hr : Room 1 m) (hb : body s f args = r.toAction s)
    (h : (m.entered f site s k).Returns s r n vs coroutines s') :
    Steps (n + 2) m (Run.call f args site s k) { m with coroutines } (k vs s') :=
  Steps.called hf hr (hb ▸ h _)

/-- A call gives what the body of the function gives. -/
theorem Gives.call {f : Value} {args vs : List Value} {site : Site} {r : Run (List Value)}
    (hf : f.isFunction = true) (hr : Room 1 m) (hb : body s f args = r.toAction s)
    (h : ∀ k, Gives (m.entered f site s k) s r n vs s') :
    Gives m s (Run.call f args site) (n + 2) vs s' :=
  fun k => (h k).returns.called hf hr hb

/-- A call of a library function in the place of the end of the running one ends that with the
results. -/
theorem steps_become {b : Builtin} {args vs : List Value} (site : Site) (hr : Room 1 m)
    (h : ∀ k, Gives (m.entered (.builtin b) site s k) s (b.apply args) n vs s') :
    Steps (n + 2) m (.become (.builtin b) args site s) m (.finish (.ret vs) s') := fun fuel => by
  have hcall : Gives m s (Run.call (.builtin b) args site) (n + 2) vs s' := Gives.call rfl hr rfl h
  have hcall := hcall (fun vs s => .finish (.ret vs) s) fuel
  rw [← hcall, show n + 2 + fuel = n + 1 + fuel + 1 by omega]
  rfl

/-- A part whose errors end there gives what it gives, if it raises none. -/
theorem Gives.protect {r : Run (List Value)} {handler : Option Value} {vs : List Value}
    (h : ∀ k, Gives { m with stack := .protect handler k :: m.stack } s r n vs s') :
    Gives m s (Run.protect r handler) (n + 2) (.ok vs) s' := by
  intro k
  have hopen : Steps 1 m (Run.protect r handler s k) { m with stack := .protect handler k :: m.stack }
      (r.toAction s) := Steps.one rfl
  have hclose : Steps 1 { m with stack := .protect handler k :: m.stack } (.finish (.ret vs) s') m
      (k (.ok vs) s') := Steps.one rfl
  have := (hopen.trans (h k _)).trans hclose
  rwa [show 1 + n + 1 = n + 2 by omega] at this

/-! ## Loops -/

/-- The machine in which the rounds of a loop go on. -/
def looping (m : Machine) (round : List Value → Run Signal) (k : Signal → Store → Action) :
    Machine :=
  { m with stack := .loop (fun vs s => round vs s Action.finish) k :: m.stack }

variable {round : List Value → Run Signal} {k : Signal → Store → Action} {vs : List Value}

theorem steps_loop : Steps 1 m (Run.loop vs round s k) (m.looping round k)
    (round vs s Action.finish) := Steps.one rfl

/-- A round that asks for the next one is followed by it. -/
theorem Gives.again {vs' : List Value}
    (h : Gives (m.looping round k) s (round vs) n (.again vs') s') :
    Steps (n + 1) (m.looping round k) (round vs s Action.finish) (m.looping round k)
      (round vs' s' Action.finish) :=
  (h Action.finish).trans (Steps.one rfl)

/-- A round that ends otherwise is the last one. -/
theorem Gives.leave {how : Signal} (h : Gives (m.looping round k) s (round vs) n how s')
    (hhow : ∀ vs, how ≠ .again vs) :
    Steps (n + 1) (m.looping round k) (round vs s Action.finish) m (k how s') := by
  refine (h Action.finish).trans (Steps.one ?_)
  cases how with
  | again vs => exact absurd rfl (hhow vs)
  | next | leave | jump | ret => rfl

/-! ## Whole programs -/

/-- What a coroutine comes to the end with is its outcome. -/
theorem run_of_steps {vs : List Value} {fuel : Nat} {coroutines : Array Coroutine}
    (hs : m.stack = []) (hr : m.resumers = [])
    (h : Steps n m a { m with coroutines } (.finish (.ret vs) s')) (hfuel : n < fuel) :
    m.run fuel a = some (.ok vs, coroutines.setIfInBounds m.thread .finished, s') := by
  obtain ⟨fuel, rfl⟩ : ∃ d, fuel = n + (d + 1) := ⟨fuel - n - 1, by omega⟩
  rw [h, run]
  simp only [step, finish, hs, deliver, hr]

end Machine

/-- A part that is a whole program gives its outcome, if it takes no more steps than it may. -/
theorem Session.runIn_eq {t : Session} {thread n size : Nat} {yields : Bool} {r : Run (List Value)}
    {vs : List Value} {coroutines : Array Coroutine} {s : Store}
    (h : Machine.Steps n ⟨thread, .base yields 3, [], [], t.coroutines⟩ (r.toAction t.store)
      ⟨thread, .base yields 3, [], [], coroutines⟩ (.finish (.ret vs) s))
    (hn : n < budget size) :
    t.runIn thread yields size r = (.ok vs, ⟨s, coroutines.setIfInBounds thread .finished⟩) := by
  rw [runIn, Machine.run_of_steps rfl rfl h hn]

end Stencil.Lua
