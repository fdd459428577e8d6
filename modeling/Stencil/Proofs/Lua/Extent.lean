import Stencil.Proofs.Lua.Keeping
import Stencil.Proofs.Lua.Running

/-!
# The extent of a call

What a function does while its caller waits happens above the frames of the caller, in the coroutine
of the caller or in coroutines that it resumed. Every step of the machine stays there, until the
function returns to the frames below it or an error unwinds through them. As long as only parts run
that keep a thing, the thing is kept.

* `Ground`: the frames that a function stands on;
* `Machine.Inside`: a machine that is in the extent of a function;
* `Machine.entry`: the function that an action enters;
* `Inside.step`: a step in the extent stays there, or leaves it in one of three ways.
-/

namespace Stencil.Lua

variable {γ : Type} {f : Store → γ}

/-! ## What waits -/

/-- What comes after a frame keeps a thing. -/
def Frame.Keeps (f : Store → γ) : Frame → Prop
  | .call _ _ k => ∀ vs s, (k vs s).Keeps f (f s)
  | .loop body k =>
    (∀ vs s, (body vs s).Keeps f (f s)) ∧ ∀ how s, (k how s).Keeps f (f s)
  | .scope _ _ k => ∀ how s, (k how s).Keeps f (f s)
  | .protect _ k => ∀ r s, (k r s).Keeps f (f s)
  | .handling | .unwinding _ | .shutting _ => True

/-- A coroutine that is resumed or closed keeps a thing. -/
def Coroutine.Keeps (f : Store → γ) : Coroutine → Prop
  | .suspended _ stack k => (∀ frame ∈ stack, frame.Keeps f) ∧ ∀ vs s, (k vs s).Keeps f (f s)
  | .failed _ stack => ∀ frame ∈ stack, frame.Keeps f
  | .fresh _ | .active | .finished => True

theorem Frame.keeps_const (frame : Frame) : frame.Keeps fun _ => () := by
  cases frame with
  | call | scope | protect => exact fun _ _ => Action.keeps_const _
  | loop => exact ⟨fun _ _ => Action.keeps_const _, fun _ _ => Action.keeps_const _⟩
  | handling | unwinding | shutting => trivial

theorem Coroutine.keeps_const (c : Coroutine) : c.Keeps fun _ => () := by
  cases c with
  | suspended => exact ⟨fun frame _ => frame.keeps_const, fun _ _ => Action.keeps_const _⟩
  | failed => exact fun frame _ => frame.keeps_const
  | fresh | active | finished => trivial

/-- All coroutines keep a thing. -/
def Coroutine.AllKeep (f : Store → γ) (coroutines : Array Coroutine) : Prop :=
  ∀ c ∈ coroutines, c.Keeps f

namespace Coroutine.AllKeep

variable {coroutines : Array Coroutine}

theorem set (h : AllKeep f coroutines) (thread : Nat) {c : Coroutine} (hc : c.Keeps f) :
    AllKeep f (coroutines.setIfInBounds thread c) := by
  intro c' hc'
  rcases Array.mem_or_eq_of_mem_setIfInBounds hc' with hmem | rfl
  · exact h c' hmem
  · exact hc

theorem push (h : AllKeep f coroutines) {c : Coroutine} (hc : c.Keeps f) :
    AllKeep f (coroutines.push c) := by
  intro c' hc'
  rcases Array.mem_push.mp hc' with hmem | rfl
  · exact h c' hmem
  · exact hc

theorem get (h : AllKeep f coroutines) {thread : Nat} {c : Coroutine}
    (hc : coroutines[thread]? = some c) : c.Keeps f :=
  h c (Array.mem_of_getElem? hc)

end Coroutine.AllKeep

/-! ## Grounds -/

/-- What a function stands on: its coroutine, the frames below it, and the coroutines that wait for
its own. -/
structure Ground where
  thread : Nat
  tail : List Frame
  resumers : List Resumer

namespace Ground

/-- Nothing that the function does can take away the ground: a function that takes the place of
another one leaves it, and an error stops at it or ends the whole run. -/
structure Firm (g : Ground) : Prop where
  toCall : Machine.toCall g.tail = g.tail
  stops : Machine.isProtected g.tail = true ∨ g.resumers = []

/-- The ground of a whole run. -/
theorem firm_base (thread : Nat) : Firm ⟨thread, [], []⟩ := ⟨rfl, .inr rfl⟩

/-- Whether a function may run in the coroutine of the ground: nothing yields from there, as long as
a coroutine waits for it. -/
def Admits (g : Ground) (own : Bool) (a : Activation) : Prop :=
  own = true → g.resumers ≠ [] → a.yields = false

end Ground

/-- A frame may stand above a ground, in its coroutine or in another one. -/
structure Frame.Fits (f : Store → γ) (g : Ground) (own : Bool) (frame : Frame) : Prop where
  keeps : frame.Keeps f
  admitted {caller : Activation} {line : Nat} {k : List Value → Store → Action} :
    frame = .call caller line k → g.Admits own caller
  shutting {e : Option Value} : frame = .shutting e → own = false

namespace Ground

variable {g : Ground} {own : Bool}

/-- Coroutines that wait above a ground; the last of them stands on it. -/
inductive Waiting (f : Store → γ) (g : Ground) : List Resumer → Prop
  | ground {r : Resumer} {frames : List Frame} : r.thread = g.thread →
    r.stack = frames ++ g.tail → (∀ frame ∈ frames, frame.Fits f g true) →
    g.Admits true r.running → (∀ outcome s, (r.k outcome s).Keeps f (f s)) →
    Waiting f g (r :: g.resumers)
  | more {r : Resumer} {rest : List Resumer} : (∀ frame ∈ r.stack, frame.Keeps f) →
    (∀ outcome s, (r.k outcome s).Keeps f (f s)) → Waiting f g rest → Waiting f g (r :: rest)

theorem Waiting.ne_nil {resumers : List Resumer} (h : g.Waiting f resumers) : resumers ≠ [] := by
  cases h <;> exact nofun

/-- What is below the frames of the coroutine that is running: the ground itself, or nothing in
another coroutine. -/
inductive Below (f : Store → γ) (g : Ground) (thread : Nat) (resumers : List Resumer) :
    Bool → List Frame → Prop
  | own : thread = g.thread → resumers = g.resumers → Below f g thread resumers true g.tail
  | away : g.Waiting f resumers → Below f g thread resumers false []

theorem Below.toCall {thread : Nat} {resumers : List Resumer} {base : List Frame} (hg : g.Firm)
    (h : g.Below f thread resumers own base) : Machine.toCall base = base := by
  cases h with
  | own => exact hg.toCall
  | away _ => rfl

end Ground

theorem Frame.Fits.of_keeps {g : Ground} {frame : Frame} (h : frame.Keeps f) :
    frame.Fits f g false :=
  ⟨h, fun _ => nofun, fun _ => rfl⟩

/-! ## Machines above a ground -/

/-- A machine with some frames above a ground, in its coroutine or in another one. -/
structure Machine.Stands (f : Store → γ) (g : Ground) (own : Bool) (frames base : List Frame)
    (m : Machine) : Prop where
  stack : m.stack = frames ++ base
  fits : ∀ frame ∈ frames, frame.Fits f g own
  admitted : g.Admits own m.running
  below : g.Below f m.thread m.resumers own base
  coroutines : Coroutine.AllKeep f m.coroutines

/-- A machine in the extent of a function that stands on a ground. -/
def Machine.Inside (f : Store → γ) (g : Ground) (m : Machine) : Prop :=
  ∃ own frames base, m.Stands f g own frames base

/-- A machine that is back on the ground. -/
structure Machine.Back (f : Store → γ) (g : Ground) (m : Machine) : Prop where
  thread : m.thread = g.thread
  resumers : m.resumers = g.resumers
  coroutines : Coroutine.AllKeep f m.coroutines

/-- What the step that leaves the extent of a function can come to, where `f` is `x`. -/
inductive Exit (f : Store → γ) (g : Ground) (x : γ) : Progress → Prop
  /-- The function returns. -/
  | returned {m : Machine} {s : Store} (how : Signal) : m.Back f g → m.stack = g.tail → f s = x →
    Exit f g x (m.finish how s)
  /-- An error goes on below the function. -/
  | thrown {m : Machine} {s : Store} (e : Value) : m.Back f g → f s = x →
    Exit f g x (m.unwind e s g.tail)
  /-- An error that nothing stops ends the run. -/
  | failed {s : Store} (e : Value) (coroutines : Array Coroutine) : g.resumers = [] →
    Machine.isProtected g.tail = false → f s = x → Exit f g x (.halt (.error e) coroutines s)

/-- What a step in the extent of a function can come to: it stays there, or leaves it. -/
inductive Outcome (f : Store → γ) (g : Ground) (x : γ) : Progress → Prop
  | inside {m : Machine} {a : Action} : m.Inside f g → a.Keeps f x → Outcome f g x (.next m a)
  | exit {progress : Progress} : Exit f g x progress → Outcome f g x progress

namespace Machine

variable {g : Ground} {own : Bool} {frames base : List Frame} {m : Machine} {a : Activation}
  {s : Store} {x : γ}

theorem isProtected_append (frames base : List Frame) :
    isProtected (frames ++ base) = (isProtected frames || isProtected base) := by
  induction frames with
  | nil => rfl
  | cons frame frames ih => cases frame <;> first | exact ih | rfl

/-- What stands from the nearest call on are some of the frames above a base that starts there. -/
theorem toCall_append (h : toCall base = base) (frames : List Frame) :
    ∃ upper, toCall (frames ++ base) = upper ++ base ∧ ∀ frame ∈ upper, frame ∈ frames := by
  induction frames with
  | nil => exact ⟨[], h, List.forall_mem_nil _⟩
  | cons frame frames ih =>
    obtain ⟨upper, heq, hmem⟩ := ih
    cases frame with
    | call caller line k => exact ⟨_ :: frames, rfl, fun _ h => h⟩
    | _ => exact ⟨upper, heq, fun fr h => List.mem_cons_of_mem _ (hmem fr h)⟩

namespace Stands

theorem inside (h : m.Stands f g own frames base) : m.Inside f g := ⟨_, _, _, h⟩

/-- Other frames in the place of those that are there. -/
theorem put (h : m.Stands f g own frames base) {upper : List Frame}
    (hfits : ∀ frame ∈ upper, frame.Fits f g own) (ha : g.Admits own a) :
    Stands f g own upper base { m with running := a, stack := upper ++ base } :=
  ⟨rfl, hfits, ha, h.below, h.coroutines⟩

/-- One more frame. -/
theorem push (h : m.Stands f g own frames base) {frame : Frame} (hframe : frame.Fits f g own)
    (ha : g.Admits own a) :
    Stands f g own (frame :: frames) base
      { m with running := a, stack := frame :: m.stack } := by
  have := h.put (List.forall_mem_cons.mpr ⟨hframe, h.fits⟩) ha
  rwa [List.cons_append, ← h.stack] at this

/-- One frame less. -/
theorem pop {frame : Frame} (h : m.Stands f g own (frame :: frames) base) (ha : g.Admits own a) :
    Stands f g own frames base { m with running := a, stack := frames ++ base } :=
  h.put (fun fr hfr => h.fits fr (List.mem_cons_of_mem _ hfr)) ha

end Stands

/-- The coroutine that waits for the running one goes on with an outcome. -/
theorem outcome_resumed {r : Resumer} {rest : List Resumer} {coroutines : Array Coroutine}
    (hw : g.Waiting f (r :: rest)) (hc : Coroutine.AllKeep f coroutines)
    (outcome : Except Value (List Value)) (hx : f s = x) :
    Outcome f g x (.next ⟨r.thread, r.running, r.stack, rest, coroutines⟩ (r.k outcome s)) := by
  cases hw with
  | ground hthread hstack hfits hadmits hk =>
    exact .inside ⟨true, _, _, hstack, hfits, hadmits, .own hthread rfl, hc⟩ (hx ▸ hk outcome s)
  | more hframes hk hw =>
    exact .inside ⟨false, _, _, (List.append_nil _).symm, fun fr hfr => .of_keeps (hframes fr hfr),
      nofun, .away hw, hc⟩ (hx ▸ hk outcome s)

/-- A coroutine above the ground that ends gives its outcome to the one that waits for it. -/
theorem outcome_deliver (hw : g.Waiting f m.resumers) (hc : Coroutine.AllKeep f m.coroutines)
    (as : Coroutine) (has : as.Keeps f) (outcome : Except Value (List Value)) (hx : f s = x) :
    Outcome f g x (m.deliver as outcome s) := by
  rw [deliver]
  cases hrs : m.resumers with
  | nil =>
    rw [hrs] at hw
    cases hw
  | cons r rest => exact outcome_resumed (hrs ▸ hw) (hc.set _ has) outcome hx

theorem keeps_closeCall (closed e : Value) (line : Nat) {k : Store → Action}
    (hk : ∀ s', (k s').Keeps f (f s')) (hx : f s = x) :
    (closeCall closed e line s k).Keeps f x := by
  rw [closeCall]
  exact ⟨hx, fun _ s' => hk s'⟩

/-- Closing the scopes of a coroutine above the ground. -/
theorem outcome_shut (e : Option Value) (hw : g.Waiting f m.resumers)
    (hc : Coroutine.AllKeep f m.coroutines) (hx : f s = x) (stack : List Frame)
    (hstack : ∀ frame ∈ stack, frame.Keeps f) : Outcome f g x (m.shut e s stack) := by
  induction stack with
  | nil => exact outcome_deliver hw hc .finished trivial _ hx
  | cons frame stack ih =>
    have hrest := fun fr hfr => hstack fr (List.mem_cons_of_mem frame hfr)
    cases frame with
    | scope closed line k =>
      refine .inside ⟨false, .shutting e :: stack, [], (List.append_nil _).symm,
        List.forall_mem_cons.mpr ⟨.of_keeps trivial, fun fr hfr => .of_keeps (hrest fr hfr)⟩,
        nofun, .away hw, hc⟩ (keeps_closeCall _ _ _ (fun _ => rfl) hx)
    | _ => exact ih hrest

/-- An error undoes frames up to one that ends it, or goes on below the ground. -/
theorem Stands.outcome_unwind (e : Value)
    (h : Stands f g own frames base { m with stack := frames ++ base }) (hx : f s = x) :
    Outcome f g x (m.unwind e s (frames ++ base)) := by
  induction frames generalizing m with
  | nil =>
    obtain ⟨-, -, -, hbelow, hc⟩ := h
    cases hbelow with
    | own hthread hresumers => exact .exit (.thrown e ⟨hthread, hresumers, hc⟩ hx)
    | away hw => exact outcome_deliver hw hc (.failed e []) (List.forall_mem_nil _) _ hx
  | cons frame frames ih =>
    have hframe := h.fits frame List.mem_cons_self
    cases frame with
    | call caller line k => exact ih (m := { m with running := caller }) (h.pop (hframe.admitted rfl))
    | loop | handling | unwinding => exact ih (h.pop h.admitted)
    | scope closed line k =>
      have hunwinding : Frame.Fits f g own (.unwinding e) := ⟨trivial, nofun, nofun⟩
      exact .inside ((h.pop h.admitted).push hunwinding h.admitted).inside
        (keeps_closeCall _ _ _ (fun _ => rfl) hx)
    | protect handler k => exact .inside (h.pop h.admitted).inside (hx ▸ hframe.keeps (.error e) s)
    | shutting e' =>
      -- A coroutine that is being closed stands in no ground.
      have hown := hframe.shutting rfl
      subst hown
      obtain ⟨-, hfits, -, hbelow, hc⟩ := h
      cases hbelow with
      | away hw =>
        rw [List.append_nil]
        exact outcome_shut (m := m) (some e) hw hc hx frames fun fr hfr =>
          (hfits fr (List.mem_cons_of_mem _ hfr)).keeps

/-- An error is handled above the ground, or goes on below it. -/
theorem Stands.outcome_raise (hg : g.Firm) (h : m.Stands f g own frames base) (e : Value)
    (hx : f s = x) : Outcome f g x (m.raise e s) := by
  have hsame : Stands f g own frames base { m with stack := frames ++ base } := by
    rw [← h.stack]
    exact h
  have hunwind (e : Value) : Outcome f g x (m.unwind e s m.stack) := by
    rw [h.stack]
    exact Stands.outcome_unwind e hsame hx
  rw [raise]
  cases hprotected : isProtected m.stack with
  | false =>
    rw [if_pos (show (!false) = true from rfl)]
    rw [h.stack, isProtected_append, Bool.or_eq_false_iff] at hprotected
    cases h.below with
    | own hthread hresumers =>
      have hnone : g.resumers = [] := hg.stops.resolve_left (by simp [hprotected.2])
      have hhalt : m.deliver (.failed e m.stack) (.error e) s =
          .halt (.error e) (m.coroutines.setIfInBounds m.thread (.failed e m.stack)) s := by
        simp only [deliver, hresumers, hnone]
      rw [hhalt]
      exact .exit (.failed e _ hnone hprotected.2 hx)
    | away hw =>
      refine outcome_deliver hw h.coroutines _ ?_ _ hx
      intro fr hfr
      rw [h.stack, List.append_nil] at hfr
      exact (h.fits fr hfr).keeps
  | true =>
    rw [if_neg (show ¬ (!true) = true from Bool.false_ne_true)]
    cases handlerOf m.stack with
    | none => exact hunwind e
    | some handler =>
      simp only
      split
      · exact hunwind _
      · have hhandling : Frame.Fits f g own .handling :=
          ⟨trivial, (by cases ·), (by cases ·)⟩
        exact .inside (h.push hhandling fun _ _ => rfl).inside ⟨hx, fun _ _ => rfl⟩

/-- A part that ends goes on with the frame that waits for it. -/
theorem Stands.outcome_finish (h : m.Stands f g own frames base) (how : Signal) (hx : f s = x) :
    Outcome f g x (m.finish how s) := by
  cases frames with
  | nil =>
    cases h.below with
    | own hthread hresumers =>
      exact .exit (.returned how ⟨hthread, hresumers, h.coroutines⟩ h.stack hx)
    | away hw =>
      have hstack : m.stack = [] := h.stack
      simp only [finish, hstack]
      exact outcome_deliver hw h.coroutines .finished trivial _ hx
  | cons frame frames =>
    have hframe := h.fits frame List.mem_cons_self
    unfold finish
    rw [h.stack, List.cons_append]
    cases frame with
    | call caller line k =>
      exact .inside (h.pop (hframe.admitted rfl)).inside (hx ▸ hframe.keeps _ s)
    | loop body k =>
      cases how with
      | again vs => exact .inside h.inside (hx ▸ hframe.keeps.1 vs s)
      | next | leave | jump | ret => exact .inside (h.pop h.admitted).inside (hx ▸ hframe.keeps.2 _ s)
    | scope closed line k =>
      exact .inside (h.pop h.admitted).inside (keeps_closeCall _ _ _ (fun s' => hframe.keeps how s') hx)
    | protect handler k => exact .inside (h.pop h.admitted).inside (hx ▸ hframe.keeps _ s)
    | handling => exact Stands.outcome_unwind _ (h.pop h.admitted) hx
    | unwinding e => exact Stands.outcome_unwind e (h.pop h.admitted) hx
    | shutting e =>
      have hown := hframe.shutting rfl
      subst hown
      obtain ⟨-, hfits, -, hbelow, hc⟩ := h
      cases hbelow with
      | away hw =>
        rw [List.append_nil]
        exact outcome_shut e hw hc hx frames fun fr hfr =>
          (hfits fr (List.mem_cons_of_mem _ hfr)).keeps

/-! ## Entering functions -/

/-- Whether a function can be entered: not too many functions wait for one another. -/
def hasRoom (m : Machine) (callee : Value) (site : Site) (s : Store) : Bool :=
  let a := activate s m.running callee site
  !decide (maxDepth ≤ a.depth) && !(a.nesting == maxNesting && nests m.running site)

/-- The function that an action enters, with its arguments and the store. -/
def entry (m : Machine) : Action → Option (Value × List Value × Store)
  | .call callee args site s _ =>
    match callable s 100 callee args with
    | some (callee, args) => if m.hasRoom callee site s then some (callee, args, s) else none
    | none => none
  | .become callee args site s =>
    match callable s 100 callee args with
    | some (.closure p, args) => some (.closure p, args, s)
    | some (callee, args) => if m.hasRoom callee site s then some (callee, args, s) else none
    | none => none
  | _ => none

/-- A call enters a function, or raises that it cannot. -/
theorem call_cases (m : Machine) (callee : Value) (args : List Value) (site : Site) (s : Store)
    (k : List Value → Store → Action) :
    (∃ entered args', callable s 100 callee args = some (entered, args') ∧
        m.hasRoom entered site s = true ∧
        m.call callee args site s k = (m.entered entered site s k, body s entered args')) ∨
      (∀ entered args', callable s 100 callee args = some (entered, args') →
        m.hasRoom entered site s = false) ∧
        ∃ message, m.call callee args site s k = (m, .raise message s) := by
  rw [call]
  cases callable s 100 callee args with
  | none => exact .inr ⟨fun _ _ h => (Option.some_ne_none _ h.symm).elim, _, rfl⟩
  | some found =>
    obtain ⟨entered, args'⟩ := found
    simp only
    split
    · next hdepth =>
      refine .inr ⟨fun e a heq => ?_, _, rfl⟩
      cases heq
      simp [hasRoom, hdepth]
    · next hdepth =>
      split
      · next hnesting =>
        refine .inr ⟨fun e a heq => ?_, _, rfl⟩
        cases heq
        simp only [hasRoom, hnesting, Bool.not_true, Bool.and_false]
      · next hnesting =>
        refine .inl ⟨entered, args', rfl, ?_, rfl⟩
        simp only [hasRoom, hdepth, decide_false, Bool.not_false, Bool.true_and,
          Bool.not_eq_true', Bool.eq_false_iff]
        exact hnesting

/-- A function that a value stands for is entered, if there is room for it. -/
theorem call_entered {callee entered : Value} {args args' : List Value} {site : Site}
    (hcallable : callable s 100 callee args = some (entered, args'))
    (hroom : m.hasRoom entered site s = true) (k : List Value → Store → Action) :
    m.call callee args site s k = (m.entered entered site s k, body s entered args') := by
  rcases call_cases m callee args site s k with ⟨found, args'', hfound, -, hcall⟩ | ⟨hnone, -⟩
  · cases hcallable.symm.trans hfound
    exact hcall
  · exact absurd (hnone _ _ hcallable) (by simp [hroom])

/-- Only functions written in Lua take the place of the one that is running. -/
theorem become_eq_call {callee entered : Value} {args args' : List Value} {site : Site}
    (hcallable : callable s 100 callee args = some (entered, args'))
    (hentered : ∀ p, entered ≠ .closure p) :
    m.become callee args site s = m.call callee args site s fun vs s => .finish (.ret vs) s := by
  unfold become
  split
  · next p args'' heq =>
    cases hcallable.symm.trans heq
    exact absurd rfl (hentered p)
  · rfl

theorem activate_admitted {callee : Value} {site : Site} (ha : g.Admits own m.running) :
    g.Admits own (activate s m.running callee site) := fun hown hresumers => by
  show (m.running.yields && passesYields m.running) = false
  rw [ha hown hresumers, Bool.false_and]

/-- A function that is entered stands above the same ground. -/
theorem Stands.entered (h : m.Stands f g own frames base) (callee : Value) (site : Site) (s : Store)
    {k : List Value → Store → Action} (hk : ∀ vs s', (k vs s').Keeps f (f s')) :
    Stands f g own (.call m.running site.line k :: frames) base (m.entered callee site s k) :=
  h.push ⟨hk, fun heq => by cases heq; exact h.admitted, nofun⟩ (activate_admitted h.admitted)

/-- A call that enters no function, or one that keeps the thing, stays above the ground. -/
theorem Stands.outcome_call (h : m.Stands f g own frames base) {callee : Value} {args : List Value}
    {site : Site} {k : List Value → Store → Action} (hk : ∀ vs s', (k vs s').Keeps f (f s'))
    (hx : f s = x)
    (hbody : ∀ entered args', callable s 100 callee args = some (entered, args') →
      m.hasRoom entered site s = true → (body s entered args').Keeps f x) :
    Outcome f g x (.next (m.call callee args site s k).1 (m.call callee args site s k).2) := by
  rcases call_cases m callee args site s k with ⟨entered, args', hcallable, hroom, hcall⟩ |
    ⟨-, message, hcall⟩
  · rw [hcall]
    exact .inside (h.entered entered site s hk).inside (hbody entered args' hcallable hroom)
  · rw [hcall]
    exact .inside h.inside hx

/-- A function that takes the place of the running one stands above the same ground. -/
theorem Stands.outcome_become (hg : g.Firm) (h : m.Stands f g own frames base) {callee : Value}
    {args : List Value} {site : Site} (hx : f s = x)
    (hbody : ∀ entered args', m.entry (.become callee args site s) = some (entered, args', s) →
      (body s entered args').Keeps f x) :
    Outcome f g x (.next (m.become callee args site s).1 (m.become callee args site s).2) := by
  rw [entry] at hbody
  unfold become
  split
  · next p args' hcallable =>
    rw [hcallable] at hbody
    obtain ⟨upper, hupper, hmem⟩ := toCall_append (h.below.toCall hg) frames
    have hadmitted : g.Admits own (activate s m.running (.closure p) site) :=
      activate_admitted h.admitted
    have hstands := h.put (a := { activate s m.running (.closure p) site with
      name := none
      depth := m.running.depth }) (fun fr hfr => h.fits fr (hmem fr hfr)) hadmitted
    rw [h.stack, hupper]
    exact .inside hstands.inside (hbody _ _ rfl)
  · next hother =>
    refine h.outcome_call (fun _ _ => rfl) hx fun entered args' hcallable hroom => hbody _ _ ?_
    rw [hcallable]
    split
    · next heq => exact absurd (hcallable.trans heq) (hother _ _)
    · next heq =>
      cases heq
      exact if_pos hroom
    · next heq => cases heq

/-- A function that is entered, and is not written in Lua, stands above the same ground. -/
theorem Inside.entered (h : m.Inside f g) {a : Action} (ha : a.Keeps f x) {callee : Value}
    {args : List Value} (hentry : m.entry a = some (callee, args, s))
    (hcallee : ∀ p, callee ≠ .closure p) :
    ∃ caller site m', m.step a = .next m' (body s callee args) ∧ m'.Inside f g ∧
      m'.running = activate s caller callee site ∧ f s = x := by
  obtain ⟨own, frames, base, h⟩ := h
  cases a with
  | call value args' site s' k =>
    rw [entry] at hentry
    split at hentry
    · next hcallable =>
      split at hentry
      · next hroom =>
        cases hentry
        refine ⟨m.running, site, _, ?_, (h.entered callee site s ha.2).inside, rfl, ha.1⟩
        rw [step, call_entered hcallable hroom]
      · cases hentry
    · cases hentry
  | become value args' site s' =>
    rw [entry] at hentry
    split at hentry
    · cases hentry
      exact absurd rfl (hcallee _)
    · next hcallable =>
      split at hentry
      · next hroom =>
        cases hentry
        have hk (vs : List Value) (s' : Store) : Action.Keeps f (.finish (.ret vs) s') (f s') := rfl
        refine ⟨m.running, site, _, ?_, (h.entered callee site s hk).inside, rfl, ha⟩
        rw [step, become_eq_call hcallable hcallee, call_entered hcallable hroom]
      · cases hentry
    · cases hentry
  | _ => cases hentry

/-! ## Coroutines -/

/-- The running coroutine waits for another one. -/
theorem Stands.waiting (h : m.Stands f g own frames base)
    {k : Except Value (List Value) → Store → Action}
    (hk : ∀ outcome s', (k outcome s').Keeps f (f s')) :
    g.Waiting f (⟨m.thread, m.running, m.stack, k⟩ :: m.resumers) := by
  obtain ⟨hstack, hfits, hadmitted, hbelow, -⟩ := h
  cases hbelow with
  | own hthread hresumers =>
    rw [hresumers]
    exact .ground hthread hstack hfits hadmitted hk
  | away hw =>
    refine .more (fun fr hfr => ?_) hk hw
    simp only [hstack, List.append_nil] at hfr
    exact (hfits fr hfr).keeps

theorem Stands.outcome_resume (h : m.Stands f g own frames base) (thread : Nat) (args : List Value)
    {k : Except Value (List Value) → Store → Action}
    (hk : ∀ outcome s', (k outcome s').Keeps f (f s')) (hx : f s = x) :
    Outcome f g x (m.resume thread args s k) := by
  have hrefused (reason : String) :
      Outcome f g x (.next m (k (.error (.text reason)) s)) :=
    .inside h.inside (hx ▸ hk _ s)
  have hcoroutines : Coroutine.AllKeep f (m.coroutines.setIfInBounds thread .active) :=
    h.coroutines.set _ trivial
  rw [resume]
  split
  · exact hrefused _
  · split
    · exact .inside ⟨false, [], [], rfl, List.forall_mem_nil _, nofun, .away (h.waiting hk),
        hcoroutines⟩ ⟨hx, fun _ _ => rfl⟩
    · next running stack next hfound =>
      obtain ⟨hstack, hnext⟩ := h.coroutines.get hfound
      exact .inside ⟨false, stack, [], (List.append_nil _).symm,
        fun fr hfr => .of_keeps (hstack fr hfr), nofun, .away (h.waiting hk), hcoroutines⟩
        (hx ▸ hnext args s)
    · exact hrefused _
    · exact hrefused _

theorem Stands.outcome_yield (h : m.Stands f g own frames base) (vs : List Value)
    {k : List Value → Store → Action} (hk : ∀ vs s', (k vs s').Keeps f (f s')) (hx : f s = x) :
    Outcome f g x (m.yield vs s k) := by
  rw [yield]
  split
  · exact .inside h.inside hx
  · next hyields =>
    cases hrs : m.resumers with
    | nil => exact .inside h.inside (hx ▸ hk [] s)
    | cons r rest =>
      obtain ⟨hstack, hfits, hadmitted, hbelow, hc⟩ := h
      cases hbelow with
      | own hthread hresumers =>
        -- Nothing yields from the coroutine of the ground.
        have hsome : g.resumers ≠ [] := by
          rw [← hresumers, hrs]
          exact nofun
        rw [hadmitted rfl hsome] at hyields
        exact absurd rfl hyields
      | away hw =>
        have hleft : Coroutine.Keeps f (.suspended m.running m.stack k) := by
          refine ⟨fun fr hfr => ?_, hk⟩
          rw [hstack, List.append_nil] at hfr
          exact (hfits fr hfr).keeps
        exact outcome_resumed (hrs ▸ hw) (hc.set _ hleft) (.ok vs) hx

theorem Stands.outcome_closeThread (h : m.Stands f g own frames base) (thread : Nat)
    {k : Except Value Unit → Store → Action} (hk : ∀ r s', (k r s').Keeps f (f s'))
    (hx : f s = x) : Outcome f g x (m.closeThread thread s k) := by
  have hcoroutines : Coroutine.AllKeep f (m.coroutines.setIfInBounds thread .active) :=
    h.coroutines.set _ trivial
  have hstart (e : Option Value) (stack : List Frame) (hstack : ∀ fr ∈ stack, fr.Keeps f) :
      Outcome f g x ((m.switch thread (.base false (m.running.nesting + 1)) []
        (fun outcome s => k (outcome.map fun _ => ()) s)).shut e s stack) :=
    outcome_shut e (h.waiting fun outcome s' => hk (outcome.map fun _ => ()) s') hcoroutines hx stack
      hstack
  rw [closeThread]
  split
  · next hfound => exact hstart none _ (h.coroutines.get hfound).1
  · next hfound => exact hstart _ _ (h.coroutines.get hfound)
  · exact hstart none [] (List.forall_mem_nil _)

/-! ## Steps -/

/-- A step of a part that keeps a thing, in the extent of a function, stays there or leaves it; the
thing is kept, as long as a function that is entered keeps it. -/
theorem Inside.outcome_step (hg : g.Firm) (h : m.Inside f g) {a : Action} (ha : a.Keeps f x)
    (hbody : ∀ callee args s, m.entry a = some (callee, args, s) →
      (body s callee args).Keeps f (f s)) : Outcome f g x (m.step a) := by
  obtain ⟨own, frames, base, h⟩ := h
  cases a with
  | finish how s => exact h.outcome_finish how ha
  | raise e s => exact h.outcome_raise hg e ha
  | call callee args site s k =>
    refine h.outcome_call ha.2 ha.1 fun entered args' hcallable hroom => ha.1 ▸ hbody _ _ _ ?_
    rw [entry, hcallable]
    exact if_pos hroom
  | become callee args site s =>
    refine h.outcome_become hg ha fun entered args' hentry => ?_
    exact (show f s = x from ha) ▸ hbody _ _ _ hentry
  | protect body handler s k =>
    obtain ⟨hx, hbody, hk⟩ := ha
    have hframe : Frame.Fits f g own (.protect handler k) := ⟨hk, nofun, nofun⟩
    exact .inside (h.push hframe h.admitted).inside (hx ▸ hbody s)
  | loop vs body s k =>
    obtain ⟨hx, hbody, hk⟩ := ha
    have hframe : Frame.Fits f g own (.loop body k) := ⟨⟨hbody, hk⟩, nofun, nofun⟩
    exact .inside (h.push hframe h.admitted).inside (hx ▸ hbody vs s)
  | scope body closed line s k =>
    obtain ⟨hx, hbody, hk⟩ := ha
    have hframe : Frame.Fits f g own (.scope closed line k) := ⟨hk, nofun, nofun⟩
    exact .inside (h.push hframe h.admitted).inside (hx ▸ hbody s)
  | inspect level line s k => exact .inside h.inside (ha.1 ▸ ha.2 _ s)
  | createThread callee s k =>
    refine .inside ⟨own, frames, base, h.stack, h.fits, h.admitted, h.below, ?_⟩ (ha.1 ▸ ha.2 _ s)
    exact h.coroutines.push (c := .fresh callee) trivial
  | resume thread args s k => exact h.outcome_resume thread args ha.2 ha.1
  | yield vs s k => exact h.outcome_yield vs ha.2 ha.1
  | closeThread thread s k => exact h.outcome_closeThread thread ha.2 ha.1
  | threadStatus thread s k => exact .inside h.inside (ha.1 ▸ ha.2 _ s)
  | currentThread s k => exact .inside h.inside (ha.1 ▸ ha.2 _ _ _ s)

end Machine

end Stencil.Lua
