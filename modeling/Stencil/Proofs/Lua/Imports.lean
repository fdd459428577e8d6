import Stencil.Proofs.Lua.Extent
import Stencil.Proofs.Lua.Places

/-!
# Resolving imports

A namespace is looked for among the globals, part by part, without calling anything; if that does
not lead to a table, `require` is called for it, once. The imports of a unit are resolved in order,
and the first that cannot be resolved is the end of it.

* `Machine.ownCalls`: the functions that the engine itself enters in a run;
* `Session.resolveRecorded`, `resolveAllRecorded`: resolving, with a record of those calls;
* `walk`, `follow_eq`: where the parts of a namespace lead;
* `resolveRecorded_walk`, `resolveRecorded_require`: one import;
* `resolveAllRecorded_cases`: the imports of a unit;
* `Session.start_requires`: a new session.
-/

namespace Stencil.Lua

/-! ## Calls of the engine -/

/-- Whether a frame is a function that waits. -/
def Frame.isCall : Frame → Bool
  | .call .. => true
  | _ => false

namespace Machine

/-- Whether no function and no coroutine waits for the part that is running: the engine started
it. -/
def atBottom (m : Machine) : Bool :=
  m.resumers.isEmpty && !m.stack.any Frame.isCall

/-- The functions that the engine itself enters in a run, with their arguments. -/
def ownCalls : Nat → Machine → Action → List (Value × List Value)
  | 0, _, _ => []
  | fuel + 1, m, a =>
    let made := if m.atBottom then (m.entry a).toList.map fun e => (e.1, e.2.1) else []
    match m.step a with
    | .next m a => made ++ ownCalls fuel m a
    | .halt .. => made

variable {m : Machine} {a : Action} {caller : Activation} {line thread : Nat}

/-- The ground of a function that a part of a whole run called. -/
def callGround (thread : Nat) (caller : Activation) (line : Nat) : Ground :=
  ⟨thread, [.call caller line fun vs s => .finish (.ret vs) s], []⟩

theorem firm_callGround : (callGround thread caller line).Firm := ⟨rfl, .inr rfl⟩

/-- In the extent of a function, something waits. -/
theorem Inside.atBottom_eq_false (h : m.Inside (fun _ => ()) (callGround thread caller line)) :
    m.atBottom = false := by
  obtain ⟨own, frames, base, hstack, -, -, hbelow, -⟩ := h
  cases hbelow with
  | own =>
    have hcall : m.stack.any Frame.isCall = true := by
      rw [hstack, List.any_append]
      simp [callGround, Frame.isCall]
    simp [atBottom, hcall]
  | away hw =>
    have hresumers : m.resumers.isEmpty = false := by simpa using hw.ne_nil
    simp [atBottom, hresumers]

/-- A run that ends enters no function any more. -/
theorem ownCalls_finish (hstack : m.stack = []) (hresumers : m.resumers = []) (fuel : Nat)
    (how : Signal) (s : Store) : ownCalls fuel m (.finish how s) = [] := by
  cases fuel with
  | zero => rfl
  | succ fuel =>
    simp only [ownCalls, entry, step, finish, hstack, deliver, hresumers]
    exact ite_self _

theorem ownCalls_next {m' : Machine} {a' : Action} (h : m.step a = .next m' a')
    (hentry : m.entry a = none) (fuel : Nat) : ownCalls (fuel + 1) m a = ownCalls fuel m' a' := by
  simp only [ownCalls, hentry, h, Option.toList_none, List.map_nil, ite_self, List.nil_append]

/-- What a function calls is not called by the engine. -/
theorem Inside.ownCalls_eq (h : m.Inside (fun _ => ()) (callGround thread caller line))
    (fuel : Nat) (a : Action) : ownCalls fuel m a = [] := by
  induction fuel generalizing m a with
  | zero => rfl
  | succ fuel ih =>
    rw [ownCalls, h.atBottom_eq_false, if_neg Bool.false_ne_true]
    have hstep := h.outcome_step firm_callGround a.keeps_const fun _ _ _ _ => Action.keeps_const _
    generalize m.step a = progress at hstep
    cases hstep with
    | inside h _ => exact ih h _
    | exit hexit =>
      cases hexit with
      | @returned m' s how hback hstack =>
        -- The results are those of the whole run.
        simp only [finish, hstack, callGround, List.nil_append]
        exact ownCalls_finish (m := { m' with running := caller, stack := [] }) rfl hback.resumers
          fuel _ s
      | @thrown m' s e hback _ =>
        have hresumers : m'.resumers = [] := hback.resumers
        simp only [callGround, unwind, deliver, hresumers]
      | failed e coroutines => rfl

/-- The machine that starts a part of a program in the main coroutine. -/
def atStart (coroutines : Array Coroutine) : Machine :=
  ⟨0, .base false 3, [], [], coroutines⟩

/-- A function that is called first is the only one that the engine enters. -/
theorem ownCalls_call {f : Value} (hf : f.isFunction = true) (coroutines : Array Coroutine)
    (args : List Value) (s : Store) (fuel : Nat) :
    ownCalls (fuel + 1) (atStart coroutines) ((Run.call f args ⟨0, none⟩).toAction s) =
      [(f, args)] := by
  have hroom : Room 1 (atStart coroutines) := (room_base 0 false coroutines).mono (by decide)
  have hcallable : callable s 100 f args = some (f, args) := by rw [callable, if_pos hf]
  let k : List Value → Store → Action := fun vs s => .finish (.ret vs) s
  have hentry : (atStart coroutines).entry ((Run.call f args ⟨0, none⟩).toAction s) =
      some (f, args, s) := by
    show (atStart coroutines).entry (.call f args ⟨0, none⟩ s k) = _
    rw [entry, hcallable]
    exact if_pos rfl
  have hstep : (atStart coroutines).step ((Run.call f args ⟨0, none⟩).toAction s) =
      .next ((atStart coroutines).entered f ⟨0, none⟩ s k) (body s f args) := by
    show (atStart coroutines).step (.call f args ⟨0, none⟩ s k) = _
    rw [step, call_eq hf hroom]
  have hinside : ((atStart coroutines).entered f ⟨0, none⟩ s k).Inside (fun _ => ())
      (callGround 0 (.base false 3) 0) :=
    ⟨true, [], _, rfl, List.forall_mem_nil _, fun _ h => absurd rfl h, .own rfl rfl,
      fun c _ => c.keeps_const⟩
  have hbottom : (atStart coroutines).atBottom = true := rfl
  rw [ownCalls, hbottom, hentry, hstep]
  simp only [hinside.ownCalls_eq]
  rfl

end Machine

/-! ## Looking among the globals -/

/-- A table among the globals: the table of globals, and the tables in their fields. -/
inductive Store.Global (s : Store) : Nat → Prop
  | globals : Global s Store.globals
  | field {p q : Nat} (part : String) :
    Global s p → s.rawGet p (.text part) = .table q → Global s q

/-- Where the parts of a name lead, through the fields of tables; nil behind a value that is no
table. -/
def walk (s : Store) : Value → List String → Value
  | v, [] => v
  | .table p, part :: rest => walk s (s.rawGet p (.text part)) rest
  | _, _ :: rest => walk s .nil rest

variable {s : Store}

/-- Through tables without metatables, a name is followed at once. -/
theorem follow_eq (hbare : ∀ p, s.Global p → (s.table p).metatable = none) (v : Value)
    (hv : ∀ p, v = .table p → s.Global p) (parts : List String) (k : Value → Store → Action) :
    Session.follow v parts s k = k (walk s v parts) s := by
  induction parts generalizing v with
  | nil =>
    cases v <;> rfl
  | cons part rest ih =>
    cases v with
    | table p =>
      have hp := hv p rfl
      show Run.index 0 none (.table p) (.text part) s _ = _
      rw [Run.index_bare (k := .text part) rfl (hbare p hp)]
      exact ih _ (fun q hq => .field part hp hq)
    | _ => exact ih .nil nofun

/-! ## One import -/

namespace Session

/-- The functions that the engine enters itself when it runs a part of a program in the main
coroutine. -/
def mainCalls (t : Session) (r : Run (List Value)) : List (Value × List Value) :=
  Machine.ownCalls (budget 0) (.atStart t.coroutines) (r.toAction t.store)

/-- Looks for a namespace among the globals. -/
def walkGlobals (ns : String) : Run (List Value) := do
  return [← follow (.table Store.globals) (Text.pieces '.' ns)]

/-- The table of an imported namespace, with a record of the functions that the engine enters to
find it. -/
def resolveRecorded (t : Session) (ns : String) :
    Except CompileError (Nat × Session) × List (Value × List Value) :=
  let unresolved (cause : Option ScriptError) : Except CompileError (Nat × Session) :=
    .error (.unresolvedImport ns (cause.map .script))
  let calls := t.mainCalls (walkGlobals ns)
  match t.runMain (walkGlobals ns) with
  | (.error e, t) => (unresolved (some (t.failure e)), calls)
  | (.ok (.table p :: _), t) => (.ok (p, t), calls)
  | (.ok _, t) =>
    let calls := calls ++ t.mainCalls (requireNamespace ns)
    match t.runMain (requireNamespace ns) with
    | (.error e, t) => (unresolved (some (t.failure e)), calls)
    | (.ok (.table p :: _), t) => (.ok (p, t), calls)
    | (.ok _, _) => (unresolved none, calls)

/-- The record does not change what is resolved. -/
theorem resolveRecorded_fst (t : Session) (ns : String) :
    (t.resolveRecorded ns).1 = t.resolveImport ns := by
  have hfirst : (t.runMain do return [← follow (.table Store.globals) (Text.pieces '.' ns)]) =
      t.runMain (walkGlobals ns) := rfl
  rw [resolveRecorded, resolveImport, hfirst]
  rcases t.runMain (walkGlobals ns) with ⟨_ | _ | ⟨v, _⟩, t'⟩
  · rfl
  · dsimp only
    rcases t'.runMain (requireNamespace ns) with ⟨_ | _ | ⟨w, _⟩, _⟩
    · rfl
    · rfl
    · cases w <;> rfl
  · cases v with
    | table p => rfl
    | _ =>
      dsimp only
      rcases t'.runMain (requireNamespace ns) with ⟨_ | _ | ⟨w, _⟩, _⟩
      · rfl
      · rfl
      · cases w <;> rfl

/-- Runs a part of a program in the main coroutine, in a number of steps. -/
def runMainFor (t : Session) (fuel : Nat) (r : Run (List Value)) :
    Except Value (List Value) × Session :=
  match (Machine.atStart t.coroutines).run fuel (r.toAction t.store) with
  | some (outcome, coroutines, s) => (outcome, ⟨s, coroutines⟩)
  | none => (.error (.text "not enough memory"), t)

/-- The session in which a part was run that changed nothing. -/
def afterWalk (t : Session) : Session :=
  ⟨t.store, t.coroutines.setIfInBounds 0 .finished⟩

end Session

/-- The globals are tables without metatables, one in another, and `require` is a function. -/
structure Store.Requires (s : Store) (f : Value) : Prop where
  bare : ∀ p, s.Global p → (s.table p).metatable = none
  require : s.rawGet Store.globals (.text "require") = f
  function : f.isFunction = true

/-- There is room for looking for a namespace and calling a function. -/
theorem exists_budget : ∃ fuel, Session.budget 0 = fuel + 1 + 2 :=
  ⟨Session.budget 0 - 3, by decide⟩

namespace Store.Requires

variable {t : Session} {f : Value}

theorem walkGlobals_toAction (h : s.Requires f) (ns : String) :
    (Session.walkGlobals ns).toAction s =
      .finish (.ret [walk s (.table Store.globals) (Text.pieces '.' ns)]) s :=
  follow_eq h.bare (.table Store.globals) (fun p hp => by cases hp; exact .globals) _ _

/-- Looking among the globals calls nothing and changes nothing. -/
theorem runMain_walkGlobals (h : t.store.Requires f) (ns : String) :
    t.runMain (Session.walkGlobals ns) =
      (.ok [walk t.store (.table Store.globals) (Text.pieces '.' ns)], t.afterWalk) := by
  obtain ⟨fuel, hbudget⟩ := exists_budget
  rw [Session.runMain, Session.runIn, hbudget, h.walkGlobals_toAction]
  rfl

theorem mainCalls_walkGlobals (h : t.store.Requires f) (ns : String) :
    t.mainCalls (Session.walkGlobals ns) = [] := by
  rw [Session.mainCalls, h.walkGlobals_toAction]
  exact Machine.ownCalls_finish rfl rfl _ _ _

/-- `require` is found in two steps, and then called. -/
theorem steps_require (h : s.Requires f) (ns : String) (coroutines : Array Coroutine) :
    ∃ m a, (Machine.atStart coroutines).step ((Session.requireNamespace ns).toAction s) = .next m a ∧
      m.entry a = none ∧ m.step a =
        .next (.atStart coroutines) ((Run.call f [.text ns] ⟨0, none⟩).toAction s) := by
  have hbody : Run.toAction
      (do return [← Run.index 0 none (.table Store.globals) (.text "require")]) s =
        .finish (.ret [f]) s := by
    show Run.index 0 none (.table Store.globals) (.text "require") s _ = _
    rw [Run.index_bare (k := .text "require") rfl (h.bare _ .globals), h.require]
    rfl
  refine ⟨_, Run.toAction
    (do return [← Run.index 0 none (.table Store.globals) (.text "require")]) s, rfl, ?_, ?_⟩
  · rw [hbody]
    rfl
  · rw [hbody]
    have hfunction : (Value.first [f]).isFunction = true := h.function
    simp only [Machine.step, Machine.finish, if_pos hfunction]
    rfl

/-- The engine calls `require` once, with the whole namespace. -/
theorem mainCalls_require (h : t.store.Requires f) (ns : String) :
    t.mainCalls (Session.requireNamespace ns) = [(f, [.text ns])] := by
  obtain ⟨fuel, hbudget⟩ := exists_budget
  obtain ⟨m, a, hfirst, hentry, hsecond⟩ := h.steps_require ns t.coroutines
  rw [Session.mainCalls, hbudget, Machine.ownCalls_next hfirst rfl,
    Machine.ownCalls_next hsecond hentry]
  exact Machine.ownCalls_call h.function t.coroutines _ t.store fuel

/-- Calling `require` is what there is to be run. -/
theorem runMain_require (h : t.store.Requires f) (ns : String) :
    t.runMain (Session.requireNamespace ns) =
      t.runMainFor (Session.budget 0 - 2) (Run.call f [.text ns] ⟨0, none⟩) := by
  obtain ⟨fuel, hbudget⟩ := exists_budget
  obtain ⟨m, a, hfirst, -, hsecond⟩ := h.steps_require ns t.coroutines
  have hrun : (Machine.atStart t.coroutines).run (Session.budget 0)
      ((Session.requireNamespace ns).toAction t.store) =
      (Machine.atStart t.coroutines).run (Session.budget 0 - 2)
        ((Run.call f [.text ns] ⟨0, none⟩).toAction t.store) := by
    rw [hbudget, Machine.run, hfirst]
    simp only [Machine.run, hsecond]
    rfl
  rw [Session.runMainFor, ← hrun]
  rfl

end Store.Requires

namespace Session

variable {t : Session} {f : Value} {ns : String}

/-- A namespace that leads to a table among the globals is that table; nothing is called. -/
theorem resolveRecorded_walk (h : t.store.Requires f) {p : Nat}
    (hwalk : walk t.store (.table Store.globals) (Text.pieces '.' ns) = .table p) :
    t.resolveRecorded ns = (.ok (p, t.afterWalk), []) := by
  simp only [resolveRecorded, h.runMain_walkGlobals, h.mainCalls_walkGlobals, hwalk]

/-- What becomes of a namespace that `require` is called for. -/
inductive Required (ns : String) :
    Except Value (List Value) × Session → Except CompileError (Nat × Session) → Prop
  /-- It returns a table. -/
  | table {p : Nat} {vs : List Value} {t : Session} :
    Required ns (.ok (.table p :: vs), t) (.ok (p, t))
  /-- It returns something else. -/
  | other {vs : List Value} {t : Session} : (∀ p, Value.first vs ≠ .table p) →
    Required ns (.ok vs, t) (.error (.unresolvedImport ns none))
  /-- It raises an error. -/
  | raised {e : Value} {t : Session} :
    Required ns (.error e, t) (.error (.unresolvedImport ns (some (.script (t.failure e)))))

/-- For any other namespace `require` is called, once and with the whole of it. -/
theorem resolveRecorded_require (h : t.store.Requires f)
    (hwalk : ∀ p, walk t.store (.table Store.globals) (Text.pieces '.' ns) ≠ .table p) :
    (t.resolveRecorded ns).2 = [(f, [.text ns])] ∧
      Required ns (t.afterWalk.runMainFor (budget 0 - 2) (Run.call f [.text ns] ⟨0, none⟩))
        (t.resolveRecorded ns).1 := by
  have hafter : t.afterWalk.store.Requires f := h
  have hcalls : [] ++ t.afterWalk.mainCalls (requireNamespace ns) = [(f, [.text ns])] :=
    hafter.mainCalls_require ns
  have hresolve : t.resolveRecorded ns =
      match t.afterWalk.runMain (requireNamespace ns) with
      | (.error e, t) =>
        (.error (.unresolvedImport ns (some (.script (t.failure e)))), [(f, [.text ns])])
      | (.ok (.table p :: _), t) => (.ok (p, t), [(f, [.text ns])])
      | (.ok _, _) => (.error (.unresolvedImport ns none), [(f, [.text ns])]) := by
    simp only [resolveRecorded, h.runMain_walkGlobals, h.mainCalls_walkGlobals, ← hcalls]
    cases hv : walk t.store (.table Store.globals) (Text.pieces '.' ns) with
    | table p => exact absurd hv (hwalk p)
    | _ => rfl
  rw [← hafter.runMain_require, hresolve]
  split
  · next hrequired => exact ⟨rfl, hrequired ▸ .raised⟩
  · next hrequired => exact ⟨rfl, hrequired ▸ .table⟩
  · next vs t' hother hrequired =>
    refine ⟨rfl, hrequired ▸ .other fun p hp => ?_⟩
    cases vs with
    | nil => cases hp
    | cons v vs =>
      have hv : v = .table p := hp
      exact hother p vs (by rw [hv])

/-! ## The imports of a unit -/

/-- The tables of imported namespaces, with a record of the namespaces that were resolved and of
what was called for each. -/
def resolveAllRecorded (t : Session) :
    List String → Except CompileError (List Nat × Session) × List (String × List (Value × List Value))
  | [] => (.ok ([], t), [])
  | ns :: rest =>
    match t.resolveRecorded ns with
    | (.error e, calls) => (.error e, [(ns, calls)])
    | (.ok (p, t), calls) =>
      match resolveAllRecorded t rest with
      | (.error e, log) => (.error e, (ns, calls) :: log)
      | (.ok (ps, t), log) => (.ok (p :: ps, t), (ns, calls) :: log)

/-- After an import that is resolved come the others. -/
theorem resolveAllRecorded_cons {t' : Session} {p : Nat} {calls : List (Value × List Value)}
    (h : t.resolveRecorded ns = (.ok (p, t'), calls)) (rest : List String) :
    t.resolveAllRecorded (ns :: rest) =
      ((t'.resolveAllRecorded rest).1.map fun (ps, t) => (p :: ps, t),
        (ns, calls) :: (t'.resolveAllRecorded rest).2) := by
  rw [resolveAllRecorded, h]
  simp only
  obtain ⟨e | ⟨ps, t''⟩, log⟩ := t'.resolveAllRecorded rest
  · rfl
  · rfl

/-- The record does not change what is resolved. -/
theorem resolveAllRecorded_fst (t : Session) (imports : List String) :
    (t.resolveAllRecorded imports).1 = t.resolveImports imports := by
  induction imports generalizing t with
  | nil => rfl
  | cons ns rest ih =>
    rw [resolveAllRecorded, resolveImports, ← resolveRecorded_fst]
    obtain ⟨e | ⟨p, t'⟩, calls⟩ := t.resolveRecorded ns
    · rfl
    · simp only [← ih]
      obtain ⟨e | ⟨ps, t''⟩, log⟩ := t'.resolveAllRecorded rest
      · rfl
      · rfl

/-- Namespaces are resolved one after another, each in the session that the one before left. -/
inductive Resolves : Session → List String → List Nat → Session → Prop
  | nil {t : Session} : Resolves t [] [] t
  | cons {t t' t'' : Session} {ns : String} {rest : List String} {p : Nat} {ps : List Nat} :
    t.resolveImport ns = .ok (p, t') → Resolves t' rest ps t'' → Resolves t (ns :: rest) (p :: ps) t''

theorem resolveImports_singleton {t' : Session} {p : Nat} (h : t.resolveImport ns = .ok (p, t')) :
    t.resolveImports [ns] = .ok ([p], t') := by
  rw [resolveImports, h]
  rfl

/-- An import that cannot be resolved is named by the error. -/
theorem resolveImport_error {e : CompileError} (h : t.resolveImport ns = .error e) :
    ∃ cause, e = .unresolvedImport ns cause := by
  rw [resolveImport] at h
  split at h
  · cases h
    exact ⟨_, rfl⟩
  · cases h
  · split at h
    · cases h
      exact ⟨_, rfl⟩
    · cases h
    · cases h
      exact ⟨_, rfl⟩

/-- All imports are resolved in order, or those before one that cannot be. -/
theorem resolveAllRecorded_cases (t : Session) (imports : List String) :
    (∃ ps t', (t.resolveAllRecorded imports).1 = .ok (ps, t') ∧ t.Resolves imports ps t' ∧
        (t.resolveAllRecorded imports).2.map Prod.fst = imports) ∨
      ∃ before ns after ps t' e, imports = before ++ ns :: after ∧ t.Resolves before ps t' ∧
        t'.resolveImport ns = .error e ∧ ∀ later,
          (t.resolveAllRecorded (before ++ ns :: later)).1 = .error e ∧
          (t.resolveAllRecorded (before ++ ns :: later)).2.map Prod.fst = before ++ [ns] := by
  induction imports generalizing t with
  | nil => exact .inl ⟨[], t, rfl, .nil, rfl⟩
  | cons ns rest ih =>
    have hfst := t.resolveRecorded_fst ns
    cases hresolved : t.resolveRecorded ns with
    | mk r calls =>
      rw [hresolved] at hfst
      cases r with
      | error e =>
        refine .inr ⟨[], ns, rest, [], t, e, rfl, .nil, hfst.symm, fun later => ?_⟩
        simp [resolveAllRecorded, hresolved]
      | ok found =>
        obtain ⟨p, t'⟩ := found
        rcases ih t' with ⟨ps, t'', hrest, hchain, hlog⟩ |
          ⟨before, other, after, ps, t'', e, hsplit, hchain, hfailed, hlater⟩
        · refine .inl ⟨p :: ps, t'', ?_, .cons hfst.symm hchain, ?_⟩
          · rw [resolveAllRecorded_cons hresolved, hrest]
            rfl
          · rw [resolveAllRecorded_cons hresolved, List.map_cons, hlog]
        · refine .inr ⟨ns :: before, other, after, p :: ps, t'', e, by rw [hsplit]; rfl,
            .cons hfst.symm hchain, hfailed, fun later => ?_⟩
          obtain ⟨hrest, hlog⟩ := hlater later
          rw [List.cons_append, resolveAllRecorded_cons hresolved, hrest, List.map_cons, hlog]
          exact ⟨rfl, rfl⟩

end Session

/-! ## New sessions -/

/-- A new session has its globals as resolving needs them. -/
theorem Session.start_requires (system : System) (files : FileSystem) (path : String) :
    (Session.start system files path).store.Requires (.builtin .require) := by
  have hinitial : (Store.initial system files).rawGet Store.globals (.text "require") =
      .builtin .require := Store.get_globalTable_require
  rw [start]
  split
  · exact ⟨fun p _ => Store.metatable_initial system files p, hinitial, rfl⟩
  · -- The path of packages is a field of another table.
    refine ⟨fun p _ => ?_, ?_, rfl⟩
    · rw [Store.metatable_rawSet]
      exact Store.metatable_initial system files p
    · rw [Store.rawGet, Store.table_rawSet _ _ _ (by decide)]
      exact hinitial

end Stencil.Lua
