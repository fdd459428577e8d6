import Mathlib.Data.List.Chain
import Mathlib.Data.List.Nodup
import Mathlib.Logic.Relation
import Stencil.Failure.Chain

/-!
# The whole of a causal chain

A chain goes from an error to what caused it until there is no cause left. What causes an error is
stated here as a relation, rule by rule: an error reports the one that it wraps, except that a failed
engine function and a context hold theirs in a field that they do not report.

* `ErrorValue.Reports`, `ErrorValue.Reports.source_eq`: what errors report;
* `ErrorValue.CausedBy`, `ErrorValue.cause_eq_some_iff`: what caused an error;
* `ErrorValue.isChain_withCauses`, `ErrorValue.mem_withCauses_iff`, `ErrorValue.nodup_withCauses`:
  each cause of a cause once, in order;
* `ErrorVariant`, `ErrorValue.kind_eq`: the kind of an error is that of its variant;
* `causalChain_complete`: a chain has a link for every cause.
-/

namespace Stencil

namespace ErrorValue

/-! ## What errors report -/

/-- The first error reports the second one as the error that it wraps. -/
inductive Reports : ErrorValue → ErrorValue → Prop
  | read {path : String} {io : IoError} : Reports (.transform (.read path io)) (.io io)
  | markup {path : String} {e : Unterminated} : Reports (.transform (.markup path e)) (.markup e)
  | execution {path : String} {e : ExecutionError} {saved : Option String} :
    Reports (.transform (.execution path e saved)) (.execution e)
  | output {path : String} {io : IoError} : Reports (.transform (.output path io)) (.io io)
  | setup {e : ErrorValue} : Reports (.execution (.setup e)) e
  | compile {e : CompileError} : Reports (.execution (.compile e)) (.compile e)
  | runtime {e : ErrorValue} : Reports (.execution (.runtime e)) e
  | rejected {e : ErrorValue} : Reports (.compile (.rejected e)) e
  | unresolvedImport {ns : String} {e : ErrorValue} :
    Reports (.compile (.unresolvedImport ns (some e))) e
  | wrapped {text : String} {e : ErrorValue} : Reports (.wrapped text e) e
  /-- These show the text of their payload as their own, and report what the payload reports. -/
  | ioOf {payload s : ErrorValue} : Reports payload s → Reports (.ioOf payload) s
  | external {payload s : ErrorValue} : Reports payload s → Reports (.script (.external payload)) s
  | context {text : String} {cause : ScriptError} {s : ErrorValue} :
    Reports (.script cause) s → Reports (.script (.context text cause)) s

mutual

theorem reports_of_script_source (e : ScriptError) :
    ∀ s, e.source = some s → Reports (.script e) s := by
  intro s h
  cases e with
  | external payload =>
    rw [ScriptError.source] at h
    exact .external (reports_of_source payload s h)
  | context text cause =>
    rw [ScriptError.source] at h
    exact .context (reports_of_script_source cause s h)
  | _ => simp [ScriptError.source] at h

theorem reports_of_source (e : ErrorValue) : ∀ s, e.source = some s → Reports e s := by
  intro s h
  cases e with
  | transform e =>
    rw [source] at h
    cases h
    cases e with
    | read path io => exact .read
    | markup path e => exact .markup
    | execution path e saved => exact .execution
    | output path io => exact .output
  | execution e =>
    rw [source] at h
    cases h
    cases e with
    | setup e => exact .setup
    | compile e => exact .compile
    | runtime e => exact .runtime
  | compile e =>
    rw [source] at h
    cases e with
    | rejected e =>
      cases h
      exact .rejected
    | unresolvedImport ns e =>
      rw [CompileError.source] at h
      subst h
      exact .unresolvedImport
  | ioOf payload =>
    rw [source] at h
    exact .ioOf (reports_of_source payload s h)
  | script e =>
    rw [source] at h
    exact reports_of_script_source e s h
  | wrapped text e =>
    rw [source] at h
    cases h
    exact .wrapped
  | _ => simp [source] at h

end

theorem Reports.source_eq {e s : ErrorValue} (h : Reports e s) : e.source = some s := by
  induction h with
  | ioOf _ ih => rw [source, ih]
  | external _ ih => rw [source, ScriptError.source, ih]
  | context _ ih => rwa [source] at ih ⊢
  | _ => simp [source, TransformError.source, ExecutionError.source, CompileError.source]

/-! ## What causes errors -/

/-- The first error was caused by the second one. -/
inductive CausedBy : ErrorValue → ErrorValue → Prop
  /-- What an engine function failed with. -/
  | callback {trace : String} {cause : ScriptError} :
    CausedBy (.script (.callback trace cause)) (.script cause)
  /-- What a text was put before. -/
  | context {text : String} {cause : ScriptError} :
    CausedBy (.script (.context text cause)) (.script cause)
  /-- What an error from outside the snippet runtime reports. -/
  | external {payload s : ErrorValue} :
    Reports payload s → CausedBy (.script (.external payload)) s
  /-- What an error reports that is none of the snippet runtime. -/
  | reported {e s : ErrorValue} : (∀ script, e ≠ .script script) → Reports e s → CausedBy e s

theorem cause_eq_source {e : ErrorValue} (h : ∀ script, e ≠ .script script) :
    e.cause = e.source := by
  cases e with
  | script e => exact absurd rfl (h e)
  | _ => rfl

theorem CausedBy.cause_eq {e c : ErrorValue} (h : CausedBy e c) : e.cause = some c := by
  cases h with
  | callback => rfl
  | context => rfl
  | external h => exact (Reports.external h).source_eq
  | reported hno h => exact (cause_eq_source hno).trans h.source_eq

theorem causedBy_of_cause {e c : ErrorValue} (h : e.cause = some c) : CausedBy e c := by
  cases e with
  | script e =>
    cases e with
    | callback trace cause =>
      cases h
      exact .callback
    | context text cause =>
      cases h
      exact .context
    | external payload =>
      have h : (ErrorValue.script (.external payload)).source = some c := h
      rw [source, ScriptError.source] at h
      exact .external (reports_of_source payload c h)
    | _ => simp [cause, source, ScriptError.source] at h
  | _ => exact .reported nofun (reports_of_source _ c h)

theorem cause_eq_some_iff {e c : ErrorValue} : e.cause = some c ↔ CausedBy e c :=
  ⟨causedBy_of_cause, CausedBy.cause_eq⟩

/-! ## Chains -/

theorem withCauses_eq (e : ErrorValue) : e.withCauses = e :: e.cause.elim [] withCauses := by
  rw [withCauses]
  split <;> rename_i h <;> rw [h] <;> rfl

theorem withCauses_of_none {e : ErrorValue} (h : e.cause = none) : e.withCauses = [e] := by
  rw [withCauses_eq, h]
  rfl

theorem withCauses_of_some {e c : ErrorValue} (h : e.cause = some c) :
    e.withCauses = e :: c.withCauses := by
  rw [withCauses_eq, h]
  rfl

/-- An induction on errors, from causes to what they caused. -/
theorem cause_induction {P : ErrorValue → Prop} (root : ∀ e, e.cause = none → P e)
    (step : ∀ e c, e.cause = some c → P c → P e) (e : ErrorValue) : P e := by
  cases h : e.cause with
  | none => exact root e h
  | some c => exact step e c h (cause_induction root step c)
termination_by sizeOf e
decreasing_by exact sizeOf_cause e c h

/-- In a chain every error was caused by the next one. -/
theorem isChain_withCauses (e : ErrorValue) : e.withCauses.IsChain CausedBy := by
  induction e using cause_induction with
  | root e h =>
    rw [withCauses_of_none h]
    exact .singleton e
  | step e c h ih =>
    rw [withCauses_of_some h]
    rw [withCauses_eq] at ih ⊢
    exact .cons_cons (causedBy_of_cause h) ih

theorem getLast?_withCauses (e : ErrorValue) :
    ∃ root, e.withCauses.getLast? = some root ∧ ∀ c, ¬ CausedBy root c := by
  induction e using cause_induction with
  | root e h =>
    refine ⟨e, by rw [withCauses_of_none h]; rfl, fun c hc => ?_⟩
    rw [hc.cause_eq] at h
    cases h
  | step e c h ih =>
    obtain ⟨root, hlast, hroot⟩ := ih
    refine ⟨root, ?_, hroot⟩
    rw [withCauses_of_some h, List.getLast?_cons, hlast]
    rfl

/-- A chain has the error itself, its cause, the cause of that, and so on. -/
theorem mem_withCauses_iff {e x : ErrorValue} :
    x ∈ e.withCauses ↔ Relation.ReflTransGen CausedBy e x := by
  induction e using cause_induction with
  | root e h =>
    rw [withCauses_of_none h, List.mem_singleton, Relation.ReflTransGen.cases_head_iff, eq_comm]
    refine ⟨.inl, fun hx => hx.resolve_right ?_⟩
    rintro ⟨c, hc, -⟩
    rw [hc.cause_eq] at h
    cases h
  | step e c h ih =>
    rw [withCauses_of_some h, List.mem_cons, Relation.ReflTransGen.cases_head_iff, ih, eq_comm]
    refine or_congr_right ⟨fun hx => ⟨c, causedBy_of_cause h, hx⟩, ?_⟩
    rintro ⟨c', hc', hx⟩
    rw [hc'.cause_eq] at h
    cases h
    exact hx

theorem sizeOf_le_of_mem_withCauses {e x : ErrorValue} (hx : x ∈ e.withCauses) :
    sizeOf x ≤ sizeOf e := by
  induction e using cause_induction with
  | root e h =>
    rw [withCauses_of_none h, List.mem_singleton] at hx
    rw [hx]
  | step e c h ih =>
    rw [withCauses_of_some h, List.mem_cons] at hx
    rcases hx with rfl | hx
    · exact Nat.le_refl _
    · exact Nat.le_of_lt (Nat.lt_of_le_of_lt (ih hx) (sizeOf_cause e c h))

/-- No error comes twice in a chain: a cause is smaller than what it caused. -/
theorem nodup_withCauses (e : ErrorValue) : e.withCauses.Nodup := by
  induction e using cause_induction with
  | root e h =>
    rw [withCauses_of_none h]
    exact List.nodup_singleton e
  | step e c h ih =>
    rw [withCauses_of_some h, List.nodup_cons]
    refine ⟨fun hmem => ?_, ih⟩
    have hle := sizeOf_le_of_mem_withCauses hmem
    exact absurd (sizeOf_cause e c h) (Nat.not_lt.mpr hle)

end ErrorValue

/-! ## Kinds -/

/-- The types of errors and their variants, without what an error holds. -/
inductive ErrorVariant where
  | read | markup | execution | output
  | setup | compile | runtime
  | rejected | unresolvedImport
  | unterminated | io | foreign
  | scriptRuntime | scriptMalformed | scriptMemory | scriptSafety | scriptStack | scriptBind
  | scriptUnresumable | scriptObject | scriptCallback | scriptContext | scriptArgument
  | scriptConversion | scriptExternal
  deriving DecidableEq

/-- The kind of a variant. -/
def ErrorVariant.kind : ErrorVariant → String
  | .read => "ReadError"
  | .markup => "TemplateSyntaxError"
  | .execution => "TransformError"
  | .output => "OutputError"
  | .setup => "SetupError"
  | .compile | .rejected => "CompileError"
  | .runtime => "RuntimeError"
  | .unresolvedImport => "UnresolvedImport"
  | .unterminated => "SyntaxError"
  | .io => "IoError"
  | .foreign => "Error"
  | .scriptRuntime => "LuaRuntimeError"
  | .scriptMalformed => "LuaSyntaxError"
  | .scriptMemory => "LuaMemoryError"
  | .scriptCallback => "LuaCallbackError"
  | .scriptArgument => "LuaBadArgument"
  | .scriptConversion => "LuaConversionError"
  | .scriptExternal => "LuaExternalError"
  | .scriptSafety | .scriptStack | .scriptBind | .scriptUnresumable | .scriptObject
  | .scriptContext => "LuaError"

/-- The variant of an error of the snippet runtime. -/
def ScriptError.variant : ScriptError → ErrorVariant
  | .runtime _ => .scriptRuntime
  | .malformed _ => .scriptMalformed
  | .memory _ => .scriptMemory
  | .safety _ => .scriptSafety
  | .stackExhausted => .scriptStack
  | .bindExhausted => .scriptBind
  | .unresumable => .scriptUnresumable
  | .objectMismatch => .scriptObject
  | .callback .. => .scriptCallback
  | .context .. => .scriptContext
  | .badArgument .. => .scriptArgument
  | .fromSnippet .. | .toSnippet .. => .scriptConversion
  | .external _ => .scriptExternal

/-- The variant of an error. -/
def ErrorValue.variant : ErrorValue → ErrorVariant
  | .transform (.read ..) => .read
  | .transform (.markup ..) => .markup
  | .transform (.execution ..) => .execution
  | .transform (.output ..) => .output
  | .execution (.setup _) => .setup
  | .execution (.compile _) => .compile
  | .execution (.runtime _) => .runtime
  | .compile (.rejected _) => .rejected
  | .compile (.unresolvedImport ..) => .unresolvedImport
  | .markup _ => .unterminated
  | .io _ | .ioOf _ => .io
  | .script e => e.variant
  | .plain _ | .wrapped .. => .foreign

/-- The kind of an error does not depend on what the error holds. -/
theorem ErrorValue.kind_eq (e : ErrorValue) : e.kind = e.variant.kind := by
  cases e with
  | transform e => cases e <;> rfl
  | execution e => cases e <;> rfl
  | compile e => cases e <;> rfl
  | script e => cases e <;> rfl
  | _ => rfl

/-! ## The chain -/

/-- The chain of an error is complete: a link that describes the error, and then the chain of its
cause. So it has one link for each error that is reached by going from cause to cause, in order, down
to one without a cause, and the kind of each link is that of the variant of its error. -/
theorem causalChain_complete (e : ErrorValue) :
    causalChain e = e.describe :: e.cause.elim [] causalChain ∧
    (∀ c, e.cause = some c ↔ e.CausedBy c) ∧
    ∃ errors : List ErrorValue, causalChain e = errors.map ErrorValue.describe ∧ errors.head? = some e ∧
      errors.IsChain ErrorValue.CausedBy ∧
      (∃ root, errors.getLast? = some root ∧ ∀ c, ¬ root.CausedBy c) ∧ errors.Nodup ∧
      (∀ x, x ∈ errors ↔ Relation.ReflTransGen ErrorValue.CausedBy e x) ∧
      (causalChain e).map ChainLink.kind = errors.map fun x => x.variant.kind := by
  have hcons : causalChain e = e.describe :: e.cause.elim [] causalChain := by
    rw [causalChain, ErrorValue.withCauses_eq]
    cases e.cause <;> rfl
  have hhead : e.withCauses.head? = some e := by
    rw [ErrorValue.withCauses_eq]
    rfl
  have hkinds : (causalChain e).map ChainLink.kind = e.withCauses.map fun x => x.variant.kind := by
    rw [causalChain, List.map_map]
    exact List.map_congr_left fun x _ => x.kind_eq
  exact ⟨hcons, fun c => ErrorValue.cause_eq_some_iff, e.withCauses, rfl, hhead,
    e.isChain_withCauses, e.getLast?_withCauses, e.nodup_withCauses,
    fun x => ErrorValue.mem_withCauses_iff, hkinds⟩

/-- The cause of an engine function's failure comes next, and so does that of a context. -/
example :
    (ErrorValue.script (.callback "" (.context "" (.memory "")))).withCauses.map ErrorValue.kind =
      ["LuaCallbackError", "LuaError", "LuaMemoryError"] := by
  cbv

end Stencil
