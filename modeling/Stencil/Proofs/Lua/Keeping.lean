import Stencil.Lua.Action

/-!
# What a part of a program keeps

A part of a program keeps a thing that can be read off the store if nothing it does itself changes
that thing. What other functions do, while it waits for them, is theirs: whatever they leave it
with, it keeps that.

* `Action.Keeps`: an action keeps the thing, and so does what comes after it;
* `Run.Keeps`: a part keeps the thing as long as what comes after it does;
* `Run.Keeps.bind`, `store`, `modify`, `call`, and the like: parts that are put together.
-/

namespace Stencil.Lua

variable {α β γ : Type} {f : Store → γ}

/-- The thing `f` is `x` in the store of an action, and whatever it is when the action is over,
what comes after keeps it. -/
def Action.Keeps (f : Store → γ) : Action → γ → Prop
  | .finish _ s, x | .raise _ s, x | .become _ _ _ s, x => f s = x
  | .call _ _ _ s k, x => f s = x ∧ ∀ vs s', (k vs s').Keeps f (f s')
  | .protect body _ s k, x =>
    f s = x ∧ (∀ s', (body s').Keeps f (f s')) ∧ ∀ r s', (k r s').Keeps f (f s')
  | .loop _ body s k, x =>
    f s = x ∧ (∀ vs s', (body vs s').Keeps f (f s')) ∧ ∀ how s', (k how s').Keeps f (f s')
  | .scope body _ _ s k, x =>
    f s = x ∧ (∀ s', (body s').Keeps f (f s')) ∧ ∀ how s', (k how s').Keeps f (f s')
  | .inspect _ _ s k, x => f s = x ∧ ∀ i s', (k i s').Keeps f (f s')
  | .createThread _ s k, x => f s = x ∧ ∀ thread s', (k thread s').Keeps f (f s')
  | .resume _ _ s k, x => f s = x ∧ ∀ r s', (k r s').Keeps f (f s')
  | .yield _ s k, x => f s = x ∧ ∀ vs s', (k vs s').Keeps f (f s')
  | .closeThread _ s k, x => f s = x ∧ ∀ r s', (k r s').Keeps f (f s')
  | .threadStatus _ s k, x => f s = x ∧ ∀ status s', (k status s').Keeps f (f s')
  | .currentThread s k, x => f s = x ∧ ∀ thread main yields s', (k thread main yields s').Keeps f (f s')

/-- Nothing changes a thing that is the same in all stores. -/
theorem Action.keeps_const (a : Action) : a.Keeps (fun _ => ()) () := by
  induction a with
  | finish | raise | become => rfl
  | call _ _ _ _ _ ih | inspect _ _ _ _ ih | createThread _ _ _ ih | resume _ _ _ _ ih
  | yield _ _ _ ih | closeThread _ _ _ ih | threadStatus _ _ _ ih => exact ⟨rfl, ih⟩
  | currentThread _ _ ih => exact ⟨rfl, ih⟩
  | protect _ _ _ _ ihbody ihk | loop _ _ _ _ ihbody ihk | scope _ _ _ _ _ ihbody ihk =>
    exact ⟨rfl, ihbody, ihk⟩

/-- A part keeps a thing as long as what comes after it does. -/
def Run.Keeps (f : Store → γ) (r : Run α) : Prop :=
  ∀ s k, (∀ a s', (k a s' : Action).Keeps f (f s')) → (r s k).Keeps f (f s)

namespace Run.Keeps

variable {r : Run α} {g : α → Run β}

theorem pure (a : α) : Keeps f (Pure.pure a : Run α) := fun s _ hk => hk a s

theorem bind (hr : r.Keeps f) (hg : ∀ a, (g a).Keeps f) : Keeps f (r >>= g) :=
  fun s _ hk => hr s _ fun a s' => hg a s' _ hk

theorem store : Keeps f Run.store := fun s _ hk => hk s s

theorem modify {g : Store → Store} (h : ∀ s, f (g s) = f s) : Keeps f (Run.modify g) :=
  fun s _ hk => h s ▸ hk () (g s)

theorem modifyGet {g : Store → α × Store} (h : ∀ s, f (g s).2 = f s) :
    Keeps f (Run.modifyGet g) :=
  fun s _ hk => h s ▸ hk (g s).1 (g s).2

theorem call (callee : Value) (args : List Value) (site : Site) :
    Keeps f (Run.call callee args site) :=
  fun _ _ hk => ⟨rfl, hk⟩

theorem raise (e : Value) : Keeps f (Run.raise e : Run α) := fun _ _ _ => rfl

theorem inspect (level line : Nat) : Keeps f (Run.inspect level line) := fun _ _ hk => ⟨rfl, hk⟩

theorem become (callee : Value) (args : List Value) (site : Site) :
    Keeps f (Run.become callee args site : Run α) :=
  fun _ _ _ => rfl

theorem finish (how : Signal) : Keeps f (Run.finish how : Run α) := fun _ _ _ => rfl

theorem protect {r : Run (List Value)} (hr : r.Keeps f) (handler : Option Value) :
    Keeps f (Run.protect r handler) :=
  fun _ _ hk => ⟨rfl, fun s' => hr s' _ fun _ _ => rfl, hk⟩

theorem loop {body : List Value → Run Signal} (vs : List Value) (hbody : ∀ vs, (body vs).Keeps f) :
    Keeps f (Run.loop vs body) :=
  fun _ _ hk => ⟨rfl, fun vs s' => hbody vs s' _ fun _ _ => rfl, hk⟩

theorem scope {body : Run Signal} (hbody : body.Keeps f) (closed : Value) (line : Nat) :
    Keeps f (Run.scope body closed line) :=
  fun _ _ hk => ⟨rfl, fun s' => hbody s' _ fun _ _ => rfl, hk⟩

theorem fault (line : Nat) (message : Bytes) : Keeps f (Run.fault line message : Run α) :=
  bind (inspect 0 line) fun _ => raise _

theorem complain (message : Bytes) : Keeps f (Run.complain message : Run α) :=
  bind (inspect 1 0) fun _ => raise _

theorem callOne (callee : Value) (args : List Value) (site : Site) :
    Keeps f (Run.callOne callee args site) :=
  bind (call callee args site) fun _ => pure _

/-- A part that is a whole function. -/
theorem toAction {r : Run (List Value)} (hr : r.Keeps f) (s : Store) :
    (r.toAction s).Keeps f (f s) :=
  hr s _ fun _ _ => rfl

end Run.Keeps

end Stencil.Lua
