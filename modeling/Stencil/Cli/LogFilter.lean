import Stencil.Batch.Event
import Stencil.Text.Search

/-!
# Log filters

Which events are shown. A filter is a list of rules between commas; a rule is a level, a target,
or a target with a level. The rule with the longest target that an event's target starts with
decides, and the last of two rules for one target.
-/

namespace Stencil

/-- A rule of a filter: how much detail the events of a target may have. -/
structure LogRule where
  target : String
  detail : Nat
  deriving Repr, BEq, DecidableEq, Inhabited

/-- A filter of events. -/
abbrev LogFilter := List LogRule

namespace LogFilter

/-- The detail that the name of a level stands for; 0 shows nothing. -/
def detailOf (name : String) : Option Nat :=
  let name := name.toLower
  if name = "off" || name = "0" then some 0
  else if name = "error" || name = "1" then some 1
  else if name = "warn" || name = "2" then some 2
  else if name = "info" || name = "3" then some 3
  else if name = "debug" || name = "4" then some 4
  else if name = "trace" || name = "5" then some 5
  else none

/-- Whether a character may stand in a target. -/
def isTargetChar (c : Char) : Bool :=
  c.isAlphanum || c = '_' || c = ':' || c = '-' || c.toNat ≥ 0x80

/-- Drops a span in brackets from the start of a rule. -/
def dropSpan (cs : List Char) : Option (List Char) :=
  match cs with
  | '[' :: rest =>
    match rest.dropWhile (· ≠ ']') with
    | ']' :: rest => some rest
    | _ => none
  | _ => none

/-- Reads one rule. A rule that names a span is well-formed, but holds for no event. -/
def readRule (text : List Char) : Option (List LogRule) :=
  match detailOf (String.ofList text) with
  | some detail => some [⟨"", detail⟩]
  | none =>
    let target := text.takeWhile isTargetChar
    let rest := text.dropWhile isTargetChar
    let (spanned, rest) :=
      match dropSpan rest with
      | some rest => (true, rest.dropWhile fun c => target.isEmpty && isTargetChar c)
      | none => (false, rest)
    if target.isEmpty && !spanned then none
    else
      let rule (detail : Nat) : Option (List LogRule) :=
        some (if spanned then [] else [⟨String.ofList target, detail⟩])
      match rest with
      | [] | ['='] => rule 5
      | '=' :: level =>
        match detailOf (String.ofList level) with
        | some detail => rule detail
        | none => none
      | _ => none

/-- Reads a filter. Empty rules do not count; a filter without any rule shows errors only. -/
def read (text : String) : Option LogFilter :=
  let texts := (Text.splitAt ',' text.toList).filter fun t => !t.isEmpty
  if texts.isEmpty then some [⟨"", 1⟩]
  else (texts.mapM readRule).map List.flatten

/-- The rule that decides about a target: the last of those with the longest matching target. -/
def ruleFor (filter : LogFilter) (target : String) : Option LogRule :=
  filter.foldl
    (fun best rule =>
      if rule.target.toList.isPrefixOf target.toList then
        match best with
        | some b => if b.target.length ≤ rule.target.length then some rule else some b
        | none => some rule
      else best)
    none

/-- Whether a filter shows an event. -/
def shows (filter : LogFilter) (e : Event) : Bool :=
  match filter.ruleFor e.target with
  | some rule => e.level.detail ≤ rule.detail
  | none => false

/-- The filter of a run for which none is set. -/
def standard (quiet : Bool) : LogFilter :=
  if quiet then [⟨"", 2⟩] else [⟨"tiny_t4", 3⟩, ⟨"tiny_t4_engine", 3⟩]

/-- The filter of a run: the one that is set, if it can be read. -/
def choose (setting : Option String) (quiet : Bool) : LogFilter :=
  match setting.bind read with
  | some filter => filter
  | none => standard quiet

end LogFilter

end Stencil
