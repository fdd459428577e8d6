import Mathlib.Data.List.Sort
import Stencil.Proofs.Markup.Layout
import Stencil.Unit.Assembly

/-!
# The imports of a template

The imports of a template are the namespaces that its directives name, each once, in the order in
which they come up first. So what comes later can add names at the end, and nothing else of a
template matters.

* `FirstOccurrences`: the values of a list, each once, in the order of first occurrence;
* `firstOccurrences_importsOf`: what reading a list of directives gives;
* `importsOf_append`, `importsOf_eq_of_named`: the imports of two lists in a row, and of lists that
  name the same;
* `Layout.imports_assemble`: the imports of the program of a template;
* `imports_accumulate`: all of this together.
-/

namespace Stencil

/-! ## First occurrences -/

/-- The values of a list, each once, in the order in which they come up first. -/
structure FirstOccurrences (each all : List String) : Prop where
  mem (v : String) : v ∈ each ↔ v ∈ all
  ordered : each.Pairwise fun v w => all.idxOf v < all.idxOf w

namespace FirstOccurrences

variable {each other all : List String}

/-- No value comes twice. -/
theorem nodup (h : FirstOccurrences each all) : each.Nodup :=
  h.ordered.imp fun hlt heq => Nat.ne_of_lt hlt (congrArg all.idxOf heq)

/-- A list has its first occurrences in one way. -/
theorem unique (h : FirstOccurrences each all) (h' : FirstOccurrences other all) :
    each = other := by
  have hirrefl : Std.Irrefl fun v w => all.idxOf v < all.idxOf w :=
    ⟨fun _ => Nat.lt_irrefl _⟩
  have hasymm : Std.Asymm fun v w => all.idxOf v < all.idxOf w :=
    ⟨fun _ _ => Nat.lt_asymm⟩
  exact h.ordered.eq_of_mem_iff h'.ordered fun v => (h.mem v).trans (h'.mem v).symm

/-- One more value comes last, unless it was there before. -/
theorem concat (h : FirstOccurrences each all) (v : String) :
    FirstOccurrences (addImport each v) (all ++ [v]) := by
  have hordered : each.Pairwise fun x y => (all ++ [v]).idxOf x < (all ++ [v]).idxOf y := by
    refine h.ordered.imp_of_mem fun hx hy hlt => ?_
    rwa [List.idxOf_append_of_mem ((h.mem _).mp hx), List.idxOf_append_of_mem ((h.mem _).mp hy)]
  rw [addImport]
  split
  · next hv =>
    refine ⟨fun w => ?_, hordered⟩
    rw [h.mem, List.mem_append, List.mem_singleton]
    exact ⟨.inl, fun hw => hw.elim id fun heq => heq ▸ (h.mem v).mp hv⟩
  · next hv =>
    refine ⟨fun w => by rw [List.mem_append, List.mem_append, h.mem], ?_⟩
    refine List.pairwise_append.mpr ⟨hordered, List.pairwise_singleton _ v, fun x hx y hy => ?_⟩
    have hx : x ∈ all := (h.mem x).mp hx
    have hv : v ∉ all := fun hmem => hv ((h.mem v).mpr hmem)
    rw [List.mem_singleton.mp hy, List.idxOf_append_of_mem hx, List.idxOf_append_of_notMem hv]
    exact Nat.lt_add_right _ (List.idxOf_lt_length_of_mem hx)

end FirstOccurrences

/-! ## Lists of directives -/

/-- The namespaces that directives name for import, in order, as often as they are named. -/
def namedImports (ds : List Directive) : List String :=
  (ds.filter fun d => d.key = "import namespace").map Directive.value

theorem namedImports_append (a b : List Directive) :
    namedImports (a ++ b) = namedImports a ++ namedImports b := by
  rw [namedImports, List.filter_append, List.map_append]
  rfl

/-- Reading a list of directives is adding what they name, one by one. -/
theorem importsOf_eq (ds : List Directive) :
    importsOf ds = (namedImports ds).foldl addImport [] := by
  rw [importsOf, namedImports, List.foldl_map, List.foldl_filter]
  congr 1
  funext imports d
  by_cases h : d.key = importKey
  · have h' : d.key = "import namespace" := h
    rw [Directive.effect, if_pos h, decide_eq_true h', if_pos rfl]
  · have h' : d.key ≠ "import namespace" := h
    rw [Directive.effect, if_neg h, decide_eq_false h', if_neg Bool.false_ne_true]

/-- The imports are the first occurrences of what is named. -/
theorem firstOccurrences_importsOf (ds : List Directive) :
    FirstOccurrences (importsOf ds) (namedImports ds) := by
  rw [importsOf_eq]
  -- What is read last is added last.
  induction namedImports ds using List.reverseRecOn with
  | nil => exact ⟨fun _ => Iff.rfl, .nil⟩
  | append_singleton vs v ih =>
    rw [List.foldl_append]
    exact ih.concat v

/-- Lists that name the same in the same order import the same. -/
theorem importsOf_eq_of_named {a b : List Directive} (h : namedImports a = namedImports b) :
    importsOf a = importsOf b := by
  rw [importsOf_eq, importsOf_eq, h]

/-- What is added to imports that are there already comes after them. -/
theorem foldl_addImport (imports vs : List String) :
    vs.foldl addImport imports =
      imports ++ (vs.foldl addImport []).filter fun v => v ∉ imports := by
  induction vs using List.reverseRecOn with
  | nil => exact (List.append_nil imports).symm
  | append_singleton vs v ih =>
    rw [List.foldl_append, List.foldl_append, ih]
    show addImport _ v = imports ++ (addImport _ v).filter _
    generalize vs.foldl addImport [] = new
    by_cases hnew : v ∈ new
    · have hmem : v ∈ imports ++ new.filter fun v => v ∉ imports := by
        simp [hnew, Classical.em]
      rw [addImport, addImport, if_pos hnew, if_pos hmem]
    · by_cases hold : v ∈ imports
      · rw [addImport, addImport, if_neg hnew, if_pos (List.mem_append_left _ hold)]
        simp [hold]
      · rw [addImport, addImport, if_neg hnew, if_neg (by simp [hnew, hold])]
        simp [hold]

/-- The imports of two lists in a row are those of the first, and then those of the second that are
new. -/
theorem importsOf_append (a b : List Directive) :
    importsOf (a ++ b) = importsOf a ++ (importsOf b).filter fun v => v ∉ importsOf a := by
  rw [importsOf_eq, namedImports_append, List.foldl_append, ← importsOf_eq, foldl_addImport,
    ← importsOf_eq]

theorem mem_importsOf {ds : List Directive} {v : String} :
    v ∈ importsOf ds ↔ v ∈ namedImports ds :=
  (firstOccurrences_importsOf ds).mem v

/-- What was imported before adds nothing. -/
theorem importsOf_append_of_subset {a b : List Directive} (h : namedImports b ⊆ namedImports a) :
    importsOf (a ++ b) = importsOf a := by
  rw [importsOf_append, List.filter_eq_nil_iff.mpr, List.append_nil]
  intro v hv
  simpa [mem_importsOf] using h (mem_importsOf.mp hv)

/-- Directives with other keys name nothing. -/
theorem namedImports_eq_nil {ds : List Directive} (h : ∀ d ∈ ds, d.key ≠ "import namespace") :
    namedImports ds = [] := by
  rw [namedImports, List.map_eq_nil_iff, List.filter_eq_nil_iff]
  simpa using h

/-! ## Templates -/

namespace Layout

/-- The directive of a region, if its code is one. -/
def directive? : List Char → Option Directive
  | '@' :: body => some (Directive.parse (String.ofList body))
  | _ => none

/-- The directives of a layout, in the order of its regions. -/
def directives (d : Layout) : List Directive :=
  d.regions.filterMap fun region => directive? region.1

variable {d : Layout} {m : Markup}

theorem directive?_classify (code : List Char) :
    (classify code).directive? = directive? code := by
  fun_cases classify code with
  | case1 body => rw [directive?, Directive.parse, String.toList_ofList]; rfl
  | case2 code => rfl
  | case3 code hd _ =>
    rw [directive?]
    · rfl
    · exact hd

theorem directive?_literalSegments (text : List Char) :
    (literalSegments text).filterMap Segment.directive? = [] := by
  rw [literalSegments]
  split <;> rfl

theorem directives_regions (regions : List (List Char × List Char)) :
    (regions.flatMap fun region => classify region.1 :: literalSegments region.2).filterMap
      Segment.directive? = regions.filterMap fun region => directive? region.1 := by
  induction regions with
  | nil => rfl
  | cons region regions ih =>
    rw [List.flatMap_cons, List.cons_append, List.filterMap_cons, List.filterMap_append,
      directive?_literalSegments, List.nil_append, ih, directive?_classify, List.filterMap_cons]

/-- The directives of a template are those of its regions. -/
theorem Yields.directives_eq (h : d.Yields m) : m.directives = d.directives := by
  rw [yields_iff.mp h]
  show (literalSegments d.lead ++ _).filterMap Segment.directive? = d.directives
  rw [List.filterMap_append, directive?_literalSegments, List.nil_append, directives_regions,
    directives]

/-- The imports of the program of a template are those of its directive regions. -/
theorem imports_assemble {text : String} (h : Markup.parse text = .ok m) :
    ∃ d : Layout, d.Cuts text.toList ∧
      ∀ dialect path, (assemble dialect path m).imports = importsOf d.directives := by
  obtain ⟨d, hcuts, hyields⟩ := parse_eq_ok_iff.mp h
  exact ⟨d, hcuts, fun dialect path => by rw [assemble, hyields.directives_eq]⟩

end Layout

/-- The imports of a list of directives are the namespaces that it names, each once, by first
occurrence. A list that follows another one adds what is new in it; what comes again adds nothing,
and neither do directives with other keys, wherever they stand. The imports of a program are those
of the directive regions of its template. -/
theorem imports_accumulate :
    (∀ ds imports, imports = importsOf ds ↔ FirstOccurrences imports (namedImports ds)) ∧
    (∀ a b, importsOf (a ++ b) = importsOf a ++ (importsOf b).filter fun v => v ∉ importsOf a) ∧
    (∀ a b, importsOf (a ++ b ++ a) = importsOf (a ++ b)) ∧
    (∀ a others b, (∀ d ∈ others, d.key ≠ "import namespace") →
      importsOf (a ++ others ++ b) = importsOf (a ++ b)) ∧
    ∀ text m, Markup.parse text = .ok m → ∃ d : Layout, d.Cuts text.toList ∧
      ∀ dialect path, (assemble dialect path m).imports = importsOf d.directives := by
  refine ⟨fun ds imports => ⟨?_, fun h => h.unique (firstOccurrences_importsOf ds)⟩,
    importsOf_append, fun a b => ?_, fun a others b hothers => ?_,
    fun text m => Layout.imports_assemble⟩
  · rintro rfl
    exact firstOccurrences_importsOf ds
  · refine importsOf_append_of_subset fun v hv => ?_
    rw [namedImports_append]
    exact List.mem_append_left _ hv
  · refine importsOf_eq_of_named ?_
    rw [namedImports_append, namedImports_append, namedImports_append, namedImports_eq_nil hothers,
      List.append_nil]

/-- Two namespaces, one of them named twice, with another directive, code and text between. -/
theorem imports_accumulate_twice :
    let b : Directive := ⟨"import namespace", "b"⟩
    let a : Directive := ⟨"import namespace", "a"⟩
    let k : Directive := ⟨"k", "v"⟩
    let text := "<#@ import namespace = b #>x<#@ k = v #><# y #><#@import namespace=\"a\"#><#= z #>" ++
      "<#@ import namespace = b #>"
    let m : Markup := .ofSegments [.directive b, .literal "x", .directive k, .statement " y ",
      .directive a, .expression "z", .directive b]
    (k.key ≠ "import namespace" ∧ importsOf ([b] ++ [k] ++ [a, b]) = ["b", "a"]) ∧
      Markup.parse text = .ok m ∧
      ∀ dialect path, (assemble dialect path m).imports = ["b", "a"] := by
  intro b a k text m
  obtain ⟨-, -, -, hinert, htemplate⟩ := imports_accumulate
  have hk : ∀ d ∈ [k], d.key ≠ "import namespace" := by decide
  have hparse : Markup.parse text = .ok m := by decide
  obtain ⟨d, hcuts, himports⟩ := htemplate text m hparse
  have hregions : d.directives = [b, k, a, b] := by
    rw [Layout.directives, hcuts.regions_eq]
    decide
  refine ⟨⟨by decide, (hinert [b] [k] [a, b] hk).trans (by decide)⟩, hparse, fun dialect path => ?_⟩
  rw [himports, hregions]
  decide

end Stencil
