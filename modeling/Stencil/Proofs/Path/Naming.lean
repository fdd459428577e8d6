import Mathlib.Data.List.Infix
import Mathlib.Data.List.TakeWhile
import Stencil.Path.Basic
import Stencil.Proofs.Text.Pieces

/-!
# Paths that end in a name

A path that ends in a name is what stands up to its last separator, and the name. Replacing its
extension replaces the name, and nothing else.

* `fileName_append`: the last name of such a path;
* `splitName_cases`: a name with an extension is its stem, a dot and the extension;
* `withExtension_append`: the path with its extension replaced, by what becomes of the name;
* `renamed_cases`: which is a name again, unless only dots are left;
* `renamed_ne`, `renamed_injective`, `renamed_injective_of_ne_nil`: when two renamed names are the
  same;
* `join_eq`, `components_leadTo`: a name that is joined to a path is one component more.
-/

namespace Stencil.Path

/-- A name that an entry of a directory can have. -/
structure Proper (name : List Char) : Prop where
  ne_nil : name ≠ []
  ne_dot : name ≠ ['.']
  ne_dots : name ≠ ['.', '.']
  no_slash : '/' ∉ name

instance (name : List Char) : Decidable (Proper name) :=
  decidable_of_iff (name ≠ [] ∧ name ≠ ['.'] ∧ name ≠ ['.', '.'] ∧ '/' ∉ name)
    ⟨fun ⟨a, b, c, d⟩ => ⟨a, b, c, d⟩, fun ⟨a, b, c, d⟩ => ⟨a, b, c, d⟩⟩

/-- What can stand before the last name of a path: nothing, or something with a separator at its
end. -/
def Lead (dir : List Char) : Prop :=
  dir = [] ∨ ∃ init, dir = init ++ ['/']

variable {dir name ext : List Char}

theorem Lead.drop (h : Lead dir) (k : Nat) : Lead (dir.drop k) := by
  rcases h with rfl | ⟨init, rfl⟩
  · exact .inl List.drop_nil
  · rcases Nat.lt_or_ge init.length k with hk | hk
    · exact .inl (List.drop_eq_nil_of_le (by rw [List.length_append]; exact hk))
    · exact .inr ⟨init.drop k, List.drop_append_of_le_length hk⟩

/-! ## The last name -/

theorem leading_prefix (hd : Lead dir) (hn : leading name = []) : leading (dir ++ name) <+: dir := by
  rcases dir with _ | ⟨c, _ | ⟨x, dir⟩⟩
  · rw [List.nil_append, hn]
  · -- A single character in front of a name is the root.
    rcases hd with hd | ⟨init, hd⟩
    · cases hd
    · have hd : [] ++ [c] = init ++ ['/'] := hd
      cases (List.append_inj' hd rfl).2
      exact List.prefix_rfl
  · rw [List.cons_append, List.cons_append, leading.eq_def]
    split
    · rename_i h
      exact List.cons_prefix_cons.mpr ⟨(List.cons.inj h).1.symm, List.nil_prefix⟩
    · rename_i h
      cases h
    · rename_i h
      exact List.cons_prefix_cons.mpr ⟨(List.cons.inj h).1.symm, List.nil_prefix⟩
    · exact List.nil_prefix

theorem Proper.leading (hn : Proper name) : leading name = [] := by
  fun_cases Path.leading name with
  | case1 rest => exact absurd List.mem_cons_self hn.no_slash
  | case2 => exact absurd rfl hn.ne_dot
  | case3 rest => exact absurd (List.mem_cons_of_mem _ List.mem_cons_self) hn.no_slash
  | case4 => rfl

/-- A name at the end of a path is not trimmed. -/
theorem trimReversed_name (hn : Proper name) (back : List Char) :
    trimReversed (name.reverse ++ back) = name.reverse ++ back := by
  obtain ⟨c, r, hr⟩ := List.exists_cons_of_ne_nil (List.reverse_ne_nil_iff.mpr hn.ne_nil)
  have hmem : ∀ x, x ∈ c :: r → x ≠ '/' := by
    rintro x hx rfl
    rw [← hr] at hx
    exact hn.no_slash (List.mem_reverse.mp hx)
  have hdot : c :: r ≠ ['.'] := fun h => hn.ne_dot (List.reverse_eq_iff.mp (hr.trans h))
  rw [hr, List.cons_append, trimReversed]
  · intro rest h
    exact hmem _ List.mem_cons_self (List.cons.inj h).1
  · intro h
    obtain ⟨rfl, hnil⟩ := List.cons.inj h
    rw [(List.append_eq_nil_iff.mp hnil).1] at hdot
    exact hdot rfl
  · intro rest h
    obtain ⟨rfl, htail⟩ := List.cons.inj h
    cases r with
    | nil => exact hdot rfl
    | cons x r => exact hmem _ (List.mem_cons_of_mem _ List.mem_cons_self) (List.cons.inj htail).1

theorem spine_append (hd : Lead dir) (hn : Proper name) :
    ∃ rest, spine (String.ofList (dir ++ name)) =
      (leading (dir ++ name), name.reverse ++ rest.reverse) ∧ Lead rest ∧
      leading (dir ++ name) ++ rest = dir := by
  have hp := leading_prefix hd hn.leading
  refine ⟨dir.drop (leading (dir ++ name)).length, ?_, hd.drop _, List.prefix_iff_eq_append.mp hp⟩
  rw [spine, String.toList_ofList, List.drop_append_of_le_length hp.length_le, List.reverse_append, trimReversed_name hn]

theorem takeWhile_name (hn : Proper name) {rest : List Char} (hr : Lead rest) :
    (name.reverse ++ rest.reverse).takeWhile (· ≠ '/') = name.reverse := by
  have hall : ∀ c ∈ name.reverse, decide (c ≠ '/') = true := by
    intro c hc
    exact decide_eq_true fun h => hn.no_slash (h ▸ List.mem_reverse.mp hc)
  rw [List.takeWhile_append_of_pos hall]
  rcases hr with rfl | ⟨init, rfl⟩
  · exact List.append_nil _
  · simp

theorem dropWhile_name (hn : Proper name) {rest : List Char} (hr : Lead rest) :
    (name.reverse ++ rest.reverse).dropWhile (· ≠ '/') = rest.reverse := by
  have hall : ∀ c ∈ name.reverse, decide (c ≠ '/') = true := by
    intro c hc
    exact decide_eq_true fun h => hn.no_slash (h ▸ List.mem_reverse.mp hc)
  rw [List.dropWhile_append_of_pos hall]
  rcases hr with rfl | ⟨init, rfl⟩
  · rfl
  · simp

/-- The last name of a path that ends in a name. -/
theorem fileName_append (hd : Lead dir) (hn : Proper name) :
    fileName (String.ofList (dir ++ name)) = some (String.ofList name) := by
  obtain ⟨rest, hs, hrest, -⟩ := spine_append hd hn
  rw [fileName, hs]
  simp only [takeWhile_name hn hrest]
  split
  · rename_i h
    exact absurd (List.reverse_eq_nil_iff.mp h) hn.ne_nil
  · rename_i h
    exact absurd (List.reverse_eq_iff.mp h) hn.ne_dots
  · rw [List.reverse_reverse]

/-- A path that ends in `..` has no last name. -/
theorem fileName_dots (hd : Lead dir) :
    fileName (String.ofList (dir ++ ['.', '.'])) = none := by
  have hp : leading (dir ++ ['.', '.']) <+: dir := leading_prefix hd rfl
  have htrim : ∀ back, trimReversed ('.' :: '.' :: back) = '.' :: '.' :: back := by
    intro back
    rw [trimReversed]
    · exact nofun
    · exact nofun
    · exact nofun
  have hrest := hd.drop (leading (dir ++ ['.', '.'])).length
  rw [fileName, spine, String.toList_ofList]
  simp only
  rw [List.drop_append_of_le_length hp.length_le, List.reverse_append]
  rw [show ['.', '.'].reverse = ['.', '.'] from rfl, List.cons_append, List.cons_append,
    List.nil_append, htrim]
  rcases hrest with hr | ⟨init, hr⟩
  · rw [hr]
    rfl
  · rw [hr]
    simp

/-! ## Stems and extensions -/

theorem splitName_append {stem old : List Char} (hs : stem ≠ []) (ho : '.' ∉ old) :
    splitName (stem ++ '.' :: old) = (stem, some old) := by
  have hall : ∀ c ∈ old.reverse, decide (c ≠ '.') = true := by
    intro c hc
    exact decide_eq_true fun h => ho (h ▸ List.mem_reverse.mp hc)
  obtain ⟨c, r, hr⟩ := List.exists_cons_of_ne_nil (List.reverse_ne_nil_iff.mpr hs)
  have hback : (stem ++ '.' :: old).reverse = old.reverse ++ '.' :: stem.reverse := by simp
  rw [splitName, hback]
  simp only [List.takeWhile_append_of_pos hall, List.dropWhile_append_of_pos hall]
  have hdrop : ('.' :: stem.reverse).dropWhile (· ≠ '.') = '.' :: stem.reverse := rfl
  have htake : ('.' :: stem.reverse).takeWhile (· ≠ '.') = [] := rfl
  rw [hdrop, htake, List.append_nil, List.reverse_reverse, hr]
  simp only
  rw [← hr, List.reverse_reverse]

/-- The extension of a name is what stands after the last dot of whatever was put on a stem. -/
theorem suffix_of_splitName {stem old : List Char} (hs : stem ≠ [])
    (h : (splitName (stem ++ '.' :: ext)).2 = some old) : '.' :: old <:+ '.' :: ext := by
  obtain ⟨before, last, rfl, rfl | ⟨init, rfl⟩, hlast⟩ := Text.exists_split_last '.' ext
  · rw [List.nil_append, splitName_append hs hlast] at h
    cases h
    exact List.suffix_rfl
  · have hsplit : stem ++ '.' :: (init ++ ['.'] ++ last) = (stem ++ '.' :: init) ++ '.' :: last := by
      simp
    rw [hsplit, splitName_append (List.append_ne_nil_of_left_ne_nil hs _) hlast] at h
    cases h
    exact ⟨'.' :: init, by simp⟩

/-- A name is a stem, a dot and an extension, or has no extension. -/
theorem splitName_cases (name : List Char) :
    splitName name = (name, none) ∨ ∃ stem old, stem ≠ [] ∧ '.' ∉ old ∧
      name = stem ++ '.' :: old ∧ splitName name = (stem, some old) := by
  obtain ⟨before, old, rfl, hbefore, ho⟩ := Text.exists_split_last '.' name
  have hall : ∀ c ∈ old.reverse, decide (c ≠ '.') = true := by
    intro c hc
    exact decide_eq_true fun h => ho (h ▸ List.mem_reverse.mp hc)
  rcases hbefore with rfl | ⟨_ | ⟨c, stem⟩, rfl⟩
  · left
    have hdrop : old.reverse.dropWhile (· ≠ '.') = [] := List.dropWhile_eq_nil_iff.mpr hall
    rw [splitName, List.nil_append, hdrop]
  · left
    rw [splitName, List.nil_append, List.singleton_append, List.reverse_cons]
    simp only [List.dropWhile_append_of_pos hall]
    rfl
  · right
    refine ⟨c :: stem, old, List.cons_ne_nil c stem, ho, by simp, ?_⟩
    rw [List.append_assoc, List.singleton_append]
    exact splitName_append (List.cons_ne_nil c stem) ho

theorem splitName_stem_ne_nil (hn : name ≠ []) : (splitName name).1 ≠ [] := by
  rcases splitName_cases name with h | ⟨stem, old, hs, -, -, h⟩
  · rwa [h]
  · rwa [h]

theorem mem_of_mem_stem {c : Char} (h : c ∈ (splitName name).1) : c ∈ name := by
  rcases splitName_cases name with hs | ⟨stem, old, -, -, hn, hs⟩
  · rwa [hs] at h
  · rw [hs] at h
    rw [hn]
    exact List.mem_append_left _ h

/-! ## Replacing the extension -/

/-- An extension with the dot before it; nothing for the empty extension. -/
def dotted (ext : List Char) : List Char :=
  if ext.isEmpty then [] else '.' :: ext

/-- What becomes of a name whose extension is replaced. The stem `.` is no name once the extension
is off, and is left with the dot of the extension. -/
def renamed (name ext : List Char) : List Char :=
  if (splitName name).1 = ['.'] then ['.', '.'] else (splitName name).1 ++ dotted ext

/-- The extension of a path that ends in a name. -/
theorem extension_append (hd : Lead dir) (hn : Proper name) :
    extension (String.ofList (dir ++ name)) = (splitName name).2.map String.ofList := by
  rw [extension, fileName_append hd hn]
  simp only [String.toList_ofList]

/-- The path that is left after the extension is a directory's with a name that has the same stem,
or with `..`. -/
theorem dropExtension_append (hd : Lead dir) (hn : Proper name) :
    (splitName name).1 = ['.'] ∧
        dropExtension (String.ofList (dir ++ name)) = String.ofList (dir ++ ['.', '.']) ∨
      (splitName name).1 ≠ ['.'] ∧ ∃ bare, Proper bare ∧
        (splitName bare).1 = (splitName name).1 ∧
        dropExtension (String.ofList (dir ++ name)) = String.ofList (dir ++ bare) := by
  rw [dropExtension, extension_append hd hn]
  rcases splitName_cases name with h | ⟨stem, old, hs, ho, rfl, h⟩
  · rw [h]
    exact .inr ⟨hn.ne_dot, name, hn, by rw [h], rfl⟩
  · rw [h]
    have hcut : String.ofList ((String.ofList (dir ++ (stem ++ '.' :: old))).toList.take
        ((String.ofList (dir ++ (stem ++ '.' :: old))).length - (String.ofList old).length)) =
        String.ofList (dir ++ (stem ++ ['.'])) := by
      have hlen : (dir ++ (stem ++ '.' :: old)).length - old.length =
          (dir ++ (stem ++ ['.'])).length := by simp; omega
      have happ : dir ++ (stem ++ '.' :: old) = dir ++ (stem ++ ['.']) ++ old := by simp
      rw [String.toList_ofList, String.length_ofList, String.length_ofList, hlen, happ,
        List.take_left]
    simp only [Option.map_some, hcut]
    by_cases hdot : stem = ['.']
    · exact .inl ⟨hdot, by rw [hdot]; rfl⟩
    · refine .inr ⟨hdot, stem ++ ['.'], ⟨?_, ?_, ?_, ?_⟩, ?_, rfl⟩
      · exact List.append_ne_nil_of_left_ne_nil hs _
      · intro heq
        have heq : stem ++ ['.'] = [] ++ ['.'] := heq
        exact hs (List.append_cancel_right heq)
      · intro heq
        have heq : stem ++ ['.'] = ['.'] ++ ['.'] := heq
        exact hdot (List.append_cancel_right heq)
      · intro hmem
        rcases List.mem_append.mp hmem with hmem | hmem
        · exact hn.no_slash (List.mem_append_left _ hmem)
        · exact absurd (List.mem_singleton.mp hmem) (by decide)
      · rw [splitName_append hs List.not_mem_nil]

/-- Replacing the extension of a path that ends in a name replaces the name. -/
theorem withExtension_append (hd : Lead dir) (hn : Proper name) {ext : String}
    (hext : '/' ∉ ext.toList) :
    withExtension (String.ofList (dir ++ name)) ext =
      some (String.ofList (dir ++ renamed name ext.toList)) := by
  rw [withExtension, if_neg hext]
  rcases dropExtension_append hd hn with ⟨hdot, hbare⟩ | ⟨hdot, bare, hproper, hstem, hbare⟩
  · simp only [hbare, fileName_dots hd, renamed, if_pos hdot]
  · obtain ⟨rest, hs, hrest, hdir⟩ := spine_append hd hproper
    simp only [hbare, fileName_append hd hproper, hs, dropWhile_name hproper hrest,
      String.toList_ofList, hstem, List.reverse_reverse, hdir, renamed, if_neg hdot, dotted,
      List.append_assoc, List.isEmpty_iff, String.isEmpty_iff, String.toList_eq_nil_iff]

/-- A renamed name is a name, or `..`. -/
theorem renamed_cases (hn : Proper name) (hext : '/' ∉ ext) :
    Proper (renamed name ext) ∨ renamed name ext = ['.', '.'] := by
  rw [renamed]
  by_cases hdot : (splitName name).1 = ['.']
  · exact .inr (if_pos hdot)
  · rw [if_neg hdot]
    by_cases hdots : (splitName name).1 ++ dotted ext = ['.', '.']
    · exact .inr hdots
    · have hs := splitName_stem_ne_nil hn.ne_nil
      refine .inl ⟨List.append_ne_nil_of_left_ne_nil hs _, ?_, hdots, ?_⟩
      · intro heq
        rcases List.append_eq_singleton_iff.mp heq with ⟨h, -⟩ | ⟨h, -⟩
        · exact hs h
        · exact hdot h
      · intro hmem
        rcases List.mem_append.mp hmem with hmem | hmem
        · exact hn.no_slash (mem_of_mem_stem hmem)
        · rw [dotted] at hmem
          split at hmem
          · cases hmem
          · rcases List.mem_cons.mp hmem with h | h
            · exact absurd h (by decide)
            · exact hext h

theorem length_dotted (ext : List Char) :
    (dotted ext).length = if ext = [] then 0 else ext.length + 1 := by
  cases ext with
  | nil => rfl
  | cons c ext => rfl

/-- Two extensions of different lengths make two names of one, unless only dots are left. -/
theorem renamed_ne (hd : renamed name ext ≠ ['.', '.']) {other : List Char}
    (hlt : ext.length < other.length) : renamed name ext ≠ renamed name other := by
  intro heq
  by_cases hstem : (splitName name).1 = ['.']
  · exact hd (if_pos hstem)
  · rw [renamed, renamed, if_neg hstem, if_neg hstem] at heq
    have hlen := congrArg List.length (List.append_cancel_left heq)
    have hother : other ≠ [] := List.ne_nil_of_length_pos (Nat.zero_lt_of_lt hlt)
    rw [length_dotted, length_dotted, if_neg hother] at hlen
    split at hlen <;> omega

/-- Two names with one extension become one name only if they are one, unless only dots are left. -/
theorem renamed_injective {other old : List Char} (hn : (splitName name).2 = some old)
    (ho : (splitName other).2 = some old) (hd : renamed name ext ≠ ['.', '.'])
    (heq : renamed name ext = renamed other ext) : name = other := by
  have hstem : (splitName name).1 ≠ ['.'] := fun h => hd (if_pos h)
  have hstem' : (splitName other).1 ≠ ['.'] := fun h => hd (heq.trans (if_pos h))
  rw [renamed, renamed, if_neg hstem, if_neg hstem'] at heq
  have hsame := List.append_cancel_right heq
  rcases splitName_cases name with h | ⟨stem, old₁, -, -, rfl, h⟩
  · rw [h] at hn
    cases hn
  · rcases splitName_cases other with h' | ⟨stem', old₂, -, -, rfl, h'⟩
    · rw [h'] at ho
      cases ho
    · rw [h] at hn hsame
      rw [h'] at ho hsame
      cases hn
      cases ho
      rw [show stem = stem' from hsame]

/-- With an extension to put on, no two names with one extension become one name, dots or not. -/
theorem renamed_injective_of_ne_nil {other old : List Char} (hext : ext ≠ [])
    (hn : (splitName name).2 = some old) (ho : (splitName other).2 = some old)
    (heq : renamed name ext = renamed other ext) : name = other := by
  by_cases hdots : renamed name ext = ['.', '.']
  · -- Both names are the stem `.` with the extension.
    have hstem {name : List Char} (hn : (splitName name).2 = some old)
        (hdots : renamed name ext = ['.', '.']) : name = ['.'] ++ '.' :: old := by
      rcases splitName_cases name with h | ⟨stem, old', hne, -, rfl, h⟩
      · rw [h] at hn
        cases hn
      · rw [h] at hn
        cases hn
        by_cases hdot : stem = ['.']
        · rw [hdot]
        · rw [renamed, h, if_neg hdot, dotted, if_neg (by simpa using hext)] at hdots
          have hlen := congrArg List.length hdots
          have hstem := List.length_pos_of_ne_nil hne
          have hlong := List.length_pos_of_ne_nil hext
          simp only [List.length_append, List.length_cons, List.length_nil] at hlen
          omega
    rw [hstem hn hdots, hstem ho (heq ▸ hdots)]
  · exact renamed_injective hn ho hdots heq

/-! ## Components -/

theorem pieceComponent_proper {piece : List Char} (h : Proper piece) :
    pieceComponent piece = some (.normal (String.ofList piece)) := by
  fun_cases pieceComponent piece with
  | case1 => exact absurd rfl h.ne_nil
  | case2 => exact absurd rfl h.ne_dot
  | case3 => exact absurd rfl h.ne_dots
  | case4 => rfl

/-- Names, and `..`, are components of their own. -/
theorem pieceComponent_injective {other : List Char} (hn : Proper name ∨ name = ['.', '.'])
    (ho : Proper other ∨ other = ['.', '.']) (h : pieceComponent name = pieceComponent other) :
    name = other := by
  rcases hn with hn | rfl
  · rw [pieceComponent_proper hn] at h
    rcases ho with ho | rfl
    · rw [pieceComponent_proper ho] at h
      exact String.ofList_injective (Component.normal.inj (Option.some.inj h))
    · cases h
  · rcases ho with ho | rfl
    · rw [pieceComponent_proper ho] at h
      cases h
    · rfl

/-- The components of a path with a separator in it: those of what stands before it, and those after
it. -/
theorem components_slash {init : List Char} (hno : '/' ∉ name) :
    components (String.ofList (init ++ '/' :: name)) =
      components (String.ofList (init ++ ['/'])) ++ (pieceComponent name).toList := by
  have hhead : (init ++ '/' :: name).head? = (init ++ ['/']).head? := by
    cases init <;> rfl
  have hfirst (x : List Char) :
      (Text.splitAt '/' init ++ [x]).head? = (Text.splitAt '/' init).head? :=
    List.head?_append_of_ne_nil _ (Text.splitAt_ne_nil '/' init)
  have hpiece : [name].filterMap pieceComponent = (pieceComponent name).toList := by
    cases h : pieceComponent name with
    | none => rw [List.filterMap_cons_none h]; rfl
    | some x => rw [List.filterMap_cons_some h]; rfl
  have hnone : [[]].filterMap pieceComponent = [] := rfl
  simp only [components, isAbsolute, String.toList_ofList, hhead, Text.splitAt_append_cons,
    Text.splitAt_of_notMem hno, Text.splitAt_of_notMem List.not_mem_nil, hfirst,
    List.filterMap_append, hpiece, hnone, List.append_nil]
  split_ifs <;> rfl

/-- A separator at the end of a path makes no component. -/
theorem components_append_slash {cs : List Char} (hne : cs ≠ []) :
    components (String.ofList (cs ++ ['/'])) = components (String.ofList cs) := by
  have hhead : (cs ++ ['/']).head? = cs.head? := List.head?_append_of_ne_nil _ hne
  have hfirst (x : List Char) : (Text.splitAt '/' cs ++ [x]).head? = (Text.splitAt '/' cs).head? :=
    List.head?_append_of_ne_nil _ (Text.splitAt_ne_nil '/' cs)
  have hnone : [[]].filterMap pieceComponent = [] := rfl
  simp only [components, isAbsolute, String.toList_ofList, hhead, Text.splitAt_append_cons,
    Text.splitAt_of_notMem List.not_mem_nil, hfirst, List.filterMap_append, hnone, List.append_nil]

/-- What stands before a name that is joined to a path. -/
def leadTo (p : String) : List Char :=
  if p.toList.getLast? = some '/' then p.toList else p.toList ++ ['/']

variable {p : String}

/-- It is the path and a separator, if the path does not end in one already. -/
theorem leadTo_cases (p : String) :
    (∃ init, leadTo p = init ++ ['/'] ∧ p = String.ofList (init ++ ['/'])) ∨
      ∃ cs, leadTo p = cs ++ ['/'] ∧ p = String.ofList cs ∧ cs.getLast? ≠ some '/' := by
  have hp : p = String.ofList p.toList := String.ofList_toList.symm
  rw [leadTo]
  split
  · rename_i h
    obtain ⟨init, hinit⟩ := List.getLast?_eq_some_iff.mp h
    rw [hinit] at hp
    exact .inl ⟨init, hinit, hp⟩
  · exact .inr ⟨p.toList, rfl, hp, ‹_›⟩

theorem lead_leadTo (p : String) : Lead (leadTo p) := by
  rcases leadTo_cases p with ⟨init, h, -⟩ | ⟨cs, h, -⟩
  · exact .inr ⟨init, h⟩
  · exact .inr ⟨cs, h⟩

/-- A name is joined to a path with a separator between them. -/
theorem join_eq {name : String} (hp : p ≠ "") (hn : Proper name.toList) :
    join p name = String.ofList (leadTo p ++ name.toList) := by
  have hrelative : isAbsolute name ≠ true := by
    intro habsolute
    rw [isAbsolute, decide_eq_true_iff] at habsolute
    exact hn.no_slash (List.mem_of_head? habsolute)
  rw [join, if_neg hrelative, leadTo]
  split
  · rename_i h
    exact absurd (String.toList_eq_nil_iff.mp (List.getLast?_eq_none_iff.mp h)) hp
  · rename_i h
    rw [if_pos h, String.ofList_append, String.ofList_toList, String.ofList_toList]
  · rename_i c hc h
    have hopen : p.toList.getLast? ≠ some '/' := by
      rw [h]
      exact fun heq => hc (Option.some.inj heq)
    rw [if_neg hopen, String.ofList_append, String.ofList_append, String.ofList_toList,
      String.ofList_toList]

theorem join_ne_empty {name : String} (hp : p ≠ "") (hn : Proper name.toList) :
    join p name ≠ "" := by
  rw [join_eq hp hn]
  exact fun h => hn.ne_nil (List.append_eq_nil_iff.mp (String.ofList_eq_empty_iff.mp h)).2

/-- A name that is joined to a path is one component more, if it is any. -/
theorem components_leadTo (hp : p ≠ "") (hno : '/' ∉ name) :
    components (String.ofList (leadTo p ++ name)) =
      components p ++ (pieceComponent name).toList := by
  rcases leadTo_cases p with ⟨init, h, rfl⟩ | ⟨cs, h, rfl, -⟩
  · rw [h, List.append_assoc, List.singleton_append, components_slash hno]
  · have hne : cs ≠ [] := fun h => hp (String.ofList_eq_empty_iff.mpr h)
    rw [h, List.append_assoc, List.singleton_append, components_slash hno, components_append_slash hne]

end Stencil.Path
