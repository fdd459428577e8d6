import Mathlib.Logic.Relation
import Stencil.Proofs.Files.Plain
import Stencil.Unit.Template

/-!
# The path of a template

The path of a template is read piece by piece onto a stack of names. What is left of it is the root
and names, so it is read as itself anywhere; and what leads nowhere in a path makes no difference.

* `Path.read`, `Path.readIn`: the stack of names of a path, and of a path in a working directory;
* `fold_eq`, `fold_eq_follow`: the path that is folded, as a stack of names, and as a walk from the
  root by `join` and `parent`;
* `Path.Inserts`: a path with something put in that leads nowhere;
* `template_path_folded`: the path of a template.
-/

namespace Stencil

namespace Path

open FileSystem (leadOf lead_leadOf pathOf_concat splitAt_leadOf)

variable {names : List String} {name piece cwd p q : String}

/-! ## Reading a path -/

/-- Reads a piece between separators onto a stack of names: nothing and `.` do nothing, `..` takes
the top name away if there is one, and anything else is a name. -/
def readPiece (names : List String) (piece : String) : List String :=
  if piece = "" ∨ piece = "." then names
  else if piece = ".." then names.tail
  else piece :: names

/-- Reads a path onto a stack of names. -/
def read (names : List String) (p : String) : List String :=
  (Text.pieces '/' p).foldl readPiece names

/-- The names of a path that is read in a working directory, the last one on top. -/
def readIn (cwd p : String) : List String :=
  read (if isAbsolute p then [] else read [] cwd) p

theorem foldStep_pieceComponent (names : List String) (piece : List Char) :
    ((pieceComponent piece).elim names fun c => foldStep names c) =
      readPiece names (String.ofList piece) := by
  have hne {s : String} (h : piece ≠ s.toList) : String.ofList piece ≠ s := fun heq =>
    h (by rw [← heq, String.toList_ofList])
  fun_cases pieceComponent piece with
  | case1 => rfl
  | case2 => rfl
  | case3 => exact List.drop_one
  | case4 _ hempty hdot hdots =>
    have hidle : ¬ (String.ofList piece = "" ∨ String.ofList piece = ".") :=
      not_or.mpr ⟨hne hempty, hne hdot⟩
    rw [readPiece, if_neg hidle, if_neg (hne (s := "..") hdots)]
    rfl

/-- The components of a path are read as its pieces are; the root empties the stack. -/
theorem foldNames_components (names : List String) (p : String) :
    foldNames names (components p) = read (if isAbsolute p then [] else names) p := by
  have hbody (names : List String) :
      foldNames names ((Text.splitAt '/' p.toList).filterMap pieceComponent) = read names p := by
    rw [foldNames, List.foldl_filterMap, read, Text.pieces, List.foldl_map]
    congr 1
    funext names piece
    rw [← foldStep_pieceComponent]
    cases pieceComponent piece <;> rfl
  rw [components]
  cases isAbsolute p with
  | true => exact hbody []
  | false =>
    simp only [Bool.false_eq_true, ↓reduceIte]
    split
    · exact hbody names
    · exact hbody names

theorem fold_eq (cwd : String) (hp : p ≠ "") : fold cwd p = ofNames (readIn cwd p) := by
  rw [fold, if_neg (by simpa using hp), foldNames_components, foldNames_components, ite_self, readIn]

theorem read_append (names : List String) (a b : String) :
    read names (a ++ "/" ++ b) = read (read names a) b := by
  rw [read, Text.pieces_append rfl, List.foldl_append, read, read]

theorem slash_notMem_of_mem_pieces (h : piece ∈ Text.pieces '/' p) : '/' ∉ piece.toList := by
  obtain ⟨cs, hcs, rfl⟩ := List.mem_map.mp h
  rw [String.toList_ofList]
  exact Text.notMem_of_mem_splitAt hcs

theorem toList_ne {s : String} (h : piece ≠ s) : piece.toList ≠ s.toList :=
  fun heq => h (String.ext heq)

/-- Only names come onto the stack. -/
theorem proper_readPiece (h : ∀ name ∈ names, Proper name.toList) (hpiece : '/' ∉ piece.toList) :
    ∀ name ∈ readPiece names piece, Proper name.toList := by
  rw [readPiece]
  split
  · exact h
  · next hidle =>
    rw [not_or] at hidle
    split
    · exact fun name hname => h name (List.mem_of_mem_tail hname)
    · next hdots =>
      refine List.forall_mem_cons.mpr ⟨⟨?_, ?_, ?_, hpiece⟩, h⟩
      · exact toList_ne (s := "") hidle.1
      · exact toList_ne (s := ".") hidle.2
      · exact toList_ne (s := "..") hdots

theorem proper_read (h : ∀ name ∈ names, Proper name.toList) (p : String) :
    ∀ name ∈ read names p, Proper name.toList := by
  have hpieces : ∀ piece ∈ Text.pieces '/' p, '/' ∉ piece.toList :=
    fun _ => slash_notMem_of_mem_pieces
  rw [read]
  generalize Text.pieces '/' p = pieces at hpieces
  -- One piece after another.
  induction pieces generalizing names with
  | nil => exact h
  | cons piece pieces ih =>
    rw [List.forall_mem_cons] at hpieces
    exact ih (proper_readPiece h hpieces.1) hpieces.2

theorem proper_readIn (cwd p : String) : ∀ name ∈ readIn cwd p, Proper name.toList := by
  refine proper_read ?_ p
  split
  · exact List.forall_mem_nil _
  · exact proper_read (List.forall_mem_nil _) cwd

/-! ## Paths of names -/

theorem ofNames_cons (name : String) (names : List String) :
    ofNames (name :: names) = String.ofList (leadOf names.reverse ++ name.toList) := by
  rw [← pathOf_concat, ofNames, List.reverse_cons]
  rfl

theorem isAbsolute_ofNames (names : List String) : isAbsolute (ofNames names) = true := by
  rw [isAbsolute, ofNames, String.toList_append]
  rfl

/-- The path of names has the names as its components. -/
theorem components_ofNames (h : ∀ name ∈ names, Proper name.toList) :
    components (ofNames names) = .root :: names.reverse.map .normal := by
  have hbody (d : List String) (hd : ∀ name ∈ d, Proper name.toList) :
      (d.map String.toList).filterMap pieceComponent = d.map .normal := by
    rw [List.filterMap_map, ← List.filterMap_eq_map]
    refine List.filterMap_congr fun name hname => ?_
    rw [Function.comp, pieceComponent_proper (hd name hname), String.ofList_toList]
    rfl
  rw [components, isAbsolute_ofNames, if_pos rfl]
  cases names with
  | nil => rfl
  | cons name names =>
    rw [List.forall_mem_cons] at h
    have hd : ∀ name ∈ names.reverse, Proper name.toList :=
      fun name hname => h.2 name (List.mem_reverse.mp hname)
    rw [ofNames_cons, String.toList_ofList, splitAt_leadOf _ hd h.1.no_slash, List.cons_append,
      List.filterMap_cons_none rfl, List.reverse_cons, List.map_append, ← hbody _ hd,
      List.filterMap_append]
    congr 2
    exact hbody [name] (by simpa using h.1)

/-- The path of names is read as these names. -/
theorem read_ofNames (h : ∀ name ∈ names, Proper name.toList) : read [] (ofNames names) = names := by
  have hnames (stack names : List String) :
      foldNames stack (names.map .normal) = names.reverse ++ stack := by
    induction names generalizing stack with
    | nil => rfl
    | cons name names ih =>
      show foldNames (name :: stack) (names.map .normal) = _
      rw [ih, List.reverse_cons, List.append_assoc]
      rfl
  have hread := foldNames_components [] (ofNames names)
  rw [ite_self, components_ofNames h] at hread
  rw [← hread]
  show foldNames [] (names.reverse.map .normal) = names
  rw [hnames, List.reverse_reverse, List.append_nil]

/-- What stands before a name, without the separator at its end, is the path of the names in it. -/
theorem ofSpine_lead (h : ∀ name ∈ names, Proper name.toList) :
    ofSpine ['/']
      (trimReversed (names.reverse.flatMap fun name => name.toList ++ ['/']).reverse) =
        ofNames names := by
  cases names with
  | nil => rfl
  | cons name names =>
    rw [List.reverse_cons, List.flatMap_append, List.reverse_append, List.flatMap_singleton,
      List.reverse_append, List.append_assoc]
    show ofSpine ['/'] (trimReversed (name.toList.reverse ++ _)) = _
    rw [trimReversed_name (h name List.mem_cons_self), ofSpine, List.reverse_append,
      List.reverse_reverse, List.reverse_reverse, ofNames_cons]
    rfl

/-- Taking the last name away leads to the path of the others. -/
theorem parent_ofNames (h : ∀ n ∈ name :: names, Proper n.toList) :
    parent (ofNames (name :: names)) = some (ofNames names) := by
  rw [List.forall_mem_cons] at h
  obtain ⟨rest, hspine, hlead, hsplit⟩ := spine_append (lead_leadOf names.reverse) h.1
  have hleading : leading (leadOf names.reverse ++ name.toList) = ['/'] := rfl
  rw [hleading] at hspine hsplit
  have hrest : rest = names.reverse.flatMap fun name => name.toList ++ ['/'] :=
    (List.cons.inj hsplit).2
  rw [ofNames_cons, parent, hspine]
  simp only
  split
  · next hnil =>
    have hname : name.toList.reverse = [] := (List.append_eq_nil_iff.mp hnil).1
    exact absurd (List.reverse_eq_nil_iff.mp hname) h.1.ne_nil
  · rw [dropWhile_name h.1 hlead, hrest, ofSpine_lead h.2]

theorem fileName_ofNames (h : Proper name.toList) (names : List String) :
    fileName (ofNames (name :: names)) = some name := by
  rw [ofNames_cons, fileName_append (lead_leadOf _) h, String.ofList_toList]

theorem isAbsolute_eq_false (h : '/' ∉ name.toList) : isAbsolute name = false :=
  decide_eq_false fun hhead => h (List.mem_of_head? hhead)

theorem leadOf_concat (d : List String) (name : String) :
    leadOf (d ++ [name]) = leadOf d ++ name.toList ++ ['/'] := by
  rw [leadOf, List.flatMap_append, List.flatMap_singleton, leadOf, List.cons_append,
    List.cons_append, List.append_assoc]

/-- A name read from the path of names comes after them. -/
theorem join_ofNames (h : ∀ n ∈ name :: names, Proper n.toList) :
    join (ofNames names) name = ofNames (name :: names) := by
  rw [List.forall_mem_cons] at h
  rw [join, isAbsolute_eq_false h.1.no_slash, if_neg Bool.false_ne_true]
  cases names with
  | nil =>
    rw [ofNames_cons]
    refine String.ext ?_
    rw [String.toList_ofList]
    exact String.toList_append
  | cons last names =>
    have hlast : Proper last.toList := h.2 last List.mem_cons_self
    obtain ⟨c, hc⟩ : ∃ c, last.toList.getLast? = some c :=
      ⟨_, List.getLast?_eq_some_getLast hlast.ne_nil⟩
    have hslash : c ≠ '/' := fun heq => hlast.no_slash (heq ▸ List.mem_of_getLast? hc)
    rw [ofNames_cons last, String.toList_ofList, List.getLast?_append, hc, Option.some_or]
    split
    · next heq => cases heq
    · next heq =>
      cases heq
      exact absurd rfl hslash
    · refine String.ext ?_
      simp only [ofNames_cons, List.reverse_cons, leadOf_concat, String.toList_append,
        String.toList_ofList, List.append_assoc]
      rfl

/-! ## Walking through directories -/

/-- Goes from a directory to where a piece leads. -/
def follow (dir piece : String) : String :=
  if piece = "" ∨ piece = "." then dir
  else if piece = ".." then (parent dir).getD dir
  else join dir piece

/-- A piece leads from the path of a stack of names to the path of the stack after it is read. -/
theorem follow_ofNames (h : ∀ name ∈ names, Proper name.toList) (hpiece : '/' ∉ piece.toList) :
    follow (ofNames names) piece = ofNames (readPiece names piece) := by
  have hnext := proper_readPiece h hpiece
  rw [follow, readPiece]
  rw [readPiece] at hnext
  split
  · rfl
  · next hidle =>
    rw [if_neg hidle] at hnext
    split
    · cases names with
      | nil => rfl
      | cons name names => rw [parent_ofNames h]; rfl
    · next hdots =>
      rw [if_neg hdots] at hnext
      exact join_ofNames hnext

theorem follow_pieces (h : ∀ name ∈ names, Proper name.toList) (p : String) :
    (Text.pieces '/' p).foldl follow (ofNames names) = ofNames (read names p) := by
  have hpieces : ∀ piece ∈ Text.pieces '/' p, '/' ∉ piece.toList :=
    fun _ => slash_notMem_of_mem_pieces
  rw [read]
  generalize Text.pieces '/' p = pieces at hpieces
  induction pieces generalizing names with
  | nil => rfl
  | cons piece pieces ih =>
    rw [List.forall_mem_cons] at hpieces
    rw [List.foldl_cons, List.foldl_cons, follow_ofNames h hpieces.1]
    exact ih (proper_readPiece h hpieces.1) hpieces.2

/-- The folded path is where the pieces of the path lead, one after another, from the root or from
where the pieces of the working directory lead. -/
theorem fold_eq_follow (cwd : String) (hp : p ≠ "") :
    fold cwd p = (Text.pieces '/' p).foldl follow
      (if isAbsolute p then "/" else (Text.pieces '/' cwd).foldl follow "/") := by
  have hcwd := follow_pieces (List.forall_mem_nil fun name : String => Proper name.toList) cwd
  rw [fold_eq cwd hp, readIn, ← follow_pieces]
  · congr 1
    split
    · rfl
    · exact hcwd.symm
  · split
    · exact List.forall_mem_nil _
    · exact proper_read (List.forall_mem_nil _) cwd

/-! ## What leads nowhere -/

/-- What leads nowhere in a path: nothing between two separators, a `.`, or a name that `..` takes
away again. -/
inductive Idle : String → Prop
  | empty : Idle ""
  | current : Idle "."
  | detour {x : String} (h : Proper x.toList) : Idle (x ++ "/" ++ "..")

/-- A path with something that leads nowhere put in: in front of a path from the working directory,
after a separator, or at the end. -/
inductive Inserts : String → String → Prop
  | start {w b : String} (hw : Idle w) (hne : w ≠ "") (hb : b ≠ "") (habs : isAbsolute b = false) :
      Inserts b (w ++ "/" ++ b)
  | after {w : String} (hw : Idle w) (a b : String) :
      Inserts (a ++ "/" ++ b) (a ++ "/" ++ w ++ "/" ++ b)
  | last {w a : String} (hw : Idle w) (ha : a ≠ "") : Inserts a (a ++ "/" ++ w)

theorem read_of_no_slash (h : '/' ∉ piece.toList) (names : List String) :
    read names piece = readPiece names piece := by
  rw [read, Text.pieces, Text.splitAt_of_notMem h, List.map_singleton, String.ofList_toList]
  rfl

theorem readPiece_proper (h : Proper name.toList) (names : List String) :
    readPiece names name = name :: names := by
  rw [readPiece, if_neg, if_neg]
  · rintro rfl
    exact h.ne_dots rfl
  · rintro (rfl | rfl)
    · exact h.ne_nil rfl
    · exact h.ne_dot rfl

theorem Idle.read_eq {w : String} (hw : Idle w) (names : List String) : read names w = names := by
  cases hw with
  | empty => rfl
  | current => rfl
  | detour h =>
    rw [read_append, read_of_no_slash h.no_slash, readPiece_proper h]
    rfl

theorem isAbsolute_append (h : p ≠ "") (q : String) : isAbsolute (p ++ q) = isAbsolute p := by
  have hne : p.toList ≠ [] := fun hnil => h (String.ext hnil)
  rw [isAbsolute, isAbsolute, String.toList_append, List.head?_append_of_ne_nil _ hne]

theorem append_slash_ne_empty (a b : String) : a ++ "/" ++ b ≠ "" := fun h => by
  have hlist := congrArg String.toList h
  rw [String.toList_append, String.toList_append] at hlist
  simp at hlist

/-- Up to a separator it is settled whether a path starts at the root. -/
theorem isAbsolute_append_slash (a b : String) :
    isAbsolute (a ++ "/" ++ b) = isAbsolute (a ++ "/") := by
  have hne := append_slash_ne_empty a ""
  rw [String.append_empty] at hne
  exact isAbsolute_append hne b

/-- What leads nowhere does not start at the root. -/
theorem Idle.isAbsolute_eq {w : String} (hw : Idle w) : isAbsolute w = false := by
  cases hw with
  | empty => rfl
  | current => rfl
  | @detour name h =>
    have hne : name ≠ "" := by
      rintro rfl
      exact h.ne_nil rfl
    rw [String.append_assoc, isAbsolute_append hne, isAbsolute_eq_false h.no_slash]

/-- What leads nowhere makes no difference to the names of a path. -/
theorem Inserts.readIn_eq (h : Inserts p q) (cwd : String) : readIn cwd q = readIn cwd p := by
  cases h with
  | @start w _ hw hne hb habs =>
    rw [readIn, read_append, hw.read_eq, String.append_assoc, isAbsolute_append hne,
      hw.isAbsolute_eq, readIn, habs]
  | @after w hw a b =>
    have habs : isAbsolute (a ++ "/" ++ w ++ "/" ++ b) = isAbsolute (a ++ "/" ++ b) := by
      rw [String.append_assoc, String.append_assoc, isAbsolute_append_slash,
        isAbsolute_append_slash]
    rw [readIn, habs, read_append, read_append, hw.read_eq, readIn, read_append]
  | @last w _ hw ha =>
    rw [readIn, read_append, hw.read_eq, String.append_assoc, isAbsolute_append ha, readIn]

theorem Inserts.ne_empty (h : Inserts p q) : p ≠ "" ∧ q ≠ "" := by
  cases h with
  | start _ _ hb _ => exact ⟨hb, append_slash_ne_empty _ _⟩
  | after => exact ⟨append_slash_ne_empty _ _, append_slash_ne_empty _ _⟩
  | last _ ha => exact ⟨ha, append_slash_ne_empty _ _⟩

/-- Paths that differ only by what leads nowhere are folded to one path. -/
theorem fold_eq_of_inserts (cwd : String) (h : Relation.EqvGen Inserts p q) :
    fold cwd p = fold cwd q := by
  induction h with
  | rel p q h => rw [fold_eq cwd h.ne_empty.1, fold_eq cwd h.ne_empty.2, h.readIn_eq]
  | refl => rfl
  | symm _ _ _ ih => exact ih.symm
  | trans _ _ _ _ _ ih ih' => exact ih.trans ih'

end Path

/-! ## The path of a template -/

open Stencil.Path

/-- The path of a template is absolute, and is the root and the names that are left once the path,
after the working directory unless it is absolute, is read onto a stack. So it is its own path
anywhere, what leads nowhere makes no difference to it, and its last name leads from its directory
back to it. -/
theorem template_path_folded (cwd text : String) {p : String} (hp : p ≠ "") :
    let path := (Template.new cwd p text).path
    let names := (readIn cwd p).reverse
    (path = "/" ++ "/".intercalate names ∧ isAbsolute path = true ∧
        components path = .root :: names.map .normal ∧ ∀ name ∈ names, Proper name.toList) ∧
      (∀ cwd', Template.new cwd' path text = Template.new cwd p text) ∧
      (∀ q, Relation.EqvGen Inserts p q → Template.new cwd q text = Template.new cwd p text) ∧
      (path ≠ "/" → ∃ name, fileName path = some name ∧ Host.resolve path name = path) := by
  intro path names
  have hpath : path = ofNames (readIn cwd p) := fold_eq cwd hp
  have hproper := proper_readIn cwd p
  have habs : isAbsolute path = true := by rw [hpath, isAbsolute_ofNames]
  have hne : path ≠ "" := by
    intro h
    rw [h] at habs
    cases habs
  refine ⟨⟨hpath, habs, ?_, fun name hname => hproper name (List.mem_reverse.mp hname)⟩,
    fun cwd' => ?_, fun q hq => ?_, fun hroot => ?_⟩
  · rw [hpath, components_ofNames hproper]
  · have hread : readIn cwd' path = readIn cwd p := by
      rw [readIn, habs, if_pos rfl, hpath, read_ofNames hproper]
    rw [Template.new, fold_eq cwd' hne, hread, ← hpath]
    rfl
  · rw [Template.new, ← fold_eq_of_inserts cwd hq]
    rfl
  · rw [hpath] at hroot ⊢
    generalize readIn cwd p = stack at hproper hroot
    cases stack with
    | nil => exact absurd rfl hroot
    | cons name stack =>
      refine ⟨name, fileName_ofNames (hproper name List.mem_cons_self) stack, ?_⟩
      rw [Host.resolve, Host.directory, parent_ofNames hproper, Option.getD_some,
        join_ofNames hproper]

/-- A path that leaves the working directory, with something of everything that leads nowhere. -/
theorem template_path_folded_outside :
    let p := "../a/./b//../c"
    let path := (Template.new "/work/x" p "").path
    (readIn "/work/x" p).reverse = ["work", "a", "c"] ∧ path = "/work/a/c" ∧
      Template.new "/elsewhere" path "" = Template.new "/work/x" p "" ∧
      Template.new "/work/x" "../a/c" "" = Template.new "/work/x" p "" ∧
      ∃ name, fileName path = some name ∧ Host.resolve path name = path := by
  intro p path
  obtain ⟨⟨hpath, -⟩, hagain, hsame, hback⟩ :=
    template_path_folded "/work/x" "" (p := p) (by decide)
  have hnames : (readIn "/work/x" p).reverse = ["work", "a", "c"] := by decide
  have hc : path = "/work/a/c" := by
    refine hpath.trans ?_
    rw [hnames]
    decide
  have hidle : Relation.EqvGen Inserts "../a/c" p := by
    refine .trans _ "../a/./c" _ (.rel _ _ (.after .current "../a" "c")) ?_
    have hdetour : Idle "b/.." := .detour (x := "b") (by decide)
    refine .trans _ "../a/./b/../c" _ (.rel _ _ (.after hdetour "../a/." "c")) ?_
    exact .rel _ _ (.after .empty "../a/./b" "../c")
  have hroot : path ≠ "/" := by
    rw [hc]
    decide
  exact ⟨hnames, hc, hagain _, hsame _ (.symm _ _ hidle), hback hroot⟩

end Stencil
