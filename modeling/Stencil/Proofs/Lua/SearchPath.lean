import Stencil.Lua.Library.Packages
import Stencil.Proofs.Lua.Quote
import Stencil.Proofs.Text.Pieces
import Stencil.Proofs.Text.Utf8

/-!
# Search paths

The files that a path names for a package, when both are texts: the path is cut at its semicolons,
with the name of the package for every question mark. There is no way to write either sign into the
name of a directory.

* `candidates_bytesOf`: the files of a path, as texts;
* `candidates_append`: the files of two paths, one after the other;
* `candidates_startingIn`: the first file of a path that starts with a directory stands in it, if
  neither sign is in its name;
* `Packages.templatePath`: the path on which the packages of a template are looked for.
-/

namespace Stencil

namespace Text

/-- Replacing single items replaces each of them by itself. -/
theorem replaceWithin_singleton {α : Type} [DecidableEq α] (x : α) (new cs : List α) {fuel : Nat}
    (h : cs.length ≤ fuel) :
    replaceWithin [x] new fuel cs = cs.flatMap fun c => if c = x then new else [c] := by
  induction cs generalizing fuel with
  | nil => cases fuel <;> rfl
  | cons c cs ih =>
    obtain ⟨fuel, rfl⟩ : ∃ k, fuel = k + 1 := ⟨fuel - 1, by rw [List.length_cons] at h; omega⟩
    have ih := ih (Nat.le_of_succ_le_succ h)
    rw [replaceWithin, List.flatMap_cons]
    by_cases hc : c = x
    · subst hc
      rw [if_pos (by simp), if_pos rfl, List.length_singleton, List.drop_one, List.tail_cons, ih]
    · rw [if_neg (by simp [Ne.symm hc]), if_neg hc, ih]
      rfl

variable {c x : Char}

/-- The byte of an ASCII character does not stand among those of another character. -/
theorem notMem_utf8EncodeChar (hx : x.toNat < 0x80) (hc : c ≠ x) :
    UInt8.ofNat x.toNat ∉ String.utf8EncodeChar c := by
  have hnat : (UInt8.ofNat x.toNat).toNat = x.toNat := Utf8.toNat_ofNat (by omega)
  intro hmem
  have hmem : UInt8.ofNat x.toNat ∈ utf8 [c] := by rwa [utf8, List.flatMap_singleton]
  obtain ⟨c', hc', heq⟩ := exists_of_mem_utf8 hmem (by omega)
  rw [List.mem_singleton] at hc'
  exact hc (Char.toNat_inj.mp (by rw [← hc', heq, hnat]))

/-- The bytes of a text, cut at an ASCII character, are the bytes of its pieces. -/
theorem splitAt_utf8 (hx : x.toNat < 0x80) (cs : List Char) :
    splitAt (UInt8.ofNat x.toNat) (utf8 cs) = (splitAt x cs).map utf8 := by
  induction cs with
  | nil => rfl
  | cons c cs ih =>
    by_cases hc : c = x
    · subst hc
      rw [utf8_cons_ascii hx, splitAt, if_pos rfl, ih, splitAt, if_pos rfl]
      rfl
    · have hbytes := notMem_utf8EncodeChar hx hc
      obtain ⟨piece, rest, hsplit⟩ := List.exists_cons_of_ne_nil (splitAt_ne_nil x cs)
      rw [hsplit] at ih
      rw [utf8_cons, splitAt_append_of_notMem hbytes ih, splitAt, if_neg hc, hsplit]
      rfl

/-- A text with another one in the place of a character. -/
def fill (x : Char) (new cs : List Char) : List Char :=
  cs.flatMap fun c => if c = x then new else [c]

theorem fill_append (x : Char) (new a b : List Char) :
    fill x new (a ++ b) = fill x new a ++ fill x new b := List.flatMap_append

theorem fill_of_notMem {new cs : List Char} (h : x ∉ cs) : fill x new cs = cs := by
  induction cs with
  | nil => rfl
  | cons c cs ih =>
    rw [List.mem_cons, not_or] at h
    rw [fill, List.flatMap_cons, if_neg (Ne.symm h.1)]
    exact congrArg (c :: ·) (ih h.2)

/-- The bytes of a text, with others in the place of an ASCII character, are the bytes of the text
with that character replaced. -/
theorem flatMap_utf8 (hx : x.toNat < 0x80) (new cs : List Char) :
    (utf8 cs).flatMap (fun b => if b = UInt8.ofNat x.toNat then utf8 new else [b]) =
      utf8 (fill x new cs) := by
  induction cs with
  | nil => rfl
  | cons c cs ih =>
    rw [fill, List.flatMap_cons, utf8_append]
    by_cases hc : c = x
    · subst hc
      rw [utf8_cons_ascii hx, List.flatMap_cons, if_pos rfl, if_pos rfl, ih]
      rfl
    · have hbytes := notMem_utf8EncodeChar hx hc
      have hkept : (String.utf8EncodeChar c).flatMap
          (fun b => if b = UInt8.ofNat x.toNat then utf8 new else [b]) =
            String.utf8EncodeChar c := by
        rw [List.flatMap_congr fun b hb => if_neg (ne_of_mem_of_not_mem hb hbytes)]
        exact List.flatMap_singleton' _
      have hsingle : utf8 [c] = String.utf8EncodeChar c := List.flatMap_singleton ..
      rw [utf8_cons, List.flatMap_append, hkept, if_neg hc, ih, hsingle]
      rfl

end Text

namespace Lua.Packages

open Text (fill fill_append fill_of_notMem pieces)

variable {dir name rest : String}

/-- A path with the name of a package in the place of question marks. -/
def named (path name : String) : String :=
  String.ofList (fill '?' name.toList path.toList)

theorem named_append (a b name : String) : named (a ++ b) name = named a name ++ named b name := by
  rw [named, String.toList_append, fill_append, String.ofList_append]
  rfl

theorem named_of_notMem {path : String} (h : '?' ∉ path.toList) : named path name = path := by
  rw [named, fill_of_notMem h, String.ofList_toList]

/-- The files of a path are its pieces between semicolons, with the name of the package in them. -/
theorem candidates_bytesOf (path name : String) :
    candidates (bytesOf path) (bytesOf name) = (pieces ';' (named path name)).map bytesOf := by
  have hfill : fillPath (bytesOf path) (bytesOf name) = Text.utf8 (named path name).toList := by
    rw [fillPath, substitute, Text.replaceWithin_singleton _ _ _ (Nat.le_refl _), toList_bytesOf,
      toList_bytesOf, named, String.toList_ofList]
    exact Text.flatMap_utf8 (x := '?') (by decide) name.toList path.toList
  have hsplit : Text.splitAt 0x3B (Text.utf8 (named path name).toList) =
      (Text.splitAt ';' (named path name).toList).map Text.utf8 :=
    Text.splitAt_utf8 (x := ';') (by decide) _
  rw [candidates, hfill, hsplit, pieces, List.map_map, List.map_map]
  refine List.map_congr_left fun cs _ => ?_
  show (Text.utf8 cs).toByteArray = (String.ofList cs).toUTF8
  rw [Text.toUTF8_eq, String.toList_ofList]

/-- The files of a path come before those of another one behind it. -/
theorem candidates_append (a b name : String) :
    candidates (bytesOf (a ++ ";" ++ b)) (bytesOf name) =
      candidates (bytesOf a) (bytesOf name) ++ candidates (bytesOf b) (bytesOf name) := by
  have hsemicolon : named ";" name = ";" := named_of_notMem (by decide)
  rw [candidates_bytesOf, named_append, named_append, hsemicolon, Text.pieces_append rfl,
    List.map_append, ← candidates_bytesOf, ← candidates_bytesOf]

/-- The name of a package without dots is its file name. -/
theorem fileNameOf_bytesOf (h : '.' ∉ name.toList) : fileNameOf (bytesOf name) = bytesOf name := by
  have hbytes : substitute [0x2E] [0x2F] (bytesOf name).data.toList = Text.utf8 name.toList := by
    rw [substitute, Text.replaceWithin_singleton _ _ _ (Nat.le_refl _), toList_bytesOf]
    have hfill := Text.flatMap_utf8 (x := '.') (by decide) ['/'] name.toList
    rwa [fill_of_notMem h] at hfill
  rw [fileNameOf, hbytes]
  exact (Text.toUTF8_eq name).symm

/-- A path without a semicolon names one file, if there is none in the name of the package either. -/
theorem candidates_eq_singleton {path : String} (h : ';' ∉ (named path name).toList) :
    candidates (bytesOf path) (bytesOf name) = [bytesOf (named path name)] := by
  rw [candidates_bytesOf, pieces, Text.splitAt_of_notMem h, List.map_singleton, List.map_singleton,
    String.ofList_toList]

/-- A package in a directory is a file, or the file of a directory. -/
theorem candidates_entry (dir rest : String) (hmark : '?' ∉ dir.toList) (hdir : ';' ∉ dir.toList)
    (hname : ';' ∉ name.toList) (hrest : '?' ∉ rest.toList ∧ ';' ∉ rest.toList) :
    candidates (bytesOf (dir ++ ("/?" ++ rest))) (bytesOf name) =
      [bytesOf (dir ++ "/" ++ name ++ rest)] := by
  have hslash : named "/?" name = "/" ++ name := by
    show String.ofList ('/' :: (name.toList ++ [])) = _
    rw [List.append_nil]
    exact String.ext (by simp)
  have hnamed : named (dir ++ ("/?" ++ rest)) name = dir ++ "/" ++ name ++ rest := by
    rw [named_append, named_append, named_of_notMem hmark, named_of_notMem hrest.1, hslash]
    simp only [String.append_assoc]
  rw [candidates_eq_singleton, hnamed]
  rw [hnamed]
  simp only [String.toList_append, List.mem_append, hdir, hname, hrest.2, or_false, false_or]
  decide

/-- A path that starts with a directory. -/
def startingIn (dir path : String) : String :=
  dir ++ "/?.lua;" ++ dir ++ "/?/init.lua;" ++ path

/-- The directory comes first, whatever its name makes of it. -/
theorem candidates_startingIn_append (dir path name : String) :
    candidates (bytesOf (startingIn dir path)) (bytesOf name) =
      candidates (bytesOf (dir ++ "/?.lua")) (bytesOf name) ++
        (candidates (bytesOf (dir ++ "/?/init.lua")) (bytesOf name) ++
          candidates (bytesOf path) (bytesOf name)) := by
  have hfirst : "/?.lua;" = "/?.lua" ++ ";" := rfl
  have hsecond : "/?/init.lua;" = "/?/init.lua" ++ ";" := rfl
  have hpath : startingIn dir path =
      dir ++ "/?.lua" ++ ";" ++ (dir ++ "/?/init.lua" ++ ";" ++ path) := by
    simp only [startingIn, hfirst, hsecond, String.append_assoc]
  rw [hpath, candidates_append, candidates_append]

/-- If the name of the directory has neither sign in it, the first file for a package stands in the
directory under the name of the package. -/
theorem candidates_startingIn (hmark : '?' ∉ dir.toList) (hdir : ';' ∉ dir.toList)
    (hname : ';' ∉ name.toList) (path : String) :
    candidates (bytesOf (startingIn dir path)) (bytesOf name) =
      bytesOf (dir ++ "/" ++ name ++ ".lua") :: bytesOf (dir ++ "/" ++ name ++ "/init.lua") ::
        candidates (bytesOf path) (bytesOf name) := by
  have hlua : candidates (bytesOf (dir ++ "/?.lua")) (bytesOf name) =
      [bytesOf (dir ++ "/" ++ name ++ ".lua")] :=
    candidates_entry dir ".lua" hmark hdir hname (by decide)
  have hinit : candidates (bytesOf (dir ++ "/?/init.lua")) (bytesOf name) =
      [bytesOf (dir ++ "/" ++ name ++ "/init.lua")] :=
    candidates_entry dir "/init.lua" hmark hdir hname (by decide)
  rw [candidates_startingIn_append, hlua, hinit, List.singleton_append, List.singleton_append]

/-- The path on which the packages of a template in a directory are looked for. -/
def templatePath (dir : String) : String :=
  startingIn dir defaultPath

/-- The files of a package on the path that is searched unless it is changed. -/
def usual (name : String) : List String :=
  ["/usr/local/share/lua/5.4/" ++ name ++ ".lua",
    "/usr/local/share/lua/5.4/" ++ name ++ "/init.lua",
    "/usr/local/lib/lua/5.4/" ++ name ++ ".lua", "/usr/local/lib/lua/5.4/" ++ name ++ "/init.lua",
    "./" ++ name ++ ".lua", "./" ++ name ++ "/init.lua"]

theorem candidates_defaultPath (hname : ';' ∉ name.toList) :
    candidates (bytesOf defaultPath) (bytesOf name) = (usual name).map bytesOf := by
  have hpath : defaultPath = startingIn "/usr/local/share/lua/5.4"
    (startingIn "/usr/local/lib/lua/5.4" ("./?.lua" ++ ";" ++ "./?/init.lua")) := by rfl
  have hlua : candidates (bytesOf "./?.lua") (bytesOf name) = [bytesOf ("./" ++ name ++ ".lua")] :=
    candidates_entry "." ".lua" (by decide) (by decide) hname (by decide)
  have hinit : candidates (bytesOf "./?/init.lua") (bytesOf name) =
      [bytesOf ("./" ++ name ++ "/init.lua")] :=
    candidates_entry "." "/init.lua" (by decide) (by decide) hname (by decide)
  rw [hpath, candidates_startingIn (by decide) (by decide) hname,
    candidates_startingIn (by decide) (by decide) hname, candidates_append, hlua, hinit]
  rfl

end Lua.Packages

end Stencil
