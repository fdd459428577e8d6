import Stencil.Proofs.Markup.Image

/-!
# How directives are spelled

The body of a directive region spells its directive in one of four ways: with the value in quotes,
as it is, after a quote that is not closed, or not at all. Blanks around key and value are padding.

* `Directive.IsKey`: what a key can be;
* `Directive.Spells`: the four ways;
* `parseChars_append_equals`, `parseChars_of_notMem`: reading a body with an equals sign, and one
  without;
* `Spells.parse_eq`, `exists_spells`: what is spelled is read, and every body spells a directive;
* `parse_iff_spells`: both together.
-/

namespace Stencil.Directive

open Text (allBlank cut cut_eq_some_iff cut_eq_none_iff exists_trim trim trimmed)

/-- A text that can be a key: it has no outer blanks and no equals sign. -/
structure IsKey (key : String) : Prop where
  trimmed : trimmed key = key
  no_equals : '=' ∉ key.toList

/-- A body spells a directive. The blanks `w₁` to `w₄` are padding. -/
inductive Spells : String → Directive → Prop
  /-- The value is in quotes, and can be any text. -/
  | quoted {key value w₁ w₂ w₃ w₄ : String} : IsKey key →
    (∀ w ∈ [w₁, w₂, w₃, w₄], allBlank w.toList = true) →
    Spells (w₁ ++ key ++ w₂ ++ "=" ++ w₃ ++ "\"" ++ value ++ "\"" ++ w₄) ⟨key, value⟩
  /-- The value stands as it is. -/
  | plain {key value w₁ w₂ w₃ w₄ : String} : IsKey key →
    (∀ w ∈ [w₁, w₂, w₃, w₄], allBlank w.toList = true) →
    trimmed value = value → value.toList.head? ≠ some '"' →
    Spells (w₁ ++ key ++ w₂ ++ "=" ++ w₃ ++ value ++ w₄) ⟨key, value⟩
  /-- The value follows a quote that is not closed. -/
  | opened {key value w₁ w₂ w₃ w₄ : String} : IsKey key →
    (∀ w ∈ [w₁, w₂, w₃, w₄], allBlank w.toList = true) →
    trimmed ("\"" ++ value) = "\"" ++ value → value.toList.getLast? ≠ some '"' →
    Spells (w₁ ++ key ++ w₂ ++ "=" ++ w₃ ++ "\"" ++ value ++ w₄) ⟨key, value⟩
  /-- There is no value. -/
  | bare {key w₁ w₄ : String} : IsKey key → (∀ w ∈ [w₁, w₄], allBlank w.toList = true) →
    Spells (w₁ ++ key ++ w₄) ⟨key, ""⟩

/-! ## Reading a body -/

/-- A body without an equals sign is a key. -/
theorem parseChars_of_notMem {body : List Char} (h : '=' ∉ body) :
    parseChars body = ⟨String.ofList (trim body), ""⟩ := by
  have hcut : cut ['='] (trim body) = none := by
    rw [cut_eq_none_iff (by decide), List.singleton_infix_iff]
    exact fun hmem => h ((Text.trim_within body).subset hmem)
  rw [parseChars, hcut]

/-- A body is cut at its first equals sign, and each side is trimmed. -/
theorem parseChars_append_equals {a : List Char} (ha : '=' ∉ a) (b : List Char) :
    parseChars (a ++ '=' :: b) = ⟨String.ofList (trim a), String.ofList (unquote (trim b))⟩ := by
  have hcut : cut ['='] (trim (a ++ '=' :: b)) = some (Text.trimStart a, Text.trimEnd b) := by
    rw [Text.trim_append_cons (by decide), cut_eq_some_iff (by decide)]
    refine ⟨by rw [List.append_assoc]; rfl, ?_⟩
    rw [List.dropLast_singleton, List.append_nil, List.singleton_infix_iff]
    exact fun hmem => ha ((List.dropWhile_suffix _).subset hmem)
  rw [parseChars, hcut]
  simp only [Text.trim_trimStart, Text.trim_trimEnd]

theorem unquote_quoted (v : List Char) : unquote ('"' :: (v ++ ['"'])) = v := by
  rw [unquote, if_pos List.getLast?_concat, List.dropLast_concat]

theorem unquote_opened {v : List Char} (h : v.getLast? ≠ some '"') : unquote ('"' :: v) = v := by
  rw [unquote, if_neg h]

theorem unquote_plain {v : List Char} (h : v.head? ≠ some '"') : unquote v = v := by
  rw [unquote]
  rintro inner rfl
  exact h rfl

/-! ## Reading what is spelled -/

variable {key body w₁ w₂ w₃ w₄ : String}

theorem trimmed_eq_iff {s : String} : trimmed s = s ↔ trim s.toList = s.toList := by
  rw [trimmed, String.ext_iff, String.toList_ofList]

/-- A key between blanks. -/
theorem IsKey.trim_padded (hkey : IsKey key) (h₁ : allBlank w₁.toList = true)
    (h₂ : allBlank w₂.toList = true) :
    trim (w₁ ++ key ++ w₂).toList = key.toList := by
  rw [String.toList_append, String.toList_append]
  exact (Text.trim_eq_self_iff.mp (trimmed_eq_iff.mp hkey.trimmed)).trim_padded h₁ h₂

theorem equals_notMem_of_allBlank {w : List Char} (h : allBlank w = true) : '=' ∉ w :=
  fun hmem => absurd (List.all_eq_true.mp h '=' hmem) (by decide)

theorem IsKey.padded_no_equals (hkey : IsKey key) (h₁ : allBlank w₁.toList = true)
    (h₂ : allBlank w₂.toList = true) : '=' ∉ (w₁ ++ key ++ w₂).toList := by
  simp only [String.toList_append, List.mem_append, not_or]
  exact ⟨⟨equals_notMem_of_allBlank h₁, hkey.no_equals⟩, equals_notMem_of_allBlank h₂⟩

/-- A key and a value without outer blanks are read, whatever blanks there are around them. -/
theorem parse_padded (hkey : IsKey key) (hw : ∀ w ∈ [w₁, w₂, w₃, w₄], allBlank w.toList = true)
    {value : String} (hvalue : trimmed value = value) :
    parse (w₁ ++ key ++ w₂ ++ "=" ++ w₃ ++ value ++ w₄) =
      ⟨key, String.ofList (unquote value.toList)⟩ := by
  simp only [List.forall_mem_cons, List.not_mem_nil, false_implies, implies_true, and_true] at hw
  obtain ⟨h₁, h₂, h₃, h₄⟩ := hw
  have hbody : (w₁ ++ key ++ w₂ ++ "=" ++ w₃ ++ value ++ w₄).toList =
      (w₁ ++ key ++ w₂).toList ++ '=' :: (w₃.toList ++ value.toList ++ w₄.toList) := by
    simp only [String.toList_append, List.append_assoc]
    rfl
  have hbare : Text.Bare value.toList := Text.trim_eq_self_iff.mp (trimmed_eq_iff.mp hvalue)
  rw [parse, hbody, parseChars_append_equals (hkey.padded_no_equals h₁ h₂),
    hkey.trim_padded h₁ h₂, String.ofList_toList, hbare.trim_padded h₃ h₄]

/-- A text between quotes has no outer blanks. -/
theorem trimmed_quoted (value : String) :
    trimmed ("\"" ++ value ++ "\"") = "\"" ++ value ++ "\"" := by
  rw [trimmed_eq_iff, Text.trim_eq_self_iff, String.toList_append, String.toList_append]
  refine ⟨fun c hc => ?_, fun c hc => ?_⟩
  · cases hc
    decide
  · rw [show "\"".toList = ['"'] from rfl, List.getLast?_concat] at hc
    cases hc
    decide

/-- What a body spells is read from it. -/
theorem Spells.parse_eq {d : Directive} (h : Spells body d) : parse body = d := by
  cases h with
  | @quoted key value w₁ w₂ w₃ w₄ hkey hw =>
    have hread := parse_padded hkey hw (trimmed_quoted value)
    have hvalue : unquote ("\"" ++ value ++ "\"").toList = value.toList := by
      rw [String.toList_append, String.toList_append]
      exact unquote_quoted value.toList
    rw [hvalue, String.ofList_toList] at hread
    rw [← hread]
    simp only [String.append_assoc]
  | plain hkey hw hvalue hhead =>
    rw [parse_padded hkey hw hvalue, unquote_plain hhead, String.ofList_toList]
  | @opened key value w₁ w₂ w₃ w₄ hkey hw hvalue hlast =>
    have hread := parse_padded hkey hw hvalue
    have hvalue : unquote ("\"" ++ value).toList = value.toList := by
      rw [String.toList_append]
      exact unquote_opened hlast
    rw [hvalue, String.ofList_toList] at hread
    rw [← hread]
    simp only [String.append_assoc]
  | bare hkey hw =>
    simp only [List.forall_mem_cons, List.not_mem_nil, false_implies, implies_true, and_true] at hw
    rw [parse, parseChars_of_notMem (hkey.padded_no_equals hw.1 hw.2),
      hkey.trim_padded hw.1 hw.2, String.ofList_toList]

/-! ## Every body spells a directive -/

/-- Between its blanks, a text without an equals sign is a key. -/
theorem exists_key {cs : List Char} (h : '=' ∉ cs) :
    ∃ w key w' : String, IsKey key ∧ allBlank w.toList = true ∧ allBlank w'.toList = true ∧
      cs = (w ++ key ++ w').toList := by
  obtain ⟨w, w', hw, hw', hcs⟩ := exists_trim cs
  refine ⟨String.ofList w, String.ofList (trim cs), String.ofList w', ⟨?_, ?_⟩, ?_, ?_, ?_⟩
  · rw [trimmed_eq_iff, String.toList_ofList, Text.trim_trim]
  · rw [String.toList_ofList]
    exact fun hmem => h ((Text.trim_within cs).subset hmem)
  · rwa [String.toList_ofList]
  · rwa [String.toList_ofList]
  · simpa only [String.toList_append, String.toList_ofList] using hcs

/-- Every value without outer blanks is in quotes, or after one, or plain. -/
theorem exists_spells_value (hkey : IsKey key)
    (hw : ∀ w ∈ [w₁, w₂, w₃, w₄], allBlank w.toList = true) {value : String}
    (hvalue : trimmed value = value) :
    ∃ d, Spells (w₁ ++ key ++ w₂ ++ "=" ++ w₃ ++ value ++ w₄) d := by
  by_cases hhead : value.toList.head? = some '"'
  · obtain ⟨inner, hinner⟩ := List.head?_eq_some_iff.mp hhead
    by_cases hlast : inner.getLast? = some '"'
    · obtain ⟨v, rfl⟩ := List.getLast?_eq_some_iff.mp hlast
      have hquoted : value = "\"" ++ String.ofList v ++ "\"" := by
        refine String.ext ?_
        simp only [hinner, String.toList_append, String.toList_ofList]
        rfl
      refine ⟨⟨key, String.ofList v⟩, ?_⟩
      have h : Spells _ ⟨key, String.ofList v⟩ := .quoted hkey hw
      rw [hquoted]
      simpa only [String.append_assoc] using h
    · have hopened : value = "\"" ++ String.ofList inner := by
        refine String.ext ?_
        simp only [hinner, String.toList_append, String.toList_ofList]
        rfl
      refine ⟨⟨key, String.ofList inner⟩, ?_⟩
      have h : Spells _ ⟨key, String.ofList inner⟩ :=
        .opened hkey hw (hopened ▸ hvalue) (by rwa [String.toList_ofList])
      rw [hopened]
      simpa only [String.append_assoc] using h
  · exact ⟨_, .plain hkey hw hvalue hhead⟩

/-- Every body spells a directive. -/
theorem exists_spells (body : String) : ∃ d, Spells body d := by
  by_cases hbody : '=' ∈ body.toList
  · -- What stands before the first equals sign is the key, and what follows it the value.
    obtain ⟨a, b, hsplit, ha⟩ := List.eq_append_cons_of_mem hbody
    obtain ⟨w₁, key, w₂, hkey, h₁, h₂, rfl⟩ := exists_key ha
    obtain ⟨w₃, w₄, h₃, h₄, hb⟩ := exists_trim b
    have hvalue : trimmed (String.ofList (trim b)) = String.ofList (trim b) := by
      rw [trimmed_eq_iff, String.toList_ofList, Text.trim_trim]
    have hw : ∀ w ∈ [w₁, w₂, String.ofList w₃, String.ofList w₄], allBlank w.toList = true := by
      simp [h₁, h₂, h₃, h₄]
    have heq : body = w₁ ++ key ++ w₂ ++ "=" ++ String.ofList w₃ ++ String.ofList (trim b) ++
        String.ofList w₄ := by
      refine String.ext ?_
      rw [hsplit, hb]
      simp only [String.toList_append, String.toList_ofList, List.append_assoc, ← hb]
      rfl
    rw [heq]
    exact exists_spells_value hkey hw hvalue
  · obtain ⟨w, key, w', hkey, hw, hw', hcs⟩ := exists_key hbody
    rw [show body = w ++ key ++ w' from String.ext hcs]
    exact ⟨_, .bare hkey (by simp [hw, hw'])⟩

/-- What is spelled has a key. -/
theorem Spells.isKey {d : Directive} (h : Spells body d) : IsKey d.key := by
  cases h with
  | quoted hkey | plain hkey | opened hkey | bare hkey => exact hkey

/-- A body is read as a directive exactly if it spells it, so padding makes no difference; and what
is read has a key. -/
theorem parse_iff_spells (body : String) :
    (∀ d, Directive.parse body = d ↔ Spells body d) ∧ IsKey (Directive.parse body).key := by
  obtain ⟨d, hd⟩ := exists_spells body
  have hparse := hd.parse_eq
  refine ⟨fun d' => ⟨?_, Spells.parse_eq⟩, hparse ▸ hd.isKey⟩
  rintro rfl
  rwa [hparse]

end Stencil.Directive
