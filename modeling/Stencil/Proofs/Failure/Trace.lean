import Stencil.Failure.Chain
import Stencil.Proofs.Text.Cut
import Stencil.Proofs.Text.Lines

/-!
# Messages and their traces

A message that ends in a trace section is cut in front of the section, and the section is reduced to
its lines. Nothing is lost but layout: what stands before the marker is the message as it was, and
the lines are those of the section, trimmed, without the empty ones.

* `exists_headed`, `dropHeaders_headed`: the headers that a text starts with;
* `traceLines_headed`: the lines of a section, whatever headers it starts with;
* `splitTrace_marked`, `splitTrace_unmarked`: where a message is cut;
* `renderLink_joinLines`: a report shows the lines of a trace one by one;
* `splitTrace_lossless`: what is left of a message and its section.
-/

namespace Stencil

open Stencil.Text (Solid solid trim splitAt)

/-! ## Headers -/

/-- A text after a number of headers. -/
def headed (n : Nat) (rest : List Char) : List Char :=
  (List.replicate n traceHeader.toList).flatten ++ rest

theorem headed_succ (n : Nat) (rest : List Char) :
    headed (n + 1) rest = traceHeader.toList ++ headed n rest := by
  rw [headed, List.replicate_succ, List.flatten_cons, List.append_assoc, headed]

theorem length_headed (n : Nat) (rest : List Char) : n ≤ (headed n rest).length := by
  induction n with
  | zero => exact Nat.zero_le _
  | succ n ih =>
    have hheader : 1 ≤ traceHeader.toList.length := by decide
    rw [headed_succ, List.length_append]
    omega

/-- Every text is another one that does not start with a header, after some headers. -/
theorem exists_headed (cs : List Char) :
    ∃ n rest, cs = headed n rest ∧ ¬ traceHeader.toList <+: rest := by
  by_cases h : traceHeader.toList <+: cs
  · obtain ⟨more, rfl⟩ := h
    obtain ⟨n, rest, rfl, hrest⟩ := exists_headed more
    exact ⟨n + 1, rest, (headed_succ n rest).symm, hrest⟩
  · exact ⟨0, cs, rfl, h⟩
termination_by cs.length
decreasing_by
  subst_vars
  rw [List.length_append]
  exact Nat.lt_add_of_pos_left (by decide)

theorem dropCopies_headed {rest : List Char} (h : ¬ traceHeader.toList <+: rest) {n fuel : Nat}
    (hfuel : n ≤ fuel) : dropCopies traceHeader.toList fuel (headed n rest) = rest := by
  induction n generalizing fuel with
  | zero =>
    cases fuel with
    | zero => rfl
    | succ fuel =>
      have hno : ¬ traceHeader.toList.isPrefixOf (headed 0 rest) = true :=
        fun hp => h (List.isPrefixOf_iff_prefix.mp hp)
      rw [dropCopies, if_neg hno]
      rfl
  | succ n ih =>
    obtain ⟨fuel, rfl⟩ : ∃ k, fuel = k + 1 := ⟨fuel - 1, by omega⟩
    have hyes : traceHeader.toList.isPrefixOf (headed (n + 1) rest) = true := by
      rw [headed_succ]
      exact List.isPrefixOf_iff_prefix.mpr (List.prefix_append _ _)
    rw [dropCopies, if_pos hyes, headed_succ, List.drop_left]
    exact ih (Nat.le_of_succ_le_succ hfuel)

theorem dropHeaders_headed {rest : List Char} (h : ¬ traceHeader.toList <+: rest) (n : Nat) :
    dropHeaders (headed n rest) = rest :=
  dropCopies_headed h (length_headed n rest)

/-! ## The lines of a section -/

/-- The lines of a section are what is left of the rows after its headers. -/
theorem traceLines_headed {rest : List Char} (h : ¬ traceHeader.toList <+: rest) (n : Nat) :
    traceLines (traceMarker.toList ++ headed n rest) = solid (splitAt '\n' rest) := by
  have hstart : (traceMarker.toList ++ headed n rest).dropWhile (· = '\n') =
      headed (n + 1) rest := by
    rw [headed_succ]
    rfl
  have hlines : traceLines (traceMarker.toList ++ headed n rest) =
      solid (Text.lines (dropHeaders (headed (n + 1) rest))) := by
    rw [traceLines, hstart]
    rfl
  rw [hlines, dropHeaders_headed h, Text.solid_lines]

theorem solid_of_mem_traceLines (trace : List Char) : ∀ line ∈ traceLines trace, Solid line := by
  have hlines : traceLines trace =
      solid (splitAt '\n' (dropHeaders (trace.dropWhile (· = '\n')))) :=
    Text.solid_lines _
  rw [hlines]
  exact Text.solid_of_mem fun _ => Text.notMem_of_mem_splitAt

theorem lines_joinLines {lines : List (List Char)} (h : ∀ line ∈ lines, Solid line) :
    Text.lines (joinLines lines).toList = lines := by
  rw [joinLines, String.toList_ofList, Text.lines_intercalate h]

/-- A report shows the lines of a trace one by one. -/
theorem renderLink_joinLines {lines : List (List Char)} (h : ∀ line ∈ lines, Solid line)
    (number : Nat) (kind message : String) :
    renderLink number ⟨kind, message, some (joinLines lines)⟩ =
      "[" ++ toString number ++ "] " ++ kind ++ ": " ++ message ++ "\n" ++
        String.join (lines.map fun line => traceLine (String.ofList line)) := by
  simp only [renderLink, lines_joinLines h]

/-! ## Messages -/

theorem splitTrace_unmarked {m : String} (hm : ¬ traceMarker.toList <:+: m.toList) :
    splitTrace m = (m, none) := by
  rw [splitTrace, (Text.cut_eq_none_iff (by decide)).mpr hm]

/-- A message is cut at the first marker. No marker stands across the end of what comes before. -/
theorem splitTrace_marked {m : String} (hm : ¬ traceMarker.toList <:+: m.toList) (t : String) :
    splitTrace (m ++ traceMarker ++ t) =
      (m, some (joinLines (traceLines (traceMarker.toList ++ t.toList)))) := by
  have htext : (m ++ traceMarker ++ t).toList = m.toList ++ traceMarker.toList ++ t.toList := by
    rw [String.toList_append, String.toList_append]
  have hfirst : ¬ traceMarker.toList <:+: m.toList ++ traceMarker.toList.dropLast :=
    (Text.not_infix_append_dropLast (r := traceHeader.toList) (by decide)).mpr hm
  have hcut : Text.cut traceMarker.toList (m ++ traceMarker ++ t).toList =
      some (m.toList, t.toList) :=
    (Text.cut_eq_some_iff (by decide)).mpr ⟨htext, hfirst⟩
  rw [splitTrace, hcut]
  simp only
  rw [htext, List.append_assoc, List.drop_left, String.ofList_toList]

/-- A trace as the snippet runtime writes it after a header: each line on a row of its own, behind a
tab. -/
def runtimeTrace (lines : List (List Char)) : String :=
  String.join (lines.map fun line => "\n\t" ++ String.ofList line)

theorem toList_runtimeTrace (lines : List (List Char)) :
    (runtimeTrace lines).toList = lines.flatMap fun line => '\n' :: '\t' :: line := by
  rw [runtimeTrace, String.toList_join, List.flatMap_map]
  refine List.flatMap_congr fun line _ => ?_
  rw [String.toList_append, @String.toList_ofList line]
  rfl

/-- The rows of a trace are an empty one and the lines behind their tabs. -/
theorem splitAt_runtimeTrace {lines : List (List Char)} (h : ∀ line ∈ lines, '\n' ∉ line) :
    splitAt '\n' (runtimeTrace lines).toList = [] :: lines.map (['\t'] ++ ·) := by
  rw [toList_runtimeTrace]
  induction lines with
  | nil => rfl
  | cons line lines ih =>
    have hline : '\n' ∉ '\t' :: line := by
      rw [List.mem_cons, not_or]
      exact ⟨by decide, h line List.mem_cons_self⟩
    have ih := ih fun other ho => h other (List.mem_cons_of_mem line ho)
    have hrow := Text.splitAt_append_of_notMem hline ih
    rw [List.flatMap_cons, List.cons_append, splitAt, if_pos rfl, hrow, List.append_nil]
    rfl

/-- Nothing is lost but layout when a message is split: a message without a section stays as it is;
what stands before a section is the message, and the trace is the section's lines, trimmed, without
the empty ones, which a report shows one by one. So a trace that the snippet runtime wrote is read
back line by line. -/
theorem splitTrace_lossless (m : String) (hm : ¬ traceMarker.toList <:+: m.toList) :
    splitTrace m = (m, none) ∧
    (∀ t : String, ∃ lines, splitTrace (m ++ traceMarker ++ t) = (m, some (joinLines lines)) ∧
      (∀ line ∈ lines, Solid line) ∧
      (∀ number kind, renderLink number ⟨kind, m, some (joinLines lines)⟩ =
        "[" ++ toString number ++ "] " ++ kind ++ ": " ++ m ++ "\n" ++
          String.join (lines.map fun line => traceLine (String.ofList line))) ∧
      (¬ traceHeader.toList <+: t.toList → lines = solid (splitAt '\n' t.toList))) ∧
    ∀ lines, (∀ line ∈ lines, Solid line) →
      splitTrace (m ++ traceMarker ++ runtimeTrace lines) = (m, some (joinLines lines)) ∧
        Text.lines (joinLines lines).toList = lines := by
  refine ⟨splitTrace_unmarked hm, fun t => ?_, fun lines hlines => ?_⟩
  · have hsolid := solid_of_mem_traceLines (traceMarker.toList ++ t.toList)
    exact ⟨_, splitTrace_marked hm t, hsolid, fun number kind =>
      renderLink_joinLines hsolid number kind m, fun hstart => traceLines_headed hstart 0⟩
  · refine ⟨?_, lines_joinLines hlines⟩
    have hstart : ¬ traceHeader.toList <+: (runtimeTrace lines).toList := by
      rw [toList_runtimeTrace]
      cases lines with
      | nil => decide
      | cons line lines => exact fun h => absurd (List.cons_prefix_cons.mp h).1 (by decide)
    have hread : traceLines (traceMarker.toList ++ (runtimeTrace lines).toList) = lines := by
      refine (traceLines_headed hstart 0).trans ?_
      rw [splitAt_runtimeTrace fun line hline => (hlines line hline).unbroken]
      exact Text.solid_indented hlines (by decide)
    rw [splitTrace_marked hm, hread]

/-- A message of two lines, and a section with both line ends, an empty row and blanks around its
lines. -/
theorem splitTrace_lossless_rows :
    ¬ traceMarker.toList <:+: "boom\nat once".toList ∧
      splitTrace ("boom\nat once" ++ traceMarker ++ "\r\n\t[C]: in ?\n \n\tgen:3: in main ") =
        ("boom\nat once", some "[C]: in ?\ngen:3: in main") ∧
      Solid "gen:3: in main".toList ∧
      splitTrace ("boom\nat once" ++ traceMarker ++ runtimeTrace ["gen:3: in main".toList]) =
        ("boom\nat once", some "gen:3: in main") := by
  have hm : ¬ traceMarker.toList <:+: "boom\nat once".toList := by decide
  obtain ⟨-, hsplit, hread⟩ := splitTrace_lossless "boom\nat once" hm
  obtain ⟨lines, htrace, -, -, hlines⟩ := hsplit "\r\n\t[C]: in ?\n \n\tgen:3: in main "
  have hline : Solid "gen:3: in main".toList := by decide
  refine ⟨hm, ?_, hline, (hread ["gen:3: in main".toList] (by simpa using hline)).1⟩
  rw [htrace, hlines (by decide)]
  decide

end Stencil
