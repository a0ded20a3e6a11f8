import Mathlib.Data.List.TakeWhile
import VmInspect.Proofs.Text.Cut
import VmInspect.Source.Label

/-!
# Labels are short

A label has at most 59 bytes, whatever the source.  This file says which part of the source it shows:

* `Source.wordsLabel?_longest` — of words, the longest beginning.
* `Source.pathLabel?_longest` — of a path, the longest ending behind an ellipsis, unless the whole fits.
* `Source.programLabel?_longest` — of a program, the longest beginning of its first line, unless the whole is
  short and has one line.
* `Source.label_exact` — so every source has a label, and no search for a boundary leaves the text.
-/

namespace VmInspect

namespace Source

open Text

/-- The first line of a program, without what ends it. -/
def firstLine (program : List Char) : List Char := program.takeWhile (· ≠ '\n')

theorem firstLine_isPrefix (program : List Char) : firstLine program <+: program :=
  List.takeWhile_prefix _

theorem newline_not_mem_firstLine (program : List Char) : '\n' ∉ firstLine program := by
  intro hmem
  have hkept := List.mem_takeWhile_imp hmem
  simp at hkept

/-! ## The three kinds of labels -/

theorem wordsLabel?_longest (words : List Char) :
    ∃ p, wordsLabel? words = some p ∧ IsLongestBeginning 59 words p := by
  unfold wordsLabel?
  by_cases h : byteSize words < labelSize
  · rw [if_pos h]
    exact ⟨words, rfl, .self (Nat.le_of_lt_succ h)⟩
  · rw [if_neg h]
    exact takeBytes?_longest 59 words

theorem pathLabel?_of_le {path : List Char} (h : byteSize path ≤ 59) : pathLabel? path = some path := by
  have hfits : byteSize path < labelSize := Nat.lt_succ_of_le h
  unfold pathLabel?
  rw [if_pos hfits]

theorem pathLabel?_longest {path : List Char} (h : 59 < byteSize path) :
    ∃ p, pathLabel? path = some (ellipsis ++ p) ∧ IsLongestEnding 56 path p := by
  obtain ⟨p, hcut, hlongest⟩ := takeRightBytes?_longest 56 path
  have hlong : ¬ byteSize path < labelSize := Nat.not_lt.2 h
  have hroom : labelSize - 1 - byteSize ellipsis = 56 := by decide
  refine ⟨p, ?_, hlongest⟩
  unfold pathLabel?
  rw [if_neg hlong, hroom, hcut, Option.map_some]

theorem programRoom_eq : programRoom = 45 := by decide

theorem programLabel?_of_short {program : List Char} (h : byteSize program < 45 ∧ '\n' ∉ program) :
    programLabel? program = some (programOpening ++ program ++ programClosing) := by
  unfold programLabel?
  rw [programRoom_eq]
  simp only [h, not_false_iff, and_self, if_true, Option.map_some]

theorem programLabel?_longest {program : List Char}
    (h : ¬ (byteSize program < 45 ∧ '\n' ∉ program)) :
    ∃ p, programLabel? program = some (programOpening ++ (p ++ ellipsis) ++ programClosing) ∧
      IsLongestBeginning 45 (firstLine program) p := by
  obtain ⟨p, hcut, hlongest⟩ := takeBytes?_longest (min (byteSize (firstLine program)) 45) program
  refine ⟨p, ?_, hlongest.of_isPrefix (firstLine_isPrefix program)⟩
  rw [firstLine] at hcut
  unfold programLabel?
  simp only [programRoom_eq]
  rw [if_neg h, hcut, Option.map_some, Option.map_some]

/-- What begins with neither sign is a program. -/
theorem labelChars?_of_program {cs : List Char} (hwords : cs.head? ≠ some '=')
    (hpath : cs.head? ≠ some '@') : labelChars? cs = programLabel? cs := by
  unfold labelChars?
  split
  · exact absurd rfl hwords
  · exact absurd rfl hpath
  · rfl

/-! ## Sizes -/

/-- Each kind of label has room for what it shows. -/
theorem exists_labelChars? (cs : List Char) :
    ∃ chars, labelChars? cs = some chars ∧ byteSize chars ≤ 59 := by
  unfold labelChars?
  split
  · rename_i words
    obtain ⟨p, hlabel, hlongest⟩ := wordsLabel?_longest words
    exact ⟨p, hlabel, hlongest.fits⟩
  · rename_i path
    rcases Nat.lt_or_ge 59 (byteSize path) with hlong | hshort
    · obtain ⟨p, hlabel, hlongest⟩ := pathLabel?_longest hlong
      have hellipsis : byteSize ellipsis = 3 := by decide
      have hfits := hlongest.fits
      refine ⟨_, hlabel, ?_⟩
      rw [byteSize_append]
      omega
    · exact ⟨path, pathLabel?_of_le hshort, hshort⟩
  · have hopening : byteSize programOpening = 9 := by decide
    have hclosing : byteSize programClosing = 2 := by decide
    have hellipsis : byteSize ellipsis = 3 := by decide
    by_cases hwhole : byteSize cs < 45 ∧ '\n' ∉ cs
    · refine ⟨_, programLabel?_of_short hwhole, ?_⟩
      rw [byteSize_append, byteSize_append]
      omega
    · obtain ⟨p, hlabel, hlongest⟩ := programLabel?_longest hwhole
      have hfits := hlongest.fits
      refine ⟨_, hlabel, ?_⟩
      rw [byteSize_append, byteSize_append, byteSize_append]
      omega

theorem label_eq {source : String} {chars : List Char} (h : labelChars? source.toList = some chars) :
    label source = String.ofList chars := by
  rw [label, h, Option.getD_some]

/-! ## Labels of sources -/

theorem ofList_ellipsis : String.ofList ellipsis = "..." := String.ofList_toList

theorem ofList_programOpening : String.ofList programOpening = "[string \"" := String.ofList_toList

theorem ofList_programClosing : String.ofList programClosing = "\"]" := String.ofList_toList

/-- **The label of a source.**  Every source has a label, of at most 59 bytes.  Words are shown from their
beginning.  A path is shown as it is, or from behind an ellipsis to its end if it is too long.  Any other
source is a program: it is shown as it is if it has one line of less than 45 bytes, and otherwise from the
beginning of its first line.  What is left out is as little as can be without splitting a character, and
wherever in a text a search for a boundary starts, it ends at one. -/
theorem label_exact (s : String) :
    (∃ chars, labelChars? s.toList = some chars) ∧ (label s).utf8ByteSize ≤ 59 ∧
    (∀ words, s.toList = '=' :: words → IsLongestBeginning 59 words (label s).toList) ∧
    (∀ path, s.toList = '@' :: path →
      (byteSize path ≤ 59 → label s = String.ofList path) ∧
      (59 < byteSize path →
        ∃ p, IsLongestEnding 56 path p ∧ label s = "..." ++ String.ofList p)) ∧
    (s.toList.head? ≠ some '=' → s.toList.head? ≠ some '@' →
      (s.utf8ByteSize < 45 ∧ '\n' ∉ s.toList → label s = "[string \"" ++ s ++ "\"]") ∧
      (¬ (s.utf8ByteSize < 45 ∧ '\n' ∉ s.toList) →
        ∃ p, IsLongestBeginning 45 (firstLine s.toList) p ∧ '\n' ∉ p ∧
          label s = "[string \"" ++ String.ofList p ++ "...\"]")) ∧
    ∀ i ≤ s.utf8ByteSize,
      (∃ b ≤ i, floorBoundary? s.toList i = some b ∧ String.Pos.Raw.IsValid s ⟨b⟩) ∧
      ∃ b, i ≤ b ∧ b ≤ s.utf8ByteSize ∧ ceilBoundary? s.toList i = some b ∧
        String.Pos.Raw.IsValid s ⟨b⟩ := by
  obtain ⟨chars, hchars, hsize⟩ := exists_labelChars? s.toList
  refine ⟨⟨chars, hchars⟩, ?size, fun words hs => ?words,
    fun path hs => ⟨fun hfits => ?path, fun hlong => ?ending⟩,
    fun hwords hpath => ⟨fun hshort => ?program, fun hlong => ?line⟩, fun i hi => ⟨?floor, ?ceil⟩⟩
  case size =>
    rw [label_eq hchars, ← byteSize_eq]
    exact hsize
  case words =>
    obtain ⟨p, hlabel, hlongest⟩ := wordsLabel?_longest words
    have hall : labelChars? s.toList = some p := by
      rw [hs]
      exact hlabel
    rw [label_eq hall, String.toList_ofList]
    exact hlongest
  case path =>
    have hall : labelChars? s.toList = some path := by
      rw [hs]
      exact pathLabel?_of_le hfits
    exact label_eq hall
  case ending =>
    obtain ⟨p, hlabel, hlongest⟩ := pathLabel?_longest hlong
    have hall : labelChars? s.toList = some (ellipsis ++ p) := by
      rw [hs]
      exact hlabel
    refine ⟨p, hlongest, ?_⟩
    rw [label_eq hall, String.ofList_append, ofList_ellipsis]
  case program =>
    rw [← byteSize_toList s] at hshort
    have hall := (labelChars?_of_program hwords hpath).trans (programLabel?_of_short hshort)
    rw [label_eq hall, String.ofList_append, String.ofList_append, ofList_programOpening,
      ofList_programClosing, String.ofList_toList]
  case line =>
    rw [← byteSize_toList s] at hlong
    obtain ⟨p, hlabel, hlongest⟩ := programLabel?_longest hlong
    have hall := (labelChars?_of_program hwords hpath).trans hlabel
    have hclosing : "..." ++ "\"]" = "...\"]" := rfl
    refine ⟨p, hlongest, fun hmem => ?_, ?_⟩
    · exact newline_not_mem_firstLine s.toList (hlongest.begins.subset hmem)
    · rw [label_eq hall, String.ofList_append, String.ofList_append, String.ofList_append,
        ofList_programOpening, ofList_programClosing, ofList_ellipsis, ← hclosing,
        ← String.append_assoc, ← String.append_assoc]
  case floor =>
    obtain ⟨b, hfound, hle, hb, -⟩ := floorBoundary?_exact s.toList i
    exact ⟨b, hle, hfound, (isBoundary_iff_isValid s b).1 hb⟩
  case ceil =>
    rw [← byteSize_toList s] at hi ⊢
    obtain ⟨b, hfound, hle, hb, -⟩ := ceilBoundary?_exact hi
    exact ⟨b, hle, le_byteSize_of_isBoundary hb, hfound, (isBoundary_iff_isValid s b).1 hb⟩

/-- The label of a path of fifteen characters of four bytes each leaves one of them out, and that of sixty
characters of two bytes each, as words, thirty-one.  A program that begins with an empty line shows none
of it. -/
theorem label_exact_wide :
    (∃ p, IsLongestEnding 56 (List.replicate 15 '😀') p ∧
      label (String.ofList ('@' :: List.replicate 15 '😀')) = "..." ++ String.ofList p) ∧
    IsLongestBeginning 59 (List.replicate 60 'é')
      (label (String.ofList ('=' :: List.replicate 60 'é'))).toList ∧
    ∃ p, IsLongestBeginning 45 [] p ∧ label "\nx" = "[string \"" ++ String.ofList p ++ "...\"]" := by
  obtain ⟨-, -, -, hpath, -⟩ := label_exact (String.ofList ('@' :: List.replicate 15 '😀'))
  obtain ⟨-, -, hwords, -⟩ := label_exact (String.ofList ('=' :: List.replicate 60 'é'))
  obtain ⟨-, -, -, -, hprogram, -⟩ := label_exact "\nx"
  obtain ⟨p, hlongest, -, hlabel⟩ := (hprogram (by decide) (by decide)).2 (by decide)
  refine ⟨(hpath _ String.toList_ofList).2 (by decide), hwords _ String.toList_ofList, p, hlongest, ?_⟩
  exact hlabel

end Source

end VmInspect
