import BranchTrace.Log.Event
import BranchTrace.Proofs.Log.Filters

/-!
# Topics and files

The stem of a file in a directory is its name without the extension (`fileStem_append`), so the
topic of an event is the stem of the file that its record names.

Main statement: `Event.fileStem_file`.
-/

namespace BranchTrace

namespace Text

/-- The extension of a name starts at its last dot, unless nothing stands before that. -/
theorem dropExtension_append {stem extension : List Char} (hstem : stem ≠ [])
    (hdot : '.' ∉ extension) : dropExtension (stem ++ '.' :: extension) = stem := by
  have hdots : ∀ c ∈ extension.reverse, decide (c ≠ '.') = true := by
    intro c hc
    refine decide_eq_true ?_
    rintro rfl
    exact hdot (List.mem_reverse.mp hc)
  have hreverse : (stem ++ '.' :: extension).reverse =
      extension.reverse ++ '.' :: stem.reverse := by simp
  rw [dropExtension, hreverse, List.span_eq_takeWhile_dropWhile,
    List.takeWhile_append_of_pos hdots, List.dropWhile_append_of_pos hdots,
    List.dropWhile_cons_of_neg (by decide)]
  rcases hrest : stem.reverse with _ | ⟨c, rest⟩
  · exact absurd (List.reverse_eq_nil_iff.mp hrest) hstem
  · dsimp only
    rw [← hrest, List.reverse_reverse]

theorem splitAll_of_not_mem {sep : Char} {cs : List Char} (h : sep ∉ cs) :
    splitAll sep cs = [cs] := by
  induction cs with
  | nil => rfl
  | cons c cs ih =>
    obtain ⟨hc, hcs⟩ := not_or.mp (mt List.mem_cons.mpr h)
    rw [splitAll, if_neg (Ne.symm hc), ih hcs]

/-- The stem of a file in a directory. -/
theorem fileStem_append (directory : String) {stem extension : String} (hstem : stem ≠ "")
    (hextension : extension ≠ "") (hslash : '/' ∉ stem.toList ∧ '/' ∉ extension.toList)
    (hdot : '.' ∉ extension.toList) :
    fileStem (directory ++ "/" ++ stem ++ ("." ++ extension)) = stem := by
  have hpath : (directory ++ "/" ++ stem ++ ("." ++ extension)).toList =
      directory.toList ++ '/' :: (stem.toList ++ '.' :: extension.toList) := by
    simp [String.toList_append]
  have hstem' : stem.toList ≠ [] := by simpa using hstem
  have hextension' : extension.toList ≠ [] := by simpa using hextension
  have hpiece : splitAll '/' (stem.toList ++ '.' :: extension.toList) =
      [stem.toList ++ '.' :: extension.toList] := by
    refine splitAll_of_not_mem ?_
    simp [hslash]
  -- the name is too long to be one of those that stand for directories
  have hname : ∀ short : List Char, short.length ≤ 2 →
      stem.toList ++ '.' :: extension.toList ≠ short := by
    rintro short hshort rfl
    have hpos := List.length_pos_iff.mpr hstem'
    have hpos' := List.length_pos_iff.mpr hextension'
    simp only [List.length_append, List.length_cons] at hshort
    omega
  have hkept : List.filter (fun piece => decide (piece ≠ [] ∧ piece ≠ ['.']))
      [stem.toList ++ '.' :: extension.toList] = [stem.toList ++ '.' :: extension.toList] :=
    List.filter_cons_of_pos (decide_eq_true ⟨hname [] (by simp), hname ['.'] (by simp)⟩)
  rw [fileStem, hpath, splitAll_eq_splitOn, List.splitOn_append_cons_self,
    ← splitAll_eq_splitOn, ← splitAll_eq_splitOn, hpiece, List.filter_append, hkept,
    List.getLast?_concat]
  dsimp only
  rw [if_neg (hname _ (by simp)), dropExtension_append hstem' hdot, String.ofList_toList]

end Text

namespace Event

theorem topic_plain (event : Event) : event.topic ≠ "" ∧ '/' ∉ event.topic.toList := by
  cases event <;> simp [topic]

theorem file_eq (event : Event) :
    ∃ directory, event.file = directory ++ "/" ++ event.topic ++ ("." ++ "rs") := by
  have hcommands : "src/commands" ++ "/" = "src/commands/" := by simp
  have hsrc : "src" ++ "/" = "src/" := by simp
  have hextension : "." ++ "rs" = ".rs" := by simp
  unfold file
  dsimp only
  split
  case h_4 => exact ⟨"src", by rw [hextension, hsrc]⟩
  all_goals exact ⟨"src/commands", by rw [hextension, hcommands]⟩

/-- The topic of an event is the stem of its file. -/
theorem fileStem_file (event : Event) : Text.fileStem event.file = event.topic := by
  obtain ⟨hne, hslash⟩ := event.topic_plain
  obtain ⟨directory, hfile⟩ := event.file_eq
  rw [hfile, Text.fileStem_append directory hne (by simp) ⟨hslash, by simp⟩ (by simp)]

end Event

end BranchTrace
