import Mathlib.Data.List.DropRight
import FrameStream.Unicode.Blank

/-!
# Trimmed texts

Trimming takes blank characters off both ends of a text and nothing else: what is left neither begins nor ends with one
(`Trimmed`). So a text is trimmed to nothing exactly if all its characters are blank.
-/

namespace FrameStream.Unicode

/-- The text `t` is `s` without the blank characters at its ends. -/
structure Trimmed (s t : String) : Prop where
  inside : ∃ before after, s.toList = before ++ (t.toList ++ after) ∧ (∀ c ∈ before, isBlank c = true) ∧
    ∀ c ∈ after, isBlank c = true
  starts : ∀ c ∈ t.toList.head?, isBlank c = false
  stops : ∀ c ∈ t.toList.getLast?, isBlank c = false

theorem trimChars_eq (cs : List Char) : trimChars cs = (cs.dropWhile isBlank).rdropWhile isBlank := rfl

/-- The first character that is kept is not blank. -/
theorem isBlank_head (cs : List Char) : ∀ c ∈ (cs.dropWhile isBlank).head?, isBlank c = false := by
  intro c hc
  have hnot := List.head?_dropWhile_not isBlank cs
  rw [Option.mem_def.mp hc] at hnot
  exact hnot

theorem trimChars_of_inside {before cs after : List Char} (hbefore : ∀ c ∈ before, isBlank c = true)
    (hafter : ∀ c ∈ after, isBlank c = true) (hstarts : ∀ c ∈ cs.head?, isBlank c = false)
    (hstops : ∀ c ∈ cs.getLast?, isBlank c = false) : trimChars (before ++ (cs ++ after)) = cs := by
  rw [trimChars_eq, List.dropWhile_append_of_pos hbefore]
  cases cs with
  | nil => rw [List.nil_append, List.dropWhile_eq_nil_iff.mpr hafter, List.rdropWhile_nil]
  | cons c cs =>
    have hfirst : ¬ isBlank c = true := by
      rw [hstarts c rfl]
      exact Bool.false_ne_true
    have hlast : (c :: cs).rdropWhile isBlank = c :: cs := by
      refine List.rdropWhile_eq_self_iff.mpr fun hne => ?_
      rw [hstops _ (List.getLast?_eq_some_getLast hne)]
      exact Bool.false_ne_true
    rw [List.cons_append, List.dropWhile_cons_of_neg hfirst, ← List.cons_append, List.rdropWhile, List.reverse_append,
      List.dropWhile_append_of_pos fun d hd => hafter d (List.mem_reverse.mp hd)]
    exact hlast

theorem trimmed_trim (s : String) : Trimmed s (trim s) := by
  have hchars : (trim s).toList = (s.toList.dropWhile isBlank).rdropWhile isBlank := String.toList_ofList
  refine ⟨⟨s.toList.takeWhile isBlank, (s.toList.dropWhile isBlank).rtakeWhile isBlank, ?_, ?_, ?_⟩, ?_, ?_⟩
  · rw [hchars, List.rdropWhile_append_rtakeWhile, List.takeWhile_append_dropWhile]
  · exact fun c hc => List.mem_takeWhile_imp hc
  · exact fun c hc => List.mem_rtakeWhile_imp hc
  · intro c hc
    rw [hchars] at hc
    obtain ⟨rest, hrest⟩ := List.rdropWhile_prefix isBlank (l := s.toList.dropWhile isBlank)
    refine isBlank_head s.toList c ?_
    rw [← hrest, List.head?_append, Option.mem_def.mp hc]
    rfl
  · intro c hc
    rw [hchars] at hc
    obtain ⟨hne, rfl⟩ := List.mem_getLast?_eq_getLast hc
    exact Bool.eq_false_iff.mpr (List.rdropWhile_last_not isBlank _ hne)

/-- A text is trimmed in one way only. -/
theorem trimmed_iff {s t : String} : Trimmed s t ↔ trim s = t := by
  constructor
  · rintro ⟨⟨before, after, hs, hbefore, hafter⟩, hstarts, hstops⟩
    rw [trim, hs, trimChars_of_inside hbefore hafter hstarts hstops, String.ofList_toList]
  · rintro rfl
    exact trimmed_trim s

theorem trim_eq_empty_iff {s : String} : trim s = "" ↔ ∀ c ∈ s.toList, isBlank c = true := by
  constructor
  · intro h
    obtain ⟨before, after, hs, hbefore, hafter⟩ := (trimmed_iff.mpr h).inside
    rw [hs]
    exact List.forall_mem_append.mpr ⟨hbefore, hafter⟩
  · intro h
    refine trimmed_iff.mp ⟨⟨s.toList, [], ?_, h, List.forall_mem_nil _⟩, ?_, ?_⟩
    · exact (List.append_nil _).symm
    · exact fun c hc => nomatch hc
    · exact fun c hc => nomatch hc

end FrameStream.Unicode
