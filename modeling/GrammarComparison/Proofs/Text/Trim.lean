import Mathlib.Data.List.Basic
import Mathlib.Data.List.Induction
import GrammarComparison.Text.Blank

/-! # Trimmed texts

A text is `Trimmed` if there is something in it and it has white space at neither end.  What `trim`
leaves of a text is trimmed unless nothing is left (`trimmed_trim`), and a trimmed text is what is
left of it with white space around it (`trim_padded`).  Trimmed texts may be joined by whatever
stands between them (`Trimmed.append`, `Trimmed.intercalate`).

A function that one white-space character at either end does not change gives the same for a text and
for what trimming leaves of it (`apply_trim`). -/

namespace GrammarComparison.Text

variable {cs ds us vs : List Char} {c : Char}

/-- The text is not empty, and neither its first nor its last character is white space. -/
def Trimmed (cs : List Char) : Prop :=
  cs ≠ [] ∧ (∀ c ∈ cs.head?, isBlank c = false) ∧ ∀ c ∈ cs.getLast?, isBlank c = false

theorem trimmed_iff : Trimmed cs ↔
    cs ≠ [] ∧ cs.head?.all (!isBlank ·) = true ∧ cs.getLast?.all (!isBlank ·) = true := by
  simp [Trimmed, Option.all_eq_true]

instance (cs : List Char) : Decidable (Trimmed cs) := decidable_of_iff _ trimmed_iff.symm

theorem ne_of_not_isBlank {d : Char} (hc : isBlank c = false) (hd : isBlank d = true) : c ≠ d := by
  rintro rfl
  simp [hc] at hd

/-! ### What trimming leaves -/

theorem trimEnd_eq (cs : List Char) : trimEnd cs = (trimStart cs.reverse).reverse := rfl

theorem trimEnd_isPrefix (cs : List Char) : trimEnd cs <+: cs := by
  have hsuffix : trimStart cs.reverse <:+ cs.reverse := List.dropWhile_suffix isBlank
  rw [trimEnd_eq]
  simpa using List.reverse_prefix.mpr hsuffix

theorem mem_of_mem_trim (h : c ∈ trim cs) : c ∈ cs :=
  (List.dropWhile_sublist isBlank).subset ((trimEnd_isPrefix (trimStart cs)).subset h)

theorem not_isBlank_head_trimStart (h : c ∈ (trimStart cs).head?) : isBlank c = false := by
  have hnot := List.head?_dropWhile_not isBlank cs
  rw [show (cs.dropWhile isBlank).head? = some c from h] at hnot
  exact hnot

theorem trimmed_trim (h : trim cs ≠ []) : Trimmed (trim cs) := by
  refine ⟨h, ?_, ?_⟩
  · intro c hc
    obtain ⟨ds, hds⟩ : trim cs <+: trimStart cs := trimEnd_isPrefix (trimStart cs)
    have hhead : c ∈ (trimStart cs).head? := by
      rw [← hds, List.head?_append_of_ne_nil _ h]
      exact hc
    exact not_isBlank_head_trimStart hhead
  · intro c hc
    rw [trim, trimEnd_eq, List.getLast?_reverse] at hc
    exact not_isBlank_head_trimStart hc

/-! ### White space around a trimmed text -/

theorem trimStart_blanks (hus : ∀ c ∈ us, isBlank c = true) (cs : List Char) :
    trimStart (us ++ cs) = trimStart cs := List.dropWhile_append_of_pos hus

theorem trimStart_eq_self (h : ∀ c ∈ cs.head?, isBlank c = false) : trimStart cs = cs := by
  cases cs with
  | nil => rfl
  | cons c cs =>
      have hc : isBlank c = false := h c rfl
      exact List.dropWhile_cons_of_neg (by simp [hc])

theorem trim_padded (h : Trimmed cs) (hus : ∀ c ∈ us, isBlank c = true)
    (hvs : ∀ c ∈ vs, isBlank c = true) : trim (us ++ (cs ++ vs)) = cs := by
  obtain ⟨hne, hhead, hlast⟩ := h
  have hstart : trimStart (cs ++ vs) = cs ++ vs := by
    refine trimStart_eq_self fun c hc => hhead c ?_
    rwa [List.head?_append_of_ne_nil _ hne] at hc
  have hend : trimStart cs.reverse = cs.reverse := by
    refine trimStart_eq_self fun c hc => hlast c ?_
    rwa [List.head?_reverse] at hc
  have hvs' : ∀ c ∈ vs.reverse, isBlank c = true := fun c hc => hvs c (List.mem_reverse.mp hc)
  rw [trim, trimStart_blanks hus, hstart, trimEnd_eq, List.reverse_append, trimStart_blanks hvs',
    hend, List.reverse_reverse]

/-! ### White space at the ends -/

theorem trim_cons_of_isBlank (hc : isBlank c = true) (cs : List Char) :
    trim (c :: cs) = trim cs :=
  congrArg trimEnd (List.dropWhile_cons_of_pos hc)

theorem trimEnd_concat_of_isBlank (hc : isBlank c = true) (cs : List Char) :
    trimEnd (cs ++ [c]) = trimEnd cs := by
  rw [trimEnd_eq, trimEnd_eq, List.reverse_concat]
  exact congrArg List.reverse (List.dropWhile_cons_of_pos hc)

theorem trim_concat_of_isBlank (hc : isBlank c = true) (cs : List Char) :
    trim (cs ++ [c]) = trim cs := by
  unfold trim trimStart
  rw [List.dropWhile_append]
  split
  · rename_i hblank
    rw [List.isEmpty_iff.mp hblank, List.dropWhile_cons_of_pos hc, List.dropWhile_nil]
  · exact trimEnd_concat_of_isBlank hc _

section

variable {α : Type} {f : List Char → α}

theorem apply_trimStart (hstart : ∀ c, isBlank c = true → ∀ cs, f (c :: cs) = f cs)
    (cs : List Char) : f (trimStart cs) = f cs := by
  induction cs with
  | nil => rfl
  | cons c cs ih =>
      by_cases hc : isBlank c = true
      · rw [hstart c hc cs, ← ih]
        exact congrArg f (List.dropWhile_cons_of_pos hc)
      · exact congrArg f (List.dropWhile_cons_of_neg hc)

theorem apply_trimEnd (hend : ∀ c, isBlank c = true → ∀ cs, f (cs ++ [c]) = f cs)
    (cs : List Char) : f (trimEnd cs) = f cs := by
  induction cs using List.reverseRec with
  | nil => rfl
  | append_singleton cs c ih =>
      by_cases hc : isBlank c = true
      · rw [trimEnd_concat_of_isBlank hc, ih, hend c hc cs]
      · rw [trimEnd_eq, List.reverse_concat, trimStart, List.dropWhile_cons_of_neg hc,
          ← List.reverse_concat, List.reverse_reverse]

/-- What one white-space character at either end does not change, trimming does not change. -/
theorem apply_trim (hstart : ∀ c, isBlank c = true → ∀ cs, f (c :: cs) = f cs)
    (hend : ∀ c, isBlank c = true → ∀ cs, f (cs ++ [c]) = f cs) (cs : List Char) :
    f (trim cs) = f cs :=
  (apply_trimEnd hend (trimStart cs)).trans (apply_trimStart hstart cs)

theorem apply_padded (hstart : ∀ c, isBlank c = true → ∀ cs, f (c :: cs) = f cs)
    (hend : ∀ c, isBlank c = true → ∀ cs, f (cs ++ [c]) = f cs)
    (hus : ∀ c ∈ us, isBlank c = true) (hvs : ∀ c ∈ vs, isBlank c = true) (cs : List Char) :
    f (us ++ (cs ++ vs)) = f cs := by
  have hright : f (cs ++ vs) = f cs := by
    induction vs using List.reverseRec with
    | nil => rw [List.append_nil]
    | append_singleton vs c ih =>
        rw [← List.append_assoc, hend c (hvs c List.mem_concat_self)]
        exact ih fun d hd => hvs d (List.mem_append_left _ hd)
  induction us with
  | nil => exact hright
  | cons c us ih =>
      rw [List.cons_append, hstart c (hus c List.mem_cons_self)]
      exact ih fun d hd => hus d (List.mem_cons_of_mem c hd)

end

/-! ### Joining trimmed texts -/

theorem trimmed_singleton : Trimmed [c] ↔ isBlank c = false := by
  simp [Trimmed]

theorem Trimmed.append (hcs : Trimmed cs) (hds : Trimmed ds) (us : List Char) :
    Trimmed (cs ++ (us ++ ds)) := by
  have hne : us ++ ds ≠ [] := List.append_ne_nil_of_right_ne_nil us hds.1
  refine ⟨List.append_ne_nil_of_left_ne_nil hcs.1 _, ?_, ?_⟩
  · rw [List.head?_append_of_ne_nil _ hcs.1]
    exact hcs.2.1
  · rw [List.getLast?_append_of_ne_nil _ hne, List.getLast?_append_of_ne_nil _ hds.1]
    exact hds.2.2

theorem Trimmed.intercalate {css : List (List Char)} (hne : css ≠ []) (h : ∀ cs ∈ css, Trimmed cs)
    (us : List Char) : Trimmed (us.intercalate css) := by
  induction css with
  | nil => exact absurd rfl hne
  | cons cs css ih =>
      cases css with
      | nil =>
          rw [List.intercalate_singleton]
          exact h cs List.mem_cons_self
      | cons ds css =>
          rw [List.intercalate_cons_cons, List.append_assoc]
          exact (h cs List.mem_cons_self).append
            (ih (by simp) fun es hes => h es (List.mem_cons_of_mem cs hes)) us

end GrammarComparison.Text
