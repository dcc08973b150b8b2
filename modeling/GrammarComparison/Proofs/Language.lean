import Mathlib.Data.List.Sort
import GrammarComparison.Language

/-! # Languages as sets

A language is the set of its strings (`Language.ext_mem`), as they are kept in ascending order.  So it
does not matter how it came about: adding strings one after another leads to the language of their list
(`Language.ofList_concat`). -/

namespace GrammarComparison.Language

@[ext]
theorem ext_mem {l m : Language} (h : ∀ w, w ∈ l ↔ w ∈ m) : l = m := by
  have : Std.Irrefl fun u v : List Char => compare u v = .lt := ⟨fun w => by simp⟩
  have : Std.Antisymm fun u v : List Char => compare u v = .lt :=
    ⟨fun _ _ huv hvu => absurd (Std.TransCmp.lt_trans huv hvu) (by simp)⟩
  have hwords : l.words = m.words := l.ascending.eq_of_mem_iff m.ascending h
  cases l
  cases m
  cases hwords
  rfl

theorem ofList_concat (ws : List (List Char)) (w : List Char) :
    ofList (ws ++ [w]) = (ofList ws).insert w := by
  ext v
  rw [mem_ofList, mem_insert, mem_ofList, List.mem_append, List.mem_singleton, or_comm]

end GrammarComparison.Language
