import Catalogue.Text.Blank
import Mathlib.Data.List.TakeWhile

/-! Trimming takes away what stands at both ends of a text, and nothing else. -/

namespace Catalogue.Text

variable {p : Char → Bool}

/-- What trimming takes away stands at the ends, and the property holds of it. -/
theorem exists_trimBy (p : Char → Bool) (cs : List Char) :
    ∃ before after, cs = before ++ trimBy p cs ++ after ∧ (∀ c ∈ before, p c = true) ∧
      ∀ c ∈ after, p c = true := by
  have hends (ds : List Char) : ∀ c ∈ ds.takeWhile p, p c = true :=
    fun c hc => List.mem_takeWhile_imp hc
  refine ⟨cs.takeWhile p, ((cs.dropWhile p).reverse.takeWhile p).reverse, ?_, hends cs, ?_⟩
  · rw [trimBy, List.append_assoc, ← List.reverse_append, List.takeWhile_append_dropWhile,
      List.reverse_reverse, List.takeWhile_append_dropWhile]
  · intro c hc
    exact hends _ c (List.mem_reverse.mp hc)

/-- A text in which the property holds nowhere is left when it is trimmed. -/
theorem trimBy_eq {before body after : List Char} (hbefore : ∀ c ∈ before, p c = true)
    (hbody : ∀ c ∈ body, p c = false) (hafter : ∀ c ∈ after, p c = true) :
    trimBy p (before ++ body ++ after) = body := by
  have hkeep : ∀ ds : List Char, (∀ c ∈ ds, p c = false) → ds.dropWhile p = ds := by
    intro ds hds
    cases ds with
    | nil => rfl
    | cons d ds => rw [List.dropWhile_cons_of_neg (by simp [hds d])]
  cases body with
  | nil =>
    have hall : ∀ c ∈ before ++ [] ++ after, p c = true := by
      simp only [List.append_nil, List.forall_mem_append]
      exact ⟨hbefore, hafter⟩
    rw [trimBy, List.dropWhile_eq_nil_iff.mpr hall]
    rfl
  | cons c cs =>
    have hfront : (before ++ (c :: cs) ++ after).dropWhile p = c :: cs ++ after := by
      rw [List.append_assoc, List.dropWhile_append_of_pos hbefore, List.cons_append,
        List.dropWhile_cons_of_neg (by simp [hbody c])]
    have hback : ∀ d ∈ after.reverse, p d = true := fun d hd => hafter d (List.mem_reverse.mp hd)
    have hreverse : ∀ d ∈ (c :: cs).reverse, p d = false :=
      fun d hd => hbody d (List.mem_reverse.mp hd)
    rw [trimBy, hfront, List.reverse_append, List.dropWhile_append_of_pos hback,
      hkeep _ hreverse, List.reverse_reverse]

end Catalogue.Text
