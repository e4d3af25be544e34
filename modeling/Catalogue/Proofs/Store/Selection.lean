import Catalogue.Store.Scan

/-! Selections.  A query selects the rows that satisfy all of its clauses, in order, unless it
cannot be decided of some row whether it does. -/

namespace Catalogue

open Catalogue.Filter

/-- The row satisfies all clauses of the query. -/
def Row.matches_ (q : Query) (row : Row) : Bool := (row.satisfies q.clauses).toOption == some true

theorem Row.matches_of_satisfies {q : Query} {row : Row} {holds : Bool}
    (h : row.satisfies q.clauses = .ok holds) : row.matches_ q = holds := by
  rw [Row.matches_, h]
  cases holds <;> rfl

theorem Row.satisfies_of_matches {q : Query} {row : Row} (h : row.matches_ q = true) :
    row.satisfies q.clauses = .ok true := by
  unfold Row.matches_ at h
  cases hsatisfies : row.satisfies q.clauses with
  | error refusal =>
    rw [hsatisfies] at h
    cases h
  | ok holds =>
    rw [hsatisfies] at h
    cases holds with
    | true => rfl
    | false => cases h

theorem Row.holdsOf_of_satisfies {row : Row} {clauses : List Clause}
    (h : row.satisfies clauses = .ok true) : ∀ clause ∈ clauses, clause.holdsOf row = .ok true := by
  induction clauses with
  | nil => simp
  | cons first clauses ih =>
    rw [Row.satisfies] at h
    cases hfirst : first.holdsOf row with
    | error refusal =>
      rw [hfirst] at h
      cases h
    | ok holds =>
      rw [hfirst] at h
      cases holds with
      | false => cases h
      | true => exact List.forall_mem_cons.mpr ⟨hfirst, ih h⟩

theorem Row.satisfies_of_holdsOf {row : Row} {clauses : List Clause}
    (h : ∀ clause ∈ clauses, clause.holdsOf row = .ok true) : row.satisfies clauses = .ok true := by
  induction clauses with
  | nil => rfl
  | cons first clauses ih =>
    obtain ⟨hfirst, hrest⟩ := List.forall_mem_cons.mp h
    rw [Row.satisfies, hfirst]
    exact ih hrest

/-- A clause is refused for the length of its pattern alone. -/
theorem Filter.Clause.holdsOf_error {clause : Clause} {row : Row} {refusal : Refusal}
    (h : clause.holdsOf row = .error refusal) : refusal = .patternTooLong := by
  have hsearch (pattern s : String) (h : search pattern s = .error refusal) :
      refusal = .patternTooLong := by
    unfold search at h
    split at h <;> cases h
    rfl
  cases clause with
  | contains column text => exact hsearch _ _ h
  | holds column text => exact hsearch _ _ h
  | dated column bound day => cases bound <;> cases h
  | _ => cases h

theorem Row.satisfies_error {row : Row} {clauses : List Clause} {refusal : Refusal}
    (h : row.satisfies clauses = .error refusal) : refusal = .patternTooLong := by
  induction clauses with
  | nil => cases h
  | cons clause clauses ih =>
    rw [Row.satisfies] at h
    cases hclause : clause.holdsOf row with
    | error refusal' =>
      rw [hclause] at h
      cases h
      exact Clause.holdsOf_error hclause
    | ok holds =>
      rw [hclause] at h
      cases holds with
      | true => exact ih h
      | false => cases h

theorem Row.exists_satisfies {row : Row} {clauses : List Clause}
    (h : row.satisfies clauses ≠ .error .patternTooLong) :
    ∃ holds, row.satisfies clauses = .ok holds := by
  cases hsatisfies : row.satisfies clauses with
  | ok holds => exact ⟨holds, rfl⟩
  | error refusal => exact absurd (Row.satisfies_error hsatisfies ▸ hsatisfies) h

theorem Row.matches_iff {q : Query} {row : Row} :
    row.matches_ q = true ↔ ∀ clause ∈ q.clauses, clause.holdsOf row = .ok true :=
  ⟨fun h => holdsOf_of_satisfies (satisfies_of_matches h),
    fun h => matches_of_satisfies (satisfies_of_holdsOf h)⟩

/-! ### Tests

The tests of a query hold of a row where all of its clauses do. -/

theorem index_inj {kind other : Kind} (h : (kind.index : Int) = other.index) : kind = other := by
  revert h
  cases kind <;> cases other <;> decide

theorem Cell.eq_of_isInt {cell : Cell} {m n : Int} (hm : cell.isInt m = true)
    (hn : cell.isInt n = true) : m = n := by
  cases cell with
  | int k => exact (beq_iff_eq.mp hm).symm.trans (beq_iff_eq.mp hn)
  | _ => cases hm

/-- Clauses that compare one column with a value are the same where both hold of a row. -/
theorem Filter.Clause.eq_of_rivals {clause other : Clause} (hrivals : clause.rivals other = true)
    {row : Row} (h : clause.holdsOf row = .ok true) (hother : other.holdsOf row = .ok true) :
    clause = other := by
  cases clause <;> cases other <;> try cases hrivals
  · have hsame := (beq_iff_eq.mp (Except.ok.inj h)).symm.trans
      (beq_iff_eq.mp (Except.ok.inj hother))
    rw [hsame]
  · rw [index_inj (Cell.eq_of_isInt (Except.ok.inj h) (Except.ok.inj hother))]
  · next flag flag' =>
    have hsame := Cell.eq_of_isInt (Except.ok.inj h) (Except.ok.inj hother)
    revert hsame
    cases flag <;> cases flag' <;> decide

/-- It is always decided whether a column has a value with which it is compared. -/
theorem Filter.Clause.exists_holdsOf_of_rivals {clause other : Clause}
    (h : clause.rivals other = true) (row : Row) :
    (∃ b, clause.holdsOf row = .ok b) ∧ ∃ b, other.holdsOf row = .ok b := by
  cases clause <;> cases other <;> first | exact ⟨⟨_, rfl⟩, ⟨_, rfl⟩⟩ | cases h

theorem mem_of_mem_testsOf {clause : Clause} {clauses : List Clause}
    (h : clause ∈ testsOf clauses) : clause ∈ clauses := by
  induction clauses with
  | nil => exact h
  | cons first clauses ih =>
    rw [testsOf] at h
    split at h
    · exact List.mem_cons_of_mem _ (ih h)
    · rcases List.mem_cons.mp h with rfl | h
      · exact List.mem_cons_self
      · exact List.mem_cons_of_mem _ (ih h)

/-- A clause that is not tested itself is the same as one that is. -/
theorem mem_testsOf {clauses : List Clause} (h : areConsistent clauses = true) :
    ∀ clause ∈ clauses, clause ∈ testsOf clauses := by
  induction clauses with
  | nil => simp
  | cons first clauses ih =>
    rw [areConsistent, Bool.and_eq_true, List.all_eq_true] at h
    obtain ⟨hfirst, hrest⟩ := h
    intro clause hclause
    rw [testsOf]
    split
    · next hrivals =>
      rcases List.mem_cons.mp hclause with rfl | hclause
      · obtain ⟨other, hother, hrivals⟩ := List.any_eq_true.mp hrivals
        have hsame := hfirst other hother
        rw [hrivals] at hsame
        rw [beq_iff_eq.mp hsame]
        exact ih hrest other hother
      · exact ih hrest clause hclause
    · rcases List.mem_cons.mp hclause with rfl | hclause
      · exact List.mem_cons_self
      · exact List.mem_cons_of_mem _ (ih hrest clause hclause)

theorem areConsistent_of_eq {clauses : List Clause}
    (h : ∀ clause ∈ clauses, ∀ other ∈ clauses, clause.rivals other = true → clause = other) :
    areConsistent clauses = true := by
  induction clauses with
  | nil => rfl
  | cons first clauses ih =>
    have hrest := ih fun clause hclause other hother =>
      h clause (List.mem_cons_of_mem _ hclause) other (List.mem_cons_of_mem _ hother)
    rw [areConsistent, hrest, Bool.and_true, List.all_eq_true]
    intro other hother
    cases hrivals : first.rivals other with
    | false => rfl
    | true =>
      rw [h first List.mem_cons_self other (List.mem_cons_of_mem _ hother) hrivals]
      exact beq_self_eq_true other

theorem areConsistent_of_holdsOf {clauses : List Clause} {row : Row}
    (h : ∀ clause ∈ clauses, clause.holdsOf row = .ok true) : areConsistent clauses = true :=
  areConsistent_of_eq fun clause hclause other hother hrivals =>
    Clause.eq_of_rivals hrivals (h clause hclause) (h other hother)

/-- The tests hold of a row exactly where all clauses do, if no column is compared with two
values. -/
theorem Row.satisfies_testsOf_iff {q : Query} (h : areConsistent q.clauses = true) {row : Row} :
    row.satisfies (testsOf q.clauses) = .ok true ↔ row.matches_ q = true := by
  rw [Row.matches_iff]
  constructor
  · intro htests clause hclause
    exact Row.holdsOf_of_satisfies htests clause (mem_testsOf h clause hclause)
  · intro hclauses
    exact Row.satisfies_of_holdsOf fun clause hclause =>
      hclauses clause (mem_of_mem_testsOf hclause)

/-- The tests of some row come to a pattern that is too long to be searched for. -/
def Query.Overreaches (q : Query) (t : EntryTable) : Prop :=
  areConsistent q.clauses = true ∧
    ∃ row ∈ t.rows, row.satisfies (testsOf q.clauses) = .error .patternTooLong

namespace EntryTable

/-- The rows that satisfy a query; without clauses, all of them. -/
def matching (t : EntryTable) (q : Query) : List Row := t.rows.filter (·.matches_ q)

theorem matching_of_not_isFiltered (t : EntryTable) {q : Query} (h : ¬q.isFiltered) :
    t.matching q = t.rows := by
  have hclauses : q.clauses = [] := by simpa [Query.isFiltered] using h
  refine List.filter_eq_self.mpr fun row _ => ?_
  rw [Row.matches_, hclauses]
  rfl

theorem mem_matching_iff {t : EntryTable} {row : Row} (hrow : row ∈ t.rows) (q : Query) :
    row ∈ t.matching q ↔ ∀ clause ∈ q.clauses, clause.holdsOf row = .ok true := by
  rw [matching, List.mem_filter, and_iff_right hrow, Row.matches_iff]

theorem select_single (t : EntryTable) (clause : Clause) (offset : Nat) (seed : Option Nat) :
    t.select ⟨[clause], offset, seed⟩ = selectFrom [clause] [] t.rows := rfl

theorem selectFrom_eq_ok {clauses : List Clause} {rows : List Row} {keep : Row → Bool}
    (h : ∀ row ∈ rows, row.satisfies clauses = .ok (keep row)) (done : List Row) :
    selectFrom clauses done rows = .ok (done.reverse ++ rows.filter keep) := by
  induction rows generalizing done with
  | nil => simp [selectFrom]
  | cons row rows ih =>
    obtain ⟨hrow, hrest⟩ := List.forall_mem_cons.mp h
    rw [selectFrom, hrow]
    change selectFrom clauses (if keep row then row :: done else done) rows = _
    rw [ih hrest, List.filter_cons]
    cases keep row <;> simp

/-- The rows that satisfy a query are selected, unless a pattern is too long. -/
theorem select_eq_ok {t : EntryTable} {q : Query} (h : ¬q.Overreaches t) :
    t.select q = .ok (t.matching q) := by
  rw [select]
  split
  · next hconsistent =>
    refine selectFrom_eq_ok (fun row hrow => ?_) []
    obtain ⟨holds, hholds⟩ :=
      Row.exists_satisfies fun htoolong => h ⟨hconsistent, row, hrow, htoolong⟩
    have hmatches : row.satisfies (testsOf q.clauses) = .ok true ↔ row.matches_ q = true :=
      Row.satisfies_testsOf_iff hconsistent
    rw [hholds, Except.ok.injEq, ← Bool.eq_iff_iff] at hmatches
    rw [hholds, hmatches]
  · next hconsistent =>
    have hnone : t.matching q = [] := by
      refine List.filter_eq_nil_iff.mpr fun row _ hmatches => ?_
      exact hconsistent (areConsistent_of_holdsOf (Row.matches_iff.mp hmatches))
    rw [hnone]

theorem selectFrom_eq_error {clauses : List Clause} {rows : List Row}
    (h : ∃ row ∈ rows, row.satisfies clauses = .error .patternTooLong) (done : List Row) :
    selectFrom clauses done rows = .error .patternTooLong := by
  induction rows generalizing done with
  | nil => simp at h
  | cons row rows ih =>
    rw [selectFrom]
    cases hrow : row.satisfies clauses with
    | error refusal =>
      rw [Row.satisfies_error hrow]
      rfl
    | ok holds =>
      refine ih ?_ _
      obtain ⟨other, hother, htoolong⟩ := h
      rcases List.mem_cons.mp hother with rfl | hother
      · rw [hrow] at htoolong
        cases htoolong
      · exact ⟨other, hother, htoolong⟩

theorem select_eq_error {t : EntryTable} {q : Query} (h : q.Overreaches t) :
    t.select q = .error .patternTooLong := by
  rw [select, if_pos h.1]
  exact selectFrom_eq_error h.2 []

theorem eq_matching_of_select {t : EntryTable} {q : Query} {rows : List Row}
    (h : t.select q = .ok rows) : rows = t.matching q := by
  have hdecided : ¬q.Overreaches t := by
    intro htoolong
    rw [select_eq_error htoolong] at h
    cases h
  rw [select_eq_ok hdecided] at h
  exact (Except.ok.inj h).symm

end EntryTable

/-! ### Depths -/

theorem Filter.Clause.depth_bounds (clause : Clause) : 2 ≤ clause.depth ∧ clause.depth ≤ 3 := by
  cases clause <;> simp [Clause.depth]

theorem foldl_depth {clauses : List Clause} {depth : Nat} (h : 3 ≤ depth) :
    clauses.foldl (fun depth clause => max depth clause.depth + 1) depth =
      depth + clauses.length := by
  induction clauses generalizing depth with
  | nil => rfl
  | cons clause clauses ih =>
    have hclause := clause.depth_bounds
    rw [List.foldl_cons, ih (by omega), Nat.max_eq_left (by omega), List.length_cons]
    omega

/-- Each clause makes an expression one deeper, and a bound on a date that is among the first two
makes it deeper once more. -/
theorem depthOf_cons_cons (first second : Clause) (clauses : List Clause) :
    depthOf (first :: second :: clauses) =
      clauses.length + 1 + max first.depth second.depth := by
  have hfirst := first.depth_bounds
  rw [depthOf, List.foldl_cons, foldl_depth (by omega)]
  omega

theorem length_lt_depthOf {clauses : List Clause} (h : clauses ≠ []) :
    clauses.length < depthOf clauses := by
  match clauses with
  | [] => exact absurd rfl h
  | [clause] => exact clause.depth_bounds.1
  | first :: second :: clauses =>
    have hfirst := first.depth_bounds
    rw [depthOf_cons_cons, List.length_cons, List.length_cons]
    omega

/-! ### Patterns that are too long -/

/-- A title of so many letters. -/
def titleOf (n : Nat) : String := String.ofList (List.replicate n 'a')

theorem not_mem_titleOf {c : Char} (h : c ≠ 'a') (n : Nat) : c ∉ (titleOf n).toList := by
  rw [titleOf, String.toList_ofList]
  exact fun hmem => h (List.eq_of_mem_replicate hmem)

theorem utf8ByteSize_titleOf (n : Nat) : (titleOf n).utf8ByteSize = n := by
  induction n with
  | zero => rfl
  | succ n ih =>
    rw [titleOf, List.replicate_succ, String.ofList_cons, ← titleOf, String.utf8ByteSize_append, ih,
      String.utf8ByteSize_singleton]
    have : Char.utf8Size 'a' = 1 := by decide
    omega

/-- It cannot be decided whether a row has a title that is too long to be searched for. -/
theorem satisfies_titleOf {n : Nat} (h : 50000 ≤ n) (row : Row) :
    row.satisfies [.contains .title (titleOf n)] = .error .patternTooLong := by
  have hsize : Like.isSearchable ("%" ++ titleOf n ++ "%") = false := by
    rw [Like.isSearchable, String.utf8ByteSize_append, String.utf8ByteSize_append,
      utf8ByteSize_titleOf]
    have hmark : "%".utf8ByteSize = 1 := by decide
    rw [hmark, Like.patternLimit, decide_eq_false_iff_not]
    omega
  simp only [Row.satisfies, Clause.holdsOf, search, hsize]
  rfl

theorem overreaches_titleOf {n : Nat} (h : 50000 ≤ n) {t : EntryTable} (row : Row)
    (hrow : row ∈ t.rows) : Query.Overreaches ⟨[.contains .title (titleOf n)], 0, none⟩ t :=
  ⟨rfl, row, hrow, satisfies_titleOf h row⟩

end Catalogue
