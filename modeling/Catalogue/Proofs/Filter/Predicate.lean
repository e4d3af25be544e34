import Catalogue.Proofs.Filter.Compile

/-! What the predicate of a query depends on.  A clause writes a question mark where a text of the
caller goes, so two query texts whose arguments are alike have one predicate, whatever else their
values hold. -/

namespace Catalogue.Filter

open Number Text

/-- Two arguments that ask for clauses of one form: they have one key, as many parts where each part
makes a clause, and one value where the condition is chosen by it. -/
structure Alike (pair other : String × String) : Prop where
  key : pair.1 = other.1
  parts : pair.1 ∈ ["themes", "works_mentioned", "tags"] →
    pair.2.toList.count '|' = other.2.toList.count '|'
  kind : pair.1 = "type" → pair.2 = other.2
  flag : pair.1 = "exceptional" → (pair.2 = "true" ↔ other.2 = "true")

namespace Clause

/-- The clause with nothing in it that comes from a caller. -/
def blank : Clause → Clause
  | .contains column _ => .contains column ""
  | .holds column _ => .holds column ""
  | .inCategory _ => .inCategory ""
  | .ofKind kind => .ofKind kind
  | .dated column bound _ => .dated column bound .first
  | .exceptional flag => .exceptional flag

theorem condition_blank (clause : Clause) : clause.blank.condition = clause.condition := by
  cases clause <;> rfl

theorem isSome_parameter?_blank (clause : Clause) :
    clause.blank.parameter?.isSome = clause.parameter?.isSome := by
  cases clause <;> rfl

end Clause

/-! ### Question marks -/

theorem Clause.count_condition (clause : Clause) :
    clause.condition.toList.count '?' = clause.parameter?.toList.length := by
  cases clause with
  | contains column _ =>
    change (column.name ++ " LIKE ?").toList.count '?' = 1
    cases column <;> decide
  | holds column _ =>
    change (column.name ++ " LIKE ?").toList.count '?' = 1
    cases column <;> decide
  | inCategory _ =>
    change "category = ?".toList.count '?' = 1
    decide
  | ofKind kind =>
    have hnumber : '?' ∉ (natText kind.index).toList := not_mem_natText (by decide) kind.index
    rw [condition, String.toList_append, List.count_append, List.count_eq_zero_of_not_mem hnumber]
    rfl
  | dated column bound _ =>
    change (column.name ++ " " ++ bound.operator ++ " DATE(?)").toList.count '?' = 1
    cases column <;> cases bound <;> decide
  | exceptional flag => cases flag <;> decide

/-- Between the conditions of a predicate stands no question mark. -/
theorem count_join (conditions : List String) : (join " AND " conditions).toList.count '?' =
    (conditions.map fun condition => condition.toList.count '?').sum := by
  induction conditions with
  | nil => rfl
  | cons first rest ih =>
    cases rest with
    | nil => simp [join, String.intercalate_singleton]
    | cons next rest =>
      have hbetween : " AND ".toList.count '?' = 0 := by decide
      rw [join, String.intercalate_cons_cons, String.toList_append, String.toList_append,
        List.count_append, List.count_append, hbetween, List.map_cons, List.sum_cons, ← ih]
      rfl

/-- A predicate has a question mark for each parameter. -/
theorem count_predicate (q : Query) : q.predicate.toList.count '?' = q.parameters.length := by
  rw [Query.predicate, count_join, List.map_map, Query.parameters]
  induction q.clauses with
  | nil => rfl
  | cons clause clauses ih =>
    rw [List.map_cons, List.sum_cons, ih, Function.comp_apply, clause.count_condition,
      List.filterMap_cons]
    cases clause.parameter? with
    | none => simp
    | some text => simp [Nat.add_comm]

/-! ### Clauses of one form -/

/-- The clauses of both lists are of the same form, one by one. -/
def SameForm (clauses others : List Clause) : Prop :=
  clauses.map Clause.blank = others.map Clause.blank

theorem SameForm.append {clauses others more rest : List Clause} (h : SameForm clauses others)
    (hmore : SameForm more rest) : SameForm (clauses ++ more) (others ++ rest) := by
  unfold SameForm at h hmore ⊢
  rw [List.map_append, List.map_append, h, hmore]

theorem SameForm.conditions {clauses others : List Clause} (h : SameForm clauses others) :
    clauses.map Clause.condition = others.map Clause.condition := by
  have hblank (clauses : List Clause) :
      clauses.map Clause.condition = (clauses.map Clause.blank).map Clause.condition := by
    rw [List.map_map]
    exact List.map_congr_left fun clause _ => clause.condition_blank.symm
  rw [hblank clauses, hblank others, h]

theorem SameForm.isEmpty {clauses others : List Clause} (h : SameForm clauses others) :
    clauses.isEmpty = others.isEmpty := by
  have hempty := congrArg List.isEmpty h
  rwa [List.isEmpty_map, List.isEmpty_map] at hempty

theorem SameForm.length_parameters {clauses others : List Clause} (h : SameForm clauses others) :
    (clauses.filterMap Clause.parameter?).length = (others.filterMap Clause.parameter?).length := by
  have hblank (clauses : List Clause) : (clauses.filterMap Clause.parameter?).length =
      (clauses.map Clause.blank).countP (·.parameter?.isSome) := by
    rw [List.length_filterMap_eq_countP, List.countP_map]
    exact List.countP_congr fun clause _ => by simp [clause.isSome_parameter?_blank]
  rw [hblank clauses, hblank others, h]

theorem SameForm.holds {column : ListColumn} {texts others : List String}
    (h : texts.length = others.length) :
    SameForm (texts.map (.holds column)) (others.map (.holds column)) := by
  have hblank (texts : List String) : (texts.map (Clause.holds column)).map Clause.blank =
      List.replicate texts.length (.holds column "") := by
    rw [List.map_map]
    exact List.map_const' ..
  rw [SameForm, hblank, hblank, h]

/-- Only keys for lists make a clause of each part of their value. -/
theorem Key.name_of_holds {name : String} {column : ListColumn}
    (h : Key.ofName? name = some (.holds column)) :
    name ∈ ["themes", "works_mentioned", "tags"] := by
  have hmem := mem_names_of_ofName? h
  simp only [Key.names, List.mem_cons, List.not_mem_nil, or_false, Prod.mk.injEq, reduceCtorEq,
    and_false, false_or] at hmem
  rcases hmem with ⟨rfl, -⟩ | ⟨rfl, -⟩ | ⟨rfl, -⟩ <;> decide

theorem Key.name_of_kind {name : String} (h : Key.ofName? name = some .kind) : name = "type" := by
  simpa [Key.names] using mem_names_of_ofName? h

theorem Key.name_of_exceptional {name : String} (h : Key.ofName? name = some .exceptional) :
    name = "exceptional" := by
  simpa [Key.names] using mem_names_of_ofName? h

variable {name value other : String}

/-- Alike values of a key make clauses of one form, whatever else they hold. -/
theorem Key.argument_sameForm {key : Key} {argument another : Argument}
    (hkey : Key.ofName? name = some key) (halike : Alike (name, value) (name, other))
    (h : key.argument name value = .ok argument) (hother : key.argument name other = .ok another) :
    SameForm argument.added another.added := by
  cases key with
  | contains | author | category =>
    cases h
    cases hother
    rfl
  | holds column =>
    cases h
    cases hother
    refine SameForm.holds ?_
    rw [length_pieces, length_pieces]
    exact congrArg (· + 1) (halike.parts (Key.name_of_holds hkey))
  | kind =>
    have hvalue : value = other := halike.kind (Key.name_of_kind hkey)
    subst hvalue
    rw [h] at hother
    cases hother
    rfl
  | dated column bound =>
    rw [Key.argument] at h hother
    split at h
    · split at hother
      · cases h
        cases hother
        rfl
      · cases hother
    · cases h
  | exceptional =>
    cases h
    cases hother
    have hflag : (value == "true") = (other == "true") := by
      rw [Bool.eq_iff_iff, beq_iff_eq, beq_iff_eq]
      exact halike.flag (Key.name_of_exceptional hkey)
    rw [SameForm, hflag]
  | offset | seed =>
    obtain ⟨n, -, rfl⟩ := map_eq_ok.mp h
    obtain ⟨m, -, rfl⟩ := map_eq_ok.mp hother
    rfl

theorem readArgument_sameForm {pair other : String × String} {argument another : Argument}
    (halike : Alike pair other) (h : readArgument pair = .ok argument)
    (hother : readArgument other = .ok another) : SameForm argument.added another.added := by
  obtain ⟨name, value⟩ := pair
  obtain ⟨name', value'⟩ := other
  obtain rfl : name = name' := halike.key
  obtain ⟨key, hkey, h⟩ := readArgument_eq_ok_iff.mp h
  obtain ⟨key', hkey', hother⟩ := readArgument_eq_ok_iff.mp hother
  obtain rfl : key = key' := Option.some.inj (hkey.symm.trans hkey')
  exact Key.argument_sameForm hkey halike h hother

/-- Alike arguments, one by one, make clauses of one form. -/
theorem sameForm_added {given others : List (String × String)}
    (halike : List.Forall₂ Alike given others) {arguments anothers : List Argument}
    (h : List.Forall₂ (fun pair argument => readArgument pair = .ok argument) given arguments)
    (hother :
      List.Forall₂ (fun pair argument => readArgument pair = .ok argument) others anothers) :
    SameForm (arguments.flatMap Argument.added) (anothers.flatMap Argument.added) := by
  induction halike generalizing arguments anothers with
  | nil =>
    cases h
    cases hother
    rfl
  | cons hpair _ ih =>
    cases h with
    | cons hargument hrest =>
      cases hother with
      | cons hanother hothers =>
        rw [List.flatMap_cons, List.flatMap_cons]
        exact (readArgument_sameForm hpair hargument hanother).append (ih hrest hothers)

/-- The predicate of a query is the same for all texts with alike arguments: of what a caller writes
it depends on the keys, the number of parts, the kind and the mark alone.  It has a place for each
of the parameters, of which there are as many for all these texts. -/
theorem predicate_eq_of_alike {text text' : String} {q q' : Query} (h : compile text = .ok q)
    (h' : compile text' = .ok q') (halike : List.Forall₂ Alike (pairs text) (pairs text')) :
    q.predicate = q'.predicate ∧ q.predicate.toList.count '?' = q.parameters.length ∧
      q.parameters.length = q'.parameters.length ∧ q.isFiltered = q'.isFiltered := by
  obtain ⟨arguments, hforall, rfl⟩ := compile_arguments h
  obtain ⟨anothers, hforall', rfl⟩ := compile_arguments h'
  have hform : SameForm (arguments.foldl Argument.apply .all).clauses
      (anothers.foldl Argument.apply .all).clauses := by
    rw [clauses_foldl, clauses_foldl]
    exact SameForm.append rfl (sameForm_added halike hforall hforall')
  exact ⟨congrArg (join " AND ") hform.conditions, count_predicate _, hform.length_parameters,
    congrArg not hform.isEmpty⟩

/-- Neither a quote nor a question mark among the tags gets into the predicate. -/
theorem predicate_eq_of_alike_quoted : ∃ q q',
    compile ("tags" ++ "=" ++ "Hamlet|Ghosts") = .ok q ∧
    compile ("tags" ++ "=" ++ "' OR 1=1 --|?") = .ok q' ∧
    q.predicate = q'.predicate ∧ q.predicate.toList.count '?' = q.parameters.length ∧
    q.parameters.length = q'.parameters.length ∧ q.isFiltered = q'.isFiltered := by
  obtain ⟨h, hpairs⟩ := compile_single (by decide : '=' ∉ "tags".toList) (by decide)
    (by decide : '%' ∉ "Hamlet|Ghosts".toList ∧ '&' ∉ "Hamlet|Ghosts".toList)
    (rfl : readArgument ("tags", "Hamlet|Ghosts") =
      .ok (.clauses ((pieces '|' "Hamlet|Ghosts").map (.holds .tags))))
  obtain ⟨h', hpairs'⟩ := compile_single (by decide : '=' ∉ "tags".toList) (by decide)
    (by decide : '%' ∉ "' OR 1=1 --|?".toList ∧ '&' ∉ "' OR 1=1 --|?".toList)
    (rfl : readArgument ("tags", "' OR 1=1 --|?") =
      .ok (.clauses ((pieces '|' "' OR 1=1 --|?").map (.holds .tags))))
  have halike : List.Forall₂ Alike (pairs ("tags" ++ "=" ++ "Hamlet|Ghosts"))
      (pairs ("tags" ++ "=" ++ "' OR 1=1 --|?")) := by
    rw [hpairs, hpairs']
    exact .cons ⟨rfl, by decide, by decide, by decide⟩ .nil
  exact ⟨_, _, h, h', predicate_eq_of_alike h h' halike⟩

end Catalogue.Filter
