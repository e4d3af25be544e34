import Catalogue.Proofs.Filter.Compile

/-! Query texts that are joined from two.  Each segment of a text gives an argument by itself, and
the first one that gives none refuses the text; so a joined text asks for what both its parts ask
for, and of their directives the last ones count. -/

namespace Catalogue.Filter

open Number Text

/-! ### Directives -/

/-- The keys of a query text. -/
def keys (text : String) : List String := (pairs text).map Prod.fst

/-- The key tells of an argument whether it sets the offset, sets the seed, or adds clauses. -/
theorem readArgument_cases {pair : String × String} {argument : Argument}
    (h : readArgument pair = .ok argument) :
    (pair.1 = "offset" ∧ ∃ n, argument = .offset n) ∨ (pair.1 = "seed" ∧ ∃ n, argument = .seed n) ∨
      (pair.1 ∉ ["offset", "seed"] ∧ ∃ added, argument = .clauses added) := by
  obtain ⟨key, hkey, h⟩ := readArgument_eq_ok_iff.mp h
  have hmem := mem_names_of_ofName? hkey
  have hother (hoffset : key ≠ .offset) (hseed : key ≠ .seed) :
      pair.1 ∉ ["offset", "seed"] := by
    simp only [List.mem_cons, List.not_mem_nil, or_false]
    rintro (hname | hname) <;> rw [hname] at hkey <;> cases hkey
    · exact hoffset rfl
    · exact hseed rfl
  cases key with
  | offset =>
    obtain ⟨n, -, rfl⟩ := map_eq_ok.mp h
    exact .inl ⟨by simpa [Key.names] using hmem, n, rfl⟩
  | seed =>
    obtain ⟨n, -, rfl⟩ := map_eq_ok.mp h
    exact .inr (.inl ⟨by simpa [Key.names] using hmem, n, rfl⟩)
  | kind | dated =>
    rw [Key.argument] at h
    split at h
    · cases h
      exact .inr (.inr ⟨hother (by simp) (by simp), _, rfl⟩)
    · cases h
  | _ =>
    cases h
    exact .inr (.inr ⟨hother (by simp) (by simp), _, rfl⟩)

/-- A part of a query that the arguments with one key set, and no other arguments. -/
structure IsDirective {γ : Type} (name : String) (part : Query → γ) (given? : Argument → Option γ) :
    Prop where
  apply : ∀ q argument, part (argument.apply q) = (given? argument).getD (part q)
  isSome : ∀ pair argument, readArgument pair = .ok argument →
    ((given? argument).isSome ↔ pair.1 = name)

/-- The offset that an argument sets. -/
def Argument.offset? : Argument → Option Nat
  | .offset n => some n
  | .clauses _ | .seed _ => none

/-- The seed that an argument sets. -/
def Argument.seed? : Argument → Option (Option Nat)
  | .seed n => some (some n)
  | .clauses _ | .offset _ => none

theorem isDirective_offset : IsDirective "offset" Query.offset Argument.offset? where
  apply q argument := by cases argument <;> rfl
  isSome pair argument h := by
    rcases readArgument_cases h with ⟨hname, n, rfl⟩ | ⟨hname, n, rfl⟩ | ⟨hname, added, rfl⟩
    · exact iff_of_true rfl hname
    · exact iff_of_false Bool.false_ne_true (by rw [hname]; decide)
    · exact iff_of_false Bool.false_ne_true fun he => hname (by rw [he]; decide)

theorem isDirective_seed : IsDirective "seed" Query.seed Argument.seed? where
  apply q argument := by cases argument <;> rfl
  isSome pair argument h := by
    rcases readArgument_cases h with ⟨hname, n, rfl⟩ | ⟨hname, n, rfl⟩ | ⟨hname, added, rfl⟩
    · exact iff_of_false Bool.false_ne_true (by rw [hname]; decide)
    · exact iff_of_true rfl hname
    · exact iff_of_false Bool.false_ne_true fun he => hname (by rw [he]; decide)

/-- Where an argument has the key of a directive, the query before the arguments does not count for
it; else it alone counts. -/
theorem IsDirective.foldl {γ : Type} {name : String} {part : Query → γ}
    {given? : Argument → Option γ} (h : IsDirective name part given?)
    {given : List (String × String)} {arguments : List Argument}
    (hforall : List.Forall₂ (fun pair argument => readArgument pair = .ok argument) given arguments)
    (q other : Query) :
    part (arguments.foldl Argument.apply q) =
      if name ∈ given.map Prod.fst then part (arguments.foldl Argument.apply other)
      else part q := by
  induction hforall generalizing q other with
  | nil => simp
  | @cons pair argument given arguments hargument _ ih =>
    rw [List.foldl_cons, List.foldl_cons, ih (argument.apply q) (argument.apply other),
      List.map_cons]
    by_cases hrest : name ∈ given.map Prod.fst
    · simp [hrest]
    · have hlast := ih (argument.apply other) q
      rw [if_neg hrest] at hlast
      have hsets := h.isSome pair argument hargument
      by_cases hname : pair.1 = name
      · obtain ⟨value, hvalue⟩ := Option.isSome_iff_exists.mp (hsets.mpr hname)
        simp [hrest, hname, hlast, h.apply, hvalue]
      · have hnone : given? argument = none := by
          simpa [Option.isSome_iff_ne_none] using mt hsets.mp hname
        simp [hrest, Ne.symm hname, h.apply, hnone]

/-! ### Joined texts -/

theorem Clause.condition_ne_empty (clause : Clause) : clause.condition ≠ "" := by
  cases clause with
  | contains | holds | dated => simp [condition]
  | inCategory | ofKind => simp [condition]
  | exceptional flag => cases flag <;> simp [condition]

theorem predicate_eq_empty_iff (q : Query) : q.predicate = "" ↔ q.clauses = [] := by
  rw [Query.predicate]
  cases q.clauses with
  | nil => exact iff_of_true rfl rfl
  | cons clause clauses =>
    refine iff_of_false (fun hempty => clause.condition_ne_empty ?_) (List.cons_ne_nil _ _)
    cases clauses with
    | nil => simpa [join, String.intercalate_singleton] using hempty
    | cons next clauses =>
      rw [List.map_cons, List.map_cons, join, String.intercalate_cons_cons] at hempty
      simp only [String.append_eq_empty_iff] at hempty
      exact hempty.1.1

/-- The query `joined` asks for what `first` and then `second` ask for, where the text of `second`
has the keys `keys`: its directives count before those of `first`. -/
structure Joins (first second : Query) (keys : List String) (joined : Query) : Prop where
  parameters : joined.parameters = first.parameters ++ second.parameters
  predicate : joined.predicate =
    if first.predicate = "" then second.predicate
    else if second.predicate = "" then first.predicate
    else first.predicate ++ " AND " ++ second.predicate
  offset : joined.offset = if "offset" ∈ keys then second.offset else first.offset
  seed : joined.seed = if "seed" ∈ keys then second.seed else first.seed

/-- The arguments of a text, behind a query, make of it what joins it with the query of the text. -/
theorem joins_foldl {text : String} {arguments : List Argument}
    (hforall : List.Forall₂ (fun pair argument => readArgument pair = .ok argument) (pairs text)
      arguments) (q : Query) :
    Joins q (arguments.foldl Argument.apply .all) (keys text)
      (arguments.foldl Argument.apply q) where
  parameters := by
    rw [Query.parameters, Query.parameters, Query.parameters, clauses_foldl, clauses_foldl,
      List.filterMap_append]
    rfl
  predicate := by
    have hclauses : (arguments.foldl Argument.apply .all).clauses =
        arguments.flatMap Argument.added := clauses_foldl arguments .all
    simp only [predicate_eq_empty_iff, hclauses]
    rw [Query.predicate, Query.predicate, Query.predicate, clauses_foldl, hclauses, List.map_append]
    by_cases hfirst : q.clauses = []
    · simp [hfirst]
    · by_cases hsecond : arguments.flatMap Argument.added = []
      · rw [if_neg hfirst, if_pos hsecond, hsecond, List.map_nil, List.append_nil]
      · rw [if_neg hfirst, if_neg hsecond]
        exact String.intercalate_append_of_ne_nil (mt List.map_eq_nil_iff.mp hfirst)
          (mt List.map_eq_nil_iff.mp hsecond)
  offset := isDirective_offset.foldl hforall q .all
  seed := isDirective_seed.foldl hforall q .all

/-- A text of `n` ampersands. -/
def ampersands (n : Nat) : String := String.ofList (List.replicate n '&')

theorem ampersands_succ (n : Nat) : ampersands (n + 1) = "&" ++ ampersands n := by
  apply String.toList_inj.mp
  simp [ampersands, List.replicate_succ]

theorem segments_ampersands_append (n : Nat) (t : String) :
    segments (ampersands n ++ t) = segments t := by
  induction n with
  | zero => rw [ampersands, List.replicate_zero, String.ofList_nil, String.empty_append]
  | succ n ih =>
    have hempty : segments "" = [] := by decide
    have hsplit : ampersands (n + 1) ++ t = "" ++ "&" ++ (ampersands n ++ t) := by
      rw [ampersands_succ, String.empty_append, String.append_assoc]
    rw [hsplit, segments_append, hempty, ih, List.nil_append]

theorem segments_append_ampersands (s : String) (n : Nat) (t : String) :
    segments (s ++ ampersands (n + 1) ++ t) = segments s ++ segments t := by
  have hsplit : s ++ ampersands (n + 1) ++ t = s ++ "&" ++ (ampersands n ++ t) := by
    rw [ampersands_succ]
    simp only [String.append_assoc]
  rw [hsplit, segments_append, segments_ampersands_append]

/-- A joined text is refused for what its first part is refused for, and else for what its second
part is; where neither is, it asks for what both ask for.  Empty segments change nothing. -/
theorem compile_joined (s t : String) :
    (match compile s, compile t with
      | .error e, _ => compile (s ++ "&" ++ t) = .error e
      | .ok _, .error e => compile (s ++ "&" ++ t) = .error e
      | .ok first, .ok second => ∃ joined, compile (s ++ "&" ++ t) = .ok joined ∧
          Joins first second (keys t) joined) ∧
    ∀ n, compile (s ++ ampersands (n + 1) ++ t) = compile (s ++ "&" ++ t) ∧
      compile (s ++ ampersands n) = compile s ∧ compile (ampersands n ++ t) = compile t := by
  have hseam (n : Nat) : compile (s ++ ampersands (n + 1) ++ t) = compile (s ++ "&" ++ t) := by
    rw [compile, compile, segments_append_ampersands, segments_append]
  have hend (n : Nat) : compile (s ++ ampersands n) = compile s := by
    cases n with
    | zero => rw [ampersands, List.replicate_zero, String.ofList_nil, String.append_empty]
    | succ n =>
      have hsegments := segments_append_ampersands s n ""
      have hempty : segments "" = [] := by decide
      rw [String.append_empty, hempty, List.append_nil] at hsegments
      rw [compile, compile, hsegments]
  have hstart (n : Nat) : compile (ampersands n ++ t) = compile t := by
    rw [compile, compile, segments_ampersands_append]
  refine ⟨?_, fun n => ⟨hseam n, hend n, hstart n⟩⟩
  cases hfirst : compile s with
  | error e =>
    change compile (s ++ "&" ++ t) = .error e
    rw [compile, segments_append, List.foldlM_append]
    change (compile s >>= fun first => (segments t).foldlM addSegment first) = _
    rw [hfirst]
    rfl
  | ok first =>
    rw [compile_append hfirst, foldlM_addSegment, compile_eq t]
    cases harguments : (segments t).mapM readSegment with
    | error e => rfl
    | ok arguments => exact ⟨_, rfl, joins_foldl (forall₂_of_mapM harguments) first⟩

end Catalogue.Filter
