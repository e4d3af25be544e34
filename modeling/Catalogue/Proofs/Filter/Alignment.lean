import Catalogue.Proofs.Date
import Catalogue.Proofs.Filter.Predicate

/-! The form of compiled queries.  What each argument is to write is said in the words of the
predicate itself, apart from the clauses: a list of conditions, each with the text that takes the
place of its question mark.  A predicate is these conditions, joined, and its question marks and the
parameters go in step. -/

namespace Catalogue.Filter

open Number Text

/-- A condition with the text that its question mark stands for. -/
structure Phrase where
  condition : String
  parameter? : Option String

/-- The phrases that an argument with this key and this value is to write. -/
inductive Writes : String × String → List Phrase → Prop
  | part {key : String} (value : String) (hkey : key ∈ ["link", "title", "description"]) :
      Writes (key, value) [⟨key ++ " LIKE ?", some ("%" ++ value ++ "%")⟩]
  | author {key : String} (value : String) (hkey : key ∈ ["author", "authors"]) :
      Writes (key, value) [⟨"author LIKE ?", some ("%|" ++ value ++ "|%")⟩]
  | wholes {key : String} (value : String) (hkey : key ∈ ["themes", "works_mentioned", "tags"]) :
      Writes (key, value)
        ((pieces '|' value).map fun whole => ⟨key ++ " LIKE ?", some ("%|" ++ whole ++ "|%")⟩)
  | category (value : String) : Writes ("category", value) [⟨"category = ?", some value⟩]
  | kind {value condition : String}
      (hvalue : (value, condition) ∈
        [("article", "entry_type = 0"), ("paper", "entry_type = 1"), ("book", "entry_type = 2"),
          ("video", "entry_type = 3"), ("audio", "entry_type = 4")]) :
      Writes ("type", value) [⟨condition, none⟩]
  | day {key condition value : String} {date : Date}
      (hkey : (key, condition) ∈
        [("published_between_from", "date_published >= DATE(?)"),
          ("published_between_until", "date_published <= DATE(?)"),
          ("saved_between_from", "date_saved >= DATE(?)"),
          ("saved_between_until", "date_saved <= DATE(?)")])
      (hdate : Date.parse? value = some date) : Writes (key, value) [⟨condition, some date.text⟩]
  | marked : Writes ("exceptional", "true") [⟨"exceptional = TRUE", none⟩]
  | unmarked {value : String} (hvalue : value ≠ "true") :
      Writes ("exceptional", value) [⟨"exceptional = FALSE", none⟩]
  | directive {key : String} (value : String) (hkey : key ∈ ["offset", "seed"]) :
      Writes (key, value) []

/-! ### Phrases -/

/-- A condition that can be joined with others: there is something in it, it does not join
conditions itself, and a question mark in it stands for a text. -/
structure Phrase.IsProper (phrase : Phrase) : Prop where
  nonempty : phrase.condition ≠ ""
  single : ¬"AND".toList <:+: phrase.condition.toList
  marked : phrase.condition.toList.count '?' = phrase.parameter?.toList.length

/-- A list of phrases is written in the predicate and in the parameters of a query. -/
structure Spells (phrases : List Phrase) (q : Query) : Prop where
  predicate : q.predicate = join " AND " (phrases.map Phrase.condition)
  parameters : q.parameters = phrases.filterMap Phrase.parameter?
  proper : ∀ phrase ∈ phrases, phrase.IsProper
  counted : q.predicate.toList.count '?' = q.parameters.length
  /-- The question mark that has `i` others before it is that of the phrase whose text is the
  parameter at `i`. -/
  aligned : ∀ i, ∀ text, q.parameters[i]? = some text → ∃ before condition after front back,
    phrases = before ++ ⟨condition, some text⟩ :: after ∧
      q.predicate = front ++ condition ++ back ∧
      front = String.join (before.map fun phrase => phrase.condition ++ " AND ") ∧
      back = String.join (after.map fun phrase => " AND " ++ phrase.condition) ∧
      front.toList.count '?' = i ∧ condition.toList.count '?' = 1

theorem join_eq_append (before after : List String) (condition : String) :
    join " AND " (before ++ condition :: after) =
      String.join (before.map (· ++ " AND ")) ++ condition ++
        String.join (after.map (" AND " ++ ·)) := by
  induction before with
  | nil =>
    induction after generalizing condition with
    | nil => simp [join, String.intercalate_singleton]
    | cons next after ih =>
      have hrest := ih next
      simp only [List.nil_append, List.map_nil, String.join_nil, String.empty_append] at hrest ⊢
      rw [join, String.intercalate_cons_cons, ← join, hrest, List.map_cons, String.join_cons]
      simp only [String.append_assoc]
  | cons first before ih =>
    have hne : before ++ condition :: after ≠ [] := by simp
    obtain ⟨next, rest, hrest⟩ := List.exists_cons_of_ne_nil hne
    rw [List.cons_append, hrest, join, String.intercalate_cons_cons, ← hrest, ← join, ih,
      List.map_cons, String.join_cons]
    simp only [String.append_assoc]

/-- Where every question mark stands for a text, a front of the conditions has as many of them as
there are texts in its phrases. -/
theorem count_front {before : List Phrase} (h : ∀ phrase ∈ before, phrase.IsProper) :
    (String.join (before.map fun phrase => phrase.condition ++ " AND ")).toList.count '?' =
      (before.filterMap Phrase.parameter?).length := by
  induction before with
  | nil => rfl
  | cons phrase before ih =>
    have hbetween : " AND ".toList.count '?' = 0 := by decide
    have hrest := ih fun other hother => h other (List.mem_cons_of_mem _ hother)
    rw [List.map_cons, String.join_cons, String.toList_append, String.toList_append,
      List.count_append, List.count_append, hbetween, hrest, (h phrase List.mem_cons_self).marked,
      List.filterMap_cons]
    cases phrase.parameter? with
    | none => simp
    | some text => simp [Nat.add_comm]

/-- Each parameter is the text of a phrase, and the phrases before it have the parameters before
it. -/
theorem exists_phrase {phrases : List Phrase} {i : Nat} {text : String}
    (h : (phrases.filterMap Phrase.parameter?)[i]? = some text) :
    ∃ before condition after, phrases = before ++ ⟨condition, some text⟩ :: after ∧
      (before.filterMap Phrase.parameter?).length = i := by
  induction phrases generalizing i with
  | nil => simp at h
  | cons phrase phrases ih =>
    obtain ⟨condition, parameter?⟩ := phrase
    cases parameter? with
    | none =>
      rw [List.filterMap_cons_none rfl] at h
      obtain ⟨before, found, after, rfl, hlength⟩ := ih h
      exact ⟨⟨condition, none⟩ :: before, found, after, rfl, by simpa using hlength⟩
    | some first =>
      have hcons : (⟨condition, some first⟩ :: phrases).filterMap Phrase.parameter? =
          first :: phrases.filterMap Phrase.parameter? := rfl
      rw [hcons] at h
      cases i with
      | zero =>
        cases h
        exact ⟨[], condition, phrases, rfl, rfl⟩
      | succ i =>
        obtain ⟨before, found, after, rfl, hlength⟩ := ih (by simpa using h)
        exact ⟨⟨condition, some first⟩ :: before, found, after, rfl, by simpa using hlength⟩

theorem spells_of_proper {phrases : List Phrase} {q : Query}
    (hpredicate : q.predicate = join " AND " (phrases.map Phrase.condition))
    (hparameters : q.parameters = phrases.filterMap Phrase.parameter?)
    (hproper : ∀ phrase ∈ phrases, phrase.IsProper) : Spells phrases q where
  predicate := hpredicate
  parameters := hparameters
  proper := hproper
  counted := count_predicate q
  aligned := by
    intro i text h
    rw [hparameters] at h
    obtain ⟨before, condition, after, rfl, hlength⟩ := exists_phrase h
    have hbefore : ∀ phrase ∈ before, phrase.IsProper := fun phrase hphrase =>
      hproper phrase (List.mem_append_left _ hphrase)
    have hphrase := hproper ⟨condition, some text⟩ (by simp)
    refine ⟨before, condition, after, _, _, rfl, ?_, rfl, rfl, ?_, hphrase.marked⟩
    · rw [hpredicate, List.map_append, List.map_cons, join_eq_append, List.map_map, List.map_map]
      rfl
    · rw [count_front hbefore, hlength]

theorem join_eq_empty_iff {phrases : List Phrase} (h : ∀ phrase ∈ phrases, phrase.IsProper) :
    join " AND " (phrases.map Phrase.condition) = "" ↔ phrases = [] := by
  cases phrases with
  | nil => exact iff_of_true rfl rfl
  | cons phrase phrases =>
    have hnonempty := (h phrase List.mem_cons_self).nonempty
    have hjoin := join_eq_append [] (phrases.map Phrase.condition) phrase.condition
    refine iff_of_false (fun hempty => hnonempty ?_) (List.cons_ne_nil _ _)
    rw [List.map_cons, ← List.nil_append (phrase.condition :: _), hjoin] at hempty
    simp only [String.append_eq_empty_iff] at hempty
    exact hempty.1.2

/-! ### What arguments write -/

theorem Phrase.IsProper.of_condition {condition : String} {parameter? : Option String}
    (h : condition ≠ "" ∧ 'N' ∉ condition.toList ∧
      condition.toList.count '?' = parameter?.toList.length) :
    Phrase.IsProper ⟨condition, parameter?⟩ where
  nonempty := h.1
  single hpart := h.2.1 (hpart.subset (by decide))
  marked := h.2.2

theorem Writes.proper {pair : String × String} {phrases : List Phrase} (h : Writes pair phrases) :
    ∀ phrase ∈ phrases, phrase.IsProper := by
  cases h with
  | part value hkey =>
    have hproper : ∀ key ∈ ["link", "title", "description"], key ++ " LIKE ?" ≠ "" ∧
        'N' ∉ (key ++ " LIKE ?").toList ∧ (key ++ " LIKE ?").toList.count '?' = 1 := by decide
    exact List.forall_mem_singleton.mpr (.of_condition (hproper _ hkey))
  | author value hkey =>
    exact List.forall_mem_singleton.mpr (.of_condition ⟨by decide, by decide, rfl⟩)
  | wholes value hkey =>
    have hproper : ∀ key ∈ ["themes", "works_mentioned", "tags"], key ++ " LIKE ?" ≠ "" ∧
        'N' ∉ (key ++ " LIKE ?").toList ∧ (key ++ " LIKE ?").toList.count '?' = 1 := by decide
    rw [List.forall_mem_map]
    exact fun whole _ => .of_condition (hproper _ hkey)
  | category value =>
    exact List.forall_mem_singleton.mpr (.of_condition ⟨by decide, by decide, rfl⟩)
  | kind hvalue =>
    simp only [List.mem_cons, List.not_mem_nil, or_false, Prod.mk.injEq] at hvalue
    rcases hvalue with ⟨-, rfl⟩ | ⟨-, rfl⟩ | ⟨-, rfl⟩ | ⟨-, rfl⟩ | ⟨-, rfl⟩
    all_goals exact List.forall_mem_singleton.mpr (.of_condition ⟨by decide, by decide, rfl⟩)
  | day hkey hdate =>
    simp only [List.mem_cons, List.not_mem_nil, or_false, Prod.mk.injEq] at hkey
    rcases hkey with ⟨-, rfl⟩ | ⟨-, rfl⟩ | ⟨-, rfl⟩ | ⟨-, rfl⟩
    all_goals exact List.forall_mem_singleton.mpr (.of_condition ⟨by decide, by decide, rfl⟩)
  | marked | unmarked =>
    exact List.forall_mem_singleton.mpr (.of_condition ⟨by decide, by decide, rfl⟩)
  | directive value hkey => exact fun phrase hphrase => absurd hphrase List.not_mem_nil

/-- Only the directives write nothing. -/
theorem Writes.eq_nil_iff {pair : String × String} {phrases : List Phrase}
    (h : Writes pair phrases) : phrases = [] ↔ pair.1 ∈ ["offset", "seed"] := by
  cases h with
  | part value hkey =>
    have hother : ∀ key ∈ ["link", "title", "description"], key ∉ ["offset", "seed"] := by decide
    exact iff_of_false (by simp) (hother _ hkey)
  | author value hkey =>
    have hother : ∀ key ∈ ["author", "authors"], key ∉ ["offset", "seed"] := by decide
    exact iff_of_false (by simp) (hother _ hkey)
  | wholes value hkey =>
    have hother : ∀ key ∈ ["themes", "works_mentioned", "tags"], key ∉ ["offset", "seed"] := by
      decide
    refine iff_of_false (fun hnil => ?_) (hother _ hkey)
    have hlength := length_pieces '|' value
    rw [List.map_eq_nil_iff.mp hnil] at hlength
    cases hlength
  | category | kind | marked | unmarked => exact iff_of_false (by simp) (by simp)
  | day hkey hdate =>
    refine iff_of_false (by simp) ?_
    simp only [List.mem_cons, List.not_mem_nil, or_false, Prod.mk.injEq] at hkey
    rcases hkey with ⟨rfl, -⟩ | ⟨rfl, -⟩ | ⟨rfl, -⟩ | ⟨rfl, -⟩ <;> simp
  | directive value hkey => exact iff_of_true rfl hkey

/-! ### What clauses write -/

/-- The phrase of a clause. -/
def Clause.phrase (clause : Clause) : Phrase := ⟨clause.condition, clause.parameter?⟩

theorem natText_of_lt {n : Nat} (h : n < 10) :
    natText n = String.singleton (Char.ofNat (48 + n)) := by
  rw [natText, decimalFrom, if_pos h]
  rfl

theorem Key.argument_writes {name value : String} {key : Key} {argument : Argument}
    (hname : Key.ofName? name = some key) (h : key.argument name value = .ok argument) :
    Writes (name, value) (argument.added.map Clause.phrase) := by
  have hmem := mem_names_of_ofName? hname
  cases key with
  | contains column =>
    cases h
    cases column with
    | link =>
      obtain rfl : name = "link" := by simpa [Key.names] using hmem
      exact .part value (by decide)
    | title =>
      obtain rfl : name = "title" := by simpa [Key.names] using hmem
      exact .part value (by decide)
    | description =>
      obtain rfl : name = "description" := by simpa [Key.names] using hmem
      exact .part value (by decide)
  | author =>
    cases h
    have hauthor : name = "author" ∨ name = "authors" := by simpa [Key.names] using hmem
    exact .author value (by simpa using hauthor)
  | holds column =>
    cases h
    have hlist := Writes.wholes value (Key.name_of_holds hname)
    have hcolumn : column.name = name := by
      cases column with
      | authors => simp [Key.names] at hmem
      | themes | worksMentioned | tags =>
        symm
        simpa [Key.names, ListColumn.name] using hmem
    rw [← hcolumn] at hlist ⊢
    rw [Argument.added, List.map_map]
    exact hlist
  | category =>
    cases h
    obtain rfl : name = "category" := by simpa [Key.names] using hmem
    exact .category value
  | kind =>
    obtain rfl := Key.name_of_kind hname
    rw [Key.argument] at h
    split at h
    · next kind hkind =>
      cases h
      obtain rfl : kind.token = value := by simpa using List.find?_some hkind
      refine .kind ?_
      have hindex : kind.index < 10 := by cases kind <;> decide
      rw [Clause.condition, natText_of_lt hindex]
      cases kind <;> decide
    · cases h
  | dated column bound =>
    rw [Key.argument] at h
    split at h
    · next date hdate =>
      cases h
      refine .day ?_ hdate
      rw [Clause.condition]
      cases column <;> cases bound
      all_goals
        simp [Key.names] at hmem
        subst hmem
        decide
    · cases h
  | exceptional =>
    cases h
    obtain rfl := Key.name_of_exceptional hname
    by_cases hvalue : value = "true"
    · subst hvalue
      exact .marked
    · rw [beq_false_of_ne hvalue]
      exact .unmarked hvalue
  | offset =>
    obtain ⟨n, -, rfl⟩ := map_eq_ok.mp h
    obtain rfl : name = "offset" := by simpa [Key.names] using hmem
    exact .directive value (by decide)
  | seed =>
    obtain ⟨n, -, rfl⟩ := map_eq_ok.mp h
    obtain rfl : name = "seed" := by simpa [Key.names] using hmem
    exact .directive value (by decide)

theorem readArgument_writes {pair : String × String} {argument : Argument}
    (h : readArgument pair = .ok argument) :
    Writes pair (argument.added.map Clause.phrase) := by
  obtain ⟨key, hkey, h⟩ := readArgument_eq_ok_iff.mp h
  exact Key.argument_writes hkey h

/-- The clauses of a query are what its arguments write, from left to right. -/
theorem compile_writes {text : String} {q : Query} (h : compile text = .ok q) :
    ∃ written, List.Forall₂ Writes (pairs text) written ∧
      q.clauses.map Clause.phrase = written.flatten := by
  obtain ⟨arguments, hforall, rfl⟩ := compile_arguments h
  refine ⟨arguments.map fun argument => argument.added.map Clause.phrase, ?_, ?_⟩
  · rw [List.forall₂_map_right_iff]
    exact hforall.imp fun _ _ => readArgument_writes
  · rw [clauses_foldl, ← List.flatMap_def, ← List.map_flatMap]
    rfl

theorem proper_flatten {given : List (String × String)} {written : List (List Phrase)}
    (h : List.Forall₂ Writes given written) : ∀ phrase ∈ written.flatten, phrase.IsProper := by
  induction h with
  | nil => simp
  | cons hwrites _ ih =>
    rw [List.flatten_cons, List.forall_mem_append]
    exact ⟨hwrites.proper, ih⟩

theorem flatten_eq_nil_iff {given : List (String × String)} {written : List (List Phrase)}
    (h : List.Forall₂ Writes given written) :
    written.flatten = [] ↔ ∀ pair ∈ given, pair.1 ∈ ["offset", "seed"] := by
  induction h with
  | nil => simp
  | cons hwrites _ ih =>
    rw [List.flatten_cons, List.append_eq_nil_iff, hwrites.eq_nil_iff, ih, List.forall_mem_cons]

/-- A compiled query is well formed: its predicate is the conditions that the arguments write,
joined, and for each question mark in it there is the parameter that the condition around it needs;
the predicate is empty where there are directives only, which stay within their bounds. -/
theorem compile_spells {text : String} {q : Query} (h : compile text = .ok q) :
    ∃ written, List.Forall₂ Writes (pairs text) written ∧ Spells written.flatten q ∧
      (q.predicate = "" ↔ ∀ pair ∈ pairs text, pair.1 ∈ ["offset", "seed"]) ∧
      q.offset ≤ 2 ^ 63 - 1 ∧ ∀ seed ∈ q.seed, seed ≤ 2 ^ 64 - 1 := by
  obtain ⟨written, hwrites, hphrases⟩ := compile_writes h
  have hproper := proper_flatten hwrites
  have hpredicate : q.predicate = join " AND " (written.flatten.map Phrase.condition) := by
    rw [← hphrases, List.map_map]
    rfl
  have hparameters : q.parameters = written.flatten.filterMap Phrase.parameter? := by
    rw [← hphrases, List.filterMap_map]
    rfl
  refine ⟨written, hwrites, spells_of_proper hpredicate hparameters hproper, ?_, compile_bounded h⟩
  rw [hpredicate, join_eq_empty_iff hproper]
  exact flatten_eq_nil_iff hwrites

/-- Two tags are two conditions, each with a text of its own. -/
theorem compile_spells_sample : ∃ q written, compile ("tags" ++ "=" ++ "Hamlet|Ghosts") = .ok q ∧
    List.Forall₂ Writes (pairs ("tags" ++ "=" ++ "Hamlet|Ghosts")) written ∧
    Spells written.flatten q ∧
    (q.predicate = "" ↔
      ∀ pair ∈ pairs ("tags" ++ "=" ++ "Hamlet|Ghosts"), pair.1 ∈ ["offset", "seed"]) ∧
    q.offset ≤ 2 ^ 63 - 1 ∧ ∀ seed ∈ q.seed, seed ≤ 2 ^ 64 - 1 := by
  obtain ⟨h, -⟩ := compile_single (by decide : '=' ∉ "tags".toList) (by decide)
    (by decide : '%' ∉ "Hamlet|Ghosts".toList ∧ '&' ∉ "Hamlet|Ghosts".toList)
    (rfl : readArgument ("tags", "Hamlet|Ghosts") =
      .ok (.clauses ((pieces '|' "Hamlet|Ghosts").map (.holds .tags))))
  obtain ⟨written, hwrites, hspells, hempty, hbounded⟩ := compile_spells h
  exact ⟨_, written, h, hwrites, hspells, hempty, hbounded⟩

end Catalogue.Filter
