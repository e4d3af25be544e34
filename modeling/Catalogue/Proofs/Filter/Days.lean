import Catalogue.Proofs.Filter.Reading

/-! Bounds on dates.  A stored date is compared with a bound as text, and the order of the texts is
the order in which the days follow each other; so of the rows that satisfy the rest of a query,
those are selected whose days are within its bounds. -/

namespace Catalogue

open Catalogue.Filter Text

namespace Filter

/-- The keys whose values are bounds on a date. -/
def boundKeys : List String :=
  ["published_between_from", "published_between_until", "saved_between_from",
    "saved_between_until"]

def Key.isBound : Key → Bool
  | .dated _ _ => true
  | _ => false

def Clause.isDated : Clause → Bool
  | .dated _ _ _ => true
  | _ => false

theorem mem_boundKeys_iff {name : String} {key : Key} (h : Key.ofName? name = some key) :
    name ∈ boundKeys ↔ key.isBound = true := by
  have hnames : ∀ named ∈ Key.names, named.1 ∈ boundKeys ↔ named.2.isBound = true := by decide
  exact hnames _ (mem_names_of_ofName? h)

theorem Key.isDated_of_mem_added {key : Key} {name value : String} {argument : Argument}
    (h : key.argument name value = .ok argument) :
    ∀ clause ∈ argument.added, clause.isDated = key.isBound := by
  intro clause hclause
  cases key with
  | dated column bound =>
    obtain ⟨day, rfl, -⟩ := argument_dated h
    rw [List.mem_singleton.mp hclause]
    rfl
  | kind =>
    rw [Key.argument] at h
    split at h
    · cases h
      rw [List.mem_singleton.mp hclause]
      rfl
    · cases h
  | holds column =>
    cases h
    obtain ⟨part, -, rfl⟩ := List.mem_map.mp hclause
    rfl
  | offset | seed =>
    obtain ⟨n, -, rfl⟩ := map_eq_ok.mp h
    cases hclause
  | contains | author | category | exceptional =>
    cases h
    rw [List.mem_singleton.mp hclause]
    rfl

/-- The dated clauses of an argument say what the argument does, where its key is one of a bound. -/
theorem readArgument_dated {pair : String × String} {argument : Argument}
    (h : readArgument pair = .ok argument) (e : Entry) :
    (∀ clause ∈ argument.added, clause.isDated = true → clause.Reads e) ↔
      (pair.1 ∈ boundKeys → Catalogue.Reads pair.1 pair.2 e) := by
  obtain ⟨key, hkey, h⟩ := readArgument_eq_ok_iff.mp h
  have hadded := Key.isDated_of_mem_added h
  rw [mem_boundKeys_iff hkey, reads_iff hkey]
  cases key with
  | dated column bound =>
    obtain ⟨day, rfl, hreads⟩ := argument_dated h
    rw [← hreads e]
    constructor
    · intro hall _
      exact hall _ (List.mem_singleton.mpr rfl) rfl
    · intro hbound clause hclause _
      rw [List.mem_singleton.mp hclause]
      exact hbound rfl
  | _ =>
    refine iff_of_true (fun clause hclause hdated => ?_) fun hbound => ?_
    · rw [hadded clause hclause] at hdated
      cases hdated
    · cases hbound

end Filter

variable {text : String} {q : Query}

theorem compile_dated (h : compile text = .ok q) (e : Entry) :
    (∀ clause ∈ q.clauses, clause.isDated = true → clause.Reads e) ↔
      ∀ pair ∈ pairs text, pair.1 ∈ boundKeys → Reads pair.1 pair.2 e :=
  forall_clauses_iff h fun _ _ _ hargument => readArgument_dated hargument e

theorem isDated_of_boundKeys (h : compile text = .ok q)
    (hkeys : ∀ pair ∈ pairs text, pair.1 ∈ boundKeys) :
    ∀ clause ∈ q.clauses, clause.isDated = true := by
  refine (forall_clauses_iff (Q := fun _ => True) h ?_).mpr fun _ _ => trivial
  intro pair hpair argument hargument
  refine iff_of_true (fun clause hclause => ?_) trivial
  obtain ⟨key, hkey, hargument⟩ := readArgument_eq_ok_iff.mp hargument
  rw [Key.isDated_of_mem_added hargument clause hclause]
  exact (mem_boundKeys_iff hkey).mp (hkeys pair hpair)

namespace Saved

variable (s : Saved)

theorem dated_holds_iff {clause : Clause} (h : clause.isDated = true) :
    clause.holdsOf s.row = .ok true ↔ clause.Reads s.entry := by
  cases clause with
  | dated column bound day =>
    obtain ⟨b, hb, hreads⟩ := s.holdsOf_dated column bound day
    rw [hb, ← hreads, Except.ok.injEq]
  | _ => cases h

/-- It is always decided of a row whether all of its days are in bounds. -/
theorem satisfies_dated {clauses : List Clause}
    (h : ∀ clause ∈ clauses, clause.isDated = true) :
    ∃ b, s.row.satisfies clauses = .ok b := by
  induction clauses with
  | nil => exact ⟨true, rfl⟩
  | cons clause clauses ih =>
    obtain ⟨hclause, hclauses⟩ := List.forall_mem_cons.mp h
    cases clause with
    | dated column bound day =>
      obtain ⟨b, hb, -⟩ := s.holdsOf_dated column bound day
      rw [Row.satisfies, hb]
      cases b with
      | false => exact ⟨false, rfl⟩
      | true => exact ih hclauses
    | _ => cases hclause

end Saved

/-- Dates are in the order of their texts, which is the order in which the days follow each other.
A row is selected where the rest of the query holds of it and its days are within all bounds; and a
query of bounds alone always selects. -/
theorem date_bounds_select_days :
    (∀ d e : Date, (d.text ≤ e.text ↔ d ≤ e) ∧ (d.text = e.text ↔ d = e) ∧
      (d ≤ e ↔ Relation.ReflTransGen Date.IsNext d e)) ∧
    ∀ (path : Path) (tree : FileTree) (steps : List Step) (db : Database) (t : EntryTable),
      ((Session.new path tree).run steps).store.Shows db → db.entries = some t →
      ∀ (text : String) (q : Query), compile text = .ok q →
        ((∀ pair ∈ pairs text, pair.1 ∈ boundKeys) → ∃ rows, t.select q = .ok rows) ∧
        ∀ rows, t.select q = .ok rows → rows.Sublist t.rows ∧ ∀ row ∈ t.rows, ∃ e,
          row.entry = .ok e ∧ (row ∈ rows ↔
            (∀ clause ∈ q.clauses, clause.isDated = false → clause.holdsOf row = .ok true) ∧
            ∀ pair ∈ pairs text, pair.1 ∈ boundKeys → Reads pair.1 pair.2 e) := by
  refine ⟨fun d e => ⟨d.text_le_text_iff e, Date.text_inj, d.le_iff_reaches e⟩, ?_⟩
  intro path tree steps db t hshows ht text q hcompile
  have hsaves : ∀ step ∈ steps, step.Saves fun _ => True := by
    intro step _
    cases step <;> trivial
  obtain ⟨saved, hholds, -⟩ := Session.holds_of_shows path tree hsaves hshows ht
  have hsaved (row : Row) (hrow : row ∈ t.rows) : ∃ s : Saved, s.row = row := by
    rw [hholds.rows] at hrow
    obtain ⟨s, -, hs⟩ := List.mem_map.mp hrow
    exact ⟨s, hs⟩
  constructor
  · intro hkeys
    refine ⟨_, EntryTable.select_eq_ok ?_⟩
    rintro ⟨-, row, hrow, htoolong⟩
    obtain ⟨s, rfl⟩ := hsaved row hrow
    obtain ⟨b, hb⟩ := s.satisfies_dated fun clause hclause =>
      isDated_of_boundKeys hcompile hkeys clause (mem_of_mem_testsOf hclause)
    rw [hb] at htoolong
    cases htoolong
  · intro rows hrows
    rw [EntryTable.eq_matching_of_select hrows]
    refine ⟨List.filter_sublist, fun row hrow => ?_⟩
    obtain ⟨s, rfl⟩ := hsaved row hrow
    refine ⟨s.entry, s.entry_row, ?_⟩
    rw [EntryTable.mem_matching_iff hrow, ← compile_dated hcompile]
    constructor
    · intro hall
      exact ⟨fun clause hclause _ => hall clause hclause,
        fun clause hclause hdated => (s.dated_holds_iff hdated).mp (hall clause hclause)⟩
    · rintro ⟨hother, hdated⟩ clause hclause
      cases hkind : clause.isDated with
      | true => exact (s.dated_holds_iff hkind).mpr (hdated clause hclause hkind)
      | false => exact hother clause hclause hkind

/-- Without its leading zero, the text of the bound would come after that of the later day. -/
theorem date_bounds_select_days_padded : ∃ db row q,
    ((Session.new (.ofText "archive.db") ⟨[], []⟩).run
      [.open_, .insert .sample ⟨1000, 1, 1, by decide⟩]).store.Shows db ∧
    db.entries = some ⟨[row], 1⟩ ∧
    compile ("saved_between_from" ++ "=" ++ "999-12-31") = .ok q ∧
    q.parameters = ["0999-12-31"] ∧ EntryTable.select ⟨[row], 1⟩ q = .ok [row] := by
  let bound : Date := ⟨999, 12, 31, by decide⟩
  let s : Saved := ⟨1, .sample, ⟨1000, 1, 1, by decide⟩⟩
  have hbound : Date.parse? "999-12-31" = some bound := by decide +kernel
  have hargument : readArgument ("saved_between_from", "999-12-31") =
      .ok (.clauses [.dated .saved .atLeast bound]) := by
    have hkey : Key.ofName? "saved_between_from" = some (.dated .saved .atLeast) := by decide
    refine readArgument_eq_ok_iff.mpr ⟨_, hkey, ?_⟩
    rw [Key.argument, hbound]
  obtain ⟨hcompile, hpairs⟩ := compile_single (by decide : '=' ∉ "saved_between_from".toList)
    (by decide) (by decide) hargument
  obtain ⟨db, hshows, hentries⟩ : ∃ db, ((Session.new (.ofText "archive.db") ⟨[], []⟩).run
      [.open_, .insert .sample s.day]).store.Shows db ∧ db.entries = some ⟨[s.row], 1⟩ :=
    ⟨_, ⟨_, rfl⟩, rfl⟩
  have hkeys : ∀ pair ∈ pairs ("saved_between_from" ++ "=" ++ "999-12-31"),
      pair.1 ∈ boundKeys := by
    rw [hpairs]
    decide
  obtain ⟨hselects, hrows⟩ := date_bounds_select_days.2 _ _ _ _ _ hshows hentries _ _ hcompile
  obtain ⟨rows, hselect⟩ := hselects hkeys
  obtain ⟨hsublist, hmem⟩ := hrows rows hselect
  obtain ⟨e, he, hiff⟩ := hmem s.row (List.mem_singleton.mpr rfl)
  rw [s.entry_row] at he
  cases he
  have hrow : s.row ∈ rows := by
    refine hiff.mpr ⟨fun clause hclause hother => ?_, ?_⟩
    · rw [isDated_of_boundKeys hcompile hkeys clause hclause] at hother
      cases hother
    · rw [hpairs, List.forall_mem_singleton]
      intro _
      exact ⟨bound, hbound, by decide⟩
  rcases List.sublist_singleton.mp hsublist with rfl | rfl
  · cases hrow
  · exact ⟨db, s.row, _, hshows, hentries, hcompile, by decide +kernel, hselect⟩

end Catalogue
