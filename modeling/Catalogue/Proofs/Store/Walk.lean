import Catalogue.Proofs.Filter.Compile
import Catalogue.Proofs.Store.Paging
import Catalogue.Proofs.Store.Refinement

/-! Walks through the pages of a query.  Page after page is asked for, each with the directives of
the page before it, until one is empty; the pages then have shown every entry in question once. -/

namespace Catalogue

open Catalogue.Filter Number

/-- The text that asks for what is behind a page of the query `text`. -/
def Page.next (text : String) (page : Page) : String :=
  text ++ "&offset=" ++ intText page.nextOffset ++ "&seed=" ++ intText page.seed

namespace Access

/-- The page that a text asks for, unless it is no query. -/
def ask (pageSize generated : Nat) (asked : String) : Access (Except CompileError Page) :=
  match compile asked with
  | .error e => return .error e
  | .ok q => .ok <$> retrieve pageSize generated q

/-- Asks for a page and, while pages have entries, for the next one, once for each generated seed at
most. -/
def walk (pageSize : Nat) (text : String) :
    List Nat → String → Access (Except CompileError (List Page))
  | [], _ => return .ok []
  | generated :: seeds, asked => do
    match (← ask pageSize generated asked) with
    | .error e => return .error e
    | .ok page =>
      if page.entries.isEmpty then return .ok [page]
      else return (← walk pageSize text seeds (page.next text)).map (page :: ·)

end Access

/-- The number of pages that some entries fill, the last one perhaps in part. -/
def pageCount (entries pageSize : Nat) : Nat := (entries + pageSize - 1) / pageSize

theorem pageCount_zero {pageSize : Nat} (hsize : 1 ≤ pageSize) : pageCount 0 pageSize = 0 :=
  Nat.div_eq_of_lt (by omega)

theorem pageCount_step {entries pageSize : Nat} (hsize : 1 ≤ pageSize) (h : 0 < entries) :
    pageCount entries pageSize = pageCount (entries - pageSize) pageSize + 1 := by
  have hsplit : entries + pageSize - 1 = entries - 1 + pageSize := by omega
  rw [pageCount, hsplit, Nat.add_div_right _ (by omega), pageCount]
  by_cases hle : pageSize ≤ entries
  · rw [show entries - pageSize + pageSize - 1 = entries - 1 by omega]
  · rw [Nat.div_eq_of_lt (by omega), Nat.div_eq_of_lt (by omega)]

/-- The pages `full` show each of the entries once, and there are no more of them than it takes; the
page `last` shows nothing. -/
structure Covers (pageSize : Nat) (entries : List Entry) (full : List Page) (last : Page) :
    Prop where
  count : full.length = pageCount entries.length pageSize
  filled : ∀ page ∈ full, page.entries ≠ []
  empty : last.entries = []
  each : (full.flatMap (·.entries)).Perm entries

namespace Covers

variable {pageSize : Nat} {order : List Entry} {full : List Page} {page last : Page}

theorem nil (hsize : 1 ≤ pageSize) (hempty : last.entries = []) : Covers pageSize [] [] last where
  count := (pageCount_zero hsize).symm
  filled := by simp
  empty := hempty
  each := .refl _

theorem cons (hsize : 1 ≤ pageSize) (hfilled : page.entries ≠ [])
    (hpage : page.entries.Perm (order.take pageSize))
    (h : Covers pageSize (order.drop pageSize) full last) :
    Covers pageSize order (page :: full) last where
  count := by
    have hpositive : 0 < order.length := by
      refine List.length_pos_of_ne_nil fun hnil => hfilled ?_
      rw [hnil, List.take_nil] at hpage
      exact hpage.eq_nil
    rw [List.length_cons, h.count, List.length_drop, pageCount_step hsize hpositive]
  filled := by
    rw [List.forall_mem_cons]
    exact ⟨hfilled, h.filled⟩
  empty := h.empty
  each := by
    rw [List.flatMap_cons]
    exact (hpage.append h.each).trans (.of_eq (List.take_append_drop pageSize order))

theorem of_perm {entries : List Entry} (h : Covers pageSize order full last)
    (hperm : order.Perm entries) : Covers pageSize entries full last where
  count := by rw [h.count, hperm.length_eq]
  filled := h.filled
  empty := h.empty
  each := h.each.trans hperm

end Covers

theorem intText_natCast (n : Nat) : intText n = natText n := by
  rw [intText, if_neg (by omega), Int.natAbs_natCast]

theorem drop_part {α : Type} (order : List α) (offset pageSize : Nat) :
    order.drop (offset + min pageSize (order.length - offset)) =
      (order.drop offset).drop pageSize := by
  rw [List.drop_drop]
  by_cases h : pageSize ≤ order.length - offset
  · rw [Nat.min_eq_left h]
  · rw [List.drop_eq_nil_of_le (by omega), List.drop_eq_nil_of_le (by omega)]

namespace Access

variable {db : Database} {pageSize generated : Nat} {text asked : String} {page : Page}

theorem Gives.ask {t : EntryTable} {q : Query} (hcompile : compile asked = .ok q)
    (ht : db.entries = some t) (hq : q.isFiltered → q.FitsScan pageSize) :
    Gives (ask pageSize generated asked) db ((t.page pageSize generated q).map .ok) db := by
  rw [Access.ask, hcompile]
  exact (Gives.retrieve generated ht hq).map _

theorem Gives.walk_last {seeds : List Nat}
    (hask : Gives (Access.ask pageSize generated asked) db (.ok (.ok page)) db)
    (h : page.entries = []) :
    Gives (Access.walk pageSize text (generated :: seeds) asked) db (.ok (.ok [page])) db := by
  refine Gives.bind hask ?_
  dsimp only
  rw [h]
  exact Gives.pure _

theorem Gives.walk_more {seeds : List Nat} {pages : List Page}
    (hask : Gives (Access.ask pageSize generated asked) db (.ok (.ok page)) db)
    (h : page.entries ≠ [])
    (hrest : Gives (Access.walk pageSize text seeds (page.next text)) db (.ok (.ok pages)) db) :
    Gives (Access.walk pageSize text (generated :: seeds) asked) db
      (.ok (.ok (page :: pages))) db := by
  refine Gives.bind hask ?_
  dsimp only
  rw [if_neg (by simpa using h)]
  exact Gives.bind hrest (Gives.pure _)

/-- The text `asked` gets the part of `order` at an offset, and the way to what is behind it. -/
def Shows (pageSize : Nat) (db : Database) (order : List Entry) (seed generated : Nat)
    (asked : String) (offset : Nat) : Prop :=
  ∃ entries, Gives (Access.ask pageSize generated asked) db
      (.ok (.ok ⟨entries, offset, offset + entries.length, order.length, seed⟩)) db ∧
    entries.Perm ((order.drop offset).take pageSize)

/-- Where nothing is left to be shown, a walk ends with the empty page that it gets. -/
theorem Gives.walk_end {order : List Entry} {seed offset : Nat} {seeds : List Nat}
    (hsize : 1 ≤ pageSize)
    (hask : Gives (Access.ask pageSize generated asked) db
      (.ok (.ok ⟨[], offset, offset + ([] : List Entry).length, order.length, seed⟩)) db)
    (hperm : [].Perm ((order.drop offset).take pageSize)) :
    ∃ full last, Gives (Access.walk pageSize text (generated :: seeds) asked) db
        (.ok (.ok (full ++ [last]))) db ∧
      Covers pageSize (order.drop offset) full last ∧
      ∀ page ∈ full ++ [last], page.seed = seed ∧ page.total = order.length := by
  have hdone : order.drop offset = [] := by
    have hnone := hperm.symm.eq_nil
    rw [List.take_eq_nil_iff] at hnone
    exact hnone.resolve_left (by omega)
  refine ⟨[], _, Gives.walk_last hask rfl, ?_, ?_⟩
  · rw [hdone]
    exact .nil hsize rfl
  · simp

/-- A walk shows all that is left of an order: what is left gets shorter with every page that has
entries. -/
theorem Gives.walk {order : List Entry} {seed : Nat} {seeds : List Nat} {offset : Nat}
    (hsize : 1 ≤ pageSize) (hnext : ∀ generated offset, offset ≤ order.length →
      Shows pageSize db order seed generated (continued text offset seed) offset)
    (hoffset : offset ≤ order.length) (hasked : Shows pageSize db order seed generated asked offset)
    (hlong : pageCount (order.length - offset) pageSize ≤ seeds.length) :
    ∃ full last, Gives (Access.walk pageSize text (generated :: seeds) asked) db
        (.ok (.ok (full ++ [last]))) db ∧
      Covers pageSize (order.drop offset) full last ∧
      ∀ page ∈ full ++ [last], page.seed = seed ∧ page.total = order.length := by
  induction seeds generalizing generated asked offset with
  | nil =>
    obtain ⟨entries, hask, hperm⟩ := hasked
    have hdone : order.length ≤ offset := by
      by_contra h
      rw [pageCount_step hsize (by omega)] at hlong
      simp at hlong
    have hempty : entries = [] := by
      rw [List.drop_eq_nil_of_le hdone, List.take_nil] at hperm
      exact hperm.eq_nil
    subst hempty
    exact Gives.walk_end hsize hask hperm
  | cons next seeds ih =>
    obtain ⟨entries, hask, hperm⟩ := hasked
    by_cases hempty : entries = []
    · subst hempty
      exact Gives.walk_end hsize hask hperm
    · -- The next page starts behind the entries of this one, so what is left is what `drop` leaves.
      have hlength : entries.length = min pageSize (order.length - offset) := by
        rw [hperm.length_eq, List.length_take, List.length_drop]
      have hpositive := List.length_pos_of_ne_nil hempty
      have hrest : order.length - (offset + entries.length) =
          order.length - offset - pageSize := by omega
      have hcount : pageCount (order.length - (offset + entries.length)) pageSize ≤
          seeds.length := by
        rw [pageCount_step hsize (by omega), List.length_cons] at hlong
        rw [hrest]
        omega
      obtain ⟨full, last, hwalk, hcovers, hsame⟩ :=
        ih (by omega) (hnext next (offset + entries.length) (by omega)) hcount
      refine ⟨_ :: full, last, Gives.walk_more hask hempty ?_, ?_, ?_⟩
      · rw [Page.next]
        dsimp only
        rw [← Int.natCast_add, intText_natCast, intText_natCast]
        exact hwalk
      · rw [hlength, drop_part] at hcovers
        exact .cons hsize hempty hperm hcovers
      · rw [List.cons_append, List.forall_mem_cons]
        exact ⟨⟨rfl, rfl⟩, hsame⟩

end Access

/-- The seed of a query, or a generated one, can be given in a text. -/
theorem seed_le {text : String} {q : Query} (h : compile text = .ok q) {generated : Nat}
    (hgenerated : generated < seedBound) : q.seed.getD generated ≤ maxSeed := by
  cases hseed : q.seed with
  | some given => exact (compile_bounded h).2 given hseed
  | none =>
    have hbound : seedBound = 2 ^ 31 := rfl
    have hmax : maxSeed = 2 ^ 64 - 1 := rfl
    rw [Option.getD_none]
    omega

section Parts

variable {db : Database} {t : EntryTable} {q : Query} {pageSize generated : Nat}
  {order : List Entry}

/-- A text shows the part at an offset if its query has the page there. -/
theorem EntryTable.Parts.shows {seed offset : Nat} (hparts : t.Parts pageSize q seed order)
    (ht : db.entries = some t) {asked : String} {other : Query}
    (hcompile : compile asked = .ok other)
    (hother : other.isFiltered → other.FitsScan pageSize)
    (hsame : t.page pageSize generated other =
      t.page pageSize generated { q with offset := offset, seed := some seed }) :
    Access.Shows pageSize db order seed generated asked offset := by
  obtain ⟨entries, hpage, hpart⟩ := hparts generated offset
  have hask : Access.Gives (Access.ask pageSize generated asked) db _ db :=
    Access.Gives.ask hcompile ht hother
  rw [hsame, hpage] at hask
  exact ⟨entries, hask, hpart⟩

/-- Where the pages of a query are parts of an order, a walk through them shows all of it. -/
theorem EntryTable.Parts.walk (hparts : t.Parts pageSize q (q.seed.getD generated) order)
    (ht : db.entries = some t) {text : String} (hcompile : compile text = .ok q)
    (hstart : q.offset = 0) (hsize : 1 ≤ pageSize) (hscan : q.isFiltered → q.FitsScan pageSize)
    (hgenerated : generated < seedBound)
    (hfits : ∀ offset ≤ order.length, FitsWord offset ∧ offset ≤ maxOffset) {seeds : List Nat}
    (hlong : pageCount order.length pageSize ≤ seeds.length) :
    ∃ full last, Access.Gives (Access.walk pageSize text (generated :: seeds) text) db
        (.ok (.ok (full ++ [last]))) db ∧
      Covers pageSize order full last ∧ ∀ page ∈ full ++ [last],
        page.seed = (q.seed.getD generated : Nat) ∧ page.total = order.length := by
  have hnext (next offset : Nat) (hoffset : offset ≤ order.length) :
      Access.Shows pageSize db order (q.seed.getD generated) next
        (continued text offset (q.seed.getD generated)) offset := by
    obtain ⟨hword, hmax⟩ := hfits offset hoffset
    have hcontinued := compile_continued hcompile hmax (seed_le hcompile hgenerated)
    exact hparts.shows ht hcontinued
      (fun hfiltered => ⟨(hscan hfiltered).depth, (hscan hfiltered).size, hword⟩) rfl
  have hfirst : Access.Shows pageSize db order (q.seed.getD generated) generated text 0 := by
    refine hparts.shows ht hcompile hscan ?_
    rw [← hstart]
    rfl
  exact Access.Gives.walk hsize hnext (Nat.zero_le _) hfirst hlong

end Parts

/-! ### Scans that are refused -/

/-- A query text with one more argument than `n`. -/
def flags : Nat → String
  | 0 => "exceptional=true"
  | n + 1 => flags n ++ "&" ++ "exceptional=true"

theorem segments_flags (n : Nat) :
    segments (flags n) = List.replicate (n + 1) "exceptional=true" := by
  have hsingle : segments "exceptional=true" = ["exceptional=true"] :=
    segments_single (by decide) (by decide)
  induction n with
  | zero => exact hsingle
  | succ n ih => rw [flags, segments_append, ih, hsingle, ← List.replicate_succ']

theorem readPair_flag : readPair "exceptional=true" = .ok ("exceptional", "true") :=
  readPair_plain (by decide : '=' ∉ "exceptional".toList) (by decide)
    (by decide : '%' ∉ "true".toList)

theorem pairs_flags (n : Nat) :
    pairs (flags n) = List.replicate (n + 1) ("exceptional", "true") := by
  rw [pairs, segments_flags, List.filterMap_replicate_of_some]
  rw [readPair_flag]
  rfl

theorem compile_flags (n : Nat) :
    compile (flags n) = .ok ⟨List.replicate (n + 1) (.exceptional true), 0, none⟩ := by
  have hadd (q : Query) : addSegment q "exceptional=true" =
      .ok { q with clauses := q.clauses ++ [.exceptional true] } :=
    addSegment_ok_iff.mpr ⟨_, .clauses [.exceptional true], readPair_flag, rfl, rfl⟩
  have hrun (count : Nat) (q : Query) :
      (List.replicate count "exceptional=true").foldlM addSegment q =
        .ok { q with clauses := q.clauses ++ List.replicate count (.exceptional true) } := by
    induction count generalizing q with
    | zero =>
      rw [List.replicate_zero, List.replicate_zero, List.append_nil]
      rfl
    | succ count ih =>
      rw [List.replicate_succ, List.foldlM_cons, hadd]
      change (List.replicate count "exceptional=true").foldlM addSegment _ = _
      rw [ih, List.append_assoc, List.replicate_succ, List.singleton_append]
  rw [compile, segments_flags, hrun]
  rfl

theorem flags_tooDeep : depthLimit < depthOf (List.replicate (999 + 1) (.exceptional true)) := by
  have hsome : List.replicate (999 + 1) (Clause.exceptional true) ≠ [] := List.cons_ne_nil _ _
  have hlength := length_lt_depthOf hsome
  rwa [List.length_replicate] at hlength

namespace Access

variable {q : Query} {asked : String} {pageSize generated : Nat}

/-- No scan is prepared whose clauses are nested too deeply. -/
theorem scan_tooDeep (h : depthLimit < depthOf q.clauses) (pageSize : Nat) (path : Path)
    (db : Database) {memory : Memory}
    (hkept : memory.prepared.contains (.select q.predicate) = false) :
    ∃ after, scan pageSize q ⟨path, .connected ⟨db, none, memory, .quiet⟩⟩ =
      .error (.storage .scanFailed) after := by
  obtain ⟨c, hprepare⟩ : ∃ c, Steps.prepare (.select q.predicate) (fun db =>
      if depthLimit < depthOf q.clauses then some .tooDeep
      else Steps.needing Steps.entriesName (·.entries) db) ⟨db, none, memory, .quiet⟩ =
        .error (.refused .tooDeep) c := Steps.prepare_refused (if_pos h) hkept
  refine ⟨⟨path, .connected c⟩, ?_⟩
  simp only [scan, onConnection]
  rw [bind_of_error hprepare]

theorem Fails.scan_size {db : Database} {t : EntryTable} (ht : db.entries = some t)
    (hdepth : depthOf q.clauses ≤ depthLimit) (hsize : ¬FitsWord pageSize) :
    Fails (scan pageSize q) db := by
  refine Fails.onConnection _ (Steps.Gives.fails (Steps.Gives.prepare ?_)
    (Steps.Gives.fails (Steps.Gives.bindTexts _)
      (Steps.Fails.bind _ (Steps.Fails.bindInteger hsize))))
  rw [if_neg (Nat.not_lt.mpr hdepth), Steps.needing_eq_none ht]

/-- Where a scan fails, no page is given. -/
theorem retrieve_error (hfiltered : q.isFiltered) {store after : Store} {e : StoreFault}
    (h : scan pageSize q store = .error e after) :
    retrieve pageSize generated q store = .error e after := by
  rw [retrieve, if_pos hfiltered]
  exact bind_of_error h _

theorem ask_error (hcompile : compile asked = .ok q) (hfiltered : q.isFiltered)
    {store after : Store} {e : StoreFault} (h : scan pageSize q store = .error e after) :
    ask pageSize generated asked store = .error e after := by
  rw [ask, hcompile]
  exact map_of_error (retrieve_error hfiltered h) _

end Access

/-! ### Whole walks -/

/-- The walk through the pages of a query text shows each entry in question once, whatever was
saved, updated and deleted before, on as many pages as these entries fill, and ends with an empty
page.  All pages have the same seed and the same total.  A page is asked for with each of the
generated seeds, until one is empty, and no scan may be refused. -/
theorem walk_shows_each_once (path : Path) (tree : FileTree) (steps : List Step) {db : Database}
    (hshows : ((Session.new path tree).run steps).store.Shows db) {t : EntryTable}
    (ht : db.entries = some t) {text : String} {q : Query} (hcompile : compile text = .ok q)
    (hstart : q.offset = 0) {pageSize : Nat} (hsize : 1 ≤ pageSize)
    (hscan : q.isFiltered → q.Scans t pageSize) {seeds : List Nat}
    (hseeds : ∀ seed ∈ seeds, seed < seedBound)
    (hlong : pageCount (t.matching q).length pageSize < seeds.length) :
    ∃ entries full last after, entriesOf (t.matching q) = .ok entries ∧
      (entries.map Entry.id).Nodup ∧
      Access.walk pageSize text seeds text ((Session.new path tree).run steps).store =
        .ok (.ok (full ++ [last])) after ∧
      after.Shows db ∧ Covers pageSize entries full last ∧
      ∃ seed, ∀ page ∈ full ++ [last],
        page.seed = seed ∧ page.total = (t.matching q).length := by
  have hsaves : ∀ step ∈ steps, step.Saves fun _ => True := fun step _ => by
    cases step <;> trivial
  obtain ⟨saved, hholds, -⟩ := Session.holds_of_shows path tree hsaves hshows ht
  obtain _ | ⟨generated, seeds⟩ := seeds
  · simp at hlong
  obtain ⟨order, hparts, hperm⟩ := hholds.exists_parts hscan (q.seed.getD generated)
  have hmatching := hholds.matching q
  have hlength : order.length = (t.matching q).length := by
    rw [hperm.length_eq, hmatching, List.length_map, List.length_map]
  have hfits (offset : Nat) (hoffset : offset ≤ order.length) :
      FitsWord offset ∧ offset ≤ maxOffset := by
    refine hholds.offset_fits (hoffset.trans ?_)
    rw [hlength, hmatching, List.length_map]
    exact List.length_filter_le _ _
  obtain ⟨full, last, hwalk, hcovers, hsame⟩ :=
    hparts.walk ht hcompile hstart hsize (fun h => (hscan h).toFitsScan)
      (hseeds generated (by simp)) hfits (by rw [hlength]; exact Nat.le_of_lt_succ hlong)
  obtain ⟨after, hresult, hafter, -⟩ := hwalk.of_shows hshows
  refine ⟨_, full, last, after, ?_, ?_, hresult, hafter, hcovers.of_perm hperm,
    (q.seed.getD generated : Nat), ?_⟩
  · rw [hmatching, entriesOf_map]
  · rw [List.map_map]
    refine (hholds.ascending.sublist ?_).imp fun hlt => Int.ne_of_lt hlt
    exact List.filter_sublist.map Saved.id
  · rw [← hlength]
    exact hsame

theorem walk_shows_each_once_sample : ∃ entries full last after,
    Access.walk 1 ("tags" ++ "=" ++ "Madness") [7, 8, 9] ("tags" ++ "=" ++ "Madness")
      ((Session.new (.ofText "archive.db") ⟨[], []⟩).run
        [.open_, .insert .sample .first, .insert .sample .first]).store =
      .ok (.ok (full ++ [last])) after ∧
    Covers 1 entries full last ∧ full.length = 2 ∧ entries.map Entry.id = [1, 2] := by
  obtain ⟨hcompile, -⟩ := compile_single (by decide : '=' ∉ "tags".toList) (by decide)
    (by decide : '%' ∉ "Madness".toList ∧ '&' ∉ "Madness".toList)
    (rfl : readArgument ("tags", "Madness") = .ok (.clauses [.holds .tags "Madness"]))
  obtain ⟨db, t, hshows, ht, hrows⟩ : ∃ db t, ((Session.new (.ofText "archive.db") ⟨[], []⟩).run
      [.open_, .insert .sample .first, .insert .sample .first]).store.Shows db ∧
      db.entries = some t ∧
      t.rows = [Saved.row ⟨1, .sample, .first⟩, Saved.row ⟨2, .sample, .first⟩] :=
    ⟨_, _, ⟨_, rfl⟩, rfl, rfl⟩
  have hsatisfies : ∀ row ∈ t.rows, row.satisfies [.holds .tags "Madness"] = .ok true := by
    rw [hrows, List.forall_mem_cons, List.forall_mem_singleton]
    exact ⟨rfl, rfl⟩
  have hshort : ¬Query.Overreaches ⟨[.holds .tags "Madness"], 0, none⟩ t := by
    rintro ⟨-, row, hrow, htoolong⟩
    exact absurd ((hsatisfies row hrow).symm.trans htoolong) nofun
  have hmatching : t.matching ⟨[.holds .tags "Madness"], 0, none⟩ = t.rows :=
    List.filter_eq_self.mpr fun row hrow => Row.matches_of_satisfies (hsatisfies row hrow)
  have hscan : Query.Scans ⟨[.holds .tags "Madness"], 0, none⟩ t 1 :=
    ⟨⟨by decide, by decide, by decide⟩, hshort⟩
  have hseeds : ∀ seed ∈ [7, 8, 9], seed < seedBound := by decide
  have hlong : pageCount (t.matching ⟨[.holds .tags "Madness"], 0, none⟩).length 1 <
      [7, 8, 9].length := by
    rw [hmatching, hrows]
    decide
  obtain ⟨entries, full, last, after, hentries, -, hwalk, -, hcovers, -⟩ :=
    walk_shows_each_once _ _ _ hshows ht hcompile rfl (Nat.le_refl 1) (fun _ => hscan) hseeds hlong
  have hids : entries.map Entry.id = [1, 2] := by
    change entriesOf (t.matching ⟨[.holds .tags "Madness"], 0, none⟩) = _ at hentries
    rw [hmatching, hrows] at hentries
    have hread := hentries.symm.trans (entriesOf_map [⟨1, .sample, .first⟩, ⟨2, .sample, .first⟩])
    rw [Except.ok.inj hread]
    rfl
  refine ⟨entries, full, last, after, hwalk, hcovers, ?_, hids⟩
  have hlength := congrArg List.length hids
  rw [List.length_map] at hlength
  rw [hcovers.count, hlength]
  rfl

/-- No page at all is given where the clauses of a query are nested too deeply, where its pattern is
too long to be searched for, or where no column can hold the page size. -/
theorem walk_refused_beyond_limits :
    (∃ q e after, compile (flags 999) = .ok q ∧ q.offset = 0 ∧
      Access.ask 10 0 (flags 999)
        ((Session.new (.ofText "archive.db") ⟨[], []⟩).run [.open_]).store = .error e after) ∧
    (∃ q e after, compile ("title" ++ "=" ++ titleOf 50001) = .ok q ∧ q.offset = 0 ∧
      Access.ask 10 0 ("title" ++ "=" ++ titleOf 50001)
        ((Session.new (.ofText "archive.db") ⟨[], []⟩).run
          [.open_, .insert .sample .first]).store = .error e after) ∧
    ∃ q e after, compile (flags 0) = .ok q ∧ q.offset = 0 ∧
      Access.ask (2 ^ 63) 0 (flags 0)
        ((Session.new (.ofText "archive.db") ⟨[], []⟩).run [.open_]).store = .error e after := by
  obtain ⟨db, hstore, ht⟩ : ∃ db : Database,
      ((Session.new (.ofText "archive.db") ⟨[], []⟩).run [.open_]).store =
        ⟨.ofText "archive.db", .connected ⟨db, none, .blank, .quiet⟩⟩ ∧ db.entries = some .empty :=
    ⟨_, rfl, rfl⟩
  refine ⟨?_, ?_, ?_⟩
  · obtain ⟨after, hscan⟩ := Access.scan_tooDeep (q := ⟨_, 0, none⟩) flags_tooDeep 10
      (.ofText "archive.db") db (rfl : Memory.blank.prepared.contains _ = false)
    rw [hstore]
    exact ⟨_, _, after, compile_flags 999, rfl, Access.ask_error (compile_flags 999) rfl hscan⟩
  · obtain ⟨hcompile, -⟩ := compile_title (not_mem_titleOf (by decide) 50001)
      (not_mem_titleOf (by decide) 50001)
    obtain ⟨db, t, row, hshows, ht, hrows⟩ : ∃ db t row,
        ((Session.new (.ofText "archive.db") ⟨[], []⟩).run
          [.open_, .insert .sample .first]).store.Shows db ∧ db.entries = some t ∧ t.rows = [row] :=
      ⟨_, _, _, ⟨_, rfl⟩, rfl, rfl⟩
    have hscan := Access.Gives.scan (q := ⟨[.contains .title (titleOf 50001)], 0, none⟩) ht
      ⟨(by decide : 2 ≤ depthLimit), (by decide : FitsWord (10 : Nat)), by decide⟩
    have hselect : t.select ⟨[.contains .title (titleOf 50001)], 0, none⟩ =
        .error .patternTooLong :=
      EntryTable.select_eq_error (overreaches_titleOf (by omega) row (by simp [hrows]))
    rw [hselect] at hscan
    obtain ⟨after, hresult, -⟩ := hscan.of_shows hshows
    exact ⟨_, _, after, hcompile, rfl, Access.ask_error hcompile rfl hresult⟩
  · obtain ⟨e, memory, hscan⟩ := Access.Fails.scan_size (q := ⟨[.exceptional true], 0, none⟩) ht
      (by decide) (by decide : ¬FitsWord (2 ^ 63 : Nat)) (.ofText "archive.db") .blank
    rw [hstore]
    exact ⟨_, e, _, compile_flags 0, rfl, Access.ask_error (compile_flags 0) rfl hscan⟩

end Catalogue
