import Catalogue.Log.Logger
import Catalogue.Proofs.File.Growth

/-! The handlers of a logger, over any sequence of calls that configure it.  A call finds its
handler by the text of a path, so a log file has one handler exactly where each call but the first
one for it is known by its text; and each handler writes a record once. -/

namespace Catalogue.Log

open FileTree Number WorkingDir

/-- The place of the log file of a working directory, seen from `here`. -/
def logPlace (here : List String) (dir : Path) : List String := (logFile dir).place here

/-- The handlers of a logger on the file at a place. -/
def Logger.handlersOn (l : Logger) (here place : List String) : Nat :=
  l.files.countP fun file => decide (file.place here = place)

/-- The bytes that a handler writes for a record; none where the record has no line. -/
def Record.bytes (r : Record) (time : Binary64) : List UInt8 :=
  ((r.line time).toOption.bind fun line => (line ++ "\n").encode.toOption).getD []

/-- A new logger that was configured for each of `dirs`, the last one first.  Calls that failed may
lie between them; such a call may leave another level. -/
inductive Configured (name : String) (start : FileTree) : List Path → Logger → FileTree → Prop where
  | fresh : Configured name start [] (.fresh name) start
  | done {dirs : List Path} {l l' : Logger} {tree after : FileTree} {dir : Path} {level : Json} :
      Configured name start dirs l tree → l.configure dir level tree = .ok l' after →
      Configured name start (dir :: dirs) l' after
  | failed {dirs : List Path} {l : Logger} {tree after : FileTree} {dir : Path} {level : Json}
      {e : LoggerFault} (left : Level) :
      Configured name start dirs l tree → l.configure dir level tree = .error e after →
      Configured name start dirs { l with level := left } after

/-- A call is known from earlier ones: it names the log file from the root and without `..`, as the
handler of one of them has it. -/
def Known (here : List String) (earlier : List Path) (dir : Path) : Prop :=
  dir.IsPlain ∧ ∃ d ∈ earlier, logPlace here d = logPlace here dir ∧
    (dir.root = .doubleSlash ↔ d.root = .doubleSlash)

/-! ### One call -/

section Call

variable {l l' : Logger} {dir file : Path} {level : Json} {tree after : FileTree}

theorem onDisk_ok {α : Type} {operation : Disk α} {a : α}
    (h : Logger.onDisk operation tree = .ok a after) : operation tree = .ok a after := by
  unfold Logger.onDisk at h
  split at h
  · next hop =>
    cases h
    exact hop
  · cases h

theorem onDisk_error {α : Type} {operation : Disk α} {e : LoggerFault}
    (h : Logger.onDisk operation tree = .error e after) :
    ∃ e', operation tree = .error e' after := by
  unfold Logger.onDisk at h
  split at h
  · cases h
  · next hop =>
    cases h
    exact ⟨_, hop⟩

theorem addFile_eq (l : Logger) (file : Path) (tree : FileTree) :
    l.addFile file tree = if l.files.any (·.text == file.text) then .ok l tree
      else match Disk.append (file.normalise tree.here) [] tree with
        | .ok _ after => .ok { l with files := l.files ++ [file.normalise tree.here] } after
        | .error e after => .error e after := by
  unfold Logger.addFile
  split
  · rfl
  · change EStateM.bind (Disk.append (file.normalise tree.here) []) _ tree = _
    rw [EStateM.bind]
    cases Disk.append (file.normalise tree.here) [] tree <;> rfl

/-- A log file has a handler already, or it is given one. -/
theorem addFile_ok (h : l.addFile file tree = .ok l' after) :
    tree.Grows after ∧
      ((∃ known ∈ l.files, known.text = file.text) ∧ l'.files = l.files ∨
        (¬∃ known ∈ l.files, known.text = file.text) ∧
          l'.files = l.files ++ [file.normalise tree.here] ∧
          after.Opened (file.normalise tree.here)) := by
  have hknown : l.files.any (·.text == file.text) = true ↔
      ∃ known ∈ l.files, known.text = file.text := by
    simp only [List.any_eq_true, beq_iff_eq]
  rw [addFile_eq] at h
  split at h
  · next hany =>
    cases h
    exact ⟨.refl tree, .inl ⟨hknown.mp hany, rfl⟩⟩
  · next hany =>
    split at h
    · next happend =>
      cases h
      obtain ⟨hgrows, hopened⟩ := Disk.opened_of_append (file.isPlain_normalise tree.here) happend
      exact ⟨hgrows, .inr ⟨mt hknown.mpr hany, rfl, hopened⟩⟩
    · cases h

theorem addFile_error {e : PathFault} (h : l.addFile file tree = .error e after) :
    after = tree := by
  rw [addFile_eq] at h
  split at h
  · cases h
  · split at h
    · cases h
    · next happend =>
      cases h
      exact Disk.eq_of_failed_append happend

/-- A call that succeeds leaves a handler on the log file, an old one or a new one. -/
theorem configure_ok (h : l.configure dir level tree = .ok l' after) :
    tree.Grows after ∧
      ((∃ known ∈ l.files, known.text = (logFile dir).text) ∧ l'.files = l.files ∨
        (¬∃ known ∈ l.files, known.text = (logFile dir).text) ∧
          l'.files = l.files ++ [(logFile dir).normalise tree.here] ∧
          after.Opened ((logFile dir).normalise tree.here)) := by
  obtain ⟨_, made, hmade, h⟩ := exists_of_bind_ok h
  have hgrown := grows_of_spares (Disk.spares_makeDirectories (onDisk_ok hmade))
  cases hlevel : readLevel level with
  | error e =>
    rw [hlevel] at h
    cases h
  | ok chosen =>
    rw [hlevel] at h
    obtain ⟨added, _, hadded, h⟩ := exists_of_bind_ok h
    cases h
    obtain ⟨hgrows, hfiles⟩ := addFile_ok (onDisk_ok hadded)
    rw [hgrown.keeps.here] at hfiles
    exact ⟨hgrown.trans hgrows, hfiles⟩

theorem configure_error {e : LoggerFault} (h : l.configure dir level tree = .error e after) :
    tree.Grows after := by
  rcases cases_of_bind_error h with hfailed | ⟨_, made, hmade, h⟩
  · obtain ⟨e', hfailed⟩ := onDisk_error hfailed
    exact grows_of_spares (Disk.spares_of_failed_makeDirectories hfailed)
  · have hgrown := grows_of_spares (Disk.spares_makeDirectories (onDisk_ok hmade))
    cases hlevel : readLevel level with
    | error e =>
      rw [hlevel] at h
      cases h
      exact hgrown
    | ok chosen =>
      rw [hlevel] at h
      rcases cases_of_bind_error h with hfailed | ⟨_, _, -, h⟩
      · obtain ⟨e', hfailed⟩ := onDisk_error hfailed
        exact addFile_error hfailed ▸ hgrown
      · cases h

end Call

/-! ### A sequence of calls -/

/-- The handlers of a logger after calls for `dirs`: each is on the file of a call, written without
`..`, each call has one, and their files are open. -/
structure Tracks (here : List String) (dirs : List Path) (l : Logger) (tree : FileTree) : Prop where
  here_eq : tree.here = here
  opened : ∀ file ∈ l.files, tree.Opened file
  handled : ∀ file, file ∈ l.files ↔ ∃ dir ∈ dirs, file = (logFile dir).normalise here

section Calls

variable {here : List String} {dirs : List Path} {l : Logger} {dir : Path}
  {tree start : FileTree} {name : String} {place : List String}

theorem fresh_files (name : String) : (Logger.fresh name).files = [] := by
  unfold Logger.fresh
  split <;> rfl

theorem logFile_wellFormed (h : dir.WellFormed) : (logFile dir).WellFormed :=
  (h.child (by decide)).child (by decide)

theorem logFile_isPlain : (logFile dir).IsPlain ↔ dir.IsPlain := by
  simp [Path.IsPlain, logFile, logsDir, Path.child]

theorem logFile_place_normalise (here : List String) (dir : Path) :
    ((logFile dir).normalise here).place here = logPlace here dir :=
  ((logFile dir).isPlain_normalise here).place_eq here

/-- A call finds a handler exactly where it is known from the calls before it. -/
theorem Tracks.known_iff (h : Tracks here dirs l tree) (hhere : ∀ n ∈ here, Path.IsName n)
    (hdirs : ∀ d ∈ dirs, d.WellFormed) (hdir : dir.WellFormed) :
    (∃ known ∈ l.files, known.text = (logFile dir).text) ↔ Known here dirs dir := by
  have hsame {d : Path} (hd : d.WellFormed) :
      ((logFile d).normalise here).text = (logFile dir).text ↔
        dir.IsPlain ∧ logPlace here dir = logPlace here d ∧
          (dir.root = .doubleSlash ↔ d.root = .doubleSlash) := by
    rw [Path.text_inj (Path.wellFormed_normalise hhere (logFile_wellFormed hd))
      (logFile_wellFormed hdir), eq_comm, Path.eq_normalise_iff, logFile_isPlain]
    rfl
  constructor
  · rintro ⟨known, hknown, htext⟩
    obtain ⟨d, hd, rfl⟩ := (h.handled known).mp hknown
    obtain ⟨hplain, hplace, hroot⟩ := (hsame (hdirs d hd)).mp htext
    exact ⟨hplain, d, hd, hplace.symm, hroot⟩
  · rintro ⟨hplain, d, hd, hplace, hroot⟩
    exact ⟨_, (h.handled _).mpr ⟨d, hd, rfl⟩, (hsame (hdirs d hd)).mpr ⟨hplain, hplace.symm, hroot⟩⟩

theorem normalise_of_known (h : Known here dirs dir) :
    ∃ d ∈ dirs, (logFile dir).normalise here = (logFile d).normalise here := by
  obtain ⟨hplain, d, hd, hplace, hroot⟩ := h
  refine ⟨d, hd, Path.eq_normalise_iff.mpr ⟨(logFile dir).isPlain_normalise here, ?_, ?_⟩⟩
  · exact (logFile_place_normalise here dir).trans hplace.symm
  · have hself : logFile dir = (logFile dir).normalise here :=
      Path.eq_normalise_iff.mpr ⟨logFile_isPlain.mpr hplain, rfl, Iff.rfl⟩
    rw [← hself]
    exact hroot

theorem Configured.tracks (hhere : ∀ n ∈ start.here, Path.IsName n)
    (h : Configured name start dirs l tree) (hdirs : ∀ dir ∈ dirs, dir.WellFormed) :
    Tracks start.here dirs l tree := by
  induction h with
  | fresh => exact ⟨rfl, by simp [fresh_files], by simp [fresh_files]⟩
  | @done dirs l l' tree after dir level _ hcall ih =>
    obtain ⟨hdir, hearlier⟩ := List.forall_mem_cons.mp hdirs
    have htracks := ih hearlier
    obtain ⟨hgrows, hfiles⟩ := configure_ok hcall
    refine ⟨hgrows.keeps.here.trans htracks.here_eq, ?_, ?_⟩
    · intro file hfile
      rcases hfiles with ⟨-, hfiles⟩ | ⟨-, hfiles, hnew⟩
      · rw [hfiles] at hfile
        exact (htracks.opened file hfile).mono hgrows
      · rw [hfiles, List.mem_append, List.mem_singleton] at hfile
        rcases hfile with hfile | rfl
        · exact (htracks.opened file hfile).mono hgrows
        · exact hnew
    · intro file
      rw [List.exists_mem_cons_iff, ← htracks.handled]
      rcases hfiles with ⟨hknown, hfiles⟩ | ⟨-, hfiles, -⟩
      · obtain ⟨d, hd, hsame⟩ := normalise_of_known
          ((htracks.known_iff hhere hearlier hdir).mp hknown)
        rw [hfiles, hsame]
        refine ⟨.inr, fun hfile => hfile.elim (fun he => ?_) id⟩
        exact (htracks.handled file).mpr ⟨d, hd, he⟩
      · rw [hfiles, List.mem_append, List.mem_singleton, htracks.here_eq, or_comm]
  | failed left _ hcall ih =>
    have htracks := ih hdirs
    have hgrows := configure_error hcall
    exact ⟨hgrows.keeps.here.trans htracks.here_eq,
      fun file hfile => (htracks.opened file hfile).mono hgrows, htracks.handled⟩

theorem Tracks.handlersOn_pos_iff (h : Tracks here dirs l tree) :
    0 < l.handlersOn here place ↔ ∃ dir ∈ dirs, logPlace here dir = place := by
  rw [Logger.handlersOn, List.countP_pos_iff]
  constructor
  · rintro ⟨file, hfile, hplace⟩
    obtain ⟨dir, hdir, rfl⟩ := (h.handled file).mp hfile
    exact ⟨dir, hdir, (logFile_place_normalise here dir).symm.trans (of_decide_eq_true hplace)⟩
  · rintro ⟨dir, hdir, hplace⟩
    exact ⟨_, (h.handled _).mpr ⟨dir, hdir, rfl⟩,
      decide_eq_true ((logFile_place_normalise here dir).trans hplace)⟩

/-- Each call for a place but the first one is known from the calls before it. -/
def AllKnown (here place : List String) (dirs : List Path) : Prop :=
  ∀ dir earlier, dir :: earlier <:+ dirs → logPlace here dir = place →
    (∃ d ∈ earlier, logPlace here d = place) → Known here earlier dir

theorem allKnown_cons : AllKnown here place (dir :: dirs) ↔
    (logPlace here dir = place → (∃ d ∈ dirs, logPlace here d = place) → Known here dirs dir) ∧
      AllKnown here place dirs := by
  constructor
  · intro h
    exact ⟨h dir dirs List.suffix_rfl,
      fun d earlier hsuffix => h d earlier (hsuffix.trans (List.suffix_cons dir dirs))⟩
  · rintro ⟨hdir, hdirs⟩ d earlier hsuffix
    rcases List.suffix_cons_iff.mp hsuffix with heq | hsuffix
    · obtain ⟨rfl, rfl⟩ := List.cons.inj heq
      exact hdir
    · exact hdirs d earlier hsuffix

theorem Configured.handlersOn_le_one_iff (hhere : ∀ n ∈ start.here, Path.IsName n)
    (h : Configured name start dirs l tree) (hdirs : ∀ dir ∈ dirs, dir.WellFormed) :
    l.handlersOn start.here place ≤ 1 ↔ AllKnown start.here place dirs := by
  induction h with
  | fresh => simp [Logger.handlersOn, fresh_files, AllKnown]
  | @done dirs l l' tree after dir level hbefore hcall ih =>
    obtain ⟨hdir, hearlier⟩ := List.forall_mem_cons.mp hdirs
    have htracks := hbefore.tracks hhere hearlier
    obtain ⟨-, hfiles⟩ := configure_ok hcall
    rw [htracks.known_iff hhere hearlier hdir, htracks.here_eq] at hfiles
    rw [allKnown_cons, ← ih hearlier]
    rcases hfiles with ⟨hknown, hfiles⟩ | ⟨hnew, hfiles, -⟩
    · rw [Logger.handlersOn, hfiles]
      exact ⟨fun hone => ⟨fun _ _ => hknown, hone⟩, And.right⟩
    · -- The call adds a handler, which is the only one where no earlier call was for the place.
      have hcount : l'.handlersOn start.here place = l.handlersOn start.here place +
          if logPlace start.here dir = place then 1 else 0 := by
        simp only [Logger.handlersOn, hfiles, List.countP_append, List.countP_singleton,
          logFile_place_normalise, decide_eq_true_eq]
      rw [hcount, ← htracks.handlersOn_pos_iff]
      by_cases hplace : logPlace start.here dir = place
      · rw [if_pos hplace, iff_false_intro hnew, forall_prop_of_true hplace, imp_false]
        omega
      · rw [if_neg hplace, forall_prop_of_false hplace, true_and, Nat.add_zero]
  | failed left _ _ ih => exact ih hdirs

end Calls

/-! ### Records -/

section Records

variable {here : List String} {dirs : List Path} {l : Logger} {tree : FileTree}
  {level : Level} {template : Json} {arguments : List Json} {extras : Members} {r : Record}

/-- A record that a logger takes is written by each handler once. -/
theorem Tracks.log_eq (h : Tracks here dirs l tree) (time : Binary64)
    (htakes : l.takes level = true) (hrecord : l.record level template arguments extras = .ok r) :
    ∃ after, l.log time level template arguments extras tree = .ok () after ∧ ∀ place,
      after.bytesAt place = tree.bytesAt place ++
        (List.replicate (l.handlersOn here place) (r.bytes time)).flatten ∧
      (l.handlersOn here place = 0 → after.node? place = tree.node? place) := by
  have hlog : l.log time level template arguments extras tree =
      Logger.onDisk (l.emit time r) tree := by
    simp only [Logger.log, htakes, hrecord]
    rfl
  have hnames : ∀ file ∈ l.files, file.place here = file.names := fun file hfile =>
    (h.opened file hfile).plain.place_eq here
  cases hbytes : (r.line time).toOption.bind fun line => (line ++ "\n").encode.toOption with
  | none =>
    refine ⟨tree, ?_, fun place => ⟨?_, fun _ => rfl⟩⟩
    · rw [hlog, Logger.onDisk, Logger.emit, hbytes]
      rfl
    · rw [Record.bytes, hbytes]
      simp
  | some bytes =>
    obtain ⟨after, hafter, hplaces⟩ := Disk.forM_append h.opened bytes
    refine ⟨after, ?_, fun place => ?_⟩
    · rw [hlog, Logger.onDisk, Logger.emit, hbytes]
      dsimp only
      rw [hafter]
    · obtain ⟨hwritten, hother⟩ := hplaces place
      have hcount : l.handlersOn here place =
          l.files.countP fun file => decide (file.names = place) :=
        List.countP_congr fun file hfile => by rw [hnames file hfile]
      rw [Record.bytes, hbytes, hcount]
      refine ⟨hwritten, fun hzero => hother fun file hfile => ?_⟩
      have := List.countP_eq_zero.mp hzero file hfile
      simpa using this

end Records

/-- However a new logger was configured: a log file has a handler exactly where one of the calls was
for it, and one handler only exactly where each call for it but the first one is known from the
calls before it; and every record that the logger takes is written to a file by each of its
handlers, and nowhere else. -/
theorem handlers_by_calls {name : String} {start tree : FileTree} {dirs : List Path} {l : Logger}
    (hhere : ∀ n ∈ start.here, Path.IsName n) (hdirs : ∀ dir ∈ dirs, dir.WellFormed)
    (h : Configured name start dirs l tree) :
    (∀ place, 0 < l.handlersOn start.here place ↔
      ∃ dir ∈ dirs, logPlace start.here dir = place) ∧
    (∀ place, l.handlersOn start.here place ≤ 1 ↔ AllKnown start.here place dirs) ∧
    ∀ time level template arguments extras r, l.takes level = true →
      l.record level template arguments extras = .ok r →
      ∃ after, l.log time level template arguments extras tree = .ok () after ∧ ∀ place,
        after.bytesAt place = tree.bytesAt place ++
          (List.replicate (l.handlersOn start.here place) (r.bytes time)).flatten ∧
        (l.handlersOn start.here place = 0 → after.node? place = tree.node? place) :=
  have htracks := h.tracks hhere hdirs
  ⟨fun _ => htracks.handlersOn_pos_iff, fun _ => h.handlersOn_le_one_iff hhere hdirs,
    fun time _ _ _ _ _ htakes hrecord => htracks.log_eq time htakes hrecord⟩

/-- Two calls with one path from the root leave one handler. -/
theorem handlers_by_calls_again : ∃ l tree,
    Configured "archive" ⟨[], []⟩ [⟨.slash, ["work"]⟩, ⟨.slash, ["work"]⟩] l tree ∧
      0 < l.handlersOn [] ["work", "logs", "archive.log.jsonl"] ∧
      l.handlersOn [] ["work", "logs", "archive.log.jsonl"] ≤ 1 := by
  have hfirst : (Logger.fresh "archive").configure ⟨.slash, ["work"]⟩ (.int 20) ⟨[], []⟩ =
      .ok _ _ := rfl
  have h := Configured.done (.done .fresh hfirst)
    (show Logger.configure _ ⟨.slash, ["work"]⟩ (.int 20) _ = .ok _ _ from rfl)
  obtain ⟨hany, hone, -⟩ := handlers_by_calls (by decide) (by decide) h
  refine ⟨_, _, h, (hany _).mpr ⟨_, List.mem_cons_self, rfl⟩, (hone _).mpr ?_⟩
  rw [allKnown_cons, allKnown_cons]
  refine ⟨fun _ _ => ⟨⟨by decide, by decide⟩, _, List.mem_cons_self, rfl, Iff.rfl⟩, ?_, ?_⟩
  · rintro - ⟨_, hd, -⟩
    cases hd
  · intro dir earlier hsuffix
    cases List.suffix_nil.mp hsuffix

/-- Two paths of one directory, one of them with `..`, leave two handlers on its log file. -/
theorem handlers_repeated : ∃ l tree,
    Configured "archive" ⟨[], []⟩ [⟨.slash, ["work", "..", "work"]⟩, ⟨.slash, ["work"]⟩] l tree ∧
      l.handlersOn [] ["work", "logs", "archive.log.jsonl"] = 2 := by
  have hfirst : (Logger.fresh "archive").configure ⟨.slash, ["work"]⟩ (.int 20) ⟨[], []⟩ =
      .ok _ _ := rfl
  have h := Configured.done (.done .fresh hfirst)
    (show Logger.configure _ ⟨.slash, ["work", "..", "work"]⟩ (.int 20) _ = .ok _ _ from rfl)
  exact ⟨_, _, h, rfl⟩

end Catalogue.Log
