import Catalogue.Proofs.Settings.File

/-! Settings from files that hold anything.  A load passes over the candidates that are missing or
are no JSON, takes the first one that is a JSON object, and reports the unknown keys.  It stops at a
candidate that is no UTF-8, holds a number with too many digits or is nested too deep, at an
infinite version, and at an unknown key without a UTF-8 form that goes into a report. -/

namespace Catalogue.Settings

open Number Text Json FileTree

/-! ### Candidates -/

/-- What is found in a file: nothing where it is missing or damaged, an object, or what stops the
search. -/
def held (limit : Nat) (tree : FileTree) (file : Path) : Except Fault (Option Members) :=
  match Disk.read file tree with
  | .ok bytes _ => readObject? limit bytes
  | .error _ _ => .ok none

/-- The first of some files in which anything is found. -/
def IsFound (limit : Nat) (tree : FileTree) (files : List Path)
    (found : Except Fault (Option Members)) : Prop :=
  ∃ before file after, files = before ++ file :: after ∧
    (∀ other ∈ before, held limit tree other = .ok none) ∧ held limit tree file = found

/-- The object in the first file that holds one, and an empty one where nothing is found. -/
def IsGiven (limit : Nat) (tree : FileTree) (files : List Path) (given : Members) : Prop :=
  IsFound limit tree files (.ok (some given)) ∨
    (∀ file ∈ files, held limit tree file = .ok none) ∧ given = []

section Candidates

variable {limit : Nat} {tree after : FileTree} {file : Path} {files : List Path}
  {found : Except Fault (Option Members)} {given : Members} {e : Fault}

theorem isFound_cons : IsFound limit tree (file :: files) found ↔
    held limit tree file = found ∨
      held limit tree file = .ok none ∧ IsFound limit tree files found := by
  constructor
  · rintro ⟨before, first, after, hfiles, hbefore, hfirst⟩
    cases before with
    | nil =>
      obtain ⟨rfl, rfl⟩ := List.cons.inj hfiles
      exact .inl hfirst
    | cons other before =>
      obtain ⟨rfl, rfl⟩ := List.cons.inj hfiles
      have hothers : ∀ other ∈ before, held limit tree other = .ok none :=
        fun other hother => hbefore other (List.mem_cons_of_mem _ hother)
      exact .inr ⟨hbefore file (List.mem_cons_self ..), before, first, after, rfl, hothers, hfirst⟩
  · rintro (hfirst | ⟨hskipped, before, first, after, rfl, hbefore, hfirst⟩)
    · exact ⟨[], file, files, rfl, by simp, hfirst⟩
    · refine ⟨file :: before, first, after, rfl, ?_, hfirst⟩
      simpa using ⟨hskipped, hbefore⟩

theorem not_isFound_nil : ¬IsFound limit tree [] found := by
  rintro ⟨before, first, after, hfiles, -⟩
  simp at hfiles

theorem isGiven_cons : IsGiven limit tree (file :: files) given ↔
    held limit tree file = .ok (some given) ∨
      held limit tree file = .ok none ∧ IsGiven limit tree files given := by
  rw [IsGiven, IsGiven, isFound_cons, List.forall_mem_cons]
  constructor
  · rintro ((hfirst | ⟨hskipped, hfound⟩) | ⟨⟨hskipped, hothers⟩, rfl⟩)
    · exact .inl hfirst
    · exact .inr ⟨hskipped, .inl hfound⟩
    · exact .inr ⟨hskipped, .inr ⟨hothers, rfl⟩⟩
  · rintro (hfirst | ⟨hskipped, hfound | ⟨hothers, rfl⟩⟩)
    · exact .inl (.inl hfirst)
    · exact .inl (.inr ⟨hskipped, hfound⟩)
    · exact .inr ⟨⟨hskipped, hothers⟩, rfl⟩

/-- The search looks at one file after the other. -/
theorem readFirst_cons (file : Path) (files : List Path) (tree : FileTree) :
    readFirst limit (file :: files) tree = match held limit tree file with
      | .error e => .error e tree
      | .ok (some given) => .ok given tree
      | .ok none => readFirst limit files tree := by
  have hread : onDisk (Disk.attempt (Disk.read file)) tree =
      .ok (match Disk.read file tree with
        | .ok bytes _ => some bytes
        | .error _ _ => none) tree := by
    rw [onDisk_eq_ok, Disk.attempt, Disk.read_eq]
    cases tree.find file with
    | error obstacle => rfl
    | ok node => cases node <;> rfl
  rw [readFirst, bind_of_ok hread, held]
  cases hbytes : Disk.read file tree with
  | error e' other => rfl
  | ok bytes other =>
    dsimp only
    cases hobject : readObject? limit bytes with
    | error e' => rfl
    | ok object? => cases object? <;> rfl

theorem readFirst_eq_ok_iff :
    readFirst limit files tree = .ok given after ↔
      IsGiven limit tree files given ∧ after = tree := by
  induction files with
  | nil =>
    have hnil : readFirst limit [] tree = .ok [] tree := rfl
    rw [hnil]
    simp [IsGiven, not_isFound_nil, eq_comm]
  | cons file files ih =>
    rw [readFirst_cons, isGiven_cons]
    cases hheld : held limit tree file with
    | error e => simp
    | ok object? =>
      cases object? with
      | none => simp [ih]
      | some object => simp [eq_comm]

theorem readFirst_eq_error_iff :
    readFirst limit files tree = .error e after ↔
      IsFound limit tree files (.error e) ∧ after = tree := by
  induction files with
  | nil =>
    have hnil : readFirst limit [] tree = .ok [] tree := rfl
    rw [hnil]
    simp [not_isFound_nil]
  | cons file files ih =>
    rw [readFirst_cons, isFound_cons]
    cases hheld : held limit tree file with
    | error e => simp [eq_comm]
    | ok object? =>
      cases object? with
      | none => simp [ih]
      | some object => simp

end Candidates

/-! ### Versions -/

/-- An infinite version is no number of a version. -/
theorem normalise_of_infinite {given : Members} (h : ¬HasFiniteVersion given) (dir : String) :
    normalise given dir = .error .infinite := by
  obtain ⟨x, hget, hx⟩ : ∃ x, given.get? "version" = some (.real x) ∧ x.isInfinite = true := by
    simpa [HasFiniteVersion] using h
  have hversion : version ((adoptPath (merge given)).erase "database_path") = .error .infinite := by
    have hinteger : (Json.real x).toInteger = .error .infinite :=
      toInteger_eq_infinite_iff.mpr ⟨x, rfl, hx⟩
    rw [version, get?_version, hget]
    simp only [Option.getD_some, hinteger]
  rw [normalise, migrate, hversion]
  rfl

/-! ### Reports -/

/-- A report of the unknown keys is made, if there are any: all of them have UTF-8 forms, or the
file of the report cannot be written, which is no failure. -/
def IsReported (made : FileTree) (dir : Path) (settings : Members) : Prop :=
  (∀ key ∈ unknownKeys schema settings, ∃ s, key = .sound s) ∨
    ∀ place, made.writable? (reportFile dir) ≠ .ok place

theorem areSound_texts {layout : Nat → Layout} {depth : Nat} {between lead : String}
    {texts : List LooseText} :
    AreSound (itemPieces layout depth between lead (texts.map .string)) ↔
      ∀ w ∈ texts, ∃ s, w = .sound s := by
  induction texts generalizing lead with
  | nil => simp [itemPieces, AreSound]
  | cons w texts ih =>
    have hpiece : (∃ s, (textLiteral w).prepend lead = .sound s) ↔ ∃ s, w = .sound s := by
      constructor
      · rintro ⟨s, hs⟩
        obtain ⟨t, ht⟩ := sound_of_prepend hs
        exact sound_of_textLiteral ht
      · rintro ⟨s, rfl⟩
        exact ⟨_, rfl⟩
    have hitem : behindLead lead (.string w) (piecesAt layout depth (.string w)) =
        [(textLiteral w).prepend lead] := by
      rw [piecesAt]
      rfl
    rw [List.map_cons, itemPieces, hitem, List.singleton_append, areSound_cons, hpiece, ih,
      List.forall_mem_cons]

/-- A report has a UTF-8 form where the keys in it have one. -/
theorem areSound_report (clock : Binary64) {unknown : List LooseText} :
    AreSound (linePieces (.object
        [("ts", .real clock), ("unknown", .list (unknown.map .string))])) ↔
      ∀ key ∈ unknown, ∃ s, key = .sound s := by
  have hlist {place : Nat} : AreSound (piecesAt .indented place (.list (unknown.map .string))) ↔
      ∀ key ∈ unknown, ∃ s, key = .sound s := by
    cases unknown with
    | nil => simp [piecesAt, AreSound]
    | cons w unknown =>
      rw [List.map_cons, piecesAt, areSound_append, ← List.map_cons, areSound_texts]
      simp [AreSound]
  have hsound (s : String) : ∃ t, textLiteral s = .sound t := ⟨_, rfl⟩
  have hreal {place : Nat} : AreSound (piecesAt .indented place (.real clock)) := by
    simp [piecesAt, AreSound]
  have hnil : AreSound [] := by simp [AreSound]
  rw [linePieces, piecesAt, areSound_append, memberPieces, memberPieces, memberPieces]
  simp only [areSound_append, areSound_cons, List.cons_append, hlist, hreal, hsound, hnil,
    LooseText.sound.injEq, exists_eq', true_and, and_true]

section Loading

variable {env : Environment} {dir : Path} {tree made : FileTree} {settings : Members}

/-- Where a failure to write is none, writing fails at a piece without a UTF-8 form alone, and at
that only where the file can be written. -/
theorem writeValue_cases (file : Path) (value : Json) (tree : FileTree) :
    ((AreSound value.linePieces ∨ ∀ place, tree.writable? file ≠ .ok place) ∧
      ∃ after, writeValue false file value tree = .ok () after) ∨
    (¬(AreSound value.linePieces ∨ ∀ place, tree.writable? file ≠ .ok place) ∧
      ∃ e after, writeValue false file value tree = .error (.unencodable e) after) := by
  have hwrite := Disk.write_eq file (encodePieces value.linePieces).1 tree
  unfold writeValue
  dsimp only
  rw [if_neg Bool.false_ne_true]
  cases hwritable : tree.writable? file with
  | error obstacle =>
    rw [hwritable] at hwrite
    have hattempt : onDisk (Disk.attempt (Disk.write file (encodePieces value.linePieces).1)) tree =
        .ok none tree := by
      rw [onDisk_eq_ok, Disk.attempt, hwrite]
    refine .inl ⟨.inr (by simp), tree, ?_⟩
    rw [bind_of_ok hattempt]
    rfl
  | ok place =>
    rw [hwritable] at hwrite
    have hattempt : onDisk (Disk.attempt (Disk.write file (encodePieces value.linePieces).1)) tree =
        .ok (some ()) (tree.put place (.file (encodePieces value.linePieces).1)) := by
      rw [onDisk_eq_ok, Disk.attempt, hwrite]
    rw [bind_of_ok hattempt]
    cases hencode : (encodePieces value.linePieces).2 with
    | none => exact .inl ⟨.inl (areSound_of_encodePieces hencode), _, rfl⟩
    | some e =>
      refine .inr ⟨?_, e, _, rfl⟩
      rintro (hsound | hrefused)
      · rw [encodePieces_of_sound hsound] at hencode
        cases hencode
      · exact hrefused place rfl

/-- Where the directory of the logs can be made, the unknown keys are reported, or one of them has
no UTF-8 form. -/
theorem reportUnknown_cases (hlogs : Disk.makeDirectories (WorkingDir.logsDir dir) tree =
    .ok () made) :
    (IsReported made dir settings ∧ ∃ after, reportUnknown env dir settings tree = .ok () after) ∨
    (¬IsReported made dir settings ∧
      ∃ e after, reportUnknown env dir settings tree = .error (.unencodable e) after) := by
  unfold reportUnknown
  dsimp only
  by_cases hempty : (unknownKeys schema settings).isEmpty = true
  · rw [if_pos hempty]
    refine .inl ⟨.inl ?_, tree, rfl⟩
    rw [List.isEmpty_iff.mp hempty]
    simp
  · rw [if_neg hempty, bind_of_ok (onDisk_eq_ok.mpr hlogs)]
    rw [IsReported, ← areSound_report env.clock]
    exact writeValue_cases ..

/-- How a load fails: the search stops, the version is infinite, or a key cannot be reported. -/
theorem load_eq_error {e : Fault} {after : FileTree}
    (hlogs : Disk.makeDirectories (WorkingDir.logsDir dir) tree = .ok () made)
    (h : load env dir tree = .error e after) :
    IsFound env.nestingLimit tree (WorkingDir.settingsFiles env dir) (.error e) ∨
      ∃ given, IsGiven env.nestingLimit tree (WorkingDir.settingsFiles env dir) given ∧
        (¬HasFiniteVersion given ∧ e = .numeral .infinite ∨
          ∃ n w, normalise given dir.text = .ok n ∧ ¬IsReported made dir n ∧
            e = .unencodable w) := by
  unfold load at h
  cases hread : readFirst env.nestingLimit (WorkingDir.settingsFiles env dir) tree with
  | error e' other =>
    rw [bind_of_error hread] at h
    cases h
    exact .inl (readFirst_eq_error_iff.mp hread).1
  | ok given other =>
    obtain ⟨hgiven, rfl⟩ := readFirst_eq_ok_iff.mp hread
    refine .inr ⟨given, hgiven, ?_⟩
    rw [bind_of_ok hread] at h
    by_cases hversion : HasFiniteVersion given
    · obtain ⟨n, hn⟩ := exists_normalise hversion dir.text
      rw [hn] at h
      rcases reportUnknown_cases hlogs with ⟨-, later, hreport⟩ | ⟨hnot, w, later, hreport⟩
      · have hload := bind_of_ok hreport fun _ => pure n
        cases hload.symm.trans h
      · have hload := bind_of_error hreport fun _ => pure n
        cases hload.symm.trans h
        exact .inr ⟨n, w, hn, hnot, rfl⟩
    · rw [normalise_of_infinite hversion] at h
      cases h
      exact .inl ⟨hversion, rfl⟩

/-- Where the directory of the logs can be made, a load gives the normal form of the first object
that it finds in the candidates, if the unknown keys are reported; only an infinite version has no
normal form.  A load fails at a candidate that is neither missing nor damaged nor an object, at an
infinite version, and at an unknown key without a UTF-8 form. -/
theorem loads_first_object (env : Environment)
    (hlogs : Disk.makeDirectories (WorkingDir.logsDir dir) tree = .ok () made) :
    (∀ loaded, (∃ after, load env dir tree = .ok loaded after) ↔
      ∃ given, IsGiven env.nestingLimit tree (WorkingDir.settingsFiles env dir) given ∧
        normalise given dir.text = .ok loaded ∧ IsReported made dir loaded) ∧
    (∀ given, (∃ n, normalise given dir.text = .ok n) ↔ HasFiniteVersion given) ∧
    ∀ e after, load env dir tree = .error e after →
      IsFound env.nestingLimit tree (WorkingDir.settingsFiles env dir) (.error e) ∨
      ∃ given, IsGiven env.nestingLimit tree (WorkingDir.settingsFiles env dir) given ∧
        (¬HasFiniteVersion given ∧ e = .numeral .infinite ∨
          ∃ n w, normalise given dir.text = .ok n ∧ ¬IsReported made dir n ∧
            e = .unencodable w) := by
  refine ⟨fun loaded => ⟨?_, ?_⟩, fun given => ⟨?_, fun h => exists_normalise h _⟩,
    fun e after hload => load_eq_error hlogs hload⟩
  · rintro ⟨after, hload⟩
    obtain ⟨given, mid, hread, hn, hreport⟩ := load_eq_ok hload
    obtain ⟨hgiven, rfl⟩ := readFirst_eq_ok_iff.mp hread
    refine ⟨given, hgiven, hn, ?_⟩
    rcases reportUnknown_cases hlogs with ⟨hreported, -⟩ | ⟨-, w, later, herror⟩
    · exact hreported
    · rw [hreport] at herror
      cases herror
  · rintro ⟨given, hgiven, hn, hreported⟩
    have hread := readFirst_eq_ok_iff.mpr ⟨hgiven, rfl⟩
    rcases reportUnknown_cases hlogs with ⟨-, after, hreport⟩ | ⟨hnot, -⟩
    · refine ⟨after, ?_⟩
      rw [load, bind_of_ok hread, hn]
      exact bind_of_ok hreport _
    · exact absurd hreported hnot
  · rintro ⟨n, hn⟩
    by_contra hversion
    rw [normalise_of_infinite hversion] at hn
    cases hn

end Loading

/-- An empty file is passed over, and the next one holds an object. -/
theorem loads_first_object_second :
    let env : Environment := {
      bindings := []
      project := .ofText "/opt"
      processId := 1
      clock := .ofInt 0
      nestingLimit := 100 }
    let dir := Path.ofText "/catalogue"
    let given : Members := [("database_path", .text "old.db")]
    let tree : FileTree := ⟨[], [(["catalogue"], .directory),
      (["catalogue", "settings.json"], .file []), (["opt"], .directory),
      (["opt", "settings.json"], .file (contents given))]⟩
    let loaded : Members := [("version", .int 1),
      ("database", .object [("path", .text "old.db"), ("timeout_s", .real (.ofInt 5))]),
      ("api", .object [("host", .text "127.0.0.1"), ("port", .int 8080),
        ("cors_origins", .list [.text "http://localhost", .text "http://127.0.0.1"])]),
      ("logging", .object [("level", .text "INFO"), ("json", .bool false)]),
      ("working_dir", .text "/catalogue")]
    ∃ made after, Disk.makeDirectories (WorkingDir.logsDir dir) tree = .ok () made ∧
      load env dir tree = .ok loaded after := by
  intro env dir given tree loaded
  have hregular : Json.IsRegular (.object given) := by
    refine isRegular_object (by decide) ?_
    simp only [given, List.mem_singleton, forall_eq]
    exact ⟨⟨_, rfl⟩, isRegular_text _⟩
  have hfirst : held env.nestingLimit tree (dir.child "settings.json") = .ok none := by
    have hread : Disk.read (dir.child "settings.json") tree = .ok [] tree := rfl
    rw [held, hread]
    cbv
  have hsecond :
      held env.nestingLimit tree (env.project.child "settings.json") = .ok (some given) := by
    have hread : Disk.read (env.project.child "settings.json") tree =
        .ok (contents given) tree := rfl
    rw [held, hread]
    exact (readObject?_contents hregular _).1 (by decide)
  have hgiven : IsGiven env.nestingLimit tree (WorkingDir.settingsFiles env dir) given :=
    isGiven_cons.mpr (.inr ⟨hfirst, isGiven_cons.mpr (.inl hsecond)⟩)
  obtain ⟨made, hmade⟩ : ∃ made,
      Disk.makeDirectories (WorkingDir.logsDir dir) tree = .ok () made := ⟨_, rfl⟩
  have hknown : (unknownKeys schema loaded).isEmpty := by decide +kernel
  have hreported : IsReported made dir loaded := by
    left
    rw [List.isEmpty_iff.mp hknown]
    simp
  obtain ⟨after, hload⟩ :=
    ((loads_first_object env hmade).1 loaded).mpr ⟨given, hgiven, rfl, hreported⟩
  exact ⟨made, after, hmade, hload⟩

/-- A byte that starts no character stops a load, although nothing else is there to be read. -/
theorem load_stops_at_byte :
    let env : Environment := {
      bindings := []
      project := .ofText "/opt"
      processId := 1
      clock := .ofInt 0
      nestingLimit := 100 }
    let dir := Path.ofText "/catalogue"
    let tree : FileTree :=
      ⟨[], [(["catalogue"], .directory), (["catalogue", "settings.json"], .file [0xFF])]⟩
    (∃ made, Disk.makeDirectories (WorkingDir.logsDir dir) tree = .ok () made) ∧
      (∃ n, normalise [] dir.text = .ok n) ∧
      load env dir tree = .error (.undecodable ⟨.invalidStart, 0, 1, 0xFF⟩) tree := by
  intro env dir tree
  have hread : Disk.read (dir.child "settings.json") tree = .ok [0xFF] tree := rfl
  have hheld : held env.nestingLimit tree (dir.child "settings.json") =
      .error (.undecodable ⟨.invalidStart, 0, 1, 0xFF⟩) := by
    rw [held, hread]
    cbv
  have hstop : readFirst env.nestingLimit (WorkingDir.settingsFiles env dir) tree =
      .error (.undecodable ⟨.invalidStart, 0, 1, 0xFF⟩) tree :=
    readFirst_eq_error_iff.mpr ⟨isFound_cons.mpr (.inl hheld), rfl⟩
  exact ⟨⟨_, rfl⟩, ⟨_, rfl⟩, bind_of_error hstop _⟩

end Catalogue.Settings
