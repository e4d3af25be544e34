import Catalogue.Launch.Configuration
import Catalogue.Proofs.File.WorkingDir
import Catalogue.Proofs.Settings.Loading
import Catalogue.Proofs.Settings.Merging

/-! What a launch is configured with.  Each part comes from the command line where that gives it,
else from the settings that were given, where it is neither missing nor empty, else it is the
default; a path of the database that an older version left counts as given in its section.  A port
of zero on the command line is passed over as if it were not there. -/

namespace Catalogue

/-! ### Normal settings and the given ones -/

namespace Settings

open Text

variable {given n d : Members} {name key : String} {v : Json}

theorem section?_congr {settings other : Members} (h : settings.get? name = other.get? name) :
    (section? settings name) = section? other name := by rw [section?, section?, h]

theorem section?_put (settings : Members) (name : String) (members : Members) :
    (section? (settings.put name (.object members)) name) = members := by
  rw [section?, Members.get?_put, if_pos rfl]
  rfl

/-- What stands under a key that no step of the migration sets. -/
theorem get?_normalise {dir : String} (h : normalise given dir = .ok n)
    (hkey : key ∉ ["version", "database_path", workingDirKey]) :
    n.get? key = (adoptPath (merge given)).get? key := by
  simp only [List.mem_cons, List.not_mem_nil, or_false, not_or] at hkey
  obtain ⟨hversion, hpath, hdir⟩ := hkey
  have hne {other : String} (h : key ≠ other) : (key : LooseText) ≠ other :=
    fun he => h (LooseText.sound.inj he)
  obtain ⟨migrated, hmigrate, rfl⟩ := normalise_eq_ok h
  obtain ⟨version, -, rfl⟩ := migrate_eq_ok hmigrate
  have herased : ((adoptPath (merge given)).erase "database_path").get? key =
      (adoptPath (merge given)).get? key := by
    rw [Members.get?_erase, if_neg (hne hpath)]
  rw [withWorkingDir]
  split <;> split <;>
    simp only [Members.get?_put, if_neg (hne hversion), if_neg (hne hdir), herased]

theorem section?_merge (given : Members) (h : defaults.get? name = some (.object d)) :
    (section? (merge given) name) = fill (section? given name) d := by
  rw [section?, merge_eq, get?_fill, h, Option.map_some, Option.some_or, mergeValue_object]
  rfl

theorem get?_section_merge (given : Members) (h : defaults.get? name = some (.object d))
    (hvalue : d.get? key = some v) : (section? (merge given) name).get? key =
      some (mergeValue ((section? given name).get? key) v) := by
  rw [section?_merge given h, get?_fill, hvalue, Option.map_some, Option.some_or]

end Settings

namespace Launch

open Settings Text

/-- What the command line gives, else what the settings give, else the default. -/
def firstOf {α : Type} (option? setting? : Option α) (default : α) : α :=
  (option?.or setting?).getD default

def settingsHost? (settings : Members) : Option Json :=
  given? (section? settings "api") "host"

/-- The integer for which the port in settings stands. -/
def settingsPort? (settings : Members) : Option Int :=
  (given? (section? settings "api") "port").bind fun value => value.toInteger.toOption

def items? : Json → Option (List Json)
  | .list items => some items
  | _ => none

def settingsOrigins? (settings : Members) : Option (List Json) :=
  (given? (section? settings "api") "cors_origins").bind items?

/-- The path that a value gives: a text that is not blank. -/
def pathOf? : Option Json → Option LooseText
  | some (.string path) => if trim path.patched = "" then none else some path
  | _ => none

/-- The path of the database in settings: the one in its section, unless that is empty, or else the
one that an older version left. -/
def settingsPath? (settings : Members) : Option LooseText :=
  pathOf? ((given? (section? settings "database") "path").or (settings.get? "database_path"))

/-- Each part of a configuration comes from the command line where that gives it, else from the
given settings, else it is the default. -/
structure IsChosen (env : Environment) (options : Options) (given : Members) (dir : Path)
    (c : Configuration) : Prop where
  host : ∃ w, firstOf ((options.host.filter (· ≠ "")).map .text) (settingsHost? given)
    (.text defaultHost) = .string w ∧ bindHost? w.patched = some c.host
  /-- A port of zero on the command line counts as none. -/
  port : c.port = firstOf (options.port.filter (· ≠ 0)) (settingsPort? given) defaultPort
  origins : c.origins = firstOf ((options.origins.filter (· ≠ [])).map (·.map .text))
    (settingsOrigins? given) defaultOrigins
  database : .ok c.database = firstOf
    ((options.database.filter (· ≠ "")).map fun path => .ok (.ofText path))
    ((settingsPath? given).map (LoosePath.ofTextInHome env))
    (.ok ⟨WorkingDir.databasePath dir, none⟩)

/-! ### The settings -/

theorem given?_eq_filter (section_ : Members) (key : String) :
    given? section_ key = (section_.get? key).filter Json.isTruthy := by
  rw [given?]
  cases section_.get? key with
  | none => rfl
  | some value => rw [Option.filter_some]

section Given

variable {given n : Members} {dir : String}

/-- What normal settings give in a section is what was given there, or the default `v`, where `f`
takes nothing from a value that is replaced by its default. -/
theorem getD_given? (h : normalise given dir = .ok n) {name key : String} {d : Members} {v : Json}
    (hname : name ∉ ["version", "database_path", workingDirKey, "database"])
    (hdefaults : defaults.get? name = some (.object d)) (hdefault : d.get? key = some v)
    (htruthy : v.isTruthy = true) {α : Type} {f : Json → Option α} {a : α} (hv : f v = some a)
    (hgiven : ∀ g, mergeValue (some g) v = g ∨ mergeValue (some g) v = v ∧ f g = none) :
    ((given? (section? n name) key).bind f).getD a =
      ((given? (section? given name) key).bind f).getD a := by
  have hsection : section? n name = section? (merge given) name := by
    have hkey : name ∉ ["version", "database_path", workingDirKey] :=
      fun hm => hname (List.mem_append_left ["database"] hm)
    have hdatabase : (name : LooseText) ≠ "database" := by
      intro he
      rw [LooseText.sound.inj he] at hname
      exact hname (by decide)
    exact section?_congr ((get?_normalise h hkey).trans (get?_adoptPath hdatabase))
  rw [hsection, given?_eq_filter, given?_eq_filter, get?_section_merge given hdefaults hdefault]
  cases (section? given name).get? key with
  | none => rw [mergeValue_none, Option.filter_some, if_pos htruthy, Option.bind_some, hv]; rfl
  | some g =>
    rcases hgiven g with hsame | ⟨hreplaced, hnone⟩
    · rw [hsame]
    -- The default stands in the place of `g`, from which `f` would take nothing.
    · rw [hreplaced, Option.filter_some, if_pos htruthy, Option.bind_some, hv, Option.filter_some]
      split
      · rw [Option.bind_some, hnone]
        rfl
      · rfl

theorem getD_settingsPort? (h : normalise given dir = .ok n) :
    (settingsPort? n).getD defaultPort = (settingsPort? given).getD defaultPort :=
  getD_given? h (by decide) rfl rfl rfl rfl fun _ => .inl rfl

theorem getD_settingsOrigins? (h : normalise given dir = .ok n) :
    (settingsOrigins? n).getD defaultOrigins = (settingsOrigins? given).getD defaultOrigins := by
  refine getD_given? h (by decide) rfl rfl rfl rfl fun g => ?_
  cases g with
  | list items => exact .inl rfl
  | _ => exact .inr ⟨rfl, rfl⟩

theorem getD_settingsHost? (h : normalise given dir = .ok n) :
    (settingsHost? n).getD (.text defaultHost) =
      (settingsHost? given).getD (.text defaultHost) := by
  have hsome : ((settingsHost? n).bind some).getD (.text defaultHost) =
      ((settingsHost? given).bind some).getD (.text defaultHost) :=
    getD_given? h (by decide) rfl rfl rfl rfl fun _ => .inl rfl
  rwa [Option.bind_fun_some, Option.bind_fun_some] at hsome

end Given

/-! ### The path of the database -/

theorem pathOf?_of_not_text {value : Option Json} (h : ∀ path, value ≠ some (.string path)) :
    pathOf? value = none := by
  unfold pathOf?
  split
  · next path => exact absurd rfl (h path)
  · rfl

theorem pathOf?_of_not_isTruthy {value : Option Json} (h : value.filter Json.isTruthy = none) :
    pathOf? value = none := by
  cases value with
  | none => rfl
  | some v =>
    cases v with
    | string w =>
      rw [Option.filter_some] at h
      split at h
      · cases h
      · next hempty =>
        obtain rfl : w = .sound "" := by simpa [Json.isTruthy] using hempty
        rfl
    | _ => rfl

theorem elim_isTruthy {value : Option Json} (h : value.filter Json.isTruthy = none) :
    value.elim false Json.isTruthy = false := by
  cases value with
  | none => rfl
  | some v =>
    rw [Option.filter_some] at h
    simpa using h

theorem databasePath_eq (env : Environment) (settings : Members) (dir : Path) :
    databasePath env settings dir =
      ((pathOf? ((section? settings "database").get? "path")).map
        (LoosePath.ofTextInHome env)).getD (.ok ⟨WorkingDir.databasePath dir, none⟩) := by
  rw [databasePath]
  split
  · next path hpath =>
    rw [hpath, pathOf?]
    split <;> rfl
  · next hpath =>
    rw [pathOf?_of_not_text hpath]
    rfl

theorem adoptPath_of_given {settings : Members} {path : Json}
    (h : given? (section? settings "database") "path" = some path) :
    adoptPath settings = settings := by
  rw [given?_eq_filter] at h
  obtain ⟨hpath, htruthy⟩ := Option.filter_eq_some_iff.mp h
  unfold adoptPath
  split
  · rw [if_neg (by simp [hpath, htruthy])]
  · rfl

/-- The path in its section after the one of an older version has moved there. -/
theorem pathOf?_adoptPath (settings : Members) :
    pathOf? ((section? (adoptPath settings) "database").get? "path") = settingsPath? settings := by
  rw [settingsPath?]
  cases hgiven : given? (section? settings "database") "path" with
  | some path =>
    have hpath := hgiven
    rw [given?_eq_filter] at hpath
    rw [adoptPath_of_given hgiven, (Option.filter_eq_some_iff.mp hpath).1, Option.some_or]
  | none =>
    rw [given?_eq_filter] at hgiven
    have hnone := pathOf?_of_not_isTruthy hgiven
    rw [Option.none_or]
    unfold adoptPath
    dsimp only
    split
    -- The path of the older version moves, unless it is empty: then neither gives one.
    · next path hpath =>
      rw [hpath, elim_isTruthy hgiven]
      by_cases hempty : path = .sound ""
      · rw [if_neg (by simp [hempty]), hnone, hempty]
        rfl
      · rw [if_pos (by simp [hempty]), section?_put, Members.get?_put, if_pos rfl]
    · next hpath => rw [hnone, pathOf?_of_not_text hpath]

theorem pathOf?_normalise {given n : Members} {dir : String} (h : normalise given dir = .ok n) :
    pathOf? ((section? n "database").get? "path") = settingsPath? given := by
  have hdatabase : n.get? "database" = (adoptPath (merge given)).get? "database" :=
    get?_normalise h (by decide)
  have hpath : given? (section? (merge given) "database") "path" =
      given? (section? given "database") "path" := by
    rw [given?_eq_filter, given?_eq_filter,
      get?_section_merge given (d := databaseDefaults) (v := .null) rfl rfl]
    cases (section? given "database").get? "path" <;> rfl
  have hlegacy : (merge given).get? "database_path" = given.get? "database_path" := by
    rw [merge_eq, get?_fill]
    rfl
  rw [section?_congr hdatabase, pathOf?_adoptPath, settingsPath?, settingsPath?, hpath, hlegacy]

/-! ### The parts of a configuration -/

section Parts

variable {options : Options} {settings : Members} {host : String} {port : Int}

theorem firstOf_congr {α : Type} {setting? other? : Option α} {default : α}
    (h : setting?.getD default = other?.getD default) (option? : Option α) :
    firstOf option? setting? default = firstOf option? other? default := by
  cases option? with
  | none => exact h
  | some _ => rfl

theorem hostFor_eq_ok_iff {candidate : Json} : hostFor candidate = .ok host ↔
    ∃ w, candidate = .string w ∧ bindHost? w.patched = some host := by
  unfold hostFor
  cases candidate with
  | string w => cases hbind : bindHost? w.patched <;> simp [hbind]
  | _ => simp

theorem chooseHost_eq : chooseHost options (section? settings "api") =
    hostFor (firstOf ((options.host.filter (· ≠ "")).map .text) (settingsHost? settings)
      (.text defaultHost)) := by
  rw [chooseHost, firstOf, settingsHost?]
  cases options.host.filter (· ≠ "") <;> rfl

theorem choosePort_eq_ok (h : choosePort options (section? settings "api") = .ok port) :
    port = firstOf (options.port.filter (· ≠ 0)) (settingsPort? settings) defaultPort := by
  unfold choosePort at h
  unfold settingsPort?
  cases hoption : options.port.filter (· ≠ 0) with
  | some _ =>
    rw [hoption] at h
    cases h
    rfl
  | none =>
    rw [hoption] at h
    cases hgiven : given? (section? settings "api") "port" with
    | none =>
      rw [hgiven] at h
      cases h
      rfl
    | some value =>
      rw [hgiven] at h
      dsimp only [Option.map_some] at h
      cases hvalue : value.toInteger with
      | ok n =>
        rw [hvalue] at h
        cases h
        simp [firstOf, hvalue, Except.toOption]
      | error e =>
        rw [hvalue] at h
        cases e with
        | infinite => cases h
        | _ =>
          cases h
          simp [firstOf, hvalue, Except.toOption]

theorem settingsOrigins?_eq (settings : Members) : settingsOrigins? settings =
    (((section? settings "api").get? "cors_origins").bind items?).filter (· ≠ []) := by
  rw [settingsOrigins?, given?_eq_filter]
  cases (section? settings "api").get? "cors_origins" with
  | none => rfl
  | some value =>
    rw [Option.filter_some]
    cases value with
    | list items => cases items <;> rfl
    | _ => split <;> rfl

theorem chooseOrigins_eq : chooseOrigins options (section? settings "api") =
    firstOf ((options.origins.filter (· ≠ [])).map (·.map .text)) (settingsOrigins? settings)
      defaultOrigins := by
  rw [settingsOrigins?_eq]
  unfold chooseOrigins
  cases (section? settings "api").get? "cors_origins" with
  | none => rcases options.origins with _ | _ | _ <;> rfl
  | some value =>
    cases value with
    | list items => cases items <;> rcases options.origins with _ | _ | _ <;> rfl
    | _ => rcases options.origins with _ | _ | _ <;> rfl

theorem chooseDatabase_eq (env : Environment) (settings : Members) (dir : Path) :
    chooseDatabase env options settings dir =
      firstOf ((options.database.filter (· ≠ "")).map fun path => .ok (.ofText path))
        ((pathOf? ((section? settings "database").get? "path")).map (LoosePath.ofTextInHome env))
        (.ok ⟨WorkingDir.databasePath dir, none⟩) := by
  rw [chooseDatabase, firstOf]
  cases options.database.filter (· ≠ "") with
  | none => exact databasePath_eq env settings dir
  | some path => rfl

end Parts

/-! ### The steps of a launch -/

section Steps

variable {env : Environment} {options : Options} {tree after : FileTree} {c : Configuration}

theorem adapting_eq_ok {ε α : Type} {fault : ε → Fault} {steps : EStateM ε FileTree α} {a : α} :
    adapting fault steps tree = .ok a after ↔ steps tree = .ok a after := by
  unfold adapting
  cases steps tree <;> simp

theorem onDisk_eq_ok {α : Type} {operation : Disk α} {a : α} :
    onDisk operation tree = .ok a after ↔ operation tree = .ok a after := adapting_eq_ok

theorem bind_computing_eq_ok {ε α β : Type} {fault : ε → Fault} {result : Except ε α}
    {f : α → Steps β} {b : β} : (computing fault result >>= f) tree = .ok b after ↔
      ∃ a, result = .ok a ∧ f a tree = .ok b after := by
  cases result with
  | ok a =>
    have hpure : computing fault (.ok a) tree = .ok a tree := rfl
    rw [bind_of_ok hpure]
    simp
  | error e =>
    have hthrow : computing fault (.error e : Except ε α) tree = .error (fault e) tree := rfl
    rw [bind_of_error hthrow]
    simp

/-- A launch is configured where each of its steps succeeds. -/
theorem configure_eq_ok_iff : configure env options tree = .ok c after ↔
    ∃ dir mid made, WorkingDir.resolve env tree = .ok dir mid ∧
      WorkingDir.ensureStructure dir mid = .ok () made ∧
      Settings.load env dir made = .ok c.settings after ∧
      chooseHost options (section? c.settings "api") = .ok c.host ∧
      choosePort options (section? c.settings "api") = .ok c.port ∧
      chooseDatabase env options c.settings dir = .ok c.database ∧
      c.origins = chooseOrigins options (section? c.settings "api") := by
  constructor
  · intro h
    unfold configure at h
    obtain ⟨dir, mid, hdir, h⟩ := exists_of_bind_ok h
    obtain ⟨_, made, hmade, h⟩ := exists_of_bind_ok h
    obtain ⟨settings, later, hload, h⟩ := exists_of_bind_ok h
    obtain ⟨host, hhost, h⟩ := bind_computing_eq_ok.mp h
    obtain ⟨port, hport, h⟩ := bind_computing_eq_ok.mp h
    obtain ⟨database, hdatabase, h⟩ := bind_computing_eq_ok.mp h
    cases h
    exact ⟨dir, mid, made, adapting_eq_ok.mp hdir, onDisk_eq_ok.mp hmade, adapting_eq_ok.mp hload,
      hhost, hport, hdatabase, rfl⟩
  · rintro ⟨dir, mid, made, hdir, hmade, hload, hhost, hport, hdatabase, horigins⟩
    unfold configure
    rw [bind_of_ok (adapting_eq_ok.mpr hdir), bind_of_ok (onDisk_eq_ok.mpr hmade),
      bind_of_ok (adapting_eq_ok.mpr hload)]
    refine bind_computing_eq_ok.mpr ⟨c.host, hhost, bind_computing_eq_ok.mpr ⟨c.port, hport,
      bind_computing_eq_ok.mpr ⟨c.database, hdatabase, ?_⟩⟩⟩
    rw [← horigins]
    rfl

/-- Settings without unknown keys configure a launch where each part can be chosen. -/
theorem configure_of_given {dir : Path} {mid made : FileTree} {given n : Members} {host : String}
    {port : Int} {database : LoosePath} (hdir : WorkingDir.resolve env tree = .ok dir mid)
    (hmade : WorkingDir.ensureStructure dir mid = .ok () made)
    (hgiven : IsGiven env.nestingLimit made (WorkingDir.settingsFiles env dir) given)
    (hn : normalise given dir.text = .ok n) (hknown : (unknownKeys schema n).isEmpty)
    (hhost : chooseHost options (section? n "api") = .ok host)
    (hport : choosePort options (section? n "api") = .ok port)
    (hdatabase : chooseDatabase env options n dir = .ok database) :
    configure env options tree =
      .ok ⟨host, port, chooseOrigins options (section? n "api"), database, n⟩ made :=
  configure_eq_ok_iff.mpr ⟨dir, mid, made, hdir, hmade,
    load_of_readFirst (readFirst_eq_ok_iff.mpr ⟨hgiven, rfl⟩) hn hknown, hhost, hport, hdatabase,
    rfl⟩

/-- Where a launch is configured, each part comes from the command line where that gives it, else
from the settings in the first file that holds an object, else it is the default.  A port that the
command line gives is taken, unless it is zero: then it is taken only where the settings come to
zero as well. -/
theorem options_before_settings (h : configure env options tree = .ok c after) :
    ∃ dir mid made given, WorkingDir.resolve env tree = .ok dir mid ∧
      WorkingDir.ensureStructure dir mid = .ok () made ∧
      IsGiven env.nestingLimit made (WorkingDir.settingsFiles env dir) given ∧
      normalise given dir.text = .ok c.settings ∧ IsChosen env options given dir c ∧
      ∀ n, options.port = some n →
        (c.port = n ↔ n ≠ 0 ∨ (settingsPort? given).getD defaultPort = 0) := by
  obtain ⟨dir, mid, made, hdir, hmade, hload, hhost, hport, hdatabase, horigins⟩ :=
    configure_eq_ok_iff.mp h
  obtain ⟨given, later, hread, hn, -⟩ := load_eq_ok hload
  obtain ⟨hgiven, rfl⟩ := readFirst_eq_ok_iff.mp hread
  have hchosen : IsChosen env options given dir c := by
    refine ⟨?_, ?_, ?_, ?_⟩
    · rw [chooseHost_eq, firstOf_congr (getD_settingsHost? hn), hostFor_eq_ok_iff] at hhost
      exact hhost
    · exact (choosePort_eq_ok hport).trans (firstOf_congr (getD_settingsPort? hn) _)
    · rw [horigins, chooseOrigins_eq]
      exact firstOf_congr (getD_settingsOrigins? hn) _
    · rw [← hdatabase, chooseDatabase_eq, pathOf?_normalise hn]
  refine ⟨dir, mid, _, given, hdir, hmade, hgiven, hn, hchosen, fun n hgivenPort => ?_⟩
  rw [hchosen.port, hgivenPort, firstOf, Option.filter_some]
  by_cases hzero : n = 0
  · rw [if_neg (by simp [hzero]), Option.none_or, hzero]
    simp
  · rw [if_pos (by simp [hzero]), Option.some_or, Option.getD_some]
    simp [hzero]

end Steps

/-- The host and the origins are on the command line; the port and a path from an older version are
found in the settings. -/
theorem options_before_settings_sample :
    let env : Environment := {
      bindings := [("CONTENT_ARCHIVE_HOME", "/work")]
      project := .ofText "/opt"
      processId := 7
      clock := .ofInt 0
      nestingLimit := 100 }
    let options : Options := ⟨some "LOCALHOST", none, none, some ["http://a"], false⟩
    let given : Members := [("database_path", .text "/old.db"),
      ("api", .object [("host", .text "example.org"), ("port", .int 9000)])]
    let tree : FileTree := ⟨[], [(["work"], .directory),
      (["work", "settings.json"], .file (contents given))]⟩
    ∃ c after, configure env options tree = .ok c after ∧
      c.host = "127.0.0.1" ∧ c.port = 9000 ∧ c.origins = [.text "http://a"] ∧
      c.database = ⟨⟨.slash, ["old.db"]⟩, none⟩ ∧
      ∃ dir made given, IsGiven env.nestingLimit made (WorkingDir.settingsFiles env dir) given ∧
        IsChosen env options given dir c := by
  intro env options given tree
  let dir : Path := ⟨.slash, ["work"]⟩
  let mid : FileTree := ⟨[], tree.nodes ++ [(["work", "data"], .directory)]⟩
  let made : FileTree := ⟨[], mid.nodes ++ [(["work", "logs"], .directory)]⟩
  let settings : Members := [("version", .int 1),
    ("database", .object [("path", .text "/old.db"), ("timeout_s", .real (.ofInt 5))]),
    ("api", .object [("host", .text "example.org"), ("port", .int 9000),
      ("cors_origins", .list [.text "http://localhost", .text "http://127.0.0.1"])]),
    ("logging", .object [("level", .text "INFO"), ("json", .bool false)]),
    ("working_dir", .text "/work")]
  have hprobe : WorkingDir.probe env dir = ⟨.slash, ["work", ".write_test_7"]⟩ := by
    decide +kernel
  have hwritable : tree.writable? (WorkingDir.probe env dir) = .ok ["work", ".write_test_7"] := by
    rw [hprobe]
    rfl
  have hprepare : WorkingDir.prepare env dir tree = .ok true mid :=
    WorkingDir.prepare_of_writable rfl hwritable rfl rfl rfl
  have hfirst : (WorkingDir.candidates env []).head? = some (some dir) := by decide +kernel
  have hregular : Json.IsRegular (.object given) := by
    refine Json.isRegular_object (by decide) ?_
    simp only [given, List.mem_cons, List.not_mem_nil, or_false, forall_eq_or_imp, forall_eq]
    refine ⟨⟨⟨_, rfl⟩, Json.isRegular_text _⟩, ⟨_, rfl⟩, Json.isRegular_object (by decide) ?_⟩
    simp only [List.mem_cons, List.not_mem_nil, or_false, forall_eq_or_imp, forall_eq]
    exact ⟨⟨⟨_, rfl⟩, Json.isRegular_text _⟩, ⟨_, rfl⟩,
      Json.isRegular_int (Json.natAbs_lt_of_fitsWord (by decide))⟩
  have hheld : held env.nestingLimit made (dir.child "settings.json") = .ok (some given) :=
    (readObject?_contents hregular _).1 (by decide)
  have hconfigure : configure env options tree =
      .ok ⟨"127.0.0.1", 9000, [.text "http://a"], ⟨⟨.slash, ["old.db"]⟩, none⟩, settings⟩ made :=
    configure_of_given (WorkingDir.resolve_of_prepare hfirst hprepare) rfl
      (isGiven_cons.mpr (.inl hheld)) rfl (by decide +kernel) (by decide +kernel) rfl rfl
  obtain ⟨_, _, _, _, -, -, hgiven, -, hchosen, -⟩ := options_before_settings hconfigure
  exact ⟨_, _, hconfigure, rfl, rfl, rfl, rfl, _, _, _, hgiven, hchosen⟩

/-- The command line gives port zero, there are no settings, and the default is taken. -/
theorem port_zero_passed_over :
    let env : Environment := {
      bindings := [("CONTENT_ARCHIVE_HOME", "/work")]
      project := .ofText "/opt"
      processId := 7
      clock := .ofInt 0
      nestingLimit := 100 }
    ∃ c after, configure env ⟨none, some 0, none, none, false⟩ ⟨[], []⟩ = .ok c after ∧
      c.port = 8080 := by
  intro env
  let dir : Path := ⟨.slash, ["work"]⟩
  let start : FileTree := ⟨[], [(["work"], .directory)]⟩
  let mid : FileTree := ⟨[], start.nodes ++ [(["work", "data"], .directory)]⟩
  let made : FileTree := ⟨[], mid.nodes ++ [(["work", "logs"], .directory)]⟩
  let settings : Members := defaults.put "working_dir" (.text "/work")
  have hprobe : WorkingDir.probe env dir = ⟨.slash, ["work", ".write_test_7"]⟩ := by
    decide +kernel
  have hwritable : start.writable? (WorkingDir.probe env dir) = .ok ["work", ".write_test_7"] := by
    rw [hprobe]
    rfl
  have hprepare : WorkingDir.prepare env dir ⟨[], []⟩ = .ok true mid :=
    WorkingDir.prepare_of_writable rfl hwritable rfl rfl rfl
  have hfirst : (WorkingDir.candidates env []).head? = some (some dir) := by decide +kernel
  have hgiven : IsGiven env.nestingLimit made (WorkingDir.settingsFiles env dir) [] := by
    refine .inr ⟨?_, rfl⟩
    simp only [WorkingDir.settingsFiles, List.mem_cons, List.not_mem_nil, or_false,
      forall_eq_or_imp, forall_eq]
    exact ⟨rfl, rfl⟩
  have hconfigure : configure env ⟨none, some 0, none, none, false⟩ ⟨[], []⟩ =
      .ok ⟨"127.0.0.1", 8080, defaultOrigins, ⟨WorkingDir.databasePath dir, none⟩, settings⟩ made :=
    configure_of_given (WorkingDir.resolve_of_prepare hfirst hprepare) rfl hgiven rfl
      (by decide +kernel) (by decide +kernel) rfl rfl
  exact ⟨_, _, hconfigure, rfl⟩

end Launch

end Catalogue
