import Catalogue.Proofs.File.Writing
import Catalogue.Proofs.Json.Sound
import Catalogue.Proofs.Settings.Defaults
import Catalogue.Proofs.Text.Utf8
import Catalogue.Settings.File

/-! Settings there and back.  Saving writes the normal form of settings, and loading reads it: what
is loaded after a save is that form, and saving it again writes the same bytes.  In between a load
may report keys that it does not know, in a file of its own. -/

namespace Catalogue.Settings

open Number Text Json FileTree

/-! ### Bytes -/

/-- The bytes of settings on disk. -/
def contents (settings : Members) : List UInt8 :=
  Utf8.encode (String.ofList (chars .indented 0 (.object settings)))

theorem encodePieces_of_sound {pieces : List LooseText} (h : AreSound pieces) :
    encodePieces pieces = (Utf8.encode (String.ofList (charsOf pieces)), none) := by
  induction pieces with
  | nil => rfl
  | cons piece pieces ih =>
    obtain ⟨s, rfl⟩ := h piece (List.mem_cons_self ..)
    have hrest := ih fun other hother => h other (List.mem_cons_of_mem _ hother)
    rw [encodePieces, LooseText.encode, hrest]
    simp [charsOf_cons, LooseText.patched, Utf8.encode_append]

theorem areSound_of_encodePieces {pieces : List LooseText}
    (h : (encodePieces pieces).2 = none) : AreSound pieces := by
  induction pieces with
  | nil => simp [AreSound]
  | cons piece pieces ih =>
    cases piece with
    | sound s =>
      intro other hother
      rcases List.mem_cons.mp hother with rfl | hother
      · exact ⟨s, rfl⟩
      · exact ih h other hother
    | torn before half after => cases h

/-- The bytes of settings are read back, unless they are nested too deep. -/
theorem readObject?_contents {n : Members} (h : Json.IsRegular (.object n)) (limit : Nat) :
    (nesting (.object n) ≤ limit → readObject? limit (contents n) = .ok (some n)) ∧
      (¬nesting (.object n) ≤ limit →
        ∃ kind, readObject? limit (contents n) = .error (.tooDeep kind)) := by
  have hparse := parseWithin_chars Layout.isBlank_indented h limit
  constructor
  · intro hfits
    simp only [readObject?, contents, Utf8.decode_encode, String.toList_ofList, hparse.1 hfits]
    rfl
  · intro hdeep
    obtain ⟨kind, hkind⟩ := hparse.2 hdeep
    refine ⟨kind, ?_⟩
    simp only [readObject?, contents, Utf8.decode_encode, String.toList_ofList, hkind]

theorem formed_of_readObject? {limit : Nat} {bytes : List UInt8} {members : Members}
    (h : readObject? limit bytes = .ok (some members)) : Everywhere IsFormed (.object members) := by
  unfold readObject? at h
  split at h
  · cases h
  · split at h
    · next value hparse =>
      have hformed := formed_of_parseWithin hparse
      cases value with
      | object _ =>
        cases h
        exact hformed
      | _ => cases h
    all_goals cases h

/-! ### Steps on the disk -/

section Steps

variable {tree after : FileTree}

theorem onDisk_eq_ok {α : Type} {operation : Disk α} {a : α} :
    onDisk operation tree = .ok a after ↔ operation tree = .ok a after := by
  unfold onDisk
  cases operation tree <;> simp

theorem counting_eq_ok {α : Type} {result : Except IntegerFault α} {a : α}
    (h : counting result tree = .ok a after) : result = .ok a ∧ after = tree := by
  cases result with
  | ok a' =>
    cases h
    exact ⟨rfl, rfl⟩
  | error e => cases h

def settingsFile (dir : Path) : Path := dir.child "settings.json"

/-- A value is written where its pieces have UTF-8 forms and the file is written. -/
theorem writeValue_eq_ok_iff {file : Path} {value : Json} :
    writeValue true file value tree = .ok () after ↔ AreSound value.linePieces ∧
      Disk.write file (Utf8.encode (String.ofList (charsOf value.linePieces))) tree =
        .ok () after := by
  unfold writeValue
  constructor
  · intro h
    obtain ⟨written, mid, hwrite, hend⟩ := exists_of_bind_ok h
    rw [onDisk_eq_ok] at hwrite
    cases hwritten : Disk.write file (encodePieces value.linePieces).1 tree with
    | error e _ =>
      rw [if_pos rfl, map_of_error hwritten] at hwrite
      cases hwrite
    | ok _ later =>
      rw [if_pos rfl, map_of_ok hwritten] at hwrite
      cases hwrite
      cases hencode : (encodePieces value.linePieces).2 with
      | some e =>
        rw [hencode] at hend
        cases hend
      | none =>
        rw [hencode] at hend
        cases hend
        have hsound := areSound_of_encodePieces hencode
        rw [encodePieces_of_sound hsound] at hwritten
        exact ⟨hsound, hwritten⟩
  · rintro ⟨hsound, hwrite⟩
    rw [encodePieces_of_sound hsound]
    have hwritten := onDisk_eq_ok.mpr (map_of_ok hwrite some)
    exact bind_of_ok hwritten _

theorem save_eq_ok_iff {dir : Path} {settings : Members} :
    save dir settings tree = .ok () after ↔ ∃ n mid, normalise settings dir.text = .ok n ∧
      Disk.makeDirectories dir tree = .ok () mid ∧ AreSound (linePieces (.object n)) ∧
      Disk.write (settingsFile dir) (contents n) mid = .ok () after := by
  unfold save
  constructor
  · intro h
    obtain ⟨n, start, hcounting, hrest⟩ := exists_of_bind_ok h
    obtain ⟨hn, rfl⟩ := counting_eq_ok hcounting
    obtain ⟨_, mid, hmade, hlast⟩ := exists_of_bind_ok hrest
    obtain ⟨hsound, hwrite⟩ := writeValue_eq_ok_iff.mp hlast
    exact ⟨n, mid, hn, onDisk_eq_ok.mp hmade, hsound, hwrite⟩
  · rintro ⟨n, mid, hn, hmade, hsound, hwrite⟩
    rw [hn]
    exact (bind_of_ok (onDisk_eq_ok.mpr hmade) _).trans
      (writeValue_eq_ok_iff.mpr ⟨hsound, hwrite⟩)

/-- A load reads the first file that holds an object, and reports unknown keys. -/
theorem load_eq_ok {env : Environment} {dir : Path} {loaded : Members}
    (h : load env dir tree = .ok loaded after) : ∃ given mid,
      readFirst env.nestingLimit (WorkingDir.settingsFiles env dir) tree = .ok given mid ∧
      normalise given dir.text = .ok loaded ∧ reportUnknown env dir loaded mid = .ok () after := by
  unfold load at h
  obtain ⟨given, mid, hread, hnormalise⟩ := exists_of_bind_ok h
  obtain ⟨n, start, hcounting, hreport⟩ := exists_of_bind_ok hnormalise
  obtain ⟨hn, rfl⟩ := counting_eq_ok hcounting
  obtain ⟨_, later, hreported, hlast⟩ := exists_of_bind_ok hreport
  cases hlast
  exact ⟨given, start, hread, hn, hreported⟩

theorem update_eq_ok {env : Environment} {dir : Path} {values : Members}
    (h : update env dir values tree = .ok () after) : ∃ before mid,
      load env dir tree = .ok before mid ∧ save dir (before.putAll values) mid = .ok () after := by
  unfold update at h
  split at h
  · cases h
  · exact exists_of_bind_ok h

/-! ### Reading -/

/-- Of a file that holds an object, nothing after it is read. -/
theorem readFirst_of_find (limit : Nat) {file : Path} (others : List Path) {bytes : List UInt8}
    (h : tree.find file = .ok (.file bytes)) : readFirst limit (file :: others) tree =
      match readObject? limit bytes with
      | .error e => .error e tree
      | .ok (some members) => .ok members tree
      | .ok none => readFirst limit others tree := by
  have hread : onDisk (Disk.attempt (Disk.read file)) tree = .ok (some bytes) tree := by
    rw [onDisk_eq_ok, Disk.attempt, Disk.read_of_find h]
  rw [readFirst, bind_of_ok hread]
  dsimp only
  cases hobject : readObject? limit bytes with
  | error e => rfl
  | ok found => cases found <;> rfl

theorem formed_of_readFirst {limit : Nat} {files : List Path} {given : Members}
    (h : readFirst limit files tree = .ok given after) : Everywhere IsFormed (.object given) := by
  induction files generalizing tree with
  | nil =>
    cases h
    exact isKeyed_isFormed.everywhere_nil
  | cons file others ih =>
    rw [readFirst] at h
    obtain ⟨found, mid, -, hrest⟩ := exists_of_bind_ok h
    cases found with
    | none => exact ih hrest
    | some bytes =>
      dsimp only at hrest
      cases hobject : readObject? limit bytes with
      | error e =>
        rw [hobject] at hrest
        cases hrest
      | ok members? =>
        rw [hobject] at hrest
        cases members? with
        | none => exact ih hrest
        | some members =>
          cases hrest
          exact formed_of_readObject? hobject

theorem formed_of_load {env : Environment} {dir : Path} {loaded : Members}
    (h : load env dir tree = .ok loaded after) : Everywhere IsFormed (.object loaded) := by
  obtain ⟨given, mid, hread, hn, -⟩ := load_eq_ok h
  exact everywhere_normalise isKeyed_isFormed (fun _ => trivial) isRegular_defaults.formed
    (formed_of_readFirst hread) hn

/-! ### Reports -/

theorem spares_writeValue {file : Path} {value : Json} {place : List String}
    (hplace : ∀ filled, tree.follow file = .ok filled → filled ≠ place)
    (h : writeValue false file value tree = .ok () after) : Spares place tree after := by
  unfold writeValue at h
  obtain ⟨written, mid, hwrite, hend⟩ := exists_of_bind_ok h
  have hmid : after = mid := by
    cases written with
    | none =>
      cases hend
      rfl
    | some _ =>
      cases hencode : (encodePieces value.linePieces).2 with
      | none =>
        rw [hencode] at hend
        cases hend
        rfl
      | some e =>
        rw [hencode] at hend
        cases hend
  rw [onDisk_eq_ok, if_neg Bool.false_ne_true, Disk.attempt] at hwrite
  rw [hmid]
  split at hwrite
  · next hwritten =>
    cases hwrite
    obtain ⟨filled, hfollow, hfilled, rfl, -⟩ := Disk.find_of_write hwritten
    exact spares_put hfilled (hplace filled hfollow) _
  · next hfailed =>
    cases hwrite
    rw [Disk.write_eq] at hfailed
    split at hfailed <;> cases hfailed
    exact .refl place tree

/-- A report changes what stands at its own place alone. -/
theorem spares_reportUnknown {env : Environment} {dir : Path} {settings : Members}
    {place : List String} (hplace : place.getLast? ≠ some "settings_unknown.json")
    (h : reportUnknown env dir settings tree = .ok () after) : Spares place tree after := by
  unfold reportUnknown at h
  split at h
  · cases h
    exact .refl place tree
  · obtain ⟨_, mid, hmade, hwrite⟩ := exists_of_bind_ok h
    refine (Disk.spares_makeDirectories (onDisk_eq_ok.mp hmade) place).trans
      (spares_writeValue (fun filled hfollow he => hplace ?_) hwrite)
    rw [← he]
    exact getLast?_of_follow (by decide) hfollow

end Steps

/-! ### Settings that were saved -/

/-- The values of which everything but their texts is read back. -/
def IsReadable (v : Json) : Prop := IsFormed v ∧ HasText v

theorem readable_of_isRegular {v : Json} (h : v.IsRegular) : Everywhere IsReadable v :=
  h.formed.and h.texts

theorem readable_normalise {given n : Members} {dir : String}
    (hgiven : Everywhere IsReadable (.object given)) (h : normalise given dir = .ok n) :
    Everywhere IsReadable (.object n) :=
  everywhere_normalise isKeyed_and_hasText (fun _ => ⟨trivial, trivial⟩)
    (readable_of_isRegular isRegular_defaults) hgiven h

theorem isRegular_of_pieces {n : Members} (h : Everywhere IsReadable (.object n))
    (hsound : AreSound (linePieces (.object n))) : Json.IsRegular (.object n) :=
  ⟨h.imp fun _ hv => hv.1, h.imp fun _ hv => hv.2, sound_of_pieces _ hsound⟩

/-- Settings stand in the file of a working directory. -/
structure HoldsSettings (dir : Path) (n : Members) (tree : FileTree) : Prop where
  directory : tree.isDirectory dir = true
  file : tree.find (settingsFile dir) = .ok (.file (contents n))

section Saved

variable {env : Environment} {dir : Path} {settings n loaded : Members}
  {tree saved after : FileTree}

theorem holdsSettings_of_write (hdirectory : tree.isDirectory dir = true)
    (h : Disk.write (settingsFile dir) (contents n) tree = .ok () after) :
    HoldsSettings dir n after := by
  obtain ⟨place, -, hplace, rfl, hfind⟩ := Disk.find_of_write h
  exact ⟨isDirectory_keeps (put_keeps hplace _) hdirectory, hfind⟩

/-- A save leaves the normal form of the settings in their file. -/
theorem holdsSettings_of_save (h : save dir settings tree = .ok () saved) :
    ∃ n, normalise settings dir.text = .ok n ∧ AreSound (linePieces (.object n)) ∧
      HoldsSettings dir n saved := by
  obtain ⟨n, mid, hn, hmade, hsound, hwrite⟩ := save_eq_ok_iff.mp h
  exact ⟨n, hn, hsound, holdsSettings_of_write (Disk.isDirectory_of_makeDirectories hmade) hwrite⟩

/-- Where settings were saved, settings with a UTF-8 form can be saved. -/
theorem HoldsSettings.save (h : HoldsSettings dir loaded tree)
    (hn : normalise settings dir.text = .ok n) (hsound : AreSound (linePieces (.object n))) :
    ∃ again, save dir settings tree = .ok () again ∧ HoldsSettings dir n again := by
  obtain ⟨again, hwrite⟩ := Disk.write_of_find h.file (contents n)
  have hmade := Disk.makeDirectories_of_isDirectory h.directory
  exact ⟨again, save_eq_ok_iff.mpr ⟨n, tree, hn, hmade, hsound, hwrite⟩,
    holdsSettings_of_write h.directory hwrite⟩

/-- Settings without unknown keys are loaded, and the tree stays as it is. -/
theorem load_of_readFirst {given : Members}
    (hread : readFirst env.nestingLimit (WorkingDir.settingsFiles env dir) tree = .ok given tree)
    (hn : normalise given dir.text = .ok n) (hknown : (unknownKeys schema n).isEmpty) :
    load env dir tree = .ok n tree := by
  have hreport : reportUnknown env dir n tree = .ok () tree := by
    rw [reportUnknown, if_pos hknown]
    rfl
  rw [load, bind_of_ok hread, hn]
  exact bind_of_ok hreport _

/-- The normal form of settings is loaded from their file, where it is not nested too deep and all
its keys are known. -/
theorem HoldsSettings.exists_load (h : HoldsSettings dir n tree)
    (hgiven : Everywhere IsReadable (.object settings)) (hn : normalise settings dir.text = .ok n)
    (hsound : AreSound (linePieces (.object n))) (hknown : (unknownKeys schema n).isEmpty)
    (env : Environment) (hfits : nesting (.object n) ≤ env.nestingLimit) :
    load env dir tree = .ok n tree := by
  have hnormal : IsNormal n := isNormal_normalise (hgiven.imp fun _ hv => hv.1) hn
  have hregular := isRegular_of_pieces (readable_normalise hgiven hn) hsound
  have hread : readFirst env.nestingLimit (WorkingDir.settingsFiles env dir) tree = .ok n tree := by
    have hfirst := readFirst_of_find env.nestingLimit
      [env.project.child "settings.json"] h.file
    rwa [(readObject?_contents hregular _).1 hfits] at hfirst
  exact load_of_readFirst hread (hnormal.normalise _) hknown

/-- Normal settings are loaded as they are, and stay in their file. -/
theorem HoldsSettings.load (h : HoldsSettings dir n tree) (hnormal : IsNormal n)
    (hregular : Json.IsRegular (.object n)) (hload : load env dir tree = .ok loaded after) :
    loaded = n ∧ HoldsSettings dir n after := by
  obtain ⟨given, mid, hread, hn, hreport⟩ := load_eq_ok hload
  obtain ⟨hshallow, hdeep⟩ := readObject?_contents hregular env.nestingLimit
  have hfirst := readFirst_of_find env.nestingLimit
    [env.project.child "settings.json"] h.file
  change readFirst env.nestingLimit (settingsFile dir :: _) tree = _ at hread
  rw [hfirst] at hread
  by_cases hfits : nesting (.object n) ≤ env.nestingLimit
  · rw [hshallow hfits] at hread
    obtain ⟨rfl, rfl⟩ := EStateM.Result.ok.inj hread
    rw [hnormal.normalise] at hn
    obtain rfl := Except.ok.inj hn
    -- A report may be written, but into a file of another name.
    obtain ⟨place, hfollow, hnode⟩ := find_iff.mp h.file
    have hlast : place.getLast? ≠ some "settings_unknown.json" := by
      rw [getLast?_of_follow (by decide) hfollow]
      decide
    have hspares := spares_reportUnknown hlast hreport
    exact ⟨rfl, isDirectory_keeps hspares.keeps h.directory, hspares.find hfollow h.file⟩
  · obtain ⟨kind, hkind⟩ := hdeep hfits
    rw [hkind] at hread
    cases hread

/-- What is loaded after a save is the normal form of what was saved, and saving it again leaves the
bytes in the file as they are. -/
theorem load_save (hgiven : Everywhere IsReadable (.object settings))
    (hsave : save dir settings tree = .ok () saved)
    (hload : load env dir saved = .ok loaded after) :
    normalise settings dir.text = .ok loaded ∧ HoldsSettings dir loaded saved ∧
      ∃ again, save dir loaded after = .ok () again ∧ HoldsSettings dir loaded again := by
  obtain ⟨n, hn, hsound, hholds⟩ := holdsSettings_of_save hsave
  have hnormal : IsNormal n := isNormal_normalise (hgiven.imp fun _ hv => hv.1) hn
  have hregular := isRegular_of_pieces (readable_normalise hgiven hn) hsound
  obtain ⟨rfl, hafter⟩ := hholds.load hnormal hregular hload
  exact ⟨hn, hholds, hafter.save (hnormal.normalise _) hsound⟩

end Saved

/-! ### Settings survive -/

/-- Settings of which every part is read back survive a save and a load.  They have a normal form,
unless their version is infinite, and that form is its own.  It is what is loaded after they are
saved, and saving it again leaves the bytes in the file as they are.  After an update, what is
loaded is the normal form of what was loaded before, with the given values under their keys, of
which new ones come last. -/
theorem settings_survive (env : Environment) (dir : Path) (tree : FileTree)
    {settings values : Members} (hsettings : Everywhere IsReadable (.object settings))
    (hvalues : Everywhere IsReadable (.object values)) :
    (HasFiniteVersion settings →
      ∃ n, normalise settings dir.text = .ok n ∧ normalise n dir.text = .ok n) ∧
    (∀ saved loaded after, save dir settings tree = .ok () saved →
      load env dir saved = .ok loaded after →
      normalise settings dir.text = .ok loaded ∧
      ∃ bytes again, saved.find (settingsFile dir) = .ok (.file bytes) ∧
        save dir loaded after = .ok () again ∧
        again.find (settingsFile dir) = .ok (.file bytes)) ∧
    (∀ updated loaded after, update env dir values tree = .ok () updated →
      load env dir updated = .ok loaded after →
      ∃ before mid, load env dir tree = .ok before mid ∧
        (Everywhere HasText (.object before) →
          normalise (before.putAll values) dir.text = .ok loaded) ∧
        (before.putAll values).keys =
          before.keys ++ values.keys.filter (fun key => !before.has key) ∧
        ∀ key, (before.putAll values).get? key = (values.get? key).or (before.get? key)) := by
  refine ⟨fun hversion => ?_, fun saved loaded after hsave hload => ?_,
    fun updated loaded after hupdate hload => ?_⟩
  · obtain ⟨n, hn⟩ := exists_normalise hversion dir.text
    have hnormal : IsNormal n := isNormal_normalise (hsettings.imp fun _ hv => hv.1) hn
    exact ⟨n, hn, hnormal.normalise _⟩
  · obtain ⟨hn, hsaved, again, hsave', hagain⟩ := load_save hsettings hsave hload
    exact ⟨hn, contents loaded, again, hsaved.file, hsave', hagain.file⟩
  · obtain ⟨before, mid, hbefore, hsave⟩ := update_eq_ok hupdate
    have hkeys : values.keys.Nodup := hvalues.here.1
    refine ⟨before, mid, hbefore, fun htexts => ?_, Members.keys_putAll before hkeys,
      Members.get?_putAll before hkeys⟩
    have hreadable := isKeyed_and_hasText.everywhere_putAll
      ((formed_of_load hbefore).and htexts) hvalues
    exact (load_save hreadable hsave hload).1

/-- A path of the database from an older version is kept, and a level of the log is set. -/
theorem settings_survive_sample :
    let env : Environment := {
      bindings := []
      project := .ofText "/opt/catalogue"
      processId := 1
      clock := .ofInt 0
      nestingLimit := 100 }
    let dir := Path.ofText "/catalogue"
    let tree : FileTree := ⟨[], [(["catalogue"], .directory)]⟩
    let settings : Members := [("database_path", .text "old.db")]
    let values : Members := [("logging", .object [("level", .text "DEBUG")])]
    let loaded (level : String) : Members :=
      [("version", .int 1),
        ("database", .object [("path", .text "old.db"), ("timeout_s", .real (.ofInt 5))]),
        ("api", .object [("host", .text "127.0.0.1"), ("port", .int 8080),
          ("cors_origins", .list [.text "http://localhost", .text "http://127.0.0.1"])]),
        ("logging", .object [("level", .text level), ("json", .bool false)]),
        ("working_dir", .text "/catalogue")]
    ∃ saved updated bytes again, save dir settings tree = .ok () saved ∧
      load env dir saved = .ok (loaded "INFO") saved ∧
      normalise settings dir.text = .ok (loaded "INFO") ∧
      normalise (loaded "INFO") dir.text = .ok (loaded "INFO") ∧
      saved.find (settingsFile dir) = .ok (.file bytes) ∧
      save dir (loaded "INFO") saved = .ok () again ∧
      again.find (settingsFile dir) = .ok (.file bytes) ∧
      update env dir values saved = .ok () updated ∧
      load env dir updated = .ok (loaded "DEBUG") updated ∧
      normalise ((loaded "INFO").putAll values) dir.text = .ok (loaded "DEBUG") := by
  intro env dir tree settings values loaded
  have hsettings : Everywhere IsReadable (.object settings) := by
    refine readable_of_isRegular (isRegular_object (by decide) ?_)
    simp only [settings, List.mem_singleton, forall_eq]
    exact ⟨⟨_, rfl⟩, isRegular_text _⟩
  have hvalues : Everywhere IsReadable (.object values) := by
    refine readable_of_isRegular (isRegular_object (by decide) ?_)
    simp only [values, List.mem_singleton, forall_eq]
    refine ⟨⟨_, rfl⟩, isRegular_object (by decide) ?_⟩
    simp only [List.mem_singleton, forall_eq]
    exact ⟨⟨_, rfl⟩, isRegular_text _⟩
  have hversion : HasFiniteVersion settings := nofun
  have hfirst : normalise settings dir.text = .ok (loaded "INFO") := rfl
  have hsecond : normalise ((loaded "INFO").putAll values) dir.text = .ok (loaded "DEBUG") := rfl
  have hbefore := readable_normalise hsettings hfirst
  have hsound : AreSound (linePieces (.object (loaded "INFO"))) := by decide +kernel
  have hsoundAfter : AreSound (linePieces (.object (loaded "DEBUG"))) := by decide +kernel
  -- The first save finds the directory, but no file.
  have hdirectory : tree.isDirectory dir = true := rfl
  have hwritable : tree.writable? (settingsFile dir) = .ok ["catalogue", "settings.json"] := rfl
  obtain ⟨saved, hwrite⟩ : ∃ saved,
      Disk.write (settingsFile dir) (contents (loaded "INFO")) tree = .ok () saved := by
    rw [Disk.write_eq, hwritable]
    exact ⟨_, rfl⟩
  have hsave : save dir settings tree = .ok () saved := save_eq_ok_iff.mpr
    ⟨_, tree, hfirst, Disk.makeDirectories_of_isDirectory hdirectory, hsound, hwrite⟩
  have hholds := holdsSettings_of_write hdirectory hwrite
  have hload := hholds.exists_load hsettings hfirst hsound (by decide +kernel) env (by decide)
  obtain ⟨updated, hresaved, hholdsAfter⟩ := hholds.save hsecond hsoundAfter
  have hupdate : update env dir values saved = .ok () updated :=
    (bind_of_ok hload _).trans hresaved
  have hloadAfter := hholdsAfter.exists_load
    (isKeyed_and_hasText.everywhere_putAll hbefore hvalues) hsecond hsoundAfter
    (by decide +kernel) env (by decide)
  obtain ⟨hidempotent, hsurvives, -⟩ := settings_survive env dir tree hsettings hvalues
  obtain ⟨-, -, hupdated⟩ := settings_survive env dir saved hsettings hvalues
  obtain ⟨n, hn, hagain⟩ := hidempotent hversion
  obtain rfl : loaded "INFO" = n := Except.ok.inj (hfirst.symm.trans hn)
  obtain ⟨hloaded, bytes, again, hbytes, hsaveAgain, hbytesAgain⟩ :=
    hsurvives saved _ _ hsave hload
  obtain ⟨before, mid, hloadBefore, hputAll, -⟩ := hupdated updated _ _ hupdate hloadAfter
  obtain ⟨rfl, rfl⟩ : loaded "INFO" = before ∧ saved = mid :=
    EStateM.Result.ok.inj (hload.symm.trans hloadBefore)
  exact ⟨saved, updated, bytes, again, hsave, hload, hloaded, hagain, hbytes, hsaveAgain,
    hbytesAgain, hupdate, hloadAfter, hputAll (hbefore.imp fun _ hv => hv.2)⟩

end Catalogue.Settings
