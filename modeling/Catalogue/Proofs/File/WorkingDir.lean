import Catalogue.File.WorkingDir
import Catalogue.Proofs.File.Expansion
import Catalogue.Proofs.File.Growth

/-! The search for a working directory.  It takes the first candidate in which the directory and its
place for data can be made and a probe can be written and taken away, and else the directory where
the program is installed.  What it leaves is a tree in which that directory and its place for data
are there, every file has its contents but one that stood at the place of a probe, and no file is
new but a probe that the device does not let be taken away. -/

namespace Catalogue

open FileTree Number Text

/-! ### Making directories -/

namespace FileTree

variable {tree mid after : FileTree} {path dir : Path} {place hole : List String} {node : Node}
  {name : String} {device : Device}

/-- A change of a tree that keeps the directories, and changes files and takes them away at the
places of some paths alone.  A file that is there in the end was there before, or stands at such a
place and the device does not let it be taken away. -/
structure Tidies (device : Device) (probes : List Path) (tree after : FileTree) : Prop where
  keeps : tree.Keeps after
  no_new {place : List String} {node : Node} : after.node? place = some node →
    node.isDirectory = false →
    (∃ old, tree.node? place = some old ∧ old.isDirectory = false) ∨
      device.removes place = false ∧ ∃ file ∈ probes, after.follow file = .ok place
  same {place : List String} {node : Node} : tree.node? place = some node →
    (∀ file ∈ probes, after.follow file ≠ .ok place) → after.node? place = some node

theorem Tidies.refl (device : Device) (tree : FileTree) : Tidies device [] tree tree :=
  ⟨(SameDirectories.refl tree).keeps, fun h hfile => .inl ⟨_, h, hfile⟩, fun h _ => h⟩

theorem Tidies.trans {probes others : List Path} (h : Tidies device probes tree mid)
    (h' : Tidies device others mid after) : Tidies device (probes ++ others) tree after := by
  refine ⟨h.keeps.trans h'.keeps, fun hnode hfile => ?_, fun hnode hprobes => ?_⟩
  · rcases h'.no_new hnode hfile with ⟨old, hold, holdFile⟩ | ⟨hheld, file, hother, hfollow⟩
    · rcases h.no_new hold holdFile with hbefore | ⟨hheld, file, hprobe, hfollow⟩
      · exact .inl hbefore
      · exact .inr ⟨hheld, file, List.mem_append_left _ hprobe, follow_keeps h'.keeps hfollow⟩
    · exact .inr ⟨hheld, file, List.mem_append_right _ hother, hfollow⟩
  · obtain ⟨hfirst, hrest⟩ := List.forall_mem_append.mp hprobes
    -- A probe that has its place already has the same place in the end.
    refine h'.same (h.same hnode fun file hfile hfollow => ?_) hrest
    exact hfirst file hfile (follow_keeps h'.keeps hfollow)

theorem Tidies.weaken {probes others : List Path} (h : Tidies device probes tree after)
    (hprobes : probes ⊆ others) : Tidies device others tree after := by
  refine ⟨h.keeps, fun hnode hfile => ?_, fun hnode hnone => ?_⟩
  · refine (h.no_new hnode hfile).imp_right ?_
    rintro ⟨hheld, file, hprobe, hfollow⟩
    exact ⟨hheld, file, hprobes hprobe, hfollow⟩
  · exact h.same hnode fun file hfile => hnone file (hprobes hfile)

theorem tidies_makeDirectory? (h : tree.makeDirectory? path = .ok after) :
    Tidies device [] tree after := by
  obtain ⟨made, -, hempty, rfl⟩ := makeDirectory?_eq_ok h
  have hmade := not_hasDirectory_of_empty hempty
  refine ⟨put_keeps hmade .directory, fun {place node} hnode hfile => ?_,
    fun {place node} hnode _ => ?_⟩
  · rw [node?_put (ne_nil_of_not_hasDirectory hmade)] at hnode
    split at hnode
    · cases hnode
      cases hfile
    · exact .inl ⟨node, hnode, hfile⟩
  · rw [node?_put (ne_nil_of_not_hasDirectory hmade), if_neg ?_]
    · exact hnode
    · rintro rfl
      rw [hempty] at hnode
      cases hnode

theorem Built.tidies (h : Built tree after) : Tidies device [] tree after := by
  induction h with
  | refl tree => exact .refl device tree
  | step made _ ih => exact (tidies_makeDirectory? made).trans ih

theorem exists_makeDirectory?_iff : (∃ other, tree.makeDirectory? path = .ok other) ↔
    ∃ place, tree.follow path = .ok place ∧ tree.node? place = none ∧
      tree.isFree place = true := by
  unfold makeDirectory?
  cases tree.follow path with
  | error e => simp [bind, Except.bind]
  | ok place =>
    cases hnode : tree.node? place with
    | some node => simp [bind, Except.bind, hnode, throw, throwThe, MonadExceptOf.throw]
    | none =>
      cases hfree : tree.isFree place <;>
        simp [bind, Except.bind, hnode, hfree, throw, throwThe, MonadExceptOf.throw, pure,
          Except.pure]

/-- Two trees have the same directories and differ at one place at most, where neither of them has
a directory. -/
structure DiffersAt (hole : List String) (tree other : FileTree) : Prop where
  same : tree.SameDirectories other
  here : ¬tree.HasDirectory hole
  nodes {place : List String} : place ≠ hole → other.node? place = tree.node? place

theorem DiffersAt.symm {other : FileTree} (h : DiffersAt hole tree other) :
    DiffersAt hole other tree where
  same := ⟨h.same.here.symm, fun place => (h.same.directories place).symm⟩
  here := fun hhole => h.here ((h.same.directories hole).mp hhole)
  nodes := fun hplace => (h.nodes hplace).symm

/-- A file of another name in a directory does not matter to a directory that is to be made
there. -/
theorem DiffersAt.makeDirectory? {other : FileTree} (h : DiffersAt hole tree other)
    (hname : name ≠ "..") (hhole : hole.getLast? ≠ some name)
    (hmade : ∃ made, tree.makeDirectory? (dir.child name) = .ok made) :
    ∃ made, other.makeDirectory? (dir.child name) = .ok made := by
  rw [exists_makeDirectory?_iff] at hmade ⊢
  obtain ⟨place, hfollow, hempty, hfree⟩ := hmade
  obtain ⟨above, habove, rfl⟩ := follow_child hname hfollow
  have hplace : above ++ [name] ≠ hole := by
    rintro rfl
    exact hhole List.getLast?_concat
  have habove' : above ≠ hole := by
    rintro rfl
    exact h.here habove
  refine ⟨_, follow_keeps h.same.keeps hfollow, (h.nodes hplace).trans hempty, ?_⟩
  rw [isFree, List.dropLast_concat, h.nodes habove']
  rwa [isFree, List.dropLast_concat] at hfree

end FileTree

namespace Disk

variable {tree after : FileTree} {path dir : Path} {name : String}

/-- Below a directory one directory is all that is made. -/
theorem makeDirectories_child (h : tree.isDirectory dir = true) :
    makeDirectories (dir.child name) tree = ensureDirectory (dir.child name) tree := by
  have hnames : (dir.child name).names.reverse = name :: dir.names.reverse := List.reverse_concat
  have hpath : (⟨dir.root, (name :: dir.names.reverse).reverse⟩ : Path) = dir.child name := by
    rw [Path.child, List.reverse_cons, List.reverse_reverse]
  have habove : makeDirectoriesFrom dir.root dir.names.reverse tree = .ok () tree :=
    makeDirectories_of_isDirectory h
  show makeDirectoriesFrom dir.root (dir.child name).names.reverse tree = _
  rw [hnames, makeDirectoriesFrom_cons, hpath, ensureDirectory_eq]
  cases hmade : tree.makeDirectory? (dir.child name) with
  | ok made => rfl
  | error obstacle =>
    cases obstacle with
    | missing =>
      show (makeDirectoriesFrom dir.root dir.names.reverse >>= fun _ => _ : Disk Unit) tree = _
      rw [bind_of_ok habove, ensureDirectory_eq, hmade]
    | _ => rfl

theorem exists_ensureDirectory_iff : (∃ after, ensureDirectory path tree = .ok () after) ↔
    (∃ made, tree.makeDirectory? path = .ok made) ∨ tree.isDirectory path = true := by
  rw [ensureDirectory_eq]
  cases tree.makeDirectory? path with
  | ok made => simp
  | error obstacle => cases tree.isDirectory path <;> simp

/-- A file of another name in a directory does not matter to a directory that is to be there. -/
theorem exists_makeDirectories_child_iff {hole : List String} {other : FileTree}
    (h : DiffersAt hole tree other) (hname : name ≠ "..") (hhole : hole.getLast? ≠ some name)
    (hdir : tree.isDirectory dir = true) :
    (∃ after, makeDirectories (dir.child name) other = .ok () after) ↔
      ∃ after, makeDirectories (dir.child name) tree = .ok () after := by
  have hback := h.symm
  rw [makeDirectories_child hdir, makeDirectories_child (isDirectory_keeps h.same.keeps hdir),
    exists_ensureDirectory_iff, exists_ensureDirectory_iff]
  refine or_congr ⟨hback.makeDirectory? hname hhole, h.makeDirectory? hname hhole⟩ ?_
  exact ⟨isDirectory_keeps hback.same.keeps, isDirectory_keeps h.same.keeps⟩

end Disk

namespace WorkingDir

open Disk

variable {env : Environment} {tree made after : FileTree} {dir : Path} {place here : List String}
  {bytes : List UInt8}

/-! ### The candidates -/

/-- The directory below the home directory; none where that is not known, so that its text still
starts with `~`. -/
inductive BelowHome (env : Environment) : Option Path → Prop
  | known {home : String} (expands : env.ExpandsHome "~" home)
      (known : home.toList.head? ≠ some '~') :
      BelowHome env (some ((Path.ofText home).child defaultName))
  | unknown {home : String} (expands : env.ExpandsHome "~" home)
      (unknown : home.toList.head? = some '~') : BelowHome env none

/-- The directories that are offered: the one that the variable names, if it has a value, with the
home directory and then the values of variables in their places, seen from the root and without
`..`; and the one below the home directory. -/
inductive Offers (env : Environment) (here : List String) : List (Option Path) → Prop
  | unnamed {home? : Option Path} (unset : ∀ s ∈ env.get? homeVariable, s = "")
      (home : BelowHome env home?) : Offers env here [home?]
  | named {home? : Option Path} {s atHome expanded : String}
      (set : env.get? homeVariable = some s) (nonempty : s ≠ "")
      (expandsHome : env.ExpandsHome s atHome)
      (expands : env.Expands atHome.toList expanded.toList) (home : BelowHome env home?) :
      Offers env here [some ((Path.ofText expanded).resolve here), home?]

theorem belowHome (env : Environment) :
    BelowHome env (((Path.ofText "~").expandHome env).toOption.map (·.child defaultName)) := by
  have hpath : Path.ofText "~" = ⟨.relative, ["~"]⟩ := by decide
  rw [hpath, Path.expandHome]
  dsimp only
  rw [if_neg (by decide), if_neg (by decide)]
  split
  · next hunknown => exact .unknown (Environment.expandsHome env "~") hunknown
  · next hknown =>
    have hhome : (Path.ofText (env.expandHome "~")).append ⟨.relative, []⟩ =
        Path.ofText (env.expandHome "~") := by
      rw [Path.append, if_pos rfl, List.append_nil]
    rw [hhome]
    exact .known (Environment.expandsHome env "~") hknown

theorem offers_candidates (env : Environment) (here : List String) :
    Offers env here (candidates env here) := by
  unfold candidates
  dsimp only
  cases hvalue : env.get? homeVariable with
  | none => exact .unnamed (by simp [hvalue]) (belowHome env)
  | some s =>
    dsimp only
    by_cases hempty : s = ""
    · rw [if_pos hempty]
      exact .unnamed (by simp [hvalue, hempty]) (belowHome env)
    · rw [if_neg hempty]
      exact .named hvalue hempty (Environment.expandsHome env s) (Environment.expands_iff.mpr rfl)
        (belowHome env)

/-! ### One candidate -/

/-- A probe was written and taken away again. -/
def probed (place : List String) (bytes : List UInt8) (tree : FileTree) : FileTree :=
  (tree.put place (.file bytes)).remove place

theorem probe_ne (env : Environment) {name : String} (hname : name.length < 12) :
    ".write_test_" ++ natText env.processId ≠ name := by
  rintro rfl
  rw [String.length_append] at hname
  exact absurd hname (Nat.not_lt.mpr (Nat.le_add_right 12 _))

theorem differsAt_probed (h : ¬tree.HasDirectory place) :
    DiffersAt place tree (probed place bytes tree) := by
  have hroot := ne_nil_of_not_hasDirectory h
  have hput : tree.SameDirectories (tree.put place (.file bytes)) := put_same h rfl
  refine ⟨hput.trans (remove_same (mt (hput.directories place).mp h)), h, fun hne => ?_⟩
  rw [probed, node?_remove hroot, if_neg hne, node?_put hroot, if_neg hne]

theorem tidies_probed {file : Path} (hfollow : tree.follow file = .ok place)
    (h : ¬tree.HasDirectory place) :
    Tidies env.device [file] tree (probed place bytes tree) := by
  have hdiffers : DiffersAt place tree (probed place bytes tree) := differsAt_probed h
  have hgone : (probed place bytes tree).node? place = none := by
    rw [probed, node?_remove (ne_nil_of_not_hasDirectory h), if_pos rfl]
  refine ⟨hdiffers.same.keeps, fun {at_ node} hnode hfile => ?_, fun {at_ node} hnode hprobe => ?_⟩
  · by_cases hat : at_ = place
    · rw [hat, hgone] at hnode
      cases hnode
    · exact .inl ⟨node, (hdiffers.nodes hat).symm.trans hnode, hfile⟩
  · have hat : at_ ≠ place := by
      rintro rfl
      exact hprobe file (List.mem_singleton_self file) (follow_keeps hdiffers.same.keeps hfollow)
    exact (hdiffers.nodes hat).trans hnode

/-- A probe that stays was a file before, or the device does not let it be taken away: in a sealed
directory nothing can be made. -/
theorem tidies_kept {file : Path} (hwritable : tree.writable? file = .ok place)
    (hkept : env.device.erases tree place = false) :
    Tidies env.device [file] tree (tree.put place (.file bytes)) := by
  obtain ⟨hfollow, hplace⟩ := DatabaseFile.not_hasDirectory_of_writable? hwritable
  have hroot := ne_nil_of_not_hasDirectory hplace
  have hkeeps := put_keeps hplace (.file bytes)
  have hfollow' := follow_keeps hkeeps hfollow
  refine ⟨hkeeps, fun {at_ node} hnode hfile => ?_, fun {at_ node} hnode hprobe => ?_⟩
  · rw [node?_put hroot] at hnode
    by_cases hat : at_ = place
    · subst hat
      cases hold : tree.node? at_ with
      | some old =>
        refine .inl ⟨old, rfl, ?_⟩
        by_contra hdirectory
        exact hplace ⟨old, hold, Bool.of_not_eq_false hdirectory⟩
      | none =>
        have hfree := isFree_of_writable? hwritable hold
        rw [Device.erases, hfree, Bool.true_and] at hkept
        exact .inr ⟨hkept, file, List.mem_singleton_self file, hfollow'⟩
    · rw [if_neg hat] at hnode
      exact .inl ⟨node, hnode, hfile⟩
  · have hat : at_ ≠ place := by
      rintro rfl
      exact hprobe file (List.mem_singleton_self file) hfollow'
    rw [node?_put hroot, if_neg hat]
    exact hnode

/-- What becomes of a probe: it cannot be written at all, or it is taken away whether the device
took its bytes or not, or it stays. -/
inductive Probing (env : Environment) (dir : Path) (tree : FileTree) : Bool → FileTree → Prop
  | unwritable (none : ∀ place, tree.writable? (probe env dir) ≠ .ok place) :
      Probing env dir tree false tree
  | removed {place : List String} {bytes : List UInt8} {fits : Bool}
      (writable : tree.writable? (probe env dir) = .ok place)
      (stores : env.device.stores place = fits)
      (erased : env.device.erases tree place = true) :
      Probing env dir tree fits (probed place bytes tree)
  | kept {place : List String} {bytes : List UInt8}
      (writable : tree.writable? (probe env dir) = .ok place)
      (held : env.device.erases tree place = false) :
      Probing env dir tree false (tree.put place (.file bytes))

theorem tryProbe_of_writable (hwritable : tree.writable? (probe env dir) = .ok place)
    (hstores : env.device.stores place = true) (herases : env.device.erases tree place = true) :
    tryProbe env dir tree = .ok true (probed place (Utf8.encode "ok") tree) := by
  have hwrite := writeOn_eq env.device (probe env dir) (Utf8.encode "ok") tree
  have hremove := removeFrom_of_put env.device hwritable (Utf8.encode "ok")
  rw [hwritable] at hwrite
  dsimp only at hwrite
  rw [hstores, if_pos rfl] at hwrite
  rw [herases, if_pos rfl] at hremove
  exact bind_of_ok (attempt_of_ok ((bind_of_ok hwrite fun _ => removeFrom env.device _).trans
    hremove)) _

theorem exists_tryProbe (env : Environment) (dir : Path) (tree : FileTree) :
    ∃ fits after, tryProbe env dir tree = .ok fits after ∧ Probing env dir tree fits after := by
  have hwrite := writeOn_eq env.device (probe env dir) (Utf8.encode "ok") tree
  cases hwritable : tree.writable? (probe env dir) with
  | error obstacle =>
    obtain ⟨_, hremove⟩ := attempt_removeFrom_of_unwritable env.device hwritable
    rw [hwritable] at hwrite
    refine ⟨false, tree, ?_, .unwritable fun place h => ?_⟩
    · exact (bind_of_ok (attempt_of_error (bind_of_error hwrite _)) _).trans
        (bind_of_ok hremove _)
    · rw [hwritable] at h
      cases h
  | ok place =>
    rw [hwritable] at hwrite
    dsimp only at hwrite
    cases hstores : env.device.stores place with
    | true =>
      cases herases : env.device.erases tree place with
      | true =>
        exact ⟨true, _, tryProbe_of_writable hwritable hstores herases,
          .removed hwritable hstores herases⟩
      | false =>
        have hremove := removeFrom_of_put env.device hwritable (Utf8.encode "ok")
        rw [hstores, if_pos rfl] at hwrite
        rw [herases, if_neg Bool.false_ne_true] at hremove
        have htried := attempt_of_error ((bind_of_ok hwrite fun _ =>
          removeFrom env.device (probe env dir)).trans hremove)
        exact ⟨false, _, (bind_of_ok htried _).trans (bind_of_ok (attempt_of_error hremove) _),
          .kept hwritable herases⟩
    | false =>
      rw [hstores, if_neg Bool.false_ne_true] at hwrite
      have htried := attempt_of_error (bind_of_error hwrite fun _ =>
        removeFrom env.device (probe env dir))
      have hremove := removeFrom_of_put env.device hwritable []
      cases herases : env.device.erases tree place with
      | true =>
        rw [herases, if_pos rfl] at hremove
        exact ⟨false, _, (bind_of_ok htried _).trans (bind_of_ok (attempt_of_ok hremove) _),
          .removed hwritable hstores herases⟩
      | false =>
        rw [herases, if_neg Bool.false_ne_true] at hremove
        exact ⟨false, _, (bind_of_ok htried _).trans (bind_of_ok (attempt_of_error hremove) _),
          .kept hwritable herases⟩

theorem Probing.tidies {fits : Bool} (h : Probing env dir tree fits after) :
    Tidies env.device [probe env dir] tree after := by
  cases h with
  | unwritable => exact (Tidies.refl env.device tree).weaken (List.nil_subset _)
  | removed hwritable =>
    obtain ⟨hfollow, hplace⟩ := DatabaseFile.not_hasDirectory_of_writable? hwritable
    exact tidies_probed hfollow hplace
  | kept hwritable hheld => exact tidies_kept hwritable hheld

/-- A directory can be made with its place for data, and a probe can be written in it and taken away
again. -/
def Hosts (env : Environment) (tree : FileTree) (dir : Path) : Prop :=
  ∃ made, makeDirectories dir tree = .ok () made ∧
    (∃ place, made.writable? (probe env dir) = .ok place ∧ env.device.stores place = true ∧
      env.device.erases made place = true) ∧
    ∃ done, makeDirectories (dataDir dir) made = .ok () done

/-- Where a probe was written and taken away, the place for data can be made as it could before. -/
theorem hosts_iff_of_probed (hmade : makeDirectories dir tree = .ok () made)
    (hwritable : made.writable? (probe env dir) = .ok place)
    (hstores : env.device.stores place = true) (herases : env.device.erases made place = true) :
    Hosts env tree dir ↔
      ∃ done, makeDirectories (dataDir dir) (probed place bytes made) = .ok () done := by
  obtain ⟨hfollow, hplace⟩ := DatabaseFile.not_hasDirectory_of_writable? hwritable
  have hlast : place.getLast? ≠ some "data" := by
    rw [getLast?_of_follow (probe_ne env (by decide)) hfollow]
    exact mt Option.some.inj (probe_ne env (by decide))
  rw [dataDir, exists_makeDirectories_child_iff (differsAt_probed hplace) (by decide) hlast
    (isDirectory_of_makeDirectories hmade)]
  simp [Hosts, hmade, hwritable, hstores, herases, dataDir]

theorem Probing.eq_false_of_not_fits {fits : Bool} (h : Probing env dir made fits after)
    (hmade : makeDirectories dir tree = .ok () made) (hfits : fits = false) :
    ¬Hosts env tree dir := by
  rintro ⟨other, hother, ⟨place, hplace, hstores, herases⟩, -⟩
  rw [hmade] at hother
  cases hother
  cases h with
  | unwritable hnone => exact hnone place hplace
  | removed hwritable hfitting =>
    rw [hwritable] at hplace
    cases hplace
    rw [← hfitting, hstores] at hfits
    cases hfits
  | kept hwritable hheld =>
    rw [hwritable] at hplace
    cases hplace
    rw [hheld] at herases
    cases herases

/-- A candidate is taken if it can be prepared.  Whether it is or not, what its preparation leaves
is tidy. -/
theorem exists_prepare (env : Environment) (dir : Path) (tree : FileTree) :
    ∃ taken after, prepare env dir tree = .ok taken after ∧
      (taken = true ↔ Hosts env tree dir) ∧
      (taken = true → after.isDirectory dir = true ∧ after.isDirectory (dataDir dir) = true) ∧
      Tidies env.device [probe env dir] tree after := by
  have hbuilt : Tidies env.device [] tree ((makeDirectories dir).leaves tree) :=
    (built_makeDirectories dir tree).tidies
  cases hmade : makeDirectories dir tree with
  | error e made =>
    rw [leaves_of_error hmade] at hbuilt
    refine ⟨false, made, bind_of_ok (attempt_of_error hmade) _, ?_, nofun,
      hbuilt.weaken (List.nil_subset _)⟩
    simp [Hosts, hmade]
  | ok _ made =>
    rw [leaves_of_ok hmade] at hbuilt
    obtain ⟨fits, mid, htry, hprobing⟩ := exists_tryProbe env dir made
    have htidies := hbuilt.trans hprobing.tidies
    have hprepare : prepare env dir tree = _ :=
      (bind_of_ok (attempt_of_ok hmade) _).trans (bind_of_ok htry _)
    cases hfits : fits with
    | false =>
      subst hfits
      refine ⟨false, mid, hprepare, ?_, nofun, htidies⟩
      simpa using hprobing.eq_false_of_not_fits hmade rfl
    | true =>
      subst hfits
      have hdata : Tidies env.device [] mid ((makeDirectories (dataDir dir)).leaves mid) :=
        (built_makeDirectories (dataDir dir) mid).tidies
      have hhosts : Hosts env tree dir ↔
          ∃ done, makeDirectories (dataDir dir) mid = .ok () done := by
        cases hprobing with
        | removed hwritable hstores herases =>
          exact hosts_iff_of_probed hmade hwritable hstores herases
      cases hdone : makeDirectories (dataDir dir) mid with
      | error e done =>
        rw [leaves_of_error hdone] at hdata
        refine ⟨false, done, hprepare.trans (bind_of_ok (attempt_of_error hdone) _), ?_, nofun,
          (htidies.trans hdata).weaken (by simp)⟩
        simp [hhosts, hdone]
      | ok _ done =>
        rw [leaves_of_ok hdone] at hdata
        refine ⟨true, done, hprepare.trans (bind_of_ok (attempt_of_ok hdone) _), ?_, fun _ => ?_,
          (htidies.trans hdata).weaken (by simp)⟩
        · simp [hhosts, hdone]
        · have hkeeps := hprobing.tidies.keeps.trans hdata.keeps
          exact ⟨isDirectory_keeps hkeeps (isDirectory_of_makeDirectories hmade),
            isDirectory_of_makeDirectories hdone⟩

theorem not_hosts_of_prepare (h : prepare env dir tree = .ok false after) :
    ¬Hosts env tree dir := by
  obtain ⟨taken, _, hprepare, htaken, -⟩ := exists_prepare env dir tree
  rw [h] at hprepare
  cases hprepare
  exact fun hhosts => nomatch htaken.mpr hhosts

theorem prepare_of_writable (hmade : makeDirectories dir tree = .ok () made)
    (hwritable : made.writable? (probe env dir) = .ok place)
    (hstores : env.device.stores place = true) (herases : env.device.erases made place = true)
    (hdata : makeDirectories (dataDir dir) (probed place (Utf8.encode "ok") made) =
      .ok () after) : prepare env dir tree = .ok true after :=
  (bind_of_ok (attempt_of_ok hmade) _).trans
    ((bind_of_ok (tryProbe_of_writable hwritable hstores herases) _).trans
      (bind_of_ok (attempt_of_ok hdata) _))

/-! ### The search -/

/-- A search through some candidates ends in a directory: the first one that can be prepared when
its turn comes, or the one where the program is installed.  `tried` are the candidates up to
there. -/
inductive Settles (env : Environment) :
    FileTree → List (Option Path) → (found : Path) → (tried : List Path) → Prop
  | taken {tree : FileTree} {dir : Path} {others : List (Option Path)}
      (hosts : Hosts env tree dir) : Settles env tree (some dir :: others) dir [dir]
  | refused {tree left : FileTree} {dir found : Path} {others : List (Option Path)}
      {tried : List Path} (refuses : ¬Hosts env tree dir)
      (leaves : prepare env dir tree = .ok false left)
      (rest : Settles env left others found tried) :
      Settles env tree (some dir :: others) found (dir :: tried)
  | installed {tree : FileTree} : Settles env tree [] (env.project.child defaultName) []

theorem onDisk_eq_ok {α : Type} {operation : Disk α} {a : α} :
    onDisk operation tree = .ok a after ↔ operation tree = .ok a after := by
  unfold onDisk
  cases operation tree <;> simp

theorem firstPrepared_cons {taken : Bool} (others : List (Option Path))
    (h : prepare env dir tree = .ok taken after) :
    firstPrepared env (some dir :: others) tree =
      if taken then .ok (some dir) after else firstPrepared env others after := by
  rw [firstPrepared]
  refine (bind_of_ok (onDisk_eq_ok.mpr h) _).trans ?_
  cases taken <;> rfl

theorem settles_of_firstPrepared {candidates : List (Option Path)} {found? : Option Path}
    (h : firstPrepared env candidates tree = .ok found? after) :
    ∃ tried, Settles env tree candidates (found?.getD (env.project.child defaultName)) tried ∧
      Tidies env.device (tried.map (probe env)) tree after ∧
      ∀ dir, found? = some dir →
        after.isDirectory dir = true ∧ after.isDirectory (dataDir dir) = true := by
  induction candidates generalizing tree with
  | nil =>
    cases h
    exact ⟨[], .installed, .refl _ _, nofun⟩
  | cons candidate others ih =>
    cases candidate with
    | none => cases h
    | some dir =>
      obtain ⟨taken, mid, hprepare, htaken, hfound, htidies⟩ := exists_prepare env dir tree
      rw [firstPrepared_cons others hprepare] at h
      cases taken with
      | true =>
        cases h
        refine ⟨[dir], .taken (htaken.mp rfl), htidies, ?_⟩
        rintro _ ⟨⟩
        exact hfound rfl
      | false =>
        obtain ⟨tried, hsettles, hrest, hlater⟩ := ih h
        exact ⟨dir :: tried, .refused (fun hhosts => nomatch htaken.mpr hhosts) hprepare hsettles,
          htidies.trans hrest, hlater⟩

theorem resolve_of_firstPrepared
    (h : firstPrepared env (candidates env tree.here) tree = .ok (some dir) after) :
    resolve env tree = .ok dir after := by
  rw [resolve, get_bind]
  exact bind_of_ok h _

/-- A first candidate that can be prepared is taken. -/
theorem resolve_of_prepare (hfirst : (candidates env tree.here).head? = some (some dir))
    (h : prepare env dir tree = .ok true after) : resolve env tree = .ok dir after := by
  obtain ⟨others, hothers⟩ := List.head?_eq_some_iff.mp hfirst
  refine resolve_of_firstPrepared ?_
  rw [hothers, firstPrepared_cons others h, if_pos rfl]

/-- A second candidate that can be prepared is taken where the first one cannot. -/
theorem resolve_of_second {first : Path}
    (hboth : candidates env tree.here = [some first, some dir])
    (hfirst : prepare env first tree = .ok false made)
    (h : prepare env dir made = .ok true after) : resolve env tree = .ok dir after := by
  refine resolve_of_firstPrepared ?_
  rw [hboth, firstPrepared_cons _ hfirst, if_neg Bool.false_ne_true, firstPrepared_cons _ h,
    if_pos rfl]

end WorkingDir

end Catalogue
