import Catalogue.Proofs.Store.Sides
import Catalogue.Proofs.Store.Steps

/-! Opening a database again.  Where a database was opened, the directories above it are there and
its place holds a database, so it is opened again as long as nothing else changes the tree. -/

namespace Catalogue

open FileTree

namespace Disk

/-! ### Directories above a file -/

theorem ensureDirectory_eq (path : Path) (tree : FileTree) :
    ensureDirectory path tree = match tree.makeDirectory? path with
      | .ok other => .ok () other
      | .error obstacle =>
        if tree.isDirectory path then .ok () tree else .error ⟨obstacle, path⟩ tree := by
  rw [ensureDirectory, get_bind]
  cases tree.makeDirectory? path with
  | ok other => rfl
  | error obstacle =>
    dsimp only
    rw [get_bind]
    cases tree.isDirectory path <;> rfl

theorem makeDirectoriesFrom_cons (root : Root) (name : String) (above : List String)
    (tree : FileTree) :
    makeDirectoriesFrom root (name :: above) tree =
      match tree.makeDirectory? ⟨root, (name :: above).reverse⟩ with
      | .ok other => .ok () other
      | .error .missing =>
        (makeDirectoriesFrom root above >>= fun _ =>
          ensureDirectory ⟨root, (name :: above).reverse⟩ : Disk Unit) tree
      | .error obstacle =>
        if tree.isDirectory ⟨root, (name :: above).reverse⟩ then .ok () tree
        else .error ⟨obstacle, ⟨root, (name :: above).reverse⟩⟩ tree := by
  rw [makeDirectoriesFrom, get_bind]
  cases tree.makeDirectory? ⟨root, (name :: above).reverse⟩ with
  | ok other => rfl
  | error obstacle =>
    cases obstacle with
    | missing => rfl
    | _ =>
      dsimp only
      rw [get_bind]
      cases tree.isDirectory ⟨root, (name :: above).reverse⟩ <;> rfl

theorem isDirectory_of_ensureDirectory {path : Path} {tree after : FileTree}
    (h : ensureDirectory path tree = .ok () after) : after.isDirectory path = true := by
  rw [ensureDirectory_eq] at h
  split at h
  · next hmade =>
    cases h
    exact isDirectory_of_makeDirectory? hmade
  · split at h
    · next hdirectory =>
      cases h
      exact hdirectory
    · cases h

theorem isDirectory_of_makeDirectories {path : Path} {tree after : FileTree}
    (h : makeDirectories path tree = .ok () after) : after.isDirectory path = true := by
  obtain ⟨root, names⟩ := path
  unfold makeDirectories at h
  rw [← List.reverse_reverse names]
  cases hnames : names.reverse with
  | nil =>
    simp only [hnames] at h
    exact isDirectory_of_ensureDirectory h
  | cons name above =>
    simp only [hnames] at h
    rw [makeDirectoriesFrom_cons] at h
    split at h
    · next hmade =>
      cases h
      exact isDirectory_of_makeDirectory? hmade
    · change EStateM.bind _ _ tree = _ at h
      rw [EStateM.bind] at h
      split at h
      · exact isDirectory_of_ensureDirectory h
      · cases h
    · split at h
      · next hdirectory =>
        cases h
        exact hdirectory
      · cases h

/-- Where the directories are there already, nothing is made. -/
theorem makeDirectories_of_isDirectory {path : Path} {tree : FileTree}
    (h : tree.isDirectory path = true) : makeDirectories path tree = .ok () tree := by
  obtain ⟨root, names⟩ := path
  unfold makeDirectories
  rw [← List.reverse_reverse names] at h
  cases hnames : names.reverse with
  | nil =>
    rw [hnames] at h
    change ensureDirectory ⟨root, [].reverse⟩ tree = _
    rw [ensureDirectory_eq, makeDirectory?_of_isDirectory h]
    exact if_pos h
  | cons name above =>
    rw [hnames] at h
    dsimp only
    rw [makeDirectoriesFrom_cons, makeDirectory?_of_isDirectory h]
    exact if_pos h

end Disk

namespace DatabaseFile

/-- A place as one of a file that can be written. -/
def writableAt (tree : FileTree) (place : List String) : Except Obstacle (List String) :=
  match tree.node? place with
  | some node => if node.isDirectory then .error .isDirectory else .ok place
  | none => if tree.isFree place then .ok place else .error .missing

theorem writable?_eq (tree : FileTree) (path : Path) :
    tree.writable? path = tree.follow path >>= writableAt tree := rfl

theorem writableAt_ok {tree : FileTree} {found place : List String}
    (h : writableAt tree found = .ok place) : found = place ∧ ¬tree.HasDirectory place := by
  unfold writableAt at h
  split at h
  · next node hnode =>
    split at h
    · cases h
    · next hdirectory =>
      cases h
      refine ⟨rfl, fun ⟨other, hother, hd⟩ => hdirectory ?_⟩
      rw [hnode, Option.some.injEq] at hother
      rwa [hother]
  · next hnode =>
    split at h
    · cases h
      refine ⟨rfl, fun ⟨other, hother, _⟩ => ?_⟩
      rw [hnode] at hother
      cases hother
    · cases h

theorem not_hasDirectory_of_writable? {tree : FileTree} {path : Path} {place : List String}
    (h : tree.writable? path = .ok place) :
    tree.follow path = .ok place ∧ ¬tree.HasDirectory place := by
  rw [writable?_eq] at h
  rcases hfollow : tree.follow path with e | found
  · rw [hfollow] at h
    cases h
  · rw [hfollow] at h
    obtain ⟨rfl, hplace⟩ := writableAt_ok h
    exact ⟨rfl, hplace⟩

theorem hasRoom_wal {place : List String} (h : hasRoom (journal place) = true) :
    hasRoom (wal place) = true := by
  have hjournal : "-journal".utf8ByteSize = 8 := rfl
  have hwal : "-wal".utf8ByteSize = 4 := rfl
  simp only [hasRoom, journal, wal, beside, List.getLast?_concat, Option.getD_some,
    String.utf8ByteSize_append, decide_eq_true_eq] at h ⊢
  omega

/-- What an opening came to that gave a database: it was taken or made. -/
theorem openAt_eq_ok {tree after : FileTree} {place : List String} {mode : OpenMode}
    {immutable : Bool} (h : openAt tree place mode immutable = (.ok (), after)) :
    ∃ found, tree.writable? (.ofPlace place) = .ok found ∧
      (Path.ofPlace found).text.utf8ByteSize ≤ pathLimit ∧ mode ≠ .readOnly ∧ immutable = false ∧
      (tree.node? found = some .database ∧ adopt tree found = (.ok (), after) ∨
        create tree found = (.ok (), after)) := by
  unfold openAt at h
  split at h
  · cases h
  next found hwritable =>
  split at h
  · cases h
  next hlength =>
  refine ⟨found, hwritable, Nat.not_lt.mp hlength, ?_⟩
  split at h
  · split at h <;> cases h
  · next hnode =>
    split at h
    · cases h
    next hmode =>
    obtain ⟨hmode, himmutable⟩ := not_or.mp hmode
    exact ⟨hmode, Bool.eq_false_iff.mpr himmutable, .inl ⟨hnode, h⟩⟩
  · split at h
    · cases h
    split at h
    · cases h
    next hmode =>
    split at h
    · cases h
    next himmutable => exact ⟨hmode, Bool.eq_false_iff.mpr himmutable, .inr h⟩

/-- A database that was opened at a place is opened there again. -/
theorem openAt_again {tree after : FileTree} {place : List String} {mode : OpenMode}
    {immutable : Bool} (h : openAt tree place mode immutable = (.ok (), after)) :
    tree.SameDirectories after ∧ ∃ later, openAt after place mode immutable = (.ok (), later) := by
  obtain ⟨found, hwritable, hlength, hmode, himmutable, hopened⟩ := openAt_eq_ok h
  obtain ⟨hfollow, hfound⟩ := not_hasDirectory_of_writable? hwritable
  -- Either way a database stands there now, and the directories and names allow to take it.
  have hleft : tree.SameDirectories after ∧ after.node? found = some .database ∧
      (∀ side ∈ sides found, ¬tree.HasDirectory side) ∧ hasRoom (wal found) = true := by
    rcases hopened with ⟨hnode, hadopt⟩ | hcreate
    · have hclears := adopt_clears tree found
      obtain ⟨hsides, hroom⟩ := adopt_ok_iff.mp (congrArg Prod.fst hadopt)
      rw [hadopt] at hclears
      exact ⟨hclears.same, (hclears.own (ne_nil_of_not_hasDirectory hfound)).trans hnode,
        hsides, hroom⟩
    · have hok := congrArg Prod.fst hcreate
      obtain ⟨hsides, hroom⟩ := (create_ok_iff hfound).mp hok
      obtain ⟨hsame, hnode⟩ := create_spec hfound hok
      rw [hcreate] at hsame hnode
      exact ⟨hsame, hnode, hsides, hasRoom_wal hroom⟩
  obtain ⟨hsame, hnode, hsides, hroom⟩ := hleft
  have hadopted : (adopt after found).1 = .ok () :=
    adopt_ok_iff.mpr ⟨fun side hside => mt (hsame.directories side).mp (hsides side hside), hroom⟩
  have hwritable' : after.writable? (.ofPlace place) = .ok found := by
    rw [writable?_eq, follow_keeps hsame.keeps hfollow]
    change writableAt after found = _
    rw [writableAt, hnode]
    rfl
  refine ⟨hsame, (adopt after found).2, ?_⟩
  unfold openAt
  rw [hwritable']
  dsimp only
  rw [if_neg (Nat.not_lt.mpr hlength), hnode]
  dsimp only
  rw [if_neg (not_or.mpr ⟨hmode, Bool.eq_false_iff.mp himmutable⟩), ← hadopted]

end DatabaseFile

namespace Disk

/-- What opening does once the directories above the path are there. -/
def openNamed (readsAddresses : Bool) (path : Path) (tree : FileTree) :
    EStateM.Result PathFault FileTree (Except OpenFault Residence) :=
  if path.names.any fun name => name.toList.contains '\x00' then
    .error ⟨.nullCharacter, path⟩ tree
  else match DatabaseName.ofText? readsAddresses path.text with
    | none => .ok (.error .unavailable) tree
    | some (.memory readOnly) => .ok (if readOnly then .error .readOnly else .ok .memory) tree
    | some (.file name mode immutable) =>
      .ok ((DatabaseFile.openAt tree (name.place tree.here) mode immutable).1.map fun _ => .file)
        (DatabaseFile.openAt tree (name.place tree.here) mode immutable).2

theorem openDatabase_eq (readsAddresses : Bool) (path : Path) (tree : FileTree) :
    openDatabase readsAddresses path tree = match makeDirectories path.parent tree with
      | .ok () after => openNamed readsAddresses path after
      | .error e after => .error e after := by
  unfold openDatabase
  change EStateM.bind _ _ tree = _
  rw [EStateM.bind]
  cases makeDirectories path.parent tree with
  | error e after => rfl
  | ok _ after =>
    unfold openNamed
    dsimp only
    split
    · rfl
    · cases DatabaseName.ofText? readsAddresses path.text with
      | none => rfl
      | some name => cases name <;> rfl

theorem openNamed_again {readsAddresses : Bool} {path : Path} {tree after : FileTree}
    {residence : Residence} (h : openNamed readsAddresses path tree = .ok (.ok residence) after) :
    tree.SameDirectories after ∧
      ∃ later, openNamed readsAddresses path after = .ok (.ok residence) later := by
  unfold openNamed at h ⊢
  split at h
  · cases h
  next hnull =>
  rw [if_neg hnull]
  split at h
  · cases h
  · next readOnly hname =>
    obtain ⟨hmemory, rfl⟩ := EStateM.Result.ok.inj h
    rw [hmemory]
    exact ⟨.refl tree, tree, rfl⟩
  · next name mode immutable hname =>
    obtain ⟨hfile, hafter⟩ := EStateM.Result.ok.inj h
    have hopened : DatabaseFile.openAt tree (name.place tree.here) mode immutable =
        (.ok (), after) := by
      refine Prod.ext ?_ hafter
      cases hresult : (DatabaseFile.openAt tree (name.place tree.here) mode immutable).1 with
      | ok _ => rfl
      | error e =>
        rw [hresult] at hfile
        cases hfile
    obtain ⟨hsame, later, hlater⟩ := DatabaseFile.openAt_again hopened
    refine ⟨hsame, later, ?_⟩
    rw [hsame.here, hlater]
    rw [hopened] at hfile
    exact congrArg (EStateM.Result.ok · later) hfile

/-- A database that was opened is kept in memory alone or in a file, as its name says. -/
theorem name_of_openDatabase {readsAddresses : Bool} {path : Path} {tree after : FileTree}
    {residence : Residence}
    (h : openDatabase readsAddresses path tree = .ok (.ok residence) after) :
    (residence = .memory ∧
      ∃ readOnly, DatabaseName.ofText? readsAddresses path.text = some (.memory readOnly)) ∨
    residence = .file ∧ ∃ name mode immutable,
      DatabaseName.ofText? readsAddresses path.text = some (.file name mode immutable) := by
  rw [openDatabase_eq] at h
  split at h
  · unfold openNamed at h
    split at h
    · cases h
    split at h
    · cases h
    · next readOnly hname =>
      refine .inl ⟨?_, readOnly, hname⟩
      cases readOnly <;> cases h
      rfl
    · next name mode immutable hname =>
      obtain ⟨hfile, -⟩ := EStateM.Result.ok.inj h
      refine .inr ⟨?_, name, mode, immutable, hname⟩
      cases hresult : (DatabaseFile.openAt _ _ mode immutable).1 with
      | ok _ =>
        rw [hresult] at hfile
        cases hfile
        rfl
      | error e =>
        rw [hresult] at hfile
        cases hfile
  · cases h

/-- A database that was opened is opened again, as long as nothing else changes the tree. -/
theorem openDatabase_again {readsAddresses : Bool} {path : Path} {tree after : FileTree}
    {residence : Residence}
    (h : openDatabase readsAddresses path tree = .ok (.ok residence) after) :
    ∃ later, openDatabase readsAddresses path after = .ok (.ok residence) later := by
  rw [openDatabase_eq] at h
  split at h
  · next mid hmade =>
    obtain ⟨hsame, later, hlater⟩ := openNamed_again h
    have hparent := isDirectory_keeps hsame.keeps (isDirectory_of_makeDirectories hmade)
    refine ⟨later, ?_⟩
    rw [openDatabase_eq, makeDirectories_of_isDirectory hparent]
    exact hlater
  · cases h

end Disk

end Catalogue
