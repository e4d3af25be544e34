import Catalogue.Proofs.File.Growth
import Catalogue.Proofs.Store.Foreign
import Catalogue.Proofs.Store.Refinement

/-! Opening a database, whatever stands at its path and around it.  The directories above the path
are made first; where that fails, or a name cannot be given to the system, the fault of the path
comes out as it is.  Every other obstacle is one of the database.  No file is changed but the one of
the database itself, where that is empty, and those of its rollback journal, its write-ahead log and
the shared-memory index of that log.  An open store reads from its tables; one that is none of the
catalogue's is not found out before it is read. -/

namespace Catalogue

open FileTree

/-- The place of the file of the database that a path names; nothing where it names none in a
file. -/
def Path.databasePlace? (readsAddresses : Bool) (here : List String) (path : Path) :
    Option (List String) :=
  match DatabaseName.ofText? readsAddresses path.text with
  | some (.file name _ _) => some (name.place here)
  | _ => none

/-- A path that is not read as an address and not the name of a database in memory. -/
structure Path.IsOrdinary (readsAddresses : Bool) (path : Path) : Prop where
  wellFormed : path.WellFormed
  noAddress : readsAddresses = true → ¬DatabaseName.scheme <+: path.text.toList
  notMemory : path.text ≠ DatabaseName.memoryName

/-- An ordinary path names its own file. -/
theorem Path.IsOrdinary.ofText? {readsAddresses : Bool} {path : Path}
    (h : path.IsOrdinary readsAddresses) :
    DatabaseName.ofText? readsAddresses path.text = some (.file path .create false) := by
  have hplain : ¬(readsAddresses = true ∧ DatabaseName.scheme.isPrefixOf path.text.toList = true) :=
    fun ⟨hreads, haddress⟩ => h.noAddress hreads (List.isPrefixOf_iff_prefix.mp haddress)
  rw [DatabaseName.ofText?, if_neg hplain, if_neg h.notMemory, Path.ofText_text h.wellFormed]

/-- A path that cannot be handed to the database: the directories above it cannot be made, or a name
in it holds U+0000. -/
def Path.IsBlocked (path : Path) (tree : FileTree) : Prop :=
  (∃ e after, Disk.makeDirectories path.parent tree = .error e after) ∨
    ∃ name ∈ path.names, '\x00' ∈ name.toList

/-- Whatever a path leads on from is a directory. -/
theorem FileTree.hasDirectory_of_isDirectory {tree : FileTree} {root : Root}
    {above more : List String} {place : List String}
    (h : tree.isDirectory ⟨root, above ++ more⟩ = true)
    (hfollow : tree.follow ⟨root, above⟩ = .ok place) : tree.HasDirectory place := by
  obtain ⟨last, hlast, hdirectory⟩ := isDirectory_iff.mp h
  cases more with
  | nil =>
    rw [List.append_nil] at hlast
    obtain rfl : last = place := Except.ok.inj (hlast.symm.trans hfollow)
    exact hdirectory
  | cons name more =>
    have hsteps := foldlM_of_follow hlast
    rw [List.foldlM_append, foldlM_of_follow hfollow] at hsteps
    change (name :: more).foldlM tree.step place = _ at hsteps
    rw [List.foldlM_cons] at hsteps
    obtain ⟨next, hstep, -⟩ := bind_eq_ok.mp hsteps
    exact (step_ok_iff.mp hstep).1

/-- A file where a directory is needed blocks a path. -/
theorem Path.isBlocked_of_file {path : Path} {tree : FileTree} {above rest : List String}
    {node : Node} (hnames : path.names = above ++ rest) (hrest : rest ≠ [])
    (hfind : tree.find ⟨path.root, above⟩ = .ok node) (hnode : node.isDirectory = false) :
    path.IsBlocked tree := by
  cases hmade : Disk.makeDirectories path.parent tree with
  | error e after => exact .inl ⟨e, after, hmade⟩
  | ok _ made =>
    obtain ⟨place, hfollow, hplace⟩ := find_iff.mp hfind
    have hspares := Disk.spares_makeDirectories hmade place
    have hdirectory := Disk.isDirectory_of_makeDirectories hmade
    rw [Path.parent, hnames, List.dropLast_append_of_ne_nil hrest] at hdirectory
    obtain ⟨found, hfound, hd⟩ :=
      hasDirectory_of_isDirectory hdirectory (follow_keeps hspares.keeps hfollow)
    rw [hspares.node hplace, Option.some.injEq] at hfound
    rw [← hfound, hnode] at hd
    cases hd

/-- A change keeps every node but the empty file of a database at `place` and the files beside that
database. -/
def FileTree.KeepsOthers (place : List String) (tree other : FileTree) : Prop :=
  ∀ at_ node, tree.node? at_ = some node → other.node? at_ = some node ∨
    at_ = place ∧ node = .file [] ∨
    at_ ∈ DatabaseFile.sides place ∧ node.isDirectory = false

theorem FileTree.KeepsOthers.refl (place : List String) (tree : FileTree) :
    KeepsOthers place tree tree := fun _ _ hnode => .inl hnode

theorem FileTree.KeepsOthers.trans {place : List String} {tree mid other : FileTree}
    (h : KeepsOthers place tree mid) (h' : KeepsOthers place mid other) :
    KeepsOthers place tree other := by
  intro at_ node hnode
  rcases h at_ node hnode with hmid | hown
  · exact h' at_ node hmid
  · exact .inr hown

namespace DatabaseFile

variable {tree other : FileTree} {place : List String}

theorem Clears.keepsOthers (h : Clears place tree other) : KeepsOthers place tree other := by
  intro at_ node hnode
  by_cases hside : at_ ∈ sides place
  · cases hdirectory : node.isDirectory with
    | true => exact .inl ((h.directories at_ node hdirectory).mpr hnode)
    | false => exact .inr (.inr ⟨hside, rfl⟩)
  · exact .inl ((h.outside at_ hside).trans hnode)

/-- A new node at the place of the database keeps what is there, unless that is empty. -/
theorem put_keepsOthers (hplace : place ≠ [])
    (hempty : ∀ node, tree.node? place = some node → node = .file []) (new : Node) :
    KeepsOthers place tree (tree.put place new) := by
  intro at_ node hnode
  rw [node?_put hplace]
  split
  · next hown => exact .inr (.inl ⟨hown, hempty node (hown ▸ hnode)⟩)
  · exact .inl hnode

/-- Making a database of a file that is missing or empty keeps every other one that is not beside
it. -/
theorem create_keepsOthers (h : ¬tree.HasDirectory place)
    (hempty : ∀ node, tree.node? place = some node → node = .file []) :
    KeepsOthers place tree (create tree place).2 := by
  have hplace := ne_nil_of_not_hasDirectory h
  have hfile : KeepsOthers place tree (withFile tree place) := by
    unfold withFile
    split
    · exact .refl place tree
    · exact put_keepsOthers hplace hempty _
  have hunlogged := hfile.trans (unlogged_clears tree place).keepsOthers
  rw [create_eq]
  split
  · exact hfile.trans (unjournaled_clears tree place).keepsOthers
  · split
    · exact hunlogged
    · next hclear =>
      rw [isDirectoryAt_same (unlogged_same h)] at hclear
      have hjournal : ¬tree.HasDirectory (journal place) := fun hd =>
        hclear (by rw [hasDirectory_iff.mpr hd, Bool.true_or])
      have hfound : ∀ node, (unlogged tree place).node? place = some node → node = .file [] := by
        intro node hnode
        rw [(unlogged_clears tree place).own hplace, withFile] at hnode
        split at hnode
        · exact hempty node hnode
        · rw [node?_put hplace, if_pos rfl] at hnode
          exact (Option.some.inj hnode).symm
      have hput := put_keepsOthers hplace hfound .database
      have hlog := (made_clears h hjournal).trans (startLog_clears (made tree place) place)
      exact hunlogged.trans (hput.trans hlog.keepsOthers)

/-- Opening a database at a place keeps every node but an empty file there and the files beside
it. -/
theorem openAt_keeps (hplace : ".." ∉ place) (mode : OpenMode) (immutable : Bool) :
    KeepsOthers place tree (openAt tree place mode immutable).2 := by
  unfold openAt
  split
  · exact .refl place tree
  next found hwritable =>
  obtain ⟨hfollow, hfound⟩ := not_hasDirectory_of_writable? hwritable
  obtain rfl : found = place := place_of_follow ⟨Root.noConfusion, hplace⟩ hfollow
  have hroot := ne_nil_of_not_hasDirectory hfound
  split
  · exact .refl found tree
  split
  · split
    · exact .refl found tree
    · exact (examine_clears tree found).keepsOthers
  · split
    · exact .refl found tree
    · exact (adopt_clears tree found).keepsOthers
  next hfile hdatabase =>
  have hempty : ∀ node, tree.node? found = some node → node = .file [] := by
    intro node hnode
    cases node with
    | directory => exact absurd ⟨_, hnode, rfl⟩ hfound
    | sealed => exact absurd ⟨_, hnode, rfl⟩ hfound
    | database => exact absurd hnode hdatabase
    | file bytes =>
      cases bytes with
      | nil => rfl
      | cons b bs => exact absurd hnode (hfile b bs)
  split
  · exact .refl found tree
  split
  · exact .refl found tree
  split
  · split
    · exact put_keepsOthers hroot hempty _
    · exact .refl found tree
  · exact create_keepsOthers hfound hempty

/-- A place is fit for a database: its file can be written and is missing, empty or a database, its
path is not too long, no directory stands where a file is needed beside it, and the name of the file
that is written there first is not too long. -/
structure IsFit (tree : FileTree) (place : List String) : Prop where
  writable : tree.writable? (.ofPlace place) = .ok place
  short : (Path.ofPlace place).text.utf8ByteSize ≤ pathLimit
  noOther : ∀ b bs, tree.node? place ≠ some (.file (b :: bs))
  clear : ∀ side ∈ sides place, ¬tree.HasDirectory side
  room : hasRoom (if tree.node? place = some .database then wal place else journal place) = true

/-- A database is opened or made exactly where its place is fit. -/
theorem openAt_ok_iff (hplace : ".." ∉ place) :
    (openAt tree place .create false).1 = .ok () ↔ IsFit tree place := by
  unfold openAt
  split
  · next e hwritable =>
    refine iff_of_false nofun fun hfit => ?_
    rw [hfit.writable] at hwritable
    cases hwritable
  next found hwritable =>
  obtain ⟨hfollow, hfound⟩ := not_hasDirectory_of_writable? hwritable
  obtain rfl : found = place := place_of_follow ⟨Root.noConfusion, hplace⟩ hfollow
  split
  · next hlong => exact iff_of_false nofun fun hfit => absurd hfit.short (Nat.not_le.mpr hlong)
  next hshort =>
  split
  · next b bs hnode =>
    exact iff_of_false (by simp) fun hfit => hfit.noOther b bs hnode
  · next hnode =>
    simp only [reduceCtorEq, Bool.false_eq_true, or_self, if_false, adopt_ok_iff]
    constructor
    · rintro ⟨hclear, hroom⟩
      refine ⟨hwritable, Nat.not_lt.mp hshort, fun b bs hfile => ?_, hclear, ?_⟩
      · cases hnode.symm.trans hfile
      · rwa [if_pos hnode]
    · intro hfit
      have hroom := hfit.room
      rw [if_pos hnode] at hroom
      exact ⟨hfit.clear, hroom⟩
  · next hother hdatabase =>
    simp only [reduceCtorEq, or_self, and_false, if_false, Bool.false_eq_true,
      create_ok_iff hfound]
    constructor
    · rintro ⟨hclear, hroom⟩
      refine ⟨hwritable, Nat.not_lt.mp hshort, hother, hclear, ?_⟩
      rwa [if_neg hdatabase]
    · intro hfit
      have hroom := hfit.room
      rw [if_neg hdatabase] at hroom
      exact ⟨hfit.clear, hroom⟩

/-- No database is opened where a directory stands, or a file that holds something else. -/
theorem openAt_ne_ok (hplace : ".." ∉ place) (mode : OpenMode) (immutable : Bool)
    (h : tree.HasDirectory place ∨ ∃ b bs, tree.node? place = some (.file (b :: bs))) :
    ∃ fault, (openAt tree place mode immutable).1 = .error fault := by
  unfold openAt
  split
  · exact ⟨_, rfl⟩
  next found hwritable =>
  obtain ⟨hfollow, hfound⟩ := not_hasDirectory_of_writable? hwritable
  obtain rfl : found = place := place_of_follow ⟨Root.noConfusion, hplace⟩ hfollow
  obtain ⟨b, bs, hnode⟩ := h.resolve_left hfound
  split
  · exact ⟨_, rfl⟩
  rw [hnode]
  dsimp only
  split
  · exact ⟨_, rfl⟩
  · exact ⟨_, rfl⟩

end DatabaseFile

namespace Disk

variable {readsAddresses : Bool} {path : Path} {tree after : FileTree}

theorem openNamed_of_null (h : ∃ name ∈ path.names, '\x00' ∈ name.toList) (tree : FileTree) :
    openNamed readsAddresses path tree = .error ⟨.nullCharacter, path⟩ tree := by
  have hany : (path.names.any fun name => name.toList.contains '\x00') = true := by
    simpa using h
  rw [openNamed, if_pos hany]

theorem openNamed_of_sound (h : ¬∃ name ∈ path.names, '\x00' ∈ name.toList) (tree : FileTree) :
    ∃ result after, openNamed readsAddresses path tree = .ok result after := by
  have hany : ¬(path.names.any fun name => name.toList.contains '\x00') = true := by
    simpa using h
  rw [openNamed, if_neg hany]
  split
  · exact ⟨_, _, rfl⟩
  · exact ⟨_, _, rfl⟩
  · exact ⟨_, _, rfl⟩

/-- The fault of a path comes out exactly where the path is blocked. -/
theorem openDatabase_error_iff :
    (∃ e after, openDatabase readsAddresses path tree = .error e after) ↔ path.IsBlocked tree := by
  rw [openDatabase_eq, Path.IsBlocked]
  cases hmade : makeDirectories path.parent tree with
  | error e after => exact ⟨fun _ => .inl ⟨e, after, rfl⟩, fun _ => ⟨e, after, rfl⟩⟩
  | ok _ made =>
    dsimp only
    by_cases hnull : ∃ name ∈ path.names, '\x00' ∈ name.toList
    · exact ⟨fun _ => .inr hnull, fun _ => ⟨_, _, openNamed_of_null hnull made⟩⟩
    · obtain ⟨result, later, hopened⟩ := openNamed_of_sound hnull made
      rw [hopened]
      constructor
      · rintro ⟨e, after, h⟩
        cases h
      · rintro (⟨e, after, h⟩ | h)
        · cases h
        · exact absurd h hnull

theorem not_mem_databasePlace {here place : List String}
    (h : path.databasePlace? readsAddresses here = some place) : ".." ∉ place := by
  unfold Path.databasePlace? at h
  split at h
  · obtain rfl := Option.some.inj h
    exact fun hmem => (Path.mem_of_mem_flatten hmem).2 rfl
  · cases h

/-- What opening does at the place of the file that the path names. -/
theorem openNamed_keeps {result : Except OpenFault Residence}
    (h : openNamed readsAddresses path tree = .ok result after) {at_ : List String} {node : Node}
    (hnode : tree.node? at_ = some node) : after.node? at_ = some node ∨
      ∃ place, path.databasePlace? readsAddresses tree.here = some place ∧
        (at_ = place ∧ node = .file [] ∨
          at_ ∈ DatabaseFile.sides place ∧ node.isDirectory = false) := by
  unfold openNamed at h
  split at h
  · cases h
  split at h
  · cases h
    exact .inl hnode
  · cases h
    exact .inl hnode
  · next name mode immutable hname =>
    obtain ⟨-, rfl⟩ := EStateM.Result.ok.inj h
    have hplace : path.databasePlace? readsAddresses tree.here = some (name.place tree.here) := by
      rw [Path.databasePlace?, hname]
    rcases DatabaseFile.openAt_keeps (not_mem_databasePlace hplace) mode immutable at_ node
      hnode with hkept | hown
    · exact .inl hkept
    · exact .inr ⟨_, hplace, hown⟩

/-- The database of an ordinary path is opened exactly where its place is fit, once the directories
above it are there. -/
theorem openDatabase_ok_iff (hpath : path.IsOrdinary readsAddresses) (hno : ¬path.IsBlocked tree) :
    ∃ made, makeDirectories path.parent tree = .ok () made ∧
      ((∃ residence after, openDatabase readsAddresses path tree = .ok (.ok residence) after) ↔
        DatabaseFile.IsFit made (path.place tree.here)) := by
  obtain ⟨hmakes, hsound⟩ := not_or.mp hno
  cases hmade : makeDirectories path.parent tree with
  | error e after => exact absurd ⟨e, after, hmade⟩ hmakes
  | ok _ made =>
    refine ⟨made, rfl, ?_⟩
    have hplace : ".." ∉ path.place made.here := fun hmem => (Path.mem_of_mem_flatten hmem).2 rfl
    have hany : ¬(path.names.any fun name => name.toList.contains '\x00') = true := by
      simpa using hsound
    rw [openDatabase_eq, hmade, ← (spares_makeDirectories hmade []).keeps.here,
      ← DatabaseFile.openAt_ok_iff hplace]
    dsimp only
    rw [openNamed, if_neg hany, hpath.ofText?]
    dsimp only
    cases hresult : (DatabaseFile.openAt made (path.place made.here) .create false).1 with
    | ok _ => exact iff_of_true ⟨.file, _, rfl⟩ rfl
    | error fault =>
      refine iff_of_false ?_ nofun
      rintro ⟨residence, after, h⟩
      cases (EStateM.Result.ok.inj h).1

/-- The database of an ordinary path is kept in a file. -/
theorem residence_of_isOrdinary (hpath : path.IsOrdinary readsAddresses) {residence : Residence}
    (h : openDatabase readsAddresses path tree = .ok (.ok residence) after) :
    residence = .file := by
  obtain ⟨-, readOnly, hname⟩ | ⟨hfile, -⟩ := name_of_openDatabase h
  · cases hpath.ofText?.symm.trans hname
  · exact hfile

theorem openNamed_ne_ok {place : List String}
    (hplace : path.databasePlace? readsAddresses tree.here = some place)
    (h : tree.HasDirectory place ∨ ∃ b bs, tree.node? place = some (.file (b :: bs)))
    (residence : Residence) : openNamed readsAddresses path tree ≠ .ok (.ok residence) after := by
  intro hopened
  have hparent := not_mem_databasePlace hplace
  unfold Path.databasePlace? at hplace
  unfold openNamed at hopened
  split at hopened
  · cases hopened
  split at hplace
  · next name mode immutable hname =>
    rw [hname] at hopened
    obtain ⟨hresult, -⟩ := EStateM.Result.ok.inj hopened
    obtain rfl := Option.some.inj hplace
    obtain ⟨fault, hfault⟩ := DatabaseFile.openAt_ne_ok hparent mode immutable h
    rw [hfault] at hresult
    cases hresult
  · cases hplace

theorem not_isBlocked {result : Except OpenFault Residence}
    (h : openDatabase readsAddresses path tree = .ok result after) : ¬path.IsBlocked tree := by
  intro hblocked
  obtain ⟨e, later, herror⟩ := openDatabase_error_iff.mpr hblocked
  cases h.symm.trans herror

/-- Opening keeps every node but those of the database itself. -/
theorem openDatabase_keeps {result : Except OpenFault Residence}
    (h : openDatabase readsAddresses path tree = .ok result after) {at_ : List String} {node : Node}
    (hnode : tree.node? at_ = some node) : after.node? at_ = some node ∨
      ∃ place, path.databasePlace? readsAddresses tree.here = some place ∧
        (at_ = place ∧ node = .file [] ∨
          at_ ∈ DatabaseFile.sides place ∧ node.isDirectory = false) := by
  rw [openDatabase_eq] at h
  split at h
  · next made hmade =>
    have hspares := spares_makeDirectories hmade at_
    rw [← hspares.keeps.here]
    exact openNamed_keeps h (hspares.node hnode)
  · cases h

theorem failed_openDatabase_keeps {e : PathFault}
    (h : openDatabase readsAddresses path tree = .error e after)
    {at_ : List String} {node : Node} (hnode : tree.node? at_ = some node) :
    after.node? at_ = some node := by
  rw [openDatabase_eq] at h
  split at h
  · next made hmade =>
    unfold openNamed at h
    split at h
    · cases h
      exact (spares_makeDirectories hmade at_).node hnode
    · split at h <;> cases h
  · next hfailed =>
    cases h
    exact (spares_of_failed_makeDirectories hfailed at_).node hnode

theorem openDatabase_ne_ok {place : List String}
    (hplace : path.databasePlace? readsAddresses tree.here = some place)
    (h : tree.HasDirectory place ∨ ∃ b bs, tree.node? place = some (.file (b :: bs)))
    (residence : Residence) :
    openDatabase readsAddresses path tree ≠ .ok (.ok residence) after := by
  rw [openDatabase_eq]
  split
  · next made hmade =>
    have hspares := spares_makeDirectories hmade place
    rw [← hspares.keeps.here] at hplace
    refine openNamed_ne_ok hplace (h.imp (hspares.keeps.directories place) ?_) residence
    rintro ⟨b, bs, hnode⟩
    exact ⟨b, bs, hspares.node hnode⟩
  · intro h
    cases h

end Disk

/-! ### Stores -/

/-- The database that a closed store shows once it is opened. -/
def Store.shown (circumstances : Circumstances) (store : Store) : Database :=
  match DatabaseName.ofText? circumstances.readsAddresses store.path.text with
  | some (.memory _) => Database.blank.prepared
  | _ => circumstances.foreign.foldl .supplant store.database.prepared

/-- Where every table is one of the catalogue's, none is missing. -/
theorem Store.shown_intact {circumstances : Circumstances} (h : circumstances.foreign = [])
    (store : Store) : (store.shown circumstances).Intact := by
  unfold Store.shown
  split
  · exact Database.prepared_intact _
  · rw [h]
    exact Database.prepared_intact _

theorem Store.shown_lacks {circumstances : Circumstances} {store : Store} {here place : List String}
    (hplace : store.path.databasePlace? circumstances.readsAddresses here = some place)
    {table : ForeignTable} (h : table ∈ circumstances.foreign) :
    (store.shown circumstances).Lacks table := by
  unfold Path.databasePlace? at hplace
  split at hplace
  · next hname =>
    rw [Store.shown, hname]
    exact Database.foldl_supplant_lacks (.inl h)
  · cases hplace

namespace Session

variable {s : Session}

theorem state_of_closed (hclosed : s.store.isOpen = false) :
    s.store.state = .closed s.store.database := by
  unfold Store.isOpen at hclosed
  unfold Store.database
  split at hclosed
  · next contents hstate => rw [hstate]
  · cases hclosed

/-- What opening a closed store comes to: the fault of its path, one of its database, or a store
that shows what it held and what was found. -/
theorem opening_cases (hclosed : s.store.isOpen = false) (circumstances : Circumstances) :
    (∃ e after, Disk.openDatabase circumstances.readsAddresses s.store.path s.tree =
        .error e after ∧
      s.opening circumstances = (.error (.path e), { s with tree := after })) ∨
    (∃ result after, Disk.openDatabase circumstances.readsAddresses s.store.path s.tree =
        .ok result after ∧
      (∀ residence, result = .ok residence → circumstances.isBarred = true) ∧
      ∃ fault, (fault = .cannotOpen s.store.path ∨ fault = .cannotPrepare s.store.path) ∧
        s.opening circumstances = (.error (.storage fault), { s with tree := after })) ∨
    ∃ residence after store,
      Disk.openDatabase circumstances.readsAddresses s.store.path s.tree =
        .ok (.ok residence) after ∧
      (residence = .file → circumstances.isBarred = false) ∧
      s.opening circumstances = (.ok none, ⟨store, after⟩) ∧
      store.Shows (s.store.shown circumstances) := by
  have hstate := state_of_closed hclosed
  cases hdisk : Disk.openDatabase circumstances.readsAddresses s.store.path s.tree with
  | error e after =>
    exact .inl ⟨e, after, rfl, by simp [opening, Store.open_, hstate, hdisk]⟩
  | ok result after =>
    cases result with
    | error fault =>
      refine .inr (.inl ⟨_, after, rfl, (fun _ h => by cases h), s.store.openFault fault, ?_,
        by simp [opening, Store.open_, hstate, hdisk]⟩)
      unfold Store.openFault
      split
      · exact .inl rfl
      · exact .inr rfl
    | ok residence =>
      obtain ⟨rfl, readOnly, hname⟩ | ⟨rfl, name, mode, immutable, hname⟩ :=
        Disk.name_of_openDatabase hdisk
      · refine .inr (.inr ⟨_, after, s.store.connect .blank [], rfl, (fun h => by cases h), ?_, ?_⟩)
        · simp [opening, Store.open_, hstate, hdisk]
        · rw [Store.shown, hname]
          exact ⟨.blank, rfl⟩
      · cases hbarred : circumstances.isBarred with
        | true =>
          exact .inr (.inl ⟨_, after, rfl, fun _ _ => rfl, _, .inr rfl,
            by simp [opening, Store.open_, hstate, hdisk, hbarred]⟩)
        | false =>
          refine .inr (.inr ⟨_, after, s.store.connect s.store.database circumstances.foreign,
            rfl, fun _ => rfl, ?_, ?_⟩)
          · simp [opening, Store.open_, hstate, hdisk, hbarred]
          · rw [Store.shown, hname]
            exact ⟨.blank, rfl⟩

/-- What stands in the way of an opening does so whatever the store held. -/
theorem open_new_of_error (hclosed : s.store.isOpen = false) {circumstances : Circumstances}
    {e : StoreFault} {s' : Session} (h : s.opening circumstances = (.error e, s')) :
    (Store.new s.store.path).open_ s.tree circumstances = (.error e, s'.tree) := by
  have hstate := state_of_closed hclosed
  simp only [opening, Store.open_, hstate] at h
  simp only [Store.open_, Store.new, Store.openFault]
  cases hdisk : Disk.openDatabase circumstances.readsAddresses s.store.path s.tree with
  | error fault after =>
    rw [hdisk] at h
    cases h
    rfl
  | ok result after =>
    rw [hdisk] at h
    cases result with
    | error fault =>
      cases h
      rfl
    | ok residence =>
      cases residence with
      | memory => cases h
      | file =>
        cases hbarred : circumstances.isBarred with
        | true =>
          simp only [hbarred, if_true] at h ⊢
          cases h
          rfl
        | false =>
          simp only [hbarred, Bool.false_eq_true, if_false] at h
          cases h

/-- Lists and pages come from the tables of a database; one that is none of the catalogue's comes to
a fault of the store. -/
structure Reads (s : Session) (db : Database) : Prop where
  categories : (s.call .categories).1 =
    ((Database.listed (.listFailed Steps.categoriesName) db.categories).map .names).map some
  vocabulary (v : Vocabulary) : (s.call (.vocabulary v)).1 =
    ((Database.listed (.listFailed v.name) (db.terms v)).map .terms).map some
  pages (pageSize generated : Nat) (q : Query) : (q.isFiltered → q.FitsScan pageSize) →
    (s.call (.retrieve pageSize generated q)).1 =
      ((db.page pageSize generated q).map .page).map some

theorem reads_of_shows {db : Database} (hshows : s.store.Shows db) : s.Reads db := by
  have hcall {operation : Operation} {answer : Except StoreFault Answer}
      (h : Access.Gives operation.run db answer db) : (s.call operation).1 = answer.map some := by
    obtain ⟨_, hcall, -⟩ := call_of_gives hshows h
    exact congrArg Prod.fst hcall
  constructor
  · exact hcall ((Access.Gives.categoriesFrom db).map Answer.names)
  · exact fun v => hcall ((Access.Gives.vocabularyFrom db v).map Answer.terms)
  · exact fun _ generated _ hq => hcall ((Access.Gives.retrieveFrom generated hq).map Answer.page)

end Session

end Catalogue
