import Catalogue.Proofs.Store.Reopening

/-! Files that are written and read.  Making directories loses nothing, even where it fails half
way, writing a file changes what stands at its place alone, and a file that was written is read as
it was written. -/

namespace Catalogue

namespace FileTree

variable {tree mid other : FileTree} {path : Path} {place : List String} {node : Node}

theorem find_iff : tree.find path = .ok node ↔
    ∃ place, tree.follow path = .ok place ∧ tree.node? place = some node := by
  unfold find
  cases h : tree.follow path with
  | error e => simp [bind, Except.bind]
  | ok place =>
    cases hn : tree.node? place <;>
      simp [bind, Except.bind, hn, throw, throwThe, MonadExceptOf.throw, pure, Except.pure]

/-- A path that goes on from another one by a name leads to the place of that name. -/
theorem follow_child {dir : Path} {name : String} (hname : name ≠ "..")
    (h : tree.follow (dir.child name) = .ok place) :
    ∃ above, tree.HasDirectory above ∧ place = above ++ [name] := by
  have hsteps := foldlM_of_follow h
  rw [Path.child, List.foldlM_append] at hsteps
  obtain ⟨above, -, hlast⟩ := bind_eq_ok.mp hsteps
  rw [List.foldlM_cons] at hlast
  obtain ⟨next, hstep, hnext⟩ := bind_eq_ok.mp hlast
  obtain rfl : next = place := Except.ok.inj hnext
  obtain ⟨habove, -, rfl⟩ := step_ok_iff.mp hstep
  exact ⟨above, habove, if_neg hname⟩

/-- A path that ends with a name leads to a place that ends with it. -/
theorem getLast?_of_follow {name : String} (hname : name ≠ "..")
    (h : tree.follow (path.child name) = .ok place) : place.getLast? = some name := by
  obtain ⟨above, -, rfl⟩ := follow_child hname h
  exact List.getLast?_concat

/-- A change of the tree keeps the directories and what stands at a place. -/
structure Spares (place : List String) (tree other : FileTree) : Prop where
  keeps : tree.Keeps other
  node {node : Node} : tree.node? place = some node → other.node? place = some node

theorem Spares.refl (place : List String) (tree : FileTree) : Spares place tree tree :=
  ⟨(SameDirectories.refl tree).keeps, id⟩

theorem Spares.trans (h : Spares place tree mid) (h' : Spares place mid other) :
    Spares place tree other :=
  ⟨h.keeps.trans h'.keeps, fun hnode => h'.node (h.node hnode)⟩

/-- A path leads to what it led to before. -/
theorem Spares.find (h : Spares place tree other) (hfollow : tree.follow path = .ok place)
    (hfind : tree.find path = .ok node) : other.find path = .ok node := by
  obtain ⟨found, hfound, hnode⟩ := find_iff.mp hfind
  obtain rfl : found = place := Except.ok.inj (hfound.symm.trans hfollow)
  exact find_iff.mpr ⟨found, follow_keeps h.keeps hfollow, h.node hnode⟩

theorem spares_put {filled : List String} (h : ¬tree.HasDirectory filled) (hne : filled ≠ place)
    (node : Node) : Spares place tree (tree.put filled node) := by
  have hfilled := ne_nil_of_not_hasDirectory h
  refine ⟨put_keeps h node, fun hnode => ?_⟩
  rw [node?_put hfilled, if_neg (Ne.symm hne)]
  exact hnode

theorem spares_makeDirectory? (h : tree.makeDirectory? path = .ok other) (place : List String) :
    Spares place tree other := by
  obtain ⟨made, -, hempty, rfl⟩ := makeDirectory?_eq_ok h
  have hmade := not_hasDirectory_of_empty hempty
  by_cases hne : made = place
  · refine ⟨put_keeps hmade .directory, fun hnode => ?_⟩
    rw [← hne, hempty] at hnode
    cases hnode
  · exact spares_put hmade hne .directory

/-- One tree becomes the other when new directories are made, one after the other. -/
inductive Built : FileTree → FileTree → Prop
  | refl (tree : FileTree) : Built tree tree
  | step {tree mid after : FileTree} {path : Path} (made : tree.makeDirectory? path = .ok mid)
      (rest : Built mid after) : Built tree after

theorem Built.trans (h : Built tree mid) (h' : Built mid other) : Built tree other := by
  induction h with
  | refl => exact h'
  | step made _ ih => exact .step made (ih h')

theorem Built.spares (h : Built tree other) (place : List String) : Spares place tree other := by
  induction h with
  | refl tree => exact .refl place tree
  | step made _ ih => exact (spares_makeDirectory? made place).trans ih

end FileTree

namespace Disk

open FileTree

variable {α β : Type} {tree after : FileTree} {path : Path} {place : List String}
  {bytes : List UInt8}

/-! ### Making directories -/

/-- The tree that an operation leaves, whether it succeeds or fails. -/
def leaves (operation : Disk α) (tree : FileTree) : FileTree :=
  match operation tree with
  | .ok _ after => after
  | .error _ after => after

theorem leaves_of_ok {operation : Disk α} {a : α} (h : operation tree = .ok a after) :
    operation.leaves tree = after := by rw [leaves, h]

theorem leaves_of_error {operation : Disk α} {e : PathFault} (h : operation tree = .error e after) :
    operation.leaves tree = after := by rw [leaves, h]

theorem built_ensureDirectory (path : Path) (tree : FileTree) :
    Built tree ((ensureDirectory path).leaves tree) := by
  have hensure := ensureDirectory_eq path tree
  cases hmade : tree.makeDirectory? path with
  | ok made =>
    rw [hmade] at hensure
    rw [leaves_of_ok hensure]
    exact .step hmade (.refl made)
  | error obstacle =>
    rw [hmade] at hensure
    by_cases hdirectory : tree.isDirectory path = true
    · rw [leaves_of_ok (hensure.trans (if_pos hdirectory))]
      exact .refl tree
    · rw [leaves_of_error (hensure.trans (if_neg hdirectory))]
      exact .refl tree

theorem built_bind {operation : Disk α} {f : α → Disk β}
    (hfirst : Built tree (operation.leaves tree))
    (hrest : ∀ a mid, operation tree = .ok a mid → Built mid ((f a).leaves mid)) :
    Built tree ((operation >>= f).leaves tree) := by
  cases hresult : operation tree with
  | ok a mid =>
    rw [leaves_of_ok hresult] at hfirst
    rw [leaves, bind_of_ok hresult]
    exact hfirst.trans (hrest a mid hresult)
  | error e mid =>
    rw [leaves_of_error hresult] at hfirst
    rw [leaves_of_error (bind_of_error hresult f)]
    exact hfirst

theorem built_makeDirectoriesFrom (root : Root) (names : List String) (tree : FileTree) :
    Built tree ((makeDirectoriesFrom root names).leaves tree) := by
  induction names generalizing tree with
  | nil => exact built_ensureDirectory _ tree
  | cons name above ih =>
    have hcons := makeDirectoriesFrom_cons root name above tree
    cases hmade : tree.makeDirectory? ⟨root, (name :: above).reverse⟩ with
    | ok made =>
      rw [hmade] at hcons
      rw [leaves_of_ok hcons]
      exact .step hmade (.refl made)
    | error obstacle =>
      rw [hmade] at hcons
      cases obstacle with
      | missing =>
        rw [leaves, hcons]
        exact built_bind (ih tree) fun _ mid _ => built_ensureDirectory _ mid
      | _ =>
        by_cases hdirectory : tree.isDirectory ⟨root, (name :: above).reverse⟩ = true
        · rw [leaves_of_ok (hcons.trans (if_pos hdirectory))]
          exact .refl tree
        · rw [leaves_of_error (hcons.trans (if_neg hdirectory))]
          exact .refl tree

theorem built_makeDirectories (path : Path) (tree : FileTree) :
    Built tree ((makeDirectories path).leaves tree) := built_makeDirectoriesFrom _ _ tree

theorem spares_makeDirectories (h : makeDirectories path tree = .ok () after)
    (place : List String) : Spares place tree after :=
  leaves_of_ok h ▸ (built_makeDirectories path tree).spares place

theorem spares_of_failed_makeDirectories {e : PathFault}
    (h : makeDirectories path tree = .error e after) (place : List String) :
    Spares place tree after :=
  leaves_of_error h ▸ (built_makeDirectories path tree).spares place

/-! ### Writing and reading -/

theorem reading_eq {α : Type} (path : Path) (result : FileTree → Except Obstacle α)
    (tree : FileTree) : reading path result tree = match result tree with
      | .ok a => .ok a tree
      | .error obstacle => .error ⟨obstacle, path⟩ tree := by
  rw [reading, get_bind]
  cases result tree <;> rfl

theorem write_eq (path : Path) (bytes : List UInt8) (tree : FileTree) :
    write path bytes tree = match tree.writable? path with
      | .ok place => .ok () (tree.put place (.file bytes))
      | .error obstacle => .error ⟨obstacle, path⟩ tree := by
  have hreading := reading_eq path (·.writable? path) tree
  unfold write
  cases h : tree.writable? path with
  | ok place =>
    rw [h] at hreading
    rw [bind_of_ok hreading]
    rfl
  | error obstacle =>
    rw [h] at hreading
    exact bind_of_error hreading _

/-- What is written stands where the path leads. -/
theorem find_of_write (h : write path bytes tree = .ok () after) :
    ∃ place, tree.follow path = .ok place ∧ ¬tree.HasDirectory place ∧
      after = tree.put place (.file bytes) ∧ after.find path = .ok (.file bytes) := by
  rw [write_eq] at h
  split at h
  · next place hwritable =>
    cases h
    obtain ⟨hfollow, hplace⟩ := DatabaseFile.not_hasDirectory_of_writable? hwritable
    have hroot := ne_nil_of_not_hasDirectory hplace
    refine ⟨place, hfollow, hplace, rfl, find_iff.mpr ⟨place, ?_, ?_⟩⟩
    · exact follow_keeps (put_keeps hplace _) hfollow
    · rw [node?_put hroot, if_pos rfl]
  · cases h

/-- A file is written where one stands already. -/
theorem write_of_find {old : List UInt8} (h : tree.find path = .ok (.file old))
    (bytes : List UInt8) : ∃ after, write path bytes tree = .ok () after := by
  obtain ⟨place, hfollow, hnode⟩ := find_iff.mp h
  have hwritable : tree.writable? path = .ok place := by
    rw [DatabaseFile.writable?_eq, hfollow]
    change DatabaseFile.writableAt tree place = _
    rw [DatabaseFile.writableAt, hnode]
    rfl
  rw [write_eq, hwritable]
  exact ⟨_, rfl⟩

theorem isFree_of_writable? (h : tree.writable? path = .ok place)
    (hnone : tree.node? place = none) : tree.isFree place = true := by
  obtain ⟨hfollow, -⟩ := DatabaseFile.not_hasDirectory_of_writable? h
  rw [DatabaseFile.writable?_eq, hfollow] at h
  change DatabaseFile.writableAt tree place = _ at h
  rw [DatabaseFile.writableAt, hnone] at h
  cases hfree : tree.isFree place with
  | true => rfl
  | false =>
    rw [hfree] at h
    cases h

theorem attempt_of_ok {operation : Disk α} {a : α} (h : operation tree = .ok a after) :
    attempt operation tree = .ok (some a) after := by rw [attempt, h]

theorem attempt_of_error {operation : Disk α} {e : PathFault}
    (h : operation tree = .error e after) : attempt operation tree = .ok none after := by
  rw [attempt, h]

theorem writeOn_eq (device : Device) (path : Path) (bytes : List UInt8) (tree : FileTree) :
    writeOn device path bytes tree = match tree.writable? path with
      | .ok place =>
        if device.stores place then .ok () (tree.put place (.file bytes))
        else .error ⟨.noSpace, path⟩ (tree.put place (.file []))
      | .error obstacle => .error ⟨obstacle, path⟩ tree := by
  have hreading := reading_eq path (·.writable? path) tree
  unfold writeOn
  cases h : tree.writable? path with
  | ok place =>
    rw [h] at hreading
    rw [bind_of_ok hreading]
    dsimp only
    cases device.stores place <;> rfl
  | error obstacle =>
    rw [h] at hreading
    exact bind_of_error hreading _

/-- A file that was written is taken away again, if the device lets it. -/
theorem removeFrom_of_put (device : Device) (h : tree.writable? path = .ok place)
    (bytes : List UInt8) :
    removeFrom device path (tree.put place (.file bytes)) =
      if device.erases tree place then .ok () ((tree.put place (.file bytes)).remove place)
      else .error ⟨.notPermitted, path⟩ (tree.put place (.file bytes)) := by
  obtain ⟨hfollow, hplace⟩ := DatabaseFile.not_hasDirectory_of_writable? h
  have hroot := ne_nil_of_not_hasDirectory hplace
  have hfollow' := follow_keeps (put_keeps hplace (.file bytes)) hfollow
  have hnode : (tree.put place (.file bytes)).node? place = some (.file bytes) := by
    rw [node?_put hroot, if_pos rfl]
  have herases : device.erases (tree.put place (.file bytes)) place = device.erases tree place := by
    have habove : place.dropLast ≠ place := by
      intro heq
      have hlength := congrArg List.length heq
      rw [List.length_dropLast] at hlength
      have := List.length_pos_iff.mpr hroot
      omega
    rw [Device.erases, Device.erases, isFree, isFree, node?_put hroot, if_neg habove]
  have hreading := reading_eq path (·.follow path) (tree.put place (.file bytes))
  rw [hfollow'] at hreading
  rw [removeFrom, get_bind, find_iff.mpr ⟨place, hfollow', hnode⟩]
  refine (bind_of_ok hreading _).trans ?_
  dsimp only
  rw [get_bind, herases]
  cases device.erases tree place <;> rfl

/-- Where no file can be written, none is taken away. -/
theorem attempt_removeFrom_of_unwritable (device : Device) {obstacle : Obstacle}
    (h : tree.writable? path = .error obstacle) :
    ∃ removed, attempt (removeFrom device path) tree = .ok removed tree := by
  have hfind : ∀ node, tree.find path = .ok node → node.isDirectory = true := by
    intro node hnode
    obtain ⟨place, hfollow, hplace⟩ := find_iff.mp hnode
    rw [DatabaseFile.writable?_eq, hfollow] at h
    change DatabaseFile.writableAt tree place = _ at h
    rw [DatabaseFile.writableAt, hplace] at h
    dsimp only at h
    by_contra hdirectory
    rw [if_neg hdirectory] at h
    cases h
  have hremove : (∃ e, removeFrom device path tree = .error e tree) ∨
      removeFrom device path tree = .ok () tree := by
    rw [removeFrom, get_bind]
    cases hfound : tree.find path with
    | error obstacle =>
      cases obstacle with
      | missing => exact .inr rfl
      | _ => exact .inl ⟨_, rfl⟩
    | ok node =>
      dsimp only
      rw [hfind node hfound]
      exact .inl ⟨_, rfl⟩
  rcases hremove with ⟨e, herror⟩ | hok
  · exact ⟨none, attempt_of_error herror⟩
  · exact ⟨some (), attempt_of_ok hok⟩

theorem read_eq (path : Path) (tree : FileTree) : read path tree = match tree.find path with
    | .ok node => if node.isDirectory then .error ⟨.isDirectory, path⟩ tree
      else .ok (bytesOf node) tree
    | .error obstacle => .error ⟨obstacle, path⟩ tree := by
  have hreading := reading_eq path (·.find path) tree
  unfold read
  cases h : tree.find path with
  | ok node =>
    rw [h] at hreading
    rw [bind_of_ok hreading]
    cases node <;> rfl
  | error obstacle =>
    rw [h] at hreading
    exact bind_of_error hreading _

theorem read_of_find (h : tree.find path = .ok (.file bytes)) :
    read path tree = .ok bytes tree := by
  rw [read_eq, h]
  rfl

end Disk

end Catalogue
