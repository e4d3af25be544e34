import Catalogue.Proofs.File.Writing
import Catalogue.Proofs.File.Written

/-! Trees that grow: their directories stay, and their files stay as they are.  A file that a
program has open can be written at its end again and again. -/

namespace Catalogue

open FileTree

namespace FileTree

variable {tree mid other : FileTree} {path file : Path} {place : List String}

/-- The directories of a tree stay, and its files stay as they are. -/
structure Grows (tree other : FileTree) : Prop where
  keeps : tree.Keeps other
  files {place : List String} {bytes : List UInt8} :
    tree.node? place = some (.file bytes) → other.node? place = some (.file bytes)

theorem Grows.refl (tree : FileTree) : tree.Grows tree := ⟨(SameDirectories.refl tree).keeps, id⟩

theorem Grows.trans (h : tree.Grows mid) (h' : mid.Grows other) : tree.Grows other :=
  ⟨h.keeps.trans h'.keeps, fun hfile => h'.files (h.files hfile)⟩

theorem grows_of_spares (h : ∀ place, Spares place tree other) : tree.Grows other :=
  ⟨(h []).keeps, fun {place} _ hfile => (h place).node hfile⟩

/-! ### Files that are open -/

theorem foldlM_step_eq {names start : List String} (hnames : ".." ∉ names)
    (h : names.foldlM tree.step start = .ok place) : place = start ++ names := by
  induction names generalizing start with
  | nil =>
    cases h
    rw [List.append_nil]
  | cons name names ih =>
    obtain ⟨hname, hrest⟩ := not_or.mp (mt List.mem_cons.mpr hnames)
    rw [List.foldlM_cons] at h
    obtain ⟨next, hstep, h⟩ := bind_eq_ok.mp h
    obtain ⟨-, -, rfl⟩ := step_ok_iff.mp hstep
    rw [ih hrest h, if_neg (Ne.symm hname), List.append_assoc, List.singleton_append]

/-- A plain path leads to the place that its names spell. -/
theorem place_of_follow (hplain : path.IsPlain) (h : tree.follow path = .ok place) :
    place = path.names := by
  have hsteps := foldlM_of_follow h
  rw [if_neg hplain.1] at hsteps
  exact foldlM_step_eq hplain.2 hsteps

/-- A program has the file open: it is written as it was, without `..`, and leads to a file. -/
structure Opened (tree : FileTree) (file : Path) : Prop where
  plain : file.IsPlain
  follow : tree.follow file = .ok file.names
  node : ∃ bytes, tree.node? file.names = some (.file bytes)

theorem Opened.mono (h : tree.Opened file) (hgrows : tree.Grows other) : other.Opened file := by
  obtain ⟨bytes, hnode⟩ := h.node
  exact ⟨h.plain, follow_keeps hgrows.keeps h.follow, bytes, hgrows.files hnode⟩

theorem Opened.not_hasDirectory (h : tree.Opened file) : ¬tree.HasDirectory file.names := by
  obtain ⟨bytes, hnode⟩ := h.node
  rintro ⟨node, hnode', hdirectory⟩
  rw [hnode, Option.some.injEq] at hnode'
  subst hnode'
  cases hdirectory

/-- The bytes of the file at a place; none where there is no file. -/
def bytesAt (tree : FileTree) (place : List String) : List UInt8 :=
  (tree.node? place).elim [] Disk.bytesOf

theorem bytesAt_put (h : ¬tree.HasDirectory place) (bytes : List UInt8) (at_ : List String) :
    (tree.put place (.file bytes)).bytesAt at_ =
      if at_ = place then bytes else tree.bytesAt at_ := by
  rw [bytesAt, node?_put (ne_nil_of_not_hasDirectory h)]
  split <;> rfl

theorem Opened.put (h : tree.Opened file) (hplace : ¬tree.HasDirectory place)
    (bytes : List UInt8) : (tree.put place (.file bytes)).Opened file := by
  refine ⟨h.plain, follow_keeps (put_keeps hplace _) h.follow, ?_⟩
  rw [node?_put (ne_nil_of_not_hasDirectory hplace)]
  split
  · exact ⟨bytes, rfl⟩
  · exact h.node

end FileTree

namespace Disk

variable {tree after : FileTree} {path file : Path} {place : List String}

theorem append_eq (path : Path) (bytes : List UInt8) (tree : FileTree) :
    append path bytes tree = match tree.writable? path with
      | .ok place => .ok () (tree.put place (.file (tree.bytesAt place ++ bytes)))
      | .error obstacle => .error ⟨obstacle, path⟩ tree := by
  have hreading := reading_eq path (·.writable? path) tree
  unfold append
  cases h : tree.writable? path with
  | ok place =>
    rw [h] at hreading
    rw [bind_of_ok hreading]
    rfl
  | error obstacle =>
    rw [h] at hreading
    exact bind_of_error hreading _

theorem append_of_opened (h : tree.Opened file) (bytes : List UInt8) :
    append file bytes tree =
      .ok () (tree.put file.names (.file (tree.bytesAt file.names ++ bytes))) := by
  obtain ⟨old, hnode⟩ := h.node
  have hwritable : tree.writable? file = .ok file.names := by
    rw [DatabaseFile.writable?_eq, h.follow]
    change DatabaseFile.writableAt tree file.names = _
    rw [DatabaseFile.writableAt, hnode]
    rfl
  rw [append_eq, hwritable]

theorem eq_of_failed_append {bytes : List UInt8} {e : PathFault}
    (h : append path bytes tree = .error e after) : after = tree := by
  rw [append_eq] at h
  split at h
  · cases h
  · cases h
    rfl

/-- A file is open once nothing was written at its end. -/
theorem opened_of_append (hplain : file.IsPlain) (h : append file [] tree = .ok () after) :
    tree.Grows after ∧ after.Opened file := by
  rw [append_eq] at h
  split at h
  · next place hwritable =>
    cases h
    obtain ⟨hfollow, hplace⟩ := DatabaseFile.not_hasDirectory_of_writable? hwritable
    obtain rfl := place_of_follow hplain hfollow
    have hkeeps := put_keeps hplace (.file (tree.bytesAt file.names ++ []))
    have hroot := ne_nil_of_not_hasDirectory hplace
    refine ⟨⟨hkeeps, fun {at_} bytes hnode => ?_⟩, hplain, follow_keeps hkeeps hfollow, ?_⟩
    · rw [node?_put hroot]
      split
      · next hat =>
        rw [bytesAt, ← hat, hnode, List.append_nil]
        rfl
      · exact hnode
    · rw [node?_put hroot, if_pos rfl]
      exact ⟨_, rfl⟩
  · cases h

/-- Writes at the ends of files that are open reach each file as often as it is named. -/
theorem forM_append {files : List Path} (hfiles : ∀ file ∈ files, tree.Opened file)
    (bytes : List UInt8) :
    ∃ after, (files.forM fun file => do let _ ← attempt (append file bytes)) tree =
        .ok () after ∧
      ∀ place, after.bytesAt place = tree.bytesAt place ++
          (List.replicate (files.countP fun file => decide (file.names = place)) bytes).flatten ∧
        ((∀ file ∈ files, file.names ≠ place) → after.node? place = tree.node? place) := by
  induction files generalizing tree with
  | nil => exact ⟨tree, rfl, fun place => ⟨by simp, fun _ => rfl⟩⟩
  | cons file files ih =>
    obtain ⟨hfile, hrest⟩ := List.forall_mem_cons.mp hfiles
    have hplace := hfile.not_hasDirectory
    obtain ⟨after, hafter, hplaces⟩ := ih fun other hother => (hrest other hother).put hplace
      (tree.bytesAt file.names ++ bytes)
    refine ⟨after, ?_, fun place => ?_⟩
    · have hattempt : (do let _ ← attempt (append file bytes) : Disk Unit) tree =
          .ok () (tree.put file.names (.file (tree.bytesAt file.names ++ bytes))) := by
        have happend : attempt (append file bytes) tree =
            .ok (some ()) (tree.put file.names (.file (tree.bytesAt file.names ++ bytes))) := by
          rw [attempt, append_of_opened hfile]
        exact bind_of_ok happend _
      exact (bind_of_ok hattempt fun _ => files.forM _).trans hafter
    · obtain ⟨hbytes, hothers⟩ := hplaces place
      rw [bytesAt_put hplace] at hbytes
      rw [List.countP_cons]
      by_cases hat : file.names = place
      · rw [if_pos hat.symm] at hbytes
        refine ⟨?_, fun hnone => absurd hat (hnone file List.mem_cons_self)⟩
        rw [hbytes, if_pos (decide_eq_true hat), List.replicate_succ, List.flatten_cons,
          List.append_assoc, hat]
      · rw [if_neg (Ne.symm hat)] at hbytes
        rw [if_neg (by simpa using hat)]
        refine ⟨hbytes, fun hnone => ?_⟩
        rw [hothers fun other hother => hnone other (List.mem_cons_of_mem _ hother),
          node?_put (ne_nil_of_not_hasDirectory hplace), if_neg (Ne.symm hat)]

end Disk

end Catalogue
