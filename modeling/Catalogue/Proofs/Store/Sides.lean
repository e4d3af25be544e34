import Catalogue.Proofs.File.Tree
import Catalogue.Store.DatabaseFile

/-! The files beside a database.  Whether a database is made of an empty file, or the one that a
file holds is taken, no directory is changed, and no file but that of the database and those of its
rollback journal, its write-ahead log and the shared-memory index of that log. -/

namespace Catalogue.DatabaseFile

open FileTree

/-- The places of the rollback journal, the write-ahead log and its shared-memory index. -/
def sides (place : List String) : List (List String) := [journal place, wal place, shm place]

variable {tree mid other : FileTree} {place side at_ : List String}

theorem ne_nil_of_mem_sides (h : side ∈ sides place) : side ≠ [] := by
  simp only [sides, List.mem_cons, List.not_mem_nil, or_false] at h
  obtain rfl | rfl | rfl := h <;> simp [journal, wal, shm, beside]

theorem beside_ne {ending : String} (hplace : place ≠ []) (hending : ending.length ≠ 0) :
    beside place ending ≠ place := by
  intro he
  have hlast := congrArg List.getLast? he
  rw [beside, List.getLast?_concat, List.getLast?_eq_some_getLast hplace, Option.getD_some,
    Option.some.injEq] at hlast
  have hlength := congrArg String.length hlast
  rw [String.length_append] at hlength
  omega

theorem not_mem_sides (hplace : place ≠ []) : place ∉ sides place := by
  simp only [sides, List.mem_cons, List.not_mem_nil, or_false, not_or]
  exact ⟨(beside_ne hplace (by decide)).symm, (beside_ne hplace (by decide)).symm,
    (beside_ne hplace (by decide)).symm⟩

theorem hasDirectory_iff : isDirectoryAt tree place = true ↔ tree.HasDirectory place := by
  simp [isDirectoryAt, HasDirectory, Option.any_eq_true]

theorem isDirectoryAt_same (h : tree.SameDirectories other) (at_ : List String) :
    isDirectoryAt other at_ = isDirectoryAt tree at_ := by
  rw [Bool.eq_iff_iff, hasDirectory_iff, hasDirectory_iff, h.directories]

/-! ### What stays -/

/-- A change of files beside a database alone. -/
structure Clears (place : List String) (tree other : FileTree) : Prop where
  here : other.here = tree.here
  outside : ∀ at_, at_ ∉ sides place → other.node? at_ = tree.node? at_
  directories : ∀ at_ node, node.isDirectory = true →
    (other.node? at_ = some node ↔ tree.node? at_ = some node)

namespace Clears

theorem refl (place : List String) (tree : FileTree) : Clears place tree tree :=
  ⟨rfl, fun _ _ => rfl, fun _ _ _ => Iff.rfl⟩

theorem trans (h : Clears place tree mid) (h' : Clears place mid other) :
    Clears place tree other where
  here := h'.here.trans h.here
  outside at_ hat := (h'.outside at_ hat).trans (h.outside at_ hat)
  directories at_ node hnode :=
    (h'.directories at_ node hnode).trans (h.directories at_ node hnode)

theorem same (h : Clears place tree other) : tree.SameDirectories other :=
  ⟨h.here, fun at_ => exists_congr fun node => and_congr_left fun hnode =>
    h.directories at_ node hnode⟩

/-- The file of the database itself is not beside it. -/
theorem own (h : Clears place tree other) (hplace : place ≠ []) :
    other.node? place = tree.node? place := h.outside place (not_mem_sides hplace)

end Clears

theorem remove_clears (hside : side ∈ sides place) (h : ¬tree.HasDirectory side) :
    Clears place tree (tree.remove side) := by
  refine ⟨rfl, fun at_ hat => ?_, fun at_ node hnode => ?_⟩
  · have hne : at_ ≠ side := by
      rintro rfl
      exact hat hside
    rw [node?_remove (ne_nil_of_mem_sides hside), if_neg hne]
  · rw [node?_remove (ne_nil_of_mem_sides hside)]
    split
    · next he => exact iff_of_false nofun fun hfound => h ⟨node, he ▸ hfound, hnode⟩
    · exact Iff.rfl

theorem put_clears (hside : side ∈ sides place) (h : ¬tree.HasDirectory side) {new : Node}
    (hnew : new.isDirectory = false) : Clears place tree (tree.put side new) := by
  refine ⟨(put_same h hnew).here, fun at_ hat => ?_, fun at_ node hnode => ?_⟩
  · have hne : at_ ≠ side := by
      rintro rfl
      exact hat hside
    rw [node?_put (ne_nil_of_mem_sides hside), if_neg hne]
  · rw [node?_put (ne_nil_of_mem_sides hside)]
    split
    · next he =>
      refine iff_of_false (fun hfound => ?_) fun hfound => h ⟨node, he ▸ hfound, hnode⟩
      rw [Option.some.injEq] at hfound
      rw [← hfound, hnew] at hnode
      cases hnode
    · exact Iff.rfl

theorem not_hasDirectory_of_holdsBytes (h : holdsBytes tree side = true) :
    ¬tree.HasDirectory side := by
  rintro ⟨node, hnode, hdirectory⟩
  rw [holdsBytes, hnode] at h
  cases node <;> simp_all [Node.isDirectory]

theorem dropFull_clears (hside : side ∈ sides place) : Clears place tree (dropFull tree side) := by
  unfold dropFull
  split
  · next h => exact remove_clears hside (not_hasDirectory_of_holdsBytes h)
  · exact .refl place tree

theorem dropFile_clears (hside : side ∈ sides place) : Clears place tree (dropFile tree side) := by
  unfold dropFile
  split
  · exact .refl place tree
  · next h => exact remove_clears hside (mt hasDirectory_iff.mpr h)

theorem journal_mem (place : List String) : journal place ∈ sides place := by simp [sides]

theorem wal_mem (place : List String) : wal place ∈ sides place := by simp [sides]

theorem shm_mem (place : List String) : shm place ∈ sides place := by simp [sides]

theorem dropHot_clears (tree : FileTree) (place : List String) :
    Clears place tree (dropHot tree place) := by
  unfold dropHot
  split
  · exact .refl place tree
  · exact dropFull_clears (journal_mem place)

/-- The write-ahead log and its index are thrown away. -/
theorem dropLog_clears (tree : FileTree) (place : List String) :
    Clears place tree (dropFile (dropFile tree (wal place)) (shm place)) := by
  have hwal : Clears place tree (dropFile tree (wal place)) := dropFile_clears (wal_mem place)
  exact hwal.trans (dropFile_clears (shm_mem place))

theorem examine_clears (tree : FileTree) (place : List String) :
    Clears place tree (examine tree place).2 := by
  have hhot := dropHot_clears tree place
  unfold examine
  split
  · exact .refl place tree
  · dsimp only
    split
    · exact hhot
    · split
      · exact hhot.trans (dropLog_clears _ place)
      · exact hhot

/-! ### The write-ahead log -/

theorem startLog_clears (tree : FileTree) (place : List String) :
    Clears place tree (startLog tree place).2 := by
  unfold startLog
  split
  · dsimp only
    split
    · exact .refl place tree
    · next hnone =>
      exact put_clears (wal_mem place) (not_hasDirectory_of_empty (by simpa using hnone)) rfl
  · exact dropLog_clears tree place

theorem startLog_ok_iff :
    (startLog tree place).1 = .ok () ↔ ¬tree.HasDirectory (shm place) := by
  rw [startLog, ← hasDirectory_iff]
  split
  · next h => exact iff_of_false nofun (not_not_intro h)
  · next h => exact iff_of_true rfl h

/-! ### Databases that are there -/

theorem adopt_clears (tree : FileTree) (place : List String) :
    Clears place tree (adopt tree place).2 := by
  have hhot := dropHot_clears tree place
  unfold adopt
  split
  · exact .refl place tree
  · dsimp only
    split
    · exact hhot
    · exact hhot.trans (startLog_clears _ place)

/-- A database is taken where no directory stands in the way of the files beside it, and the name of
its log is not too long. -/
theorem adopt_ok_iff : (adopt tree place).1 = .ok () ↔
    (∀ side ∈ sides place, ¬tree.HasDirectory side) ∧ hasRoom (wal place) = true := by
  have hhot := (dropHot_clears tree place).same
  simp only [sides, List.forall_mem_cons, List.not_mem_nil, IsEmpty.forall_iff, implies_true,
    and_true, ← hasDirectory_iff]
  unfold adopt
  split
  · next h => exact iff_of_false nofun fun hall => hall.1.1 h
  · next hjournal =>
    dsimp only
    rw [isDirectoryAt_same hhot]
    split
    · next h =>
      refine iff_of_false nofun fun ⟨⟨_, hwal, _⟩, hroom⟩ => ?_
      rw [Bool.eq_false_iff.mpr hwal, hroom] at h
      cases h
    · next h =>
      rw [startLog_ok_iff, hhot.directories, ← hasDirectory_iff]
      simp only [Bool.or_eq_true, Bool.not_eq_true', not_or, Bool.not_eq_false] at h
      simp [hjournal, h]

/-! ### Databases that are made -/

/-- The tree in which a file stands where a database is made. -/
def withFile (tree : FileTree) (place : List String) : FileTree :=
  if (tree.node? place).isSome then tree else tree.put place (.file [])

/-- That tree without an old journal. -/
def unjournaled (tree : FileTree) (place : List String) : FileTree :=
  dropFull (withFile tree place) (journal place)

/-- That tree without an old log as well. -/
def unlogged (tree : FileTree) (place : List String) : FileTree :=
  dropFull (unjournaled tree place) (wal place)

/-- The tree with a new database. -/
def made (tree : FileTree) (place : List String) : FileTree :=
  ((unlogged tree place).put place .database).remove (journal place)

theorem create_eq (tree : FileTree) (place : List String) :
    create tree place =
      if isDirectoryAt (unjournaled tree place) (wal place) then
        (.error .sideUnreadable, unjournaled tree place)
      else if isDirectoryAt (unlogged tree place) (journal place) || !hasRoom (journal place) then
        (.error .sideUnavailable, unlogged tree place)
      else startLog (made tree place) place := rfl

theorem withFile_same (h : ¬tree.HasDirectory place) :
    tree.SameDirectories (withFile tree place) := by
  unfold withFile
  split
  · exact .refl tree
  · exact put_same h rfl

theorem unjournaled_clears (tree : FileTree) (place : List String) :
    Clears place (withFile tree place) (unjournaled tree place) :=
  dropFull_clears (journal_mem place)

theorem unlogged_clears (tree : FileTree) (place : List String) :
    Clears place (withFile tree place) (unlogged tree place) :=
  (unjournaled_clears tree place).trans (dropFull_clears (wal_mem place))

theorem unlogged_same (h : ¬tree.HasDirectory place) :
    tree.SameDirectories (unlogged tree place) :=
  (withFile_same h).trans (unlogged_clears tree place).same

/-- The new database stands where the file stood, and the rest of the change is beside it. -/
theorem made_clears (h : ¬tree.HasDirectory place) (hjournal : ¬tree.HasDirectory (journal place)) :
    Clears place ((unlogged tree place).put place .database) (made tree place) := by
  have hunlogged := unlogged_same h
  have hput : (unlogged tree place).SameDirectories ((unlogged tree place).put place .database) :=
    put_same (mt (hunlogged.directories place).mp h) rfl
  refine remove_clears (journal_mem place) fun hd => hjournal ?_
  exact (hunlogged.directories _).mp ((hput.directories _).mp hd)

theorem made_same (h : ¬tree.HasDirectory place) (hjournal : ¬tree.HasDirectory (journal place)) :
    tree.SameDirectories (made tree place) := by
  have hunlogged := unlogged_same h
  have hput : (unlogged tree place).SameDirectories ((unlogged tree place).put place .database) :=
    put_same (mt (hunlogged.directories place).mp h) rfl
  exact (hunlogged.trans hput).trans (made_clears h hjournal).same

theorem node?_made (h : ¬tree.HasDirectory place) (hjournal : ¬tree.HasDirectory (journal place)) :
    (made tree place).node? place = some .database := by
  have hplace := ne_nil_of_not_hasDirectory h
  rw [(made_clears h hjournal).own hplace, node?_put hplace, if_pos rfl]

/-- A database is made where no directory stands in the way of the files beside it, and the name of
its journal is not too long. -/
theorem create_ok_iff (h : ¬tree.HasDirectory place) : (create tree place).1 = .ok () ↔
    (∀ side ∈ sides place, ¬tree.HasDirectory side) ∧ hasRoom (journal place) = true := by
  have hunjournaled := (withFile_same h).trans (unjournaled_clears tree place).same
  simp only [sides, List.forall_mem_cons, List.not_mem_nil, IsEmpty.forall_iff, implies_true,
    and_true, ← hasDirectory_iff]
  rw [create_eq, isDirectoryAt_same hunjournaled, isDirectoryAt_same (unlogged_same h)]
  split
  · next hwal => exact iff_of_false nofun fun hall => hall.1.2.1 hwal
  · next hwal =>
    split
    · next hblocked =>
      refine iff_of_false nofun fun ⟨⟨hjournal, _⟩, hroom⟩ => ?_
      rw [Bool.eq_false_iff.mpr hjournal, hroom] at hblocked
      cases hblocked
    · next hclear =>
      simp only [Bool.or_eq_true, Bool.not_eq_true', not_or, Bool.not_eq_false] at hclear
      have hjournal := mt hasDirectory_iff.mpr hclear.1
      rw [startLog_ok_iff, (made_same h hjournal).directories, ← hasDirectory_iff]
      simp [hwal, hclear]

/-- Where a database was made, it stands at its place, and the directories are the same. -/
theorem create_spec (h : ¬tree.HasDirectory place) (hok : (create tree place).1 = .ok ()) :
    tree.SameDirectories (create tree place).2 ∧
      (create tree place).2.node? place = some .database := by
  obtain ⟨hsides, hroom⟩ := (create_ok_iff h).mp hok
  have hjournal := hsides _ (journal_mem place)
  have hwal := mt hasDirectory_iff.mp (hsides _ (wal_mem place))
  have hunjournaled := (withFile_same h).trans (unjournaled_clears tree place).same
  have heq : create tree place = startLog (made tree place) place := by
    rw [create_eq, isDirectoryAt_same hunjournaled, isDirectoryAt_same (unlogged_same h),
      if_neg hwal, Bool.eq_false_iff.mpr (mt hasDirectory_iff.mp hjournal), hroom]
    rfl
  have hlog := startLog_clears (made tree place) place
  rw [heq]
  exact ⟨(made_same h hjournal).trans hlog.same,
    (hlog.own (ne_nil_of_not_hasDirectory h)).trans (node?_made h hjournal)⟩

end Catalogue.DatabaseFile
