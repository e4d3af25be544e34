import Catalogue.File.Tree
import Catalogue.Proofs.Results

/-! Trees of files: what stands at a place after a change, and paths that go on to lead where they
led while no directory is lost. -/

namespace Catalogue

namespace FileTree

/-! ### Places -/

theorem node?_root (tree : FileTree) : tree.node? [] = some .directory := by simp [node?]

theorem lookup_cons_eq (at_ other : List String) (node : Node)
    (nodes : List (List String × Node)) :
    List.lookup other ((at_, node) :: nodes) =
      if other = at_ then some node else nodes.lookup other := by
  rw [List.lookup_cons]
  by_cases h : other = at_
  · subst h
    simp
  · rw [if_neg h, beq_eq_false_iff_ne.mpr h]

theorem lookup_filter (place other : List String) (nodes : List (List String × Node)) :
    (nodes.filter (·.1 ≠ place)).lookup other =
      if other = place then none else nodes.lookup other := by
  induction nodes with
  | nil => simp
  | cons n nodes ih =>
    obtain ⟨at_, node⟩ := n
    rw [lookup_cons_eq]
    by_cases hn : at_ = place
    · rw [List.filter_cons_of_neg (by simpa using hn), ih]
      subst hn
      split <;> rfl
    · rw [List.filter_cons_of_pos (by simpa using hn), lookup_cons_eq, ih]
      by_cases ho : other = place
      · subst ho
        simp [Ne.symm hn]
      · simp [ho]

theorem lookup_map_replace (place other : List String) (node : Node)
    (nodes : List (List String × Node)) :
    (nodes.map fun n => if n.1 = place then (place, node) else n).lookup other =
      if other = place then (nodes.lookup place).map fun _ => node else nodes.lookup other := by
  induction nodes with
  | nil => simp
  | cons n nodes ih =>
    obtain ⟨at_, old⟩ := n
    rw [List.map_cons]
    by_cases hn : at_ = place
    · subst hn
      rw [if_pos rfl, lookup_cons_eq, lookup_cons_eq, lookup_cons_eq, if_pos rfl, ih]
      split <;> rfl
    · rw [if_neg hn, lookup_cons_eq, lookup_cons_eq, lookup_cons_eq, if_neg (Ne.symm hn), ih]
      by_cases ho : other = place
      · subst ho
        simp [Ne.symm hn]
      · simp [ho]

theorem node?_put {place : List String} (hplace : place ≠ []) (tree : FileTree) (node : Node)
    (other : List String) :
    (tree.put place node).node? other = if other = place then some node else tree.node? other := by
  unfold node? put
  by_cases ho : other = []
  · simp [ho, Ne.symm hplace]
  · rw [if_neg ho, if_neg ho]
    cases h : tree.nodes.lookup place with
    | some old =>
      rw [Option.isSome_some, if_pos rfl, lookup_map_replace, h]
      rfl
    | none =>
      rw [Option.isSome_none, if_neg Bool.false_ne_true, List.lookup_append, lookup_cons_eq]
      by_cases hp : other = place
      · simp [hp, h]
      · simp [hp]

theorem node?_remove {place : List String} (hplace : place ≠ []) (tree : FileTree)
    (other : List String) :
    (tree.remove place).node? other = if other = place then none else tree.node? other := by
  unfold node? remove
  rw [lookup_filter]
  by_cases ho : other = []
  · simp [ho, Ne.symm hplace]
  · rw [if_neg ho, if_neg ho]

/-! ### Directories -/

/-- A directory stands at a place. -/
def HasDirectory (tree : FileTree) (place : List String) : Prop :=
  ∃ node, tree.node? place = some node ∧ node.isDirectory = true

theorem ne_nil_of_not_hasDirectory {tree : FileTree} {place : List String}
    (h : ¬tree.HasDirectory place) : place ≠ [] := by
  rintro rfl
  exact h ⟨_, node?_root tree, rfl⟩

/-- Every directory of one tree is one of the other tree too. -/
structure Keeps (tree other : FileTree) : Prop where
  here : other.here = tree.here
  directories : ∀ place, tree.HasDirectory place → other.HasDirectory place

theorem Keeps.trans {tree mid other : FileTree} (h : tree.Keeps mid) (h' : mid.Keeps other) :
    tree.Keeps other :=
  ⟨h'.here.trans h.here, fun place hd => h'.directories place (h.directories place hd)⟩

/-- Two trees have the same directories. -/
structure SameDirectories (tree other : FileTree) : Prop where
  here : other.here = tree.here
  directories : ∀ place, other.HasDirectory place ↔ tree.HasDirectory place

theorem SameDirectories.refl (tree : FileTree) : tree.SameDirectories tree :=
  ⟨rfl, fun _ => Iff.rfl⟩

theorem SameDirectories.trans {tree mid other : FileTree} (h : tree.SameDirectories mid)
    (h' : mid.SameDirectories other) : tree.SameDirectories other :=
  ⟨h'.here.trans h.here, fun place => (h'.directories place).trans (h.directories place)⟩

theorem SameDirectories.keeps {tree other : FileTree} (h : tree.SameDirectories other) :
    tree.Keeps other := ⟨h.here, fun place => (h.directories place).mpr⟩

theorem put_same {tree : FileTree} {place : List String} (h : ¬tree.HasDirectory place)
    {node : Node} (hnode : node.isDirectory = false) :
    tree.SameDirectories (tree.put place node) := by
  have hplace := ne_nil_of_not_hasDirectory h
  refine ⟨by unfold put; split <;> rfl, fun other => ?_⟩
  rw [HasDirectory, node?_put hplace]
  split
  · next he =>
    subst he
    exact ⟨fun ⟨found, hfound, hd⟩ => by simp_all, fun hd => absurd hd h⟩
  · exact Iff.rfl

theorem remove_same {tree : FileTree} {place : List String} (h : ¬tree.HasDirectory place) :
    tree.SameDirectories (tree.remove place) := by
  have hplace := ne_nil_of_not_hasDirectory h
  refine ⟨rfl, fun other => ?_⟩
  rw [HasDirectory, node?_remove hplace]
  split
  · next he =>
    subst he
    exact ⟨fun ⟨found, hfound, _⟩ => absurd hfound (by simp), fun hd => absurd hd h⟩
  · exact Iff.rfl

theorem put_keeps {tree : FileTree} {place : List String} (h : ¬tree.HasDirectory place)
    (node : Node) : tree.Keeps (tree.put place node) := by
  have hplace := ne_nil_of_not_hasDirectory h
  refine ⟨by unfold put; split <;> rfl, fun other hother => ?_⟩
  have hne : other ≠ place := fun he => h (he ▸ hother)
  rw [HasDirectory, node?_put hplace, if_neg hne]
  exact hother

theorem step_ok_iff {tree : FileTree} {place next : List String} {name : String} :
    tree.step place name = .ok next ↔ tree.HasDirectory place ∧
      name.utf8ByteSize ≤ nameLimit ∧
      next = if name = ".." then place.dropLast else place ++ [name] := by
  unfold step HasDirectory
  cases h : tree.node? place with
  | none => simp
  | some node =>
    cases hd : node.isDirectory with
    | false => simp [hd]
    | true =>
      by_cases hn : nameLimit < name.utf8ByteSize
      · simp [hd, hn, Nat.not_le.mpr hn]
      · simp only [hd, hn, Nat.not_lt.mp hn, Bool.not_true, Bool.false_eq_true, if_false,
          Except.ok.injEq, Option.some.injEq, exists_eq_left', true_and]
        exact eq_comm

theorem foldlM_step_keeps {tree other : FileTree} (hkeeps : tree.Keeps other)
    {names : List String} {start place : List String}
    (h : names.foldlM tree.step start = .ok place) : names.foldlM other.step start = .ok place := by
  induction names generalizing start with
  | nil => exact h
  | cons name names ih =>
    rw [List.foldlM_cons] at h ⊢
    obtain ⟨next, hstep, h⟩ := bind_eq_ok.mp h
    obtain ⟨hstart, hname⟩ := step_ok_iff.mp hstep
    rw [step_ok_iff.mpr ⟨hkeeps.directories _ hstart, hname⟩]
    exact ih h

theorem foldlM_of_follow {tree : FileTree} {path : Path} {place : List String}
    (h : tree.follow path = .ok place) :
    path.names.foldlM tree.step (if path.root = .relative then tree.here else []) = .ok place := by
  unfold follow at h
  split at h
  · cases h
  · split at h
    · cases h
    · exact h

/-- A path leads where it led before. -/
theorem follow_keeps {tree other : FileTree} (hkeeps : tree.Keeps other) {path : Path}
    {place : List String} (h : tree.follow path = .ok place) : other.follow path = .ok place := by
  unfold follow at h ⊢
  split at h
  · cases h
  · split at h
    · cases h
    · next hnull hlength =>
      rw [if_neg hnull, if_neg hlength, hkeeps.here]
      exact foldlM_step_keeps hkeeps h

theorem isDirectory_iff {tree : FileTree} {path : Path} :
    tree.isDirectory path = true ↔ ∃ place, tree.follow path = .ok place ∧
      tree.HasDirectory place := by
  unfold isDirectory find HasDirectory
  cases h : tree.follow path with
  | error e => simp [bind, Except.bind]
  | ok place => cases hn : tree.node? place <;> simp [bind, Except.bind, hn, pure, Except.pure]

theorem isDirectory_keeps {tree other : FileTree} (hkeeps : tree.Keeps other) {path : Path}
    (h : tree.isDirectory path = true) : other.isDirectory path = true := by
  obtain ⟨place, hplace, hdirectory⟩ := isDirectory_iff.mp h
  exact isDirectory_iff.mpr ⟨place, follow_keeps hkeeps hplace, hkeeps.directories _ hdirectory⟩

/-- A new directory stands at a place where nothing stood. -/
theorem makeDirectory?_eq_ok {tree other : FileTree} {path : Path}
    (h : tree.makeDirectory? path = .ok other) :
    ∃ place, tree.follow path = .ok place ∧ tree.node? place = none ∧
      other = tree.put place .directory := by
  unfold makeDirectory? at h
  cases hfollow : tree.follow path with
  | error e =>
    rw [hfollow] at h
    cases h
  | ok place =>
    rw [hfollow] at h
    cases hnode : tree.node? place with
    | some node => simp [bind, Except.bind, hnode, throw, throwThe, MonadExceptOf.throw] at h
    | none =>
      refine ⟨place, rfl, hnode, ?_⟩
      cases hfree : tree.isFree place <;>
        simp [bind, Except.bind, hnode, hfree, throw, throwThe, MonadExceptOf.throw, pure,
          Except.pure] at h
      exact h.symm

theorem not_hasDirectory_of_empty {tree : FileTree} {place : List String}
    (h : tree.node? place = none) : ¬tree.HasDirectory place := by
  rintro ⟨node, hnode, -⟩
  rw [h] at hnode
  cases hnode

theorem isDirectory_of_makeDirectory? {tree other : FileTree} {path : Path}
    (h : tree.makeDirectory? path = .ok other) : other.isDirectory path = true := by
  obtain ⟨place, hfollow, hnode, rfl⟩ := makeDirectory?_eq_ok h
  have hplace : place ≠ [] := by
    rintro rfl
    simp [node?_root] at hnode
  have hkeeps := put_keeps (not_hasDirectory_of_empty hnode) .directory
  refine isDirectory_iff.mpr ⟨place, follow_keeps hkeeps hfollow, .directory, ?_, rfl⟩
  rw [node?_put hplace, if_pos rfl]

theorem makeDirectory?_of_isDirectory {tree : FileTree} {path : Path}
    (h : tree.isDirectory path = true) : tree.makeDirectory? path = .error .occupied := by
  obtain ⟨place, hplace, node, hnode, -⟩ := isDirectory_iff.mp h
  simp [makeDirectory?, hplace, hnode, bind, Except.bind, throw, throwThe, MonadExceptOf.throw]

end FileTree

end Catalogue
