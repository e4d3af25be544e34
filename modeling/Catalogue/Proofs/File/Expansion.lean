import Catalogue.File.Environment
import Mathlib.Data.List.Basic
import Mathlib.Data.List.TakeDrop
import Mathlib.Data.List.TakeWhile

/-! What the expansion of `~` and of variables gives, as relations between a text and what it stands
for. -/

namespace Catalogue.Environment

variable {env : Environment} {cs out name written rest done : List Char} {s t : String}

/-! ### Variables -/

/-- What stands after a dollar sign refers to a variable: by the longest row of letters, digits and
`_`, or by all that stands in braces. -/
inductive Refers : (written name rest : List Char) → Prop
  | bare {name rest : List Char} (nonempty : name ≠ []) (row : ∀ c ∈ name, isNameChar c = true)
      (ends : ∀ c ∈ rest.head?, isNameChar c = false) : Refers name name rest
  | braced {name rest : List Char} (inside : '\x7d' ∉ name) :
      Refers ('\x7b' :: (name ++ ['\x7d'])) name rest

/-- A text stands for another one: the variables that are known stand for their values, and all else
for itself. -/
inductive Expands (env : Environment) : List Char → List Char → Prop
  | nil : Expands env [] []
  | plain {c : Char} {cs out : List Char} (noDollar : c ≠ '$') (others : Expands env cs out) :
      Expands env (c :: cs) (c :: out)
  | dollar {cs out : List Char}
      (alone : ∀ written name rest, cs = written ++ rest → ¬Refers written name rest)
      (others : Expands env cs out) : Expands env ('$' :: cs) ('$' :: out)
  | unknown {written name rest out : List Char} (refers : Refers written name rest)
      (unknown : env.get? (.ofList name) = none) (others : Expands env rest out) :
      Expands env ('$' :: (written ++ rest)) ('$' :: (written ++ out))
  | known {written name rest out : List Char} {value : String} (refers : Refers written name rest)
      (known : env.get? (.ofList name) = some value) (others : Expands env rest out) :
      Expands env ('$' :: (written ++ rest)) (value.toList ++ out)

theorem takeWhile_of_ends {p : Char → Bool} (hrow : ∀ c ∈ name, p c = true)
    (hends : ∀ c ∈ rest.head?, p c = false) :
    (name ++ rest).takeWhile p = name ∧ (name ++ rest).dropWhile p = rest := by
  have hrest : rest.takeWhile p = [] ∧ rest.dropWhile p = rest := by
    cases rest with
    | nil => exact ⟨rfl, rfl⟩
    | cons c rest =>
      have hc : p c = false := hends c rfl
      exact ⟨List.takeWhile_cons_of_neg (by simp [hc]), List.dropWhile_cons_of_neg (by simp [hc])⟩
  rw [List.takeWhile_append_of_pos hrow, List.dropWhile_append_of_pos hrow, hrest.1, hrest.2,
    List.append_nil]
  exact ⟨rfl, rfl⟩

theorem head?_dropWhile (cs : List Char) {p : Char → Bool} :
    ∀ c ∈ (cs.dropWhile p).head?, p c = false := by
  intro c hc
  have hnot := List.head?_dropWhile_not p cs
  rw [Option.mem_def.mp hc] at hnot
  simpa using hnot

theorem variableAt?_of_refers (h : Refers written name rest) :
    variableAt? (written ++ rest) = some (.ofList name, rest) := by
  cases h with
  | bare hname hrow hends =>
    obtain ⟨htake, hdrop⟩ := takeWhile_of_ends hrow hends
    obtain ⟨c, cs, rfl⟩ := List.exists_cons_of_ne_nil hname
    have hbrace : c ≠ '\x7b' := by
      rintro rfl
      exact absurd (hrow _ List.mem_cons_self) (by decide)
    unfold variableAt?
    split
    · next heq =>
      rw [List.cons_append] at heq
      exact absurd (List.cons.inj heq).1 hbrace
    · dsimp only
      rw [htake, hdrop]
      rfl
  | braced hinside =>
    have hrow : ∀ c ∈ name, decide (c ≠ '\x7d') = true := by
      intro c hc
      exact decide_eq_true fun h => hinside (h ▸ hc)
    have hends : ∀ c ∈ ('\x7d' :: rest).head?, decide (c ≠ '\x7d') = false := by
      rintro _ ⟨⟩
      rfl
    obtain ⟨htake, hdrop⟩ := takeWhile_of_ends hrow hends
    have hwritten : ('\x7b' :: (name ++ ['\x7d'])) ++ rest =
        '\x7b' :: (name ++ '\x7d' :: rest) := by simp
    rw [hwritten, variableAt?, hdrop, htake]

theorem exists_refers_of_variableAt? {named : String} (h : variableAt? cs = some (named, rest)) :
    ∃ written, cs = written ++ rest ∧ Refers written named.toList rest := by
  unfold variableAt? at h
  split at h
  · next inner =>
    have hsplit := List.takeWhile_append_dropWhile (p := fun c => decide (c ≠ '\x7d')) (l := inner)
    split at h
    · next c after hdrop =>
      cases h
      have hc : c = '\x7d' := by
        have hends := head?_dropWhile inner c (by rw [hdrop]; rfl)
        simpa using hends
      rw [hdrop, hc] at hsplit
      refine ⟨'\x7b' :: (inner.takeWhile (fun c => decide (c ≠ '\x7d')) ++ ['\x7d']), ?_, ?_⟩
      · simpa using hsplit.symm
      · rw [String.toList_ofList]
        refine .braced fun hmem => ?_
        have hrow := List.mem_takeWhile_imp hmem
        exact absurd hrow (by decide)
    · cases h
  · dsimp only at h
    split at h
    · cases h
    · next hname =>
      cases h
      refine ⟨cs.takeWhile isNameChar, (List.takeWhile_append_dropWhile).symm, ?_⟩
      rw [String.toList_ofList]
      exact .bare (by simpa using hname) (fun c hc => List.mem_takeWhile_imp hc)
        (head?_dropWhile cs)

/-- What is done already stays in front. -/
theorem expandFrom_dollar (env : Environment) (done cs : List Char) :
    env.expandFrom done ('$' :: cs) = match variableAt? cs with
      | none => env.expandFrom ('$' :: done) cs
      | some (name, after) => match env.get? name with
        | some value => env.expandFrom (value.toList.reverse ++ done) after
        | none =>
          env.expandFrom ((('$' :: cs).take (cs.length + 1 - after.length)).reverse ++ done)
            after := by
  rw [expandFrom]
  split
  · next h => rw [h]
  · next name after h =>
    cases hvalue : env.get? name <;> simp only [h, hvalue]

theorem expandFrom_eq_of_expands (h : Expands env cs out) (done : List Char) :
    env.expandFrom done cs = done.reverse ++ out := by
  induction h generalizing done with
  | nil => rw [expandFrom, List.append_nil]
  | plain hc _ ih =>
    rw [expandFrom, ih, List.reverse_cons, List.append_assoc, List.singleton_append]
    exact hc
  | @dollar cs _ halone _ ih =>
    have hnone : variableAt? cs = none := by
      rw [Option.eq_none_iff_forall_not_mem]
      rintro ⟨named, rest⟩ hsome
      obtain ⟨written, hcs, hrefers⟩ := exists_refers_of_variableAt? hsome
      exact halone _ _ _ hcs hrefers
    rw [expandFrom_dollar, hnone]
    dsimp only
    rw [ih, List.reverse_cons, List.append_assoc, List.singleton_append]
  | @unknown written name rest out hrefers hnone _ ih =>
    have hwritten : ('$' :: (written ++ rest)).take ((written ++ rest).length + 1 - rest.length) =
        '$' :: written := by
      rw [List.length_append, show written.length + rest.length + 1 - rest.length =
        written.length + 1 by omega, List.take_succ_cons, List.take_left]
    rw [expandFrom_dollar, variableAt?_of_refers hrefers]
    dsimp only
    rw [hnone]
    dsimp only
    rw [hwritten, ih]
    simp
  | @known written name rest out value hrefers hsome _ ih =>
    rw [expandFrom_dollar, variableAt?_of_refers hrefers]
    dsimp only
    rw [hsome]
    dsimp only
    rw [ih]
    simp

theorem exists_expands (env : Environment) (cs : List Char) : ∃ out, Expands env cs out := by
  induction hlength : cs.length using Nat.strong_induction_on generalizing cs with
  | _ n ih =>
    subst hlength
    cases cs with
    | nil => exact ⟨_, .nil⟩
    | cons c cs =>
      by_cases hc : c = '$'
      · subst hc
        cases hvariable : variableAt? cs with
        | none =>
          obtain ⟨out, hout⟩ := ih cs.length (Nat.lt_succ_self _) cs rfl
          refine ⟨_, .dollar (fun written name rest hcs hrefers => ?_) hout⟩
          rw [hcs, variableAt?_of_refers hrefers] at hvariable
          cases hvariable
        | some found =>
          obtain ⟨named, rest⟩ := found
          have hshorter := variableAt?_shorter hvariable
          obtain ⟨out, hout⟩ := ih rest.length (Nat.lt_succ_of_le hshorter) rest rfl
          obtain ⟨written, rfl, hrefers⟩ := exists_refers_of_variableAt? hvariable
          have hnamed : String.ofList named.toList = named := String.ofList_toList
          cases hvalue : env.get? named with
          | none => exact ⟨_, .unknown hrefers (by rw [hnamed, hvalue]) hout⟩
          | some value => exact ⟨_, .known hrefers (by rw [hnamed, hvalue]) hout⟩
      · obtain ⟨out, hout⟩ := ih cs.length (Nat.lt_succ_self _) cs rfl
        exact ⟨_, .plain hc hout⟩

/-- A text stands for exactly one other one, the one with the values of its variables. -/
theorem expands_iff : Expands env s.toList t.toList ↔ env.expandVariables s = t := by
  have hall (out : List Char) (h : Expands env s.toList out) :
      (env.expandVariables s).toList = out := by
    rw [expandVariables, String.toList_ofList, expandFrom_eq_of_expands h, List.reverse_nil,
      List.nil_append]
  constructor
  · intro h
    rw [← String.ofList_toList (s := t), ← hall _ h, String.ofList_toList]
  · rintro rfl
    obtain ⟨out, hout⟩ := exists_expands env s.toList
    rw [hall out hout]
    exact hout

/-! ### Home directories -/

/-- A text stands for one with the home directory of a user for `~` or `~user` at its front, if that
directory is known, and else for itself. -/
inductive ExpandsHome (env : Environment) (s : String) : String → Prop
  | plain (noTilde : s.toList.head? ≠ some '~') : ExpandsHome env s s
  | unknown {user rest : List Char} (written : s.toList = '~' :: (user ++ rest))
      (inside : '/' ∉ user) (ends : ∀ c ∈ rest.head?, c = '/')
      (unknown : env.home? (.ofList user) = none) : ExpandsHome env s s
  | known {user rest : List Char} {home : String} (written : s.toList = '~' :: (user ++ rest))
      (inside : '/' ∉ user) (ends : ∀ c ∈ rest.head?, c = '/')
      (known : env.home? (.ofList user) = some home)
      (nonempty : withoutSlashes home ++ .ofList rest ≠ "") :
      ExpandsHome env s (withoutSlashes home ++ .ofList rest)
  | root {user rest : List Char} {home : String} (written : s.toList = '~' :: (user ++ rest))
      (inside : '/' ∉ user) (ends : ∀ c ∈ rest.head?, c = '/')
      (known : env.home? (.ofList user) = some home)
      (empty : withoutSlashes home ++ .ofList rest = "") : ExpandsHome env s "/"

theorem expandsHome (env : Environment) (s : String) : ExpandsHome env s (env.expandHome s) := by
  unfold expandHome
  split
  · next cs hcs =>
    rw [List.span_eq_takeWhile_dropWhile]
    dsimp only
    have hwritten : s.toList = '~' :: (cs.takeWhile (fun c => decide (c ≠ '/')) ++
        cs.dropWhile fun c => decide (c ≠ '/')) := by
      rw [hcs, List.takeWhile_append_dropWhile]
    have hinside : '/' ∉ cs.takeWhile fun c => decide (c ≠ '/') := by
      intro hmem
      exact absurd (List.mem_takeWhile_imp hmem) (by decide)
    have hends : ∀ c ∈ (cs.dropWhile fun c => decide (c ≠ '/')).head?, c = '/' := by
      intro c hc
      simpa using head?_dropWhile cs c hc
    split
    · next hnone => exact .unknown hwritten hinside hends hnone
    · next home hsome =>
      split
      · next hempty => exact .root hwritten hinside hends hsome hempty
      · next hnonempty => exact .known hwritten hinside hends hsome hnonempty
  · next hno =>
    refine .plain fun hhead => ?_
    obtain ⟨cs, hcs⟩ := List.head?_eq_some_iff.mp hhead
    exact hno cs hcs

end Catalogue.Environment
