import Catalogue.Filter.Compile
import Catalogue.Proofs.Number.Numeral
import Catalogue.Proofs.Results
import Catalogue.Proofs.Text.Percent
import Catalogue.Proofs.Text.Pieces
import Mathlib.Data.List.Forall2
import Mathlib.Data.List.TakeDrop

/-! Compiled queries: a query text that is accepted has an argument for each of its decoded pairs,
and the query is what these arguments make of the empty one, from left to right. -/

namespace Catalogue.Filter

open Number Text

/-- The decoded keys and values of a query text. -/
def pairs (text : String) : List (String × String) :=
  (segments text).filterMap fun segment => (readPair segment).toOption

/-- The clauses that an argument adds. -/
def Argument.added : Argument → List Clause
  | .clauses added => added
  | .offset _ | .seed _ => []

theorem decodeText_eq_ok_iff {raw value : String} :
    decodeText raw = .ok value ↔ Percent.decode raw = .ok value := by
  rw [decodeText]
  cases Percent.decode raw <;> simp [Except.mapError]

/-- All undecodable texts are refused alike. -/
theorem decodeText_error {raw : String} {e : CompileError} (h : decodeText raw = .error e) :
    e = .rejected .undecodable := by
  rw [decodeText] at h
  cases hraw : Percent.decode raw with
  | error fault =>
    rw [hraw] at h
    cases h
    rfl
  | ok value =>
    rw [hraw] at h
    cases h

theorem addSegment_ok_iff {q after : Query} {segment : String} :
    addSegment q segment = .ok after ↔ ∃ pair argument, readPair segment = .ok pair ∧
      readArgument pair = .ok argument ∧ after = argument.apply q := by
  unfold addSegment
  rw [bind_eq_ok]
  constructor
  · rintro ⟨pair, hpair, h⟩
    obtain ⟨argument, hargument, h⟩ := bind_eq_ok.mp h
    cases h
    exact ⟨pair, argument, hpair, hargument, rfl⟩
  · rintro ⟨pair, argument, hpair, hargument, rfl⟩
    exact ⟨pair, hpair, bind_eq_ok.mpr ⟨argument, hargument, rfl⟩⟩

/-- The argument that a segment gives. -/
def readSegment (segment : String) : Except CompileError Argument :=
  readPair segment >>= readArgument

theorem addSegment_eq (q : Query) (segment : String) :
    addSegment q segment = (readSegment segment).map (·.apply q) := by
  unfold addSegment readSegment
  cases readPair segment with
  | error e => rfl
  | ok pair =>
    change (readArgument pair >>= fun argument => pure (argument.apply q)) =
      (readArgument pair).map _
    cases readArgument pair <;> rfl

theorem foldlM_addSegment (segments : List String) (q : Query) :
    segments.foldlM addSegment q =
      (segments.mapM readSegment).map fun arguments => arguments.foldl Argument.apply q := by
  induction segments generalizing q with
  | nil => rfl
  | cons segment segments ih =>
    rw [List.foldlM_cons, List.mapM_cons, addSegment_eq]
    cases readSegment segment with
    | error e => rfl
    | ok argument =>
      change segments.foldlM addSegment (argument.apply q) = _
      rw [ih]
      cases segments.mapM readSegment <;> rfl

/-- A query is what the arguments of its segments make of the empty one. -/
theorem compile_eq (text : String) : compile text =
    ((segments text).mapM readSegment).map fun arguments => arguments.foldl Argument.apply .all :=
  foldlM_addSegment (segments text) .all

theorem forall₂_of_mapM {segments : List String} {arguments : List Argument}
    (h : segments.mapM readSegment = .ok arguments) :
    List.Forall₂ (fun pair argument => readArgument pair = .ok argument)
      (segments.filterMap fun segment => (readPair segment).toOption) arguments := by
  induction segments generalizing arguments with
  | nil =>
    cases h
    exact .nil
  | cons segment segments ih =>
    rw [List.mapM_cons] at h
    obtain ⟨argument, hargument, h⟩ := bind_eq_ok.mp h
    obtain ⟨rest, hrest, h⟩ := bind_eq_ok.mp h
    obtain ⟨pair, hpair, hargument⟩ := bind_eq_ok.mp hargument
    cases h
    rw [List.filterMap_cons_some (by rw [hpair]; rfl)]
    exact .cons hargument (ih hrest)

theorem compile_arguments {text : String} {q : Query} (h : compile text = .ok q) :
    ∃ arguments, List.Forall₂ (fun pair argument => readArgument pair = .ok argument)
        (pairs text) arguments ∧ q = arguments.foldl Argument.apply .all := by
  rw [compile_eq] at h
  obtain ⟨arguments, harguments, rfl⟩ := map_eq_ok.mp h
  exact ⟨arguments, forall₂_of_mapM harguments, rfl⟩

theorem clauses_foldl (arguments : List Argument) (q : Query) :
    (arguments.foldl Argument.apply q).clauses =
      q.clauses ++ arguments.flatMap Argument.added := by
  induction arguments generalizing q with
  | nil => simp
  | cons argument arguments ih =>
    rw [List.foldl_cons, ih, List.flatMap_cons, ← List.append_assoc]
    cases argument <;> simp [Argument.apply, Argument.added]

theorem forall_clauses_iff {P : Clause → Prop} {Q : String × String → Prop} {text : String}
    {q : Query} (h : compile text = .ok q)
    (hpair : ∀ pair ∈ pairs text, ∀ argument, readArgument pair = .ok argument →
      ((∀ clause ∈ argument.added, P clause) ↔ Q pair)) :
    (∀ clause ∈ q.clauses, P clause) ↔ ∀ pair ∈ pairs text, Q pair := by
  obtain ⟨arguments, hforall, rfl⟩ := compile_arguments h
  rw [clauses_foldl]
  change (∀ clause ∈ [] ++ _, _) ↔ _
  rw [List.nil_append]
  clear h
  generalize pairs text = given at hforall hpair
  induction hforall with
  | nil => simp
  | @cons pair argument given arguments hargument _ ih =>
    rw [List.flatMap_cons, List.forall_mem_append, List.forall_mem_cons,
      hpair pair (by simp) argument hargument,
      ih fun other hother => hpair other (by simp [hother])]

theorem readArgument_eq_ok_iff {pair : String × String} {argument : Argument} :
    readArgument pair = .ok argument ↔
      ∃ key, Key.ofName? pair.1 = some key ∧ key.argument pair.1 pair.2 = .ok argument := by
  rw [readArgument]
  cases Key.ofName? pair.1 <;> simp

theorem mem_names_of_ofName? {name : String} {key : Key} (h : Key.ofName? name = some key) :
    (name, key) ∈ Key.names := by
  obtain ⟨before, after, hnames, -⟩ := List.lookup_eq_some_iff.mp h
  rw [hnames]
  simp

/-! ### Texts that are put together -/

theorem cut?_append {separator : Char} {before : String} (h : separator ∉ before.toList)
    (after : String) :
    cut? separator (before ++ String.singleton separator ++ after) = some (before, after) := by
  have hspan : ∀ cs : List Char, separator ∉ cs →
      (cs ++ separator :: after.toList).span (· ≠ separator) = (cs, separator :: after.toList) := by
    intro cs hcs
    induction cs with
    | nil => simp [List.span_eq_takeWhile_dropWhile]
    | cons c cs ih =>
      have hc : c ≠ separator := fun he => hcs (by simp [he])
      have := ih fun hmem => hcs (List.mem_cons_of_mem _ hmem)
      rw [List.span_eq_takeWhile_dropWhile] at this ⊢
      simp_all
  have hlist : (before ++ String.singleton separator ++ after).toList =
      before.toList ++ separator :: after.toList := by simp [String.toList_append]
  unfold cut?
  rw [hlist, hspan _ h]
  simp

/-- A key and a value without percent signs stand for themselves. -/
theorem readPair_plain {key value : String} (hequals : '=' ∉ key.toList)
    (hkey : '%' ∉ key.toList) (hvalue : '%' ∉ value.toList) :
    readPair (key ++ "=" ++ value) = .ok (key, value) := by
  have hcut : cut? '=' (key ++ "=" ++ value) = some (key, value) := cut?_append hequals value
  unfold readPair
  rw [hcut]
  dsimp only
  rw [decodeText, decodeText, Percent.decode_plain hkey, Percent.decode_plain hvalue]
  rfl

theorem segments_append (s t : String) : segments (s ++ "&" ++ t) = segments s ++ segments t := by
  have hpieces : pieces '&' (s ++ "&" ++ t) = pieces '&' s ++ pieces '&' t := pieces_append '&' s t
  rw [segments, hpieces, List.filter_append]
  rfl

theorem segments_single {s : String} (h : '&' ∉ s.toList) (hne : s ≠ "") : segments s = [s] := by
  rw [segments, pieces_of_not_mem h, List.filter_cons_of_pos (by simpa using hne)]
  rfl

/-- Parts that are segments are the segments of the text that joins them. -/
theorem segments_join_single {parts : List String} (h : ∀ part ∈ parts, segments part = [part]) :
    segments (join "&" parts) = parts := by
  induction parts with
  | nil => decide
  | cons part parts ih =>
    obtain ⟨hpart, hparts⟩ := List.forall_mem_cons.mp h
    cases parts with
    | nil => simpa [join, String.intercalate_singleton] using hpart
    | cons next parts =>
      rw [join, String.intercalate_cons_cons, segments_append, hpart, ← join, ih hparts]
      rfl

theorem compile_append {s : String} {q : Query} (h : compile s = .ok q) (t : String) :
    compile (s ++ "&" ++ t) = (segments t).foldlM addSegment q := by
  rw [compile, segments_append, List.foldlM_append]
  change (compile s >>= fun q => (segments t).foldlM addSegment q) = _
  rw [h]
  rfl

/-- A text of a single pair. -/
theorem compile_single {key value : String} {argument : Argument} (hequals : '=' ∉ key.toList)
    (hkey : '%' ∉ key.toList ∧ '&' ∉ key.toList) (hvalue : '%' ∉ value.toList ∧ '&' ∉ value.toList)
    (h : readArgument (key, value) = .ok argument) :
    compile (key ++ "=" ++ value) = .ok (argument.apply .all) ∧
      pairs (key ++ "=" ++ value) = [(key, value)] := by
  have hsegments : segments (key ++ "=" ++ value) = [key ++ "=" ++ value] := by
    refine segments_single ?_ (by simp)
    simp [String.toList_append, hkey.2, hvalue.2]
  have hpair := readPair_plain hequals hkey.1 hvalue.1
  constructor
  · rw [compile, hsegments, List.foldlM_cons, addSegment_ok_iff.mpr ⟨_, argument, hpair, h, rfl⟩]
    rfl
  · rw [pairs, hsegments, List.filterMap_cons_some (by rw [hpair]; rfl)]
    rfl

theorem compile_title {value : String} (hpercent : '%' ∉ value.toList) (hand : '&' ∉ value.toList) :
    compile ("title" ++ "=" ++ value) = .ok ⟨[.contains .title value], 0, none⟩ ∧
      pairs ("title" ++ "=" ++ value) = [("title", value)] :=
  compile_single (by decide) (by decide) ⟨hpercent, hand⟩
    (rfl : readArgument ("title", value) = .ok (.clauses [.contains .title value]))

/-! ### Numbers -/

theorem natText_digits (n : Nat) : ∀ c ∈ (natText n).toList, ∃ d < 10, c = digitChar d := by
  intro c hc
  rw [toList_natText] at hc
  obtain ⟨d, hd, rfl⟩ := List.mem_map.mp hc
  exact ⟨d, digits_lt_ten n d hd, rfl⟩

theorem not_mem_natText {c : Char} (hc : ∀ d < 10, digitChar d ≠ c) (n : Nat) :
    c ∉ (natText n).toList := by
  intro h
  obtain ⟨d, hd, he⟩ := natText_digits n c h
  exact hc d hd he.symm

/-- A number reads back from its text. -/
theorem readNatural_natText (name : String) {n limit : Nat} (h : n ≤ limit)
    (hlimit : limit < 10 ^ 20) : readNatural name (natText n) limit = .ok n := by
  have hempty : (natText n).toList ≠ [] := by
    rw [toList_natText]
    simpa using digits_ne_nil n
  have hdigits : (natText n).toList.all isAsciiDigit = true := by
    rw [List.all_eq_true]
    intro c hc
    obtain ⟨d, hd, rfl⟩ := natText_digits n c hc
    exact isAsciiDigit_digitChar hd
  have hlength : (natText n).toList.length ≤ 20 := by
    rw [toList_natText, List.length_map]
    exact length_digits_le (by omega) (by omega)
  have hvalue : digitsValue (natText n).toList = n := by
    rw [toList_natText, digitsValue_map_digitChar (digits_lt_ten n), ofDigits_digits]
  unfold readNatural
  have hshort : ¬digitLimit < (natText n).toList.length := by
    unfold digitLimit
    omega
  simp only [hvalue, hdigits, Bool.not_true, Bool.or_false, List.isEmpty_iff, hempty, if_false,
    hshort, Nat.not_lt.mpr h]

theorem readArgument_offset (value : String) :
    readArgument ("offset", value) = (readNatural "offset" value maxOffset).map .offset := rfl

theorem readArgument_seed (value : String) :
    readArgument ("seed", value) = (readNatural "seed" value maxSeed).map .seed := rfl

theorem addSegment_offset (q : Query) {n : Nat} (h : n ≤ maxOffset) :
    addSegment q ("offset=" ++ natText n) = .ok { q with offset := n } := by
  have hname : "offset=" = "offset" ++ "=" := by decide
  have hpair : readPair ("offset=" ++ natText n) = .ok ("offset", natText n) := by
    rw [hname]
    exact readPair_plain (by decide) (by decide) (not_mem_natText (by decide) n)
  refine addSegment_ok_iff.mpr ⟨_, .offset n, hpair, ?_, rfl⟩
  rw [readArgument_offset, readNatural_natText _ h (by decide)]
  rfl

theorem addSegment_seed (q : Query) {n : Nat} (h : n ≤ maxSeed) :
    addSegment q ("seed=" ++ natText n) = .ok { q with seed := some n } := by
  have hname : "seed=" = "seed" ++ "=" := by decide
  have hpair : readPair ("seed=" ++ natText n) = .ok ("seed", natText n) := by
    rw [hname]
    exact readPair_plain (by decide) (by decide) (not_mem_natText (by decide) n)
  refine addSegment_ok_iff.mpr ⟨_, .seed n, hpair, ?_, rfl⟩
  rw [readArgument_seed, readNatural_natText _ h (by decide)]
  rfl

/-! ### Continued texts -/

theorem readNatural_le {name value : String} {limit n : Nat}
    (h : readNatural name value limit = .ok n) : n ≤ limit := by
  unfold readNatural at h
  dsimp only at h
  split at h
  · cases h
  · split at h
    · cases h
    · split at h
      · cases h
      · next hlimit =>
        cases h
        exact Nat.le_of_not_lt hlimit

/-- The offset and the seed that an argument gives are not too large. -/
def Argument.IsBounded : Argument → Prop
  | .clauses _ => True
  | .offset n => n ≤ maxOffset
  | .seed n => n ≤ maxSeed

theorem Key.argument_isBounded {key : Key} {name value : String} {argument : Argument}
    (h : key.argument name value = .ok argument) : argument.IsBounded := by
  cases key with
  | offset | seed =>
    obtain ⟨n, hn, rfl⟩ := map_eq_ok.mp h
    exact readNatural_le hn
  | kind | dated =>
    rw [Key.argument] at h
    split at h
    · cases h
      trivial
    · cases h
  | _ =>
    cases h
    trivial

theorem readArgument_isBounded {pair : String × String} {argument : Argument}
    (h : readArgument pair = .ok argument) : argument.IsBounded := by
  obtain ⟨key, -, h⟩ := readArgument_eq_ok_iff.mp h
  exact Key.argument_isBounded h

/-- What every argument keeps holds of a compiled query, where it holds of the empty one. -/
theorem compile_induction {P : Query → Prop} {text : String} {q : Query} (h : compile text = .ok q)
    (hall : P .all) (happly : ∀ pair ∈ pairs text, ∀ argument, readArgument pair = .ok argument →
      ∀ q, P q → P (argument.apply q)) : P q := by
  obtain ⟨arguments, hforall, rfl⟩ := compile_arguments h
  have hfold : ∀ q, P q → P (arguments.foldl Argument.apply q) := by
    clear h
    generalize pairs text = given at hforall happly
    induction hforall with
    | nil => exact fun _ hq => hq
    | @cons pair argument given _ hargument _ ih =>
      intro q hq
      exact ih (fun other hother => happly other (List.mem_cons_of_mem _ hother)) _
        (happly pair List.mem_cons_self argument hargument q hq)
  exact hfold .all hall

/-- A compiled query has a place and a seed within the bounds of its text. -/
theorem compile_bounded {text : String} {q : Query} (h : compile text = .ok q) :
    q.offset ≤ maxOffset ∧ ∀ seed ∈ q.seed, seed ≤ maxSeed := by
  refine compile_induction (P := fun q => q.offset ≤ maxOffset ∧ ∀ seed ∈ q.seed, seed ≤ maxSeed)
    h ⟨Nat.zero_le _, by rintro seed ⟨⟩⟩ fun pair _ argument hargument q hq => ?_
  have hbounded := readArgument_isBounded hargument
  cases argument with
  | clauses added => exact hq
  | offset n => exact ⟨hbounded, hq.2⟩
  | seed n =>
    refine ⟨hq.1, ?_⟩
    rintro seed ⟨rfl⟩
    exact hbounded

/-- A query text with the place of a further page and the seed of its order. -/
def continued (text : String) (offset seed : Nat) : String :=
  text ++ "&offset=" ++ natText offset ++ "&seed=" ++ natText seed

/-- The directives at the end of a text count, and nothing else of its query is changed. -/
theorem compile_continued {text : String} {q : Query} (h : compile text = .ok q)
    {offset seed : Nat} (hoffset : offset ≤ maxOffset) (hseed : seed ≤ maxSeed) :
    compile (continued text offset seed) = .ok { q with offset := offset, seed := some seed } := by
  have hnumber (n : Nat) : '&' ∉ (natText n).toList := not_mem_natText (by decide) n
  have hoffset' : segments ("offset=" ++ natText offset) = ["offset=" ++ natText offset] :=
    segments_single (by simp [String.toList_append, hnumber]) (by simp)
  have hseed' : segments ("seed=" ++ natText seed) = ["seed=" ++ natText seed] :=
    segments_single (by simp [String.toList_append, hnumber]) (by simp)
  have hfirst : compile (text ++ "&" ++ ("offset=" ++ natText offset)) =
      .ok { q with offset := offset } := by
    rw [compile_append h, hoffset', List.foldlM_cons, addSegment_offset q hoffset]
    rfl
  have hcontinued : continued text offset seed =
      text ++ "&" ++ ("offset=" ++ natText offset) ++ "&" ++ ("seed=" ++ natText seed) := by
    apply String.toList_inj.mp
    simp [continued, String.toList_append]
  rw [hcontinued, compile_append hfirst, hseed', List.foldlM_cons, addSegment_seed _ hseed]
  rfl

end Catalogue.Filter
