import Catalogue.Proofs.Filter.Compile
import Catalogue.Proofs.Text.Seam

/-! Arguments with several parts.  Raw values for a list, with bars between them that are escaped or
not, ask in one argument for what they ask for in an argument each, and the one text is refused
exactly where the other is: the value is decoded as a whole and then cut, but each bar is a seam. -/

namespace Catalogue.Filter

open Text

/-- The ways in which a bar is written. -/
def bars : List String := ["|", "%7C", "%7c"]

/-- Raw values have bars between them, each of which is written as itself or escaped. -/
inductive Barred : List String → String → Prop
  | single (raw : String) : Barred [raw] raw
  | cons (raw : String) {bar text : String} {raws : List String}
      (hbar : bar ∈ bars) (h : Barred raws text) : Barred (raw :: raws) (raw ++ bar ++ text)

/-! ### Decoding -/

theorem decodeText_seam {seam : String} {c : Char} (h : Percent.Seam c seam.toList)
    (hc : isAscii c = true) (s t : String) :
    decodeText (s ++ seam ++ t) = decodeText s >>= fun a =>
      (decodeText t).map fun b => a ++ String.singleton c ++ b := by
  have hok (u : String) : decodeText (s ++ seam ++ t) = .ok u ↔
      ∃ a b, decodeText s = .ok a ∧ decodeText t = .ok b ∧ u = a ++ String.singleton c ++ b := by
    simp only [decodeText_eq_ok_iff, Percent.decode_seam_iff h hc]
  cases hu : decodeText (s ++ seam ++ t) with
  | ok u =>
    obtain ⟨a, b, ha, hb, rfl⟩ := (hok u).mp hu
    rw [ha, hb]
    rfl
  | error e =>
    obtain rfl := decodeText_error hu
    cases hs : decodeText s with
    | error e =>
      rw [decodeText_error hs]
      rfl
    | ok a =>
      cases ht : decodeText t with
      | error e =>
        rw [decodeText_error ht]
        rfl
      | ok b =>
        have hboth := (hok _).mpr ⟨a, b, hs, ht, rfl⟩
        rw [hu] at hboth
        cases hboth

theorem seam_of_mem {bar : String} (h : bar ∈ bars) :
    Percent.Seam FieldList.bar bar.toList := by
  simp only [bars, List.mem_cons, List.not_mem_nil, or_false] at h
  rcases h with rfl | rfl | rfl
  · exact .plain (by decide) (by decide)
  · exact .escaped (.cons (.inl rfl) (.inl rfl) .nil)
  · exact .escaped (.cons (.inl rfl) (.inr rfl) .nil)

theorem mapM_decodeText_eq_ok_iff {raws values : List String} :
    raws.mapM decodeText = .ok values ↔ raws.map Percent.decode = values.map .ok := by
  rw [mapM_eq_ok_iff, ← List.forall₂_eq_eq_eq, List.forall₂_map_left_iff,
    List.forall₂_map_right_iff, ← List.forall₂_eq_eq_eq, List.forall₂_map_left_iff,
    List.forall₂_map_right_iff]
  simp only [decodeText_eq_ok_iff]

theorem mapM_decodeText_eq_error_iff {raws : List String} {e : CompileError} :
    raws.mapM decodeText = .error e ↔
      e = .rejected .undecodable ∧ ∃ raw ∈ raws, ∀ value, Percent.decode raw ≠ .ok value := by
  have hcause {e : CompileError} (h : raws.mapM decodeText = .error e) :
      ∃ raw ∈ raws, decodeText raw = .error e := by
    obtain ⟨before, raw, after, rfl, -, herror⟩ := mapM_eq_error_iff.mp h
    exact ⟨raw, by simp, herror⟩
  constructor
  · intro h
    obtain ⟨raw, hraw, herror⟩ := hcause h
    refine ⟨decodeText_error herror, raw, hraw, fun value hvalue => ?_⟩
    rw [decodeText_eq_ok_iff.mpr hvalue] at herror
    cases herror
  · rintro ⟨rfl, raw, hraw, hnever⟩
    cases hrun : raws.mapM decodeText with
    | error e =>
      obtain ⟨_, _, herror⟩ := hcause hrun
      rw [decodeText_error herror]
    | ok values =>
      obtain ⟨value, hvalue⟩ := exists_mapM_iff.mp ⟨values, hrun⟩ raw hraw
      exact absurd (decodeText_eq_ok_iff.mp hvalue) (hnever value)

/-- The parts of the decoded whole are those of each decoded value. -/
theorem Barred.pieces_decodeText {raws : List String} {text : String} (h : Barred raws text) :
    (decodeText text).map (pieces FieldList.bar) =
      (raws.mapM decodeText).map (·.flatMap (pieces FieldList.bar)) := by
  induction h with
  | single raw =>
    rw [List.mapM_cons, List.mapM_nil]
    cases decodeText raw with
    | error e => rfl
    | ok value => exact congrArg Except.ok (List.flatMap_singleton _ _).symm
  | @cons raw bar text raws hbar _ ih =>
    rw [decodeText_seam (seam_of_mem hbar) (by decide), List.mapM_cons]
    cases decodeText raw with
    | error e => rfl
    | ok value =>
      calc
        ((decodeText text).map fun rest =>
            value ++ String.singleton FieldList.bar ++ rest).map (pieces FieldList.bar)
          = ((decodeText text).map (pieces FieldList.bar)).map
              (pieces FieldList.bar value ++ ·) := by
            cases decodeText text with
            | error e => rfl
            | ok rest => exact congrArg Except.ok (pieces_append _ _ _)
        _ = ((raws.mapM decodeText).map (·.flatMap (pieces FieldList.bar))).map
              (pieces FieldList.bar value ++ ·) := by rw [ih]
        _ = _ := by cases raws.mapM decodeText <;> rfl

theorem Barred.not_mem {raws : List String} {text : String} (h : Barred raws text)
    (hraws : ∀ raw ∈ raws, '&' ∉ raw.toList) : '&' ∉ text.toList := by
  induction h with
  | single raw => exact hraws raw (by simp)
  | @cons raw bar text raws hbar _ ih =>
    obtain ⟨hraw, hraws⟩ := List.forall_mem_cons.mp hraws
    have hbars : ∀ bar ∈ bars, '&' ∉ bar.toList := by decide
    simp [String.toList_append, hraw, hbars bar hbar, ih hraws]

/-! ### Arguments for a list -/

/-- The keys whose values are cut at their bars, with the columns that are searched. -/
def listKeys : List (String × ListColumn) :=
  [("themes", .themes), ("works_mentioned", .worksMentioned), ("tags", .tags)]

/-- The query for the entries whose lists hold all of the texts. -/
def holding (column : ListColumn) (texts : List String) : Query :=
  ⟨texts.map (.holds column), 0, none⟩

theorem holds_foldl (column : ListColumn) (lists : List (List String)) (texts : List String) :
    (lists.map fun parts => Argument.clauses (parts.map (.holds column))).foldl Argument.apply
      (holding column texts) = holding column (texts ++ lists.flatten) := by
  induction lists generalizing texts with
  | nil => rw [List.flatten_nil, List.append_nil]; rfl
  | cons parts lists ih =>
    have hfirst : Argument.apply (holding column texts) (.clauses (parts.map (.holds column))) =
        holding column (texts ++ parts) := by
      simp [Argument.apply, holding]
    rw [List.map_cons, List.foldl_cons, hfirst, ih, List.flatten_cons, List.append_assoc]

section Lists

variable {name : String} {column : ListColumn}

theorem readSegment_list (h : (name, column) ∈ listKeys) (raw : String) :
    readSegment (name ++ "=" ++ raw) = ((decodeText raw).map (pieces FieldList.bar)).map
      fun parts => .clauses (parts.map (.holds column)) := by
  have hkeys : ∀ key ∈ listKeys, Key.ofName? key.1 = some (.holds key.2) ∧
      '=' ∉ key.1.toList ∧ '%' ∉ key.1.toList := by decide
  obtain ⟨hkey, hequals, hpercent⟩ := hkeys _ h
  have hcut : cut? '=' (name ++ "=" ++ raw) = some (name, raw) := cut?_append hequals raw
  have hdecoded : decodeText name = .ok name :=
    decodeText_eq_ok_iff.mpr (Percent.decode_plain hpercent)
  rw [readSegment, readPair, hcut]
  dsimp only
  rw [hdecoded]
  cases decodeText raw with
  | error e => rfl
  | ok value =>
    show readArgument (name, value) = _
    exact readArgument_eq_ok_iff.mpr ⟨_, hkey, rfl⟩

theorem segments_list (h : (name, column) ∈ listKeys) {raw : String} (hraw : '&' ∉ raw.toList) :
    segments (name ++ "=" ++ raw) = [name ++ "=" ++ raw] := by
  have hkeys : ∀ key ∈ listKeys, '&' ∉ key.1.toList := by decide
  apply segments_single
  · simp [String.toList_append, hkeys _ h, hraw]
  · simp

theorem compile_repeated (h : (name, column) ∈ listKeys) {raws : List String}
    (hraws : ∀ raw ∈ raws, '&' ∉ raw.toList) :
    compile (join "&" (raws.map fun raw => name ++ "=" ++ raw)) =
      (raws.mapM decodeText).map fun values =>
        holding column (values.flatMap (pieces FieldList.bar)) := by
  have hsegments : segments (join "&" (raws.map fun raw => name ++ "=" ++ raw)) =
      raws.map fun raw => name ++ "=" ++ raw := by
    apply segments_join_single
    rw [List.forall_mem_map]
    intro raw hraw
    exact segments_list h (hraws raw hraw)
  rw [compile_eq, hsegments, List.mapM_map]
  simp only [Function.comp_def, readSegment_list h, mapM_map]
  cases raws.mapM decodeText with
  | error e => rfl
  | ok values =>
    exact congrArg Except.ok (holds_foldl column (values.map (pieces FieldList.bar)) [])

theorem compile_barred (h : (name, column) ∈ listKeys) {raws : List String} {text : String}
    (hraws : ∀ raw ∈ raws, '&' ∉ raw.toList) (hbarred : Barred raws text) :
    compile (name ++ "=" ++ text) =
      (raws.mapM decodeText).map fun values =>
        holding column (values.flatMap (pieces FieldList.bar)) := by
  rw [compile_eq, segments_list h (hbarred.not_mem hraws), List.mapM_cons, List.mapM_nil,
    readSegment_list h, hbarred.pieces_decodeText]
  cases raws.mapM decodeText with
  | error e => rfl
  | ok values =>
    have hfold := holds_foldl column [values.flatMap (pieces FieldList.bar)] []
    rw [List.flatten_singleton, List.nil_append] at hfold
    exact congrArg Except.ok hfold

/-- Values for a list with bars between them are read as the same values in an argument each, and
are refused exactly where those are, for a value that does not decode. -/
theorem list_values_fan_out (h : (name, column) ∈ listKeys) {raws : List String} {text : String}
    (hraws : ∀ raw ∈ raws, '&' ∉ raw.toList) (hbarred : Barred raws text) :
    compile (name ++ "=" ++ text) = compile (join "&" (raws.map fun raw => name ++ "=" ++ raw)) ∧
    (∀ q, compile (name ++ "=" ++ text) = .ok q ↔ ∃ values : List String,
      raws.map Percent.decode = values.map .ok ∧
        q = holding column (values.flatMap (pieces FieldList.bar))) ∧
    ∀ e, compile (name ++ "=" ++ text) = .error e ↔
      e = .rejected .undecodable ∧ ∃ raw ∈ raws, ∀ value, Percent.decode raw ≠ .ok value := by
  have hcompile := compile_barred h hraws hbarred
  refine ⟨hcompile.trans (compile_repeated h hraws).symm, fun q => ?_, fun e => ?_⟩
  · rw [hcompile, map_eq_ok]
    constructor
    · rintro ⟨values, hvalues, rfl⟩
      exact ⟨values, mapM_decodeText_eq_ok_iff.mp hvalues, rfl⟩
    · rintro ⟨values, hvalues, rfl⟩
      exact ⟨values, mapM_decodeText_eq_ok_iff.mpr hvalues, rfl⟩
  · rw [hcompile, map_eq_error, mapM_decodeText_eq_error_iff]

end Lists

/-- A value may end like an escape that the bar would complete, or hold escaped bars itself. -/
theorem list_values_fan_out_percent :
    ("tags", .tags) ∈ listKeys ∧ (∀ raw ∈ ["100%", "7C%C3%A9%7CB", ""], '&' ∉ raw.toList) ∧
    Barred ["100%", "7C%C3%A9%7CB", ""] "100%%7c7C%C3%A9%7CB|" ∧
    compile "tags=100%%7c7C%C3%A9%7CB|" = .ok (holding .tags ["100%", "7Cé", "B", ""]) ∧
    compile "tags=100%&tags=7C%C3%A9%7CB&tags=" =
      .ok (holding .tags ["100%", "7Cé", "B", ""]) := by
  have hraws : ∀ raw ∈ ["100%", "7C%C3%A9%7CB", ""], '&' ∉ raw.toList := by decide
  have hbarred : Barred ["100%", "7C%C3%A9%7CB", ""]
      ("100%" ++ "%7c" ++ ("7C%C3%A9%7CB" ++ "|" ++ "")) :=
    .cons _ (by decide) (.cons _ (by decide) (.single ""))
  have htext : "100%" ++ "%7c" ++ ("7C%C3%A9%7CB" ++ "|" ++ "") = "100%%7c7C%C3%A9%7CB|" := by
    decide
  rw [htext] at hbarred
  have hkey : ("tags", .tags) ∈ listKeys := by decide
  obtain ⟨hsame, hvalues, -⟩ := list_values_fan_out hkey hraws hbarred
  have hok := (hvalues _).mpr ⟨["100%", "7Cé|B", ""], by decide +kernel, rfl⟩
  have hparts : ["100%", "7Cé|B", ""].flatMap (pieces FieldList.bar) =
      ["100%", "7Cé", "B", ""] := by decide
  have hjoined : join "&" (["100%", "7C%C3%A9%7CB", ""].map fun raw => "tags" ++ "=" ++ raw) =
      "tags=100%&tags=7C%C3%A9%7CB&tags=" := by decide
  rw [hsame, hjoined, hparts] at hok
  refine ⟨hkey, hraws, hbarred, ?_, hok⟩
  have hwhole : "tags" ++ "=" ++ "100%%7c7C%C3%A9%7CB|" = "tags=100%%7c7C%C3%A9%7CB|" := by decide
  rw [← hwhole, hsame, hjoined, hok]

end Catalogue.Filter
