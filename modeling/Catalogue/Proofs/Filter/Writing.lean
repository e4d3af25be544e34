import Catalogue.Proofs.Filter.Compile

/-! Written queries.  A list of keys and values is written as a query text in many ways, since each
character may stand for itself or be escaped; all of them are read as this list, and so they are one
query, or refused for one reason. -/

namespace Catalogue.Filter

open Text

/-- A key and a value are written as a segment. -/
def WritesPair (pair : String × String) (segment : String) : Prop :=
  ∃ key value, Percent.Writes (· ∉ ['%', '&', '=']) pair.1.toList key.toList ∧
    Percent.Writes (· ∉ ['%', '&']) pair.2.toList value.toList ∧ segment = key ++ "=" ++ value

/-- Keys and values are written as a query text. -/
def WritesQuery (given : List (String × String)) (text : String) : Prop :=
  ∃ segments, List.Forall₂ WritesPair given segments ∧ text = join "&" segments

/-- The query that keys and values ask for. -/
def compilePairs (given : List (String × String)) : Except CompileError Query :=
  (given.mapM readArgument).map fun arguments => arguments.foldl Argument.apply .all

variable {given : List (String × String)} {text : String}

theorem readPair_of_writes {pair : String × String} {segment : String}
    (h : WritesPair pair segment) : readPair segment = .ok pair := by
  obtain ⟨key, value, hkey, hvalue, rfl⟩ := h
  have hequals : '=' ∉ key.toList := hkey.not_mem (by simp) (by decide)
  have hcut : cut? '=' (key ++ "=" ++ value) = some (key, value) := cut?_append hequals value
  unfold readPair
  rw [hcut]
  dsimp only
  rw [decodeText, decodeText, Percent.decode_of_writes (by simp) hkey,
    Percent.decode_of_writes (by simp) hvalue]
  rfl

theorem segments_of_writes {pair : String × String} {segment : String}
    (h : WritesPair pair segment) : segments segment = [segment] := by
  obtain ⟨key, value, hkey, hvalue, rfl⟩ := h
  have hkey : '&' ∉ key.toList := hkey.not_mem (by simp) (by decide)
  have hvalue : '&' ∉ value.toList := hvalue.not_mem (by simp) (by decide)
  exact segments_single (by simp [String.toList_append, hkey, hvalue]) (by simp)

theorem segments_join {parts : List String} (h : List.Forall₂ WritesPair given parts) :
    segments (join "&" parts) = parts := by
  apply segments_join_single
  induction h with
  | nil => simp
  | cons hpart _ ih => exact List.forall_mem_cons.mpr ⟨segments_of_writes hpart, ih⟩

theorem mapM_of_writes {parts : List String} (h : List.Forall₂ WritesPair given parts) :
    parts.mapM readSegment = given.mapM readArgument := by
  induction h with
  | nil => rfl
  | cons hpart _ ih =>
    rw [List.mapM_cons, List.mapM_cons, ih, readSegment, readPair_of_writes hpart]
    rfl

theorem compilePairs_empty (before after : List (String × String)) :
    compilePairs (before ++ ("", "") :: after) =
      compilePairs before >>= fun _ => .error (.rejected (.unknownKey "")) := by
  have hempty : readArgument ("", "") = .error (.rejected (.unknownKey "")) := rfl
  rw [compilePairs, compilePairs, List.mapM_append, List.mapM_cons, hempty]
  cases before.mapM readArgument <;> rfl

/-- However keys and values are written, the text is read as them. -/
theorem compile_written (h : WritesQuery given text) :
    (segments text).map readPair = given.map .ok ∧ compile text = compilePairs given ∧
    (∀ other, WritesQuery given other → compile other = compile text) ∧
    (∀ value, given = [("title", value)] → ∃ q, compile text = .ok q ∧
      q.predicate = "title LIKE ?" ∧ q.parameters = ["%" ++ value ++ "%"]) ∧
    ∀ before after, given = before ++ ("", "") :: after →
      compile text = compilePairs before >>= fun _ => .error (.rejected (.unknownKey "")) := by
  have hcompile {other : String} (h : WritesQuery given other) :
      compile other = compilePairs given := by
    obtain ⟨parts, hparts, rfl⟩ := h
    rw [compile_eq, segments_join hparts, mapM_of_writes hparts, compilePairs]
  refine ⟨?_, hcompile h, fun other hother => (hcompile hother).trans (hcompile h).symm, ?_, ?_⟩
  · obtain ⟨parts, hparts, rfl⟩ := h
    rw [segments_join hparts]
    clear hcompile
    induction hparts with
    | nil => rfl
    | cons hpart _ ih => rw [List.map_cons, List.map_cons, readPair_of_writes hpart, ih]
  · rintro value rfl
    exact ⟨_, hcompile h, rfl, rfl⟩
  · rintro before after rfl
    rw [hcompile h, compilePairs_empty]

/-- A percent sign that is escaped before two digits is no escape again. -/
theorem compile_written_sample : WritesQuery [("title", "é%41&=")] "t%69tle=%c3%A9%2541%26=" ∧
    ∃ q, compile "t%69tle=%c3%A9%2541%26=" = .ok q ∧ q.parameters = ["%é%41&=%"] := by
  have hi : Percent.Escapes (String.utf8EncodeChar 'i') ['%', '6', '9'] :=
    .cons (.inl rfl) (.inl rfl) .nil
  have he : Percent.Escapes (String.utf8EncodeChar 'é') ['%', 'c', '3', '%', 'A', '9'] :=
    .cons (.inr rfl) (.inl rfl) (.cons (.inl rfl) (.inl rfl) .nil)
  have hpercent : Percent.Escapes (String.utf8EncodeChar '%') ['%', '2', '5'] :=
    .cons (.inl rfl) (.inl rfl) .nil
  have hand : Percent.Escapes (String.utf8EncodeChar '&') ['%', '2', '6'] :=
    .cons (.inl rfl) (.inl rfl) .nil
  have hkey : Percent.Writes (· ∉ ['%', '&', '=']) "title".toList "t%69tle".toList :=
    .plain (by decide) (.escaped hi
      (.plain (by decide) (.plain (by decide) (.plain (by decide) .nil))))
  have hvalue : Percent.Writes (· ∉ ['%', '&']) "é%41&=".toList "%c3%A9%2541%26=".toList :=
    .escaped he (.escaped hpercent (.plain (by decide) (.plain (by decide)
      (.escaped hand (.plain (by decide) .nil)))))
  have hwritten : WritesQuery [("title", "é%41&=")] "t%69tle=%c3%A9%2541%26=" :=
    ⟨_, .cons ⟨_, _, hkey, hvalue, rfl⟩ .nil, by decide⟩
  obtain ⟨-, -, -, htitle, -⟩ := compile_written hwritten
  obtain ⟨q, hq, -, hparameters⟩ := htitle _ rfl
  exact ⟨hwritten, q, hq, hparameters⟩

end Catalogue.Filter
