import Catalogue.Proofs.Filter.Overlong
import Catalogue.Proofs.Http.Surface
import Mathlib.Data.List.TakeWhile

/-! What a filter makes the server answer.  One that is rejected is answered with the reason, and no
other filter is answered so; for one that stops at a number that is too long no answer is meant. -/

namespace Catalogue.Http

open Catalogue.Filter Number Text

variable {f : Framework} {r : Request} {text : String}

/-- A request that is led to the list of entries, with a filter as its query. -/
structure Request.Lists (f : Framework) (r : Request) (filter : String) : Prop where
  found : f.find r = .ok .listEntries
  filter : f.query? r = some filter

theorem serve_of_lists (hf : f.Dispatches) (h : r.Lists f text) (s : Setting) :
    ∃ mark, KeepsAnswer mark ∧ ∀ store, serve f s r store =
      ((listEntries s text store).1.map mark, (listEntries s text store).2) := by
  obtain ⟨mark, hmark, hserve⟩ := serve_eq hf s h.found (by rw [h.filter]; rfl)
  refine ⟨mark, hmark, fun store => ?_⟩
  rw [hserve, answerAt, h.filter]

theorem serve_rejected (hf : f.Dispatches) (h : r.Lists f text) {cause : Rejection}
    (hcause : compile text = .error (.rejected cause)) (s : Setting) (store : Store) :
    ∃ response, serve f s r store = (.response response, store) ∧ response.status = 400 ∧
      response.content = .json (.object [("error", .text cause.message)]) := by
  obtain ⟨mark, hmark, hserve⟩ := serve_of_lists hf h s
  have hlist : listEntries s text store = (.response (.error 400 cause.message), store) := by
    rw [listEntries, hcause]
  rw [hserve, hlist]
  exact ⟨_, rfl, hmark.status _, hmark.content _⟩

theorem serve_numeral (hf : f.Dispatches) (h : r.Lists f text) {fault : IntegerFault}
    (hfault : compile text = .error (.numeral fault)) (s : Setting) (store : Store) :
    serve f s r store = (.unhandled, store) := by
  obtain ⟨mark, -, hserve⟩ := serve_of_lists hf h s
  have hlist : listEntries s text store = (.unhandled, store) := by
    rw [listEntries, hfault]
  rw [hserve, hlist]
  rfl

theorem status_serve_compiled (hf : f.Dispatches) (h : r.Lists f text) {q : Query}
    (hq : compile text = .ok q) (s : Setting) (store : Store) {response : Response}
    (hresponse : (serve f s r store).1 = .response response) : response.status ∈ [200, 500] := by
  obtain ⟨mark, hmark, hserve⟩ := serve_of_lists hf h s
  rw [hserve, listEntries, hq] at hresponse
  unfold reply at hresponse
  dsimp only at hresponse
  split at hresponse
  · dsimp only at hresponse
    split at hresponse <;> cases hresponse
    simp [hmark.status, Response.json]
  · cases hresponse
    simp [hmark.status, Response.error, Response.json]
  · cases hresponse

/-- Every text is compiled or rejected, unless it stops at an offset or a seed of too many digits.
Where a request leads to the list of entries, whatever the framework, a rejected text is answered
with its cause, no other text is answered so, and for one that is neither no answer is meant. -/
theorem rejected_unless_overlong (text : String) :
    (((∃ q, compile text = .ok q) ∨ ∃ cause, compile text = .error (.rejected cause)) ↔
      ¬∃ n, StopsAtNumeral text n) ∧
    ∀ f : Framework, f.Dispatches → ∀ s r store, r.Lists f text →
      (∀ cause, compile text = .error (.rejected cause) →
        ∃ response, serve f s r store = (.response response, store) ∧ response.status = 400 ∧
          response.content = .json (.object [("error", .text cause.message)])) ∧
      (∀ response, (serve f s r store).1 = .response response → response.status = 400 →
        ∃ cause, compile text = .error (.rejected cause)) ∧
      ((∃ n, StopsAtNumeral text n) → serve f s r store = (.unhandled, store)) := by
  refine ⟨compiled_or_rejected_iff, fun f hf s r store h =>
    ⟨fun cause hcause => serve_rejected hf h hcause s store, fun response hresponse hstatus => ?_,
      fun ⟨n, hn⟩ => serve_numeral hf h (compile_numeral_iff.mpr ⟨n, hn, rfl⟩) s store⟩⟩
  cases hcompile : compile text with
  | ok q =>
    have hother := status_serve_compiled hf h hcompile s store hresponse
    simp [hstatus] at hother
  | error e =>
    cases e with
    | rejected cause => exact ⟨cause, rfl⟩
    | numeral fault =>
      rw [serve_numeral hf h hcompile] at hresponse
      cases hresponse

/-! ### Offsets of many ones -/

/-- In the standard framework a query without ends of line, tabs and number signs is the filter
itself. -/
theorem Request.query?_of_plain (h : ∀ c ∈ r.query.toList, c ∉ ['\t', '\n', '\r', '#'])
    (hhost : r.hasReadableHost = true) : r.query? = some r.query := by
  have hplain : ∀ c ∈ r.query.toList, c ≠ '\t' ∧ c ≠ '\n' ∧ c ≠ '\r' ∧ c ≠ '#' := by
    intro c hc
    simpa using h c hc
  have hkept : r.query.toList.filter (fun c => c != '\t' && c != '\n' && c != '\r') =
      r.query.toList := List.filter_eq_self.mpr fun c hc => by simp [hplain c hc]
  have hwhole : r.query.toList.takeWhile (· != '#') = r.query.toList :=
    List.takeWhile_eq_self_iff.mpr fun c hc => by simp [hplain c hc]
  rw [query?, if_pos hhost, hkept]
  dsimp only
  rw [hwhole, String.ofList_toList]

/-- An offset of as many ones. -/
def offsetOfOnes (n : Nat) : String := "offset" ++ "=" ++ String.ofList (List.replicate n '1')

theorem isOverlong_ones {n : Nat} (h : 4300 < n) :
    IsOverlong (String.ofList (List.replicate n '1')) := by
  constructor
  · simpa using h
  · intro c hc
    rw [String.toList_ofList] at hc
    rw [List.eq_of_mem_replicate hc]
    decide

theorem stopsAtNumeral_ones {n : Nat} (h : 4300 < n) : StopsAtNumeral (offsetOfOnes n) n := by
  have hstops : StopsAtNumeral (offsetOfOnes n)
      (String.ofList (List.replicate n '1')).toList.length :=
    stopsAtNumeral_single (by simp) (isOverlong_ones h)
  rwa [String.toList_ofList, List.length_replicate] at hstops

theorem lists_ones (n : Nat) :
    Request.Lists .sample ⟨"GET", "/api/texts", offsetOfOnes n, [], []⟩ (offsetOfOnes n) where
  found := Framework.sample_find (by decide : Route.ofPath? "/api/texts" = some .entries) rfl
  filter := by
    have hname : ("offset" ++ "=").toList.all fun c => decide (c ∉ ['\t', '\n', '\r', '#']) := by
      decide
    have hsplit : (offsetOfOnes n).toList = ("offset" ++ "=").toList ++ List.replicate n '1' := by
      rw [offsetOfOnes, String.toList_append, String.toList_ofList]
    have hplain : ∀ c ∈ (offsetOfOnes n).toList, c ∉ ['\t', '\n', '\r', '#'] := by
      intro c hc
      rw [hsplit] at hc
      rcases List.mem_append.mp hc with hc | hc
      · exact of_decide_eq_true (List.all_eq_true.mp hname c hc)
      · rw [List.eq_of_mem_replicate hc]
        decide
    exact Request.query?_of_plain (r := ⟨"GET", "/api/texts", offsetOfOnes n, [], []⟩) hplain rfl

/-- A key without a value is answered with its cause, an offset of one digit more than is read is
not. -/
theorem rejected_unless_overlong_sample :
    Framework.sample.Dispatches ∧
    Request.Lists .sample ⟨"GET", "/api/texts", "titel", [], []⟩ "titel" ∧
    compile "titel" = .error (.rejected (.malformedArgument "titel")) ∧
    (∃ response, (serve .sample .sample ⟨"GET", "/api/texts", "titel", [], []⟩
      (.new (.ofText "a.db"))).1 = .response response ∧ response.status = 400) ∧
    Request.Lists .sample ⟨"GET", "/api/texts", offsetOfOnes 4301, [], []⟩ (offsetOfOnes 4301) ∧
    StopsAtNumeral (offsetOfOnes 4301) 4301 ∧
    serve .sample .sample ⟨"GET", "/api/texts", offsetOfOnes 4301, [], []⟩ (.new (.ofText "a.db")) =
      (.unhandled, .new (.ofText "a.db")) := by
  have hdispatches : Framework.sample.Dispatches := Framework.standard_dispatches _ _
  have hlists : Request.Lists .sample ⟨"GET", "/api/texts", "titel", [], []⟩ "titel" := ⟨rfl, rfl⟩
  have hcompile : compile "titel" = .error (.rejected (.malformedArgument "titel")) := by rfl
  have hstops := stopsAtNumeral_ones (n := 4301) (by decide)
  refine ⟨hdispatches, hlists, hcompile, ?_, lists_ones 4301, hstops, ?_⟩
  · obtain ⟨response, hserve, hstatus, -⟩ := ((rejected_unless_overlong "titel").2 .sample
      hdispatches .sample _ (.new (.ofText "a.db")) hlists).1 _ hcompile
    exact ⟨response, congrArg Prod.fst hserve, hstatus⟩
  · exact ((rejected_unless_overlong (offsetOfOnes 4301)).2 .sample hdispatches _ _ _
      (lists_ones 4301)).2.2 ⟨_, hstops⟩

/-- An offset of one digit more than is read is neither compiled nor rejected, and the server
answers in plain text that something went wrong. -/
theorem listing_overlong_offset :
    compile (offsetOfOnes 4301) = .error (.numeral (.tooLong 4301)) ∧
    ¬((∃ q, compile (offsetOfOnes 4301) = .ok q) ∨
      ∃ cause, compile (offsetOfOnes 4301) = .error (.rejected cause)) ∧
    (handle .sample .sample ⟨"GET", "/api/texts", offsetOfOnes 4301, [], []⟩
      (.new (.ofText "a.db"))).1 = ⟨500, [], .text "Internal Server Error"⟩ := by
  have hstops := stopsAtNumeral_ones (n := 4301) (by decide)
  have hcompile := compile_numeral_iff.mpr ⟨4301, hstops, rfl⟩
  refine ⟨hcompile, fun h => compiled_or_rejected_iff.mp h ⟨4301, hstops⟩, ?_⟩
  have hdispatches : Framework.sample.Dispatches := Framework.standard_dispatches _ _
  rw [handle, serve_numeral hdispatches (lists_ones 4301) hcompile]
  rfl

end Catalogue.Http
