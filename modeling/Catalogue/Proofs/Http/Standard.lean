import Catalogue.Http.Standard
import Catalogue.Proofs.Date
import Catalogue.Proofs.Http.Framework
import Catalogue.Proofs.Json.Sound
import Catalogue.Proofs.Text.Utf8

/-! The standard framework does what a server relies on. -/

namespace Catalogue.Http

open Number Text

/-! ### Endpoints and marks -/

theorem OriginRules.mark_keepsAnswer (rules : OriginRules) (r : Request) :
    KeepsAnswer (rules.mark r) := by
  have hfor (origin : String) : KeepsAnswer (rules.markFor origin) := by
    constructor <;>
    · intro response
      unfold OriginRules.markFor
      split
      · rfl
      · split <;> rfl
  unfold OriginRules.mark
  cases r.header? "origin" with
  | none => exact ⟨fun _ => rfl, fun _ => rfl⟩
  | some origin => exact hfor origin

theorem Route.method_of_endpoint? {route : Route} {method : String} {e : Endpoint}
    (h : route.endpoint? method = some e) : method = e.method := by
  unfold Route.endpoint? at h
  split at h <;> cases h <;> rfl

theorem Route.find_eq {origin : String} {r : Request} {route : Route} {e : Endpoint}
    (hroute : ofPath? r.path = some route) (he : route.endpoint? r.method = some e) :
    find origin r = .ok e := by
  rw [find, hroute]
  dsimp only
  rw [he]

theorem Framework.standard_dispatches (origin : String) (nestingLimit : Nat) :
    (standard origin nestingLimit).Dispatches where
  method := by
    intro r e h
    change Route.find (r.foundAt origin) r = .ok e at h
    unfold Route.find at h
    split at h
    · split at h
      · next hendpoint =>
        cases h
        exact Route.method_of_endpoint? hendpoint
      · cases h
    · split at h <;> cases h
  preflight := by
    intro rules r response h
    change rules.preflight? r = some response at h
    unfold OriginRules.preflight? at h
    split at h
    · cases h
    · next hmethod => exact not_not.mp hmethod
  mark := OriginRules.mark_keepsAnswer

/-! ### Checks -/

theorem Checked.ap_eq_ok {α β : Type} {f : Checked (α → β)} {a : Checked α} {b : β} :
    Checked.ap f a = .ok b ↔ ∃ g x, f = .ok g ∧ a = .ok x ∧ g x = b := by
  cases f <;> cases a <;> simp [Checked.ap]

theorem Checked.map_eq_ok {ε α β : Type} {f : α → β} {a : Except ε α} {b : β} :
    Except.map f a = .ok b ↔ ∃ x, a = .ok x ∧ f x = b := by
  cases a <;> simp [Except.map]

theorem Checked.at_eq_ok {α : Type} {location : List Place} {result : Except Complaint α} {a : α} :
    Checked.at_ location result = .ok a ↔ result = .ok a := by
  cases result <;> simp [Checked.at_, Checked.complain]

theorem Received.ofChecked_eq_valid {α : Type} {result : Checked α} {a : α} :
    ofChecked result = .valid a ↔ result = .ok a := by
  cases result <;> simp [ofChecked]

/-! ### Days -/

theorem digits?_map_digitChar {ds : List Nat} (hne : ds ≠ []) (h : ∀ d ∈ ds, d < 10) :
    digits? (ds.map digitChar) = some (ofDigits ds) := by
  have hall : (ds.map digitChar).all isAsciiDigit = true := by
    rw [List.all_map, List.all_eq_true]
    exact fun d hd => isAsciiDigit_digitChar (h d hd)
  have hempty : (ds.map digitChar).isEmpty = false := by simpa using hne
  rw [digits?, hempty, hall, digitsValue_map_digitChar h]
  rfl

/-- The written form of a date, by its digits. -/
theorem exists_digits (d : Date) : ∃ y₁ y₂ y₃ y₄ m₁ m₂ d₁ d₂,
    paddedDigits 4 d.year = [y₁, y₂, y₃, y₄] ∧ paddedDigits 2 d.month = [m₁, m₂] ∧
      paddedDigits 2 d.day = [d₁, d₂] := by
  obtain ⟨hy, hm, hd⟩ := d.fields_lt
  obtain ⟨y₁, y₂, y₃, y₄, hyear⟩ := List.length_eq_four.mp (length_paddedDigits (by omega) hy)
  obtain ⟨m₁, m₂, hmonth⟩ := List.length_eq_two.mp (length_paddedDigits (by omega) hm)
  obtain ⟨d₁, d₂, hday⟩ := List.length_eq_two.mp (length_paddedDigits (by omega) hd)
  exact ⟨y₁, y₂, y₃, y₄, m₁, m₂, d₁, d₂, hyear, hmonth, hday⟩

theorem takeSign_of_digit {c : Char} (h : isAsciiDigit c = true) (cs : List Char) :
    takeSign (c :: cs) = (false, c :: cs) := by
  unfold takeSign
  split
  · next he =>
    cases he
    cases h
  · next he =>
    cases he
    cases h
  · rfl

theorem numberText?_text (d : Date) : numberText? d.text.toList = none := by
  obtain ⟨y₁, y₂, y₃, y₄, m₁, m₂, d₁, d₂, hyear, -, -⟩ := exists_digits d
  have hlt := paddedDigits_lt_ten 4 d.year
  rw [hyear] at hlt
  simp only [List.mem_cons, List.not_mem_nil, or_false, forall_eq_or_imp, forall_eq] at hlt
  obtain ⟨h₁, h₂, h₃, h₄⟩ := hlt
  have hhyphen : isAsciiDigit '-' = false := by decide
  rw [Date.toList_text, hyear]
  simp [numberText?, takeSign_of_digit, isAsciiDigit_digitChar, h₁, h₂, h₃, h₄, hhyphen]

theorem dayOfText_text (d : Date) : dayOfText d.text = .ok d := by
  have hnumber := numberText?_text d
  obtain ⟨y₁, y₂, y₃, y₄, m₁, m₂, d₁, d₂, hyear, hmonth, hday⟩ := exists_digits d
  have hdigits {width n : Nat} {ds : List Nat} (h : paddedDigits width n = ds) (hne : ds ≠ []) :
      digits? (ds.map digitChar) = some n := by
    rw [digits?_map_digitChar hne (h ▸ paddedDigits_lt_ten width n), ← h, ofDigits_paddedDigits]
  have hy := hdigits hyear (by simp)
  have hm := hdigits hmonth (by simp)
  have hd := hdigits hday (by simp)
  have hnumbers : Date.ofNumbers? d.year d.month d.day = some d := by
    rw [Date.ofNumbers?, dif_pos d.isDay]
  have htext := d.toList_text
  rw [hyear, hmonth, hday] at htext
  simp only [List.map_cons, List.map_nil, List.cons_append, List.nil_append] at hy hm hd htext
  rw [htext] at hnumber
  simp only [dayOfText, htext, hnumber, List.drop, readDay, hy, hm, hd, dayOfNumbers, hnumbers]

/-! ### Drafts that are in an object -/

section Members

variable {members : Members} {name : String} {value : Json}

theorem required_eq {α : Type} {location : String → List Place} {read : Json → Except Complaint α}
    {a : α} (h : members.get? name = some value) (hread : read value = .ok a) :
    required members location name read = .ok a := by
  rw [required, h]
  exact Checked.at_eq_ok.mpr hread

theorem defaulted_eq {α : Type} {default a : α} {read : Json → Except Complaint α}
    (h : members.get? name = some value) (hread : read value = .ok a) :
    defaulted members name default read = .ok a := by
  rw [defaulted, h]
  exact Checked.at_eq_ok.mpr hread

theorem readTexts_map (location : List Place) (index : Nat) (texts : List LooseText) :
    readTexts location index (texts.map .string) = .ok texts := by
  induction texts generalizing index with
  | nil => rfl
  | cons s texts ih =>
    rw [List.map_cons, readTexts, ih]
    rfl

theorem textsMember_eq {texts : List LooseText}
    (h : members.get? name = some (.list (texts.map .string))) :
    textsMember members name = .ok texts := by
  rw [textsMember, h]
  exact readTexts_map _ _ texts

theorem readNatural_int {n : Int} (h : 0 ≤ n) : readNatural (.int n) = .ok n := by
  have hn : ¬n < 0 := by omega
  simp [readNatural, readInteger, hn, bind, Except.bind, pure, Except.pure]

theorem amountMember_eq {m : Measure} {amount : Option Int}
    (hnatural : ∀ n, amount = some n → 0 ≤ n)
    (h : members.get? m.name = some (measureJson amount)) :
    amountMember members m = .ok amount := by
  rw [amountMember, h]
  cases amount with
  | none => rfl
  | some n =>
    dsimp only [measureJson]
    rw [readNatural_int (hnatural n rfl)]
    rfl

theorem readKind_token (kind : Kind) : readKind (.text kind.token) = .ok kind := by
  cases kind <;> rfl

theorem typeMember_eq {m : Measures} {type : Json} (hnatural : m.AreNatural)
    (h : members.get? "entry_type" = some type) (htype : m.IsIn type) :
    typeMember members = .ok m := by
  cases type with
  | object type =>
    have hkind : required type inType "kind" readKind = .ok m.kind :=
      required_eq htype.kind (readKind_token m.kind)
    have hpages : amountMember type .pages = .ok m.pages :=
      amountMember_eq hnatural.pages htype.pages
    have hseconds : amountMember type .seconds = .ok m.seconds :=
      amountMember_eq hnatural.seconds htype.seconds
    rw [typeMember, h]
    dsimp only
    rw [hkind, hpages, hseconds]
    rfl
  | _ => cases htype.kind

end Members

theorem readDraft_of_isIn {v : Json} {d : Draft} (h : d.IsIn v) : readDraft v = .ok d := by
  cases v with
  | object members =>
    obtain ⟨type, hmember, htype⟩ := h.measures
    have hlink : required members inBody "link" readText = .ok d.link := required_eq h.link rfl
    have htitle : required members inBody "title" readText = .ok d.title := required_eq h.title rfl
    have hdescription : defaulted members "description" (.sound "") readText = .ok d.description :=
      defaulted_eq h.description rfl
    have hcategory : defaulted members "category" (.sound "") readText = .ok d.category :=
      defaulted_eq h.category rfl
    have hpublished : required members inBody "date_published" readDate = .ok d.published :=
      required_eq h.published (dayOfText_text d.published)
    have hexceptional : defaulted members "exceptional" false readBoolean = .ok d.exceptional :=
      defaulted_eq h.exceptional rfl
    rw [readDraft, draftOf, hlink, htitle, hdescription, hcategory, hpublished, hexceptional,
      textsMember_eq h.authors, textsMember_eq h.themes, textsMember_eq h.worksMentioned,
      textsMember_eq h.tags, typeMember_eq h.natural hmember htype]
    rfl
  | _ => cases h.link

/-! ### Measures that are read -/

theorem le_of_readNatural {value : Json} {n : Int} (h : readNatural value = .ok n) : 0 ≤ n := by
  unfold readNatural at h
  cases hread : readInteger value with
  | error c =>
    rw [hread] at h
    cases h
  | ok m =>
    rw [hread] at h
    by_cases hm : m < 0
    · simp [hm, bind, Except.bind, throw, throwThe, MonadExceptOf.throw] at h
    · simp [hm, bind, Except.bind, pure, Except.pure] at h
      omega

theorem le_of_amountMember {members : Members} {m : Measure} {amount : Option Int}
    (h : amountMember members m = .ok amount) : ∀ n, amount = some n → 0 ≤ n := by
  rintro n rfl
  unfold amountMember at h
  split at h
  · cases h
  · cases h
  · obtain ⟨natural, hnatural, hn⟩ := Checked.map_eq_ok.mp (Checked.at_eq_ok.mp h)
    cases hn
    exact le_of_readNatural hnatural

theorem areNatural_of_typeMember {members : Members} {m : Measures}
    (h : typeMember members = .ok m) : m.AreNatural := by
  unfold typeMember at h
  split at h
  · cases h
  · obtain ⟨withPages, seconds, hpages, hseconds, rfl⟩ := Checked.ap_eq_ok.mp h
    obtain ⟨withKind, pages, hkind, hamount, rfl⟩ := Checked.ap_eq_ok.mp hpages
    obtain ⟨kind, -, rfl⟩ := Checked.map_eq_ok.mp hkind
    exact ⟨le_of_amountMember hamount, le_of_amountMember hseconds⟩
  · cases h

/-- A draft that is read has measures that are not negative. -/
theorem areNatural_of_readDraft {value : Json} {draft : Draft} (h : readDraft value = .ok draft) :
    draft.measures.AreNatural := by
  unfold readDraft at h
  split at h
  · simp only [draftOf, Checked.ap_eq_ok, Checked.map_eq_ok] at h
    obtain ⟨_, type, ⟨_, _, ⟨_, _, ⟨_, _, ⟨_, _, ⟨_, _, ⟨_, _, ⟨_, _, ⟨_, _, ⟨_, _, ⟨_, _, rfl⟩, _,
      rfl⟩, _, rfl⟩, _, rfl⟩, _, rfl⟩, _, rfl⟩, _, rfl⟩, _, rfl⟩, _, rfl⟩, _, rfl⟩, htype, rfl⟩ := h
    exact areNatural_of_typeMember htype
  · cases h

/-! ### Bodies -/

namespace Standard

/-- A request whose body is a printed object with a member holds that object. -/
theorem readBody_print {r : Request} {v : Json} {name : LooseText} {value : Json}
    {nestingLimit : Nat} (hmember : v.get? name = some value) (hregular : v.IsRegular)
    (hnesting : Json.nesting v ≤ nestingLimit) (hdeclared : r.declaresJson = true)
    (hbody : r.body = Utf8.encode v.print) : readBody nestingLimit r = .value v := by
  obtain ⟨m, members, rfl⟩ : ∃ m members, v = .object (m :: members) := by
    cases v with
    | object members =>
      cases members with
      | nil => cases hmember
      | cons m members => exact ⟨m, members, rfl⟩
    | _ => cases hmember
  obtain ⟨s, hkey⟩ := hregular.sound.here m (by simp)
  obtain ⟨cs, hcs⟩ := Json.print_object members hkey
  have hdecode : Wide.decode? r.body = some (.sound (Json.print (.object (m :: members)))) := by
    rw [hbody, hcs]
    exact Wide.decode?_encode cs
  have hempty : r.body.isEmpty = false := by
    rw [hbody, hcs]
    simp [Utf8.encode, Utf8.encodeChar]
  simp [readBody, hempty, hdeclared, hdecode, Json.parseWithin_print hregular hnesting]

theorem declaresJson_of_declared {r : Request}
    (h : r.header? "content-type" = some "application/json") : r.declaresJson = true := by
  rw [Request.declaresJson, h]
  decide

/-- What cannot be read of a body is not received. -/
theorem receive_eq_valid {α : Type} {nestingLimit : Nat} {r : Request}
    {read : Checked Draft → Checked α} {a : α}
    (hread : ∀ problems, read (.error problems) ≠ .ok a) :
    receive nestingLimit r read = .valid a ↔ read (draftIn (readBody nestingLimit r)) = .ok a := by
  unfold receive
  cases readBody nestingLimit r with
  | malformed position => exact iff_of_false (fun h => nomatch h) (hread _)
  | unreadable => exact iff_of_false (fun h => nomatch h) (hread _)
  | _ => exact Received.ofChecked_eq_valid

theorem receive_id_eq_valid {nestingLimit : Nat} {r : Request} {d : Draft} :
    receive nestingLimit r id = .valid d ↔ draftIn (readBody nestingLimit r) = .ok d :=
  receive_eq_valid fun _ h => nomatch h

end Standard

theorem Framework.standard_validates (origin : String) {nestingLimit : Nat} (h : 2 ≤ nestingLimit) :
    (standard origin nestingLimit).Validates where
  natural := by
    intro r d hd
    have hdraft := Standard.receive_id_eq_valid.mp hd
    unfold Standard.draftIn at hdraft
    split at hdraft
    · exact areNatural_of_readDraft hdraft
    · cases hdraft
  both := by
    intro r id n d
    have hread (problems : List Problem) :
        Checked.ap ((Standard.readId id).map Prod.mk) (.error problems) ≠ .ok (n, d) := by
      intro h
      obtain ⟨_, _, _, ⟨⟩, _⟩ := Checked.ap_eq_ok.mp h
    refine (Standard.receive_eq_valid hread).trans ?_
    refine Iff.trans ?_ (and_congr Received.ofChecked_eq_valid Standard.receive_id_eq_valid).symm
    simp [Checked.ap_eq_ok, Checked.map_eq_ok]
  depth := h
  reads := by
    intro r v d hsends hregular hnesting hd
    have hbody : Standard.readBody nestingLimit r = .value v :=
      Standard.readBody_print hd.link hregular hnesting
        (Standard.declaresJson_of_declared hsends.declared) hsends.body
    refine Standard.receive_id_eq_valid.mpr ?_
    rw [hbody]
    exact readDraft_of_isIn hd

/-! ### Examples -/

/-- A framework and a setting, for examples. -/
def Framework.sample : Framework := .standard "http://localhost" 100

def Setting.sample : Setting := ⟨[], .first, 0⟩

theorem Framework.sample_find {r : Request} {route : Route} {e : Endpoint}
    (hroute : Route.ofPath? r.path = some route) (he : route.endpoint? r.method = some e) :
    sample.find r = .ok e := Route.find_eq hroute he

theorem Framework.sample_dispatches : sample.Dispatches := standard_dispatches _ _

theorem Framework.sample_validates : sample.Validates := standard_validates _ (by decide)

end Catalogue.Http
