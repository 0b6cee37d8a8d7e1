import Compendium.Catalog.Aghanim
import Compendium.Proofs.Document.Members
import Mathlib

/-! The summaries made of many responses. A response adds the summary of its first hero, or nothing, and is told of by its
own notices only. Without the responses that add nothing the summaries are the same. -/

set_option autoImplicit false
namespace Compendium.AghanimSummary

/-- The first hero of a response that can be read and has one. -/
def firstHero? (response : Document) : Option HeroData :=
  (HeroData.ofResponse? response).bind List.head?

/-- The summary of a hero under the text of its number. -/
def entry (hero : HeroData) : String × AghanimSummary :=
  (toString hero.id, (ofHero hero).value)

/-- What a response without a hero is told of. -/
def complaint (response : Document) : Notice :=
  if (HeroData.ofResponse? response).isNone then .unreadableResponse else .responseWithoutHero

/-- What is told of a response, whatever the other ones are. -/
def told (response : Document) : List Notice :=
  match firstHero? response with
  | some hero => (ofHero hero).notices
  | none => [complaint response]

theorem addResponse_eq (summaries : Members AghanimSummary) (response : Document) : addResponse summaries response =
    ⟨Members.putAll summaries ((firstHero? response).toList.map entry), told response⟩ := by
  rw [addResponse, told, complaint, firstHero?]
  cases HeroData.ofResponse? response with
  | none => rfl
  | some heroes =>
    cases heroes with
    | nil => rfl
    | cons hero rest =>
      change (⟨Members.put summaries (toString hero.id) (ofHero hero).value, (ofHero hero).notices ++ []⟩ : Report _) = _
      rw [List.append_nil]
      rfl

/-- What a run makes of its responses: the summaries of all first heroes are put one after the other. -/
theorem foldlM_addResponse (summaries : Members AghanimSummary) (responses : List Document) :
    responses.foldlM addResponse summaries =
      ⟨Members.putAll summaries ((responses.filterMap firstHero?).map entry), responses.flatMap told⟩ := by
  induction responses generalizing summaries with
  | nil => rfl
  | cons response rest ih =>
    rw [List.foldlM_cons, addResponse_eq]
    change (⟨(rest.foldlM addResponse (Members.putAll summaries _)).value,
      told response ++ (rest.foldlM addResponse (Members.putAll summaries _)).notices⟩ : Report _) = _
    -- A response without a hero leaves the summaries to those behind it, and only its notice stays.
    rw [ih, List.flatMap_cons, List.filterMap_cons]
    cases firstHero? response with
    | none => rfl
    | some hero => rfl

theorem ofResponses_eq (responses : List Document) : ofResponses responses =
    ⟨Members.ofPairs ((responses.filterMap firstHero?).map entry), responses.flatMap told⟩ :=
  foldlM_addResponse [] responses

theorem at?_ofPairs_entry_iff (heroes : List HeroData) (id : Int) (summary : AghanimSummary) :
    Members.at? (Members.ofPairs (heroes.map entry)) (toString id) = some summary ↔
      ∃ hero, IsLast (fun hero => hero.id = id) heroes hero ∧ summary = (ofHero hero).value := by
  have number (hero : HeroData) : (entry hero).1 = toString id ↔ hero.id = id :=
    ⟨fun same => Int.repr_injective same, congrArg toString⟩
  rw [Members.at?_ofPairs_eq_some_iff, IsLast.map_iff]
  simp only [number]
  constructor
  · rintro ⟨hero, last, same⟩
    exact ⟨hero, last, (Prod.mk.inj same).2.symm⟩
  · rintro ⟨hero, last, rfl⟩
    exact ⟨hero, last, congrArg (Prod.mk · _) (congrArg toString last.holds)⟩

/-- Summaries stand under the numbers of the first heroes, in the order in which the numbers come first, and each of them is
that of the last hero of its number. A response without a hero is complained of once and may as well be left out. -/
theorem ofResponses_by_first_heroes (responses : List Document) :
    Members.names (ofResponses responses).value =
      ((responses.filterMap firstHero?).map fun hero => toString hero.id).eraseDups ∧
    (∀ id summary, Members.at? (ofResponses responses).value (toString id) = some summary ↔
      ∃ hero, IsLast (fun hero => hero.id = id) (responses.filterMap firstHero?) hero ∧ summary = (ofHero hero).value) ∧
    ∀ before response after, responses = before ++ response :: after → firstHero? response = none →
      (ofResponses (before ++ after)).value = (ofResponses responses).value ∧
      (ofResponses (before ++ after)).notices = (ofResponses before).notices ++ (ofResponses after).notices ∧
      (ofResponses responses).notices =
        (ofResponses before).notices ++ complaint response :: (ofResponses after).notices := by
  refine ⟨?_, ?_, ?_⟩
  · rw [ofResponses_eq, Members.names_ofPairs, Members.names, List.map_map]
    rfl
  · intro id summary
    rw [ofResponses_eq]
    exact at?_ofPairs_entry_iff _ id summary
  · rintro before response after rfl silent
    have own : told response = [complaint response] := by rw [told, silent]
    simp only [ofResponses_eq, List.filterMap_append, List.filterMap_cons, silent, List.flatMap_append, List.flatMap_cons, own,
      List.singleton_append, and_self]

/-- Two heroes of one number, a response without a hero between them, and a list that is too long for a response. -/
theorem ofResponses_by_first_heroes_twice :
    let response (id : Int) (name : String) : Document := .table [("result", .table [("data", .table [("heroes",
      .list [.table [("id", .integer id), ("name", .text name)]])])])]
    let empty : Document := .table [("result", .null)]
    let rest : List Document := [response 1 "lina", .list [.null, .null], response 2 "lion"]
    let report := ofResponses (response 2 "axe" :: empty :: rest)
    Members.names report.value = ["2", "1"] ∧ Members.at? report.value "2" = some { heroName := "lion", heroId := 2 } ∧
      (ofResponses (response 2 "axe" :: rest)).value = report.value ∧
      report.notices = [.noShard "axe" 2, .noScepter "axe" 2, .responseWithoutHero] ++ (ofResponses rest).notices := by
  intro response empty rest report
  obtain ⟨names, entries, others⟩ := ofResponses_by_first_heroes (response 2 "axe" :: empty :: rest)
  have heroes : (response 2 "axe" :: empty :: rest).filterMap firstHero? =
      [⟨2, "axe", []⟩, ⟨1, "lina", []⟩, ⟨2, "lion", []⟩] := rfl
  have last : IsLast (fun hero => hero.id = 2) ((response 2 "axe" :: empty :: rest).filterMap firstHero?) ⟨2, "lion", []⟩ :=
    ⟨[_, _], [], heroes, rfl, nofun⟩
  obtain ⟨same, -, notices⟩ := others [response 2 "axe"] empty rest rfl rfl
  rw [heroes] at names
  exact ⟨names, (entries 2 _).mpr ⟨_, last, rfl⟩, same, notices⟩

end Compendium.AghanimSummary
