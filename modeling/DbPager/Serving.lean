import DbPager.Fcgx.Worker
import DbPager.Pages

/-!
# Pages over connections

The bytes of a request come in over a connection, and the bytes of a response
go out.  When the request is for a page of the core language, what goes out is
the response the language gives to the page.
-/

namespace DbPager.Fcgx

open Effect Language Semantics Dbpagerd DbpagerApplication

section Rendering

variable {W : Type} {site : Site W}

/-- The language gives a response to a request: the request can be read, its
page is found, and the language has an ending for the page after which the
session is saved. -/
inductive Renders (site : Site W) (accepted : FcgxRequest) (world later : W) :
    HttpResponse → Prop
  | page {request : HttpRequest} {opening : W} {environment : Environment}
      {page : Tag} {expressions : Expressions site.outside}
      {ending : Ending Str Char Exc Loc} {saved : HttpResponse}
      (read : Dbpagerd.getRequest site.api.dcl site.http site.allocates
        accepted = .value request)
      (prepared : Prepared site request world opening environment page)
      (ended : Exec (meaning expressions)
        (meaning expressions (⟨page, []⟩, none))
        ⟨Semantics.bindings environment.contexts, []⟩ ending)
      (raises : ∀ exception, ending.raised = some exception →
        isDbp exception = true)
      (saves : ∀ depth final,
        Leaves environment ending.config.store final →
        saving (site.server depth) request final.user
            { powered site.appFullName with
              contentType := (ending.config.store.lookup
                "CONTENT_TYPE".toList).getD [] } opening =
          (later, saved, none)) :
      Renders site accepted world later (concluded ending saved)

/-- The language gives the responses to some requests, each one in the world
the requests before it have left. -/
inductive RendersAll (site : Site W) :
    List FcgxRequest → W → W → List HttpResponse → Prop
  | nil {world} : RendersAll site [] world world []
  | cons {first others world middle final response responses}
      (here : Renders site first world middle response)
      (later : RendersAll site others middle final responses) :
      RendersAll site (first :: others) world final (response :: responses)

/-- The server answers a request as the language says. -/
theorem Renders.serve {accepted : FcgxRequest} {world later : W}
    {response : HttpResponse}
    (renders : Renders site accepted world later response) :
    ∃ bound, ∀ depth, bound ≤ depth →
      serve (site.server depth) accepted world =
        ⟨later, [.accepted accepted, .sent response], .value ()⟩ := by
  cases renders with
  | page read prepared ended raises saves =>
      obtain ⟨bound, answers⟩ := answers_of_exec prepared ended
      refine ⟨bound, fun depth enough => ?_⟩
      obtain ⟨final, leaves, answered⟩ := answers depth enough
      have responded := answered raises _ _ (saves depth final leaves)
      have reading : Dbpagerd.getRequest (site.server depth).api.dcl
          (site.server depth).http (site.server depth).allocates accepted =
            .value _ := read
      rw [serve_read reading world, Prog.bind_eq (rfl :
        Prog.emit [Event.accepted accepted] world = _),
        Prog.bind_silent (Prog.tryCatch_eq responded _)]
      rfl

theorem RendersAll.answers {requests : List FcgxRequest} {world final : W}
    {responses : List HttpResponse}
    (renders : RendersAll site requests world final responses) :
    ∃ bound, ∀ depth, bound ≤ depth →
      AnswersEach (site.server depth) requests responses world final := by
  induction renders with
  | nil => exact ⟨0, fun _ _ => .nil⟩
  | cons here _ induction =>
      obtain ⟨first, serves⟩ := here.serve
      obtain ⟨bound, others⟩ := induction
      refine ⟨max first bound, fun depth enough => ?_⟩
      exact .cons (serves depth (le_of_max_le_left enough))
        (others depth (le_of_max_le_right enough))

/-- The worker writes to each connection what the language says of the page
that the request on the connection asks for. -/
theorem pages_served {wire : Wire} {connections : List (Connection wire)}
    {world final : W} {responses : List HttpResponse}
    (renders : RendersAll site (requestsOf connections) world final responses) :
    ∃ bound, ∀ depth, bound ≤ depth → ∀ fuel,
      (requestsOf connections).length < fuel → ∀ data : RequestData,
        ∃ closed, work (site.server depth) wire fuel
            (connections.map Connection.socket) data world =
              ⟨final, closed, .value ()⟩ ∧
          Closes wire data.appStatus connections responses closed := by
  obtain ⟨bound, serves⟩ := renders.answers
  refine ⟨bound, fun depth deep fuel enough data => ?_⟩
  exact work_closes connections enough (serves depth deep)

end Rendering

theorem page_read : Dbpagerd.getRequest counterSite.api.dcl counterSite.http
    counterSite.allocates pageRequest.accepted = .value counterRequest :=
  rfl

/-- A connection that is closed without a request, and one that asks for the
page that counts. -/
abbrev counted : List (Connection plainWire) :=
  [.refused idleSocket (refused_idle plainWire rfl), .visit pageVisit]

theorem counter_served : ∃ depth response closed,
    response.content = "11".toList ∧
      work (counterSite.server depth) plainWire 2
        (counted.map Connection.socket) blankData () =
          ⟨(), closed, .value ()⟩ ∧
      Closes plainWire 0 counted [response] closed := by
  obtain ⟨environment, ending, prepared, ended, fine, shows⟩ := counter_prepared
  have here := Renders.page page_read prepared ended
    (by rw [fine]; rintro _ ⟨⟩) fun _ _ _ => rfl
  have renders : RendersAll counterSite (requestsOf counted) () () [_] :=
    .cons here .nil
  obtain ⟨bound, served⟩ := pages_served renders
  obtain ⟨closed, ran, closes⟩ := served bound (Nat.le_refl bound) 2
    Nat.one_lt_two blankData
  refine ⟨bound, _, closed, ?_, ran, closes⟩
  unfold concluded
  rw [fine]
  exact shows

end DbPager.Fcgx
