import Reckoner.Service.Application

/-!
# Requests by POST

A request by POST that leads to a place is answered by that place. What the place has to say is told
to the client as it is if it can be written, but for a fault under any profile but the one for tests.
-/

set_option autoImplicit false

namespace Reckoner.Service

/-- A request by POST that leads to a place. -/
structure Request.PostsTo (request : Request) (route : Route) : Prop where
  method : request.method = "POST"
  leads : Destination.ofTarget "POST" request.target = .place route

/-- What a client is told of an outcome: under any profile but the one for tests, a fault is a bare
status. -/
def Configuration.told (configuration : Configuration) :
    Except Fault Response → Except Fault Response
  | .error fault => if configuration.testing then .error fault else .ok (.bare 500)
  | .ok response => .ok response

namespace Application

variable {application : Application}

theorem handle_of_postsTo {request : Request} {route : Route} (posts : request.PostsTo route) :
    application.handle request =
      (application.configuration.told
          ((application.respondAt request route).1.bind application.write),
        (application.respondAt request route).2) := by
  have method : Text.upperCase request.method = "POST" := by
    rw [posts.method]
    decide +kernel
  have responded : application.respond request "POST" = application.respondAt request route := by
    rw [respond, posts.leads]
    exact if_neg (by decide)
  unfold handle
  simp only [method, responded]
  rcases application.respondAt request route with ⟨outcome, after⟩
  cases outcome.bind application.write with
  | error fault =>
    simp only [Configuration.told]
    split
    · rfl
    · rfl
  | ok response => rfl

/-- What a place responds is the answer if it can be written, and a fault if not. -/
theorem handle_of_responded {request : Request} {route : Route} {response : Response}
    {after : Application} (posts : request.PostsTo route)
    (responded : application.respondAt request route = (.ok response, after)) :
    (response.levels ≤ application.limits.written →
        application.handle request = (.ok response, after)) ∧
      (application.limits.written < response.levels →
        application.handle request =
          (application.configuration.told (.error (.nesting .written)), after)) := by
  rw [handle_of_postsTo posts, responded]
  simp only [Except.bind, write]
  constructor
  · intro few
    rw [if_pos few]
    rfl
  · intro many
    rw [if_neg (Nat.not_le.2 many)]

/-- A request by POST whose body is a payload that fits the place it leads to. -/
structure Receives {Payload : Type} (application : Application) (request : Request) (route : Route)
    (read : Json.Foreign → Except (List Complaint) Payload) (payload : Payload) : Prop where
  posts : request.PostsTo route
  fits : (application.readPayload request read).toOption = some payload

theorem Receives.withPayload {Payload : Type} {request : Request} {route : Route}
    {read : Json.Foreign → Except (List Complaint) Payload} {payload : Payload}
    (receives : application.Receives request route read payload)
    (handle : Application → Payload → Handled) :
    application.withPayload request read handle = handle application payload := by
  have fits := receives.fits
  unfold Application.withPayload
  cases found : application.readPayload request read with
  | error error =>
    rw [found] at fits
    cases fits
  | ok given =>
    rw [found] at fits
    obtain rfl := Option.some.inj fits
    rfl

end Application

end Reckoner.Service
