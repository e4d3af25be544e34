import Catalogue.Http.Framework

/-! Requests from pages of other origins.  A browser asks beforehand with which methods and headers
it may ask, and takes an answer only if it names the origin of the page.  Nobody may ask from a
public network for what is in a private one. -/

namespace Catalogue.Http

open Text

namespace OriginRules

/-- All origins may ask. -/
def all (rules : OriginRules) : Bool := rules.origins.contains "*"

/-- An origin may ask. -/
def allows (rules : OriginRules) (origin : String) : Bool :=
  rules.all || rules.origins.contains origin

/-- How long a browser may keep an answer, in seconds. -/
def maxAge : String := "600"

/-- The name of the header that names the origin which may take an answer. -/
def allowOrigin : String := "access-control-allow-origin"

/-- The name of the header of a request from a public network to a private one. -/
def privateNetwork : String := "access-control-request-private-network"

/-- The response with the origin that may take it. -/
def markFor (rules : OriginRules) (origin : String) (response : Response) : Response :=
  if rules.all then response.withHeader allowOrigin "*"
  else if rules.allows origin then response.withHeader allowOrigin (Utf8.ofBytewise origin)
  else response

/-- The response to a request, with the origin that may take it. -/
def mark (rules : OriginRules) (r : Request) (response : Response) : Response :=
  match r.header? "origin" with
  | some origin => rules.markFor origin response
  | none => response

/-- The answer to the question with which method and headers an origin may ask. -/
def preflight (rules : OriginRules) (r : Request) (origin method : String) : Response :=
  let failures := (if rules.allows origin then [] else ["origin"])
    ++ (if rules.methods.contains method then [] else ["method"])
    ++ (if (r.header? privateNetwork).isSome then ["private-network"] else [])
  let response :=
    if failures.isEmpty then Response.text 200 "OK"
    else Response.text 400 ("Disallowed CORS " ++ join ", " failures)
  let response := (response.withHeader "access-control-allow-methods"
    (join ", " rules.methods)).withHeader "access-control-max-age" maxAge
  let response := rules.markFor origin response
  match r.header? "access-control-request-headers" with
  | some headers => response.withHeader "access-control-allow-headers" (Utf8.ofBytewise headers)
  | none => response

/-- The answer to a request that asks so. -/
def preflight? (rules : OriginRules) (r : Request) : Option Response :=
  if r.method ≠ "OPTIONS" then none
  else
    match r.header? "origin", r.header? "access-control-request-method" with
    | some origin, some method => some (rules.preflight r origin method)
    | _, _ => none

end OriginRules

end Catalogue.Http
