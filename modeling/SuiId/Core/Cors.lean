import SuiId.Core.Caches
import SuiId.Lib.FormUrl

/-!
# CORS of the token endpoint

`RedirectOriginsCache::contains`, and the middleware `token_endpoint` of `http/cors.rs` over a cache
that was rebuilt.  Of a response the headers are kept that the middleware sets.
-/

namespace SuiId.Cors

open Lib

/-- `RedirectOriginsCache::contains`. -/
def contains (P : Primitives) (origins : Finset String) (origin : String) : Bool :=
  P.toLowercase origin ∈ origins

/-- `ResponseHeaders`. -/
structure ResponseHeaders where
  /-- `Access-Control-Allow-Origin`. -/
  allowOrigin : Option String
  allowMethods : Option String
  allowHeaders : Option String
  maxAge : Option String
  vary : Option String
deriving DecidableEq

/-- No header is set. -/
def ResponseHeaders.empty : ResponseHeaders := ⟨none, none, none, none, none⟩

/-- `HeaderValue::to_str`. -/
def toStr (value : Bytes) : Option String :=
  if value.all fun b => (32 ≤ b && b < 127) || b = 9 then some (FormUrl.ascii value) else none

/-- `HeaderValue::from_str`. -/
def isHeaderValue (value : String) : Bool :=
  (utf8 value).all fun b => (32 ≤ b && b ≠ 127) || b = 9

/-- `append_vary`. -/
def appendVary (h : ResponseHeaders) (value : String) : ResponseHeaders :=
  let existing := h.vary.getD ""
  let merged :=
    if existing.isEmpty then value
    else if (Text.split existing ',').any fun s => Text.eqIgnoreAsciiCase (Text.trim s) value then
      existing
    else existing ++ ", " ++ value
  if isHeaderValue merged then { h with vary := some merged } else h

/-- `preflight_response`. -/
def preflightResponse (allowMethods allowHeaders origin : String) : ResponseHeaders where
  allowOrigin := if isHeaderValue origin then some origin else none
  allowMethods := if isHeaderValue allowMethods then some allowMethods else none
  allowHeaders := if isHeaderValue allowHeaders then some allowHeaders else none
  maxAge := some "600"
  vary := none

/-- `preflight_response_with_origin`. -/
def preflightResponseWithOrigin (allowMethods allowHeaders origin : String) : ResponseHeaders :=
  appendVary (preflightResponse allowMethods allowHeaders origin) "Origin"

/-- `preflight_response_no_cors`. -/
def preflightResponseNoCors : ResponseHeaders := .empty

/-- `token_endpoint`: the `Origin` of the request, and the response of the handler. -/
def tokenEndpoint (P : Primitives) (origins : Finset String) (isOptions : Bool)
    (origin : Option Bytes) (response : ResponseHeaders) : ResponseHeaders :=
  let origin := origin.bind toStr
  if isOptions then
    match origin with
    | some o =>
      if contains P origins o then
        preflightResponseWithOrigin "POST, OPTIONS" "Authorization, Content-Type" o
      else preflightResponseNoCors
    | none => preflightResponseNoCors
  else
    match origin with
    | some o =>
      if contains P origins o && isHeaderValue o then
        appendVary { response with allowOrigin := some o } "Origin"
      else response
    | none => response

end SuiId.Cors
