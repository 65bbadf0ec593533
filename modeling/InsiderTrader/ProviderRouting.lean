import InsiderTrader.Library.Fallible
import InsiderTrader.Llm

/-!
# Provider routing

A router asks its primary provider on an endpoint that the provider has, and
its fallback when the primary fails. A call keeps the provider calls it makes,
so that the answer can be compared with the one that a fallback gives whenever
it can help.

## Main definitions

- `ProviderRouter.complete`, `ProviderRouter.stream` — the two entry points
- `FallsBack` — the fallback answers whenever it can help, and is not asked otherwise
- `ProviderRouter.Reaches`, `ProviderRouter.ReachesStream` — when the entry points do so

## Main results

- `ProviderRouter.falls_back_iff` — each entry point falls back exactly then
-/

namespace InsiderTrader

open Fallible

/-- Provider capability declaration. -/
structure LlmCapabilities where
  responses : Bool
  chatCompletions : Bool
  streaming : Bool
  jsonSchema : Bool
  tools : Bool
  deriving DecidableEq

namespace LlmCapabilities

/-- The union of two declarations. -/
def union (c d : LlmCapabilities) : LlmCapabilities :=
  ⟨c.responses || d.responses, c.chatCompletions || d.chatCompletions, c.streaming || d.streaming,
    c.jsonSchema || d.jsonSchema, c.tools || d.tools⟩

/-- Some endpoint is available. -/
def compatible (c : LlmCapabilities) : Bool := c.responses || c.chatCompletions

end LlmCapabilities

/-- A provider with the capabilities it declares. -/
structure RoutedProvider extends LlmProvider where
  capabilities : LlmCapabilities

/-- A call to one of the two providers of a router. -/
inductive ProviderCall where
  | primary (request : LlmRequest)
  | fallback (request : LlmRequest)
  deriving DecidableEq

/-- Provider-neutral endpoint router with bounded fallback behavior. -/
structure ProviderRouter where
  primary : RoutedProvider
  fallback : Option RoutedProvider
  preferred : Endpoint

/-- The other endpoint. -/
def Endpoint.alternate : Endpoint → Endpoint
  | responses => chatCompletions
  | chatCompletions => responses

namespace ProviderRouter

/-- The union of the capabilities available through the route. -/
def capabilities (router : ProviderRouter) : LlmCapabilities :=
  match router.fallback with
  | none => router.primary.capabilities
  | some fallback => router.primary.capabilities.union fallback.capabilities

def endpointAvailable (capabilities : LlmCapabilities) : Endpoint → Bool
  | .responses => capabilities.responses
  | .chatCompletions => capabilities.chatCompletions

/-- The request on the preferred endpoint, or else on the other one. -/
def requestFor (router : ProviderRouter) (request : LlmRequest) (capabilities : LlmCapabilities) :
    Except LlmError LlmRequest :=
  let preferred :=
    if endpointAvailable capabilities router.preferred then router.preferred
    else router.preferred.alternate
  if endpointAvailable capabilities preferred then .ok { request with endpoint := preferred }
  else .error (.provider "no compatible LLM endpoint")

/-- The failures after which the fallback is asked. -/
def shouldFallback : LlmError → Bool
  | .provider _ | .rateLimited _ | .timeout | .refusal _ => true
  | _ => false

section Routes

variable {α : Type} (ask : RoutedProvider → LlmRequest → Except LlmError α)

/-- Ask a provider and record the call. -/
def call (provider : RoutedProvider) (side : LlmRequest → ProviderCall) (request : LlmRequest) :
    Fallible (List ProviderCall) LlmError α := do
  Fallible.modify (· ++ [side request])
  Fallible.ofExcept (ask provider request)

/-- What follows the answer of the primary. -/
def afterPrimary (router : ProviderRouter) (request : LlmRequest) :
    Except LlmError α → Fallible (List ProviderCall) LlmError α
  | .ok answer => pure answer
  | .error primaryError =>
    if shouldFallback primaryError then
      match router.fallback with
      | none => Fallible.fail primaryError
      | some fallback => do
        let fallbackRequest ← Fallible.ofExcept (router.requestFor request fallback.capabilities)
        call ask fallback .fallback fallbackRequest
    else Fallible.fail primaryError

/-- Ask the primary, then the fallback at most once. -/
def route (router : ProviderRouter) (request : LlmRequest) :
    Fallible (List ProviderCall) LlmError α := do
  let routed ← Fallible.ofExcept (router.requestFor request router.primary.capabilities)
  let answer ← Fallible.attempt (call ask router.primary .primary routed)
  router.afterPrimary ask request answer

end Routes

/-- Complete a request through the primary provider, then one fallback. -/
def complete (router : ProviderRouter) (request : LlmRequest) :
    Fallible (List ProviderCall) LlmError LlmResponse := do
  Fallible.ofExcept request.validate
  router.route (·.complete) request

/-- Stream through the primary provider, then one fallback. -/
def stream (router : ProviderRouter) (request : LlmRequest) :
    Fallible (List ProviderCall) LlmError (List StreamItem) := do
  Fallible.ofExcept request.validate
  Fallible.require (router.capabilities.streaming = true)
    (.provider "no streaming-capable LLM provider")
  router.route (·.stream) request

section Fallback

variable {α : Type} (router : ProviderRouter) (ask : RoutedProvider → LlmRequest → Except LlmError α)
  (request : LlmRequest)

/-- The primary is asked on an endpoint it has, and fails so that the fallback is asked. -/
def PrimaryFails : Prop :=
  ∃ routed e, router.requestFor request router.primary.capabilities = .ok routed ∧
    ask router.primary routed = .error e ∧ shouldFallback e = true

/-- **The fallback is used whenever it can help**: when the primary does not serve the request, by
its capabilities or by failing, and the fallback serves it, the outcome is the answer of the
fallback on an endpoint it has; in every other case the fallback is not asked. -/
def FallsBack (serves : LlmCapabilities → Bool) (fallback : RoutedProvider)
    (outcome : Except LlmError α × List ProviderCall) : Prop :=
  (((serves router.primary.capabilities = false ∨ router.PrimaryFails ask request) ∧
      serves fallback.capabilities = true) →
    ∃ endpoint, endpointAvailable fallback.capabilities endpoint = true ∧
      ProviderCall.fallback { request with endpoint := endpoint } ∈ outcome.2 ∧
      outcome.1 = ask fallback { request with endpoint := endpoint }) ∧
  (¬((serves router.primary.capabilities = false ∨ router.PrimaryFails ask request) ∧
      serves fallback.capabilities = true) →
    ∀ routed, ProviderCall.fallback routed ∉ outcome.2)

end Fallback

/-- A router reaches its fallback on a completion: the primary has an endpoint, or the fallback has
none either. -/
def Reaches (router : ProviderRouter) (fallback : RoutedProvider) : Prop :=
  fallback.capabilities.compatible = true → router.primary.capabilities.compatible = true

/-- A router reaches its fallback on a stream. A fallback that streams is reached from a primary
that has an endpoint and streams, or fails; one that does not stream is kept from the failures of
a primary that does. -/
def ReachesStream (router : ProviderRouter) (fallback : RoutedProvider) (request : LlmRequest) :
    Prop :=
  fallback.capabilities.compatible = true →
    if fallback.capabilities.streaming then
      router.primary.capabilities.compatible = true ∧
        (router.primary.capabilities.streaming = true ∨ router.PrimaryFails (·.stream) request)
    else ¬(router.primary.capabilities.streaming = true ∧ router.PrimaryFails (·.stream) request)

section Routing

variable {α : Type} {router : ProviderRouter} {fallback : RoutedProvider}
  {ask : RoutedProvider → LlmRequest → Except LlmError α} {request routed : LlmRequest}
  {c : LlmCapabilities} {e : LlmError}

/-- A provider that has an endpoint is asked on one of its endpoints. -/
theorem requestFor_of_compatible (router : ProviderRouter) (request : LlmRequest)
    (h : c.compatible = true) : ∃ endpoint, endpointAvailable c endpoint = true ∧
      router.requestFor request c = .ok { request with endpoint := endpoint } := by
  by_cases hpreferred : endpointAvailable c router.preferred = true
  · refine ⟨router.preferred, hpreferred, ?_⟩
    rw [requestFor, if_pos hpreferred, if_pos hpreferred]
  · have halternate : endpointAvailable c router.preferred.alternate = true := by
      rw [LlmCapabilities.compatible] at h
      cases hendpoint : router.preferred <;> rw [hendpoint] at hpreferred <;>
        simp_all [endpointAvailable, Endpoint.alternate]
    refine ⟨router.preferred.alternate, halternate, ?_⟩
    rw [requestFor, if_neg hpreferred, if_pos halternate]

theorem requestFor_of_incompatible (router : ProviderRouter) (request : LlmRequest)
    (h : c.compatible = false) :
    router.requestFor request c = .error (.provider "no compatible LLM endpoint") := by
  obtain ⟨hresponses, hchat⟩ := Bool.or_eq_false_iff.mp h
  have hnone : ∀ endpoint, ¬endpointAvailable c endpoint = true := by
    rintro (_ | _)
    · exact Bool.eq_false_iff.mp hresponses
    · exact Bool.eq_false_iff.mp hchat
  rw [requestFor, if_neg (hnone _)]

/-- A primary without an endpoint does not fail: it is not asked. -/
theorem PrimaryFails.compatible (h : router.PrimaryFails ask request) :
    router.primary.capabilities.compatible = true := by
  obtain ⟨routed, e, hrouted, -⟩ := h
  by_contra hnone
  rw [requestFor_of_incompatible router request (Bool.eq_false_iff.mpr hnone)] at hrouted
  cases hrouted

/-- The route of a primary that is asked. -/
theorem route_of_routed (hrouted : router.requestFor request router.primary.capabilities = .ok routed) :
    router.route ask request [] =
      router.afterPrimary ask request (ask router.primary routed) [.primary routed] :=
  ofExcept_bind_ok hrouted _ _

/-- **The route after a failure of the primary** goes to a fallback that has an endpoint. -/
theorem route_of_fails (hfallback : router.fallback = some fallback)
    (hfails : router.PrimaryFails ask request) (hable : fallback.capabilities.compatible = true) :
    ∃ routed endpoint, endpointAvailable fallback.capabilities endpoint = true ∧
      router.route ask request [] = (ask fallback { request with endpoint := endpoint },
        [.primary routed, .fallback { request with endpoint := endpoint }]) := by
  obtain ⟨routed, e, hrouted, hanswer, hfall⟩ := hfails
  obtain ⟨endpoint, hendpoint, hrequest⟩ := requestFor_of_compatible router request hable
  refine ⟨routed, endpoint, hendpoint, ?_⟩
  rw [route_of_routed hrouted, hanswer, afterPrimary, if_pos hfall, hfallback]
  exact ofExcept_bind_ok hrequest _ _

/-- **Every other route** leaves the fallback alone. -/
theorem route_leaves_fallback (hfallback : router.fallback = some fallback)
    (h : ¬(router.PrimaryFails ask request ∧ fallback.capabilities.compatible = true)) :
    ∀ routed, ProviderCall.fallback routed ∉ (router.route ask request []).2 := by
  cases hrouted : router.requestFor request router.primary.capabilities with
  | error e =>
    rw [route, hrouted]
    exact fun _ => List.not_mem_nil
  | ok routed =>
    have honly : (router.route ask request []).2 = [.primary routed] := by
      rw [route_of_routed hrouted]
      cases hanswer : ask router.primary routed with
      | ok answer => rfl
      | error e =>
        rw [afterPrimary]
        by_cases hfall : shouldFallback e = true
        · have hnone : fallback.capabilities.compatible = false :=
            Bool.eq_false_iff.mpr fun hable => h ⟨⟨routed, e, hrouted, hanswer, hfall⟩, hable⟩
          rw [if_pos hfall, hfallback]
          dsimp only
          rw [requestFor_of_incompatible router request hnone]
          rfl
        · rw [if_neg hfall]
          rfl
    rw [honly]
    simp

/-- An outcome in which the fallback is asked for one reason and answers is as it should be, when
that reason is the one for which the fallback can help. -/
theorem fallsBack_iff {serves : LlmCapabilities → Bool} (asked : Prop)
    {outcome : Except LlmError α × List ProviderCall}
    (hasked : asked → ∃ routed endpoint,
      endpointAvailable fallback.capabilities endpoint = true ∧
        outcome = (ask fallback { request with endpoint := endpoint },
          [.primary routed, .fallback { request with endpoint := endpoint }]))
    (hleft : ¬asked → ∀ routed, ProviderCall.fallback routed ∉ outcome.2) :
    router.FallsBack ask request serves fallback outcome ↔
      ((serves router.primary.capabilities = false ∨ router.PrimaryFails ask request) ∧
        serves fallback.capabilities = true ↔ asked) := by
  constructor
  · intro hfalls
    constructor
    · intro hhelps
      obtain ⟨endpoint, -, hmem, -⟩ := hfalls.1 hhelps
      by_contra hnot
      exact hleft hnot _ hmem
    · intro hreason
      obtain ⟨routed, endpoint, -, rfl⟩ := hasked hreason
      by_contra hnot
      exact hfalls.2 hnot { request with endpoint := endpoint } (by simp)
  · intro hiff
    constructor
    · intro hhelps
      obtain ⟨routed, endpoint, hendpoint, rfl⟩ := hasked (hiff.mp hhelps)
      exact ⟨endpoint, hendpoint, by simp, rfl⟩
    · exact fun hnot => hleft fun hreason => hnot (hiff.mpr hreason)

theorem complete_of_valid (hvalid : request.validate = .ok ()) :
    router.complete request [] = router.route (·.complete) request [] :=
  ofExcept_bind_ok hvalid _ _

theorem stream_of_valid (hvalid : request.validate = .ok ()) : router.stream request [] =
    if router.capabilities.streaming = true then router.route (·.stream) request []
    else (.error (.provider "no streaming-capable LLM provider"), []) := by
  rw [stream, ofExcept_bind_ok hvalid, require_bind]

theorem streaming_of_fallback (hfallback : router.fallback = some fallback) :
    router.capabilities.streaming =
      (router.primary.capabilities.streaming || fallback.capabilities.streaming) := by
  rw [ProviderRouter.capabilities, hfallback]
  rfl

/-- **A completion falls back** exactly when the primary has an endpoint, or the fallback has
none. -/
theorem complete_fallsBack_iff (hfallback : router.fallback = some fallback)
    (hvalid : request.validate = .ok ()) :
    router.FallsBack (·.complete) request (·.compatible) fallback (router.complete request []) ↔
      router.Reaches fallback := by
  rw [complete_of_valid hvalid, fallsBack_iff
    (router.PrimaryFails (·.complete) request ∧ fallback.capabilities.compatible = true)
    (fun h => route_of_fails hfallback h.1 h.2) (route_leaves_fallback hfallback), Reaches]
  constructor
  · intro hiff hable
    by_contra hnone
    exact hnone (hiff.mp ⟨.inl (Bool.eq_false_iff.mpr hnone), hable⟩).1.compatible
  · intro hreaches
    refine ⟨fun ⟨hout, hable⟩ => ⟨?_, hable⟩, fun h => ⟨.inr h.1, h.2⟩⟩
    exact hout.resolve_left fun hnone => Bool.eq_false_iff.mp hnone (hreaches hable)

/-- **A stream falls back** exactly as `ReachesStream` says. -/
theorem stream_fallsBack_iff (hfallback : router.fallback = some fallback)
    (hvalid : request.validate = .ok ()) :
    router.FallsBack (·.stream) request (fun c => c.compatible && c.streaming) fallback
        (router.stream request []) ↔
      router.ReachesStream fallback request := by
  rw [stream_of_valid hvalid, fallsBack_iff
    (router.capabilities.streaming = true ∧
      router.PrimaryFails (·.stream) request ∧ fallback.capabilities.compatible = true)]
  · rw [streaming_of_fallback hfallback, ReachesStream]
    have hcompatible : router.PrimaryFails (·.stream) request →
        router.primary.capabilities.compatible = true := fun h => h.compatible
    cases fallback.capabilities.compatible
    · simp
    · cases fallback.capabilities.streaming
      · simp
      · cases router.primary.capabilities.streaming
        · simp [and_iff_right_of_imp hcompatible]
        · have hfails : (router.primary.capabilities.compatible = false →
              router.PrimaryFails (·.stream) request) ↔
              router.primary.capabilities.compatible = true := by
            refine ⟨fun h => ?_, fun h hnone => absurd h (Bool.eq_false_iff.mp hnone)⟩
            by_contra hnone
            exact hnone (hcompatible (h (Bool.eq_false_iff.mpr hnone)))
          simpa using hfails
  · rintro ⟨hstreaming, hfails, hable⟩
    rw [if_pos hstreaming]
    exact route_of_fails hfallback hfails hable
  · intro hnot
    split
    · next hstreaming =>
      exact route_leaves_fallback hfallback fun h => hnot ⟨hstreaming, h⟩
    · exact fun _ => List.not_mem_nil

end Routing

/-- **When the fallback is used whenever it can help**: on the completions of a router whose primary
has an endpoint or whose fallback has none, and on the streams of a router that reaches its
fallback from what the primary declares and answers. -/
theorem falls_back_iff (router : ProviderRouter) (fallback : RoutedProvider) (request : LlmRequest)
    (hfallback : router.fallback = some fallback) (hvalid : request.validate = .ok ()) :
    (router.FallsBack (·.complete) request (·.compatible) fallback (router.complete request []) ↔
        router.Reaches fallback) ∧
      (router.FallsBack (·.stream) request (fun c => c.compatible && c.streaming) fallback
          (router.stream request []) ↔
        router.ReachesStream fallback request) :=
  ⟨complete_fallsBack_iff hfallback hvalid, stream_fallsBack_iff hfallback hvalid⟩

namespace Sample

/-- A provider that answers every request. -/
def answering (capabilities : LlmCapabilities) : RoutedProvider :=
  { complete := fun r => .ok ⟨r.traceId, "yes", "stop"⟩
    stream := fun _ => .ok [.done "stop"]
    capabilities := capabilities }

/-- A provider whose requests time out. -/
def timingOut (capabilities : LlmCapabilities) : RoutedProvider :=
  { complete := fun _ => .error .timeout
    stream := fun _ => .error .timeout
    capabilities := capabilities }

def request : LlmRequest := ⟨"t", "v1", "m", "review", "c", "input", 8, .responses⟩

/-- A primary without endpoints and a fallback with both. -/
def router : ProviderRouter :=
  ⟨answering ⟨false, false, false, false, false⟩, some (answering ⟨true, true, true, false, false⟩),
    .responses⟩

end Sample

/-- A primary that times out and a fallback with the other endpoint. -/
theorem falls_back_timeout :
    let router : ProviderRouter := ⟨Sample.timingOut ⟨true, false, true, false, false⟩,
      some (Sample.answering ⟨false, true, true, false, false⟩), .responses⟩
    (router.FallsBack (·.complete) Sample.request (·.compatible)
          (Sample.answering ⟨false, true, true, false, false⟩) (router.complete Sample.request []) ↔
        router.Reaches (Sample.answering ⟨false, true, true, false, false⟩)) ∧
      (router.FallsBack (·.stream) Sample.request (fun c => c.compatible && c.streaming)
          (Sample.answering ⟨false, true, true, false, false⟩) (router.stream Sample.request []) ↔
        router.ReachesStream (Sample.answering ⟨false, true, true, false, false⟩) Sample.request) :=
  falls_back_iff _ _ _ rfl (by decide)

/-- A router whose primary has no endpoint answers with an error, although its fallback would
answer; the fallback is not asked. -/
theorem fallback_not_reached :
    Sample.request.validate.isOk = true ∧
      (Sample.router.complete Sample.request []).1.toOption = none ∧
      (Sample.router.complete Sample.request []).2 = [] ∧
      ¬Sample.router.FallsBack (·.complete) Sample.request (·.compatible)
        (Sample.answering ⟨true, true, true, false, false⟩)
        (Sample.router.complete Sample.request []) := by
  have hcalls : (Sample.router.complete Sample.request []).2 = [] := by decide
  refine ⟨by decide, by decide, hcalls, fun h => ?_⟩
  obtain ⟨endpoint, -, hmem, -⟩ := h.1 ⟨.inl rfl, rfl⟩
  rw [hcalls] at hmem
  exact List.not_mem_nil hmem

end ProviderRouter

end InsiderTrader
