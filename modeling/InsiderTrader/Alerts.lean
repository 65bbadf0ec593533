import InsiderTrader.Resolution
import Std.Data.TreeSet

/-!
# Alert routing

The bounded, deduplicated router of operator alerts. An alert is routed on a
channel; a delivery stays pending until it is acknowledged.

## Main definitions

- `Alert`, `Channel` — what is routed, and where to
- `AlertRouter.route` — validation, cooldown and capacity
- `AlertRouter.SamePending` — the same pending deliveries
-/

namespace InsiderTrader

/-- Operator-visible severity. -/
inductive Severity where
  | info
  | warning
  | critical
  deriving DecidableEq

/-- Delivery channel; webhook addresses are accepted through an allowlist only. -/
inductive Channel where
  | inApp
  | native
  | sound
  | webhook (url : String)
  deriving DecidableEq

/-- A channel that leaves the program. -/
def Channel.external : Channel → Bool
  | inApp => false
  | native | sound | webhook _ => true

/-- Position of a channel in the channel order. -/
def Channel.rank : Channel → ℕ
  | inApp => 0
  | native => 1
  | sound => 2
  | webhook _ => 3

/-- The address of a webhook. -/
def Channel.url : Channel → String
  | webhook url => url
  | _ => ""

/-- An alert event of a subsystem. -/
structure Alert where
  alertId : String
  dedupeKey : String
  source : String
  occurredMs : Int
  severity : Severity
  message : String
  sensitive : Bool
  deriving DecidableEq

/-- Alert routing failure. -/
inductive AlertError where
  | invalidAlert
  | futureTimestamp
  | sensitiveExternal
  | webhookNotAllowed
  | capacity
  deriving DecidableEq

/-- Outcome of one route attempt. -/
inductive RouteOutcome where
  | queued
  | suppressed
  deriving DecidableEq

/-- Deliveries are ordered by text, then by channel. -/
def deliveryOrder : String × Channel → String × Channel → Ordering :=
  compareLex (compareOn (·.1)) (compareLex (compareOn (·.2.rank)) (compareOn (·.2.url)))

instance : Std.TransCmp deliveryOrder := by
  unfold deliveryOrder
  infer_instance

/-- The router; `lastRouted` is by dedupe key, `pending` by alert. -/
structure AlertRouter where
  cooldownMs : Int
  maxPending : ℕ
  allowedWebhooks : Std.TreeSet String
  lastRouted : Std.TreeMap (String × Channel) Int deliveryOrder
  pending : Std.TreeMap (String × Channel) (Alert × Channel) deliveryOrder
  acknowledged : Std.TreeSet String

namespace AlertRouter

/-- A router without alerts; its bounds must be sensible. -/
def new (cooldownMs : Int) (maxPending : ℕ) : Option AlertRouter :=
  if 0 ≤ cooldownMs ∧ 0 < maxPending then some ⟨cooldownMs, maxPending, ∅, ∅, ∅, ∅⟩ else none

/-- The same condition was routed on the channel less than the cooldown ago. -/
def cooling (r : AlertRouter) (dedupeKey : String) (channel : Channel) (nowMs : Int) : Bool :=
  (r.lastRouted[(dedupeKey, channel)]?).any fun last => saturatingSub nowMs last < r.cooldownMs

/-- A channel the allowlist lets pass. -/
def permits (r : AlertRouter) : Channel → Bool
  | .webhook url => r.allowedWebhooks.contains url
  | _ => true

/-- Queue a delivery. -/
def queue (alert : Alert) (channel : Channel) (nowMs : Int) (r : AlertRouter) : AlertRouter :=
  { r with
    lastRouted := r.lastRouted.insert (alert.dedupeKey, channel) nowMs
    pending := r.pending.insert (alert.alertId, channel) (alert, channel) }

/-- Route one alert on a channel. -/
def route (alert : Alert) (channel : Channel) (nowMs : Int) :
    Fallible AlertRouter AlertError RouteOutcome := do
  let r ← Fallible.reads id
  Fallible.require
    (¬[alert.alertId, alert.dedupeKey, alert.source, alert.message].any Text.isBlank) .invalidAlert
  Fallible.require (alert.occurredMs ≤ nowMs) .futureTimestamp
  Fallible.require (¬(alert.sensitive ∧ channel.external)) .sensitiveExternal
  Fallible.require (r.permits channel) .webhookNotAllowed
  if r.cooling alert.dedupeKey channel nowMs then pure .suppressed
  else
    Fallible.require (r.pending.size < r.maxPending) .capacity
    Fallible.modify (queue alert channel nowMs)
    pure .queued

/-- The same deliveries are pending. -/
def SamePending (r r' : AlertRouter) : Prop :=
  ∀ key : String × Channel, r'.pending[key]? = r.pending[key]?

theorem samePending_refl (r : AlertRouter) : r.SamePending r := fun _ => rfl

/-- A delivery is queued without a change only when it is already pending as it is. -/
theorem queue_samePending_iff (alert : Alert) (channel : Channel) (nowMs : Int) (r : AlertRouter) :
    r.SamePending (r.queue alert channel nowMs) ↔
      r.pending[(alert.alertId, channel)]? = some (alert, channel) := by
  constructor
  · intro hsame
    rw [← hsame (alert.alertId, channel), queue, Std.TreeMap.getElem?_insert_self]
  · intro hpending key
    rw [queue, Std.TreeMap.getElem?_insert]
    split
    · next heq => rw [← hpending, Std.TreeMap.getElem?_congr heq]
    · rfl

/-- **A sound in-app alert** is suppressed while its condition is cooling down, and else queued
where there is room. -/
theorem route_of_valid {alert : Alert} {nowMs : Int} (r : AlertRouter)
    (hvalid : [alert.alertId, alert.dedupeKey, alert.source, alert.message].any Text.isBlank = false)
    (htime : alert.occurredMs ≤ nowMs) :
    route alert .inApp nowMs r =
      if r.cooling alert.dedupeKey .inApp nowMs then (.ok .suppressed, r)
      else if r.pending.size < r.maxPending then (.ok .queued, r.queue alert .inApp nowMs)
      else (.error .capacity, r) := by
  have hinternal : ¬(alert.sensitive = true ∧ Channel.inApp.external = true) := by
    simp [Channel.external]
  have hpermits : (id r).permits .inApp = true := rfl
  rw [route, Fallible.reads_bind, Fallible.require_bind, if_pos (by simp [hvalid]),
    Fallible.require_bind, if_pos htime, Fallible.require_bind, if_pos hinternal,
    Fallible.require_bind, if_pos hpermits]
  dsimp only [id]
  split
  · rfl
  · rw [Fallible.require_bind]
    split <;> rfl

/-- A sound in-app alert is queued unless its condition is cooling down or the router is full. -/
theorem route_inApp {alert : Alert} {nowMs : Int} (r : AlertRouter)
    (hvalid : [alert.alertId, alert.dedupeKey, alert.source, alert.message].any Text.isBlank = false)
    (htime : alert.occurredMs ≤ nowMs) :
    (route alert .inApp nowMs r).2 =
      if r.cooling alert.dedupeKey .inApp nowMs = false ∧ r.pending.size < r.maxPending then
        r.queue alert .inApp nowMs
      else r := by
  rw [route_of_valid r hvalid htime]
  by_cases hcool : r.cooling alert.dedupeKey .inApp nowMs = true
  · rw [if_pos hcool, if_neg (by simp [hcool])]
  · rw [if_neg hcool]
    by_cases hroom : r.pending.size < r.maxPending
    · rw [if_pos hroom, if_pos ⟨Bool.eq_false_iff.mpr hcool, hroom⟩]
    · rw [if_neg hroom, if_neg fun h => hroom h.2]

end AlertRouter

end InsiderTrader
