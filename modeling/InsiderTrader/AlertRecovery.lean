import Mathlib.Data.List.Perm.Subperm
import InsiderTrader.Alerts
import InsiderTrader.Host
import InsiderTrader.Library.Runs

/-!
# Alerts across a restart

The host journals every alert it raises and every acknowledgement, and routes
alerts by its own clock. A restart routes the journaled alerts again, all at
the greatest time there is.

## Main definitions

- `AlertHost` — the alerts of a host and what it journaled of them
- `AlertHost.restore` — the router that a restart builds from the journal
- `AlertSession` — a host over restarts, with the last delivery of each condition
- `AlertSession.Repeats` — an alert is due again

## Main results

- `AlertSession.sound_step` — what one step keeps
- `AlertSession.alerts_recovered` — the runs that a restart does not change
-/

namespace InsiderTrader

open Fallible

/-- The longest webhook address. -/
def maxWebhookUrlBytes : ℕ := 2048

/-- An address of the web that names an authority and no user. -/
def isAllowedUrl (url : String) : Bool :=
  if maxWebhookUrlBytes < url.utf8ByteSize then false
  else
    match Text.splitOnce "://".toList url.toList with
    | none => false
    | some (scheme, remainder) =>
      let authority := remainder.takeWhile fun c => ¬(c = '/' ∨ c = '?' ∨ c = '#')
      scheme = "https".toList ∧ ¬remainder.all Text.isWhiteSpace ∧ authority ≠ []
        ∧ ¬remainder.any Text.isWhiteSpace ∧ '@' ∉ remainder

namespace AlertRouter

/-- Allow a webhook address. -/
def allowWebhook (url : String) (r : AlertRouter) : Option AlertRouter :=
  if isAllowedUrl url then some { r with allowedWebhooks := r.allowedWebhooks.insert url } else none

/-- Acknowledge the in-app delivery of an alert; whether there was one. -/
def acknowledge (alertId : String) (r : AlertRouter) : Bool × AlertRouter :=
  if r.pending.contains (alertId, .inApp) then
    (true, { r with
      pending := r.pending.erase (alertId, .inApp)
      acknowledged := r.acknowledged.insert alertId })
  else (false, r)

/-- Acknowledge the delivery of an alert on one channel; whether there was one. -/
def acknowledgeChannel (alertId : String) (channel : Channel) (r : AlertRouter) :
    Bool × AlertRouter :=
  if r.pending.contains (alertId, channel) then
    let pending := r.pending.erase (alertId, channel)
    (true, { r with
      pending := pending
      acknowledged :=
        if pending.keys.any (·.1 = alertId) then r.acknowledged
        else r.acknowledged.insert alertId })
  else (false, r)

end AlertRouter

/-- Settings of the alert routing that the host accepts. -/
structure AlertSettings where
  cooldownMs : Int
  maxPending : ℕ
  webhookUrl : Option String
  cooldown_nonneg : 0 ≤ cooldownMs
  pending_pos : 0 < maxPending
  webhook_allowed : ∀ url, webhookUrl = some url → isAllowedUrl url

/-- What is journaled of alerts. -/
inductive AlertEvent where
  | raised (alert : Alert)
  | acknowledged (alertId : String)
  deriving DecidableEq

/-- The alerts of a host; its clock starts when it is opened. -/
structure AlertHost where
  settings : AlertSettings
  startedNs : MonoTime
  journal : List AlertEvent
  router : AlertRouter

/-- The name of a risk state in an alert. -/
def RiskState.alertName : RiskState → String
  | .running => "RUNNING"
  | .reduceOnly => "REDUCE_ONLY"
  | .cancelOnly => "CANCEL_ONLY"
  | .halted => "HALTED"

/-- The alert about a new risk state, with the working orders that could not be cancelled. -/
def riskAlert (next : RiskState) (failures : ℕ) (occurredMs : Int) : Alert where
  alertId := "risk-state-" ++ toString occurredMs ++ "-" ++ next.alertName
  dedupeKey := "risk-state:" ++ next.alertName
  source := "risk-engine"
  occurredMs := occurredMs
  severity := if next = .halted then .critical else .warning
  message :=
    if failures = 0 then "Risk state changed to " ++ next.alertName
    else "Risk state changed to " ++ next.alertName ++ "; " ++ toString failures
      ++ " working order cancellations failed"
  sensitive := false

namespace AlertHost

/-- Route a journaled event again. -/
def restoreEvent (r : AlertRouter) : AlertEvent → AlertRouter
  | .raised alert => (AlertRouter.route alert .inApp (2 ^ 63 - 1) r).2
  | .acknowledged alertId => (r.acknowledge alertId).2

/-- The router of a host that is opened on a journal. -/
def restore (settings : AlertSettings) (journal : List AlertEvent) : Option AlertRouter := do
  let fresh ← AlertRouter.new settings.cooldownMs settings.maxPending
  let router ← settings.webhookUrl.elim (some fresh) fresh.allowWebhook
  some (journal.foldl restoreEvent router)

/-- The alerts of a host opened at an instant. -/
def openAt (settings : AlertSettings) (journal : List AlertEvent) (instantNs : MonoTime) :
    Option AlertHost :=
  (restore settings journal).map fun router => ⟨settings, instantNs, journal, router⟩

/-- The clock of the host at an instant, in milliseconds. -/
def occurredMs (h : AlertHost) (instantNs : MonoTime) : Int :=
  min (min (instantNs - h.startedNs) u64Max / 1000000 : ℕ) (2 ^ 63 - 1)

/-- Route an alert in the program, and to the webhook when there is one. -/
def publish (alert : Alert) (occurredMs : Int) (h : AlertHost) : AlertHost :=
  let inApp := (AlertRouter.route alert .inApp occurredMs h.router).2
  { h with
    journal := h.journal ++ [.raised alert]
    router := h.settings.webhookUrl.elim inApp fun url =>
      (AlertRouter.route alert (.webhook url) occurredMs inApp).2 }

/-- The alert of a transition of the risk state, at an instant. -/
def transitionRiskState (next : RiskState) (failures : ℕ) (instantNs : MonoTime)
    (h : AlertHost) : AlertHost :=
  if next = .running then h
  else h.publish (riskAlert next failures (h.occurredMs instantNs)) (h.occurredMs instantNs)

/-- Acknowledge an in-app alert; an acknowledgement is journaled before it is published. -/
def acknowledgeAlert (alertId : String) (h : AlertHost) : Except EngineError Bool × AlertHost :=
  if Text.isBlank alertId ∨ 256 < alertId.utf8ByteSize then (.error .invalidRequest, h)
  else
    let candidate := h.router.acknowledge alertId
    (.ok candidate.1, if candidate.1 then
      { h with journal := h.journal ++ [.acknowledged alertId], router := candidate.2 } else h)

/-- Acknowledge a delivery to the webhook; nothing is journaled. -/
def acknowledgeWebhookAlert (alertId : String) (h : AlertHost) :
    Except EngineError Bool × AlertHost :=
  if Text.isBlank alertId ∨ 256 < alertId.utf8ByteSize then (.error .invalidRequest, h)
  else
    match h.settings.webhookUrl with
    | none => (.ok false, h)
    | some url =>
      let acknowledged := h.router.acknowledgeChannel alertId (.webhook url)
      (.ok acknowledged.1, { h with router := acknowledged.2 })

end AlertHost

-- Runs

/-- The last delivery of a condition in the program: the process, its clock and the instant. -/
structure AlertDelivery where
  process : ℕ
  occurredMs : Int
  instantNs : MonoTime

/-- A host over restarts: the process it runs in, the present instant, and the last delivery by
dedupe key. -/
structure AlertSession where
  host : AlertHost
  process : ℕ
  instantNs : MonoTime
  delivered : Std.TreeMap String AlertDelivery

/-- What happens to the alerts of a host, some nanoseconds after the step before. -/
inductive AlertStep where
  | transition (next : RiskState) (failures elapsedNs : ℕ)
  | acknowledge (alertId : String)
  | acknowledgeWebhook (alertId : String)
  | restart (elapsedNs : ℕ)

namespace AlertSession

/-- A session before its first step. -/
def start (settings : AlertSettings) (router : AlertRouter) : AlertSession :=
  ⟨⟨settings, 0, [], router⟩, 0, 0, ∅⟩

/-- Let time pass. -/
def elapse (elapsedNs : ℕ) (s : AlertSession) : AlertSession :=
  { s with instantNs := s.instantNs + elapsedNs }

/-- The clock of the host. -/
def occurredMs (s : AlertSession) : Int := s.host.occurredMs s.instantNs

/-- The outcome of an alert in the program. -/
def routed (alert : Alert) (s : AlertSession) : Except AlertError RouteOutcome :=
  (AlertRouter.route alert .inApp s.occurredMs s.host.router).1

/-- A transition of the risk state, now. -/
def transitionRiskState (next : RiskState) (failures : ℕ) (s : AlertSession) : AlertSession :=
  let alert := riskAlert next failures s.occurredMs
  { s with
    host := s.host.transitionRiskState next failures s.instantNs
    delivered :=
      if next ≠ .running ∧ s.routed alert = .ok .queued then
        s.delivered.insert alert.dedupeKey ⟨s.process, s.occurredMs, s.instantNs⟩
      else s.delivered }

/-- The process ends, and another one opens the journal. -/
def restart (s : AlertSession) : AlertSession :=
  match AlertHost.openAt s.host.settings s.host.journal s.instantNs with
  | none => s
  | some host => { s with host := host, process := s.process + 1 }

/-- One step of a session. -/
def step : AlertStep → AlertSession → AlertSession
  | .transition next failures elapsedNs, s => (s.elapse elapsedNs).transitionRiskState next failures
  | .acknowledge alertId, s => { s with host := (s.host.acknowledgeAlert alertId).2 }
  | .acknowledgeWebhook alertId, s => { s with host := (s.host.acknowledgeWebhookAlert alertId).2 }
  | .restart elapsedNs, s => (s.elapse elapsedNs).restart

/-- The cooldown has passed since the last delivery of a condition: by the clock of the process
that delivered it, or by the instants. -/
def Due (s : AlertSession) (dedupeKey : String) : Prop :=
  ∃ d ∈ s.delivered[dedupeKey]?,
    if d.process = s.process then d.occurredMs + s.host.settings.cooldownMs ≤ s.occurredMs
    else (d.instantNs : Int) + s.host.settings.cooldownMs * 1000000 ≤ s.instantNs

/-- A restart finds the in-app alerts that are pending. -/
def Recovers (s : AlertSession) : Prop :=
  ∃ router, AlertHost.restore s.host.settings s.host.journal = some router ∧
    ∀ id, router.pending.contains (id, .inApp) = s.host.router.pending.contains (id, .inApp)

/-- An alert that is due is queued. -/
def Answers : AlertStep → AlertSession → Prop
  | .transition next failures elapsedNs, s =>
    let s := s.elapse elapsedNs
    let alert := riskAlert next failures s.occurredMs
    next ≠ .running → s.Due alert.dedupeKey → s.routed alert = .ok .queued
  | _, _ => True

/-- An alert is due again. Without a cooldown this does no harm in the process that delivered
it. -/
def Repeats : AlertStep → AlertSession → Prop
  | .transition next failures elapsedNs, s =>
    let s := s.elapse elapsedNs
    let key := (riskAlert next failures s.occurredMs).dedupeKey
    next ≠ .running ∧ s.Due key ∧
      (0 < s.host.settings.cooldownMs ∨ ∀ d ∈ s.delivered[key]?, d.process ≠ s.process)
  | _, _ => False

instance (s : AlertSession) (dedupeKey : String) : Decidable (s.Due dedupeKey) :=
  inferInstanceAs (Decidable (∃ d ∈ s.delivered[dedupeKey]?, _))

instance : (a : AlertStep) → (s : AlertSession) → Decidable (Repeats a s)
  | .transition _ _ _, _ => inferInstanceAs (Decidable (_ ∧ _))
  | .acknowledge _, _ | .acknowledgeWebhook _, _ | .restart _, _ =>
    inferInstanceAs (Decidable False)

end AlertSession

-- The router

/-- A channel is known by its position and its address. -/
theorem Channel.eq_of_rank_url {channel channel' : Channel} (hrank : channel.rank = channel'.rank)
    (hurl : channel.url = channel'.url) : channel = channel' := by
  cases channel <;> cases channel' <;> first | rfl | exact congrArg _ hurl | cases hrank

instance : Std.LawfulEqCmp deliveryOrder where
  eq_of_compare h := by
    obtain ⟨hid, hchannel⟩ := compareLex_eq_eq.mp h
    obtain ⟨hrank, hurl⟩ := compareLex_eq_eq.mp hchannel
    exact Prod.ext (Std.LawfulEqCmp.compare_eq_iff_eq.mp hid) (Channel.eq_of_rank_url
      (Std.LawfulEqCmp.compare_eq_iff_eq.mp hrank) (Std.LawfulEqCmp.compare_eq_iff_eq.mp hurl))

namespace AlertRouter

variable {alert : Alert} {channel : Channel} {nowMs : Int} {r : AlertRouter}

/-- The in-app delivery of an alert. -/
def inApp (r : AlertRouter) (alertId : String) : Option (Alert × Channel) :=
  r.pending[(alertId, Channel.inApp)]?

/-- When a condition was last routed in the program. -/
def lastInApp (r : AlertRouter) (dedupeKey : String) : Option Int :=
  r.lastRouted[(dedupeKey, Channel.inApp)]?

/-- Routing queues the delivery, or does nothing. -/
theorem route_cases (alert : Alert) (channel : Channel) (nowMs : Int) (r : AlertRouter) :
    (route alert channel nowMs r).2 = r ∨
      route alert channel nowMs r = (.ok .queued, r.queue alert channel nowMs) := by
  rw [route, reads_bind, id]
  iterate 4
    rw [require_bind]
    split
    case isFalse => exact .inl rfl
  split
  · exact .inl rfl
  · rw [require_bind]
    split
    · exact .inr rfl
    · exact .inl rfl

/-- What is known of in-app deliveries does not change when another channel is routed. -/
theorem route_other (hchannel : channel ≠ .inApp) (alert : Alert) (nowMs : Int)
    (r : AlertRouter) : let r' := (route alert channel nowMs r).2
    r'.cooldownMs = r.cooldownMs ∧ r'.maxPending = r.maxPending ∧ r'.inApp = r.inApp ∧
      r'.lastInApp = r.lastInApp := by
  have hne : ∀ text id : String, deliveryOrder (text, channel) (id, .inApp) ≠ .eq := by
    intro text id h
    exact hchannel (congrArg Prod.snd (Std.LawfulEqCmp.compare_eq_iff_eq.mp h))
  rcases route_cases alert channel nowMs r with hsame | hqueued
  · rw [hsame]
    exact ⟨rfl, rfl, rfl, rfl⟩
  · rw [hqueued]
    refine ⟨rfl, rfl, funext fun id => ?_, funext fun key => ?_⟩
    · rw [inApp, queue, Std.TreeMap.getElem?_insert, if_neg (hne _ _)]
      rfl
    · rw [lastInApp, queue, Std.TreeMap.getElem?_insert, if_neg (hne _ _)]
      rfl

theorem inApp_queue (alert : Alert) (nowMs : Int) (r : AlertRouter) (id : String) :
    (r.queue alert .inApp nowMs).inApp id =
      if alert.alertId = id then some (alert, .inApp) else r.inApp id := by
  rw [inApp, queue, Std.TreeMap.getElem?_insert]
  simp only [Std.LawfulEqCmp.compare_eq_iff_eq, Prod.mk.injEq, and_true]
  rfl

theorem lastInApp_queue (alert : Alert) (nowMs : Int) (r : AlertRouter) (key : String) :
    (r.queue alert .inApp nowMs).lastInApp key =
      if alert.dedupeKey = key then some nowMs else r.lastInApp key := by
  rw [lastInApp, queue, Std.TreeMap.getElem?_insert]
  simp only [Std.LawfulEqCmp.compare_eq_iff_eq, Prod.mk.injEq, and_true]
  rfl

theorem contains_inApp (r : AlertRouter) (alertId : String) :
    r.pending.contains (alertId, .inApp) = (r.inApp alertId).isSome :=
  Std.TreeMap.contains_eq_isSome_getElem?

theorem inApp_acknowledge (alertId id : String) (r : AlertRouter) :
    (r.acknowledge alertId).2.inApp id = if alertId = id then none else r.inApp id := by
  unfold acknowledge
  split
  · rw [inApp, Std.TreeMap.getElem?_erase]
    simp only [Std.LawfulEqCmp.compare_eq_iff_eq, Prod.mk.injEq, and_true]
    rfl
  · next hnone =>
    split
    · next heq =>
      rw [contains_inApp, heq, Option.not_isSome_iff_eq_none] at hnone
      exact hnone
    · rfl

theorem acknowledge_kept (alertId : String) (r : AlertRouter) :
    let r' := (r.acknowledge alertId).2
    r'.cooldownMs = r.cooldownMs ∧ r'.maxPending = r.maxPending ∧ r'.lastInApp = r.lastInApp ∧
      ∀ id channel, r'.pending.contains (id, channel) → r.pending.contains (id, channel) := by
  unfold acknowledge
  split
  · refine ⟨rfl, rfl, rfl, fun id channel hcontains => ?_⟩
    rw [Std.TreeMap.contains_erase, Bool.and_eq_true] at hcontains
    exact hcontains.2
  · exact ⟨rfl, rfl, rfl, fun id channel hcontains => hcontains⟩

/-- What is known of in-app deliveries does not change when another channel is acknowledged. -/
theorem acknowledgeChannel_other (hchannel : channel ≠ .inApp) (alertId : String)
    (r : AlertRouter) : let r' := (r.acknowledgeChannel alertId channel).2
    r'.cooldownMs = r.cooldownMs ∧ r'.maxPending = r.maxPending ∧ r'.inApp = r.inApp ∧
      r'.lastInApp = r.lastInApp := by
  unfold acknowledgeChannel
  split
  · refine ⟨rfl, rfl, funext fun id => ?_, rfl⟩
    rw [inApp, Std.TreeMap.getElem?_erase, if_neg]
    · rfl
    · exact fun h => hchannel (congrArg Prod.snd (Std.LawfulEqCmp.compare_eq_iff_eq.mp h))
  · exact ⟨rfl, rfl, rfl, rfl⟩

/-- A router whose deliveries are all in the program holds no more than another one that has
them too. -/
theorem size_le {r' : AlertRouter} (hown : ∀ id channel, r'.pending.contains (id, channel) →
    channel = .inApp) (hsame : r'.inApp = r.inApp) : r'.pending.size ≤ r.pending.size := by
  rw [← Std.TreeMap.length_keys, ← Std.TreeMap.length_keys]
  refine (List.subperm_of_subset Std.TreeMap.nodup_keys ?_).length_le
  rintro ⟨id, channel⟩ hmem
  have hcontains := Std.TreeMap.contains_iff_mem.mpr (Std.TreeMap.mem_keys.mp hmem)
  obtain rfl := hown id channel hcontains
  refine Std.TreeMap.mem_keys.mpr (Std.TreeMap.contains_iff_mem.mp ?_)
  rw [contains_inApp, ← hsame, ← contains_inApp, hcontains]

end AlertRouter

theorem riskAlert_valid (next : RiskState) (failures : ℕ) (occurredMs : Int) :
    let alert := riskAlert next failures occurredMs
    [alert.alertId, alert.dedupeKey, alert.source, alert.message].any Text.isBlank = false := by
  have hstart : Text.isBlank "risk-state-" = false ∧ Text.isBlank "risk-state:" = false ∧
      Text.isBlank "risk-engine" = false ∧ Text.isBlank "Risk state changed to " = false := by
    decide
  obtain ⟨hid, hkey, hsource, hmessage⟩ := hstart
  by_cases hfailures : failures = 0
  · simp [riskAlert, Text.isBlank_append, hfailures, hid, hkey, hsource, hmessage]
  · simp [riskAlert, Text.isBlank_append, hfailures, hid, hkey, hsource, hmessage]

namespace AlertHost

variable {settings : AlertSettings} {journal : List AlertEvent} {restored : AlertRouter}
  {h : AlertHost}

theorem restore_append (event : AlertEvent) (hrestore : restore settings journal = some restored) :
    restore settings (journal ++ [event]) = some (restoreEvent restored event) := by
  obtain ⟨fresh, hfresh, hrouter⟩ := Option.bind_eq_some_iff.mp hrestore
  obtain ⟨router, hallowed, hfold⟩ := Option.bind_eq_some_iff.mp hrouter
  cases hfold
  refine Option.bind_eq_some_iff.mpr ⟨fresh, hfresh, Option.bind_eq_some_iff.mpr
    ⟨router, hallowed, ?_⟩⟩
  rw [List.foldl_append]
  rfl

/-- The greatest time is after every time of the clock. -/
theorem occurredMs_bounds (h : AlertHost) (instantNs : MonoTime) :
    0 ≤ h.occurredMs instantNs ∧ h.occurredMs instantNs < 2 ^ 63 - 1 := by
  unfold occurredMs u64Max
  omega

theorem occurredMs_mono (h : AlertHost) {instantNs instantNs' : MonoTime}
    (hle : instantNs ≤ instantNs') : h.occurredMs instantNs ≤ h.occurredMs instantNs' := by
  have hms : min (instantNs - h.startedNs) u64Max / 1000000 ≤
      min (instantNs' - h.startedNs) u64Max / 1000000 :=
    Nat.div_le_div_right (min_le_min_right _ (Nat.sub_le_sub_right hle _))
  exact min_le_min_right _ (Int.ofNat_le.mpr hms)

end AlertHost

namespace AlertSession

variable {s : AlertSession} {restored : AlertRouter}

/-- A router restored from the journal mirrors the one of the host: it has the same in-app
deliveries, and knows the same conditions, at the greatest time. -/
structure Mirrors (s : AlertSession) (restored : AlertRouter) : Prop where
  cooldown : restored.cooldownMs = s.host.settings.cooldownMs
  cooldown_live : s.host.router.cooldownMs = s.host.settings.cooldownMs
  room : restored.maxPending = s.host.settings.maxPending
  room_live : s.host.router.maxPending = s.host.settings.maxPending
  inApp : restored.inApp = s.host.router.inApp
  own : ∀ id channel, restored.pending.contains (id, channel) → channel = .inApp
  last : ∀ key, restored.lastInApp key = (s.delivered[key]?).map fun _ => 2 ^ 63 - 1
  last_live : ∀ key, s.host.router.lastInApp key = (s.delivered[key]?).map fun d =>
    if d.process = s.process then d.occurredMs else 2 ^ 63 - 1

/-- **The invariant**: a restart would build a mirror, and the deliveries are past. -/
structure Sound (s : AlertSession) : Prop where
  mirrored : ∃ restored, AlertHost.restore s.host.settings s.host.journal = some restored ∧
    s.Mirrors restored
  past : ∀ (key : String) (d : AlertDelivery), s.delivered[key]? = some d →
    d.process ≤ s.process ∧ d.instantNs ≤ s.instantNs ∧
    (d.process = s.process → 0 ≤ d.occurredMs ∧ d.occurredMs ≤ s.occurredMs)

theorem Sound.recovers (h : s.Sound) : s.Recovers := by
  obtain ⟨restored, hrestore, hmirrors⟩ := h.mirrored
  refine ⟨restored, hrestore, fun id => ?_⟩
  rw [AlertRouter.contains_inApp, AlertRouter.contains_inApp, hmirrors.inApp]

theorem Sound.elapse (h : s.Sound) (elapsedNs : ℕ) : (s.elapse elapsedNs).Sound where
  mirrored := by
    obtain ⟨restored, hrestore, hm⟩ := h.mirrored
    exact ⟨restored, hrestore, ⟨hm.cooldown, hm.cooldown_live, hm.room, hm.room_live, hm.inApp,
      hm.own, hm.last, hm.last_live⟩⟩
  past key d hd := by
    obtain ⟨hprocess, hinstant, hclock⟩ := h.past key d hd
    refine ⟨hprocess, Nat.le_add_right_of_le hinstant, fun heq => ⟨(hclock heq).1, ?_⟩⟩
    exact (hclock heq).2.trans (s.host.occurredMs_mono (Nat.le_add_right _ _))

theorem Sound.restart (h : s.Sound) : s.restart.Sound := by
  obtain ⟨restored, hrestore, hm⟩ := h.mirrored
  have hrestart : s.restart = { s with
      host := ⟨s.host.settings, s.instantNs, s.host.journal, restored⟩
      process := s.process + 1 } := by
    rw [AlertSession.restart, AlertHost.openAt, hrestore]
    rfl
  rw [hrestart]
  have hnext : ∀ (key : String) (d : AlertDelivery), s.delivered[key]? = some d →
      d.process ≠ s.process + 1 := fun key d hd => by have := (h.past key d hd).1; omega
  refine ⟨⟨restored, hrestore, hm.cooldown, hm.cooldown, hm.room, hm.room, rfl, hm.own, hm.last,
    fun key => ?_⟩, fun key d hd => ?_⟩
  · change restored.lastInApp key = (s.delivered[key]?).map _
    rw [hm.last]
    cases hd : s.delivered[key]? with
    | none => rfl
    | some d => rw [Option.map_some, Option.map_some, if_neg (hnext key d hd)]
  · obtain ⟨hprocess, hinstant, -⟩ := h.past key d hd
    exact ⟨Nat.le_succ_of_le hprocess, hinstant, fun heq => absurd heq (hnext key d hd)⟩

/-- A condition that is known is cooling down at the greatest time, if it ever does. -/
theorem Mirrors.cooling_restored (hm : s.Mirrors restored) (key : String) :
    restored.cooling key .inApp (2 ^ 63 - 1) =
      ((s.delivered[key]?).isSome && decide (0 < s.host.settings.cooldownMs)) := by
  rw [AlertRouter.cooling, ← hm.cooldown]
  change (restored.lastInApp key).any _ = _
  rw [hm.last]
  cases s.delivered[key]? <;> rfl

/-- A condition cools down by the clock of the process that delivered it, and for good in a later
one. -/
theorem Sound.cooling_live (h : s.Sound) (hm : s.Mirrors restored) (key : String) :
    s.host.router.cooling key .inApp s.occurredMs =
      (s.delivered[key]?).any fun d => d.process ≠ s.process ∨
        s.occurredMs - d.occurredMs < s.host.settings.cooldownMs := by
  have hclock := s.host.occurredMs_bounds s.instantNs
  have hnonneg := s.host.settings.cooldown_nonneg
  change 0 ≤ s.occurredMs ∧ s.occurredMs < 2 ^ 63 - 1 at hclock
  rw [AlertRouter.cooling, hm.cooldown_live]
  change (s.host.router.lastInApp key).any _ = _
  rw [hm.last_live]
  cases hd : s.delivered[key]? with
  | none => rfl
  | some d =>
    rw [Option.map_some, Option.any_some, Option.any_some, decide_eq_decide]
    by_cases hprocess : d.process = s.process
    · obtain ⟨hlower, hupper⟩ := (h.past key d hd).2.2 hprocess
      rw [if_pos hprocess]
      unfold saturatingSub
      constructor
      · exact fun hlt => .inr (by omega)
      · rintro (hne | hlt)
        · exact absurd hprocess hne
        · omega
    · rw [if_neg hprocess]
      unfold saturatingSub
      exact ⟨fun _ => .inl hprocess, fun _ => by omega⟩

/-- Unless an alert is due again, the host and a restart agree whether it is cooling down. -/
theorem Sound.cooling_agrees (h : s.Sound) (hm : s.Mirrors restored) {key : String}
    (hrepeats : ¬(s.Due key ∧ (0 < s.host.settings.cooldownMs ∨
      ∀ d ∈ s.delivered[key]?, d.process ≠ s.process))) :
    s.host.router.cooling key .inApp s.occurredMs = restored.cooling key .inApp (2 ^ 63 - 1) ∧
      (s.Due key → s.host.router.cooling key .inApp s.occurredMs = false) := by
  have hnonneg := s.host.settings.cooldown_nonneg
  rw [hm.cooling_restored, h.cooling_live hm]
  unfold Due at hrepeats ⊢
  cases hd : s.delivered[key]? with
  | none => exact ⟨rfl, fun _ => rfl⟩
  | some d =>
    obtain ⟨-, hinstant, hclock⟩ := h.past key d hd
    simp only [hd, Option.mem_some, exists_eq_left', forall_eq', not_and, not_or, not_lt,
      not_not] at hrepeats
    simp only [Option.mem_some, exists_eq_left', Option.any_some, Option.isSome_some,
      Bool.true_and, decide_eq_decide, decide_eq_false_iff_not]
    by_cases hprocess : d.process = s.process
    · have hpast := (hclock hprocess).2
      simp only [if_pos hprocess] at hrepeats ⊢
      refine ⟨⟨?_, fun hpos => .inr ?_⟩, fun hdue => ?_⟩
      · rintro (hne | hlt)
        · exact absurd hprocess hne
        · omega
      · by_contra hlt
        have := (hrepeats (by omega)).1
        omega
      · rintro (hne | hlt)
        · exact hne hprocess
        · omega
    · simp only [if_neg hprocess] at hrepeats ⊢
      have hearly : ¬(d.instantNs : Int) + s.host.settings.cooldownMs * 1000000 ≤ s.instantNs :=
        fun hdue => hprocess (hrepeats hdue).2
      have hpast : (d.instantNs : Int) ≤ s.instantNs := Int.ofNat_le.mpr hinstant
      exact ⟨⟨fun _ => by omega, fun _ => .inl hprocess⟩, fun hdue => absurd hdue hearly⟩

/-- The webhook leaves the in-app deliveries as they are. -/
theorem webhook_other (settings : AlertSettings) (alert : Alert) (nowMs : Int) (r : AlertRouter) :
    let r' := settings.webhookUrl.elim r fun url =>
      (AlertRouter.route alert (.webhook url) nowMs r).2
    r'.cooldownMs = r.cooldownMs ∧ r'.maxPending = r.maxPending ∧ r'.inApp = r.inApp ∧
      r'.lastInApp = r.lastInApp := by
  cases settings.webhookUrl with
  | none => exact ⟨rfl, rfl, rfl, rfl⟩
  | some url => exact AlertRouter.route_other (by simp) alert nowMs r

/-- **One alert**: unless it is due again, a restart takes it as the host did, and an alert that is
due is queued. -/
theorem Sound.transitionRiskState {next : RiskState} {failures : ℕ} (h : s.Sound)
    (hroom : s.host.router.pending.size < s.host.settings.maxPending)
    (hnext : next ≠ .running)
    (hrepeats : ¬(s.Due (riskAlert next failures s.occurredMs).dedupeKey ∧
      (0 < s.host.settings.cooldownMs ∨
        ∀ d ∈ s.delivered[(riskAlert next failures s.occurredMs).dedupeKey]?,
          d.process ≠ s.process))) :
    (s.transitionRiskState next failures).Sound ∧
      (s.Due (riskAlert next failures s.occurredMs).dedupeKey →
        s.routed (riskAlert next failures s.occurredMs) = .ok .queued) := by
  obtain ⟨restored, hrestore, hm⟩ := h.mirrored
  obtain ⟨hagrees, hdue⟩ := h.cooling_agrees hm hrepeats
  have hvalid := riskAlert_valid next failures s.occurredMs
  have hclock := s.host.occurredMs_bounds s.instantNs
  change 0 ≤ s.occurredMs ∧ s.occurredMs < 2 ^ 63 - 1 at hclock
  generalize halert : riskAlert next failures s.occurredMs = alert at *
  have htime : alert.occurredMs = s.occurredMs := by rw [← halert]; rfl
  have hroute := s.host.router.route_of_valid hvalid htime.le
  rw [if_pos (lt_of_lt_of_eq hroom hm.room_live.symm)] at hroute
  have hrestored := restored.route_of_valid hvalid (show alert.occurredMs ≤ 2 ^ 63 - 1 by omega)
  rw [if_pos (lt_of_le_of_lt (AlertRouter.size_le hm.own hm.inApp)
    (lt_of_lt_of_eq hroom hm.room.symm))] at hrestored
  have happend := AlertHost.restore_append (.raised alert) hrestore
  have hother := webhook_other s.host.settings alert s.occurredMs
  have hstep : s.transitionRiskState next failures = { s with
      host := s.host.publish alert s.occurredMs
      delivered := if s.routed alert = .ok .queued then
        s.delivered.insert alert.dedupeKey ⟨s.process, s.occurredMs, s.instantNs⟩
        else s.delivered } := by
    unfold AlertSession.transitionRiskState AlertHost.transitionRiskState
    rw [if_neg hnext]
    change AlertSession.mk (s.host.publish (riskAlert next failures s.occurredMs) s.occurredMs)
      _ _ _ = _
    rw [halert]
    simp only [hnext, ne_eq, not_false_eq_true, true_and]
  rw [hstep]
  unfold AlertHost.publish routed
  rw [hroute]
  rw [AlertHost.restoreEvent, hrestored, ← hagrees] at happend
  by_cases hcooling : s.host.router.cooling alert.dedupeKey .inApp s.occurredMs = true
  · rw [if_pos hcooling]
    rw [if_pos hcooling] at happend
    obtain ⟨hcooldown, hmax, hinApp, hlast⟩ := hother s.host.router
    refine ⟨⟨⟨restored, happend, ?_⟩, h.past⟩, fun hd => ?_⟩
    · exact ⟨hm.cooldown, hcooldown.trans hm.cooldown_live, hm.room, hmax.trans hm.room_live,
        hm.inApp.trans hinApp.symm, hm.own, hm.last, fun key =>
          (congrFun hlast key).trans (hm.last_live key)⟩
    · rw [hdue hd] at hcooling
      cases hcooling
  · rw [if_neg hcooling]
    rw [if_neg hcooling] at happend
    obtain ⟨hcooldown, hmax, hinApp, hlast⟩ :=
      hother (s.host.router.queue alert .inApp s.occurredMs)
    rw [if_pos rfl]
    refine ⟨⟨⟨_, happend, ?_⟩, fun key d hd => ?_⟩, fun _ => rfl⟩
    · refine ⟨hm.cooldown, hcooldown.trans hm.cooldown_live, hm.room, hmax.trans hm.room_live,
        ?_, fun id channel hcontains => ?_, fun key => ?_, fun key => ?_⟩
      · refine (funext fun id => ?_).trans hinApp.symm
        rw [AlertRouter.inApp_queue, AlertRouter.inApp_queue, hm.inApp]
      · rw [AlertRouter.queue, Std.TreeMap.contains_insert, Bool.or_eq_true] at hcontains
        rcases hcontains with heq | hold
        · exact (congrArg Prod.snd (Std.LawfulEqCmp.compare_eq_iff_eq.mp (beq_iff_eq.mp heq))).symm
        · exact hm.own id channel hold
      · rw [AlertRouter.lastInApp_queue, Std.TreeMap.getElem?_insert, hm.last]
        simp only [Std.LawfulEqCmp.compare_eq_iff_eq]
        split <;> rfl
      · refine (congrFun hlast key).trans ?_
        rw [AlertRouter.lastInApp_queue, Std.TreeMap.getElem?_insert, hm.last_live]
        simp only [Std.LawfulEqCmp.compare_eq_iff_eq]
        split
        · exact congrArg some (if_pos rfl).symm
        · rfl
    · rw [Std.TreeMap.getElem?_insert] at hd
      split at hd
      · cases hd
        exact ⟨le_rfl, le_rfl, fun _ => ⟨hclock.1, le_rfl⟩⟩
      · exact h.past key d hd

/-- An acknowledgement is taken by a restart as by the host. -/
theorem Sound.acknowledgeAlert (h : s.Sound) (alertId : String) :
    Sound { s with host := (s.host.acknowledgeAlert alertId).2 } := by
  obtain ⟨restored, hrestore, hm⟩ := h.mirrored
  unfold AlertHost.acknowledgeAlert
  split
  · exact h
  dsimp only
  split
  · obtain ⟨hcooldown, hmax, hlast, hown⟩ := AlertRouter.acknowledge_kept alertId restored
    obtain ⟨hcooldown', hmax', hlast', -⟩ := AlertRouter.acknowledge_kept alertId s.host.router
    refine ⟨⟨_, AlertHost.restore_append (.acknowledged alertId) hrestore,
      hcooldown.trans hm.cooldown, hcooldown'.trans hm.cooldown_live, hmax.trans hm.room,
      hmax'.trans hm.room_live, funext fun id => ?_,
      fun id channel hcontains => hm.own id channel (hown id channel hcontains),
      fun key => (congrFun hlast key).trans (hm.last key), fun key => (congrFun hlast' key).trans (hm.last_live key)⟩, h.past⟩
    exact (AlertRouter.inApp_acknowledge alertId id restored).trans
      (by rw [AlertRouter.inApp_acknowledge, hm.inApp])
  · exact h

/-- An acknowledgement of the webhook leaves the in-app deliveries as they are. -/
theorem Sound.acknowledgeWebhookAlert (h : s.Sound) (alertId : String) :
    Sound { s with host := (s.host.acknowledgeWebhookAlert alertId).2 } := by
  obtain ⟨restored, hrestore, hm⟩ := h.mirrored
  unfold AlertHost.acknowledgeWebhookAlert
  split
  · exact h
  split
  · exact h
  next url hurl =>
  have hother : Channel.webhook url ≠ .inApp := by simp
  obtain ⟨hcooldown, hmax, hinApp, hlast⟩ :=
    AlertRouter.acknowledgeChannel_other hother alertId s.host.router
  exact ⟨⟨restored, hrestore, hm.cooldown, hcooldown.trans hm.cooldown_live, hm.room,
    hmax.trans hm.room_live, hm.inApp.trans hinApp.symm, hm.own, hm.last,
    fun key => (congrFun hlast key).trans (hm.last_live key)⟩, h.past⟩

/-- A transition to the running state raises no alert. -/
theorem Sound.transitionRiskState_running (h : s.Sound) (failures : ℕ) :
    (s.transitionRiskState .running failures).Sound := by
  have hsame : s.transitionRiskState .running failures = s := by
    unfold AlertSession.transitionRiskState AlertHost.transitionRiskState
    rw [if_pos rfl]
    dsimp only
    rw [if_neg fun hnext => hnext.1 rfl]
  rw [hsame]
  exact h

/-- **What one step keeps**, and that an alert that is due is queued, unless it is due again. -/
theorem sound_step (a : AlertStep) (s : AlertSession)
    (hroom : s.host.router.pending.size < s.host.settings.maxPending) (h : s.Sound)
    (hrepeats : ¬Repeats a s) : (step a s).Sound ∧ Answers a s := by
  cases a with
  | transition next failures elapsedNs =>
    have helapsed := h.elapse elapsedNs
    by_cases hnext : next = .running
    · subst hnext
      exact ⟨helapsed.transitionRiskState_running failures, fun hne => absurd rfl hne⟩
    · obtain ⟨hsound, hanswers⟩ := helapsed.transitionRiskState hroom hnext
        fun hrepeat => hrepeats ⟨hnext, hrepeat⟩
      exact ⟨hsound, fun _ => hanswers⟩
  | acknowledge alertId => exact ⟨h.acknowledgeAlert alertId, trivial⟩
  | acknowledgeWebhook alertId => exact ⟨h.acknowledgeWebhookAlert alertId, trivial⟩
  | restart elapsedNs => exact ⟨(h.elapse elapsedNs).restart, trivial⟩

/-- The router of an empty journal has the bounds of the settings and no deliveries. -/
theorem restore_nil {settings : AlertSettings} {router : AlertRouter}
    (hrouter : AlertHost.restore settings [] = some router) :
    router.cooldownMs = settings.cooldownMs ∧ router.maxPending = settings.maxPending ∧
      router.pending = ∅ ∧ router.lastRouted = ∅ := by
  obtain ⟨fresh, hfresh, hrest⟩ := Option.bind_eq_some_iff.mp hrouter
  obtain ⟨allowed, hallowed, hfold⟩ := Option.bind_eq_some_iff.mp hrest
  cases hfold
  unfold AlertRouter.new at hfresh
  split at hfresh
  · cases hfresh
    cases hurl : settings.webhookUrl with
    | none =>
      rw [hurl] at hallowed
      cases hallowed
      exact ⟨rfl, rfl, rfl, rfl⟩
    | some url =>
      rw [hurl] at hallowed
      change AlertRouter.allowWebhook url _ = some _ at hallowed
      unfold AlertRouter.allowWebhook at hallowed
      split at hallowed
      · cases hallowed
        exact ⟨rfl, rfl, rfl, rfl⟩
      · cases hallowed
  · cases hfresh

/-- A session that starts on an empty journal. -/
theorem sound_start {settings : AlertSettings} {router : AlertRouter}
    (hrouter : AlertHost.restore settings [] = some router) : (start settings router).Sound := by
  obtain ⟨hcooldown, hmax, hpending, hlast⟩ := restore_nil hrouter
  have hnone : ∀ key : String, (start settings router).delivered[key]? = none := fun key =>
    Std.TreeMap.getElem?_emptyc
  have hlastInApp : ∀ key, router.lastInApp key = none := by
    intro key
    rw [AlertRouter.lastInApp, hlast]
    exact Std.TreeMap.getElem?_emptyc
  refine ⟨⟨router, hrouter, hcooldown, hcooldown, hmax, hmax, rfl, fun id channel hcontains => ?_,
    fun key => ?_, fun key => ?_⟩, fun key d hd => ?_⟩
  · rw [hpending, Std.TreeMap.contains_emptyc] at hcontains
    cases hcontains
  · rw [hlastInApp, hnone]
    rfl
  · exact (hlastInApp key).trans (by rw [hnone]; rfl)
  · cases (hnone key).symm.trans hd

/-- **Alerts across a restart**: along a run that has room for its alerts, and in which no alert is
due again, every restart finds the pending alerts, and alerts that are due are queued. -/
theorem alerts_recovered {settings : AlertSettings} {router : AlertRouter} {run : List AlertStep}
    (hrouter : AlertHost.restore settings [] = some router)
    (hroom : ∀ c ∈ Runs.calls step (start settings router) run,
      c.1.host.router.pending.size < c.1.host.settings.maxPending)
    (hrepeats : ∀ c ∈ Runs.calls step (start settings router) run, ¬Repeats c.2 c.1) :
    (∀ s ∈ Runs.states step (start settings router) run, s.Recovers) ∧
      ∀ c ∈ Runs.calls step (start settings router) run, Answers c.2 c.1 := by
  obtain ⟨hstates, hcalls⟩ := Runs.states_calls_of_step
    (fun a s hroom h hrepeats => sound_step a s hroom h hrepeats) (sound_start hrouter) hroom
    hrepeats
  exact ⟨fun s hs => (hstates s hs).recovers, hcalls⟩

end AlertSession

-- Three sessions

namespace Sample

/-- A cooldown of one second, room for eight alerts and no webhook. -/
def alerting : AlertSettings := ⟨1000, 8, none, by decide, by decide, by simp⟩

/-- The router of an empty journal. -/
def quietRouter : AlertRouter := ⟨1000, 8, ∅, ∅, ∅, ∅⟩

/-- A host that has raised no alert. -/
def quietSession : AlertSession := .start alerting quietRouter

/-- Two alerts about reducing within half a second, the first one acknowledged, and after a restart
a halt and a third alert about reducing. -/
def earlyAlerts : List AlertStep :=
  [.transition .reduceOnly 0 5000000, .transition .reduceOnly 0 500000000,
    .acknowledge "risk-state-5-REDUCE_ONLY", .restart 1000000, .transition .halted 1 2000000,
    .transition .reduceOnly 0 3000000, .restart 1000000]

/-- Two alerts about reducing, two seconds apart. -/
def repeatedAlerts : List AlertStep :=
  [.transition .reduceOnly 0 5000000, .transition .running 0 1000000,
    .transition .reduceOnly 0 2000000000]

/-- An alert about reducing, and two seconds later one after a restart. -/
def restartedAlerts : List AlertStep :=
  [.transition .reduceOnly 0 5000000, .restart 1000000000, .transition .reduceOnly 0 1000000000]

/-- The session before its last alert. -/
def restarted : AlertSession :=
  Runs.final AlertSession.step quietSession (restartedAlerts.take 2)

end Sample

/-- Alerts that come early are recovered. -/
theorem alerts_recovered_early :
    (∀ s ∈ Runs.states AlertSession.step Sample.quietSession Sample.earlyAlerts, s.Recovers) ∧
      ∀ c ∈ Runs.calls AlertSession.step Sample.quietSession Sample.earlyAlerts,
        AlertSession.Answers c.2 c.1 :=
  AlertSession.alerts_recovered rfl (by decide) (by decide)

/-- A repeated alert is lost by a restart, and one after a restart is suppressed. -/
theorem alerts_lost :
    (¬(Runs.final AlertSession.step Sample.quietSession Sample.repeatedAlerts).Recovers) ∧
      ¬∀ c ∈ Runs.calls AlertSession.step Sample.quietSession Sample.restartedAlerts,
        AlertSession.Answers c.2 c.1 := by
  constructor
  · rintro ⟨router, hrestore, hsame⟩
    have hlive : (Runs.final AlertSession.step Sample.quietSession
        Sample.repeatedAlerts).host.router.pending.contains
          ("risk-state-2006-REDUCE_ONLY", .inApp) = true := by decide
    have hlost : (AlertHost.restore Sample.alerting (Runs.final AlertSession.step
        Sample.quietSession Sample.repeatedAlerts).host.journal).any (fun r =>
          r.pending.contains ("risk-state-2006-REDUCE_ONLY", .inApp)) = false := by decide
    have hrestore' : AlertHost.restore Sample.alerting (Runs.final AlertSession.step
        Sample.quietSession Sample.repeatedAlerts).host.journal = some router := hrestore
    rw [hrestore', Option.any_some, hsame, hlive] at hlost
    cases hlost
  · intro hanswers
    have hcall := hanswers (Sample.restarted, .transition .reduceOnly 0 1000000000)
      (.tail _ (.tail _ (.head _)))
    have hqueued : (Sample.restarted.elapse 1000000000).routed (riskAlert .reduceOnly 0
        (Sample.restarted.elapse 1000000000).occurredMs) = .ok .queued :=
      hcall (by decide) (by decide)
    have hsuppressed : ((Sample.restarted.elapse 1000000000).routed (riskAlert .reduceOnly 0
        (Sample.restarted.elapse 1000000000).occurredMs)).toOption = some .suppressed := by
      decide
    rw [hqueued] at hsuppressed
    cases hsuppressed

end InsiderTrader
